import Lss.Analysis.FlatRates
import Lss.Model.CostWizard

/-!
# The wizard for prices does as it is told

Every part of the wizard only adds to the trail: questions with their answers everywhere, the one
request where it was agreed to, and at the very end what is written. What is written is made of
prices that were typed, looked up or confirmed in the run, each to six decimals.
-/

set_option autoImplicit false

namespace Lss.Analysis.CostAnswers

open Lss.Model Lss.Model.CostWizard Lss.Library Lss.Library.Dialog TouPlans FlatRates

/-! ## What may happen -/

/-- Someone was asked and said yes. -/
def Agreed (q : Question) (before : List Event) : Prop :=
  ∃ a, .asked q (some a) ∈ before ∧ saysYes (some a) = true

/-- Someone was asked, with a yes offered, and did not refuse. -/
def Confirmed (q : Question) (before : List Event) : Prop :=
  ∃ a, .asked q (some a) ∈ before ∧ (saysYes (some a) = true ∨ trim a = "")

section Allowed

variable (opts : Opts) (m : Machine)

/-- Where a price comes from: it was given or typed, looked up for the ZIP code or the place, or
offered and confirmed. -/
inductive Origin (before : List Event) (v : ℚ) : Prop
  | given (r : String) : opts.mode = .rate r → parseRate r = .ok v → Origin before v
  | typed (q : Question) (a : String) : .asked q (some a) ∈ before → parseRate a = .ok v →
      Origin before v
  | abroad (a : String) : .asked .rateAbroad (some a) ∈ before →
      parseTypedRate m.display a = .ok v → Origin before v
  | charge (a : String) : .asked .dailyCharge (some a) ∈ before → readCharge a = some v →
      Origin before v
  | givenZip (z code : String) : opts.mode = .zip z → lookupZip m.zip3State z = .state code v →
      Origin before v
  | typedZip (a code : String) : .asked .zip (some a) ∈ before →
      lookupZip m.zip3State a = .state code v → Confirmed .useZip before → Origin before v
  | place (code city : String) : .fetched ∈ before →
      m.location.bind (parseIpinfo m.zip3State m.readJson) = .ok (.usState code v city) →
      opts.mode = .fromIp ∨ Confirmed .useIp before → Origin before v
  | offered (which : TouPrice) (a : String) : .asked (.touPrice which (some v)) (some a) ∈ before →
      trim a = "" → Origin before v

/-- The value of a number that is finite. -/
def valueOf : Double → ℚ
  | .finite v => v
  | .infinite _ => 0
  | .notANumber => 0

/-- The prices of a plan: those of its periods, and the daily charge when there is one. -/
def planPrices : CostWizard.Plan → List ℚ
  | .flat usd _ => [usd]
  | .tou p => ((touPeriods p).map fun t => valueOf t.usd) ++
      if p.fixedUsdPerDay.within fun v => 0 < v then [valueOf p.fixedUsdPerDay] else []

/-- What may happen after what happened. The location service is asked once, and only where the
command line or the person says so. The file is written once, not in a dry run, over another file
only where the command line or the person says so, and with prices of this run. -/
def Allowed (before : List Event) : Event → Prop
  | .asked _ _ => True
  | .skipped => True
  | .fetched => .fetched ∉ before ∧ (opts.mode = .fromIp ∨ Agreed .consent before)
  | .wrote plan _ => opts.dryRun = false ∧ (∀ plan text, .wrote plan text ∉ before) ∧
      (m.file = none ∨ opts.force = true ∨ Agreed .replace before) ∧
      ∀ v ∈ planPrices plan, Origin opts m before v

/-- A file is changed only when told to, and the network is used only with consent. -/
structure Careful (r : Outcome) : Prop where
  unchanged : r.file = m.file ∨
    (r.code = 0 ∧ .skipped ∉ r.trail ∧ opts.dryRun = false)
  trail : EachAfter (Allowed opts m) r.trail
  written : ∀ plan text, .wrote plan text ∈ r.trail → r.file = some text

end Allowed

/-- The prices that are read in a file. -/
def tablePrices (t : RateTable) : List ℚ :=
  (match t.plan with
    | .flat usd => [usd]
    | .timeOfUse _ _ _ periods => periods.map Period.usdPerKwh) ++ t.fixedUsdPerDay.toList

/-- What is written reads back with the prices that were settled on. -/
def AsSettled (readToml : String → Option (List Toml.Section)) (r : Outcome) : Prop :=
  ∀ plan text, .wrote plan text ∈ r.trail →
    ∃ table, parseRatesFile readToml text = some table ∧ tablePrices table = planPrices plan

/-- A plan that was picked goes into the file: not in a dry run, not where the file cannot be
written, and over another file only with `--force` or a yes as the next answer. -/
def Saves (opts : Opts) (m : Machine) (t : Talk Event) : Prop :=
  opts.dryRun = false ∧ m.writable = true ∧
    (m.file = none ∨ opts.force = true ∨ (opts.mode = .ask ∧ saysYes t.answers.head? = true))

/-- The prices that are picked to go into the file have at most six decimals each. -/
def PicksSixDecimals (opts : Opts) (m : Machine) (answers : List String) : Prop :=
  ∀ plan t, (pick m opts).result ⟨answers, []⟩ = (.ok plan, t) → Saves opts m t →
    ∀ v ∈ planPrices plan, toSixDecimals v = v

/-! ## Questions -/

/-- A question and its answer. -/
def IsQuestion : Event → Prop
  | .asked _ _ => True
  | _ => False

variable {kept : List Event → Prop}

theorem ask_keeps (hk : Stable IsQuestion kept) (q : Question) :
    Keeps kept (ask q) fun a trail => .asked q a ∈ trail := Keeps.ask hk fun _ => trivial

theorem answer_keeps (hk : Stable IsQuestion kept) (q : Question) :
    Keeps kept (answer q) fun a trail => .asked q (some a) ∈ trail := by
  apply Keeps.bind (ask_keeps hk q)
  intro a
  cases a with
  | none => exact Keeps.throw
  | some a => exact Keeps.pure fun trail h => h.2

/-- A yes was said, or it was the default and not refused. -/
theorem yesNo_keeps (hk : Stable IsQuestion kept) (q : Question) (default : Bool) :
    Keeps kept (yesNo q default) fun yes trail => yes = true →
      ∃ a, .asked q (some a) ∈ trail ∧
        (saysYes (some a) = true ∨ (default = true ∧ trim a = "")) := by
  apply Keeps.bind (ask_keeps hk q)
  intro a
  apply Keeps.pure
  rintro trail ⟨_, asked⟩ yes
  cases a with
  | none => cases yes
  | some a =>
      refine ⟨a, asked, ?_⟩
      by_cases blank : trim a = ""
      · rw [Option.any_some, if_pos (decide_eq_true blank)] at yes
        exact .inr ⟨yes, blank⟩
      · rw [Option.any_some, if_neg (by simpa using blank)] at yes
        exact .inl yes

theorem yesNo_agreed (hk : Stable IsQuestion kept) (q : Question) :
    Keeps kept (yesNo q false) fun yes trail => yes = true → Agreed q trail := by
  apply (yesNo_keeps hk q false).imp
  intro yes trail _ h hyes
  obtain ⟨a, asked, said⟩ := h hyes
  exact ⟨a, asked, said.resolve_right fun h => Bool.false_ne_true h.1⟩

theorem yesNo_confirmed (hk : Stable IsQuestion kept) (q : Question) :
    Keeps kept (yesNo q true) fun yes trail => yes = true → Confirmed q trail := by
  apply (yesNo_keeps hk q true).imp
  intro yes trail _ h hyes
  obtain ⟨a, asked, said⟩ := h hyes
  exact ⟨a, asked, said.imp_right And.right⟩

theorem tries_keeps {α : Type} {after : α → List Event → Prop} {once : Ask (Option α)}
    (honce : Keeps kept once fun o trail => ∀ a, o = some a → after a trail) (n code : ℕ)
    (message : String) : Keeps kept (tries once n code message) after :=
  Keeps.tries honce Keeps.throw n

/-- A part of the wizard of which nothing more is needed. -/
theorem keeps_true {α : Type} {part : Ask α} {after : α → List Event → Prop}
    (h : Keeps kept part after) : Keeps kept part fun _ _ => True := h.imp fun _ _ _ _ => trivial

theorem stable_confirmed (q : Question) : Stable IsQuestion (Confirmed q) :=
  fun _ _ _ ⟨a, asked, said⟩ => ⟨a, List.mem_append_left _ asked, said⟩

/-! ## Prices -/

section Prices

variable {opts : Opts} {m : Machine}

theorem Origin.mono {before : List Event} {v : ℚ} (h : Origin opts m before v) (e : Event) :
    Origin opts m (before ++ [e]) v := by
  have later : ∀ {e' : Event}, e' ∈ before → e' ∈ before ++ [e] := List.mem_append_left _
  have confirmed : ∀ {q : Question}, Confirmed q before → Confirmed q (before ++ [e]) :=
    fun ⟨a, asked, said⟩ => ⟨a, later asked, said⟩
  cases h with
  | given r mode read => exact .given r mode read
  | typed q a asked read => exact .typed q a (later asked) read
  | abroad a asked read => exact .abroad a (later asked) read
  | charge a asked read => exact .charge a (later asked) read
  | givenZip z code mode found => exact .givenZip z code mode found
  | typedZip a code asked found said => exact .typedZip a code (later asked) found (confirmed said)
  | place code city fetched found said =>
      exact .place code city (later fetched) found (said.imp_right confirmed)
  | offered which a asked blank => exact .offered which a (later asked) blank

variable (opts m) in
theorem stable_origin (v : ℚ) : Stable IsQuestion fun trail => Origin opts m trail v :=
  fun _ e _ h => h.mono e

theorem usualRate_nonneg {usd v : ℚ} (h : usualRate usd = .ok v) : 0 ≤ v := by
  unfold usualRate at h
  split at h
  · cases h
  · split at h
    · cases h
    · rename_i cheap
      cases h
      exact le_trans (by norm_num) (not_lt.mp cheap)

theorem parseRate_nonneg {a : String} {v : ℚ} (h : parseRate a = .ok v) : 0 ≤ v := by
  unfold parseRate at h
  dsimp only at h
  split at h
  · cases h
  · split at h
    · cases h
    · split at h
      · cases h
      · exact usualRate_nonneg h

theorem homeRate_eq {display : Double → String} {w v : ℚ} (h : homeRate display w = .ok v) :
    w = v := by
  unfold homeRate at h
  split at h
  · cases h
  · exact Except.ok.inj h

theorem parseTypedRate_nonneg {display : Double → String} {a : String} {v : ℚ}
    (h : parseTypedRate display a = .ok v) : 0 ≤ v := by
  unfold parseTypedRate at h
  dsimp only at h
  split at h
  · cases h
  · split at h
    · cases h
    · split at h
      · cases h
      · rename_i positive
        have positive := (not_le.mp positive).le
        rw [← homeRate_eq h]
        split
        · exact div_nonneg positive (by norm_num)
        · exact positive

theorem residential_nonneg : ∀ p ∈ residentialCentsPerKwh, 0 ≤ p.2 := by decide +kernel

theorem stateUsdPerKwh_nonneg {code : String} {v : ℚ} (h : stateUsdPerKwh code = some v) :
    0 ≤ v := by
  unfold stateUsdPerKwh lookup at h
  split at h
  · cases h
  · rw [Option.map_map] at h
    obtain ⟨p, hp, rfl⟩ := Option.map_eq_some_iff.mp h
    exact div_nonneg (residential_nonneg p (List.mem_of_find?_eq_some hp)) (by norm_num)

theorem lookupZip_nonneg {zip3State : ℕ → String} {z code : String} {v : ℚ}
    (h : lookupZip zip3State z = .state code v) : 0 ≤ v := by
  unfold lookupZip at h
  dsimp only at h
  split at h
  · cases h
  · split at h
    · cases h
    · split at h
      · cases h
      · split at h
        · cases h
        · split at h
          · rename_i found
            rw [← (ZipLookup.state.inj h).2]
            exact stateUsdPerKwh_nonneg found
          · cases h

theorem parseIpinfo_nonneg {zip3State : ℕ → String} {readJson : String → Except String IpAnswer}
    {json code city : String} {v : ℚ}
    (h : parseIpinfo zip3State readJson json = .ok (.usState code v city)) : 0 ≤ v := by
  unfold parseIpinfo at h
  obtain ⟨answer, _, h⟩ := bind_eq_ok.mp h
  dsimp only at h
  split at h
  · cases h
  · split at h
    · cases h
    · split at h
      · cases h
      · split at h
        · rename_i found
          obtain ⟨code', _, hmap⟩ := Option.bind_eq_some_iff.mp found
          obtain ⟨usd, husd, hpair⟩ := Option.map_eq_some_iff.mp hmap
          rw [← (IpLocation.usState.inj (Except.ok.inj h)).2.1, ← (Prod.mk.inj hpair).2]
          exact stateUsdPerKwh_nonneg husd
        · split at h
          · rename_i found
            obtain ⟨z, _, hz⟩ := Option.map_eq_some_iff.mp found
            rw [← (IpLocation.usState.inj (Except.ok.inj h)).2.1]
            exact lookupZip_nonneg hz
          · cases h

variable (opts m) in
/-- A flat price that can be written. -/
def Good (usd : ℚ) (trail : List Event) : Prop := 0 ≤ usd ∧ Origin opts m trail usd

theorem readRate_keeps (hk : Stable IsQuestion kept) (a : String) :
    Keeps kept (readRate a) fun o _ => ∀ v, o = some v → parseRate a = .ok v := by
  unfold readRate
  split
  · rename_i v read
    have doubt : Keeps kept (centsConfirmed a) fun _ _ => True := by
      unfold centsConfirmed
      split
      · exact Keeps.pure fun _ _ => trivial
      · exact keeps_true (yesNo_keeps hk _ _)
    apply Keeps.bind doubt
    intro yes
    split
    · apply Keeps.pure
      intro trail _ v' hv
      rw [← Option.some.inj hv]
      exact read
    · exact Keeps.pure fun _ _ _ => nofun
  · exact Keeps.pure fun _ _ _ => nofun

theorem askRate_keeps (hk : Stable IsQuestion kept) : Keeps kept askRate (Good opts m) := by
  apply tries_keeps
  apply Keeps.bind (answer_keeps hk .rate)
  intro a
  apply (readRate_keeps (hk.and (stable_mem _)) a).imp
  rintro o trail ⟨_, asked⟩ read v hv
  exact ⟨parseRate_nonneg (read v hv), .typed .rate a asked (read v hv)⟩

theorem manual_keeps (hk : Stable IsQuestion kept) :
    Keeps kept manual fun p trail => Good opts m p.1 trail := by
  apply Keeps.bind (askRate_keeps hk)
  intro v
  exact Keeps.pure fun trail h => h.2

theorem askCountry_keeps (hk : Stable IsQuestion kept) :
    Keeps kept askCountry fun _ _ => True := by
  apply tries_keeps
  apply Keeps.bind (answer_keeps hk .country)
  intro a
  split
  · exact Keeps.pure fun _ _ _ _ => trivial
  · split
    · apply Keeps.bind (yesNo_keeps (hk.and (stable_mem _)) .countryCode false)
      intro yes
      split
      · exact Keeps.pure fun _ _ _ _ => trivial
      · exact Keeps.pure fun _ _ _ _ => trivial
    · exact Keeps.pure fun _ _ _ _ => trivial
  · exact Keeps.pure fun _ _ _ _ => trivial

theorem askCurrency_keeps (hk : Stable IsQuestion kept) (country : String) :
    Keeps kept (askCurrency country) fun _ _ => True := by
  unfold askCurrency
  split
  · exact Keeps.pure fun _ _ => trivial
  · apply Keeps.bind (answer_keeps hk .currency)
    intro a
    exact Keeps.pure fun _ _ => trivial

theorem askRateAbroad_keeps (hk : Stable IsQuestion kept) (country : String) :
    Keeps kept (askRateAbroad m country) fun p trail => Good opts m p.1 trail := by
  have rate : Keeps kept (tries (do
      let a ← answer .rateAbroad
      pure (parseTypedRate m.display a).toOption)
      3 1 "no usable rate after 3 tries - cost tracking stays off") (Good opts m) := by
    apply tries_keeps
    apply Keeps.bind (answer_keeps hk .rateAbroad)
    intro a
    apply Keeps.pure
    rintro trail ⟨_, asked⟩ v hv
    have read : parseTypedRate m.display a = .ok v := by
      cases typed : parseTypedRate m.display a with
      | ok w =>
          rw [typed] at hv
          exact congrArg Except.ok (Option.some.inj hv)
      | error e =>
          rw [typed] at hv
          cases hv
    exact ⟨parseTypedRate_nonneg read, .abroad a asked read⟩
  apply Keeps.bind rate
  intro v
  have good : Stable IsQuestion (Good opts m v) := (stable_const _).and (stable_origin opts m v)
  apply Keeps.bind (askCurrency_keeps (hk.and good) country)
  intro currency
  exact Keeps.pure fun trail h => h.1.2

theorem fromZip_keeps {z : String} (hmode : opts.mode = .zip z) :
    Keeps kept (fromZip m z) fun p trail => Good opts m p.1 trail := by
  unfold fromZip
  split
  · rename_i code usd found
    exact Keeps.pure fun trail _ => ⟨lookupZip_nonneg found, .givenZip z code hmode found⟩
  · exact Keeps.throw

theorem askZip_keeps (hk : Stable IsQuestion kept) :
    Keeps kept (askZip m) fun p trail => Good opts m p.1 trail := by
  have typed : ∀ {kept : List Event → Prop}, Stable IsQuestion kept →
      Keeps kept (do
        let picked ← manual
        pure (some picked)) fun o trail => ∀ p, o = some p → Good opts m p.1 trail := by
    intro kept hk
    apply Keeps.bind (manual_keeps hk)
    intro picked
    apply Keeps.pure
    rintro trail h p hp
    rw [← Option.some.inj hp]
    exact h.2
  apply Keeps.tries _ (manual_keeps hk)
  apply Keeps.bind (answer_keeps hk .zip)
  intro a
  have hk := hk.and (stable_mem (Event.asked .zip (some a)))
  split
  · rename_i code usd found
    apply Keeps.bind (yesNo_confirmed hk .useZip)
    intro yes
    split
    · rename_i said
      apply Keeps.pure
      rintro trail ⟨⟨_, asked⟩, confirmed⟩ p hp
      rw [← Option.some.inj hp]
      exact ⟨lookupZip_nonneg found, .typedZip a code asked found (confirmed said)⟩
    · exact typed (hk.and (stable_confirmed .useZip).imp)
  · exact typed hk
  · exact Keeps.pure fun _ _ _ => nofun

/-! ## The location service -/

theorem takePlace_keeps (hk : Stable IsQuestion kept) {interactive : Bool}
    (hmode : interactive = false → opts.mode = .fromIp)
    (hfetched : ∀ trail, kept trail → .fetched ∈ trail) {code city : String} {usd : ℚ}
    (found : m.location.bind (parseIpinfo m.zip3State m.readJson) =
      .ok (.usState code usd city)) :
    Keeps kept (takePlace m interactive code usd) fun p trail => Good opts m p.1 trail := by
  have nonneg : 0 ≤ usd := by
    obtain ⟨json, _, parsed⟩ := bind_eq_ok.mp found
    exact parseIpinfo_nonneg parsed
  unfold takePlace
  split
  · apply Keeps.bind (yesNo_confirmed hk .useIp)
    intro yes
    split
    · rename_i said
      apply Keeps.pure
      rintro trail ⟨ht, confirmed⟩
      exact ⟨nonneg, .place code city (hfetched trail ht) found (.inr (confirmed said))⟩
    · exact askZip_keeps (hk.and (stable_confirmed .useIp).imp)
  · rename_i silent
    rw [Bool.not_eq_true] at silent
    exact Keeps.pure fun trail ht =>
      ⟨nonneg, .place code city (hfetched trail ht) found (.inl (hmode silent))⟩

theorem takeLocation_keeps (hk : Stable IsQuestion kept) {interactive : Bool}
    (hmode : interactive = false → opts.mode = .fromIp)
    (hfetched : ∀ trail, kept trail → .fetched ∈ trail) :
    Keeps kept (takeLocation m interactive) fun p trail => Good opts m p.1 trail := by
  unfold takeLocation
  split
  · rename_i code usd city found
    exact takePlace_keeps hk hmode hfetched found
  · split
    · exact manual_keeps hk
    · exact Keeps.throw
  · split
    · exact askZip_keeps hk
    · exact Keeps.throw
  · split
    · exact askZip_keeps hk
    · exact Keeps.throw

/-! ## A time-of-use plan -/

variable (opts m) in
theorem askPrice_keeps (hk : Stable IsQuestion kept) (which : TouPrice) (default : Option ℚ) :
    Keeps kept (askPrice which default) fun v trail => Origin opts m trail v := by
  apply tries_keeps
  apply Keeps.bind (answer_keeps hk (.touPrice which default))
  intro a
  split
  · rename_i d hd
    obtain ⟨rfl, blank⟩ := Option.filter_eq_some_iff.mp hd
    apply Keeps.pure
    rintro trail ⟨_, asked⟩ v hv
    rw [← Option.some.inj hv]
    exact .offered which a asked (of_decide_eq_true blank)
  · apply (readRate_keeps (hk.and (stable_mem _)) a).imp
    rintro o trail ⟨_, asked⟩ read v hv
    exact .typed _ a asked (read v hv)

theorem askNumber_keeps (hk : Stable IsQuestion kept) (which : TouNumber) (default low high : ℕ) :
    Keeps kept (askNumber which default low high) fun _ _ => True := by
  apply tries_keeps
  apply Keeps.bind (answer_keeps hk (.touNumber which))
  intro a
  split
  · exact Keeps.pure fun _ _ _ _ => trivial
  · exact Keeps.pure fun _ _ _ _ => trivial

variable (opts m) in
theorem priceOrZero_keeps (hk : Stable IsQuestion kept) :
    Keeps kept priceOrZero fun v trail => Origin opts m trail v := by
  apply tries_keeps
  apply Keeps.bind (answer_keeps hk .dailyCharge)
  intro a
  exact Keeps.pure fun trail h v hv => .charge a h.2 hv

variable (opts m) in
theorem askSeasons_keeps (hk : Stable IsQuestion kept) (onPeak : ℚ) :
    Keeps kept (askSeasons onPeak) fun o trail => ∀ s, o = some s →
      ∃ v, s.winterPeak = .finite v ∧ Origin opts m trail v := by
  apply Keeps.bind (keeps_true (yesNo_keeps hk .seasons false))
  intro yes
  have hk := hk.and (stable_const True)
  split
  · apply Keeps.bind (askNumber_keeps hk .summerStart 6 1 12)
    intro summerStart
    have hk := hk.and (stable_const True)
    apply Keeps.bind (askNumber_keeps hk .summerEnd 10 1 12)
    intro summerEnd
    have hk := hk.and (stable_const True)
    apply Keeps.bind (askPrice_keeps opts m hk .winterPeak (some onPeak))
    intro winterPeak
    apply Keeps.pure
    rintro trail ⟨_, origin⟩ s hs
    rw [← Option.some.inj hs]
    exact ⟨winterPeak, rfl, origin⟩
  · exact Keeps.pure fun _ _ _ => nofun

/-- A period has one of the prices that are asked for. -/
theorem usd_touPeriods {p : TouPlan} {t : TouPeriod} (ht : t ∈ touPeriods p) :
    t.usd = p.onPeak ∨ t.usd = p.offPeak ∨ t.usd = p.weekendPeak ∨
      ∃ s, p.seasons = some s ∧ t.usd = s.winterPeak := by
  have hspan := (List.mem_filter.mp ht).1
  cases hs : p.seasons with
  | none =>
      rw [hs] at hspan
      simp only [Option.isSome_none, List.append_nil, List.mem_cons, List.not_mem_nil,
        or_false] at hspan
      rcases hspan with rfl | rfl | rfl | rfl | rfl | rfl <;> simp
  | some s =>
      rw [hs] at hspan
      simp only [Option.isSome_some, if_true, List.cons_append, List.nil_append, List.mem_cons,
        List.not_mem_nil, or_false] at hspan
      rcases hspan with rfl | rfl | rfl | rfl | rfl | rfl | rfl | rfl | rfl <;> simp

variable (opts m) in
/-- A plan that can be written, with prices of this run. -/
structure Fits (plan : CostWizard.Plan) (trail : List Event) : Prop where
  writable : match plan with
    | .flat usd _ => 0 ≤ usd
    | .tou p => checkTou m.display p = .ok ()
  prices : ∀ v ∈ planPrices plan, Origin opts m trail v

theorem Good.fits {usd : ℚ} {trail : List Event} (h : Good opts m usd trail)
    (origin : RateOrigin) : Fits opts m (.flat usd origin) trail := by
  refine ⟨h.1, ?_⟩
  intro v hv
  rw [List.mem_singleton.mp hv]
  exact h.2

variable (opts m) in
/-- The prices of a plan are of this run. -/
structure Told (p : TouPlan) (trail : List Event) : Prop where
  onPeak : Origin opts m trail (valueOf p.onPeak)
  offPeak : Origin opts m trail (valueOf p.offPeak)
  weekendPeak : Origin opts m trail (valueOf p.weekendPeak)
  winterPeak : ∀ s, p.seasons = some s → Origin opts m trail (valueOf s.winterPeak)
  charge : Origin opts m trail (valueOf p.fixedUsdPerDay)

theorem Told.fits {p : TouPlan} {trail : List Event} (h : Told opts m p trail)
    (accepted : checkTou m.display p = .ok ()) : Fits opts m (.tou p) trail := by
  refine ⟨accepted, ?_⟩
  intro v hv
  rcases List.mem_append.mp hv with hv | hv
  · obtain ⟨t, ht, rfl⟩ := List.mem_map.mp hv
    rcases usd_touPeriods ht with h' | h' | h' | ⟨s, hs, h'⟩
    · rw [h']
      exact h.onPeak
    · rw [h']
      exact h.offPeak
    · rw [h']
      exact h.weekendPeak
    · rw [h']
      exact h.winterPeak s hs
  · split at hv
    · rw [List.mem_singleton.mp hv]
      exact h.charge
    · exact absurd hv List.not_mem_nil

theorem stable_told (p : TouPlan) : Stable IsQuestion (Told opts m p) :=
  fun _ e _ h => ⟨h.onPeak.mono e, h.offPeak.mono e, h.weekendPeak.mono e,
    fun s hs => (h.winterPeak s hs).mono e, h.charge.mono e⟩

theorem askPlan_keeps (hk : Stable IsQuestion kept) :
    Keeps kept askPlan fun p trail => Told opts m p trail := by
  apply Keeps.bind (askPrice_keeps opts m hk .onPeak none)
  intro onPeak
  have hk := hk.and (stable_origin opts m onPeak)
  apply Keeps.bind (askNumber_keeps hk .peakStart 16 0 23)
  intro peakStart
  have hk := hk.and (stable_const True)
  apply Keeps.bind (askNumber_keeps hk .peakEnd 21 1 24)
  intro peakEnd
  have hk := hk.and (stable_const True)
  apply Keeps.bind (askPrice_keeps opts m hk .offPeak none)
  intro offPeak
  have hk := hk.and (stable_origin opts m offPeak)
  apply Keeps.bind (askPrice_keeps opts m hk .weekendPeak (some onPeak))
  intro weekendPeak
  have hk := hk.and (stable_origin opts m weekendPeak)
  apply Keeps.bind (askSeasons_keeps opts m hk onPeak)
  intro seasons
  have stable_seasons : Stable IsQuestion fun trail => ∀ s, seasons = some s →
      ∃ v, s.winterPeak = .finite v ∧ Origin opts m trail v :=
    fun trail e _ h s hs =>
      let ⟨v, finite, origin⟩ := h s hs
      ⟨v, finite, origin.mono e⟩
  have hk := hk.and stable_seasons
  apply Keeps.bind (priceOrZero_keeps opts m hk)
  intro charge
  apply Keeps.pure
  rintro trail ⟨⟨⟨⟨⟨⟨⟨_, hon⟩, _⟩, _⟩, hoff⟩, hweekend⟩, hseasons⟩, hcharge⟩
  refine ⟨hon, hoff, hweekend, ?_, hcharge⟩
  intro s hs
  obtain ⟨v, finite, origin⟩ := hseasons s hs
  rw [finite]
  exact origin

theorem checkPlan_keeps (hk : Stable IsQuestion kept) {plan : TouPlan}
    (told : ∀ trail, kept trail → Told opts m plan trail) :
    Keeps kept (checkPlan m plan) fun o trail => ∀ p, o = some p → Fits opts m (.tou p) trail := by
  unfold checkPlan
  split
  · rename_i accepted
    split
    · apply Keeps.pure
      intro trail h p hp
      rw [← Option.some.inj hp]
      exact (told trail h).fits accepted
    · apply Keeps.bind (keeps_true (yesNo_keeps hk .useDoubts false))
      intro yes
      split
      · apply Keeps.pure
        intro trail h p hp
        rw [← Option.some.inj hp]
        exact (told trail h.1).fits accepted
      · exact Keeps.pure fun _ _ _ => nofun
  · exact Keeps.pure fun _ _ _ => nofun

theorem askTou_keeps (hk : Stable IsQuestion kept) :
    Keeps kept (askTou m) fun p trail => Fits opts m (.tou p) trail := by
  apply tries_keeps
  apply Keeps.bind (askPlan_keeps hk)
  intro plan
  exact checkPlan_keeps (hk.and (stable_told plan)) fun _ h => h.2

/-! ## The run -/

variable (opts m) in
/-- Nothing happened yet that may not, nothing was skipped and nothing is written. -/
def Quiet (trail : List Event) : Prop :=
  EachAfter (Allowed opts m) trail ∧ .skipped ∉ trail ∧ ∀ plan text, .wrote plan text ∉ trail

variable (opts m) in
/-- And the network was not used. -/
def Unused (trail : List Event) : Prop := Quiet opts m trail ∧ .fetched ∉ trail

theorem allowed_question {before : List Event} {e : Event} (h : IsQuestion e) :
    Allowed opts m before e := by
  cases e with
  | asked q a => trivial
  | fetched => cases h
  | skipped => trivial
  | wrote plan text => cases h

theorem stable_quiet : Stable IsQuestion (Quiet opts m) := by
  have written : Stable IsQuestion fun trail => ∀ plan text, Event.wrote plan text ∉ trail :=
    fun trail e he h plan text => stable_not_mem (fun h => h) trail e he (h plan text)
  exact (stable_eachAfter fun _ _ => allowed_question).and
    ((stable_not_mem fun h => h).and written)

theorem stable_unused : Stable IsQuestion (Unused opts m) :=
  stable_quiet.and (stable_not_mem fun h => h)

/-- The request, once it was agreed to. -/
theorem quiet_fetched {trail : List Event} (h : Unused opts m trail)
    (agreed : opts.mode = .fromIp ∨ Agreed .consent trail) :
    Quiet opts m (trail ++ [.fetched]) := by
  obtain ⟨⟨allowed, skipped, written⟩, fetched⟩ := h
  refine ⟨eachAfter_concat.mpr ⟨allowed, fetched, agreed⟩, ?_, ?_⟩
  · intro hmem
    rcases List.mem_append.mp hmem with hmem | hmem
    · exact skipped hmem
    · cases List.mem_singleton.mp hmem
  · intro plan text hmem
    rcases List.mem_append.mp hmem with hmem | hmem
    · exact written plan text hmem
    · cases List.mem_singleton.mp hmem

/-- What a dialogue of questions comes to before the network is used. -/
theorem quiet_of_keeps {α : Type} {part : Ask α} {after : α → List Event → Prop}
    (h : Keeps (Unused opts m) part after) :
    Triple (Unused opts m) part (fun a trail => Quiet opts m trail ∧ after a trail)
      (Quiet opts m) :=
  Triple.imp h (fun _ ht => ht) (fun _ _ ht => ⟨ht.1.1, ht.2⟩) fun _ ht => ht.1

theorem fromIp_triple {interactive : Bool} (hmode : interactive = false → opts.mode = .fromIp) :
    Triple (Unused opts m) (fromIp m interactive)
      (fun p trail => Quiet opts m trail ∧ Good opts m p.1 trail) (Quiet opts m) := by
  have consent : Keeps (Unused opts m) (askConsent interactive) fun yes trail =>
      yes = true → opts.mode = .fromIp ∨ Agreed .consent trail := by
    unfold askConsent
    split
    · apply (yesNo_agreed stable_unused .consent).imp
      exact fun yes trail _ agreed hyes => .inr (agreed hyes)
    · rename_i silent
      rw [Bool.not_eq_true] at silent
      exact Keeps.pure fun trail _ _ => .inl (hmode silent)
  apply Triple.bind (consent.triple fun _ h => h.1)
  intro yes
  split
  · rename_i said
    have fetched : ∀ trail, (Unused opts m trail ∧
        (yes = true → opts.mode = .fromIp ∨ Agreed .consent trail)) →
          Quiet opts m (trail ++ [.fetched]) ∧ Event.fetched ∈ trail ++ [.fetched] :=
      fun trail h => ⟨quiet_fetched h.1 (h.2 said), List.mem_append_right _
        (List.mem_singleton_self _)⟩
    have located := takeLocation_keeps (m := m) (stable_quiet.and (stable_mem .fetched)) hmode
      fun trail (h : Quiet opts m trail ∧ .fetched ∈ trail) => h.2
    exact Triple.note_bind fetched
      (Triple.imp located (fun _ h => h) (fun _ _ h => ⟨h.1.1, h.2⟩) fun _ h => h.1)
  · exact Triple.imp (quiet_of_keeps (askZip_keeps stable_unused)) (fun _ h => h.1)
      (fun _ _ h => h) fun _ h => h

/-- A flat price makes a plan. -/
theorem flat_triple {part : Ask (ℚ × RateOrigin)}
    (h : Triple (Unused opts m) part (fun p trail => Quiet opts m trail ∧ Good opts m p.1 trail)
      (Quiet opts m)) :
    Triple (Unused opts m) (flat part)
      (fun plan trail => Quiet opts m trail ∧ Fits opts m plan trail) (Quiet opts m) := by
  apply Triple.bind h
  intro p
  exact Triple.pure fun trail ht => ⟨ht.1, ht.2.fits p.2⟩

theorem takeChoice_triple (choice : Choice) :
    Triple (Unused opts m) (takeChoice m choice)
      (fun plan trail => Quiet opts m trail ∧ Fits opts m plan trail) (Quiet opts m) := by
  cases choice with
  | zip => exact flat_triple (quiet_of_keeps (askZip_keeps stable_unused))
  | fromIp => exact flat_triple (fromIp_triple nofun)
  | rate => exact flat_triple (quiet_of_keeps (manual_keeps stable_unused))
  | skip => exact Triple.throw fun _ h => h.1
  | tou =>
      apply Triple.bind (quiet_of_keeps (askTou_keeps stable_unused))
      intro plan
      exact Triple.pure fun trail h => h

theorem askMenu_triple :
    Triple (Unused opts m) (askMenu m)
      (fun plan trail => Quiet opts m trail ∧ Fits opts m plan trail) (Quiet opts m) := by
  apply Triple.bind ((askCountry_keeps stable_unused).triple fun _ h => h.1)
  intro country
  split
  · rename_i code
    exact Triple.imp (flat_triple (quiet_of_keeps (askRateAbroad_keeps stable_unused code)))
      (fun _ h => h.1) (fun _ _ h => h) fun _ h => h
  · have menu : Keeps (Unused opts m) (tries (do
        let a ← answer .menu
        pure (readChoice a)) 5 2 "no valid choice after 5 tries") fun _ _ => True := by
      apply tries_keeps
      apply Keeps.bind (answer_keeps stable_unused .menu)
      intro a
      exact Keeps.pure fun _ _ _ _ => trivial
    have chosen := Triple.bind (menu.triple fun _ h => h.1) fun choice =>
      Triple.imp (takeChoice_triple choice) (fun _ h => h.1) (fun _ _ h => h) fun _ h => h
    exact Triple.imp chosen (fun _ h => h.1) (fun _ _ h => h) fun _ h => h

variable (opts m) in
/-- What is picked has prices of this run, and nothing is written yet. -/
theorem pick_triple : Triple (Unused opts m) (pick m opts)
    (fun plan trail => Quiet opts m trail ∧ Fits opts m plan trail) (Quiet opts m) := by
  unfold pick
  split
  · exact Triple.throw fun _ h => h.1
  · exact askMenu_triple
  · rename_i z mode
    exact flat_triple (quiet_of_keeps (fromZip_keeps mode))
  · rename_i mode
    exact flat_triple (fromIp_triple fun _ => mode)
  · rename_i r mode
    apply flat_triple
    apply quiet_of_keeps
    unfold fromRate
    split
    · exact Keeps.throw
    · split
      · rename_i v read
        exact Keeps.pure fun trail _ => ⟨parseRate_nonneg read, .given r mode read⟩
      · exact Keeps.throw

theorem mayReplace_keeps (hk : Stable IsQuestion kept) :
    Keeps kept (mayReplace m opts) fun yes trail =>
      yes = true → m.file = none ∨ opts.force = true ∨ Agreed .replace trail := by
  unfold mayReplace
  split
  · rename_i free
    exact Keeps.pure fun _ _ _ => free.elim (fun h => .inl (Option.isNone_iff_eq_none.mp h))
      fun h => .inr (.inl h)
  · split
    · apply (yesNo_agreed hk .replace).imp
      exact fun yes trail _ agreed hyes => .inr (.inr (agreed hyes))
    · exact Keeps.pure fun _ _ => nofun

theorem stable_fits (plan : CostWizard.Plan) : Stable IsQuestion (Fits opts m plan) :=
  fun _ e _ h => ⟨h.writable, fun v hv => (h.prices v hv).mono e⟩

variable (opts m) in
/-- How the trail ends: nothing is written, or a plan that fits is, at the very end. -/
def Ended (code : ℕ) (trail : List Event) : Prop :=
  Quiet opts m trail ∨ (code = 0 ∧ opts.dryRun = false ∧ ∃ before plan,
    trail = before ++ [.wrote plan (render m plan)] ∧ Quiet opts m before ∧
      Fits opts m plan before ∧ (m.file = none ∨ opts.force = true ∨ Agreed .replace before))

theorem save_triple (plan : CostWizard.Plan) :
    Triple (fun trail => Quiet opts m trail ∧ Fits opts m plan trail) (save m opts plan)
      (Ended opts m) (Quiet opts m) := by
  unfold save
  split
  · exact Triple.pure fun _ h => .inl h.1
  · rename_i wet
    rw [Bool.not_eq_true] at wet
    apply Triple.bind ((mayReplace_keeps (stable_quiet.and (stable_fits plan))).triple
      fun _ h => h.1)
    intro yes
    split
    · rename_i said
      split
      · have ended : ∀ trail, ((Quiet opts m trail ∧ Fits opts m plan trail) ∧
            (yes = true → m.file = none ∨ opts.force = true ∨ Agreed .replace trail)) →
              Ended opts m 0 (trail ++ [.wrote plan (render m plan)]) := by
          rintro trail ⟨⟨quiet, fits⟩, free⟩
          exact .inr ⟨rfl, wet, trail, plan, rfl, quiet, fits, free said⟩
        exact Triple.note_bind ended (Triple.pure fun _ h => h)
      · exact Triple.pure fun _ h => .inl h.1.1
    · exact Triple.pure fun _ h => .inl h.1.1

/-- What stands at the path is not changed where nothing is written. -/
theorem fileAfter_unchanged {trail : List Event}
    (h : ∀ plan text, .wrote plan text ∉ trail) : fileAfter m trail = m.file := by
  unfold fileAfter
  generalize m.file = file
  induction trail generalizing file with
  | nil => rfl
  | cons e trail ih =>
      have rest := ih fun plan text hmem => h plan text (List.mem_cons_of_mem _ hmem)
      cases e with
      | wrote plan text => exact absurd List.mem_cons_self (h plan text)
      | asked q a => exact rest file
      | fetched => exact rest file
      | skipped => exact rest file

theorem fileAfter_written (before : List Event) (plan : CostWizard.Plan) (text : String) :
    fileAfter m (before ++ [.wrote plan text]) = some text := by
  unfold fileAfter
  rw [List.foldl_append]
  rfl

variable (opts m) in
/-- How a run ends: the file is as it was, or it is what was written last. -/
def Finished (r : Outcome) : Prop :=
  (EachAfter (Allowed opts m) r.trail ∧ r.file = m.file ∧
    ∀ plan text, .wrote plan text ∉ r.trail) ∨
  (r.code = 0 ∧ opts.dryRun = false ∧ ∃ before plan,
    r.trail = before ++ [.wrote plan (render m plan)] ∧ r.file = some (render m plan) ∧
      Quiet opts m before ∧ Fits opts m plan before ∧
      (m.file = none ∨ opts.force = true ∨ Agreed .replace before))

variable (opts m) in
theorem run_finished (answers : List String) : Finished opts m (run m opts answers) := by
  have unused : Unused opts m [] :=
    ⟨⟨eachAfter_nil, List.not_mem_nil, fun _ _ => List.not_mem_nil⟩, List.not_mem_nil⟩
  have whole := (Triple.bind (pick_triple opts m) save_triple).run ⟨answers, []⟩
    unused
  unfold run
  generalize (pick m opts >>= save m opts).result ⟨answers, []⟩ = outcome at whole ⊢
  obtain ⟨s | code, t⟩ := outcome
  · obtain ⟨allowed, _, written⟩ : Quiet opts m t.trail := whole
    cases s with
    | left =>
        have still : ∀ plan text, Event.wrote plan text ∉ t.trail ++ [.skipped] := by
          intro plan text hmem
          rcases List.mem_append.mp hmem with hmem | hmem
          · exact written plan text hmem
          · cases List.mem_singleton.mp hmem
        exact .inl ⟨eachAfter_concat.mpr ⟨allowed, trivial⟩, fileAfter_unchanged still, still⟩
    | failed code message => exact .inl ⟨allowed, fileAfter_unchanged written, written⟩
  · rcases whole with ⟨allowed, _, written⟩ | ⟨hcode, wet, before, plan, trail, rest⟩
    · exact .inl ⟨allowed, fileAfter_unchanged written, written⟩
    · refine .inr ⟨hcode, wet, before, plan, trail, ?_, rest⟩
      show fileAfter m t.trail = _
      rw [trail, fileAfter_written]

theorem mem_written {before : List Event} {plan plan' : CostWizard.Plan} {text text' : String}
    (h : ∀ plan text, .wrote plan text ∉ before)
    (hmem : Event.wrote plan' text' ∈ before ++ [.wrote plan text]) :
    plan' = plan ∧ text' = text := by
  rcases List.mem_append.mp hmem with hmem | hmem
  · exact absurd hmem (h plan' text')
  · exact Event.wrote.inj (List.mem_singleton.mp hmem)

theorem Finished.careful {r : Outcome} (h : Finished opts m r) : Careful opts m r := by
  rcases h with ⟨allowed, file, written⟩ | ⟨code, wet, before, plan, trail, file, quiet, fits, free⟩
  · exact ⟨.inl file, allowed, fun plan text hmem => absurd hmem (written plan text)⟩
  · obtain ⟨allowed, skipped, written⟩ := quiet
    refine ⟨.inr ⟨code, ?_, wet⟩, ?_, ?_⟩
    · rw [trail]
      intro hmem
      rcases List.mem_append.mp hmem with hmem | hmem
      · exact skipped hmem
      · cases List.mem_singleton.mp hmem
    · rw [trail]
      exact eachAfter_concat.mpr ⟨allowed, wet, written, free, fits.prices⟩
    · intro plan' text hmem
      rw [trail] at hmem
      rw [file, (mem_written written hmem).2]

/-! ## What is read back -/

theorem priceRead_eq (v : Double) : priceRead v = toSixDecimals (valueOf v) := by
  have zero : toSixDecimals 0 = 0 := by decide +kernel
  cases v with
  | finite v => rfl
  | infinite negative => exact zero.symm
  | notANumber => exact zero.symm

theorem read_render {readToml : String → Option (List Toml.Section)}
    (correct : ∀ lines, Toml.Valid lines → readToml (Toml.text lines) = some (Toml.meaning lines))
    (htoday : Printable m.today) (htool : Printable m.tool) {plan : CostWizard.Plan} {trail : List Event}
    (h : Fits opts m plan trail) :
    ∃ table, parseRatesFile readToml (render m plan) = some table ∧
      tablePrices table = (planPrices plan).map toSixDecimals := by
  cases plan with
  | flat usd origin =>
      refine ⟨newRateTable (fileOf usd origin m.today), ?_, rfl⟩
      show (readRatesFile readToml (renderRatesToml usd origin m.today m.tool)).map newRateTable = _
      rw [read_renderRatesToml correct h.writable origin htoday htool]
      rfl
  | tou p =>
      obtain ⟨f, read, hplan, fixed⟩ := read_renderTouToml correct
        (accepted_of_checkTou h.writable) htoday htool
      refine ⟨newRateTable f, ?_, ?_⟩
      · show (readRatesFile readToml (renderTouToml p m.today m.tool)).map newRateTable = _
        rw [read]
        rfl
      · have plan_eq : (newRateTable f).plan = f.plan := rfl
        have fixed_eq : (newRateTable f).fixedUsdPerDay = f.fixedUsdPerDay := rfl
        have periods : ((touPeriods p).map periodOf).map Period.usdPerKwh =
            ((touPeriods p).map fun t => valueOf t.usd).map toSixDecimals := by
          rw [List.map_map, List.map_map]
          exact List.map_congr_left fun t _ => priceRead_eq t.usd
        have charge : (chargeRead p).toList =
            (if p.fixedUsdPerDay.within fun v => 0 < v then [valueOf p.fixedUsdPerDay]
              else []).map toSixDecimals := by
          unfold chargeRead
          split
          · rw [priceRead_eq]
            rfl
          · rfl
        unfold tablePrices planPrices
        rw [plan_eq, fixed_eq, hplan, fixed, List.map_append]
        dsimp only
        rw [periods, charge]

end Prices

/-! ## What is written -/

section Written

variable {opts : Opts} {m : Machine}

/-- The answer to the question whether to replace the file; blank is no. -/
theorem yesNo_false (q : Question) (t : Talk Event) :
    (yesNo q false).result t = (.ok (saysYes t.answers.head?),
      ⟨t.answers.tail, t.trail ++ [.asked q t.answers.head?]⟩) := by
  have same : (if t.answers.head?.any fun a => trim a = "" then false
      else saysYes t.answers.head?) = saysYes t.answers.head? := by
    cases t.answers.head? with
    | none => rfl
    | some a =>
        by_cases blank : trim a = ""
        · rw [Option.any_some, if_pos (decide_eq_true blank)]
          unfold saysYes
          rw [Option.any_some, blank]
          rfl
        · rw [Option.any_some, if_neg (by simpa using blank)]
  rw [← same]
  rfl

variable (opts m) in
/-- Whether the file may be replaced; at most the one question is added to the trail. -/
theorem mayReplace_result (t : Talk Event) : ∃ yes answers trail,
    (mayReplace m opts).result t = (.ok yes, ⟨answers, trail⟩) ∧
      (trail = t.trail ∨ ∃ a, trail = t.trail ++ [.asked .replace a]) ∧
      (yes = true ↔ (m.file = none ∨ opts.force = true ∨
        (opts.mode = .ask ∧ saysYes t.answers.head? = true))) := by
  unfold mayReplace
  split
  · rename_i free
    refine ⟨true, t.answers, t.trail, rfl, .inl rfl, iff_of_true rfl ?_⟩
    exact free.elim (fun h => .inl (Option.isNone_iff_eq_none.mp h)) fun h => .inr (.inl h)
  · rename_i taken
    rw [not_or, Option.isNone_iff_eq_none] at taken
    split
    · rename_i mode
      refine ⟨_, _, _, yesNo_false .replace t, .inr ⟨_, rfl⟩, ?_⟩
      rw [or_iff_right taken.1, or_iff_right taken.2, and_iff_right mode]
    · rename_i mode
      refine ⟨false, t.answers, t.trail, rfl, .inl rfl, iff_of_false Bool.false_ne_true ?_⟩
      rintro (h | h | h)
      · exact taken.1 h
      · exact taken.2 h
      · exact mode h.1

/-- The plan stands in the trail where it saves, and nothing is written elsewhere. -/
theorem wrote_save (plan : CostWizard.Plan) {t : Talk Event}
    (h : ∀ plan text, .wrote plan text ∉ t.trail) (plan' : CostWizard.Plan) (text : String) :
    .wrote plan' text ∈ ((save m opts plan).result t).2.trail ↔
      Saves opts m t ∧ plan' = plan ∧ text = render m plan := by
  unfold save
  split
  · rename_i dry
    refine iff_of_false (h plan' text) ?_
    rintro ⟨⟨wet, _⟩, _⟩
    exact Bool.false_ne_true (wet.symm.trans dry)
  · rename_i wet
    rw [Bool.not_eq_true] at wet
    obtain ⟨yes, answers, trail, result, trail_eq, free⟩ := mayReplace_result opts m t
    have clean : Event.wrote plan' text ∉ trail := by
      rcases trail_eq with rfl | ⟨a, rfl⟩
      · exact h plan' text
      · intro hmem
        rcases List.mem_append.mp hmem with hmem | hmem
        · exact h plan' text hmem
        · cases List.mem_singleton.mp hmem
    rw [result_bind, result]
    dsimp only
    split
    · rename_i agreed
      split
      · rename_i writable
        have saves : Saves opts m t := ⟨wet, writable, free.mp agreed⟩
        show Event.wrote plan' text ∈ trail ++ [.wrote plan (render m plan)] ↔ _
        rw [and_iff_right saves, List.mem_append, or_iff_right clean, List.mem_singleton,
          Event.wrote.injEq]
      · rename_i stuck
        exact iff_of_false clean fun saves => stuck saves.1.2.1
    · rename_i refused
      exact iff_of_false clean fun saves => refused (free.mpr saves.1.2.2)

theorem run_trail (answers : List String) (plan : CostWizard.Plan) (text : String) :
    .wrote plan text ∈ (run m opts answers).trail ↔
      .wrote plan text ∈ ((pick m opts >>= save m opts).result ⟨answers, []⟩).2.trail := by
  unfold run
  rcases (pick m opts >>= save m opts).result ⟨answers, []⟩ with ⟨s | code, t⟩
  · cases s with
    | left =>
        show _ ∈ t.trail ++ [.skipped] ↔ _
        rw [List.mem_append, List.mem_singleton]
        exact or_iff_left nofun
    | failed code message => rfl
  · rfl

/-- What is written is the plan that was picked, where it saves. -/
theorem wrote_run (answers : List String) (plan : CostWizard.Plan) (text : String) :
    .wrote plan text ∈ (run m opts answers).trail ↔
      ∃ t, (pick m opts).result ⟨answers, []⟩ = (.ok plan, t) ∧ Saves opts m t ∧
        text = render m plan := by
  have unused : Unused opts m [] :=
    ⟨⟨eachAfter_nil, List.not_mem_nil, fun _ _ => List.not_mem_nil⟩, List.not_mem_nil⟩
  have picked := (pick_triple opts m).run ⟨answers, []⟩ unused
  rw [run_trail, result_bind]
  generalize (pick m opts).result ⟨answers, []⟩ = outcome at picked ⊢
  obtain ⟨s | plan', t⟩ := outcome
  · have quiet : Quiet opts m t.trail := picked
    refine iff_of_false (quiet.2.2 plan text) ?_
    rintro ⟨_, h, _⟩
    cases h
  · have quiet : Quiet opts m t.trail := picked.1
    show _ ∈ ((save m opts plan').result t).2.trail ↔ _
    rw [wrote_save plan' quiet.2.2]
    constructor
    · rintro ⟨saves, rfl, rfl⟩
      exact ⟨t, rfl, saves, rfl⟩
    · rintro ⟨t', h, saves, rfl⟩
      cases h
      exact ⟨saves, rfl, rfl⟩

/-- Where the plan is the one that is written, its prices are those that are picked. -/
theorem picksSixDecimals_iff (answers : List String) :
    PicksSixDecimals opts m answers ↔
      ∀ plan text, .wrote plan text ∈ (run m opts answers).trail →
        ∀ v ∈ planPrices plan, toSixDecimals v = v := by
  constructor
  · intro six plan text hmem
    obtain ⟨t, picked, saves, _⟩ := (wrote_run answers plan text).mp hmem
    exact six plan t picked saves
  · intro six plan t picked saves
    exact six plan (render m plan) ((wrote_run answers plan _).mpr ⟨t, picked, saves, rfl⟩)

end Written

/-- The wizard changes the file only when told to and uses the network only with consent, and what
it writes has prices of this run. The file reads back with exactly these prices where those that
are picked for it have at most six decimals. -/
theorem cost_wizard_as_told_iff (readToml : String → Option (List Toml.Section))
    (correct : ∀ lines, Toml.Valid lines → readToml (Toml.text lines) = some (Toml.meaning lines))
    (opts : Opts) (m : Machine) (htoday : Printable m.today) (htool : Printable m.tool)
    (answers : List String) :
    Careful opts m (run m opts answers) ∧
      (AsSettled readToml (run m opts answers) ↔ PicksSixDecimals opts m answers) := by
  have finished := run_finished opts m answers
  refine ⟨finished.careful, ?_⟩
  rw [picksSixDecimals_iff]
  rcases finished with ⟨_, _, written⟩ | ⟨_, _, before, plan, trail, _, quiet, fits, _⟩
  · exact iff_of_true (fun plan text hmem => absurd hmem (written plan text))
      fun plan text hmem => absurd hmem (written plan text)
  · obtain ⟨table, read, prices⟩ := read_render correct htoday htool fits
    have wrote : Event.wrote plan (render m plan) ∈ (run m opts answers).trail := by
      rw [trail]
      exact List.mem_append_right _ (List.mem_singleton_self _)
    constructor
    · intro settled plan' text hmem
      rw [trail] at hmem
      obtain ⟨rfl, rfl⟩ := mem_written quiet.2.2 hmem
      obtain ⟨table', read', prices'⟩ := settled plan' _ wrote
      obtain rfl := Option.some.inj (read.symm.trans read')
      have same : (planPrices plan').map toSixDecimals = (planPrices plan').map id := by
        rw [← prices, prices', List.map_id]
      exact List.map_inj_left.mp same
    · intro six plan' text hmem
      rw [trail] at hmem
      obtain ⟨rfl, rfl⟩ := mem_written quiet.2.2 hmem
      refine ⟨table, read, ?_⟩
      rw [prices, List.map_congr_left (six plan' _ wrote), List.map_id']

/-- Nothing stands at the path, and the location service cannot be reached. -/
def freshMachine : Machine :=
  { zip3State := fun _ => "", readJson := fun _ => .error "no answer", display := fun _ => "",
    location := .error "unreachable", today := "2026-09-24",
    tool := "lss-collector cost-setup", file := none, writable := true }

/-- Someone answers that they are at home, chooses to type a price, and types one. -/
theorem typed_price_is_settled :
    AsSettled Toml.read (run freshMachine ⟨.ask, false, false⟩ ["us", "3", "0.31"]) := by
  have htoday : Printable freshMachine.today := by decide
  have htool : Printable freshMachine.tool := by decide
  have told := cost_wizard_as_told_iff Toml.read (fun _ h => Toml.read_text h.wellFormed)
    ⟨.ask, false, false⟩ freshMachine htoday htool ["us", "3", "0.31"]
  have typed : ((pick freshMachine ⟨.ask, false, false⟩).result ⟨["us", "3", "0.31"], []⟩).1.toOption
      = some (.flat (31 / 100) .manual) := by decide +kernel
  refine told.2.mpr fun plan t picked _ => ?_
  rw [picked] at typed
  obtain rfl : plan = .flat (31 / 100) .manual := Option.some.inj typed
  have six : ∀ v ∈ planPrices (.flat (31 / 100) .manual), toSixDecimals v = v := by decide +kernel
  exact six

/-- A price on the command line with a seventh decimal is not the one in the file. -/
theorem seventh_decimal_is_lost :
    ¬AsSettled Toml.read (run freshMachine ⟨.rate "0.1234567", false, false⟩ []) := by
  have htoday : Printable freshMachine.today := by decide
  have htool : Printable freshMachine.tool := by decide
  intro settled
  have wrote : .wrote (.flat (1234567 / 10000000) .manual)
      (render freshMachine (.flat (1234567 / 10000000) .manual)) ∈
        (run freshMachine ⟨.rate "0.1234567", false, false⟩ []).trail := by decide +kernel
  obtain ⟨table, read, prices⟩ := settled _ _ wrote
  have given : parseRate "0.1234567" = .ok (1234567 / 10000000) := by decide +kernel
  have good : Good ⟨.rate "0.1234567", false, false⟩ freshMachine (1234567 / 10000000) [] :=
    ⟨by norm_num, .given "0.1234567" rfl given⟩
  obtain ⟨table', read', prices'⟩ := read_render (fun _ h => Toml.read_text h.wellFormed) htoday
    htool (good.fits .manual)
  obtain rfl := Option.some.inj (read'.symm.trans read)
  have rounded : toSixDecimals (1234567 / 10000000) ≠ 1234567 / 10000000 := by decide +kernel
  exact rounded (List.cons.inj (prices'.symm.trans prices)).1

end Lss.Analysis.CostAnswers
