import Mathlib.Tactic.Linarith
import Lss.Library.Numerals
import Lss.Library.Ranking
import Lss.Model.StatusReadings

/-!
# The headline names the worst

Every reading that the page is made of scores by its state: a live one at most the ceiling, one
without data nothing, and one that is offline the score that no other reaches. Each domain gives
its readings keys of its own, so a key names one reading. The headline is then the worst reading
that may lead, or the one that led last time when it is no more than a little behind.
-/

set_option autoImplicit false

namespace Lss.Analysis.HeadlineReadings

open Lss.Library Lss.Model Lss.Model.Readings

/-! ## The order of the readings -/

instance : Std.Total Worse where
  total a b := by
    have order := Ieee.totalLe_total a.severity b.severity
    rw [Bool.or_eq_true] at order
    by_cases ab : a.severity.totalLe b.severity
    · by_cases ba : b.severity.totalLe a.severity
      · rcases le_total a.key b.key with keys | keys
        · exact Or.inl ⟨ba, fun _ => keys⟩
        · exact Or.inr ⟨ab, fun _ => keys⟩
      · exact Or.inr ⟨ab, fun ba' => absurd ba' ba⟩
    · exact Or.inl ⟨order.resolve_left ab, fun ab' => absurd ab' ab⟩

instance : IsTrans Reading Worse where
  trans a b c hab hbc := by
    refine ⟨Ieee.totalLe_trans _ _ _ hbc.1 hab.1, fun ac => ?_⟩
    have ab := Ieee.totalLe_trans _ _ _ ac hbc.1
    have bc := Ieee.totalLe_trans _ _ _ hab.1 ac
    exact (hab.2 ab).trans (hbc.2 bc)

/-- The worst reading of a group: none of its readings that may lead is worse. -/
theorem worstOf_spec {rs : List Reading} {w : Reading} (worst : worstOf rs = some w) :
    w ∈ rs ∧ w.informational = false ∧
      ∀ r ∈ rs, r.informational = false → r.severity.totalLe w.severity := by
  obtain ⟨member, judged, first⟩ := Ranking.find_insertionSort Worse worst
  refine ⟨member, by simpa using judged, ?_⟩
  intro r hr plain
  exact (first r hr (by simpa using plain)).1

theorem worstOf_isSome {rs : List Reading} {r : Reading} (hr : r ∈ rs)
    (plain : r.informational = false) : ∃ w, worstOf rs = some w := by
  have judged : (!r.informational) = true := by simpa using plain
  exact Option.isSome_iff_exists.mp (Ranking.find_insertionSort_isSome Worse hr judged)

/-! ## Scores and states -/

/-- What a state lets a reading score. -/
def Scored : ReadingState → Ieee → Prop
  | .live, x => ∃ v, x = .finite v ∧ 0 ≤ v ∧ v ≤ ceiling
  | .noData _, x => x = .finite 0
  | .offline _, x => x = .finite offlineScore

/-- A reading of the page: its key, and a score that its state allows. -/
structure Tells (r : Reading) (key : String) : Prop where
  key : r.key = key
  scored : Scored r.state r.severity

/-- No number is too great, too little or too odd to be a score. -/
theorem clamp01_finite (x : Ieee) : ∃ v, clamp01 x = .finite v ∧ 0 ≤ v ∧ v ≤ 1 := by
  cases x with
  | finite v =>
      simp only [clamp01, isNan, Ieee.lt_finite, decide_eq_true_eq, Bool.false_eq_true, if_false]
      split
      · exact ⟨0, rfl, by norm_num⟩
      · split
        · exact ⟨1, rfl, by norm_num⟩
        · exact ⟨v, rfl, by linarith, by linarith⟩
  | infinite s =>
      cases s with
      | false => exact ⟨1, rfl, by norm_num⟩
      | true => exact ⟨0, rfl, by norm_num⟩
  | nan s => exact ⟨0, rfl, by norm_num⟩

theorem least_finite (a b : ℚ) : least (.finite a) (.finite b) = .finite (min a b) := by
  simp only [least, isNan, Ieee.le_finite, decide_eq_true_eq, Bool.false_eq_true, if_false]
  split
  · rw [min_eq_left ‹_›]
  · rw [min_eq_right (by linarith)]

section Made

variable (key label value detail reason : String) (score : Ieee)

theorem tells_live : Tells (.live key label value detail score) key := by
  obtain ⟨v, hv, nonneg, -⟩ := clamp01_finite score
  refine ⟨rfl, min v ceiling, ?_, le_min nonneg (by norm_num [ceiling]), min_le_right v ceiling⟩
  change least (clamp01 score) (.finite ceiling) = _
  rw [hv, least_finite]

theorem tells_noData : Tells (.noData key label reason) key := ⟨rfl, rfl⟩

theorem tells_offline : Tells (.offline key label reason) key := ⟨rfl, rfl⟩

end Made

namespace Tells

variable {r : Reading} {key : String}

theorem asInformational (h : Tells r key) : Tells r.asInformational key := ⟨h.key, h.scored⟩

theorem with_detail (h : Tells r key) (d : String) : Tells { r with detail := d } key :=
  ⟨h.key, h.scored⟩

/-- A reading is offline exactly when it has the score that no live one reaches. -/
theorem offline_iff (h : Tells r key) : r.severity = .finite offlineScore ↔ r.isOffline := by
  have scored := h.scored
  unfold Reading.isOffline
  cases hs : r.state with
  | live =>
      rw [hs] at scored
      obtain ⟨v, hv, -, le⟩ := scored
      have below : v ≠ offlineScore := by
        have apart : ceiling < offlineScore := by norm_num [ceiling, offlineScore]
        exact (le.trans_lt apart).ne
      simp [hv, below]
  | noData why =>
      rw [hs] at scored
      have scored : r.severity = .finite 0 := scored
      simp [scored, offlineScore]
  | offline why =>
      rw [hs] at scored
      exact iff_of_true scored rfl

/-- Every score is a number from nothing to one. -/
theorem severity (h : Tells r key) : ∃ v, r.severity = .finite v ∧ 0 ≤ v ∧ v ≤ offlineScore := by
  have scored := h.scored
  cases hs : r.state with
  | live =>
      rw [hs] at scored
      obtain ⟨v, hv, nonneg, le⟩ := scored
      exact ⟨v, hv, nonneg, le.trans (by norm_num [ceiling, offlineScore])⟩
  | noData why =>
      rw [hs] at scored
      exact ⟨0, scored, by norm_num [offlineScore]⟩
  | offline why =>
      rw [hs] at scored
      exact ⟨offlineScore, scored, by norm_num [offlineScore]⟩

end Tells

/-! ## Pages -/

/-- Readings that take their keys from some keys, each at most once and in their order. -/
structure Page (rs : List Reading) (keys : List String) : Prop where
  keyed : (rs.map Reading.key).Sublist keys
  scored : ∀ r ∈ rs, Tells r r.key

namespace Page

theorem nil (keys : List String) : Page [] keys := ⟨List.nil_sublist _, by simp⟩

theorem cons {r : Reading} {rs : List Reading} {key : String} {keys : List String}
    (h : Tells r key) (rest : Page rs keys) : Page (r :: rs) (key :: keys) where
  keyed := by
    rw [List.map_cons, h.key]
    exact rest.keyed.cons_cons key
  scored := by
    intro x hx
    rcases List.mem_cons.mp hx with rfl | hx
    · exact ⟨rfl, h.scored⟩
    · exact rest.scored x hx

theorem skip {rs : List Reading} {keys : List String} (key : String) (h : Page rs keys) :
    Page rs (key :: keys) := ⟨h.keyed.cons key, h.scored⟩

theorem single {r : Reading} {key : String} (h : Tells r key) : Page [r] [key] := cons h (nil [])

theorem append {rs ts : List Reading} {keys names : List String} (h : Page rs keys)
    (rest : Page ts names) : Page (rs ++ ts) (keys ++ names) where
  keyed := by
    rw [List.map_append]
    exact h.keyed.append rest.keyed
  scored := by
    intro x hx
    rcases List.mem_append.mp hx with hx | hx
    · exact h.scored x hx
    · exact rest.scored x hx

/-- One reading for each entry of a list. -/
theorem map {α : Type} {f : α → Reading} {key : α → String} (l : List α)
    (h : ∀ a, Tells (f a) (key a)) : Page (l.map f) (l.map key) := by
  induction l with
  | nil => exact nil []
  | cons a l ih => exact cons (h a) ih

/-- A page for each entry of a list. -/
theorem flatMap {α : Type} {f : α → List Reading} {keys : α → List String} (l : List α)
    (h : ∀ a, Page (f a) (keys a)) : Page (l.flatMap f) (l.flatMap keys) := by
  induction l with
  | nil => exact nil []
  | cons a l ih => exact (h a).append ih

theorem nodup {rs : List Reading} {keys : List String} (h : Page rs keys) (distinct : keys.Nodup) :
    (rs.map Reading.key).Nodup := h.keyed.nodup distinct

end Page

/-! ## The collector and the engine -/

theorem collector_page (s : Status) (now : ℤ) : Page (collector s now) ["collector"] := by
  unfold collector
  split
  · split
    · exact .single (tells_offline ..)
    · exact .nil _
  · exact .nil _

section Serve

variable (s : Status) (now : ℤ)

theorem serveSilent_page : Page (serveSilent s) ["serve.silent"] := by
  unfold serveSilent
  dsimp only
  split
  · exact .single (tells_live ..)
  · exact .nil _

theorem serveKv_tells : Tells (serveKv s) "serve.kv" := by
  unfold serveKv
  dsimp only
  split
  · exact tells_noData ..
  · exact tells_live ..

theorem serveEvictions_tells : Tells (serveEvictions s) "serve.evictions" := by
  unfold serveEvictions
  dsimp only
  split
  · split
    · exact tells_live ..
    · exact tells_noData ..
  · exact tells_noData ..

theorem serveQueue_tells : Tells (serveQueue s) "serve.queue" := by
  unfold serveQueue
  dsimp only
  split
  · exact tells_live ..
  · exact tells_live ..

theorem serveSlots_page : Page (serveSlots s) ["serve.slots"] := by
  unfold serveSlots
  split
  · exact .single (tells_live ..)
  · exact .nil _

theorem serveQueueWait_tells : Tells (serveQueueWait s) "serve.queue_wait" := by
  unfold serveQueueWait
  dsimp only
  split
  · exact tells_live ..
  · exact tells_noData ..

theorem serveCacheHit_page :
    Page (serveCacheHit s) ["serve.cache_hit", "serve.cache_hit_now"] := by
  unfold serveCacheHit
  dsimp only
  split
  · exact .cons (tells_noData ..) (.nil _)
  · split
    · exact .cons (tells_noData ..) (.nil _)
    · refine .cons (tells_live ..) ?_
      split
      · exact .single (tells_live ..).asInformational
      · exact .nil _

theorem serveSpeed_tells : Tells (serveSpeed s now) "serve.speed" := by
  unfold serveSpeed
  split
  · exact tells_noData ..
  · exact tells_noData ..
  · dsimp only
    split
    · exact tells_live ..
    · exact tells_noData ..

theorem serveTtft_tells : Tells (serveTtft s) "serve.ttft" := by
  unfold serveTtft
  split
  · exact tells_live ..
  · exact tells_noData ..

theorem serveFacts_page : Page (serveFacts s)
    ["serve.decode", "serve.prefill", "serve.itl", "serve.accept", "serve.running"] := by
  unfold serveFacts
  dsimp only
  refine .cons (tells_live ..).asInformational (.cons ?_ ?_)
  · split
    · exact (tells_live ..).asInformational
    · exact tells_noData ..
  · show Page _ (["serve.itl"] ++ ["serve.accept"] ++ ["serve.running"])
    refine .append (.append ?_ ?_) (.single (tells_live ..).asInformational)
    · split
      · exact .single (tells_live ..).asInformational
      · exact .nil _
    · split
      · exact .single (tells_live ..).asInformational
      · exact .nil _

/-- The keys of the engine's readings. -/
def serveKeys : List String :=
  ["serve.up", "serve.silent", "serve.kv", "serve.evictions", "serve.queue", "serve.slots",
    "serve.queue_wait", "serve.cache_hit", "serve.cache_hit_now", "serve.speed", "serve.ttft",
    "serve.decode", "serve.prefill", "serve.itl", "serve.accept", "serve.running"]

theorem serve_page : Page (serve s now) serveKeys := by
  unfold serve serveKeys
  dsimp only
  split
  · exact .cons (tells_offline ..) (.nil _)
  · refine .skip _ ?_
    show Page _ (["serve.silent"] ++ ["serve.kv", "serve.evictions", "serve.queue"] ++
      ["serve.slots"] ++ "serve.queue_wait" :: ["serve.cache_hit", "serve.cache_hit_now"] ++
      ["serve.speed", "serve.ttft"] ++
      ["serve.decode", "serve.prefill", "serve.itl", "serve.accept", "serve.running"])
    have judged := ((serveSilent_page s).append (.cons (serveKv_tells s)
      (.cons (serveEvictions_tells s) (.single (serveQueue_tells s))))).append (serveSlots_page s)
    have waits := Page.cons (serveQueueWait_tells s) (serveCacheHit_page s)
    have speeds := Page.cons (serveSpeed_tells s now) (.single (serveTtft_tells s))
    exact ((judged.append waits).append speeds).append (serveFacts_page s)

end Serve

/-! ## The cards -/

section Gpu

variable (g : GpuStatus) (group : Bool) (alertC : Ieee)

theorem gpuTemp_tells : Tells (gpuTemp g group alertC) (gpuKey g "temp") := by
  unfold gpuTemp
  split
  · dsimp only
    split
    · exact ((tells_live ..).with_detail _).asInformational
    · exact tells_live ..
  · exact tells_noData ..

theorem gpuThrottle_tells : Tells (gpuThrottle g) (gpuKey g "throttle") := by
  unfold gpuThrottle
  dsimp only
  split
  · exact tells_live ..
  · split
    · exact (tells_live ..).asInformational
    · split
      · exact tells_live ..
      · exact tells_live ..

/-- The names of a card's readings. -/
def gpuNames : List String := ["temp", "throttle", "power", "util", "mem"]

theorem gpu_page : Page (gpu g group alertC) (gpuNames.map (gpuKey g)) := by
  unfold gpu
  show Page _ ([gpuKey g "temp", gpuKey g "throttle"] ++ [gpuKey g "power"] ++ [gpuKey g "util"] ++
    [gpuKey g "mem"])
  refine .append (.append (.append (.cons (gpuTemp_tells g group alertC)
    (.single (gpuThrottle_tells g))) ?_) ?_) ?_
  · split
    · exact .single (tells_live ..).asInformational
    · exact .nil _
  · split
    · exact .single (tells_live ..).asInformational
    · exact .nil _
  · split
    · exact .single (tells_live ..).asInformational
    · exact .nil _

end Gpu

theorem gpuSkew_page (s : Status) : Page (gpuSkew s) ["gpu.skew"] := by
  unfold gpuSkew
  split
  · split
    · exact .single (tells_live ..)
    · exact .nil _
  · split
    · exact .single (tells_noData ..)
    · exact .nil _

theorem gpus_page (s : Status) : Page (gpus s)
    ((s.gpus.flatMap fun g => gpuNames.map (gpuKey g)) ++ ["gpu.skew"]) :=
  (Page.flatMap s.gpus fun g => gpu_page g _ _).append (gpuSkew_page s)

/-! ## The gateway, the cost and the loadout -/

theorem gateWaiters_tells (s : Status) : Tells (gateWaiters s) "gate.waiters" := by
  unfold gateWaiters
  dsimp only
  split
  · exact tells_live ..
  · split
    · exact tells_live ..
    · exact tells_live ..

theorem gateLane_page (lane who : String) (l : LaneStatus) : Page (gateLane lane who l)
    (["budget", "failed", "turned"].map fun f => "gate." ++ lane ++ "." ++ f) := by
  unfold gateLane
  refine .cons ?_ (.cons (tells_live ..) (.single (tells_live ..)))
  split
  · exact tells_live ..
  · exact tells_noData ..

/-- The keys of the gateway's readings. -/
def gateKeys : List String :=
  ["gate.up", "gate.waiters", "gate.public.budget", "gate.public.failed", "gate.public.turned",
    "gate.trusted.budget", "gate.trusted.failed", "gate.trusted.turned"]

theorem gateway_page (s : Status) : Page (Readings.gateway s) gateKeys := by
  unfold Readings.gateway gateKeys
  split
  · exact .nil _
  · split
    · exact .cons (tells_offline ..) (.nil _)
    · refine .skip _ (.cons (gateWaiters_tells s) ?_)
      have lanes := (gateLane_page "public" "Outside callers" s.lanes.public_).append
        (gateLane_page "trusted" "Your own agents and tools" s.lanes.trusted)
      simpa using lanes

theorem spendWindow_tells (key label : String) (w : Readings.SpendWindow) (span basis : String) :
    Tells (spendWindow key label w span basis) key := by
  unfold spendWindow
  split
  · exact tells_noData ..
  · exact tells_live ..

/-- The keys of the spending windows. -/
def spendingKeys : List String := ["cost.week", "cost.month", "cost.ytd", "cost.month_projection"]

theorem spendingReadings_page (fmtYear : ℤ → String) (s : Status) (basis : String)
    (sp : Readings.SpendingStatus) : Page (spendingReadings fmtYear s basis sp) spendingKeys := by
  unfold spendingReadings
  refine .cons (spendWindow_tells ..).asInformational (.cons (spendWindow_tells ..).asInformational
    (.cons (spendWindow_tells ..).asInformational (.single (Tells.asInformational ?_))))
  split
  · exact tells_live ..
  · exact tells_noData ..

/-- The keys of the cost readings. -/
def costKeys : List String := ["cost", "cost.live", "cost.today", "cost.per_1m"] ++ spendingKeys

theorem cost_page (fmtYear : ℤ → String) (s : Status) : Page (cost fmtYear s) costKeys := by
  unfold cost costKeys
  split
  · exact .cons (tells_noData ..).asInformational (.nil _)
  · refine .skip _ (.append (.cons (Tells.asInformational ?_) (.cons (Tells.asInformational ?_)
      (.single (Tells.asInformational ?_)))) ?_)
    · split
      · exact tells_live ..
      · exact tells_noData ..
    · split
      · exact tells_live ..
      · exact tells_noData ..
    · split
      · exact tells_live ..
      · exact tells_noData ..
    · cases s.spending with
      | none => exact .nil _
      | some sp => exact spendingReadings_page fmtYear s _ sp

theorem loadout_page (s : Status) : Page (loadout s) ["loadout.model", "loadout.flags"] := by
  unfold loadout
  show Page _ (["loadout.model"] ++ ["loadout.flags"])
  refine .append ?_ ?_
  · split
    · exact .single (tells_live ..).asInformational
    · exact .nil _
  · split
    · exact .single (tells_live ..).asInformational
    · exact .nil _

/-! ## The events -/

section Events

variable (s : Status)

theorem firingReading_tells (rule : String) : Tells (firingReading s rule) ("alert." ++ rule) :=
  tells_live ..

theorem undelivered_page : Page (undelivered s)
    ((s.alerts.filter fun a => !a.delivered).map
      fun a => "events.undelivered." ++ toString a.id) := by
  unfold undelivered
  refine .map _ fun a => ?_
  dsimp only
  split
  · exact ((tells_live ..).with_detail _).asInformational
  · split
    · exact ((tells_live ..).with_detail _).asInformational
    · exact tells_live ..

theorem xids_page (now : ℤ) (unwell : Bool) : Page (xids s now unwell)
    ((s.incidents.filter fun i => i.kind = "xid").map fun i => "events.xid." ++ toString i.id) := by
  unfold xids
  refine .map _ fun i => ?_
  dsimp only
  split
  · exact tells_live ..
  · exact ((tells_live ..).with_detail _).asInformational

theorem openIncident_page (unwell : Bool) : Page (openIncident s unwell) ["events.open"] := by
  unfold Readings.openIncident
  dsimp only
  split
  · refine .single ?_
    split
    · exact tells_live ..
    · exact ((tells_live ..).with_detail _).asInformational
  · split
    · exact .single (tells_live ..).asInformational
    · exact .nil _

/-- The keys of the readings of what happened. -/
def eventKeys : List String :=
  s.firing.map ("alert." ++ ·) ++ "events.incidents" ::
    ((s.alerts.filter fun a => !a.delivered).map
        (fun a => "events.undelivered." ++ toString a.id) ++
      (s.incidents.filter fun i => i.kind = "xid").map (fun i => "events.xid." ++ toString i.id) ++
      ["events.open"])

theorem events_page (now : ℤ) : Page (events s now) (eventKeys s) :=
  .append (.map _ (firingReading_tells s)) (.cons (tells_live ..).asInformational
    (((undelivered_page s).append (xids_page s now _)).append (openIncident_page s _)))

end Events

/-! ## The keys -/

/-- The domain of a reading: its key up to the first dot. -/
def domain (key : String) : String := String.ofList (key.toList.takeWhile (· ≠ '.'))

/-- What a reading of the events is about: its key from the first dot to the second. -/
def topic (key : String) : String :=
  String.ofList (((key.toList.dropWhile (· ≠ '.')).drop 1).takeWhile (· ≠ '.'))

/-- Distinct keys, marked with some marks. -/
structure Marked (mark : String → String) (keys marks : List String) : Prop where
  nodup : keys.Nodup
  marked : ∀ k ∈ keys, mark k ∈ marks

/-- Keys with different marks are distinct. -/
theorem Marked.append {mark : String → String} {keys names marks signs : List String}
    (h : Marked mark keys marks) (h' : Marked mark names signs) (apart : marks.Disjoint signs) :
    Marked mark (keys ++ names) (marks ++ signs) where
  nodup := by
    refine List.nodup_append'.mpr ⟨h.nodup, h'.nodup, ?_⟩
    intro k hk hk'
    exact apart (h.marked k hk) (h'.marked k hk')
  marked := by
    intro k hk
    rcases List.mem_append.mp hk with hk | hk
    · exact List.mem_append_left _ (h.marked k hk)
    · exact List.mem_append_right _ (h'.marked k hk)

/-- Keys of one shape, told apart by what ends them. -/
theorem marked_map {α : Type} {l : List α} {name : α → String} (distinct : (l.map name).Nodup)
    (mark : String → String) (start sign : String) (marked : ∀ t, mark (start ++ t) = sign) :
    Marked mark (l.map fun a => start ++ name a) [sign] where
  nodup := by
    have shaped : (l.map fun a => start ++ name a) = (l.map name).map (start ++ ·) := by simp
    rw [shaped]
    exact distinct.map fun a b h => (String.append_right_inj start).mp h
  marked := by
    intro k hk
    obtain ⟨a, -, rfl⟩ := List.mem_map.mp hk
    simp [marked]

/-- The number of a card is written without a dot. -/
theorem no_dot (n : ℕ) : '.' ∉ (toString n).toList := by
  intro dot
  have digit := Numerals.isDigit_toString _ dot
  simp [Char.isDigit] at digit

theorem gpuKey_toList (g : GpuStatus) (f : String) : (gpuKey g f).toList =
    "gpu.".toList ++ ((toString g.sample.index).toList ++ '.' :: f.toList) := by
  simp [gpuKey]

/-- The key of a card's reading says which card and which reading. -/
theorem gpuKey_inj {g h : GpuStatus} {f k : String} (same : gpuKey g f = gpuKey h k) :
    g.sample.index = h.sample.index ∧ f = k := by
  have ahead : ∀ (n : ℕ) (rest : List Char),
      ((toString n).toList ++ '.' :: rest).takeWhile (· ≠ '.') = (toString n).toList := by
    intro n rest
    rw [List.takeWhile_append_of_pos]
    · simp
    · intro c hc
      have apart : c ≠ '.' := fun dot => no_dot n (dot ▸ hc)
      simpa using apart
  have texts := congrArg String.toList same
  rw [gpuKey_toList, gpuKey_toList, List.append_cancel_left_eq] at texts
  have index := congrArg (List.takeWhile (· ≠ '.')) texts
  rw [ahead, ahead] at index
  rw [index, List.append_cancel_left_eq, List.cons_eq_cons] at texts
  exact ⟨Numerals.toString_nat_injective (String.toList_inj.mp index),
    String.toList_inj.mp texts.2⟩

theorem gpuKey_ne_skew (g : GpuStatus) (f : String) : gpuKey g f ≠ "gpu.skew" := by
  intro same
  have dot : '.' ∈ (toString g.sample.index ++ "." ++ f).toList := by simp
  have skew : toString g.sample.index ++ "." ++ f = "skew" := by
    have same : "gpu." ++ (toString g.sample.index ++ "." ++ f) = "gpu." ++ "skew" := by
      rw [← String.append_assoc, ← String.append_assoc]
      exact same
    exact (String.append_right_inj _).mp same
  rw [skew] at dot
  simp at dot

theorem gpu_marked {gs : List GpuStatus} (distinct : (gs.map fun g => g.sample.index).Nodup) :
    Marked domain ((gs.flatMap fun g => gpuNames.map (gpuKey g)) ++ ["gpu.skew"]) ["gpu"] where
  nodup := by
    refine List.nodup_append'.mpr ⟨List.nodup_flatMap.mpr ⟨?_, ?_⟩, by simp, ?_⟩
    · intro g _
      have names : gpuNames.Nodup := by simp [gpuNames]
      exact names.map fun a b h => (gpuKey_inj h).2
    · have cards := List.pairwise_map.mp distinct
      refine cards.imp ?_
      intro g h apart k hg hh
      obtain ⟨f, -, rfl⟩ := List.mem_map.mp hg
      obtain ⟨f', -, same⟩ := List.mem_map.mp hh
      exact apart (gpuKey_inj same).1.symm
    · intro k hk hskew
      obtain ⟨g, -, hk⟩ := List.mem_flatMap.mp hk
      obtain ⟨f, -, rfl⟩ := List.mem_map.mp hk
      exact gpuKey_ne_skew g f (List.mem_singleton.mp hskew)
  marked := by
    intro k hk
    rcases List.mem_append.mp hk with hk | hk
    · obtain ⟨g, -, hk⟩ := List.mem_flatMap.mp hk
      obtain ⟨f, -, rfl⟩ := List.mem_map.mp hk
      simp [gpuKey, domain]
    · rw [List.mem_singleton.mp hk]
      simp [domain]

/-- Entries that are told apart stay so when some are left out. -/
theorem nodup_names {α : Type} {id : α → ℤ} {l : List α} (distinct : (l.map id).Nodup)
    (p : α → Bool) : ((l.filter p).map fun a => toString (id a)).Nodup := by
  have ids : ((l.filter p).map id).Nodup := distinct.sublist (List.filter_sublist.map id)
  have named : ((l.filter p).map fun a => toString (id a)) =
      ((l.filter p).map id).map (toString : ℤ → String) := by simp
  rw [named]
  exact ids.map Numerals.toString_int_injective

section Keys

variable {s : Status} (rules : s.firing.Nodup) (alerts : (s.alerts.map AlertRow.id).Nodup)
  (incidents : (s.incidents.map Readings.Incident.id).Nodup)

include alerts incidents in
/-- The events that are not rules firing are told apart by what they are about. -/
theorem happened_marked : Marked topic (["events.incidents"] ++
    (s.alerts.filter fun a => !a.delivered).map (fun a => "events.undelivered." ++ toString a.id) ++
    (s.incidents.filter fun i => i.kind = "xid").map (fun i => "events.xid." ++ toString i.id) ++
    ["events.open"]) (["incidents"] ++ ["undelivered"] ++ ["xid"] ++ ["open"]) := by
  have summary : Marked topic ["events.incidents"] ["incidents"] := ⟨by simp, by simp [topic]⟩
  have stuck := marked_map (nodup_names alerts fun a => !a.delivered) topic "events.undelivered."
    "undelivered" (by simp [topic])
  have faults := marked_map (nodup_names incidents fun i => i.kind = "xid") topic "events.xid."
    "xid" (by simp [topic])
  have unclosed : Marked topic ["events.open"] ["open"] := ⟨by simp, by simp [topic]⟩
  exact ((summary.append stuck (by simp)).append faults (by simp)).append unclosed (by simp)

include rules alerts incidents in
theorem eventKeys_marked : Marked domain (eventKeys s) (["alert"] ++ ["events"]) := by
  have firing := marked_map ((List.map_id s.firing).symm ▸ rules) domain "alert." "alert"
    (by simp [domain])
  have happened := happened_marked alerts incidents
  have rest : Marked domain (["events.incidents"] ++
      (s.alerts.filter fun a => !a.delivered).map
        (fun a => "events.undelivered." ++ toString a.id) ++
      (s.incidents.filter fun i => i.kind = "xid").map (fun i => "events.xid." ++ toString i.id) ++
      ["events.open"]) ["events"] := by
    refine ⟨happened.nodup, fun k hk => ?_⟩
    simp only [List.mem_append, List.mem_map, List.mem_singleton] at hk
    rcases hk with ((rfl | ⟨a, -, rfl⟩) | ⟨i, -, rfl⟩) | rfl
    all_goals simp [domain]
  simpa [eventKeys] using firing.append rest (by simp)

end Keys

/-! ## The page -/

/-- The keys of every reading of the page. -/
def pageKeys (s : Status) : List String :=
  ["collector"] ++ serveKeys ++
    ((s.gpus.flatMap fun g => gpuNames.map (gpuKey g)) ++ ["gpu.skew"]) ++ gateKeys ++ costKeys ++
    ["loadout.model", "loadout.flags"] ++ eventKeys s

theorem all_page (fmtYear : ℤ → String) (s : Status) (now : ℤ) :
    Page (all fmtYear s now) (pageKeys s) :=
  (((((((collector_page s now).append (serve_page s now)).append (gpus_page s)).append
    (gateway_page s)).append (cost_page fmtYear s)).append (loadout_page s)).append
    (events_page s now))

/-- What a status says of each card, rule, alert and incident, it says once. -/
structure Told (s : Status) : Prop where
  cards : (s.gpus.map fun g => g.sample.index).Nodup
  rules : s.firing.Nodup
  alerts : (s.alerts.map AlertRow.id).Nodup
  incidents : (s.incidents.map Readings.Incident.id).Nodup

theorem pageKeys_nodup {s : Status} (told : Told s) : (pageKeys s).Nodup := by
  have collector : Marked domain ["collector"] ["collector"] := ⟨by simp, by simp [domain]⟩
  have serve : Marked domain serveKeys ["serve"] :=
    ⟨by simp [serveKeys], by simp [serveKeys, domain]⟩
  have gate : Marked domain gateKeys ["gate"] := ⟨by simp [gateKeys], by simp [gateKeys, domain]⟩
  have cost : Marked domain costKeys ["cost"] :=
    ⟨by simp [costKeys, spendingKeys], by simp [costKeys, spendingKeys, domain]⟩
  have loadout : Marked domain ["loadout.model", "loadout.flags"] ["loadout"] :=
    ⟨by simp, by simp [domain]⟩
  have sources := (collector.append serve (by simp)).append (gpu_marked told.cards) (by simp)
  have setup := ((sources.append gate (by simp)).append cost (by simp)).append loadout (by simp)
  exact (setup.append (eventKeys_marked told.rules told.alerts told.incidents) (by simp)).nodup

/-! ## The headline -/

/-- How the headline is chosen: it may lead, and what may lead is not worse by as much as the
headline is held against. -/
theorem leading_spec {rs : List Reading} {incumbent : Option String} {r : Reading}
    (lead : leading rs incumbent = some r) :
    ∃ w, worstOf rs = some w ∧ r ∈ rs ∧ r.mayLead ∧
      (r.key = w.key ∨ (w.isOffline → r.isOffline) ∧
        ¬(r.severity + .finite hysteresis).le w.severity) := by
  unfold leading at lead
  cases worst : worstOf rs with
  | none => simp [worst] at lead
  | some w =>
      refine ⟨w, rfl, ?_⟩
      obtain ⟨member, judged, -⟩ := worstOf_spec worst
      by_cases high : (Ieee.finite low).le w.severity
      · have leads : w ∈ rs ∧ w.mayLead := ⟨member, by simp [Reading.mayLead, judged, high]⟩
        simp only [worst, Option.filter_some, high, if_true] at lead
        split at lead
        · obtain rfl := Option.some.inj lead
          exact ⟨leads.1, leads.2, Or.inl rfl⟩
        · rename_i inc held
          obtain ⟨k, -, found⟩ := Option.bind_eq_some_iff.mp held
          have named := List.find?_some found
          rw [Bool.and_eq_true] at named
          have old : inc ∈ rs ∧ inc.mayLead := ⟨List.mem_of_find?_eq_some found, named.2⟩
          split at lead
          · rename_i same
            obtain rfl := Option.some.inj lead
            exact ⟨old.1, old.2, Or.inl same⟩
          · split at lead
            · obtain rfl := Option.some.inj lead
              exact ⟨leads.1, leads.2, Or.inl rfl⟩
            · rename_i not_dead
              split at lead
              · obtain rfl := Option.some.inj lead
                exact ⟨leads.1, leads.2, Or.inl rfl⟩
              · rename_i ahead
                obtain rfl := Option.some.inj lead
                refine ⟨old.1, old.2, Or.inr ⟨fun dead => ?_, ahead⟩⟩
                simpa [dead] using not_dead
      · simp [worst, Option.filter_some, high] at lead

/-- Something leads as soon as a reading may. -/
theorem leading_isSome {rs : List Reading} {r : Reading} (hr : r ∈ rs)
    (plain : r.informational = false) (high : (Ieee.finite low).le r.severity)
    (numbers : ∀ r ∈ rs, ∃ v, r.severity = .finite v) (incumbent : Option String) :
    ∃ lead, leading rs incumbent = some lead := by
  obtain ⟨w, worst⟩ := worstOf_isSome hr plain
  obtain ⟨member, -, last⟩ := worstOf_spec worst
  obtain ⟨v, hv⟩ := numbers r hr
  obtain ⟨u, hu⟩ := numbers w member
  have above := last r hr plain
  have worse : (Ieee.finite low).le w.severity := by
    rw [hv, Ieee.le_finite, decide_eq_true_eq] at high
    rw [hv, hu] at above
    have above : v ≤ u := of_decide_eq_true above
    rw [hu, Ieee.le_finite, decide_eq_true_eq]
    exact high.trans above
  unfold leading
  simp only [worst, Option.filter_some, worse, if_true]
  split
  · exact ⟨w, rfl⟩
  · rename_i inc _
    split
    · exact ⟨inc, rfl⟩
    · split
      · exact ⟨w, rfl⟩
      · split
        · exact ⟨w, rfl⟩
        · exact ⟨inc, rfl⟩

/-- A source that the page stands on is gone. -/
def SourceDown (s : Status) (now : ℤ) : Prop :=
  s.serve.up = false ∨
    (∃ ts, s.collector.lastSampleTs = some ts ∧ collectorStaleAfter s < now - ts) ∨
    (s.gate.absent = false ∧ s.gate.up = false)

/-- A source that is gone has a reading that is offline. -/
theorem offline_of_down {s : Status} {now : ℤ} (down : SourceDown s now)
    (fmtYear : ℤ → String) :
    ∃ r ∈ all fmtYear s now, r.isOffline ∧ r.informational = false := by
  have told : ∃ key label reason, Reading.offline key label reason ∈ all fmtYear s now := by
    rcases down with engine | ⟨ts, seen, stale⟩ | ⟨configured, gone⟩
    · obtain ⟨reason, only⟩ : ∃ reason, serve s now = [.offline "serve.up" "engine" reason] :=
        ⟨_, by simp only [serve, engine, Bool.not_false, if_true]; rfl⟩
      exact ⟨"serve.up", "engine", reason, by simp [all, only]⟩
    · obtain ⟨reason, only⟩ : ∃ reason,
          collector s now = [.offline "collector" "collector" reason] :=
        ⟨_, by simp only [collector, seen, gt_iff_lt, stale, if_true]; rfl⟩
      exact ⟨"collector", "collector", reason, by simp [all, only]⟩
    · obtain ⟨reason, only⟩ : ∃ reason,
          Readings.gateway s = [.offline "gate.up" "gateway" reason] :=
        ⟨_, by simp only [Readings.gateway, configured, gone, Bool.not_false, Bool.false_eq_true,
          if_true, if_false]; rfl⟩
      exact ⟨"gate.up", "gateway", reason, by simp [all, only]⟩
  obtain ⟨key, label, reason, member⟩ := told
  exact ⟨_, member, rfl, rfl⟩

/-- Two scores that may lead are not too great to be added to what the headline is held by. -/
theorem held_add {v : ℚ} (nonneg : 0 ≤ v) (le : v ≤ offlineScore) :
    Ieee.finite v + .finite hysteresis = .finite (v + hysteresis) := by
  have small : offlineScore + hysteresis < 2 ^ 53 := by norm_num [offlineScore, hysteresis]
  have above : 0 ≤ hysteresis := by norm_num [hysteresis]
  apply Ieee.add_finite
  rw [abs_of_nonneg (by linarith)]
  linarith

section Headline

variable {rs : List Reading} (keys : (rs.map Reading.key).Nodup)
  (scored : ∀ r ∈ rs, Tells r r.key) {incumbent : Option String}

include keys scored in
/-- What leads is judged, and no more than a little behind the worst. -/
theorem leading_near {r : Reading} (lead : leading rs incumbent = some r) :
    r ∈ rs ∧ r.informational = false ∧
      ∃ w ∈ rs, w.informational = false ∧
        ∃ l m, r.severity = .finite l ∧ w.severity = .finite m ∧ low ≤ l ∧ m - l < hysteresis ∧
          ∀ b ∈ rs, b.informational = false → ∃ v, b.severity = .finite v ∧ v ≤ m := by
  obtain ⟨w, worst, member, may, near⟩ := leading_spec lead
  obtain ⟨inside, judged, last⟩ := worstOf_spec worst
  obtain ⟨l, hl, l_nonneg, l_le⟩ := (scored r member).severity
  obtain ⟨m, hm, -, -⟩ := (scored w inside).severity
  rw [Reading.mayLead, Bool.and_eq_true, Bool.not_eq_true', hl, Ieee.le_finite,
    decide_eq_true_eq] at may
  refine ⟨member, may.1, w, inside, judged, l, m, hl, hm, may.2, ?_, ?_⟩
  · rcases near with same | ⟨-, held⟩
    · have same := List.inj_on_of_nodup_map keys member inside same
      have scores : Ieee.finite l = .finite m := by rw [← hl, ← hm, same]
      have positive : 0 < hysteresis := by norm_num [hysteresis]
      rw [Ieee.finite.inj scores, sub_self]
      exact positive
    · rw [hl, hm, held_add l_nonneg l_le, Ieee.le_finite, decide_eq_true_eq] at held
      linarith
  · intro b hb plain
    obtain ⟨v, hv, -, -⟩ := (scored b hb).severity
    have below := last b hb plain
    rw [hv, hm] at below
    exact ⟨v, hv, of_decide_eq_true below⟩

include keys scored in
/-- As soon as a judged reading is offline, an offline one leads. -/
theorem leading_offline {dead : Reading} (hd : dead ∈ rs) (off : dead.isOffline)
    (plain : dead.informational = false) (incumbent : Option String) :
    ∃ r, leading rs incumbent = some r ∧ r.isOffline := by
  have score := (scored dead hd).offline_iff.mpr off
  have high : (Ieee.finite low).le dead.severity := by
    rw [score, Ieee.le_finite, decide_eq_true_eq]
    norm_num [low, offlineScore]
  have numbers : ∀ r ∈ rs, ∃ v, r.severity = .finite v := by
    intro r hr
    obtain ⟨v, hv, -⟩ := (scored r hr).severity
    exact ⟨v, hv⟩
  obtain ⟨r, lead⟩ := leading_isSome hd plain high numbers incumbent
  refine ⟨r, lead, ?_⟩
  obtain ⟨w, worst, member, -, near⟩ := leading_spec lead
  obtain ⟨inside, -, last⟩ := worstOf_spec worst
  have worst_off : w.isOffline := by
    obtain ⟨m, hm, -, le⟩ := (scored w inside).severity
    have above := last dead hd plain
    rw [score, hm] at above
    have above : offlineScore ≤ m := of_decide_eq_true above
    exact (scored w inside).offline_iff.mp (by rw [hm, le_antisymm le above])
  rcases near with same | ⟨held, -⟩
  · rwa [List.inj_on_of_nodup_map keys member inside same]
  · exact held worst_off

end Headline

/-- The keys are distinct; a reading has the highest score exactly when it is offline, and a live
one and one without data keep below it; a source that is gone leads; and what leads is judged and
no more than a little behind the worst. -/
theorem headline_names_worst (fmtYear : ℤ → String) {s : Status} (told : Told s) (now : ℤ)
    (incumbent : Option String) :
    ((all fmtYear s now).map Reading.key).Nodup ∧
    (∀ r ∈ all fmtYear s now,
      (r.severity = .finite offlineScore ↔ r.isOffline) ∧
      (r.state = .live → ∃ v, r.severity = .finite v ∧ v ≤ ceiling) ∧
      ∀ why, r.state = .noData why → r.severity = .finite 0) ∧
    (SourceDown s now →
      ∃ r, leading (all fmtYear s now) incumbent = some r ∧ r.isOffline) ∧
    ∀ r, leading (all fmtYear s now) incumbent = some r →
      r ∈ all fmtYear s now ∧ r.informational = false ∧
      ∃ w ∈ all fmtYear s now, w.informational = false ∧
        ∃ l m, r.severity = .finite l ∧ w.severity = .finite m ∧ low ≤ l ∧ m - l < hysteresis ∧
          ∀ b ∈ all fmtYear s now, b.informational = false →
            ∃ v, b.severity = .finite v ∧ v ≤ m := by
  have page := all_page fmtYear s now
  have keys := page.nodup (pageKeys_nodup told)
  refine ⟨keys, ?_, ?_, fun r lead => leading_near keys page.scored lead⟩
  · intro r hr
    have tells := page.scored r hr
    refine ⟨tells.offline_iff, ?_, ?_⟩
    · intro live
      have score := tells.scored
      rw [live] at score
      obtain ⟨v, hv, -, le⟩ := score
      exact ⟨v, hv, le⟩
    · intro why missing
      have score := tells.scored
      rw [missing] at score
      exact score
  · intro down
    obtain ⟨dead, hd, off, plain⟩ := offline_of_down down fmtYear
    exact leading_offline keys page.scored hd off plain incumbent

/-- A box with two cards, two rules firing, and an engine that is down. -/
def downBox : Status where
  gpus := [{ sample := { index := 0 } }, { sample := { index := 1 } }]
  firing := ["serve_down", "thermal"]
  alerts := [⟨1, 5, "serve_down", "critical", "The engine is down.", false, false⟩,
    ⟨2, 6, "thermal", "warn", "A card is hot.", false, true⟩]
  incidents := [⟨3, 5, none, "serve_down", "no answer"⟩, ⟨4, 6, none, "xid", "Xid 79"⟩]

theorem down_box_leads : Told downBox ∧ SourceDown downBox 10 ∧
    ∃ r, leading (all (fun _ => "2026") downBox 10) (some "alert.thermal") = some r ∧
      r.isOffline := by
  have told : Told downBox :=
    ⟨by simp [downBox], by simp [downBox], by simp [downBox], by simp [downBox]⟩
  have down : SourceDown downBox 10 := Or.inl rfl
  exact ⟨told, down, (headline_names_worst (fun _ => "2026") told 10 (some "alert.thermal")).2.2.1
    down⟩

end Lss.Analysis.HeadlineReadings
