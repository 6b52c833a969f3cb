import Lss.Analysis.HeadlineReadings
import Mathlib.Data.Prod.Lex
import Mathlib.Data.Rat.Lemmas

/-!
# The headline from frame to frame

What led the last frame keeps the line unless it is beaten by as much as it is held by, or by
something that is offline. So while nothing changes by more than half of that, what lost the line
does not get it back. In each frame the line names everything that is not fine.
-/

set_option autoImplicit false

namespace Lss.Analysis.HeadlineRuns

open Lss.Library Lss.Model Lss.Model.Readings HeadlineReadings

/-! ## One frame -/

section Frame

variable {rs : List Reading} (keys : (rs.map Reading.key).Nodup)
  (scored : ∀ r ∈ rs, Tells r r.key)

include keys in
/-- A key names one reading. -/
theorem find_key {a : Reading} (ha : a ∈ rs) (may : a.mayLead) :
    rs.find? (fun r => decide (r.key = a.key) && r.mayLead) = some a := by
  obtain ⟨b, hb⟩ := Option.isSome_iff_exists.mp (List.find?_isSome.mpr
    ⟨a, ha, by rw [Bool.and_eq_true]; exact ⟨decide_eq_true rfl, may⟩⟩ :
      (rs.find? fun r => decide (r.key = a.key) && r.mayLead).isSome)
  have named := List.find?_some hb
  rw [Bool.and_eq_true, decide_eq_true_eq] at named
  rw [hb, List.inj_on_of_nodup_map keys (List.mem_of_find?_eq_some hb) ha named.1]

include keys scored in
/-- What led and may lead still does, unless it is offline that something else is, or worse by as
much as the headline is held by. -/
theorem leading_moves {a : Reading} (ha : a ∈ rs) (may : a.mayLead) :
    ∃ r, leading rs (some a.key) = some r ∧ r ∈ rs ∧ r.mayLead ∧
      (r = a ∨ r.isOffline ∧ ¬a.isOffline ∨
        (a.severity + .finite hysteresis).le r.severity) := by
  have judged := may
  rw [Reading.mayLead, Bool.and_eq_true, Bool.not_eq_true'] at judged
  obtain ⟨w, worst⟩ := worstOf_isSome ha judged.1
  obtain ⟨inside, plain, last⟩ := worstOf_spec worst
  obtain ⟨v, hv, -, -⟩ := (scored a ha).severity
  obtain ⟨m, hm, -, -⟩ := (scored w inside).severity
  have high : (Ieee.finite low).le w.severity := by
    have above := last a ha judged.1
    have start := judged.2
    rw [hv, hm] at above
    rw [hv, Ieee.le_finite, decide_eq_true_eq] at start
    rw [hm, Ieee.le_finite, decide_eq_true_eq]
    exact start.trans (of_decide_eq_true above)
  have may_w : w.mayLead := by
    rw [Reading.mayLead, plain, high]
    rfl
  unfold leading
  simp only [worst, Option.filter_some, high, if_true, Option.bind_some, find_key keys ha may]
  split
  case isTrue => exact ⟨a, rfl, ha, may, Or.inl rfl⟩
  case isFalse =>
    split
    case isTrue dead =>
      rw [Bool.and_eq_true, Bool.not_eq_true'] at dead
      exact ⟨w, rfl, inside, may_w, Or.inr (Or.inl ⟨dead.1, by simp [dead.2]⟩)⟩
    case isFalse =>
      split
      case isTrue ahead => exact ⟨w, rfl, inside, may_w, Or.inr (Or.inr ahead)⟩
      case isFalse => exact ⟨a, rfl, ha, may, Or.inl rfl⟩

end Frame

/-- The line names every reading that is not fine, and each of them once: the one that leads, or
among the others. -/
theorem named_perm {rs : List Reading} (keys : (rs.map Reading.key).Nodup)
    (scored : ∀ r ∈ rs, Tells r r.key) (incumbent : Option String) :
    ((leading rs incumbent).toList ++ named rs (leading rs incumbent)).Perm
      (rs.filter fun r => (Ieee.finite low).le r.severity) := by
  have ranked : (rank rs).Perm rs := List.perm_insertionSort Worse rs
  cases lead : leading rs incumbent with
  | none =>
      have whole : named rs none = (rank rs).filter fun r => (Ieee.finite low).le r.severity :=
        List.filter_congr fun r _ => Bool.and_true _
      rw [Option.toList_none, List.nil_append, whole]
      exact ranked.filter _
  | some l =>
      obtain ⟨member, plain, w, -, -, s, m, hs, -, high, -⟩ := leading_near keys scored lead
      have high : (Ieee.finite low).le l.severity := by
        rw [hs, Ieee.le_finite]
        exact decide_eq_true high
      have distinct : (rs.filter fun r => (Ieee.finite low).le r.severity).Nodup :=
        (List.Nodup.of_map _ keys).filter _
      have others : (named rs (some l)).Perm
          ((rs.filter fun r => (Ieee.finite low).le r.severity).erase l) := by
        rw [distinct.erase_eq_filter, List.filter_filter]
        refine (ranked.filter _).trans (List.Perm.of_eq (List.filter_congr fun r hr => ?_))
        rw [Option.all_some, Bool.and_comm]
        congr 1
        rw [Bool.eq_iff_iff, bne_iff_ne, bne_iff_ne]
        refine not_congr ⟨fun same => ?_, fun same => by rw [same]⟩
        exact (List.inj_on_of_nodup_map keys member hr same).symm
      refine (List.Perm.cons l others).trans (List.perm_cons_erase ?_).symm
      rw [List.mem_filter]
      exact ⟨member, high⟩

/-- The line of every status names all that is not fine once, whatever led before it. -/
theorem line_names_all (fmtYear : ℤ → String) {s : Status} (told : Told s)
    (incumbent : Option String) :
    ((headlineWith fmtYear s incumbent).leader.toList.map Reading.label ++
        (headlineWith fmtYear s incumbent).also).Perm
      (((all fmtYear s s.generatedAt).filter fun r => (Ieee.finite low).le r.severity).map
        Reading.label) := by
  have whole := all_page fmtYear s s.generatedAt
  have once := named_perm (whole.nodup (pageKeys_nodup told)) whole.scored incumbent
  unfold headlineWith
  dsimp only
  rw [← List.map_append]
  exact once.map _

theorem down_box_names_all :
    ((headlineWith (fun _ => "2026") downBox none).leader.toList.map Reading.label ++
        (headlineWith (fun _ => "2026") downBox none).also).Perm
      (((all (fun _ => "2026") downBox downBox.generatedAt).filter fun r =>
        (Ieee.finite low).le r.severity).map Reading.label) :=
  line_names_all (fun _ => "2026")
    ⟨by simp [downBox], by simp [downBox], by simp [downBox], by simp [downBox]⟩ none

/-! ## Frame after frame -/

section Run

variable (fmtYear : ℤ → String)

/-- The readings of a frame. -/
def page (s : Status) : List Reading := all fmtYear s s.generatedAt

/-- Some frames in which nothing that may lead changes by more than half of what the headline is
held by, or comes, goes, or goes offline. -/
structure Steady (base : String → ℚ) (dead : String → Bool) (frames : List Status) : Prop where
  told : ∀ s ∈ frames, Told s
  near : ∀ s ∈ frames, ∀ r ∈ page fmtYear s, r.mayLead →
    ∃ v, r.severity = .finite v ∧ |v - base r.key| < hysteresis / 2
  offline : ∀ s ∈ frames, ∀ r ∈ page fmtYear s, r.mayLead → r.isOffline = dead r.key
  stays : ∀ s ∈ frames, ∀ t ∈ frames, ∀ r ∈ page fmtYear s, r.mayLead →
    ∃ r' ∈ page fmtYear t, r'.key = r.key ∧ r'.mayLead

/-- How bad what a key names is while nothing changes. -/
def badness (base : String → ℚ) (dead : String → Bool) (key : String) : Bool ×ₗ ℚ :=
  toLex (dead key, base key)

variable {fmtYear} {base : String → ℚ} {dead : String → Bool} {s : Status} {frames : List Status}

theorem Steady.mono (steady : Steady fmtYear base dead frames) {fewer : List Status}
    (part : ∀ s ∈ fewer, s ∈ frames) : Steady fmtYear base dead fewer where
  told s hs := steady.told s (part s hs)
  near s hs := steady.near s (part s hs)
  offline s hs := steady.offline s (part s hs)
  stays s hs t ht := steady.stays s (part s hs) t (part t ht)

/-- A reading of a frame beats what leads only where it is worse all the time. -/
theorem badness_lt (steady : Steady fmtYear base dead (s :: frames)) {a r : Reading}
    (ha : a ∈ page fmtYear s) (may : a.mayLead) (hr : r ∈ page fmtYear s) (leads : r.mayLead)
    (beats : r.isOffline ∧ ¬a.isOffline ∨ (a.severity + .finite hysteresis).le r.severity) :
    badness base dead a.key < badness base dead r.key := by
  have whole := all_page fmtYear s s.generatedAt
  obtain ⟨v, hv, near_a⟩ := steady.near s List.mem_cons_self a ha may
  obtain ⟨u, hu, near_r⟩ := steady.near s List.mem_cons_self r hr leads
  have dead_a := steady.offline s List.mem_cons_self a ha may
  have dead_r := steady.offline s List.mem_cons_self r hr leads
  unfold badness
  rw [Prod.Lex.toLex_lt_toLex]
  rcases beats with ⟨gone, here⟩ | ahead
  · left
    rw [Bool.not_eq_true] at here
    dsimp only
    rw [← dead_a, ← dead_r, gone, here]
    decide
  · obtain ⟨v', hv', nonneg, le⟩ := (whole.scored a ha).severity
    obtain ⟨u', hu', -, top⟩ := (whole.scored r hr).severity
    obtain rfl := Ieee.finite.inj (hv.symm.trans hv')
    obtain rfl := Ieee.finite.inj (hu.symm.trans hu')
    rw [hv, hu, held_add nonneg le, Ieee.le_finite, decide_eq_true_eq] at ahead
    have alive : a.isOffline = false := by
      rw [Bool.eq_false_iff]
      intro gone
      have score := (whole.scored a ha).offline_iff.mpr gone
      have most := Ieee.finite.inj (hv.symm.trans score)
      have positive : 0 < hysteresis := by norm_num [hysteresis]
      linarith
    have worse : base a.key < base r.key := by
      rw [abs_lt] at near_a near_r
      linarith
    dsimp only
    rw [← dead_a, ← dead_r, alive]
    cases r.isOffline with
    | true => exact Or.inl rfl
    | false => exact Or.inr ⟨rfl, worse⟩

/-- One line after another while nothing changes: the same, or a worse one. -/
def Climbs (base : String → ℚ) (dead : String → Bool) (o o' : Option String) : Prop :=
  ∃ a b, o = some a ∧ o' = some b ∧ (a = b ∨ badness base dead a < badness base dead b)

instance : IsTrans (Option String) (Climbs base dead) where
  trans := by
    rintro - - - ⟨a, b, rfl, rfl, first⟩ ⟨b', c, same, rfl, second⟩
    obtain rfl := Option.some.inj same
    refine ⟨a, c, rfl, rfl, ?_⟩
    rcases first with rfl | first
    · exact second
    · rcases second with rfl | second
      · exact Or.inr first
      · exact Or.inr (first.trans second)

/-- While nothing changes, what leads stays or gives way to something worse. -/
theorem leaders_chain (steady : Steady fmtYear base dead frames) {key : String}
    (may : ∀ s ∈ frames, ∃ a ∈ page fmtYear s, a.key = key ∧ a.mayLead) :
    (some key :: leaders fmtYear (some key) frames).IsChain (Climbs base dead) := by
  induction frames generalizing key with
  | nil => exact List.IsChain.singleton _
  | cons s frames ih =>
      have whole := all_page fmtYear s s.generatedAt
      have keys := whole.nodup (pageKeys_nodup (steady.told s List.mem_cons_self))
      obtain ⟨a, ha, rfl, leads⟩ := may s List.mem_cons_self
      obtain ⟨r, lead, hr, may_r, moved⟩ := leading_moves keys whole.scored ha leads
      have next : (frameHeadline fmtYear (some a.key) s).2 = some r.key := by
        unfold frameHeadline headlineWith
        dsimp only
        rw [lead]
        rfl
      unfold leaders
      dsimp only
      rw [next, List.isChain_cons_cons]
      refine ⟨⟨a.key, r.key, rfl, rfl, ?_⟩, ih (steady.mono fun t => List.mem_cons_of_mem _) fun t ht =>
        steady.stays s List.mem_cons_self t (List.mem_cons_of_mem _ ht) r hr may_r⟩
      rcases moved with rfl | beats
      · exact Or.inl rfl
      · exact Or.inr (badness_lt steady ha leads hr may_r beats)

/-- What leads after some frame leads on from there. -/
theorem leaders_split {worst : Option String} {pre post : List (Option String)} {key : String}
    (shown : leaders fmtYear worst frames = pre ++ some key :: post) :
    ∃ before s after, frames = before ++ s :: after ∧
      (∃ a ∈ page fmtYear s, a.key = key ∧ a.mayLead) ∧
      post = leaders fmtYear (some key) after := by
  induction pre generalizing worst frames with
  | nil =>
      cases frames with
      | nil => cases shown
      | cons s frames =>
          unfold leaders at shown
          dsimp only at shown
          rw [List.nil_append, List.cons.injEq] at shown
          obtain ⟨first, rest⟩ := shown
          obtain ⟨a, lead, named⟩ := Option.map_eq_some_iff.mp first
          obtain ⟨-, -, member, may, -⟩ := leading_spec lead
          refine ⟨[], s, frames, rfl, ⟨a, member, named, may⟩, ?_⟩
          rw [← rest, first]
  | cons o pre ih =>
      cases frames with
      | nil => cases shown
      | cons s frames =>
          unfold leaders at shown
          dsimp only at shown
          rw [List.cons_append, List.cons.injEq] at shown
          obtain ⟨before, t, after, rfl, leads, rest⟩ := ih shown.2
          exact ⟨s :: before, t, after, rfl, leads, rest⟩

/-- While nothing that may lead changes by more than half of what the headline is held by, what
lost the line does not get it back, and the line is not given up. -/
theorem lost_line_stays_lost (steady : Steady fmtYear base dead frames) {worst : Option String}
    {pre mid post : List (Option String)} {a : String} {o : Option String}
    (shown : leaders fmtYear worst frames = pre ++ some a :: (mid ++ o :: post))
    (moved : o ≠ some a) : o.isSome ∧ some a ∉ post := by
  obtain ⟨before, s, after, rfl, ⟨r, hr, rfl, may⟩, rest⟩ := leaders_split shown
  have later : ∀ t ∈ after, t ∈ before ++ s :: after := fun t ht =>
    List.mem_append_right _ (List.mem_cons_of_mem _ ht)
  have chain := leaders_chain (steady.mono later) fun t ht =>
    steady.stays s (List.mem_append_right _ List.mem_cons_self) t (later t ht) r hr may
  rw [← rest, List.isChain_iff_pairwise, List.pairwise_cons] at chain
  obtain ⟨from_a, behind⟩ := chain
  obtain ⟨a, b, same, rfl, climbs⟩ := from_a o (List.mem_append_right _ List.mem_cons_self)
  obtain rfl := Option.some.inj same
  refine ⟨rfl, fun again => ?_⟩
  have worse := climbs.resolve_left fun same => moved (congrArg some same.symm)
  obtain ⟨-, onward, -⟩ := List.pairwise_append.mp behind
  obtain ⟨b', a', same, same', back⟩ := (List.pairwise_cons.mp onward).1 _ again
  obtain rfl := Option.some.inj same
  obtain rfl := Option.some.inj same'
  rcases back with rfl | back
  · exact moved rfl
  · exact lt_asymm worse back

end Run

/-- A box with one card and no gateway. -/
def boxOf (kvUsage tempC : ℚ) : Status where
  serve := { up := true, slots := 8, kvUsage := .finite kvUsage }
  gate := { absent := true }
  gpus := [{ sample := { index := 0, tempC := some (.finite tempC) } }]

theorem told_boxOf (kvUsage tempC : ℚ) : Told (boxOf kvUsage tempC) :=
  ⟨by simp [boxOf], by simp [boxOf], by simp [boxOf], by simp [boxOf]⟩

/-- What may lead on a page, how bad it is, and whether it is offline. -/
def contenders (s : Status) : List (String × Ieee × Bool) :=
  ((page (fun _ => "2026") s).filter Reading.mayLead).map fun r => (r.key, r.severity, r.isOffline)

theorem mem_contenders {s : Status} {r : Reading} (hr : r ∈ page (fun _ => "2026") s)
    (may : r.mayLead) : (r.key, r.severity, r.isOffline) ∈ contenders s :=
  List.mem_map.mpr ⟨r, List.mem_filter.mpr ⟨hr, may⟩, rfl⟩

theorem of_mem_contenders {s : Status} {x : String × Ieee × Bool} (hx : x ∈ contenders s) :
    ∃ r ∈ page (fun _ => "2026") s, r.key = x.1 ∧ r.mayLead := by
  obtain ⟨r, hr, rfl⟩ := List.mem_map.mp hx
  exact ⟨r, (List.mem_filter.mp hr).1, rfl, (List.mem_filter.mp hr).2⟩

/-- The cache is the worse of the two for a while, and then the card is. -/
def closeRace : List Status := [boxOf 0.906 85.28, boxOf 0.894 86.12, boxOf 0.906 85.28]

theorem contenders_closeRace {s : Status} (hs : s ∈ closeRace) :
    contenders s = [("serve.kv", .finite 0.53, false), ("gpu.0.temp", .finite 0.52, false)] ∨
    contenders s = [("serve.kv", .finite 0.47, false), ("gpu.0.temp", .finite 0.58, false)] := by
  unfold closeRace at hs
  simp only [List.mem_cons, List.not_mem_nil, or_false] at hs
  rcases hs with rfl | rfl | rfl
  · exact Or.inl (by decide +kernel)
  · exact Or.inr (by decide +kernel)
  · exact Or.inl (by decide +kernel)

theorem steady_closeRace : Steady (fun _ => "2026")
    (fun key => if key = "serve.kv" then 0.5 else 0.55) (fun _ => false) closeRace where
  told s hs := by
    unfold closeRace at hs
    simp only [List.mem_cons, List.not_mem_nil, or_false] at hs
    rcases hs with rfl | rfl | rfl <;> exact told_boxOf _ _
  near s hs r hr may := by
    have member := mem_contenders hr may
    have apart : "gpu.0.temp" ≠ "serve.kv" := by decide
    rcases contenders_closeRace hs with all | all <;> rw [all] at member <;>
      simp only [List.mem_cons, List.not_mem_nil, or_false, Prod.mk.injEq] at member <;>
      rcases member with ⟨key, score, -⟩ | ⟨key, score, -⟩ <;>
      exact ⟨_, score, by rw [key]; norm_num [hysteresis, abs_lt, apart]⟩
  offline s hs r hr may := by
    have member := mem_contenders hr may
    rcases contenders_closeRace hs with all | all <;> rw [all] at member <;>
      simp only [List.mem_cons, List.not_mem_nil, or_false, Prod.mk.injEq] at member <;>
      rcases member with ⟨-, -, here⟩ | ⟨-, -, here⟩ <;> exact here
  stays s hs t ht r hr may := by
    have member := mem_contenders hr may
    have keys : ∀ u ∈ closeRace, (contenders u).map Prod.fst = ["serve.kv", "gpu.0.temp"] :=
      fun u hu => by rcases contenders_closeRace hu with all | all <;> rw [all] <;> rfl
    have named : r.key ∈ (contenders t).map Prod.fst := by
      rw [keys t ht, ← keys s hs]
      exact List.mem_map.mpr ⟨_, member, rfl⟩
    obtain ⟨x, hx, same⟩ := List.mem_map.mp named
    rw [← same]
    exact of_mem_contenders hx

theorem card_keeps_the_line :
    leaders (fun _ => "2026") none closeRace =
        [] ++ some "serve.kv" :: ([] ++ some "gpu.0.temp" :: [some "gpu.0.temp"]) ∧
      some "serve.kv" ∉ [some "gpu.0.temp"] := by
  have shown : leaders (fun _ => "2026") none closeRace =
      [] ++ some "serve.kv" :: ([] ++ some "gpu.0.temp" :: [some "gpu.0.temp"]) := by
    decide +kernel
  exact ⟨shown, (lost_line_stays_lost steady_closeRace shown (by simp)).2⟩

end Lss.Analysis.HeadlineRuns
