import Lss.Library.Tally
import Lss.Analysis.GatePolls

/-!
# The algebra of the gateway's stretches

Stretches whose maxima are not negative are merged as the elements of a commutative monoid are,
and counting and merging make no others. The requests of a lane are counted by status, by verdict,
by key, and by key and status, and all four keep adding up to the same number. So the records of
few users can be counted in any order and in any pieces.
-/

set_option autoImplicit false

namespace Lss.Analysis.LogDeltas

open Lss.Model Lss.Library.Entries Lss.Library.Tally Lss.Analysis.LogMerge Lss.Analysis.GatePolls

/-! ## Merging -/

/-- A stretch whose maxima are not negative. -/
structure UnsignedDelta (d : LogDelta) : Prop where
  publicLane : Unsigned d.publicLane
  trustedLane : Unsigned d.trustedLane

theorem unsignedDelta_empty : UnsignedDelta {} := ⟨plain_empty.unsigned, plain_empty.unsigned⟩

theorem unsignedDelta_add {d : LogDelta} (h : UnsignedDelta d) (r : AuditRecord) :
    UnsignedDelta (d.add r) := by
  unfold LogDelta.add
  split
  · exact ⟨unsigned_add h.publicLane r, h.trustedLane⟩
  · exact ⟨h.publicLane, unsigned_add h.trustedLane r⟩

theorem unsignedDelta_merge {d e : LogDelta} (hd : UnsignedDelta d) (he : UnsignedDelta e) :
    UnsignedDelta (d.merge e) :=
  ⟨unsigned_merge hd.publicLane he.publicLane, unsigned_merge hd.trustedLane he.trustedLane⟩

theorem delta_merge_assoc {f : LogDelta} (hf : UnsignedDelta f) (d e : LogDelta) :
    (d.merge e).merge f = d.merge (e.merge f) := by
  unfold LogDelta.merge
  rw [merge_assoc hf.publicLane, merge_assoc hf.trustedLane]

theorem delta_merge_comm {d e : LogDelta} (hd : UnsignedDelta d) (he : UnsignedDelta e) :
    d.merge e = e.merge d := by
  unfold LogDelta.merge
  rw [merge_comm hd.publicLane he.publicLane, merge_comm hd.trustedLane he.trustedLane]

theorem delta_empty_merge {d : LogDelta} (h : UnsignedDelta d) : ({} : LogDelta).merge d = d := by
  unfold LogDelta.merge
  rw [empty_merge h.publicLane, empty_merge h.trustedLane]

theorem delta_merge_empty {d : LogDelta} (h : UnsignedDelta d) : d.merge {} = d := by
  rw [delta_merge_comm h unsignedDelta_empty, delta_empty_merge h]

/-! ## Four counts of the same requests -/

/-- The requests of a lane, counted four ways. -/
structure LaneBalanced (l : LaneLog) : Prop where
  byStatus : total id l.byStatus = l.requests
  byVerdict : total id l.byVerdict = l.requests
  byKey : total id l.byKey = l.requests
  byKeyStatus : total (total id) l.byKeyStatus = l.requests

theorem laneBalanced_empty : LaneBalanced {} where
  byStatus := total_empty _
  byVerdict := total_empty _
  byKey := total_empty _
  byKeyStatus := total_empty _

theorem total_counts_merge {κ : Type} [Ord κ] [Std.TransOrd κ] [Std.LawfulEqOrd κ]
    (mine theirs : Std.ExtTreeMap κ ℕ) :
    total id (mergeEntries (· + ·) mine theirs) = total id mine + total id theirs :=
  total_mergeInto rfl (fun _ _ => rfl) mine theirs

theorem total_codes_merge (mine theirs : Std.ExtTreeMap String (Std.ExtTreeMap ℕ ℕ)) :
    total (total id) (mergeEntries (mergeEntries (· + ·)) mine theirs) =
      total (total id) mine + total (total id) theirs :=
  total_mergeInto (total_empty _) total_counts_merge mine theirs

theorem laneBalanced_merge {l o : LaneLog} (hl : LaneBalanced l) (ho : LaneBalanced o) :
    LaneBalanced (l.merge o) where
  byStatus := by
    show total id (mergeEntries (· + ·) l.byStatus o.byStatus) = l.requests + o.requests
    rw [total_counts_merge, hl.byStatus, ho.byStatus]
  byVerdict := by
    show total id (mergeEntries (· + ·) l.byVerdict o.byVerdict) = l.requests + o.requests
    rw [total_counts_merge, hl.byVerdict, ho.byVerdict]
  byKey := by
    show total id (mergeEntries (· + ·) l.byKey o.byKey) = l.requests + o.requests
    rw [total_counts_merge, hl.byKey, ho.byKey]
  byKeyStatus := by
    show total (total id) (mergeEntries (mergeEntries (· + ·)) l.byKeyStatus o.byKeyStatus) =
      l.requests + o.requests
    rw [total_codes_merge, hl.byKeyStatus, ho.byKeyStatus]

/-- One more of a count. -/
theorem total_count_add {κ : Type} [Ord κ] [Std.TransOrd κ] [Std.LawfulEqOrd κ]
    (m : Std.ExtTreeMap κ ℕ) (k : κ) :
    total id (addEntry m k (· + 1)) = total id m + 1 :=
  total_change_add rfl m k fun _ => rfl

theorem laneBalanced_add {l : LaneLog} (h : LaneBalanced l) (r : AuditRecord) :
    LaneBalanced (l.add r) := by
  unfold LaneLog.add
  by_cases hm : r.method = "POST"
  · rw [if_neg (not_not.mpr hm)]
    refine ⟨?_, ?_, ?_, ?_⟩
    · dsimp only
      rw [total_count_add, h.byStatus]
    · dsimp only
      rw [total_count_add, h.byVerdict]
    · dsimp only
      rw [total_count_add, h.byKey]
    · -- one more code of one key
      have added := total_change_add (w := total id) (total_empty id) l.byKeyStatus
        (r.key.getD "(no key)") fun codes : Std.ExtTreeMap ℕ ℕ => total_count_add codes r.status
      rw [h.byKeyStatus] at added
      exact added
  · rw [if_pos hm]
    exact ⟨h.byStatus, h.byVerdict, h.byKey, h.byKeyStatus⟩

/-- Both lanes of a stretch. -/
structure Balanced (d : LogDelta) : Prop where
  publicLane : LaneBalanced d.publicLane
  trustedLane : LaneBalanced d.trustedLane

theorem balanced_add {d : LogDelta} (h : Balanced d) (r : AuditRecord) : Balanced (d.add r) := by
  unfold LogDelta.add
  split
  · exact ⟨laneBalanced_add h.publicLane r, h.trustedLane⟩
  · exact ⟨h.publicLane, laneBalanced_add h.trustedLane r⟩

theorem balanced_merge {d e : LogDelta} (hd : Balanced d) (he : Balanced e) :
    Balanced (d.merge e) :=
  ⟨laneBalanced_merge hd.publicLane he.publicLane, laneBalanced_merge hd.trustedLane he.trustedLane⟩

/-! ## Any order, any pieces -/

theorem few_of_subset {part rs : List AuditRecord} (few : Few rs) (h : part ⊆ rs) : Few part := by
  have lane : ∀ p : AuditRecord → Bool,
      (usersOf (part.filter p)).dedup.length ≤ (usersOf (rs.filter p)).dedup.length := by
    intro p
    apply List.Subperm.length_le
    apply List.subperm_of_subset (List.nodup_dedup _)
    intro u hu
    rw [List.mem_dedup] at hu ⊢
    exact List.filterMap_subset _ (List.filter_subset _ h) hu
  exact ⟨(lane _).trans few.1, (lane _).trans few.2⟩

/-- The stretches of some parts merge to what all the records count to. -/
theorem foldl_merge_totals (parts : List (List AuditRecord)) :
    (parts.map totals).foldl LogDelta.merge {} = totals parts.flatten := by
  induction parts using List.reverseRecOn with
  | nil => rfl
  | append_singleton parts part ih =>
      rw [List.map_append, List.foldl_append, ih, List.flatten_append, ← merge_totals]
      simp

/-- Few users' records come to the same in any order and in any pieces. -/
theorem foldl_merge_of_few {rs : List AuditRecord} (few : Few rs) {parts : List (List AuditRecord)}
    (h : parts.flatten.Perm rs) :
    (parts.map fun part => part.foldl LogDelta.add {}).foldl LogDelta.merge {} =
      rs.foldl LogDelta.add {} := by
  have counted : parts.map (fun part => part.foldl LogDelta.add {}) = parts.map totals := by
    apply List.map_congr_left
    intro part hpart
    exact foldl_add_of_few (few_of_subset few fun r hr =>
      h.subset (List.mem_flatten.mpr ⟨part, hpart, hr⟩))
  rw [counted, foldl_merge_totals, totals_perm h, foldl_add_of_few few]

/-! ## The whole -/

/-- What merging stretches and counting records into them guarantees. -/
structure Algebra (good : LogDelta → Prop) : Prop where
  empty : good {}
  add : ∀ d r, good d → good (d.add r)
  merge : ∀ d e, good d → good e → good (d.merge e)
  assoc : ∀ d e f, good d → good e → good f → (d.merge e).merge f = d.merge (e.merge f)
  comm : ∀ d e, good d → good e → d.merge e = e.merge d
  empty_merge : ∀ d, good d → ({} : LogDelta).merge d = d
  merge_empty : ∀ d, good d → d.merge {} = d

/-- A request as the gateway logs it. -/
def someRequest (caller key : String) (status : ℕ) : AuditRecord :=
  { caller := caller, key := some key, method := "POST", verdict := "ok", status := status
    ttfbMs := some 40 }

/-- A stretch with a maximum below zero, which no record makes. -/
def signedStretch : LogDelta where
  trustedLane :=
    { est := ⟨1, -1, -1⟩
      byKeyEst := (∅ : Std.ExtTreeMap String EstTokens).insert "a" ⟨1, -1, -1⟩ }

end Lss.Analysis.LogDeltas
