import Lss.Library.Utf8
import Lss.Model.Prom

/-!
# The label block, byte by byte

The block of labels is scanned with offsets into the bytes of a line, and pieces of it are cut out
between such offsets. A cut that is not at a character boundary fails; here it is told apart from
a block that is malformed.
-/

set_option autoImplicit false

namespace Lss.Model.PromBytes

open Lss.Library.Lines Lss.Library.Utf8

/-- Why a block is given up. -/
inductive Fault where
  | malformed
  /-- a cut inside of a character -/
  | offBoundary
deriving DecidableEq

/-- What stands for a backslash and the byte behind it.
SOURCE: lss-core/src/prom.rs:82-90 -/
def unescapedByte (other : UInt8) : List Char :=
  if other = byteOf 'n' then ['\n']
  else if other = byteOf '"' then ['"']
  else if other = byteOf '\\' then ['\\']
  else ['\\', Char.ofNat other.toNat]

/-- The value of a label from an offset on, and the offset behind its closing quote.
SOURCE: lss-core/src/prom.rs:77-104 -/
def labelValue (body : List Char) (i : ℕ) : Except Fault (List Char × ℕ) :=
  match _h : (bytes body)[i]? with
  | none => .error .malformed
  | some c =>
    if c = byteOf '\\' then
      match (bytes body)[i + 1]? with
      | none => .error .malformed
      | some other => (labelValue body (i + 2)).map fun r => (unescapedByte other ++ r.1, r.2)
    else if c = byteOf '"' then .ok ([], i + 1)
    else
      match sliceFrom body i with
      | none => .error .offBoundary
      | some [] => .error .malformed
      | some (ch :: _) => (labelValue body (i + ch.utf8Size)).map fun r => (ch :: r.1, r.2)
termination_by (bytes body).length - i
decreasing_by
  · have inside := (List.getElem?_eq_some_iff.mp _h).1
    omega
  · have inside := (List.getElem?_eq_some_iff.mp _h).1
    have positive := Char.utf8Size_pos ch
    omega

theorem labelValue_none {body : List Char} {i : ℕ} (h : (bytes body)[i]? = none) :
    labelValue body i = .error .malformed := by
  rw [labelValue.eq_def]
  split
  · rfl
  · rename_i h'
    rw [h] at h'
    cases h'

theorem labelValue_some {body : List Char} {i : ℕ} {c : UInt8} (h : (bytes body)[i]? = some c) :
    labelValue body i =
      if c = byteOf '\\' then
        match (bytes body)[i + 1]? with
        | none => .error .malformed
        | some other => (labelValue body (i + 2)).map fun r => (unescapedByte other ++ r.1, r.2)
      else if c = byteOf '"' then .ok ([], i + 1)
      else
        match sliceFrom body i with
        | none => .error .offBoundary
        | some [] => .error .malformed
        | some (ch :: _) =>
          (labelValue body (i + ch.utf8Size)).map fun r => (ch :: r.1, r.2) := by
  rw [labelValue.eq_def]
  split
  · rename_i h'
    rw [h] at h'
    cases h'
  · rename_i c' h'
    rw [h] at h'
    cases h'
    rfl

theorem map_eq_ok {α β : Type} {x : Except Fault α} {f : α → β} {b : β} (h : x.map f = .ok b) :
    ∃ a, x = .ok a ∧ f a = b := by
  cases x with
  | error e => cases h
  | ok a => exact ⟨a, rfl, Except.ok.inj h⟩

/-- A value ends behind where it begins. -/
theorem labelValue_lt {body : List Char} {i : ℕ} {r : List Char × ℕ}
    (h : labelValue body i = .ok r) : i < r.2 := by
  fun_induction labelValue body i generalizing r with
  | case1 => cases h
  | case2 => cases h
  | case3 i _ other _ ih =>
      obtain ⟨r', hr', rfl⟩ := map_eq_ok h
      have := ih hr'
      dsimp only
      omega
  | case4 i =>
      cases h
      exact Nat.lt_succ_self i
  | case5 => cases h
  | case6 => cases h
  | case7 i _ _ _ _ ch _ _ ih =>
      obtain ⟨r', hr', rfl⟩ := map_eq_ok h
      have := ih hr'
      dsimp only
      omega

/-- The offset behind the bytes from an offset on that pass a test.
SOURCE: lss-core/src/prom.rs:58-60, 68-70 -/
def pass (body : List Char) (test : UInt8 → Bool) (i : ℕ) : ℕ :=
  i + (((bytes body).drop i).takeWhile test).length

/-- The labels from an offset on, and the offset behind the closing brace.
SOURCE: lss-core/src/prom.rs:57-106 -/
def labelsFrom (body : List Char) (i : ℕ) : Except Fault (List (String × String) × ℕ) :=
  let start := pass body (fun b => b = byteOf ',' || b = byteOf ' ') i
  match _h : (bytes body)[start]? with
  | none => .error .malformed
  | some c =>
    if c = byteOf '}' then .ok ([], start + 1)
    else
      let stop := pass body (fun b => !decide (b = byteOf '=')) start
      match slice body start stop with
      | none => .error .offBoundary
      | some key =>
        if (bytes body)[stop + 1]? = some (byteOf '"') then
          match _h' : labelValue body (stop + 2) with
          | .error e => .error e
          | .ok (value, next) =>
            (labelsFrom body next).map fun r =>
              ((String.ofList (trimmed isBlank key), String.ofList value) :: r.1, r.2)
        else .error .malformed
termination_by (bytes body).length - i
decreasing_by
  have inside := (List.getElem?_eq_some_iff.mp _h).1
  have value := labelValue_lt _h'
  have key : start ≤ stop := Nat.le_add_right _ _
  have skip : i ≤ start := Nat.le_add_right _ _
  dsimp only at value
  omega

/-- The labels of a block and the text behind its brace, as the rest of the line is cut off.
SOURCE: lss-core/src/prom.rs:35-36 -/
def parseLabels (body : List Char) : Option (List (String × String) × List Char) :=
  match labelsFrom body 0 with
  | .ok (labels, consumed) => (sliceFrom body consumed).map fun rest => (labels, rest)
  | .error _ => none

/-! ## One step of a block -/

theorem labelsFrom_malformed {body : List Char} {i : ℕ}
    (h : (bytes body)[pass body (fun b => b = byteOf ',' || b = byteOf ' ') i]? = none) :
    labelsFrom body i = .error .malformed := by
  rw [labelsFrom.eq_def]
  dsimp only
  split
  · rfl
  · rename_i h'
    rw [h] at h'
    cases h'

theorem labelsFrom_some {body : List Char} {i start : ℕ} {c : UInt8}
    (hstart : pass body (fun b => b = byteOf ',' || b = byteOf ' ') i = start)
    (h : (bytes body)[start]? = some c) :
    labelsFrom body i =
      if c = byteOf '}' then .ok ([], start + 1)
      else
        let stop := pass body (fun b => !decide (b = byteOf '=')) start
        match slice body start stop with
        | none => .error .offBoundary
        | some key =>
          if (bytes body)[stop + 1]? = some (byteOf '"') then
            match labelValue body (stop + 2) with
            | .error e => .error e
            | .ok (value, next) =>
              (labelsFrom body next).map fun r =>
                ((String.ofList (trimmed isBlank key), String.ofList value) :: r.1, r.2)
          else .error .malformed := by
  rw [labelsFrom.eq_def]
  dsimp only
  rw [hstart]
  split
  · rename_i h'
    rw [h] at h'
    cases h'
  · rename_i c' h'
    rw [h] at h'
    cases h'
    generalize labelValue body _ = value
    cases value <;> rfl

end Lss.Model.PromBytes
