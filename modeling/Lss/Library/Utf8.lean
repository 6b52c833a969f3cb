import Mathlib.Data.List.Basic
import Mathlib.Data.Nat.Notation
import Mathlib.Algebra.Group.Nat.Defs

/-!
# Texts and their bytes

A text as characters, the bytes it is stored in, and offsets into them. An offset is a boundary
when a character begins or the text ends there; only there can the text be cut. A scan for
characters of one byte sees the same in the bytes as in the characters.
-/

set_option autoImplicit false

namespace Lss.Library.Utf8

/-- The bytes of a text. -/
def bytes (text : List Char) : List UInt8 := text.flatMap String.utf8EncodeChar

/-- The number of bytes of a text. -/
def size (text : List Char) : ℕ := (bytes text).length

/-- The rest of a text from an offset on, where a character begins or the text ends there. -/
def sliceFrom : List Char → ℕ → Option (List Char)
  | text, 0 => some text
  | [], _ + 1 => none
  | c :: text, i + 1 => if c.utf8Size ≤ i + 1 then sliceFrom text (i + 1 - c.utf8Size) else none

/-- The part of a text between two offsets. -/
def slice (text : List Char) (i j : ℕ) : Option (List Char) :=
  if i ≤ j then
    (sliceFrom text i).bind fun tail => (sliceFrom text j).map fun rest =>
      tail.take (tail.length - rest.length)
  else none

/-! ## Single characters -/

/-- A character of one byte. -/
def narrow (c : Char) : Prop := c.toNat < 128

instance (c : Char) : Decidable (narrow c) := inferInstanceAs (Decidable (c.toNat < 128))

/-- A byte that is a character by itself. -/
def byteOf (c : Char) : UInt8 := UInt8.ofNat c.toNat

theorem toNat_val (c : Char) : c.val.toNat = c.toNat := rfl

theorem encode_narrow {c : Char} (h : narrow c) : String.utf8EncodeChar c = [byteOf c] := by
  unfold narrow at h
  unfold String.utf8EncodeChar
  dsimp only
  rw [toNat_val, if_pos (by omega)]
  rfl

/-- The bytes of a character of several are no characters by themselves. -/
theorem le_of_mem_encode {c : Char} (h : ¬narrow c) {b : UInt8}
    (hb : b ∈ String.utf8EncodeChar c) : 128 ≤ b.toNat := by
  have high : ∀ n : ℕ, 128 ≤ n → n < 256 → b = UInt8.ofNat n → 128 ≤ b.toNat := by
    rintro n low up rfl
    rw [UInt8.toNat_ofNat']
    omega
  have wide : ¬c.toNat ≤ 127 := by
    unfold narrow at h
    omega
  unfold String.utf8EncodeChar at hb
  dsimp only at hb
  rw [toNat_val, if_neg wide] at hb
  split at hb
  · simp only [List.mem_cons, List.not_mem_nil, or_false] at hb
    rcases hb with hb | hb
    · exact high _ (by omega) (by omega) hb
    · exact high _ (by omega) (by omega) hb
  · split at hb
    · simp only [List.mem_cons, List.not_mem_nil, or_false] at hb
      rcases hb with hb | hb | hb
      · exact high _ (by omega) (by omega) hb
      · exact high _ (by omega) (by omega) hb
      · exact high _ (by omega) (by omega) hb
    · simp only [List.mem_cons, List.not_mem_nil, or_false] at hb
      rcases hb with hb | hb | hb | hb
      · exact high _ (by omega) (by omega) hb
      · exact high _ (by omega) (by omega) hb
      · exact high _ (by omega) (by omega) hb
      · exact high _ (by omega) (by omega) hb

theorem utf8Size_narrow {c : Char} (h : narrow c) : c.utf8Size = 1 := by
  rw [← String.length_utf8EncodeChar, encode_narrow h]
  rfl

theorem one_lt_utf8Size {c : Char} (h : ¬narrow c) : 1 < c.utf8Size := by
  unfold narrow at h
  have positive := Char.utf8Size_pos c
  have other : c.utf8Size ≠ 1 := by
    intro one
    have low := UInt32.le_iff_toNat_le.mp (Char.utf8Size_eq_one_iff.mp one)
    have top : (127 : UInt32).toNat = 127 := rfl
    rw [toNat_val, top] at low
    omega
  omega

theorem toNat_byteOf {c : Char} (h : narrow c) : (byteOf c).toNat = c.toNat := by
  unfold narrow at h
  unfold byteOf
  rw [UInt8.toNat_ofNat']
  omega

/-- A byte of a text is a given narrow character only where that character stands. -/
theorem byteOf_eq_iff {c d : Char} (hc : narrow c) (hd : narrow d) : byteOf c = byteOf d ↔ c = d := by
  constructor
  · intro h
    have same := congrArg UInt8.toNat h
    rw [toNat_byteOf hc, toNat_byteOf hd] at same
    exact Char.toNat_inj.mp same
  · rintro rfl
    rfl

theorem ne_byteOf {b : UInt8} {d : Char} (hb : 128 ≤ b.toNat) (hd : narrow d) : b ≠ byteOf d := by
  rintro rfl
  rw [toNat_byteOf hd] at hb
  unfold narrow at hd
  omega

/-! ## Sizes -/

@[simp] theorem bytes_nil : bytes [] = [] := rfl

theorem bytes_cons (c : Char) (text : List Char) :
    bytes (c :: text) = String.utf8EncodeChar c ++ bytes text := List.flatMap_cons

theorem bytes_append (l m : List Char) : bytes (l ++ m) = bytes l ++ bytes m :=
  List.flatMap_append

@[simp] theorem size_nil : size [] = 0 := rfl

@[simp] theorem size_cons (c : Char) (text : List Char) :
    size (c :: text) = c.utf8Size + size text := by
  unfold size
  rw [bytes_cons, List.length_append, String.length_utf8EncodeChar]

@[simp] theorem size_append (l m : List Char) : size (l ++ m) = size l + size m := by
  unfold size
  rw [bytes_append, List.length_append]

/-! ## Bytes at a boundary -/

theorem getElem?_bytes_append (l m : List Char) (k : ℕ) :
    (bytes (l ++ m))[size l + k]? = (bytes m)[k]? := by
  unfold size
  rw [bytes_append, List.getElem?_append_right (Nat.le_add_right _ _), Nat.add_sub_cancel_left]

theorem getElem?_bytes_boundary (l m : List Char) : (bytes (l ++ m))[size l]? = (bytes m)[0]? :=
  getElem?_bytes_append l m 0

theorem head_narrow {c : Char} (h : narrow c) (text : List Char) :
    (bytes (c :: text))[0]? = some (byteOf c) := by
  rw [bytes_cons, encode_narrow h]
  rfl

/-- All bytes of a character of several are above those of narrow ones. -/
theorem byte_wide {c : Char} (h : ¬narrow c) (text : List Char) {k : ℕ} (hk : k < c.utf8Size) :
    ∃ b, (bytes (c :: text))[k]? = some b ∧ 128 ≤ b.toNat := by
  have length : k < (String.utf8EncodeChar c).length := by
    rw [String.length_utf8EncodeChar]
    exact hk
  refine ⟨(String.utf8EncodeChar c)[k], ?_, le_of_mem_encode h (List.getElem_mem length)⟩
  rw [bytes_cons, List.getElem?_append_left length, List.getElem?_eq_getElem length]

/-! ## Cutting a text -/

theorem sliceFrom_zero (text : List Char) : sliceFrom text 0 = some text := by
  cases text <;> rfl

theorem sliceFrom_cons_add (c : Char) (text : List Char) (k : ℕ) :
    sliceFrom (c :: text) (c.utf8Size + k) = sliceFrom text k := by
  have positive := Char.utf8Size_pos c
  obtain ⟨n, hn⟩ : ∃ n, c.utf8Size + k = n + 1 := ⟨c.utf8Size + k - 1, by omega⟩
  have back : n + 1 - c.utf8Size = k := by omega
  rw [hn, sliceFrom, if_pos (by omega), back]

theorem sliceFrom_append_add (l m : List Char) (k : ℕ) :
    sliceFrom (l ++ m) (size l + k) = sliceFrom m k := by
  induction l with
  | nil => rw [List.nil_append, size_nil, Nat.zero_add]
  | cons c l ih => rw [List.cons_append, size_cons, Nat.add_assoc, sliceFrom_cons_add, ih]

theorem sliceFrom_append (l m : List Char) : sliceFrom (l ++ m) (size l) = some m := by
  have h := sliceFrom_append_add l m 0
  rw [Nat.add_zero, sliceFrom_zero] at h
  exact h

/-- Inside of a character a text cannot be cut. -/
theorem sliceFrom_inside {c : Char} (text : List Char) {k : ℕ} (pos : 0 < k) (hk : k < c.utf8Size) :
    sliceFrom (c :: text) k = none := by
  obtain ⟨n, rfl⟩ : ∃ n, k = n + 1 := ⟨k - 1, by omega⟩
  rw [sliceFrom, if_neg (by omega)]

theorem slice_append (l m r : List Char) :
    slice (l ++ (m ++ r)) (size l) (size l + size m) = some m := by
  have tail := sliceFrom_append l (m ++ r)
  have rest := sliceFrom_append (l ++ m) r
  rw [List.append_assoc, size_append] at rest
  unfold slice
  rw [if_pos (Nat.le_add_right _ _), tail, rest, Option.bind_some, Option.map_some,
    List.length_append, Nat.add_sub_cancel, List.take_left]

/-! ## Scanning -/

/-- A scan that stops at or runs over narrow characters only sees the same in both. -/
theorem takeWhile_bytes {p : UInt8 → Bool} {q : Char → Bool}
    (same : ∀ c, ∀ b ∈ String.utf8EncodeChar c, p b = q c) (text : List Char) :
    (bytes text).takeWhile p = bytes (text.takeWhile q) := by
  induction text with
  | nil => rfl
  | cons c text ih =>
      rw [bytes_cons]
      by_cases h : q c = true
      · have whole : ∀ b ∈ String.utf8EncodeChar c, p b = true := fun b hb => (same c b hb).trans h
        rw [List.takeWhile_cons_of_pos h, List.takeWhile_append_of_pos whole, bytes_cons, ih]
      · rw [List.takeWhile_cons_of_neg h]
        obtain ⟨b, bs, hb⟩ := List.exists_cons_of_ne_nil (String.utf8EncodeChar_ne_nil (c := c))
        have first : ¬p b = true := by
          rw [same c b (hb ▸ List.mem_cons_self)]
          exact h
        rw [hb, List.cons_append, List.takeWhile_cons_of_neg first]
        rfl

/-- A test for a narrow character reads the same on bytes. -/
theorem beq_byteOf {d : Char} (hd : narrow d) (c : Char) :
    ∀ b ∈ String.utf8EncodeChar c, decide (b = byteOf d) = decide (c = d) := by
  intro b hb
  rw [decide_eq_decide]
  by_cases hc : narrow c
  · rw [encode_narrow hc, List.mem_singleton] at hb
    rw [hb, byteOf_eq_iff hc hd]
  · constructor
    · intro h
      exact absurd h (ne_byteOf (le_of_mem_encode hc hb) hd)
    · rintro rfl
      exact absurd hd hc

end Lss.Library.Utf8
