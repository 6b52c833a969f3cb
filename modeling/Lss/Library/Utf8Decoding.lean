import Mathlib.Data.List.TakeWhile
import Lss.Library.Utf8

/-!
# Bytes read as a text

Bytes are read from the front, one character after the other. Where none begins, as many bytes as
could have begun one are passed over together. A character of one byte is seen wherever it stands,
so what is in front of it and what is behind it are read apart.
-/

set_option autoImplicit false

namespace Lss.Library.Utf8

/-! ## Reading -/

/-- A byte of a character that is not its first. -/
def tail (b : UInt8) : Bool := 128 ≤ b.toNat && b.toNat < 192

/-- The length of a character by its first byte, where there is one. -/
def width (b : UInt8) : ℕ :=
  if b.toNat < 0x80 then 1
  else if b.toNat < 0xC2 then 0
  else if b.toNat < 0xE0 then 2
  else if b.toNat < 0xF0 then 3
  else if b.toNat < 0xF5 then 4
  else 0

/-- The second byte: no character is written longer than it must be, and none is a surrogate or
above the last one. -/
def second (b c : UInt8) : Bool :=
  tail c && (b.toNat ≠ 0xE0 || 0xA0 ≤ c.toNat) && (b.toNat ≠ 0xED || c.toNat < 0xA0) &&
    (b.toNat ≠ 0xF0 || 0x90 ≤ c.toNat) && (b.toNat ≠ 0xF4 || c.toNat < 0x90)

/-- The bytes that go on a character. -/
def matched (b : UInt8) : List UInt8 → List UInt8
  | [] => []
  | c :: more =>
    if 2 ≤ width b && second b c then c :: (more.take (width b - 2)).takeWhile tail else []

/-- The number of a character. -/
def value (b : UInt8) (tails : List UInt8) : ℕ :=
  tails.foldl (fun v c => v * 64 + c.toNat % 64)
    (if width b = 1 then b.toNat else b.toNat % 2 ^ (7 - width b))

/-- The character that begins here, if one does, and the number of bytes that go with this one. -/
def leading (b : UInt8) (rest : List UInt8) : Option Char × ℕ :=
  let tails := matched b rest
  (if width b = tails.length + 1 then some (Char.ofNat (value b tails)) else none, tails.length)

/-- What bytes are read as, so many of them being read already. -/
def decodeAfter : ℕ → List UInt8 → List (Option Char)
  | _, [] => []
  | 0, b :: rest => (leading b rest).1 :: decodeAfter (leading b rest).2 rest
  | k + 1, _ :: rest => decodeAfter k rest

/-- Bytes as a text, where they are one. -/
def fromUtf8 (bs : List UInt8) : Option (List Char) := (decodeAfter 0 bs).mapM id

/-- Bytes as a text, with a character of its own for what is none. -/
def fromUtf8Lossy (bs : List UInt8) : List Char :=
  (decodeAfter 0 bs).map fun c => c.getD (Char.ofNat 0xFFFD)

/-! ## Texts -/

theorem decodeAfter_eq_drop (k : ℕ) (bs : List UInt8) :
    decodeAfter k bs = decodeAfter 0 (bs.drop k) := by
  induction k generalizing bs with
  | zero => rfl
  | succ k ih =>
      cases bs with
      | nil => rfl
      | cons b bs => exact ih bs

theorem toNat_ofNat_of_lt {n : ℕ} (small : n < 256) : (UInt8.ofNat n).toNat = n := by
  rw [UInt8.toNat_ofNat']
  omega

/-- The last six bits of a byte that goes on a character. -/
theorem tail_of_toNat {b : UInt8} {n : ℕ} (number : b.toNat = n % 64 + 128) :
    tail b ∧ b.toNat % 64 = n % 64 := by
  unfold tail
  rw [number, Bool.and_eq_true, decide_eq_true_eq, decide_eq_true_eq]
  omega

theorem second_iff {b c : UInt8} : second b c ↔ tail c ∧ (b.toNat = 0xE0 → 0xA0 ≤ c.toNat) ∧
    (b.toNat = 0xED → c.toNat < 0xA0) ∧ (b.toNat = 0xF0 → 0x90 ≤ c.toNat) ∧
      (b.toNat = 0xF4 → c.toNat < 0x90) := by
  simp only [second, Bool.and_eq_true, Bool.or_eq_true, decide_eq_true_eq, ne_eq, and_assoc,
    ← imp_iff_not_or]

/-- The bytes of a character: the first tells how many there are, the others go on it, and together
they give its number. -/
def Spells (b : UInt8) (tails : List UInt8) (v : ℕ) : Prop :=
  width b = tails.length + 1 ∧ (∀ d ∈ tails, tail d) ∧ (∀ d ∈ tails.head?, second b d) ∧
    value b tails = v

theorem spells_two {b c : UInt8} {v : ℕ} (low : 0x80 ≤ v) (high : v < 0x800)
    (first : b.toNat = v / 64 % 32 + 192) (last : c.toNat = v % 64 + 128) : Spells b [c] v := by
  have two : width b = 2 := by
    unfold width
    rw [first, if_neg (by omega), if_neg (by omega), if_pos (by omega)]
  have last_tail := tail_of_toNat last
  refine ⟨two, by simpa using last_tail.1, ?_, ?_⟩
  · intro d hd
    obtain rfl := Option.some.inj hd
    exact second_iff.mpr ⟨last_tail.1, by omega, by omega, by omega, by omega⟩
  · simp [value, two]
    omega

theorem spells_three {b c d : UInt8} {v : ℕ} (low : 0x800 ≤ v) (high : v < 0x10000)
    (valid : v < 0xD800 ∨ 0xDFFF < v) (first : b.toNat = v / 4096 % 16 + 224)
    (next : c.toNat = v / 64 % 64 + 128) (last : d.toNat = v % 64 + 128) : Spells b [c, d] v := by
  have three : width b = 3 := by
    unfold width
    rw [first, if_neg (by omega), if_neg (by omega), if_neg (by omega), if_pos (by omega)]
  have next_tail := tail_of_toNat next
  have last_tail := tail_of_toNat last
  refine ⟨three, by simpa using ⟨next_tail.1, last_tail.1⟩, ?_, ?_⟩
  · intro e he
    obtain rfl := Option.some.inj he
    exact second_iff.mpr ⟨next_tail.1, by omega, by omega, by omega, by omega⟩
  · simp [value, three]
    omega

theorem spells_four {b c d e : UInt8} {v : ℕ} (low : 0x10000 ≤ v) (high : v < 0x110000)
    (first : b.toNat = v / 262144 % 8 + 240) (next : c.toNat = v / 4096 % 64 + 128)
    (third : d.toNat = v / 64 % 64 + 128) (last : e.toNat = v % 64 + 128) :
    Spells b [c, d, e] v := by
  have four : width b = 4 := by
    unfold width
    rw [first, if_neg (by omega), if_neg (by omega), if_neg (by omega), if_neg (by omega),
      if_pos (by omega)]
  have next_tail := tail_of_toNat next
  have third_tail := tail_of_toNat third
  have last_tail := tail_of_toNat last
  refine ⟨four, by simpa using ⟨next_tail.1, third_tail.1, last_tail.1⟩, ?_, ?_⟩
  · intro f hf
    obtain rfl := Option.some.inj hf
    exact second_iff.mpr ⟨next_tail.1, by omega, by omega, by omega, by omega⟩
  · simp [value, four]
    omega

theorem exists_spelled (c : Char) :
    ∃ b tails, String.utf8EncodeChar c = b :: tails ∧ Spells b tails c.toNat := by
  have valid : c.toNat < 0xD800 ∨ 0xDFFF < c.toNat ∧ c.toNat < 0x110000 := c.valid
  unfold String.utf8EncodeChar
  dsimp only
  rw [toNat_val]
  generalize c.toNat = v at valid
  split
  · have first : (UInt8.ofNat v).toNat = v := toNat_ofNat_of_lt (by omega)
    have one : width (UInt8.ofNat v) = 1 := by
      unfold width
      rw [first, if_pos (by omega)]
    exact ⟨_, _, rfl, by simpa using one, by simp, by simp, by simp [value, one, first]⟩
  · split
    · exact ⟨_, _, rfl, spells_two (by omega) (by omega) (toNat_ofNat_of_lt (by omega))
        (toNat_ofNat_of_lt (by omega))⟩
    · split
      · exact ⟨_, _, rfl, spells_three (by omega) (by omega) (by omega)
          (toNat_ofNat_of_lt (by omega)) (toNat_ofNat_of_lt (by omega))
          (toNat_ofNat_of_lt (by omega))⟩
      · exact ⟨_, _, rfl, spells_four (by omega) (by omega) (toNat_ofNat_of_lt (by omega))
          (toNat_ofNat_of_lt (by omega)) (toNat_ofNat_of_lt (by omega))
          (toNat_ofNat_of_lt (by omega))⟩

/-- The bytes that go on a character are all matched, whatever stands behind them. -/
theorem matched_append {b : UInt8} {tails : List UInt8} {v : ℕ} (spells : Spells b tails v)
    (rest : List UInt8) : matched b (tails ++ rest) = tails := by
  obtain ⟨length, all, head, -⟩ := spells
  cases tails with
  | nil =>
      have short : ¬2 ≤ width b := by simp [length]
      cases rest <;> simp [matched, short]
  | cons d tails =>
      have long : 2 ≤ width b := by simp [length]
      have more : width b - 2 = tails.length := by simp [length]
      have goes_on := head d rfl
      have tails_all : tails.takeWhile tail = tails :=
        List.takeWhile_eq_self_iff.mpr fun e he => all e (List.mem_cons_of_mem _ he)
      simp [matched, long, goes_on, more, tails_all]

/-- A character that was written is read first. -/
theorem decode_encode (c : Char) (rest : List UInt8) :
    decodeAfter 0 (String.utf8EncodeChar c ++ rest) = some c :: decodeAfter 0 rest := by
  obtain ⟨b, tails, shape, spells⟩ := exists_spelled c
  have read := matched_append spells rest
  rw [shape, List.cons_append, decodeAfter]
  simp only [leading, read, spells.1, spells.2.2.2, if_true, Char.ofNat_toNat]
  rw [decodeAfter_eq_drop, List.drop_left]

/-- The bytes of a text are read as the text. -/
theorem decode_bytes (text : List Char) : decodeAfter 0 (bytes text) = text.map some := by
  induction text with
  | nil => rfl
  | cons c text ih => rw [bytes_cons, decode_encode, ih, List.map_cons]

theorem fromUtf8Lossy_bytes (text : List Char) : fromUtf8Lossy (bytes text) = text := by
  simp [fromUtf8Lossy, decode_bytes, Function.comp_def]

theorem fromUtf8_bytes (text : List Char) : fromUtf8 (bytes text) = some text := by
  unfold fromUtf8
  rw [decode_bytes]
  induction text with
  | nil => rfl
  | cons c text ih => simp [ih]

/-! ## Characters of one byte -/

theorem not_tail_byteOf {d : Char} (narrow_d : narrow d) : tail (byteOf d) = false := by
  unfold narrow at narrow_d
  unfold tail
  rw [toNat_byteOf narrow_d, Bool.and_eq_false_iff, decide_eq_false_iff_not]
  exact Or.inl (by omega)

theorem takeWhile_take_append {α : Type} {p : α → Bool} {x : α} (other : p x = false)
    (l r : List α) (n : ℕ) :
    ((l ++ x :: r).take n).takeWhile p = (l.take n).takeWhile p := by
  induction l generalizing n with
  | nil => cases n <;> simp [other]
  | cons a l ih =>
      cases n with
      | zero => rfl
      | succ n => simp only [List.cons_append, List.take_succ_cons, List.takeWhile_cons, ih]

/-- No character goes on over one of one byte. -/
theorem matched_narrow {d : Char} (narrow_d : narrow d) (b : UInt8) (front rest : List UInt8) :
    matched b (front ++ byteOf d :: rest) = matched b front := by
  have other := not_tail_byteOf narrow_d
  cases front with
  | nil => simp [matched, second, other]
  | cons c front => simp only [List.cons_append, matched, takeWhile_take_append other]

theorem length_matched_le (b : UInt8) (bs : List UInt8) : (matched b bs).length ≤ bs.length := by
  cases bs with
  | nil => simp [matched]
  | cons c more =>
      rw [matched]
      split
      · have part : ((more.take (width b - 2)).takeWhile tail).Sublist more :=
          (List.takeWhile_sublist _).trans (List.take_sublist _ _)
        exact Nat.succ_le_succ part.length_le
      · exact Nat.zero_le _

/-- A character of one byte is read where it stands, and the rest apart from it. -/
theorem decode_narrow {d : Char} (narrow_d : narrow d) (front rest : List UInt8) {k : ℕ}
    (within : k ≤ front.length) :
    decodeAfter k (front ++ byteOf d :: rest) =
      decodeAfter k front ++ some d :: decodeAfter 0 rest := by
  induction front generalizing k with
  | nil =>
      obtain rfl : k = 0 := by simpa using within
      have one := decode_encode d rest
      rwa [encode_narrow narrow_d] at one
  | cons b front ih =>
      cases k with
      | zero =>
          have same : leading b (front ++ byteOf d :: rest) = leading b front := by
            simp only [leading, matched_narrow narrow_d]
          have short : (leading b front).2 ≤ front.length := length_matched_le b front
          rw [List.cons_append, decodeAfter, same, decodeAfter, ih short, List.cons_append]
      | succ k => exact ih (by simpa using within)

theorem fromUtf8Lossy_narrow {d : Char} (narrow_d : narrow d) (front rest : List UInt8) :
    fromUtf8Lossy (front ++ byteOf d :: rest) =
      fromUtf8Lossy front ++ d :: fromUtf8Lossy rest := by
  simp [fromUtf8Lossy, decode_narrow narrow_d front rest (Nat.zero_le _)]

end Lss.Library.Utf8
