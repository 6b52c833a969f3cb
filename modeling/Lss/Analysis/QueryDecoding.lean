import Lss.Library.Toml
import Lss.Model.QueryText

/-!
# What a query decodes to

A query that was encoded is decoded to what it was. A percent sign is an escape where two digits
follow it, and everywhere else it should stay; but the number behind it is read with a plus in
front, so a plus and one digit are taken for an escape as well.
-/

set_option autoImplicit false

namespace Lss.Analysis.QueryDecoding

open Lss.Library Lss.Library.Utf8 Lss.Model.QueryText

/-! ## Encoding -/

/-- A byte as two digits behind a percent sign. -/
def escape (b : UInt8) : List Char :=
  ['%', Toml.hexDigit (b.toNat / 16), Toml.hexDigit (b.toNat % 16)]

section Encode

-- the bytes that are written as they are
variable (plain : UInt8 → Bool)

def encodeText (text : List Char) : List Char :=
  (bytes text).flatMap fun b => if plain b then [Char.ofNat b.toNat] else escape b

def encodePair (p : List Char × List Char) : List Char :=
  encodeText plain p.1 ++ '=' :: encodeText plain p.2

/-- The address with its parameters. -/
def encodeQuery (base : List Char) (pairs : List (List Char × List Char)) : List Char :=
  base ++ '?' :: [ '&' ].intercalate (pairs.map (encodePair plain))

/-- No byte that means something in a query, and none beyond ASCII, is written as it is. -/
def EncodesReserved : Prop :=
  ∀ b, plain b → b.toNat < 128 ∧ ∀ c ∈ ['%', '+', '&', '='], b ≠ byteOf c

end Encode

/-! ## Percent signs -/

def hexDigit (c : Char) : Bool := (hexValue c).isSome

/-- Two digits stand in front. -/
def twoDigits : List Char → Bool
  | c :: d :: _ => hexDigit c && hexDigit d
  | _ => false

/-- A plus and a digit stand in front. -/
def plusDigit : List Char → Bool
  | c :: d :: _ => c = '+' && hexDigit d
  | _ => false

/-- A percent sign that no two digits follow stays, and what follows it is decoded by itself: no
character of it goes with the sign. -/
def KeepsPercents (text : List Char) : Prop :=
  ∀ front rest, text = front ++ '%' :: rest → ¬twoDigits rest →
    percentDecode text = percentDecode front ++ '%' :: percentDecode rest

/-- Nowhere does a percent sign stand before a plus and a digit. -/
def NoPlusEscape (text : List Char) : Prop :=
  ∀ front rest, text = front ++ '%' :: rest → ¬plusDigit rest

/-! ## What is taken for an escape -/

/-- The byte of an escape, given what stands behind the percent sign. -/
def escaped (rest : List UInt8) : Option UInt8 :=
  if 2 ≤ rest.length then (fromUtf8 (rest.take 2)).bind fromStrRadix else none

theorem decodeBytes_eq_drop (k : ℕ) (bs : List UInt8) :
    decodeBytes k bs = decodeBytes 0 (bs.drop k) := by
  induction k generalizing bs with
  | zero => rfl
  | succ k ih =>
      cases bs with
      | nil => rfl
      | cons b bs => exact ih bs

theorem decodeBytes_percent (rest : List UInt8) :
    decodeBytes 0 (byteOf '%' :: rest) =
      match escaped rest with
      | some byte => byte :: decodeBytes 0 (rest.drop 2)
      | none => byteOf '%' :: decodeBytes 0 rest := by
  have other : byteOf '%' ≠ byteOf '+' := by decide
  rw [decodeBytes]
  unfold escaped
  by_cases long : 2 ≤ rest.length
  · rw [if_pos ⟨rfl, by rw [List.length_cons]; omega⟩, if_pos long]
    cases (fromUtf8 (rest.take 2)).bind fromStrRadix with
    | none => rfl
    | some byte =>
        dsimp only
        rw [decodeBytes_eq_drop]
  · rw [if_neg (by rw [List.length_cons]; omega), if_neg long, if_neg other]

theorem decodeBytes_plus (rest : List UInt8) :
    decodeBytes 0 (byteOf '+' :: rest) = byteOf ' ' :: decodeBytes 0 rest := by
  have other : byteOf '+' ≠ byteOf '%' := by decide
  rw [decodeBytes, if_neg (by simp [other]), if_pos rfl]

theorem decodeBytes_other {b : UInt8} (percent : b ≠ byteOf '%') (plus : b ≠ byteOf '+')
    (rest : List UInt8) : decodeBytes 0 (b :: rest) = b :: decodeBytes 0 rest := by
  rw [decodeBytes, if_neg (by simp [percent]), if_neg plus]

theorem narrow_of_hexDigit {c : Char} (h : hexDigit c) : narrow c := by
  unfold hexDigit hexValue at h
  unfold narrow
  simp only [Char.le_def, UInt32.le_iff_toNat_le] at h
  split at h
  · rename_i digit
    have top : c.toNat ≤ '9'.toNat := digit.2
    simp at top
    omega
  · split at h
    · rename_i letter
      have top : c.toNat ≤ 'f'.toNat := letter.2
      simp at top
      omega
    · split at h
      · rename_i letter
        have top : c.toNat ≤ 'F'.toNat := letter.2
        simp at top
        omega
      · cases h

theorem hexValue_lt {c : Char} {n : ℕ} (h : hexValue c = some n) : n < 16 := by
  unfold hexValue at h
  simp only [Char.le_def, UInt32.le_iff_toNat_le] at h
  split at h
  · rename_i digit
    have top : c.toNat ≤ '9'.toNat := digit.2
    have value := Option.some.inj h
    simp at top
    omega
  · split at h
    · rename_i letter
      have top : c.toNat ≤ 'f'.toNat := letter.2
      have value := Option.some.inj h
      simp at top
      omega
    · split at h
      · rename_i letter
        have top : c.toNat ≤ 'F'.toNat := letter.2
        have value := Option.some.inj h
        simp at top
        omega
      · cases h

theorem fromStrRadix_digits {c d : Char} (plus : c ≠ '+') :
    fromStrRadix [c, d] =
      (hexValue c).bind fun x => (hexValue d).map fun y => UInt8.ofNat (x * 16 + y) := by
  cases first : hexValue c with
  | none => simp [fromStrRadix, plus, first]
  | some x =>
      cases next : hexValue d with
      | none => simp [fromStrRadix, plus, first, next]
      | some y =>
          have x_lt := hexValue_lt first
          have y_lt := hexValue_lt next
          have fits : x * 16 + y < 256 := by omega
          simp [fromStrRadix, plus, first, next, fits]

/-- A plus is passed over. -/
theorem fromStrRadix_plus (d : Char) : fromStrRadix ['+', d] = (hexValue d).map UInt8.ofNat := by
  cases digit : hexValue d with
  | none => simp [fromStrRadix, digit]
  | some y =>
      have fits : y < 256 := by
        have y_lt := hexValue_lt digit
        omega
      simp [fromStrRadix, digit, fits]

/-- Two characters are read as a byte where both are digits, or the first is a plus. -/
theorem fromStrRadix_pair {c d : Char} :
    (fromStrRadix [c, d]).isSome ↔ (c = '+' ∨ hexDigit c) ∧ hexDigit d := by
  have no_digit : hexDigit '+' = false := by decide
  by_cases plus : c = '+'
  · subst plus
    simp [fromStrRadix_plus, hexDigit]
  · rw [fromStrRadix_digits plus]
    unfold hexDigit
    cases hexValue c <;> cases hexValue d <;> simp [plus]

/-! ### Bytes and characters -/

theorem toNat_char {n : ℕ} (small : n < 0xD800) : (Char.ofNat n).toNat = n := by
  unfold Char.ofNat
  rw [dif_pos (Or.inl small)]
  rfl

/-- A byte is a character by itself, or it is one of several. -/
theorem byte_cases (b : UInt8) : (∃ c, narrow c ∧ b = byteOf c) ∨ 128 ≤ b.toNat := by
  by_cases small : b.toNat < 128
  · left
    have number : (Char.ofNat b.toNat).toNat = b.toNat := toNat_char (by omega)
    refine ⟨Char.ofNat b.toNat, by rw [narrow, number]; exact small, ?_⟩
    unfold byteOf
    rw [number, UInt8.ofNat_toNat]
  · omega

theorem bytes_narrow {c : Char} (narrow_c : narrow c) (text : List Char) :
    bytes (c :: text) = byteOf c :: bytes text := by
  rw [bytes_cons, encode_narrow narrow_c, List.singleton_append]

/-- A text whose bytes begin with a character of one byte begins with it. -/
theorem exists_of_bytes_cons {text : List Char} {c : Char} {more : List UInt8}
    (narrow_c : narrow c) (h : bytes text = byteOf c :: more) :
    ∃ rest, text = c :: rest ∧ bytes rest = more := by
  cases text with
  | nil => cases h
  | cons d rest =>
      by_cases narrow_d : narrow d
      · rw [bytes_narrow narrow_d] at h
        obtain ⟨first, others⟩ := List.cons.inj h
        exact ⟨rest, by rw [(byteOf_eq_iff narrow_d narrow_c).mp first], others⟩
      · have first : byteOf c ∈ String.utf8EncodeChar d := by
          have head : (String.utf8EncodeChar d ++ bytes rest).head? = some (byteOf c) := by
            rw [← bytes_cons, h, List.head?_cons]
          rw [List.head?_append_of_ne_nil _ String.utf8EncodeChar_ne_nil] at head
          exact List.mem_of_head? head
        have high := le_of_mem_encode narrow_d first
        rw [toNat_byteOf narrow_c] at high
        unfold narrow at narrow_c
        omega

theorem width_of_wide {b : UInt8} (wide : 128 ≤ b.toNat) : width b ≠ 1 := by
  unfold width
  rw [if_neg (by omega)]
  split
  · omega
  · split
    · omega
    · split
      · omega
      · split <;> omega

/-- A byte of several begins no character by itself. -/
theorem leading_wide {b : UInt8} (wide : 128 ≤ b.toNat) : (leading b []).1 = none := by
  simp [leading, matched, width_of_wide wide]

/-- With one more byte it begins one that is no digit, or none. -/
theorem leading_wide_pair {x y : UInt8} (wide : 128 ≤ x.toNat) :
    (leading x [y]).1 = none ∨ ∃ c, leading x [y] = (some c, 1) ∧ ¬narrow c := by
  by_cases goes_on : 2 ≤ width x && second x y
  · have tails : matched x [y] = [y] := by simp [matched, goes_on]
    by_cases two : width x = 2
    · right
      have low : 0xC2 ≤ x.toNat ∧ x.toNat < 0xE0 := by
        unfold width at two
        rw [if_neg (by omega)] at two
        split at two
        · omega
        · split at two
          · omega
          · split at two
            · omega
            · split at two <;> omega
      have number : (Char.ofNat (value x [y])).toNat = x.toNat % 32 * 64 + y.toNat % 64 := by
        have said : value x [y] = x.toNat % 32 * 64 + y.toNat % 64 := by simp [value, two]
        rw [said, toNat_char (by omega)]
      refine ⟨Char.ofNat (value x [y]), by simp [leading, tails, two], ?_⟩
      unfold narrow
      omega
    · left
      simp [leading, tails, two]
  · left
    have none_matched : matched x [y] = [] := by simp [matched, goes_on]
    simp [leading, none_matched, width_of_wide wide]

/-- A byte of several is no digit, and does not go with a character in front of it. -/
theorem not_read_of_wide {x y : UInt8} (wide : 128 ≤ x.toNat ∨ 128 ≤ y.toNat) :
    (fromUtf8 [x, y]).bind fromStrRadix = none := by
  rcases byte_cases x with ⟨c, narrow_c, rfl⟩ | wide_x
  · have wide_y : 128 ≤ y.toNat := by
      rcases wide with high | high
      · rw [toNat_byteOf narrow_c] at high
        unfold narrow at narrow_c
        omega
      · exact high
    have read := decode_encode c [y]
    have last : decodeAfter 0 [y] = [none] := by rw [decodeAfter, leading_wide wide_y]; rfl
    rw [encode_narrow narrow_c, List.singleton_append, last] at read
    unfold fromUtf8
    rw [read]
    rfl
  · rcases leading_wide_pair (y := y) wide_x with none_read | ⟨c, read, wide_c⟩
    · unfold fromUtf8
      rw [decodeAfter, none_read]
      rfl
    · have no_digit : hexValue c = none :=
        Option.not_isSome_iff_eq_none.mp fun digit => wide_c (narrow_of_hexDigit digit)
      have no_plus : c ≠ '+' := by
        rintro rfl
        exact wide_c (by decide)
      have one : fromUtf8 [x, y] = some [c] := by
        unfold fromUtf8
        rw [decodeAfter, read]
        rfl
      rw [one]
      simp [fromStrRadix, no_plus, no_digit]

/-- What is taken for an escape are two characters of one byte. -/
theorem exists_of_escaped {rest : List UInt8} {v : UInt8} (h : escaped rest = some v) :
    ∃ c d more, rest = byteOf c :: byteOf d :: more ∧ narrow c ∧ narrow d ∧
      fromStrRadix [c, d] = some v := by
  unfold escaped at h
  split at h
  · match rest, h with
    | x :: y :: more, h =>
        have read : (fromUtf8 [x, y]).bind fromStrRadix = some v := h
        rcases byte_cases x with ⟨c, narrow_c, rfl⟩ | wide
        · rcases byte_cases y with ⟨d, narrow_d, rfl⟩ | wide
          · have pair : fromUtf8 [byteOf c, byteOf d] = some [c, d] := by
              have whole := fromUtf8_bytes [c, d]
              rwa [bytes_narrow narrow_c, bytes_narrow narrow_d, bytes_nil] at whole
            rw [pair] at read
            exact ⟨c, d, more, rfl, narrow_c, narrow_d, read⟩
          · rw [not_read_of_wide (Or.inr wide)] at read
            cases read
        · rw [not_read_of_wide (Or.inl wide)] at read
          cases read
  · cases h

theorem escaped_narrow {c d : Char} (narrow_c : narrow c) (narrow_d : narrow d)
    (more : List UInt8) : escaped (byteOf c :: byteOf d :: more) = fromStrRadix [c, d] := by
  have pair := fromUtf8_bytes [c, d]
  rw [bytes_narrow narrow_c, bytes_narrow narrow_d, bytes_nil] at pair
  unfold escaped
  rw [if_pos (by simp)]
  simp [pair]

/-- Of a text behind a percent sign the first two characters are read. -/
theorem escaped_bytes (text : List Char) :
    escaped (bytes text) = match text with
      | c :: d :: _ => fromStrRadix [c, d]
      | _ => none := by
  cases said : escaped (bytes text) with
  | some v =>
      obtain ⟨c, d, more, text_eq, narrow_c, narrow_d, read⟩ := exists_of_escaped said
      obtain ⟨rest, rfl, rest_eq⟩ := exists_of_bytes_cons narrow_c text_eq
      obtain ⟨rest, rfl, -⟩ := exists_of_bytes_cons narrow_d rest_eq
      exact read.symm
  | none =>
      match text, said with
      | [], _ => rfl
      | [_], _ => rfl
      | c :: d :: rest, said =>
          dsimp only
          by_contra read
          obtain ⟨v, read⟩ := Option.ne_none_iff_exists'.mp (Ne.symm read)
          have digits := fromStrRadix_pair.mp (by rw [read]; rfl)
          have narrow_c : narrow c := by
            rcases digits.1 with rfl | digit
            · decide
            · exact narrow_of_hexDigit digit
          have narrow_d := narrow_of_hexDigit digits.2
          rw [bytes_narrow narrow_c, bytes_narrow narrow_d, escaped_narrow narrow_c narrow_d,
            read] at said
          cases said

/-! ## Cut at a percent sign -/

/-- A percent sign is no part of an escape that begins in front of it. -/
theorem escaped_append (front rest : List UInt8) :
    escaped (front ++ byteOf '%' :: rest) = escaped front := by
  match front with
  | x :: y :: front => simp [escaped]
  | [] =>
      have short : escaped [] = none := rfl
      rw [short, Option.eq_none_iff_forall_ne_some]
      intro v said
      obtain ⟨c, d, more, text, narrow_c, -, read⟩ := exists_of_escaped said
      obtain rfl := (byteOf_eq_iff (by decide) narrow_c).mp (List.cons.inj text).1
      have digits := fromStrRadix_pair.mp (by rw [read]; rfl)
      exact absurd digits.1 (by decide)
  | [x] =>
      have short : escaped [x] = none := rfl
      rw [short, Option.eq_none_iff_forall_ne_some]
      intro v said
      obtain ⟨c, d, more, text, -, narrow_d, read⟩ := exists_of_escaped said
      obtain rfl := (byteOf_eq_iff (by decide) narrow_d).mp (List.cons.inj (List.cons.inj text).2).1
      have digits := fromStrRadix_pair.mp (by rw [read]; rfl)
      exact absurd digits.2 (by decide)

theorem two_le_of_escaped {rest : List UInt8} {v : UInt8} (h : escaped rest = some v) :
    2 ≤ rest.length := by
  obtain ⟨c, d, more, rfl, -⟩ := exists_of_escaped h
  simp

/-- What is in front of a percent sign is decoded by itself. -/
theorem decodeBytes_append (front rest : List UInt8) {k : ℕ} (within : k ≤ front.length) :
    decodeBytes k (front ++ byteOf '%' :: rest) =
      decodeBytes k front ++ decodeBytes 0 (byteOf '%' :: rest) := by
  induction front generalizing k with
  | nil =>
      obtain rfl : k = 0 := by simpa using within
      rfl
  | cons b front ih =>
      cases k with
      | succ k => exact ih (by simpa using within)
      | zero =>
          have next := ih (k := 0) (Nat.zero_le _)
          rw [List.cons_append]
          by_cases percent : b = byteOf '%'
          · subst percent
            rw [decodeBytes_percent, decodeBytes_percent, escaped_append]
            cases said : escaped front with
            | none => simp [next]
            | some byte =>
                have behind := ih (two_le_of_escaped said)
                rw [decodeBytes_eq_drop 2, decodeBytes_eq_drop 2 front] at behind
                simp [behind]
          · by_cases plus : b = byteOf '+'
            · subst plus
              rw [decodeBytes_plus, decodeBytes_plus, next, List.cons_append]
            · rw [decodeBytes_other percent plus, decodeBytes_other percent plus, next,
                List.cons_append]

/-- A text cut at a percent sign. -/
theorem percentDecode_append (front rest : List Char) :
    percentDecode (front ++ '%' :: rest) =
      match escaped (bytes rest) with
      | some byte =>
        fromUtf8Lossy (decodeBytes 0 (bytes front) ++ byte :: decodeBytes 0 ((bytes rest).drop 2))
      | none => percentDecode front ++ '%' :: percentDecode rest := by
  have cut : bytes (front ++ '%' :: rest) = bytes front ++ byteOf '%' :: bytes rest := by
    rw [bytes_append, bytes_narrow (by decide)]
  unfold percentDecode
  rw [cut, decodeBytes_append _ _ (Nat.zero_le _), decodeBytes_percent]
  cases escaped (bytes rest) with
  | none => exact fromUtf8Lossy_narrow (by decide) _ _
  | some byte => rfl

theorem escaped_eq_none {rest : List Char} (digits : ¬twoDigits rest) (plus : ¬plusDigit rest) :
    escaped (bytes rest) = none := by
  rw [escaped_bytes]
  match rest, digits, plus with
  | [], _, _ => rfl
  | [_], _, _ => rfl
  | c :: d :: _, digits, plus =>
      dsimp only
      rw [← Option.not_isSome_iff_eq_none, fromStrRadix_pair]
      simp only [twoDigits, plusDigit, Bool.and_eq_true, decide_eq_true_eq] at digits plus
      tauto

/-- A plus and a digit behind a percent sign are decoded to one character. -/
theorem percentDecode_plusDigit (front rest : List Char) {d : Char} (digit : hexDigit d) :
    ∃ e, percentDecode (front ++ '%' :: '+' :: d :: rest) =
      percentDecode front ++ e :: percentDecode rest := by
  obtain ⟨n, value⟩ := Option.isSome_iff_exists.mp digit
  have n_lt := hexValue_lt value
  have narrow_d := narrow_of_hexDigit digit
  have number : (Char.ofNat n).toNat = n := toNat_char (by omega)
  have narrow_n : narrow (Char.ofNat n) := by
    rw [narrow, number]
    omega
  have byte : UInt8.ofNat n = byteOf (Char.ofNat n) := by rw [byteOf, number]
  have said : escaped (bytes ('+' :: d :: rest)) = some (byteOf (Char.ofNat n)) := by
    rw [escaped_bytes]
    dsimp only
    rw [fromStrRadix_plus, value, ← byte]
    rfl
  have behind : (bytes ('+' :: d :: rest)).drop 2 = bytes rest := by
    rw [bytes_narrow (by decide), bytes_narrow narrow_d]
    rfl
  refine ⟨Char.ofNat n, ?_⟩
  rw [percentDecode_append, said, behind]
  exact fromUtf8Lossy_narrow narrow_n _ _

/-- A plus and a digit are decoded to two characters where they stand by themselves. -/
theorem percentDecode_plus {d : Char} (digit : hexDigit d) (rest : List Char) :
    percentDecode ('+' :: d :: rest) = ' ' :: d :: percentDecode rest := by
  have narrow_d := narrow_of_hexDigit digit
  have percent : byteOf d ≠ byteOf '%' := by
    rw [Ne, byteOf_eq_iff narrow_d (by decide)]
    rintro rfl
    exact absurd digit (by decide)
  have plus : byteOf d ≠ byteOf '+' := by
    rw [Ne, byteOf_eq_iff narrow_d (by decide)]
    rintro rfl
    exact absurd digit (by decide)
  unfold percentDecode
  rw [bytes_narrow (by decide), decodeBytes_plus, bytes_narrow narrow_d,
    decodeBytes_other percent plus]
  have space := fromUtf8Lossy_narrow (d := ' ') (by decide) []
    (byteOf d :: decodeBytes 0 (bytes rest))
  have next := fromUtf8Lossy_narrow narrow_d [] (decodeBytes 0 (bytes rest))
  have empty : fromUtf8Lossy [] = [] := rfl
  rw [List.nil_append, empty, List.nil_append] at space next
  rw [space, next]

/-- Percent signs are kept exactly where none stands before a plus and a digit. -/
theorem keepsPercents_iff (text : List Char) : KeepsPercents text ↔ NoPlusEscape text := by
  constructor
  · intro keeps front rest split plus
    match rest, plus, split with
    | c :: d :: rest, plus, split =>
        simp only [plusDigit, Bool.and_eq_true, decide_eq_true_eq] at plus
        obtain ⟨rfl, digit⟩ := plus
        have no_escape : ¬twoDigits ('+' :: d :: rest) := by
          have no_digit : hexDigit '+' = false := by decide
          simp [twoDigits, no_digit]
        have kept := keeps front _ split no_escape
        obtain ⟨e, taken⟩ := percentDecode_plusDigit front rest digit
        rw [split, taken, percentDecode_plus digit, List.append_cancel_left_eq] at kept
        have lengths := congrArg List.length kept
        simp at lengths
  · intro none_such front rest split digits
    rw [split, percentDecode_append, escaped_eq_none digits (none_such front rest split)]

/-! ## Encoded and decoded -/

section Encoded

variable {plain : UInt8 → Bool} (reserved : EncodesReserved plain)

theorem hexDigit_table : ∀ n < 16, narrow (Toml.hexDigit n) ∧ Toml.hexDigit n ≠ '&' ∧
    Toml.hexDigit n ≠ '=' := by
  decide +kernel

theorem fromStrRadix_escape (b : UInt8) : fromStrRadix
    [Toml.hexDigit (b.toNat / 16), Toml.hexDigit (b.toNat % 16)] = some b := by
  have table : ∀ n < 256, fromStrRadix [Toml.hexDigit (n / 16), Toml.hexDigit (n % 16)] =
      some (UInt8.ofNat n) := by
    decide +kernel
  rw [table _ b.toNat_lt, UInt8.ofNat_toNat]

/-- An encoded byte is decoded. -/
theorem decodeBytes_escape (b : UInt8) (rest : List UInt8) :
    decodeBytes 0 (bytes (escape b) ++ rest) = b :: decodeBytes 0 rest := by
  have b_lt := b.toNat_lt
  have first := (hexDigit_table (b.toNat / 16) (by omega)).1
  have last := (hexDigit_table (b.toNat % 16) (by omega)).1
  have written : bytes (escape b) = [byteOf '%', byteOf (Toml.hexDigit (b.toNat / 16)),
      byteOf (Toml.hexDigit (b.toNat % 16))] := by
    unfold escape
    rw [bytes_narrow (by decide), bytes_narrow first, bytes_narrow last, bytes_nil]
  rw [written, List.cons_append, decodeBytes_percent, List.cons_append, List.cons_append,
    escaped_narrow first last, fromStrRadix_escape]
  rfl

include reserved

/-- A byte that is written as it is stays. -/
theorem decodeBytes_plain {b : UInt8} (h : plain b) (rest : List UInt8) :
    decodeBytes 0 (bytes [Char.ofNat b.toNat] ++ rest) = b :: decodeBytes 0 rest := by
  obtain ⟨small, other⟩ := reserved b h
  have number : (Char.ofNat b.toNat).toNat = b.toNat := toNat_char (by omega)
  have written : bytes [Char.ofNat b.toNat] = [b] := by
    have same : byteOf (Char.ofNat b.toNat) = b := by rw [byteOf, number, UInt8.ofNat_toNat]
    rw [bytes_narrow (by rw [narrow, number]; exact small), bytes_nil, same]
  rw [written, List.singleton_append,
    decodeBytes_other (other '%' (by simp)) (other '+' (by simp))]

/-- What was encoded is decoded to what it was. -/
theorem percentDecode_encodeText (text : List Char) :
    percentDecode (encodeText plain text) = text := by
  have back : ∀ bs : List UInt8, decodeBytes 0 (bytes (bs.flatMap fun b =>
      if plain b then [Char.ofNat b.toNat] else escape b)) = bs := by
    intro bs
    induction bs with
    | nil => rfl
    | cons b bs ih =>
        rw [List.flatMap_cons, bytes_append]
        split
        · rename_i h
          rw [decodeBytes_plain reserved h, ih]
        · rw [decodeBytes_escape, ih]
  unfold percentDecode encodeText
  rw [back, fromUtf8Lossy_bytes]

/-- Nothing that was encoded cuts a query. -/
theorem not_mem_encodeText {c : Char} (h : c = '&' ∨ c = '=') (text : List Char) :
    c ∉ encodeText plain text := by
  intro mem
  obtain ⟨b, -, mem⟩ := List.mem_flatMap.mp mem
  split at mem
  · rename_i plain_b
    obtain ⟨small, other⟩ := reserved b plain_b
    have number : (Char.ofNat b.toNat).toNat = b.toNat := toNat_char (by omega)
    have same : b = byteOf c := by
      rw [List.mem_singleton.mp mem, byteOf, number, UInt8.ofNat_toNat]
    rcases h with rfl | rfl
    · exact other '&' (by simp) same
    · exact other '=' (by simp) same
  · have b_lt := b.toNat_lt
    have first := hexDigit_table (b.toNat / 16) (by omega)
    have last := hexDigit_table (b.toNat % 16) (by omega)
    simp only [escape, List.mem_cons, List.not_mem_nil, or_false] at mem
    rcases h with rfl | rfl
    · rcases mem with mem | mem | mem
      · exact absurd mem (by decide)
      · exact first.2.1 mem.symm
      · exact last.2.1 mem.symm
    · rcases mem with mem | mem | mem
      · exact absurd mem (by decide)
      · exact first.2.2 mem.symm
      · exact last.2.2 mem.symm

theorem readPair_encodePair {p : List Char × List Char} (named : p.1 ≠ []) :
    readPair (encodePair plain p) = some p := by
  have no_equals := not_mem_encodeText reserved (Or.inr rfl) p.1
  have some_key : encodeText plain p.1 ≠ [] := by
    intro empty
    have back := percentDecode_encodeText reserved p.1
    rw [empty] at back
    exact named back.symm
  have all : ∀ c ∈ encodeText plain p.1, decide (c ≠ '=') = true := by
    intro c hc
    rw [decide_eq_true_eq]
    rintro rfl
    exact no_equals hc
  have key : (encodePair plain p).takeWhile (· ≠ '=') = encodeText plain p.1 := by
    unfold encodePair
    rw [List.takeWhile_append_of_pos all]
    simp
  have value : ((encodePair plain p).dropWhile (· ≠ '=')).tail = encodeText plain p.2 := by
    unfold encodePair
    rw [List.dropWhile_append_of_pos all]
    simp
  unfold readPair
  dsimp only
  rw [key, value, if_neg some_key, percentDecode_encodeText reserved,
    percentDecode_encodeText reserved]

/-- The query of an address is cut into its pairs. -/
theorem splitOn_encodeQuery {base : List Char} (no_mark : '?' ∉ base)
    (pairs : List (List Char × List Char)) (named : ∀ p ∈ pairs, p.1 ≠ []) :
    ((((encodeQuery plain base pairs).dropWhile (· ≠ '?')).tail).splitOn '&').filterMap readPair =
      pairs := by
  have all : ∀ c ∈ base, decide (c ≠ '?') = true := by
    intro c hc
    rw [decide_eq_true_eq]
    rintro rfl
    exact no_mark hc
  have query : ((encodeQuery plain base pairs).dropWhile (· ≠ '?')).tail =
      [ '&' ].intercalate (pairs.map (encodePair plain)) := by
    unfold encodeQuery
    rw [List.dropWhile_append_of_pos all]
    simp
  have apart : ∀ l ∈ pairs.map (encodePair plain), '&' ∉ l := by
    intro l hl
    obtain ⟨p, -, rfl⟩ := List.mem_map.mp hl
    have first := not_mem_encodeText reserved (Or.inl rfl) p.1
    have last := not_mem_encodeText reserved (Or.inl rfl) p.2
    simp [encodePair, first, last]
  rw [query]
  cases pairs with
  | nil => rfl
  | cons p pairs =>
      have each : ∀ q ∈ p :: pairs, (readPair ∘ encodePair plain) q = some q :=
        fun q hq => readPair_encodePair reserved (named q hq)
      rw [List.splitOn_intercalate '&' apart (by simp), List.filterMap_map,
        List.filterMap_congr each]
      simp

/-- The parameters of an encoded query are the pairs it was made of. -/
theorem mem_parseQuery_encodeQuery {base : List Char} (no_mark : '?' ∉ base)
    {pairs : List (List Char × List Char)} (named : ∀ p ∈ pairs, p.1 ≠ [])
    (distinct : (pairs.map Prod.fst).Nodup) (p : List Char × List Char) :
    p ∈ parseQuery (encodeQuery plain base pairs) ↔ p ∈ pairs := by
  unfold parseQuery
  dsimp only
  rw [splitOn_encodeQuery reserved no_mark pairs named, Table.mem_foldl_put]
  constructor
  · rintro ⟨before, after, rfl, -⟩
    simp
  · intro hp
    obtain ⟨before, after, rfl⟩ := List.append_of_mem hp
    refine ⟨before, after, rfl, fun q hq same => ?_⟩
    rw [List.map_append, List.map_cons, List.nodup_append] at distinct
    exact (List.nodup_cons.mp distinct.2.1).1 (same ▸ List.mem_map_of_mem hq)

end Encoded

/-! ## The decoder -/

/-- A query that was encoded is decoded to its pairs, and a text keeps its percent signs exactly
where none stands before a plus and a digit. -/
theorem decoding_undoes_encoding_iff {plain : UInt8 → Bool} (reserved : EncodesReserved plain)
    {base : List Char} (no_mark : '?' ∉ base) {pairs : List (List Char × List Char)}
    (named : ∀ p ∈ pairs, p.1 ≠ []) (distinct : (pairs.map Prod.fst).Nodup) (text : List Char) :
    (∀ p, p ∈ parseQuery (encodeQuery plain base pairs) ↔ p ∈ pairs) ∧
      (KeepsPercents text ↔ NoPlusEscape text) :=
  ⟨mem_parseQuery_encodeQuery reserved no_mark named distinct, keepsPercents_iff text⟩

/-- Letters and digits are written as they are. -/
def lettersOnly (b : UInt8) : Bool := (Char.ofNat b.toNat).isAlphanum && b.toNat < 128

theorem lettersOnly_reserved : EncodesReserved lettersOnly := by
  have table : ∀ n < 256, lettersOnly (UInt8.ofNat n) → (UInt8.ofNat n).toNat < 128 ∧
      ∀ c ∈ ['%', '+', '&', '='], UInt8.ofNat n ≠ byteOf c := by
    decide +kernel
  intro b
  have read := table b.toNat b.toNat_lt
  rwa [UInt8.ofNat_toNat] at read

/-- A word beyond ASCII with a percent sign, sent and read back. -/
theorem decoding_undoes_encoding_share :
    (∀ p, p ∈ parseQuery (encodeQuery lettersOnly "/series".toList
      [("part &".toList, "50% é+1".toList)]) ↔ p ∈ [("part &".toList, "50% é+1".toList)]) ∧
      (KeepsPercents "100%".toList ↔ NoPlusEscape "100%".toList) :=
  decoding_undoes_encoding_iff lettersOnly_reserved (by decide) (by decide) (by decide)
    "100%".toList

/-- A plus and a digit behind a percent sign are taken for an escape, and all three are lost. -/
theorem plus_taken_for_escape :
    parseQuery "/series?metrics=%+5".toList = [("metrics".toList, [Char.ofNat 5])] ∧
      ¬twoDigits "+5".toList ∧ ¬KeepsPercents "%+5".toList := by
  refine ⟨by decide +kernel, by decide, fun keeps => ?_⟩
  have kept := keeps [] "+5".toList (by decide) (by decide)
  exact absurd kept (by decide +kernel)

end Lss.Analysis.QueryDecoding
