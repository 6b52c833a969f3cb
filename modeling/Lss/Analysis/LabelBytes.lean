import Lss.Model.PromBytes

/-!
# Labels read from bytes

The byte offsets of the label parser against the characters they stand for. Read as characters, a
backslash is kept in front of every character but the three it escapes. The bytes give the same
labels exactly when every character behind a backslash is a single byte: otherwise the scan goes on
inside of that character and gives the line up.
-/

set_option autoImplicit false

namespace Lss.Analysis.LabelBytes

open Lss.Model Lss.Model.PromBytes Lss.Library.Lines Lss.Library.Utf8

/-! ## Labels as characters -/

/-- A label value as characters, up to its closing quote: the characters that stand behind a
backslash, and the value with the text behind the quote. -/
def scanValue : List Char → List Char × Option (List Char × List Char)
  | [] => ([], none)
  | c :: rest =>
    if c = '\\' then
      match rest with
      | [] => ([], none)
      | e :: rest =>
        (e :: (scanValue rest).1,
          (scanValue rest).2.map fun r => (Prom.unescaped e ++ r.1, r.2))
    else if c = '"' then ([], some ([], rest))
    else ((scanValue rest).1, (scanValue rest).2.map fun r => (c :: r.1, r.2))

/-- What a value leaves is the end of the text it is read from. -/
theorem exists_taken {text : List Char} {r : List Char × List Char}
    (h : (scanValue text).2 = some r) : ∃ taken, text = taken ++ r.2 ∧ taken ≠ [] := by
  fun_induction scanValue text generalizing r with
  | case1 => cases h
  | case2 => cases h
  | case3 e rest ih =>
      obtain ⟨r', hr', rfl⟩ := Option.map_eq_some_iff.mp h
      obtain ⟨taken, rfl, -⟩ := ih hr'
      exact ⟨_ :: e :: taken, rfl, List.cons_ne_nil _ _⟩
  | case4 rest =>
      cases h
      exact ⟨[_], rfl, List.cons_ne_nil _ _⟩
  | case5 c rest _ _ ih =>
      obtain ⟨r', hr', rfl⟩ := Option.map_eq_some_iff.mp h
      obtain ⟨taken, rfl, -⟩ := ih hr'
      exact ⟨c :: taken, rfl, List.cons_ne_nil _ _⟩

/-! ## A scan by offsets -/

/-- What a scan of characters comes to in offsets: it is given up at a character of several bytes
behind a backslash, and else ends where the rest begins. -/
def atOffset {α : Type} (whole : ℕ) (s : List Char × Option (α × List Char)) :
    Except Fault (α × ℕ) :=
  if ∀ c ∈ s.1, narrow c then
    match s.2 with
    | none => .error .malformed
    | some r => .ok (r.1, whole - size r.2)
  else .error .offBoundary

theorem atOffset_map {α β : Type} (whole : ℕ) (escapes : List Char) (r : Option (α × List Char))
    (f : α → β) :
    (atOffset whole (escapes, r)).map (fun x => (f x.1, x.2)) =
      atOffset whole (escapes, r.map fun x => (f x.1, x.2)) := by
  unfold atOffset
  dsimp only
  split
  · cases r <;> rfl
  · rfl

theorem atOffset_append {α : Type} {escapes : List Char} (narrows : ∀ c ∈ escapes, narrow c)
    (whole : ℕ) (more : List Char) (r : Option (α × List Char)) :
    atOffset whole (escapes ++ more, r) = atOffset whole (more, r) := by
  have same : (∀ c ∈ escapes ++ more, narrow c) ↔ ∀ c ∈ more, narrow c := by
    constructor
    · exact fun h c hc => h c (List.mem_append_right _ hc)
    · intro h c hc
      rcases List.mem_append.mp hc with hc | hc
      · exact narrows c hc
      · exact h c hc
  unfold atOffset
  simp only [same]

/-- One more part in front of what a scan reads. -/
theorem atOffset_cons {escapes : List Char} (narrows : ∀ c ∈ escapes, narrow c) (whole : ℕ)
    (part : List Char) (s : List Char × Option (List Char × List Char)) :
    (atOffset whole s).map (fun r => (part ++ r.1, r.2)) =
      atOffset whole (escapes ++ s.1, s.2.map fun r => (part ++ r.1, r.2)) := by
  rw [atOffset_append narrows]
  exact atOffset_map whole s.1 s.2 (part ++ ·)

theorem atOffset_wide {α : Type} {escapes : List Char} (h : ¬∀ c ∈ escapes, narrow c) (whole : ℕ)
    (r : Option (α × List Char)) : atOffset whole (escapes, r) = .error .offBoundary := if_neg h

/-! ## Values -/

theorem unescapedByte_byteOf {e : Char} (h : narrow e) :
    unescapedByte (byteOf e) = Prom.unescaped e := by
  have back : Char.ofNat (byteOf e).toNat = e := by
    rw [toNat_byteOf h, Char.ofNat_toNat]
  unfold unescapedByte Prom.unescaped
  rw [back]
  simp only [byteOf_eq_iff h (show narrow 'n' by decide), byteOf_eq_iff h (show narrow '"' by decide),
    byteOf_eq_iff h (show narrow '\\' by decide)]

/-- Inside of a character there is neither a quote nor a backslash, and no cut. -/
theorem labelValue_inside {c : Char} (wide : ¬narrow c) (before rest : List Char) {k : ℕ}
    (pos : 0 < k) (hk : k < c.utf8Size) :
    labelValue (before ++ c :: rest) (size before + k) = .error .offBoundary := by
  obtain ⟨b, hb, high⟩ := byte_wide wide rest hk
  have byte := getElem?_bytes_append before (c :: rest) k
  rw [hb] at byte
  rw [labelValue_some byte, if_neg (ne_byteOf high (by decide)),
    if_neg (ne_byteOf high (by decide)), sliceFrom_append_add, sliceFrom_inside rest pos hk]

/-- The byte a scan looks at, which is a backslash or a quote exactly where the character is. -/
theorem head_byte (c : Char) (rest : List Char) :
    ∃ b, (bytes (c :: rest))[0]? = some b ∧ ∀ d, narrow d → (b = byteOf d ↔ c = d) := by
  by_cases hc : narrow c
  · exact ⟨byteOf c, head_narrow hc rest, fun d hd => byteOf_eq_iff hc hd⟩
  · obtain ⟨b, hb, high⟩ := byte_wide hc rest (Char.utf8Size_pos c)
    refine ⟨b, hb, fun d hd => ?_⟩
    constructor
    · exact fun h => absurd h (ne_byteOf high hd)
    · rintro rfl
      exact absurd hd hc

/-- From a boundary on, the value is read as its characters are scanned. -/
theorem labelValue_eq (before rest : List Char) :
    labelValue (before ++ rest) (size before) =
      atOffset (size (before ++ rest)) (scanValue rest) := by
  fun_induction scanValue rest generalizing before with
  | case1 =>
      apply labelValue_none
      rw [getElem?_bytes_boundary]
      rfl
  | case2 =>
      have slash := getElem?_bytes_boundary before ['\\']
      have behind := getElem?_bytes_append before ['\\'] 1
      rw [head_narrow (by decide)] at slash
      rw [labelValue_some slash, if_pos rfl, behind]
      rfl
  | case3 e rest ih =>
      have slash := getElem?_bytes_boundary before ('\\' :: e :: rest)
      have behind := getElem?_bytes_append before ('\\' :: e :: rest) 1
      have second : (bytes ('\\' :: e :: rest))[1]? = (bytes (e :: rest))[0]? :=
        getElem?_bytes_boundary ['\\'] (e :: rest)
      rw [head_narrow (by decide)] at slash
      rw [labelValue_some slash, if_pos rfl, behind, second]
      by_cases he : narrow e
      · have go := ih (before ++ ['\\', e])
        have offset : size (before ++ ['\\', e]) = size before + 2 := by
          rw [size_append, size_cons, size_cons, utf8Size_narrow he]
          rfl
        rw [List.append_assoc, offset] at go
        rw [head_narrow he]
        dsimp only
        rw [unescapedByte_byteOf he]
        change (labelValue (before ++ (['\\', e] ++ rest)) (size before + 2)).map _ = _
        rw [go]
        have narrows : ∀ c ∈ [e], narrow c := List.forall_mem_singleton.mpr he
        exact atOffset_cons narrows _ (Prom.unescaped e) (scanValue rest)
      · -- the source goes on one byte behind the first one of this character
        obtain ⟨b, hb, -⟩ := byte_wide he rest (Char.utf8Size_pos e)
        have inside := labelValue_inside he (before ++ ['\\']) rest Nat.one_pos (one_lt_utf8Size he)
        rw [hb, atOffset_wide fun h => he (h e List.mem_cons_self)]
        rw [size_append, List.append_assoc] at inside
        change (labelValue (before ++ (['\\'] ++ e :: rest)) (size before + 1 + 1)).map _ = _
        have one : size ['\\'] = 1 := rfl
        rw [one] at inside
        rw [inside]
        rfl
  | case4 rest =>
      have quote := getElem?_bytes_boundary before ('"' :: rest)
      rw [head_narrow (by decide)] at quote
      rw [labelValue_some quote, if_neg (by decide), if_pos rfl]
      unfold atOffset
      rw [if_pos (List.forall_mem_nil _)]
      dsimp only
      rw [size_append, size_cons]
      have one : '"'.utf8Size = 1 := rfl
      rw [one]
      congr 2
      omega
  | case5 c rest hslash hquote ih =>
      obtain ⟨b, hb, same⟩ := head_byte c rest
      have first := getElem?_bytes_boundary before (c :: rest)
      rw [hb] at first
      have go := ih (before ++ [c])
      have offset : size (before ++ [c]) = size before + c.utf8Size := by
        rw [size_append, size_cons, size_nil, Nat.add_zero]
      rw [List.append_assoc, offset] at go
      rw [labelValue_some first, if_neg fun h => hslash ((same _ (by decide)).mp h),
        if_neg fun h => hquote ((same _ (by decide)).mp h), sliceFrom_append]
      change (labelValue (before ++ ([c] ++ rest)) (size before + c.utf8Size)).map _ = _
      rw [go]
      exact atOffset_cons (List.forall_mem_nil _) _ [c] (scanValue rest)

/-! ## Blocks -/

theorem length_scanValue {text : List Char} {r : List Char × List Char}
    (h : (scanValue text).2 = some r) : r.2.length < text.length := by
  obtain ⟨taken, rfl, hne⟩ := exists_taken h
  have := List.length_pos_of_ne_nil hne
  rw [List.length_append]
  omega

/-- The labels of a block as characters: what stands behind a backslash in its values, and the
labels with the text behind the brace. -/
def scanLabels (body : List Char) :
    List Char × Option (List (String × String) × List Char) :=
  match _h : body.dropWhile fun c => c = ',' || c = ' ' with
  | [] => ([], none)
  | c :: after =>
    if c = '}' then ([], some ([], after))
    else
      let key := trimmed isBlank ((c :: after).takeWhile (· ≠ '='))
      match _h' : (c :: after).dropWhile (· ≠ '=') with
      | _ :: quote :: text =>
        if quote = '"' then
          match _h'' : (scanValue text).2 with
          | some (value, rest) =>
            ((scanValue text).1 ++ (scanLabels rest).1,
              (scanLabels rest).2.map fun r =>
                ((String.ofList key, String.ofList value) :: r.1, r.2))
          | none => ((scanValue text).1, none)
        else ([], none)
      | _ => ([], none)
termination_by body.length
decreasing_by
  have outer := (List.dropWhile_sublist (l := body) fun c => c = ',' || c = ' ').length_le
  have inner := (List.dropWhile_sublist (l := c :: after) (· ≠ '=')).length_le
  have value := length_scanValue _h''
  rw [_h] at outer
  rw [_h'] at inner
  simp only [List.length_cons] at outer inner value
  omega

/-- Bytes are passed as the characters are. -/
theorem pass_eq {test : UInt8 → Bool} {char : Char → Bool}
    (same : ∀ c, ∀ b ∈ String.utf8EncodeChar c, test b = char c) (before rest : List Char) :
    pass (before ++ rest) test (size before) = size (before ++ rest.takeWhile char) := by
  have behind : (bytes (before ++ rest)).drop (size before) = bytes rest := by
    rw [bytes_append]
    exact List.drop_left
  unfold PromBytes.pass
  rw [behind, takeWhile_bytes same, size_append]
  rfl

theorem pass_separators (before rest : List Char) :
    pass (before ++ rest) (fun b => b = byteOf ',' || b = byteOf ' ') (size before) =
      size (before ++ rest.takeWhile fun c => c = ',' || c = ' ') := by
  apply pass_eq
  intro c b hb
  rw [beq_byteOf (by decide) c b hb, beq_byteOf (by decide) c b hb]

theorem pass_key (before rest : List Char) :
    pass (before ++ rest) (fun b => !decide (b = byteOf '=')) (size before) =
      size (before ++ rest.takeWhile fun c => decide (c ≠ '=')) := by
  apply pass_eq
  intro c b hb
  rw [beq_byteOf (by decide) c b hb, decide_not]

/-- The characters that stand between labels. -/
def separators (text : List Char) : List Char := text.takeWhile fun c => c = ',' || c = ' '

/-- The characters of a key. -/
def keyOf (text : List Char) : List Char := text.takeWhile fun c => decide (c ≠ '=')

theorem eq_equals {text dropped : List Char} {d : Char}
    (h : (text.dropWhile fun c => decide (c ≠ '=')) = d :: dropped) : d = '=' := by
  have first := List.head?_dropWhile_not (fun c => decide (c ≠ '=')) text
  rw [h] at first
  simpa using first

/-- The parts of a block in front of its first character that is no separator. -/
theorem eq_separators_append {rest tail : List Char}
    (h : (rest.dropWhile fun c => c = ',' || c = ' ') = tail) : rest = separators rest ++ tail := by
  rw [← h]
  exact List.takeWhile_append_dropWhile.symm

/-- Where a label begins at a boundary, its key is cut out, and the value is looked for behind an
equals sign and a quote. -/
theorem labelsFrom_label {before rest after : List Char} {c : Char}
    (h : (rest.dropWhile fun c => c = ',' || c = ' ') = c :: after) (hc : c ≠ '}') :
    labelsFrom (before ++ rest) (size before) =
      match (c :: after).dropWhile fun c => decide (c ≠ '=') with
      | _ :: quote :: _ =>
        if quote = '"' then
          match labelValue (before ++ rest)
            (size (before ++ separators rest ++ keyOf (c :: after) ++ ['=', '"'])) with
          | .error e => .error e
          | .ok (value, next) =>
            (labelsFrom (before ++ rest) next).map fun r =>
              ((String.ofList (trimmed isBlank (keyOf (c :: after))), String.ofList value) :: r.1,
                r.2)
        else .error .malformed
      | _ => .error .malformed := by
  have text := eq_separators_append h
  generalize hsep : separators rest = sep at text ⊢
  have key : c :: after = keyOf (c :: after) ++ (c :: after).dropWhile fun c => decide (c ≠ '=') :=
    List.takeWhile_append_dropWhile.symm
  have whole : before ++ rest = (before ++ sep) ++ (c :: after) := by
    rw [text, List.append_assoc]
  have start : pass (before ++ rest) (fun b => b = byteOf ',' || b = byteOf ' ') (size before) =
      size (before ++ sep) := by
    rw [pass_separators, ← hsep]
    rfl
  obtain ⟨b, hb, same⟩ := head_byte c after
  have byte : (bytes (before ++ rest))[size (before ++ sep)]? = some b := by
    rw [whole, getElem?_bytes_boundary, hb]
  have stop : pass (before ++ rest) (fun b => !decide (b = byteOf '=')) (size (before ++ sep)) =
      size (before ++ sep) + size (keyOf (c :: after)) := by
    rw [whole, pass_key, ← size_append]
    rfl
  rw [labelsFrom_some start byte, if_neg fun e => hc ((same _ (by decide)).mp e)]
  dsimp only
  rw [stop]
  generalize hkey : keyOf (c :: after) = k at key ⊢
  generalize hdrop : ((c :: after).dropWhile fun c => decide (c ≠ '=')) = dropped at key ⊢
  have cut : slice (before ++ rest) (size (before ++ sep)) (size (before ++ sep) + size k) =
      some k := by
    rw [whole, key, slice_append]
  rw [cut]
  dsimp only
  have parts : before ++ rest = (before ++ sep ++ k) ++ dropped := by
    rw [whole, key, ← List.append_assoc]
  have behind : (bytes (before ++ rest))[size (before ++ sep) + size k + 1]? =
      (bytes dropped)[1]? := by
    rw [parts, ← size_append, getElem?_bytes_append]
  rw [behind]
  cases dropped with
  | nil => rfl
  | cons d dropped =>
      obtain rfl := eq_equals hdrop
      cases dropped with
      | nil => rfl
      | cons quote dropped =>
          have second : (bytes ('=' :: quote :: dropped))[1]? = (bytes (quote :: dropped))[0]? :=
            getElem?_bytes_boundary ['='] (quote :: dropped)
          obtain ⟨q, hq, sameQuote⟩ := head_byte quote dropped
          rw [second, hq]
          dsimp only
          have offset : size (before ++ sep ++ k ++ ['=', '"']) =
              size (before ++ sep) + size k + 2 := by
            rw [size_append, size_append]
            rfl
          by_cases hquote : quote = '"'
          · -- rewritten without closing: the two matches on the value are told apart by its cases
            rewrite [if_pos hquote, if_pos (congrArg some ((sameQuote _ (by decide)).mpr hquote)),
              offset]
            generalize labelValue (before ++ rest) _ = value
            cases value <;> rfl
          · rw [if_neg hquote, if_neg]
            intro e
            exact hquote ((sameQuote _ (by decide)).mp (Option.some.inj e))

/-- The text of a value behind its label's quote. -/
theorem value_text (before : List Char) {rest after text : List Char} {c d : Char}
    (h : (rest.dropWhile fun c => c = ',' || c = ' ') = c :: after)
    (hdrop : ((c :: after).dropWhile fun c => decide (c ≠ '=')) = d :: '"' :: text) :
    before ++ rest =
      (before ++ separators rest ++ keyOf (c :: after) ++ ['=', '"']) ++ text := by
  have whole := eq_separators_append h
  have key : c :: after = keyOf (c :: after) ++ (c :: after).dropWhile fun c => decide (c ≠ '=') :=
    List.takeWhile_append_dropWhile.symm
  obtain rfl := eq_equals hdrop
  rw [hdrop] at key
  generalize separators rest = sep at whole ⊢
  generalize keyOf (c :: after) = k at key ⊢
  rw [whole, key]
  simp

/-- From a boundary on, the labels are read as their characters are scanned. -/
theorem labelsFrom_eq (before rest : List Char) :
    labelsFrom (before ++ rest) (size before) =
      atOffset (size (before ++ rest)) (scanLabels rest) := by
  fun_induction scanLabels rest generalizing before with
  | case1 rest h =>
      have whole := eq_separators_append h
      rw [List.append_nil] at whole
      apply labelsFrom_malformed
      rw [pass_separators]
      change (bytes (before ++ rest))[size (before ++ separators rest)]? = none
      rw [← whole]
      exact List.getElem?_eq_none le_rfl
  | case2 rest after h =>
      have whole := eq_separators_append h
      have byte : (bytes (before ++ rest))[size (before ++ separators rest)]? =
          some (byteOf '}') := by
        generalize separators rest = sep at whole ⊢
        rw [whole, ← List.append_assoc, getElem?_bytes_boundary, head_narrow (by decide)]
      rw [labelsFrom_some (pass_separators before rest) byte, if_pos rfl]
      have ends : size (before ++ rest) = size (before ++ separators rest) + 1 + size after := by
        generalize separators rest = sep at whole ⊢
        have one : '}'.utf8Size = 1 := rfl
        rw [whole, ← List.append_assoc, size_append, size_cons, one]
        omega
      unfold atOffset
      rw [if_pos (List.forall_mem_nil _)]
      dsimp only
      rw [ends, Nat.add_sub_cancel]
      rfl
  | case3 rest c after h hc key head text value rest' hvalue hdrop ih =>
      have read := labelValue_eq
        (before ++ separators rest ++ keyOf (c :: after) ++ ['=', '"']) text
      rw [← value_text before h hdrop] at read
      rw [labelsFrom_label h hc, hdrop]
      dsimp only
      rw [if_pos rfl, read]
      by_cases narrows : ∀ c ∈ (scanValue text).1, narrow c
      · have found : atOffset (size (before ++ rest)) (scanValue text) =
            .ok (value, size (before ++ rest) - size rest') := by
          unfold atOffset
          rw [if_pos narrows, hvalue]
        obtain ⟨taken, htaken, -⟩ := exists_taken hvalue
        have split := value_text before h hdrop
        rw [htaken, ← List.append_assoc] at split
        have next : size (before ++ rest) - size rest' =
            size (before ++ separators rest ++ keyOf (c :: after) ++ ['=', '"'] ++ taken) := by
          rw [split, size_append _ rest', Nat.add_sub_cancel]
        have go := ih (before ++ separators rest ++ keyOf (c :: after) ++ ['=', '"'] ++ taken)
        rw [← split, ← next] at go
        rw [found]
        dsimp only
        rw [go, atOffset_append narrows]
        exact atOffset_map _ _ _ _
      · rw [atOffset_wide narrows, atOffset_wide fun all =>
          narrows fun d hd => all d (List.mem_append_left _ hd)]
  | case4 rest c after h hc head text hvalue hdrop =>
      have read := labelValue_eq
        (before ++ separators rest ++ keyOf (c :: after) ++ ['=', '"']) text
      rw [← value_text before h hdrop] at read
      rw [labelsFrom_label h hc, hdrop]
      dsimp only
      rw [if_pos rfl, read]
      unfold atOffset
      dsimp only
      rw [hvalue]
      by_cases narrows : ∀ c ∈ (scanValue text).1, narrow c
      · rw [if_pos narrows, if_pos narrows]
      · rw [if_neg narrows, if_neg narrows]
  | case5 rest c after h hc head quote text hdrop hquote =>
      rw [labelsFrom_label h hc, hdrop]
      dsimp only
      rw [if_neg hquote]
      rfl
  | case6 rest c after h hc hdrop =>
      rw [labelsFrom_label h hc]
      split
      · rename_i hd
        exact absurd hd (hdrop _ _ _)
      · rfl

/-! ## The parser -/

theorem exists_taken_labels {body : List Char} {r : List (String × String) × List Char}
    (h : (scanLabels body).2 = some r) : ∃ taken, body = taken ++ r.2 := by
  fun_induction scanLabels body generalizing r with
  | case1 => cases h
  | case2 rest after hd =>
      cases h
      refine ⟨separators rest ++ ['}'], ?_⟩
      rw [List.append_assoc]
      exact eq_separators_append hd
  | case3 rest c after hd hc key head text value rest' hvalue hdrop =>
      rename_i ih
      obtain ⟨r', hr', rfl⟩ := Option.map_eq_some_iff.mp h
      obtain ⟨taken, htaken⟩ := ih hr'
      obtain ⟨value', hvalue', -⟩ := exists_taken hvalue
      have split := value_text [] hd hdrop
      rw [List.nil_append, hvalue', ← List.append_assoc] at split
      refine ⟨[] ++ separators rest ++ keyOf (c :: after) ++ ['=', '"'] ++ value' ++ taken, ?_⟩
      rw [List.append_assoc _ taken, ← htaken]
      exact split
  | case4 => cases h
  | case5 => cases h
  | case6 => cases h

/-- The labels of a block, as its bytes give them. -/
theorem parseLabels_eq (body : List Char) :
    parseLabels body =
      if ∀ c ∈ (scanLabels body).1, narrow c then (scanLabels body).2 else none := by
  have read := labelsFrom_eq [] body
  rw [List.nil_append, size_nil] at read
  unfold parseLabels
  rw [read]
  unfold atOffset
  by_cases narrows : ∀ c ∈ (scanLabels body).1, narrow c
  · rw [if_pos narrows, if_pos narrows]
    cases hs : (scanLabels body).2 with
    | none => rfl
    | some r =>
        obtain ⟨taken, htaken⟩ := exists_taken_labels hs
        have consumed : size body - size r.2 = size taken := by
          rw [htaken, size_append, Nat.add_sub_cancel]
        dsimp only
        rw [consumed]
        rw [htaken, sliceFrom_append]
        rfl
  · rw [if_neg narrows, if_neg narrows]

/-- What the parser of a metrics page reads as characters is what the source reads as bytes. -/
theorem labelValue_refines (text : List Char) :
    Prom.labelValue text =
      if ∀ c ∈ (scanValue text).1, narrow c then (scanValue text).2 else none := by
  fun_induction scanValue text with
  | case1 => rfl
  | case2 => rfl
  | case3 e rest ih =>
      by_cases he : narrow e
      · rw [Prom.labelValue_escape he, ih]
        simp only [List.forall_mem_cons, he, true_and]
        split
        · rfl
        · rfl
      · have wide : ¬e.toNat < 128 := he
        rw [if_neg fun all => he (all e List.mem_cons_self), Prom.labelValue.eq_def]
        dsimp only
        rw [if_pos rfl, if_neg wide]
  | case4 rest => exact Prom.labelValue_quote rest
  | case5 c rest hslash hquote ih =>
      rw [Prom.labelValue_char hslash hquote, ih]
      dsimp only
      split
      · rfl
      · rfl

/-- One step of the parser of a metrics page. -/
theorem parseLabels_label {rest after : List Char} {c : Char}
    (h : (rest.dropWhile fun c => c = ',' || c = ' ') = c :: after) (hc : c ≠ '}') :
    Prom.parseLabels rest =
      match (c :: after).dropWhile fun c => decide (c ≠ '=') with
      | _ :: quote :: text =>
        if quote = '"' then
          (Prom.labelValue text).bind fun v =>
            (Prom.parseLabels v.2).map fun r =>
              ((String.ofList (trimmed isBlank (keyOf (c :: after))), String.ofList v.1) :: r.1, r.2)
        else none
      | _ => none := by
  rw [Prom.parseLabels.eq_def]
  split
  · rename_i h'
    rw [h] at h'
    cases h'
  · rename_i h'
    rw [h] at h'
    cases h'
    rw [if_neg hc]
    dsimp only
    split
    · rename_i head quote text hd
      rw [hd]
      dsimp only
      split
      · split
        · rename_i hv
          rw [hv]
          rfl
        · rename_i hv
          rw [hv]
          rfl
      · rfl
    · rename_i hd
      split
      · rename_i hd'
        exact absurd hd' (hd _ _ _)
      · rfl

theorem parseLabels_refines (body : List Char) : Prom.parseLabels body = parseLabels body := by
  rw [parseLabels_eq]
  fun_induction scanLabels body with
  | case1 rest h =>
      rw [Prom.parseLabels.eq_def]
      split
      · rfl
      · rename_i h'
        rw [h] at h'
        cases h'
  | case2 rest after h =>
      rw [Prom.parseLabels.eq_def]
      split
      · rename_i h'
        rw [h] at h'
        cases h'
      · rename_i h'
        rw [h] at h'
        cases h'
        rfl
  | case3 rest c after h hc key head text value rest' hvalue hdrop ih =>
      rw [parseLabels_label h hc, hdrop]
      dsimp only
      rw [if_pos rfl, labelValue_refines, hvalue]
      by_cases narrows : ∀ c ∈ (scanValue text).1, narrow c
      · rw [if_pos narrows, Option.bind_some, ih]
        by_cases more : ∀ c ∈ (scanLabels rest').1, narrow c
        · rw [if_pos more, if_pos (List.forall_mem_append.mpr ⟨narrows, more⟩)]
          rfl
        · rw [if_neg more, if_neg fun all => more (List.forall_mem_append.mp all).2]
          rfl
      · rw [if_neg narrows, if_neg fun all => narrows (List.forall_mem_append.mp all).1]
        rfl
  | case4 rest c after h hc head text hvalue hdrop =>
      rw [parseLabels_label h hc, hdrop]
      dsimp only
      rw [if_pos rfl, labelValue_refines, hvalue]
      split
      · rfl
      · rfl
  | case5 rest c after h hc head quote text hdrop hquote =>
      rw [parseLabels_label h hc, hdrop]
      dsimp only
      rw [if_neg hquote]
      rfl
  | case6 rest c after h hc hdrop =>
      rw [parseLabels_label h hc]
      split
      · rename_i hd
        exact absurd hd (hdrop _ _ _)
      · rfl

/-! ## The result -/

/-- The labels of a block are exact: every cut is at a boundary, the last one included, and the
labels are those of the characters. -/
structure Exact (body : List Char) : Prop where
  cuts : labelsFrom body 0 ≠ .error .offBoundary
  rest : ∀ labels consumed, labelsFrom body 0 = .ok (labels, consumed) →
    (sliceFrom body consumed).isSome
  labels : parseLabels body = (scanLabels body).2

/-- A block is exact when no backslash in its values stands in front of a character of several
bytes. -/
theorem exact_iff (body : List Char) :
    Exact body ↔ ∀ c ∈ (scanLabels body).1, narrow c := by
  have read := labelsFrom_eq [] body
  rw [List.nil_append, size_nil] at read
  constructor
  · intro exact
    by_contra wide
    exact exact.cuts (read.trans (atOffset_wide wide _ _))
  · intro narrows
    have found := parseLabels_eq body
    rw [if_pos narrows] at found
    unfold atOffset at read
    rw [if_pos narrows] at read
    refine ⟨?_, ?_, found⟩
    · rw [read]
      cases (scanLabels body).2 with
      | none => exact fun h => nomatch h
      | some r => exact fun h => nomatch h
    · intro labels consumed hl
      cases hs : (scanLabels body).2 with
      | none =>
          rw [hs, hl] at read
          cases read
      | some r =>
          unfold parseLabels at found
          rw [hl, hs] at found
          obtain ⟨rest, hrest, -⟩ := Option.map_eq_some_iff.mp found
          rw [hrest]
          rfl

variable {F : Type} [Prom.F64Text F]

/-- The lines of a page are parsed each by itself. -/
theorem parse_joined {ls : List (List Char)} (h : ∀ l ∈ ls, OneLine l) :
    (Prom.parse (String.ofList (joined ls)) : List (Prom.Series F)) =
      ls.filterMap Prom.parseLine := by
  unfold Prom.parse
  rw [String.toList_ofList, lines_joined h]

/-- A block of labels is exact exactly when every character behind a backslash in its values is a
single byte. A line that does not parse changes nothing on its page. -/
theorem parse_labels_iff (body : List Char) :
    (Exact body ∧
      ∀ (before after : List (List Char)) (line : List Char),
        (∀ l ∈ before ++ line :: after, OneLine l) →
        (Prom.parseLine line : Option (Prom.Series F)) = none →
        (Prom.parse (String.ofList (joined (before ++ line :: after))) : List (Prom.Series F)) =
          Prom.parse (String.ofList (joined before)) ++ Prom.parse (String.ofList (joined after))) ↔
      ∀ c ∈ (scanLabels body).1, narrow c := by
  rw [← exact_iff]
  refine ⟨And.left, fun exact => ⟨exact, ?_⟩⟩
  intro before after line whole dropped
  rw [parse_joined whole, parse_joined fun l hl => whole l (List.mem_append_left _ hl),
    parse_joined fun l hl => whole l (List.mem_append_right _ (List.mem_cons_of_mem _ hl)),
    List.filterMap_append, List.filterMap_cons_none dropped]

/-! ## A line that is lost -/

theorem scanLabels_close (rest : List Char) : scanLabels ('}' :: rest) = ([], some ([], rest)) := by
  rw [scanLabels.eq_def]
  rfl

theorem scanLabels_label {rest after text value rest' : List Char} {c d : Char}
    (h : (rest.dropWhile fun c => c = ',' || c = ' ') = c :: after) (hc : c ≠ '}')
    (hdrop : ((c :: after).dropWhile fun c => decide (c ≠ '=')) = d :: '"' :: text)
    (hvalue : (scanValue text).2 = some (value, rest')) :
    scanLabels rest =
      ((scanValue text).1 ++ (scanLabels rest').1, (scanLabels rest').2.map fun r =>
        ((String.ofList (trimmed isBlank (keyOf (c :: after))), String.ofList value) :: r.1,
          r.2)) := by
  rw [scanLabels.eq_def]
  split
  · rename_i h'
    rw [h] at h'
    cases h'
  · rename_i h'
    rw [h] at h'
    cases h'
    rw [if_neg hc]
    dsimp only
    split
    · rename_i hd
      rw [hdrop] at hd
      cases hd
      rw [if_pos rfl]
      split
      · rename_i hv
        rw [hvalue] at hv
        cases hv
        rfl
      · rename_i hv
        rw [hvalue] at hv
        cases hv
    · rename_i hd
      exact absurd hdrop (hd _ _ _)

/-- A backslash in front of a letter of two bytes. -/
def accented : List Char := ['k', '=', '"', '\\', 'é', '"', '}']

/-- The characters read well, and a backslash is kept in front of the letter; the bytes are cut
inside of the letter, and there are no labels. -/
theorem wide_escape_is_dropped :
    scanLabels accented = (['é'], some ([("k", "\\é")], [])) ∧ parseLabels accented = none ∧
      labelsFrom accented 0 = .error .offBoundary := by
  have value : scanValue ['\\', 'é', '"', '}'] = (['é'], some (['\\', 'é'], ['}'])) := by
    decide +kernel
  have scan : scanLabels accented = (['é'], some ([("k", "\\é")], [])) := by
    have first : (accented.dropWhile fun c => c = ',' || c = ' ') = 'k' :: accented.tail := rfl
    have key : ((('k' :: accented.tail).dropWhile fun c => decide (c ≠ '=')) : List Char) =
        '=' :: '"' :: ['\\', 'é', '"', '}'] := rfl
    rw [scanLabels_label first (by decide) key (congrArg Prod.snd value), scanLabels_close, value]
    decide +kernel
  have wide : ¬∀ c ∈ (scanLabels accented).1, narrow c := by
    rw [scan]
    decide
  have read := labelsFrom_eq [] accented
  rw [List.nil_append, size_nil] at read
  refine ⟨scan, ?_, read.trans (atOffset_wide wide _ _)⟩
  rw [parseLabels_eq, if_neg wide]

end Lss.Analysis.LabelBytes
