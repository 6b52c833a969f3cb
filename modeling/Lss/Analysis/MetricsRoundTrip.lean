import Lss.Model.Promout

/-!
# The collector reads its own metrics

Whatever stands in the names a status document carries, the text written from it is read back as
exactly the samples that were emitted.
-/

set_option autoImplicit false

namespace Lss.Analysis.MetricsRoundTrip

open Lss.Model Lss.Model.Prom Lss.Model.Promout Lss.Library.Lines

/-! ## Label values -/

/-- How a character stands in a label value. -/
def escChar (c : Char) : List Char :=
  if c = '\\' then ['\\', '\\'] else if c = '"' then ['\\', '"']
  else if c = '\n' then ['\\', 'n'] else [c]

/-- The three replacements do not meet each other's results. -/
theorem esc_cons (c : Char) (v : List Char) : esc (c :: v) = escChar c ++ esc v := by
  have head : esc [c] = escChar c := by
    by_cases h₁ : c = '\\'
    · subst h₁
      decide
    by_cases h₂ : c = '"'
    · subst h₂
      decide
    by_cases h₃ : c = '\n'
    · subst h₃
      decide
    unfold esc escChar
    rw [if_neg h₁, if_neg h₂, if_neg h₃, replace_of_not_mem (c := '\\') (by simpa using Ne.symm h₁),
      replace_of_not_mem (c := '"') (by simpa using Ne.symm h₂),
      replace_of_not_mem (by simpa using Ne.symm h₃)]
  rw [← head, ← List.singleton_append]
  unfold esc
  rw [replace_append, replace_append, replace_append]

/-- An escaped text in front of a closing quote is read back, whatever follows it. -/
theorem labelValue_esc (v rest : List Char) :
    labelValue (esc v ++ '"' :: rest) = some (v, rest) := by
  induction v with
  | nil => exact labelValue_quote rest
  | cons c v ih =>
      rw [esc_cons, List.append_assoc]
      unfold escChar
      split
      · rename_i h
        show labelValue ('\\' :: '\\' :: (esc v ++ '"' :: rest)) = _
        rw [labelValue_escape (by decide), ih, h]
        rfl
      split
      · rename_i h
        show labelValue ('\\' :: '"' :: (esc v ++ '"' :: rest)) = _
        rw [labelValue_escape (by decide), ih, h]
        rfl
      split
      · rename_i h
        show labelValue ('\\' :: 'n' :: (esc v ++ '"' :: rest)) = _
        rw [labelValue_escape (by decide), ih, h]
        rfl
      · rename_i h₁ h₂ _
        show labelValue (c :: (esc v ++ '"' :: rest)) = _
        rw [labelValue_char h₁ h₂, ih]
        rfl

theorem newline_not_mem_esc (v : List Char) : '\n' ∉ esc v := by
  induction v with
  | nil => exact List.not_mem_nil
  | cons c v ih =>
      rw [esc_cons, List.mem_append, not_or]
      refine ⟨?_, ih⟩
      unfold escChar
      split
      · decide
      split
      · decide
      split
      · decide
      · rename_i h
        exact fun hm => h (List.mem_singleton.mp hm).symm

/-! ## Names -/

/-- What the names of metrics and labels are made of. -/
def plainChar (c : Char) : Bool := c.isAlphanum || c = '_'

def Plain (name : List Char) : Prop := name ≠ [] ∧ ∀ c ∈ name, plainChar c

/-- A plain character is a letter, a digit or an underscore. -/
theorem toNat_of_plain {c : Char} (h : plainChar c) : 48 ≤ c.toNat ∧ c.toNat ≤ 122 := by
  rcases Bool.or_eq_true_iff.mp h with h | h
  · exact toNat_of_alphanum h
  · have h : c = '_' := of_decide_eq_true h
    subst h
    decide

theorem isBlank_of_plain {c : Char} (h : plainChar c) : isBlank c = false := by
  obtain ⟨low, high⟩ := toNat_of_plain h
  apply isBlank_of_toNat <;> omega

/-- A character that is none of these differs from it. -/
theorem ne_of_plain {c d : Char} (h : plainChar c) (hd : plainChar d = false) : c ≠ d := by
  rintro rfl
  rw [h] at hd
  cases hd

theorem trimmed_plain {key : List Char} (h : ∀ c ∈ key, plainChar c) :
    trimmed isBlank key = key := by
  apply trimmed_of_ends
  · intro c hc
    exact isBlank_of_plain (h c (List.mem_of_head? hc))
  · intro c hc
    exact isBlank_of_plain (h c (List.mem_of_getLast? hc))

/-! ## The label block -/

/-- A label as it is written. -/
def labelText (p : String × String) : List Char :=
  p.1.toList ++ ['=', '"'] ++ esc p.2.toList ++ ['"']

/-- One label, with or without a comma in front of it. -/
theorem parseLabels_labelText {sep : List Char} (hs : ∀ c ∈ sep, c = ',') {p : String × String}
    (hp : Plain p.1.toList) (rest : List Char) :
    parseLabels (sep ++ labelText p ++ rest) =
      (parseLabels rest).map fun r => (p :: r.1, r.2) := by
  obtain ⟨c, key, hkey⟩ := List.exists_cons_of_ne_nil hp.1
  have plain : ∀ d ∈ c :: key, plainChar d := fun d hd => hp.2 d (hkey ▸ hd)
  have first := plain c List.mem_cons_self
  have text : sep ++ labelText p ++ rest =
      sep ++ c :: (key ++ '=' :: '"' :: (esc p.2.toList ++ '"' :: rest)) := by
    unfold labelText
    rw [hkey]
    simp
  have skip : (sep ++ labelText p ++ rest).dropWhile (fun c => c = ',' || c = ' ') =
      c :: (key ++ '=' :: '"' :: (esc p.2.toList ++ '"' :: rest)) := by
    have mark : ¬((decide (c = ',') || decide (c = ' ')) = true) := by
      have comma := ne_of_plain (d := ',') first (by decide)
      have space := ne_of_plain (d := ' ') first (by decide)
      simp [comma, space]
    have commas : ∀ d ∈ sep, (decide (d = ',') || decide (d = ' ')) = true := by
      intro d hd
      rw [hs d hd]
      decide
    rw [text, List.dropWhile_append_of_pos commas]
    exact List.dropWhile_cons_of_neg mark
  rw [parseLabels_label skip (ne_of_plain first (by decide))
    (fun d hd => ne_of_plain (plain d hd) (by decide)) (labelValue_esc _ _), trimmed_plain plain,
    ← hkey, String.ofList_toList, String.ofList_toList]

/-- Every label of a block, up to its brace. -/
theorem parseLabels_block {labels : List (String × String)} (h : ∀ p ∈ labels, Plain p.1.toList)
    (rest : List Char) :
    parseLabels ((labels.flatMap fun p => ',' :: labelText p) ++ '}' :: rest) =
      some (labels, rest) := by
  induction labels with
  | nil => exact parseLabels_close rest
  | cons p labels ih =>
      have step := parseLabels_labelText (show ∀ c ∈ [','], c = ',' by simp) (h p List.mem_cons_self)
        ((labels.flatMap fun p => ',' :: labelText p) ++ '}' :: rest)
      rw [ih fun q hq => h q (List.mem_cons_of_mem _ hq)] at step
      rw [List.flatMap_cons, List.append_assoc]
      exact step

/-! ## Values -/

/-- What is relied on of the numbers, which are doubles in the source, all that are not a number
counted as one: their texts are words, and reading a text gives the number back. -/
structure Reads (F : Type) [F64Text F] : Prop where
  word : ∀ v : F, F64.display v ≠ "" ∧ ∀ c ∈ (F64.display v).toList, isBlank c = false
  display : ∀ v : F, F64Text.parse (F64.display v) = some v
  nan : F64Text.parse "NaN" = some (F64Text.nan : F)
  plusInf : F64Text.parse "+Inf" = some (F64Text.infinity : F)
  inf : F64Text.parse "Inf" = some (F64Text.infinity : F)
  negInf : F64Text.parse "-Inf" = some (F64Text.negInfinity : F)

variable {F : Type} [F64Text F]

/-- The special names read the same either way. -/
theorem Reads.readValue (reads : Reads F) (word : String) :
    (readValue word : Option F) = F64Text.parse word := by
  unfold Prom.readValue
  split
  · rename_i h
    rw [h, reads.nan]
  split
  · rename_i h
    rcases h with h | h
    · rw [h, reads.plusInf]
    · rw [h, reads.inf]
  split
  · rename_i h
    rw [h, reads.negInf]
  · rfl

theorem firstWord_of_blank {b : Char} (hb : isBlank b = true) {word : String} (hne : word ≠ "")
    (hw : ∀ c ∈ word.toList, isBlank c = false) : firstWord (b :: word.toList) = some word := by
  have chars : word.toList ≠ [] := fun h => hne (String.toList_eq_nil_iff.mp h)
  have drop : (b :: word.toList).dropWhile isBlank = word.toList := by
    rw [List.dropWhile_cons_of_pos hb]
    apply dropWhile_of_head
    intro c hc
    exact hw c (List.mem_of_head? hc)
  have take : word.toList.takeWhile (fun c => !isBlank c) = word.toList := by
    have whole : ∀ c ∈ word.toList, (!isBlank c) = true := by
      intro c hc
      rw [hw c hc]
      rfl
    have whole := @List.takeWhile_append_of_pos _ _ _ [] whole
    rwa [List.append_nil, List.takeWhile_nil, List.append_nil] at whole
  unfold firstWord
  rw [drop, take]
  dsimp only
  rw [if_neg chars, String.ofList_toList]

/-! ## Lines -/

/-- The line of a sample. -/
def sampleText (host name : String) (labels : List (String × String)) (value : F) : List Char :=
  name.toList ++ '{' :: (labelText ("host", host) ++
    ((labels.flatMap fun p => ',' :: labelText p) ++ '}' :: ' ' :: (F64.display value).toList))

/-- The lines of a call. -/
def callLines (host : String) : Call F → List (List Char)
  | .family name kind help =>
    ["# HELP ".toList ++ name.toList ++ [' '] ++ help.toList,
      "# TYPE ".toList ++ name.toList ++ [' '] ++ kind.toList]
  | .sample name labels value => [sampleText host name labels value]

/-- No character that ends a line. -/
def Unbroken (text : List Char) : Prop := ∀ c ∈ text, c ≠ '\n' ∧ c ≠ '\r'

/-- What the renderer keeps to: plain names, and help in one line. -/
def WellFormed : Call F → Prop
  | .family name kind help =>
    Plain name.toList ∧ Unbroken kind.toList ∧ Unbroken help.toList
  | .sample name labels _ => Plain name.toList ∧ ∀ p ∈ labels, Plain p.1.toList

theorem labels_foldl (labels : List (String × String)) (l : List Char) :
    labels.foldl
      (fun l p => l ++ [','] ++ p.1.toList ++ ['=', '"'] ++ esc p.2.toList ++ ['"']) l =
      l ++ labels.flatMap fun p => ',' :: labelText p := by
  induction labels generalizing l with
  | nil => exact (List.append_nil l).symm
  | cons p labels ih =>
      rw [List.foldl_cons, ih, List.flatMap_cons]
      simp [labelText]

theorem call_buf {o : Out} {host : String} (h : o.host = esc host.toList) (c : Call F) :
    (o.call c).buf = o.buf ++ joined (callLines host c) := by
  cases c with
  | family name kind help =>
      unfold Out.call Out.family callLines joined
      simp
  | sample name labels value =>
      have first : "host=".toList = "host".toList ++ ['='] := by decide
      unfold Out.call Out.sample callLines joined sampleText
      dsimp only
      rw [labels_foldl, h, first]
      simp [labelText]

theorem call_host (o : Out) (c : Call F) : (o.call c).host = o.host := by
  cases c with
  | family name kind help => rfl
  | sample name labels value => rfl

theorem calls_buf {o : Out} {host : String} (h : o.host = esc host.toList)
    (cs : List (Call F)) :
    (cs.foldl Out.call o).buf = o.buf ++ joined (cs.flatMap (callLines host)) := by
  induction cs generalizing o with
  | nil => exact (List.append_nil _).symm
  | cons c cs ih =>
      rw [List.foldl_cons, ih ((call_host o c).trans h), call_buf h, List.flatMap_cons,
        joined_append, List.append_assoc]

theorem Plain.unbroken {name : List Char} (h : Plain name) : Unbroken name := fun c hc =>
  ⟨ne_of_plain (h.2 c hc) (by decide), ne_of_plain (h.2 c hc) (by decide)⟩

theorem Unbroken.oneLine {text : List Char} (h : Unbroken text) : OneLine text :=
  ⟨fun hm => (h _ hm).1 rfl, fun hl => (h _ (List.mem_of_getLast? hl)).2 rfl⟩

theorem Unbroken.append {l m : List Char} (hl : Unbroken l) (hm : Unbroken m) :
    Unbroken (l ++ m) := by
  intro c hc
  cases List.mem_append.mp hc with
  | inl hc => exact hl c hc
  | inr hc => exact hm c hc

theorem newline_not_mem_label {p : String × String} (hp : Plain p.1.toList) :
    '\n' ∉ labelText p := by
  have key : '\n' ∉ p.1.toList := fun hm => (hp.unbroken _ hm).1 rfl
  unfold labelText
  simp only [List.mem_append, not_or]
  exact ⟨⟨⟨key, by decide⟩, newline_not_mem_esc _⟩, by decide⟩

theorem plain_host : Plain "host".toList := by
  refine ⟨?_, ?_⟩ <;> decide

/-- The last character of a sample's line is one of its number. -/
theorem getLast?_sampleText (reads : Reads F) (host name : String)
    (labels : List (String × String)) (value : F) :
    ∀ c ∈ (sampleText host name labels value).getLast?, isBlank c = false := by
  obtain ⟨hne, hw⟩ := reads.word value
  have chars : (F64.display value).toList ≠ [] := fun h => hne (String.toList_eq_nil_iff.mp h)
  have split : sampleText host name labels value = (name.toList ++ '{' :: (labelText ("host", host)
      ++ ((labels.flatMap fun p => ',' :: labelText p) ++ ['}', ' ']))) ++
      (F64.display value).toList := by
    simp [sampleText]
  intro c hc
  rw [split, List.getLast?_append_of_ne_nil _ chars] at hc
  exact hw c (List.mem_of_getLast? hc)

theorem oneLine_sampleText (reads : Reads F) {host name : String}
    {labels : List (String × String)} (value : F) (hn : Plain name.toList)
    (hl : ∀ p ∈ labels, Plain p.1.toList) : OneLine (sampleText host name labels value) := by
  refine ⟨?_, ?_⟩
  · have number : '\n' ∉ (F64.display value).toList := fun hm =>
      absurd ((reads.word value).2 _ hm) (by decide)
    have labelBlock : '\n' ∉ labels.flatMap fun p => ',' :: labelText p := by
      rw [List.mem_flatMap]
      rintro ⟨p, hp, hm⟩
      cases List.mem_cons.mp hm with
      | inl hm => exact absurd hm (by decide)
      | inr hm => exact newline_not_mem_label (hl p hp) hm
    unfold sampleText
    simp only [List.mem_append, List.mem_cons, not_or]
    exact ⟨fun hm => (hn.unbroken _ hm).1 rfl, by decide, newline_not_mem_label plain_host,
      labelBlock, by decide, by decide, number⟩
  · intro hr
    exact absurd (getLast?_sampleText reads host name labels value _ hr) (by decide)

theorem oneLine_callLines (reads : Reads F) (host : String) {c : Call F} (h : WellFormed c) :
    ∀ l ∈ callLines host c, OneLine l := by
  cases c with
  | family name kind help =>
      obtain ⟨hn, hk, hh⟩ := h
      have title : Unbroken "# HELP ".toList := by unfold Unbroken; decide
      have type : Unbroken "# TYPE ".toList := by unfold Unbroken; decide
      have space : Unbroken [' '] := by unfold Unbroken; decide
      intro l hl
      cases List.mem_cons.mp hl with
      | inl hl => exact hl ▸ (((title.append hn.unbroken).append space).append hh).oneLine
      | inr hl =>
          rw [List.mem_singleton.mp hl]
          exact (((type.append hn.unbroken).append space).append hk).oneLine
  | sample name labels value =>
      intro l hl
      rw [List.mem_singleton.mp hl]
      exact oneLine_sampleText reads value h.1 h.2

/-! ## Reading a line back -/

theorem parseLine_sampleText (reads : Reads F) {host name : String}
    {labels : List (String × String)} (value : F) (hn : Plain name.toList)
    (hl : ∀ p ∈ labels, Plain p.1.toList) :
    parseLine (sampleText host name labels value) =
      some ⟨name, ("host", host) :: labels, value⟩ := by
  obtain ⟨hne, hw⟩ := reads.word value
  obtain ⟨c, key, hkey⟩ := List.exists_cons_of_ne_nil hn.1
  have first : plainChar c := hn.2 c (hkey ▸ List.mem_cons_self)
  have trim : trimmed isBlank (sampleText host name labels value) =
      sampleText host name labels value := by
    apply trimmed_of_ends _ (getLast?_sampleText reads host name labels value)
    intro d hd
    unfold sampleText at hd
    rw [hkey] at hd
    cases hd
    exact isBlank_of_plain first
  have nameChars : ∀ d ∈ name.toList, (!(decide (d = '{') || decide (d = ' '))) = true := by
    intro d hd
    have brace := ne_of_plain (d := '{') (hn.2 d hd) (by decide)
    have space := ne_of_plain (d := ' ') (hn.2 d hd) (by decide)
    simp [brace, space]
  have block := parseLabels_labelText (p := ("host", host)) (List.forall_mem_nil _) plain_host
    ((labels.flatMap fun p => ',' :: labelText p) ++ '}' :: ' ' :: (F64.display value).toList)
  rw [parseLabels_block hl, List.nil_append] at block
  have notComment : ¬(sampleText host name labels value = [] ∨
      (sampleText host name labels value).head? = some '#') := by
    unfold sampleText
    rw [hkey]
    rintro (h | h)
    · cases h
    · exact ne_of_plain first (by decide) (Option.some.inj h)
  have take : (sampleText host name labels value).takeWhile
      (fun c => !(decide (c = '{') || decide (c = ' '))) = name.toList := by
    unfold sampleText
    rw [List.takeWhile_append_of_pos nameChars]
    exact List.append_nil _
  have drop : (sampleText host name labels value).dropWhile
      (fun c => !(decide (c = '{') || decide (c = ' '))) = '{' :: (labelText ("host", host) ++
        ((labels.flatMap fun p => ',' :: labelText p) ++ '}' :: ' ' ::
          (F64.display value).toList)) := by
    unfold sampleText
    rw [List.dropWhile_append_of_pos nameChars]
    rfl
  unfold parseLine
  rw [trim]
  dsimp only
  rw [if_neg notComment, take, drop, if_neg (by simp [hn.1]), if_pos List.head?_cons,
    List.tail_cons, block, Option.map_some, Option.bind_some, firstWord_of_blank (by decide) hne hw,
    Option.bind_some, reads.readValue, reads.display, String.ofList_toList]
  rfl

/-- A comment says nothing. -/
theorem parseLine_comment (text : List Char) :
    (parseLine ('#' :: text) : Option (Series F)) = none := by
  have head := head?_trimmed (show isBlank '#' = false by decide) text
  unfold parseLine
  exact if_pos (Or.inr head)

theorem filterMap_callLines (reads : Reads F) (host : String) {c : Call F} (h : WellFormed c) :
    (callLines host c).filterMap parseLine = (c.series host).toList := by
  cases c with
  | family name kind help =>
      have title : "# HELP ".toList = '#' :: " HELP ".toList := by decide
      have type : "# TYPE ".toList = '#' :: " TYPE ".toList := by decide
      unfold callLines
      rw [title, type]
      simp only [List.cons_append, List.filterMap_cons, parseLine_comment, List.filterMap_nil]
      rfl
  | sample name labels value =>
      unfold callLines
      simp only [List.filterMap_cons, parseLine_sampleText reads value h.1 h.2,
        List.filterMap_nil]
      rfl

/-- Whatever calls of this form write is read back as what they emit. -/
theorem parse_calls (reads : Reads F) (host : String) {cs : List (Call F)}
    (h : ∀ c ∈ cs, WellFormed c) :
    parse (String.ofList (cs.foldl Out.call ⟨[], esc host.toList⟩).buf) =
      cs.filterMap (Call.series host) := by
  have oneLine : ∀ l ∈ cs.flatMap (callLines host), OneLine l := by
    intro l hl
    obtain ⟨c, hc, hl⟩ := List.mem_flatMap.mp hl
    exact oneLine_callLines reads host (h c hc) l hl
  unfold parse
  rw [String.toList_ofList, calls_buf rfl, List.nil_append, lines_joined oneLine]
  clear oneLine
  induction cs with
  | nil => rfl
  | cons c cs ih =>
      have hc := filterMap_callLines reads host (h c List.mem_cons_self)
      rw [List.flatMap_cons, List.filterMap_append, hc,
        ih fun d hd => h d (List.mem_cons_of_mem _ hd), List.filterMap_cons]
      cases c.series host with
      | none => rfl
      | some x => rfl

/-! ## The calls of the renderer -/

theorem plain {name : List Char} (hne : name ≠ []) (h : ∀ c ∈ name, plainChar c) :
    Plain (String.ofList name).toList := by
  rw [String.toList_ofList]
  exact ⟨hne, h⟩

theorem unbroken {text : List Char} (h : ∀ c ∈ text, c ≠ '\n' ∧ c ≠ '\r') :
    Unbroken (String.ofList text).toList := by
  rw [String.toList_ofList]
  exact h

theorem unbroken_gauge : Unbroken "gauge".toList := unbroken (by decide)

/-- Calls that all keep to the form. -/
def AllWellFormed (cs : List (Call F)) : Prop := ∀ c ∈ cs, WellFormed c

omit [F64Text F] in
theorem AllWellFormed.append {cs ds : List (Call F)} (hc : AllWellFormed cs)
    (hd : AllWellFormed ds) : AllWellFormed (cs ++ ds) := by
  intro c hm
  cases List.mem_append.mp hm with
  | inl hm => exact hc c hm
  | inr hm => exact hd c hm

omit [F64Text F] in
theorem AllWellFormed.cons {c : Call F} {cs : List (Call F)} (hc : WellFormed c)
    (hcs : AllWellFormed cs) : AllWellFormed (c :: cs) := by
  intro d hm
  cases List.mem_cons.mp hm with
  | inl hm => exact hm ▸ hc
  | inr hm => exact hcs d hm

omit [F64Text F] in
theorem allWellFormed_nil : AllWellFormed ([] : List (Call F)) := fun _ hc => nomatch hc

omit [F64Text F] in
theorem allWellFormed_elim {α : Type} {write : α → List (Call F)}
    (h : ∀ v, AllWellFormed (write v)) (value : Option α) :
    AllWellFormed (value.elim [] write) := by
  cases value with
  | none => exact allWellFormed_nil
  | some v => exact h v

theorem plain_labels {key : String} (hk : Plain key.toList) (value : String) :
    ∀ p ∈ [(key, value)], Plain p.1.toList := by
  intro p hp
  rw [List.mem_singleton.mp hp]
  exact hk

theorem plain_lane : Plain "lane".toList := plain (by decide) (by decide)

omit [F64Text F] in
theorem allWellFormed_gauge {name help : List Char} (hne : name ≠ [])
    (hn : ∀ c ∈ name, plainChar c) (hh : ∀ c ∈ help, c ≠ '\n' ∧ c ≠ '\r') (value : F) :
    AllWellFormed (gauge (String.ofList name) (String.ofList help) value) := by
  have named := plain hne hn
  refine AllWellFormed.cons ⟨named, unbroken_gauge, unbroken hh⟩ ?_
  exact AllWellFormed.cons ⟨named, fun p hp => nomatch hp⟩ allWellFormed_nil

theorem allWellFormed_serveCalls (s : ServeStatus F) : AllWellFormed (serveCalls s) := by
  have info : Plain "llm_serve_info".toList := plain (by decide) (by decide)
  have model : Plain "model".toList := plain (by decide) (by decide)
  have container : Plain "container".toList := plain (by decide) (by decide)
  unfold serveCalls
  apply AllWellFormed.append
  apply AllWellFormed.append
  apply AllWellFormed.append
  apply AllWellFormed.append
  · exact allWellFormed_gauge (by decide) (by decide) (by decide) _
  · refine AllWellFormed.cons ⟨info, unbroken_gauge, unbroken (by decide)⟩ ?_
    refine AllWellFormed.cons ⟨info, ?_⟩ allWellFormed_nil
    intro p hp
    cases List.mem_cons.mp hp with
    | inl hp => exact hp ▸ model
    | inr hp => exact plain_labels container _ p hp
  · exact allWellFormed_gauge (by decide) (by decide) (by decide) _
  · exact allWellFormed_gauge (by decide) (by decide) (by decide) _
  · exact allWellFormed_gauge (by decide) (by decide) (by decide) _

theorem allWellFormed_lastOkCalls (generatedAt : ℤ) (invalidSkipped : ℕ) (p : ProbeRecord F) :
    AllWellFormed (lastOkCalls generatedAt invalidSkipped p) := by
  unfold lastOkCalls
  apply AllWellFormed.append
  apply AllWellFormed.append
  apply AllWellFormed.append
  apply AllWellFormed.append
  · apply allWellFormed_elim
    exact allWellFormed_gauge (by decide) (by decide) (by decide)
  · apply allWellFormed_elim
    exact fun v => allWellFormed_gauge (by decide) (by decide) (by decide) _
  · exact allWellFormed_gauge (by decide) (by decide) (by decide) _
  · exact allWellFormed_gauge (by decide) (by decide) (by decide) _
  · exact allWellFormed_gauge (by decide) (by decide) (by decide) _

theorem allWellFormed_probeCalls (generatedAt : ℤ) (p : ProbeStatus F) :
    AllWellFormed (probeCalls generatedAt p) := by
  unfold probeCalls
  apply AllWellFormed.append
  · exact allWellFormed_elim (allWellFormed_lastOkCalls generatedAt p.invalidSkipped) _
  · apply allWellFormed_elim
    exact allWellFormed_gauge (by decide) (by decide) (by decide)

omit [F64Text F] in
theorem allWellFormed_laneFamily {name help : List Char} (hne : name ≠ [])
    (hn : ∀ c ∈ name, plainChar c) (hh : ∀ c ∈ help, c ≠ '\n' ∧ c ≠ '\r')
    (total ofPublic ofTrusted : F) :
    AllWellFormed
      (laneFamily (String.ofList name) (String.ofList help) total ofPublic ofTrusted) := by
  have named := plain hne hn
  have lane := fun value => plain_labels plain_lane value
  refine AllWellFormed.cons ⟨named, unbroken_gauge, unbroken hh⟩ ?_
  refine AllWellFormed.cons ⟨named, lane _⟩ ?_
  refine AllWellFormed.cons ⟨named, lane _⟩ ?_
  exact AllWellFormed.cons ⟨named, lane _⟩ allWellFormed_nil

theorem allWellFormed_requestCalls (s : ServeStatus F) (lanes : Lanes F) :
    AllWellFormed (requestCalls s lanes) := by
  unfold requestCalls
  apply AllWellFormed.append
  apply AllWellFormed.append
  apply AllWellFormed.append
  apply AllWellFormed.append
  · exact allWellFormed_gauge (by decide) (by decide) (by decide) _
  · exact allWellFormed_gauge (by decide) (by decide) (by decide) _
  · exact allWellFormed_gauge (by decide) (by decide) (by decide) _
  · exact allWellFormed_laneFamily (by decide) (by decide) (by decide) _ _ _
  · exact allWellFormed_laneFamily (by decide) (by decide) (by decide) _ _ _

theorem plain_waiters : Plain "llm_gate_waiters".toList := plain (by decide) (by decide)

theorem plain_inflight : Plain "llm_gate_inflight_tokens".toList :=
  plain (by decide) (by decide)

theorem plain_rejected : Plain "llm_gate_rejected_total".toList := plain (by decide) (by decide)

theorem allWellFormed_laneCalls (lane : String) (l : LaneStatus F) :
    AllWellFormed (laneCalls lane l) := by
  have code : Plain "code".toList := plain (by decide) (by decide)
  have rejected : ∀ value : String, ∀ p ∈ [("lane", lane), ("code", value)],
      Plain p.1.toList := by
    intro value p hp
    cases List.mem_cons.mp hp with
    | inl hp => exact hp ▸ plain_lane
    | inr hp => exact plain_labels code _ p hp
  refine AllWellFormed.cons ⟨plain_waiters, plain_labels plain_lane _⟩ ?_
  refine AllWellFormed.cons ⟨plain_inflight, plain_labels plain_lane _⟩ ?_
  refine AllWellFormed.cons ⟨plain_rejected, rejected _⟩ ?_
  exact AllWellFormed.cons ⟨plain_rejected, rejected _⟩ allWellFormed_nil

theorem allWellFormed_gateCalls (up : Bool) (lanes : Lanes F) :
    AllWellFormed (gateCalls up lanes) := by
  unfold gateCalls
  apply AllWellFormed.append
  apply AllWellFormed.append
  apply AllWellFormed.append
  · exact allWellFormed_gauge (by decide) (by decide) (by decide) _
  · refine AllWellFormed.cons ⟨plain_waiters, unbroken_gauge, unbroken (by decide)⟩ ?_
    refine AllWellFormed.cons ⟨plain_inflight, unbroken_gauge, unbroken (by decide)⟩ ?_
    exact AllWellFormed.cons ⟨plain_rejected, unbroken (by decide), unbroken (by decide)⟩
      allWellFormed_nil
  · exact allWellFormed_laneCalls _ _
  · exact allWellFormed_laneCalls _ _

theorem allWellFormed_gpuCalls (gpus : List (GpuSample F)) : AllWellFormed (gpuCalls gpus) := by
  have temperature : Plain "llm_gpu_temperature_celsius".toList := plain (by decide) (by decide)
  have power : Plain "llm_gpu_power_watts".toList := plain (by decide) (by decide)
  have utilization : Plain "llm_gpu_utilization_percent".toList := plain (by decide) (by decide)
  have memory : Plain "llm_gpu_memory_used_mib".toList := plain (by decide) (by decide)
  have mask : Plain "llm_gpu_throttle_mask".toList := plain (by decide) (by decide)
  have throttled : Plain "llm_gpu_thermal_throttled".toList := plain (by decide) (by decide)
  have gpu : Plain "gpu".toList := plain (by decide) (by decide)
  have sample : ∀ {name : String} {value : F} {index : String}, Plain name.toList →
      WellFormed (Call.sample name [("gpu", index)] value) := fun hn =>
    ⟨hn, plain_labels gpu _⟩
  have reading : ∀ {name : String} (index : String) (value : Option F), Plain name.toList →
      AllWellFormed (optional name [("gpu", index)] value) := fun index value hn =>
    allWellFormed_elim (fun v => AllWellFormed.cons (sample hn) allWellFormed_nil) value
  unfold gpuCalls
  apply AllWellFormed.append
  · refine AllWellFormed.cons ⟨temperature, unbroken_gauge, unbroken (by decide)⟩ ?_
    refine AllWellFormed.cons ⟨power, unbroken_gauge, unbroken (by decide)⟩ ?_
    refine AllWellFormed.cons ⟨utilization, unbroken_gauge, unbroken (by decide)⟩ ?_
    refine AllWellFormed.cons ⟨memory, unbroken_gauge, unbroken (by decide)⟩ ?_
    refine AllWellFormed.cons ⟨mask, unbroken_gauge, unbroken (by decide)⟩ ?_
    exact AllWellFormed.cons ⟨throttled, unbroken_gauge, unbroken (by decide)⟩
      allWellFormed_nil
  · intro c hc
    obtain ⟨g, _, hc⟩ := List.mem_flatMap.mp hc
    have one : AllWellFormed (gpuSampleCalls g) := by
      unfold gpuSampleCalls
      apply AllWellFormed.append
      apply AllWellFormed.append
      apply AllWellFormed.append
      apply AllWellFormed.append
      · exact reading _ _ temperature
      · exact reading _ _ power
      · exact reading _ _ utilization
      · exact reading _ _ memory
      · exact AllWellFormed.cons (sample mask)
          (AllWellFormed.cons (sample throttled) allWellFormed_nil)
    exact one c hc

theorem allWellFormed_collectorCalls (firing : List String) (incidents : List Incident)
    (lastSampleTs : Option ℤ) :
    AllWellFormed (collectorCalls firing incidents lastSampleTs : List (Call F)) := by
  unfold collectorCalls
  apply AllWellFormed.append
  apply AllWellFormed.append
  · exact allWellFormed_gauge (by decide) (by decide) (by decide) _
  · exact allWellFormed_gauge (by decide) (by decide) (by decide) _
  · exact allWellFormed_gauge (by decide) (by decide) (by decide) _

theorem allWellFormed_calls (s : Status F) : AllWellFormed (calls s) := by
  unfold calls
  apply AllWellFormed.append
  apply AllWellFormed.append
  apply AllWellFormed.append
  apply AllWellFormed.append
  apply AllWellFormed.append
  · exact allWellFormed_serveCalls _
  · exact allWellFormed_probeCalls _ _
  · exact allWellFormed_requestCalls _ _
  · exact allWellFormed_gateCalls _ _
  · exact allWellFormed_gpuCalls _
  · exact allWellFormed_collectorCalls _ _ _

/-- The metrics of any status document are read back as the samples that were emitted. -/
theorem metrics_read_back (reads : Reads F) (s : Status F) : parse (render s) = emitted s :=
  parse_calls reads s.host (allWellFormed_calls s)

/-! ## Whole numbers as an instance -/

/-- Whole numbers and the special values, written and read as doubles are. -/
inductive Whole where
  | number (n : ℕ)
  | nan
  | infinity
  | negInfinity
deriving DecidableEq

namespace Whole

/-- An operation on numbers; anything else is not a number. -/
def lift (op : ℕ → ℕ → ℕ) : Whole → Whole → Whole
  | number m, number n => number (op m n)
  | _, _ => nan

/-- The order, with nothing to say about what is not a number. -/
def below (op : ℕ → ℕ → Bool) : Whole → Whole → Bool
  | number m, number n => op m n
  | negInfinity, number _ => true
  | number _, infinity => true
  | negInfinity, infinity => true
  | _, _ => false

def display : Whole → String
  | number n => String.ofList (Nat.toDigits 10 n)
  | nan => "NaN"
  | infinity => "inf"
  | negInfinity => "-inf"

def parse (text : String) : Option Whole :=
  if text = "NaN" then some nan
  else if text = "inf" ∨ text = "Inf" ∨ text = "+Inf" then some infinity
  else if text = "-inf" ∨ text = "-Inf" then some negInfinity
  else if text.toList ≠ [] ∧ text.toList.all Char.isDigit then
    some (number (Nat.ofDigitChars 10 text.toList 0))
  else none

instance : F64Text Whole where
  add := lift (· + ·)
  sub := lift (· - ·)
  mul := lift (· * ·)
  div := lift (· / ·)
  lit q := number q.floor.toNat
  ofNat := number
  max a b := if below (· ≤ ·) a b then b else a
  lt := below (· < ·)
  le := below (· ≤ ·)
  isFinite a := match a with
    | number _ => true
    | _ => false
  totalLe := below (· ≤ ·)
  fixed _ := display
  display := display
  ofInt i := number i.toNat
  nan := nan
  infinity := infinity
  negInfinity := negInfinity
  parse := parse

theorem digits_ne {n : ℕ} {text : List Char} (h : ∃ c ∈ text, c.isDigit = false) :
    String.ofList (Nat.toDigits 10 n) ≠ String.ofList text := by
  obtain ⟨c, hc, hd⟩ := h
  intro he
  rw [← String.ofList_inj.mp he] at hc
  rw [Nat.isDigit_of_mem_toDigits (by decide) (by decide) hc] at hd
  cases hd

theorem parse_number (n : ℕ) : parse (display (number n)) = some (number n) := by
  have digits : (Nat.toDigits 10 n).all Char.isDigit := List.all_eq_true.mpr fun c hc =>
    Nat.isDigit_of_mem_toDigits (by decide) (by decide) hc
  show parse (String.ofList (Nat.toDigits 10 n)) = _
  unfold parse
  rw [if_neg (digits_ne (by decide)), if_neg, if_neg, String.toList_ofList,
    if_pos ⟨Nat.toDigits_ne_nil, digits⟩, Nat.ofDigitChars_ten_toDigits]
  · rintro (h | h)
    · exact digits_ne (by decide) h
    · exact digits_ne (by decide) h
  · rintro (h | h | h)
    · exact digits_ne (by decide) h
    · exact digits_ne (by decide) h
    · exact digits_ne (by decide) h

theorem reads : Reads Whole where
  word v := by
    cases v with
    | number n =>
        refine ⟨?_, ?_⟩
        · intro h
          exact Nat.toDigits_ne_nil (String.ofList_inj.mp h)
        · intro c hc
          rw [show F64.display (number n) = String.ofList (Nat.toDigits 10 n) from rfl,
            String.toList_ofList] at hc
          exact isBlank_digit (Nat.isDigit_of_mem_toDigits (by decide) (by decide) hc)
    | nan => decide
    | infinity => decide
    | negInfinity => decide
  display v := by
    cases v with
    | number n => exact parse_number n
    | nan => rfl
    | infinity => decide
    | negInfinity => decide
  nan := by decide
  plusInf := by decide
  inf := by decide
  negInf := by decide

end Whole

/-- A document whose names hold every character that means something in the format. -/
def awkward : Status Whole :=
  { host := "rack \"7\"\n\x7ba=b\x7d,\\é"
    generatedAt := 1700000600
    lastSampleTs := some 1700000590
    serve :=
      { up := true, model := some "org/model,\"q4\"\x7d", container := none, uptimeS := some 3600
        restartCount := 2, restartsToday := 1, running := .number 3, slots := 8
        queue := .infinity, decodeTokS := .nan, kvUsage := .number 0 }
    gateUp := false
    gpus := [{ index := 0, tempC := some (.number 71), powerW := none, utilPct := none
               memUsedMib := some (.number 40960), throttleMask := 0x40 }]
    lanes :=
      { publicLane := ⟨.number 1, .number 0, 512, 0, 2, 5⟩
        trustedLane := ⟨.number 2, .number 1, 1024, 1, 0, 0⟩ }
    incidents := []
    firing := ["serve_down"]
    probe :=
      { baselineTokS := none
        lastOk := some ⟨1700000000, some (.number 2000), some (.number 141)⟩
        invalidSkipped := 1 } }

theorem awkward_names_read_back : parse (render awkward) = emitted awkward :=
  metrics_read_back Whole.reads awkward

end Lss.Analysis.MetricsRoundTrip
