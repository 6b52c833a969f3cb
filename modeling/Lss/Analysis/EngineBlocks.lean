import Lss.Analysis.TouPlans
import Lss.Library.Statements
import Lss.Model.EngineEdit

/-!
# Running setup again

The edit reads the file line by line. A line is left out because of the last line so far that
begins with a bracket, or, before any such line, because of its own key.
-/

set_option autoImplicit false

namespace Lss.Analysis.EngineBlocks

open Lss.Library Lss.Library.Lines Lss.Library.Statements Lss.Model Lss.Model.Setup

/-! ## What the scan keeps -/

/-- The last of some lines that begins with a bracket. -/
def lastTable (lines : List (List Char)) : Option (List Char) :=
  (lines.filter opensTable).getLast?

/-- Whether a line is left out, given the lines before it. -/
def leftOut (named : Bool) (before : List (List Char)) (line : List Char) : Bool :=
  match lastTable (before ++ [line]) with
  | some table => namesEngine table
  | none => givesEngine named line

/-- The lines that are kept behind some others. -/
def kept (named : Bool) : List (List Char) → List (List Char) → List (List Char)
  | _, [] => []
  | before, line :: lines =>
    if leftOut named before line then kept named (before ++ [line]) lines
    else line :: kept named (before ++ [line]) lines

theorem lastTable_concat (before : List (List Char)) (line : List Char) :
    lastTable (before ++ [line]) = if opensTable line then some line else lastTable before := by
  unfold lastTable
  rw [List.filter_append]
  split
  · rename_i opens
    simp [opens]
  · rename_i plain
    simp [plain]

theorem lastTable_eq_none {lines : List (List Char)} :
    lastTable lines = none ↔ ∀ l ∈ lines, opensTable l = false := by
  simp [lastTable]

theorem kept_append (named : Bool) (before ls ms : List (List Char)) :
    kept named before (ls ++ ms) = kept named before ls ++ kept named (before ++ ls) ms := by
  induction ls generalizing before with
  | nil => simp [kept]
  | cons l ls ih =>
      simp only [List.cons_append, kept]
      split <;> simp [ih]

theorem kept_sublist (named : Bool) (before ls : List (List Char)) :
    (kept named before ls).Sublist ls := by
  induction ls generalizing before with
  | nil => exact List.Sublist.slnil
  | cons l ls ih =>
      rw [kept]
      split
      · exact (ih _).cons l
      · exact (ih _).cons_cons l

/-- What the scan knows of the lines it has read. -/
def Tracks (s : Scan) (before : List (List Char)) : Prop :=
  s.topLevel = (lastTable before).isNone ∧ s.inEngine = (lastTable before).any namesEngine

/-- One line, where the certificate file has no place before it. -/
theorem scanStep_eq (ca : Option (List Char)) {s : Scan} {before : List (List Char)}
    (tracks : Tracks s before) (line : List Char)
    (settled : ca = none ∨ s.topLevel = false ∨ opensTable line = false) :
    Tracks (scanStep ca s line) (before ++ [line]) ∧
      (scanStep ca s line).out = s.out ++ kept ca.isSome before [line] := by
  obtain ⟨top, engine⟩ := tracks
  unfold Tracks
  rw [lastTable_concat]
  by_cases opens : opensTable line = true
  · have unplaced : placeCa ca s = s.out := by
      rcases settled with rfl | below | plain
      · rfl
      · cases ca <;> simp [placeCa, below]
      · rw [opens] at plain
        cases plain
    by_cases names : namesEngine line = true
    · simp [scanStep, opens, names, unplaced, kept, leftOut, lastTable_concat]
    · simp [scanStep, opens, names, unplaced, kept, leftOut, lastTable_concat]
  · cases last : lastTable before with
    | none =>
        rw [last] at top engine
        by_cases gives : givesEngine ca.isSome line = true
        · simp [scanStep, opens, top, engine, gives, kept, leftOut, lastTable_concat, last]
        · simp [scanStep, opens, top, engine, gives, kept, leftOut, lastTable_concat, last]
    | some table =>
        rw [last] at top engine
        by_cases names : namesEngine table = true
        · simp [scanStep, opens, top, engine, names, kept, leftOut, lastTable_concat, last]
        · simp [scanStep, opens, top, engine, names, kept, leftOut, lastTable_concat, last]

/-- Many lines, where the certificate file has no place among them. -/
theorem scan_eq (ca : Option (List Char)) {s : Scan} {before : List (List Char)}
    (tracks : Tracks s before) (ls : List (List Char))
    (settled : ca = none ∨ s.topLevel = false ∨ ∀ l ∈ ls, opensTable l = false) :
    Tracks (ls.foldl (scanStep ca) s) (before ++ ls) ∧
      (ls.foldl (scanStep ca) s).out = s.out ++ kept ca.isSome before ls := by
  induction ls generalizing s before with
  | nil => simpa [kept] using tracks
  | cons l ls ih =>
      have first := scanStep_eq ca tracks l
        (settled.imp_right (Or.imp_right fun plain => plain l List.mem_cons_self))
      have still : ca = none ∨ (scanStep ca s l).topLevel = false ∨
          ∀ m ∈ ls, opensTable m = false := by
        refine settled.imp_right fun rest => ?_
        rcases rest with below | plain
        · left
          have top := tracks.1
          rw [below] at top
          rw [first.1.1, lastTable_concat]
          split
          · rfl
          · exact top.symm
        · exact Or.inr fun m hm => plain m (List.mem_cons_of_mem _ hm)
      obtain ⟨tracks', out⟩ := ih first.1 still
      refine ⟨by simpa using tracks', ?_⟩
      have whole : kept ca.isSome before (l :: ls) =
          kept ca.isSome before [l] ++ kept ca.isSome (before ++ [l]) ls :=
        kept_append ca.isSome before [l] ls
      rw [List.foldl_cons, out, first.2, whole, List.append_assoc]

theorem tracks_start : Tracks {} [] := by simp [Tracks, lastTable]

/-- Without a certificate file the edit is what the scan keeps. -/
theorem editLines_none (ls : List (List Char)) :
    editLines none ls = popBlank (kept false [] ls) := by
  obtain ⟨-, out⟩ := scan_eq none tracks_start ls (Or.inl rfl)
  unfold editLines
  simp [out]

/-- A certificate file stands at the end where no line begins with a bracket. -/
theorem editLines_flat (ca : List Char) {ls : List (List Char)}
    (flat : ∀ l ∈ ls, opensTable l = false) :
    editLines (some ca) ls = popBlank (kept true [] ls ++ [ca]) := by
  obtain ⟨tracks, out⟩ := scan_eq (some ca) tracks_start ls (Or.inr (Or.inr flat))
  have top : (ls.foldl (scanStep (some ca)) {}).topLevel = true := by
    rw [tracks.1, List.nil_append, lastTable_eq_none.mpr flat]
    rfl
  unfold editLines
  simp [out, top]

/-- A certificate file stands before the first line that begins with a bracket. -/
theorem editLines_table (ca : List Char) {pre : List (List Char)}
    (flat : ∀ l ∈ pre, opensTable l = false) {table : List Char} (opens : opensTable table)
    (post : List (List Char)) :
    editLines (some ca) (pre ++ table :: post) =
      popBlank (popBlank (kept true [] pre) ++ [ca, []] ++ kept true pre (table :: post)) := by
  obtain ⟨tracks, out⟩ := scan_eq (some ca) tracks_start pre (Or.inr (Or.inr flat))
  rw [List.nil_append] at tracks
  have last := lastTable_eq_none.mpr flat
  have top : (pre.foldl (scanStep (some ca)) {}).topLevel = true := by
    rw [tracks.1, last]
    rfl
  unfold editLines
  rw [List.foldl_append, List.foldl_cons]
  generalize pre.foldl (scanStep (some ca)) {} = s at tracks out top ⊢
  have turn : Tracks (scanStep (some ca) s table) (pre ++ [table]) ∧
      (scanStep (some ca) s table).out =
        popBlank s.out ++ [ca, []] ++ kept true pre [table] := by
    unfold Tracks
    rw [lastTable_concat]
    by_cases names : namesEngine table = true
    · simp [scanStep, placeCa, opens, names, top, kept, leftOut, lastTable_concat]
    · simp [scanStep, placeCa, opens, names, top, kept, leftOut, lastTable_concat]
  have below : (scanStep (some ca) s table).topLevel = false := by
    rw [turn.1.1, lastTable_concat, opens]
    rfl
  obtain ⟨tracks', out'⟩ := scan_eq (some ca) turn.1 post (Or.inr (Or.inl below))
  have behind : (post.foldl (scanStep (some ca)) (scanStep (some ca) s table)).topLevel = false := by
    rw [tracks'.1, Option.isNone_eq_false_iff, Option.isSome_iff_ne_none, Ne, lastTable_eq_none]
    intro plain
    have table_plain := plain table (by simp)
    rw [opens] at table_plain
    cases table_plain
  have whole : kept true pre (table :: post) =
      kept true pre [table] ++ kept true (pre ++ [table]) post := kept_append true pre [table] post
  have popped : s.out = kept true [] pre := by simpa using out
  simp [behind, out', turn.2, whole, popped]

/-- A file has no line that begins with a bracket, or a first one. -/
theorem flat_or_table (ls : List (List Char)) : (∀ l ∈ ls, opensTable l = false) ∨
    ∃ pre table post, ls = pre ++ table :: post ∧ (∀ l ∈ pre, opensTable l = false) ∧
      opensTable table := by
  induction ls with
  | nil => simp
  | cons l ls ih =>
      by_cases opens : opensTable l = true
      · exact Or.inr ⟨[], l, ls, rfl, by simp, opens⟩
      · have plain : opensTable l = false := by simpa using opens
        rcases ih with flat | ⟨pre, table, post, rfl, flat, first⟩
        · exact Or.inl fun m hm => (List.mem_cons.mp hm).elim (fun e => e ▸ plain) (flat m)
        · exact Or.inr ⟨l :: pre, table, post, rfl,
            fun m hm => (List.mem_cons.mp hm).elim (fun e => e ▸ plain) (flat m), first⟩

theorem popBlank_subset (out : List (List Char)) : popBlank out ⊆ out :=
  (List.rdropWhile_prefix _ _).subset

/-- Every line of the edit stood in the file, or was put there. -/
theorem mem_editLines {ca : Option (List Char)} {ls : List (List Char)} :
    ∀ l ∈ editLines ca ls, l ∈ ls ∨ l ∈ ca ∨ l = [] := by
  intro l hl
  cases ca with
  | none =>
      rw [editLines_none] at hl
      exact Or.inl ((kept_sublist _ _ _).subset (popBlank_subset _ hl))
  | some ca =>
      rcases flat_or_table ls with flat | ⟨pre, table, post, rfl, flat, opens⟩
      · rw [editLines_flat ca flat] at hl
        rcases List.mem_append.mp (popBlank_subset _ hl) with hl | hl
        · exact Or.inl ((kept_sublist _ _ _).subset hl)
        · exact Or.inr (Or.inl (by simpa using (List.mem_singleton.mp hl).symm))
      · rw [editLines_table ca flat opens] at hl
        rcases List.mem_append.mp (popBlank_subset _ hl) with hl | hl
        · rcases List.mem_append.mp hl with hl | hl
          · have stood := (kept_sublist _ _ _).subset (popBlank_subset _ hl)
            exact Or.inl (List.mem_append_left _ stood)
          · simp only [List.mem_cons, List.not_mem_nil, or_false] at hl
            rcases hl with rfl | rfl
            · exact Or.inr (Or.inl rfl)
            · exact Or.inr (Or.inr rfl)
        · exact Or.inl (List.mem_append_right _ ((kept_sublist _ _ _).subset hl))

/-! ## Texts between quotes -/

/-- How a character of a text is written. -/
def quoteStyle (c : Char) : Toml.Style :=
  if c = '\\' then .letter '\\'
  else if c = '"' then .letter '"'
  else if c.toNat < 32 || c.toNat = 127 then .code
  else .raw

/-- A text as a value. -/
def quoted (s : String) : Toml.Value := .str (s.toList.map fun c => (c, quoteStyle c))

theorem tomlChar_style (c : Char) : Setup.tomlChar c = (quoteStyle c).text c := by
  unfold Setup.tomlChar quoteStyle
  split
  · rfl
  · split
    · rfl
    · split
      · rename_i control
        have small : c.toNat < 160 := by
          simp only [Bool.or_eq_true, decide_eq_true_eq] at control
          omega
        rw [TouPlans.upperHex4_eq _ small]
        rfl
      · rfl

theorem quoteStyle_allowed (c : Char) : (quoteStyle c).Allowed c := by
  unfold quoteStyle
  split
  · rename_i h
    subst h
    rfl
  · rename_i no_slash
    split
    · rename_i h
      subst h
      rfl
    · rename_i no_quote
      split
      · rename_i control
        simp only [Bool.or_eq_true, decide_eq_true_eq] at control
        show c.toNat < 65536
        omega
      · rename_i plain
        simp only [Bool.or_eq_true, decide_eq_true_eq, not_or] at plain
        refine ⟨no_quote, no_slash, ?_⟩
        simp [Toml.control, plain]

theorem tomlStr_quoted (s : String) : Setup.tomlStr s = (quoted s).text := by
  have chars : s.toList.flatMap Setup.tomlChar =
      (s.toList.map fun c => (c, quoteStyle c)).flatMap fun p => p.2.text p.1 := by
    rw [List.flatMap_map]
    exact List.flatMap_congr fun c _ => tomlChar_style c
  unfold Setup.tomlStr
  rw [chars]
  rfl

theorem quoted_wellFormed (s : String) : (quoted s).WellFormed := by
  intro p hp
  obtain ⟨c, -, rfl⟩ := List.mem_map.mp hp
  exact quoteStyle_allowed c

/-- Characters that stand in a line as they are. -/
def Printable (text : List Char) : Prop := ∀ c ∈ text, Toml.control c = false

theorem Printable.append {a b : List Char} (ha : Printable a) (hb : Printable b) :
    Printable (a ++ b) := fun c hc => (List.mem_append.mp hc).elim (ha c) (hb c)

theorem Printable.oneLine {text : List Char} (h : Printable text) : OneLine text := by
  refine ⟨fun newline => absurd (h _ newline) (by decide), fun last => ?_⟩
  exact absurd (h _ (List.mem_of_getLast? last)) (by decide)

theorem printable_quoted (s : String) : Printable (Setup.tomlStr s) := by
  have digit : ∀ n < 16, Toml.control (Toml.hexDigit n) = false := by decide
  intro c hc
  rw [tomlStr_quoted] at hc
  simp only [quoted, Toml.Value.text, List.mem_append, List.mem_cons, List.not_mem_nil, or_false,
    List.mem_flatMap, List.mem_map] at hc
  rcases hc with (rfl | ⟨p, ⟨d, -, rfl⟩, hc⟩) | rfl
  · decide
  · have allowed := quoteStyle_allowed d
    cases style : quoteStyle d with
    | raw =>
        rw [style] at hc allowed
        rw [List.mem_singleton.mp hc]
        exact allowed.2.2
    | letter l =>
        rw [style] at hc
        have letters : l = '\\' ∨ l = '"' := by
          unfold quoteStyle at style
          split at style
          · exact Or.inl (Toml.Style.letter.inj style).symm
          · split at style
            · exact Or.inr (Toml.Style.letter.inj style).symm
            · split at style <;> cases style
        simp only [Toml.Style.text, List.mem_cons, List.not_mem_nil, or_false] at hc
        rcases hc with rfl | rfl
        · decide
        · rcases letters with rfl | rfl <;> decide
    | code =>
        rw [style] at hc
        simp only [Toml.Style.text, Toml.hex4, List.mem_cons, List.not_mem_nil, or_false] at hc
        rcases hc with rfl | rfl | rfl | rfl | rfl | rfl
        · decide
        · decide
        all_goals exact digit _ (Nat.mod_lt _ (by decide))
  · decide

/-! ## The edited text -/

/-- A text that is written out. -/
theorem printable_of_text {s : String} {text : List Char} (same : s = String.ofList text)
    (printable : ∀ c ∈ text, Toml.control c = false) : Printable s.toList := by
  rw [same, String.toList_ofList]
  exact printable

theorem mem_entryLines {c : EngineChoice} {l : List Char} (hl : l ∈ entryLines c) :
    ∃ first : Char, first.isAlpha ∧ l.head? = some first ∧ Printable l := by
  unfold entryLines at hl
  simp only [List.mem_append, List.mem_cons, List.not_mem_nil, or_false] at hl
  rcases hl with ((rfl | rfl) | key) | check
  · exact ⟨'k', by decide, rfl,
      (printable_of_text rfl (by decide)).append (printable_quoted _)⟩
  · exact ⟨'u', by decide, rfl,
      (printable_of_text rfl (by decide)).append (printable_quoted _)⟩
  · split at key
    · simp at key
    · rw [List.mem_singleton.mp key]
      refine ⟨'a', by decide, rfl, Printable.append (Printable.append ?_ (printable_quoted _)) ?_⟩
      · exact printable_of_text rfl (by decide)
      · exact printable_of_text rfl (by decide)
  · split at check
    · rw [List.mem_singleton.mp check, String.toList_append]
      exact ⟨'t', by decide, rfl, (printable_of_text rfl (by decide)).append
        (printable_of_text rfl (by decide))⟩
    · simp at check

theorem printable_engineLines (c : EngineChoice) : ∀ l ∈ engineLines c, Printable l := by
  intro l hl
  rcases List.mem_cons.mp hl with rfl | hl
  · exact printable_of_text rfl (by decide)
  · obtain ⟨-, -, -, printable⟩ := mem_entryLines hl
    exact printable

theorem printable_caLine {choice : Option EngineChoice} {l : List Char}
    (named : caLine choice = some l) : Printable l := by
  obtain ⟨p, -, rfl⟩ := Option.map_eq_some_iff.mp named
  refine Printable.append (Printable.append ?_ (printable_quoted _)) ?_
  · exact printable_of_text rfl (by decide)
  · exact printable_of_text rfl (by decide)

/-- What is put behind the lines that stay. -/
def appended (choice : Option EngineChoice) : List (List Char) :=
  match choice with
  | some c => [] :: engineLines c
  | none => []

/-- A text of no lines is written as one blank line. -/
def body (out : List (List Char)) : List (List Char) := if out = [] then [[]] else out

theorem intercalate_newline (ls : List (List Char)) :
    ['\n'].intercalate ls ++ ['\n'] = joined (body ls) := by
  have some_lines : ∀ l (ls : List (List Char)),
      ['\n'].intercalate (l :: ls) ++ ['\n'] = joined (l :: ls) := by
    intro l ls
    induction ls generalizing l with
    | nil => simp [joined]
    | cons m ls ih =>
        have next := ih m
        simp only [joined, List.flatMap_cons] at next ⊢
        simp [List.intercalate_cons_cons, ← next]
  cases ls with
  | nil => simp [body, joined]
  | cons l ls => simpa [body] using some_lines l ls

/-- The edited text, line by line. -/
theorem replaceEngine_joined (existing : List Char) (choice : Option EngineChoice) :
    replaceEngine existing choice =
      joined (body (editLines (caLine choice) (lines existing)) ++ appended choice) := by
  unfold replaceEngine
  rw [intercalate_newline, joined_append]
  cases choice with
  | none => rfl
  | some c => rfl

theorem oneLine_edited {existing : List Char} (choice : Option EngineChoice)
    (clean : ∀ l ∈ lines existing, OneLine l) :
    ∀ l ∈ body (editLines (caLine choice) (lines existing)) ++ appended choice, OneLine l := by
  have blank : OneLine ([] : List Char) := by simp [OneLine]
  intro l hl
  rcases List.mem_append.mp hl with hl | hl
  · unfold body at hl
    split at hl
    · rw [List.mem_singleton.mp hl]
      exact blank
    · rcases mem_editLines l hl with stood | named | rfl
      · exact clean l stood
      · exact (printable_caLine named).oneLine
      · exact blank
  · cases choice with
    | none => simp [appended] at hl
    | some c =>
        rcases List.mem_cons.mp hl with rfl | hl
        · exact blank
        · exact (printable_engineLines c l hl).oneLine

/-- The lines of the edited text. -/
theorem lines_replaceEngine {existing : List Char} (choice : Option EngineChoice)
    (clean : ∀ l ∈ lines existing, OneLine l) :
    lines (replaceEngine existing choice) =
      body (editLines (caLine choice) (lines existing)) ++ appended choice := by
  rw [replaceEngine_joined, lines_joined (oneLine_edited choice clean)]

/-! ## The edit of an edited file -/

/-- Wherever one scan keeps lines, another keeps them too: it has read no table either, or the
last table it has read is not of an engine. -/
def Follows (before before' : List (List Char)) : Prop :=
  match lastTable before with
  | none => lastTable before' = none
  | some table => namesEngine table = true ∨ ∃ t, lastTable before' = some t ∧ namesEngine t = false

/-- What is kept is kept again. -/
theorem kept_kept (named : Bool) {before before' : List (List Char)} (ls : List (List Char))
    (follows : Follows before before') :
    kept named before' (kept named before ls) = kept named before ls ∧
      Follows (before ++ ls) (before' ++ kept named before ls) := by
  induction ls generalizing before before' with
  | nil => simpa [kept] using follows
  | cons l ls ih =>
      by_cases out : leftOut named before l = true
      · have still : Follows (before ++ [l]) before' := by
          unfold Follows at follows ⊢
          unfold leftOut at out
          rw [lastTable_concat] at out ⊢
          split
          · rename_i none_read
            rw [none_read] at out
            split at none_read
            · cases none_read
            · rw [none_read] at follows
              exact follows
          · rename_i table last
            rw [last] at out
            exact Or.inl out
        simpa [kept, out] using ih still
      · have stays : leftOut named before l = false := by simpa using out
        have both : leftOut named before' l = false ∧ Follows (before ++ [l]) (before' ++ [l]) := by
          unfold Follows at follows ⊢
          unfold leftOut at stays ⊢
          rw [lastTable_concat] at stays ⊢
          rw [lastTable_concat]
          by_cases opens : opensTable l = true
          · simp only [opens, if_true] at stays ⊢
            exact ⟨stays, Or.inr ⟨l, rfl, stays⟩⟩
          · have plain : opensTable l = false := by simpa using opens
            simp only [plain, Bool.false_eq_true, if_false] at stays ⊢
            cases last : lastTable before with
            | none =>
                rw [last] at follows stays
                have follows : lastTable before' = none := follows
                simpa [follows] using stays
            | some table =>
                rw [last] at follows stays
                have stays : namesEngine table = false := stays
                obtain ⟨t, last', other⟩ := follows.resolve_left (by simp [stays])
                simp [last', other]
        have rest := ih both.2
        simpa [kept, stays, both.1] using rest

/-- A part of what a scan keeps whole it keeps whole. -/
theorem kept_prefix {named : Bool} {before xs ys : List (List Char)}
    (whole : kept named before (xs ++ ys) = xs ++ ys) : kept named before xs = xs := by
  rw [kept_append] at whole
  have front := (kept_sublist named before xs).length_le
  have back := (kept_sublist named (before ++ xs) ys).length_le
  have sum := congrArg List.length whole
  rw [List.length_append, List.length_append] at sum
  exact (kept_sublist named before xs).eq_of_length (by omega)

/-- Before any table the lines that name an engine are left out. -/
theorem kept_flat {named : Bool} {before ls : List (List Char)}
    (flat : ∀ l ∈ before ++ ls, opensTable l = false) :
    kept named before ls = ls.filter fun l => !givesEngine named l := by
  induction ls generalizing before with
  | nil => rfl
  | cons l ls ih =>
      have rest : kept named (before ++ [l]) ls = ls.filter fun l => !givesEngine named l :=
        ih (by simpa using flat)
      have none_read : lastTable (before ++ [l]) = none := lastTable_eq_none.mpr fun m hm =>
        flat m (by simp only [List.mem_append, List.mem_cons] at hm ⊢; tauto)
      rw [kept, rest, List.filter_cons]
      unfold leftOut
      rw [none_read]
      cases givesEngine named l <;> rfl

/-- Behind a table of an engine nothing is kept up to the next table. -/
theorem kept_block (named : Bool) (before : List (List Char)) {table : List Char}
    (opens : opensTable table) (names : namesEngine table) {ls : List (List Char)}
    (flat : ∀ l ∈ ls, opensTable l = false) : kept named before (table :: ls) = [] := by
  have out : leftOut named before table = true := by simp [leftOut, lastTable_concat, opens, names]
  have inside : ∀ ms before, (∀ l ∈ ms, opensTable l = false) → lastTable before = some table →
      kept named before ms = [] := by
    intro ms
    induction ms with
    | nil => intros; rfl
    | cons m ms ih =>
        intro before flat last
        have plain := flat m List.mem_cons_self
        have here : leftOut named before m = true := by
          simp [leftOut, lastTable_concat, plain, last, names]
        rw [kept, if_pos here]
        exact ih _ (fun l hl => flat l (List.mem_cons_of_mem _ hl))
          (by simp [lastTable_concat, plain, last])
  rw [kept, if_pos out]
  exact inside ls _ flat (by simp [lastTable_concat, opens])

/-! ### Blank lines -/

theorem popBlank_append (xs ys : List (List Char)) :
    popBlank (xs ++ ys) = if ys.all blankLine then popBlank xs else xs ++ popBlank ys := by
  induction ys using List.reverseRecOn with
  | nil => simp
  | append_singleton ys y ih =>
      unfold popBlank at ih ⊢
      rw [← List.append_assoc]
      by_cases blank : blankLine y = true
      · rw [List.rdropWhile_concat_pos _ _ y blank, List.rdropWhile_concat_pos _ _ y blank, ih]
        simp [blank]
      · rw [List.rdropWhile_concat_neg _ _ y blank, List.rdropWhile_concat_neg _ _ y blank]
        simp [blank]

theorem popBlank_popBlank (xs : List (List Char)) : popBlank (popBlank xs) = popBlank xs :=
  List.rdropWhile_idempotent _ _

theorem popBlank_eq_self {xs : List (List Char)} :
    popBlank xs = xs ↔ ∀ l ∈ xs.getLast?, blankLine l = false := by
  induction xs using List.reverseRecOn with
  | nil => simp [popBlank]
  | append_singleton xs x _ =>
      unfold popBlank
      by_cases blank : blankLine x = true
      · rw [List.rdropWhile_concat_pos _ _ x blank]
        have shorter := (List.rdropWhile_prefix blankLine xs).length_le
        refine ⟨fun same => ?_, fun last => ?_⟩
        · have lengths := congrArg List.length same
          rw [List.length_append, List.length_singleton] at lengths
          omega
        · simp [blank] at last
      · rw [List.rdropWhile_concat_neg _ _ x blank]
        simpa using blank

theorem popBlank_of_blank {xs : List (List Char)} (blank : ∀ l ∈ xs, blankLine l) :
    popBlank xs = [] := List.rdropWhile_eq_nil_iff.mpr blank

/-! ### The lines that are put there -/

theorem bareLine_of_ends {first last : Char} {middle : List Char} (hf : isBlank first = false)
    (hl : isBlank last = false) :
    bareLine (first :: middle ++ [last]) = first :: middle ++ [last] := by
  apply trimmed_of_ends
  · intro c hc
    rw [List.cons_append, List.head?_cons] at hc
    exact Option.some.inj hc ▸ hf
  · intro c hc
    rw [List.getLast?_concat] at hc
    exact Option.some.inj hc ▸ hl

theorem opensTable_cons {c : Char} (hc : isBlank c = false) (text : List Char) :
    opensTable (c :: text) = decide (c = '[') := by
  unfold opensTable bareLine
  rw [head?_trimmed hc]
  simp

theorem blankLine_cons {c : Char} (hc : isBlank c = false) (text : List Char) :
    blankLine (c :: text) = false := by
  have head := head?_trimmed hc text
  unfold blankLine bareLine
  rw [decide_eq_false_iff_not]
  intro empty
  rw [empty] at head
  cases head

@[simp] theorem opensTable_nil : opensTable [] = false := rfl

@[simp] theorem blankLine_nil : blankLine [] = true := rfl

@[simp] theorem givesEngine_nil (named : Bool) : givesEngine named [] = false := by
  cases named <;> rfl

theorem engineTable : opensTable "[[engine]]".toList = true ∧
    namesEngine "[[engine]]".toList = true := by decide

theorem isBlank_alpha {c : Char} (h : c.isAlpha) : isBlank c = false :=
  isBlank_alphanum (by simp [Char.isAlphanum, h])

theorem opensTable_entryLines {c : EngineChoice} : ∀ l ∈ entryLines c, opensTable l = false := by
  intro l hl
  obtain ⟨first, alpha, head, -⟩ := mem_entryLines hl
  obtain ⟨rest, rfl⟩ := List.head?_eq_some_iff.mp head
  rw [opensTable_cons (isBlank_alpha alpha), decide_eq_false_iff_not]
  rintro rfl
  exact absurd alpha (by decide)

theorem caLine_spec {choice : Option EngineChoice} {l : List Char}
    (named : caLine choice = some l) :
    opensTable l = false ∧ blankLine l = false ∧ givesEngine true l = true := by
  obtain ⟨p, -, rfl⟩ := Option.map_eq_some_iff.mp named
  have ends : ∃ middle, "tls_ca_file = ".toList ++ Setup.tomlStr p ++
      "   # the https engine's certificate or its CA (lss setup)".toList =
        't' :: middle ++ [')'] := by
    refine ⟨"ls_ca_file = ".toList ++ Setup.tomlStr p ++
      "   # the https engine's certificate or its CA (lss setup".toList, ?_⟩
    simp
  have key : ("tls_ca_file = ".toList ++ Setup.tomlStr p ++
      "   # the https engine's certificate or its CA (lss setup)".toList).takeWhile
        (fun c => c ≠ '=' && c ≠ ' ') = "tls_ca_file".toList := by
    simp
  have equals : '=' ∈ "tls_ca_file = ".toList ++ Setup.tomlStr p ++
      "   # the https engine's certificate or its CA (lss setup)".toList := by
    simp
  obtain ⟨middle, text⟩ := ends
  rw [text] at key equals ⊢
  have whole : bareLine ('t' :: middle ++ [')']) = 't' :: middle ++ [')'] :=
    bareLine_of_ends (by decide) (by decide)
  refine ⟨?_, ?_, ?_⟩
  · rw [List.cons_append, opensTable_cons (by decide)]
    simp
  · rw [List.cons_append, blankLine_cons (by decide)]
  · unfold givesEngine keyOf
    rw [whole, key]
    simp only [Bool.and_true, decide_true, Bool.or_true, Bool.true_and]
    exact List.contains_iff_mem.mpr equals

/-! ### The second edit -/

theorem popBlank_body (out : List (List Char)) : popBlank (body out) = popBlank out := by
  unfold body
  split
  · rename_i empty
    rw [empty]
    rfl
  · rfl

/-- A part of what is kept is kept by the next scan. -/
theorem kept_popBlank {named : Bool} {before before' : List (List Char)} {ls : List (List Char)}
    (follows : Follows before before') :
    kept named before' (popBlank (kept named before ls)) = popBlank (kept named before ls) := by
  obtain ⟨rest, whole⟩ := List.rdropWhile_prefix blankLine (kept named before ls)
  have again := (kept_kept named ls follows).1
  rw [← whole] at again
  exact kept_prefix again

theorem follows_flat {before before' : List (List Char)}
    (flat : ∀ l ∈ before, opensTable l = false) (flat' : ∀ l ∈ before', opensTable l = false) :
    Follows before before' := by
  unfold Follows
  rw [lastTable_eq_none.mpr flat]
  exact lastTable_eq_none.mpr flat'

/-- Of the block that was put at the end only blank lines are kept. -/
theorem kept_appended (named : Bool) (before : List (List Char)) (choice : Option EngineChoice) :
    ∀ l ∈ kept named before (appended choice), blankLine l := by
  intro l hl
  cases choice with
  | none => simp [appended, kept] at hl
  | some c =>
      have apart : appended (some c) = [[]] ++ engineLines c := rfl
      rw [apart, kept_append, engineLines,
        kept_block named _ engineTable.1 engineTable.2 opensTable_entryLines, List.append_nil] at hl
      have stood := (kept_sublist named before [[]]).subset hl
      rw [List.mem_singleton.mp stood, blankLine_nil]

/-- Without a certificate file the edit is the same again. -/
theorem editLines_none_again (choice : Option EngineChoice) (ls : List (List Char)) :
    editLines none (body (editLines none ls) ++ appended choice) = editLines none ls := by
  have whole : kept false [] (body (editLines none ls)) = body (editLines none ls) := by
    rw [editLines_none]
    unfold body
    split
    · rfl
    · exact kept_popBlank (follows_flat (by simp) (by simp))
  rw [editLines_none (body _ ++ _), kept_append, whole, popBlank_append,
    if_pos (List.all_eq_true.mpr (kept_appended _ _ choice)), popBlank_body, editLines_none,
    popBlank_popBlank]

/-- Once the last table is of an engine, the next line that is kept begins with a bracket. -/
theorem opensTable_head_kept {named : Bool} {before : List (List Char)} {table : List Char}
    (last : lastTable before = some table) (names : namesEngine table) (ls : List (List Char)) :
    ∀ l ∈ (kept named before ls).head?, opensTable l := by
  induction ls generalizing before table with
  | nil => simp [kept]
  | cons m ls ih =>
      have next := lastTable_concat before m
      by_cases opens : opensTable m = true
      · rw [if_pos opens] at next
        rw [kept]
        split
        · rename_i out
          simp only [leftOut, next] at out
          exact ih next out
        · intro l hl
          rw [← Option.some.inj hl]
          exact opens
      · rw [if_neg opens, last] at next
        have out : leftOut named before m = true := by simp [leftOut, next, names]
        rw [kept, if_pos out]
        exact ih next names

theorem opensTable_head (named : Bool) (before : List (List Char)) {table : List Char}
    (opens : opensTable table) (ls : List (List Char)) :
    ∀ l ∈ (kept named before (table :: ls)).head?, opensTable l := by
  have last : lastTable (before ++ [table]) = some table := by simp [lastTable_concat, opens]
  rw [kept]
  split
  · rename_i out
    simp only [leftOut, last] at out
    exact opensTable_head_kept last out ls
  · intro l hl
    rw [← Option.some.inj hl]
    exact opens

/-- The tables behind a certificate file, with a blank line before them. -/
def behind (tables : List (List Char)) : List (List Char) :=
  if tables = [] then [] else [] :: tables

theorem popBlank_behind {ca : List Char} (nonblank : blankLine ca = false)
    (xs ys : List (List Char)) :
    popBlank (xs ++ [ca, []] ++ ys) = xs ++ [ca] ++ behind (popBlank ys) := by
  have last : popBlank [ca, []] = [ca] := by
    simp [popBlank, List.rdropWhile, List.dropWhile_cons, nonblank]
  rw [popBlank_append]
  split
  · rename_i blank
    rw [popBlank_of_blank (List.all_eq_true.mp blank), popBlank_append, last]
    simp [behind, nonblank]
  · rename_i some_text
    have tables : popBlank ys ≠ [] := fun empty =>
      some_text (List.all_eq_true.mpr (List.rdropWhile_eq_nil_iff.mp empty))
    simp [behind, tables]

/-- The edit of a file that was edited: `top` stood before the certificate file. -/
theorem editLines_behind {ca : List Char} (plain : opensTable ca = false)
    (nonblank : blankLine ca = false) (given : givesEngine true ca = true) (c : EngineChoice)
    {top tables : List (List Char)} (flat : ∀ l ∈ top, opensTable l = false)
    (whole : kept true [] top = top) (opens : ∀ l ∈ tables.head?, opensTable l)
    (stays : kept true (top ++ [ca, []]) tables = tables) (popped : popBlank tables = tables) :
    editLines (some ca) (top ++ [ca] ++ behind tables ++ appended (some c)) =
      popBlank top ++ [ca] ++ behind tables := by
  have flat' : ∀ l ∈ top ++ [ca, []], opensTable l = false := by
    intro l hl
    simp only [List.mem_append, List.mem_cons, List.not_mem_nil, or_false] at hl
    rcases hl with hl | rfl | rfl
    · exact flat l hl
    · exact plain
    · rfl
  have top_kept : kept true [] (top ++ [ca, []]) = top ++ [[]] := by
    have none_read : lastTable (top ++ [ca]) = none := lastTable_eq_none.mpr fun l hl =>
      flat' l (by simp only [List.mem_append, List.mem_cons] at hl ⊢; tauto)
    have none_read' : lastTable (top ++ [ca, []]) = none := lastTable_eq_none.mpr flat'
    rw [kept_append, whole]
    simp [kept, leftOut, none_read, none_read', given]
  have top_popped : popBlank (top ++ [[]]) = popBlank top := by simp [popBlank_append]
  cases tables with
  | nil =>
      have shape : top ++ [ca] ++ behind [] ++ appended (some c) =
          (top ++ [ca, []]) ++ "[[engine]]".toList :: entryLines c := by
        simp [behind, appended, engineLines]
      rw [shape, editLines_table ca flat' engineTable.1, top_kept, top_popped,
        kept_block true _ engineTable.1 engineTable.2 opensTable_entryLines,
        popBlank_behind nonblank, popped]
  | cons t ts =>
      have shape : top ++ [ca] ++ behind (t :: ts) ++ appended (some c) =
          (top ++ [ca, []]) ++ t :: (ts ++ appended (some c)) := by
        simp [behind]
      have first : opensTable t = true := opens t rfl
      have rest : kept true (top ++ [ca, []]) (t :: (ts ++ appended (some c))) =
          (t :: ts) ++ kept true (top ++ [ca, []] ++ (t :: ts)) (appended (some c)) := by
        rw [← List.cons_append, kept_append, stays]
      have blanks := kept_appended true (top ++ [ca, []] ++ (t :: ts)) (some c)
      have tables_popped : popBlank ((t :: ts) ++
          kept true (top ++ [ca, []] ++ (t :: ts)) (appended (some c))) = t :: ts := by
        rw [popBlank_append, if_pos (List.all_eq_true.mpr blanks), popped]
      rw [shape, editLines_table ca flat' first, top_kept, top_popped, rest,
        popBlank_behind nonblank, tables_popped]

/-- What the edit makes of a file with a line that begins with a bracket, and again. -/
theorem editLines_table_again {ca : List Char} (plain : opensTable ca = false)
    (nonblank : blankLine ca = false) (given : givesEngine true ca = true) (c : EngineChoice)
    {pre : List (List Char)} (flat : ∀ l ∈ pre, opensTable l = false) {table : List Char}
    (opens : opensTable table) (post : List (List Char)) :
    editLines (some ca)
        (editLines (some ca) (pre ++ table :: post) ++ appended (some c)) =
      editLines (some ca) (pre ++ table :: post) := by
  have edited := editLines_table ca flat opens post
  rw [popBlank_behind nonblank] at edited
  have top_flat : ∀ l ∈ popBlank (kept true [] pre), opensTable l = false := fun l hl =>
    flat l ((kept_sublist _ _ _).subset (popBlank_subset _ hl))
  have top_whole : kept true [] (popBlank (kept true [] pre)) = popBlank (kept true [] pre) :=
    kept_popBlank (follows_flat (by simp) (by simp))
  have before : ∀ l ∈ popBlank (kept true [] pre) ++ [ca, []], opensTable l = false := by
    intro l hl
    simp only [List.mem_append, List.mem_cons, List.not_mem_nil, or_false] at hl
    rcases hl with hl | rfl | rfl
    · exact top_flat l hl
    · exact plain
    · rfl
  have tables_whole : kept true (popBlank (kept true [] pre) ++ [ca, []])
      (popBlank (kept true pre (table :: post))) = popBlank (kept true pre (table :: post)) :=
    kept_popBlank (follows_flat flat before)
  have tables_open : ∀ l ∈ (popBlank (kept true pre (table :: post))).head?, opensTable l := by
    intro l hl
    obtain ⟨rest, whole⟩ := List.rdropWhile_prefix blankLine (kept true pre (table :: post))
    refine opensTable_head true pre opens post l ?_
    rw [← whole]
    exact List.mem_head?_append_of_mem_head? hl
  rw [edited, editLines_behind plain nonblank given c top_flat top_whole tables_open tables_whole
    (popBlank_popBlank _), popBlank_popBlank]

/-- A file without such a line is edited to the same again exactly where what stays of it does not
end with a blank line: the second edit puts the certificate file before the block it finds. -/
theorem editLines_flat_again {ca : List Char} (plain : opensTable ca = false)
    (nonblank : blankLine ca = false) (given : givesEngine true ca = true) (c : EngineChoice)
    {ls : List (List Char)} (flat : ∀ l ∈ ls, opensTable l = false) :
    editLines (some ca) (editLines (some ca) ls ++ appended (some c)) = editLines (some ca) ls ↔
      popBlank (kept true [] ls) = kept true [] ls := by
  have edited : editLines (some ca) ls = kept true [] ls ++ [ca] := by
    rw [editLines_flat ca flat, popBlank_append]
    simp [popBlank, List.rdropWhile, nonblank]
  have top_flat : ∀ l ∈ kept true [] ls, opensTable l = false := fun l hl =>
    flat l ((kept_sublist _ _ _).subset hl)
  have again : editLines (some ca) (kept true [] ls ++ [ca] ++ behind [] ++ appended (some c)) =
      popBlank (kept true [] ls) ++ [ca] ++ behind [] :=
    editLines_behind plain nonblank given c top_flat
      (kept_kept true ls (follows_flat (by simp) (by simp))).1 (by simp) rfl rfl
  have none_behind : behind [] = [] := rfl
  rw [none_behind, List.append_nil, List.append_nil] at again
  rw [edited, again, List.append_cancel_right_eq]

theorem popBlank_editLines (ca : Option (List Char)) (ls : List (List Char)) :
    popBlank (editLines ca ls) = editLines ca ls := popBlank_popBlank _

/-- A certificate file is in the edited lines. -/
theorem editLines_ne_nil {ca : List Char} (nonblank : blankLine ca = false)
    (ls : List (List Char)) : editLines (some ca) ls ≠ [] := by
  rcases flat_or_table ls with flat | ⟨pre, table, post, rfl, flat, opens⟩
  · rw [editLines_flat ca flat, popBlank_append]
    simp [nonblank, popBlank, List.rdropWhile]
  · rw [editLines_table ca flat opens, popBlank_behind nonblank]
    simp

/-- The edit of the edited text changes nothing, unless a certificate file was put behind a blank
line: that is so where no line of the text begins with a bracket. -/
theorem replaceEngine_again {existing : List Char} (choice : Option EngineChoice)
    (clean : ∀ l ∈ lines existing, OneLine l) :
    replaceEngine (replaceEngine existing choice) choice = replaceEngine existing choice ↔
      (caLine choice ≠ none → (∀ l ∈ lines existing, opensTable l = false) →
        popBlank (kept true [] (lines existing)) = kept true [] (lines existing)) := by
  have edited := lines_replaceEngine choice clean
  have clean' : ∀ l ∈ lines (replaceEngine existing choice), OneLine l := by
    rw [edited]
    exact oneLine_edited choice clean
  have by_lines : replaceEngine (replaceEngine existing choice) choice =
      replaceEngine existing choice ↔
        editLines (caLine choice)
          (body (editLines (caLine choice) (lines existing)) ++ appended choice) =
            editLines (caLine choice) (lines existing) := by
    constructor
    · intro same
      have again := lines_replaceEngine choice clean'
      rw [same, edited, List.append_cancel_right_eq] at again
      rw [← popBlank_editLines, ← popBlank_body, ← again, popBlank_body, popBlank_editLines]
    · intro same
      rw [replaceEngine_joined (replaceEngine existing choice), edited, same,
        ← replaceEngine_joined]
  rw [by_lines]
  cases line : caLine choice with
  | none => simp [editLines_none_again]
  | some ca =>
      obtain ⟨plain, nonblank, given⟩ := caLine_spec line
      obtain ⟨c, rfl⟩ : ∃ c, choice = some c := by
        cases choice with
        | none => simp [caLine, caFile] at line
        | some c => exact ⟨c, rfl⟩
      have some_lines : body (editLines (some ca) (lines existing)) =
          editLines (some ca) (lines existing) := if_neg (editLines_ne_nil nonblank _)
      rw [some_lines]
      rcases flat_or_table (lines existing) with flat | ⟨pre, table, post, shape, flat, opens⟩
      · rw [editLines_flat_again plain nonblank given c flat]
        exact ⟨fun same _ _ => same, fun same => same (by simp) flat⟩
      · rw [shape, editLines_table_again plain nonblank given c flat opens post]
        refine ⟨fun _ _ all_flat => ?_, fun _ => rfl⟩
        have table_flat := all_flat table (by simp)
        rw [opens] at table_flat
        cases table_flat

end Lss.Analysis.EngineBlocks
