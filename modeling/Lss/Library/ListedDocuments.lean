import Lss.Library.PlainDocuments
import Lss.Library.Readers

/-!
# Plain documents with rows of texts

The reader of plain documents, and a key besides whose value is a row of texts between brackets. It
is a correct one.
-/

set_option autoImplicit false

namespace Lss.Library.Statements

open Toml (Header bare)

/-! ## Reading -/

/-- The texts up to the closing bracket and what is left, given so many to read. -/
def readTexts : ℕ → List Char → Option (List String × List Char)
  | fuel + 1, '"' :: rest =>
    (Toml.readChars (rest.length + 1) rest).bind fun s =>
      match s.2 with
      | ']' :: t => some ([String.ofList s.1], t)
      | ',' :: ' ' :: more =>
        (readTexts fuel more).map fun r => (String.ofList s.1 :: r.1, r.2)
      | _ => none
  | _, _ => none

/-- A key with a row of texts, and a comment behind it. -/
def readRow (line : List Char) : Option (String × List String) :=
  let key := line.takeWhile bare
  let rest := line.dropWhile bare
  if ¬line.any Toml.control ∧ key ≠ [] ∧ " = [".toList <+: rest then
    (readTexts line.length (rest.drop 4)).bind fun r =>
      if Toml.onlyTrailing r.2 then some (String.ofList key, r.1) else none
  else none

/-- A statement with its value made another. -/
def Statement.map {V W : Type} (f : V → W) : Statement V → Statement W
  | .nothing => .nothing
  | .pair key v => .pair key (f v)
  | .header h => .header h

abbrev Listed := (Toml.Data ⊕ Bool) ⊕ List String

def readListed (line : List Char) : Option (Statement Listed) :=
  match readPlain line with
  | some s => some (s.map .inl)
  | none => (readRow line).map fun p => .pair [p.1] (.inr p.2)

/-- An array is not defined otherwise, one header after the other. -/
theorem wellDefined_iff {V : Type} (ds : List (Header × Statement V)) :
    WellDefined ds ↔ (ds.filterMap defines).Nodup ∧ ∀ d ∈ ds, match d with
      | (.element path, .header (.element next)) => path = next → path ∉ ds.filterMap defines
      | _ => True := by
  unfold WellDefined
  refine and_congr_right fun _ => ⟨fun apart d hd => ?_, fun apart path mem => ?_⟩
  · split
    · rename_i path next
      rintro rfl
      exact apart path hd
    · trivial
  · exact apart _ mem rfl

instance {V : Type} (ds : List (Header × Statement V)) : Decidable (WellDefined ds) :=
  haveI (d : Header × Statement V) : Decidable (match d with
      | (.element path, .header (.element next)) => path = next → path ∉ ds.filterMap defines
      | _ => True) := by
    split <;> infer_instance
  decidable_of_iff _ (wellDefined_iff ds).symm

/-- The lines of a document as its statements. -/
def cutListed (t : List Char) : Option (List (Chunk Listed)) :=
  ((Lines.lines t).mapM fun l => (readListed l).map fun s => ⟨[l], s⟩).filter fun cs =>
    WellDefined (meaning (placed .root cs))

def listed : Reader Listed where
  read := fun
    | [line] => readListed line
    | _ => none
  accepts := WellDefined
  value d := .inl (.inl d)
  flag b := .inl (.inr b)
  list xs := .inr xs
  text
    | .inl (.inl (.str s)) => some s
    | _ => none
  texts
    | .inr xs => some xs
    | .inl (.inl .empty) => some []
    | _ => none
  tables := fun _ => none
  cut := cutListed

/-! ## What was read -/

theorem readRow_eq_some {line : List Char} {p : String × List String}
    (read : readRow line = some p) :
    (∀ c ∈ line, Toml.control c = false) ∧ ∃ key value, key ≠ [] ∧ (∀ c ∈ key, bare c) ∧
      line = key ++ " = ".toList ++ value ∧ p.1 = String.ofList key := by
  unfold readRow at read
  dsimp only at read
  split at read
  · rename_i row
    obtain ⟨printable, some_key, ⟨more, rest⟩⟩ := row
    obtain ⟨r, -, ended⟩ := Option.bind_eq_some_iff.mp read
    split at ended
    · refine ⟨by simpa using printable, line.takeWhile bare, '[' :: more, some_key,
        fun c hc => List.mem_takeWhile_imp hc, ?_, ?_⟩
      · calc line = line.takeWhile bare ++ line.dropWhile bare :=
              (List.takeWhile_append_dropWhile ..).symm
          _ = _ := by rw [← rest]; simp
      · rw [← Option.some.inj ended]
    · cases ended
  · cases read

/-- What a line says: nothing, a header or a key. -/
theorem readListed_eq_some {line : List Char} {s : Statement Listed}
    (read : readListed line = some s) : (∃ s', readPlain line = some s' ∧ s = s'.map .inl) ∨
      (∀ c ∈ line, Toml.control c = false) ∧ ∃ key value v, key ≠ [] ∧ (∀ c ∈ key, bare c) ∧
        line = key ++ " = ".toList ++ value ∧ s = .pair [String.ofList key] v := by
  unfold readListed at read
  split at read
  · rename_i s' plain
    exact Or.inl ⟨s', plain, (Option.some.inj read).symm⟩
  · obtain ⟨p, row, rfl⟩ := Option.map_eq_some_iff.mp read
    obtain ⟨printable, key, value, some_key, bare_key, text, name⟩ := readRow_eq_some row
    exact Or.inr ⟨printable, key, value, .inr p.2, some_key, bare_key, text, by rw [name]⟩

theorem readListed_plain {line : List Char} {s : Statement (Toml.Data ⊕ Bool)}
    (read : readPlain line = some s) : readListed line = some (s.map .inl) := by
  simp [readListed, read]

/-- A header is read as in a plain document. -/
theorem readPlain_of_header {line : List Char} {h : Header}
    (read : readListed line = some (.header h)) : readPlain line = some (.header h) := by
  obtain ⟨s, plain, said⟩ | ⟨-, key, value, v, -, -, -, said⟩ := readListed_eq_some read
  · cases s with
    | header next =>
        rw [plain]
        cases said
        rfl
    | _ => cases said
  · cases said

theorem printable_of_listed {line : List Char} {s : Statement Listed}
    (read : readListed line = some s) : ∀ c ∈ line, Toml.control c = false := by
  obtain ⟨s', plain, -⟩ | ⟨printable, -⟩ := readListed_eq_some read
  · exact (readPlain_eq_some plain).1
  · exact printable

/-! ## A row of one text -/

theorem readTexts_text {parts : List (Char × Toml.Style)} (h : ∀ p ∈ parts, p.2.Allowed p.1)
    (fuel : ℕ) (t : List Char) :
    readTexts (fuel + 1) ((Toml.Value.str parts).text ++ ']' :: t) =
      some ([String.ofList (parts.map Prod.fst)], t) := by
  have short : parts.length <
      ((parts.flatMap fun p => p.2.text p.1) ++ '"' :: ']' :: t).length + 1 := by
    have one_each := Toml.length_le_flatMap parts
    rw [List.length_append]
    omega
  have chars := Toml.readChars_text h (']' :: t) short
  simp only [Toml.Value.text, List.cons_append, List.append_assoc, List.nil_append, readTexts]
  rw [chars]
  rfl

/-- A row is no value of a plain document. -/
theorem readEntry_row (parts : List (Char × Toml.Style)) (t : List Char) :
    readEntry ('[' :: (Toml.Value.str parts).text ++ t) = none := by
  have flag : readFlag ('[' :: (Toml.Value.str parts).text ++ t) = none := by
    simp [readFlag]
  unfold readEntry
  rw [flag]
  simp [Toml.Value.text, Toml.readValue, Toml.readNumber]

theorem readListed_row {key t : List Char} {parts : List (Char × Toml.Style)}
    (bare_key : Toml.Bare key) (formed : (Toml.Value.str parts).WellFormed)
    (ends : Toml.Trailing t) :
    readListed (key ++ " = [".toList ++ (Toml.Value.str parts).text ++ ']' :: t) =
      some (.pair [String.ofList key] (.inr [String.ofList (parts.map Prod.fst)])) := by
  have printable : ∀ c ∈ '[' :: (Toml.Value.str parts).text ++ ']' :: t,
      Toml.control c = false := by
    intro c hc
    simp only [List.cons_append, List.mem_cons, List.mem_append] at hc
    obtain rfl | hc | rfl | hc := hc
    · decide
    · exact control_value formed c hc
    · decide
    · exact ends.2 c hc
  have shape : key ++ " = [".toList ++ (Toml.Value.str parts).text ++ ']' :: t =
      key ++ " = ".toList ++ ('[' :: (Toml.Value.str parts).text ++ ']' :: t) := by
    simp
  have plain :
      readPlain (key ++ " = [".toList ++ (Toml.Value.str parts).text ++ ']' :: t) = none := by
    rw [shape, readPlain_entry bare_key printable, readEntry_row]
    rfl
  have row : readRow (key ++ " = [".toList ++ (Toml.Value.str parts).text ++ ']' :: t) =
      some (String.ofList key, [String.ofList (parts.map Prod.fst)]) := by
    have clean : ¬(key ++ " = [".toList ++ (Toml.Value.str parts).text ++ ']' :: t).any
        Toml.control = true := by
      rw [shape, Bool.not_eq_true, List.any_eq_false]
      intro c hc
      rw [Bool.not_eq_true]
      rcases List.mem_append.mp hc with hc | hc
      · exact control_pair bare_key c hc
      · exact printable c hc
    have space : ¬bare ' ' = true := by decide
    have begins : (" = [".toList ++ ((Toml.Value.str parts).text ++ ']' :: t)).dropWhile bare =
        " = [".toList ++ ((Toml.Value.str parts).text ++ ']' :: t) :=
      List.dropWhile_cons_of_neg space
    have none_bare : (" = [".toList ++ ((Toml.Value.str parts).text ++ ']' :: t)).takeWhile bare =
        [] := List.takeWhile_cons_of_neg space
    obtain ⟨n, length⟩ : ∃ n, (key ++ " = [".toList ++ (Toml.Value.str parts).text ++
        ']' :: t).length = n + 1 := ⟨_, by simp; rfl⟩
    unfold readRow
    rw [length]
    simp only [List.append_assoc, List.takeWhile_append_of_pos bare_key.2,
      List.dropWhile_append_of_pos bare_key.2, begins, none_bare, List.append_nil] at clean ⊢
    rw [if_pos ⟨clean, bare_key.1, List.prefix_append _ _⟩]
    have rest : (" = [".toList ++ ((Toml.Value.str parts).text ++ ']' :: t)).drop 4 =
        (Toml.Value.str parts).text ++ ']' :: t := by simp
    rw [rest, readTexts_text formed, Option.bind_some, if_pos (Toml.onlyTrailing_of_trailing ends)]
  unfold readListed
  rw [plain, row]
  rfl

/-! ## The lines of a document -/

theorem mapM_readListed {ls : List (List Char)} {cs : List (Chunk Listed)} :
    (ls.mapM fun l => (readListed l).map fun s => (⟨[l], s⟩ : Chunk Listed)) = some cs ↔
      Reads listed.read ls cs := by
  induction ls generalizing cs with
  | nil =>
      constructor
      · intro none_left
        cases none_left
        exact ⟨rfl, by simp⟩
      · intro reads
        cases cs with
        | nil => rfl
        | cons c cs =>
            have whole := reads.whole
            have first := reads.each c List.mem_cons_self
            rw [written_cons, List.append_eq_nil_iff] at whole
            rw [whole.1] at first
            cases first
  | cons l ls ih =>
      rw [List.mapM_cons]
      constructor
      · intro read
        obtain ⟨c, first, rest⟩ := Option.bind_eq_some_iff.mp read
        obtain ⟨ds, more, same⟩ := Option.bind_eq_some_iff.mp rest
        obtain ⟨s, said, rfl⟩ := Option.map_eq_some_iff.mp first
        cases same
        have back := ih.mp more
        refine ⟨by simp [back.whole], fun c hc => ?_⟩
        rcases List.mem_cons.mp hc with rfl | hc
        · exact said
        · exact back.each c hc
      · intro reads
        cases cs with
        | nil => cases reads.whole
        | cons c cs =>
            -- the first statement is read from one line, and that is the first one
            obtain ⟨ms, s⟩ := c
            have first := reads.each ⟨ms, s⟩ List.mem_cons_self
            have whole := reads.whole
            match ms, first with
            | [m], first =>
                simp only [written_cons, List.cons_append, List.nil_append,
                  List.cons.injEq] at whole
                obtain ⟨rfl, rest⟩ := whole
                have more := ih.mpr ⟨rest, fun d hd => reads.each d (List.mem_cons_of_mem _ hd)⟩
                have said : readListed m = some s := first
                rw [said, more]
                rfl

theorem cutListed_iff (t : List Char) (cs : List (Chunk Listed)) :
    cutListed t = some cs ↔
      Reads listed.read (Lines.lines t) cs ∧ WellDefined (meaning (placed .root cs)) := by
  unfold cutListed
  rw [Option.filter_eq_some_iff, mapM_readListed, decide_eq_true_eq]

/-- The reader of plain documents with rows is a correct one. -/
theorem listed_correct {blank : Char → Bool}
    (visible : ∀ c, bare c ∨ c ∈ ['[', ']', '#', '=', '.'] → blank c = false) :
    listed.Correct blank where
  lawful :=
    { started := rfl
      ends := by
        intro ls more s s' read read'
        match ls, read with
        | [line], _ =>
            cases more with
            | nil => rfl
            | cons m ms => cases read'
      clean := by
        intro ls s read l hl
        match ls, read with
        | [line], read =>
            rw [List.mem_singleton.mp hl]
            exact oneLine_of_printable (printable_of_listed read)
      last := by
        intro ls l s read empty
        match ls, read with
        | [], read =>
            refine ⟨rfl, ?_⟩
            obtain ⟨s', plain_read, rfl⟩ | ⟨-, key, value, v, some_key, bare_key, rfl, -⟩ :=
              readListed_eq_some read
            · rw [((plain_lawful visible).last [] l s' plain_read empty).2]
              rfl
            · obtain ⟨rest, text⟩ := trimmed_pair visible some_key bare_key value
              rw [text] at empty
              simp at empty
        | [m], read => cases read
        | m :: n :: ms, read => cases read
      header := by
        intro ls h read
        match ls, read with
        | [line], read => exact (plain_lawful visible).header [line] h (readPlain_of_header read)
      bracket := by
        intro l s read first
        obtain ⟨s', plain_read, rfl⟩ | ⟨-, key, value, v, some_key, bare_key, rfl, -⟩ :=
          readListed_eq_some read
        · obtain ⟨h, rfl⟩ := readPlain_head visible plain_read first
          exact ⟨h, rfl⟩
        · obtain ⟨rest, text⟩ := trimmed_pair visible some_key bare_key value
          obtain ⟨c, key, rfl⟩ := List.exists_cons_of_ne_nil some_key
          rw [text] at first
          exact absurd (Option.some.inj first) (Toml.bare_ne (bare_key c List.mem_cons_self)).2.2.1
      brackets := fun l h read => plain_brackets visible (readPlain_of_header read)
      element := fun l h key read bare_key text =>
        plain_element visible (readPlain_of_header read) bare_key text
      key := by
        intro l s read bare_key equals
        obtain ⟨s', plain_read, rfl⟩ | ⟨-, key, value, v, some_key, bare, rfl, rfl⟩ :=
          readListed_eq_some read
        · obtain ⟨more, v, rfl⟩ := plain_key visible plain_read bare_key
          exact ⟨more, .inl v, rfl⟩
        · rw [takeWhile_trimmed_pair visible some_key bare value]
          exact ⟨[], v, rfl⟩
      line := by
        intro l formed
        have read := readListed_plain (plain_line formed)
        cases l <;> exact read
      flagged := fun key t b bare_key ends => readListed_plain (plain_flagged b bare_key ends)
      noted := WellDefined.noted
      without := fun ds name h => h.sublist List.filter_sublist
      withKey := fun pre post name v h _ free => h.withKey free
      withElement := fun ds name pairs h free _ => h.withElement pairs free }
  row := fun key parts t bare_key formed ends => readListed_row bare_key formed ends
  text_str := fun s => rfl
  texts_list := fun xs => rfl
  cut_iff := cutListed_iff
  elements := by
    intro name blocks _
    have nothing : (blocks.flatMap fun b : List (String × Listed) =>
        (Header.element [name], Statement.header (.element [name])) ::
          b.map fun e => (.element [name], .pair [e.1] e.2)).filterMap defines = [] := by
      rw [List.filterMap_eq_nil_iff]
      intro d hd
      simp only [List.mem_flatMap, List.mem_cons, List.mem_map] at hd
      obtain ⟨b, -, rfl | ⟨e, -, rfl⟩⟩ := hd <;> rfl
    exact ⟨by rw [nothing]; exact List.nodup_nil, by simp [nothing]⟩

end Lss.Library.Statements
