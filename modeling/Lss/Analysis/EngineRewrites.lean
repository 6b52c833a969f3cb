import Lss.Analysis.EngineBlocks
import Lss.Library.PlainDocuments

/-!
# Only the engine is replaced

The edit works on lines and what it edits is a document of statements. Where every line is left
out exactly when its statement is about the engine, the edited text is a document again, with the
same statements but for the engine. A statement written otherwise than the edit expects, a header
with a comment behind it or a key in quotes, stays where it should go.
-/

set_option autoImplicit false

namespace Lss.Analysis.EngineRewrites

open Lss.Library Lss.Library.Lines Lss.Library.Statements Lss.Model Lss.Model.Setup
open Lss.Analysis.EngineBlocks
open Toml (Header)

variable {V : Type}

/-! ## The parts of a document -/

/-- The names that say which engine is read. -/
def engineNames : List String := "engine" :: engineKeys

/-- The names that are replaced; the certificate file only when the choice names one. -/
def replacedNames (named : Bool) : List String :=
  engineNames ++ if named then ["tls_ca_file"] else []

def isAbout (names : List String) (d : Header × Statement V) : Bool :=
  (topName d).any names.contains

def blankChunk (c : Chunk V) : Bool := c.lines.all blankLine

/-- The statements of a document with their headers, blank lines aside. -/
def rows (h : Header) (cs : List (Chunk V)) : List (Header × Chunk V) :=
  (placed h cs).filter fun d => !blankChunk d.2

/-- The statements about some names. -/
def about (names : List String) (ds : List (Header × Chunk V)) : List (Header × Chunk V) :=
  ds.filter fun d => isAbout names (d.1, d.2.statement)

/-- The other statements, comments among them. -/
def others (names : List String) (ds : List (Header × Chunk V)) : List (Header × Chunk V) :=
  ds.filter fun d => !isAbout names (d.1, d.2.statement)

/-- The keys of a chosen engine. -/
def enginePairs (p : Parser V) (c : EngineChoice) : List (String × V) :=
  [("kind", p.value (.str c.kind)), ("url", p.value (.str c.url))] ++
  (if trim c.apiKey = "" then [] else [("api_key", p.value (.str (trim c.apiKey)))]) ++
  if c.tlsVerify = some false then [("tls_verify", p.flag false)] else []

/-- What a document says about the engine once it is the chosen one. -/
def chosen (p : Parser V) (choice : Option EngineChoice) : List (Header × Statement V) :=
  match choice with
  | some c => (.element ["engine"], .header (.element ["engine"])) ::
      (enginePairs p c).map fun e => (.element ["engine"], .pair [e.1] e.2)
  | none => []

/-- The edit replaces the engine and nothing else: what it writes is a document, its engine is the
chosen one, its certificate file is the chosen one where one is chosen, everything else stands as
it stood, and the edit of what it writes changes nothing. -/
def Replaces (p : Parser V) (choice : Option EngineChoice) (existing : List Char)
    (cs : List (Chunk V)) : Prop :=
  ∃ cs', Reads p.read (lines (replaceEngine existing choice)) cs' ∧
    p.accepts (meaning (placed .root cs')) ∧
    meaning (about engineNames (rows .root cs')) = chosen p choice ∧
    (∀ path ∈ caFile choice, meaning (about ["tls_ca_file"] (rows .root cs')) =
      [(.root, .pair ["tls_ca_file"] (p.value (.str path)))]) ∧
    others (replacedNames (caFile choice).isSome) (rows .root cs') =
      others (replacedNames (caFile choice).isSome) (rows .root cs) ∧
    replaceEngine (replaceEngine existing choice) choice = replaceEngine existing choice

/-- The document is written as the edit expects it. -/
structure Legible (named : Bool) (cs : List (Chunk V)) : Prop where
  /-- A line is left out exactly where its statement is about the engine. -/
  agrees : ∀ pre c post, cs = pre ++ c :: post → blankChunk c = false →
    ∀ xs l ys, c.lines = xs ++ l :: ys → leftOut named (written pre ++ xs) l =
      isAbout (replacedNames named) (under .root (pre ++ [c]), c.statement)
  /-- The first line that begins with a bracket is a header, or goes with its statement: the
  certificate file is put before it. -/
  opens : named → ∀ pre c post, cs = pre ++ c :: post →
    (∀ l ∈ written pre, opensTable l = false) → (∃ l ∈ c.lines, opensTable l) →
      (∃ h, c.statement = .header h) ∨
        isAbout (replacedNames named) (under .root (pre ++ [c]), c.statement)
  /-- Where there is no such line, what stays does not end with a blank line. -/
  ends : named → (∀ l ∈ written cs, opensTable l = false) →
    ∀ l ∈ ((written cs).filter fun l => !givesEngine named l).getLast?, blankLine l = false

/-! ## Chunks that are kept -/

/-- The chunks whose first line is kept. -/
def keptChunks (named : Bool) : List (List Char) → List (Chunk V) → List (Chunk V)
  | _, [] => []
  | before, c :: cs =>
    if c.lines.head?.any (leftOut named before) then keptChunks named (before ++ c.lines) cs
    else c :: keptChunks named (before ++ c.lines) cs

/-- The lines of every chunk are kept together. -/
def Together (named : Bool) (before : List (List Char)) (cs : List (Chunk V)) : Prop :=
  ∀ pre c post, cs = pre ++ c :: post → ∀ xs l ys, c.lines = xs ++ l :: ys →
    leftOut named (before ++ written pre ++ xs) l =
      c.lines.head?.any (leftOut named (before ++ written pre))

theorem Together.head {named : Bool} {before : List (List Char)} {c : Chunk V}
    {cs : List (Chunk V)} (together : Together named before (c :: cs)) :
    ∀ xs l ys, c.lines = xs ++ l :: ys →
      leftOut named (before ++ xs) l = c.lines.head?.any (leftOut named before) := by
  intro xs l ys shape
  simpa using together [] c cs rfl xs l ys shape

theorem Together.tail {named : Bool} {before : List (List Char)} {c : Chunk V}
    {cs : List (Chunk V)} (together : Together named before (c :: cs)) :
    Together named (before ++ c.lines) cs := by
  intro pre d post shape xs l ys lines
  simpa using together (c :: pre) d post (by rw [shape, List.cons_append]) xs l ys lines

theorem Together.left {named : Bool} {before : List (List Char)} {cs ds : List (Chunk V)}
    (together : Together named before (cs ++ ds)) : Together named before cs := by
  intro pre c post shape
  exact together pre c (post ++ ds) (by rw [shape, List.append_assoc, List.cons_append])

theorem kept_of_alike {named : Bool} {before ls : List (List Char)} {out : Bool}
    (alike : ∀ xs l ys, ls = xs ++ l :: ys → leftOut named (before ++ xs) l = out) :
    kept named before ls = if out then [] else ls := by
  induction ls generalizing before with
  | nil => simp [kept]
  | cons l ls ih =>
      have here : leftOut named before l = out := by simpa using alike [] l ls rfl
      have rest : kept named (before ++ [l]) ls = if out then [] else ls := by
        apply ih
        intro xs m ys shape
        simpa using alike (l :: xs) m ys (by rw [shape, List.cons_append])
      rw [kept, here, rest]
      cases out <;> rfl

theorem kept_written {named : Bool} {before : List (List Char)} {cs : List (Chunk V)}
    (together : Together named before cs) :
    kept named before (written cs) = written (keptChunks named before cs) := by
  induction cs generalizing before with
  | nil => rfl
  | cons c cs ih =>
      rw [written_cons, kept_append, kept_of_alike together.head, ih together.tail, keptChunks]
      split <;> simp

theorem keptChunks_append (named : Bool) (before : List (List Char)) (cs ds : List (Chunk V)) :
    keptChunks named before (cs ++ ds) =
      keptChunks named before cs ++ keptChunks named (before ++ written cs) ds := by
  induction cs generalizing before with
  | nil => simp [keptChunks]
  | cons c cs ih =>
      simp only [List.cons_append, keptChunks, written_cons]
      split <;> simp [ih]

theorem keptChunks_subset (named : Bool) (before : List (List Char)) (cs : List (Chunk V)) :
    keptChunks named before cs ⊆ cs := by
  induction cs generalizing before with
  | nil => simp [keptChunks]
  | cons c cs ih =>
      rw [keptChunks]
      split
      · exact fun d hd => List.mem_cons_of_mem _ (ih _ hd)
      · exact List.cons_subset_cons _ (ih _)

/-! ## Blank lines -/

/-- The statements of these chunks are read from their lines. -/
def ReadsEach (p : Parser V) (cs : List (Chunk V)) : Prop :=
  ∀ c ∈ cs, p.read c.lines = some c.statement

section Lawful

variable {p : Parser V} (lawful : p.Lawful isBlank)
include lawful

theorem lines_ne_nil {c : Chunk V} (read : p.read c.lines = some c.statement) : c.lines ≠ [] := by
  intro empty
  rw [empty, lawful.started] at read
  cases read

theorem last_of_blank {c : Chunk V} (read : p.read c.lines = some c.statement) {xs : List (List Char)}
    {l : List Char} (shape : c.lines = xs ++ [l]) (blank : blankLine l) :
    xs = [] ∧ c.statement = .nothing := by
  rw [shape] at read
  exact lawful.last _ _ _ read (of_decide_eq_true blank)

theorem blankChunk_spec {c : Chunk V} (read : p.read c.lines = some c.statement)
    (blank : blankChunk c) : ∃ l, c.lines = [l] ∧ blankLine l ∧ c.statement = .nothing := by
  rcases List.eq_nil_or_concat c.lines with empty | ⟨xs, l, shape⟩
  · exact absurd empty (lines_ne_nil lawful read)
  · rw [List.concat_eq_append] at shape
    have last : blankLine l := by
      unfold blankChunk at blank
      rw [shape] at blank
      exact List.all_eq_true.mp blank l (by simp)
    obtain ⟨rfl, nothing⟩ := last_of_blank lawful read shape last
    exact ⟨l, shape, last, nothing⟩

/-- A chunk that is not blank does not end with a blank line. -/
theorem popBlank_lines {c : Chunk V} (read : p.read c.lines = some c.statement)
    (some_text : blankChunk c = false) : popBlank c.lines = c.lines := by
  rcases List.eq_nil_or_concat c.lines with empty | ⟨xs, l, shape⟩
  · exact absurd empty (lines_ne_nil lawful read)
  · rw [List.concat_eq_append] at shape
    by_cases blank : blankLine l = true
    · obtain ⟨rfl, -⟩ := last_of_blank lawful read shape blank
      simp [blankChunk, shape, blank] at some_text
    · rw [shape]
      exact List.rdropWhile_concat_neg _ _ l blank

/-- Chunks without the blank ones at the end. -/
def popChunks (cs : List (Chunk V)) : List (Chunk V) := cs.rdropWhile blankChunk

theorem popBlank_written {cs : List (Chunk V)} (reads : ReadsEach p cs) :
    popBlank (written cs) = written (popChunks cs) := by
  unfold popChunks
  induction cs using List.reverseRecOn with
  | nil => rfl
  | append_singleton cs c ih =>
      have before : ReadsEach p cs := fun d hd => reads d (List.mem_append_left _ hd)
      have here := reads c (by simp)
      rw [written_append, written_cons, written_nil, List.append_nil, popBlank_append]
      change (if blankChunk c = true then _ else _) = _
      by_cases blank : blankChunk c = true
      · rw [List.rdropWhile_concat_pos _ _ c blank, if_pos blank, ih before]
      · have some_text : blankChunk c = false := by simpa using blank
        rw [List.rdropWhile_concat_neg _ _ c blank, if_neg blank,
          popBlank_lines lawful here some_text, written_append, written_cons, written_nil,
          List.append_nil]

omit lawful in
theorem popChunks_subset (cs : List (Chunk V)) : popChunks cs ⊆ cs :=
  (List.rdropWhile_prefix _ _).subset

omit lawful in
theorem rows_append (h : Header) (cs ds : List (Chunk V)) :
    rows h (cs ++ ds) = rows h cs ++ rows (under h cs) ds := by
  simp [rows, placed_append]

omit lawful in
theorem rows_cons (h : Header) (c : Chunk V) (cs : List (Chunk V)) :
    rows h (c :: cs) = (if blankChunk c then [] else [(c.statement.under h, c)]) ++
      rows (c.statement.under h) cs := by
  unfold rows
  rw [placed, List.filter_cons]
  by_cases blank : blankChunk c = true <;> simp [blank]

/-- Blank chunks are no rows and change no header. -/
theorem rows_of_blank {h : Header} {cs : List (Chunk V)} (reads : ReadsEach p cs)
    (blank : ∀ c ∈ cs, blankChunk c) : rows h cs = [] ∧ under h cs = h := by
  induction cs with
  | nil => exact ⟨rfl, rfl⟩
  | cons c cs ih =>
      obtain ⟨-, -, -, nothing⟩ :=
        blankChunk_spec lawful (reads c List.mem_cons_self) (blank c List.mem_cons_self)
      have rest := ih (fun d hd => reads d (List.mem_cons_of_mem _ hd))
        fun d hd => blank d (List.mem_cons_of_mem _ hd)
      have same : c.statement.under h = h := by rw [nothing]; rfl
      rw [rows_cons, under_cons, same, blank c List.mem_cons_self]
      simpa using rest

theorem rows_popChunks {h : Header} {cs : List (Chunk V)} (reads : ReadsEach p cs) :
    rows h (popChunks cs) = rows h cs ∧ under h (popChunks cs) = under h cs := by
  have shape : popChunks cs ++ cs.rtakeWhile blankChunk = cs := List.rdropWhile_append_rtakeWhile
  have blank : ∀ c ∈ cs.rtakeWhile blankChunk, blankChunk c := fun c hc =>
    List.mem_rtakeWhile_imp hc
  have back : ReadsEach p (cs.rtakeWhile blankChunk) := fun c hc =>
    reads c ((List.rtakeWhile_suffix _ _).subset hc)
  obtain ⟨no_rows, same⟩ := rows_of_blank lawful (h := under h (popChunks cs)) back blank
  constructor
  · calc rows h (popChunks cs)
        = rows h (popChunks cs ++ cs.rtakeWhile blankChunk) := by
          rw [rows_append, no_rows, List.append_nil]
      _ = rows h cs := by rw [shape]
  · calc under h (popChunks cs)
        = under h (popChunks cs ++ cs.rtakeWhile blankChunk) := by rw [under_append, same]
      _ = under h cs := by rw [shape]

/-! ## The statements that are put there -/

omit lawful in
/-- The certificate file as a statement. -/
def caChunks (p : Parser V) (choice : Option EngineChoice) : List (Chunk V) :=
  (caFile choice).toList.map fun path =>
    ⟨(caLine choice).toList, .pair ["tls_ca_file"] (p.value (.str path))⟩

def blankLineChunk : Chunk V := ⟨[[]], .nothing⟩

theorem read_blank : p.read [[]] = some .nothing :=
  lawful.line (.comment []) ⟨Or.inl rfl, by simp⟩

theorem read_quoted (key : String) (bare : Toml.Bare key.toList) (s : String)
    {trailing : List Char} (ends : Toml.Trailing trailing) :
    p.read [key.toList ++ " = ".toList ++ Setup.tomlStr s ++ trailing] =
      some (.pair [key] (p.value (.str s))) := by
  have read := lawful.line (.pair key.toList (quoted s) trailing)
    ⟨bare, quoted_wellFormed s, ends⟩
  have data : (quoted s).data = .str s := by
    simp [quoted, Toml.Value.data, Function.comp_def]
  simpa [Toml.Line.text, Toml.Line.item, Statement.ofItem, data, tomlStr_quoted] using read

theorem reads_caChunks (choice : Option EngineChoice) : ReadsEach p (caChunks p choice) := by
  intro c hc
  obtain ⟨path, file, rfl⟩ := List.mem_map.mp hc
  have file : caFile choice = some path := by simpa using file
  have bare : Toml.Bare "tls_ca_file".toList := by
    refine ⟨by decide, ?_⟩
    decide
  have ends : Toml.Trailing
      "   # the https engine's certificate or its CA (lss setup)".toList :=
    .of_text rfl (by decide) (by decide)
  have read := read_quoted lawful "tls_ca_file" bare path ends
  simpa [caLine, file] using read

/-! ## The edit of chunks -/

/-- Among lines none of which begins with a bracket there is no header. -/
theorem plain_of_flat {cs : List (Chunk V)} (reads : ReadsEach p cs)
    (flat : ∀ l ∈ written cs, opensTable l = false) :
    ∀ c ∈ cs, ∀ h, c.statement ≠ .header h := by
  intro c hc h header
  have read := reads c hc
  rw [header] at read
  obtain ⟨l, lines, bracket⟩ := lawful.header _ _ read
  have plain := flat l (List.mem_flatMap.mpr ⟨c, hc, by simp [lines]⟩)
  have opens : opensTable l = true := decide_eq_true bracket
  rw [opens] at plain
  cases plain

omit lawful in
/-- Of the chunks of a file one is the first with a line that begins with a bracket. -/
theorem exists_first_table {cs : List (Chunk V)} (some_table : ∃ l ∈ written cs, opensTable l) :
    ∃ pre c post xs table ys, cs = pre ++ c :: post ∧ c.lines = xs ++ table :: ys ∧
      (∀ l ∈ written pre ++ xs, opensTable l = false) ∧ opensTable table := by
  induction cs with
  | nil => simp at some_table
  | cons c cs ih =>
      rcases flat_or_table c.lines with flat | ⟨xs, table, ys, lines, flat, opens⟩
      · have later : ∃ l ∈ written cs, opensTable l := by
          obtain ⟨l, hl, opens⟩ := some_table
          rw [written_cons] at hl
          rcases List.mem_append.mp hl with hl | hl
          · rw [flat l hl] at opens
            cases opens
          · exact ⟨l, hl, opens⟩
        obtain ⟨pre, d, post, xs, table, ys, rfl, lines, flat', opens⟩ := ih later
        refine ⟨c :: pre, d, post, xs, table, ys, rfl, lines, ?_, opens⟩
        intro l hl
        rw [written_cons, List.append_assoc] at hl
        exact (List.mem_append.mp hl).elim (flat l) (flat' l)
      · exact ⟨[], c, cs, xs, table, ys, rfl, lines, by simpa using flat, opens⟩

/-- The edited lines as statements: the kept ones, and the certificate file among those at the
top. -/
theorem edit_chunks (choice : Option EngineChoice) {cs : List (Chunk V)} (reads : ReadsEach p cs)
    (together : Together (caFile choice).isSome [] cs)
    (first : (caFile choice).isSome → ∀ pre c post xs table ys, cs = pre ++ c :: post →
      c.lines = xs ++ table :: ys → (∀ l ∈ written pre ++ xs, opensTable l = false) →
        opensTable table → kept true (written pre) xs = []) :
    ∃ es k₁ k₂, written es = editLines (caLine choice) (written cs) ∧ ReadsEach p es ∧
      keptChunks (caFile choice).isSome [] cs = k₁ ++ k₂ ∧
      (∀ c ∈ k₁, ∀ h, c.statement ≠ .header h) ∧
      rows .root es = rows .root k₁ ++ (caChunks p choice).map (fun c => (Header.root, c)) ++
        rows .root k₂ := by
  have reads_kept : ReadsEach p (keptChunks (caFile choice).isSome [] cs) := fun c hc =>
    reads c (keptChunks_subset _ _ _ hc)
  have lines_kept := kept_written together
  cases file : caFile choice with
  | none =>
      have no_line : caLine choice = none := by simp [caLine, file]
      rw [file, Option.isSome_none] at reads_kept lines_kept
      refine ⟨popChunks (keptChunks false [] cs), [], keptChunks false [] cs, ?_, ?_, rfl, ?_, ?_⟩
      · rw [no_line, editLines_none, lines_kept]
        exact (popBlank_written lawful reads_kept).symm
      · exact fun c hc => reads_kept c (popChunks_subset _ hc)
      · simp
      · rw [(rows_popChunks lawful reads_kept).1]
        simp [caChunks, file, rows, placed]
  | some path =>
      rw [file, Option.isSome_some] at reads_kept lines_kept together first
      obtain ⟨ca, line⟩ : ∃ ca, caLine choice = some ca := by simp [caLine, file]
      obtain ⟨-, nonblank, -⟩ := caLine_spec line
      obtain ⟨chunk, chunks, chunk_lines, chunk_plain⟩ : ∃ chunk, caChunks p choice = [chunk] ∧
          chunk.lines = [ca] ∧ ∀ h, chunk.statement ≠ .header h := by
        refine ⟨⟨[ca], .pair ["tls_ca_file"] (p.value (.str path))⟩, ?_, rfl, by simp⟩
        simp [caChunks, file, line]
      have read_chunk : p.read chunk.lines = some chunk.statement :=
        reads_caChunks lawful choice chunk (by simp [chunks])
      have chunk_under : ∀ h, chunk.statement.under h = h := by
        intro h
        have alone : under h [chunk] = h := under_of_plain (by simpa using chunk_plain)
        simpa using alone
      have chunk_text : blankChunk chunk = false := by simp [blankChunk, chunk_lines, nonblank]
      rw [line, chunks]
      by_cases flat : ∀ l ∈ written cs, opensTable l = false
      · have plain : ∀ c ∈ keptChunks true [] cs, ∀ h, c.statement ≠ .header h := fun c hc =>
          plain_of_flat lawful reads flat c (keptChunks_subset _ _ _ hc)
        have reads_all : ReadsEach p (keptChunks true [] cs ++ [chunk]) := by
          intro c hc
          rcases List.mem_append.mp hc with hc | hc
          · exact reads_kept c hc
          · rw [List.mem_singleton.mp hc]
            exact read_chunk
        refine ⟨popChunks (keptChunks true [] cs ++ [chunk]), keptChunks true [] cs, [], ?_, ?_,
          by simp, plain, ?_⟩
        · rw [editLines_flat ca flat, lines_kept, ← popBlank_written lawful reads_all]
          simp [chunk_lines]
        · exact fun c hc => reads_all c (popChunks_subset _ hc)
        · rw [(rows_popChunks lawful reads_all).1, rows_append, under_of_plain plain, rows_cons,
            chunk_text, chunk_under]
          simp [rows, placed]
      · have some_table : ∃ l ∈ written cs, opensTable l := by
          simpa using flat
        obtain ⟨pre, c, post, xs, table, ys, rfl, lines, flat, opens⟩ :=
          exists_first_table some_table
        have xs_out := first rfl pre c post xs table ys rfl lines flat opens
        have split := keptChunks_append true [] pre (c :: post)
        rw [List.nil_append] at split
        have top_kept : kept true [] (written pre ++ xs) = written (keptChunks true [] pre) := by
          rw [kept_append, List.nil_append, xs_out, List.append_nil, kept_written together.left]
        have whole : written (pre ++ c :: post) =
            (written pre ++ xs) ++ table :: (ys ++ written post) := by
          simp [lines]
        have tables_kept : kept true (written pre ++ xs) (table :: (ys ++ written post)) =
            written (keptChunks true (written pre) (c :: post)) := by
          rw [whole, kept_append, List.nil_append, top_kept, split, written_append] at lines_kept
          exact List.append_cancel_left lines_kept
        have reads_top : ReadsEach p (keptChunks true [] pre) := fun d hd =>
          reads_kept d (by rw [split]; exact List.mem_append_left _ hd)
        have reads_tables : ReadsEach p (keptChunks true (written pre) (c :: post)) := fun d hd =>
          reads_kept d (by rw [split]; exact List.mem_append_right _ hd)
        have plain : ∀ d ∈ keptChunks true [] pre, ∀ h, d.statement ≠ .header h := by
          intro d hd
          have flat_top : ∀ l ∈ written pre, opensTable l = false := fun l hl =>
            flat l (List.mem_append_left _ hl)
          exact plain_of_flat lawful
            (fun e he => reads e (List.mem_append_left _ he)) flat_top d
            (keptChunks_subset _ _ _ hd)
        have reads_all : ReadsEach p (popChunks (keptChunks true [] pre) ++
            [chunk, blankLineChunk] ++ keptChunks true (written pre) (c :: post)) := by
          intro d hd
          simp only [List.mem_append, List.mem_cons, List.not_mem_nil, or_false] at hd
          rcases hd with (hd | rfl | rfl) | hd
          · exact reads_top d (popChunks_subset _ hd)
          · exact read_chunk
          · exact read_blank lawful
          · exact reads_tables d hd
        have put : rows .root [chunk, blankLineChunk] = [(Header.root, chunk)] ∧
            under .root [chunk, blankLineChunk] = .root := by
          rw [rows_cons, rows_cons, under_cons, under_cons, chunk_text, chunk_under]
          exact ⟨rfl, rfl⟩
        have chunks_rows : [(Header.root, chunk)] = [chunk].map fun c => (Header.root, c) := rfl
        refine ⟨popChunks (popChunks (keptChunks true [] pre) ++ [chunk, blankLineChunk] ++
          keptChunks true (written pre) (c :: post)), keptChunks true [] pre,
          keptChunks true (written pre) (c :: post), ?_, ?_, split, plain, ?_⟩
        · rw [← popBlank_written lawful reads_all, whole, editLines_table ca flat opens, top_kept,
            tables_kept, popBlank_written lawful reads_top]
          simp [chunk_lines, blankLineChunk]
        · exact fun d hd => reads_all d (popChunks_subset _ hd)
        · rw [(rows_popChunks lawful reads_all).1, rows_append, rows_append, under_append,
            (rows_popChunks lawful reads_top).1, (rows_popChunks lawful reads_top).2,
            under_of_plain plain, put.1, put.2, chunks_rows]

/-! ## The statements that stay -/

omit lawful in
/-- Lines are left out exactly where their statements are about the engine, behind others. -/
def Agrees (named : Bool) (before : List (List Char)) (h : Header) (cs : List (Chunk V)) : Prop :=
  ∀ pre c post, cs = pre ++ c :: post → blankChunk c = false →
    ∀ xs l ys, c.lines = xs ++ l :: ys → leftOut named (before ++ written pre ++ xs) l =
      isAbout (replacedNames named) (under h (pre ++ [c]), c.statement)

omit lawful in
theorem Agrees.head {named : Bool} {before : List (List Char)} {h : Header} {c : Chunk V}
    {cs : List (Chunk V)} (agrees : Agrees named before h (c :: cs))
    (some_text : blankChunk c = false) : ∀ xs l ys, c.lines = xs ++ l :: ys →
      leftOut named (before ++ xs) l =
        isAbout (replacedNames named) (c.statement.under h, c.statement) := by
  intro xs l ys shape
  simpa using agrees [] c cs rfl some_text xs l ys shape

omit lawful in
theorem Agrees.tail {named : Bool} {before : List (List Char)} {h : Header} {c : Chunk V}
    {cs : List (Chunk V)} (agrees : Agrees named before h (c :: cs)) :
    Agrees named (before ++ c.lines) (c.statement.under h) cs := by
  intro pre d post shape some_text xs l ys lines
  simpa using agrees (c :: pre) d post (by rw [shape, List.cons_append]) some_text xs l ys lines

theorem Agrees.together {named : Bool} {before : List (List Char)} {h : Header}
    {cs : List (Chunk V)} (reads : ReadsEach p cs) (agrees : Agrees named before h cs) :
    Together named before cs := by
  rintro pre c post rfl xs l ys lines
  have read := reads c (by simp)
  by_cases blank : blankChunk c = true
  · obtain ⟨m, single, -⟩ := blankChunk_spec lawful read blank
    rw [single, List.cons_eq_append_iff] at lines
    rcases lines with ⟨rfl, lines⟩ | ⟨zs, -, lines⟩
    · simp [single, (List.cons.inj lines).1]
    · simp at lines
  · have some_text : blankChunk c = false := by simpa using blank
    have here := agrees pre c post rfl some_text
    cases shape : c.lines with
    | nil => simp [shape] at lines
    | cons m ms =>
        have first := here [] m ms (by simpa using shape)
        rw [here xs l ys lines]
        simpa using first.symm

/-- What is kept are the statements that are not about the engine. The headers in force may differ
only where all that follows is about it. -/
theorem rows_kept {named : Bool} {before : List (List Char)} {h h' : Header} {cs : List (Chunk V)}
    (reads : ReadsEach p cs) (agrees : Agrees named before h cs)
    (same : h' = h ∨ ∀ s : Statement V, isAbout (replacedNames named) (h, s)) :
    rows h' (keptChunks named before cs) = others (replacedNames named) (rows h cs) := by
  induction cs generalizing before h h' with
  | nil => rfl
  | cons c cs ih =>
      have read := reads c List.mem_cons_self
      have later : ReadsEach p cs := fun d hd => reads d (List.mem_cons_of_mem _ hd)
      have rest : ∀ {h'}, (h' = c.statement.under h ∨
          ∀ s : Statement V, isAbout (replacedNames named) (c.statement.under h, s)) →
            rows h' (keptChunks named (before ++ c.lines) cs) =
              others (replacedNames named) (rows (c.statement.under h) cs) :=
        ih later agrees.tail
      rw [rows_cons, keptChunks]
      by_cases blank : blankChunk c = true
      · obtain ⟨-, -, -, nothing⟩ := blankChunk_spec lawful read blank
        have unmoved : ∀ h, c.statement.under h = h := fun h => by rw [nothing]; rfl
        rw [unmoved] at rest ⊢
        rw [blank]
        split
        · exact rest same
        · rw [rows_cons, unmoved, blank]
          exact rest same
      · have some_text : blankChunk c = false := by simpa using blank
        have alike := agrees.head some_text
        have first : c.lines.head?.any (leftOut named before) =
            isAbout (replacedNames named) (c.statement.under h, c.statement) := by
          cases shape : c.lines with
          | nil => exact absurd shape (lines_ne_nil lawful read)
          | cons l ls => simpa using alike [] l ls (by simpa using shape)
        rw [first, some_text]
        by_cases goes : isAbout (replacedNames named) (c.statement.under h, c.statement) = true
        · have covered : h' = c.statement.under h ∨
              ∀ s : Statement V, isAbout (replacedNames named) (c.statement.under h, s) := by
            cases statement : c.statement with
            | header next =>
                right
                intro s
                rw [statement] at goes
                cases next with
                | root => simp [Statement.under, isAbout, topName, Header.path] at goes
                | table path => exact goes
                | element path => exact goes
            | nothing => simpa [statement, Statement.under] using same
            | pair key v => simpa [statement, Statement.under] using same
          rw [if_pos goes, rest covered]
          simp [others, goes]
        · have stays : isAbout (replacedNames named) (c.statement.under h, c.statement) = false := by
            simpa using goes
          have header : c.statement.under h' = c.statement.under h := by
            rcases same with rfl | covered
            · rfl
            · cases statement : c.statement with
              | header next => rfl
              | nothing | pair =>
                  rw [statement, Statement.under, covered] at stays
                  · cases stays
                  · simp
          rw [if_neg goes, rows_cons, some_text, header, rest (Or.inl rfl)]
          simp [others, stays]

/-! ## The edited text -/

theorem enginePairs_read (c : EngineChoice) :
    List.Forall₂ (fun l (e : String × V) => p.read [l] = some (.pair [e.1] e.2))
      (entryLines c) (enginePairs p c) := by
  have kind := read_quoted lawful "kind" ⟨by decide, by decide⟩ c.kind
    (show Toml.Trailing [] from ⟨Or.inl rfl, by simp⟩)
  have url := read_quoted lawful "url" ⟨by decide, by decide⟩ c.url
    (show Toml.Trailing [] from ⟨Or.inl rfl, by simp⟩)
  have key := read_quoted lawful "api_key" ⟨by decide, by decide⟩ (trim c.apiKey)
    (show Toml.Trailing "   # a secret: this file is readable by you only (0600)".toList from
      .of_text rfl (by decide) (by decide))
  have check := lawful.flagged "tls_verify".toList
    ("   # its certificate is NOT checked (you chose this in lss setup); " ++
      "tls_ca_file is the safer fix").toList false ⟨by decide, by decide⟩
    (.of_texts rfl rfl (by decide) (by decide))
  unfold entryLines enginePairs
  refine List.rel_append (List.rel_append ?_ ?_) ?_
  · refine .cons ?_ (.cons ?_ .nil)
    · simpa using kind
    · simpa using url
  · split
    · exact .nil
    · refine .cons ?_ .nil
      simpa using key
  · split
    · refine .cons ?_ .nil
      have word : (toString false).toList = "false".toList := by decide
      rw [word] at check
      simpa using check
    · exact .nil

/-- Lines that are read as keys are chunks that are not blank. -/
theorem exists_pair_chunks {ls : List (List Char)} {es : List (String × V)}
    (read : List.Forall₂ (fun l (e : String × V) => p.read [l] = some (.pair [e.1] e.2)) ls es) :
    ∃ ds : List (Chunk V), written ds = ls ∧ ReadsEach p ds ∧
      ∀ h, meaning (rows h ds) = es.map fun e => (h, .pair [e.1] e.2) := by
  induction read with
  | nil => exact ⟨[], rfl, by simp [ReadsEach], fun h => rfl⟩
  | @cons l e ls es first _ ih =>
      obtain ⟨ds, lines, reads, said⟩ := ih
      have some_text : blankChunk (⟨[l], .pair [e.1] e.2⟩ : Chunk V) = false := by
        rw [← Bool.not_eq_true]
        intro blank
        obtain ⟨-, -, -, nothing⟩ := blankChunk_spec lawful first blank
        cases nothing
      refine ⟨⟨[l], .pair [e.1] e.2⟩ :: ds, by simp [lines], ?_, fun h => ?_⟩
      · intro d hd
        rcases List.mem_cons.mp hd with rfl | hd
        · exact first
        · exact reads d hd
      · have rest := said h
        rw [rows_cons, some_text]
        simpa [meaning, Statement.under] using rest

/-- The block at the end, as statements. -/
theorem exists_appended (choice : Option EngineChoice) :
    ∃ ds : List (Chunk V), written ds = appended choice ∧ ReadsEach p ds ∧
      ∀ h, meaning (rows h ds) = chosen p choice := by
  cases choice with
  | none => exact ⟨[], rfl, by simp [ReadsEach], fun h => rfl⟩
  | some c =>
      obtain ⟨ds, lines, reads, said⟩ := exists_pair_chunks lawful (enginePairs_read lawful c)
      have header : p.read ["[[engine]]".toList] = some (.header (.element ["engine"])) := by
        have bare : Toml.Bare "engine".toList := ⟨by decide, by decide⟩
        exact lawful.line (.element ["engine".toList]) ⟨by simp, by simpa using bare⟩
      have some_text : blankChunk (⟨["[[engine]]".toList], .header (.element ["engine"])⟩ :
          Chunk V) = false := by
        change ["[[engine]]".toList].all blankLine = false
        decide
      refine ⟨blankLineChunk :: ⟨["[[engine]]".toList], .header (.element ["engine"])⟩ :: ds,
        by simp [lines, blankLineChunk, appended, engineLines], ?_, fun h => ?_⟩
      · intro d hd
        simp only [List.mem_cons] at hd
        rcases hd with rfl | rfl | hd
        · exact read_blank lawful
        · exact header
        · exact reads d hd
      · have blank : blankChunk (blankLineChunk : Chunk V) = true := rfl
        rw [rows_cons, rows_cons, blank, some_text]
        simpa [meaning, Statement.under, chosen] using said (.element ["engine"])

/-- The edited text is read as what stays at the top, the certificate file, what stays behind it,
and the block. -/
theorem edited (choice : Option EngineChoice) {existing : List Char} {cs : List (Chunk V)}
    (reads : Reads p.read (lines existing) cs) (together : Together (caFile choice).isSome [] cs)
    (first : (caFile choice).isSome → ∀ pre c post xs table ys, cs = pre ++ c :: post →
      c.lines = xs ++ table :: ys → (∀ l ∈ written pre ++ xs, opensTable l = false) →
        opensTable table → kept true (written pre) xs = []) :
    ∃ cs' k₁ k₂ block, Reads p.read (lines (replaceEngine existing choice)) cs' ∧
      keptChunks (caFile choice).isSome [] cs = k₁ ++ k₂ ∧
      (∀ c ∈ k₁, ∀ h, c.statement ≠ .header h) ∧
      rows .root cs' = rows .root k₁ ++
        (caChunks p choice).map (fun c => (Header.root, c)) ++ rows .root k₂ ++ block ∧
      meaning block = chosen p choice := by
  obtain ⟨es, k₁, k₂, es_lines, es_reads, split, plain, es_rows⟩ :=
    edit_chunks lawful choice reads.each together first
  obtain ⟨ds, ds_lines, ds_reads, said⟩ := exists_appended lawful choice
  have clean : ∀ l ∈ lines existing, OneLine l := by
    intro l hl
    rw [← reads.whole] at hl
    obtain ⟨c, hc, hl⟩ := List.mem_flatMap.mp hl
    exact lawful.clean _ _ (reads.each c hc) l hl
  -- a text without lines is written as a blank line
  obtain ⟨bs, bs_lines, bs_reads, bs_rows⟩ : ∃ bs : List (Chunk V), written bs = body (written es) ∧
      ReadsEach p bs ∧ rows .root bs = rows .root es := by
    cases es with
    | nil => exact ⟨[blankLineChunk], rfl, by simpa [ReadsEach, blankLineChunk] using read_blank lawful, rfl⟩
    | cons e es =>
        have some_lines : written (e :: es) ≠ [] := by
          have e_lines := lines_ne_nil lawful (es_reads e List.mem_cons_self)
          simp [e_lines]
        exact ⟨e :: es, by rw [body, if_neg some_lines], es_reads, rfl⟩
  refine ⟨bs ++ ds, k₁, k₂, rows (under .root bs) ds, ⟨?_, ?_⟩, split, plain, ?_, said _⟩
  · rw [lines_replaceEngine choice clean, written_append, bs_lines, ds_lines, es_lines, reads.whole]
  · intro c hc
    exact (List.mem_append.mp hc).elim (bs_reads c) (ds_reads c)
  · rw [rows_append, bs_rows, es_rows]

/-! ## What the edited document says -/

omit lawful in
theorem meaning_append (xs ys : List (Header × Chunk V)) :
    meaning (xs ++ ys) = meaning xs ++ meaning ys := List.map_append

omit lawful in
theorem about_append (names : List String) (xs ys : List (Header × Chunk V)) :
    about names (xs ++ ys) = about names xs ++ about names ys := List.filter_append _ _

omit lawful in
theorem others_append (names : List String) (xs ys : List (Header × Chunk V)) :
    others names (xs ++ ys) = others names xs ++ others names ys := List.filter_append _ _

omit lawful in
theorem isAbout_iff {names : List String} {d : Header × Statement V} :
    isAbout names d ↔ ∃ name ∈ names, topName d = some name := by
  unfold isAbout
  cases topName d <;> simp

omit lawful in
theorem isAbout_of_subset {names more : List String} (within : names ⊆ more)
    {d : Header × Statement V} (h : isAbout names d) : isAbout more d := by
  obtain ⟨name, mem, top⟩ := isAbout_iff.mp h
  exact isAbout_iff.mpr ⟨name, within mem, top⟩

omit lawful in
theorem engineNames_subset (named : Bool) : engineNames ⊆ replacedNames named :=
  List.subset_append_left _ _

omit lawful in
/-- Of statements none of which is about some names, none is about fewer. -/
theorem about_eq_nil {names more : List String} (within : names ⊆ more)
    {ds : List (Header × Chunk V)} (none_of : ∀ d ∈ ds, isAbout more (d.1, d.2.statement) = false) :
    about names ds = [] := by
  refine List.filter_eq_nil_iff.mpr fun d hd fits => ?_
  have fits_more := isAbout_of_subset within fits
  rw [none_of d hd] at fits_more
  cases fits_more

omit lawful in
theorem chosen_header (choice : Option EngineChoice) :
    ∀ d ∈ chosen p choice, d.1 = .element ["engine"] := by
  cases choice with
  | none => simp [chosen]
  | some c =>
      intro d hd
      rcases List.mem_cons.mp hd with rfl | hd
      · rfl
      · obtain ⟨e, -, rfl⟩ := List.mem_map.mp hd
        rfl

omit lawful in
theorem chosen_something (choice : Option EngineChoice) :
    ∀ d ∈ chosen p choice, d.2.isNothing = false := by
  cases choice with
  | none => simp [chosen]
  | some c =>
      intro d hd
      rcases List.mem_cons.mp hd with rfl | hd
      · rfl
      · obtain ⟨e, -, rfl⟩ := List.mem_map.mp hd
        rfl

omit lawful in
theorem isAbout_engine (names : List String) (s : Statement V) :
    isAbout names (.element ["engine"], s) = names.contains "engine" := rfl

omit lawful in
theorem isAbout_ca (names : List String) (v : V) :
    isAbout names (.root, .pair ["tls_ca_file"] v) = names.contains "tls_ca_file" := rfl

omit lawful in
theorem isAbout_block {choice : Option EngineChoice} {block : List (Header × Chunk V)}
    (said : meaning block = chosen p choice) (names : List String) :
    ∀ d ∈ block, isAbout names (d.1, d.2.statement) = names.contains "engine" := by
  intro d hd
  have mem : (d.1, d.2.statement) ∈ chosen p choice := by
    rw [← said]
    exact List.mem_map.mpr ⟨d, hd, rfl⟩
  rw [show d.1 = .element ["engine"] from chosen_header choice _ mem, isAbout_engine]

omit lawful in
theorem isAbout_caChunks (choice : Option EngineChoice) (names : List String) :
    ∀ d ∈ (caChunks p choice).map fun c => (Header.root, c),
      isAbout names (d.1, d.2.statement) = names.contains "tls_ca_file" := by
  intro d hd
  obtain ⟨c, hc, rfl⟩ := List.mem_map.mp hd
  obtain ⟨path, -, rfl⟩ := List.mem_map.mp hc
  exact isAbout_ca names _

omit lawful in
/-- What an edited document says of the engine: what stayed of it, and the block. -/
theorem about_engine {choice : Option EngineChoice} {top tables block : List (Header × Chunk V)}
    (said : meaning block = chosen p choice) :
    about engineNames (top ++ (caChunks p choice).map (fun c => (Header.root, c)) ++ tables ++
      block) = about engineNames top ++ about engineNames tables ++ block := by
  have ca_none : about engineNames ((caChunks p choice).map fun c => (Header.root, c)) = [] :=
    List.filter_eq_nil_iff.mpr fun d hd => by
      rw [isAbout_caChunks choice engineNames d hd]
      decide
  have block_all : about engineNames block = block := List.filter_eq_self.mpr fun d hd => by
    rw [isAbout_block said engineNames d hd]
    decide
  rw [about_append, about_append, about_append, ca_none, block_all, List.append_nil]

omit lawful in
/-- What it says of the certificate file. -/
theorem about_file {choice : Option EngineChoice} {top tables block : List (Header × Chunk V)}
    (said : meaning block = chosen p choice) :
    about ["tls_ca_file"] (top ++ (caChunks p choice).map (fun c => (Header.root, c)) ++ tables ++
      block) = about ["tls_ca_file"] top ++
        (caChunks p choice).map (fun c => (Header.root, c)) ++ about ["tls_ca_file"] tables := by
  have ca_all : about ["tls_ca_file"] ((caChunks p choice).map fun c => (Header.root, c)) =
      (caChunks p choice).map fun c => (Header.root, c) :=
    List.filter_eq_self.mpr fun d hd => by
      rw [isAbout_caChunks choice _ d hd]
      decide
  have block_none : about ["tls_ca_file"] block = [] :=
    List.filter_eq_nil_iff.mpr fun d hd => by
      rw [isAbout_block said _ d hd]
      decide
  rw [about_append, about_append, about_append, ca_all, block_none, List.append_nil]

omit lawful in
/-- The rows at the top, without a header among them. -/
theorem rows_plain {ks : List (Chunk V)} (plain : ∀ c ∈ ks, ∀ h, c.statement ≠ .header h) :
    ∀ d ∈ rows .root ks, d.1 = .root := by
  induction ks with
  | nil => simp [rows, placed]
  | cons k ks ih =>
      have here : k.statement.under .root = .root := by
        cases statement : k.statement with
        | header h => exact absurd statement (plain k List.mem_cons_self h)
        | nothing | pair => rfl
      have rest := ih fun c hc => plain c (List.mem_cons_of_mem _ hc)
      intro d hd
      rw [rows_cons, here] at hd
      rcases List.mem_append.mp hd with hd | hd
      · split at hd
        · cases hd
        · rw [List.mem_singleton.mp hd]
      · exact rest d hd

omit lawful in
theorem meaning_others (names : List String) (ds : List (Header × Chunk V)) :
    meaning (others names ds) = (meaning ds).filter fun d => !isAbout names d := by
  unfold meaning others
  rw [List.filter_map]
  rfl

/-- Blank lines count for nothing. -/
theorem meaning_rows {h : Header} {cs : List (Chunk V)} (reads : ReadsEach p cs) :
    (meaning (rows h cs)).filter (fun d => !d.2.isNothing) =
      (meaning (placed h cs)).filter fun d => !d.2.isNothing := by
  induction cs generalizing h with
  | nil => rfl
  | cons c cs ih =>
      have rest := ih (h := c.statement.under h) fun d hd => reads d (List.mem_cons_of_mem _ hd)
      rw [rows_cons, placed, meaning_append, List.filter_append, rest]
      by_cases blank : blankChunk c = true
      · obtain ⟨-, -, -, nothing⟩ := blankChunk_spec lawful (reads c List.mem_cons_self) blank
        simp [blank, meaning, nothing, Statement.isNothing]
      · simp [blank, meaning, List.filter_cons]
        split <;> rfl

theorem accepts_without (names : List String) {ds : List (Header × Statement V)}
    (accepted : p.accepts ds) : p.accepts (ds.filter fun d => !isAbout names d) := by
  induction names with
  | nil =>
      have all : ds.filter (fun d => !isAbout [] d) = ds :=
        List.filter_eq_self.mpr fun d _ => by
          rw [Bool.not_eq_true', ← Bool.not_eq_true, isAbout_iff]
          simp
      rw [all]
      exact accepted
  | cons name names ih =>
      have less := lawful.without _ name ih
      rw [List.filter_filter] at less
      have same : (fun d : Header × Statement V =>
          decide (topName d ≠ some name) && !isAbout names d) =
            fun d => !isAbout (name :: names) d := by
        funext d
        unfold isAbout
        cases topName d with
        | none => rfl
        | some top => by_cases top_name : top = name <;> simp [top_name]
      rw [same] at less
      exact less

omit lawful in
theorem enginePairs_nodup (c : EngineChoice) : ((enginePairs p c).map Prod.fst).Nodup := by
  unfold enginePairs
  split <;> split <;> simp

/-- A document that stays one without what is replaced is one again with what is put there. -/
theorem accepts_edited (choice : Option EngineChoice) {top tables : List (Header × Statement V)}
    (accepted : p.accepts (top ++ tables)) (top_root : ∀ d ∈ top, d.1 = .root)
    (free : ∀ d ∈ top ++ tables, isAbout (replacedNames (caFile choice).isSome) d = false) :
    p.accepts (top ++ (caChunks p choice).map (fun c => (Header.root, c.statement)) ++ tables ++
      chosen p choice) := by
  have free_of : ∀ name ∈ replacedNames (caFile choice).isSome, ∀ d ∈ top ++ tables,
      topName d ≠ some name := by
    intro name mem d hd named
    have fits := isAbout_iff.mpr ⟨name, mem, named⟩
    rw [free d hd] at fits
    cases fits
  have engine_name : "engine" ∈ replacedNames (caFile choice).isSome := by
    simp [replacedNames, engineNames]
  have with_file : p.accepts (top ++
      (caChunks p choice).map (fun c => (Header.root, c.statement)) ++ tables) := by
    cases file : caFile choice with
    | none => simpa [caChunks, file] using accepted
    | some path =>
        have ca_name : "tls_ca_file" ∈ replacedNames (caFile choice).isSome := by
          simp [replacedNames, file]
        have put := lawful.withKey top tables "tls_ca_file" (p.value (.str path)) accepted top_root
          (free_of _ ca_name)
        simpa [caChunks, file] using put
  have engine_free : ∀ d ∈ top ++ (caChunks p choice).map (fun c => (Header.root, c.statement)) ++
      tables, topName d ≠ some "engine" := by
    intro d hd
    simp only [List.mem_append, List.mem_map] at hd
    rcases hd with (hd | ⟨c, hc, rfl⟩) | hd
    · exact free_of _ engine_name d (List.mem_append_left _ hd)
    · obtain ⟨path, -, rfl⟩ := List.mem_map.mp hc
      simp [topName]
    · exact free_of _ engine_name d (List.mem_append_right _ hd)
  cases choice with
  | none => simpa [chosen] using with_file
  | some c => exact lawful.withElement _ _ _ with_file engine_free (enginePairs_nodup c)

/-- Where a document is written as the edit expects, only the engine of it is replaced. -/
theorem replaces_of_legible (choice : Option EngineChoice) {existing : List Char}
    {cs : List (Chunk V)} (reads : Reads p.read (lines existing) cs)
    (accepted : p.accepts (meaning (placed .root cs)))
    (legible : Legible (caFile choice).isSome cs) : Replaces p choice existing cs := by
  have agrees : Agrees (caFile choice).isSome [] .root cs := fun pre c post shape some_text =>
    by simpa using legible.agrees pre c post shape some_text
  have together := agrees.together lawful reads.each
  have first : (caFile choice).isSome → ∀ pre c post xs table ys, cs = pre ++ c :: post →
      c.lines = xs ++ table :: ys → (∀ l ∈ written pre ++ xs, opensTable l = false) →
        opensTable table → kept true (written pre) xs = [] := by
    intro named pre c post xs table ys shape lines flat opens
    have flat_pre : ∀ l ∈ written pre, opensTable l = false := fun l hl =>
      flat l (List.mem_append_left _ hl)
    rcases legible.opens named pre c post shape flat_pre ⟨table, by simp [lines], opens⟩ with
      ⟨h, header⟩ | goes
    · have read := reads.each c (by simp [shape])
      rw [header] at read
      obtain ⟨l, single, -⟩ := lawful.header _ _ read
      rw [single, List.cons_eq_append_iff] at lines
      rcases lines with ⟨rfl, -⟩ | ⟨zs, -, lines⟩
      · rfl
      · simp at lines
    · have some_text : blankChunk c = false := by
        rw [← Bool.not_eq_true]
        intro blank
        have table_blank : blankLine table = true :=
          List.all_eq_true.mp blank table (by simp [lines])
        have empty : bareLine table = [] := of_decide_eq_true table_blank
        simp [opensTable, empty] at opens
      have out : ∀ ms l ns, xs = ms ++ l :: ns → leftOut true (written pre ++ ms) l = true := by
        intro ms l ns shape'
        have here := legible.agrees pre c post shape some_text ms l (ns ++ table :: ys)
          (by rw [lines, shape', List.append_assoc, List.cons_append])
        rw [named] at here goes
        rw [here, goes]
      simpa using kept_of_alike out
  obtain ⟨cs', k₁, k₂, block, reads', split, plain, cs'_rows, said⟩ :=
    edited lawful choice reads together first
  have stays : rows .root k₁ ++ rows .root k₂ =
      others (replacedNames (caFile choice).isSome) (rows .root cs) := by
    rw [← rows_kept lawful reads.each agrees (Or.inl rfl), split, rows_append, under_of_plain plain]
  have free : ∀ d ∈ rows .root k₁ ++ rows .root k₂,
      isAbout (replacedNames (caFile choice).isSome) (d.1, d.2.statement) = false := by
    intro d hd
    rw [stays] at hd
    simpa using (List.mem_filter.mp hd).2
  have free₁ := fun d hd => free d (List.mem_append_left _ hd)
  have free₂ := fun d hd => free d (List.mem_append_right _ hd)
  have within : ∀ path ∈ caFile choice,
      ["tls_ca_file"] ⊆ replacedNames (caFile choice).isSome := by
    intro path file
    have file : caFile choice = some path := file
    simp [replacedNames, file]
  refine ⟨cs', reads', ?_, ?_, ?_, ?_, ?_⟩
  · rw [lawful.noted, ← meaning_rows lawful reads'.each, cs'_rows]
    have left := accepts_without lawful (replacedNames (caFile choice).isSome)
      ((lawful.noted _).mp accepted)
    rw [← meaning_rows lawful reads.each, List.filter_comm, ← meaning_others, ← stays,
      meaning_append, List.filter_append] at left
    have put := accepts_edited lawful choice left ?_ ?_
    · have ca_all : ((meaning ((caChunks p choice).map fun c => (Header.root, c))).filter
          fun d => !d.2.isNothing) =
            (caChunks p choice).map fun c => (Header.root, c.statement) := by
        unfold caChunks meaning
        cases caFile choice <;> simp [Statement.isNothing]
      have block_all : ((meaning block).filter fun d => !d.2.isNothing) = chosen p choice := by
        rw [said]
        exact List.filter_eq_self.mpr fun d hd => by simp [chosen_something choice d hd]
      simpa [meaning_append, ca_all, block_all] using put
    · intro d hd
      obtain ⟨r, hr, rfl⟩ := List.mem_map.mp (List.mem_filter.mp hd).1
      exact rows_plain plain r hr
    · intro d hd
      rw [← List.filter_append, ← meaning_append] at hd
      obtain ⟨r, hr, rfl⟩ := List.mem_map.mp (List.mem_filter.mp hd).1
      exact free r hr
  · rw [cs'_rows, about_engine said, about_eq_nil (engineNames_subset _) free₁,
      about_eq_nil (engineNames_subset _) free₂]
    simpa using said
  · intro path file
    rw [cs'_rows, about_file said, about_eq_nil (within path file) free₁,
      about_eq_nil (within path file) free₂]
    have file : caFile choice = some path := file
    simp [caChunks, file, meaning]
  · have ca_none : others (replacedNames (caFile choice).isSome)
        ((caChunks p choice).map fun c => (Header.root, c)) = [] :=
      List.filter_eq_nil_iff.mpr fun d hd => by
        rw [isAbout_caChunks choice _ d hd]
        obtain ⟨c, hc, -⟩ := List.mem_map.mp hd
        obtain ⟨path, file, -⟩ := List.mem_map.mp hc
        have file : caFile choice = some path := by simpa using file
        simp [replacedNames, file]
    have block_none : others (replacedNames (caFile choice).isSome) block = [] :=
      List.filter_eq_nil_iff.mpr fun d hd => by
        rw [isAbout_block said _ d hd]
        simp [replacedNames, engineNames]
    have stay_all : others (replacedNames (caFile choice).isSome)
        (rows .root k₁ ++ rows .root k₂) = rows .root k₁ ++ rows .root k₂ :=
      List.filter_eq_self.mpr fun d hd => by simp [free d hd]
    rw [cs'_rows, others_append, others_append, others_append, ca_none, block_none,
      List.append_nil, List.append_nil, ← others_append, stay_all, stays]
  · have clean : ∀ l ∈ lines existing, OneLine l := by
      intro l hl
      rw [← reads.whole] at hl
      obtain ⟨c, hc, hl⟩ := List.mem_flatMap.mp hl
      exact lawful.clean _ _ (reads.each c hc) l hl
    rw [replaceEngine_again choice clean]
    intro line flat
    have named : (caFile choice).isSome := by
      unfold caLine at line
      cases file : caFile choice with
      | none => simp [file] at line
      | some path => rfl
    rw [← reads.whole] at flat ⊢
    have last := legible.ends named flat
    rw [named] at last
    rw [popBlank_eq_self, kept_flat (by simpa using flat)]
    exact last

/-! ## Documents of one line a statement -/

theorem engine_of_names {l : List Char} {h : Header} (read : p.read [l] = some (.header h))
    (names : namesEngine l) : h = .element ["engine"] := by
  unfold namesEngine at names
  rw [Bool.or_eq_true, decide_eq_true_eq, decide_eq_true_eq] at names
  rcases names with ⟨rest, text⟩ | text
  · have bracket := lawful.brackets l h read
    change (((bareLine l).dropWhile _).dropWhile _).head? ≠ _ at bracket
    rw [← text] at bracket
    exact absurd (by simp) bracket
  · exact lawful.element l h "engine".toList read ⟨by decide, by decide⟩ text

theorem about_of_gives {named : Bool} {l : List Char} {s : Statement V}
    (read : p.read [l] = some s) (gives : givesEngine named l) :
    isAbout (replacedNames named) (Header.root, s) := by
  unfold givesEngine at gives
  rw [Bool.and_eq_true] at gives
  obtain ⟨name, equals⟩ := gives
  obtain ⟨key, mem, same⟩ : ∃ key ∈ replacedNames named, keyOf l = key.toList ∧
      Toml.Bare key.toList := by
    rw [Bool.or_eq_true, List.contains_iff_mem] at name
    rcases name with name | name
    · obtain ⟨key, mem, same⟩ := List.mem_map.mp name
      have bare : ∀ key ∈ engineKeys, Toml.Bare key.toList := by
        intro key mem
        simp only [engineKeys, List.mem_cons, List.not_mem_nil, or_false] at mem
        rcases mem with rfl | rfl | rfl <;> exact ⟨by decide, by decide⟩
      exact ⟨key, by simp [replacedNames, engineNames, mem], same.symm, bare key mem⟩
    · rw [Bool.and_eq_true, decide_eq_true_eq] at name
      exact ⟨"tls_ca_file", by simp [replacedNames, name.2], name.1, by decide, by decide⟩
  obtain ⟨text, bare⟩ := same
  have bare_key : Toml.Bare (keyOf l) := text ▸ bare
  obtain ⟨more, v, rfl⟩ := lawful.key l s read bare_key (List.contains_iff_mem.mp equals)
  refine isAbout_iff.mpr ⟨key, mem, ?_⟩
  change some (String.ofList (keyOf l)) = some key
  rw [text, String.ofList_toList]

theorem opensTable_iff_header {l : List Char} {s : Statement V} (read : p.read [l] = some s) :
    opensTable l ↔ ∃ h, s = .header h := by
  constructor
  · intro opens
    exact lawful.bracket l s read (of_decide_eq_true opens)
  · rintro ⟨h, rfl⟩
    obtain ⟨m, single, bracket⟩ := lawful.header _ _ read
    rw [(List.cons.inj single).1]
    exact decide_eq_true bracket

omit lawful in
/-- The last line that begins with a bracket is the header in force. -/
def Knows (p : Parser V) (before : List (List Char)) (h : Header) : Prop :=
  match lastTable before with
  | none => h = .root
  | some table => p.read [table] = some (.header h)

theorem Knows.concat {before : List (List Char)} {h : Header} {l : List Char} {s : Statement V}
    (knows : Knows p before h) (read : p.read [l] = some s) :
    Knows p (before ++ [l]) (s.under h) := by
  have header := opensTable_iff_header lawful read
  unfold Knows at knows ⊢
  rw [lastTable_concat]
  by_cases opens : opensTable l = true
  · obtain ⟨next, rfl⟩ := header.mp opens
    rw [if_pos opens]
    exact read
  · have unmoved : s.under h = h := by
      cases s with
      | header next => exact absurd (header.mpr ⟨next, rfl⟩) opens
      | nothing | pair => rfl
    rw [if_neg opens, unmoved]
    exact knows

/-- A line that is left out is about the engine. -/
theorem about_of_leftOut {named : Bool} {before : List (List Char)} {h : Header} {l : List Char}
    {s : Statement V} (knows : Knows p before h) (read : p.read [l] = some s)
    (out : leftOut named before l) : isAbout (replacedNames named) (s.under h, s) := by
  have known := knows.concat lawful read
  have engine : "engine" ∈ replacedNames named := by simp [replacedNames, engineNames]
  unfold Knows at known
  unfold leftOut at out
  cases last : lastTable (before ++ [l]) with
  | none =>
      rw [last] at known out
      have root : s.under h = .root := known
      rw [root]
      exact about_of_gives lawful read out
  | some table =>
      rw [last] at known out
      have header : s.under h = .element ["engine"] := engine_of_names lawful known out
      rw [header, isAbout_engine]
      exact List.contains_iff_mem.mpr engine

omit lawful in
theorem Agrees.cons {named : Bool} {before : List (List Char)} {h : Header} {c : Chunk V}
    {cs : List (Chunk V)}
    (head : blankChunk c = false → ∀ xs l ys, c.lines = xs ++ l :: ys →
      leftOut named (before ++ xs) l =
        isAbout (replacedNames named) (c.statement.under h, c.statement))
    (tail : Agrees named (before ++ c.lines) (c.statement.under h) cs) :
    Agrees named before h (c :: cs) := by
  intro pre d post shape some_text xs l ys lines
  cases pre with
  | nil =>
      obtain ⟨rfl, rfl⟩ := List.cons.inj shape
      simpa using head some_text xs l ys lines
  | cons e pre =>
      obtain ⟨rfl, rfl⟩ := List.cons.inj shape
      simpa using tail pre d post rfl some_text xs l ys lines

/-- Where nothing that is kept is about the engine, every line is left out where its statement
is. -/
theorem agrees_of_kept {named : Bool} {before : List (List Char)} {h h' : Header}
    {cs : List (Chunk V)} (reads : ReadsEach p cs) (single : ∀ c ∈ cs, ∃ l, c.lines = [l])
    (knows : Knows p before h)
    (same : h' = h ∨ ∃ table, lastTable before = some table ∧ namesEngine table)
    (free : ∀ d ∈ rows h' (keptChunks named before cs),
      isAbout (replacedNames named) (d.1, d.2.statement) = false) :
    Agrees named before h cs := by
  induction cs generalizing before h h' with
  | nil =>
      intro pre c post shape
      simp at shape
  | cons c cs ih =>
      obtain ⟨l, lines⟩ := single c List.mem_cons_self
      have read := reads c List.mem_cons_self
      rw [lines] at read
      have later : ReadsEach p cs := fun d hd => reads d (List.mem_cons_of_mem _ hd)
      have later_single := fun d hd => single d (List.mem_cons_of_mem _ hd)
      have header := opensTable_iff_header lawful read
      have next := lastTable_concat before l
      have knows' := knows.concat lawful read
      rw [keptChunks, lines] at free
      by_cases out : leftOut named before l = true
      · have goes := about_of_leftOut lawful knows read out
        rw [List.head?_cons, Option.any_some, if_pos out] at free
        have same' : h' = c.statement.under h ∨
            ∃ table, lastTable (before ++ [l]) = some table ∧ namesEngine table := by
          by_cases opens : opensTable l = true
          · rw [if_pos opens] at next
            unfold leftOut at out
            rw [next] at out
            exact Or.inr ⟨l, next, out⟩
          · rw [if_neg opens] at next
            cases statement : c.statement with
            | header n => exact absurd (header.mpr ⟨n, statement⟩) opens
            | nothing | pair => rwa [next]
        refine .cons ?_ ?_
        · intro _ xs m ys shape
          rw [lines, List.cons_eq_append_iff] at shape
          rcases shape with ⟨rfl, shape⟩ | ⟨zs, -, shape⟩
          · rw [List.append_nil, (List.cons.inj shape).1, out, goes]
          · simp at shape
        · rw [lines]
          exact ih later later_single knows' same' free
      · have stays : leftOut named before l = false := by simpa using out
        rw [List.head?_cons, Option.any_some, if_neg out, rows_cons] at free
        have same' : c.statement.under h' = c.statement.under h := by
          cases statement : c.statement with
          | header n => rfl
          | nothing | pair =>
              rcases same with rfl | ⟨table, last, names⟩
              · rfl
              · have plain : ¬opensTable l = true := fun opens => by
                  obtain ⟨n, is_header⟩ := header.mp opens
                  rw [statement] at is_header
                  cases is_header
                rw [if_neg plain, last] at next
                unfold leftOut at stays
                rw [next] at stays
                have stays : namesEngine table = false := stays
                rw [names] at stays
                cases stays
        refine .cons ?_ ?_
        · intro some_text xs m ys shape
          have row := free (c.statement.under h', c) (List.mem_append_left _ (by simp [some_text]))
          rw [lines, List.cons_eq_append_iff] at shape
          rcases shape with ⟨rfl, shape⟩ | ⟨zs, -, shape⟩
          · rw [List.append_nil, (List.cons.inj shape).1, stays, ← row, same']
          · simp at shape
        · rw [lines]
          exact ih later later_single knows' (Or.inl same')
            fun d hd => free d (List.mem_append_right _ hd)

/-- Where every statement is one line, only the engine is replaced only if the document is written
as the edit expects. -/
theorem legible_of_replaces (choice : Option EngineChoice) {existing : List Char}
    {cs : List (Chunk V)} (reads : Reads p.read (lines existing) cs)
    (single : ∀ c ∈ cs, ∃ l, c.lines = [l]) (replaces : Replaces p choice existing cs) :
    Legible (caFile choice).isSome cs := by
  have alone : ∀ c ∈ cs, ∀ xs l ys, c.lines = xs ++ l :: ys → xs = [] ∧ c.lines = [l] := by
    intro c hc xs l ys lines
    obtain ⟨m, shape⟩ := single c hc
    rw [shape, List.cons_eq_append_iff] at lines
    rcases lines with ⟨rfl, lines⟩ | ⟨zs, -, lines⟩
    · rw [shape, (List.cons.inj lines).1]
      exact ⟨rfl, rfl⟩
    · simp at lines
  have together : Together (caFile choice).isSome [] cs := by
    rintro pre c post rfl xs l ys lines
    obtain ⟨rfl, shape⟩ := alone c (by simp) xs l ys lines
    simp [shape]
  obtain ⟨cs', k₁, k₂, block, reads', split, plain, cs'_rows, said⟩ :=
    edited lawful choice reads together fun _ pre c post xs table ys shape lines _ _ => by
      obtain ⟨rfl, -⟩ := alone c (by simp [shape]) xs table ys lines
      rfl
  obtain ⟨ds, reads_ds, -, engine, file, -, again⟩ := replaces
  obtain rfl := reads_ds.unique lawful.started lawful.ends reads'
  have clean : ∀ l ∈ lines existing, OneLine l := by
    intro l hl
    rw [← reads.whole] at hl
    obtain ⟨c, hc, hl⟩ := List.mem_flatMap.mp hl
    exact lawful.clean _ _ (reads.each c hc) l hl
  rw [cs'_rows, about_engine said, meaning_append, said, List.append_left_eq_self] at engine
  have engine_none : about engineNames (rows .root k₁ ++ rows .root k₂) = [] := by
    rw [about_append]
    exact List.map_eq_nil_iff.mp engine
  have file_none : (caFile choice).isSome →
      about ["tls_ca_file"] (rows .root k₁ ++ rows .root k₂) = [] := by
    intro named
    obtain ⟨path, named⟩ := Option.isSome_iff_exists.mp named
    have one := congrArg List.length (file path named)
    rw [cs'_rows, about_file said] at one
    simp only [meaning, caChunks, named, List.length_map, List.length_append,
      Option.toList_some, List.length_singleton] at one
    rw [about_append]
    exact List.eq_nil_of_length_eq_zero (by rw [List.length_append]; omega)
  have free : ∀ d ∈ rows .root (keptChunks (caFile choice).isSome [] cs),
      isAbout (replacedNames (caFile choice).isSome) (d.1, d.2.statement) = false := by
    intro d hd
    rw [split, rows_append, under_of_plain plain] at hd
    rw [← Bool.not_eq_true, isAbout_iff]
    rintro ⟨name, mem, top⟩
    rcases List.mem_append.mp mem with mem | mem
    · exact List.filter_eq_nil_iff.mp engine_none d hd (isAbout_iff.mpr ⟨name, mem, top⟩)
    · by_cases named : (caFile choice).isSome = true
      · rw [if_pos named] at mem
        exact List.filter_eq_nil_iff.mp (file_none named) d hd (isAbout_iff.mpr ⟨name, mem, top⟩)
      · rw [if_neg named] at mem
        cases mem
  refine ⟨?_, ?_, ?_⟩
  · have start : Knows p [] .root := rfl
    have agrees := agrees_of_kept lawful reads.each single start (Or.inl rfl) free
    intro pre c post shape some_text
    simpa using agrees pre c post shape some_text
  · intro _ pre c post shape _ ⟨l, hl, opens⟩
    obtain ⟨m, lines⟩ := single c (by simp [shape])
    have read := reads.each c (by simp [shape])
    rw [lines, List.mem_singleton] at hl
    rw [lines, ← hl] at read
    exact Or.inl ((opensTable_iff_header lawful read).mp opens)
  · intro named flat
    have line : caLine choice ≠ none := by
      unfold caLine
      cases file : caFile choice with
      | none => simp [file] at named
      | some path => simp
    have whole := (replaceEngine_again choice clean).mp again line
    rw [← reads.whole] at whole
    have last := whole flat
    rw [popBlank_eq_self, kept_flat (by simpa using flat)] at last
    rw [named]
    exact last

end Lawful

/-- Running setup again replaces the engine and nothing else where the document is written as the
edit expects it; where every statement is one line, only there. -/
theorem only_engine_replaced (p : Parser V) (lawful : p.Lawful isBlank)
    (choice : Option EngineChoice) {existing : List Char} {cs : List (Chunk V)}
    (reads : Reads p.read (lines existing) cs) (accepted : p.accepts (meaning (placed .root cs))) :
    (Legible (caFile choice).isSome cs → Replaces p choice existing cs) ∧
      ((∀ c ∈ cs, ∃ l, c.lines = [l]) → Replaces p choice existing cs →
        Legible (caFile choice).isSome cs) :=
  ⟨replaces_of_legible lawful choice reads accepted,
    fun single => legible_of_replaces lawful choice reads single⟩

/-! ## Plain documents -/

theorem isBlank_visible (c : Char) (h : Toml.bare c ∨ c ∈ ['[', ']', '#', '=', '.']) :
    isBlank c = false := by
  rcases h with h | h
  · simp only [Toml.bare, Bool.or_eq_true, decide_eq_true_eq] at h
    rcases h with (alphanum | rfl) | rfl
    · exact isBlank_alphanum alphanum
    · decide
    · decide
  · simp only [List.mem_cons, List.not_mem_nil, or_false] at h
    rcases h with rfl | rfl | rfl | rfl | rfl <;> decide

theorem plain_isBlank : plain.Lawful isBlank := plain_lawful isBlank_visible

/-- A box by its address. -/
def box : EngineChoice := ⟨"auto", "http://127.0.0.1:8000", "", none, ""⟩

/-- A file with an address and an engine, as setup writes it. -/
def oneBlock : List Char :=
  "listen = \"127.0.0.1:8099\"\n\n[[engine]]\nkind = \"sglang\"\n".toList

def oneBlockChunks : List (Chunk (Toml.Data ⊕ Bool)) :=
  [⟨["listen = \"127.0.0.1:8099\"".toList], .pair ["listen"] (.inl (.str "127.0.0.1:8099"))⟩,
    blankLineChunk,
    ⟨["[[engine]]".toList], .header (.element ["engine"])⟩,
    ⟨["kind = \"sglang\"".toList], .pair ["kind"] (.inl (.str "sglang"))⟩]

/-- The same engine with a comment behind its header. -/
def commented : List Char := "[[engine]] # the old box\nkind = \"sglang\"\n".toList

def commentedChunks : List (Chunk (Toml.Data ⊕ Bool)) :=
  [⟨["[[engine]] # the old box".toList], .header (.element ["engine"])⟩,
    ⟨["kind = \"sglang\"".toList], .pair ["kind"] (.inl (.str "sglang"))⟩]

theorem oneBlock_reads : Reads plain.read (lines oneBlock) oneBlockChunks := by
  refine ⟨by decide, ?_⟩
  unfold oneBlockChunks
  simp only [List.mem_cons, List.not_mem_nil, or_false, forall_eq_or_imp, forall_eq]
  decide +kernel

theorem commented_reads : Reads plain.read (lines commented) commentedChunks := by
  refine ⟨by decide, ?_⟩
  unfold commentedChunks
  simp only [List.mem_cons, List.not_mem_nil, or_false, forall_eq_or_imp, forall_eq]
  decide +kernel

theorem oneBlock_accepted : plain.accepts (meaning (placed .root oneBlockChunks)) := by
  constructor
  · decide +kernel
  · intro path mem
    have names : (meaning (placed .root oneBlockChunks)).filterMap defines = [["listen"]] := by
      decide +kernel
    rw [names]
    simp [meaning, placed, oneBlockChunks, blankLineChunk, Statement.under] at mem
    simp [mem]

theorem commented_accepted : plain.accepts (meaning (placed .root commentedChunks)) := by
  constructor
  · decide +kernel
  · intro path _
    have names : (meaning (placed .root commentedChunks)).filterMap defines = [] := by
      decide +kernel
    rw [names]
    simp

theorem oneBlock_legible : Legible (caFile (some box)).isSome oneBlockChunks := by
  have unnamed : (caFile (some box)).isSome = false := by decide +kernel
  have single : ∀ c ∈ oneBlockChunks, ∃ l, c.lines = [l] := by
    intro c hc
    simp only [oneBlockChunks, List.mem_cons, List.not_mem_nil, or_false] at hc
    rcases hc with rfl | rfl | rfl | rfl <;> exact ⟨_, rfl⟩
  have start : Knows plain [] .root := rfl
  have free : ∀ d ∈ rows .root (keptChunks false [] oneBlockChunks),
      isAbout (replacedNames false) (d.1, d.2.statement) = false := by
    decide +kernel
  have agrees := agrees_of_kept plain_isBlank oneBlock_reads.each single start (Or.inl rfl) free
  rw [unnamed]
  refine ⟨fun pre c post shape some_text => ?_, ?_, ?_⟩
  · simpa using agrees pre c post shape some_text
  · simp
  · simp

/-- The engine that setup wrote is replaced. -/
theorem oneBlock_replaced : Replaces plain (some box) oneBlock oneBlockChunks :=
  (only_engine_replaced plain plain_isBlank (some box) oneBlock_reads oneBlock_accepted).1
    oneBlock_legible

/-- A comment behind the header keeps the old engine in the file, in front of the chosen one. -/
theorem commented_header_stays : plain.Lawful isBlank ∧
    Reads plain.read (lines commented) commentedChunks ∧
      plain.accepts (meaning (placed .root commentedChunks)) ∧
        ¬Replaces plain (some box) commented commentedChunks := by
  refine ⟨plain_isBlank, commented_reads, commented_accepted, fun replaces => ?_⟩
  have unnamed : (caFile (some box)).isSome = false := by decide +kernel
  have single : ∀ c ∈ commentedChunks, ∃ l, c.lines = [l] := by
    intro c hc
    simp only [commentedChunks, List.mem_cons, List.not_mem_nil, or_false] at hc
    rcases hc with rfl | rfl <;> exact ⟨_, rfl⟩
  have legible := legible_of_replaces plain_isBlank (some box) commented_reads single replaces
  have goes := legible.agrees [] _ _ rfl (by decide +kernel) [] _ [] rfl
  rw [unnamed] at goes
  exact absurd goes (by decide +kernel)

end Lss.Analysis.EngineRewrites
