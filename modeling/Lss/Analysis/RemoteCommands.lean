import Lss.Library.Shell
import Lss.Model.RemoteWords

/-!
# Commands on the far side

A launcher that is an ssh joins the words behind it with blanks, and the shell on the far side
splits them again. Each word reads as one word there, so a step, the fetch of a result, the removal
of a run's directory and the question for a commit each arrive as the commands they were. A home in
front of any word is left to that shell, though, not only the one in front of the harness, and the
program is a word a shell may take for a keyword or for a variable that is set.
-/

set_option autoImplicit false

namespace Lss.Analysis.RemoteCommands

open Lss.Model Lss.Library
open Lss.Library.Shell (Word Token Command Item Reads Harmless bare quoted expand command isReserved
  isAssignment)

/-! ## What should arrive -/

/-- What the launcher joins. -/
def afterLauncher (launcher argv : List (List Char)) : List Char :=
  [' '].intercalate (argv.drop launcher.length)

/-- A path under a home, once the home is known. -/
def atHome (home path : List Char) : List Char :=
  if "~/".toList <+: path then home ++ path.drop 1 else path

/-- The directory a harness lies in. -/
def harnessDir (home harness : List Char) : List Char :=
  match rsplitOnce '/' harness with
  | some ([], _) => ['/']
  | some (d, _) => if d = ['~'] then home else atHome home d
  | none => ['.']

/-- The words the program of a step is called with, its own included. -/
def stepWords (home : List Char) (cfg : BenchConfig) (harness : List Char)
    (options args : List (List Char)) : List (List Char) :=
  cfg.python :: options ++ atHome home harness :: args

/-- The options the program itself gets: the shim when a key is written to it. -/
def shimOptions (role : Role) (key : String) : List (List Char) :=
  if trim key = "" ∨ role = .dryRun then [] else ["-c".toList, keyShim]

/-- The words behind the launcher read as the commands that were meant, wherever the home is. -/
structure Arrives (cfg : BenchConfig) (harness : List Char) (args : List (List Char)) : Prop where
  step : ∀ home, Shell.read home (afterLauncher cfg.launcher (commandLine cfg harness args)) =
    some [⟨[], stepWords home cfg harness [] args⟩]
  launched : ∀ home role key,
    Shell.read home (afterLauncher cfg.launcher (harnessLaunch cfg harness args role key).argv) =
      some [⟨[], stepWords home cfg harness (shimOptions role key) args⟩]
  inDir : ∀ home role key runName token,
    Shell.read home (afterLauncher cfg.launcher (inRemoteDir cfg.launcher
      (harnessLaunch cfg harness args role key).argv (remoteRunDir runName token))) =
      some [⟨[], ["mkdir".toList, "-p".toList, remoteRunDir runName token]⟩,
        ⟨[], ["cd".toList, remoteRunDir runName token]⟩,
        ⟨[], stepWords home cfg harness (shimOptions role key) args⟩]
  fetch : ∀ home runName token file,
    Shell.read home (afterLauncher cfg.launcher
      (remoteFetch cfg.launcher (remoteRunDir runName token) file)) =
      some [⟨[], ["cat".toList, remoteRunDir runName token ++ '/' :: file]⟩]
  cleanup : ∀ home runName token,
    Shell.read home (afterLauncher cfg.launcher
      (remoteCleanup cfg.launcher (remoteRunDir runName token))) =
      some [⟨[], ["rm".toList, "-rf".toList, "--".toList, remoteRunDir runName token]⟩]
  commit : ∀ home,
    Shell.read home (afterLauncher cfg.launcher (remoteCommitArgv cfg.launcher harness)) =
      some [⟨[], ["git".toList, "-C".toList, harnessDir home harness, "rev-parse".toList,
      "--short".toList, "HEAD".toList]⟩]

/-- One directory in the place of the runs. -/
def OneBelow (dir : List Char) : Prop :=
  ∃ name, dir = ".cache/lss-bench/".toList ++ name ∧ '/' ∉ name ∧
    name ∉ [[], ['.'], ['.', '.']]

/-- A word whose home is left to the shell. -/
def Expanded (w : List Char) : Prop := "~/".toList <+: w ∧ w.drop 2 ≠ []

instance (w : List Char) : Decidable (Expanded w) := inferInstanceAs (Decidable (_ ∧ _))

/-- When the words arrive: no word but the harness is under a home, the harness is not the home
itself nor a name behind two slashes, and a program written bare is nothing else to a shell. -/
def Plain (cfg : BenchConfig) (harness : List Char) (args : List (List Char)) : Prop :=
  ¬Expanded cfg.python ∧ (∀ a ∈ args, ¬Expanded a) ∧
    (cfg.python.all safeChar = true →
      isReserved (bare cfg.python) = false ∧ isAssignment (bare cfg.python) = false) ∧
    harness ≠ "~/".toList ∧ ∀ name, harness = "~//".toList ++ name → '/' ∈ name

/-! ## A word for the far side -/

theorem harmless_of_safe {c : Char} (h : safeChar c = true) : Harmless c := by
  have others : ∀ d ∈ Shell.special ++ ['\'', '\\', ' ', '\t', '&', '#'], safeChar d = false := by
    decide
  constructor
  · intro mem
    rw [others c (List.mem_append_left _ mem)] at h
    cases h
  · intro mem
    rw [others c (List.mem_append_right _ mem)] at h
    cases h

theorem head?_ne_tilde {text : List Char} (h : text.all safeChar = true) :
    text.head? ≠ some '~' := by
  cases text with
  | nil => simp
  | cons c text =>
      intro tilde
      obtain rfl : c = '~' := by simpa using tilde
      simp [safeChar] at h

/-- What a quoted word reads as. -/
def quotedAs (w : List Char) : Word := if w ≠ [] ∧ w.all safeChar then bare w else quoted w

theorem reads_shellQuote (w : List Char) : Reads (shellQuote w) (quotedAs w) := by
  unfold shellQuote quotedAs
  split
  · rename_i safe
    apply Reads.bare _ safe.1
    intro c hc
    exact harmless_of_safe (List.all_eq_true.mp safe.2 c hc)
  · exact Reads.singleQuoted w

theorem expand_quotedAs (home w : List Char) : expand home (quotedAs w) = some w := by
  unfold quotedAs
  split
  · rename_i safe
    exact Shell.expand_bare (head?_ne_tilde safe.2)
  · exact Shell.expand_quoted home w

theorem map_fst_quotedAs (w : List Char) : (quotedAs w).map Prod.fst = w := by
  unfold quotedAs
  split
  · simp [bare, Function.comp_def]
  · simp [quoted, Function.comp_def]

/-- What a word for the far side reads as. -/
def wordOf (w : List Char) : Word :=
  if Expanded w then bare "~/".toList ++ quotedAs (w.drop 2) else quotedAs w

theorem reads_remoteWord (w : List Char) : Reads (remoteWord w) (wordOf w) := by
  have home : Reads "~/".toList (bare "~/".toList) := Reads.bare (by decide) (by simp)
  unfold remoteWord wordOf
  by_cases h : "~/".toList <+: w ∧ w.drop 2 ≠ []
  · rw [if_pos h, if_pos (show Expanded w from h)]
    exact home.append (reads_shellQuote _)
  · rw [if_neg h, if_neg (show ¬Expanded w from h)]
    exact reads_shellQuote w

/-- What the program on the far side gets for a word. -/
def received (home w : List Char) : List Char := if Expanded w then home ++ w.drop 1 else w

theorem received_of_not {home w : List Char} (h : ¬Expanded w) : received home w = w := if_neg h

theorem drop_of_expanded {w : List Char} (h : Expanded w) : w = '~' :: '/' :: w.drop 2 := by
  obtain ⟨⟨rest, rfl⟩, -⟩ := h
  rfl

theorem expand_wordOf (home w : List Char) : expand home (wordOf w) = some (received home w) := by
  unfold wordOf received
  split
  · rename_i h
    have read_home := Shell.expand_home home (quotedAs (w.drop 2))
    rw [map_fst_quotedAs] at read_home
    have behind : w.drop 1 = '/' :: w.drop 2 := by
      conv_lhs => rw [drop_of_expanded h]
      rfl
    rw [behind]
    exact read_home
  · exact expand_quotedAs home w

/-- Only a word that is handed on as it is arrives wherever the home is. -/
theorem received_nil_eq {w : List Char} : received [] w = w ↔ ¬Expanded w := by
  constructor
  · intro same h
    have shorter := congrArg List.length same
    rw [received, if_pos h, drop_of_expanded h] at shorter
    simp at shorter
  · exact received_of_not

/-! ## A line for the far side -/

theorem expand_words (home : List Char) (ws : List (List Char)) :
    (ws.map wordOf).mapM (expand home) = some (ws.map (received home)) := by
  apply Shell.expand_all
  rw [List.forall₂_map_left_iff, List.forall₂_map_right_iff, List.forall₂_same]
  exact fun w _ => expand_wordOf home w

/-- Words arrive as a command when the first of them is nothing else to a shell. -/
theorem command_wordOf {home w : List Char} (ws : List (List Char))
    (plain : isReserved (wordOf w) = false) (sets_nothing : isAssignment (wordOf w) = false) :
    command home (wordOf w :: ws.map wordOf) =
      some ⟨[], received home w :: ws.map (received home)⟩ := by
  rw [Shell.command_of_plain plain sets_nothing]
  exact congrArg (Option.map (Command.mk [])) (expand_words home (w :: ws))

/-- A first word that is a keyword or sets a variable makes another command. -/
theorem command_wordOf_ne {home w : List Char} {ws words : List (List Char)}
    (h : isReserved (wordOf w) = true ∨ isAssignment (wordOf w) = true) :
    command home (wordOf w :: ws.map wordOf) ≠ some ⟨[], words⟩ := by
  unfold command
  obtain reserved | sets := h
  · simp [reserved]
  · split
    · simp
    · simp [sets]

/-- Texts that read as words read as the command of these words. -/
theorem read_command {home : List Char} {texts : List (List Char)} {ws : List Word}
    (h : List.Forall₂ Reads texts ws) :
    Shell.read home ([' '].intercalate texts) = (command home ws).map ([·]) := by
  have items : List.Forall₂ Item texts (ws.map Token.word) := by
    rw [List.forall₂_map_right_iff]
    exact h.imp fun _ _ => Item.word
  have words : (ws.map Token.word).filterMap Token.word? = ws := by
    simp [List.filterMap_map, Function.comp_def, Token.word?]
  rw [Shell.read, Shell.lex_intercalate items, Option.bind_some,
    List.splitOn_eq_singleton (by simp)]
  simp only [List.mapM_cons, List.mapM_nil, words]
  cases command home ws <;> rfl

theorem reads_words (ws : List (List Char)) :
    List.Forall₂ Reads (ws.map remoteWord) (ws.map wordOf) := by
  rw [List.forall₂_map_left_iff, List.forall₂_map_right_iff, List.forall₂_same]
  exact fun w _ => reads_remoteWord w

/-- One command behind the launcher. -/
theorem read_words (home : List Char) (ws : List (List Char)) :
    Shell.read home ([' '].intercalate (ws.map remoteWord)) =
      (command home (ws.map wordOf)).map ([·]) :=
  read_command (reads_words ws)

/-- Commands behind the launcher, one after the other. -/
theorem read_chain (home : List Char) (us vs ws : List (List Char)) :
    Shell.read home ([' '].intercalate (us.map remoteWord ++ "&&".toList :: (vs.map remoteWord ++
      "&&".toList :: ws.map remoteWord))) =
      [us, vs, ws].mapM fun c => command home (c.map wordOf) := by
  have items (ws : List (List Char)) :
      List.Forall₂ Item (ws.map remoteWord) ((ws.map wordOf).map Token.word) := by
    rw [List.forall₂_map_right_iff]
    exact (reads_words ws).imp fun _ _ => Item.word
  have chained : List.Forall₂ Item
      (us.map remoteWord ++ "&&".toList :: (vs.map remoteWord ++ "&&".toList :: ws.map remoteWord))
      ((us.map wordOf).map Token.word ++ Token.andIf ::
        ((vs.map wordOf).map Token.word ++ Token.andIf :: (ws.map wordOf).map Token.word)) :=
    List.rel_append (items us) (.cons .andIf (List.rel_append (items vs) (.cons .andIf (items ws))))
  have apart (ws : List (List Char)) : Token.andIf ∉ (ws.map wordOf).map Token.word := by simp
  have words (ws : List (List Char)) :
      ((ws.map wordOf).map Token.word).filterMap Token.word? = ws.map wordOf := by
    simp [List.filterMap_map, Function.comp_def, Token.word?]
  rw [Shell.read, Shell.lex_intercalate chained, Option.bind_some,
    List.splitOn_append_cons_self_of_not_mem (apart us),
    List.splitOn_append_cons_self_of_not_mem (apart vs), List.splitOn_eq_singleton (apart ws)]
  simp only [List.mapM_cons, List.mapM_nil, words]

/-! ## The directory of a run -/

/-- A directory of a run is below the place of the runs, whatever the run is called. -/
theorem oneBelow_remoteRunDir (runName token : List Char) :
    OneBelow (remoteRunDir runName token) := by
  unfold remoteRunDir
  set kept := runName.map fun c => if c.isAlphanum || "-_.".toList.contains c then c else '_'
    with kept_eq
  set name := if kept = [] ∨ kept.all (· = '.') then "run".toList else kept with name_eq
  have no_slash : '/' ∉ name := by
    have kept_no_slash : '/' ∉ kept := by
      rw [kept_eq, List.mem_map]
      rintro ⟨c, -, slash⟩
      split at slash
      · rename_i safe
        subst slash
        exact absurd safe (by decide)
      · exact absurd slash (by decide)
    rw [name_eq]
    split
    · decide
    · exact kept_no_slash
  have no_dots : name ∉ [[], ['.'], ['.', '.']] := by
    rw [name_eq]
    split
    · decide
    · rename_i named
      intro dots
      apply named
      simp only [List.mem_cons, List.not_mem_nil, or_false] at dots
      obtain none_left | one | two := dots
      · exact .inl none_left
      · exact .inr (by rw [one]; decide)
      · exact .inr (by rw [two]; decide)
  dsimp only
  split
  · exact ⟨name, rfl, no_slash, no_dots⟩
  · refine ⟨name ++ '-' :: token.filter Char.isAlphanum, List.append_assoc _ _ _, ?_, ?_⟩
    · simp only [List.mem_append, List.mem_cons, List.mem_filter, not_or]
      exact ⟨no_slash, by decide, fun slash => absurd slash.2 (by decide)⟩
    · intro dots
      have dash : '-' ∈ name ++ '-' :: token.filter Char.isAlphanum := by simp
      simp only [List.mem_cons, List.not_mem_nil, or_false] at dots
      obtain none_left | one | two := dots
      · rw [none_left] at dash
        cases dash
      · rw [one] at dash
        exact absurd dash (by decide)
      · rw [two] at dash
        exact absurd dash (by decide)

/-- A word that does not start with a tilde has no home to leave to the shell. -/
theorem not_expanded_of_head {w : List Char} (h : w.head? ≠ some '~') : ¬Expanded w := by
  rintro ⟨⟨rest, rfl⟩, -⟩
  exact h rfl

theorem remoteWord_of_head {w : List Char} (h : w.head? ≠ some '~') : remoteWord w = shellQuote w :=
  if_neg (not_expanded_of_head h)

theorem head?_runDir (runName token file : List Char) :
    (remoteRunDir runName token ++ file).head? ≠ some '~' := by
  obtain ⟨name, below, -⟩ := oneBelow_remoteRunDir runName token
  rw [below]
  simp

/-! ## The commands of a run -/

section Commands

variable {cfg : BenchConfig} {harness home : List Char} {args : List (List Char)}

theorem afterLauncher_append (launcher ws : List (List Char)) :
    afterLauncher launcher (launcher ++ ws) = [' '].intercalate ws := by
  rw [afterLauncher, List.drop_left]

/-- The words of a step in front of the far side's quotes. -/
def launchedWords (cfg : BenchConfig) (harness : List Char) (options args : List (List Char)) :
    List (List Char) :=
  cfg.python :: (options ++ harness :: args)

theorem argv_harnessLaunch (joins : launcherJoins cfg.launcher) (role : Role) (key : String) :
    (harnessLaunch cfg harness args role key).argv = cfg.launcher ++
      (launchedWords cfg harness (shimOptions role key) args).map remoteWord := by
  unfold harnessLaunch shimOptions
  dsimp only
  split
  · simp [commandLine, withLauncher, joins, launchedWords]
  · simp [withLauncher, joins, launchedWords]

theorem received_harness (below : harness ≠ "~/".toList) :
    received home harness = atHome home harness := by
  have same : Expanded harness ↔ "~/".toList <+: harness := by
    constructor
    · exact And.left
    · rintro ⟨rest, rfl⟩
      refine ⟨⟨rest, rfl⟩, fun none_left => below ?_⟩
      have empty : rest = [] := none_left
      rw [empty, List.append_nil]
  simp [received, atHome, same]

/-- The program is nothing else to a shell when it is not one of its words written bare. -/
theorem plain_wordOf {w : List Char} (here : ¬Expanded w)
    (plain : w.all safeChar = true → isReserved (bare w) = false ∧ isAssignment (bare w) = false) :
    isReserved (wordOf w) = false ∧ isAssignment (wordOf w) = false := by
  rw [wordOf, if_neg here]
  unfold quotedAs
  split
  · rename_i safe
    exact plain safe.2
  · rename_i not_bare
    refine ⟨?_, Shell.not_assignment_quoted w⟩
    cases w with
    | nil => decide
    | cons c w => exact Shell.not_reserved_of_mem (c := c) (by simp [quoted])

theorem plain_of_wordOf {w : List Char} (here : ¬Expanded w)
    (h : isReserved (wordOf w) = false ∧ isAssignment (wordOf w) = false)
    (safe : w.all safeChar = true) :
    isReserved (bare w) = false ∧ isAssignment (bare w) = false := by
  rw [wordOf, if_neg here] at h
  by_cases named : w = []
  · subst named
    exact ⟨by decide, by decide⟩
  · rwa [quotedAs, if_pos ⟨named, safe⟩] at h

/-- Words that are not under a home arrive as they are. -/
theorem map_received {ws : List (List Char)} (here : ∀ w ∈ ws, ¬Expanded w) :
    ws.map (received home) = ws :=
  (List.map_congr_left fun w hw => received_of_not (here w hw)).trans (List.map_id ws)

theorem shimOptions_here (role : Role) (key : String) :
    ∀ w ∈ shimOptions role key, ¬Expanded w := by
  unfold shimOptions
  split
  · simp
  · intro w hw
    apply not_expanded_of_head
    simp only [List.mem_cons, List.not_mem_nil, or_false] at hw
    obtain option | shim := hw
    · rw [option]
      decide
    · rw [shim]
      decide

/-- A step arrives. -/
theorem command_launchedWords (h : Plain cfg harness args) (role : Role) (key : String) :
    command home ((launchedWords cfg harness (shimOptions role key) args).map wordOf) =
      some ⟨[], stepWords home cfg harness (shimOptions role key) args⟩ := by
  obtain ⟨python, here, plain, below, -⟩ := h
  obtain ⟨not_reserved, sets_nothing⟩ := plain_wordOf python plain
  rw [launchedWords, List.map_cons, command_wordOf _ not_reserved sets_nothing]
  simp only [List.map_append, List.map_cons, received_of_not python, received_harness below,
    map_received here, map_received (shimOptions_here role key)]
  rfl

/-- A fixed word in front of others is a command of its own. -/
theorem command_fixed {w : List Char} {ws : List (List Char)} (fixed : ¬Expanded w)
    (plain : isReserved (wordOf w) = false) (sets_nothing : isAssignment (wordOf w) = false)
    (here : ∀ v ∈ ws, ¬Expanded v) :
    command home ((w :: ws).map wordOf) = some ⟨[], w :: ws⟩ := by
  rw [List.map_cons, command_wordOf ws plain sets_nothing, received_of_not fixed, map_received here]

/-- The words of a step inside the directory of its run. -/
theorem argv_inRemoteDir (joins : launcherJoins cfg.launcher) (ws : List (List Char))
    {rdir : List Char} (fixed : rdir.head? ≠ some '~') :
    afterLauncher cfg.launcher
      (inRemoteDir cfg.launcher (cfg.launcher ++ ws.map remoteWord) rdir) =
      [' '].intercalate (["mkdir".toList, "-p".toList, rdir].map remoteWord ++ "&&".toList ::
        (["cd".toList, rdir].map remoteWord ++ "&&".toList :: ws.map remoteWord)) := by
  have goes : ¬((!launcherJoins cfg.launcher) = true ∨
      (cfg.launcher ++ ws.map remoteWord).length < cfg.launcher.length) := by
    simp [joins]
  have mkdir : remoteWord "mkdir".toList = "mkdir".toList := by decide
  have parents : remoteWord "-p".toList = "-p".toList := by decide
  have cd : remoteWord "cd".toList = "cd".toList := by decide
  unfold inRemoteDir
  rw [if_neg goes]
  dsimp only
  rw [List.append_assoc, afterLauncher_append, List.drop_left]
  simp only [List.map_cons, List.map_nil, mkdir, parents, cd, remoteWord_of_head fixed,
    List.cons_append, List.nil_append]

/-- The directory whose commit is asked for, as it arrives. -/
def receivedDir (home harness : List Char) : List Char :=
  match rsplitOnce '/' harness with
  | some ([], _) => ['/']
  | some (d, _) => if d = ['~'] then home else received home d
  | none => ['.']

/-- The directory is handed on as a word that reads as it. -/
theorem remoteCommitArgv_dir (launcher : List (List Char)) :
    ∃ text w, Reads text w ∧ expand home w = some (receivedDir home harness) ∧
      remoteCommitArgv launcher harness = launcher ++ ["git".toList, "-C".toList, text,
        "rev-parse".toList, "--short".toList, "HEAD".toList] := by
  unfold remoteCommitArgv receivedDir
  cases rsplitOnce '/' harness with
  | none =>
      exact ⟨remoteWord ['.'], wordOf ['.'], reads_remoteWord _, expand_wordOf home _, rfl⟩
  | some cut =>
      obtain ⟨d, name⟩ := cut
      cases d with
      | nil =>
          exact ⟨remoteWord ['/'], wordOf ['/'], reads_remoteWord _, expand_wordOf home _, rfl⟩
      | cons c d =>
          by_cases own : c :: d = ['~']
          · refine ⟨['~'], bare ['~'], Reads.char (by decide), ?_, ?_⟩
            · simp [own, expand, bare]
            · simp [own]
          · exact ⟨remoteWord (c :: d), wordOf (c :: d), reads_remoteWord _,
              by simpa [own] using expand_wordOf home _, by simp [own]⟩

/-- The question for a commit arrives, with the directory as its word is received. -/
theorem read_remoteCommitArgv (launcher : List (List Char)) :
    Shell.read home (afterLauncher launcher (remoteCommitArgv launcher harness)) =
      some [⟨[], ["git".toList, "-C".toList, receivedDir home harness, "rev-parse".toList,
        "--short".toList, "HEAD".toList]⟩] := by
  obtain ⟨text, w, reads, expands, argv⟩ : ∃ text w, Reads text w ∧
      expand home w = some (receivedDir home harness) ∧ remoteCommitArgv launcher harness =
        launcher ++ ["git".toList, "-C".toList, text, "rev-parse".toList, "--short".toList,
          "HEAD".toList] := remoteCommitArgv_dir launcher
  have plain (v : List Char) (safe : v ≠ [] ∧ ∀ c ∈ v, Harmless c) : Reads v (bare v) :=
    Reads.bare safe.2 safe.1
  have words : List.Forall₂ Reads
      ["git".toList, "-C".toList, text, "rev-parse".toList, "--short".toList, "HEAD".toList]
      [bare "git".toList, bare "-C".toList, w, bare "rev-parse".toList, bare "--short".toList,
        bare "HEAD".toList] :=
    .cons (plain _ (by decide)) (.cons (plain _ (by decide)) (.cons reads
      (.cons (plain _ (by decide)) (.cons (plain _ (by decide))
        (.cons (plain _ (by decide)) .nil)))))
  have same (v : List Char) (here : v.head? ≠ some '~') : expand home (bare v) = some v :=
    Shell.expand_bare here
  have expanded := Shell.expand_all (.cons (same "git".toList (by decide))
    (.cons (same "-C".toList (by decide)) (.cons expands
      (.cons (same "rev-parse".toList (by decide)) (.cons (same "--short".toList (by decide))
        (.cons (same "HEAD".toList (by decide)) .nil))))))
  have git : isReserved (bare "git".toList) = false ∧ isAssignment (bare "git".toList) = false := by
    decide
  rw [argv, afterLauncher_append, read_command words, Shell.command_of_plain git.1 git.2,
    expanded]
  rfl

theorem receivedDir_eq (named : ∀ name, harness = "~//".toList ++ name → '/' ∈ name) :
    receivedDir home harness = harnessDir home harness := by
  unfold receivedDir harnessDir
  cases cut : rsplitOnce '/' harness with
  | none => rfl
  | some parts =>
      obtain ⟨d, name⟩ := parts
      obtain ⟨rfl, outside⟩ := rsplitOnce_eq_some.mp cut
      cases d with
      | nil => rfl
      | cons c d =>
          have not_root : c :: d ≠ "~/".toList := by
            intro root
            exact outside (named name (by simp [root]))
          simp only [received_harness not_root]

theorem arrives_of_plain (joins : launcherJoins cfg.launcher) (h : Plain cfg harness args) :
    Arrives cfg harness args := by
  have launched (role : Role) (key : String) : ∀ home,
      Shell.read home (afterLauncher cfg.launcher (harnessLaunch cfg harness args role key).argv) =
        some [⟨[], stepWords home cfg harness (shimOptions role key) args⟩] := by
    intro home
    rw [argv_harnessLaunch joins, afterLauncher_append, read_words, command_launchedWords h]
    rfl
  have rdir (runName token : List Char) : (remoteRunDir runName token).head? ≠ some '~' := by
    have nothing := head?_runDir runName token []
    rwa [List.append_nil] at nothing
  refine ⟨launched .dryRun "", fun home role key => launched role key home, ?_, ?_, ?_, ?_⟩
  · intro home role key runName token
    have dir := not_expanded_of_head (rdir runName token)
    have mkdir : command home (["mkdir".toList, "-p".toList, remoteRunDir runName token].map wordOf)
        = some ⟨[], ["mkdir".toList, "-p".toList, remoteRunDir runName token]⟩ :=
      command_fixed (by decide) (by decide) (by decide) (by simp [dir]; decide)
    have cd : command home (["cd".toList, remoteRunDir runName token].map wordOf)
        = some ⟨[], ["cd".toList, remoteRunDir runName token]⟩ :=
      command_fixed (by decide) (by decide) (by decide) (by simp [dir])
    rw [argv_harnessLaunch joins, argv_inRemoteDir joins _ (rdir runName token), read_chain]
    simp only [List.mapM_cons, List.mapM_nil, mkdir, cd, command_launchedWords h]
    rfl
  · intro home runName token file
    have fixed := head?_runDir runName token ('/' :: file)
    have argv : remoteFetch cfg.launcher (remoteRunDir runName token) file = cfg.launcher ++
        ["cat".toList, remoteRunDir runName token ++ '/' :: file].map remoteWord := by
      simp only [remoteFetch, List.map_cons, List.map_nil, remoteWord_of_head fixed]
      rfl
    rw [argv, afterLauncher_append, read_words, command_fixed (by decide) (by decide) (by decide)
      (by simpa using not_expanded_of_head fixed)]
    rfl
  · intro home runName token
    have argv : remoteCleanup cfg.launcher (remoteRunDir runName token) = cfg.launcher ++
        ["rm".toList, "-rf".toList, "--".toList, remoteRunDir runName token].map remoteWord := by
      simp only [remoteCleanup, List.map_cons, List.map_nil,
        remoteWord_of_head (rdir runName token)]
      rfl
    have here : ∀ w ∈ ["-rf".toList, "--".toList, remoteRunDir runName token], ¬Expanded w := by
      intro w hw
      simp only [List.mem_cons, List.not_mem_nil, or_false] at hw
      obtain rfl | rfl | rfl := hw
      · decide
      · decide
      · exact not_expanded_of_head (rdir runName token)
    rw [argv, afterLauncher_append, read_words, command_fixed (by decide) (by decide) (by decide)
      here]
    rfl
  · intro home
    rw [read_remoteCommitArgv, receivedDir_eq h.2.2.2.2]

/-- What a step's arrival says of its words, one by one. -/
theorem words_of_step (joins : launcherJoins cfg.launcher)
    (step : Shell.read [] (afterLauncher cfg.launcher (commandLine cfg harness args)) =
      some [⟨[], stepWords [] cfg harness [] args⟩]) :
    (isReserved (wordOf cfg.python) = false ∧ isAssignment (wordOf cfg.python) = false) ∧
      received [] cfg.python = cfg.python ∧ received [] harness = atHome [] harness ∧
        args.map (received []) = args := by
  have argv : commandLine cfg harness args =
      cfg.launcher ++ (cfg.python :: harness :: args).map remoteWord :=
    argv_harnessLaunch joins .dryRun ""
  rw [argv, afterLauncher_append, read_words, List.map_cons] at step
  have arrived : command [] (wordOf cfg.python :: (harness :: args).map wordOf) =
      some ⟨[], stepWords [] cfg harness [] args⟩ := by
    simpa using step
  have plain : isReserved (wordOf cfg.python) = false ∧
      isAssignment (wordOf cfg.python) = false := by
    by_contra taken
    apply command_wordOf_ne _ arrived
    rw [← Bool.not_eq_false, ← Bool.not_eq_false]
    tauto
  rw [command_wordOf _ plain.1 plain.2] at arrived
  simp only [stepWords, List.map_cons, List.cons_append, List.nil_append, Option.some.injEq,
    Command.mk.injEq, List.cons.injEq, true_and] at arrived
  exact ⟨plain, arrived⟩

theorem plain_of_arrives (joins : launcherJoins cfg.launcher) (h : Arrives cfg harness args) :
    Plain cfg harness args := by
  obtain ⟨plain, python, own, others⟩ := words_of_step joins (h.step [])
  have here := received_nil_eq.mp python
  refine ⟨here, ?_, plain_of_wordOf here plain, ?_, ?_⟩
  · intro a ha
    rw [← received_nil_eq]
    exact List.map_inj_left.mp (others.trans (List.map_id args).symm) a ha
  · rintro rfl
    exact absurd own (by decide)
  · rintro name rfl
    by_contra outside
    have cut : rsplitOnce '/' ("~//".toList ++ name) = some ("~/".toList, name) :=
      rsplitOnce_eq_some.mpr ⟨rfl, outside⟩
    have quoted_there : receivedDir [] ("~//".toList ++ name) = "~/".toList := by
      rw [receivedDir, cut]
      rfl
    have root : harnessDir [] ("~//".toList ++ name) = "/".toList := by
      rw [harnessDir, cut]
      rfl
    have commit := h.commit []
    rw [read_remoteCommitArgv, quoted_there, root] at commit
    simp at commit

end Commands

/-- Behind a launcher that is an ssh, every command of a run arrives as it was meant, for any words
and wherever the home is, exactly when no word but the harness is under a home, the harness is no
home and no name behind two slashes, and the program is not written bare where a shell takes it for
a keyword or a variable. The directory of a run is one below the place of the runs whatever it is
called. -/
theorem arrives_iff (cfg : BenchConfig) (harness : List Char) (args : List (List Char))
    (joins : launcherJoins cfg.launcher = true) :
    ((Arrives cfg harness args ∧ ∀ runName token, OneBelow (remoteRunDir runName token)) ↔
      Plain cfg harness args) := by
  constructor
  · intro h
    exact plain_of_arrives joins h.1
  · intro h
    exact ⟨arrives_of_plain joins h, oneBelow_remoteRunDir⟩

/-- A machine reached over ssh. -/
def gpuBox : BenchConfig where
  launcher := ["ssh".toList, "-o".toList, "BatchMode=yes".toList, "gpu-box".toList]
  python := "python3".toList

/-- A harness under the far home, and a prompt with everything a shell would look at. -/
theorem odd_words_arrive : Arrives gpuBox "~/my bench/b.py".toList
    ["--prompt".toList, "it's (a) test; $HOME `x` && #".toList] := by
  have plain : Plain gpuBox "~/my bench/b.py".toList
      ["--prompt".toList, "it's (a) test; $HOME `x` && #".toList] := by
    refine ⟨by decide, by decide, by decide, by decide, fun name h => ?_⟩
    simp at h
  exact ((arrives_iff gpuBox _ _ (by decide)).mpr plain).1

/-- A model that is called by a path under a home is another path on the far side. -/
theorem a_model_under_a_home_is_another : launcherJoins gpuBox.launcher = true ∧
    ¬Arrives gpuBox "/h/bench.py".toList ["--model".toList, "~/models/x".toList] ∧
      Shell.read "/root".toList (afterLauncher gpuBox.launcher
        (commandLine gpuBox "/h/bench.py".toList ["--model".toList, "~/models/x".toList])) =
        some [⟨[], ["python3".toList, "/h/bench.py".toList, "--model".toList,
          "/root/models/x".toList]⟩] := by
  refine ⟨by decide, fun h => ?_, by decide⟩
  obtain ⟨-, here, -⟩ := plain_of_arrives (by decide) h
  exact here "~/models/x".toList (by simp) (by decide)

end Lss.Analysis.RemoteCommands
