import Lss.Analysis.SetupTexts
import Lss.Library.ListedDocuments

/-!
# Collectors beside each other

Setup writes one file for each engine and points the screen at the ports. A file that is missing
gets a port and a database by its number, one that exists keeps those it names. The collectors run
beside each other where the files that exist leave room for the new ones.
-/

set_option autoImplicit false

namespace Lss.Analysis.CollectorPorts

open Lss.Library Lss.Library.Lines Lss.Library.Statements Lss.Model Lss.Model.Setup
open Lss.Analysis.SetupTexts

/-! ## Room for every collector -/

/-- Two collectors share no port and no database. -/
def Apart (home : String) (c d : CollectorConfig) : Prop :=
  c.ownPorts.Disjoint d.ownPorts ∧ expandHome c.dbPath home ≠ expandHome d.dbPath home

/-- The first collectors of the directory share nothing, and the screen is pointed at them. -/
def RunsBeside {V : Type} (l : Loader V) (home : String) (n : ℕ) (files : Files) : Prop :=
  ∃ cs : List CollectorConfig, cs.length = n ∧
    (∀ i < n, (files (.collector (i + 1))).bind (parseConfig l) = cs[i]?) ∧
    cs.Pairwise (Apart home) ∧ (∀ c ∈ cs, c.port.isSome) ∧
    (files .lss).bind (namedPorts l.toReader) = some (cs.map CollectorConfig.port)

/-- The database of a new collector. -/
def freshDb (s : Site) (i : ℕ) : String :=
  if i + 1 = 1 then defaultDbPath else stateDb s.stateDir (i + 1)

/-- What a new collector is set to. -/
def fresh (s : Site) (i : ℕ) : CollectorConfig := ⟨[localAddress (freshPort i)], freshDb s i⟩

section Files

variable {V : Type} (l : Loader V) (a : Replacing) (s : Site) (files : Files)

/-- A file that exists, as it is left: with its engine replaced, or as it was. -/
def left (i : ℕ) (choice : Option EngineChoice) (old : List Char) : List Char :=
  if a.replaces (.collector (i + 1)) then replaceEngine old choice else old

/-- What a file that exists says once it is left; nothing where there is none. -/
def stands (i : ℕ) (choice : Option EngineChoice) : Option CollectorConfig :=
  (files (.collector (i + 1))).bind fun old => parseConfig l (left a i choice old)

/-- What the file of a collector says in the end. -/
def settled (i : ℕ) (choice : Option EngineChoice) : CollectorConfig :=
  (stands l a files i choice).getD (fresh s i)

/-- The files that exist leave room for the new ones. -/
structure Spread (home : String) (choices : List (Option EngineChoice)) : Prop where
  /-- Every file that exists names a port. -/
  named : ∀ c, some c ∈ choices.mapIdx (stands l a files) → c.port.isSome
  /-- Those that exist share nothing. -/
  apart : (choices.mapIdx (stands l a files)).Pairwise fun x y =>
    ∀ c ∈ x, ∀ d ∈ y, Apart home c d
  /-- None that exists has the port or the database of a new one. -/
  free : ∀ c, some c ∈ choices.mapIdx (stands l a files) → ∀ j : ℕ,
    (choices.mapIdx (stands l a files))[j]? = some none →
      freshPort j ∉ c.ownPorts ∧ expandHome c.dbPath home ≠ expandHome (freshDb s j) home
  /-- No two new ones have the same port. -/
  counted : ∀ i j : ℕ, (choices.mapIdx (stands l a files))[i]? = some none →
    (choices.mapIdx (stands l a files))[j]? = some none → freshPort i = freshPort j → i = j
  /-- A file of the screen that stays names the ports. -/
  screen : ∀ old, files .lss = some old → a.replaces .lss = false →
    namedPorts l.toReader old =
      some (choices.mapIdx fun i choice => (settled l a s files i choice).port)

end Files

/-! ## What a replaced engine leaves -/

section Replaced

open EngineRewrites
open Toml (Header)

variable {V : Type}

/-- Statements that do not set a key may go. -/
theorem rootValue_filter {key : String} (keep : Header × Statement V → Bool)
    (kept : ∀ v, keep (.root, .pair [key] v) = true) (ds : List (Header × Statement V)) :
    rootValue (ds.filter keep) key = rootValue ds key := by
  unfold rootValue
  induction ds with
  | nil => rfl
  | cons d ds ih =>
      rw [List.filter_cons]
      by_cases stays : keep d = true
      · rw [if_pos stays, List.findSome?_cons, List.findSome?_cons, ih]
      · rw [if_neg stays, ih, List.findSome?_cons]
        split
        · rename_i found
          split at found
          · split at found
            · rename_i same
              rw [same] at stays
              exact absurd (kept _) stays
            · cases found
          · cases found
        · rfl

/-- A key that is not about an engine has the value it has among the other statements. -/
theorem rootValue_others {p : Parser V} (lawful : p.Lawful isBlank) {names : List String}
    {key : String} (other : key ∉ names) {cs : List (Chunk V)} (reads : ReadsEach p cs) :
    rootValue (meaning (placed .root cs)) key =
      rootValue (meaning (others names (rows .root cs))) key := by
  calc rootValue (meaning (placed .root cs)) key
      = rootValue ((meaning (placed .root cs)).filter fun d => !d.2.isNothing) key :=
        (rootValue_filter _ (fun _ => rfl) _).symm
    _ = rootValue ((meaning (rows .root cs)).filter fun d => !d.2.isNothing) key := by
        rw [meaning_rows lawful reads]
    _ = rootValue (meaning (rows .root cs)) key := rootValue_filter _ (fun _ => rfl) _
    _ = rootValue ((meaning (rows .root cs)).filter fun d => !isAbout names d) key :=
        (rootValue_filter _ (fun v => by simpa [isAbout, topName] using other) _).symm
    _ = rootValue (meaning (others names (rows .root cs))) key := by rw [meaning_others]

/-- Where a file is written as the edit expects it, the collector keeps its ports and its database
when the engine is replaced. -/
theorem parseConfig_replaced {l : Loader V} (correct : l.Correct isBlank) {old : List Char}
    {choice : Option EngineChoice} {cs : List (Chunk V)} (cut : l.cut old = some cs)
    (legible : Legible (caFile choice).isSome cs) {c c' : CollectorConfig}
    (was : parseConfig l old = some c)
    (now : parseConfig l (replaceEngine old choice) = some c') : c' = c := by
  obtain ⟨reads, accepted⟩ := (correct.cut_iff _ _).mp cut
  obtain ⟨cs', reads', accepted', -, -, others_same, -⟩ :=
    replaces_of_legible correct.lawful choice reads accepted legible
  have cut' := (correct.cut_iff _ _).mpr ⟨reads', accepted'⟩
  have value (key : String) (other : key ∉ replacedNames (caFile choice).isSome) :
      rootValue (meaning (placed .root cs')) key = rootValue (meaning (placed .root cs)) key := by
    rw [rootValue_others correct.lawful other reads'.each, others_same,
      ← rootValue_others correct.lawful other reads.each]
  have listen := value "listen" (by cases (caFile choice).isSome <;> decide)
  have dbPath := value "db_path" (by cases (caFile choice).isSome <;> decide)
  unfold parseConfig Reader.statements at was now
  rw [cut, Option.map_some, Option.bind_eq_bind, Option.bind_some] at was
  rw [cut', Option.map_some, Option.bind_eq_bind, Option.bind_some, listen, dbPath] at now
  split at was
  · split at now
    · rw [was] at now
      exact (Option.some.inj now).symm
    · cases now
  · cases was

/-- So a collector stands by what its file said. -/
theorem stands_eq {l : Loader V} (correct : l.Correct isBlank) {a : Replacing} {files : Files}
    {i : ℕ} {choice : Option EngineChoice} {old : List Char} {c c' : CollectorConfig}
    (found : files (.collector (i + 1)) = some old) (was : parseConfig l old = some c)
    (legible : a.replaces (.collector (i + 1)) = true →
      ∃ cs, l.cut old = some cs ∧ Legible (caFile choice).isSome cs)
    (now : stands l a files i choice = some c') : c' = c := by
  unfold stands at now
  rw [found, Option.bind_some] at now
  unfold left at now
  split at now
  · rename_i replaced
    obtain ⟨cs, cut, written⟩ := legible replaced
    exact parseConfig_replaced correct cut written was now
  · rw [was] at now
    exact (Option.some.inj now).symm

end Replaced

/-! ## Gaps that are filled -/

/-- Where the gaps of a row are filled by their places, its members stand in a relation to each
other when those that were there do, the new ones do, and every one that was there does to every
new one. -/
theorem pairwise_filled {α : Type} {R : α → α → Prop} (symmetric : ∀ x y, R x y → R y x)
    (new : ℕ → α) (xs : List (Option α)) :
    (xs.mapIdx fun i x => x.getD (new i)).Pairwise R ↔
      (xs.Pairwise fun x y => ∀ c ∈ x, ∀ d ∈ y, R c d) ∧
      (∀ c, some c ∈ xs → ∀ j : ℕ, xs[j]? = some none → R c (new j)) ∧
      ∀ i j : ℕ, i < j → xs[i]? = some none → xs[j]? = some none → R (new i) (new j) := by
  constructor
  · intro filled
    have related (i j : ℕ) (x y : Option α) (hx : xs[i]? = some x) (hy : xs[j]? = some y)
        (before : i < j) : R (x.getD (new i)) (y.getD (new j)) := by
      obtain ⟨hi, rfl⟩ := List.getElem?_eq_some_iff.mp hx
      obtain ⟨hj, rfl⟩ := List.getElem?_eq_some_iff.mp hy
      have both := List.pairwise_iff_getElem.mp filled i j (by simpa using hi) (by simpa using hj)
        before
      simpa using both
    refine ⟨?_, ?_, ?_⟩
    · rw [List.pairwise_iff_getElem]
      intro i j hi hj before c hc d hd
      have both :=
        related i j _ _ (List.getElem?_eq_getElem hi) (List.getElem?_eq_getElem hj) before
      rw [Option.mem_def.mp hc, Option.mem_def.mp hd] at both
      exact both
    · intro c hc j gap
      obtain ⟨i, at_⟩ := List.getElem?_of_mem hc
      rcases Nat.lt_trichotomy i j with before | rfl | after
      · exact related i j _ _ at_ gap before
      · rw [at_] at gap
        cases gap
      · exact symmetric _ _ (related j i _ _ gap at_ after)
    · intro i j before gap gap'
      exact related i j _ _ gap gap' before
  · rintro ⟨apart, free, counted⟩
    rw [List.pairwise_iff_getElem]
    intro i j hi hj before
    rw [List.length_mapIdx] at hi hj
    have both := List.pairwise_iff_getElem.mp apart i j hi hj before
    have at_i := List.getElem?_eq_getElem hi
    have at_j := List.getElem?_eq_getElem hj
    rw [List.getElem_mapIdx, List.getElem_mapIdx]
    cases hx : xs[i] with
    | none =>
        rw [hx] at at_i
        cases hy : xs[j] with
        | none =>
            rw [hy] at at_j
            exact counted i j before at_i at_j
        | some d =>
            rw [hy] at at_j
            exact symmetric _ _ (free d (List.mem_of_getElem? at_j) i at_i)
    | some c =>
        rw [hx] at at_i
        cases hy : xs[j] with
        | none =>
            rw [hy] at at_j
            exact free c (List.mem_of_getElem? at_i) j at_j
        | some d => exact both c hx d hy

/-! ## New collectors -/

theorem freshPort_lt (i : ℕ) : freshPort i < 2 ^ 16 := Nat.mod_lt _ (by omega)

theorem ownPorts_fresh (s : Site) (i : ℕ) : (fresh s i).ownPorts = [freshPort i] := by
  simp [fresh, CollectorConfig.ownPorts, portOf_localAddress (freshPort_lt i)]

theorem port_fresh (s : Site) (i : ℕ) : (fresh s i).port = some (freshPort i) := by
  simp [fresh, CollectorConfig.port, portOf_localAddress (freshPort_lt i)]

theorem port_lt {c : CollectorConfig} {port : ℕ} (named : c.port = some port) : port < 2 ^ 16 := by
  obtain ⟨address, -, read⟩ := List.exists_of_findSome?_eq_some named
  exact portOf_lt read

/-- A path that is long enough is expanded at its front. -/
theorem exists_expanded (home : String) {front : List Char} (long : 2 ≤ front.length) :
    ∃ front' : List Char, ∀ behind : List Char,
      (expandHome (String.ofList (front ++ behind)) home).toList = front' ++ behind := by
  have starts (behind : List Char) : "~/".toList <+: front ++ behind ↔ "~/".toList <+: front :=
    List.isPrefix_append_of_length long
  by_cases tilde : "~/".toList <+: front
  · refine ⟨(bareUrl home ++ "/").toList ++ front.drop 2, fun behind => ?_⟩
    simp only [expandHome, String.toList_ofList]
    rw [if_pos ((starts behind).mpr tilde), String.toList_append, String.toList_ofList,
      List.drop_append_of_le_length long, List.append_assoc]
  · refine ⟨front, fun behind => ?_⟩
    have longer : String.ofList (front ++ behind) ≠ "~" := by
      intro short
      have length := congrArg (List.length ∘ String.toList) short
      simp at length
      omega
    simp only [expandHome, String.toList_ofList]
    rw [if_neg fun begins => tilde ((starts behind).mp begins), if_neg longer,
      String.toList_ofList]

/-- Databases of new collectors are told apart by their numbers. -/
theorem exists_stateDb (stateDir home : String) : ∃ front : List Char, ∀ index : ℕ,
    (expandHome (stateDb stateDir index) home).toList =
      front ++ ((toString index).toList ++ ".db".toList) := by
  obtain ⟨front, expanded⟩ := exists_expanded home
    (show 2 ≤ (stateDir.toList.rdropWhile (· = '/') ++ "/lss-".toList).length by simp)
  refine ⟨front, fun index => ?_⟩
  have parts : stateDb stateDir index = String.ofList (stateDir.toList.rdropWhile (· = '/') ++
      "/lss-".toList ++ ((toString index).toList ++ ".db".toList)) := by
    unfold stateDb
    rw [← String.toList_inj]
    simp only [String.toList_append, String.toList_ofList, List.append_assoc]
  rw [parts, expanded]

/-- A text does not end with a numeral where it ends with a letter. -/
theorem numbered_ne {front front' : List Char} (index : ℕ) (letter : Char)
    (other : letter.isDigit = false) :
    front ++ letter :: ".db".toList ≠ front' ++ ((toString index).toList ++ ".db".toList) := by
  intro same
  have some_digits : (toString index).toList ≠ [] := by
    rw [Nat.toString_eq_repr, Nat.toList_repr]
    exact Nat.toDigits_ne_nil
  have fronts : front ++ [letter] = front' ++ (toString index).toList := by
    refine List.append_cancel_right (?_ : _ ++ ".db".toList = _ ++ ".db".toList)
    simpa using same
  have last := congrArg List.getLast? fronts
  rw [List.getLast?_concat, List.getLast?_append_of_ne_nil _ some_digits] at last
  have digit := Numerals.isDigit_toString letter (List.mem_of_getLast? last.symm)
  rw [other] at digit
  cases digit

theorem freshDb_injective (s : Site) (home : String) :
    Function.Injective fun i => expandHome (freshDb s i) home := by
  obtain ⟨front, numbered⟩ := exists_stateDb s.stateDir home
  obtain ⟨first, expanded⟩ := exists_expanded home
    (show 2 ≤ "~/.local/state/lss/ls".toList.length by simp)
  -- the first one has no number
  have unnumbered (index : ℕ) :
      expandHome defaultDbPath home ≠ expandHome (stateDb s.stateDir index) home := by
    intro same
    have texts := congrArg String.toList same
    have parts : defaultDbPath =
        String.ofList ("~/.local/state/lss/ls".toList ++ "s.db".toList) := by
      decide
    rw [numbered, parts, expanded] at texts
    exact numbered_ne index 's' (by decide) texts
  intro i j same
  simp only [freshDb] at same
  split at same <;> split at same
  · omega
  · exact absurd same (unnumbered _)
  · exact absurd same.symm (unnumbered _)
  · have texts := congrArg String.toList same
    rw [numbered, numbered, List.append_cancel_left_eq, List.append_cancel_right_eq] at texts
    have numbers := Numerals.toString_nat_injective (String.toList_inj.mp texts)
    omega

theorem Apart.symm {home : String} {c d : CollectorConfig} (apart : Apart home c d) :
    Apart home d c := ⟨apart.1.symm, apart.2.symm⟩

theorem apart_fresh (s : Site) (home : String) (c : CollectorConfig) (j : ℕ) :
    Apart home c (fresh s j) ↔
      freshPort j ∉ c.ownPorts ∧ expandHome c.dbPath home ≠ expandHome (freshDb s j) home := by
  unfold Apart
  rw [ownPorts_fresh, List.disjoint_singleton]
  rfl

/-- New collectors never share a database. -/
theorem fresh_apart (s : Site) (home : String) {i j : ℕ} (other : i ≠ j) :
    Apart home (fresh s i) (fresh s j) ↔ freshPort i ≠ freshPort j := by
  have databases : expandHome (freshDb s i) home ≠ expandHome (freshDb s j) home :=
    fun same => other (freshDb_injective s home same)
  rw [apart_fresh, ownPorts_fresh, List.mem_singleton]
  exact ⟨fun apart same => apart.1 same.symm, fun ports => ⟨fun same => ports same.symm, databases⟩⟩

/-! ## One file -/

section Run

variable {V : Type} {l : Loader V} {a : Replacing} {s : Site}

/-- A file that is written holds its text, or what it held where that was not to be replaced; but
for a copy of that nothing else changes. -/
theorem writeConfig_spec {files files' : Files} {f : ConfigFile} {text : List Char}
    {secret holds : Bool} (done : writeConfig a s files f text secret = some (files', holds)) :
    files' f = some (match files f with
      | some old => if a.replaces f then text else old
      | none => text) ∧
    ∀ g, g ≠ f → (∀ now, g ≠ .backup f now) → files' g = files g := by
  unfold writeConfig at done
  split at done
  · rename_i old exists_
    split at done
    · rename_i same
      split at done
      · cases done
      · cases done
        simp [exists_, same]
    · split at done
      · rename_i replaced
        split at done
        · cases done
          refine ⟨by simp [Files.set, exists_, replaced], fun g other unsaved => ?_⟩
          simp [Files.set, other, unsaved s.now]
        · cases done
      · rename_i replaced
        cases done
        simp [exists_, replaced]
  · rename_i missing
    split at done
    · cases done
      exact ⟨by simp [Files.set, missing], fun g other _ => by simp [Files.set, other]⟩
    · cases done

variable (correct : l.Correct isBlank)
include correct

/-- Whatever was answered, the file of a collector says what it is settled to. -/
theorem settled_written {files files' : Files} {i : ℕ} {choice : Option EngineChoice}
    {secret holds : Bool}
    (readable : ∀ old ∈ files (.collector (i + 1)), (parseConfig l old).isSome)
    (parses : (parseConfig l (newText s i choice (files (.collector (i + 1))))).isSome)
    (done : writeConfig a s files (.collector (i + 1))
      (newText s i choice (files (.collector (i + 1)))) secret = some (files', holds)) :
    ∃ text, files' (.collector (i + 1)) = some text ∧
      parseConfig l text = some (settled l a s files i choice) := by
  refine ⟨_, (writeConfig_spec done).1, ?_⟩
  unfold settled stands
  cases found : files (.collector (i + 1)) with
  | none =>
      rw [found] at parses
      obtain ⟨c, read⟩ := Option.isSome_iff_exists.mp parses
      rw [Option.bind_none, Option.getD_none]
      exact read.trans (congrArg some (parseConfig_new correct read))
  | some old =>
      have left_readable : (parseConfig l (left a i choice old)).isSome := by
        unfold left
        split
        · rw [found] at parses
          exact parses
        · exact readable old found
      obtain ⟨c, read⟩ := Option.isSome_iff_exists.mp left_readable
      rw [Option.bind_some, read, Option.getD_some, ← read]
      rfl

/-! ## Every file -/

/-- The files of the collectors from one on. -/
def mine (i : ℕ) : ConfigFile → Prop
  | .collector n => i < n
  | .backup (.collector n) _ => i < n
  | _ => False

/-- The run writes what every collector is settled to and says its port. -/
theorem writeCollectors_spec {i : ℕ} {choices : List (Option EngineChoice)} {files files' : Files}
    {ports : List (String × ℕ)}
    (readable : ∀ k < choices.length, ∀ old ∈ files (.collector (i + k + 1)),
      (parseConfig l old).isSome)
    (done : writeCollectors l a s i choices files = some (files', ports)) :
    (∀ f, ¬mine i f → files' f = files f) ∧
    (∀ k choice, choices[k]? = some choice →
      (files' (.collector (i + k + 1))).bind (parseConfig l) =
        some (settled l a s files (i + k) choice)) ∧
    ports = choices.mapIdx fun k choice => (serverName choice,
      (settled l a s files (i + k) choice).port.getD (freshPort (i + k))) := by
  induction choices generalizing i files files' ports with
  | nil =>
      cases done
      simp
  | cons choice rest ih =>
      unfold writeCollectors at done
      obtain ⟨c, parses, done⟩ := Option.bind_eq_some_iff.mp done
      obtain ⟨⟨next, holds⟩, wrote, done⟩ := Option.bind_eq_some_iff.mp done
      obtain ⟨⟨last, more⟩, went_on, done⟩ := Option.bind_eq_some_iff.mp done
      obtain ⟨text, on_disk, said⟩ := settled_written correct
        (fun old found => readable 0 (by simp) old found)
        (Option.isSome_iff_exists.mpr ⟨c, parses⟩) wrote
      have others := (writeConfig_spec wrote).2
      have shift (k : ℕ) : i + (k + 1) = i + 1 + k := by omega
      have later (k : ℕ) : next (.collector (i + 1 + k + 1)) =
          files (.collector (i + 1 + k + 1)) := others _ (by simp; omega) (by simp)
      have same (k : ℕ) (choice : Option EngineChoice) :
          settled l a s next (i + (k + 1)) choice = settled l a s files (i + (k + 1)) choice := by
        unfold settled stands
        rw [shift, later]
      have readable_rest : ∀ k < rest.length, ∀ old ∈ next (.collector (i + 1 + k + 1)),
          (parseConfig l old).isSome := by
        intro k hk old found
        rw [later, ← shift] at found
        exact readable (k + 1) (by simpa using hk) old found
      obtain ⟨rest_untouched, rest_said, rest_ports⟩ := ih readable_rest went_on
      have kept_text : last (.collector (i + 1)) = some text := by
        rw [rest_untouched _ (by simp [mine]), on_disk]
      have port : listenPort l text = (settled l a s files i choice).port := by
        unfold listenPort
        rw [said, Option.bind_some]
      cases done
      refine ⟨fun f other => ?_, fun k choice' hk => ?_, ?_⟩
      · rw [rest_untouched f fun within => other ?_, others f ?_ ?_]
        · rintro rfl
          exact other (by simp [mine])
        · rintro now rfl
          exact other (by simp [mine])
        · match f, within with
          | .collector n, within => exact Nat.lt_of_succ_lt within
          | .backup (.collector n) _, within => exact Nat.lt_of_succ_lt within
      · cases k with
        | zero =>
            obtain rfl := Option.some.inj hk
            simp only [Nat.add_zero]
            rw [kept_text, Option.bind_some, said]
        | succ k =>
            rw [← same, shift]
            exact rest_said k choice' hk
      · rw [List.mapIdx_cons, rest_ports, on_disk, Option.getD_some, port]
        simp only [← shift, same, Nat.add_zero]

/-- What the screen is told of. -/
def told (l : Loader V) (a : Replacing) (s : Site) (files : Files)
    (choices : List (Option EngineChoice)) : List (String × ℕ) :=
  choices.mapIdx fun i choice => (serverName choice,
    (settled l a s files i choice).port.getD (freshPort i))

theorem writeSettings_spec {choices : List (Option EngineChoice)} {files files' : Files}
    (readable : ∀ i < choices.length, ∀ old ∈ files (.collector (i + 1)),
      (parseConfig l old).isSome)
    (done : writeSettings l a s choices files = some files') :
    (∀ i choice, choices[i]? = some choice →
      (files' (.collector (i + 1))).bind (parseConfig l) = some (settled l a s files i choice)) ∧
    files' .lss = some (match files .lss with
      | some old => if a.replaces .lss then joined (lssToml (told l a s files choices)) else old
      | none => joined (lssToml (told l a s files choices))) := by
  unfold writeSettings at done
  split at done
  · obtain ⟨⟨next, ports⟩, collectors, done⟩ := Option.bind_eq_some_iff.mp done
    obtain ⟨⟨last, holds⟩, screen, done⟩ := Option.bind_eq_some_iff.mp done
    obtain rfl := Option.some.inj done
    obtain ⟨untouched, said, rfl⟩ := writeCollectors_spec correct
      (fun i hi old found => by
        rw [Nat.zero_add] at found
        exact readable i hi old found) collectors
    obtain ⟨written, others⟩ := writeConfig_spec screen
    rw [untouched .lss (by simp [mine])] at written
    refine ⟨fun i choice chosen => ?_, ?_⟩
    · have here := said i choice chosen
      rw [Nat.zero_add] at here
      rw [others _ (by simp) (by simp)]
      exact here
    · simpa [told] using written
  · cases done

end Run

/-! ## Beside each other -/

section Beside

variable {V : Type} {l : Loader V} {a : Replacing} {s : Site} {files : Files}
  {choices : List (Option EngineChoice)}

theorem mapIdx_settled (l : Loader V) (a : Replacing) (s : Site) (files : Files)
    (choices : List (Option EngineChoice)) :
    choices.mapIdx (settled l a s files) =
      (choices.mapIdx (stands l a files)).mapIdx fun i x => x.getD (fresh s i) := by
  rw [List.mapIdx_mapIdx]
  rfl

/-- A new collector names a port, so that it is for those that exist to name one. -/
theorem named_iff : (∀ c ∈ choices.mapIdx (settled l a s files), c.port.isSome) ↔
    ∀ c, some c ∈ choices.mapIdx (stands l a files) → c.port.isSome := by
  constructor
  · intro named c hc
    obtain ⟨i, hi, found⟩ := List.mem_mapIdx.mp hc
    refine named c (List.mem_mapIdx.mpr ⟨i, hi, ?_⟩)
    simp [settled, found]
  · intro named c hc
    obtain ⟨i, hi, rfl⟩ := List.mem_mapIdx.mp hc
    unfold settled
    cases found : stands l a files i choices[i] with
    | none => simp [port_fresh]
    | some c => exact named c (List.mem_mapIdx.mpr ⟨i, hi, found⟩)

/-- Where every collector names a port, the screen is told of these. -/
theorem told_ports (named : ∀ c ∈ choices.mapIdx (settled l a s files), c.port.isSome) :
    (told l a s files choices).map (fun p => some p.2) =
      (choices.mapIdx (settled l a s files)).map CollectorConfig.port := by
  unfold told
  refine List.ext_getElem (by simp) fun i hi _ => ?_
  rw [List.length_map, List.length_mapIdx] at hi
  have here := named (settled l a s files i choices[i]) (List.mem_mapIdx.mpr ⟨i, hi, rfl⟩)
  obtain ⟨port, found⟩ := Option.isSome_iff_exists.mp here
  simp [found]

theorem told_fits : ∀ p ∈ told l a s files choices, p.2 < 2 ^ 16 := by
  intro p hp
  obtain ⟨i, hi, rfl⟩ := List.mem_mapIdx.mp hp
  dsimp only
  cases found : (settled l a s files i choices[i]).port with
  | none => exact freshPort_lt i
  | some port => exact port_lt found

/-- The collectors share nothing where those that exist leave room for the new ones. -/
theorem pairwise_settled (home : String) :
    (choices.mapIdx (settled l a s files)).Pairwise (Apart home) ↔
      ((choices.mapIdx (stands l a files)).Pairwise fun x y =>
        ∀ c ∈ x, ∀ d ∈ y, Apart home c d) ∧
      (∀ c, some c ∈ choices.mapIdx (stands l a files) → ∀ j : ℕ,
        (choices.mapIdx (stands l a files))[j]? = some none →
          freshPort j ∉ c.ownPorts ∧ expandHome c.dbPath home ≠ expandHome (freshDb s j) home) ∧
      ∀ i j : ℕ, (choices.mapIdx (stands l a files))[i]? = some none →
        (choices.mapIdx (stands l a files))[j]? = some none →
          freshPort i = freshPort j → i = j := by
  have symmetric : ∀ c d, Apart home c d → Apart home d c := fun _ _ => Apart.symm
  rw [mapIdx_settled, pairwise_filled symmetric]
  simp only [apart_fresh s home]
  refine and_congr_right fun _ => and_congr_right fun _ => ⟨fun counted i j gap gap' same => ?_,
    fun counted i j before gap gap' => ?_⟩
  · rcases Nat.lt_trichotomy i j with before | rfl | after
    · have apart := (apart_fresh s home _ j).mpr (counted i j before gap gap')
      exact absurd same ((fresh_apart s home (by omega)).mp apart)
    · rfl
    · have apart := (apart_fresh s home _ i).mpr (counted j i after gap' gap)
      exact absurd same.symm ((fresh_apart s home (by omega)).mp apart)
  · have other : i ≠ j := by omega
    rw [← apart_fresh, fresh_apart s home other]
    exact fun same => other (counted i j gap gap' same)

/-- The collectors of a run share no port and no database, and the screen is pointed at them in
order, exactly where the files that existed leave room for the new ones. -/
theorem collectors_beside_iff (correct : l.Correct isBlank) (home : String) {files' : Files}
    (some_choice : choices ≠ [])
    (readable : ∀ i < choices.length, ∀ old ∈ files (.collector (i + 1)),
      (parseConfig l old).isSome)
    (done : writeSettings l a s choices files = some files') :
    RunsBeside l home choices.length files' ↔ Spread l a s files home choices := by
  obtain ⟨said, screen⟩ := writeSettings_spec correct readable done
  have some_told : told l a s files choices ≠ [] := by simpa [told] using some_choice
  have written := namedPorts_lss correct some_told told_fits
  have all_ports : (choices.mapIdx (settled l a s files)).map CollectorConfig.port =
      choices.mapIdx fun i choice => (settled l a s files i choice).port :=
    List.ext_getElem (by simp) fun i _ _ => by simp
  constructor
  · rintro ⟨cs, length, read, apart, named, pointed⟩
    -- what is read from the files is what every collector is settled to
    obtain rfl : cs = choices.mapIdx (settled l a s files) := by
      refine List.ext_getElem (by simpa using length) fun i hi hi' => ?_
      rw [List.length_mapIdx] at hi'
      have here := read i hi'
      rw [said i _ (List.getElem?_eq_getElem hi'), List.getElem?_eq_getElem hi] at here
      rw [List.getElem_mapIdx]
      exact (Option.some.inj here).symm
    obtain ⟨old_apart, free, counted⟩ := (pairwise_settled home).mp apart
    refine ⟨named_iff.mp named, old_apart, free, counted, fun old exists_ stays => ?_⟩
    rw [screen, exists_] at pointed
    simpa [stays, all_ports] using pointed
  · intro spread
    have named : ∀ c ∈ choices.mapIdx (settled l a s files), c.port.isSome :=
      named_iff.mpr spread.named
    refine ⟨choices.mapIdx (settled l a s files), by simp, fun i hi => ?_,
      (pairwise_settled home).mpr ⟨spread.apart, spread.free, spread.counted⟩, named, ?_⟩
    · rw [said i _ (List.getElem?_eq_getElem hi), List.getElem?_mapIdx,
        List.getElem?_eq_getElem hi, Option.map_some]
    · rw [told_ports named] at written
      rw [screen, Option.bind_some]
      cases exists_ : files .lss with
      | none => exact written
      | some old =>
          dsimp only
          split
          · exact written
          · rename_i stays
            rw [spread.screen old exists_ (by simpa using stays), all_ports]

end Beside


/-! ## Two engines -/

/-- Plain documents with rows of texts, whatever their keys. -/
def anyKey : Loader Listed where
  toReader := listed
  valid := fun _ => true

theorem anyKey_correct : anyKey.Correct isBlank :=
  listed_correct EngineRewrites.isBlank_visible

/-- Without a terminal what exists is kept. -/
def keeping : Replacing := ⟨false, true, false, fun _ => false⟩

def desk : Site := ⟨"/state", "", "/etc/rates.toml", 0, true, fun _ => true⟩

def twoEngines : List (Option EngineChoice) :=
  [some ⟨"auto", "http://127.0.0.1:8000", "", none, ""⟩,
    some ⟨"auto", "http://127.0.0.1:30000", "", none, ""⟩]

def noFiles : Files := fun _ => none

theorem stands_noFiles :
    twoEngines.mapIdx (stands anyKey keeping noFiles) = [none, none] := by
  simp [twoEngines, stands, noFiles]

/-- Where nothing exists there is room. -/
theorem spread_noFiles : Spread anyKey keeping desk noFiles "/root" twoEngines := by
  refine ⟨?_, ?_, ?_, ?_, ?_⟩
  · simp [stands_noFiles]
  · simp [stands_noFiles]
  · simp [stands_noFiles]
  · rw [stands_noFiles]
    intro i j gap gap' same
    have hi := (List.getElem?_eq_some_iff.mp gap).1
    have hj := (List.getElem?_eq_some_iff.mp gap').1
    simp only [freshPort, basePort, List.length_cons, List.length_nil] at same hi hj
    omega
  · intro old exists_
    cases exists_

/-- Two new collectors run beside each other. -/
theorem two_new_collectors : ∃ files',
    writeSettings anyKey keeping desk twoEngines noFiles = some files' ∧
      RunsBeside anyKey "/root" 2 files' := by
  have ends : (writeSettings anyKey keeping desk twoEngines noFiles).isSome := by decide +kernel
  obtain ⟨files', done⟩ := Option.isSome_iff_exists.mp ends
  exact ⟨files', done, (collectors_beside_iff anyKey_correct "/root" (by simp [twoEngines])
    (fun i _ old found => by cases found) done).mpr spread_noFiles⟩

/-- The first collector answers at the port of the second. -/
def movedFile : List Char := "listen = [\"127.0.0.1:8100\"]\n".toList

def moved : Files := noFiles.set (.collector 1) movedFile

theorem movedFile_says :
    parseConfig anyKey movedFile = some ⟨["127.0.0.1:8100"], defaultDbPath⟩ := by
  decide +kernel

theorem moved_readable : ∀ i < twoEngines.length, ∀ old ∈ moved (.collector (i + 1)),
    (parseConfig anyKey old).isSome := by
  intro i _ old found
  unfold moved Files.set at found
  split at found
  · rw [← Option.some.inj found, movedFile_says]
    rfl
  · cases found

/-- The file of the first collector stays and the second one gets its port. -/
theorem moved_collectors_clash : ∃ files', anyKey.Correct isBlank ∧
    (∀ i < twoEngines.length, ∀ old ∈ moved (.collector (i + 1)),
      (parseConfig anyKey old).isSome) ∧
    writeSettings anyKey keeping desk twoEngines moved = some files' ∧
      ¬RunsBeside anyKey "/root" twoEngines.length files' := by
  have ends : (writeSettings anyKey keeping desk twoEngines moved).isSome := by decide +kernel
  obtain ⟨files', done⟩ := Option.isSome_iff_exists.mp ends
  refine ⟨files', anyKey_correct, moved_readable, done, ?_⟩
  rintro ⟨cs, length, read, apart, -, -⟩
  obtain ⟨said, -⟩ := writeSettings_spec anyKey_correct moved_readable done
  have first := read 0 (by simp [twoEngines])
  have second := read 1 (by simp [twoEngines])
  rw [said 0 _ rfl] at first
  rw [said 1 _ rfl] at second
  obtain ⟨c, d, rfl⟩ : ∃ c d, cs = [c, d] := List.length_eq_two.mp length
  obtain rfl := Option.some.inj first
  obtain rfl := Option.some.inj second
  have both := (List.pairwise_cons.mp apart).1 _ List.mem_cons_self
  have new : settled anyKey keeping desk moved 1
      (some ⟨"auto", "http://127.0.0.1:30000", "", none, ""⟩) = fresh desk 1 := by
    simp [settled, stands, moved, noFiles, Files.set]
  have old : (settled anyKey keeping desk moved 0
      (some ⟨"auto", "http://127.0.0.1:8000", "", none, ""⟩)).ownPorts = [8100] := by
    decide +kernel
  have ports := both.1
  rw [old, new, ownPorts_fresh] at ports
  simp [freshPort, basePort] at ports

end Lss.Analysis.CollectorPorts
