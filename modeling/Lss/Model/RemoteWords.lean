import Lss.Library.Lines
import Lss.Model.Incidents
import Lss.Model.Query

/-!
# What is handed to a launcher

A benchmark step is started through a launcher. One that is an ssh joins the words with blanks and
lets the shell on the far side split them again, so every word is quoted for that shell; the
results are fetched, and the directory of a run removed, the same way.
-/

set_option autoImplicit false

namespace Lss.Model

open Lss.Library

/-- How the benchmark program is started.
SOURCE: lss-core/src/bench.rs:296-298 -/
structure BenchConfig where
  launcher : List (List Char)
  python : List Char

/-- The last part of a path.
The standard library reads file names so. -/
def fileName (path : List Char) : Option (List Char) :=
  ((path.splitOn '/').filter fun p => p ≠ [] ∧ p ≠ ['.']).getLast?.filter fun p => p ≠ "..".toList

/-- SOURCE: lss-core/src/bench.rs:339-341 -/
def launcherJoins (launcher : List (List Char)) : Bool :=
  launcher.any fun a => fileName a = some "ssh".toList

/-- SOURCE: lss-core/src/bench.rs:429 -/
def safeChar (c : Char) : Bool := c.isAlphanum || "-_./:=@,+%".toList.contains c

/-- One word for a shell.
SOURCE: lss-core/src/bench.rs:428-434 -/
def shellQuote (word : List Char) : List Char :=
  if word ≠ [] ∧ word.all safeChar then word
  else '\'' :: Lines.replace '\'' "'\\''".toList word ++ ['\'']

/-- One word for the shell on the far side, a home in front of it left to that shell.
SOURCE: lss-core/src/bench.rs:318-323 -/
def remoteWord (word : List Char) : List Char :=
  if "~/".toList <+: word ∧ word.drop 2 ≠ [] then "~/".toList ++ shellQuote (word.drop 2)
  else shellQuote word

/-- SOURCE: lss-core/src/bench.rs:308-313 -/
def withLauncher (launcher words : List (List Char)) : List (List Char) :=
  launcher ++ words.map fun w => if launcherJoins launcher then remoteWord w else w

/-- The words of one step.
SOURCE: lss-core/src/bench.rs:295-299 -/
def commandLine (cfg : BenchConfig) (harness : List Char) (args : List (List Char)) :
    List (List Char) :=
  withLauncher cfg.launcher (cfg.python :: harness :: args)

/-- What a step of the benchmark is for.
SOURCE: lss-core/src/bench.rs:85-91 -/
inductive Role where
  | warmup
  | decode
  | prefill
  | accuracy
  | dryRun
deriving DecidableEq

/-- SOURCE: lss-core/src/bench.rs:448 -/
def keyShim : List Char :=
  "import runpy,sys; k=sys.stdin.readline().strip(); ".toList ++
    "sys.argv=sys.argv[1:]+(['--api-key',k] if k else []); ".toList ++
    "runpy.run_path(sys.argv[0], run_name='__main__')".toList

/-- The words a step is started with, and what is written to it.
SOURCE: lss-core/src/bench.rs:438-442 -/
structure HarnessLaunch where
  argv : List (List Char)
  stdin : Option String

/-- SOURCE: lss-core/src/bench.rs:458-466 -/
def harnessLaunch (cfg : BenchConfig) (harness : List Char) (args : List (List Char)) (role : Role)
    (key : String) : HarnessLaunch :=
  let key := trim key
  if key = "" ∨ role = .dryRun then ⟨commandLine cfg harness args, none⟩
  else
    ⟨withLauncher cfg.launcher (cfg.python :: "-c".toList :: keyShim :: harness :: args),
      some (key ++ "\n")⟩

/-- Where the steps of a run work on the far side.
SOURCE: lss-core/src/bench.rs:353-362 -/
def remoteRunDir (runName token : List Char) : List Char :=
  let safe := runName.map fun c => if c.isAlphanum || "-_.".toList.contains c then c else '_'
  let safe := if safe = [] ∨ safe.all (· = '.') then "run".toList else safe
  let token := token.filter Char.isAlphanum
  if token = [] then ".cache/lss-bench/".toList ++ safe
  else ".cache/lss-bench/".toList ++ safe ++ '-' :: token

/-- The words of a step inside a directory.
SOURCE: lss-core/src/bench.rs:367-376 -/
def inRemoteDir (launcher argv : List (List Char)) (rdir : List Char) : List (List Char) :=
  if !launcherJoins launcher ∨ argv.length < launcher.length then argv
  else
    let q := shellQuote rdir
    launcher ++ ["mkdir".toList, "-p".toList, q, "&&".toList, "cd".toList, q, "&&".toList] ++
      argv.drop launcher.length

/-- SOURCE: lss-core/src/bench.rs:381-385 -/
def remoteFetch (launcher : List (List Char)) (rdir file : List Char) : List (List Char) :=
  launcher ++ ["cat".toList, shellQuote (rdir ++ '/' :: file)]

/-- SOURCE: lss-core/src/bench.rs:388-392 -/
def remoteCleanup (launcher : List (List Char)) (rdir : List Char) : List (List Char) :=
  launcher ++ ["rm".toList, "-rf".toList, "--".toList, shellQuote rdir]

/-- Asks for the commit of the checkout the harness lies in.
SOURCE: lss-core/src/bench.rs:404-414 -/
def remoteCommitArgv (launcher : List (List Char)) (harnessWord : List Char) :
    List (List Char) :=
  let dir := match rsplitOnce '/' harnessWord with
    | some ([], _) => ['/']
    | some (d, _) => d
    | none => ['.']
  let dir := if dir = ['~'] then dir else remoteWord dir
  launcher ++ ["git".toList, "-C".toList, dir, "rev-parse".toList, "--short".toList, "HEAD".toList]

end Lss.Model
