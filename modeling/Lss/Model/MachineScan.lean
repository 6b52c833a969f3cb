import Mathlib.Data.List.Sort
import Lss.Model.EngineDetect

/-!
# The servers of a machine

The ports of a machine are asked for the engines that answer there. The ports that engines usually
listen on are asked in full; every other port is asked for its model first, and for nothing more
where an engine that was already found serves that model.
-/

set_option autoImplicit false

namespace Lss.Model.Detect

/-- One server of a machine.
SOURCE: lss-core/src/engine.rs:854-861 -/
structure Found where
  kind : EngineKind
  url : String
  why : String
  identity : EngineIdentity

/-- The ports that engines listen on.
SOURCE: lss-core/src/engine.rs:822 -/
def commonPorts : List ℕ := [30000, 8000, 8080, 11434, 1234, 3000, 8090, 8001, 5000, 9000, 80]

def urlOf (port : ℕ) : String := "http://127.0.0.1:" ++ toString port

section Scan

-- reads a value from its text, when it is one
variable (fromStr : String → Option Json)

-- what the server on a port answers to a path
variable (servers : ℕ → String → Answer)

/-- SOURCE: lss-collector/src/detect.rs:47-54 -/
def detectOne (port : ℕ) : Option Found :=
  (detect fromStr (servers port)).map fun d =>
    ⟨d.1, urlOf port, d.2, (adapterIdentity fromStr d.1).eval (servers port)⟩

/-- What a list of servers is ordered by: an engine that is known before one that is not, one that
serves a model before one that does not. -/
def Found.before (a b : Found) : Prop :=
  let known := fun f : Found => decide (f.kind = .openAi)
  let idle := fun f : Found => f.identity.model.isNone
  known a < known b ∨ known a = known b ∧ (idle a < idle b ∨ idle a = idle b ∧ a.url ≤ b.url)

instance : DecidableRel Found.before :=
  fun _ _ => inferInstanceAs (Decidable (_ ∨ _ ∧ (_ ∨ _ ∧ _)))

/-- The models of the engines that are known. -/
def nativeModels (found : List Found) : List (Option String) :=
  (found.filter fun f => f.kind ≠ .openAi).map fun f => f.identity.model

/-- SOURCE: lss-collector/src/detect.rs:106-114 -/
def rank (found : List Found) : List Found :=
  (found.filter fun f => f.kind ≠ .openAi || !(nativeModels found).contains f.identity.model).insertionSort
    Found.before

/-- A port that is not one of the usual ones: nothing more is asked of it where a known engine
serves its model.
SOURCE: lss-collector/src/detect.rs:88-97 -/
def detectSecondary (known : List String) (port : ℕ) : Option Found :=
  match (openaiModel fromStr).eval (servers port) with
  | .ok m => if known.contains m then none else detectOne fromStr servers port
  | .error _ => detectOne fromStr servers port

/-- SOURCE: lss-collector/src/detect.rs:78-104 -/
def scanPorts (primary secondary : List ℕ) : List Found :=
  let found := primary.filterMap (detectOne fromStr servers)
  let known := (nativeModels found).reduceOption
  rank (found ++ secondary.filterMap (detectSecondary fromStr servers known))

/-- SOURCE: lss-collector/src/detect.rs:70-74 -/
def scan (ports : List ℕ) : List Found × List ℕ :=
  (scanPorts fromStr servers (ports.filter (· ∈ commonPorts)) (ports.filter (· ∉ commonPorts)), ports)

end Scan

end Lss.Model.Detect
