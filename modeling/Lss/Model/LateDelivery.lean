import Mathlib.Data.Int.Notation
import Mathlib.Data.Nat.Notation
import Mathlib.Logic.Function.Basic

/-!
# Alerts delivered late

The alert script appends the id of a mail that got through late to a file. The collector takes the
file by another name, reads it, removes it and marks the alerts. Both go on at the same time, and the
collector may stop and be started again. A file is there as long as a name leads to it or somebody
has it open.
-/

set_option autoImplicit false

namespace Lss.Model.LateDelivery

/-- Where a call of the script stands that appends one line.

SOURCE: scripts/lss-alert.sh:159 -/
inductive Writer where
  | closed
  | opened (file : ℕ)
  | written
deriving DecidableEq

/-- Where the collector stands: it is not running, between two jobs, or in the course of a take.

SOURCE: lss-collector/src/alert.rs:56-59, 76-84 -/
inductive Phase where
  | down
  | idle
  | renamed
  | read (ids : List ℤ)
  | removed (ids : List ℤ)
  | marking (ids : List ℤ)
deriving DecidableEq

/-- The state directory, the calls of the script, the collector and its table of alerts. The last
three are kept for the record only: the ids that were appended, those that were returned by a take,
and those that were removed from disk before they were marked. -/
structure World where
  /-- the ids in a file, one a line -/
  content : ℕ → List ℤ := fun _ => []
  /-- how many files there have been -/
  files : ℕ := 0
  /-- `mail-delivered.ids` -/
  ids : Option ℕ := none
  /-- `mail-delivered.ids.taken` -/
  taken : Option ℕ := none
  writers : ℕ → Writer := fun _ => .closed
  phase : Phase := .idle
  marked : List ℤ := []
  appended : List ℤ := []
  returned : List ℤ := []
  early : List ℤ := []

namespace World

/-- What a name leads to. -/
def idsIn (s : World) (name : Option ℕ) : List ℤ := name.elim [] s.content

/-- The ids in the file that was taken that are not marked. -/
def unmarkedTaken (s : World) : List ℤ := (s.idsIn s.taken).filter fun id => decide (id ∉ s.marked)

end World

/-- What happens next: a call of the script opens the file, writes its line or ends; the collector
goes on with its take; or it stops or starts. -/
inductive Action where
  | openIds (w : ℕ)
  | write (w : ℕ) (id : ℤ)
  | close (w : ℕ)
  | rename
  | read
  | remove
  | give
  | mark
  | stop
  | start

/-- The file is opened for appending, and made where there is none. -/
def openIds (s : World) (w : ℕ) : World :=
  match s.writers w, s.ids with
  | .closed, some f => { s with writers := Function.update s.writers w (.opened f) }
  | .closed, none =>
    { s with
      files := s.files + 1
      ids := some s.files
      writers := Function.update s.writers w (.opened s.files) }
  | _, _ => s

/-- A line is written to the file that was opened, whatever its name is now.

SOURCE: scripts/lss-alert.sh:159 -/
def writeId (s : World) (w : ℕ) (id : ℤ) : World :=
  match s.writers w with
  | .opened f =>
    { s with
      content := Function.update s.content f (s.content f ++ [id])
      writers := Function.update s.writers w .written
      appended := s.appended ++ [id] }
  | _ => s

/-- The file is taken; a file that was taken before and is still there is gone by that.

SOURCE: lss-collector/src/alert.rs:77-80 -/
def renameIds (s : World) : World :=
  match s.phase, s.ids with
  | .idle, some f =>
    { s with ids := none, taken := some f, phase := .renamed, early := s.early ++ s.unmarkedTaken }
  | _, _ => s

/-- One thing happens. What cannot happen now leaves everything as it is.

SOURCE: lss-collector/src/alert.rs:56-66, 76-84 -/
def step (s : World) : Action → World
  | .openIds w => openIds s w
  | .write w id => writeId s w id
  | .close w => { s with writers := Function.update s.writers w .closed }
  | .rename => renameIds s
  | .read =>
    match s.phase with
    | .renamed => { s with phase := .read (s.idsIn s.taken) }
    | _ => s
  | .remove =>
    match s.phase with
    | .read ids =>
      { s with taken := none, phase := .removed ids, early := s.early ++ s.unmarkedTaken }
    | _ => s
  | .give =>
    match s.phase with
    | .removed ids => { s with phase := .marking ids, returned := s.returned ++ ids }
    | _ => s
  | .mark =>
    match s.phase with
    | .marking [] => { s with phase := .idle }
    | .marking (id :: ids) => { s with phase := .marking ids, marked := s.marked ++ [id] }
    | _ => s
  | .stop => { s with phase := .down }
  | .start =>
    match s.phase with
    | .down => { s with phase := .idle }
    | _ => s

/-- What has happened one after the other, from an empty state directory on. -/
def run (actions : List Action) : World := actions.foldl step {}

end Lss.Model.LateDelivery
