/-
Agenthicc.Background.Queue — the queue policy: which records are pending, how
they age, and the order in which they are offered to the dispatcher.

The clock, the interval and a record's timestamp are floats. `seconds` is the
number the text of a float stands for, and differences are rounded; the whole
number of intervals in an age is exact up to 2^53.
-/
import Agenthicc.Background.Model
import Agenthicc.Python.Floats
import Agenthicc.Library.RoundRobin
import Mathlib.Algebra.Order.Floor.Ring
import Mathlib.Data.List.Sort
import Mathlib.Data.List.Dedup
import Mathlib.Data.Prod.Lex
import Mathlib.Data.String.Basic
import Mathlib.Data.Rat.Floor

namespace Agenthicc.Background

open Python

namespace BackgroundSession

def cwd (s : BackgroundSession) : String := s.value .cwd
def created_at (s : BackgroundSession) : PyFloat := s.value .created_at

end BackgroundSession

/-! ## 1. Records -/

/-- `_PRIORITY_BASE`. -/
def priorityBase : QueuePriority → Int
  | .low => 0
  | .normal => 1
  | .urgent => 2

/-- Whether a session is accepted but has not reserved a worker slot. -/
def isPendingQueueRecord (session : BackgroundSession) : Bool :=
  session.status = .queued && session.dispatch_state = .pending

/-- A started or reserved worker, never an unclaimed pending queue item. -/
def occupiesWorkerSlot (session : BackgroundSession) : Bool :=
  if session.status = .queued then
    -- a queued record without the pending marker may have a process in flight
    !isPendingQueueRecord session
  else
    [SessionStatus.starting, .running, .waitingApproval, .waitingInput, .retrying,
      .cancelling].contains session.status

/-! ## 2. Order -/

section Order

variable {r : Rounding} (seconds : PyFloat → r.Double) (now aging_interval_s : r.Double)

/-- `max(0.0, now - session.created_at)`. -/
def age (session : BackgroundSession) : ℚ := max 0 (r.fl (now.1 - (seconds session.created_at).1))

/-- An unbounded aged rank, so old low-priority work eventually wins. -/
def effectivePriorityRank (session : BackgroundSession) : Int :=
  priorityBase session.priority + ⌊age seconds now session / aging_interval_s.1⌋

/-- What the records of a project are sorted by. -/
def sortKey (session : BackgroundSession) : Int ×ₗ ℚ ×ₗ String :=
  toLex (-effectivePriorityRank seconds now aging_interval_s session,
    toLex ((seconds session.created_at).1, session.session_id))

/-- The pending records of a project, sorted. -/
def projectRecords (sessions : List BackgroundSession) (project : String) : List BackgroundSession :=
  (sessions.filter fun s => isPendingQueueRecord s && s.cwd = project).insertionSort fun a b =>
    sortKey seconds now aging_interval_s a ≤ sortKey seconds now aging_interval_s b

/-- `sorted(groups)`: the projects with pending records. -/
def sortedProjects (sessions : List BackgroundSession) : List String :=
  ((sessions.filter isPendingQueueRecord).map (·.cwd)).dedup.insertionSort (· ≤ ·)

/-- The projects in their turns: `last_project` comes last. -/
def projectTurns (sessions : List BackgroundSession) (last_project : String) : List String :=
  if last_project ∈ sortedProjects sessions then
    let pivot := (sortedProjects sessions).idxOf last_project + 1
    (sortedProjects sessions).drop pivot ++ (sortedProjects sessions).take pivot
  else sortedProjects sessions

/-- Pending records with project round-robin and aging within a project. No
project has more records than there are sessions, so the loop has ended after
`sessions.length + 1` rounds. -/
def fairQueueOrder (sessions : List BackgroundSession) (last_project : String) :
    List BackgroundSession :=
  RoundRobin.rounds (projectRecords seconds now aging_interval_s sessions)
    (projectTurns sessions last_project) (sessions.length + 1) 0

end Order

end Agenthicc.Background
