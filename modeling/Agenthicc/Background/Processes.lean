/-
Agenthicc.Background.Processes — several processes on one session of the
registry.

A process runs one operation at a time. What it reads outside the registry
lock and what it does inside are steps of their own, and between any two
steps of one process the others act. A process can crash at any time; what
it appended stays.

`Registry.log` is the history of a run, kept beside the registry: each step
of an operation with the record before and after it, and what the operation
returned or raised where that step was its last. No operation looks at it.
-/
import Agenthicc.Background.Store

namespace Agenthicc.Background

open Python

/-- The calls that a process makes on a session. -/
inductive Operation (session_id : String) where
  | create (session : BackgroundSession) (h : session.session_id = session_id)
  | update (expected : Expected) (changes : Dict String Arg)
  | transition (target : SessionStatus) (expected : Expected) (changes : Dict String Arg)
  | claim (pid : Int) (lease_token : String) (dispatch_token : Option String)
  | heartbeat (lease_token : String) (attempt : Option Int) (phase activity : String)
      (tokens_in tokens_out : Option Int) (cost_usd : Option PyFloat)
  | recordWorkerExit (expected_attempt : Option Int) (details : List (String × Json))
  | markOrphaned (expected : Expected)
  | archive
  | restoreArchive
  | changePriority (priority : QueuePriority) (changed_by : String)
  | delete (force : Bool) (operation_id : String) (trash : Except PyError String)
  | restoreDeleted (artifact_dir : Except PyError String)

def Operation.prog {session_id : String} (py : Interp) (clock : Nat → PyFloat) :
    Operation session_id → Prog BackgroundSession
  | .create session _ => Background.create session
  | .update expected changes => Background.update expected changes
  | .transition target expected changes =>
      Background.transition py clock session_id target expected changes
  | .claim pid lease_token dispatch_token =>
      Background.claim py clock session_id pid lease_token dispatch_token
  | .heartbeat lease_token attempt phase activity tokens_in tokens_out cost_usd =>
      Background.heartbeat clock session_id lease_token attempt phase activity tokens_in
        tokens_out cost_usd
  | .recordWorkerExit expected_attempt details =>
      Prog.atomically (.recordWorkerExit expected_attempt details)
  | .markOrphaned expected => Background.markOrphaned py clock session_id expected
  | .archive => Background.archive py clock session_id
  | .restoreArchive => Background.restoreArchive session_id
  | .changePriority priority changed_by => Background.changePriority priority changed_by
  | .delete force operation_id trash => Background.delete force operation_id trash
  | .restoreDeleted artifact_dir => Background.restoreDeleted artifact_dir

/-- An operation that is under way. -/
structure Process (session_id : String) where
  operation : Operation session_id
  prog : Prog BackgroundSession
  /-- The status of the session when the process last read it outside the
  lock. -/
  seen : Option SessionStatus := none

/-- What a process that is at its end returned or raised. -/
def Process.returned {session_id : String} (process : Process session_id) :
    Option (Except PyError BackgroundSession) :=
  match process.prog with
  | .done r => some (.ok r)
  | .raise exc => some (.error exc)
  | .get _ | .locked _ _ => none

/-- One step of an operation. -/
structure Entry (session_id : String) where
  operation : Operation session_id
  before : Option BackgroundSession
  after : Option BackgroundSession
  returned : Option (Except PyError BackgroundSession)

structure Registry (session_id : String) where
  record : Option BackgroundSession := none
  events : List Json := []
  processes : Nat → Option (Process session_id) := fun _ => none
  log : List (Entry session_id) := []

inductive Action (session_id : String) where
  | start (p : Nat) (operation : Operation session_id) (clock : Nat → PyFloat)
  /-- The next step of the operation that `p` runs. -/
  | step (p : Nat) (clock : Nat → PyFloat)
  | crash (p : Nat)

namespace Registry

variable {session_id : String}

/-- A step of a process: the process, the record and the event after it. -/
def advance (py : Interp) (clock : Nat → PyFloat) (seq : Int) (record : Option BackgroundSession)
    (process : Process session_id) :
    Process session_id × Option BackgroundSession × Option Json :=
  match process.prog with
  | .done _ | .raise _ => (process, record, none)
  | .get next =>
      ({ process with prog := next record, seen := record.map (·.status) }, record, none)
  | .locked op next =>
      let outcome := op.perform py clock seq session_id record
      let prog :=
        match outcome.result with
        | .ok r => next r
        | .error exc => .raise exc
      ({ process with prog := prog }, outcome.record, outcome.event)

def step (py : Interp) (w : Registry session_id) : Action session_id → Registry session_id
  | .start p operation clock =>
      if (w.processes p).isSome then w
      else
        { w with
          processes := Function.update w.processes p
            (some { operation := operation, prog := operation.prog py clock }) }
  | .step p clock =>
      match w.processes p with
      | none => w
      | some process =>
          let (process', record, event) :=
            advance py clock (w.events.length + 1) w.record process
          { record := record
            events := w.events ++ event.toList
            processes := Function.update w.processes p
              (if process'.returned.isSome then none else some process')
            log := w.log ++ [⟨process.operation, w.record, record, process'.returned⟩] }
  | .crash p => { w with processes := Function.update w.processes p none }

def run (py : Interp) (w : Registry session_id) (actions : List (Action session_id)) :
    Registry session_id := actions.foldl (step py) w

end Registry

end Agenthicc.Background
