/-
Agenthicc.GoalRuns.Service — projecting a background session into a goal run.

`startChanges` and `startAgent` are what the tail of `start_detached` writes
once `submit` returned, `reconcileWrites` what `reconcile` writes after its
three reads. A `World` is the run's file, the session and the calls in flight:
each read and each section under the store's lock is a step of its own, and a
process may die in any of them, in the middle of an append too. `projected`
and `returned` record, for the statements only, which version of the session
each write came from and what the last write returned.
-/
import Agenthicc.Background.Store
import Agenthicc.GoalRuns.Store

namespace Agenthicc.GoalRuns

open Python Background

/-! ## 1. The projections of a session -/

def statusJson (status : GoalRunStatus) : Json := dumpEnum GoalRunStatus status

/-- The status that `start_detached` records: an accepted run is already
running. -/
def startStatus (s : BackgroundSession) : GoalRunStatus :=
  match s.status with
  | .queued => if s.dispatch_state = .pending then .queued else .running
  | .starting | .running => .running
  | .completed => .completed
  | .failed => .failed
  | .cancelled => .cancelled
  | .orphaned => .lost
  | _ => .needsAttention

/-- What `start_detached` updates the run with. -/
def startChanges (s : BackgroundSession) : List (String × Json) :=
  [("status", statusJson (startStatus s)),
    ("started_at", Json.ofOptFloat (if s.dispatch_state = .pending then none
      else BackgroundAttempt.orFloat s.started_at (some (s.value .created_at)))),
    ("main_session_id", .str s.session_id),
    ("main_agent_id", .str s.session_id),
    ("worker_pid", Json.ofOptInt s.worker_pid),
    ("worker_started_at", Json.ofOptFloat (s.value .worker_started_at)),
    ("worker_finished_at", Json.ofOptFloat (s.value .worker_finished_at)),
    ("worker_exit_code", Json.ofOptInt (s.value .worker_exit_code)),
    ("worker_exit_reason", .str s.worker_exit_reason),
    ("worker_finalization_attempts", .int (s.value .worker_finalization_attempts)),
    ("worker_cleanup_error", .str (s.value .worker_cleanup_error)),
    ("exit_code", Json.ofOptInt (s.value .worker_exit_code)),
    ("failure_reason", .str (s.error.getD ""))]

/-- The defaults of `RunAgentRecord`. -/
def agentDefaults : (f : AgentField) → f.Value
  | .role => "worker"
  | .status => "created"
  | .process_id | .exit_code => (none : Option Int)
  | .started_at | .completed_at | .last_heartbeat_at | .last_activity_at => (none : Option PyFloat)
  | .attempt => (0 : Int)
  | .heartbeat_stale => false
  | .requested_mode_name => (none : Option String)
  | .mode_application_status => ModeApplicationStatus.pending
  | .run_id | .task_id | .session_id | .workflow_run_id | .worktree_id | .worktree_path | .branch
  | .base_commit | .head_commit | .current_phase | .current_operation | .attention_reason
  | .exit_reason | .mode_name | .mode_application_error => ""

/-- The agent that `start_detached` links. -/
def startAgent (run_id : String) (s : BackgroundSession) : RunAgentRecord where
  id := s.session_id
  value
    | .run_id => run_id
    | .role => "main"
    | .session_id => s.session_id
    | .process_id => s.worker_pid
    | .status => StrEnum.value s.status
    | .started_at => s.started_at
    | .last_heartbeat_at => (some s.last_active : Option PyFloat)
    | .last_activity_at => (some s.last_active : Option PyFloat)
    | .current_phase => s.value .current_phase
    | .attempt => s.attempt
    | .heartbeat_stale => s.value .heartbeat_stale
    | .requested_mode_name => s.value .requested_mode_name
    | .mode_name => s.mode_name
    | .mode_application_status => s.mode_application_status
    | .mode_application_error => s.value .mode_application_error
    | .exit_code => s.value .worker_exit_code
    | .exit_reason => s.worker_exit_reason
    | f => agentDefaults f

/-- The row of `mapping` for a status, where it has one. -/
def mappedStatus (pending : Bool) : SessionStatus → Option GoalRunStatus
  | .queued => some (if pending then .queued else .starting)
  | .starting | .retrying => some .starting
  | .running => some .running
  | .completed => some .completed
  | .failed => some .failed
  | .cancelled | .cancelling => some .cancelled
  | .orphaned => some .lost
  | .waitingApproval | .waitingInput => some .waiting
  | .archived | .deleted => none

/-- The status of the session alone. -/
def sessionStatus (run : GoalRun) (s : BackgroundSession) : GoalRunStatus :=
  let pending := s.dispatch_state = .pending
  match s.status, s.attempt_history.getLast? with
  | .archived, some previous => (mappedStatus pending previous.status).getD run.status
  | status, _ => (mappedStatus pending status).getD .needsAttention

/-- The status that `reconcile` records: a completed run waits for its
children. -/
def reconciledStatus (run : GoalRun) (s : BackgroundSession) (children : List BackgroundSession) :
    GoalRunStatus :=
  let status := sessionStatus run s
  if status = .completed ∧ children.any (fun item => item.status ∈ ACTIVE_STATUSES) then .integrating
  else if status = .completed ∧
      children.any (fun item => item.status = .failed ∨ item.status = .orphaned) then .needsAttention
  else status

def currentError (s : BackgroundSession) : String :=
  if s.status = .failed ∨ s.status = .cancelled then s.error.getD "" else ""

def attentionReasons (s : BackgroundSession) : List String :=
  (if currentError s = "" then [] else [currentError s])
    ++ (if s.value .heartbeat_stale then ["main worker heartbeat is delayed"] else [])

/-- The exit code counts for a run that is over. -/
def reconciledExit (status : GoalRunStatus) (s : BackgroundSession) : Option Int :=
  if status = .completed ∨ status = .failed ∨ status = .cancelled then s.value .worker_exit_code
  else none

/-- The record shows all of this already. -/
def upToDate (run : GoalRun) (s : BackgroundSession) (status : GoalRunStatus) : Bool :=
  run.status = status
    && optionEq PyFloat.numEq run.completed_at (s.value .completed_at)
    && run.failure_reason = currentError s
    && run.attention_reasons = attentionReasons s
    && run.worker_pid = s.worker_pid
    && optionEq PyFloat.numEq run.worker_started_at (s.value .worker_started_at)
    && optionEq PyFloat.numEq run.worker_finished_at (s.value .worker_finished_at)
    && run.worker_exit_code = (s.value .worker_exit_code : Option Int)
    && run.worker_exit_reason = s.worker_exit_reason
    && run.worker_finalization_attempts = (s.value .worker_finalization_attempts : Int)
    && run.worker_cleanup_error = (s.value .worker_cleanup_error : String)
    && run.exit_code = reconciledExit status s

def reconcileChanges (s : BackgroundSession) (status : GoalRunStatus) : List (String × Json) :=
  [("status", statusJson status),
    ("completed_at", Json.ofOptFloat (s.value .completed_at)),
    ("failure_reason", .str (currentError s)),
    ("attention_reasons", .arr ((attentionReasons s).map .str)),
    ("worker_pid", Json.ofOptInt s.worker_pid),
    ("worker_started_at", Json.ofOptFloat (s.value .worker_started_at)),
    ("worker_finished_at", Json.ofOptFloat (s.value .worker_finished_at)),
    ("worker_exit_code", Json.ofOptInt (s.value .worker_exit_code)),
    ("worker_exit_reason", .str s.worker_exit_reason),
    ("worker_finalization_attempts", .int (s.value .worker_finalization_attempts)),
    ("worker_cleanup_error", .str (s.value .worker_cleanup_error)),
    ("exit_code", Json.ofOptInt (reconciledExit status s))]

/-- What `reconcile` writes once the session is missing. -/
def missingChanges : List (String × Json) :=
  [("status", statusJson .needsAttention),
    ("attention_reasons", .arr [.str "main background session is missing"])]

/-- What `reconcile` writes after its reads. -/
def reconcileWrites (run : GoalRun) (s : BackgroundSession) (children : List BackgroundSession) :
    List RunStore.Write :=
  let status := reconciledStatus run s children
  if upToDate run s status then [] else [.update (reconcileChanges s status)]

/-! ## 2. Calls in flight -/

/-- A call of the launcher, the worker or an observer, between its steps. -/
inductive Call where
  | idle
  /-- `reconcile` has read the run. -/
  | reconciling (run : GoalRun)
  /-- `reconcile` has read the session too, at a version of it. -/
  | listing (run : GoalRun) (session : BackgroundSession) (version : Nat)
  /-- The writes ahead, and the version of the session they come from; there
  is none when the session was missing. -/
  | writing (version : Option Nat) (writes : List RunStore.Write)

/-- What a projection of the session is written to. -/
inductive Target where
  | run
  | agent (agent_id : String)
  deriving DecidableEq

namespace RunStore.Write

/-- What a call writes its view of the session to. -/
def targets : Write → List Target
  | .update _ => [.run]
  | .linkAgent agent => [.agent agent.id]
  | .projectSessionAttempt _ _ agent _ => [.run, .agent agent.id]

end RunStore.Write

structure Projected where
  target : Target
  version : Nat

/-- The views of the session that a write leaves in the file. -/
def views (version : Option Nat) (call : RunStore.Write) : List Projected :=
  match version with
  | some v => call.targets.map fun t => ⟨t, v⟩
  | none => []

structure World where
  text : List Char
  session : BackgroundSession
  version : Nat := 0
  calls : Nat → Call := fun _ => .idle
  /-- The writes so far, in order. -/
  projected : List Projected := []
  /-- What the last write returned, its record being in the file. -/
  returned : Option GoalRun := none

inductive Step where
  /-- The session moves forward. -/
  | moves (session : BackgroundSession)
  /-- `start_detached`, behind `submit`, reads the session. -/
  | startReads (i : Nat)
  /-- `reconcile` reads the run. -/
  | reconcileReadsRun (i : Nat) (now : Clock)
  | reconcileReadsSession (i : Nat)
  | reconcileLists (i : Nat) (children : List BackgroundSession)
  /-- A caller of `link_agent` reads the session and makes an agent of it. -/
  | linkReads (i : Nat) (agent : RunAgentRecord)
  /-- The same for `project_session_attempt`. -/
  | projectReads (i : Nat) (session_id : String) (attempt : Int) (agent : RunAgentRecord)
      (changes : List (String × Json))
  /-- The section of the next write under the lock. -/
  | write (i : Nat) (now : Clock)
  /-- The process dies with a part of the line in the file. -/
  | writeCut (i : Nat) (now : Clock) (part : List Char)
  | dies (i : Nat)

namespace World

variable (py : Interp) (run_id : String)

def setCall (w : World) (i : Nat) (call : Call) : World :=
  { w with calls := Function.update w.calls i call }

/-- The world behind a write whose record is in the file. -/
def record (w : World) (version : Option Nat) (call : RunStore.Write) (written : RunStore.Written)
    (line : List Char) : World :=
  { w with
    text := w.text ++ line
    projected := w.projected ++ views version call
    returned := some written.run }

def step (w : World) : Step → World
  | .moves session => { w with session := session, version := w.version + 1 }
  | .startReads i =>
      match w.calls i with
      | .idle => w.setCall i (.writing (some w.version)
          [.update (startChanges w.session), .linkAgent (startAgent run_id w.session)])
      | _ => w
  | .reconcileReadsRun i now =>
      match w.calls i with
      | .idle =>
          match RunStore.get py now w.text run_id with
          | .ok run => if run.main_session_id = "" then w else w.setCall i (.reconciling run)
          | .error _ => w
      | _ => w
  | .reconcileReadsSession i =>
      match w.calls i with
      | .reconciling run =>
          if run.main_session_id = w.session.session_id then
            w.setCall i (.listing run w.session w.version)
          else w.setCall i (.writing none [.update missingChanges])
      | _ => w
  | .reconcileLists i children =>
      match w.calls i with
      | .listing run session version =>
          w.setCall i (.writing (some version) (reconcileWrites run session children))
      | _ => w
  | .linkReads i agent =>
      match w.calls i with
      | .idle => w.setCall i (.writing (some w.version) [.linkAgent agent])
      | _ => w
  | .projectReads i session_id attempt agent changes =>
      match w.calls i with
      | .idle => w.setCall i (.writing (some w.version)
          [.projectSessionAttempt session_id attempt agent changes])
      | _ => w
  | .write i now =>
      match w.calls i with
      | .writing version (call :: rest) =>
          match call.perform py now w.text run_id with
          | .ok written =>
              if written.line = [] then w.setCall i (.writing version rest)
              else (w.record version call written written.line).setCall i (.writing version rest)
          | .error _ => w.setCall i .idle
      | .writing _ [] => w.setCall i .idle
      | _ => w
  | .writeCut i now part =>
      match w.calls i with
      | .writing version (call :: _) =>
          match call.perform py now w.text run_id with
          | .ok written =>
              if part <+: written.line ∧ part ≠ written.line then
                if part ++ ['\n'] = written.line then
                  (w.record version call written part).setCall i .idle
                else { w with text := w.text ++ part }.setCall i .idle
              else w
          | .error _ => w
      | _ => w
  | .dies i => w.setCall i .idle

end World

end Agenthicc.GoalRuns
