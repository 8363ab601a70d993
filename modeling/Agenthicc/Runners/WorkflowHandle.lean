/-
Agenthicc.Runners.WorkflowHandle — the handle of one workflow run, and its
checkpoint.

Of the handle's fields the provider profile, the prompt cache, the browser
and the continuation queue are left out: a checkpoint copies them and
`from_checkpoint` copies them back. The checks of the plugin and of the
conversation in `from_checkpoint` are one argument of it.

An exception is what the handle makes of it: a safe message and a
classification. `SaveOutcome` says how the store fares with the one save and
the one diagnostic of an operation; an exception may come before or after
the file is in place.
-/
import Agenthicc.Python.Builtins
import Agenthicc.Python.JsonLines

namespace Agenthicc.Runners.Workflow

open Python

/-! ## 1. Data -/

inductive WorkflowLifecycle where
  | running
  | pausing
  | paused
  | resuming
  | complete
  | failed
  | discarded
  deriving DecidableEq, Repr

inductive WorkflowFailureKind where
  | providerTransient
  | providerConfiguration
  | providerRequest
  | providerHistory
  | toolTransient
  | phaseExecution
  | userCancelled
  | processInterrupted
  | configuration
  | timeout
  | checkpointSerialization
  | checkpointStorage
  | workflowInvariant
  | pluginIncompatible
  | workflowError
  deriving DecidableEq, Repr

/-- Nothing is to come after. -/
def WorkflowLifecycle.final : WorkflowLifecycle → Bool
  | complete | discarded => true
  | _ => false

def WorkflowLifecycle.terminal : WorkflowLifecycle → Bool
  | complete | failed | discarded => true
  | _ => false

namespace WorkflowFailureKind

def value : WorkflowFailureKind → String
  | providerTransient => "provider_transient"
  | providerConfiguration => "provider_configuration"
  | providerRequest => "provider_request"
  | providerHistory => "provider_history"
  | toolTransient => "tool_transient"
  | phaseExecution => "phase_execution"
  | userCancelled => "user_cancelled"
  | processInterrupted => "process_interrupted"
  | configuration => "configuration"
  | timeout => "timeout"
  | checkpointSerialization => "checkpoint_serialization"
  | checkpointStorage => "checkpoint_storage"
  | workflowInvariant => "workflow_invariant"
  | pluginIncompatible => "plugin_incompatible"
  | workflowError => "workflow_error"

def all : List WorkflowFailureKind :=
  [providerTransient, providerConfiguration, providerRequest, providerHistory, toolTransient, phaseExecution,
    userCancelled, processInterrupted, configuration, timeout, checkpointSerialization, checkpointStorage,
    workflowInvariant, pluginIncompatible, workflowError]

/-- `_normalize_failure_kind`. -/
def normalize (label : String) : WorkflowFailureKind := (all.find? (·.value = label)).getD workflowError

/-- The categories that the classification of the exception replaces. -/
def generic : WorkflowFailureKind → Bool
  | workflowError | phaseExecution | configuration => true
  | providerTransient | providerConfiguration | providerRequest | providerHistory => true
  | _ => false

end WorkflowFailureKind

structure WorkflowFailureDisposition where
  kind : WorkflowFailureKind
  retryable : Bool
  provider : Option String := none
  model : Option String := none
  status_code : Option Int := none
  deriving DecidableEq

/-- An exception: `_safe_failure_message` and `classify_workflow_failure` of it. -/
structure Failure where
  message : String
  disposition : WorkflowFailureKind → WorkflowFailureDisposition

/-- The typed context of a runner: the name of its `state` and the names of
that enumeration, its `current_phase`, and whether the two can be set. -/
structure Context where
  state : Option String := none
  members : List String := []
  current_phase : Option String := none
  phase_iteration : Option Int := none
  state_settable : Bool := true
  phase_settable : Bool := true
  fields : String := ""
  deriving DecidableEq

/-- A topology that has passed its checks. -/
structure WorkflowCheckpointTopology where
  workflow_name : String
  topology_version : String
  profile : String
  phase_names : List String
  nonempty : phase_names ≠ []
  nodup : phase_names.Nodup
  next_phases : List (Option String) := []
  reject_phases : List (Option String) := []

def validationError (message : String) : PyError := .raised "CheckpointValidationError" message

def WorkflowCheckpointTopology.indexFor (t : WorkflowCheckpointTopology) (phase : String) : Except PyError Nat :=
  if phase ∈ t.phase_names then .ok (t.phase_names.idxOf phase)
  else .error (validationError ("phase '" ++ phase ++ "' is absent from the checkpoint topology"))

/-- A workflow plugin, its codec, and the string methods of the interpreter. -/
structure Plugin where
  name : String
  /-- The names of its phases, stripped and in lower case. -/
  phases : List String
  encode : Context → Except PyError Json
  decode : Json → Except PyError Context
  resolve : Json → Except PyError WorkflowCheckpointTopology
  topology_fingerprint : WorkflowCheckpointTopology → String
  lower : String → String
  upper : String → String

structure WorkflowRunHandle where
  run_id : String
  workflow_name : String
  context : Option Context := none
  lifecycle : WorkflowLifecycle := .running
  current_phase : Option String := none
  phase_index : Int := 0
  phase_iteration : Int := 0
  checkpoint_revision : Nat := 0
  checkpoint_supported : Bool := true
  pause_requested : Bool := false
  last_error : String := ""
  context_ready : Bool := false
  pause_reason : String := "none"
  failure_kind : Option WorkflowFailureKind := none
  failure_message : Option String := none
  failure_retryable : Option Bool := none
  failure_provider : Option String := none
  failure_model : Option String := none
  failure_status_code : Option Int := none
  last_safe_boundary : Option String := none
  error_revision : Nat := 0
  topology_version : String := ""
  topology_fingerprint : String := ""
  topology_profile : String := ""
  topology_phase_names : List String := []
  deriving DecidableEq

structure WorkflowCheckpoint where
  run_id : String
  workflow_name : String
  status : WorkflowLifecycle
  current_phase : Option String
  phase_index : Int
  phase_iteration : Int
  context : Json
  revision : Nat
  reason : String
  context_ready : Bool
  pause_reason : String
  failure_kind : Option WorkflowFailureKind
  failure_message : Option String
  failure_retryable : Option Bool
  failure_provider : Option String
  failure_model : Option String
  failure_status_code : Option Int
  resumable : Bool
  last_safe_boundary : Option String
  error_revision : Nat
  topology_version : String
  topology_fingerprint : String
  topology_profile : String
  topology_phase_names : List String
  updated_at : Nat
  deriving DecidableEq

/-- What is kept of a failure without a valid context. -/
structure RecoveryError where
  run_id : String
  workflow_name : String
  phase : Option String
  phase_index : Int
  failure_kind : WorkflowFailureKind
  failure_message : String
  failure_retryable : Option Bool
  failure_provider : Option String
  failure_model : Option String
  failure_status_code : Option Int
  record_revision : Nat
  context_ready : Bool
  deriving DecidableEq

structure WorkflowCheckpointStore where
  checkpoint : Option WorkflowCheckpoint := none
  recovery_error : Option RecoveryError := none

structure SaveOutcome where
  raises : Option PyError := none
  /-- The exception comes when the file is in place. -/
  written : Bool := false
  /-- Deleting the diagnostic of an earlier failure fails. -/
  keeps_error : Bool := false
  /-- Saving a diagnostic fails. -/
  loses_error : Bool := false
  now : Nat := 0

/-- A handle and the store below it. -/
structure Run where
  handle : WorkflowRunHandle
  store : WorkflowCheckpointStore

/-! ## 2. The store -/

/-- `save`: never an older revision, nor another checkpoint of the same. -/
def WorkflowCheckpointStore.save (s : WorkflowCheckpointStore) (o : SaveOutcome) (c : WorkflowCheckpoint) :
    WorkflowCheckpointStore × Except PyError Unit :=
  match o.raises with
  | some exc => if o.written ∧ (∀ e, s.checkpoint = some e → e.revision < c.revision) then
      ({ s with checkpoint := some c }, .error exc) else (s, .error exc)
  | none =>
      match s.checkpoint with
      | some existing =>
          if c.revision < existing.revision then
            (s, .error (validationError "checkpoint revision is older than the durable revision"))
          else if c.revision = existing.revision then
            if c = existing then (s, .ok ())
            else (s, .error (validationError "checkpoint revision conflicts with the durable checkpoint"))
          else ({ s with checkpoint := some c }, .ok ())
      | none => ({ s with checkpoint := some c }, .ok ())

variable (p : Plugin)

namespace WorkflowRunHandle

variable (h : WorkflowRunHandle)

/-! ## 3. Topology and cursor -/

def normalized (text : Option String) : String :=
  match text with
  | some s => p.lower (String.ofList (strip s.toList))
  | none => ""

def activeTopology (ctx : Context) : Except PyError WorkflowCheckpointTopology := do
  let payload ← p.encode ctx
  let topology ← p.resolve payload
  if topology.workflow_name ≠ p.name then
    throw (validationError "checkpoint topology workflow name does not match the loaded workflow")
  if topology.workflow_name ≠ h.workflow_name then
    throw (validationError "checkpoint topology workflow name does not match the run handle")
  pure topology

/-- `set_checkpoint_topology`, behind its check. -/
def withTopology (t : WorkflowCheckpointTopology) : WorkflowRunHandle :=
  { h with
    topology_version := t.topology_version
    topology_fingerprint := p.topology_fingerprint t
    topology_profile := t.profile
    topology_phase_names := t.phase_names }

/-- `_resolve_checkpoint_topology`. -/
def resolveTopology (ctx : Context) : WorkflowRunHandle × Except PyError WorkflowCheckpointTopology :=
  match h.activeTopology p ctx with
  | .ok t => (h.withTopology p t, .ok t)
  | .error exc => (h, .error exc)

/-- The classes that stand for a context which cannot be saved. -/
def badContext (exc : PyError) : Bool := exc.className ∈ ["CheckpointValidationError", "TypeError", "ValueError"]

/-- The names that a cursor is looked up in. -/
def cursorNames (topology : Except PyError WorkflowCheckpointTopology) : Except PyError (List String) :=
  match topology with
  | .ok t => .ok t.phase_names
  | .error exc => if badContext exc then .ok p.phases else .error exc

/-- The phase that a context is in: its `state` where that is a phase, else
its `current_phase`. -/
def cursorPhase (names : List String) (ctx : Context) : String :=
  let fromState := normalized p ctx.state
  if fromState ≠ "" ∧ (names = [] ∨ fromState ∈ names) then fromState else normalized p ctx.current_phase

def indexAmong (names : List String) (phase : String) : Int :=
  if phase ∈ names then names.idxOf phase else h.phase_index

/-- There is no such phase, or the handle is past it. -/
def passes (names : List String) (phase : String) : Bool :=
  phase = "" || (names ≠ [] && phase ∉ names) || (h.current_phase.isSome && h.indexAmong names phase < h.phase_index)

/-- The cursor of a context moves the handle, but never back. -/
def moveTo (names : List String) (phase : String) (ctx : Context) : WorkflowRunHandle × Bool :=
  if h.passes names phase then (h, false)
  else
    let index := h.indexAmong names phase
    let changed := h.current_phase ≠ some phase ∨ h.phase_index ≠ index
    let moved := { h with current_phase := some phase, phase_index := index }
    match ctx.phase_iteration with
    | some iteration =>
        if 0 ≤ iteration then
          ({ moved with phase_iteration := iteration }, changed ∨ iteration ≠ h.phase_iteration)
        else (moved, changed)
    | none => (moved, changed)

/-- `sync_context_cursor`. -/
def syncContextCursor : WorkflowRunHandle × Except PyError Bool :=
  match h.context with
  | none => (h, .ok false)
  | some ctx =>
      match h.resolveTopology p ctx with
      | (h, topology) =>
          match cursorNames p topology with
          | .error exc => (h, .error exc)
          | .ok names => ((h.moveTo names (cursorPhase p names ctx) ctx).1,
              .ok (h.moveTo names (cursorPhase p names ctx) ctx).2)

/-! ## 4. Checkpoints -/

def resumable : Bool := h.context_ready && h.context.isSome && h.checkpoint_supported

/-- The named phase is authoritative for the index. -/
def indexed (t : WorkflowCheckpointTopology) : Except PyError WorkflowRunHandle :=
  match h.current_phase with
  | some phase => (t.indexFor phase).map fun index => { h with phase_index := index }
  | none => .ok h

def checkpointOf (payload : Json) (reason : String) (now : Nat) : WorkflowCheckpoint where
  run_id := h.run_id
  workflow_name := h.workflow_name
  status := h.lifecycle
  current_phase := h.current_phase
  phase_index := h.phase_index
  phase_iteration := h.phase_iteration
  context := payload
  revision := h.checkpoint_revision + 1
  reason := if reason ≠ "" then reason else h.last_error
  context_ready := h.context_ready
  pause_reason := h.pause_reason
  failure_kind := h.failure_kind
  failure_message := h.failure_message
  failure_retryable := h.failure_retryable
  failure_provider := h.failure_provider
  failure_model := h.failure_model
  failure_status_code := h.failure_status_code
  resumable := h.resumable
  last_safe_boundary := h.last_safe_boundary
  error_revision := h.error_revision
  topology_version := h.topology_version
  topology_fingerprint := h.topology_fingerprint
  topology_profile := h.topology_profile
  topology_phase_names := h.topology_phase_names
  updated_at := now

/-- `build_checkpoint`. -/
def buildCheckpoint (reason : String) (now : Nat) : WorkflowRunHandle × Except PyError WorkflowCheckpoint :=
  match h.context with
  | none => (h, .error (.valueError "cannot checkpoint a workflow before its context exists"))
  | some ctx =>
      match p.encode ctx with
      | .error exc => (h, .error exc)
      | .ok payload =>
          match h.resolveTopology p ctx with
          | (h, .error exc) => (h, .error exc)
          | (h, .ok topology) =>
              match h.indexed topology with
              | .error exc => (h, .error exc)
              | .ok h => (h, .ok (h.checkpointOf payload reason now))

end WorkflowRunHandle

namespace Run

variable (r : Run)

def withHandle (h : WorkflowRunHandle) : Run := { r with handle := h }

/-- `save_checkpoint`. -/
def saveCheckpoint (reason : String) (o : SaveOutcome) : Run × Except PyError WorkflowCheckpoint :=
  match r.handle.buildCheckpoint p reason o.now with
  | (h, .error exc) => (r.withHandle h, .error exc)
  | (h, .ok checkpoint) =>
      match r.store.save o checkpoint with
      | (store, .error exc) => (⟨h, store⟩, .error exc)
      | (store, .ok ()) =>
          (⟨{ h with checkpoint_revision := checkpoint.revision },
            { store with recovery_error := if o.keeps_error then store.recovery_error else none }⟩, .ok checkpoint)

def isValidation (exc : PyError) : Bool := exc.className = "CheckpointValidationError"

/-- `persist_checkpoint`. -/
def persistCheckpoint (reason : String) (o : SaveOutcome) : Run × Except PyError Unit :=
  if r.handle.context = none ∨ r.handle.checkpoint_supported = false then (r, .ok ())
  else
    match r.saveCheckpoint p reason o with
    | (r, .ok _) => (r, .ok ())
    | (r, .error exc) =>
        (if isValidation exc then r.withHandle { r.handle with checkpoint_supported := false } else r, .error exc)

/-! ## 5. Phases -/

/-- The index that a context's topology has for the phase of the handle. -/
def reindex (r : Run) : Run × Except PyError Unit :=
  match r.handle.context with
  | none => (r, .ok ())
  | some ctx =>
      match r.handle.resolveTopology p ctx with
      | (h, .error exc) => (r.withHandle h, .error exc)
      | (h, .ok topology) =>
          match h.indexed topology with
          | .error exc => (r.withHandle h, .error exc)
          | .ok h => (r.withHandle h, .ok ())

/-- `update_phase`. -/
def updatePhase (phase : Option String) (index iteration : Int) (persist : Bool) (o : SaveOutcome) :
    Run × Except PyError Unit :=
  let entered := r.withHandle { r.handle with
    current_phase := phase
    phase_index := index
    phase_iteration := iteration }
  match entered.reindex p with
  | (r, .error exc) => (r, .error exc)
  | (r, .ok ()) => if persist then r.persistCheckpoint p "phase_started" o else (r, .ok ())

def syncContextCursor : Run × Except PyError Bool :=
  (r.withHandle (r.handle.syncContextCursor p).1, (r.handle.syncContextCursor p).2)

/-- The state of the context, unless it is a terminal one. -/
def transitionPhase (h : WorkflowRunHandle) : Option String :=
  match h.context with
  | some ctx =>
      match ctx.state with
      | some name => if p.lower name ∈ ["complete", "exited", "failed"] then none else some (p.lower name)
      | none => none
  | none => none

/-- The handle at the newly selected state. -/
def selected (h : WorkflowRunHandle) (phase : String) : WorkflowRunHandle :=
  { h with
    current_phase := some phase
    phase_iteration := match h.context with
      | some ctx => match ctx.phase_iteration with
        | some iteration => if 0 ≤ iteration then iteration else h.phase_iteration
        | none => h.phase_iteration
      | none => h.phase_iteration }

/-- `persist_context_transition`. -/
def persistContextTransition (reason : String) (o : SaveOutcome) : Run × Except PyError Unit :=
  match transitionPhase p r.handle with
  | none => (r, .ok ())
  | some phase =>
      match (r.withHandle (selected r.handle phase)).syncContextCursor p with
      | (r, .error exc) => (r, .error exc)
      | (r, .ok _) => r.persistCheckpoint p reason o

/-! ## 6. Lifecycle -/

/-- `request_pause`. -/
def requestPause : Run × Bool :=
  if r.handle.lifecycle ≠ .running ∧ r.handle.lifecycle ≠ .resuming then (r, false)
  else (r.withHandle { r.handle with pause_requested := true, lifecycle := .pausing }, true)

/-- `mark_paused`. -/
def markPaused (reason : String) : Run :=
  r.withHandle { r.handle with
    lifecycle := .paused
    pause_requested := true
    last_error := reason
    pause_reason := reason }

/-- `mark_resuming`. -/
def markResuming : Run × Except PyError Unit :=
  if r.handle.lifecycle ≠ .paused ∧ r.handle.lifecycle ≠ .pausing ∧ r.handle.lifecycle ≠ .resuming then
    (r, .error (.raised "RuntimeError" ("workflow " ++ r.handle.run_id ++ " is not paused")))
  else (r.withHandle { r.handle with lifecycle := .resuming, pause_requested := false }, .ok ())

def withoutFailure (h : WorkflowRunHandle) : WorkflowRunHandle :=
  { h with
    pause_reason := "none"
    failure_kind := none
    failure_message := none
    failure_retryable := none
    failure_provider := none
    failure_model := none
    failure_status_code := none
    last_safe_boundary := none }

/-- `mark_terminal`. -/
def markTerminal (status : WorkflowLifecycle) (error : String) : Run × Except PyError Unit :=
  if status.terminal = false then (r, .error (.valueError "not a terminal lifecycle"))
  else
    let h := { r.handle with lifecycle := status, last_error := error, pause_requested := false }
    (r.withHandle (if status = .complete then withoutFailure h else h), .ok ())

/-! ## 7. Failures -/

/-- A failure has been recorded, and nothing has happened since. -/
def committed (h : WorkflowRunHandle) : Bool :=
  (h.lifecycle = .failed || h.lifecycle = .paused) && h.failure_kind.isSome && h.last_error ≠ ""

/-- `_prepare_context_for_failure_resume`. -/
def preparedContext (h : WorkflowRunHandle) : Option Context :=
  match h.context with
  | none => none
  | some ctx =>
      let phase := WorkflowRunHandle.normalized p h.current_phase
      if phase = "" then some ctx
      else
        let ctx := if p.upper phase ∈ ctx.members ∧ ctx.state_settable then { ctx with state := some (p.upper phase) }
          else ctx
        some (if ctx.phase_settable then { ctx with current_phase := some phase } else ctx)

/-- The fields of a failure, after the cursor of the context has been looked
at. -/
def described (h : WorkflowRunHandle) (failure : Failure) (kind : WorkflowFailureKind) (boundary : Option String) :
    WorkflowRunHandle :=
  let disposition := failure.disposition kind
  let final := if kind.generic then disposition.kind else kind
  { h with
    last_error := failure.message
    failure_kind := some final
    failure_message := some failure.message
    failure_retryable := some disposition.retryable
    failure_provider := disposition.provider
    failure_model := disposition.model
    failure_status_code := disposition.status_code
    last_safe_boundary := match boundary with
      | some b => if b ≠ "" then some b else h.current_phase
      | none => h.current_phase
    pause_reason := final.value
    error_revision := h.error_revision + 1 }

def recoveryErrorOf (h : WorkflowRunHandle) (error : String) (kind : WorkflowFailureKind) : RecoveryError where
  run_id := h.run_id
  workflow_name := h.workflow_name
  phase := h.current_phase
  phase_index := h.phase_index
  failure_kind := kind
  failure_message := error
  failure_retryable := h.failure_retryable
  failure_provider := h.failure_provider
  failure_model := h.failure_model
  failure_status_code := h.failure_status_code
  record_revision := h.error_revision
  context_ready := h.context_ready

/-- `_save_failure_diagnostic`. -/
def saveDiagnostic (o : SaveOutcome) (error : String) (kind : WorkflowFailureKind) : Run :=
  if o.loses_error then r
  else { r with store := { r.store with recovery_error := some (recoveryErrorOf r.handle error kind) } }

/-- The kind of a failed save. -/
def saveFailureKind (exc : PyError) : WorkflowFailureKind :=
  if WorkflowRunHandle.badContext exc then .checkpointSerialization else .checkpointStorage

/-- A failure of a resumable run: it is paused and saved, or else failed.
`describe` is `_safe_failure_message` of the exception of the save. -/
def pauseForFailure (describe : PyError → String) (failure : Failure) (o : SaveOutcome) :
    Run × Option WorkflowCheckpoint :=
  let paused := r.withHandle { r.handle with
    context := preparedContext p r.handle
    lifecycle := .paused
    pause_requested := true }
  match paused.saveCheckpoint p r.handle.pause_reason o with
  | (r, .ok checkpoint) => (r, some checkpoint)
  | (r, .error exc) =>
      let error := failure.message ++ "; checkpoint save failed: " ++ describe exc
      let failed := r.withHandle { r.handle with
        checkpoint_supported := false
        lifecycle := .failed
        pause_requested := false
        last_error := error
        failure_message := some (strTake 512 error) }
      (failed.saveDiagnostic o (strTake 512 error) (saveFailureKind exc), none)

/-- A run that cannot be resumed has failed. -/
def failForGood (failure : Failure) (o : SaveOutcome) : Run :=
  (r.withHandle { r.handle with lifecycle := .failed, pause_requested := false }).saveDiagnostic o failure.message
    (r.handle.failure_kind.getD .workflowError)

def dispose (describe : PyError → String) (failure : Failure) (o : SaveOutcome) : Run × Option WorkflowCheckpoint :=
  if r.handle.resumable then r.pauseForFailure p describe failure o else (r.failForGood failure o, none)

/-- `finalize_failure`; the loaded checkpoint that a repeated call may return
is the stored one. -/
def finalizeFailure (describe : PyError → String) (failure : Failure) (label : String) (boundary : Option String)
    (o : SaveOutcome) : Run × Except PyError (Option WorkflowCheckpoint) :=
  if r.handle.lifecycle.final then (r, .ok none)
  else if committed r.handle then (r, .ok (if r.handle.lifecycle = .paused then r.store.checkpoint else none))
  else
    match r.syncContextCursor p with
    | (r, .error exc) => (r, .error exc)
    | (r, .ok _) =>
        ((r.withHandle (described r.handle failure (WorkflowFailureKind.normalize label) boundary)).dispose p
            describe failure o).map id .ok

end Run

/-! ## 8. Restart -/

def savedTopology (h : WorkflowRunHandle) : String × String × String × List String :=
  (h.topology_version, h.topology_fingerprint, h.topology_profile, h.topology_phase_names)

/-- The handle that `from_checkpoint` restores, before its topology is checked. -/
def restoredHandle (c : WorkflowCheckpoint) (context : Context) (recover_interrupted : Bool) : WorkflowRunHandle :=
  let interrupted := recover_interrupted && (c.status = .running || c.status = .resuming)
  let paused := c.status = .paused || c.status = .pausing
  { run_id := c.run_id
    workflow_name := c.workflow_name
    context := some context
    lifecycle := if paused || interrupted then .paused else c.status
    current_phase := c.current_phase
    phase_index := c.phase_index
    phase_iteration := c.phase_iteration
    checkpoint_revision := c.revision
    pause_requested := paused || interrupted
    last_error := match c.failure_message with
      | some message => if message ≠ "" then message else if c.reason ≠ "" then c.reason
          else if interrupted then "process_interrupted" else ""
      | none => if c.reason ≠ "" then c.reason else if interrupted then "process_interrupted" else ""
    context_ready := c.context_ready
    pause_reason := c.pause_reason
    failure_kind := c.failure_kind
    failure_message := c.failure_message
    failure_retryable := c.failure_retryable
    failure_provider := c.failure_provider
    failure_model := c.failure_model
    failure_status_code := c.failure_status_code
    last_safe_boundary := c.last_safe_boundary
    error_revision := c.error_revision
    topology_version := c.topology_version
    topology_fingerprint := c.topology_fingerprint
    topology_profile := c.topology_profile
    topology_phase_names := c.topology_phase_names }

/-- What `from_checkpoint` checks of the topology of the restored context. -/
def checkTopology (c : WorkflowCheckpoint) (h : WorkflowRunHandle) (t : WorkflowCheckpointTopology) :
    Except PyError Unit := do
  if savedTopology h ≠ ("", "", "", []) ∧ savedTopology h ≠ savedTopology (h.withTopology p t) then
    throw (.valueError "workflow checkpoint topology does not match its context")
  match c.current_phase with
  | some phase =>
      let index ← t.indexFor phase
      if (index : Int) ≠ c.phase_index then
        throw (.valueError "workflow checkpoint phase index does not match its active topology")
      pure ()
  | none => pure ()

/-- `from_checkpoint`; `accepted` stands for the checks of the plugin and of
the conversation. -/
def fromCheckpoint (c : WorkflowCheckpoint) (accepted recover_interrupted : Bool) :
    Except PyError WorkflowRunHandle := do
  if accepted = false then throw (.valueError "workflow plugin fingerprint does not match checkpoint")
  let context ← p.decode c.context
  let h := restoredHandle c context recover_interrupted
  let topology ← h.activeTopology p context
  checkTopology p c h topology
  pure (h.withTopology p topology)

/-! ## 9. The world -/

inductive Action where
  /-- A context is attached, of the runner or a bootstrap one, or the runner
  moves its own to the phase that it enters. -/
  | attach (ctx : Context) (ready : Bool) (entering : Option String)
  | updatePhase (phase : Option String) (index iteration : Int) (persist : Bool) (o : SaveOutcome)
  | syncContextCursor
  | persistContextTransition (reason : String) (o : SaveOutcome)
  | saveCheckpoint (reason : String) (o : SaveOutcome)
  | requestPause
  | markPaused (reason : String)
  | markResuming
  | markTerminal (status : WorkflowLifecycle) (error : String)
  | finalizeFailure (failure : Failure) (label : String) (boundary : Option String) (o : SaveOutcome)
  /-- The process ends, and another one takes the run up again. -/
  | restart (accepted recover_interrupted : Bool)

/-- The run and what is observed of it: the phase last entered, whether the
run has been taken up since its last recorded failure, the same as of the
stored checkpoint, and the saved checkpoints with the phase last entered at
the time. -/
structure World where
  run : Run
  /-- No handle was restored. -/
  gone : Bool := false
  entered : Option String := none
  resumed : Bool := true
  storedResumed : Bool := true
  saves : List (WorkflowCheckpoint × Option String) := []

namespace World

/-- `create`. -/
def created (run_id : String) : World := { run := ⟨{ run_id := run_id, workflow_name := p.name }, {}⟩ }

variable (w : World)

/-- The world after an operation: a checkpoint that is new in the store has
been saved. -/
def after (r : Run) (entered : Option String) (resumed : Bool) : World :=
  { w with
    run := r
    entered := entered
    resumed := resumed
    storedResumed := if r.store.checkpoint = w.run.store.checkpoint then w.storedResumed else resumed
    saves := match r.store.checkpoint with
      | some c => if some c = w.run.store.checkpoint then w.saves else w.saves ++ [(c, entered)]
      | none => w.saves }

/-- The next process restores the stored checkpoint. -/
def restarted (c : WorkflowCheckpoint) (accepted recover_interrupted : Bool) : World :=
  match fromCheckpoint p c accepted recover_interrupted with
  | .ok h =>
      { w with run := w.run.withHandle h, gone := false, entered := c.current_phase, resumed := w.storedResumed }
  | .error _ => { w with gone := true }

def step (describe : PyError → String) (w : World) : Action → World
  | .restart accepted recover_interrupted =>
      match w.run.store.checkpoint with
      | some c => w.restarted p c accepted recover_interrupted
      | none => { w with gone := true }
  | action =>
      if w.gone then w
      else
        match action with
        | .attach ctx ready entering =>
            w.after (w.run.withHandle { w.run.handle with context := some ctx, context_ready := ready })
              (entering.or w.entered) w.resumed
        | .updatePhase phase index iteration persist o =>
            w.after (w.run.updatePhase p phase index iteration persist o).1 phase w.resumed
        | .syncContextCursor => w.after (w.run.syncContextCursor p).1 w.entered w.resumed
        | .persistContextTransition reason o =>
            w.after (w.run.persistContextTransition p reason o).1 w.entered w.resumed
        | .saveCheckpoint reason o => w.after (w.run.saveCheckpoint p reason o).1 w.entered w.resumed
        | .requestPause => w.after w.run.requestPause.1 w.entered w.resumed
        | .markPaused reason => w.after (w.run.markPaused reason) w.entered w.resumed
        | .markResuming =>
            w.after w.run.markResuming.1 w.entered
              (match w.run.markResuming.2 with | .ok () => true | .error _ => w.resumed)
        | .markTerminal status error => w.after (w.run.markTerminal status error).1 w.entered w.resumed
        | .finalizeFailure failure label boundary o =>
            w.after (w.run.finalizeFailure p describe failure label boundary o).1 w.entered
              (w.run.handle.lifecycle.final && w.resumed)
        | .restart _ _ => w

end World

end Agenthicc.Runners.Workflow
