/-
Agenthicc.Workflows.PhaseLifecycle — where a phased workflow goes on, and the
checkpoint at the end of a phase.

Left out: the annotation of a phase, the journal record of a boundary, whose
failure changes nothing, and adapters without a handle. A boundary is run on
one context; `BoundaryRun` keeps which completions were checkpointed, which
the code does not.
-/
import Agenthicc.Python.Builtins

namespace Agenthicc.Workflows

open Python

/-- The methods of strings that phases are compared by. -/
structure StringMethods where
  strip : String → String
  lower : String → String
  split : String → List String

namespace StringMethods

/-- `str(name).strip().lower()`. -/
def clean (py : StringMethods) (name : String) : String := py.lower (py.strip name)

end StringMethods

/-! ## 1. The cursor -/

inductive ResumeSource where
  | reentryCursor
  | phaseReceipts
  | workflowJournal
  | durablePhaseState
  | checkpointCursor
  | safeFallback
  deriving DecidableEq

def ResumeSource.value : ResumeSource → String
  | reentryCursor => "reentry_cursor"
  | phaseReceipts => "phase_receipts"
  | workflowJournal => "workflow_journal"
  | durablePhaseState => "durable_phase_state"
  | checkpointCursor => "checkpoint_cursor"
  | safeFallback => "safe_fallback"

structure ResumeResolution where
  phase_name : String
  phase_index : Nat
  completed_phases : List String
  source : ResumeSource
  reconciled : Bool
  diagnostic : String
  deriving DecidableEq

/-- The arguments of `reconcile_phase_cursor`. -/
structure ResumeInput where
  phase_names : List String
  current_phase : Option String
  completed_phases : List String := []
  receipt_phases : List String := []
  journal_phases : List String := []
  terminal_phase : String := ""
  preserve_current : Bool := false

/-- `_normalise_names`. -/
def normaliseNames (py : StringMethods) (values allowed : List String) : List String :=
  values.foldl (fun result value =>
    if py.clean value ∈ allowed ∧ py.clean value ∉ result then result ++ [py.clean value] else result) []

namespace ResumeInput

variable (py : StringMethods) (args : ResumeInput)

/-- `names`. -/
def names : List String := (args.phase_names.filter fun name => py.strip name ≠ "").map py.clean

/-- `current`. -/
def current : String := py.clean (args.current_phase.getD "")

def receipts : List String := normaliseNames py args.receipt_phases (args.names py)

def completed : List String := normaliseNames py args.completed_phases (args.names py)

def journal : List String := normaliseNames py args.journal_phases (args.names py)

def evidence : List String := args.receipts py ++ args.completed py ++ args.journal py

/-- `names[:prefix_length]`. -/
def verified : List String := (args.names py).takeWhile (· ∈ args.evidence py)

/-- The phase behind a plan that is all done. -/
def terminal : String :=
  if py.clean args.terminal_phase = "" then (args.names py).getLastD "" else py.clean args.terminal_phase

/-- `selected` and `source`. -/
def selected : String × ResumeSource :=
  let names := args.names py
  if args.preserve_current ∧ args.current py ∈ names then (args.current py, .reentryCursor)
  else if args.evidence py ≠ [] then
    (names.getD (args.verified py).length (args.terminal py),
      if args.receipts py ≠ [] then .phaseReceipts
      else if args.journal py ≠ [] then .workflowJournal
      else .durablePhaseState)
  else if args.current py ∈ names then (args.current py, .checkpointCursor)
  else (names.headD "", .safeFallback)

end ResumeInput

/-- `reconcile_phase_cursor`. -/
def reconcilePhaseCursor (py : StringMethods) (args : ResumeInput) : Except PyError ResumeResolution :=
  let names := args.names py
  if names = [] ∨ ¬ names.Nodup then .error (.valueError "phase_names must be non-empty and unique")
  else
    let current := args.current py
    let (selected, source) := args.selected py
    let reconciled := decide (current ≠ "" ∧ selected ≠ current)
    .ok {
      phase_name := selected
      phase_index := names.idxOf selected
      completed_phases := args.verified py
      source := source
      reconciled := reconciled
      diagnostic :=
        if reconciled ∨ source = .phaseReceipts ∨ source = .safeFallback then
          "resume cursor " ++ (if current = "" then "<missing>" else current) ++ " resolved to " ++ selected
            ++ " from " ++ source.value ++ "; verified contiguous prefix length="
            ++ toString (args.verified py).length
        else "" }

/-! ## 2. Boundaries -/

/-- `context.last_boundary`, once a boundary is in it. -/
structure BoundaryMarker where
  completed_phase : String
  next_phase : Option String
  phase_iteration : Int
  outcome : String
  boundary_key : String
  durable : Bool
  checkpoint_revision : Nat
  deriving DecidableEq

/-- The arguments of `checkpoint_phase_boundary`. -/
structure BoundaryCall where
  completed_phase : String
  next_phase : Option String
  phase_index : Int
  phase_iteration : Int
  outcome : String := "completed"
  deriving DecidableEq

/-- The handle of the run: what its topology makes of a phase and the index of
the caller, where it does not raise, and whether it can checkpoint. -/
structure BoundaryHandle where
  topology_index : Option String → Int → Option Int
  checkpoint_supported : Bool := true

structure BoundaryCheckpoint where
  content : String
  current_phase : Option String
  phase_index : Int
  phase_iteration : Int
  reason : String
  revision : Nat
  deriving DecidableEq

/-- The context and the store of a run. `last_boundary` is `none` where the
context has no such dict, and `some none` where it is empty. -/
structure BoundaryContext where
  content : String
  last_boundary : Option (Option BoundaryMarker)
  checkpoints : List BoundaryCheckpoint := []
  deriving DecidableEq

inductive BoundaryResult where
  /-- `None`: the boundary is taken for one that is durable. -/
  | skipped
  | saved (checkpoint : BoundaryCheckpoint)
  /-- `PhaseBoundaryError`. -/
  | boundaryError
  | valueError
  deriving DecidableEq

def BoundaryResult.isSaved : BoundaryResult → Bool
  | saved _ => true
  | skipped | boundaryError | valueError => false

namespace BoundaryCall

variable (py : StringMethods) (call : BoundaryCall)

/-- `safe_outcome`. -/
def safeOutcome : String :=
  let outcome := strTake 96 (strJoin " " (py.split call.outcome))
  if outcome = "" then "completed" else outcome

/-- `completed`. -/
def completed : String := strTake 128 (py.strip call.completed_phase)

/-- `next_name`. -/
def nextName : String := (call.next_phase.map fun next => strTake 128 (py.strip next)).getD ""

/-- The key of the boundary, with the given index. -/
def key (index : Int) : String :=
  strJoin "|" [call.completed py, call.nextName py, toString index, toString call.phase_iteration,
    call.safeOutcome py]

def reason : String := "phase_boundary:" ++ call.completed py ++ ":" ++ call.safeOutcome py

/-- The marker says that this boundary is durable. -/
def isMarked (marker : BoundaryMarker) : Bool :=
  (marker.completed_phase = call.completed py
      && marker.next_phase = (if call.next_phase = some "" then none else call.next_phase)
      && marker.phase_iteration = call.phase_iteration && marker.outcome = call.safeOutcome py
      && marker.durable)
    || (marker.boundary_key = call.key py call.phase_index && marker.durable)

end BoundaryCall

/-- What the checkpoint of a boundary holds. -/
def BoundaryContext.checkpoint (py : StringMethods) (s : BoundaryContext) (call : BoundaryCall) (index : Int) :
    BoundaryCheckpoint where
  content := s.content
  current_phase := call.next_phase
  phase_index := index
  phase_iteration := call.phase_iteration
  reason := call.reason py
  revision := s.checkpoints.length + 1

/-- The marker of a boundary that was saved. -/
def BoundaryCall.marker (py : StringMethods) (call : BoundaryCall) (index : Int) (revision : Nat) :
    BoundaryMarker where
  completed_phase := call.completed py
  next_phase := call.next_phase
  phase_iteration := call.phase_iteration
  outcome := call.safeOutcome py
  boundary_key := call.key py index
  durable := true
  checkpoint_revision := revision

/-- `checkpoint_phase_boundary`; `stored` says that the store took the
checkpoint. -/
def checkpointPhaseBoundary (py : StringMethods) (handle : BoundaryHandle) (call : BoundaryCall)
    (stored : Bool) (s : BoundaryContext) : BoundaryContext × BoundaryResult :=
  if py.strip call.completed_phase = "" then (s, .valueError)
  else if !handle.checkpoint_supported then (s, .boundaryError)
  else if s.last_boundary.any (·.any (call.isMarked py)) then (s, .skipped)
  else
    match handle.topology_index call.next_phase call.phase_index with
    | none => (s, .boundaryError)
    | some index =>
        if stored then
          let checkpoint := s.checkpoint py call index
          ({ s with
              checkpoints := s.checkpoints ++ [checkpoint]
              last_boundary := s.last_boundary.map fun _ => some (call.marker py index checkpoint.revision) },
            .saved checkpoint)
        else (s, .boundaryError)

/-! ## 3. Runs -/

/-- What happens to a run: the context changes, a phase completes, or the
boundary of a completion, by its number, is called once more. -/
inductive BoundaryEvent where
  | work (content : String)
  | complete (call : BoundaryCall) (stored : Bool)
  | again (number : Nat) (stored : Bool)

/-- A run, with the completions there were, each with whether it is saved, and
the call that was saved last. -/
structure BoundaryRun where
  context : BoundaryContext
  completions : List (BoundaryCall × Bool) := []
  latest : Option BoundaryCall := none

namespace BoundaryRun

variable (py : StringMethods) (handle : BoundaryHandle)

/-- The boundary of a completion is called. -/
def call (s : BoundaryRun) (call : BoundaryCall) (stored : Bool) : BoundaryContext × BoundaryResult :=
  checkpointPhaseBoundary py handle call stored s.context

/-- `last_boundary` changes together with the checkpoints only. -/
def latestAfter (s : BoundaryRun) (call : BoundaryCall) : BoundaryResult → Option BoundaryCall
  | .saved _ => some call
  | .skipped | .boundaryError | .valueError => s.latest

def step (s : BoundaryRun) : BoundaryEvent → BoundaryRun
  | .work content => { s with context := { s.context with content } }
  | .complete call stored =>
      let result := s.call py handle call stored
      { context := result.1
        completions := s.completions ++ [(call, result.2.isSaved)]
        latest := s.latestAfter call result.2 }
  | .again number stored =>
      match s.completions[number]? with
      | none => s
      | some (call, saved) =>
          let result := s.call py handle call stored
          { context := result.1
            completions := s.completions.set number (call, saved || result.2.isSaved)
            latest := s.latestAfter call result.2 }

/-- A new context, with or without a dict for its last boundary. -/
def start (content : String) (keeps : Bool) : BoundaryRun where
  context := { content, last_boundary := if keeps then some none else none }

end BoundaryRun

end Agenthicc.Workflows
