/-
Agenthicc.Kernel.Processor — the event loop of the kernel and the restore
from its log.

The log writer is an append to the text of the log file: its lines keep the
order of the events, and none of them fails here. Subscriber queues hold what
they are offered, so only the order in which sinks and readers are notified
is kept (`published`), not the bound at which a full queue drops.
-/
import Agenthicc.Kernel.Reducer
import Agenthicc.Python.JsonLines

namespace Agenthicc.Kernel

open Python

abbrev ReducerFn := AppState → Event → Reduced

/-! ## 1. The event loop -/

/-- One `get()` of the queue, with the fresh identifier and the clock reading
a refusal would take. -/
structure Arrival where
  event : Event
  uuid : String
  now : PyFloat

structure EventProcessor where
  state : AppState
  applied : Nat := 0
  rejected : Nat := 0
  events_since_snapshot : Nat := 0
  /-- The event log file. -/
  log : List Char
  /-- Every event handed to the sinks and the event readers. -/
  published : List Event := []
  /-- Every state handed to the state readers. -/
  states : List AppState := []
  /-- The effect tasks started, each with the state it was given. -/
  effects : List (Effect × AppState) := []
  /-- The snapshot tasks started: the state and `snapshot_index`. -/
  snapshots : List (AppState × Nat) := []

namespace EventProcessor

/-- `EventProcessor(state)` and the start of `run()`: the log is opened to
append. -/
def opened (state : AppState) (log : List Char) : EventProcessor := { state, log }

/-- `_publish`. -/
def publish (p : EventProcessor) (event : Event) (state : Option AppState) : EventProcessor :=
  { p with
    log := p.log ++ jsonLine event.toDict
    published := p.published ++ [event]
    states := p.states ++ state.toList }

/-- The event that is published for a refused one. -/
def rejection (a : Arrival) (exc : KernelError) : Event :=
  Event.create a.uuid a.now "KernelEventRejected"
    [("event_id", .str a.event.event_id), ("event_type", .str a.event.event_type),
      ("error", .str (strTake 500 (exc.typeName ++ ": " ++ exc.message)))]

/-- `_process`, persisting. -/
def process (reducer : ReducerFn) (p : EventProcessor) (a : Arrival) : EventProcessor :=
  match reducer p.state a.event with
  | .error exc => { p with rejected := p.rejected + 1 }.publish (rejection a exc) none
  | .ok (newState, effects) =>
      let p := { p with state := newState, applied := p.applied + 1 }.publish a.event newState
      let p :=
        { p with
          effects := p.effects ++ effects.map fun effect => (effect, newState)
          events_since_snapshot := p.events_since_snapshot + 1 }
      if newState.settings.snapshot_every_n_events ≤ p.events_since_snapshot then
        { p with
          events_since_snapshot := 0
          snapshots := p.snapshots ++ [(newState, p.applied)] }
      else p

/-- `run()` over what the queue held before its stop marker. -/
def run (reducer : ReducerFn) (p : EventProcessor) (arrivals : List Arrival) : EventProcessor :=
  arrivals.foldl (process reducer) p

/-- The event `process` publishes. -/
def publishedEvent (reducer : ReducerFn) (state : AppState) (a : Arrival) : Event :=
  match reducer state a.event with
  | .error exc => rejection a exc
  | .ok _ => a.event

/-- The state `process` leaves. -/
def nextState (reducer : ReducerFn) (state : AppState) (a : Arrival) : AppState :=
  match reducer state a.event with
  | .error _ => state
  | .ok (newState, _) => newState

/-- **One step**: the state, the log and the events that were published. -/
theorem process_spec (reducer : ReducerFn) (p : EventProcessor) (a : Arrival) :
    (p.process reducer a).state = nextState reducer p.state a
      ∧ (p.process reducer a).log = p.log ++ jsonLine (publishedEvent reducer p.state a).toDict
      ∧ (p.process reducer a).published = p.published ++ [publishedEvent reducer p.state a] := by
  unfold process nextState publishedEvent
  cases reducer p.state a.event with
  | error exc => exact ⟨rfl, rfl, rfl⟩
  | ok r =>
      simp only
      split <;> exact ⟨rfl, rfl, rfl⟩

end EventProcessor

/-! ## 2. The restore -/

/-- One round of the loop of `restore_from_log`. -/
def restoreLine (py : Interp) (reducer : ReducerFn) (state : AppState) :
    Line → Except KernelError AppState
  | .blank => .ok state
  | .corrupt => .ok state
  | .entry v =>
      match Event.fromDict py v with
      | .error exc => if exc.isDecodeError then .ok state else .error exc
      | .ok event =>
          match reducer state event with
          | .ok (newState, _) => .ok newState
          | .error _ => .ok state

def restoreFromLog (py : Interp) (reducer : ReducerFn) (log : List Char)
    (initialState : AppState) : Except KernelError AppState :=
  (decodeLines log).foldlM (restoreLine py reducer) initialState

/-- The events one line gives the loop of `restore_from_log`. -/
def lineEvents (py : Interp) : Line → Except KernelError (List Event)
  | .blank => .ok []
  | .corrupt => .ok []
  | .entry v =>
      match Event.fromDict py v with
      | .error exc => if exc.isDecodeError then .ok [] else .error exc
      | .ok event => .ok [event]

/-- The events of the lines, up to the first error that is not caught. -/
def linesEvents (py : Interp) : List Line → Except KernelError (List Event)
  | [] => .ok []
  | line :: lines =>
      match lineEvents py line with
      | .error exc => .error exc
      | .ok events =>
          match linesEvents py lines with
          | .error exc => .error exc
          | .ok more => .ok (events ++ more)

/-- The events `restore_from_log` hands to its reducer. -/
def restoredEvents (py : Interp) (log : List Char) : Except KernelError (List Event) :=
  linesEvents py (decodeLines log)

end Agenthicc.Kernel
