/-
Agenthicc.Kernel.Reducer — the pure reducers, one handler for each declared
event type.
-/
import Agenthicc.Kernel.Events
import Agenthicc.Kernel.State

namespace Agenthicc.Kernel

open Python

/-- What a reducer returns: the new state and the effects, or the refusal. -/
abbrev Reduced := Except KernelError (AppState × List Effect)

/-! ## 1. Intents -/

def intentCreated (py : Interp) (state : AppState) (event : Event) : Reduced := do
  let intent : Intent :=
    { intent_id := ← payloadStr py event.payload "intent_id"
      raw_text := ← payloadStr py event.payload "raw_text"
      status := .pending
      workflow_id := none
      created_at := event.timestamp
      metadata := ← payloadMapping py event.payload "metadata" }
  return (state.withIntent intent,
    [⟨.emit_signal, [("signal", .str "IntentCreated"), ("intent_id", .str intent.intent_id)]⟩,
      ⟨.update_tui, [("type", .str "intent_added"), ("intent_id", .str intent.intent_id)]⟩])

/-- `IntentStatus(value)` with its error. -/
def intentStatus (py : Interp) (value : String) : Except KernelError IntentStatus :=
  match IntentStatus.ofValue? value with
  | some status => .ok status
  | none => .error (.valueError (py.strRepr value ++ " is not a valid IntentStatus"))

def intentStatusChanged (py : Interp) (state : AppState) (event : Event) : Reduced := do
  let intentId ← payloadStr py event.payload "intent_id"
  match state.intents.get? intentId with
  | none => return (state, [])
  | some old =>
      let status ← intentStatus py (← payloadStr py event.payload "status")
      let workflowId ← payloadOptionalStr py event.payload "workflow_id" old.workflow_id
      let error ← payloadOptionalStr py event.payload "error" old.error
      return (state.withIntent { old with status, workflow_id := workflowId, error },
        [⟨.update_tui, [("type", .str "intent_updated"), ("intent_id", .str old.intent_id)]⟩])

/-! ## 2. Workflow runs -/

def workflowRunStarted (py : Interp) (state : AppState) (event : Event) : Reduced := do
  let wf : Workflow :=
    { workflow_id := ← payloadStr py event.payload "run_id"
      intent_id := ""
      nodes := .empty
      status := .pending
      created_at := event.timestamp
      name := ← payloadStr py event.payload "workflow_name" (some "")
      intent_text := ← payloadStr py event.payload "intent" (some "") }
  return (state.withWorkflow wf, [])

def workflowPhaseCompleted (py : Interp) (state : AppState) (event : Event) : Reduced := do
  let runId ← payloadStr py event.payload "run_id"
  let phaseName ← payloadStr py event.payload "phase_name"
  match state.workflows.get? runId with
  | none => return (state, [])
  | some wf =>
      let role ← payloadStr py event.payload "role" (some "")
      let fullText ← payloadStr py event.payload "full_text" (some "")
      let structured ← payloadMapping py event.payload "structured"
      let metadata ← payloadMapping py event.payload "metadata"
      let node : WorkflowNode :=
        { node_id := phaseName
          task_id := phaseName
          label := phaseName
          dependencies := []
          status := .complete
          result := .obj [("role", .str role), ("full_text", .str fullText),
            ("approved", Payload.getD event.payload "approved" .null),
            ("structured", .obj structured), ("metadata", .obj metadata)] }
      return (state.withWorkflow { wf with nodes := wf.nodes.set node.node_id node }, [])

/-- The status a completed run is filed under. -/
def completedStatus (status : String) : NodeStatus :=
  if status = "complete" ∨ status = "exited" then .complete
  else if status = "paused" then .paused
  else if status = "discarded" then .discarded
  else .failed

def workflowRunCompleted (py : Interp) (state : AppState) (event : Event) : Reduced := do
  let runId ← payloadStr py event.payload "run_id"
  match state.workflows.get? runId with
  | none => return (state, [])
  | some wf =>
      let status ← payloadStr py event.payload "status" (some "complete")
      return (state.withWorkflow { wf with status := completedStatus status }, [])

/-- Sets the status of the workflow the payload names, if there is one. -/
def markWorkflow (status : NodeStatus) (py : Interp) (state : AppState) (event : Event) :
    Reduced := do
  let runId ← payloadStr py event.payload "run_id"
  match state.workflows.get? runId with
  | none => return (state, [])
  | some wf => return (state.withWorkflow { wf with status }, [])

def workflowRunPaused : Interp → AppState → Event → Reduced := markWorkflow .paused
def workflowRunResumed : Interp → AppState → Event → Reduced := markWorkflow .running
def workflowRunDiscarded : Interp → AppState → Event → Reduced := markWorkflow .discarded

/-! ## 3. Tools -/

def toolRegistered (py : Interp) (state : AppState) (event : Event) : Reduced := do
  let reg : ToolRegistration :=
    { tool_id := ← payloadStr py event.payload "tool_id"
      name := ← payloadStr py event.payload "name"
      description := ← payloadStr py event.payload "description" (some "")
      parameters_schema := ← payloadMapping py event.payload "parameters_schema"
      is_builtin := ← payloadBool py event.payload "is_builtin"
      source_agent_id := ← payloadOptionalStr py event.payload "source_agent_id" }
  return (state.withTool reg, [])

/-! ## 4. The root reducer -/

def HANDLERS : List (String × (Interp → AppState → Event → Reduced)) :=
  [("IntentCreated", intentCreated), ("IntentStatusChanged", intentStatusChanged),
    ("WorkflowRunStarted", workflowRunStarted),
    ("WorkflowPhaseCompleted", workflowPhaseCompleted),
    ("WorkflowRunCompleted", workflowRunCompleted), ("WorkflowRunPaused", workflowRunPaused),
    ("WorkflowRunResumed", workflowRunResumed), ("WorkflowRunDiscarded", workflowRunDiscarded),
    ("ToolRegistered", toolRegistered)]

def rootReducer (py : Interp) (state : AppState) (event : Event) : Reduced :=
  match HANDLERS.lookup event.event_type with
  | some handler => handler py state event
  | none =>
      if event.event_type ∈ PROJECTION_EVENT_TYPES then .ok (state, [])
      else .error (unknownEventError py event.event_type)

/-- No projection event has a handler, so it leaves the state as it is. -/
theorem rootReducer_projection (py : Interp) (state : AppState) (event : Event)
    (h : event.event_type ∈ PROJECTION_EVENT_TYPES) :
    rootReducer py state event = .ok (state, []) := by
  have hnone : ∀ t ∈ PROJECTION_EVENT_TYPES, (HANDLERS.map Prod.fst).contains t = false := by
    decide
  have hl : HANDLERS.lookup event.event_type = none := by
    rw [List.lookup_eq_none_iff]
    intro p hp
    have hc := hnone _ h
    rw [bne_iff_ne]
    intro he
    rw [List.contains_iff_mem.mpr (he ▸ List.mem_map_of_mem hp)] at hc
    cases hc
  rw [rootReducer, hl]
  simp [h]

end Agenthicc.Kernel
