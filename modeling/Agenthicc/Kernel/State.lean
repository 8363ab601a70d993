/-
Agenthicc.Kernel.State — the kernel's application state.

Fields nothing in the kernel reads (the security policy, the registered agent
classes, `max_parallel_tasks`) are left out.
-/
import Agenthicc.Python.Dict
import Agenthicc.Python.Json

namespace Agenthicc.Kernel

open Python

inductive IntentStatus where
  | pending | validating | planning | running | complete | failed | rejected
  deriving DecidableEq

/-- `IntentStatus(value)`; `none` is its `ValueError`. -/
def IntentStatus.ofValue? : String → Option IntentStatus
  | "pending" => some .pending
  | "validating" => some .validating
  | "planning" => some .planning
  | "running" => some .running
  | "complete" => some .complete
  | "failed" => some .failed
  | "rejected" => some .rejected
  | _ => none

inductive NodeStatus where
  | pending | running | paused | complete | failed | skipped | discarded
  deriving DecidableEq

structure Intent where
  intent_id : String
  raw_text : String
  status : IntentStatus
  workflow_id : Option String
  created_at : PyFloat
  metadata : List (String × Json)
  error : Option String := none
  deriving DecidableEq

structure WorkflowNode where
  node_id : String
  task_id : String
  label : String
  dependencies : List String
  status : NodeStatus
  agent_id : Option String := none
  result : Json := .null
  error : Option String := none
  deriving DecidableEq

structure Workflow where
  workflow_id : String
  intent_id : String
  nodes : Dict String WorkflowNode
  status : NodeStatus
  created_at : PyFloat
  name : String := ""
  intent_text : String := ""
  deriving DecidableEq

structure ToolRegistration where
  tool_id : String
  name : String
  description : String
  parameters_schema : List (String × Json)
  is_builtin : Bool := false
  source_agent_id : Option String := none
  deriving DecidableEq

structure SystemSettings where
  snapshot_every_n_events : Int := 100
  event_log_path : String := ".agenthicc/events.jsonl"
  snapshot_path : String := ".agenthicc/snapshot.json"
  deriving DecidableEq

structure AppState where
  session_id : String
  run_id : String
  intents : Dict String Intent
  workflows : Dict String Workflow
  tools : Dict String ToolRegistration
  snapshot_index : Int
  settings : SystemSettings
  deriving DecidableEq

namespace AppState

/-- `AppState.create`: the two identifiers are fresh `uuid4().hex` values. -/
def create (sessionId runId : String) (settings : SystemSettings := {}) : AppState where
  session_id := sessionId
  run_id := runId
  intents := .empty
  workflows := .empty
  tools := .empty
  snapshot_index := 0
  settings := settings

def withIntent (s : AppState) (intent : Intent) : AppState :=
  { s with intents := s.intents.set intent.intent_id intent }

def withWorkflow (s : AppState) (workflow : Workflow) : AppState :=
  { s with workflows := s.workflows.set workflow.workflow_id workflow }

def withTool (s : AppState) (tool : ToolRegistration) : AppState :=
  { s with tools := s.tools.set tool.name tool }

end AppState

end Agenthicc.Kernel
