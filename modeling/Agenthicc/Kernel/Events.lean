/-
Agenthicc.Kernel.Events — the event record of the kernel, its payload
readers, and its dictionary form.

Errors keep the class and the text the source gives them: the processor
writes both into the log when it refuses an event.
-/
import Agenthicc.Python.Builtins

namespace Agenthicc.Kernel

open Python

/-! ## 1. Errors -/

/-- The exceptions event decoding and the reducer raise. -/
inductive KernelError where
  | valueError (message : String)
  | unknownEvent (message : String)
  | overflowError (message : String)
  | attributeError (message : String)
  deriving DecidableEq

namespace KernelError

/-- `type(exc).__name__`. -/
def typeName : KernelError → String
  | .valueError _ => "ValueError"
  | .unknownEvent _ => "UnknownEventError"
  | .overflowError _ => "OverflowError"
  | .attributeError _ => "AttributeError"

/-- `str(exc)`. -/
def message : KernelError → String
  | .valueError m => m
  | .unknownEvent m => m
  | .overflowError m => m
  | .attributeError m => m

/-- `isinstance(exc, (JSONDecodeError, KeyError, TypeError, ValueError))`. -/
def isDecodeError : KernelError → Bool
  | .valueError _ => true
  | .unknownEvent _ => true
  | .overflowError _ => false
  | .attributeError _ => false

end KernelError

/-- `UnknownEventError(event_type)`. -/
def unknownEventError (py : Interp) (eventType : String) : KernelError :=
  .unknownEvent ("unknown kernel event type " ++ py.strRepr eventType
    ++ ": register a reducer handler or add it to PROJECTION_EVENT_TYPES")

/-- Event types that leave kernel state unchanged. -/
def PROJECTION_EVENT_TYPES : List String :=
  ["KernelEventRejected", "McpCatalogPublished", "McpServerFailed", "McpServerReady",
    "ProviderRecoveryRetryScheduled", "SubagentCompleted", "SubagentFailed",
    "SubagentPoolCompleted", "SubagentPoolStarted", "SubagentStarted", "TransportRetryScheduled",
    "UIAdUpdate", "WorkflowCheckpointSaved", "WorkflowPhaseStarted"]

/-- Declared payload contract versions. -/
def EVENT_SCHEMA_VERSIONS : List (String × Int) :=
  [("SubagentCompleted", 1), ("SubagentFailed", 1), ("SubagentPoolCompleted", 1),
    ("SubagentPoolStarted", 1), ("SubagentStarted", 1)]

/-! ## 2. Payload readers -/

/-- A mapping with string keys. -/
abbrev Payload := List (String × Json)

/-- `f"event payload field {key!r} must be …"`. -/
def fieldError (py : Interp) (key expected : String) : KernelError :=
  .valueError ("event payload field " ++ py.strRepr key ++ " must be " ++ expected)

/-- `payload.get(key, default)`. -/
def Payload.getD (payload : Payload) (key : String) (dflt : Json) : Json :=
  (Json.lookup key payload).getD dflt

def payloadStr (py : Interp) (payload : Payload) (key : String) (dflt : Option String := none) :
    Except KernelError String :=
  match Payload.getD payload key (.ofOptStr dflt) with
  | .str s => .ok s
  | _ => .error (fieldError py key "a string")

def payloadOptionalStr (py : Interp) (payload : Payload) (key : String)
    (dflt : Option String := none) : Except KernelError (Option String) :=
  match Payload.getD payload key (.ofOptStr dflt) with
  | .null => .ok none
  | .str s => .ok (some s)
  | _ => .error (fieldError py key "a string or null")

def payloadFloat (py : Interp) (payload : Payload) (key : String) : Except KernelError PyFloat :=
  match Payload.getD payload key .null with
  | .float x => .ok x
  | .int n =>
      match py.floatOfInt n with
      | some x => .ok x
      | none => .error (.overflowError "int too large to convert to float")
  | _ => .error (fieldError py key "a number")

def payloadBool (py : Interp) (payload : Payload) (key : String) (dflt : Bool := false) :
    Except KernelError Bool :=
  match Payload.getD payload key (.bool dflt) with
  | .bool b => .ok b
  | _ => .error (fieldError py key "a boolean")

/-- A missing mapping, like an explicit null, reads as the default. -/
def payloadMapping (py : Interp) (payload : Payload) (key : String) (dflt : Payload := []) :
    Except KernelError Payload :=
  match Payload.getD payload key .null with
  | .null => .ok dflt
  | .obj kvs => .ok kvs
  | _ => .error (fieldError py key "an object")

/-! ## 3. Events -/

structure Event where
  event_id : String
  event_type : String
  timestamp : PyFloat
  payload : Payload
  source_agent_id : Option String := none
  tool_call_id : Option String := none
  schema_version : Int := 1
  deriving DecidableEq

namespace Event

/-- `Event.create`: `uuid` and `now` are what `uuid4().hex` and `time.time()`
return. -/
def create (uuid : String) (now : PyFloat) (eventType : String) (payload : Payload)
    (schemaVersion : Option Int := none) : Event where
  event_id := uuid
  event_type := eventType
  timestamp := now
  payload := payload
  schema_version :=
    match schemaVersion with
    | some v => v
    | none => (EVENT_SCHEMA_VERSIONS.lookup eventType).getD 1

def toDict (e : Event) : Json :=
  .obj [("event_id", .str e.event_id), ("event_type", .str e.event_type),
    ("timestamp", .float e.timestamp), ("payload", .obj e.payload),
    ("source_agent_id", .ofOptStr e.source_agent_id),
    ("tool_call_id", .ofOptStr e.tool_call_id), ("schema_version", .int e.schema_version)]

/-- `schema_version` must be a positive integer; a bool is none. -/
def schemaVersionOf (data : Payload) : Except KernelError Int :=
  match Payload.getD data "schema_version" (.int 1) with
  | .int v =>
      if 1 ≤ v then .ok v
      else .error (.valueError "event field 'schema_version' must be a positive integer")
  | _ => .error (.valueError "event field 'schema_version' must be a positive integer")

/-- `Event.from_dict`. A decoded value that is no mapping has no `get`. -/
def fromDict (py : Interp) : Json → Except KernelError Event
  | .obj data => do
      let version ← schemaVersionOf data
      let event_id ← payloadStr py data "event_id"
      let event_type ← payloadStr py data "event_type"
      let timestamp ← payloadFloat py data "timestamp"
      let payload ← payloadMapping py data "payload"
      let source_agent_id ← payloadOptionalStr py data "source_agent_id"
      let tool_call_id ← payloadOptionalStr py data "tool_call_id"
      return { event_id, event_type, timestamp, payload, source_agent_id, tool_call_id,
               schema_version := version }
  | v => .error (.attributeError
      ("'" ++ v.typeName ++ "' object has no attribute 'get'"))

/-- The dictionary form is read back as the event, whatever its payload. -/
theorem fromDict_toDict (py : Interp) (e : Event) (h : 1 ≤ e.schema_version) :
    fromDict py e.toDict = .ok e := by
  obtain ⟨event_id, event_type, timestamp, payload, source, tool, version⟩ := e
  simp only at h
  cases source <;> cases tool <;>
    simp [fromDict, toDict, schemaVersionOf, payloadStr, payloadFloat, payloadMapping,
      payloadOptionalStr, Payload.getD, Json.lookup, Json.ofOptStr, h, bind, Except.bind, pure,
      Except.pure]

end Event

/-! ## 4. Effects -/

inductive EffectType where
  | spawn_agent
  | execute_tool
  | update_tui
  | persist_snapshot
  | emit_signal
  | start_workflow_node
  | assign_task
  deriving DecidableEq

structure Effect where
  effect_type : EffectType
  payload : Payload
  deriving DecidableEq

end Agenthicc.Kernel
