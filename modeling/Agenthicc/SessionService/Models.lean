/-
Agenthicc.SessionService.Models — the contracts of the session service:
states, snapshots, events, commands and their results.

A dict is the list of its pairs, the last pair of a key counts, so
`{**a, **b}` is `a ++ b`. An identity or a reading of the clock that a
constructor draws is an argument here. A JSON number that `float()` is too
small for is not told apart from one that is no number; the service writes
floats.
-/
import Agenthicc.Python.SortedJson
import Agenthicc.Python.Builtins

namespace Agenthicc.SessionService

open Python

abbrev Payload := List (String × Json)

/-- `payload.get(key)`. -/
def Payload.get (payload : Payload) (key : String) : Option Json := Json.lookup key payload

/-! ## 1. States and errors -/

inductive SessionState where
  | created | idle | running | waitingApproval | waitingQuestion | background | completed | failed
  | cancelled | archived
  deriving DecidableEq

def SessionState.value : SessionState → String
  | .created => "created"
  | .idle => "idle"
  | .running => "running"
  | .waitingApproval => "waiting_approval"
  | .waitingQuestion => "waiting_question"
  | .background => "background"
  | .completed => "completed"
  | .failed => "failed"
  | .cancelled => "cancelled"
  | .archived => "archived"

inductive EventDurability where
  | durable | ephemeral
  deriving DecidableEq

def EventDurability.value : EventDurability → String
  | .durable => "durable"
  | .ephemeral => "ephemeral"

structure SessionError where
  code : String
  message : String
  status : Nat := 400
  deriving DecidableEq

/-! ## 2. Reading a value of a dict -/

def strOf? : Option Json → Option String
  | some (.str s) => some s
  | _ => none

def intOf? : Option Json → Option Int
  | some (.int n) => some n
  | _ => none

/-- The value of a key that must be an object. -/
def objOf? : Option Json → Option Payload
  | some (.obj kvs) => some kvs
  | _ => none

/-- The strings of a list; `none` where there is no list. -/
def stringsOf? : Option Json → Option (List String)
  | some (.arr xs) => some (xs.filterMap fun x => strOf? (some x))
  | _ => none

/-! ## 3. Snapshots -/

structure SessionSnapshot where
  session_id : String
  project_root : String
  created_at : PyFloat
  updated_at : PyFloat
  state : SessionState
  active_turn_id : Option String := none
  parent_session_id : Option String := none
  workflow : Payload := []
  agent : Payload := []
  queue : Payload := [("depth", .int 0), ("accepting_input", .bool true)]
  approvals_pending : Int := 0
  questions_pending : Int := 0
  background_jobs_running : Int := 0
  terminals_running : Int := 0
  last_event_sequence : Int := 0
  capabilities : List String := []
  readiness : Payload := [("session_viewable", .bool true),
    ("provider_history_status", .str "unknown"), ("provider_history_ready", .null),
    ("workflow_recovery_status", .str "unknown"), ("workflow_resumable", .null)]

/-- `SessionSnapshot.to_dict`, whose `schema_version` is always 1 here. -/
def SessionSnapshot.toDict (s : SessionSnapshot) : Payload :=
  [("schema_version", .int 1), ("session_id", .str s.session_id),
    ("project_root", .str s.project_root), ("created_at", .float s.created_at),
    ("updated_at", .float s.updated_at), ("state", .str s.state.value),
    ("active_turn_id", Json.ofOptStr s.active_turn_id),
    ("parent_session_id", Json.ofOptStr s.parent_session_id), ("workflow", .obj s.workflow),
    ("agent", .obj s.agent), ("queue", .obj s.queue),
    ("approvals_pending", .int s.approvals_pending),
    ("questions_pending", .int s.questions_pending),
    ("background_jobs_running", .int s.background_jobs_running),
    ("terminals_running", .int s.terminals_running),
    ("last_event_sequence", .int s.last_event_sequence),
    ("capabilities", .arr (s.capabilities.map .str)), ("readiness", .obj s.readiness)]

/-! ## 4. Events -/

structure SessionEvent where
  schema_version : Int := 1
  event_id : String
  sequence : Int
  session_id : String
  turn_id : Option String
  source : String
  kind : String
  occurred_at : PyFloat
  durability : EventDurability
  visibility : String
  payload : Payload
  deriving DecidableEq

def SessionEvent.toDict (e : SessionEvent) : Payload :=
  [("schema_version", .int e.schema_version), ("event_id", .str e.event_id),
    ("sequence", .int e.sequence), ("session_id", .str e.session_id),
    ("turn_id", Json.ofOptStr e.turn_id), ("source", .str e.source), ("kind", .str e.kind),
    ("occurred_at", .float e.occurred_at), ("durability", .str e.durability.value),
    ("visibility", .str e.visibility), ("payload", .obj e.payload)]

/-- `text(key)`: a string or null, `none` where it raises. -/
def textField (data : Payload) (key : String) (default : Option String := none) :
    Option (Option String) :=
  match data.get key with
  | none => some default
  | some .null => some none
  | some (.str s) => some (some s)
  | some _ => none

/-- A text that must not be missing or empty. -/
def identityField (data : Payload) (key : String) (default : Option String := none) :
    Option String :=
  match textField data key default with
  | some (some s) => if s = "" then none else some s
  | _ => none

/-- The mapping of a key that may be missing. -/
def mappingField (data : Payload) (key : String) : Option Payload :=
  match data.get key with
  | none => some []
  | some (.obj kvs) => some kvs
  | some _ => none

/-- `float(…)` of a number. -/
def floatField (py : Interp) (data : Payload) (key : String) : Option PyFloat :=
  match data.get key with
  | some (.float x) => some x
  | some (.int n) => py.floatOfInt n
  | _ => none

def versionField (data : Payload) : Option Int :=
  match data.get "schema_version" with
  | none => some 1
  | some (.int n) => some n
  | some _ => none

/-- `EventDurability(…)`. -/
def durabilityField (data : Payload) : Option EventDurability :=
  match textField data "durability" (some EventDurability.durable.value) with
  | some (some "durable") => some .durable
  | some (some "ephemeral") => some .ephemeral
  | _ => none

/-- `SessionEvent.from_mapping`; `none` is a `ValueError`. -/
def SessionEvent.fromMapping (py : Interp) (data : Payload) : Option SessionEvent := do
  let payload ← mappingField data "payload"
  let occurred_at ← floatField py data "occurred_at"
  let schema_version ← versionField data
  let event_id ← identityField data "event_id"
  let session_id ← identityField data "session_id"
  let source ← identityField data "source"
  let kind ← identityField data "kind"
  let durability ← durabilityField data
  let visibility ← identityField data "visibility" (some "session")
  let sequence ← intOf? (data.get "sequence")
  let turn_id ← textField data "turn_id"
  some {
    schema_version := schema_version
    event_id := event_id
    sequence := sequence
    session_id := session_id
    turn_id := turn_id
    source := source
    kind := kind
    occurred_at := occurred_at
    durability := durability
    visibility := visibility
    payload := payload }

/-- The event with the pairs of its payload sorted: what is read back of it. -/
def SessionEvent.canonical (e : SessionEvent) : SessionEvent :=
  { e with payload := Json.canonicalPairs e.payload }

/-- What `from_mapping` insists on. -/
structure SessionEvent.Named (e : SessionEvent) : Prop where
  event_id : e.event_id ≠ ""
  session_id : e.session_id ≠ ""
  source : e.source ≠ ""
  kind : e.kind ≠ ""
  visibility : e.visibility ≠ ""

theorem textField_canonical {data : Payload} {key : String} {default : Option String} :
    textField (Json.canonicalPairs data) key default = textField data key default := by
  unfold textField Payload.get
  rw [Json.lookup_canonicalPairs]
  cases Json.lookup key data with
  | none => rfl
  | some v => cases v <;> simp only [Option.map_some, Json.canonical]

theorem identityField_canonical {data : Payload} {key : String} {default : Option String} :
    identityField (Json.canonicalPairs data) key default = identityField data key default := by
  rw [identityField, textField_canonical, identityField]

theorem identityField_some {data : Payload} {key s : String} {default : Option String}
    (h : data.get key = some (.str s)) (hne : s ≠ "") : identityField data key default = some s := by
  rw [identityField, textField, h]
  exact if_neg hne

/-- **An event is read back as it was written.** -/
theorem SessionEvent.fromMapping_toDict (py : Interp) {e : SessionEvent} (h : e.Named) :
    SessionEvent.fromMapping py (Json.canonicalPairs e.toDict) = some e.canonical := by
  have hget : ∀ key, Payload.get (Json.canonicalPairs e.toDict) key
      = (Payload.get e.toDict key).map Json.canonical := fun key => Json.lookup_canonicalPairs key _
  have hturn : textField e.toDict "turn_id" = some e.turn_id := by
    have hlookup : e.toDict.get "turn_id" = some (Json.ofOptStr e.turn_id) := rfl
    rw [textField, hlookup]
    cases e.turn_id <;> rfl
  have hdurability : durabilityField (Json.canonicalPairs e.toDict) = some e.durability := by
    have htext : textField e.toDict "durability" (some EventDurability.durable.value)
        = some (some e.durability.value) := rfl
    rw [durabilityField, textField_canonical, htext]
    cases e.durability <;> rfl
  have hpayload : mappingField (Json.canonicalPairs e.toDict) "payload"
      = some (Json.canonicalPairs e.payload) := by
    have hlookup : e.toDict.get "payload" = some (.obj e.payload) := rfl
    rw [mappingField, hget, hlookup, Option.map_some, Json.canonical]
  have hoccurred : floatField py (Json.canonicalPairs e.toDict) "occurred_at"
      = some e.occurred_at := by
    have hlookup : e.toDict.get "occurred_at" = some (.float e.occurred_at) := rfl
    rw [floatField, hget, hlookup, Option.map_some, Json.canonical]
  have hversion : versionField (Json.canonicalPairs e.toDict) = some e.schema_version := by
    have hlookup : e.toDict.get "schema_version" = some (.int e.schema_version) := rfl
    rw [versionField, hget, hlookup, Option.map_some, Json.canonical]
  have hsequence : intOf? (Payload.get (Json.canonicalPairs e.toDict) "sequence")
      = some e.sequence := by
    have hlookup : e.toDict.get "sequence" = some (.int e.sequence) := rfl
    rw [hget, hlookup, Option.map_some, Json.canonical, intOf?]
  unfold SessionEvent.fromMapping
  rw [hpayload, hoccurred, hversion, hdurability, hsequence]
  simp only [textField_canonical, identityField_canonical]
  rw [identityField_some (show e.toDict.get "event_id" = some (.str e.event_id) from rfl) h.event_id,
    identityField_some (show e.toDict.get "session_id" = some (.str e.session_id) from rfl)
      h.session_id,
    identityField_some (show e.toDict.get "source" = some (.str e.source) from rfl) h.source,
    identityField_some (show e.toDict.get "kind" = some (.str e.kind) from rfl) h.kind,
    identityField_some (show e.toDict.get "visibility" = some (.str e.visibility) from rfl)
      h.visibility, hturn]
  rfl

/-! ## 5. Commands -/

structure SessionCommand where
  kind : String
  session_id : String
  client_id : String := "local"
  command_id : String
  idempotency_key : String
  expected_sequence : Option Int := none
  payload : Payload := []
  capabilities : List String := ["read", "control"]

structure CommandResult where
  ok : Bool
  command_id : String
  session_id : Option String
  code : String := "ok"
  message : String := ""
  data : Payload := []
  replayed : Bool := false
  deriving DecidableEq

def CommandResult.toDict (r : CommandResult) : Payload :=
  [("ok", .bool r.ok), ("command_id", .str r.command_id),
    ("session_id", Json.ofOptStr r.session_id), ("code", .str r.code),
    ("message", .str r.message), ("data", .obj r.data), ("replayed", .bool r.replayed)]

end Agenthicc.SessionService
