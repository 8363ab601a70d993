/-
Agenthicc.GoalRuns.Store — the append-only JSONL store of goal runs.

Every writer folds the file, computes the record it returns and appends one
event, all under one file lock; `fold` is also how every reader sees a run. An
operation gives the line it appends together with the record it returns, so
that a crash can leave a part of that line. The clock readings of one
operation are one parameter: `evolve` overwrites whatever time the fold put
into the record, and nothing reads the timestamp of an event.
-/
import Agenthicc.GoalRuns.Model

namespace Agenthicc.GoalRuns

open Python Background

namespace RunStore

/-! ## 1. The file -/

/-- `_read`: the lines that decode to an object. -/
def read (text : List Char) : List (List (String × Json)) :=
  (readLines text).filterMap fun
    | .entry (.obj kvs) => some kvs
    | _ => none

/-- `max(sequence_numbers, default=0) + 1`. -/
def nextSeq (prior : List (List (String × Json))) : Int :=
  ((prior.filterMap fun kvs => intOf ((Json.lookup "seq" kvs).getD .null)).max?).getD 0 + 1

/-- The record that `_append` writes. -/
def record (now : Clock) (prior : List (List (String × Json))) (event_type : String)
    (payload : List (String × Json)) : List (String × Json) :=
  [("seq", .int (nextSeq prior)), ("event_type", .str event_type), ("timestamp", .float now.time),
    ("payload", .obj payload)]

/-- The line that `_append` adds to the file. -/
def line (now : Clock) (text : List Char) (event_type : String) (payload : List (String × Json)) :
    List Char :=
  compactLine (.obj (record now (read text) event_type payload))

/-! ## 2. The fold -/

abbrev Runs : Type := Dict String GoalRun

/-- A run replaced by what its event makes of it; the exceptions that the fold
catches leave it alone. -/
def settleRun (runs : Runs) (run_id : String) (caught : PyError → Bool) :
    Except PyError GoalRun → Except PyError Runs
  | .ok r => .ok (runs.set run_id r)
  | .error exc => if caught exc then .ok runs else .error exc

def isValueError : PyError → Bool
  | .valueError _ => true
  | _ => false

/-- `except (TypeError, ValueError)`. -/
def isTypeOrValueError : PyError → Bool
  | .typeError _ | .valueError _ => true
  | _ => false

/-- `next((item for item in agents if item.session_id == session_id), None)`. -/
def agentOfSession (agents : List RunAgentRecord) (session_id : String) : Option RunAgentRecord :=
  agents.find? fun item => item.session_id = session_id

/-- A newer attempt of the session is recorded. -/
def overtaken (agents : List RunAgentRecord) (session_id : String) (attempt : Int) : Bool :=
  match agentOfSession agents session_id with
  | some previous => attempt < previous.attempt
  | none => false

/-- What the events of one kind make of a run that is there. -/
def applyPayload (py : Interp) (now : Clock) (runs : Runs) (run_id kind : String)
    (payload : List (String × Json)) (current : GoalRun) : Except PyError Runs :=
  if kind = "run_updated" then
    match Json.lookup "changes" payload with
    | some (.obj changes) =>
        settleRun runs run_id isTypeOrValueError (current.evolve py now changes)
    | _ => .ok runs
  else if kind = "agent_linked" then
    match Json.lookup "agent" payload with
    | some (.obj agent) =>
        settleRun runs run_id isValueError
          ((Record.fromMapping agentSchema py now agent).bind fun a => current.withAgent py now a)
    | _ => .ok runs
  else if kind = "session_attempt_projected" then
    match Json.lookup "attempt" payload, Json.lookup "session_id" payload,
      Json.lookup "agent" payload, Json.lookup "changes" payload with
    | some (.int attempt), some (.str session_id), some (.obj agent), some (.obj changes) =>
        if overtaken (current.agents) session_id attempt then .ok runs
        else
          settleRun runs run_id isTypeOrValueError
            ((current.evolve py now changes).bind fun evolved =>
              (Record.fromMapping agentSchema py now agent).bind fun a =>
                evolved.withAgent py now a)
    | _, _, _, _ => .ok runs
  else .ok runs

/-- One step of `_fold`. -/
def applyEvent (py : Interp) (now : Clock) (runs : Runs) (event : List (String × Json)) :
    Except PyError Runs :=
  match Json.lookup "payload" event with
  | some (.obj payload) =>
      match Json.lookup "run_id" payload, Json.lookup "event_type" event with
      | some (.str run_id), some (.str kind) =>
          if run_id = "" then .ok runs
          else if kind = "run_created" then
            match Json.lookup "run" payload with
            | some (.obj raw) =>
                settleRun runs run_id isValueError (Record.fromMapping runSchema py now raw)
            | _ => .ok runs
          else
            match runs.get? run_id with
            | some current => applyPayload py now runs run_id kind payload current
            | none => .ok runs
      | _, _ => .ok runs
  | _ => .ok runs

/-- `_fold`. -/
def fold (py : Interp) (now : Clock) (text : List Char) : Except PyError Runs :=
  (read text).foldlM (applyEvent py now) Dict.empty

/-- `get`; `RunNotFound` is a `KeyError`. -/
def get (py : Interp) (now : Clock) (text : List Char) (run_id : String) :
    Except PyError GoalRun := do
  let runs ← fold py now text
  match runs.get? run_id with
  | some run => return run
  | none => .error (.keyError run_id)

/-! ## 3. The writers -/

/-- What a writer appends, and the record it returns. -/
structure Written where
  line : List Char
  run : GoalRun

/-- `create`. -/
def create (py : Interp) (now : Clock) (text : List Char) (run : GoalRun) :
    Except PyError Written := do
  let runs ← fold py now text
  if (runs.get? run.id).isSome then
    .error (.valueError ("goal run already exists: " ++ run.id))
  else
    return ⟨line now text "run_created" [("run_id", .str run.id), ("run", .obj run.toDict)], run⟩

def update (py : Interp) (now : Clock) (text : List Char) (run_id : String)
    (changes : List (String × Json)) : Except PyError Written := do
  let current ← get py now text run_id
  let updated ← current.evolve py now changes
  return ⟨line now text "run_updated"
    [("run_id", .str run_id), ("changes", .obj updated.toDictWithoutAgents)], updated⟩

def linkAgent (py : Interp) (now : Clock) (text : List Char) (run_id : String)
    (agent : RunAgentRecord) : Except PyError Written := do
  let current ← get py now text run_id
  let updated ← current.withAgent py now agent
  return ⟨line now text "agent_linked" [("run_id", .str run_id), ("agent", .obj agent.toDict)],
    updated⟩

def projectSessionAttempt (py : Interp) (now : Clock) (text : List Char) (run_id session_id : String)
    (attempt : Int) (agent : RunAgentRecord) (changes : List (String × Json)) :
    Except PyError Written :=
  if session_id = "" ∨ attempt < 0 then
    .error (.valueError "session attempt projection requires a valid identity")
  else if agent.session_id ≠ session_id ∨ agent.attempt ≠ attempt then
    .error (.valueError "agent identity/attempt does not match session projection")
  else do
    let current ← get py now text run_id
    if overtaken (current.agents) session_id attempt then return ⟨[], current⟩
    else
      let evolved ← current.evolve py now changes
      let updated ← evolved.withAgent py now agent
      return ⟨line now text "session_attempt_projected"
        [("run_id", .str run_id), ("session_id", .str session_id), ("attempt", .int attempt),
          ("changes", .obj updated.toDictWithoutAgents), ("agent", .obj agent.toDict)], updated⟩

/-- A call of one of the writers of a run that exists. -/
inductive Write where
  | update (changes : List (String × Json))
  | linkAgent (agent : RunAgentRecord)
  | projectSessionAttempt (session_id : String) (attempt : Int) (agent : RunAgentRecord)
      (changes : List (String × Json))

def Write.perform (py : Interp) (now : Clock) (text : List Char) (run_id : String) :
    Write → Except PyError Written
  | .update changes => RunStore.update py now text run_id changes
  | .linkAgent agent => RunStore.linkAgent py now text run_id agent
  | .projectSessionAttempt session_id attempt agent changes =>
      RunStore.projectSessionAttempt py now text run_id session_id attempt agent changes

end RunStore

end Agenthicc.GoalRuns
