/-
Agenthicc.Memory.ResumeState — the turn markers of the journal and
`fold_resume_state`, which looks for the turn a crash interrupted.

The fold keeps one table for each fact, keyed by the turn ID of the record as
it is written: numbers that are equal across types share no row. `TurnCall` is a call of one of the writers; its ID is the raw one, and each
writer decides for itself whether to shorten it.
-/
import Agenthicc.Memory.Journal

namespace Agenthicc.Memory

open Python

/-! ## 1. `fold_resume_state` -/

inductive ExecutionKind where
  | direct
  | workflow
  deriving DecidableEq

structure IncompleteTurn where
  turn_id : Json
  user_message : Json
  base_count : Int
  tool_records : List (Json × Json)
  last_committed_step : String
  last_committed_cursor : Option Int
  interrupted_step_id : Option String
  interrupted_attempt_id : Option String
  workflow_run_id : Option String
  execution_kind : Option ExecutionKind

/-- One `(turn_id, user_message, base_count)`. -/
structure StartedTurn where
  turn_id : Json
  user_message : Json
  base_count : Int
  deriving DecidableEq

structure ResumeFold where
  started : List StartedTurn := []
  workflow_runs : Dict Json (Option String) := .empty
  execution_kinds : Dict Json (Option ExecutionKind) := .empty
  completed : List Json := []
  records : Dict Json (List (Json × Json)) := .empty
  committed : Dict Json (String × Option Int) := .empty
  interrupted : Dict Json (String × String) := .empty

namespace ResumeFold

/-- The table of workflow runs after a `turn_started`. -/
def startRun (f : ResumeFold) (tid : Json) (v : Json) : Dict Json (Option String) :=
  match v.get "workflow_run_id" with
  | .str id =>
      if id = "" then f.workflow_runs.setdefault tid none
      else f.workflow_runs.set tid (some (strTake 128 id))
  | _ => f.workflow_runs.setdefault tid none

/-- The table of execution kinds after a `turn_started`; a start without
workflow context does not erase an earlier workflow attempt. -/
def startKind (f : ResumeFold) (tid : Json) (v : Json) : Dict Json (Option ExecutionKind) :=
  if v.get "execution_kind" = .str "workflow" then f.execution_kinds.set tid (some .workflow)
  else if v.get "execution_kind" = .str "direct" then
    if f.execution_kinds.get? tid = some (some .workflow) then f.execution_kinds
    else f.execution_kinds.set tid (some .direct)
  else if (f.execution_kinds.get? tid).isNone ∧ (((f.startRun tid v).get? tid).getD none).isSome
    then f.execution_kinds.set tid (some .workflow)
  else f.execution_kinds.setdefault tid none

/-- A `turn_started` entry. -/
def start (py : Interp) (f : ResumeFold) (v : Json) : Except PyError ResumeFold := do
  let tid ← pyItem v "turn_id"
  let baseCount ← pyInt py (v.getD "base_count" (.int 0))
  let tid ← pyKey tid
  return { f with
    started := f.started ++ [⟨tid, v.getD "user_message" (.str ""), baseCount⟩]
    workflow_runs := f.startRun tid v
    execution_kinds := f.startKind tid v
    records := f.records.setdefault tid [] }

/-- `int(raw_cursor) if isinstance(raw_cursor, int) else None`. -/
def cursorOf : Json → Option Int
  | .int n => some n
  | .bool b => some (if b then 1 else 0)
  | _ => none

/-- One entry of the fold. -/
def entry (py : Interp) (f : ResumeFold) (v : Json) : Except PyError ResumeFold := do
  let kind ← pyGet v "kind"
  if kind = .str "turn_started" then f.start py v
  else
    let kind ← pyKey kind
    if kind ∈ [Json.str "turn_completed", .str "turn_aborted", .str "turn_failed",
        .str "turn_recovered"] then
      let tid ← pyKey (← pyItem v "turn_id")
      return { f with completed := f.completed ++ [tid] }
    else if kind = .str "tool_recorded" then
      let tid ← pyKey (← pyItem v "turn_id")
      let key ← pyItem v "key"
      return { f with
        records := f.records.set tid ((f.records.get? tid).getD [] ++ [(key, v.get "result")]) }
    else if kind = .str "step_committed" then
      let turnId := pyStr py (v.getD "turn_id" (.str ""))
      if turnId = "" then return f
      else
        return { f with
          committed := f.committed.set (.str turnId)
            (pyStr py (v.getD "step_id" (.str "")), cursorOf (v.get "cursor")) }
    else if kind = .str "step_interrupted" then
      let turnId := pyStr py (v.getD "turn_id" (.str ""))
      if turnId = "" then return f
      else
        return { f with
          interrupted := f.interrupted.set (.str turnId)
            (pyStr py (v.getD "step_id" (.str "")), pyStr py (v.getD "attempt_id" (.str ""))) }
    else return f

/-- `tid not in completed`. -/
def isOpen (py : Interp) (f : ResumeFold) (tid : Json) : Bool := f.completed.all fun c => !scalarEq py tid c

/-- The last started turn that is not completed. -/
def select (py : Interp) (f : ResumeFold) : Option IncompleteTurn :=
  (f.started.reverse.find? fun t => f.isOpen py t.turn_id).map fun t =>
    let (lastStep, lastCursor) := (f.committed.get? t.turn_id).getD ("", none)
    { turn_id := t.turn_id
      user_message := t.user_message
      base_count := t.base_count
      tool_records := (f.records.get? t.turn_id).getD []
      last_committed_step := lastStep
      last_committed_cursor := lastCursor
      interrupted_step_id := (f.interrupted.get? t.turn_id).map Prod.fst
      interrupted_attempt_id := (f.interrupted.get? t.turn_id).map Prod.snd
      workflow_run_id := (f.workflow_runs.get? t.turn_id).getD none
      execution_kind := (f.execution_kinds.get? t.turn_id).getD none }

end ResumeFold

def foldResumeState (py : Interp) (text : List Char) : Except PyError (Option IncompleteTurn) := do
  let f ← readLoop (ResumeFold.entry py) {} (decodeLines text)
  return f.select py

/-! ## 2. The writers -/

/-- Record kinds `fold_resume_state` acts on. -/
def RESUME_KINDS : List String :=
  ["turn_started", "turn_completed", "turn_aborted", "turn_failed", "turn_recovered",
    "tool_recorded", "step_committed", "step_interrupted"]

/-- `max(0, int(n))`. -/
def atLeastZero (n : Int) : Json := .int (max 0 n)

/-- `cursor if cursor is not None else self._seq`. -/
def cursorOr (cursor : Option Int) (seq : Nat) : Json := .int (cursor.getD seq)

/-- A call of a writer of turn, step and tool records. -/
inductive TurnCall where
  | turnStarted (turnId userMessage : String) (baseCount : Int) (conversationId : String)
      (baseCursor : Option Int) (workflowRunId : Option String)
  | turnCompleted (turnId : String)
  | turnAborted (turnId reason : String)
  | turnFailed (turnId lastCommittedStep : String) (cursor : Option Int) (errorKind : String)
      (retryable : Bool)
  | turnRecovered (turnId : String)
  | turnRecoveryStarted (turnId : String)
  | stepStarted (turnId stepId attemptId : String) (stepIndex : Int) (baseCursor : Option Int)
  | stepCommitted (turnId stepId : String) (stepIndex : Int) (cursor : Option Int)
      (messageCount : Int)
  | stepInterrupted (turnId stepId attemptId errorKind : String) (partialChars : Int)
      (retryable : Bool)
  | toolRecorded (turnId key : String) (result : Json)
  /-- Any other record of the journal. -/
  | other (e : Entry) (unrelated : e.kind ∉ RESUME_KINDS)

/-- The record a call writes; `seq` is `self._seq`. -/
def TurnCall.entry (seq : Nat) : TurnCall → Entry
  | .turnStarted turnId userMessage baseCount conversationId baseCursor workflowRunId =>
      { kind := "turn_started"
        fields := [("schema_version", .int 3),
          ("execution_kind",
            .str (if workflowRunId.getD "" = "" then "direct" else "workflow")),
          ("turn_id", .str (strTake 128 turnId)),
          ("conversation_id", .str (strTake 128 conversationId)),
          ("user_message", .str userMessage), ("base_count", atLeastZero baseCount),
          ("base_cursor", cursorOr baseCursor seq)]
          ++ if workflowRunId.getD "" = "" then []
            else [("workflow_run_id", .str (strTake 128 (workflowRunId.getD "")))]
        own := by split <;> simp }
  | .turnCompleted turnId => { kind := "turn_completed", fields := [("turn_id", .str turnId)] }
  | .turnAborted turnId reason =>
      { kind := "turn_aborted", fields := [("turn_id", .str turnId), ("reason", .str reason)] }
  | .turnFailed turnId lastCommittedStep cursor errorKind retryable =>
      { kind := "turn_failed"
        fields := [("turn_id", .str turnId), ("last_committed_step", .str lastCommittedStep),
          ("cursor", cursorOr cursor seq), ("error_kind", .str (strTake 96 errorKind)),
          ("retryable", .bool retryable)] }
  | .turnRecovered turnId => { kind := "turn_recovered", fields := [("turn_id", .str turnId)] }
  | .turnRecoveryStarted turnId =>
      { kind := "turn_recovery_started"
        fields := [("schema_version", .int 1), ("turn_id", .str (strTake 128 turnId))] }
  | .stepStarted turnId stepId attemptId stepIndex baseCursor =>
      { kind := "step_started"
        fields := [("schema_version", .int 1), ("turn_id", .str (strTake 128 turnId)),
          ("step_id", .str (strTake 160 stepId)), ("attempt_id", .str (strTake 160 attemptId)),
          ("step_index", atLeastZero stepIndex), ("base_cursor", cursorOr baseCursor seq)] }
  | .stepCommitted turnId stepId stepIndex cursor messageCount =>
      { kind := "step_committed"
        fields := [("schema_version", .int 1), ("turn_id", .str (strTake 128 turnId)),
          ("step_id", .str (strTake 160 stepId)), ("step_index", atLeastZero stepIndex),
          ("cursor", cursorOr cursor seq), ("message_count", atLeastZero messageCount)] }
  | .stepInterrupted turnId stepId attemptId errorKind partialChars retryable =>
      { kind := "step_interrupted"
        fields := [("schema_version", .int 1), ("turn_id", .str (strTake 128 turnId)),
          ("step_id", .str (strTake 160 stepId)), ("attempt_id", .str (strTake 160 attemptId)),
          ("error_kind", .str (strTake 96 errorKind)),
          ("partial_chars", atLeastZero partialChars), ("retryable", .bool retryable)] }
  | .toolRecorded turnId key result =>
      { kind := "tool_recorded"
        fields := [("turn_id", .str turnId), ("key", .str key), ("result", result)] }
  | .other e _ => e

/-- The calls, on an open journal whose writes do not fail. -/
def ConversationJournal.turnCalls (j : ConversationJournal) (cs : List TurnCall) :
    ConversationJournal :=
  cs.foldl (fun j c => (j.write (c.entry j.seq) {}).1) j

end Agenthicc.Memory
