/-
Agenthicc.Memory.Journal — the conversation journal: `fold_path`, the
operations that write what it folds, and the folds of the auxiliary records.

`Fold` is the state of the loop of `fold_path`. Its register `pending` holds
the projection a `state_replace_prepare` record recorded, until a commit
clears it or anything else puts that projection back.
-/
import Agenthicc.Memory.JournalFile
import Agenthicc.Python.Dict

namespace Agenthicc.Memory

open Python

/-! ## 1. `fold_path` -/

/-- The messages and the summary; no summary is `null`. -/
abbrev Projection := List Json × Json

structure Fold where
  messages : List Json := []
  summary : Json := .null
  pending : Option (String × Projection) := none

namespace Fold

def projection (f : Fold) : Projection := (f.messages, f.summary)

/-- `rollback_pending`. -/
def rollbackPending (f : Fold) : Fold :=
  match f.pending with
  | none => f
  | some (_, messages, summary) => { messages, summary, pending := none }

/-- Whether the record belongs to the transaction in the register. -/
def inTransaction (f : Fold) (transactionId : Json) : Bool :=
  match f.pending with
  | none => false
  | some (id, _) => transactionId = .str id

/-- One entry of `fold_path`. -/
def entry (f : Fold) (v : Json) : Except PyError Fold := do
  let kind ← pyGet v "kind"
  if kind = .str "state_replace_prepare" then
    let f := f.rollbackPending
    match ← pyGet v "transaction_id" with
    | .str id =>
        let messages ← pyList (← pyGet v "previous_messages" (.arr []))
        let summary ← pyGet v "previous_summary"
        return { f with pending := some (id, messages, summary) }
    | _ => return f
  else if kind = .str "reset" then
    let transactionId ← pyGet v "transaction_id"
    -- outside its transaction a reset first undoes an abandoned one
    let f := if f.inTransaction transactionId then f else f.rollbackPending
    let messages ← pyList (← pyGet v "messages" (.arr []))
    let summary ← pyGet v "summary"
    return { f with messages, summary }
  else if kind = .str "state_replace_commit" then
    let transactionId ← pyGet v "transaction_id"
    return if f.inTransaction transactionId then { f with pending := none } else f
  else if kind = .str "append" then
    let f := f.rollbackPending
    match v.get? "message" with
    | some message => return { f with messages := f.messages ++ [message] }
    | none => throw (.keyError "message")
  else return f

end Fold

/-- The records `fold_path` gives up on: the first that does not decode and
every line behind it that is not blank. -/
def corruptTailRecords : List Line → Nat
  | [] => 0
  | .corrupt :: tail => 1 + tail.countP (· ≠ .blank)
  | _ :: lines => corruptTailRecords lines

/-- `fold_path_with_report`; a missing file is an empty text. -/
def foldPathWithReport (text : List Char) : Except PyError (List Json × Json × Nat) := do
  let f ← readLoop Fold.entry {} (decodeLines text)
  let f := f.rollbackPending
  return (f.messages, f.summary, corruptTailRecords (decodeLines text))

def foldPath (text : List Char) : Except PyError Projection := do
  let (messages, summary, _) ← foldPathWithReport text
  return (messages, summary)

/-! ## 2. Writing the conversation -/

/-- `append_message`. -/
def appendEntry (message : Json) (messageId : String := "") : Entry where
  kind := "append"
  fields := ("message", message) ::
    if messageId = "" then [] else [("message_id", .str (strTake 160 messageId))]
  own := by split <;> simp

/-- `reset`. -/
def resetEntry (messages : List Json) (summary : Json) (turnId stepId reason : String := "") :
    Entry where
  kind := "reset"
  fields := ("messages", .arr messages) :: ("summary", summary) ::
    if turnId = "" ∧ stepId = "" ∧ reason = "" then []
    else [("schema_version", .int 1), ("turn_id", .str (strTake 128 turnId)),
      ("step_id", .str (strTake 160 stepId)), ("reason", .str (strTake 96 reason))]
  own := by split <;> simp

/-- The three records of `replace_state`. -/
def prepareEntry (transactionId : String) (previous : Projection) : Entry where
  kind := "state_replace_prepare"
  fields := [("transaction_id", .str transactionId), ("previous_messages", .arr previous.1),
    ("previous_summary", previous.2)]

def candidateEntry (transactionId : String) (candidate : Projection) : Entry where
  kind := "reset"
  fields := [("transaction_id", .str transactionId), ("messages", .arr candidate.1),
    ("summary", candidate.2)]

def commitEntry (transactionId : String) : Entry where
  kind := "state_replace_commit"
  fields := [("transaction_id", .str transactionId)]

/-- Record kinds `fold_path` acts on. -/
def FOLDED_KINDS : List String :=
  ["state_replace_prepare", "reset", "state_replace_commit", "append"]

namespace ConversationJournal

/-- `fold()`: the queue is drained and the file is folded. -/
def fold (j : ConversationJournal) : Except PyError Projection := foldPath j.text

/-- `replace_state`, with the fresh `uuid4().hex` and what the disk does to
each of its records. -/
def replaceState (j : ConversationJournal) (uuid : String) (messages : List Json) (summary : Json)
    (prepare candidate commit : Faults := {}) : ConversationJournal × Except PyError Unit :=
  match j.fold with
  | .error exc => (j, .error exc)
  | .ok previous =>
      match j.write (prepareEntry uuid previous) prepare with
      | (j, .error exc) => (j, .error exc)
      | (j, .ok ()) =>
          match j.write (candidateEntry uuid (messages, summary)) candidate with
          | (j, .error exc) => (j, .error exc)
          | (j, .ok ()) => j.write (commitEntry uuid) commit

/-- One call on the journal; the flags say that the write of a record fails. -/
inductive Call where
  | append (message : Json) (messageId : String) (fails : Bool)
  | reset (messages : List Json) (summary : Json) (turnId stepId reason : String) (fails : Bool)
  | replaceState (uuid : String) (candidate : Projection) (noPrepare noReset noCommit : Bool)
  | other (e : Entry) (unrelated : e.kind ∉ FOLDED_KINDS) (fails : Bool)

def call (j : ConversationJournal) : Call → ConversationJournal
  | .append message messageId fails => (j.write (appendEntry message messageId) (failing fails)).1
  | .reset messages summary turnId stepId reason fails =>
      (j.write (resetEntry messages summary turnId stepId reason) (failing fails)).1
  | .replaceState uuid candidate noPrepare noReset noCommit =>
      (j.replaceState uuid candidate.1 candidate.2 (failing noPrepare) (failing noReset)
        (failing noCommit)).1
  | .other e _ fails => (j.write e (failing fails)).1

def calls (j : ConversationJournal) (cs : List Call) : ConversationJournal := cs.foldl call j

/-- What a call means for the conversation. -/
def Call.effect (p : Projection) : Call → Projection
  | .append message _ fails => if fails then p else (p.1 ++ [message], p.2)
  | .reset messages summary _ _ _ fails => if fails then p else (messages, summary)
  | .replaceState _ candidate noPrepare noReset noCommit =>
      if noPrepare || noReset || noCommit then p else candidate
  | .other _ _ _ => p

end ConversationJournal

/-! ## 3. The auxiliary folds -/

/-- `_projected`. -/
def projected (kind : String) : Bool :=
  "subagent_".toList.isPrefixOf kind.toList || kind = "agent_message_event"

/-- `str(entry.get("kind", ""))`, for the kinds the writers use. -/
def kindText (v : Json) : String :=
  match v.getD "kind" (.str "") with
  | .str kind => kind
  | _ => ""

/-- One entry of `_subagent_view`. -/
def subagentEntry (records : List Json) (v : Json) : Except PyError (List Json) :=
  .ok (if v.isObj && projected (kindText v) then records ++ [v] else records)

/-- `_subagent_view`: every subagent record in order. -/
def subagentView (text : List Char) : Except PyError (List Json) :=
  readLoop subagentEntry [] (decodeLines text)

/-- One entry of `fold_usage_records`. -/
def usageEntry (latest : Dict String Json) (v : Json) : Except PyError (Dict String Json) := do
  let kind ← pyGet v "kind"
  if kind ≠ .str "usage_record" then return latest
  else
    let record ← pyGet v "record"
    match record.isObj, record.get "record_id" with
    | true, .str id => return if id = "" then latest else latest.set id record
    | _, _ => return latest

def foldUsageRecords (text : List Char) : Except PyError (List Json) := do
  let latest ← readLoop usageEntry .empty (decodeLines text)
  return latest.values

/-- The strings of a list that are not empty, each once. -/
def callHashes (items : List Json) : List String :=
  (items.filterMap fun
    | .str s => if s = "" then none else some s
    | _ => none).eraseDups

/-- One entry of `fold_pending_tool_exchange_call_hashes`. -/
def pendingExchangeEntry (pending : Dict String (List String)) (v : Json) :
    Except PyError (Dict String (List String)) :=
  if !v.isObj then .ok pending
  else
    match v.get "exchange_id" with
    | .str exchangeId =>
        if exchangeId = "" then .ok pending
        else if v.get "kind" = .str "tool_exchange_started" then
          match v.get "call_ids" with
          | .arr items => .ok (pending.set exchangeId (callHashes items))
          | _ => .ok pending
        else if v.get "kind" = .str "tool_exchange_committed"
            ∨ v.get "kind" = .str "tool_exchange_aborted" then .ok (pending.pop exchangeId)
        else .ok pending
    | _ => .ok pending

def foldPendingToolExchangeCallHashes (text : List Char) : Except PyError (List String) := do
  let pending ← readLoop pendingExchangeEntry .empty (decodeLines text)
  return pending.values.flatten.eraseDups

end Agenthicc.Memory
