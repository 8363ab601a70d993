/-
Agenthicc.Memory.Journaled — `JournaledShortTermMemory`: the conversation in
memory and the journal it is written to.

The base class is not part of the repository. `ShortTermMemory` lists what is
used of it: the messages its `add_*` methods append, the projection `restore`
sets, and whether its validator accepts a history. Each may raise.
-/
import Agenthicc.Memory.Journal

namespace Agenthicc.Memory

open Python

/-- What is used of a tool exchange of the base class. -/
structure ToolExchange where
  exchange_id : String
  call_ids : List String
  /-- `state == "started"`. -/
  started : Bool

/-- The base class, and the digest `hashlib.sha256(…).hexdigest()`. -/
structure ShortTermMemory where
  addUser : List Json → Json → Except PyError (List Json)
  addAssistant : List Json → Json → Except PyError (List Json)
  addToolResult : List Json → Json → Except PyError (List Json)
  addToolResults : List Json → List Json → Except PyError (List Json)
  restore : Json → Except PyError (Projection × Option ToolExchange)
  /-- `validate_tool_history().ok` without an active exchange. -/
  historyOk : List Json → Json → Bool
  sha256 : String → String

/-- `tool_exchange_recovery_event_id`. -/
def toolExchangeRecoveryEventId (base : ShortTermMemory) (exchangeId : String)
    (event : String := "repaired") : String :=
  "tool-exchange-" ++ event ++ ":"
    ++ strTake 32 (base.sha256 ("lauren-ai:tool-exchange:" ++ event ++ ":" ++ exchangeId))

/-- `tool_exchange_aborted`. -/
def toolExchangeAbortedEntry (exchangeId : String) (callCount : Nat) (repaired : Bool)
    (eventId : String := "") : Entry where
  kind := "tool_exchange_aborted"
  fields := [("schema_version", .int 2), ("exchange_id", .str exchangeId),
    ("call_count", .int callCount), ("repaired", .bool repaired),
    ("event_id", .str (strTake 128 eventId))]

/-- `has_message_id`. -/
def hasMessageId (text : List Char) (messageId : String) : Bool :=
  messageId ≠ "" && (journalEntries text).any fun v =>
    v.isObj && v.get "kind" = .str "append" && v.get "message_id" = .str messageId

/-- `items[:count]`. -/
def sliceTo {α : Type} (items : List α) (count : Int) : List α :=
  items.take (if 0 ≤ count then count.toNat else (items.length + count).toNat)

structure JournaledShortTermMemory where
  journal : ConversationJournal
  messages : List Json
  summary : Json
  activeExchange : Option ToolExchange := none

namespace JournaledShortTermMemory

/-- `JournaledShortTermMemory(ConversationJournal(path))` up to the repair of
the tool history, which is a call of `commitRepairedToolHistory`. -/
def opened (file : List Char) : Except PyError JournaledShortTermMemory := do
  let journal := ConversationJournal.opened file
  let (messages, summary) ← journal.fold
  return { journal, messages, summary }

/-- Appends the messages with their receipt IDs; `fails i` says that the
`i`-th of the writes fails, which leaves the rest unwritten. -/
def journalMessages (fails : Nat → Bool) : ConversationJournal → List (Json × String) →
    (i : Nat := 0) → ConversationJournal × Except PyError Unit
  | j, [], _ => (j, .ok ())
  | j, (message, messageId) :: rest, i =>
      match j.write (appendEntry message messageId)
        (ConversationJournal.failing (fails i)) with
      | (j, .error exc) => (j, .error exc)
      | (j, .ok ()) => journalMessages fails j rest (i + 1)

/-- The base method appends in memory, then `_journal_new` writes. -/
def addNew (m : JournaledShortTermMemory) (added : Except PyError (List Json))
    (messageIds : Nat → String) (fails : Nat → Bool) :
    JournaledShortTermMemory × Except PyError Unit :=
  match added with
  | .error exc => (m, .error exc)
  | .ok new =>
      let m := { m with messages := m.messages ++ new }
      let (journal, result) :=
        journalMessages fails m.journal (new.zipIdx.map fun p => (p.1, messageIds p.2))
      ({ m with journal }, result)

def addUser (base : ShortTermMemory) (m : JournaledShortTermMemory) (content : Json)
    (fails : Nat → Bool) : JournaledShortTermMemory × Except PyError Unit :=
  m.addNew (base.addUser m.messages content) (fun _ => "") fails

def addUserOnce (base : ShortTermMemory) (m : JournaledShortTermMemory) (content : Json)
    (messageId : String) (fails : Nat → Bool) : JournaledShortTermMemory × Except PyError Unit :=
  if messageId = "" then (m, .error (.valueError "message_id must be non-empty"))
  else if hasMessageId m.journal.text messageId then (m, .ok ())
  else
    m.addNew (base.addUser m.messages content)
      (fun i => if i = 0 then messageId else messageId ++ ":" ++ toString i) fails

def addAssistant (base : ShortTermMemory) (m : JournaledShortTermMemory) (completion : Json)
    (fails : Nat → Bool) : JournaledShortTermMemory × Except PyError Unit :=
  m.addNew (base.addAssistant m.messages completion) (fun _ => "") fails

def addToolResult (base : ShortTermMemory) (m : JournaledShortTermMemory) (result : Json)
    (fails : Nat → Bool) : JournaledShortTermMemory × Except PyError Unit :=
  m.addNew (base.addToolResult m.messages result) (fun _ => "") fails

def addToolResults (base : ShortTermMemory) (m : JournaledShortTermMemory) (results : List Json)
    (fails : Nat → Bool) : JournaledShortTermMemory × Except PyError Unit :=
  match results with
  | [result] => addToolResult base m result fails
  | results => m.addNew (base.addToolResults m.messages results) (fun _ => "") fails

/-- The projection is set in memory, then written. -/
def resetTo (m : JournaledShortTermMemory) (p : Projection) (turnId stepId reason : String)
    (fails : Bool) : JournaledShortTermMemory × Except PyError Unit :=
  let m := { m with messages := p.1, summary := p.2 }
  let (journal, result) := m.journal.write (resetEntry p.1 p.2 turnId stepId reason)
    (ConversationJournal.failing fails)
  ({ m with journal }, result)

def restore (base : ShortTermMemory) (m : JournaledShortTermMemory) (data : Json)
    (turnId stepId reason : String) (fails : Bool) :
    JournaledShortTermMemory × Except PyError Unit :=
  match base.restore data with
  | .error exc => (m, .error exc)
  | .ok (p, exchange) =>
      { m with activeExchange := exchange }.resetTo p turnId stepId reason fails

def rollbackUncommittedAttempt (base : ShortTermMemory) (m : JournaledShortTermMemory)
    (checkpoint : Json) (turnId stepId : String) (fails : Bool) :
    JournaledShortTermMemory × Except PyError Unit :=
  restore base m checkpoint turnId stepId "provider_attempt_rollback" fails

def rollbackTo (m : JournaledShortTermMemory) (count : Int) (fails : Bool) :
    JournaledShortTermMemory × Except PyError Unit :=
  m.resetTo (sliceTo m.messages count, m.summary) "" "" "" fails

/-- What the disk does to the three records of a replacement. -/
structure ReplaceFails where
  prepare : Bool := false
  reset : Bool := false
  commit : Bool := false

/-- The journal transaction, and the projection in memory once it is
committed. -/
def commitState (m : JournaledShortTermMemory) (uuid : String) (p : Projection)
    (fails : ReplaceFails) : JournaledShortTermMemory × Except PyError Unit :=
  match m.journal.replaceState uuid p.1 p.2 (ConversationJournal.failing fails.prepare)
    (ConversationJournal.failing fails.reset) (ConversationJournal.failing fails.commit) with
  | (journal, .error exc) => ({ m with journal }, .error exc)
  | (journal, .ok ()) => ({ m with journal, messages := p.1, summary := p.2 }, .ok ())

/-- Whether an exchange is active and still running. -/
def exchangeStarted (m : JournaledShortTermMemory) : Bool :=
  match m.activeExchange with
  | none => false
  | some exchange => exchange.started

def replaceState (m : JournaledShortTermMemory) (uuid : String) (p : Projection)
    (fails : ReplaceFails) : JournaledShortTermMemory × Except PyError Unit :=
  if m.exchangeStarted then
    (m, .error (.raised "ToolConversationIntegrityError"
      "Cannot replace conversation state during an active tool exchange"))
  else m.commitState uuid p fails

/-- `_abort_repaired_exchange` writes the receipt of the hook
`on_tool_exchange_aborted`. -/
def commitRepairedToolHistory (base : ShortTermMemory) (m : JournaledShortTermMemory)
    (uuid : String) (p : Projection) (fails : ReplaceFails) (receiptFails : Bool) :
    JournaledShortTermMemory × Except PyError Unit :=
  if !base.historyOk p.1 p.2 then
    (m, .error (.raised "ToolConversationIntegrityError"
      "Tool conversation repair candidate remains invalid"))
  else
    match m.commitState uuid p fails with
    | (m, .error exc) => (m, .error exc)
    | (m, .ok ()) =>
        match m.activeExchange with
        | some exchange =>
            if exchange.started then
              match m.journal.write
                (toolExchangeAbortedEntry exchange.exchange_id exchange.call_ids.length true
                  (toolExchangeRecoveryEventId base exchange.exchange_id))
                (ConversationJournal.failing receiptFails) with
              | (journal, .error exc) => ({ m with journal }, .error exc)
              | (journal, .ok ()) => ({ m with journal, activeExchange := none }, .ok ())
            else ({ m with activeExchange := none }, .ok ())
        | none => (m, .ok ())

/-- The operations, with the writes that fail. -/
inductive Op where
  | addUser (content : Json) (fails : Nat → Bool)
  | addUserOnce (content : Json) (messageId : String) (fails : Nat → Bool)
  | addAssistant (completion : Json) (fails : Nat → Bool)
  | addToolResult (result : Json) (fails : Nat → Bool)
  | addToolResults (results : List Json) (fails : Nat → Bool)
  | restore (data : Json) (turnId stepId reason : String) (fails : Bool)
  | rollbackTo (count : Int) (fails : Bool)
  | rollbackUncommittedAttempt (checkpoint : Json) (turnId stepId : String) (fails : Bool)
  | replaceState (uuid : String) (p : Projection) (fails : ReplaceFails)
  | commitRepairedToolHistory (uuid : String) (p : Projection) (fails : ReplaceFails)
      (receiptFails : Bool)

/-- One operation, returned or raised. -/
def perform (base : ShortTermMemory) (m : JournaledShortTermMemory) :
    Op → JournaledShortTermMemory × Except PyError Unit
  | .addUser content fails => addUser base m content fails
  | .addUserOnce content messageId fails => addUserOnce base m content messageId fails
  | .addAssistant completion fails => addAssistant base m completion fails
  | .addToolResult result fails => addToolResult base m result fails
  | .addToolResults results fails => addToolResults base m results fails
  | .restore data turnId stepId reason fails => restore base m data turnId stepId reason fails
  | .rollbackTo count fails => m.rollbackTo count fails
  | .rollbackUncommittedAttempt checkpoint turnId stepId fails =>
      rollbackUncommittedAttempt base m checkpoint turnId stepId fails
  | .replaceState uuid p fails => m.replaceState uuid p fails
  | .commitRepairedToolHistory uuid p fails receiptFails =>
      commitRepairedToolHistory base m uuid p fails receiptFails

def step (base : ShortTermMemory) (m : JournaledShortTermMemory) (op : Op) :
    JournaledShortTermMemory := (perform base m op).1

/-- The journal folds to the projection in memory. -/
def Synced (m : JournaledShortTermMemory) : Prop := m.journal.fold = .ok (m.messages, m.summary)

end JournaledShortTermMemory

end Agenthicc.Memory
