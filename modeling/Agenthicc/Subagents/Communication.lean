/-
Agenthicc.Subagents.Communication — the message broker of a subagent pool, and
the broker `rehydrate` builds from its journaled events.

Every operation holds the broker's lock, so it is one step. A step that raises
gives the text of its `CommunicationError`. Time is the ordered type `τ` of the
clock's readings: the broker only adds a timeout to a reading and compares.
What the journal returns for an event is its payload, so events are typed; the
header of an event holds the shortened pool ID the journal writes.
-/
import Agenthicc.Python.Builtins
import Agenthicc.Python.Dict
import Agenthicc.Python.JsonLines
import Mathlib.Algebra.Notation.Defs
import Mathlib.Order.Defs.LinearOrder

namespace Agenthicc.Subagents

open Python

/-! ## 1. Data -/

def MESSAGE_KINDS : List String :=
  ["status", "information", "instruction", "clarification_request", "clarification_response",
    "handoff", "error", "cancel"]

structure AgentMessageEnvelope (τ : Type) where
  message_id : String
  conversation_id : String
  parent_run_id : String
  pool_id : String
  sender : String
  recipient : String
  kind : String
  payload : List (String × Json)
  reply_to : String := ""
  correlation_id : String := ""
  sequence : Nat := 0
  created_at : τ
  expires_at : Option τ := none
  requires_response : Bool := false
  policy_revision : String := ""

inductive MessageState where
  | created
  | queued
  | delivered
  | acknowledged
  | expired
  | rejected
  deriving DecidableEq

structure MessageRecord (τ : Type) where
  envelope : AgentMessageEnvelope τ
  state : MessageState := .created
  acknowledged : Bool := false
  acknowledged_by : List String := []

/-- The future a question is awaited through. -/
inductive AnswerFuture where
  | waiting
  | result (answer : String)
  | exception (message : String)
  | cancelled
  deriving DecidableEq

structure QuestionRecord (τ : Type) where
  question_id : String
  envelope : AgentMessageEnvelope τ
  status : String := "pending"
  answer : String := ""
  future : Option AnswerFuture := none
  delivered : Bool := false

/-- `Mapping[str, object] | str`. -/
inductive MessagePayload where
  | text (text : String)
  | mapping (kvs : List (String × Json))

/-- `payload_dict`. -/
def MessagePayload.dict : MessagePayload → List (String × Json)
  | .text s => [("text", .str s)]
  | .mapping kvs => kvs

/-- The arguments of `send`. -/
structure SendArgs (τ : Type) where
  sender : String
  recipient : String
  kind : String
  payload : MessagePayload
  reply_to : String := ""
  correlation_id : String := ""
  requires_response : Bool := false
  ttl_s : Option τ := none

/-- The arguments of `open_question`. -/
structure QuestionArgs (τ : Type) where
  sender : String
  recipient : String
  question : String
  context : String := ""
  expected_answer : String := "text"
  timeout_s : τ

/-- `_question_projection`. -/
structure QuestionProjection (τ : Type) where
  question_id : String
  pool_id : String
  worker_id : String
  recipient : String
  status : String
  question : Json
  context : Json
  expected_answer : Json
  answer : String
  correlation_id : String
  expires_at : Option τ

/-- The events `_record` is called with. -/
inductive BrokerEvent (τ : Type) where
  | agent_message_sent (envelope : AgentMessageEnvelope τ)
  | agent_message_delivered (message_id recipient : String)
  | agent_message_acknowledged (message_id recipient : String)
  | agent_message_rejected (sender reason : String)
  | agent_pool_member (worker_id : String) (removed : Bool)
  | question_wait_started (question : QuestionProjection τ)
  | question_answered (question : QuestionProjection τ)
  | question_refused (question : QuestionProjection τ)
  | question_timed_out (question : QuestionProjection τ)
  | question_cancelled (question : QuestionProjection τ)

/-- A record of `agent_message_event`. -/
structure JournaledEvent (τ : Type) where
  pool_id : String
  event : BrokerEvent τ

structure BrokerConfig (τ : Type) where
  py : Interp
  conversation_id : String
  parent_run_id : String
  pool_id : String
  policy_revision : String := ""
  message_timeout_s : τ
  max_message_bytes : Nat := 16 * 1024
  max_mailbox_messages : Int := 256
  max_pending_questions : Int := 16

structure AgentMessageBroker (τ : Type) extends BrokerConfig τ where
  /-- A set. -/
  members : List String := ["main"]
  messages : Dict String (MessageRecord τ) := .empty
  /-- A mailbox that does not exist reads as empty. -/
  mailboxes : String → List String := fun _ => []
  questions : Dict String (QuestionRecord τ) := .empty
  sequence : String → Nat := fun _ => 0
  message_event : Bool := false
  pending_event : Bool := false
  closed : Bool := false
  parent_refusal : String := ""
  /-- The events in the journal the broker writes to. -/
  journal : List (JournaledEvent τ) := []
  /-- The clock readings that messages were compared with; no field of the
  source. -/
  readings : List τ := []

variable {τ : Type}

/-- The state of a message that stays in no mailbox. -/
def MessageState.isOver : MessageState → Bool
  | .delivered | .acknowledged | .expired | .rejected => true
  | .created | .queued => false

/-- An earlier send with the same sender, recipient, kind, correlation ID and
payload made this message. -/
def AgentMessageEnvelope.sameSend (py : Interp) (a : SendArgs τ) (e : AgentMessageEnvelope τ) : Bool :=
  e.sender = a.sender && e.recipient = a.recipient && e.correlation_id = a.correlation_id
    && e.kind = a.kind && pyEq py (.obj e.payload) (.obj a.payload.dict)

/-- What `acknowledge` makes of the record of a message. -/
def MessageRecord.acknowledge (r : MessageRecord τ) (members : List String) (recipient : String) :
    MessageRecord τ :=
  let acknowledged_by := r.acknowledged_by ++ [recipient]
  let recipients := if r.envelope.recipient = "pool" then members else [r.envelope.recipient]
  let acknowledged := recipients.all (· ∈ acknowledged_by)
  let state :=
    if r.state = .expired ∨ r.state = .rejected then r.state
    else if acknowledged then .acknowledged else .delivered
  { r with acknowledged_by, acknowledged, state }

/-- `AgentMessageBroker(…)`. -/
def BrokerConfig.broker (config : BrokerConfig τ) : AgentMessageBroker τ :=
  { toBrokerConfig := config }

namespace AgentMessageBroker

/-- `_record`. -/
def record (b : AgentMessageBroker τ) (event : BrokerEvent τ) : AgentMessageBroker τ :=
  { b with journal := b.journal ++ [⟨strTake 128 b.pool_id, event⟩] }

/-- `payload.get(key, default)` of a question. -/
def payloadField (envelope : AgentMessageEnvelope τ) (key dflt : String) : Json :=
  (Json.lookup key envelope.payload).getD (.str dflt)

def questionProjection (b : AgentMessageBroker τ) (q : QuestionRecord τ) : QuestionProjection τ where
  question_id := q.question_id
  pool_id := b.pool_id
  worker_id := q.envelope.sender
  recipient := q.envelope.recipient
  status := q.status
  question := payloadField q.envelope "question" ""
  context := payloadField q.envelope "context" ""
  expected_answer := payloadField q.envelope "expected_answer" "text"
  answer := q.answer
  correlation_id := q.envelope.correlation_id
  expires_at := q.envelope.expires_at

/-- `_validate_identifier`. -/
def validIdentifier (value : String) : Bool := value ≠ "" && value.length ≤ 256

def identifierError (fieldName : String) : String :=
  fieldName ++ " must be a non-empty bounded string"

/-- `_validate_sender`. -/
def validateSender (b : AgentMessageBroker τ) (sender : String) : Except String Unit :=
  if !validIdentifier sender then throw (identifierError "sender")
  else if sender ∉ b.members then throw "sender is not a member of this pool"
  else pure ()

/-- `_validate_recipient`. -/
def validateRecipient (b : AgentMessageBroker τ) (recipient : String) : Except String Unit :=
  if !validIdentifier recipient then throw (identifierError "recipient")
  else if recipient ≠ "pool" ∧ recipient ∉ b.members then
    throw "recipient is not a member of this pool"
  else pure ()

end AgentMessageBroker

/-! ## 2. Questions -/

section

variable [LinearOrder τ]

/-- `expires_at is not None and expires_at <= now`. -/
def AgentMessageEnvelope.expired (envelope : AgentMessageEnvelope τ) (now : τ) : Bool :=
  match envelope.expires_at with
  | none => false
  | some at_ => at_ ≤ now

/-- The record after `_finish_question_locked`. -/
def QuestionRecord.finish (q : QuestionRecord τ) (answer status : String) : QuestionRecord τ :=
  { q with
    answer
    status
    future :=
      match q.future with
      | some .waiting =>
          some (if status = "answered" then .result answer else .exception ("question is " ++ status))
      | future => future }

namespace AgentMessageBroker

/-- `pending_questions`. -/
def pendingQuestions (b : AgentMessageBroker τ) (now : τ) (recipient sender : Option String := none) :
    List (QuestionProjection τ) :=
  (b.questions.values.filter fun q =>
    q.status = "pending" && (recipient.isNone || recipient = some q.envelope.recipient)
      && (sender.isNone || sender = some q.envelope.sender)
      && !q.envelope.expired now).map b.questionProjection

/-- `_finish_question_locked`. -/
def finishQuestion (b : AgentMessageBroker τ) (q : QuestionRecord τ) (answer status : String)
    (now : τ) : AgentMessageBroker τ :=
  let b := { b with questions := b.questions.set q.question_id (q.finish answer status) }
  if (b.pendingQuestions now (some "main")).isEmpty then { b with pending_event := false } else b

/-- The loop over all questions: those that `ends` says are finished with
this status, and recorded by `event`. -/
def finishQuestions (ends : QuestionRecord τ → Bool) (status : String)
    (event : Option (QuestionProjection τ → BrokerEvent τ)) (clock : Nat → τ) :
    List (String × Nat) → AgentMessageBroker τ → AgentMessageBroker τ
  | [], b => b
  | (id, i) :: ids, b =>
      match b.questions.get? id with
      | none => finishQuestions ends status event clock ids b
      | some q =>
          if ends q then
            let b := b.finishQuestion q "" status (clock i)
            let b :=
              match event with
              | none => b
              | some event => b.record (event (b.questionProjection (q.finish "" status)))
            finishQuestions ends status event clock ids b
          else finishQuestions ends status event clock ids b

/-- The keys of the questions, numbered. -/
def questionIds (b : AgentMessageBroker τ) : List (String × Nat) :=
  (b.questions.items.map Prod.fst).zipIdx

/-- `answer_question`. -/
def answerQuestion (b : AgentMessageBroker τ) (answerer questionId answer : String) (now : τ) :
    AgentMessageBroker τ × Except String (QuestionProjection τ) :=
  if answer.toList.all isSpace then (b, throw "answer must not be empty")
  else
    match b.questions.get? questionId with
    | none => (b, throw "unknown question_id")
    | some q =>
        let expected := q.envelope.recipient
        if q.status ≠ "pending" then (b, pure (b.questionProjection q))
        else if answerer ≠ expected ∧ ¬ (expected = "pool" ∧ answerer ∈ b.members) then
          (b, throw "answerer is not the question recipient")
        else
          let text := strTake b.max_message_bytes answer
          let b := b.finishQuestion q text "answered" now
          let projection := b.questionProjection (q.finish text "answered")
          (b.record (.question_answered projection), pure projection)

/-- `refuse_parent_questions`. -/
def refuseParentQuestions (b : AgentMessageBroker τ) (status : String) (clock : Nat → τ) :
    AgentMessageBroker τ :=
  let refusal := strTake 64 status
  finishQuestions (fun q => q.status = "pending" && q.envelope.recipient = "main") refusal
    (some .question_refused) clock b.questionIds { b with parent_refusal := refusal }

/-- `wait_for_answer` up to its await; the answer, if it is there. -/
def beginWait (b : AgentMessageBroker τ) (questionId : String) :
    AgentMessageBroker τ × Except String (Option String) :=
  match b.questions.get? questionId with
  | none => (b, throw "unknown question_id")
  | some q =>
      if q.status = "answered" then
        ({ b with questions := b.questions.set questionId { q with delivered := true } },
          pure (some q.answer))
      else if q.status ≠ "pending" then (b, throw ("question is " ++ q.status))
      else
        match q.future with
        | some _ => (b, pure none)
        | none =>
            ({ b with questions := b.questions.set questionId { q with future := some .waiting } },
              pure none)

/-- `wait_for_answer` when its future has the answer. -/
def endWait (b : AgentMessageBroker τ) (questionId : String) : AgentMessageBroker τ :=
  match b.questions.get? questionId with
  | none => b
  | some q => { b with questions := b.questions.set questionId { q with delivered := true } }

/-- The timeout of `asyncio.wait_for` cancels the future it waits on. -/
def cancelFuture (b : AgentMessageBroker τ) (questionId : String) : AgentMessageBroker τ :=
  match b.questions.get? questionId with
  | none => b
  | some q =>
      if q.future = some .waiting then
        { b with questions := b.questions.set questionId { q with future := some .cancelled } }
      else b

/-- `wait_for_answer` after a `TimeoutError`. -/
def expireQuestion (b : AgentMessageBroker τ) (questionId : String) (now : τ) :
    AgentMessageBroker τ :=
  match b.questions.get? questionId with
  | none => b
  | some q =>
      if q.status = "pending" then
        let b := b.finishQuestion q "" "expired" now
        b.record (.question_timed_out (b.questionProjection (q.finish "" "expired")))
      else b

/-- `close`. -/
def close (b : AgentMessageBroker τ) (clock : Nat → τ) : AgentMessageBroker τ :=
  let b := finishQuestions (fun q => q.status = "pending") "cancelled" (some .question_cancelled)
    clock b.questionIds { b with closed := true }
  { b with pending_event := true, message_event := true }

/-! ## 3. Members -/

/-- `register_worker`. -/
def registerWorker (b : AgentMessageBroker τ) (workerId : String) :
    AgentMessageBroker τ × Except String Unit :=
  if !validIdentifier workerId then (b, throw (identifierError "worker_id"))
  else if workerId = "main" ∨ workerId = "pool" then (b, throw "worker_id is reserved")
  else if b.closed then (b, throw "pool communication is closed")
  else
    let members := if workerId ∈ b.members then b.members else b.members ++ [workerId]
    let b := { b with members }.record (.agent_pool_member workerId false)
    let moved := b.messages.items.filter fun p =>
      (p.2.envelope.recipient = workerId || p.2.envelope.recipient = "pool")
        && p.2.state = .queued && p.1 ∉ b.mailboxes workerId
    let mailboxes := fun m =>
      if m = workerId then b.mailboxes m ++ moved.map Prod.fst else b.mailboxes m
    ({ b with mailboxes }, pure ())

/-- `unregister_worker`. -/
def unregisterWorker (b : AgentMessageBroker τ) (workerId reason : String) (clock : Nat → τ) :
    AgentMessageBroker τ :=
  let b := { b with members := b.members.filter (· ≠ workerId) }
  let b := finishQuestions (fun q => q.envelope.sender = workerId && q.status = "pending")
    "orphaned" none clock b.questionIds b
  (b.record (.agent_message_rejected workerId reason)).record (.agent_pool_member workerId true)

/-! ## 4. Messages -/

/-- The mailboxes a message goes to. -/
def targets (b : AgentMessageBroker τ) (sender recipient : String) : List String :=
  if recipient = "pool" then b.members.filter (· ≠ sender) else [recipient]

/-- The checks of `_send_locked` on its arguments and the mailboxes. -/
def checkSend (b : AgentMessageBroker τ) (a : SendArgs τ) : Except String Unit := do
  b.validateSender a.sender
  b.validateRecipient a.recipient
  if a.kind ∉ MESSAGE_KINDS then throw ("unknown message kind: " ++ b.py.strRepr a.kind)
  else if b.max_message_bytes < (String.ofList (rawDumps (.obj a.payload.dict))).utf8ByteSize then
    throw "message payload exceeds the configured byte limit"
  else if a.recipient = "pool" ∧ b.targets a.sender a.recipient = [] then
    throw "pool has no recipient workers"
  else if ∃ target ∈ b.targets a.sender a.recipient,
      b.max_mailbox_messages ≤ (b.mailboxes target).length then
    throw "recipient mailbox is full"
  else pure ()

variable [Add τ]

/-- The envelope of a new message. -/
def envelope (b : AgentMessageBroker τ) (a : SendArgs τ) (message_id : String) (now : τ) :
    AgentMessageEnvelope τ where
  message_id
  conversation_id := b.conversation_id
  parent_run_id := b.parent_run_id
  pool_id := b.pool_id
  sender := a.sender
  recipient := a.recipient
  kind := a.kind
  payload := a.payload.dict
  reply_to := a.reply_to
  correlation_id := if a.correlation_id = "" then message_id else a.correlation_id
  sequence := b.sequence a.sender + 1
  created_at := now
  expires_at := some (now + a.ttl_s.getD b.message_timeout_s)
  requires_response := a.requires_response
  policy_revision := b.policy_revision

/-- `_send_locked` from the new sequence number on; `message_id` is
`uuid.uuid4().hex`. -/
def enqueue (b : AgentMessageBroker τ) (a : SendArgs τ) (message_id : String) (now : τ) :
    AgentMessageBroker τ :=
  let e := b.envelope a message_id now
  AgentMessageBroker.record
    { b with
      sequence := fun s => if s = a.sender then b.sequence s + 1 else b.sequence s
      messages := b.messages.set message_id { envelope := e, state := .queued }
      mailboxes := fun m =>
        if m ∈ b.targets a.sender a.recipient then b.mailboxes m ++ [message_id]
        else b.mailboxes m
      message_event := true }
    (.agent_message_sent e)

/-- `_send_locked`. -/
def sendLocked (b : AgentMessageBroker τ) (a : SendArgs τ) (message_id : String) (now : τ) :
    AgentMessageBroker τ × Except String (AgentMessageEnvelope τ) :=
  match b.checkSend a with
  | .error message => (b, .error message)
  | .ok () =>
      let earlier :=
        if a.correlation_id = "" then none
        else (b.messages.values.map (·.envelope)).find? (·.sameSend b.py a)
      match earlier with
      | some e => (b, .ok e)
      | none => (b.enqueue a message_id now, .ok (b.envelope a message_id now))

def setRecord (b : AgentMessageBroker τ) (id : String) (r : MessageRecord τ) :
    AgentMessageBroker τ :=
  { b with messages := b.messages.set id r }

/-- `self._clock()`. -/
def readClock (b : AgentMessageBroker τ) (now : τ) : AgentMessageBroker τ :=
  { b with readings := b.readings ++ [now] }

/-- The loop of `poll` over the IDs of one mailbox, with room for `room` more
messages: what it hands out and the IDs it leaves. -/
def drain (recipient : String) (clock : Nat → τ) : Nat → List String → AgentMessageBroker τ →
    AgentMessageBroker τ × List (AgentMessageEnvelope τ) × List String
  | _, [], b => (b, [], [])
  | 0, ids, b => (b, [], ids)
  | room + 1, id :: ids, b =>
      match b.messages.get? id with
      | none => drain recipient clock (room + 1) ids b
      | some r =>
          if recipient ∈ r.acknowledged_by then drain recipient clock (room + 1) ids b
          else
            let now := clock b.readings.length
            let b := b.readClock now
            if r.envelope.expired now then
              drain recipient clock (room + 1) ids (b.setRecord id { r with state := .expired })
            else
              let b := b.setRecord id { r with state := .delivered }
              let b := b.record (.agent_message_delivered id recipient)
              let (b, handed, rest) := drain recipient clock room ids b
              (b, r.envelope :: handed, rest)

/-- `poll`. -/
def poll (b : AgentMessageBroker τ) (recipient : String) (limit : Int) (clock : Nat → τ) :
    AgentMessageBroker τ × Except String (List (AgentMessageEnvelope τ)) :=
  if limit < 1 then (b, throw "limit must be positive")
  else
    match b.validateRecipient recipient with
    | .error message => (b, .error message)
    | .ok () =>
        let room := min limit.toNat 64
        let (b, direct, rest) := drain recipient clock room (b.mailboxes recipient) b
        let b := { b with mailboxes := fun m => if m = recipient then rest else b.mailboxes m }
        let (b, handed) :=
          if recipient = "pool" then (b, direct)
          else
            -- broadcasts come once the mailbox of the recipient is empty
            let (b, broadcast, left) :=
              drain recipient clock (room - direct.length) (b.mailboxes "pool") b
            ({ b with mailboxes := fun m => if m = "pool" then left else b.mailboxes m },
              direct ++ broadcast)
        ({ b with message_event := b.message_event && !rest.isEmpty }, .ok handed)

/-- `acknowledge`. -/
def acknowledge (b : AgentMessageBroker τ) (recipient messageId : String) :
    AgentMessageBroker τ × Except String MessageState :=
  match b.messages.get? messageId with
  | none => (b, throw "unknown message_id")
  | some r =>
      if r.envelope.recipient ≠ recipient ∧ r.envelope.recipient ≠ "pool" then
        (b, throw "recipient does not own this message")
      else
        let r := r.acknowledge b.members recipient
        let b := b.setRecord messageId r
        (b.record (.agent_message_acknowledged messageId recipient), pure r.state)

/-! ## 5. Opening a question -/

/-- The message of a question. -/
def questionSend (b : AgentMessageBroker τ) (a : QuestionArgs τ) : SendArgs τ where
  sender := a.sender
  recipient := a.recipient
  kind := "clarification_request"
  payload := .mapping [("question", .str (strTake (b.max_message_bytes / 2) a.question)),
    ("context", .str (strTake (b.max_message_bytes / 2) a.context)),
    ("expected_answer", .str (strTake 128 a.expected_answer))]
  requires_response := true
  ttl_s := some a.timeout_s

/-- The record of a question. -/
def questionRecord (e : AgentMessageEnvelope τ) : QuestionRecord τ :=
  { question_id := e.message_id, envelope := e, future := some .waiting }

/-- `open_question` once its message is sent. -/
def startQuestion (b : AgentMessageBroker τ) (e : AgentMessageEnvelope τ) : AgentMessageBroker τ :=
  let q := questionRecord e
  let b := { b with questions := b.questions.set e.message_id q, pending_event := true }
  b.record (.question_wait_started (b.questionProjection q))

/-- `open_question`. -/
def openQuestion [Zero τ] (b : AgentMessageBroker τ) (a : QuestionArgs τ) (message_id : String)
    (now : τ) : AgentMessageBroker τ × Except String (QuestionProjection τ) :=
  if a.question.toList.all isSpace then (b, throw "question must not be empty")
  else if a.timeout_s ≤ 0 then (b, throw "question timeout must be positive")
  else if a.recipient = "main" ∧ b.parent_refusal ≠ "" then
    (b, throw ("question is " ++ b.parent_refusal ++ ": the parent cannot answer while this pool "
      ++ "runs in the background; continue with your best judgement and say what you assumed"))
  else if b.max_pending_questions ≤ (b.questions.values.filter (·.status = "pending")).length then
    (b, throw "communication question quota exceeded")
  else
    match b.sendLocked (b.questionSend a) message_id now with
    | (b, .error message) => (b, .error message)
    | (b, .ok e) => (b.startQuestion e, pure (b.questionProjection (questionRecord e)))

/-! ## 6. Rehydration -/

/-- `_rehydrate_events` for a terminal event of a question. -/
def rehydrateFinish (b : AgentMessageBroker τ) (question : QuestionProjection τ) (status : String) :
    AgentMessageBroker τ :=
  match b.questions.get? question.question_id with
  | none => b
  | some q =>
      if q.status = "pending" then
        let q := { q with status, answer := question.answer }
        { b with questions := b.questions.set question.question_id q }
      else b

/-- `_rehydrate_events` for one event. -/
def rehydrateEvent (b : AgentMessageBroker τ) (raw : JournaledEvent τ) : AgentMessageBroker τ :=
  if raw.pool_id ≠ b.pool_id then b
  else
    match raw.event with
    | .agent_message_sent e =>
        if e.conversation_id ≠ b.conversation_id ∨ e.parent_run_id ≠ b.parent_run_id
            ∨ e.pool_id ≠ b.pool_id ∨ (e.sender ∉ b.members ∧ e.sender ≠ "main")
            ∨ (e.recipient ≠ "pool" ∧ e.recipient ∉ b.members) then b
        else if (b.messages.get? e.message_id).isSome then b
        else
          let targets := b.targets e.sender e.recipient
          let targets := if e.recipient = "pool" ∧ targets = [] then ["pool"] else targets
          { b with
            messages := b.messages.set e.message_id { envelope := e, state := .queued }
            mailboxes := fun m =>
              if m ∈ targets then b.mailboxes m ++ [e.message_id] else b.mailboxes m
            sequence := fun s =>
              if s = e.sender then max (b.sequence s) e.sequence else b.sequence s }
    | .agent_pool_member workerId removed =>
        if workerId = "" then b
        else if removed then { b with members := b.members.filter (· ≠ workerId) }
        else { b with members := if workerId ∈ b.members then b.members else b.members ++ [workerId] }
    | .question_wait_started question =>
        match b.messages.get? question.question_id with
        | none => b
        | some r =>
            if (b.questions.get? question.question_id).isSome then b
            else
              let q : QuestionRecord τ :=
                { question_id := question.question_id, envelope := r.envelope }
              { b with questions := b.questions.set question.question_id q }
    | .question_answered question => b.rehydrateFinish question "answered"
    | .question_timed_out question => b.rehydrateFinish question "expired"
    | .question_cancelled question => b.rehydrateFinish question "cancelled"
    | .agent_message_delivered messageId _ =>
        match b.messages.get? messageId with
        | none => b
        | some r => b.setRecord messageId { r with state := .delivered }
    | .agent_message_acknowledged messageId recipient =>
        match b.messages.get? messageId with
        | none => b
        | some r =>
            let acknowledged_by :=
              r.acknowledged_by ++ (if recipient = "" then b.members else [recipient])
            let recipients :=
              if r.envelope.recipient = "pool" then b.members else [r.envelope.recipient]
            let acknowledged := recipients.all (· ∈ acknowledged_by)
            let state := if acknowledged then .acknowledged else .delivered
            b.setRecord messageId { r with acknowledged_by, acknowledged, state }
    -- the replay knows no other kind
    | .agent_message_rejected _ _ | .question_refused _ => b

/-- `_rehydrate_events`. -/
def rehydrateEvents (b : AgentMessageBroker τ) (events : List (JournaledEvent τ)) (now : τ) :
    AgentMessageBroker τ :=
  let b := events.foldl rehydrateEvent b
  let ended := b.messages.values.filter (·.state.isOver)
  let b := { b with
    mailboxes := fun m => ended.foldl (fun box r => box.erase r.envelope.message_id) (b.mailboxes m) }
  if (b.pendingQuestions now (some "main")).isEmpty then b else { b with pending_event := true }

/-- A pending question that nobody could answer or wait for. -/
def isOrphan (members : List String) (q : QuestionRecord τ) : Bool :=
  q.status = "pending" && (q.envelope.sender ∉ members
    || (q.envelope.recipient ≠ "main" && q.envelope.recipient ∉ members))

/-- `rehydrate`; the limits of the configuration are the defaults of the
constructor. -/
def rehydrate (config : BrokerConfig τ) (events : List (JournaledEvent τ))
    (active_workers : List String) (now : τ) : AgentMessageBroker τ :=
  let b := config.broker.rehydrateEvents events now
  let members := b.members.filter (· ∈ "main" :: active_workers)
  { b with
    members
    questions := b.questions.mapValues fun q =>
      if isOrphan members q then { q with status := "orphaned" } else q }

/-! ## 7. Waiting for the parent's questions -/

/-- How one round of the loop of `wait_for_pending` ends. -/
inductive PendingWait (τ : Type) where
  | returned (pending : List (QuestionProjection τ))
  | raised (message : String)
  | suspended
  /-- The event is set, so awaiting it does not suspend: the next round runs
  at once. -/
  | spins

/-- One round of `wait_for_pending`. -/
def waitForPending (b : AgentMessageBroker τ) (now : τ) : PendingWait τ :=
  let pending := b.pendingQuestions now (some "main")
  if !pending.isEmpty then .returned pending
  else if b.closed then .raised "pool communication is closed"
  else if b.pending_event then .spins
  else .suspended

end AgentMessageBroker

end

end Agenthicc.Subagents
