/-
Agenthicc.Subagents.BrokerRuns — runs of a broker, and what its members got.

`Traffic` is the history of a run, kept beside the broker and read off what
each operation was given and returned: which messages were addressed to a
member when they were sent, which of them its polls handed out, which ones it
acknowledged, and which send made or found which message. No operation looks
at it.

`Delivery` is what every operation keeps, whatever the order, as long as
`uuid4` gives an ID it has not given before. Each mailbox is described by a
cut of the messages in the order they were sent: what the member got and what
still waits for it is taken, in order, from before the cut, and no queued
message for it that comes before the cut is missing from its mailbox.
-/
import Agenthicc.Library.Runs
import Agenthicc.Subagents.Communication

namespace Agenthicc.Subagents

open Python

/-! ## 1. Operations and history -/

/-- The operations of a broker, with the readings of the clock they make. -/
inductive BrokerOp (τ : Type) where
  | register_worker (workerId : String)
  | unregister_worker (workerId reason : String) (clock : Nat → τ)
  | send (a : SendArgs τ) (message_id : String) (now : τ)
  | open_question (a : QuestionArgs τ) (message_id : String) (now : τ)
  | answer_question (answerer questionId answer : String) (now : τ)
  | refuse_parent_questions (status : String) (clock : Nat → τ)
  | begin_wait (questionId : String)
  | end_wait (questionId : String)
  | cancel_future (questionId : String)
  | expire_question (questionId : String) (now : τ)
  | poll (recipient : String) (limit : Int) (clock : Nat → τ)
  | acknowledge (recipient messageId : String)
  | close (clock : Nat → τ)

structure Traffic (τ : Type) where
  /-- The messages sent to a member: direct ones, and the broadcasts of others
  while it was a member. -/
  addressed : String → List String := fun _ => []
  /-- What the polls of a member handed out, in order. -/
  received : String → List (AgentMessageEnvelope τ) := fun _ => []
  acknowledged : String → List String := fun _ => []
  /-- The sends that returned, with what they returned. -/
  sends : List (SendArgs τ × AgentMessageEnvelope τ) := []

variable {τ : Type} [LinearOrder τ] [Add τ] [Zero τ]

namespace AgentMessageBroker

def step (b : AgentMessageBroker τ) : BrokerOp τ → AgentMessageBroker τ
  | .register_worker workerId => (b.registerWorker workerId).1
  | .unregister_worker workerId reason clock => b.unregisterWorker workerId reason clock
  | .send a message_id now => (b.sendLocked a message_id now).1
  | .open_question a message_id now => (b.openQuestion a message_id now).1
  | .answer_question answerer questionId answer now =>
      (b.answerQuestion answerer questionId answer now).1
  | .refuse_parent_questions status clock => b.refuseParentQuestions status clock
  | .begin_wait questionId => (b.beginWait questionId).1
  | .end_wait questionId => b.endWait questionId
  | .cancel_future questionId => b.cancelFuture questionId
  | .expire_question questionId now => b.expireQuestion questionId now
  | .poll recipient limit clock => (b.poll recipient limit clock).1
  | .acknowledge recipient messageId => (b.acknowledge recipient messageId).1
  | .close clock => b.close clock

end AgentMessageBroker

namespace Traffic

/-- A message that the step from `b` to `b'` has made. -/
def addressing (h : Traffic τ) (b b' : AgentMessageBroker τ) (message_id : String) : Traffic τ :=
  match b.messages.get? message_id, b'.messages.get? message_id with
  | none, some r =>
      { h with addressed := fun m =>
          if m ∈ b.targets r.envelope.sender r.envelope.recipient then
            h.addressed m ++ [message_id]
          else h.addressed m }
  | _, _ => h

/-- A poll of `m` has handed out these messages. -/
def handing (h : Traffic τ) (m : String) (handed : List (AgentMessageEnvelope τ)) : Traffic τ :=
  { h with received := fun m' => if m' = m then h.received m' ++ handed else h.received m' }

/-- The member `m` has acknowledged a message. -/
def acknowledging (h : Traffic τ) (m message_id : String) : Traffic τ :=
  { h with acknowledged := fun m' =>
      if m' = m then h.acknowledged m' ++ [message_id] else h.acknowledged m' }

/-- The history after an operation on `b`. -/
def after (h : Traffic τ) (b : AgentMessageBroker τ) (op : BrokerOp τ) : Traffic τ :=
  match op with
  | .send a message_id now =>
      match b.sendLocked a message_id now with
      | (b', .ok e) => { h.addressing b b' message_id with sends := h.sends ++ [(a, e)] }
      | (_, .error _) => h
  | .open_question a message_id now =>
      h.addressing b (b.openQuestion a message_id now).1 message_id
  | .poll recipient limit clock =>
      match (b.poll recipient limit clock).2 with
      | .ok handed => h.handing recipient handed
      | .error _ => h
  | .acknowledge recipient messageId =>
      match (b.acknowledge recipient messageId).2 with
      | .ok _ => h.acknowledging recipient messageId
      | .error _ => h
  | _ => h

omit [LinearOrder τ] [Add τ] [Zero τ] in
theorem addressing_self (h : Traffic τ) {b : AgentMessageBroker τ} {message_id : String}
    (hnone : b.messages.get? message_id = none) : h.addressing b b message_id = h := by
  unfold addressing
  rw [hnone]

omit [LinearOrder τ] [Add τ] [Zero τ] in
@[simp] theorem sends_addressing (h : Traffic τ) (b b' : AgentMessageBroker τ)
    (message_id : String) : (h.addressing b b' message_id).sends = h.sends := by
  unfold addressing
  split <;> rfl

omit [LinearOrder τ] [Add τ] [Zero τ] in
@[simp] theorem received_addressing (h : Traffic τ) (b b' : AgentMessageBroker τ)
    (message_id : String) : (h.addressing b b' message_id).received = h.received := by
  unfold addressing
  split <;> rfl

omit [LinearOrder τ] [Add τ] [Zero τ] in
@[simp] theorem received_handing_self (h : Traffic τ) (m : String)
    (handed : List (AgentMessageEnvelope τ)) :
    (h.handing m handed).received m = h.received m ++ handed := if_pos rfl

omit [LinearOrder τ] [Add τ] [Zero τ] in
theorem received_handing_ne (h : Traffic τ) {m m' : String} (hm : m' ≠ m)
    (handed : List (AgentMessageEnvelope τ)) :
    (h.handing m handed).received m' = h.received m' := if_neg hm

end Traffic

/-- A broker and its history. -/
structure BrokerRun (τ : Type) where
  broker : AgentMessageBroker τ
  traffic : Traffic τ := {}

namespace BrokerRun

def step (s : BrokerRun τ) (op : BrokerOp τ) : BrokerRun τ where
  broker := s.broker.step op
  traffic := s.traffic.after s.broker op

/-- `uuid4` gives an ID that no message has. -/
def FreshId (s : BrokerRun τ) : BrokerOp τ → Prop
  | .send _ message_id _ | .open_question _ message_id _ =>
      s.broker.messages.get? message_id = none
  | _ => True

end BrokerRun

end Agenthicc.Subagents
