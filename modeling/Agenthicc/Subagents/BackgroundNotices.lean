/-
Agenthicc.Subagents.BackgroundNotices — telling the parent that a background
pool has finished.

A delivery is three calls for each pool: on the memory, on the conversation
and on the journal. `deliver` can be cut off between any two of them by the
end of the process. `SessionStep` puts it among what else is done with the
journal of a session: the records of pools, the memory and restarts.
-/
import Agenthicc.Memory.Journaled
import Agenthicc.Memory.PoolLifecycle

namespace Agenthicc.Subagents

open Python Memory

/-! ## 1. The notice -/

/-- The stop reasons that a notice quotes. -/
def KNOWN_STOP_REASONS : List String :=
  ["max_tokens_exceeded", "max_total_time_s_exceeded", "max_cost_usd_exceeded", "max_tool_calls_exceeded",
    "max_iterations_exceeded"]

/-- `_count`. -/
def count (record : Lifecycle) (key : String) : Int :=
  match (record.get? key).getD (.int 0) with
  | .int n => max 0 n
  | _ => 0

/-- `_status_text`. -/
def statusText (status reason : String) : String :=
  if status = "completed" then "completed"
  else if status = "stopped" then
    "was stopped by the pool budget" ++ if reason ∈ KNOWN_STOP_REASONS then ": " ++ reason else ""
  else if status = "interrupted" then "was interrupted when the session stopped"
  else if status = "cancelled" then "was cancelled when the session closed"
  else "finished"

/-- The fields of a record that a notice is made from; its `text` is not one
of them. -/
def backgroundPoolNotice (py : Interp) (record : Lifecycle) : String :=
  let poolId := strTake 128 (pyStr py ((record.get? "pool_id").getD (.str "")))
  let status := pyStr py ((record.get? "status").getD (.str "interrupted"))
  let reason := match (record.get? "reason").getD (.str "") with
    | .str reason => reason
    | _ => ""
  "Background subagent pool " ++ poolId ++ " " ++ statusText status reason ++ " (" ++
    toString (count record "succeeded") ++ "/" ++ toString (count record "total") ++ " succeeded, " ++
    toString (count record "failed") ++ " failed). Its results are not included here: " ++
    "call collect_subagent_results(pool_id=\"" ++ poolId ++ "\") to read them."

/-! ## 2. Delivery -/

/-- What a session holds of its conversation, and what is observed of it: the
pools of the notices appended to memory, and the pools that were ever seen to
have ended or to be in the background. -/
structure Session where
  memory : JournaledShortTermMemory
  /-- The IDs of the events, where there is a conversation. -/
  conversation : Option (List String) := none
  noticed : List String := []
  ended : List String := []
  background : List String := []

def completionId (poolId : String) : String := "subagent-completion:" ++ poolId

inductive DeliveryCall where
  | addUserOnce (poolId message : String)
  | appendEvent (poolId : String)
  | notificationDelivered (poolId : String)

/-- The calls for one record. -/
def deliveryCalls (py : Interp) (record : Lifecycle) : List DeliveryCall :=
  match record.field "pool_id" with
  | .str poolId =>
      if poolId = "" then []
      else [.addUserOnce poolId (backgroundPoolNotice py record), .appendEvent poolId, .notificationDelivered poolId]
  | _ => []

namespace Session

variable (base : ShortTermMemory) (py : Interp) (clock : Nat → PyFloat)

def journal (s : Session) : ConversationJournal := s.memory.journal

def withJournal (s : Session) (j : ConversationJournal) : Session :=
  { s with memory := { s.memory with journal := j } }

/-- `append_event`: an ID that is known adds nothing. -/
def appendEvent (s : Session) (eventId : String) : Session :=
  { s with conversation := s.conversation.map fun events =>
    if eventId ∈ events then events else events ++ [eventId] }

def call (s : Session) : DeliveryCall → Session × Except PyError Unit
  | .addUserOnce poolId message =>
      match JournaledShortTermMemory.addUserOnce base s.memory (.str message) (completionId poolId) fun _ => false with
      | (memory, result) =>
          ({ s with
              memory := memory
              noticed := if memory.messages = s.memory.messages then s.noticed else s.noticed ++ [poolId] }, result)
  | .appendEvent poolId => (s.appendEvent (completionId poolId), .ok ())
  | .notificationDelivered poolId =>
      match s.journal.subagentPoolNotificationDelivered clock poolId (completionId poolId) with
      | (j, result) => (s.withJournal j, result)

/-- The calls up to the first that raises. -/
def perform (s : Session) : List DeliveryCall → Session × Except PyError Unit
  | [] => (s, .ok ())
  | c :: cs =>
      match s.call base clock c with
      | (s, .error exc) => (s, .error exc)
      | (s, .ok ()) => s.perform cs

def deliveries (s : Session) : List DeliveryCall :=
  s.journal.completedBackgroundSubagentPools.flatMap (deliveryCalls py)

/-- `deliver_background_pool_notices`. -/
def deliver (s : Session) : Session × Except PyError Unit := s.perform base clock (s.deliveries py)

/-! ## 3. The session -/

/-- The file is opened again by another process. -/
def restarted (s : Session) : Session :=
  let journal := ConversationJournal.opened s.journal.file
  match journal.fold with
  | .ok (messages, summary) => { s with memory := { journal, messages, summary } }
  | .error _ => { s with memory := { journal, messages := [], summary := .null } }

/-- A record of another kind than those of messages and deliveries. -/
def apartFromNotices (kind : String) : Bool := kind ∉ ["append", "subagent_pool_notification_delivered"]

def poolOpApart : ConversationJournal.PoolOp → Bool
  | .record e _ => apartFromNotices e.kind
  | .restart => false
  | _ => true

/-- The other callers of `add_user_once` announce questions. -/
def memoryOpApart : JournaledShortTermMemory.Op → Bool
  | .addUserOnce _ messageId _ => "subagent-question:".toList.isPrefixOf messageId.toList
  | _ => true

inductive SessionStep where
  | pool (op : ConversationJournal.PoolOp) (apart : poolOpApart op = true)
  | memory (op : JournaledShortTermMemory.Op) (apart : memoryOpApart op = true)
  /-- A turn boundary; the process may end behind some of the calls. -/
  | deliver (crash : Option Nat)
  | restart

/-- The pools that the fold reports as ended. -/
def endedPools (j : ConversationJournal) : List String :=
  j.pools.items.filterMap fun p =>
    if ["completed", "stopped", "interrupted", "cancelled"].any fun status => p.2.field "status" = .str status
    then some p.1 else none

def backgroundPools (j : ConversationJournal) : List String :=
  j.pools.items.filterMap fun p => if p.2.field "backgrounded" = .bool true then some p.1 else none

/-- What can be seen in the journal is noted. -/
def observed (s : Session) : Session :=
  { s with
    ended := s.ended ++ endedPools s.journal
    background := s.background ++ backgroundPools s.journal }

def act (s : Session) : SessionStep → Session
  | .pool op _ => s.withJournal (ConversationJournal.poolStep py clock s.journal op)
  | .memory op _ => { s with memory := JournaledShortTermMemory.step base s.memory op }
  | .deliver none => (s.deliver base py clock).1
  | .deliver (some n) => (s.perform base clock ((s.deliveries py).take n)).1.restarted
  | .restart => s.restarted

def step (s : Session) (a : SessionStep) : Session := (s.act base py clock a).observed

/-- A new session; the conversation is the one of the interface, if any. -/
def created (conversation : Option (List String)) : Session :=
  { memory := { journal := ConversationJournal.opened [], messages := [], summary := .null }
    conversation := conversation }

end Session

end Agenthicc.Subagents
