/-
Agenthicc.SessionService.Subscriptions — what clients read of the events of a
session.

`subscribe` replays the durable events in one lock section and registers in
another; what it queues in between is its own. A `Channel` is one session with
its subscribers: the lock sections and what the subscribers take are its
steps. Left out: `close` and the `delete` command, which end a stream.
-/
import Agenthicc.SessionService.Service

namespace Agenthicc.SessionService

open Python

variable (site : Site)

/-! ## 1. Replay -/

/-- `_project_event`. -/
def projectEvent (capabilities : List String) (event : SessionEvent) : Except Raised SessionEvent := do
  requireCapability site capabilities "read"
  if event.visibility = "private" ∧ "private" ∉ capabilities ∧ "admin" ∉ capabilities then
    throw (.error { code := "forbidden", message := "event is private", status := 403 })
  pure { event with payload := projectPayload event.payload capabilities }

def replayGap (earliest_sequence : Int) : Raised :=
  .error {
    code := "replay_gap"
    message := "events before sequence " ++ toString earliest_sequence ++ " are compacted"
    status := 409 }

/-- The durable events after a sequence number. -/
def durableAfter (after_sequence : Int) (events : List SessionEvent) : List SessionEvent :=
  events.filter fun e => decide (e.sequence > after_sequence) && decide (e.durability = .durable)

/-- `events` on the runtime of the session. -/
def Runtime.eventsAfter (r : Runtime) (session_id : String) (after_sequence : Int)
    (capabilities : List String) : Except Raised (List SessionEvent) := do
  requireCapability site capabilities "read"
  if r.deleted then throw (notFound session_id)
  if r.events ≠ [] ∧ after_sequence < r.earliest_sequence - 1 then
    throw (replayGap r.earliest_sequence)
  (durableAfter after_sequence r.events).mapM (projectEvent site capabilities)

/-! ## 2. Subscriptions -/

/-- An item of a queue. -/
inductive Item where
  | event (e : SessionEvent)
  | error (e : SessionError)

def backpressure : SessionError where
  code := "backpressure"
  message := "subscription queue overflow"
  status := 409

/-- A `SessionSubscription`, with the arguments it was made from, how many
events the session had at the replay, and what the subscriber has taken. -/
structure Subscription where
  after_sequence : Int
  capabilities : List String
  maxsize : Int
  replayed : Nat
  queue : List Item
  taken : List Item := []
  closed : Bool := false

/-- `put_nowait`; `none` is `QueueFull`. -/
def putNowait (maxsize : Int) (queue : List Item) (item : Item) : Option (List Item) :=
  if 0 < maxsize ∧ maxsize ≤ queue.length then none else some (queue ++ [item])

/-- `max_queue or self.max_subscription_queue`. -/
def queueSize (max_subscription_queue : Int) : Option Int → Int
  | none => max_subscription_queue
  | some n => if n = 0 then max_subscription_queue else n

/-- `subscribe` up to its second lock section. -/
def Runtime.replaySubscription (r : Runtime) (session_id : String) (after_sequence : Int)
    (capabilities : List String) (maxsize : Int) : Except Raised Subscription := do
  let replay ← r.eventsAfter site session_id after_sequence capabilities
  match (replay.map Item.event).foldlM (putNowait maxsize) [] with
  | none => throw (.error {
      code := "replay_overflow"
      message := "subscription replay exceeds queue capacity"
      status := 409 })
  | some queue => pure {
      after_sequence := after_sequence
      capabilities := capabilities
      maxsize := maxsize
      replayed := r.events.length
      queue := queue }

/-- `_notify` for one subscription. -/
def Subscription.notify (s : Subscription) (event : SessionEvent) : Subscription :=
  if s.closed then s
  else
    match projectEvent site s.capabilities event with
    | .ok projected =>
        match putNowait s.maxsize s.queue (.event projected) with
        | some queue => { s with queue := queue }
        | none => { s with queue := [.error backpressure], closed := true }
    | .error _ => { s with queue := [.error backpressure], closed := true }

/-- `__anext__`, where an item waits. -/
def Subscription.next (s : Subscription) : Subscription :=
  match s.queue with
  | [] => s
  | .event e :: queue => { s with queue := queue, taken := s.taken ++ [.event e] }
  | .error e :: queue => { s with queue := queue, taken := s.taken ++ [.error e], closed := true }

/-- A live session: its events are in order, below its sequence number. -/
structure LiveSession where
  runtime : Runtime
  increasing : runtime.events.Pairwise (·.sequence < ·.sequence)
  below : ∀ e ∈ runtime.events, e.sequence ≤ runtime.snapshot.last_event_sequence

def LiveSession.appended (s : LiveSession) (p : Publication) (draw : Nat) : LiveSession where
  runtime := s.runtime.appended (p.event site s.runtime draw)
  increasing := by
    refine List.pairwise_append.mpr ⟨s.increasing, List.pairwise_singleton _ _, ?_⟩
    intro a ha b hb
    rw [List.mem_singleton.mp hb]
    exact Int.lt_add_one_of_le (s.below a ha)
  below := by
    intro e he
    change e.sequence ≤ max s.runtime.snapshot.last_event_sequence
      (s.runtime.snapshot.last_event_sequence + 1)
    rcases List.mem_append.mp he with he | he
    · have hbelow := s.below e he
      omega
    · rw [List.mem_singleton.mp he]
      exact le_max_right _ _

/-- A session with its subscribers. -/
structure Channel where
  session : LiveSession
  max_subscription_queue : Int := 256
  draws : Nat := 0
  subscribing : Nat → Option Subscription := fun _ => none
  subscriptions : Nat → Option Subscription := fun _ => none

/-- The steps; a subscribe call has a number. -/
inductive ChannelStep where
  | replay (call : Nat) (after_sequence : Int) (capabilities : List String)
      (max_queue : Option Int := none)
  | register (call : Nat)
  | publish (p : Publication)
  | next (call : Nat)

def Channel.step (c : Channel) : ChannelStep → Channel
  | .replay call after_sequence capabilities max_queue =>
      if (c.subscribing call).isSome || (c.subscriptions call).isSome then c
      else
        match c.session.runtime.replaySubscription site
            c.session.runtime.snapshot.session_id after_sequence capabilities
            (queueSize c.max_subscription_queue max_queue) with
        | .error _ => c
        | .ok s => { c with subscribing := Function.update c.subscribing call (some s) }
  | .register call =>
      match c.subscribing call with
      | none => c
      | some s =>
          { c with
            subscribing := Function.update c.subscribing call none
            subscriptions := Function.update c.subscriptions call (some s) }
  | .publish p =>
      if c.session.runtime.deleted then c
      else
        { c with
          session := c.session.appended site p c.draws
          draws := c.draws + 1
          subscriptions := fun call => (c.subscriptions call).map
            fun s => s.notify site (p.event site c.session.runtime c.draws) }
  | .next call =>
      match c.subscriptions call with
      | none => c
      | some s => { c with subscriptions := Function.update c.subscriptions call (some s.next) }

end Agenthicc.SessionService
