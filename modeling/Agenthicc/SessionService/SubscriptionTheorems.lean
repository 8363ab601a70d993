/-
Agenthicc.SessionService.SubscriptionTheorems — what a subscriber misses.

`due` is what a subscriber may see after its cursor, `seen` what of it is in
its stream. `Delivered` says that they are equal, or that the stream ends with
the overflow error after the first of them. Every step keeps it but one: to
register after an event was published that the replay did not have yet.
-/
import Agenthicc.SessionService.Subscriptions
import Agenthicc.Library.Runs

namespace Agenthicc.SessionService

open Python

variable {site : Site}

/-! ## 1. Streams -/

def Item.event? : Item → Option SessionEvent
  | .event e => some e
  | .error _ => none

namespace Subscription

variable (s : Subscription)

/-- What the subscriber was given, and what waits for it. -/
def stream : List Item := s.taken ++ s.queue

/-- The durable events after the cursor, in some items. -/
def seen (items : List Item) : List SessionEvent :=
  durableAfter s.after_sequence (items.filterMap Item.event?)

/-- The durable events after the cursor that the subscriber may see. -/
def due (site : Site) (events : List SessionEvent) : List SessionEvent :=
  (durableAfter s.after_sequence events).filterMap fun e =>
    (projectEvent site s.capabilities e).toOption

/-- The stream has every event that is due, once and in order, or all up to an
overflow error. -/
structure Delivered (site : Site) (events : List SessionEvent) : Prop where
  increasing : (s.seen s.stream).Pairwise (·.sequence < ·.sequence)
  complete : s.seen s.stream = s.due site events
    ∨ (s.stream.getLast? = some (.error backpressure) ∧ s.seen s.stream <+: s.due site events)

end Subscription

variable {s : Subscription} {events : List SessionEvent} {e e' : SessionEvent}

theorem durableAfter_append (after : Int) (a b : List SessionEvent) :
    durableAfter after (a ++ b) = durableAfter after a ++ durableAfter after b := List.filter_append ..

theorem seen_append (a b : List Item) : s.seen (a ++ b) = s.seen a ++ s.seen b := by
  rw [Subscription.seen, List.filterMap_append, durableAfter_append]
  rfl

theorem due_append (a b : List SessionEvent) : s.due site (a ++ b) = s.due site a ++ s.due site b := by
  rw [Subscription.due, durableAfter_append, List.filterMap_append]
  rfl

theorem seen_error (error : SessionError) : s.seen [.error error] = [] := rfl

theorem projectEvent_ok {caps : List String} (h : projectEvent site caps e = .ok e') :
    e'.sequence = e.sequence ∧ e'.durability = e.durability := by
  unfold projectEvent at h
  cases hrequire : requireCapability site caps "read" with
  | error raised =>
      rw [hrequire] at h
      cases h
  | ok u =>
      rw [hrequire] at h
      by_cases hprivate : e.visibility = "private" ∧ "private" ∉ caps ∧ "admin" ∉ caps
      · rw [if_pos hprivate] at h
        cases h
      · rw [if_neg hprivate] at h
        cases h
        exact ⟨rfl, rfl⟩

theorem due_increasing (h : events.Pairwise (·.sequence < ·.sequence)) :
    (s.due site events).Pairwise (·.sequence < ·.sequence) := by
  unfold Subscription.due durableAfter
  refine (h.filter _).filterMap _ ?_
  intro a a' hlt b hb b' hb'
  cases hproject : projectEvent site s.capabilities a with
  | error raised =>
      rw [hproject] at hb
      cases hb
  | ok c =>
      cases hproject' : projectEvent site s.capabilities a' with
      | error raised =>
          rw [hproject'] at hb'
          cases hb'
      | ok c' =>
          rw [hproject] at hb
          rw [hproject'] at hb'
          cases hb
          cases hb'
          rw [(projectEvent_ok hproject).1, (projectEvent_ok hproject').1]
          exact hlt

theorem delivered_iff (h : events.Pairwise (·.sequence < ·.sequence)) : s.Delivered site events ↔
    (s.seen s.stream = s.due site events
      ∨ (s.stream.getLast? = some (.error backpressure) ∧ s.seen s.stream <+: s.due site events)) := by
  refine ⟨fun h => h.complete, fun hcomplete => ⟨?_, hcomplete⟩⟩
  have hfront : s.seen s.stream <+: s.due site events := by
    rcases hcomplete with heq | ⟨-, hfront⟩
    · exact ⟨[], (List.append_nil _).trans heq⟩
    · exact hfront
  exact (due_increasing h).sublist hfront.sublist

theorem seen_projected (h : projectEvent site s.capabilities e = .ok e') :
    s.seen [.event e'] = s.due site [e] := by
  obtain ⟨hsequence, hdurability⟩ := projectEvent_ok h
  have hseen : s.seen [.event e'] = durableAfter s.after_sequence [e'] := rfl
  rw [hseen, Subscription.due, durableAfter, durableAfter, List.filter_cons, List.filter_cons,
    hsequence, hdurability]
  split
  · simp [h, Except.toOption]
  · rfl

/-! ## 2. Steps of one subscription -/

/-- An open stream has no error, a closed one ends with one. -/
structure Subscription.WellEnded (s : Subscription) : Prop where
  open_ : s.closed = false → ∀ error, Item.error error ∉ s.stream
  ended : s.closed = true → s.stream.getLast? = some (.error backpressure)

/-- The queue is cleared for the error. -/
def Subscription.overflow (s : Subscription) : Subscription :=
  { s with queue := [.error backpressure], closed := true }

theorem putNowait_some {maxsize : Int} {queue queue' : List Item} {item : Item}
    (h : putNowait maxsize queue item = some queue') : queue' = queue ++ [item] := by
  unfold putNowait at h
  split at h
  · cases h
  · exact (Option.some.inj h).symm

/-- What `_notify` does to a subscription. -/
theorem notify_cases (s : Subscription) (e : SessionEvent) :
    (s.closed = true ∧ s.notify site e = s)
    ∨ (s.closed = false ∧ s.notify site e = s.overflow)
    ∨ (s.closed = false ∧ ∃ e', projectEvent site s.capabilities e = .ok e'
        ∧ s.notify site e = { s with queue := s.queue ++ [.event e'] }) := by
  unfold Subscription.notify
  cases hclosed : s.closed with
  | true => exact .inl ⟨rfl, rfl⟩
  | false =>
      refine .inr ?_
      rw [if_neg Bool.false_ne_true]
      split
      · rename_i e' hproject
        split
        · rename_i queue hqueue
          rw [putNowait_some hqueue]
          exact .inr ⟨rfl, e', hproject, rfl⟩
        · exact .inl ⟨rfl, rfl⟩
      · exact .inl ⟨rfl, rfl⟩

theorem stream_overflow (s : Subscription) : s.overflow.stream = s.taken ++ [.error backpressure] := rfl

theorem Subscription.WellEnded.notify (h : s.WellEnded) (e : SessionEvent) : (s.notify site e).WellEnded := by
  rcases notify_cases s e with ⟨-, heq⟩ | ⟨-, heq⟩ | ⟨hopen, e', -, heq⟩
  · rw [heq]
    exact h
  · rw [heq]
    refine ⟨(fun hclosed => nomatch hclosed), fun _ => ?_⟩
    rw [stream_overflow, List.getLast?_append]
    rfl
  · rw [heq]
    refine ⟨fun _ error hmem => ?_, fun hclosed => ?_⟩
    · change Item.error error ∈ s.taken ++ (s.queue ++ [.event e']) at hmem
      rw [← List.append_assoc, List.mem_append, List.mem_singleton] at hmem
      rcases hmem with hmem | hmem
      · exact h.open_ hopen error hmem
      · cases hmem
    · rw [hopen] at hclosed
      cases hclosed

/-- **A publication reaches every open stream, or ends it.** -/
theorem delivered_notify (hended : s.WellEnded)
    (h : s.seen s.stream = s.due site events
      ∨ (s.stream.getLast? = some (.error backpressure) ∧ s.seen s.stream <+: s.due site events))
    (e : SessionEvent) :
    let s' := s.notify site e
    s'.seen s'.stream = s'.due site (events ++ [e])
      ∨ (s'.stream.getLast? = some (.error backpressure)
        ∧ s'.seen s'.stream <+: s'.due site (events ++ [e])) := by
  intro s'
  have hfront : s.seen s.stream <+: s.due site (events ++ [e]) := by
    rw [due_append]
    rcases h with heq | ⟨-, hfront⟩
    · exact heq ▸ List.prefix_append _ _
    · exact hfront.trans (List.prefix_append _ _)
  rcases notify_cases s e with ⟨hend, heq⟩ | ⟨-, heq⟩ | ⟨hopened, e', hproject, heq⟩
  · have hs : s' = s := heq
    rw [hs]
    exact .inr ⟨hended.ended hend, hfront⟩
  · have hs : s' = s.overflow := heq
    rw [hs, stream_overflow]
    refine .inr ⟨by rw [List.getLast?_append]; rfl, ?_⟩
    have htaken : s.overflow.seen (s.taken ++ [.error backpressure]) = s.seen s.taken := by
      rw [seen_append, seen_error, List.append_nil]
      rfl
    rw [htaken]
    refine List.IsPrefix.trans ?_ hfront
    rw [Subscription.stream, seen_append]
    exact List.prefix_append _ _
  · have hs : s' = { s with queue := s.queue ++ [.event e'] } := heq
    rw [hs]
    have hcomplete : s.seen s.stream = s.due site events := by
      rcases h with hcomplete | ⟨hlast, -⟩
      · exact hcomplete
      · exact absurd (List.mem_of_getLast? hlast) (hended.open_ hopened _)
    refine .inl ?_
    change s.seen (s.taken ++ (s.queue ++ [.event e'])) = s.due site (events ++ [e])
    rw [← List.append_assoc, seen_append, due_append, seen_projected hproject, ← hcomplete]
    rfl

theorem stream_next (s : Subscription) : s.next.stream = s.stream
    ∧ s.next.after_sequence = s.after_sequence ∧ s.next.capabilities = s.capabilities := by
  unfold Subscription.next
  split
  · exact ⟨rfl, rfl, rfl⟩
  · rename_i e queue hqueue
    refine ⟨?_, rfl, rfl⟩
    simp [Subscription.stream, hqueue]
  · rename_i e queue hqueue
    refine ⟨?_, rfl, rfl⟩
    simp [Subscription.stream, hqueue]

/-! ## 3. The replay -/

theorem mapM_ok {α β : Type} {f : α → Except Raised β} : ∀ {l : List α} {l' : List β},
    l.mapM f = .ok l' → l' = l.filterMap fun a => (f a).toOption
  | [], l', h => by
      rw [List.mapM_nil] at h
      cases h
      rfl
  | a :: l, l', h => by
      rw [List.mapM_cons] at h
      cases ha : f a with
      | error raised =>
          rw [ha] at h
          cases h
      | ok b =>
          cases hl : l.mapM f with
          | error raised =>
              rw [ha, hl] at h
              cases h
          | ok bs =>
              rw [ha, hl] at h
              cases h
              rw [List.filterMap_cons, ha, ← mapM_ok hl]
              rfl

theorem eventsAfter_ok {r : Runtime} {session_id : String} {after : Int} {caps : List String}
    {l : List SessionEvent} (h : r.eventsAfter site session_id after caps = .ok l) :
    l = (durableAfter after r.events).filterMap fun e => (projectEvent site caps e).toOption := by
  unfold Runtime.eventsAfter at h
  cases hrequire : requireCapability site caps "read" with
  | error raised =>
      rw [hrequire] at h
      cases h
  | ok u =>
      rw [hrequire] at h
      by_cases hdeleted : r.deleted
      · rw [if_pos hdeleted] at h
        cases h
      · rw [if_neg hdeleted] at h
        by_cases hgap : r.events ≠ [] ∧ after < r.earliest_sequence - 1
        · rw [if_pos hgap] at h
          cases h
        · rw [if_neg hgap] at h
          exact mapM_ok h

theorem foldlM_putNowait {maxsize : Int} : ∀ {items queue queue' : List Item},
    items.foldlM (putNowait maxsize) queue = some queue' → queue' = queue ++ items
  | [], queue, queue', h => by
      rw [List.append_nil]
      exact (Option.some.inj h).symm
  | item :: items, queue, queue', h => by
      rw [List.foldlM_cons] at h
      obtain ⟨next, hnext, hrest⟩ := Option.bind_eq_some_iff.mp h
      rw [foldlM_putNowait hrest, putNowait_some hnext, List.append_assoc]
      rfl

/-- A subscription between its two lock sections. -/
structure Subscription.Replayed (site : Site) (s : Subscription) (events : List SessionEvent) :
    Prop where
  taken : s.taken = []
  open_ : s.closed = false
  replayed : s.replayed ≤ events.length
  queue : s.queue = (s.due site (events.take s.replayed)).map Item.event

theorem replayed_now {r : Runtime} {session_id : String} {after maxsize : Int} {caps : List String}
    (h : r.replaySubscription site session_id after caps maxsize = .ok s) :
    s.Replayed site r.events := by
  unfold Runtime.replaySubscription at h
  cases hevents : r.eventsAfter site session_id after caps with
  | error raised =>
      rw [hevents] at h
      cases h
  | ok replay =>
      rw [hevents] at h
      simp only [bind, Except.bind] at h
      split at h
      · cases h
      · rename_i queue hqueue
        cases h
        refine ⟨rfl, rfl, le_rfl, ?_⟩
        change queue = (Subscription.due _ _ (r.events.take r.events.length)).map _
        rw [foldlM_putNowait hqueue, List.take_length, List.nil_append, eventsAfter_ok hevents]
        rfl

theorem Subscription.Replayed.append (h : s.Replayed site events) (e : SessionEvent) :
    s.Replayed site (events ++ [e]) where
  taken := h.taken
  open_ := h.open_
  replayed := by
    have hreplayed := h.replayed
    rw [List.length_append]
    omega
  queue := by
    rw [List.take_append_of_le_length h.replayed]
    exact h.queue

theorem event?_map (l : List SessionEvent) : (l.map Item.event).filterMap Item.event? = l := by
  induction l with
  | nil => rfl
  | cons e l ih => rw [List.map_cons, List.filterMap_cons, ih]; rfl

theorem durableAfter_due (s : Subscription) (events : List SessionEvent) :
    durableAfter s.after_sequence (s.due site events) = s.due site events := by
  unfold durableAfter
  rw [List.filter_eq_self]
  intro e' he'
  obtain ⟨e, he, hproject⟩ := List.mem_filterMap.mp he'
  have hpass := (List.mem_filter.mp he).2
  cases hok : projectEvent site s.capabilities e with
  | error raised =>
      rw [hok] at hproject
      cases hproject
  | ok projected =>
      rw [hok] at hproject
      cases hproject
      rw [(projectEvent_ok hok).1, (projectEvent_ok hok).2]
      exact hpass

theorem Subscription.Replayed.stream_eq (h : s.Replayed site events) :
    s.stream = (s.due site (events.take s.replayed)).map Item.event := by
  rw [Subscription.stream, h.taken, h.queue, List.nil_append]

theorem Subscription.Replayed.no_error (h : s.Replayed site events) (error : SessionError) :
    Item.error error ∉ s.stream := by
  rw [h.stream_eq]
  intro hmem
  obtain ⟨e, -, heq⟩ := List.mem_map.mp hmem
  cases heq

theorem Subscription.Replayed.wellEnded (h : s.Replayed site events) : s.WellEnded where
  open_ _ := h.no_error
  ended hclosed := by
    rw [h.open_] at hclosed
    cases hclosed

/-- **Registering in time.** -/
theorem Subscription.Replayed.delivered_iff (h : s.Replayed site events) :
    (s.seen s.stream = s.due site events
      ∨ (s.stream.getLast? = some (.error backpressure) ∧ s.seen s.stream <+: s.due site events))
      ↔ s.due site (events.drop s.replayed) = [] := by
  have hseen : s.seen s.stream = s.due site (events.take s.replayed) := by
    rw [h.stream_eq, Subscription.seen, event?_map, durableAfter_due]
  have hdue : s.due site events
      = s.due site (events.take s.replayed) ++ s.due site (events.drop s.replayed) := by
    rw [← due_append, List.take_append_drop]
  rw [hseen, hdue]
  constructor
  · intro hcomplete
    rcases hcomplete with heq | ⟨hlast, -⟩
    · exact List.self_eq_append_right.mp heq
    · exact absurd (List.mem_of_getLast? hlast) (h.no_error _)
  · intro hnone
    rw [hnone, List.append_nil]
    exact .inl rfl

/-! ## 4. Runs -/

/-- Every registered subscriber has what is due. -/
def Channel.NothingMissed (site : Site) (c : Channel) : Prop :=
  ∀ call s, c.subscriptions call = some s → s.Delivered site c.session.runtime.events

/-- The condition on a step: a subscriber registers before an event is
published that it may see and that its replay did not have. -/
def InTime (site : Site) (c : Channel) : ChannelStep → Prop
  | .replay _ _ _ _ => True
  | .register call => ∀ s ∈ c.subscribing call,
      s.due site (c.session.runtime.events.drop s.replayed) = []
  | .publish _ => True
  | .next _ => True

structure Channel.Inv (site : Site) (c : Channel) : Prop where
  subscribing : ∀ call s, c.subscribing call = some s → s.Replayed site c.session.runtime.events
  ended : ∀ call s, c.subscriptions call = some s → s.WellEnded

theorem of_update {f : Nat → Option Subscription} {call call' : Nat} {o : Option Subscription}
    {s : Subscription} (h : Function.update f call o call' = some s) :
    (call' = call ∧ o = some s) ∨ f call' = some s := by
  by_cases heq : call' = call
  · rw [heq, Function.update_self] at h
    exact .inl ⟨heq, h⟩
  · rw [Function.update_of_ne heq] at h
    exact .inr h

variable {c : Channel}

theorem wellEnded_next (h : s.WellEnded) : s.next.WellEnded := by
  have hstream := (stream_next s).1
  refine ⟨fun hopen error => ?_, fun hclosed => ?_⟩
  · rw [hstream]
    refine h.open_ ?_ error
    unfold Subscription.next at hopen
    split at hopen
    · exact hopen
    · exact hopen
    · cases hopen
  · rw [hstream]
    cases hwas : s.closed with
    | true => exact h.ended hwas
    | false =>
        unfold Subscription.next at hclosed
        split at hclosed
        · rw [hwas] at hclosed
          cases hclosed
        · rw [hwas] at hclosed
          cases hclosed
        · rename_i error queue hqueue
          refine absurd ?_ (h.open_ hwas error)
          rw [Subscription.stream, hqueue]
          exact List.mem_append_right _ List.mem_cons_self

theorem Channel.Inv.step (h : c.Inv site) (a : ChannelStep) : (c.step site a).Inv site := by
  cases a with
  | replay call after caps max_queue =>
      unfold Channel.step
      dsimp only
      split
      · exact h
      · split
        · exact h
        · rename_i s hs
          refine ⟨fun call' s' hs' => ?_, h.ended⟩
          rcases of_update hs' with ⟨-, heq⟩ | hs'
          · cases heq
            exact replayed_now hs
          · exact h.subscribing call' s' hs'
  | register call =>
      unfold Channel.step
      dsimp only
      split
      · exact h
      · rename_i s hs
        refine ⟨fun call' s' hs' => ?_, fun call' s' hs' => ?_⟩
        · rcases of_update hs' with ⟨-, heq⟩ | hs'
          · cases heq
          · exact h.subscribing call' s' hs'
        · rcases of_update hs' with ⟨-, heq⟩ | hs'
          · cases heq
            exact (h.subscribing call s hs).wellEnded
          · exact h.ended call' s' hs'
  | publish p =>
      unfold Channel.step
      dsimp only
      split
      · exact h
      · refine ⟨fun call s hs => (h.subscribing call s hs).append _, fun call s hs => ?_⟩
        obtain ⟨s', hs', rfl⟩ := Option.map_eq_some_iff.mp hs
        exact (h.ended call s' hs').notify _
  | next call =>
      unfold Channel.step
      dsimp only
      split
      · exact h
      · rename_i s hs
        refine ⟨h.subscribing, fun call' s' hs' => ?_⟩
        rcases of_update hs' with ⟨-, heq⟩ | hs'
        · cases heq
          exact wellEnded_next (h.ended call s hs)
        · exact h.ended call' s' hs'

theorem delivered_next (h : s.Delivered site events) : s.next.Delivered site events := by
  obtain ⟨hstream, hafter, hcaps⟩ := stream_next s
  have hseen : s.next.seen s.next.stream = s.seen s.stream := by
    rw [hstream, Subscription.seen, hafter]
    rfl
  have hdue : s.next.due site events = s.due site events := by
    rw [Subscription.due, hafter, hcaps]
    rfl
  refine ⟨?_, ?_⟩
  · rw [hseen]
    exact h.increasing
  · rw [hseen, hdue, hstream]
    exact h.complete

/-- **A step loses an event exactly when a subscriber registers too late.** -/
theorem nothingMissed_step_iff (h : c.Inv site) (hmissed : c.NothingMissed site) (a : ChannelStep) :
    (c.step site a).NothingMissed site ↔ InTime site c a := by
  cases a with
  | replay call after caps max_queue =>
      refine iff_of_true ?_ trivial
      unfold Channel.step
      dsimp only
      split
      · exact hmissed
      · split
        · exact hmissed
        · exact hmissed
  | register call =>
      unfold Channel.step InTime
      dsimp only
      cases hs : c.subscribing call with
      | none => exact iff_of_true hmissed fun s hs' => nomatch hs'
      | some s =>
          have hin : (∀ s' ∈ some s, s'.due site (c.session.runtime.events.drop s'.replayed) = [])
              ↔ s.due site (c.session.runtime.events.drop s.replayed) = [] :=
            ⟨fun hall => hall s rfl, fun hnone s' hs' => (Option.some.inj hs') ▸ hnone⟩
          rw [hin, ← (h.subscribing call s hs).delivered_iff,
            ← delivered_iff c.session.increasing]
          constructor
          · intro hall
            exact hall call s (Function.update_self _ _ _)
          · intro hdelivered call' s' hs'
            rcases of_update hs' with ⟨-, heq⟩ | hs'
            · cases heq
              exact hdelivered
            · exact hmissed call' s' hs'
  | publish p =>
      refine iff_of_true ?_ trivial
      unfold Channel.step
      dsimp only
      split
      · exact hmissed
      · intro call s hs
        obtain ⟨s', hs', rfl⟩ := Option.map_eq_some_iff.mp hs
        refine (delivered_iff (c.session.appended site p c.draws).increasing).mpr ?_
        exact delivered_notify (h.ended call s' hs') (hmissed call s' hs').complete _
  | next call =>
      refine iff_of_true ?_ trivial
      unfold Channel.step
      dsimp only
      split
      · exact hmissed
      · rename_i s hs
        intro call' s' hs'
        rcases of_update hs' with ⟨-, heq⟩ | hs'
        · cases heq
          exact delivered_next (hmissed call s hs)
        · exact hmissed call' s' hs'

/-- A session that was just created. -/
def LiveSession.empty (snapshot : SessionSnapshot) : LiveSession where
  runtime := emptyRuntime snapshot
  increasing := .nil
  below _ he := nomatch he

end Agenthicc.SessionService
