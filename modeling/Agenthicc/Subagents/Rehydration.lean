/-
Agenthicc.Subagents.Rehydration — the broker a replay builds, beside the live
one.

`MailSim` relates a live broker and its history to the broker that has applied
the events journaled so far: the same members and messages, in the mailboxes
of the replay everything that was ever addressed to a member, and a message is
still queued in both or in neither, unless it has expired. `QuestionSim` does
the same for the questions. A message that an operation settles for one member
is settled for all in the replay, which keeps one state per message; the
conditions of the lemmas say when that loses nothing.
-/
import Agenthicc.Subagents.DeliveryTheorems
import Agenthicc.Subagents.Questions

namespace Agenthicc.Subagents

open Python

variable {τ : Type}

/-! ## 1. The relations -/

section

variable [LinearOrder τ]

namespace Mail

/-- A poll has read the clock after the message expired. -/
def Lapsed (x : Mail τ) (id : String) : Prop :=
  ∃ e, x.envelope? id = some e ∧ ∃ t ∈ x.readings, e.expired t

/-- A poll of the member would hand the message out, unless it expires first. -/
def Unread (x : Mail τ) (m id : String) : Prop :=
  id ∈ x.mailboxes m ∧ (∃ r, x.messages.get? id = some r ∧ m ∉ r.acknowledged_by) ∧ ¬ x.Lapsed id

/-- A worker can join without a difference: what it could still read of its
mailbox is queued, and no queued message for it is missing there. -/
def JoinsClean (x : Mail τ) (w : String) : Prop :=
  (∀ id, x.Unread w id → x.Queued id)
  ∧ ∀ id e, x.Queued id → x.envelope? id = some e → (e.recipient = w ∨ e.recipient = "pool") →
    ¬ x.Lapsed id → id ∈ x.mailboxes w

end Mail

structure MailSim (x : Mail τ) (h : Traffic τ) (p : AgentMessageBroker τ) : Prop where
  conversation_id : p.conversation_id = x.conversation_id
  parent_run_id : p.parent_run_id = x.parent_run_id
  pool_id : p.pool_id = x.pool_id
  members : p.members = x.members
  ids : p.mail.ids = x.ids
  envelopes : p.mail.envelope? = x.envelope?
  boxes : p.mailboxes = h.addressed
  queued : ∀ {id}, ¬ x.Lapsed id → (p.mail.Queued id ↔ x.Queued id)
  settled : ∀ {id r}, p.messages.get? id = some r →
    r.state = .queued ∧ r.acknowledged_by = [] ∨ r.state.isOver = true
  unread : ∀ {m id}, m ∈ x.members → x.Unread m id → x.Queued id
  on_time : ∀ {m id}, id ∈ x.mailboxes m → id ∈ h.addressed m ∨ x.Lapsed id

end

/-- The sender of a question is there, and so is the one who could answer. -/
def QuestionRecord.HasParties (members : List String) (q : QuestionRecord τ) : Prop :=
  q.envelope.sender ∈ members ∧ (q.envelope.recipient = "main" ∨ q.envelope.recipient ∈ members)

/-- A question and what the replay has of it: the replay knows no orphans. -/
inductive SameQuestion : Option (QuestionRecord τ) → Option (QuestionRecord τ) → Prop where
  | none : SameQuestion none none
  | same {q q' : QuestionRecord τ} (envelope : q'.envelope = q.envelope)
      (status : q'.status = q.status) (answer : q'.answer = q.answer) :
      SameQuestion (some q) (some q')
  | orphan {q q' : QuestionRecord τ} (envelope : q'.envelope = q.envelope)
      (status : q.status = "orphaned") (answer : q.answer = "") (status' : q'.status = "pending")
      (answer' : q'.answer = "") : SameQuestion (some q) (some q')

structure QuestionSim (members : List String) (envelope? : String → Option (AgentMessageEnvelope τ))
    (qs qs' : Dict String (QuestionRecord τ)) : Prop where
  keyed : ∀ {id q}, qs.get? id = some q → q.question_id = id
  known : ∀ {id q}, qs.get? id = some q → envelope? id = some q.envelope
  same : ∀ id, SameQuestion (qs.get? id) (qs'.get? id)
  pending : ∀ {id q}, qs.get? id = some q → q.status = "pending" → q.answer = "" ∧ q.HasParties members
  orphaned : ∀ {id q}, qs.get? id = some q → q.status = "orphaned" →
    q.answer = "" ∧ ¬ q.HasParties members

/-! ## 2. One event of the replay -/

namespace AgentMessageBroker

variable {p : AgentMessageBroker τ}

/-- The record of a rejection and a refusal leaves the replay as it is. -/
theorem rehydrateEvent_ignored {raw : JournaledEvent τ}
    (h : (∃ s r, raw.event = .agent_message_rejected s r) ∨ ∃ q, raw.event = .question_refused q) :
    p.rehydrateEvent raw = p := by
  unfold rehydrateEvent
  split
  · rfl
  · rcases h with ⟨s, r, h⟩ | ⟨q, h⟩ <;> rw [h]

theorem rehydrateEvent_member {pool w : String} {removed : Bool} (hpool : pool = p.pool_id)
    (hw : w ≠ "") : p.rehydrateEvent ⟨pool, .agent_pool_member w removed⟩ =
      { p with members := if removed then p.members.filter (· ≠ w)
          else if w ∈ p.members then p.members else p.members ++ [w] } := by
  unfold rehydrateEvent
  rw [if_neg (not_not.mpr hpool)]
  dsimp only
  rw [if_neg hw]
  cases removed <;> rfl

theorem rehydrateEvent_delivered {pool id m : String} (hpool : pool = p.pool_id)
    {r : MessageRecord τ} (hr : p.messages.get? id = some r) :
    p.rehydrateEvent ⟨pool, .agent_message_delivered id m⟩
      = p.setRecord id { r with state := .delivered } := by
  unfold rehydrateEvent
  rw [if_neg (not_not.mpr hpool)]
  dsimp only
  rw [hr]

theorem rehydrateEvent_acknowledged {pool id m : String} (hpool : pool = p.pool_id)
    {r : MessageRecord τ} (hr : p.messages.get? id = some r) :
    ∃ r', p.rehydrateEvent ⟨pool, .agent_message_acknowledged id m⟩ = p.setRecord id r'
      ∧ r'.envelope = r.envelope ∧ r'.state.isOver = true := by
  unfold rehydrateEvent
  rw [if_neg (not_not.mpr hpool)]
  dsimp only
  rw [hr]
  refine ⟨_, rfl, rfl, ?_⟩
  dsimp only
  generalize List.all _ _ = acknowledged
  cases acknowledged <;> rfl

theorem rehydrateEvent_sent {pool : String} {e : AgentMessageEnvelope τ} (hpool : pool = p.pool_id)
    (hconversation : e.conversation_id = p.conversation_id)
    (hparent : e.parent_run_id = p.parent_run_id) (hmine : e.pool_id = p.pool_id)
    (hsender : e.sender ∈ p.members) (hrecipient : e.recipient = "pool" ∨ e.recipient ∈ p.members)
    (hsome : e.recipient = "pool" → p.targets e.sender e.recipient ≠ [])
    (hfresh : p.messages.get? e.message_id = none) :
    p.rehydrateEvent ⟨pool, .agent_message_sent e⟩ =
      { p with
        messages := p.messages.set e.message_id { envelope := e, state := .queued }
        mailboxes := fun m => if m ∈ p.targets e.sender e.recipient then
          p.mailboxes m ++ [e.message_id] else p.mailboxes m
        sequence := fun s => if s = e.sender then max (p.sequence s) e.sequence else p.sequence s } := by
  unfold rehydrateEvent
  rw [if_neg (not_not.mpr hpool)]
  dsimp only
  rw [if_neg, hfresh, if_neg (by simp), if_neg]
  · rintro ⟨hp, hnil⟩
    exact hsome hp hnil
  · rintro (h | h | h | ⟨h, -⟩ | ⟨h, h'⟩)
    · exact h hconversation
    · exact h hparent
    · exact h hmine
    · exact h hsender
    · exact hrecipient.elim h h'

theorem rehydrateEvent_started {pool : String} (question : QuestionProjection τ)
    (hpool : pool = p.pool_id) {r : MessageRecord τ}
    (hr : p.messages.get? question.question_id = some r)
    (hfresh : p.questions.get? question.question_id = none) :
    p.rehydrateEvent ⟨pool, .question_wait_started question⟩ =
      { p with questions := (p.questions.set question.question_id
          { question_id := question.question_id, envelope := r.envelope }) } := by
  unfold rehydrateEvent
  rw [if_neg (not_not.mpr hpool)]
  dsimp only
  rw [hr]
  dsimp only
  rw [hfresh]
  rfl

/-- The three terminal events the replay knows. -/
def finishEvents : List ((QuestionProjection τ → BrokerEvent τ) × String) :=
  [(.question_answered, "answered"), (.question_timed_out, "expired"),
    (.question_cancelled, "cancelled")]

theorem answered_mem :
    ((.question_answered, "answered") : (QuestionProjection τ → BrokerEvent τ) × String)
      ∈ finishEvents := by simp [finishEvents]

theorem timedOut_mem :
    ((.question_timed_out, "expired") : (QuestionProjection τ → BrokerEvent τ) × String)
      ∈ finishEvents := by simp [finishEvents]

theorem cancelled_mem :
    ((.question_cancelled, "cancelled") : (QuestionProjection τ → BrokerEvent τ) × String)
      ∈ finishEvents := by simp [finishEvents]

theorem rehydrateEvent_finish {pool status : String} {question : QuestionProjection τ}
    {event : QuestionProjection τ → BrokerEvent τ} (hpool : pool = p.pool_id)
    (hevent : (event, status) ∈ finishEvents) {q : QuestionRecord τ}
    (hq : p.questions.get? question.question_id = some q) (hpending : q.status = "pending") :
    p.rehydrateEvent ⟨pool, event question⟩ =
      { p with questions := (p.questions.set question.question_id
          { q with status, answer := question.answer }) } := by
  have hfinish : p.rehydrateFinish question status =
      { p with questions := (p.questions.set question.question_id
          { q with status, answer := question.answer }) } := by
    unfold rehydrateFinish
    rw [hq]
    dsimp only
    rw [if_pos hpending]
  rw [← hfinish]
  unfold rehydrateEvent
  rw [if_neg (not_not.mpr hpool)]
  simp only [finishEvents, List.mem_cons, Prod.mk.injEq, List.not_mem_nil, or_false] at hevent
  rcases hevent with ⟨rfl, rfl⟩ | ⟨rfl, rfl⟩ | ⟨rfl, rfl⟩ <;> rfl

end AgentMessageBroker

/-! ## 3. What one change of the mail keeps -/

namespace MailSim

variable [LinearOrder τ] {x x' : Mail τ} {h : Traffic τ} {p p' : AgentMessageBroker τ}
  {m id w : String} {r : MessageRecord τ}

/-- The relation sees of the replay its messages and its configuration. -/
theorem of_mail (s : MailSim x h p) (hp : p'.mail = p.mail) : MailSim x h p' := by
  have hmessages : p'.messages = p.messages := congrArg Mail.messages hp
  have hboxes : p'.mailboxes = p.mailboxes := congrArg Mail.mailboxes hp
  have hmembers : p'.members = p.members := congrArg Mail.members hp
  have hconfig : p'.toBrokerConfig = p.toBrokerConfig := congrArg Mail.toBrokerConfig hp
  exact
    { conversation_id := by rw [hconfig]; exact s.conversation_id
      parent_run_id := by rw [hconfig]; exact s.parent_run_id
      pool_id := by rw [hconfig]; exact s.pool_id
      members := hmembers.trans s.members
      ids := by rw [hp]; exact s.ids
      envelopes := by rw [hp]; exact s.envelopes
      boxes := hboxes.trans s.boxes
      queued := by rw [hp]; exact s.queued
      settled := by rw [hmessages]; exact s.settled
      unread := s.unread
      on_time := s.on_time }

theorem of_addressed {h' : Traffic τ} (s : MailSim x h p) (hh : h'.addressed = h.addressed) :
    MailSim x h' p :=
  { s with
    boxes := s.boxes.trans hh.symm
    on_time := by rw [hh]; exact s.on_time }

theorem get? (s : MailSim x h p) (hr : x.messages.get? id = some r) :
    ∃ r', p.messages.get? id = some r' ∧ r'.envelope = r.envelope := by
  have henv := congrFun s.envelopes id
  rw [Mail.envelope?_of_get? hr] at henv
  unfold Mail.envelope? at henv
  rw [Option.map_eq_some_iff] at henv
  exact henv

theorem leave (s : MailSim x h p)
    (hp' : p' = { p with members := p.members.filter (· ≠ w) }) :
    MailSim { x with members := x.members.filter (· ≠ w) } h p' := by
  subst hp'
  exact
    { conversation_id := s.conversation_id
      parent_run_id := s.parent_run_id
      pool_id := s.pool_id
      members := by rw [← s.members]
      ids := s.ids
      envelopes := s.envelopes
      boxes := s.boxes
      queued := s.queued
      settled := s.settled
      unread := fun hm hid => s.unread (List.mem_filter.mp hm).1 hid
      on_time := s.on_time }

theorem join (s : MailSim x h p) (hclean : x.JoinsClean w) {moved : List String}
    (hmoved : ∀ id ∈ moved, ∃ e, x.envelope? id = some e
      ∧ (e.recipient = w ∨ e.recipient = "pool") ∧ x.Queued id ∧ id ∉ x.mailboxes w)
    (hx' : x' = { x with
      members := if w ∈ x.members then x.members else x.members ++ [w]
      mailboxes := fun m => if m = w then x.mailboxes m ++ moved else x.mailboxes m })
    (hp' : p' = { p with
      members := if w ∈ p.members then p.members else p.members ++ [w] }) :
    MailSim x' h p' := by
  have hlate : ∀ id ∈ moved, x.Lapsed id := by
    intro id hid
    obtain ⟨e, he, hrec, hq, hnot⟩ := hmoved id hid
    by_contra hlapsed
    exact hnot (hclean.2 id e hq he hrec hlapsed)
  subst hx' hp'
  exact
    { conversation_id := s.conversation_id
      parent_run_id := s.parent_run_id
      pool_id := s.pool_id
      members := by rw [← s.members]
      ids := s.ids
      envelopes := s.envelopes
      boxes := s.boxes
      queued := s.queued
      settled := s.settled
      unread := by
        intro m id hm hid
        have hbox : id ∈ x.mailboxes m := by
          have hin := hid.1
          dsimp only at hin
          split at hin
          · exact (List.mem_append.mp hin).resolve_right fun h => hid.2.2 (hlate id h)
          · exact hin
        by_cases hw : m = w
        · subst hw
          exact hclean.1 id ⟨hbox, hid.2⟩
        · refine s.unread ?_ ⟨hbox, hid.2⟩
          dsimp only at hm
          split at hm
          · exact hm
          · exact (List.mem_append.mp hm).resolve_right fun h => hw (List.mem_singleton.mp h)
      on_time := by
        intro m id hid
        dsimp only at hid
        split at hid
        · rcases List.mem_append.mp hid with hid | hid
          · exact s.on_time hid
          · exact .inr (hlate id hid)
        · exact s.on_time hid }

theorem put (s : MailSim x h p) {e : AgentMessageEnvelope τ} {targets : List String}
    {seq seq' : String → Nat} (hfresh : x.messages.get? id = none)
    (hx' : x' = { x with
      messages := x.messages.set id { envelope := e, state := .queued }
      mailboxes := fun m => if m ∈ targets then x.mailboxes m ++ [id] else x.mailboxes m
      sequence := seq })
    (hp' : p' = { p with
      messages := p.messages.set id { envelope := e, state := .queued }
      mailboxes := fun m => if m ∈ targets then p.mailboxes m ++ [id] else p.mailboxes m
      sequence := seq' }) :
    MailSim x' { h with addressed := fun m =>
      if m ∈ targets then h.addressed m ++ [id] else h.addressed m } p' := by
  have hset : x'.messages = x.messages.set id { envelope := e, state := .queued } := by rw [hx']
  have hset' : p'.mail.messages = p.mail.messages.set id { envelope := e, state := .queued } := by
    rw [hp']
    rfl
  have hfresh' : p.mail.messages.get? id = none := by
    have henv := congrFun s.envelopes id
    unfold Mail.envelope? at henv
    rw [hfresh] at henv
    exact Option.map_eq_none_iff.mp henv
  have hself : x'.Queued id ∧ p'.mail.Queued id :=
    ⟨⟨_, by rw [Mail.get?_set hset, if_pos rfl], rfl⟩,
      ⟨_, by rw [Mail.get?_set hset', if_pos rfl], rfl⟩⟩
  have hlapsed : ∀ {j}, id ≠ j → x.Lapsed j → x'.Lapsed j := by
    rintro j hj ⟨e', he', t, ht, hexp⟩
    refine ⟨e', ?_, t, by rw [hx']; exact ht, hexp⟩
    rw [Mail.envelope?_set hset, if_neg hj]
    exact he'
  constructor
  case conversation_id => rw [hx', hp']; exact s.conversation_id
  case parent_run_id => rw [hx', hp']; exact s.parent_run_id
  case pool_id => rw [hx', hp']; exact s.pool_id
  case members => rw [hx', hp']; exact s.members
  case ids => rw [Mail.ids_set hset hfresh, Mail.ids_set hset' hfresh', s.ids]
  case envelopes =>
    funext j
    rw [Mail.envelope?_set hset, Mail.envelope?_set hset', s.envelopes]
  case boxes =>
    rw [hp']
    dsimp only
    rw [s.boxes]
  case queued =>
    intro j hj
    by_cases hid : id = j
    · subst hid
      exact ⟨fun _ => hself.1, fun _ => hself.2⟩
    · rw [Mail.queued_set_ne hset hid, Mail.queued_set_ne hset' hid]
      exact s.queued fun hl => hj (hlapsed hid hl)
  case settled =>
    intro j r hr
    rw [show p'.messages.get? j = _ from Mail.get?_set hset' j] at hr
    split at hr
    · cases hr
      exact .inl ⟨rfl, rfl⟩
    · exact s.settled hr
  case unread =>
    intro m j hm hj
    by_cases hid : id = j
    · subst hid
      exact hself.1
    · obtain ⟨hbox, ⟨r, hr, hack⟩, hl⟩ := hj
      rw [Mail.get?_set hset, if_neg hid] at hr
      rw [Mail.queued_set_ne hset hid]
      refine s.unread (m := m) (by rw [hx'] at hm; exact hm)
        ⟨?_, ⟨r, hr, hack⟩, fun h => hl (hlapsed hid h)⟩
      rw [hx'] at hbox
      dsimp only at hbox
      split at hbox
      · exact (List.mem_append.mp hbox).resolve_right
          fun h => hid (List.mem_singleton.mp h).symm
      · exact hbox
  case on_time =>
    intro m j hj
    have hold : j ∈ x.mailboxes m → id ≠ j → j ∈ h.addressed m ∨ x'.Lapsed j :=
      fun hbox hid => (s.on_time hbox).imp_right (hlapsed hid)
    rw [hx'] at hj
    dsimp only at hj ⊢
    split at hj
    · rename_i hm
      rw [if_pos hm]
      by_cases hid : id = j
      · subst hid
        exact .inl (List.mem_append_right _ (List.mem_singleton_self _))
      · rcases List.mem_append.mp hj with hj | hj
        · exact (hold hj hid).imp_left (List.mem_append_left _)
        · exact absurd (List.mem_singleton.mp hj).symm hid
    · rename_i hm
      rw [if_neg hm]
      by_cases hid : id = j
      · subst hid
        exact (s.on_time hj).imp_right fun hl => by
          obtain ⟨e', he', -⟩ := hl
          unfold Mail.envelope? at he'
          rw [hfresh] at he'
          cases he'
      · exact hold hj hid

/-- Messages leave mailboxes, and those that expired change their state. -/
theorem drop (s : MailSim x h p) (hconfig : x'.toBrokerConfig = x.toBrokerConfig)
    (hmembers : x'.members = x.members) (hids : x'.ids = x.ids)
    (henv : x'.envelope? = x.envelope?) (hlapsed : ∀ {j}, x.Lapsed j → x'.Lapsed j)
    (hbox : ∀ m, ∀ j ∈ x'.mailboxes m, j ∈ x.mailboxes m)
    (hunread : ∀ {m j}, x'.Unread m j → x.Unread m j)
    (hqueued : ∀ {j}, ¬ x'.Lapsed j → (x'.Queued j ↔ x.Queued j)) : MailSim x' h p where
  conversation_id := by rw [hconfig]; exact s.conversation_id
  parent_run_id := by rw [hconfig]; exact s.parent_run_id
  pool_id := by rw [hconfig]; exact s.pool_id
  members := s.members.trans hmembers.symm
  ids := s.ids.trans hids.symm
  envelopes := s.envelopes.trans henv.symm
  boxes := s.boxes
  queued hj := (s.queued fun hl => hj (hlapsed hl)).trans (hqueued hj).symm
  settled := s.settled
  unread hm hj := (hqueued hj.2.2).mpr (s.unread (hmembers ▸ hm) (hunread hj))
  on_time hj := (s.on_time (hbox _ _ hj)).imp_right hlapsed

theorem settle {h' : Traffic τ} (s : MailSim x h p) (x' : Mail τ) (id : String)
    (r' : MessageRecord τ) (hconfig : x'.toBrokerConfig = x.toBrokerConfig) (hmembers : x'.members = x.members)
    (hids : x'.ids = x.ids) (henv : x'.envelope? = x.envelope?)
    (hlapsed : ∀ {j}, x.Lapsed j → x'.Lapsed j) (hbox : ∀ m, ∀ j ∈ x'.mailboxes m, j ∈ x.mailboxes m)
    (hunread : ∀ {m j}, x'.Unread m j → x.Unread m j)
    (hqueued : ∀ j, x'.Queued j ↔ x.Queued j ∧ j ≠ id) (haddressed : h'.addressed = h.addressed)
    (hread : ∀ m ∈ x.members, ¬ x'.Unread m id)
    (hr : p.messages.get? id = some r) (hr' : r'.envelope = r.envelope) (hover : r'.state.isOver = true) :
    MailSim x' h' (p.setRecord id r') := by
  have hnot : r'.state ≠ .queued := by
    intro hq
    rw [hq] at hover
    cases hover
  have hrecord : (p.setRecord id r').mail = p.mail.withRecord id r' := rfl
  constructor
  case conversation_id => rw [hconfig]; exact s.conversation_id
  case parent_run_id => rw [hconfig]; exact s.parent_run_id
  case pool_id => rw [hconfig]; exact s.pool_id
  case members => exact s.members.trans hmembers.symm
  case ids => rw [hrecord, Mail.ids_withRecord hr, s.ids, hids]
  case envelopes => rw [hrecord, Mail.envelope?_withRecord hr hr', s.envelopes, henv]
  case boxes => rw [haddressed]; exact s.boxes
  case queued =>
    intro j hj
    rw [hrecord, Mail.queued_withRecord hnot, hqueued, s.queued fun hl => hj (hlapsed hl)]
  case settled =>
    intro j r₁ hr₁
    rw [show (p.setRecord id r').messages.get? j = _ from Dict.get?_set ..] at hr₁
    split at hr₁
    · cases hr₁
      exact .inr hover
    · exact s.settled hr₁
  case unread =>
    intro m j hm hj
    rw [hmembers] at hm
    refine (hqueued j).mpr ⟨s.unread hm (hunread hj), ?_⟩
    rintro rfl
    exact hread m hm hj
  case on_time =>
    intro m j hj
    rw [haddressed]
    exact (s.on_time (hbox m j hj)).imp_right hlapsed

end MailSim

/-! ## 4. The loop of `poll` -/

section

variable [LinearOrder τ] {m : String}

namespace Mail

variable {x : Mail τ} {id : String} {r r' : MessageRecord τ}

theorem lapsed_touch (x : Mail τ) (id : String) (r' : MessageRecord τ)
    (hr : x.messages.get? id = some r) (henv : r'.envelope = r.envelope) (t : τ) {j : String} (h : x.Lapsed j) : ((x.readAt t).withRecord id r').Lapsed j := by
  obtain ⟨e, he, u, hu, hexp⟩ := h
  have hsame : ((x.readAt t).withRecord id r').envelope? = x.envelope? := envelope?_withRecord hr henv
  exact ⟨e, by rw [hsame]; exact he, u, List.mem_append_left _ hu, hexp⟩

theorem unread_touch (x : Mail τ) (id : String) (r' : MessageRecord τ)
    (hr : x.messages.get? id = some r) (henv : r'.envelope = r.envelope)
    (hby : r'.acknowledged_by = r.acknowledged_by) {t : τ} {m j : String}
    (h : ((x.readAt t).withRecord id r').Unread m j) : x.Unread m j :=
  ⟨h.1, (Delivery.acknowledged_withRecord (x.readAt t) id r' hr hby (m ∉ ·) j).mp h.2.1, fun hl => h.2.2 (lapsed_touch x id r' hr henv t hl)⟩

theorem unread_withMailbox {ids ids' : List String} (hsub : ∀ j ∈ ids, j ∈ ids') {m m' j : String}
    (h : (x.withMailbox m ids).Unread m' j) : (x.withMailbox m ids').Unread m' j := by
  refine ⟨?_, h.2⟩
  have hbox := h.1
  by_cases hm : m' = m
  · subst hm
    rw [mailboxes_withMailbox_self] at hbox ⊢
    exact hsub j hbox
  · rw [mailboxes_withMailbox_ne _ _ hm] at hbox ⊢
    exact hbox

end Mail

theorem MailSim.shorten {x : Mail τ} {h : Traffic τ} {p : AgentMessageBroker τ}
    {ids' : List String} (s : MailSim (x.withMailbox m ids') h p) (ids : List String)
    (hsub : ∀ j ∈ ids, j ∈ ids') : MailSim (x.withMailbox m ids) h p := by
  refine s.drop rfl rfl rfl rfl id ?_ (Mail.unread_withMailbox hsub) fun _ => Iff.rfl
  intro m' j hj
  by_cases hm : m' = m
  · subst hm
    rw [Mail.mailboxes_withMailbox_self] at hj ⊢
    exact hsub j hj
  · rw [Mail.mailboxes_withMailbox_ne _ _ hm] at hj ⊢
    exact hj

/-- What a poll of the member hands out, nobody else could still read. -/
def HandsToOne (x : Mail τ) (m : String) (handed : List (AgentMessageEnvelope τ)) : Prop :=
  ∀ e ∈ handed, ∀ m' ∈ x.members, m' ≠ m → ¬ x.Unread m' e.message_id

theorem MailSim.drain (clock : Nat → τ) : ∀ (ids : List String) (room : Nat) (b : AgentMessageBroker τ)
    (h : Traffic τ) (p : AgentMessageBroker τ), ids.Nodup → b.pool_id.length ≤ 128 →
    (∀ {id e}, b.mail.envelope? id = some e → e.message_id = id) →
    MailSim (b.mail.withMailbox m ids) h p →
    HandsToOne b.mail m (AgentMessageBroker.drain m clock room ids b).2.1 →
    ∃ events, (AgentMessageBroker.drain m clock room ids b).1.journal = b.journal ++ events
      ∧ MailSim ((AgentMessageBroker.drain m clock room ids b).1.mail.withMailbox m
          (AgentMessageBroker.drain m clock room ids b).2.2)
        (h.handing m (AgentMessageBroker.drain m clock room ids b).2.1)
        (events.foldl AgentMessageBroker.rehydrateEvent p)
      ∧ (events.foldl AgentMessageBroker.rehydrateEvent p).questions = p.questions := by
  intro ids
  induction ids with
  | nil =>
    intro room b h p _ _ _ s _
    rw [AgentMessageBroker.drain_nil]
    exact ⟨[], (List.append_nil _).symm, by simpa using s, rfl⟩
  | cons id ids ih =>
    intro room b h p hnd hpool hown s hone
    cases room with
    | zero =>
      unfold AgentMessageBroker.drain
      exact ⟨[], (List.append_nil _).symm, by simpa using s, rfl⟩
    | succ room =>
      obtain ⟨hnot, hnd⟩ := List.nodup_cons.mp hnd
      have hshort := s.shorten ids fun j hj => List.mem_cons_of_mem _ hj
      unfold AgentMessageBroker.drain at hone ⊢
      cases hr : b.messages.get? id with
      | none =>
        rw [hr] at hone
        exact ih _ _ _ _ hnd hpool hown hshort hone
      | some r =>
        rw [hr] at hone
        dsimp only at hone ⊢
        by_cases hack : m ∈ r.acknowledged_by
        · rw [if_pos hack] at hone ⊢
          exact ih _ _ _ _ hnd hpool hown hshort hone
        · rw [if_neg hack] at hone ⊢
          have hsame : ∀ state : MessageState, ((b.readClock (clock b.readings.length)).setRecord id
              { r with state }).mail.envelope? = b.mail.envelope? :=
            fun _ => Mail.envelope?_withRecord (x := b.mail) hr rfl
          have hids : ∀ state : MessageState, ((b.readClock (clock b.readings.length)).setRecord id
              { r with state }).mail.ids = b.mail.ids :=
            fun _ => Mail.ids_withRecord (x := b.mail) hr
          have hback : ∀ {t : τ} {state : MessageState} {m' j : String},
              ((b.readClock t).setRecord id { r with state }).mail.Unread m' j →
              b.mail.Unread m' j := fun {t state m' j} h =>
            Mail.unread_touch b.mail id { r with state } hr rfl rfl h
          by_cases hexp : r.envelope.expired (clock b.readings.length) = true
          · rw [if_pos hexp] at hone ⊢
            refine ih _ ((b.readClock _).setRecord id { r with state := .expired }) _ _ hnd hpool
              (by rw [hsame]; exact hown) ?_ fun e he m' hm' hne hu => hone e he m' hm' hne (hback hu)
            -- the message has expired: in the replay it may stay queued
            have hl : ((b.mail.readAt (clock b.readings.length)).withRecord id
                { r with state := .expired }).Lapsed id := by
              have he := (congrFun (hsame .expired) id).trans
                (Mail.envelope?_of_get? hr)
              exact ⟨r.envelope, he, _, List.mem_append_right _ (List.mem_singleton_self _), hexp⟩
            refine hshort.drop rfl rfl (hids .expired) (hsame .expired)
              (Mail.lapsed_touch (b.mail.withMailbox m ids) id { r with state := .expired } hr rfl _)
              (fun m' j hj => hj) (fun hu => ?_) fun {j} hj => ?_
            · exact Mail.unread_touch (b.mail.withMailbox m ids) id { r with state := .expired } hr rfl rfl hu
            · have hq : ((b.mail.readAt (clock b.readings.length)).withRecord id
                  { r with state := .expired }).Queued j ↔ b.mail.Queued j ∧ j ≠ id :=
                Mail.queued_withRecord (by simp)
              exact hq.trans (and_iff_left fun hid => hj (hid ▸ hl))
          · rw [if_neg hexp] at hone ⊢
            obtain ⟨rp, hrp, hrpe⟩ : ∃ r', p.messages.get? id = some r' ∧ r'.envelope = r.envelope :=
              s.get? hr
            have hid : r.envelope.message_id = id := hown (Mail.envelope?_of_get? hr)
            have hsettled : MailSim (((b.mail.readAt (clock b.readings.length)).withRecord id
                { r with state := .delivered }).withMailbox m ids) (h.handing m [r.envelope])
                (p.setRecord id { rp with state := .delivered }) := by
              have hback' : ∀ {m' j : String}, (((b.mail.readAt (clock b.readings.length)).withRecord
                  id { r with state := .delivered }).withMailbox m ids).Unread m' j →
                  (b.mail.withMailbox m ids).Unread m' j := fun hu =>
                Mail.unread_touch (b.mail.withMailbox m ids) id { r with state := .delivered }
                  hr rfl rfl hu
              refine hshort.settle _ id _ rfl rfl (hids .delivered) (hsame .delivered)
                (Mail.lapsed_touch (b.mail.withMailbox m ids) id { r with state := .delivered } hr rfl _)
                (fun m' j hj => hj) hback' (fun j => ?_) rfl (fun m' hm' hu => ?_) hrp rfl rfl
              · have hq : ((b.mail.readAt (clock b.readings.length)).withRecord id
                    { r with state := .delivered }).Queued j ↔ b.mail.Queued j ∧ j ≠ id :=
                  Mail.queued_withRecord (by simp)
                exact hq
              · have hin := (hback' hu).1
                by_cases hm : m' = m
                · subst hm
                  rw [Mail.mailboxes_withMailbox_self] at hin
                  exact hnot hin
                · refine hone r.envelope List.mem_cons_self m' hm' hm ?_
                  rw [hid]
                  rw [Mail.mailboxes_withMailbox_ne _ _ hm] at hin
                  exact ⟨hin, (hback' hu).2⟩
            obtain ⟨events, hjournal, hsim, hquestions⟩ := ih room
              (((b.readClock (clock b.readings.length)).setRecord id
                { r with state := .delivered }).record (.agent_message_delivered id m)) _
              (p.setRecord id { rp with state := .delivered }) hnd hpool
              (fun he => hown (hsame .delivered ▸ he))
              hsettled fun e he m' hm' hne hu =>
                hone e (List.mem_cons_of_mem _ he) m' hm' hne (hback hu)
            have hevent : p.rehydrateEvent ⟨strTake 128 b.pool_id, .agent_message_delivered id m⟩
                = p.setRecord id { rp with state := .delivered } := by
              rw [strTake_eq_self.mpr hpool]
              exact AgentMessageBroker.rehydrateEvent_delivered s.pool_id.symm hrp
            refine ⟨⟨strTake 128 b.pool_id, .agent_message_delivered id m⟩ :: events, ?_, ?_, ?_⟩
            · rw [hjournal]
              exact List.append_assoc ..
            · rw [List.foldl_cons, hevent]
              rw [Delivery.handing_handing] at hsim
              exact hsim
            · rw [List.foldl_cons, hevent]
              exact hquestions

end

/-! ## 5. What one change of the questions keeps -/

namespace QuestionSim

variable {members : List String} {envelope? : String → Option (AgentMessageEnvelope τ)}
  {qs qs' qs₁' : Dict String (QuestionRecord τ)} {id : String} {q q₁ : QuestionRecord τ}

theorem of_pending (s : QuestionSim members envelope? qs qs') (hq : qs.get? id = some q)
    (hpending : q.status = "pending") : ∃ q', qs'.get? id = some q' ∧ q'.envelope = q.envelope
      ∧ q'.status = "pending" ∧ q'.answer = "" := by
  have hsame := s.same id
  rw [hq] at hsame
  generalize hq' : qs'.get? id = o at hsame
  cases hsame with
  | @same _ q' henvelope hstatus hanswer =>
    exact ⟨q', rfl, henvelope, hstatus.trans hpending, hanswer.trans (s.pending hq hpending).1⟩
  | orphan _ hstatus =>
    rw [hpending] at hstatus
    exact absurd hstatus (by decide)

/-- One question changes, in both or in the live broker only. -/
theorem set (s : QuestionSim members envelope? qs qs') (hq : qs.get? id = some q)
    (hid : q₁.question_id = q.question_id) (henvelope : q₁.envelope = q.envelope)
    (hother : ∀ j, id ≠ j → qs₁'.get? j = qs'.get? j)
    (hsame : SameQuestion (some q₁) (qs₁'.get? id))
    (hpending : q₁.status = "pending" → q₁.answer = "" ∧ q₁.HasParties members)
    (horphaned : q₁.status = "orphaned" → q₁.answer = "" ∧ ¬ q₁.HasParties members) :
    QuestionSim members envelope? (qs.set id q₁) qs₁' := by
  have hget : ∀ j, (qs.set id q₁).get? j = if id = j then some q₁ else qs.get? j :=
    fun j => Dict.get?_set qs id j q₁
  constructor
  case keyed =>
    intro j q₂ hq₂
    rw [hget] at hq₂
    split at hq₂
    · rename_i hj
      cases hq₂
      exact (hid.trans (s.keyed hq)).trans hj
    · exact s.keyed hq₂
  case known =>
    intro j q₂ hq₂
    rw [hget] at hq₂
    split at hq₂
    · rename_i hj
      cases hq₂
      rw [← hj, henvelope]
      exact s.known hq
    · exact s.known hq₂
  case same =>
    intro j
    rw [hget]
    split
    · rename_i hj
      rw [← hj]
      exact hsame
    · rename_i hj
      rw [hother j hj]
      exact s.same j
  case pending =>
    intro j q₂ hq₂
    rw [hget] at hq₂
    split at hq₂
    · cases hq₂
      exact hpending
    · exact s.pending hq₂
  case orphaned =>
    intro j q₂ hq₂
    rw [hget] at hq₂
    split at hq₂
    · cases hq₂
      exact horphaned
    · exact s.orphaned hq₂

/-- A change that the journal is not told: who waits, and who was told. -/
theorem touch (s : QuestionSim members envelope? qs qs') (hq : qs.get? id = some q)
    (hid : q₁.question_id = q.question_id) (henvelope : q₁.envelope = q.envelope)
    (hstatus : q₁.status = q.status) (hanswer : q₁.answer = q.answer) :
    QuestionSim members envelope? (qs.set id q₁) qs' := by
  have hparties : q₁.HasParties members ↔ q.HasParties members := by
    unfold QuestionRecord.HasParties
    rw [henvelope]
  refine s.set hq hid henvelope (fun _ _ => rfl) ?_ ?_ ?_
  · have hsame := s.same id
    rw [hq] at hsame
    generalize qs'.get? id = o at hsame
    cases hsame with
    | same h1 h2 h3 =>
      exact .same (h1.trans henvelope.symm) (h2.trans hstatus.symm) (h3.trans hanswer.symm)
    | orphan h1 h2 h3 h4 h5 =>
      exact .orphan (h1.trans henvelope.symm) (hstatus.trans h2) (hanswer.trans h3) h4 h5
  · intro hp
    rw [hanswer, hparties]
    exact s.pending hq (hstatus.symm.trans hp)
  · intro ho
    rw [hanswer, hparties]
    exact s.orphaned hq (hstatus.symm.trans ho)

theorem finish (s : QuestionSim members envelope? qs qs') (hq : qs.get? id = some q)
    {answer status : String} {q' : QuestionRecord τ} (henvelope : q'.envelope = q.envelope)
    (hover : status ≠ "pending" ∧ status ≠ "orphaned") :
    QuestionSim members envelope? (qs.set id (q.finish answer status))
      (qs'.set id { q' with status, answer }) := by
  refine s.set hq rfl rfl (fun j hj => Dict.get?_set_ne _ _ hj) ?_ (fun h => absurd h hover.1)
    (fun h => absurd h hover.2)
  rw [Dict.get?_set_self]
  exact .same henvelope rfl rfl

theorem start (s : QuestionSim members envelope? qs qs') (hid : q.question_id = id) (hknown : envelope? id = some q.envelope)
    (hstatus : q.status = "pending") (hanswer : q.answer = "") (hparties : q.HasParties members) :
    QuestionSim members envelope? (qs.set id q)
      (qs'.set id { question_id := id, envelope := q.envelope }) := by
  have hget : ∀ j, (qs.set id q).get? j = if id = j then some q else qs.get? j :=
    fun j => Dict.get?_set qs id j q
  constructor
  case keyed =>
    intro j q₂ hq₂
    rw [hget] at hq₂
    split at hq₂
    · rename_i hj
      cases hq₂
      exact hid.trans hj
    · exact s.keyed hq₂
  case known =>
    intro j q₂ hq₂
    rw [hget] at hq₂
    split at hq₂
    · rename_i hj
      cases hq₂
      rw [← hj]
      exact hknown
    · exact s.known hq₂
  case same =>
    intro j
    rw [hget, Dict.get?_set]
    split
    · exact .same rfl hstatus.symm hanswer.symm
    · exact s.same j
  case pending =>
    intro j q₂ hq₂ hp
    rw [hget] at hq₂
    split at hq₂
    · cases hq₂
      exact ⟨hanswer, hparties⟩
    · exact s.pending hq₂ hp
  case orphaned =>
    intro j q₂ hq₂ ho
    rw [hget] at hq₂
    split at hq₂
    · cases hq₂
      rw [hstatus] at ho
      exact absurd ho (by decide)
    · exact s.orphaned hq₂ ho

theorem members_change {members' : List String} (s : QuestionSim members envelope? qs qs')
    (hpending : ∀ {id q}, qs.get? id = some q → q.status = "pending" → q.HasParties members →
      q.HasParties members')
    (horphaned : ∀ {id q}, qs.get? id = some q → q.status = "orphaned" → ¬ q.HasParties members →
      ¬ q.HasParties members') : QuestionSim members' envelope? qs qs' where
  keyed := s.keyed
  known := s.known
  same := s.same
  pending hq hp := ⟨(s.pending hq hp).1, hpending hq hp (s.pending hq hp).2⟩
  orphaned hq ho := ⟨(s.orphaned hq ho).1, horphaned hq ho (s.orphaned hq ho).2⟩

theorem grow {envelope?' : String → Option (AgentMessageEnvelope τ)}
    (s : QuestionSim members envelope? qs qs')
    (hgrow : ∀ {id e}, envelope? id = some e → envelope?' id = some e) :
    QuestionSim members envelope?' qs qs' where
  keyed := s.keyed
  known hq := hgrow (s.known hq)
  same := s.same
  pending := s.pending
  orphaned := s.orphaned

end QuestionSim

end Agenthicc.Subagents
