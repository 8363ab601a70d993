/-
Agenthicc.Subagents.Delivery — what every operation of a broker keeps of its
messages and mailboxes.

`Delivery` holds in every run in which `uuid4` gives IDs it has not given
before. Its main part is `Filed`: the messages in the order they were sent are
cut in two; what a member got and what waits for it comes, in order, from
before the cut, and no queued message for it from before the cut is missing in
its mailbox. The cut of a member is at the end. That of a worker that left
stays where it was, so registering it again moves messages from behind the cut
only. A worker's own broadcasts are the exception: registering moves them too,
so the order leaves them out.
-/
import Agenthicc.Subagents.BrokerRuns

namespace Agenthicc.Subagents

open Python

/-! ## 1. Messages and mailboxes -/

/-- The part of a broker its messages live in. -/
structure Mail (τ : Type) extends BrokerConfig τ where
  members : List String
  messages : Dict String (MessageRecord τ)
  mailboxes : String → List String
  sequence : String → Nat
  readings : List τ

variable {τ : Type}

def AgentMessageBroker.mail (b : AgentMessageBroker τ) : Mail τ :=
  ⟨b.toBrokerConfig, b.members, b.messages, b.mailboxes, b.sequence, b.readings⟩

/-- A message for a member: not a broadcast of its own. -/
def AgentMessageEnvelope.IsFor (e : AgentMessageEnvelope τ) (m : String) : Prop :=
  e.recipient = m ∨ (e.recipient = "pool" ∧ e.sender ≠ m)

namespace Mail

/-- The IDs of the messages, in the order they were sent. -/
def ids (x : Mail τ) : List String := x.messages.items.map Prod.fst

def envelope? (x : Mail τ) (id : String) : Option (AgentMessageEnvelope τ) :=
  (x.messages.get? id).map (·.envelope)

def Queued (x : Mail τ) (id : String) : Prop :=
  ∃ r, x.messages.get? id = some r ∧ r.state = .queued

/-- The messages, in the order they were sent. -/
def envelopes (x : Mail τ) : List (AgentMessageEnvelope τ) := x.messages.values.map (·.envelope)

/-- A send with a correlation ID has passed the checks on its arguments and
made or found this message, which is the first to match it. -/
def Sent (x : Mail τ) (p : SendArgs τ × AgentMessageEnvelope τ) : Prop :=
  p.1.correlation_id ≠ "" → pyEq x.py (.obj p.1.payload.dict) (.obj p.1.payload.dict) = true →
    AgentMessageBroker.validIdentifier p.1.sender = true
      ∧ AgentMessageBroker.validIdentifier p.1.recipient = true
      ∧ p.1.kind ∈ MESSAGE_KINDS
      ∧ (String.ofList (rawDumps (.obj p.1.payload.dict))).utf8ByteSize ≤ x.max_message_bytes
      ∧ x.envelopes.find? (·.sameSend x.py p.1) = some p.2

/-- A broadcast of the member itself. -/
def ownBroadcast (x : Mail τ) (m id : String) : Bool :=
  match x.envelope? id with
  | none => false
  | some e => e.sender = m && e.recipient = "pool"

/-- The mail after one message was removed from the front of a mailbox. -/
def withMailbox (x : Mail τ) (m : String) (ids : List String) : Mail τ :=
  { x with mailboxes := fun m' => if m' = m then ids else x.mailboxes m' }

/-- The mail after the record of a message changed. -/
def withRecord (x : Mail τ) (id : String) (r : MessageRecord τ) : Mail τ :=
  { x with messages := x.messages.set id r }

/-- The messages in order, cut where a member's mailbox is complete. -/
def Filed (x : Mail τ) (h : Traffic τ) (m : String) : Prop :=
  ∃ pre post, x.ids = pre ++ post
    ∧ (((h.received m).map (·.message_id) ++ x.mailboxes m).filter
        fun id => !x.ownBroadcast m id).Sublist pre
    ∧ (∀ id ∈ pre, ∀ e, x.envelope? id = some e → x.Queued id → e.IsFor m → id ∈ x.mailboxes m)
    ∧ (m ∈ x.members → post = [])

/-- The mail after a message was compared with a reading of the clock. -/
def readAt (x : Mail τ) (now : τ) : Mail τ := { x with readings := x.readings ++ [now] }

variable {x x' : Mail τ} {id : String} {r r' : MessageRecord τ} {e : AgentMessageEnvelope τ}

theorem mem_ids_iff : id ∈ x.ids ↔ ∃ e, x.envelope? id = some e := by
  rw [ids, Dict.mem_keys_iff]
  constructor
  · rintro ⟨r, hr⟩
    exact ⟨r.envelope, by rw [envelope?, hr]; rfl⟩
  · rintro ⟨e, he⟩
    rw [envelope?, Option.map_eq_some_iff] at he
    obtain ⟨r, hr, -⟩ := he
    exact ⟨r, hr⟩

theorem envelope?_of_get? (h : x.messages.get? id = some r) : x.envelope? id = some r.envelope := by
  rw [envelope?, h]
  rfl

theorem envelopes_eq (x : Mail τ) : x.envelopes = x.ids.filterMap x.envelope? := by
  unfold envelopes Dict.values ids
  rw [List.filterMap_map, List.map_map, ← List.filterMap_eq_map]
  refine List.filterMap_congr fun p hp => ?_
  obtain ⟨id, r⟩ := p
  exact (envelope?_of_get? (Dict.mem_items_iff.mp hp)).symm

theorem sent_congr (hconfig : x'.toBrokerConfig = x.toBrokerConfig) (hids : x'.ids = x.ids)
    (henv : x'.envelope? = x.envelope?) {p : SendArgs τ × AgentMessageEnvelope τ} (h : x.Sent p) :
    x'.Sent p := by
  unfold Sent at h ⊢
  rw [envelopes_eq, hids, henv, ← envelopes_eq, hconfig]
  exact h

theorem ids_nodup (x : Mail τ) : x.ids.Nodup := x.messages.nodup

theorem Queued.mem_ids (h : x.Queued id) : id ∈ x.ids := by
  obtain ⟨r, hr, -⟩ := h
  exact mem_ids_iff.mpr ⟨_, envelope?_of_get? hr⟩

@[simp] theorem mailboxes_withMailbox_self (x : Mail τ) (m : String) (ids : List String) :
    (x.withMailbox m ids).mailboxes m = ids := if_pos rfl

theorem withMailbox_self (x : Mail τ) (m : String) : x.withMailbox m (x.mailboxes m) = x := by
  unfold withMailbox
  congr 1
  funext m'
  split
  · rename_i hm
    rw [hm]
  · rfl

theorem mailboxes_withMailbox_ne (x : Mail τ) {m m' : String} (ids : List String) (hm : m' ≠ m) :
    (x.withMailbox m ids).mailboxes m' = x.mailboxes m' := if_neg hm

/-! A record was set. -/

theorem get?_set (hx : x'.messages = x.messages.set id r) (j : String) :
    x'.messages.get? j = if id = j then some r else x.messages.get? j := by
  rw [hx]
  exact Dict.get?_set ..

theorem ids_set (hx : x'.messages = x.messages.set id r) (hfresh : x.messages.get? id = none) :
    x'.ids = x.ids ++ [id] := by
  unfold ids
  rw [hx, Dict.items_set_of_none _ hfresh, List.map_append]
  rfl

theorem envelope?_set (hx : x'.messages = x.messages.set id r) (j : String) :
    x'.envelope? j = if id = j then some r.envelope else x.envelope? j := by
  unfold envelope?
  rw [get?_set hx]
  split <;> rfl

theorem queued_set_ne (hx : x'.messages = x.messages.set id r) {j : String} (hj : id ≠ j) :
    x'.Queued j ↔ x.Queued j := by
  unfold Queued
  rw [get?_set hx, if_neg hj]

/-! A record that changed only in what has become of its message. -/

theorem ids_withRecord (h : x.messages.get? id = some r) : (x.withRecord id r').ids = x.ids :=
  Dict.keys_set_of_some r' h

theorem envelope?_withRecord (h : x.messages.get? id = some r) (he : r'.envelope = r.envelope) :
    (x.withRecord id r').envelope? = x.envelope? := by
  funext j
  by_cases hj : id = j
  · subst hj
    rw [envelope?_of_get? h, ← he]
    exact envelope?_of_get? (Dict.get?_set_self ..)
  · unfold envelope? withRecord
    rw [Dict.get?_set_ne _ _ hj]

theorem queued_withRecord {j : String} (hq : r'.state ≠ .queued) :
    (x.withRecord id r').Queued j ↔ x.Queued j ∧ j ≠ id := by
  unfold Queued withRecord
  simp only [Dict.get?_set]
  by_cases hj : id = j
  · subst hj
    simp [hq]
  · simp [hj, Ne.symm hj]

/-- The messages that registering a worker moves into its mailbox. -/
theorem mem_moved (x : Mail τ) {m : String} :
    id ∈ (x.messages.items.filter fun p =>
      (p.2.envelope.recipient = m || p.2.envelope.recipient = "pool")
        && p.2.state = .queued && p.1 ∉ x.mailboxes m).map Prod.fst
    ↔ (∃ e, x.envelope? id = some e ∧ (e.recipient = m ∨ e.recipient = "pool"))
      ∧ x.Queued id ∧ id ∉ x.mailboxes m := by
  rw [List.mem_map]
  constructor
  · rintro ⟨⟨j, r⟩, hp, rfl⟩
    rw [List.mem_filter] at hp
    obtain ⟨hin, hcond⟩ := hp
    have hr := Dict.mem_items_iff.mp hin
    simp only [Bool.and_eq_true, Bool.or_eq_true, decide_eq_true_eq] at hcond
    exact ⟨⟨_, Mail.envelope?_of_get? hr, hcond.1.1⟩, ⟨r, hr, hcond.1.2⟩, hcond.2⟩
  · rintro ⟨⟨e, he, hrec⟩, ⟨r, hr, hstate⟩, hbox⟩
    rw [envelope?_of_get? hr, Option.some.injEq] at he
    subst he
    refine ⟨(id, r), List.mem_filter.mpr ⟨Dict.mem_items_iff.mpr hr, ?_⟩, rfl⟩
    simp only [Bool.and_eq_true, Bool.or_eq_true, decide_eq_true_eq]
    exact ⟨⟨hrec, hstate⟩, hbox⟩

theorem ownBroadcast_congr (h : x'.envelope? = x.envelope?) : x'.ownBroadcast = x.ownBroadcast := by
  funext m j
  unfold ownBroadcast
  rw [h]

end Mail

/-! ## 2. The invariant -/

section

variable [LinearOrder τ]

structure Delivery (x : Mail τ) (h : Traffic τ) : Prop where
  members_valid : ∀ {m}, m ∈ x.members → AgentMessageBroker.validIdentifier m = true
  no_pool : "pool" ∉ x.members
  pool_empty : x.mailboxes "pool" = []
  own_id : ∀ {id e}, x.envelope? id = some e → e.message_id = id
  in_box : ∀ {m id}, id ∈ x.mailboxes m →
    ∃ e, x.envelope? id = some e ∧ (e.recipient = m ∨ e.recipient = "pool")
  box_nodup : ∀ m, (x.mailboxes m).Nodup
  received_over : ∀ {m e}, e ∈ h.received m →
    x.envelope? e.message_id = some e ∧ ¬ x.Queued e.message_id
      ∧ (e.recipient = m ∨ e.recipient = "pool")
  addressed : ∀ {m id}, id ∈ h.addressed m → ∃ e, x.envelope? id = some e ∧ e.IsFor m
  addressed_order : ∀ m, (h.addressed m).Sublist x.ids
  addressed_pool : h.addressed "pool" = []
  kept : ∀ {m id}, id ∈ h.addressed m → id ∈ x.mailboxes m
    ∨ id ∈ (h.received m).map (·.message_id) ∨ id ∈ h.acknowledged m
    ∨ ∃ e, x.envelope? id = some e ∧ ∃ t ∈ x.readings, e.expired t
  acknowledged : ∀ {m id}, id ∈ h.acknowledged m ↔
    ∃ r, x.messages.get? id = some r ∧ m ∈ r.acknowledged_by
  queued_unacknowledged : ∀ {m id}, x.Queued id → id ∉ h.acknowledged m
  sequences : x.ids.Pairwise fun i j => ∀ e e', x.envelope? i = some e → x.envelope? j = some e' →
    e.sender = e'.sender → e.sequence < e'.sequence
  sequence_le : ∀ {id e}, x.envelope? id = some e → e.sequence ≤ x.sequence e.sender
  sent : ∀ {p}, p ∈ h.sends → x.Sent p
  filed : ∀ m, x.Filed h m

namespace Delivery

variable {x x' : Mail τ} {h h' : Traffic τ} {m id : String} {rest : List String}

/-- A change that moves no message: members leave, messages get acknowledged. -/
theorem quiet (d : Delivery x h) (hconfig : x'.toBrokerConfig = x.toBrokerConfig)
    (hmembers : ∀ m ∈ x'.members, m ∈ x.members)
    (hbox : x'.mailboxes = x.mailboxes) (hsequence : x'.sequence = x.sequence)
    (hids : x'.ids = x.ids) (henv : x'.envelope? = x.envelope?)
    (hqueued : ∀ id, x'.Queued id → x.Queued id ∧ ∀ m, id ∈ h'.acknowledged m → id ∈ h.acknowledged m)
    (hreadings : x'.readings = x.readings) (haddressed : h'.addressed = h.addressed)
    (hreceived : h'.received = h.received) (hsends : h'.sends = h.sends)
    (hgrows : ∀ m id, id ∈ h.acknowledged m → id ∈ h'.acknowledged m)
    (hacked : ∀ m id, id ∈ h'.acknowledged m ↔
      ∃ r, x'.messages.get? id = some r ∧ m ∈ r.acknowledged_by) : Delivery x' h' where
  members_valid hm := d.members_valid (hmembers _ hm)
  no_pool hm := d.no_pool (hmembers _ hm)
  pool_empty := by rw [hbox]; exact d.pool_empty
  own_id he := d.own_id (by rwa [henv] at he)
  in_box hid := by
    rw [hbox] at hid
    rw [henv]
    exact d.in_box hid
  box_nodup := by rw [hbox]; exact d.box_nodup
  received_over he := by
    rw [hreceived] at he
    obtain ⟨h1, h2, h3⟩ := d.received_over he
    exact ⟨by rw [henv]; exact h1, fun hq => h2 (hqueued _ hq).1, h3⟩
  addressed hid := by
    rw [haddressed] at hid
    rw [henv]
    exact d.addressed hid
  addressed_order m := by
    rw [haddressed, hids]
    exact d.addressed_order m
  addressed_pool := by rw [haddressed]; exact d.addressed_pool
  kept hid := by
    rw [haddressed] at hid
    rw [hbox, hreceived, henv, hreadings]
    rcases d.kept hid with h1 | h1 | h1 | h1
    · exact .inl h1
    · exact .inr (.inl h1)
    · exact .inr (.inr (.inl (hgrows _ _ h1)))
    · exact .inr (.inr (.inr h1))
  acknowledged := hacked _ _
  queued_unacknowledged hq hid := d.queued_unacknowledged (hqueued _ hq).1 ((hqueued _ hq).2 _ hid)
  sequences := by
    rw [hids, henv]
    exact d.sequences
  sequence_le he := by
    rw [henv] at he
    rw [hsequence]
    exact d.sequence_le he
  sent hp := by
    rw [hsends] at hp
    exact Mail.sent_congr hconfig hids henv (d.sent hp)
  filed m := by
    obtain ⟨pre, post, hcut, hbefore, hall, hend⟩ := d.filed m
    refine ⟨pre, post, hids.trans hcut, ?_, fun j hj e he hq hfor => ?_, fun hm => ?_⟩
    · rw [hreceived, hbox, Mail.ownBroadcast_congr henv]
      exact hbefore
    · rw [hbox]
      exact hall j hj e (by rwa [henv] at he) (hqueued _ hq).1 hfor
    · exact hend (hmembers _ hm)

/-- One message leaves the front of a mailbox: it is handed out, or it was
acknowledged or expired. -/
theorem pop (d : Delivery x h) (x' : Mail τ) (handed : List (AgentMessageEnvelope τ))
    (hfront : x.mailboxes m = id :: rest)
    (hbox : x'.mailboxes = (x.withMailbox m rest).mailboxes)
    (hconfig : x'.toBrokerConfig = x.toBrokerConfig) (hmembers : x'.members = x.members)
    (hsequence : x'.sequence = x.sequence) (hids : x'.ids = x.ids)
    (henv : x'.envelope? = x.envelope?) (hqueued : ∀ j, x'.Queued j → x.Queued j ∧ j ≠ id)
    (hreadings : ∀ t ∈ x.readings, t ∈ x'.readings)
    (hacked : ∀ j m', (∃ r, x'.messages.get? j = some r ∧ m' ∈ r.acknowledged_by) ↔
      ∃ r, x.messages.get? j = some r ∧ m' ∈ r.acknowledged_by)
    (hhanded : (∃ e, x.envelope? id = some e ∧ handed = [e] ∧ ¬ x'.Queued id) ∨ handed = []
      ∧ (id ∈ h.acknowledged m ∨ ∃ e, x.envelope? id = some e ∧ ∃ t ∈ x'.readings, e.expired t)) :
    Delivery x' (h.handing m handed) := by
  have hne : m ≠ "pool" := by
    intro hm
    rw [hm, d.pool_empty] at hfront
    cases hfront
  have hsub : ∀ m', ∀ j ∈ x'.mailboxes m', j ∈ x.mailboxes m' := by
    intro m' j hj
    rw [hbox] at hj
    by_cases hm : m' = m
    · subst hm
      rw [Mail.mailboxes_withMailbox_self] at hj
      rw [hfront]
      exact List.mem_cons_of_mem _ hj
    · rwa [Mail.mailboxes_withMailbox_ne _ _ hm] at hj
  have hidm : id ∈ x.mailboxes m := by
    rw [hfront]
    exact List.mem_cons_self
  constructor
  case members_valid => rw [hmembers]; exact d.members_valid
  case no_pool => rw [hmembers]; exact d.no_pool
  case pool_empty =>
    rw [hbox, Mail.mailboxes_withMailbox_ne _ _ hne.symm]
    exact d.pool_empty
  case own_id => intro j e he; exact d.own_id (by rwa [henv] at he)
  case in_box =>
    intro m' j hj
    rw [henv]
    exact d.in_box (hsub m' j hj)
  case box_nodup =>
    intro m'
    rw [hbox]
    have hnd := d.box_nodup m'
    by_cases hm : m' = m
    · subst hm
      rw [hfront] at hnd
      rw [Mail.mailboxes_withMailbox_self]
      exact (List.nodup_cons.mp hnd).2
    · rw [Mail.mailboxes_withMailbox_ne _ _ hm]
      exact hnd
  case received_over =>
    intro m' e he
    unfold Traffic.handing at he
    dsimp only at he
    have hold : ∀ e ∈ h.received m', x'.envelope? e.message_id = some e
        ∧ ¬ x'.Queued e.message_id ∧ (e.recipient = m' ∨ e.recipient = "pool") := by
      intro e he
      obtain ⟨h1, h2, h3⟩ := d.received_over he
      exact ⟨by rw [henv]; exact h1, fun hq => h2 (hqueued _ hq).1, h3⟩
    split at he
    · rename_i hm
      subst hm
      rcases List.mem_append.mp he with hin | hin
      · exact hold e hin
      · rcases hhanded with ⟨e', he', rfl, hnq⟩ | ⟨rfl, -⟩
        · rw [List.mem_singleton] at hin
          subst hin
          have hid := d.own_id he'
          obtain ⟨e', hboxed, hrec⟩ := d.in_box hidm
          rw [he', Option.some.injEq] at hboxed
          subst hboxed
          rw [hid, henv]
          exact ⟨he', hnq, hrec⟩
        · cases hin
    · exact hold e he
  case addressed =>
    intro m' j hj
    rw [henv]
    exact d.addressed hj
  case addressed_order => intro m'; rw [hids]; exact d.addressed_order m'
  case addressed_pool => exact d.addressed_pool
  case kept =>
    intro m' j hj
    rw [henv]
    by_cases hm : m' = m
    · subst hm
      rw [Traffic.received_handing_self]
      rcases d.kept hj with h1 | h1 | h1 | ⟨e, he, t, ht, hexp⟩
      · rw [hfront, List.mem_cons] at h1
        rcases h1 with rfl | h1
        · rcases hhanded with ⟨e', he', rfl, -⟩ | ⟨-, hgone⟩
          · right; left
            rw [List.map_append, List.mem_append]
            right
            simp [d.own_id he']
          · exact .inr (.inr hgone)
        · left
          rw [hbox, Mail.mailboxes_withMailbox_self]
          exact h1
      · right; left
        rw [List.map_append, List.mem_append]
        exact .inl h1
      · exact .inr (.inr (.inl h1))
      · exact .inr (.inr (.inr ⟨e, he, t, hreadings t ht, hexp⟩))
    · rw [Traffic.received_handing_ne _ hm]
      rcases d.kept hj with h1 | h1 | h1 | ⟨e, he, t, ht, hexp⟩
      · left
        rw [hbox, Mail.mailboxes_withMailbox_ne _ _ hm]
        exact h1
      · exact .inr (.inl h1)
      · exact .inr (.inr (.inl h1))
      · exact .inr (.inr (.inr ⟨e, he, t, hreadings t ht, hexp⟩))
  case acknowledged => intro m' j; rw [hacked]; exact d.acknowledged
  case queued_unacknowledged => intro m' j hq; exact d.queued_unacknowledged (hqueued j hq).1
  case sequences => rw [hids, henv]; exact d.sequences
  case sequence_le =>
    intro j e he
    rw [henv] at he
    rw [hsequence]
    exact d.sequence_le he
  case sent => intro p hp; exact Mail.sent_congr hconfig hids henv (d.sent hp)
  case filed =>
    intro m'
    obtain ⟨pre, post, hcut, hbefore, hall, hend⟩ := d.filed m'
    refine ⟨pre, post, hids.trans hcut, ?_, ?_, fun hm => hend (by rwa [hmembers] at hm)⟩
    · rw [Mail.ownBroadcast_congr henv]
      refine List.Sublist.trans (List.Sublist.filter _ ?_) hbefore
      rw [hbox]
      by_cases hm : m' = m
      · subst hm
        rw [Traffic.received_handing_self, Mail.mailboxes_withMailbox_self, hfront, List.map_append, List.append_assoc]
        refine List.Sublist.append_left ?_ _
        rcases hhanded with ⟨e', he', rfl, -⟩ | ⟨rfl, -⟩
        · rw [List.map_singleton, d.own_id he', List.singleton_append]
        · exact List.sublist_cons_self id rest
      · rw [Mail.mailboxes_withMailbox_ne _ _ hm, Traffic.received_handing_ne _ hm]
    · intro j hj e he hq hfor
      rw [henv] at he
      obtain ⟨hq, hjid⟩ := hqueued j hq
      have hin := hall j hj e he hq hfor
      rw [hbox]
      by_cases hm : m' = m
      · subst hm
        rw [hfront, List.mem_cons] at hin
        rw [Mail.mailboxes_withMailbox_self]
        exact hin.resolve_left hjid
      · rw [Mail.mailboxes_withMailbox_ne _ _ hm]
        exact hin

/-- A new message goes to the end of the mailboxes of its targets. -/
theorem put (d : Delivery x h) (x' : Mail τ) (id : String) (e : AgentMessageEnvelope τ)
    (targets : List String) (hfresh : x.messages.get? id = none) (hid : e.message_id = id)
    (hsequence : e.sequence = x.sequence e.sender + 1)
    (htargets : targets = if e.recipient = "pool" then x.members.filter (· ≠ e.sender)
      else [e.recipient])
    (hmember : e.recipient ≠ "pool" → e.recipient ∈ x.members)
    (hx' : x' = { x with
      messages := x.messages.set id { envelope := e, state := .queued }
      mailboxes := fun m => if m ∈ targets then x.mailboxes m ++ [id] else x.mailboxes m
      sequence := fun s => if s = e.sender then x.sequence s + 1 else x.sequence s }) :
    Delivery x' { h with addressed := fun m =>
      if m ∈ targets then h.addressed m ++ [id] else h.addressed m } := by
  have hmem : ∀ m, m ∈ targets ↔ m ∈ x.members ∧ e.IsFor m := by
    intro m
    rw [htargets]
    unfold AgentMessageEnvelope.IsFor
    by_cases hp : e.recipient = "pool"
    · rw [if_pos hp, List.mem_filter, decide_eq_true_iff]
      constructor
      · rintro ⟨hm, hne⟩
        exact ⟨hm, .inr ⟨hp, Ne.symm hne⟩⟩
      · rintro ⟨hm, hto | ⟨-, hne⟩⟩
        · exact absurd ((hto.symm.trans hp) ▸ hm) d.no_pool
        · exact ⟨hm, Ne.symm hne⟩
    · rw [if_neg hp, List.mem_singleton]
      constructor
      · rintro rfl
        exact ⟨hmember hp, .inl rfl⟩
      · rintro ⟨-, hto | ⟨hto, -⟩⟩
        · exact hto.symm
        · exact absurd hto hp
  have hset : x'.messages = x.messages.set id { envelope := e, state := .queued } := by rw [hx']
  have hids := Mail.ids_set hset hfresh
  have hget := Mail.get?_set hset
  have henv : ∀ j, x'.envelope? j = if id = j then some e else x.envelope? j :=
    Mail.envelope?_set hset
  have hnone : x.envelope? id = none := by
    unfold Mail.envelope?
    rw [hfresh]
    rfl
  have hold : ∀ {j e'}, x.envelope? j = some e' → id ≠ j ∧ x'.envelope? j = some e' := by
    intro j e' he
    have hne : id ≠ j := by
      rintro rfl
      rw [hnone] at he
      cases he
    exact ⟨hne, by rw [henv, if_neg hne]; exact he⟩
  have hqueued : ∀ {j}, id ≠ j → (x'.Queued j ↔ x.Queued j) := Mail.queued_set_ne hset
  have hbox : ∀ m, x'.mailboxes m = if m ∈ targets then x.mailboxes m ++ [id] else x.mailboxes m := by
    intro m
    rw [hx']
  have hpool : "pool" ∉ targets := fun hm => d.no_pool ((hmem _).mp hm).1
  have hmembers : x'.members = x.members := by rw [hx']
  constructor
  case members_valid => rw [hmembers]; exact d.members_valid
  case no_pool => rw [hmembers]; exact d.no_pool
  case pool_empty => rw [hbox, if_neg hpool]; exact d.pool_empty
  case own_id =>
    intro j e' he
    rw [henv] at he
    split at he
    · rename_i hj
      cases he
      exact hid.trans hj
    · exact d.own_id he
  case in_box =>
    intro m j hj
    rw [hbox] at hj
    have hbefore : j ∈ x.mailboxes m →
        ∃ e, x'.envelope? j = some e ∧ (e.recipient = m ∨ e.recipient = "pool") := by
      intro hj
      obtain ⟨e', he', hrec⟩ := d.in_box hj
      exact ⟨e', (hold he').2, hrec⟩
    split at hj
    · rename_i hm
      rcases List.mem_append.mp hj with hj | hj
      · exact hbefore hj
      · rw [List.mem_singleton] at hj
        subst hj
        refine ⟨e, by rw [henv, if_pos rfl], ?_⟩
        exact ((hmem m).mp hm).2.imp id And.left
    · exact hbefore hj
  case box_nodup =>
    intro m
    rw [hbox]
    split
    · refine List.nodup_append.mpr ⟨d.box_nodup m, List.nodup_singleton _, ?_⟩
      intro j hj j' hj' heq
      obtain ⟨e', he', -⟩ := d.in_box hj
      exact (hold he').1 ((List.mem_singleton.mp hj').symm.trans heq.symm)
    · exact d.box_nodup m
  case received_over =>
    intro m e' he
    obtain ⟨h1, h2, h3⟩ := d.received_over he
    exact ⟨(hold h1).2, fun hq => h2 ((hqueued (hold h1).1).mp hq), h3⟩
  case addressed =>
    intro m j hj
    dsimp only at hj
    split at hj
    · rename_i hm
      rcases List.mem_append.mp hj with hj | hj
      · obtain ⟨e', he', hfor⟩ := d.addressed hj
        exact ⟨e', (hold he').2, hfor⟩
      · rw [List.mem_singleton] at hj
        subst hj
        exact ⟨e, by rw [henv, if_pos rfl], ((hmem m).mp hm).2⟩
    · obtain ⟨e', he', hfor⟩ := d.addressed hj
      exact ⟨e', (hold he').2, hfor⟩
  case addressed_order =>
    intro m
    rw [hids]
    dsimp only
    split
    · exact List.Sublist.append (d.addressed_order m) (List.Sublist.refl _)
    · exact (d.addressed_order m).trans (List.sublist_append_left _ _)
  case addressed_pool => exact (if_neg hpool).trans d.addressed_pool
  case kept =>
    intro m j hj
    have hbefore : j ∈ h.addressed m → j ∈ x'.mailboxes m
        ∨ j ∈ (h.received m).map (·.message_id) ∨ j ∈ h.acknowledged m
        ∨ ∃ e, x'.envelope? j = some e ∧ ∃ t ∈ x'.readings, e.expired t := by
      intro hj
      rcases d.kept hj with h1 | h1 | h1 | ⟨e', he', t, ht, hexp⟩
      · left
        rw [hbox]
        split
        · exact List.mem_append_left _ h1
        · exact h1
      · exact .inr (.inl h1)
      · exact .inr (.inr (.inl h1))
      · exact .inr (.inr (.inr ⟨e', (hold he').2, t, by rw [hx']; exact ht, hexp⟩))
    dsimp only at hj
    split at hj
    · rename_i hm
      rcases List.mem_append.mp hj with hj | hj
      · exact hbefore hj
      · left
        rw [hbox, if_pos hm]
        exact List.mem_append_right _ hj
    · exact hbefore hj
  case acknowledged =>
    intro m j
    rw [hget]
    split
    · rename_i hj
      subst hj
      constructor
      · intro hacked
        obtain ⟨r, hr, -⟩ := d.acknowledged.mp hacked
        rw [hfresh] at hr
        cases hr
      · rintro ⟨r, hr, hm⟩
        cases hr
        cases hm
    · exact d.acknowledged
  case queued_unacknowledged =>
    intro m j hq hacked
    by_cases hj : id = j
    · subst hj
      obtain ⟨r, hr, -⟩ := d.acknowledged.mp hacked
      rw [hfresh] at hr
      cases hr
    · exact d.queued_unacknowledged ((hqueued hj).mp hq) hacked
  case sequences =>
    rw [hids, List.pairwise_append]
    refine ⟨?_, List.pairwise_singleton _ _, ?_⟩
    · refine d.sequences.imp_of_mem fun {i j} hi hj hlt e1 e2 he1 he2 => ?_
      obtain ⟨e1', he1'⟩ := Mail.mem_ids_iff.mp hi
      obtain ⟨e2', he2'⟩ := Mail.mem_ids_iff.mp hj
      rw [henv, if_neg (hold he1').1] at he1
      rw [henv, if_neg (hold he2').1] at he2
      exact hlt e1 e2 he1 he2
    · intro i hi j hj e1 e2 he1 he2 hsender
      rw [List.mem_singleton] at hj
      subst hj
      obtain ⟨e1', he1'⟩ := Mail.mem_ids_iff.mp hi
      rw [henv, if_neg (hold he1').1] at he1
      rw [henv, if_pos rfl, Option.some.injEq] at he2
      subst he2
      have hle := d.sequence_le he1
      rw [hsender] at hle
      omega
  case sequence_le =>
    intro j e' he
    rw [henv] at he
    rw [hx']
    dsimp only
    split at he
    · cases he
      rw [if_pos rfl]
      omega
    · have hle := d.sequence_le he
      split
      · rename_i hs
        rw [hs] at hle ⊢
        omega
      · exact hle
  case sent =>
    intro p hp hcorr hself
    have hconfig : x'.toBrokerConfig = x.toBrokerConfig := by rw [hx']
    have hgrows : x'.envelopes = x.envelopes ++ [e] := by
      rw [Mail.envelopes_eq, Mail.envelopes_eq, hids, List.filterMap_append]
      congr 1
      · refine List.filterMap_congr fun j hj => ?_
        obtain ⟨e', he'⟩ := Mail.mem_ids_iff.mp hj
        rw [henv, if_neg (hold he').1]
      · rw [List.filterMap_cons, henv, if_pos rfl]
        rfl
    rw [hconfig] at hself ⊢
    obtain ⟨h1, h2, h3, h4, h5⟩ := d.sent hp hcorr hself
    refine ⟨h1, h2, h3, h4, ?_⟩
    rw [hgrows, List.find?_append, h5]
    rfl
  case filed =>
    intro m
    have hown : ∀ j ∈ x.ids, x'.ownBroadcast m j = x.ownBroadcast m j := by
      intro j hj
      obtain ⟨e', he'⟩ := Mail.mem_ids_iff.mp hj
      unfold Mail.ownBroadcast
      rw [henv, if_neg (hold he').1]
    obtain ⟨pre, post, hcut, hbefore, hall, hend⟩ := d.filed m
    have hsub : ((((h.received m).map (·.message_id)) ++ x.mailboxes m).filter
        fun j => !x'.ownBroadcast m j).Sublist pre := by
      refine Eq.subst (motive := (List.Sublist · pre)) (List.filter_congr ?_) hbefore
      intro j hj
      rw [hown j]
      rcases List.mem_append.mp hj with hj | hj
      · obtain ⟨e', he', rfl⟩ := List.mem_map.mp hj
        exact Mail.mem_ids_iff.mpr ⟨e', (d.received_over he').1⟩
      · obtain ⟨e', he', -⟩ := d.in_box hj
        exact Mail.mem_ids_iff.mpr ⟨e', he'⟩
    by_cases hm : m ∈ x.members
    · -- the mailbox of a member is complete up to the new message
      obtain rfl := hend hm
      rw [List.append_nil] at hcut
      refine ⟨pre ++ [id], [], ?_, ?_, ?_, fun _ => rfl⟩
      · rw [hids, hcut, List.append_nil]
      · rw [hbox]
        split
        · rw [← List.append_assoc, List.filter_append]
          exact List.Sublist.append hsub List.filter_sublist
        · exact hsub.trans (List.sublist_append_left _ _)
      · intro j hj e' he' hq hfor
        rw [hbox]
        rcases List.mem_append.mp hj with hj | hj
        · have hne : id ≠ j := by
            rintro rfl
            obtain ⟨e1, he1⟩ := Mail.mem_ids_iff.mp (hcut ▸ hj)
            exact (hold he1).1 rfl
          rw [henv, if_neg hne] at he'
          have hin := hall j hj e' he' ((hqueued hne).mp hq) hfor
          split
          · exact List.mem_append_left _ hin
          · exact hin
        · rw [List.mem_singleton] at hj
          subst hj
          rw [henv, if_pos rfl, Option.some.injEq] at he'
          subst he'
          rw [if_pos ((hmem m).mpr ⟨hm, hfor⟩)]
          exact List.mem_append_right _ (List.mem_singleton_self _)
    · have hnot : m ∉ targets := fun hin => hm ((hmem m).mp hin).1
      refine ⟨pre, post ++ [id], ?_, ?_, ?_, fun hin => absurd (hmembers ▸ hin) hm⟩
      · rw [hids, hcut, List.append_assoc]
      · rw [hbox, if_neg hnot]
        exact hsub
      · intro j hj e' he' hq hfor
        have hin : j ∈ x.ids := by
          rw [hcut]
          exact List.mem_append_left _ hj
        obtain ⟨e1, he1⟩ := Mail.mem_ids_iff.mp hin
        have hne := (hold he1).1
        rw [henv, if_neg hne] at he'
        rw [hbox, if_neg hnot]
        exact hall j hj e' he' ((hqueued hne).mp hq) hfor

/-- A registered worker gets the queued messages for it that its mailbox
lacks. -/
theorem join (d : Delivery x h) (hpool : m ≠ "pool")
    (hvalid : AgentMessageBroker.validIdentifier m = true) {moved : List String}
    (hmoved : moved = (x.messages.items.filter fun p =>
      (p.2.envelope.recipient = m || p.2.envelope.recipient = "pool")
        && p.2.state = .queued && p.1 ∉ x.mailboxes m).map Prod.fst)
    (hx' : x' = { x with
      members := if m ∈ x.members then x.members else x.members ++ [m]
      mailboxes := fun m' => if m' = m then x.mailboxes m' ++ moved else x.mailboxes m' }) :
    Delivery x' h := by
  have hmem : ∀ id, id ∈ moved ↔ (∃ e, x.envelope? id = some e
      ∧ (e.recipient = m ∨ e.recipient = "pool")) ∧ x.Queued id ∧ id ∉ x.mailboxes m := by
    intro id
    rw [hmoved]
    exact x.mem_moved
  have hsub : moved.Sublist x.ids := by
    rw [hmoved]
    exact List.Sublist.map _ List.filter_sublist
  have hbox : ∀ m', x'.mailboxes m' = if m' = m then x.mailboxes m' ++ moved else x.mailboxes m' := by
    intro m'
    rw [hx']
  have hmessages : x'.messages = x.messages := by rw [hx']
  have hids : x'.ids = x.ids := by unfold Mail.ids; rw [hmessages]
  have henv : x'.envelope? = x.envelope? := by unfold Mail.envelope?; rw [hmessages]
  have hqueued : ∀ id, x'.Queued id ↔ x.Queued id := by unfold Mail.Queued; simp [hmessages]
  have hgrows : ∀ {m' j}, j ∈ x.mailboxes m' → j ∈ x'.mailboxes m' := by
    intro m' j hj
    rw [hbox]
    split
    · exact List.mem_append_left _ hj
    · exact hj
  constructor
  case members_valid =>
    intro m' hm
    rw [hx'] at hm
    dsimp only at hm
    split at hm
    · exact d.members_valid hm
    · rcases List.mem_append.mp hm with hm | hm
      · exact d.members_valid hm
      · rw [List.mem_singleton.mp hm]
        exact hvalid
  case no_pool =>
    rw [hx']
    dsimp only
    split
    · exact d.no_pool
    · rw [List.mem_append, List.mem_singleton, not_or]
      exact ⟨d.no_pool, hpool.symm⟩
  case pool_empty => rw [hbox, if_neg hpool.symm]; exact d.pool_empty
  case own_id => rw [henv]; exact d.own_id
  case in_box =>
    intro m' j hj
    rw [hbox] at hj
    rw [henv]
    split at hj
    · rename_i hm
      subst hm
      rcases List.mem_append.mp hj with hj | hj
      · exact d.in_box hj
      · exact ((hmem j).mp hj).1
    · exact d.in_box hj
  case box_nodup =>
    intro m'
    rw [hbox]
    split
    · rename_i hm
      subst hm
      refine List.nodup_append.mpr ⟨d.box_nodup m', x.ids_nodup.sublist hsub, ?_⟩
      intro j hj j' hj' heq
      exact ((hmem j').mp hj').2.2 (heq ▸ hj)
    · exact d.box_nodup m'
  case received_over =>
    intro m' e he
    rw [henv, hqueued]
    exact d.received_over he
  case addressed => rw [henv]; exact d.addressed
  case addressed_order => rw [hids]; exact d.addressed_order
  case addressed_pool => exact d.addressed_pool
  case kept =>
    intro m' j hj
    rw [henv, hx']
    rw [hx'] at hgrows
    exact (d.kept hj).imp_left hgrows
  case acknowledged => rw [hmessages]; exact d.acknowledged
  case queued_unacknowledged =>
    intro m' j hq
    exact d.queued_unacknowledged ((hqueued j).mp hq)
  case sequences => rw [hids, henv]; exact d.sequences
  case sequence_le => rw [henv, hx']; exact d.sequence_le
  case sent => intro p hp; exact Mail.sent_congr (by rw [hx']) hids henv (d.sent hp)
  case filed =>
    intro m'
    obtain ⟨pre, post, hcut, hbefore, hall, hend⟩ := d.filed m'
    by_cases hm : m' = m
    · subst hm
      refine ⟨x.ids, [], by rw [hids, List.append_nil], ?_, ?_, fun _ => rfl⟩
      · rw [Mail.ownBroadcast_congr henv, hbox, if_pos rfl, ← List.append_assoc,
          List.filter_append, hcut]
        refine List.Sublist.append hbefore ?_
        -- what is moved comes from behind the cut
        have hpost : (x.ids.filter fun j => decide (j ∈ moved) && !x.ownBroadcast m' j)
            = post.filter fun j => decide (j ∈ moved) && !x.ownBroadcast m' j := by
          rw [hcut, List.filter_append, List.filter_eq_nil_iff.mpr, List.nil_append]
          intro j hj hcond
          rw [Bool.and_eq_true, decide_eq_true_eq, Bool.not_eq_true'] at hcond
          obtain ⟨⟨e, he, hrec⟩, hq, hnot⟩ := (hmem j).mp hcond.1
          have hfor : e.IsFor m' := by
            refine hrec.imp id fun hp => ⟨hp, fun hs => ?_⟩
            have hown := hcond.2
            unfold Mail.ownBroadcast at hown
            rw [he] at hown
            simp [hs, hp] at hown
          exact hnot (hall j hj e he hq hfor)
        have hfilter : (moved.filter fun j => !x.ownBroadcast m' j).Sublist
            (x.ids.filter fun j => decide (j ∈ moved) && !x.ownBroadcast m' j) := by
          have hself : moved.filter (fun j => !x.ownBroadcast m' j)
              = moved.filter fun j => decide (j ∈ moved) && !x.ownBroadcast m' j := by
            refine List.filter_congr fun j hj => ?_
            rw [decide_eq_true hj, Bool.true_and]
          rw [hself]
          exact List.Sublist.filter _ hsub
        rw [hpost] at hfilter
        exact hfilter.trans List.filter_sublist
      · intro j hj e he hq hfor
        rw [henv] at he
        rw [hqueued] at hq
        rw [hbox, if_pos rfl, List.mem_append]
        by_cases hin : j ∈ x.mailboxes m'
        · exact .inl hin
        · exact .inr ((hmem j).mpr ⟨⟨e, he, hfor.imp id And.left⟩, hq, hin⟩)
    · refine ⟨pre, post, hids.trans hcut, ?_, ?_, fun hin => hend ?_⟩
      · rw [Mail.ownBroadcast_congr henv, hbox, if_neg hm]
        exact hbefore
      · intro j hj e he hq hfor
        rw [hbox, if_neg hm]
        exact hall j hj e (by rwa [henv] at he) ((hqueued j).mp hq) hfor
      · rw [hx'] at hin
        dsimp only at hin
        split at hin
        · exact hin
        · exact (List.mem_append.mp hin).resolve_right
            fun hs => hm (List.mem_singleton.mp hs)

end Delivery

end

/-! ## 3. What an operation does to the mail -/

namespace AgentMessageBroker

variable {b : AgentMessageBroker τ}

theorem check_ok_iff {c : Prop} [Decidable c] {message : String} {x : Except String Unit} :
    (if c then throw message else x) = .ok () ↔ ¬ c ∧ x = .ok () := by
  split
  · rename_i h
    simp [h, throw, throwThe, MonadExceptOf.throw]
  · rename_i h
    simp [h]

theorem andThen_ok_iff {x y : Except String Unit} :
    (x >>= fun _ => y) = .ok () ↔ x = .ok () ∧ y = .ok () := by
  cases x <;> simp [bind, Except.bind]

theorem validateRecipient_iff {m : String} : b.validateRecipient m = .ok () ↔
    validIdentifier m = true ∧ (m = "pool" ∨ m ∈ b.members) := by
  unfold validateRecipient
  simp only [check_ok_iff, Bool.not_eq_true', Bool.not_eq_false, not_and, not_not, pure,
    Except.pure, and_true, or_iff_not_imp_left, ne_eq]

/-- What `_send_locked` checks before it looks for an earlier send. -/
theorem checkSend_iff {a : SendArgs τ} : b.checkSend a = .ok () ↔
    (validIdentifier a.sender = true ∧ a.sender ∈ b.members)
    ∧ (validIdentifier a.recipient = true ∧ (a.recipient = "pool" ∨ a.recipient ∈ b.members))
    ∧ a.kind ∈ MESSAGE_KINDS
    ∧ (String.ofList (rawDumps (.obj a.payload.dict))).utf8ByteSize ≤ b.max_message_bytes
    ∧ (a.recipient = "pool" → b.targets a.sender a.recipient ≠ [])
    ∧ ∀ m ∈ b.targets a.sender a.recipient,
      ((b.mailboxes m).length : Int) < b.max_mailbox_messages := by
  unfold checkSend validateSender validateRecipient
  simp only [andThen_ok_iff, check_ok_iff, Bool.not_eq_true', Bool.not_eq_false, not_and, not_not,
    not_exists, not_lt, not_le, pure, Except.pure, and_true, or_iff_not_imp_left, ne_eq]

/-! Questions and waits move no message. -/

theorem finishQuestion_mail [LinearOrder τ] (q : QuestionRecord τ) (answer status : String) (now : τ) :
    (b.finishQuestion q answer status now).mail = b.mail := by
  unfold finishQuestion
  dsimp only
  split <;> rfl

theorem finishQuestions_mail [LinearOrder τ] (ends : QuestionRecord τ → Bool) (status : String)
    (event : Option (QuestionProjection τ → BrokerEvent τ)) (clock : Nat → τ) :
    ∀ (ids : List (String × Nat)) (b : AgentMessageBroker τ),
      (finishQuestions ends status event clock ids b).mail = b.mail
  | [], b => rfl
  | (id, i) :: ids, b => by
      unfold finishQuestions
      split
      · exact finishQuestions_mail ends status event clock ids b
      · split
        · rw [finishQuestions_mail ends status event clock ids]
          cases event <;> exact finishQuestion_mail ..
        · exact finishQuestions_mail ends status event clock ids b

theorem answerQuestion_mail [LinearOrder τ] (answerer questionId answer : String) (now : τ) :
    (b.answerQuestion answerer questionId answer now).1.mail = b.mail := by
  unfold answerQuestion
  split
  · rfl
  · split
    · rfl
    · dsimp only
      split
      · rfl
      · split
        · rfl
        · exact finishQuestion_mail ..

theorem beginWait_mail (questionId : String) : (b.beginWait questionId).1.mail = b.mail := by
  unfold beginWait
  split
  · rfl
  · split
    · rfl
    · split
      · rfl
      · split <;> rfl

theorem endWait_mail (questionId : String) : (b.endWait questionId).mail = b.mail := by
  unfold endWait
  split <;> rfl

theorem cancelFuture_mail (questionId : String) : (b.cancelFuture questionId).mail = b.mail := by
  unfold cancelFuture
  split
  · rfl
  · split <;> rfl

theorem expireQuestion_mail [LinearOrder τ] (questionId : String) (now : τ) :
    (b.expireQuestion questionId now).mail = b.mail := by
  unfold expireQuestion
  split
  · rfl
  · split
    · exact finishQuestion_mail ..
    · rfl

theorem unregisterWorker_mail [LinearOrder τ] (workerId reason : String) (clock : Nat → τ) :
    (b.unregisterWorker workerId reason clock).mail
      = { b.mail with members := b.members.filter (· ≠ workerId) } :=
  finishQuestions_mail ..

/-- Registering a worker is refused, or moves the queued messages for it that
its mailbox lacks. -/
theorem registerWorker_cases (workerId : String) :
    (b.registerWorker workerId).1 = b
    ∨ (workerId ≠ "main" ∧ workerId ≠ "pool") ∧ validIdentifier workerId = true ∧ b.closed = false
      ∧ (b.registerWorker workerId).1.mail = { b.mail with
          members := if workerId ∈ b.members then b.members else b.members ++ [workerId]
          mailboxes := fun m => if m = workerId then b.mailboxes m
            ++ (b.messages.items.filter fun p =>
              (p.2.envelope.recipient = workerId || p.2.envelope.recipient = "pool")
                && p.2.state = .queued && p.1 ∉ b.mailboxes workerId).map Prod.fst
            else b.mailboxes m }
      ∧ (b.registerWorker workerId).1.journal
        = b.journal ++ [⟨strTake 128 b.pool_id, .agent_pool_member workerId false⟩]
      ∧ (b.registerWorker workerId).1.questions = b.questions := by
  unfold registerWorker
  split
  · exact .inl rfl
  · rename_i hvalid
    rw [Bool.not_eq_true', Bool.not_eq_false] at hvalid
    split
    · exact .inl rfl
    · rename_i hname
      rw [not_or] at hname
      split
      · exact .inl rfl
      · rename_i hopen
        exact .inr ⟨hname, hvalid, Bool.eq_false_iff.mpr hopen, rfl, rfl, rfl⟩

theorem sendLocked_cases [Add τ] (b : AgentMessageBroker τ) (a : SendArgs τ) (message_id : String)
    (now : τ) :
    (∃ message, b.checkSend a = .error message
      ∧ b.sendLocked a message_id now = (b, .error message))
    ∨ (∃ e, b.checkSend a = .ok () ∧ a.correlation_id ≠ ""
      ∧ (b.messages.values.map (·.envelope)).find? (·.sameSend b.py a) = some e
      ∧ b.sendLocked a message_id now = (b, .ok e))
    ∨ (b.checkSend a = .ok ()
      ∧ (a.correlation_id ≠ "" →
        (b.messages.values.map (·.envelope)).find? (·.sameSend b.py a) = none)
      ∧ b.sendLocked a message_id now
        = (b.enqueue a message_id now, .ok (b.envelope a message_id now))) := by
  unfold sendLocked
  cases hc : b.checkSend a with
  | error message => exact .inl ⟨message, rfl, rfl⟩
  | ok u =>
    right
    by_cases hcorr : a.correlation_id = ""
    · exact .inr ⟨rfl, fun h => absurd hcorr h, by simp only [hcorr, if_true]⟩
    · cases hf : (b.messages.values.map (·.envelope)).find? (·.sameSend b.py a) with
      | some e => exact .inl ⟨e, rfl, hcorr, rfl, by simp only [hcorr, if_false]⟩
      | none => exact .inr ⟨rfl, fun _ => rfl, by simp only [hcorr, if_false]⟩

/-- A question that is opened sends one message without correlation ID. -/
theorem openQuestion_cases [LinearOrder τ] [Add τ] [Zero τ] (b : AgentMessageBroker τ) (a : QuestionArgs τ)
    (message_id : String) (now : τ) :
    (∃ message, b.openQuestion a message_id now = (b, .error message))
    ∨ (b.checkSend (b.questionSend a) = .ok ()
      ∧ (a.recipient = "main" → b.parent_refusal = "")
      ∧ ∃ projection, b.openQuestion a message_id now
        = ((b.enqueue (b.questionSend a) message_id now).startQuestion
          (b.envelope (b.questionSend a) message_id now), .ok projection)) := by
  unfold openQuestion
  split
  · exact .inl ⟨_, rfl⟩
  · split
    · exact .inl ⟨_, rfl⟩
    · split
      · exact .inl ⟨_, rfl⟩
      · rename_i hrefusal
        split
        · exact .inl ⟨_, rfl⟩
        · rcases b.sendLocked_cases (b.questionSend a) message_id now with
            ⟨message, -, h⟩ | ⟨e, -, hne, -⟩ | ⟨hc, -, h⟩
          · rw [h]
            exact .inl ⟨_, rfl⟩
          · exact absurd rfl hne
          · rw [h]
            refine .inr ⟨hc, fun hmain => ?_, _, rfl⟩
            by_contra hset
            exact hrefusal ⟨hmain, hset⟩

theorem drain_nil [LinearOrder τ] (m : String) (clock : Nat → τ) (room : Nat)
    (b : AgentMessageBroker τ) : drain m clock room [] b = (b, [], []) := by
  unfold drain
  rfl

/-- The loop of `poll` changes messages and takes readings. -/
theorem drain_same [LinearOrder τ] {m : String} {clock : Nat → τ} : ∀ {room : Nat}
    {ids : List String} {b : AgentMessageBroker τ},
    (drain m clock room ids b).1.mailboxes = b.mailboxes
      ∧ (drain m clock room ids b).1.questions = b.questions
      ∧ (drain m clock room ids b).1.toBrokerConfig = b.toBrokerConfig
      ∧ (drain m clock room ids b).1.members = b.members := by
  intro room ids
  induction ids generalizing room with
  | nil => intro b; rw [drain_nil]; exact ⟨rfl, rfl, rfl, rfl⟩
  | cons id ids ih =>
    intro b
    cases room with
    | zero => exact ⟨rfl, rfl, rfl, rfl⟩
    | succ room =>
      unfold drain
      split
      · exact ih
      · split
        · exact ih
        · dsimp only
          split
          · exact ih
          · exact ih

/-- A poll is the loop over one mailbox: the broadcast mailbox is empty. -/
theorem poll_cases [LinearOrder τ] (hpool : b.mailboxes "pool" = []) (m : String) (limit : Int)
    (clock : Nat → τ) :
    (∃ message, b.poll m limit clock = (b, .error message))
    ∨ (1 ≤ limit ∧ (m = "pool" ∨ m ∈ b.members) ∧ ∃ flag,
      let drained := drain m clock (min limit.toNat 64) (b.mailboxes m) b
      b.poll m limit clock = ({ drained.1 with
        mailboxes := fun m' => if m' = m then drained.2.2 else b.mailboxes m'
        message_event := flag }, .ok drained.2.1)) := by
  unfold poll
  split
  · exact .inl ⟨_, rfl⟩
  · rename_i hlimit
    cases hv : b.validateRecipient m with
    | error message => exact .inl ⟨message, rfl⟩
    | ok u =>
      let drained := drain m clock (min limit.toNat 64) (b.mailboxes m) b
      refine .inr ⟨by omega, (validateRecipient_iff.mp hv).2,
        drained.1.message_event && !drained.2.2.isEmpty, ?_⟩
      dsimp only [drained]
      by_cases hm : m = "pool"
      · rw [if_pos hm, drain_same.1]
      · rw [if_neg hm]
        dsimp only
        rw [if_neg (Ne.symm hm), drain_same.1, hpool, drain_nil]
        dsimp only
        rw [List.append_nil]
        congr 2
        funext m'
        by_cases hm' : m' = "pool"
        · rw [if_pos hm', hm', if_neg (Ne.symm hm), hpool]
        · rw [if_neg hm']

end AgentMessageBroker

/-! ## 4. Every operation keeps the invariant -/

namespace Delivery

section

variable [LinearOrder τ] {h : Traffic τ}

theorem sends {x : Mail τ} (d : Delivery x h) {p : SendArgs τ × AgentMessageEnvelope τ}
    (hp : x.Sent p) : Delivery x { h with sends := h.sends ++ [p] } :=
  ⟨d.members_valid, d.no_pool, d.pool_empty, d.own_id, d.in_box, d.box_nodup,
    d.received_over, d.addressed,
    d.addressed_order, d.addressed_pool, d.kept, d.acknowledged, d.queued_unacknowledged, d.sequences, d.sequence_le,
    fun hin => by
      rcases List.mem_append.mp hin with hin | hin
      · exact d.sent hin
      · rw [List.mem_singleton.mp hin]
        exact hp,
    d.filed⟩

omit [LinearOrder τ] in
theorem withMailbox_withMailbox {x x' : Mail τ} {m : String} {ids ids' : List String}
    (hx : x'.mailboxes = x.mailboxes) : (x'.withMailbox m ids).mailboxes
      = ((x.withMailbox m ids').withMailbox m ids).mailboxes := by
  funext m'
  unfold Mail.withMailbox
  rw [hx]
  dsimp only
  split <;> rfl

omit [LinearOrder τ] in
/-- What a record says of its acknowledgements is not touched. -/
theorem acknowledged_withRecord (x : Mail τ) (id : String) (r' : MessageRecord τ)
    {r : MessageRecord τ} (hr : x.messages.get? id = some r) (hby : r'.acknowledged_by = r.acknowledged_by)
    (P : List String → Prop) (j : String) :
    (∃ r, (x.withRecord id r').messages.get? j = some r ∧ P r.acknowledged_by) ↔
      ∃ r, x.messages.get? j = some r ∧ P r.acknowledged_by := by
  unfold Mail.withRecord
  rw [Dict.get?_set]
  by_cases hj : id = j
  · subst hj
    rw [if_pos rfl, hr]
    simp [hby]
  · rw [if_neg hj]

omit [LinearOrder τ] in
@[simp] theorem handing_nil (h : Traffic τ) (m : String) : h.handing m [] = h := by
  simp [Traffic.handing]

omit [LinearOrder τ] in
theorem handing_handing (h : Traffic τ) (m : String) (es es' : List (AgentMessageEnvelope τ)) :
    (h.handing m es).handing m es' = h.handing m (es ++ es') := by
  unfold Traffic.handing
  congr 1
  funext m'
  dsimp only
  split
  · rw [List.append_assoc]
  · rfl

/-- The loop of `poll`: the invariant holds of the mailbox as it is left. -/
theorem drain (m : String) (clock : Nat → τ) : ∀ (ids : List String) (room : Nat)
    (b : AgentMessageBroker τ) (h : Traffic τ), Delivery (b.mail.withMailbox m ids) h →
    Delivery ((AgentMessageBroker.drain m clock room ids b).1.mail.withMailbox m
        (AgentMessageBroker.drain m clock room ids b).2.2)
      (h.handing m (AgentMessageBroker.drain m clock room ids b).2.1) := by
  intro ids
  induction ids with
  | nil =>
    intro room b h d
    unfold AgentMessageBroker.drain
    simpa using d
  | cons id ids ih =>
    intro room b h d
    cases room with
    | zero =>
      unfold AgentMessageBroker.drain
      simpa using d
    | succ room =>
      have hidm : id ∈ (b.mail.withMailbox m (id :: ids)).mailboxes m := by
        rw [Mail.mailboxes_withMailbox_self]
        exact List.mem_cons_self
      obtain ⟨e, he, -⟩ := d.in_box hidm
      unfold AgentMessageBroker.drain
      cases hr : b.messages.get? id with
      | none =>
        unfold Mail.envelope? at he
        rw [show (b.mail.withMailbox m (id :: ids)).messages.get? id = none from hr] at he
        cases he
      | some r =>
        dsimp only
        by_cases hack : m ∈ r.acknowledged_by
        · -- acknowledged before it was polled
          rw [if_pos hack]
          have hgone : id ∈ h.acknowledged m := d.acknowledged.mpr ⟨r, hr, hack⟩
          have hpop := d.pop (b.mail.withMailbox m ids) []
            (Mail.mailboxes_withMailbox_self ..) (withMailbox_withMailbox rfl) rfl rfl rfl rfl rfl
            (fun j hq => ⟨hq, fun hj => d.queued_unacknowledged (hj ▸ hq) hgone⟩)
            (fun t ht => ht) (fun j m' => Iff.rfl) (.inr ⟨rfl, .inl hgone⟩)
          rw [handing_nil] at hpop
          exact ih _ _ _ hpop
        · rw [if_neg hack]
          by_cases hexp : r.envelope.expired (clock b.readings.length) = true
          · rw [if_pos hexp]
            have hpop := d.pop (((b.mail.readAt (clock b.readings.length)).withRecord id
                { r with state := .expired }).withMailbox m ids) []
              (Mail.mailboxes_withMailbox_self ..) (withMailbox_withMailbox rfl) rfl rfl rfl
              (Mail.ids_withRecord hr) (Mail.envelope?_withRecord hr rfl)
              (fun j hq => (Mail.queued_withRecord (by simp)).mp hq)
              (fun t ht => List.mem_append_left _ ht) (fun j m' => acknowledged_withRecord (b.mail.readAt _) id
                { r with state := .expired } hr rfl (m' ∈ ·) j)
              (.inr ⟨rfl, .inr ⟨r.envelope, Mail.envelope?_of_get? hr, _,
                List.mem_append_right _ (List.mem_singleton_self _), hexp⟩⟩)
            rw [handing_nil] at hpop
            exact ih _ _ _ hpop
          · rw [if_neg hexp]
            have hpop := d.pop (((b.mail.readAt (clock b.readings.length)).withRecord id
                { r with state := .delivered }).withMailbox m ids) [r.envelope]
              (Mail.mailboxes_withMailbox_self ..) (withMailbox_withMailbox rfl) rfl rfl rfl
              (Mail.ids_withRecord hr) (Mail.envelope?_withRecord hr rfl)
              (fun j hq => (Mail.queued_withRecord (by simp)).mp hq)
              (fun t ht => List.mem_append_left _ ht) (fun j m' => acknowledged_withRecord (b.mail.readAt _) id
                { r with state := .delivered } hr rfl (m' ∈ ·) j)
              (.inl ⟨r.envelope, Mail.envelope?_of_get? hr, rfl,
                fun hq => ((Mail.queued_withRecord (by simp)).mp hq).2 rfl⟩)
            have hrest := ih room (((b.readClock (clock b.readings.length)).setRecord id
                { r with state := .delivered }).record (.agent_message_delivered id m)) _ hpop
            rw [handing_handing] at hrest
            exact hrest

theorem poll {b : AgentMessageBroker τ} (d : Delivery b.mail h) (m : String) (limit : Int)
    (clock : Nat → τ) :
    (∃ message, b.poll m limit clock = (b, .error message))
    ∨ ∃ b' handed, b.poll m limit clock = (b', .ok handed) ∧ Delivery b'.mail (h.handing m handed) := by
  rcases AgentMessageBroker.poll_cases d.pool_empty m limit clock with herr | ⟨-, -, flag, hok⟩
  · exact .inl herr
  · have hself : b.mail.withMailbox m (b.mailboxes m) = b.mail := b.mail.withMailbox_self m
    have hdrain := Delivery.drain m clock (b.mailboxes m) (min limit.toNat 64) b h
      (by rw [hself]; exact d)
    refine .inr ⟨_, _, hok, Eq.subst (motive := (Delivery · _)) ?_ hdrain⟩
    unfold Mail.withMailbox AgentMessageBroker.mail
    dsimp only
    rw [AgentMessageBroker.drain_same.1]

omit [LinearOrder τ] in
/-- A send that passed the checks and returned the first message like it. -/
theorem sent_of_check {b b' : AgentMessageBroker τ} {a : SendArgs τ} {e : AgentMessageEnvelope τ}
    (hcheck : b.checkSend a = .ok ())
    (hfound : a.correlation_id ≠ "" →
      pyEq b.py (.obj a.payload.dict) (.obj a.payload.dict) = true →
      b'.mail.envelopes.find? (·.sameSend b.py a) = some e)
    (hconfig : b'.toBrokerConfig = b.toBrokerConfig := by rfl) : b'.mail.Sent (a, e) := by
  intro hcorr hself
  obtain ⟨hs, hr, hk, hb, -⟩ := AgentMessageBroker.checkSend_iff.mp hcheck
  unfold AgentMessageBroker.mail at hself ⊢
  dsimp only at hself ⊢
  rw [hconfig] at hself ⊢
  exact ⟨hs.1, hr.1, hk, hb, hfound hcorr hself⟩

omit [LinearOrder τ] in
theorem enqueue_envelopes [Add τ] {b : AgentMessageBroker τ} {a : SendArgs τ} {message_id : String}
    {now : τ} (hfresh : b.messages.get? message_id = none) :
    (b.enqueue a message_id now).mail.envelopes
      = b.messages.values.map (·.envelope) ++ [b.envelope a message_id now] := by
  unfold Mail.envelopes Dict.values
  rw [show (b.enqueue a message_id now).mail.messages.items = _ from
    Dict.items_set_of_none _ hfresh, List.map_append, List.map_append]
  rfl

/-- A new message, its history read off the step that made it. -/
theorem enqueue [Add τ] {b b' : AgentMessageBroker τ} {a : SendArgs τ} {message_id : String}
    (now : τ) (d : Delivery b.mail h) (hfresh : b.messages.get? message_id = none)
    (hcheck : b.checkSend a = .ok ()) (hb' : b'.mail = (b.enqueue a message_id now).mail) :
    Delivery b'.mail (h.addressing b b' message_id) := by
  have hrecord : b'.messages.get? message_id
      = some { envelope := b.envelope a message_id now, state := .queued } := by
    have hmessages : b'.messages = (b.enqueue a message_id now).messages :=
      congrArg Mail.messages hb'
    rw [hmessages]
    exact Dict.get?_set_self ..
  have hput := d.put (b.enqueue a message_id now).mail message_id (b.envelope a message_id now)
    (b.targets a.sender a.recipient) hfresh rfl rfl rfl
    (fun hne => (AgentMessageBroker.checkSend_iff.mp hcheck).2.1.2.resolve_left hne) rfl
  unfold Traffic.addressing
  rw [hfresh, hrecord, hb']
  exact hput

omit [LinearOrder τ] in
theorem acknowledge_not_queued (r : MessageRecord τ) (members : List String) (m : String) :
    (r.acknowledge members m).state ≠ .queued := by
  unfold MessageRecord.acknowledge
  dsimp only
  split
  · rename_i hover
    rcases hover with hover | hover <;> simp [hover]
  · generalize List.all _ _ = acknowledged
    cases acknowledged <;> simp

theorem acknowledge {x : Mail τ} {m id : String} {r r' : MessageRecord τ} (d : Delivery x h)
    (hr : x.messages.get? id = some r) (henv : r'.envelope = r.envelope)
    (hby : r'.acknowledged_by = r.acknowledged_by ++ [m]) (hstate : r'.state ≠ .queued) :
    Delivery (x.withRecord id r') (h.acknowledging m id) := by
  have hmem : ∀ m' j, j ∈ (h.acknowledging m id).acknowledged m'
      ↔ j ∈ h.acknowledged m' ∨ (m' = m ∧ j = id) := by
    intro m' j
    unfold Traffic.acknowledging
    dsimp only
    split
    · rename_i hm
      simp [hm]
    · rename_i hm
      simp [hm]
  refine d.quiet rfl (fun m hm => hm) rfl rfl (Mail.ids_withRecord hr)
    (Mail.envelope?_withRecord hr henv) (fun j hq => ?_) rfl rfl rfl rfl
    (fun m' j hj => (hmem m' j).mpr (.inl hj)) (fun m' j => ?_)
  · obtain ⟨hq, hne⟩ := (Mail.queued_withRecord hstate).mp hq
    exact ⟨hq, fun m' hj => ((hmem m' j).mp hj).resolve_right fun h => hne h.2⟩
  · rw [hmem, d.acknowledged]
    unfold Mail.withRecord
    rw [Dict.get?_set]
    by_cases hj : id = j
    · subst hj
      rw [if_pos rfl, hr]
      simp [hby]
    · simp [hj, Ne.symm hj]

variable [Add τ] [Zero τ]

/-- **Step.** Every operation keeps the invariant. -/
theorem step {s : BrokerRun τ} (d : Delivery s.broker.mail s.traffic) (op : BrokerOp τ)
    (hfresh : s.FreshId op) : Delivery (s.step op).broker.mail (s.step op).traffic := by
  obtain ⟨b, h⟩ := s
  unfold BrokerRun.step
  dsimp only at d ⊢
  cases op with
  | register_worker w =>
    rcases AgentMessageBroker.registerWorker_cases (b := b) w with
      hsame | ⟨⟨-, hpool⟩, hvalid, -, hmail, -, -⟩
    · rw [AgentMessageBroker.step, hsame]
      exact d
    · exact d.join hpool hvalid rfl hmail
  | unregister_worker w reason clock =>
    rw [AgentMessageBroker.step, AgentMessageBroker.unregisterWorker_mail]
    exact d.quiet rfl (fun m hm => (List.mem_filter.mp hm).1) rfl rfl rfl rfl
      (fun id hq => ⟨hq, fun m hm => hm⟩) rfl rfl rfl rfl (fun m id hid => hid)
      (fun m id => d.acknowledged)
  | send a message_id now =>
    unfold AgentMessageBroker.step Traffic.after
    dsimp only
    rcases b.sendLocked_cases a message_id now with ⟨message, -, he⟩ | ⟨e, hc, -, hfound, he⟩
      | ⟨hc, hnone, he⟩
    · rw [he]
      exact d
    · rw [he]
      dsimp only
      rw [Traffic.addressing_self h hfresh]
      exact d.sends (sent_of_check hc fun _ _ => hfound)
    · rw [he]
      have hsent := (d.enqueue now hfresh hc rfl).sends
        (p := (a, b.envelope a message_id now)) (sent_of_check hc fun hcorr hself => ?_)
      · rw [Traffic.sends_addressing] at hsent
        exact hsent
      have hlast : (b.envelope a message_id now).sameSend b.py a = true := by
        unfold AgentMessageEnvelope.sameSend AgentMessageBroker.envelope
        simp [hcorr, hself]
      rw [enqueue_envelopes hfresh, List.find?_append, hnone hcorr, List.find?_cons, hlast]
      rfl
  | open_question a message_id now =>
    unfold AgentMessageBroker.step Traffic.after
    dsimp only
    rcases b.openQuestion_cases a message_id now with ⟨message, he⟩ | ⟨hc, -, projection, he⟩
    · rw [he, Traffic.addressing_self h hfresh]
      exact d
    · rw [he]
      exact d.enqueue now hfresh hc rfl
  | answer_question answerer questionId answer now =>
    rw [AgentMessageBroker.step, AgentMessageBroker.answerQuestion_mail]
    exact d
  | refuse_parent_questions status clock =>
    rw [AgentMessageBroker.step, AgentMessageBroker.refuseParentQuestions,
      AgentMessageBroker.finishQuestions_mail]
    exact d
  | begin_wait questionId =>
    rw [AgentMessageBroker.step, AgentMessageBroker.beginWait_mail]
    exact d
  | end_wait questionId =>
    rw [AgentMessageBroker.step, AgentMessageBroker.endWait_mail]
    exact d
  | cancel_future questionId =>
    rw [AgentMessageBroker.step, AgentMessageBroker.cancelFuture_mail]
    exact d
  | expire_question questionId now =>
    rw [AgentMessageBroker.step, AgentMessageBroker.expireQuestion_mail]
    exact d
  | poll m limit clock =>
    unfold AgentMessageBroker.step Traffic.after
    dsimp only
    rcases d.poll m limit clock with ⟨message, he⟩ | ⟨b', handed, he, hd⟩
    · rw [he]
      exact d
    · rw [he]
      exact hd
  | acknowledge m id =>
    unfold AgentMessageBroker.step Traffic.after AgentMessageBroker.acknowledge
    dsimp only
    cases hr : b.messages.get? id with
    | none => exact d
    | some r =>
      dsimp only
      split
      · exact d
      · exact d.acknowledge hr rfl rfl (acknowledge_not_queued r b.members m)
  | close clock =>
    rw [AgentMessageBroker.step]
    exact Eq.subst (motive := (Delivery · h)) (AgentMessageBroker.finishQuestions_mail ..).symm d

omit [Add τ] [Zero τ] in
theorem start (config : BrokerConfig τ) : Delivery config.broker.mail {} where
  members_valid hm := by
    rw [List.mem_singleton.mp hm]
    decide
  no_pool := by
    intro hm
    exact absurd (List.mem_singleton.mp hm) (by decide)
  pool_empty := rfl
  own_id he := by cases he
  in_box hid := by cases hid
  box_nodup _ := List.nodup_nil
  received_over he := by cases he
  addressed hid := by cases hid
  addressed_order _ := List.Sublist.refl _
  addressed_pool := rfl
  kept hid := by cases hid
  acknowledged := by
    intro m id
    constructor
    · intro hid
      cases hid
    · rintro ⟨r, hr, -⟩
      cases hr
  queued_unacknowledged _ hid := by cases hid
  sequences := List.Pairwise.nil
  sequence_le he := by cases he
  sent hp := by cases hp
  filed m := by
    refine ⟨[], [], rfl, List.Sublist.refl _, ?_, fun _ => rfl⟩
    intro id hid
    cases hid

end

end Delivery

end Agenthicc.Subagents
