/-
Agenthicc.Subagents.DeliveryTheorems — messages come once, in order, and none
is lost.

`exactlyOnce_run` is the delivery law of a broker over whole runs, under the
exact steps that keep it. A worker gets messages of its own in two ways: by
sending to itself, and by registering again while a broadcast of its own is
queued, which moves that broadcast into its mailbox. And `_send_locked` asks
whether a mailbox is full before it looks for the earlier send, so a repeated
send is refused where the first envelope was to be returned;
`not_exactlyOnce_fullMailbox` is such a run.
-/
import Agenthicc.Subagents.Delivery

namespace Agenthicc.Subagents

open Python

variable {τ : Type} [LinearOrder τ]

/-! ## 1. The loop of `poll` -/

namespace AgentMessageBroker

/-- What one call of the loop takes out of a mailbox is a first part of it, it
hands out messages of that part, and it stops early only when it has handed
out as many as it may. -/
theorem drain_taken (m : String) (clock : Nat → τ) : ∀ (ids : List String) (room : Nat)
    (b : AgentMessageBroker τ), ∃ taken, ids = taken ++ (drain m clock room ids b).2.2
      ∧ (∀ e ∈ (drain m clock room ids b).2.1, ∃ id ∈ taken, b.mail.envelope? id = some e)
      ∧ (drain m clock room ids b).1.mail.envelope? = b.mail.envelope?
      ∧ ((drain m clock room ids b).2.2 = [] ∨ (drain m clock room ids b).2.1.length = room) := by
  intro ids
  induction ids with
  | nil =>
    intro room b
    rw [drain_nil]
    exact ⟨[], rfl, fun e he => absurd he List.not_mem_nil, rfl, .inl rfl⟩
  | cons id ids ih =>
    intro room b
    cases room with
    | zero => exact ⟨[], rfl, fun e he => absurd he List.not_mem_nil, rfl, .inr rfl⟩
    | succ room =>
      unfold drain
      split
      · obtain ⟨taken, h1, h2, h3, h4⟩ := ih (room + 1) b
        exact ⟨id :: taken, congrArg (id :: ·) h1,
          fun e he => (h2 e he).imp fun j hj => ⟨List.mem_cons_of_mem _ hj.1, hj.2⟩, h3, h4⟩
      · rename_i r hr
        split
        · obtain ⟨taken, h1, h2, h3, h4⟩ := ih (room + 1) b
          exact ⟨id :: taken, congrArg (id :: ·) h1,
            fun e he => (h2 e he).imp fun j hj => ⟨List.mem_cons_of_mem _ hj.1, hj.2⟩, h3, h4⟩
        · dsimp only
          have hsame : ∀ state : MessageState, (((b.readClock (clock b.readings.length)).setRecord id
              { r with state }).mail.envelope?) = b.mail.envelope? :=
            fun state => Mail.envelope?_withRecord (x := b.mail) hr rfl
          split
          · obtain ⟨taken, h1, h2, h3, h4⟩ := ih (room + 1)
              ((b.readClock (clock b.readings.length)).setRecord id { r with state := .expired })
            rw [hsame] at h2 h3
            exact ⟨id :: taken, congrArg (id :: ·) h1,
              fun e he => (h2 e he).imp fun j hj => ⟨List.mem_cons_of_mem _ hj.1, hj.2⟩, h3, h4⟩
          · obtain ⟨taken, h1, h2, h3, h4⟩ := ih room
              (((b.readClock (clock b.readings.length)).setRecord id
                { r with state := .delivered }).record (.agent_message_delivered id m))
            have hdelivered := hsame .delivered
            refine ⟨id :: taken, congrArg (id :: ·) h1, fun e he => ?_, h3.trans hdelivered,
              h4.imp_right (congrArg (· + 1))⟩
            rcases List.mem_cons.mp he with rfl | he
            · exact ⟨id, List.mem_cons_self, Mail.envelope?_of_get? hr⟩
            · obtain ⟨j, hj, hje⟩ := h2 e he
              exact ⟨j, List.mem_cons_of_mem _ hj, hdelivered ▸ hje⟩

end AgentMessageBroker

/-! ## 2. No message comes back to its sender -/

variable [Add τ] [Zero τ]

/-- A later send with the same sender, recipient, kind, payload and
correlation ID; a payload that is not equal to itself (it holds a NaN) is the
same as no other. -/
structure SendArgs.Repeats (py : Interp) (a' a : SendArgs τ) : Prop where
  sender : a'.sender = a.sender
  recipient : a'.recipient = a.recipient
  kind : a'.kind = a.kind
  payload : a'.payload = a.payload
  equal : pyEq py (.obj a.payload.dict) (.obj a.payload.dict) = true
  correlation_id : a'.correlation_id = a.correlation_id
  correlated : a.correlation_id ≠ ""

/-- The members a send names are there, and no mailbox it goes to is full. -/
def AgentMessageBroker.HasRoom (b : AgentMessageBroker τ) (a : SendArgs τ) : Prop :=
  a.sender ∈ b.members ∧ (a.recipient = "pool" ∨ a.recipient ∈ b.members)
    ∧ (a.recipient = "pool" → b.targets a.sender a.recipient ≠ [])
    ∧ ∀ m ∈ b.targets a.sender a.recipient, ((b.mailboxes m).length : Int) < b.max_mailbox_messages

/-- The steps that keep exactly-once delivery: nobody sends to itself, no
worker registers while a broadcast of its own is queued, and a repeated send
finds its members there and room in their mailboxes. -/
def BrokerRun.DeliversOnce (s : BrokerRun τ) (op : BrokerOp τ) : Prop :=
  s.FreshId op ∧
  match op with
  | .register_worker w => s.broker.closed = false →
      ∀ id, s.broker.mail.Queued id → s.broker.mail.ownBroadcast w id = false
  | .send a _ _ => a.sender ≠ a.recipient
      ∧ ∀ p ∈ s.traffic.sends, a.Repeats s.broker.py p.1 → s.broker.HasRoom a
  | .open_question a _ _ => a.sender ≠ a.recipient
  | _ => True

/-- No message is in the mailbox of its sender, or was handed out to it. -/
structure ToOthers (x : Mail τ) (h : Traffic τ) : Prop where
  recipient : ∀ {id e}, x.envelope? id = some e → e.sender ≠ e.recipient
  mailbox : ∀ {m id e}, id ∈ x.mailboxes m → x.envelope? id = some e → e.sender ≠ m
  received : ∀ {m e}, e ∈ h.received m → e.sender ≠ m

namespace ToOthers

variable {h : Traffic τ} {b b' : AgentMessageBroker τ}

omit [LinearOrder τ] [Add τ] [Zero τ] in
theorem start (config : BrokerConfig τ) : ToOthers config.broker.mail {} where
  recipient he := by cases he
  mailbox hid := by cases hid
  received he := by cases he

omit [LinearOrder τ] [Add τ] [Zero τ] in
theorem same {x x' : Mail τ} {h' : Traffic τ} (o : ToOthers x h)
    (henv : x'.envelope? = x.envelope?) (hbox : ∀ m, ∀ id ∈ x'.mailboxes m, id ∈ x.mailboxes m)
    (hreceived : h'.received = h.received) : ToOthers x' h' where
  recipient he := o.recipient (by rwa [henv] at he)
  mailbox hid he := o.mailbox (hbox _ _ hid) (by rwa [henv] at he)
  received he := o.received (by rwa [hreceived] at he)

omit [Zero τ] in
theorem enqueue {a : SendArgs τ} {message_id : String} {now : τ} (d : Delivery b.mail h)
    (o : ToOthers b.mail h) (hfresh : b.messages.get? message_id = none)
    (hne : a.sender ≠ a.recipient) {h' : Traffic τ} (hreceived : h'.received = h.received)
    (hb' : b'.mail = (b.enqueue a message_id now).mail) : ToOthers b'.mail h' := by
  have henv : ∀ id, b'.mail.envelope? id =
      if message_id = id then some (b.envelope a message_id now) else b.mail.envelope? id := by
    intro id
    rw [hb']
    unfold Mail.envelope?
    rw [show (b.enqueue a message_id now).mail.messages.get? id = _ from Dict.get?_set ..]
    split <;> rfl
  have hbox : ∀ m, b'.mail.mailboxes m = if m ∈ b.targets a.sender a.recipient then
      b.mailboxes m ++ [message_id] else b.mailboxes m := by
    intro m
    rw [hb']
    rfl
  constructor
  case recipient =>
    intro id e he
    rw [henv] at he
    split at he
    · cases he
      exact hne
    · exact o.recipient he
  case mailbox =>
    intro m id e hid he
    rw [hbox] at hid
    rw [henv] at he
    split at he
    · -- the new message is in no mailbox but those of its targets
      rename_i heq
      subst heq
      cases he
      have hnew : message_id ∉ b.mailboxes m := by
        intro hin
        obtain ⟨e', he', -⟩ := d.in_box (m := m) hin
        unfold Mail.envelope? at he'
        rw [show b.mail.messages.get? message_id = none from hfresh] at he'
        cases he'
      split at hid
      · rename_i hm
        unfold AgentMessageBroker.targets at hm
        split at hm
        · exact Ne.symm (of_decide_eq_true (List.mem_filter.mp hm).2)
        · rw [List.mem_singleton.mp hm]
          exact hne
      · exact absurd hid hnew
    · rename_i heq
      split at hid
      · rcases List.mem_append.mp hid with hid | hid
        · exact o.mailbox hid he
        · exact absurd (List.mem_singleton.mp hid).symm heq
      · exact o.mailbox hid he
  case received =>
    intro m e he
    rw [hreceived] at he
    exact o.received he

omit [Add τ] [Zero τ] in
theorem poll {m : String} {limit : Int} {clock : Nat → τ} {handed : List (AgentMessageEnvelope τ)}
    (d : Delivery b.mail h) (o : ToOthers b.mail h)
    (hpoll : b.poll m limit clock = (b', .ok handed)) : ToOthers b'.mail (h.handing m handed) := by
  rcases AgentMessageBroker.poll_cases d.pool_empty m limit clock with
    ⟨message, herr⟩ | ⟨-, -, flag, hok⟩
  · rw [herr] at hpoll
    cases hpoll
  · rw [hok] at hpoll
    obtain ⟨taken, hcut, hhanded, henv, -⟩ :=
      AgentMessageBroker.drain_taken m clock (b.mailboxes m) (min limit.toNat 64) b
    rw [Prod.mk.injEq, Except.ok.injEq] at hpoll
    obtain ⟨rfl, rfl⟩ := hpoll
    constructor
    case recipient =>
      intro id e he
      exact o.recipient (by rw [← henv]; exact he)
    case mailbox =>
      intro m' id e hid he
      have hin : id ∈ b.mail.mailboxes m' := by
        unfold AgentMessageBroker.mail at hid ⊢
        dsimp only at hid ⊢
        split at hid
        · rename_i hm
          rw [hm, hcut]
          exact List.mem_append_right _ hid
        · exact hid
      exact o.mailbox hin (by rw [← henv]; exact he)
    case received =>
      intro m' e he
      by_cases hm : m' = m
      · subst hm
        rw [Traffic.received_handing_self] at he
        rcases List.mem_append.mp he with he | he
        · exact o.received he
        · obtain ⟨id, hid, hide⟩ := hhanded e he
          have hin : id ∈ b.mailboxes m' := by
            rw [hcut]
            exact List.mem_append_left _ hid
          exact o.mailbox hin hide
      · rw [Traffic.received_handing_ne _ hm] at he
        exact o.received he

theorem step {s : BrokerRun τ} (d : Delivery s.broker.mail s.traffic)
    (o : ToOthers s.broker.mail s.traffic) (op : BrokerOp τ) (hok : s.DeliversOnce op) :
    ToOthers (s.step op).broker.mail (s.step op).traffic := by
  obtain ⟨b, h⟩ := s
  unfold BrokerRun.step
  dsimp only at d o ⊢
  obtain ⟨hfresh, hok⟩ := hok
  cases op with
  | register_worker w =>
    rcases AgentMessageBroker.registerWorker_cases (b := b) w with
      hsame | ⟨-, -, hopen, hmail, -, -⟩
    · rw [AgentMessageBroker.step, hsame]
      exact o
    · unfold AgentMessageBroker.step Traffic.after
      dsimp only at hok ⊢
      rw [hmail]
      refine ⟨o.recipient, fun {m id e} hid he => ?_, o.received⟩
      dsimp only at hid
      split at hid
      · rename_i hm
        subst hm
        rcases List.mem_append.mp hid with hid | hid
        · exact o.mailbox hid he
        · obtain ⟨⟨e', he', hrec⟩, hq, -⟩ := b.mail.mem_moved.mp hid
          have heq : e = e' := Option.some.inj (he.symm.trans he')
          subst heq
          have hown := hok hopen id hq
          intro hs
          rcases hrec with hrec | hrec
          · exact o.recipient he' (hs.trans hrec.symm)
          · unfold Mail.ownBroadcast at hown
            rw [he'] at hown
            simp [hs, hrec] at hown
      · exact o.mailbox hid he
  | unregister_worker w reason clock =>
    rw [AgentMessageBroker.step, AgentMessageBroker.unregisterWorker_mail]
    exact o.same rfl (fun m id hid => hid) rfl
  | send a message_id now =>
    unfold AgentMessageBroker.step Traffic.after
    dsimp only at hok ⊢
    rcases b.sendLocked_cases a message_id now with ⟨message, -, he⟩ | ⟨e, -, -, -, he⟩ | ⟨-, -, he⟩
    · rw [he]
      exact o
    · rw [he]
      dsimp only
      rw [Traffic.addressing_self h hfresh]
      exact o.same rfl (fun m id hid => hid) rfl
    · rw [he]
      exact o.enqueue d hfresh hok.1 (Traffic.received_addressing ..) rfl
  | open_question a message_id now =>
    unfold AgentMessageBroker.step Traffic.after
    dsimp only at hok ⊢
    rcases b.openQuestion_cases a message_id now with ⟨message, he⟩ | ⟨-, -, projection, he⟩
    · rw [he, Traffic.addressing_self h hfresh]
      exact o
    · rw [he]
      exact o.enqueue (a := b.questionSend a) d hfresh hok (Traffic.received_addressing ..) rfl
  | answer_question answerer questionId answer now =>
    rw [AgentMessageBroker.step, AgentMessageBroker.answerQuestion_mail]
    exact o
  | refuse_parent_questions status clock =>
    rw [AgentMessageBroker.step, AgentMessageBroker.refuseParentQuestions,
      AgentMessageBroker.finishQuestions_mail]
    exact o
  | begin_wait questionId =>
    rw [AgentMessageBroker.step, AgentMessageBroker.beginWait_mail]
    exact o
  | end_wait questionId =>
    rw [AgentMessageBroker.step, AgentMessageBroker.endWait_mail]
    exact o
  | cancel_future questionId =>
    rw [AgentMessageBroker.step, AgentMessageBroker.cancelFuture_mail]
    exact o
  | expire_question questionId now =>
    rw [AgentMessageBroker.step, AgentMessageBroker.expireQuestion_mail]
    exact o
  | poll m limit clock =>
    unfold AgentMessageBroker.step Traffic.after
    dsimp only
    rcases d.poll m limit clock with ⟨message, he⟩ | ⟨b', handed, he, -⟩
    · rw [he]
      exact o
    · rw [he]
      exact o.poll d he
  | acknowledge m id =>
    unfold AgentMessageBroker.step Traffic.after AgentMessageBroker.acknowledge
    dsimp only
    cases hr : b.messages.get? id with
    | none => exact o
    | some r =>
      dsimp only
      split
      · exact o
      · have hsame : ToOthers (b.mail.withRecord id (r.acknowledge b.members m)) h :=
          o.same (Mail.envelope?_withRecord hr rfl) (fun m id hid => hid) rfl
        exact ⟨hsame.recipient, hsame.mailbox, hsame.received⟩
  | close clock =>
    rw [AgentMessageBroker.step]
    exact Eq.subst (motive := (ToOthers · h)) (AgentMessageBroker.finishQuestions_mail ..).symm o

end ToOthers

/-! ## 3. Exactly once, in order -/

/-- What the members of a broker get, in a state of a run. -/
structure ExactlyOnce (s : BrokerRun τ) : Prop where
  /-- No message comes twice. -/
  once : ∀ m, ((s.traffic.received m).map (·.message_id)).Nodup
  /-- A message that was sent to a member waits for it, or was handed out to
  it, or acknowledged by it, or had expired when a poll looked at it. -/
  none_lost : ∀ m, ∀ id ∈ s.traffic.addressed m, id ∈ s.broker.mailboxes m
    ∨ id ∈ (s.traffic.received m).map (·.message_id) ∨ id ∈ s.traffic.acknowledged m
    ∨ ∃ e, s.broker.mail.envelope? id = some e ∧ ∃ t ∈ s.broker.readings, e.expired t
  /-- A poll of a member empties its mailbox or hands out as many messages as
  it may. -/
  served : ∀ m ∈ s.broker.members, ∀ limit ≥ 1, ∀ clock, ∃ b' handed,
    s.broker.poll m limit clock = (b', .ok handed)
      ∧ (b'.mailboxes m = [] ∨ handed.length = min limit.toNat 64)
  meant : ∀ m, ∀ e ∈ s.traffic.received m, e.recipient = m ∨ e.recipient = "pool"
  not_own : ∀ m, ∀ e ∈ s.traffic.received m, e.sender ≠ m
  in_order : ∀ m, (s.traffic.received m).Pairwise fun e e' =>
    e.sender = e'.sender → e.sequence < e'.sequence

/-- The delivery law over a run: it holds in every state, and every repeated
send returns the first envelope and changes nothing. -/
def BrokerConfig.ExactlyOnceRun (config : BrokerConfig τ) (ops : List (BrokerOp τ)) : Prop :=
  (∀ k, ExactlyOnce ((ops.take k).foldl BrokerRun.step { broker := config.broker }))
  ∧ ∀ pre a message_id now post, ops = pre ++ .send a message_id now :: post →
    let s := pre.foldl BrokerRun.step { broker := config.broker }
    ∀ p ∈ s.traffic.sends, a.Repeats s.broker.py p.1 →
      s.broker.sendLocked a message_id now = (s.broker, .ok p.2)

omit [Add τ] [Zero τ] in
/-- What a member got is a part of the messages, in the order they were sent. -/
theorem received_sublist {x : Mail τ} {h : Traffic τ} (d : Delivery x h) (o : ToOthers x h)
    (m : String) : ((h.received m).map (·.message_id)).Sublist x.ids := by
  obtain ⟨pre, post, hcut, hbefore, -, -⟩ := d.filed m
  rw [List.filter_append] at hbefore
  have hkeep : ((h.received m).map (·.message_id)).filter (fun id => !x.ownBroadcast m id)
      = (h.received m).map (·.message_id) := by
    refine List.filter_eq_self.mpr fun id hid => ?_
    obtain ⟨e, he, rfl⟩ := List.mem_map.mp hid
    unfold Mail.ownBroadcast
    rw [(d.received_over he).1]
    simp [o.received he]
  rw [hkeep] at hbefore
  rw [hcut]
  exact ((List.sublist_append_left _ _).trans hbefore).trans (List.sublist_append_left _ _)

omit [Add τ] [Zero τ] in
theorem exactlyOnce {s : BrokerRun τ} (d : Delivery s.broker.mail s.traffic)
    (o : ToOthers s.broker.mail s.traffic) : ExactlyOnce s where
  once m := (Mail.ids_nodup _).sublist (received_sublist d o m)
  none_lost _ _ hid := d.kept hid
  served m hm limit hlimit clock := by
    rcases AgentMessageBroker.poll_cases d.pool_empty m limit clock with
      ⟨message, herr⟩ | ⟨-, -, flag, hok⟩
    · -- a member with a positive limit passes the checks
      have hvalid : s.broker.validateRecipient m = .ok () :=
        AgentMessageBroker.validateRecipient_iff.mpr ⟨d.members_valid hm, .inr hm⟩
      unfold AgentMessageBroker.poll at herr
      rw [if_neg (by omega), hvalid] at herr
      dsimp only at herr
      have hsnd := congrArg Prod.snd herr
      cases hsnd
    · refine ⟨_, _, hok, ?_⟩
      obtain ⟨-, -, -, -, hleft⟩ :=
        AgentMessageBroker.drain_taken m clock (s.broker.mailboxes m) (min limit.toNat 64) s.broker
      exact hleft.imp_left fun hnil => (if_pos rfl).trans hnil
  meant _ _ he := (d.received_over he).2.2
  not_own _ _ he := o.received he
  in_order m := by
    have hsorted := d.sequences.sublist (received_sublist d o m)
    rw [List.pairwise_map] at hsorted
    refine hsorted.imp_of_mem fun {e e'} he he' hlt => ?_
    exact hlt e e' (d.received_over he).1 (d.received_over he').1

omit [Zero τ] in
/-- A repeated send that finds its members and room returns what the first one
returned. -/
theorem repeat_returns {s : BrokerRun τ} (d : Delivery s.broker.mail s.traffic) {a : SendArgs τ}
    {p : SendArgs τ × AgentMessageEnvelope τ} (hp : p ∈ s.traffic.sends)
    (hrepeats : a.Repeats s.broker.py p.1) (hroom : s.broker.HasRoom a) (message_id : String)
    (now : τ) : s.broker.sendLocked a message_id now = (s.broker, .ok p.2) := by
  obtain ⟨hs, hr, hk, hpay, hself, hc, hne⟩ := hrepeats
  obtain ⟨hvs, hvr, hkind, hbytes, hfound⟩ := d.sent hp hne hself
  obtain ⟨hsender, hrecipient, hsome, hfull⟩ := hroom
  have hcheck : s.broker.checkSend a = .ok () := by
    refine AgentMessageBroker.checkSend_iff.mpr
      ⟨⟨by rw [hs]; exact hvs, hsender⟩, ⟨by rw [hr]; exact hvr, hrecipient⟩,
        by rw [hk]; exact hkind, ?_, hsome, hfull⟩
    rw [hpay]
    exact hbytes
  have hsame : (fun e : AgentMessageEnvelope τ => e.sameSend s.broker.py a)
      = fun e => e.sameSend s.broker.py p.1 := by
    funext e
    unfold AgentMessageEnvelope.sameSend
    rw [hs, hr, hk, hpay, hc]
  have hfind : (s.broker.messages.values.map (·.envelope)).find? (·.sameSend s.broker.py a)
      = some p.2 := by
    rw [hsame]
    exact hfound
  unfold AgentMessageBroker.sendLocked
  rw [hcheck, hfind, if_neg (by rw [hc]; exact hne)]

/-- **Exactly once, in order.** In every run whose steps send to others, register
no worker while a broadcast of its own is queued and repeat a send only while
its mailboxes have room, every member gets each message for it once, in the
order it was sent, and a repeated send returns the first envelope. -/
theorem exactlyOnce_run (config : BrokerConfig τ) (ops : List (BrokerOp τ))
    (hrun : Runs.RunOk BrokerRun.step BrokerRun.DeliversOnce { broker := config.broker } ops) :
    config.ExactlyOnceRun ops := by
  let inv : BrokerRun τ → Prop := fun s =>
    Delivery s.broker.mail s.traffic ∧ ToOthers s.broker.mail s.traffic
  have hstep : ∀ s op, inv s → s.DeliversOnce op → inv (s.step op) := fun s op hs hok =>
    ⟨hs.1.step op hok.1, hs.2.step hs.1 op hok⟩
  have hstart : inv { broker := config.broker } := ⟨Delivery.start config, ToOthers.start config⟩
  have hinv := Runs.RunOk.invariant hstep hstart hrun
  refine ⟨fun k => exactlyOnce (hinv k).1 (hinv k).2, ?_⟩
  intro pre a message_id now post hops s p hp hrepeats
  have hok := Runs.runOk_iff.mp hrun pre _ post hops
  have hd := (hinv pre.length).1
  rw [hops, List.take_left'] at hd
  · exact repeat_returns hd hp hrepeats (hok.2.2 p hp hrepeats) message_id now
  · rfl

/-- A pool whose mailboxes hold one message. -/
def smallPool : BrokerConfig Int where
  py := plainInterp
  conversation_id := "c"
  parent_run_id := "r"
  pool_id := "p"
  message_timeout_s := 300
  max_mailbox_messages := 1

/-- An instruction for the worker, with a correlation ID. -/
def instruction : SendArgs Int where
  sender := "main"
  recipient := "w"
  kind := "instruction"
  payload := .text "go"
  correlation_id := "once"

/-- The worker reads the instruction before it is sent again. -/
theorem exactlyOnce_reread : smallPool.ExactlyOnceRun [.register_worker "w",
    .send instruction "m1" 0, .poll "w" 16 fun _ => 1, .send instruction "m2" 2] := by
  refine exactlyOnce_run smallPool _ ⟨⟨trivial, ?_⟩, ⟨rfl, by decide, ?_⟩, ⟨trivial, trivial⟩,
    ⟨rfl, by decide, ?_⟩, trivial⟩
  · rintro - id ⟨r, hr, -⟩
    cases hr
  · intro p hp
    cases hp
  · intro p hp hrepeats
    unfold AgentMessageBroker.HasRoom
    decide

/-- **Counterexample.** The mailbox of the worker is full: the repeated send is
refused. -/
theorem not_exactlyOnce_fullMailbox : ¬ smallPool.ExactlyOnceRun
    [.register_worker "w", .send instruction "m1" 0, .send instruction "m2" 1] := by
  rintro ⟨-, hrepeat⟩
  have hreturns := hrepeat [.register_worker "w", .send instruction "m1" 0] instruction "m2" 1 [] rfl
    _ (List.mem_singleton_self _) ⟨rfl, rfl, rfl, rfl, by decide, rfl, by decide⟩
  have hisOk := congrArg (fun r => r.2.isOk) hreturns
  revert hisOk
  decide

end Agenthicc.Subagents
