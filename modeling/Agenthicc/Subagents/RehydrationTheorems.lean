/-
Agenthicc.Subagents.RehydrationTheorems — when a rehydrated broker agrees with
the live one.

`agrees_run` is the law over whole runs: under the steps `Replayable` allows,
`rehydrate` over the journal of every state reached gives every question the
status and answer it has, and every live member the messages it has not polled
or acknowledged. `not_agrees_refused` is a run that breaks it with one event
the replay does not know.
-/
import Agenthicc.Subagents.Rehydration

namespace Agenthicc.Subagents

open Python

variable {τ : Type} [LinearOrder τ]

/-! ## 1. The steps that are replayed -/

/-- What the journal of a broker replays to, before `rehydrate` looks at the
workers that are still there. -/
def AgentMessageBroker.replayed (b : AgentMessageBroker τ) (config : BrokerConfig τ) :
    AgentMessageBroker τ :=
  b.journal.foldl AgentMessageBroker.rehydrateEvent config.broker

/-- The steps after which the journal still tells what happened.

* A worker registers when what it could still read of its mailbox is queued, no
  queued message for it is missing there, and no orphaned question becomes
  answerable.
* A worker leaves when no pending question of another one is addressed to it.
* Questions go to one member.
* The parent refuses when no question to it is pending, or with the status
  `pending`.
* Nobody else could still read what a poll hands out.
* A broadcast is acknowledged when nobody else could still read it. -/
def BrokerRun.Replayable (s : BrokerRun τ) (op : BrokerOp τ) : Prop :=
  s.FreshId op ∧
  match op with
  | .register_worker w => w ≠ "main" → w ≠ "pool" → s.broker.closed = false →
      s.broker.mail.JoinsClean w
        ∧ ∀ id q, s.broker.questions.get? id = some q → q.status = "orphaned" →
          ¬ q.HasParties (w :: s.broker.members)
  | .unregister_worker w _ _ => w ≠ "main" → ∀ id q, s.broker.questions.get? id = some q →
      q.status = "pending" → q.envelope.sender ≠ w → q.envelope.recipient ≠ w
  | .open_question a _ _ => a.recipient ≠ "pool"
  | .refuse_parent_questions status _ => strTake 64 status = "pending"
      ∨ ∀ id q, s.broker.questions.get? id = some q → q.status = "pending" →
        q.envelope.recipient ≠ "main"
  | .poll m limit clock => ∀ handed, (s.broker.poll m limit clock).2 = .ok handed →
      HandsToOne s.broker.mail m handed
  | .acknowledge m id => ∀ e, s.broker.mail.envelope? id = some e → e.recipient = "pool" →
      ∀ m' ∈ s.broker.members, m' ≠ m → ¬ s.broker.mail.Unread m' id
  | _ => True

/-- A broker, its history and the replay of its journal. -/
structure Rehydrates (config : BrokerConfig τ) (b : AgentMessageBroker τ) (h : Traffic τ) : Prop where
  short : b.pool_id.length ≤ 128
  delivery : Delivery b.mail h
  mail : MailSim b.mail h (b.replayed config)
  questions : QuestionSim b.members b.mail.envelope? b.questions (b.replayed config).questions

namespace Rehydrates

variable {config : BrokerConfig τ} {b b' : AgentMessageBroker τ} {h h' : Traffic τ}

omit [LinearOrder τ] in
theorem replayed_append {events : List (JournaledEvent τ)}
    (hjournal : b'.journal = b.journal ++ events) : b'.replayed config
      = events.foldl AgentMessageBroker.rehydrateEvent (b.replayed config) := by
  unfold AgentMessageBroker.replayed
  rw [hjournal, List.foldl_append]

omit [LinearOrder τ] in
theorem replayed_concat {raw : JournaledEvent τ} (hjournal : b'.journal = b.journal ++ [raw]) :
    b'.replayed config = (b.replayed config).rehydrateEvent raw := by
  rw [replayed_append hjournal, List.foldl_cons, List.foldl_nil]

theorem pool_eq (s : Rehydrates config b h) :
    strTake 128 b.pool_id = (b.replayed config).pool_id := by
  rw [strTake_eq_self.mpr s.short]
  exact s.mail.pool_id.symm

theorem touch {id : String} {q q₁ : QuestionRecord τ} (s : Rehydrates config b h)
    (hq : b.questions.get? id = some q) (hid : q₁.question_id = q.question_id)
    (henvelope : q₁.envelope = q.envelope) (hstatus : q₁.status = q.status)
    (hanswer : q₁.answer = q.answer) :
    Rehydrates config { b with questions := b.questions.set id q₁ } h :=
  ⟨s.short, s.delivery, s.mail, s.questions.touch hq hid henvelope hstatus hanswer⟩

theorem recorded (s : Rehydrates config b h) (hmail : b'.mail = b.mail)
    (hjournal : b'.journal = b.journal) {event : BrokerEvent τ} {p : AgentMessageBroker τ}
    (hevent : (b.replayed config).rehydrateEvent ⟨strTake 128 b.pool_id, event⟩ = p)
    (hp : p.mail = (b.replayed config).mail)
    (hquestions : QuestionSim b.members b.mail.envelope? b'.questions p.questions) :
    Rehydrates config (b'.record event) h := by
  have hconfig : b'.toBrokerConfig = b.toBrokerConfig := congrArg Mail.toBrokerConfig hmail
  have hmembers : b'.members = b.members := congrArg Mail.members hmail
  have hrecord : (b'.record event).mail = b'.mail := rfl
  have hreplayed : (b'.record event).replayed config = p := by
    have hgrown : (b'.record event).journal = b.journal ++ [⟨strTake 128 b.pool_id, event⟩] := by
      unfold AgentMessageBroker.record
      rw [hjournal, hconfig]
    rw [replayed_concat hgrown, hevent]
  constructor
  case short =>
    show b'.pool_id.length ≤ 128
    rw [hconfig]
    exact s.short
  case delivery =>
    rw [hrecord, hmail]
    exact s.delivery
  case mail =>
    rw [hrecord, hmail, hreplayed]
    exact s.mail.of_mail hp
  case questions =>
    rw [hrecord, hmail, hreplayed]
    show QuestionSim b'.members _ b'.questions _
    rw [hmembers]
    exact hquestions

/-- A pending question ends with an event that the replay knows. -/
theorem finish {id : String} {q : QuestionRecord τ} (s : Rehydrates config b h)
    (hq : b.questions.get? id = some q) (hpending : q.status = "pending")
    {event : QuestionProjection τ → BrokerEvent τ} {status : String}
    (hevent : (event, status) ∈ AgentMessageBroker.finishEvents) (answer : String) (now : τ) :
    Rehydrates config ((b.finishQuestion q answer status now).record
      (event ((b.finishQuestion q answer status now).questionProjection (q.finish answer status)))) h := by
  have hkey := s.questions.keyed hq
  obtain ⟨q', hq', henvelope, hstatus, -⟩ := s.questions.of_pending hq hpending
  have hover : status ≠ "pending" ∧ status ≠ "orphaned" := by
    simp only [AgentMessageBroker.finishEvents, List.mem_cons, Prod.mk.injEq, List.not_mem_nil,
      or_false] at hevent
    rcases hevent with ⟨-, rfl⟩ | ⟨-, rfl⟩ | ⟨-, rfl⟩ <;> decide
  refine s.recorded (AgentMessageBroker.finishQuestion_mail ..)
    (AgentMessageBroker.journal_finishQuestion ..)
    (AgentMessageBroker.rehydrateEvent_finish s.pool_eq hevent (by
      show (b.replayed config).questions.get? q.question_id = some q'
      rw [hkey]
      exact hq') hstatus) rfl ?_
  rw [AgentMessageBroker.questions_finishQuestion]
  show QuestionSim _ _ (b.questions.set q.question_id _) (Dict.set _ q.question_id _)
  rw [hkey]
  exact s.questions.finish hq henvelope hover

theorem finishAll {ends : QuestionRecord τ → Bool} {status : String}
    {event : QuestionProjection τ → BrokerEvent τ} (s : Rehydrates config b h) (clock : Nat → τ)
    (ids : List (String × Nat)) (hends : ∀ q, ends q = true → q.status = "pending")
    (hevent : (event, status) ∈ AgentMessageBroker.finishEvents) :
    Rehydrates config (AgentMessageBroker.finishQuestions ends status (some event) clock ids b) h := by
  refine AgentMessageBroker.finishQuestions_induct (P := fun b => Rehydrates config b h)
    (fun b id q i s hq hq' => ?_) ids s
  exact s.finish hq (hends q hq') hevent "" (clock i)

/-- The parent refuses with the status `pending`: the replay does not see it. -/
theorem refusePending {clock : Nat → τ} {ids : List (String × Nat)} {ends : QuestionRecord τ → Bool}
    (s : Rehydrates config b h) (hends : ∀ q, ends q = true → q.status = "pending") :
    Rehydrates config (AgentMessageBroker.finishQuestions ends "pending"
      (some .question_refused) clock ids b) h := by
  refine AgentMessageBroker.finishQuestions_induct (P := fun b => Rehydrates config b h)
    (fun b id q i s hq hq' => ?_) ids s
  have hkey := s.questions.keyed hq
  have hpending := hends q hq'
  refine s.recorded (AgentMessageBroker.finishQuestion_mail ..)
    (AgentMessageBroker.journal_finishQuestion ..)
    (AgentMessageBroker.rehydrateEvent_ignored (.inr ⟨_, rfl⟩)) rfl ?_
  rw [AgentMessageBroker.questions_finishQuestion, hkey]
  exact s.questions.touch hq rfl rfl hpending.symm (s.questions.pending hq hpending).1.symm

theorem register {w : String} (s : Rehydrates config b h)
    (hok : w ≠ "main" → w ≠ "pool" → b.closed = false → b.mail.JoinsClean w
      ∧ ∀ id q, b.questions.get? id = some q → q.status = "orphaned" →
        ¬ q.HasParties (w :: b.members))
    (d' : Delivery (b.registerWorker w).1.mail h) : Rehydrates config (b.registerWorker w).1 h := by
  rcases AgentMessageBroker.registerWorker_cases (b := b) w with
    hsame | ⟨⟨hmain, hpool⟩, hvalid, hopen, hmail, hjournal, hquestions⟩
  · rw [hsame]
    exact s
  · obtain ⟨hclean, horphaned⟩ := hok hmain hpool hopen
    have hne : w ≠ "" := by
      rintro rfl
      exact absurd hvalid (by decide)
    have hmembers : (b.registerWorker w).1.members
        = if w ∈ b.members then b.members else b.members ++ [w] := congrArg Mail.members hmail
    have hmem : ∀ m, m ∈ (b.registerWorker w).1.members ↔ m ∈ w :: b.members := by
      intro m
      rw [hmembers, List.mem_cons]
      split
      · rename_i hw
        exact ⟨.inr, fun h => h.elim (fun h => h ▸ hw) id⟩
      · rw [List.mem_append, List.mem_singleton, or_comm]
    have hreplayed : (b.registerWorker w).1.replayed config = _ := (replayed_concat hjournal).trans
      (AgentMessageBroker.rehydrateEvent_member s.pool_eq hne)
    constructor
    case short =>
      rw [show (b.registerWorker w).1.pool_id = b.pool_id from
        congrArg (fun x => x.toBrokerConfig.pool_id) hmail]
      exact s.short
    case delivery => exact d'
    case mail =>
      rw [hreplayed]
      exact s.mail.join hclean (fun id hid => by
        obtain ⟨⟨e, he, hrec⟩, hq, hnot⟩ := b.mail.mem_moved.mp hid
        exact ⟨e, he, hrec, hq, hnot⟩) hmail rfl
    case questions =>
      rw [hquestions, hmail, hreplayed]
      refine s.questions.members_change ?_ ?_
      · rintro id q - - ⟨hsender, hrecipient⟩
        exact ⟨(hmem _).mpr (List.mem_cons_of_mem _ hsender),
          hrecipient.imp_right fun h => (hmem _).mpr (List.mem_cons_of_mem _ h)⟩
      · rintro id q hq ho - ⟨hsender, hrecipient⟩
        exact horphaned id q hq ho ⟨(hmem _).mp hsender, hrecipient.imp_right (hmem _).mp⟩

theorem unregister {w reason : String} {clock : Nat → τ} (s : Rehydrates config b h)
    (hok : w ≠ "main" → ∀ id q, b.questions.get? id = some q → q.status = "pending" →
      q.envelope.sender ≠ w → q.envelope.recipient ≠ w)
    (d' : Delivery (b.unregisterWorker w reason clock).mail h) :
    Rehydrates config (b.unregisterWorker w reason clock) h := by
  have hmail := AgentMessageBroker.unregisterWorker_mail (b := b) w reason clock
  have hmembers : (b.unregisterWorker w reason clock).members = b.members.filter (· ≠ w) :=
    congrArg Mail.members hmail
  have hkeyed : b.KeyedQuestions := fun id q hq => s.questions.keyed hq
  have hget : ∀ id, (b.unregisterWorker w reason clock).questions.get? id
      = (b.questions.get? id).map fun q =>
          if q.envelope.sender = w && q.status = "pending" then q.finish "" "orphaned" else q :=
    AgentMessageBroker.get?_finishQuestions_all { b with members := b.members.filter (· ≠ w) } hkeyed
  have hjournal : (b.unregisterWorker w reason clock).journal = b.journal
      ++ [⟨strTake 128 b.pool_id, .agent_message_rejected w reason⟩,
        ⟨strTake 128 b.pool_id, .agent_pool_member w true⟩] := by
    have hloop : ∀ b₁ : AgentMessageBroker τ, b₁.journal = b.journal ∧ b₁.pool_id = b.pool_id →
        (AgentMessageBroker.finishQuestions (fun q => q.envelope.sender = w && q.status = "pending")
          "orphaned" none clock b₁.questionIds b₁).journal = b.journal
        ∧ (AgentMessageBroker.finishQuestions (fun q => q.envelope.sender = w && q.status = "pending")
          "orphaned" none clock b₁.questionIds b₁).pool_id = b.pool_id := by
      intro b₁ h₁
      refine AgentMessageBroker.finishQuestions_induct
        (P := fun b₂ => b₂.journal = b.journal ∧ b₂.pool_id = b.pool_id)
        (fun b₂ id q i h₂ _ _ => ⟨?_, ?_⟩) _ h₁
      · exact (AgentMessageBroker.journal_finishQuestion ..).trans h₂.1
      · exact (congrArg BrokerConfig.pool_id
          (AgentMessageBroker.toBrokerConfig_finishQuestion ..)).trans h₂.2
    obtain ⟨hj, hp⟩ := hloop { b with members := b.members.filter (· ≠ w) } ⟨rfl, rfl⟩
    unfold AgentMessageBroker.unregisterWorker AgentMessageBroker.record
    dsimp only
    rw [hj, hp, List.append_assoc]
    rfl
  have hreplayed : (b.unregisterWorker w reason clock).replayed config
      = { b.replayed config with members := (b.replayed config).members.filter (· ≠ w) } := by
    rw [replayed_append hjournal, List.foldl_cons,
      AgentMessageBroker.rehydrateEvent_ignored (.inl ⟨w, reason, rfl⟩), List.foldl_cons, List.foldl_nil]
    by_cases hw : w = ""
    · -- the empty name is nobody's
      have hnone : ∀ m ∈ (b.replayed config).members, m ≠ w := by
        rintro m hm rfl
        rw [s.mail.members] at hm
        exact absurd (s.delivery.members_valid hm) (by rw [hw]; decide)
      rw [List.filter_eq_self.mpr fun m hm => decide_eq_true (hnone m hm)]
      subst hw
      unfold AgentMessageBroker.rehydrateEvent
      rw [if_neg (not_not.mpr s.pool_eq)]
      rfl
    · exact AgentMessageBroker.rehydrateEvent_member s.pool_eq hw
  have hmem : ∀ m, m ∈ (b.unregisterWorker w reason clock).members ↔ m ∈ b.members ∧ m ≠ w := by
    intro m
    rw [hmembers, List.mem_filter, decide_eq_true_iff]
  constructor
  case short =>
    rw [show (b.unregisterWorker w reason clock).pool_id = b.pool_id from
      congrArg (fun x => x.toBrokerConfig.pool_id) hmail]
    exact s.short
  case delivery => exact d'
  case mail =>
    rw [hreplayed, hmail]
    exact s.mail.leave rfl
  case questions =>
    rw [hreplayed, hmail]
    constructor
    case keyed =>
      intro id q hq
      rw [hget, Option.map_eq_some_iff] at hq
      obtain ⟨q₀, hq₀, rfl⟩ := hq
      have hkey := s.questions.keyed hq₀
      split <;> exact hkey
    case known =>
      intro id q hq
      rw [hget, Option.map_eq_some_iff] at hq
      obtain ⟨q₀, hq₀, rfl⟩ := hq
      have hknown := s.questions.known hq₀
      split <;> exact hknown
    case same =>
      intro id
      rw [hget]
      have hsame := s.questions.same id
      cases hq : b.questions.get? id with
      | none =>
        rw [hq] at hsame
        exact hsame
      | some q =>
        rw [Option.map_some]
        split
        · rename_i hends
          rw [Bool.and_eq_true, decide_eq_true_iff, decide_eq_true_iff] at hends
          obtain ⟨q', hq', henvelope, hstatus, hanswer⟩ := s.questions.of_pending hq hends.2
          rw [show ({ b.replayed config with members := _ } : AgentMessageBroker τ).questions.get? id
            = some q' from hq']
          exact .orphan henvelope rfl rfl hstatus hanswer
        · rw [hq] at hsame
          exact hsame
    case pending =>
      intro id q hq hp
      rw [hget, Option.map_eq_some_iff] at hq
      obtain ⟨q₀, hq₀, rfl⟩ := hq
      split at hp
      · rw [QuestionRecord.status_finish] at hp
        exact absurd hp (by decide)
      · rename_i hends
        rw [if_neg hends]
        rw [Bool.and_eq_true, decide_eq_true_iff, decide_eq_true_iff, not_and'] at hends
        have hsender := hends hp
        obtain ⟨hanswer, hin, hrecipient⟩ := s.questions.pending hq₀ hp
        refine ⟨hanswer, (hmem _).mpr ⟨hin, hsender⟩, ?_⟩
        by_cases hw : w = "main"
        · by_cases hr : q₀.envelope.recipient = "main"
          · exact .inl hr
          · exact .inr ((hmem _).mpr ⟨hrecipient.resolve_left hr, hw ▸ hr⟩)
        · exact hrecipient.imp_right fun hr => (hmem _).mpr ⟨hr, hok hw id q₀ hq₀ hp hsender⟩
    case orphaned =>
      intro id q hq ho
      rw [hget, Option.map_eq_some_iff] at hq
      obtain ⟨q₀, hq₀, rfl⟩ := hq
      split at ho
      · rename_i hends
        rw [if_pos hends]
        rw [Bool.and_eq_true, decide_eq_true_iff] at hends
        exact ⟨rfl, fun hparties => ((hmem _).mp hparties.1).2 hends.1⟩
      · rename_i hends
        rw [if_neg hends]
        obtain ⟨hanswer, hgone⟩ := s.questions.orphaned hq₀ ho
        refine ⟨hanswer, fun hparties => hgone ⟨((hmem _).mp hparties.1).1, ?_⟩⟩
        exact hparties.2.imp_right fun hr => ((hmem _).mp hr).1

theorem enqueue [Add τ] {a : SendArgs τ} {message_id : String} (s : Rehydrates config b h)
    (now : τ) (hfresh : b.messages.get? message_id = none)
    (hcheck : b.checkSend a = .ok ()) : Rehydrates config (b.enqueue a message_id now)
      (h.addressing b (b.enqueue a message_id now) message_id) := by
  obtain ⟨⟨-, hsender⟩, ⟨-, hrecipient⟩, -, -, hsome, -⟩ := AgentMessageBroker.checkSend_iff.mp hcheck
  have htargets : (b.replayed config).targets a.sender a.recipient = b.targets a.sender a.recipient := by
    unfold AgentMessageBroker.targets
    rw [s.mail.members]
    rfl
  have hfresh' : (b.replayed config).messages.get? message_id = none := by
    have henv := congrFun s.mail.envelopes message_id
    unfold Mail.envelope? at henv
    rw [show b.mail.messages.get? message_id = none from hfresh] at henv
    exact Option.map_eq_none_iff.mp henv
  have hevent := AgentMessageBroker.rehydrateEvent_sent (e := b.envelope a message_id now) s.pool_eq
    s.mail.conversation_id.symm s.mail.parent_run_id.symm s.mail.pool_id.symm
    (by rw [s.mail.members]; exact hsender) (by rw [s.mail.members]; exact hrecipient)
    (fun hp => by
      show (b.replayed config).targets a.sender a.recipient ≠ []
      rw [htargets]
      exact hsome hp) hfresh'
  have hreplayed : (b.enqueue a message_id now).replayed config = _ :=
    (replayed_concat (b := b) rfl).trans hevent
  have htraffic : h.addressing b (b.enqueue a message_id now) message_id
      = { h with addressed := fun m => if m ∈ b.targets a.sender a.recipient then
          h.addressed m ++ [message_id] else h.addressed m } := by
    unfold Traffic.addressing
    rw [hfresh, show (b.enqueue a message_id now).messages.get? message_id = _ from
      Dict.get?_set_self ..]
    rfl
  constructor
  case short => exact s.short
  case delivery => exact s.delivery.enqueue now hfresh hcheck rfl
  case mail =>
    have hmail : (b.enqueue a message_id now).mail = { b.mail with
        messages := b.mail.messages.set message_id
          { envelope := b.envelope a message_id now, state := .queued }
        mailboxes := fun m => if m ∈ b.targets a.sender a.recipient then
          b.mail.mailboxes m ++ [message_id] else b.mail.mailboxes m
        sequence := fun s => if s = a.sender then b.sequence s + 1 else b.sequence s } := rfl
    rw [htraffic]
    rw [show (b.replayed config).targets (b.envelope a message_id now).sender
      (b.envelope a message_id now).recipient = b.targets a.sender a.recipient from htargets]
      at hreplayed
    exact s.mail.put hfresh hmail hreplayed
  case questions =>
    rw [hreplayed]
    refine s.questions.grow fun {id e} he => ?_
    have hset : (b.enqueue a message_id now).mail.messages = b.mail.messages.set message_id
      { envelope := b.envelope a message_id now, state := .queued } := rfl
    rw [Mail.envelope?_set hset, if_neg]
    · exact he
    · rintro rfl
      unfold Mail.envelope? at he
      rw [show b.mail.messages.get? message_id = none from hfresh] at he
      cases he

theorem openQuestion [Add τ] {a : SendArgs τ} {message_id : String} {now : τ}
    (s : Rehydrates config b h) (hfresh : b.messages.get? message_id = none)
    (hcheck : b.checkSend a = .ok ()) (hone : a.recipient ≠ "pool") :
    Rehydrates config ((b.enqueue a message_id now).startQuestion (b.envelope a message_id now))
      (h.addressing b (b.enqueue a message_id now) message_id) := by
  have s' := s.enqueue now hfresh hcheck
  obtain ⟨⟨-, hsender⟩, ⟨-, hrecipient⟩, -⟩ := AgentMessageBroker.checkSend_iff.mp hcheck
  have hrecord : (b.enqueue a message_id now).mail.messages.get? message_id
      = some { envelope := b.envelope a message_id now, state := .queued } := Dict.get?_set_self ..
  obtain ⟨r, hr, hre⟩ := s'.mail.get? hrecord
  have hnone : b.questions.get? message_id = none := by
    by_contra hq
    obtain ⟨q, hq⟩ := Option.ne_none_iff_exists'.mp hq
    have he := s.questions.known hq
    unfold Mail.envelope? at he
    rw [show b.mail.messages.get? message_id = none from hfresh] at he
    cases he
  have hnone' : ((b.enqueue a message_id now).replayed config).questions.get? message_id = none := by
    have hsame := s'.questions.same message_id
    rw [show (b.enqueue a message_id now).questions.get? message_id = none from hnone] at hsame
    generalize hq : ((b.enqueue a message_id now).replayed config).questions.get? message_id = o at hsame
    cases hsame
    rfl
  unfold AgentMessageBroker.startQuestion
  dsimp only
  refine s'.recorded ?_ ?_ (AgentMessageBroker.rehydrateEvent_started
    ((b.enqueue a message_id now).questionProjection (AgentMessageBroker.questionRecord (b.envelope a message_id now)))
    s'.pool_eq hr hnone') rfl ?_
  · rfl
  · rfl
  · show QuestionSim _ _ (Dict.set _ message_id _) (Dict.set _ message_id _)
    rw [hre]
    exact s'.questions.start rfl (Mail.envelope?_of_get? hrecord) rfl rfl
      ⟨hsender, .inr (hrecipient.resolve_left hone)⟩

theorem poll {m : String} {limit : Int} {clock : Nat → τ} {handed : List (AgentMessageEnvelope τ)}
    (s : Rehydrates config b h) (hpoll : b.poll m limit clock = (b', .ok handed))
    (hone : HandsToOne b.mail m handed) (d' : Delivery b'.mail (h.handing m handed)) :
    Rehydrates config b' (h.handing m handed) := by
  rcases AgentMessageBroker.poll_cases s.delivery.pool_empty m limit clock with
    ⟨message, herr⟩ | ⟨-, -, flag, hok⟩
  · rw [herr] at hpoll
    cases hpoll
  · have hself : b.mail.withMailbox m (b.mailboxes m) = b.mail := b.mail.withMailbox_self m
    rw [hok, Prod.mk.injEq, Except.ok.injEq] at hpoll
    obtain ⟨rfl, rfl⟩ := hpoll
    obtain ⟨events, hjournal, hsim, hquestions⟩ := MailSim.drain clock (b.mailboxes m)
      (min limit.toNat 64) b h (b.replayed config) (s.delivery.box_nodup m) s.short s.delivery.own_id
      (by rw [hself]; exact s.mail) hone
    obtain ⟨-, -, -, henv, -⟩ :=
      AgentMessageBroker.drain_taken m clock (b.mailboxes m) (min limit.toNat 64) b
    generalize hdrained : AgentMessageBroker.drain m clock (min limit.toNat 64) (b.mailboxes m) b
      = drained at hjournal hsim henv d'
    obtain ⟨hboxes, hsame, hconfig, hmembers⟩ : drained.1.mailboxes = b.mailboxes
        ∧ drained.1.questions = b.questions ∧ drained.1.toBrokerConfig = b.toBrokerConfig
        ∧ drained.1.members = b.members := hdrained ▸ AgentMessageBroker.drain_same
    have hmail : ({ drained.1 with
        mailboxes := fun m' => if m' = m then drained.2.2 else b.mailboxes m'
        message_event := flag } : AgentMessageBroker τ).mail
        = drained.1.mail.withMailbox m drained.2.2 := by
      unfold Mail.withMailbox AgentMessageBroker.mail
      dsimp only
      rw [hboxes]
    have hreplayed : ({ drained.1 with
        mailboxes := fun m' => if m' = m then drained.2.2 else b.mailboxes m'
        message_event := flag } : AgentMessageBroker τ).replayed config
        = events.foldl AgentMessageBroker.rehydrateEvent (b.replayed config) :=
      replayed_append hjournal
    constructor
    case short =>
      show drained.1.pool_id.length ≤ 128
      rw [hconfig]
      exact s.short
    case delivery => exact d'
    case mail =>
      rw [hmail, hreplayed]
      exact hsim
    case questions =>
      rw [hreplayed, hquestions]
      show QuestionSim drained.1.members drained.1.mail.envelope? drained.1.questions _
      rw [hmembers, henv, hsame]
      exact s.questions

theorem acknowledge {m id : String} {r : MessageRecord τ} (s : Rehydrates config b h)
    (hr : b.messages.get? id = some r)
    (hone : r.envelope.recipient = "pool" → ∀ m' ∈ b.members, m' ≠ m → ¬ b.mail.Unread m' id)
    (howner : r.envelope.recipient = m ∨ r.envelope.recipient = "pool") :
    Rehydrates config ((b.setRecord id (r.acknowledge b.members m)).record
      (.agent_message_acknowledged id m)) (h.acknowledging m id) := by
  have hstate := Delivery.acknowledge_not_queued r b.members m
  have henv : b.mail.envelope? id = some r.envelope := Mail.envelope?_of_get? (x := b.mail) hr
  have hsame : (b.mail.withRecord id (r.acknowledge b.members m)).envelope? = b.mail.envelope? :=
    Mail.envelope?_withRecord (x := b.mail) hr rfl
  have hmail : ((b.setRecord id (r.acknowledge b.members m)).record
      (.agent_message_acknowledged id m)).mail
      = b.mail.withRecord id (r.acknowledge b.members m) := rfl
  have hlapsed : ∀ j, (b.mail.withRecord id (r.acknowledge b.members m)).Lapsed j
      ↔ b.mail.Lapsed j := by
    intro j
    unfold Mail.Lapsed
    rw [hsame]
    rfl
  have hget : ∀ j, (b.mail.withRecord id (r.acknowledge b.members m)).messages.get? j
      = if id = j then some (r.acknowledge b.members m) else b.messages.get? j :=
    fun j => Dict.get?_set ..
  have hunread : ∀ {m' j}, (b.mail.withRecord id (r.acknowledge b.members m)).Unread m' j →
      b.mail.Unread m' j := by
    rintro m' j ⟨hbox, ⟨r', hr', hack⟩, hl⟩
    refine ⟨hbox, ?_, fun h => hl ((hlapsed j).mpr h)⟩
    rw [hget] at hr'
    split at hr'
    · rename_i hj
      cases hr'
      exact ⟨r, hj ▸ hr, fun hin => hack (List.mem_append_left _ hin)⟩
    · exact ⟨r', hr', hack⟩
  obtain ⟨rp, hrp, -⟩ := s.mail.get? hr
  obtain ⟨rp', hevent, hrpe, hover⟩ :=
    AgentMessageBroker.rehydrateEvent_acknowledged (m := m) s.pool_eq hrp
  have hreplayed : ((b.setRecord id (r.acknowledge b.members m)).record
      (.agent_message_acknowledged id m)).replayed config = (b.replayed config).setRecord id rp' :=
    (replayed_concat (b := b) rfl).trans hevent
  constructor
  case short => exact s.short
  case delivery => exact s.delivery.acknowledge hr rfl rfl hstate
  case mail =>
    rw [hmail, hreplayed]
    refine s.mail.settle _ id rp' rfl rfl (Mail.ids_withRecord hr) hsame (hlapsed _).mpr
      (fun m' j hj => hj) hunread (fun j => Mail.queued_withRecord hstate) rfl (fun m' hm' hu => ?_)
      hrp hrpe hover
    by_cases hm : m' = m
    · -- its own copy is acknowledged
      obtain ⟨-, ⟨r', hr', hack⟩, -⟩ := hu
      rw [hget, if_pos rfl] at hr'
      cases hr'
      rw [hm] at hack
      exact hack (List.mem_append_right _ (List.mem_singleton_self _))
    · obtain ⟨e, he, hrec⟩ := s.delivery.in_box (hunread hu).1
      rw [henv, Option.some.injEq] at he
      subst he
      rcases howner with howner | hpool
      · rcases hrec with hrec | hrec
        · exact hm (hrec.symm.trans howner)
        · exact hone hrec m' hm' hm (hunread hu)
      · exact hone hpool m' hm' hm (hunread hu)
  case questions =>
    rw [hmail, hreplayed]
    show QuestionSim b.members _ b.questions (b.replayed config).questions
    rw [hsame]
    exact s.questions

theorem of_addressed (s : Rehydrates config b h) (hh : h'.addressed = h.addressed)
    (d' : Delivery b.mail h') : Rehydrates config b h' :=
  ⟨s.short, d', s.mail.of_addressed hh, s.questions⟩

/-- **Step.** Every operation `Replayable` allows keeps the broker and the
replay of its journal together. -/
theorem step [Add τ] [Zero τ] {s : BrokerRun τ} (hs : Rehydrates config s.broker s.traffic)
    (op : BrokerOp τ) (hok : s.Replayable op) :
    Rehydrates config (s.step op).broker (s.step op).traffic := by
  have d' := hs.delivery.step op hok.1
  obtain ⟨b, h⟩ := s
  obtain ⟨hfresh, hok⟩ := hok
  unfold BrokerRun.step at d' ⊢
  dsimp only at hs d' hok ⊢
  cases op with
  | register_worker w => exact hs.register hok d'
  | unregister_worker w reason clock => exact hs.unregister hok d'
  | send a message_id now =>
    unfold AgentMessageBroker.step Traffic.after at d' ⊢
    dsimp only at d' ⊢
    rcases b.sendLocked_cases a message_id now with ⟨message, -, he⟩ | ⟨e, -, -, -, he⟩ | ⟨hc, -, he⟩
    · rw [he]
      exact hs
    · rw [he] at d' ⊢
      dsimp only at d' ⊢
      rw [Traffic.addressing_self h hfresh] at d' ⊢
      exact hs.of_addressed rfl d'
    · rw [he] at d' ⊢
      exact (hs.enqueue now hfresh hc).of_addressed rfl d'
  | open_question a message_id now =>
    unfold AgentMessageBroker.step Traffic.after
    dsimp only
    rcases b.openQuestion_cases a message_id now with ⟨message, he⟩ | ⟨hc, -, projection, he⟩
    · rw [he, Traffic.addressing_self h hfresh]
      exact hs
    · rw [he]
      exact hs.openQuestion (a := b.questionSend a) hfresh hc hok
  | answer_question answerer questionId answer now =>
    unfold AgentMessageBroker.step Traffic.after AgentMessageBroker.answerQuestion
    dsimp only
    split
    · exact hs
    · cases hq : b.questions.get? questionId with
      | none => exact hs
      | some q =>
        dsimp only
        split
        · exact hs
        · rename_i hpending
          split
          · exact hs
          · exact hs.finish hq (not_not.mp hpending) AgentMessageBroker.answered_mem _ now
  | refuse_parent_questions status clock =>
    unfold AgentMessageBroker.step Traffic.after AgentMessageBroker.refuseParentQuestions
    dsimp only
    have hs' : Rehydrates config { b with parent_refusal := strTake 64 status } h :=
      ⟨hs.short, hs.delivery, hs.mail, hs.questions⟩
    rcases hok with hstatus | hnone
    · rw [hstatus] at hs' ⊢
      exact hs'.refusePending fun q hq => by
        rw [Bool.and_eq_true, decide_eq_true_iff] at hq
        exact hq.1
    · -- there is nothing to refuse
      refine (AgentMessageBroker.finishQuestions_induct (P := fun b' =>
        Rehydrates config b' h ∧ b'.questions = b.questions) (fun b' id q i hb' hq hends => ?_)
        _ ⟨hs', rfl⟩).1
      rw [hb'.2] at hq
      rw [Bool.and_eq_true, decide_eq_true_iff, decide_eq_true_iff] at hends
      exact absurd hends.2 (hnone id q hq hends.1)
  | begin_wait questionId =>
    unfold AgentMessageBroker.step Traffic.after AgentMessageBroker.beginWait
    dsimp only
    cases hq : b.questions.get? questionId with
    | none => exact hs
    | some q =>
      dsimp only
      split
      · exact hs.touch hq rfl rfl rfl rfl
      · split
        · exact hs
        · split
          · exact hs
          · exact hs.touch hq rfl rfl rfl rfl
  | end_wait questionId =>
    unfold AgentMessageBroker.step Traffic.after AgentMessageBroker.endWait
    dsimp only
    cases hq : b.questions.get? questionId with
    | none => exact hs
    | some q => exact hs.touch hq rfl rfl rfl rfl
  | cancel_future questionId =>
    unfold AgentMessageBroker.step Traffic.after AgentMessageBroker.cancelFuture
    dsimp only
    cases hq : b.questions.get? questionId with
    | none => exact hs
    | some q =>
      dsimp only
      split
      · exact hs.touch hq rfl rfl rfl rfl
      · exact hs
  | expire_question questionId now =>
    unfold AgentMessageBroker.step Traffic.after AgentMessageBroker.expireQuestion
    dsimp only
    cases hq : b.questions.get? questionId with
    | none => exact hs
    | some q =>
      dsimp only
      split
      · rename_i hpending
        exact hs.finish hq hpending AgentMessageBroker.timedOut_mem "" now
      · exact hs
  | poll m limit clock =>
    unfold AgentMessageBroker.step Traffic.after at d' ⊢
    dsimp only at d' ⊢
    rcases hs.delivery.poll m limit clock with ⟨message, he⟩ | ⟨b', handed, he, -⟩
    · rw [he]
      exact hs
    · rw [he] at d' ⊢
      exact hs.poll he (hok handed (congrArg Prod.snd he)) d'
  | acknowledge m id =>
    unfold AgentMessageBroker.step Traffic.after AgentMessageBroker.acknowledge
    dsimp only
    cases hr : b.messages.get? id with
    | none => exact hs
    | some r =>
      dsimp only
      split
      · exact hs
      · rename_i howner
        rw [not_and_or, not_not, not_not] at howner
        exact hs.acknowledge hr (hok r.envelope (Mail.envelope?_of_get? hr)) howner
  | close clock =>
    unfold AgentMessageBroker.step Traffic.after AgentMessageBroker.close
    dsimp only
    have hs' : Rehydrates config { b with closed := true } h :=
      ⟨hs.short, hs.delivery, hs.mail, hs.questions⟩
    have hclosed := hs'.finishAll clock b.questionIds (fun q hq => of_decide_eq_true hq)
      AgentMessageBroker.cancelled_mem
    exact ⟨hclosed.short, hclosed.delivery, hclosed.mail, hclosed.questions⟩

theorem start {config' : BrokerConfig τ} (hshort : config.pool_id.length ≤ 128)
    (hconversation : config'.conversation_id = config.conversation_id)
    (hparent : config'.parent_run_id = config.parent_run_id)
    (hpool : config'.pool_id = config.pool_id) : Rehydrates config' config.broker {} where
  short := hshort
  delivery := Delivery.start config
  mail :=
    { conversation_id := hconversation
      parent_run_id := hparent
      pool_id := hpool
      members := rfl
      ids := rfl
      envelopes := rfl
      boxes := rfl
      queued := fun _ => Iff.rfl
      settled := fun hr => by cases hr
      unread := fun _ hid => by cases hid.1
      on_time := fun hid => by cases hid }
  questions :=
    { keyed := fun hq => by cases hq
      known := fun hq => by cases hq
      same := fun _ => .none
      pending := fun hq => by cases hq
      orphaned := fun hq => by cases hq }

end Rehydrates

/-! ## 2. What the members of a broker can poll -/

theorem AgentMessageEnvelope.expired.trans_le {e : AgentMessageEnvelope τ} {t now : τ}
    (hexp : e.expired t = true) (hnow : t ≤ now) : e.expired now = true := by
  unfold AgentMessageEnvelope.expired at hexp ⊢
  split at hexp
  · cases hexp
  · exact decide_eq_true ((of_decide_eq_true hexp).trans hnow)

namespace AgentMessageBroker

/-- What the loop of `poll` does with a message at this time. -/
def pollable (b : AgentMessageBroker τ) (m : String) (now : τ) (id : String) :
    Option (AgentMessageEnvelope τ) :=
  match b.messages.get? id with
  | none => none
  | some r => if m ∈ r.acknowledged_by ∨ r.envelope.expired now = true then none else some r.envelope

/-- When the clock stands still, the loop hands out what is not acknowledged
and has not expired, until it has as much as it may. -/
theorem drain_pollable (m : String) (now : τ) : ∀ (ids : List String) (room : Nat)
    (b : AgentMessageBroker τ), (drain m (fun _ => now) room ids b).2.1
      = (ids.filterMap (b.pollable m now)).take room := by
  intro ids
  induction ids with
  | nil =>
    intro room b
    rw [drain_nil, List.filterMap_nil, List.take_nil]
  | cons id ids ih =>
    intro room b
    cases room with
    | zero => rfl
    | succ room =>
      have hpollable : ∀ {r : MessageRecord τ} (state : MessageState) {b' : AgentMessageBroker τ},
          b.messages.get? id = some r → b'.messages = b.messages.set id { r with state } →
          b'.pollable m now = b.pollable m now := by
        intro r state b' hr hb'
        funext j
        unfold pollable
        rw [hb', Dict.get?_set]
        by_cases hj : id = j
        · subst hj
          rw [if_pos rfl, hr]
        · rw [if_neg hj]
      unfold drain
      rw [List.filterMap_cons]
      cases hr : b.messages.get? id with
      | none =>
        rw [show b.pollable m now id = none by unfold pollable; rw [hr]]
        exact ih _ _
      | some r =>
        dsimp only
        by_cases hack : m ∈ r.acknowledged_by
        · rw [show b.pollable m now id = none by
            unfold pollable; rw [hr]; exact if_pos (.inl hack), if_pos hack]
          exact ih _ _
        · rw [if_neg hack]
          by_cases hexp : r.envelope.expired now = true
          · rw [show b.pollable m now id = none by
              unfold pollable; rw [hr]; exact if_pos (.inr hexp), if_pos hexp, ih,
              hpollable .expired hr rfl]
          · rw [show b.pollable m now id = some r.envelope by
              unfold pollable; rw [hr]; exact if_neg (not_or.mpr ⟨hack, hexp⟩), if_neg hexp, ih,
              hpollable .delivered hr rfl]
            rfl

theorem poll_pollable {b : AgentMessageBroker τ} (hpool : b.mailboxes "pool" = []) {m : String}
    (hvalid : b.validateRecipient m = .ok ()) {limit : Int} (hlimit : 1 ≤ limit) (now : τ) :
    (b.poll m limit fun _ => now).2
      = .ok (((b.mailboxes m).filterMap (b.pollable m now)).take (min limit.toNat 64)) := by
  rcases poll_cases hpool m limit fun _ => now with ⟨message, herr⟩ | ⟨-, -, flag, hok⟩
  · unfold poll at herr
    rw [if_neg (by omega), hvalid] at herr
    dsimp only at herr
    have hsnd := congrArg Prod.snd herr
    cases hsnd
  · rw [hok, ← drain_pollable]

end AgentMessageBroker

/-- The messages addressed to a member that it has neither polled nor
acknowledged and that have not expired. -/
def BrokerRun.unread (s : BrokerRun τ) (m : String) (now : τ) : List (AgentMessageEnvelope τ) :=
  ((s.traffic.addressed m).filterMap s.broker.mail.envelope?).filter fun e =>
    e.message_id ∉ (s.traffic.received m).map (·.message_id)
      ∧ e.message_id ∉ s.traffic.acknowledged m ∧ e.expired now = false

/-! ## 3. The two brokers agree -/

/-- The configuration of the broker that `rehydrate` builds: the same IDs,
whatever its limits. -/
def BrokerConfig.reopened (config limits : BrokerConfig τ) : BrokerConfig τ :=
  { limits with
    conversation_id := config.conversation_id
    parent_run_id := config.parent_run_id
    pool_id := config.pool_id }

/-- A rehydrated broker agrees with the live one. -/
structure BrokerRun.Agrees (s : BrokerRun τ) (r : AgentMessageBroker τ) : Prop where
  /-- Every question has the same status and answer. -/
  questions : ∀ id, (r.questions.get? id).map (fun q => (q.status, q.answer))
    = (s.broker.questions.get? id).map fun q => (q.status, q.answer)
  members : ∀ m ∈ s.broker.members, m ∈ r.members
  /-- A poll hands out what the member had not read. -/
  polls : ∀ m ∈ s.broker.members, ∀ now, (∀ t ∈ s.broker.readings, t ≤ now) → ∀ limit : Int,
    1 ≤ limit → (r.poll m limit fun _ => now).2 = .ok ((s.unread m now).take (min limit.toNat 64))

namespace Rehydrates

variable {config : BrokerConfig τ} {s : BrokerRun τ}

omit [LinearOrder τ] in
/-- `rehydrateEvents` takes the messages that are over out of a mailbox. -/
theorem erase_ended (ended : List (MessageRecord τ)) {box : List String} (hbox : box.Nodup) :
    ended.foldl (fun box r => box.erase r.envelope.message_id) box
      = box.filter (· ∉ ended.map (·.envelope.message_id)) := by
  rw [← List.Nodup.sdiff_eq_filter hbox]
  exact (List.foldl_map ..).symm.trans (List.diff_eq_foldl ..).symm

omit [LinearOrder τ] in
theorem isOrphan_iff {members : List String} {q : QuestionRecord τ} :
    AgentMessageBroker.isOrphan members q = true ↔ q.status = "pending" ∧ ¬ q.HasParties members := by
  unfold AgentMessageBroker.isOrphan QuestionRecord.HasParties
  simp only [Bool.and_eq_true, Bool.or_eq_true, decide_eq_true_iff]
  tauto

omit [LinearOrder τ] in
/-- Orphaning what nobody can answer brings the questions of the replay in
line with those of the live broker. -/
theorem agrees_questions {qs qs' : Dict String (QuestionRecord τ)} {members : List String}
    {envelope? : String → Option (AgentMessageEnvelope τ)}
    (hs : QuestionSim members envelope? qs qs') (id : String) :
    ((qs'.mapValues fun q => if AgentMessageBroker.isOrphan members q then
        { q with status := "orphaned" } else q).get? id).map (fun q => (q.status, q.answer))
      = (qs.get? id).map fun q => (q.status, q.answer) := by
  rw [Dict.get?_mapValues]
  have hsame := hs.same id
  generalize hq' : qs'.get? id = o' at hsame
  cases hq : qs.get? id with
  | none =>
    rw [hq] at hsame
    cases hsame
    rfl
  | some q =>
    rw [hq] at hsame
    cases hsame with
    | @same _ q' henvelope hstatus hanswer =>
      have hkept : ¬ AgentMessageBroker.isOrphan members q' = true := by
        rw [isOrphan_iff, hstatus]
        rintro ⟨hpending, hgone⟩
        refine hgone ?_
        unfold QuestionRecord.HasParties
        rw [henvelope]
        exact (hs.pending hq hpending).2
      rw [Option.map_some, if_neg hkept, Option.map_some, Option.map_some, hstatus, hanswer]
    | @orphan _ q' henvelope hstatus hanswer hstatus' hanswer' =>
      have hgone : AgentMessageBroker.isOrphan members q' = true := by
        rw [isOrphan_iff]
        refine ⟨hstatus', ?_⟩
        unfold QuestionRecord.HasParties
        rw [henvelope]
        exact (hs.orphaned hq hstatus).2
      rw [Option.map_some, if_pos hgone, Option.map_some, Option.map_some, hstatus, hanswer, hanswer']

/-- What the replay leaves in the mailbox of a member is what it had not
read. -/
theorem agrees_unread (hs : Rehydrates config s.broker s.traffic) {m : String} {now : τ}
    (hm : m ∈ s.broker.members) (hnow : ∀ t ∈ s.broker.readings, t ≤ now)
    {ended : List (MessageRecord τ)}
    (hended : ended = (s.broker.replayed config).messages.values.filter (·.state.isOver)) :
    (((s.traffic.addressed m).filter (· ∉ ended.map (·.envelope.message_id))).filterMap
      ((s.broker.replayed config).pollable m now)) = s.unread m now := by
  have hnotOver : ∀ {id r}, (s.broker.replayed config).messages.get? id = some r →
      (id ∉ ended.map (·.envelope.message_id) ↔ (s.broker.replayed config).mail.Queued id) := by
    intro id r hr
    have hown : ∀ {j r'}, (s.broker.replayed config).messages.get? j = some r' →
        r'.envelope.message_id = j := by
      intro j r' hr'
      refine hs.delivery.own_id ?_
      rw [← hs.mail.envelopes]
      exact Mail.envelope?_of_get? hr'
    rw [hended, List.mem_map]
    constructor
    · intro hnot
      rcases hs.mail.settled hr with ⟨hq, -⟩ | hover
      · exact ⟨r, hr, hq⟩
      · exact absurd ⟨r, List.mem_filter.mpr ⟨Dict.mem_values_iff.mpr ⟨id, hr⟩, hover⟩, hown hr⟩ hnot
    · rintro ⟨r₁, hr₁, hq⟩ ⟨r', hr', hid⟩
      obtain ⟨hvalue, hover⟩ := List.mem_filter.mp hr'
      obtain ⟨j, hj⟩ := Dict.mem_values_iff.mp hvalue
      have hsame : j = id := (hown hj).symm.trans hid
      rw [hsame, show (s.broker.replayed config).messages.get? id = some r₁ from hr₁,
        Option.some.injEq] at hj
      rw [← hj, hq] at hover
      cases hover
  unfold BrokerRun.unread
  rw [List.filterMap_filter, List.filter_filterMap]
  refine List.filterMap_congr fun id hid => ?_
  obtain ⟨e, he, -⟩ := hs.delivery.addressed hid
  have hmine : e.message_id = id := hs.delivery.own_id he
  obtain ⟨r, hr, hre⟩ : ∃ r, (s.broker.replayed config).messages.get? id = some r
      ∧ r.envelope = e := by
    have henv := congrFun hs.mail.envelopes id
    rw [he] at henv
    exact Option.map_eq_some_iff.mp henv
  rw [he, Option.filter_some]
  unfold AgentMessageBroker.pollable
  rw [hr]
  dsimp only
  rw [hre, hmine]
  by_cases hexp : e.expired now = true
  · simp [hexp]
  · have hfresh : ¬ s.broker.mail.Lapsed id := by
      rintro ⟨e', he', t, ht, hlate⟩
      rw [he, Option.some.injEq] at he'
      subst he'
      exact hexp (AgentMessageEnvelope.expired.trans_le hlate (hnow t ht))
    have hunread : (s.broker.replayed config).mail.Queued id
        ↔ id ∉ (s.traffic.received m).map (·.message_id) ∧ id ∉ s.traffic.acknowledged m := by
      rw [hs.mail.queued hfresh]
      constructor
      · intro hq
        refine ⟨fun hin => ?_, hs.delivery.queued_unacknowledged hq⟩
        obtain ⟨e', he', hid'⟩ := List.mem_map.mp hin
        exact (hs.delivery.received_over he').2.1 (hid' ▸ hq)
      · rintro ⟨hnot, hack⟩
        have hbox : id ∈ s.broker.mail.mailboxes m := by
          rcases hs.delivery.kept hid with h1 | h1 | h1 | h1
          · exact h1
          · exact absurd h1 hnot
          · exact absurd h1 hack
          · exact absurd h1 hfresh
        obtain ⟨rb, hrb, -⟩ := Option.map_eq_some_iff.mp he
        exact hs.mail.unread hm ⟨hbox, ⟨rb, hrb, fun hin => hack (hs.delivery.acknowledged.mpr
          ⟨rb, hrb, hin⟩)⟩, hfresh⟩
    by_cases hq : (s.broker.replayed config).mail.Queued id
    · have hnone : r.acknowledged_by = [] := by
        rcases hs.mail.settled hr with ⟨-, hnone⟩ | hover
        · exact hnone
        · obtain ⟨r₁, hr₁, hstate⟩ := hq
          rw [show (s.broker.replayed config).mail.messages.get? id = some r from hr,
            Option.some.injEq] at hr₁
          rw [hr₁, hstate] at hover
          cases hover
      have hkept := (hnotOver hr).mpr hq
      simp [hkept, hnone, hexp, hunread.mp hq]
    · have hgone := fun hkept => hq ((hnotOver hr).mp hkept)
      have hread := fun hboth => hq (hunread.mpr hboth)
      rw [if_neg (by simpa using hgone), if_neg (by simpa [hexp] using hread)]

/-- What `rehydrate` does once the events are applied. -/
theorem rehydrate_eq (config : BrokerConfig τ) (b : AgentMessageBroker τ) (active : List String)
    (now : τ) : ∃ flag, AgentMessageBroker.rehydrate config b.journal active now
      = { b.replayed config with
          members := (b.replayed config).members.filter (· ∈ "main" :: active)
          mailboxes := fun m => ((b.replayed config).messages.values.filter (·.state.isOver)).foldl
            (fun box r => box.erase r.envelope.message_id) ((b.replayed config).mailboxes m)
          questions := (b.replayed config).questions.mapValues fun q =>
            if AgentMessageBroker.isOrphan
                ((b.replayed config).members.filter (· ∈ "main" :: active)) q then
              { q with status := "orphaned" } else q
          pending_event := flag } := by
  unfold AgentMessageBroker.rehydrate AgentMessageBroker.rehydrateEvents
  dsimp only
  split
  · exact ⟨_, rfl⟩
  · exact ⟨_, rfl⟩

theorem agrees (hs : Rehydrates config s.broker s.traffic) (now : τ) : s.Agrees
    (AgentMessageBroker.rehydrate config s.broker.journal
      (s.broker.members.filter (· ≠ "main")) now) := by
  have hmembers : (s.broker.replayed config).members.filter
      (· ∈ "main" :: s.broker.members.filter (· ≠ "main")) = s.broker.members := by
    rw [show (s.broker.replayed config).members = s.broker.members from hs.mail.members]
    refine List.filter_eq_self.mpr fun m hm => ?_
    rw [decide_eq_true_iff, List.mem_cons, List.mem_filter, decide_eq_true_iff]
    tauto
  obtain ⟨flag, hr⟩ := rehydrate_eq config s.broker (s.broker.members.filter (· ≠ "main")) now
  rw [hmembers] at hr
  rw [hr]
  constructor
  case questions => exact agrees_questions hs.questions
  case members => exact fun m hm => hm
  case polls =>
    intro m hm later hlater limit hlimit
    have hboxes : (s.broker.replayed config).mailboxes = s.traffic.addressed := hs.mail.boxes
    have hnodup : (s.traffic.addressed m).Nodup :=
      (Mail.ids_nodup _).sublist (hs.delivery.addressed_order m)
    rw [AgentMessageBroker.poll_pollable]
    · dsimp only
      rw [hboxes, erase_ended _ hnodup, ← hs.agrees_unread hm hlater rfl]
      rfl
    · show List.foldl _ ((s.broker.replayed config).mailboxes "pool") _ = []
      rw [hboxes, hs.delivery.addressed_pool, erase_ended _ List.nodup_nil, List.filter_nil]
    · exact AgentMessageBroker.validateRecipient_iff.mpr ⟨hs.delivery.members_valid hm, .inr hm⟩
    · exact hlimit

end Rehydrates

/-- The agreement law over a run: in every state, what `rehydrate` makes of the
journal and the live workers agrees with the live broker. -/
def BrokerConfig.AgreesRun [Add τ] [Zero τ] (config limits : BrokerConfig τ)
    (ops : List (BrokerOp τ)) : Prop :=
  ∀ k now, let s := (ops.take k).foldl BrokerRun.step { broker := config.broker }
    s.Agrees (AgentMessageBroker.rehydrate (config.reopened limits) s.broker.journal
      (s.broker.members.filter (· ≠ "main")) now)

/-- **Rehydration.** In every run of replayable steps of a pool whose ID the
journal does not shorten, a rehydrated broker agrees with the live one in
every state. -/
theorem agrees_run [Add τ] [Zero τ] (config limits : BrokerConfig τ)
    (hshort : config.pool_id.length ≤ 128) (ops : List (BrokerOp τ))
    (hrun : Runs.RunOk BrokerRun.step BrokerRun.Replayable { broker := config.broker } ops) :
    config.AgreesRun limits ops := by
  intro k now s
  let inv : BrokerRun τ → Prop := fun s => Rehydrates (config.reopened limits) s.broker s.traffic
  have hstep : ∀ s op, inv s → s.Replayable op → inv (s.step op) := fun s op hs hok =>
    Rehydrates.step hs op hok
  have hstart : inv { broker := config.broker } := Rehydrates.start hshort rfl rfl rfl
  exact Rehydrates.agrees (Runs.RunOk.invariant hstep hstart hrun k) now

/-- A question of the worker to the parent. -/
def parentQuestion : QuestionArgs Int where
  sender := "w"
  recipient := "main"
  question := "which port?"
  timeout_s := 60

/-- The worker reads an instruction, acknowledges it and gets an answer. -/
theorem agrees_answered : smallPool.AgreesRun smallPool [.register_worker "w",
    .send instruction "m1" 0, .poll "w" 16 fun _ => 1, .acknowledge "w" "m1",
    .open_question parentQuestion "m2" 2, .answer_question "main" "m2" "8080" 3] := by
  refine agrees_run smallPool smallPool (by decide) _ ⟨⟨trivial, ?_⟩, ⟨rfl, trivial⟩,
    ⟨trivial, ?_⟩, ⟨trivial, ?_⟩, ⟨rfl, by decide⟩, ⟨trivial, trivial⟩, trivial⟩
  · rintro - - -
    refine ⟨⟨fun id hid => ?_, fun id e hq => ?_⟩, fun id q hq => ?_⟩
    · cases hid.1
    · obtain ⟨r, hr, -⟩ := hq
      cases hr
    · cases hq
  · -- nobody else has mail
    intro handed hpoll e he m' hm' hne hunread
    rcases List.mem_cons.mp hm' with rfl | hm'
    · cases hunread.1
    · exact hne (List.mem_singleton.mp hm')
  · intro e he hpool
    cases he
    exact absurd hpool (by decide)

/-- **Counterexample.** The parent refuses the question of a worker: after
rehydration it is pending again. -/
theorem not_agrees_refused : ¬ smallPool.AgreesRun smallPool [.register_worker "w",
    .open_question parentQuestion "m1" 0, .refuse_parent_questions "unanswerable_in_background" fun _ => 1] := by
  intro h
  have hsame := (h 3 2).questions "m1"
  revert hsame
  decide

end Agenthicc.Subagents
