/-
Agenthicc.Subagents.QuestionRuns — the life of a question, and those who wait
for it.

A run has the broker, the calls of `wait_for_answer` and the clock. A waiter
that awaits its future is woken when the future is done. The timeout of
`asyncio.wait_for` cancels the future at one moment and the waiter runs again
at a later one, so other operations come between; `timer` and `wake` are two
steps. Everything else holds the lock and is one step at one reading of the
clock; time passes in a step of its own.

`questions_run` is the law of the questions over whole runs, under the exact
steps that keep it. A question to another worker sets the flag that
`wait_for_pending` awaits, although no question to the parent is pending;
`not_questions_peer` is such a run.
-/
import Agenthicc.Subagents.RehydrationTheorems

namespace Agenthicc.Subagents

open Python

/-! ## 1. Waiters -/

/-- How a call of `wait_for_answer` ended. -/
inductive WaitResult where
  | answer (answer : String)
  | error (message : String)
  /-- A `CancelledError` of the future came through. -/
  | cancelled

inductive WaitPhase where
  | waiting
  /-- The timeout has cancelled the future; the waiter has not run yet. -/
  | timedOut
  | ended (result : WaitResult)

structure Waiter where
  question_id : String
  phase : WaitPhase

inductive PoolOp (τ : Type) where
  | register_worker (workerId : String)
  | unregister_worker (workerId reason : String)
  | send (a : SendArgs τ) (message_id : String)
  | open_question (a : QuestionArgs τ) (message_id : String)
  | answer_question (answerer questionId answer : String)
  | refuse_parent_questions (status : String)
  | poll (recipient : String) (limit : Int)
  | acknowledge (recipient messageId : String)
  | close
  | wait (questionId : String)
  | timer (waiter : Nat)
  | wake (waiter : Nat)
  | tick (now : τ)

structure PoolRun (τ : Type) where
  broker : AgentMessageBroker τ
  waiters : List Waiter := []
  now : τ

variable {τ : Type}

section

variable [LinearOrder τ]

namespace PoolRun

/-- `wait_for_answer` up to its await. -/
def startWait (s : PoolRun τ) (id : String) : PoolRun τ :=
  match s.broker.beginWait id with
  | (b, .ok (some answer)) =>
      { s with broker := b, waiters := s.waiters ++ [⟨id, .ended (.answer answer)⟩] }
  | (b, .ok none) => { s with broker := b, waiters := s.waiters ++ [⟨id, .waiting⟩] }
  | (b, .error message) =>
      { s with broker := b, waiters := s.waiters ++ [⟨id, .ended (.error message)⟩] }

/-- The timeout of a waiter. -/
def timeOut (s : PoolRun τ) (i : Nat) : PoolRun τ :=
  match s.waiters[i]? with
  | some ⟨id, .waiting⟩ =>
      { s with
        broker := s.broker.cancelFuture id
        waiters := s.waiters.set i ⟨id, .timedOut⟩ }
  | _ => s

/-- `wait_for_answer` when it awaits its future no longer. -/
def resume (s : PoolRun τ) (i : Nat) : PoolRun τ :=
  match s.waiters[i]? with
  | some ⟨id, .waiting⟩ =>
      match (s.broker.questions.get? id).bind (·.future) with
      | some (.result answer) =>
          { s with
            broker := s.broker.endWait id
            waiters := s.waiters.set i ⟨id, .ended (.answer answer)⟩ }
      | some (.exception message) =>
          { s with waiters := s.waiters.set i ⟨id, .ended (.error message)⟩ }
      | some .cancelled => { s with waiters := s.waiters.set i ⟨id, .ended .cancelled⟩ }
      | some .waiting | none => s
  | some ⟨id, .timedOut⟩ =>
      { s with
        broker := s.broker.expireQuestion id s.now
        waiters := s.waiters.set i ⟨id, .ended (.error "question timed out")⟩ }
  | _ => s

variable [Add τ] [Zero τ]

def step (s : PoolRun τ) : PoolOp τ → PoolRun τ
  | .register_worker w => { s with broker := s.broker.step (.register_worker w) }
  | .unregister_worker w reason =>
      { s with broker := s.broker.step (.unregister_worker w reason fun _ => s.now) }
  | .send a id => { s with broker := s.broker.step (.send a id s.now) }
  | .open_question a id => { s with broker := s.broker.step (.open_question a id s.now) }
  | .answer_question answerer id answer =>
      { s with broker := s.broker.step (.answer_question answerer id answer s.now) }
  | .refuse_parent_questions status =>
      { s with broker := s.broker.step (.refuse_parent_questions status fun _ => s.now) }
  | .poll m limit => { s with broker := s.broker.step (.poll m limit fun _ => s.now) }
  | .acknowledge m id => { s with broker := s.broker.step (.acknowledge m id) }
  | .close => { s with broker := s.broker.step (.close fun _ => s.now) }
  | .wait id => s.startWait id
  | .timer i => s.timeOut i
  | .wake i => s.resume i
  | .tick now => { s with now }

end PoolRun

/-! ## 2. The law -/

/-- What a waiter got is what the record of its question says. -/
def WaitResult.Agrees (b : AgentMessageBroker τ) (id : String) : WaitResult → Prop
  | .answer text => ∃ q, b.questions.get? id = some q ∧ q.status = "answered" ∧ q.answer = text
  | .error message => message = "unknown question_id" ∨ ∃ q, b.questions.get? id = some q
      ∧ q.status ≠ "pending" ∧ (message = "question is " ++ q.status
        ∨ message = "question timed out" ∧ q.status = "expired")
  | .cancelled => False

structure QuestionLaw (s : PoolRun τ) : Prop where
  waiters : ∀ w ∈ s.waiters, ∀ result, w.phase = .ended result →
    result.Agrees s.broker w.question_id
  closed : s.broker.closed = true → ∀ id q, s.broker.questions.get? id = some q →
    q.status ≠ "pending"
  event : s.broker.pending_event = true → s.broker.closed = false →
    s.broker.pendingQuestions s.now (some "main") ≠ []
  suspends : s.broker.waitForPending s.now ≠ .spins

/-- Every question is still there, and one that has ended has not changed. -/
def Kept (b b' : AgentMessageBroker τ) : Prop :=
  ∀ id q, b.questions.get? id = some q → ∃ q', b'.questions.get? id = some q'
    ∧ (q.status ≠ "pending" → q'.status = q.status ∧ q'.answer = q.answer)

/-- The law over a run. -/
def PoolRun.QuestionsRun [Add τ] [Zero τ] (s : PoolRun τ) (ops : List (PoolOp τ)) : Prop :=
  (∀ k, QuestionLaw ((ops.take k).foldl PoolRun.step s))
  ∧ ∀ i j, i ≤ j →
    Kept ((ops.take i).foldl PoolRun.step s).broker ((ops.take j).foldl PoolRun.step s).broker

/-- A broker is new, or `rehydrate` has built it; the parent finds a pending
question then if there was one before orphans were marked. -/
inductive PoolRun.Opened : PoolRun τ → Prop where
  | new (config : BrokerConfig τ) (now : τ) : Opened { broker := config.broker, now }
  | rehydrated (config : BrokerConfig τ) (events : List (JournaledEvent τ)) (active : List String)
      (now : τ) (hparties : (config.broker.rehydrateEvents events now).pendingQuestions now
          (some "main") ≠ [] → ∃ id q,
        (config.broker.rehydrateEvents events now).questions.get? id = some q
          ∧ q.status = "pending" ∧ q.envelope.recipient = "main" ∧ q.envelope.expired now = false
          ∧ q.envelope.sender ∈ (config.broker.rehydrateEvents events now).members
          ∧ q.envelope.sender ∈ "main" :: active) :
      Opened { broker := AgentMessageBroker.rehydrate config events active now, now }

variable [Zero τ]

/-- The checks of `open_question` pass. -/
structure AgentMessageBroker.Opens (b : AgentMessageBroker τ) (a : QuestionArgs τ) : Prop where
  question : a.question.toList.all isSpace = false
  timeout : 0 < a.timeout_s
  refusal : a.recipient = "main" → b.parent_refusal = ""
  quota : ((b.questions.values.filter (·.status = "pending")).length : Int) < b.max_pending_questions
  send : b.checkSend (b.questionSend a) = .ok ()

variable [Add τ]

/-- The steps that keep the law.

* A question is opened only on an open broker, to the parent with a timeout
  that the clock can tell, or while a question to the parent is pending.
* The parent refuses with another status than `pending`, or nothing.
* A waiter wakes when no other waiter has cancelled the future, and after its
  own timeout only when nothing else has ended the question meanwhile.
* Time does not pass the expiry of the last pending question to the parent. -/
def PoolRun.KeepsQuestions (s : PoolRun τ) : PoolOp τ → Prop
  | .open_question a id => s.broker.Opens a → s.broker.questions.get? id = none
      ∧ s.broker.closed = false ∧ (a.recipient = "main" ∧ s.now < s.now + a.timeout_s
        ∨ s.broker.pendingQuestions s.now (some "main") ≠ [])
  | .refuse_parent_questions status => strTake 64 status ≠ "pending"
      ∨ ∀ id q, s.broker.questions.get? id = some q → q.status = "pending" →
        q.envelope.recipient ≠ "main"
  | .wake i => ∀ w, s.waiters[i]? = some w → ∀ q, s.broker.questions.get? w.question_id = some q →
      match w.phase with
      | .waiting => q.future ≠ some .cancelled
      | .timedOut => q.status = "pending" ∨ q.status = "expired"
      | .ended _ => True
  | .tick now => s.broker.closed = false → s.broker.pendingQuestions s.now (some "main") ≠ [] →
      s.broker.pendingQuestions now (some "main") ≠ []
  | _ => True

end

/-! ## 3. What one operation does to a question -/

/-- One operation leaves a question as it is but for who waits, or ends it. -/
inductive QuestionMove : QuestionRecord τ → QuestionRecord τ → Prop where
  | touched {q : QuestionRecord τ} {future : Option AnswerFuture} {delivered : Bool}
      (hfuture : future = q.future ∨ future = some .waiting ∨ future = some .cancelled) :
      QuestionMove q { q with future, delivered }
  | ended {q : QuestionRecord τ} {answer status : String} (hpending : q.status = "pending")
      (hover : status ≠ "pending") : QuestionMove q (q.finish answer status)

/-- The future of a question tells what its record tells. -/
def QuestionRecord.Settled (q : QuestionRecord τ) : Prop :=
  (∀ answer, q.future = some (.result answer) → q.status = "answered" ∧ q.answer = answer)
  ∧ ∀ message, q.future = some (.exception message) →
    q.status ≠ "pending" ∧ message = "question is " ++ q.status

def Moves (b b' : AgentMessageBroker τ) : Prop :=
  ∀ id, Option.Rel QuestionMove (b.questions.get? id) (b'.questions.get? id)

theorem QuestionMove.refl (q : QuestionRecord τ) : QuestionMove q q := .touched (.inl rfl)

namespace QuestionMove

variable {q q' : QuestionRecord τ}

theorem question_id (h : QuestionMove q q') : q'.question_id = q.question_id := by
  cases h <;> rfl

theorem status (h : QuestionMove q q') (hpending : q'.status = "pending") :
    q.status = "pending" := by
  cases h with
  | touched => exact hpending
  | ended hwas => exact hwas

theorem final (h : QuestionMove q q') (hover : q.status ≠ "pending") :
    q'.status = q.status ∧ q'.answer = q.answer := by
  cases h with
  | touched => exact ⟨rfl, rfl⟩
  | ended hpending => exact absurd hpending hover

theorem settled (h : QuestionMove q q') (hs : q.Settled) : q'.Settled := by
  cases h with
  | @touched future delivered hfuture =>
    rcases hfuture with rfl | rfl | rfl
    · exact hs
    · refine ⟨fun _ ha => ?_, fun _ hm => ?_⟩
      · cases ha
      · cases hm
    · refine ⟨fun _ ha => ?_, fun _ hm => ?_⟩
      · cases ha
      · cases hm
  | @ended answer status hpending hover =>
    unfold QuestionRecord.Settled QuestionRecord.finish
    dsimp only
    constructor
    · intro text ha
      split at ha
      · split at ha
        · cases ha
          exact ⟨‹_›, rfl⟩
        · cases ha
      · -- the future was done before
        have hanswered := (hs.1 text ha).1
        rw [hpending] at hanswered
        exact absurd hanswered (by decide)
    · intro message hm
      split at hm
      · split at hm
        · cases hm
        · cases hm
          exact ⟨hover, rfl⟩
      · exact absurd hpending (hs.2 message hm).1

end QuestionMove

/-! ## 4. What one operation does to all of them -/

namespace Moves

variable {b b' : AgentMessageBroker τ} {id : String} {q q' : QuestionRecord τ}

theorem of_same (h : b'.questions = b.questions) : Moves b b' := by
  intro id
  rw [h]
  cases b.questions.get? id with
  | none => exact .none
  | some q => exact .some (.refl q)

theorem of_set (hq : b.questions.get? id = some q) (h : b'.questions = b.questions.set id q')
    (hmove : QuestionMove q q') : Moves b b' := by
  intro j
  rw [h, Dict.get?_set]
  split
  · rename_i hj
    rw [← hj, hq]
    exact .some hmove
  · cases b.questions.get? j with
    | none => exact .none
    | some q => exact .some (.refl q)

theorem forth (h : Moves b b') (hq : b.questions.get? id = some q) :
    ∃ q', b'.questions.get? id = some q' ∧ QuestionMove q q' := by
  have hid := h id
  rw [hq] at hid
  generalize b'.questions.get? id = o at hid
  cases hid with
  | some hmove => exact ⟨_, rfl, hmove⟩

theorem back (h : Moves b b') (hq' : b'.questions.get? id = some q') :
    ∃ q, b.questions.get? id = some q ∧ QuestionMove q q' := by
  have hid := h id
  rw [hq'] at hid
  generalize b.questions.get? id = o at hid
  cases hid with
  | some hmove => exact ⟨_, rfl, hmove⟩

theorem kept (h : Moves b b') : Kept b b' := by
  intro id q hq
  obtain ⟨q', hq', hmove⟩ := h.forth hq
  exact ⟨q', hq', hmove.final⟩

end Moves

theorem Kept.refl (b : AgentMessageBroker τ) : Kept b b := fun _ q hq => ⟨q, hq, fun _ => ⟨rfl, rfl⟩⟩

theorem Kept.trans {b b' b'' : AgentMessageBroker τ} (h : Kept b b') (h' : Kept b' b'') :
    Kept b b'' := by
  intro id q hq
  obtain ⟨q', hq', hfinal⟩ := h id q hq
  obtain ⟨q'', hq'', hfinal'⟩ := h' id q' hq'
  refine ⟨q'', hq'', fun hover => ?_⟩
  obtain ⟨hstatus, hanswer⟩ := hfinal hover
  obtain ⟨hstatus', hanswer'⟩ := hfinal' (hstatus ▸ hover)
  exact ⟨hstatus'.trans hstatus, hanswer'.trans hanswer⟩

/-- A result that agrees with an ended question agrees ever after. -/
theorem WaitResult.Agrees.kept {b b' : AgentMessageBroker τ} {id : String} {result : WaitResult}
    (h : result.Agrees b id) (hkept : Kept b b') : result.Agrees b' id := by
  cases result with
  | answer text =>
    obtain ⟨q, hq, hstatus, hanswer⟩ := h
    obtain ⟨q', hq', hfinal⟩ := hkept id q hq
    obtain ⟨hstatus', hanswer'⟩ := hfinal (by rw [hstatus]; decide)
    exact ⟨q', hq', hstatus'.trans hstatus, hanswer'.trans hanswer⟩
  | error message =>
    rcases h with hunknown | ⟨q, hq, hover, hmessage⟩
    · exact .inl hunknown
    · obtain ⟨q', hq', hfinal⟩ := hkept id q hq
      obtain ⟨hstatus', -⟩ := hfinal hover
      exact .inr ⟨q', hq', hstatus' ▸ hover, hstatus' ▸ hmessage⟩
  | cancelled => exact h

/-! ## 5. The invariant -/

section

variable [LinearOrder τ]

theorem waitForPending_spins {b : AgentMessageBroker τ} {now : τ}
    (h : b.waitForPending now = .spins) : b.pending_event = true ∧ b.closed = false
      ∧ b.pendingQuestions now (some "main") = [] := by
  unfold AgentMessageBroker.waitForPending at h
  dsimp only at h
  split at h
  · cases h
  · rename_i hnone
    split at h
    · cases h
    · rename_i hopen
      split at h
      · rename_i hflag
        exact ⟨hflag, Bool.eq_false_iff.mpr hopen, by simpa using hnone⟩
      · cases h

/-- The invariant of a run. -/
structure Attended (s : PoolRun τ) : Prop where
  keyed : s.broker.KeyedQuestions
  settled : ∀ id q, s.broker.questions.get? id = some q → q.Settled
  /-- Who still waits, waits for a known question. -/
  known : ∀ w ∈ s.waiters, (∀ result, w.phase ≠ .ended result) →
    ∃ q, s.broker.questions.get? w.question_id = some q
  law : QuestionLaw s

namespace Attended

variable {s : PoolRun τ} {b : AgentMessageBroker τ} {id : String} {q q' : QuestionRecord τ}

/-- An operation that moves questions keeps the invariant, if closing leaves
none pending and the flag tells the truth. -/
theorem moved (h : Attended s) (hmoves : Moves s.broker b) {waiters : List Waiter}
    (hclosed : b.closed = true → s.broker.closed = true
      ∨ ∀ id q, b.questions.get? id = some q → q.status ≠ "pending")
    (hevent : b.pending_event = true → b.closed = false →
      b.pendingQuestions s.now (some "main") ≠ [])
    (hwaiters : ∀ w ∈ waiters, w ∈ s.waiters
      ∨ ((∀ result, w.phase ≠ .ended result) → ∃ q, b.questions.get? w.question_id = some q)
        ∧ ∀ result, w.phase = .ended result → result.Agrees b w.question_id) :
    Attended { broker := b, waiters, now := s.now } where
  keyed id q' hq' := by
    obtain ⟨q, hq, hmove⟩ := hmoves.back hq'
    exact hmove.question_id.trans (h.keyed id q hq)
  settled id q' hq' := by
    obtain ⟨q, hq, hmove⟩ := hmoves.back hq'
    exact hmove.settled (h.settled id q hq)
  known w hw hwaits := by
    rcases hwaiters w hw with hold | ⟨hnew, -⟩
    · obtain ⟨q, hq⟩ := h.known w hold hwaits
      obtain ⟨q', hq', -⟩ := hmoves.forth hq
      exact ⟨q', hq'⟩
    · exact hnew hwaits
  law :=
    { waiters := fun w hw result hresult => by
        rcases hwaiters w hw with hold | ⟨-, hnew⟩
        · exact (h.law.waiters w hold result hresult).kept hmoves.kept
        · exact hnew result hresult
      closed := fun hc id q' hq' hpending => by
        rcases hclosed hc with hwas | hnone
        · obtain ⟨q, hq, hmove⟩ := hmoves.back hq'
          exact h.law.closed hwas id q hq (hmove.status hpending)
        · exact hnone id q' hq' hpending
      event := hevent
      suspends := fun hspins => by
        obtain ⟨hflag, hopen, hnone⟩ := waitForPending_spins hspins
        exact hevent hflag hopen hnone }

end Attended

/-! ## 6. Every operation keeps it -/

namespace AgentMessageBroker

variable {b b' : AgentMessageBroker τ} {id : String} {q q' : QuestionRecord τ} {now : τ}

/-- The part of a broker its questions live in. -/
def asked (b : AgentMessageBroker τ) : Dict String (QuestionRecord τ) × Bool × Bool :=
  (b.questions, b.pending_event, b.closed)

omit [LinearOrder τ] in
theorem asked_registerWorker (w : String) : (b.registerWorker w).1.asked = b.asked := by
  unfold registerWorker
  repeat' split
  all_goals rfl

omit [LinearOrder τ] in
theorem asked_sendLocked [Add τ] (a : SendArgs τ) (message_id : String) (now : τ) :
    (b.sendLocked a message_id now).1.asked = b.asked := by
  rcases b.sendLocked_cases a message_id now with ⟨message, -, h⟩ | ⟨e, -, -, -, h⟩ | ⟨-, -, h⟩
  · rw [h]
  · rw [h]
  · rw [h]
    rfl

theorem asked_drain (m : String) (clock : Nat → τ) : ∀ (ids : List String) (room : Nat)
    (b : AgentMessageBroker τ), (drain m clock room ids b).1.asked = b.asked := by
  intro ids
  induction ids with
  | nil =>
    intro room b
    rw [drain_nil]
  | cons id ids ih =>
    intro room b
    cases room with
    | zero => rfl
    | succ room =>
      unfold drain
      split
      · exact ih _ _
      · split
        · exact ih _ _
        · dsimp only
          split
          · exact ih _ _
          · exact ih _ _

theorem asked_poll (m : String) (limit : Int) (clock : Nat → τ) :
    (b.poll m limit clock).1.asked = b.asked := by
  unfold poll
  split
  · rfl
  · split
    · rfl
    · dsimp only
      split
      · exact asked_drain ..
      · exact (asked_drain m clock _ _ _).trans (asked_drain m clock _ _ _)

omit [LinearOrder τ] in
theorem asked_acknowledge (m id : String) : (b.acknowledge m id).1.asked = b.asked := by
  unfold acknowledge
  split
  · rfl
  · split <;> rfl

theorem openQuestion_refused [Add τ] [Zero τ] {a : QuestionArgs τ} (h : ¬ b.Opens a) (id : String)
    (now : τ) : ∃ message, b.openQuestion a id now = (b, .error message) := by
  unfold openQuestion
  split
  · exact ⟨_, rfl⟩
  · rename_i hquestion
    split
    · exact ⟨_, rfl⟩
    · rename_i htimeout
      split
      · exact ⟨_, rfl⟩
      · rename_i hrefusal
        split
        · exact ⟨_, rfl⟩
        · rename_i hquota
          rcases b.sendLocked_cases (b.questionSend a) id now with
            ⟨message, -, he⟩ | ⟨e, -, hne, -⟩ | ⟨hc, -, -⟩
          · rw [he]
            exact ⟨_, rfl⟩
          · exact absurd rfl hne
          · exact absurd ⟨Bool.eq_false_iff.mpr hquestion, not_le.mp htimeout,
              fun hmain => not_not.mp fun hset => hrefusal ⟨hmain, hset⟩, not_le.mp hquota, hc⟩ h

theorem pending_of_same (h : b'.questions = b.questions)
    (hsome : b.pendingQuestions now (some "main") ≠ []) :
    b'.pendingQuestions now (some "main") ≠ [] := by
  rw [mem_pendingQuestions] at hsome ⊢
  rw [h]
  exact hsome

/-- A question whose status did not change is pending as before. -/
theorem pending_of_set (hq : b.questions.get? id = some q) (h : b'.questions = b.questions.set id q')
    (hstatus : q'.status = q.status) (henvelope : q'.envelope = q.envelope)
    (hsome : b.pendingQuestions now (some "main") ≠ []) :
    b'.pendingQuestions now (some "main") ≠ [] := by
  rw [mem_pendingQuestions] at hsome ⊢
  obtain ⟨j, q₁, hq₁, hpending, hmain, hfresh⟩ := hsome
  by_cases hj : id = j
  · subst hj
    rw [hq, Option.some.injEq] at hq₁
    subst hq₁
    exact ⟨id, q', by rw [h, Dict.get?_set_self], hstatus.trans hpending,
      by rw [henvelope]; exact hmain, by rw [henvelope]; exact hfresh⟩
  · exact ⟨j, q₁, by rw [h, Dict.get?_set_ne _ _ hj]; exact hq₁, hpending, hmain, hfresh⟩

end AgentMessageBroker

namespace Attended

variable {s : PoolRun τ} {b : AgentMessageBroker τ} {id : String} {q q' : QuestionRecord τ}

theorem framed (h : Attended s) (hb : b.asked = s.broker.asked) :
    Attended { s with broker := b } ∧ Kept s.broker b := by
  have hquestions : b.questions = s.broker.questions := congrArg Prod.fst hb
  have hflag : b.pending_event = s.broker.pending_event := congrArg (·.2.1) hb
  have hclosed : b.closed = s.broker.closed := congrArg (·.2.2) hb
  have hmoves := Moves.of_same hquestions
  refine ⟨h.moved hmoves (fun hc => .inl (hclosed ▸ hc)) (fun he hc => ?_) fun w hw => .inl hw,
    hmoves.kept⟩
  exact AgentMessageBroker.pending_of_same hquestions (h.law.event (hflag ▸ he) (hclosed ▸ hc))

theorem touched (h : Attended s) (hq : s.broker.questions.get? id = some q)
    {future : Option AnswerFuture} {delivered : Bool}
    (hfuture : future = q.future ∨ future = some .waiting ∨ future = some .cancelled)
    (hb : b = { s.broker with
      questions := (s.broker.questions.set id { q with future, delivered }) })
    {waiters : List Waiter} (hwaiters : ∀ w ∈ waiters, w ∈ s.waiters
      ∨ ((∀ result, w.phase ≠ .ended result) → ∃ q, b.questions.get? w.question_id = some q)
        ∧ ∀ result, w.phase = .ended result → result.Agrees b w.question_id) :
    Attended { broker := b, waiters, now := s.now } ∧ Kept s.broker b := by
  have hquestions : b.questions = s.broker.questions.set id { q with future, delivered } := by
    rw [hb]
  have hmoves := Moves.of_set hq hquestions (.touched hfuture)
  refine ⟨h.moved hmoves (fun hc => .inl ?_) (fun he hc => ?_) hwaiters, hmoves.kept⟩
  · rw [hb] at hc
    exact hc
  · rw [hb] at he hc
    exact AgentMessageBroker.pending_of_set hq hquestions rfl rfl (h.law.event he hc)

theorem finished (h : Attended s) (hq : s.broker.questions.get? id = some q)
    (hpending : q.status = "pending") {answer status : String} (hover : status ≠ "pending")
    {event : BrokerEvent τ}
    (hb : b = (s.broker.finishQuestion q answer status s.now).record event)
    {waiters : List Waiter} (hwaiters : ∀ w ∈ waiters, w ∈ s.waiters
      ∨ ((∀ result, w.phase ≠ .ended result) → ∃ q, b.questions.get? w.question_id = some q)
        ∧ ∀ result, w.phase = .ended result → result.Agrees b w.question_id) :
    Attended { broker := b, waiters, now := s.now } ∧ Kept s.broker b := by
  have hquestions : b.questions = s.broker.questions.set id (q.finish answer status) := by
    rw [hb, ← h.keyed id q hq]
    exact AgentMessageBroker.questions_finishQuestion ..
  have hmoves := Moves.of_set hq hquestions (.ended hpending hover)
  refine ⟨h.moved hmoves (fun hc => .inl ?_) (fun he hc => ?_) hwaiters, hmoves.kept⟩
  · rw [hb] at hc
    exact (AgentMessageBroker.closed_finishQuestion ..).symm.trans hc
  · rw [hb] at he ⊢
    exact (AgentMessageBroker.pending_event_finishQuestion he).2

theorem looped (h : Attended s) (b₀ : AgentMessageBroker τ) (ends : QuestionRecord τ → Bool)
    (status : String) (event : Option (QuestionProjection τ → BrokerEvent τ))
    (hends : ∀ q, ends q = true → q.status = "pending")
    (hover : status ≠ "pending" ∨ ∀ id q, s.broker.questions.get? id = some q → ends q = false)
    (hquestions₀ : b₀.questions = s.broker.questions)
    (hflag₀ : b₀.pending_event = s.broker.pending_event)
    (hstays : s.broker.closed = true → b₀.closed = true)
    (hcloses : b₀.closed = true → s.broker.closed = true
      ∨ status ≠ "pending" ∧ ∀ q, q.status = "pending" → ends q = true)
    (hquestions : b.questions = (AgentMessageBroker.finishQuestions ends status event
      (fun _ => s.now) b₀.questionIds b₀).questions)
    (hclosed : b.closed = (AgentMessageBroker.finishQuestions ends status event
      (fun _ => s.now) b₀.questionIds b₀).closed)
    (hflag : b.closed = false → b.pending_event = (AgentMessageBroker.finishQuestions ends status
      event (fun _ => s.now) b₀.questionIds b₀).pending_event) :
    Attended { s with broker := b } ∧ Kept s.broker b := by
  have hkeyed₀ : b₀.KeyedQuestions := by
    intro id q hq
    rw [hquestions₀] at hq
    exact h.keyed id q hq
  have hget : ∀ id, b.questions.get? id = (s.broker.questions.get? id).map fun q =>
      if ends q then q.finish "" status else q := by
    intro id
    rw [hquestions, AgentMessageBroker.get?_finishQuestions_all b₀ hkeyed₀, hquestions₀]
  have hmoves : Moves s.broker b := by
    intro id
    rw [hget]
    cases hq : s.broker.questions.get? id with
    | none => exact .none
    | some q =>
      refine .some ?_
      dsimp only
      split
      · rename_i hq'
        refine .ended (hends q hq') (hover.resolve_right fun hnone => ?_)
        rw [hnone id q hq] at hq'
        cases hq'
      · exact .refl q
  -- the flag is cleared as soon as no question to the parent is pending
  have hloop : (AgentMessageBroker.finishQuestions ends status event (fun _ => s.now)
      b₀.questionIds b₀).pending_event = true → b₀.closed = false →
      (AgentMessageBroker.finishQuestions ends status event (fun _ => s.now)
        b₀.questionIds b₀).pendingQuestions s.now (some "main") ≠ [] := by
    refine AgentMessageBroker.finishQuestions_induct (P := fun b' => b'.pending_event = true →
      b₀.closed = false → b'.pendingQuestions s.now (some "main") ≠ [])
      (fun b' id q i hb' hq hq' => ?_) b₀.questionIds fun he hc => ?_
    · cases event with
      | none => exact fun he _ => (AgentMessageBroker.pending_event_finishQuestion he).2
      | some event => exact fun he _ => (AgentMessageBroker.pending_event_finishQuestion he).2
    · refine AgentMessageBroker.pending_of_same hquestions₀ (h.law.event (hflag₀ ▸ he) ?_)
      exact Bool.eq_false_iff.mpr fun hs => by rw [hstays hs] at hc; cases hc
  have hboth : b.closed = b₀.closed :=
    hclosed.trans (AgentMessageBroker.closed_finishQuestions ..)
  refine ⟨h.moved hmoves (fun hc => ?_) (fun he hc => ?_) fun w hw => .inl hw, hmoves.kept⟩
  · refine (hcloses (hboth ▸ hc)).imp_right fun hall id q' hq' hpending => ?_
    rw [hget, Option.map_eq_some_iff] at hq'
    obtain ⟨q, -, rfl⟩ := hq'
    split at hpending
    · exact hall.1 hpending
    · rename_i hq'
      exact hq' (hall.2 q hpending)
  · exact AgentMessageBroker.pending_of_same hquestions
      (hloop ((hflag hc).symm.trans he) (hboth ▸ hc))

theorem opened [Add τ] [Zero τ] (h : Attended s) {a : QuestionArgs τ}
    (hfresh : s.broker.questions.get? id = none) (hopen : s.broker.closed = false)
    (hmain : a.recipient = "main" ∧ s.now < s.now + a.timeout_s
      ∨ s.broker.pendingQuestions s.now (some "main") ≠ [])
    (hb : b = (s.broker.enqueue (s.broker.questionSend a) id s.now).startQuestion
      (s.broker.envelope (s.broker.questionSend a) id s.now)) :
    Attended { s with broker := b } ∧ Kept s.broker b := by
  have hget : ∀ j, b.questions.get? j = if id = j then some (AgentMessageBroker.questionRecord
      (s.broker.envelope (s.broker.questionSend a) id s.now)) else s.broker.questions.get? j := by
    intro j
    rw [hb]
    exact Dict.get?_set ..
  have hold : ∀ j q, s.broker.questions.get? j = some q → b.questions.get? j = some q := by
    intro j q hq
    rw [hget, if_neg]
    · exact hq
    · rintro rfl
      rw [hfresh] at hq
      cases hq
  have hkept : Kept s.broker b := fun j q hq => ⟨q, hold j q hq, fun _ => ⟨rfl, rfl⟩⟩
  have hstill : b.closed = false := by
    rw [hb]
    exact hopen
  have hsome : b.pendingQuestions s.now (some "main") ≠ [] := by
    rw [AgentMessageBroker.mem_pendingQuestions]
    rcases hmain with ⟨hrecipient, hlater⟩ | hpending
    · refine ⟨id, _, by rw [hget, if_pos rfl], rfl, hrecipient, ?_⟩
      exact decide_eq_false (not_le.mpr hlater)
    · rw [AgentMessageBroker.mem_pendingQuestions] at hpending
      obtain ⟨j, q, hq, hrest⟩ := hpending
      exact ⟨j, q, hold j q hq, hrest⟩
  refine ⟨⟨fun j q hq => ?_, fun j q hq => ?_, fun w hw hwaits => ?_, fun w hw result hresult => ?_,
    fun hc => ?_, fun _ _ => hsome, fun hspins => ?_⟩, hkept⟩
  · rw [hget] at hq
    split at hq
    · rename_i hj
      cases hq
      exact hj
    · exact h.keyed j q hq
  · rw [hget] at hq
    split at hq
    · cases hq
      refine ⟨fun _ hf => ?_, fun _ hf => ?_⟩
      · cases hf
      · cases hf
    · exact h.settled j q hq
  · obtain ⟨q, hq⟩ := h.known w hw hwaits
    exact ⟨q, hold _ q hq⟩
  · exact (h.law.waiters w hw result hresult).kept hkept
  · exact absurd (hstill.symm.trans hc) Bool.false_ne_true
  · exact hsome (waitForPending_spins hspins).2.2

theorem startWait (h : Attended s) (id : String) :
    Attended (s.startWait id) ∧ Kept s.broker (s.startWait id).broker := by
  have hlater : ∀ {b : AgentMessageBroker τ} {phase : WaitPhase},
      ((∀ result, phase ≠ .ended result) → ∃ q, b.questions.get? id = some q)
        ∧ (∀ result, phase = .ended result → result.Agrees b id) →
      ∀ w ∈ s.waiters ++ [⟨id, phase⟩], w ∈ s.waiters
        ∨ ((∀ result, w.phase ≠ .ended result) → ∃ q, b.questions.get? w.question_id = some q)
          ∧ ∀ result, w.phase = .ended result → result.Agrees b w.question_id := by
    intro b phase hnew w hw
    rcases List.mem_append.mp hw with hw | hw
    · exact .inl hw
    · rw [List.mem_singleton.mp hw]
      exact .inr hnew
  have hsame : ∀ {phase : WaitPhase},
      ((∀ result, phase ≠ .ended result) → ∃ q, s.broker.questions.get? id = some q)
        ∧ (∀ result, phase = .ended result → result.Agrees s.broker id) →
      Attended { s with waiters := s.waiters ++ [⟨id, phase⟩] } ∧ Kept s.broker s.broker :=
    fun hnew => ⟨h.moved (Moves.of_same rfl) .inl h.law.event (hlater hnew), Kept.refl _⟩
  unfold PoolRun.startWait AgentMessageBroker.beginWait
  cases hq : s.broker.questions.get? id with
  | none =>
    refine hsame ⟨fun hwaits => absurd rfl (hwaits _), fun result hresult => ?_⟩
    cases hresult
    exact .inl rfl
  | some q =>
    dsimp only
    by_cases hanswered : q.status = "answered"
    · rw [if_pos hanswered]
      refine h.touched hq (.inl rfl) rfl (hlater ⟨fun hwaits => absurd rfl (hwaits _),
        fun result hresult => ?_⟩)
      cases hresult
      exact ⟨_, Dict.get?_set_self .., hanswered, rfl⟩
    · rw [if_neg hanswered]
      by_cases hpending : q.status = "pending"
      · rw [if_neg (not_not.mpr hpending)]
        cases hfuture : q.future with
        | some future => exact hsame ⟨fun _ => ⟨q, hq⟩, fun result hresult => by cases hresult⟩
        | none =>
          exact h.touched hq (.inr (.inl rfl)) rfl (hlater
            ⟨fun _ => ⟨_, Dict.get?_set_self ..⟩, fun result hresult => by cases hresult⟩)
      · rw [if_pos hpending]
        refine hsame ⟨fun hwaits => absurd rfl (hwaits _), fun result hresult => ?_⟩
        cases hresult
        exact .inr ⟨q, hq, hpending, .inl rfl⟩

omit [LinearOrder τ] in
theorem mem_set {s : PoolRun τ} {i : Nat} {id : String} {phase : WaitPhase} {b : AgentMessageBroker τ}
    (hnew : ((∀ result, phase ≠ .ended result) → ∃ q, b.questions.get? id = some q)
      ∧ ∀ result, phase = .ended result → result.Agrees b id) :
    ∀ w ∈ s.waiters.set i ⟨id, phase⟩, w ∈ s.waiters
      ∨ ((∀ result, w.phase ≠ .ended result) → ∃ q, b.questions.get? w.question_id = some q)
        ∧ ∀ result, w.phase = .ended result → result.Agrees b w.question_id := by
  intro w hw
  rcases List.mem_or_eq_of_mem_set hw with hw | rfl
  · exact .inl hw
  · exact .inr hnew

theorem timeOut (h : Attended s) (i : Nat) :
    Attended (s.timeOut i) ∧ Kept s.broker (s.timeOut i).broker := by
  unfold PoolRun.timeOut
  split
  · rename_i id hw
    obtain ⟨q, hq⟩ := h.known _ (List.mem_of_getElem? hw) fun result hresult => by cases hresult
    dsimp only at hq
    unfold AgentMessageBroker.cancelFuture
    rw [hq]
    dsimp only
    split
    · exact h.touched hq (.inr (.inr rfl)) rfl (mem_set
        ⟨fun _ => ⟨_, Dict.get?_set_self ..⟩, fun result hresult => by cases hresult⟩)
    · exact ⟨h.moved (Moves.of_same rfl) .inl h.law.event (mem_set
        ⟨fun _ => ⟨q, hq⟩, fun result hresult => by cases hresult⟩), Kept.refl _⟩
  · exact ⟨h, Kept.refl _⟩

theorem resume (h : Attended s) {i : Nat}
    (hok : ∀ w, s.waiters[i]? = some w → ∀ q, s.broker.questions.get? w.question_id = some q →
      match w.phase with
      | .waiting => q.future ≠ some .cancelled
      | .timedOut => q.status = "pending" ∨ q.status = "expired"
      | .ended _ => True) :
    Attended (s.resume i) ∧ Kept s.broker (s.resume i).broker := by
  unfold PoolRun.resume
  split
  · rename_i id hw
    obtain ⟨q, hq⟩ := h.known _ (List.mem_of_getElem? hw) fun result hresult => by cases hresult
    dsimp only at hq
    rw [hq, Option.bind_some]
    have hsettled := h.settled id q hq
    cases hfuture : q.future with
    | none => exact ⟨h, Kept.refl _⟩
    | some future =>
      cases future with
      | waiting => exact ⟨h, Kept.refl _⟩
      | result answer =>
        obtain ⟨hstatus, hanswer⟩ := hsettled.1 answer hfuture
        unfold AgentMessageBroker.endWait
        rw [hq]
        refine h.touched hq (.inl rfl) rfl (mem_set ⟨fun hwaits => absurd rfl (hwaits _),
          fun result hresult => ?_⟩)
        cases hresult
        exact ⟨_, Dict.get?_set_self .., hstatus, hanswer⟩
      | exception message =>
        obtain ⟨hover, hmessage⟩ := hsettled.2 message hfuture
        refine ⟨h.moved (Moves.of_same rfl) .inl h.law.event (mem_set
          ⟨fun hwaits => absurd rfl (hwaits _), fun result hresult => ?_⟩), Kept.refl _⟩
        cases hresult
        exact .inr ⟨q, hq, hover, .inl hmessage⟩
      | cancelled => exact absurd hfuture (hok _ hw q hq)
  · rename_i id hw
    obtain ⟨q, hq⟩ := h.known _ (List.mem_of_getElem? hw) fun result hresult => by cases hresult
    dsimp only at hq
    unfold AgentMessageBroker.expireQuestion
    rw [hq]
    dsimp only
    by_cases hpending : q.status = "pending"
    · rw [if_pos hpending]
      refine h.finished hq hpending (show "expired" ≠ "pending" by decide) rfl (mem_set
        ⟨fun hwaits => absurd rfl (hwaits _), fun result hresult => ?_⟩)
      cases hresult
      refine .inr ⟨q.finish "" "expired", ?_, by simp, .inr ⟨rfl, rfl⟩⟩
      show (AgentMessageBroker.finishQuestion _ _ _ _ _).questions.get? id = _
      rw [AgentMessageBroker.questions_finishQuestion, h.keyed id q hq, Dict.get?_set_self]
    · rw [if_neg hpending]
      have hexpired : q.status = "expired" := (hok _ hw q hq).resolve_left hpending
      refine ⟨h.moved (Moves.of_same rfl) .inl h.law.event (mem_set
        ⟨fun hwaits => absurd rfl (hwaits _), fun result hresult => ?_⟩), Kept.refl _⟩
      cases hresult
      exact .inr ⟨q, hq, hpending, .inr ⟨rfl, hexpired⟩⟩
  · exact ⟨h, Kept.refl _⟩

variable [Add τ] [Zero τ]

/-- **Step.** Every operation that meets the condition keeps the invariant, and
what has ended. -/
theorem step (h : Attended s) (op : PoolOp τ) (hok : s.KeepsQuestions op) :
    Attended (s.step op) ∧ Kept s.broker (s.step op).broker := by
  cases op with
  | register_worker w => exact h.framed (AgentMessageBroker.asked_registerWorker w)
  | unregister_worker w reason =>
    exact h.looped { s.broker with members := s.broker.members.filter (· ≠ w) }
      (fun q => q.envelope.sender = w && q.status = "pending") "orphaned" none (fun q hq => of_decide_eq_true (Bool.and_eq_true_iff.mp hq).2)
      (.inl (by decide)) rfl rfl id .inl rfl rfl fun _ => rfl
  | send a id => exact h.framed (AgentMessageBroker.asked_sendLocked a id s.now)
  | open_question a id =>
    unfold PoolRun.step AgentMessageBroker.step
    dsimp only
    by_cases hopens : s.broker.Opens a
    · obtain ⟨hfresh, hopen, hmain⟩ := hok hopens
      rcases s.broker.openQuestion_cases a id s.now with ⟨message, he⟩ | ⟨-, -, projection, he⟩
      · rw [he]
        exact ⟨h, Kept.refl _⟩
      · rw [he]
        exact h.opened hfresh hopen hmain rfl
    · obtain ⟨message, he⟩ := s.broker.openQuestion_refused hopens id s.now
      rw [he]
      exact ⟨h, Kept.refl _⟩
  | answer_question answerer id answer =>
    unfold PoolRun.step AgentMessageBroker.step AgentMessageBroker.answerQuestion
    dsimp only
    split
    · exact ⟨h, Kept.refl _⟩
    · cases hq : s.broker.questions.get? id with
      | none => exact ⟨h, Kept.refl _⟩
      | some q =>
        dsimp only
        split
        · exact ⟨h, Kept.refl _⟩
        · rename_i hpending
          split
          · exact ⟨h, Kept.refl _⟩
          · exact h.finished hq (not_not.mp hpending) (show "answered" ≠ "pending" by decide) rfl
              fun w hw => .inl hw
  | refuse_parent_questions status =>
    refine h.looped { s.broker with parent_refusal := strTake 64 status }
      (fun q => q.status = "pending" && q.envelope.recipient = "main") (strTake 64 status)
      (some .question_refused)
      (fun q hq => of_decide_eq_true (Bool.and_eq_true_iff.mp hq).1)
      (hok.imp_right fun hnone id q hq => ?_) rfl rfl id .inl rfl rfl fun _ => rfl
    have himp := hnone id q hq
    by_cases hpending : q.status = "pending"
    · simp [himp hpending]
    · simp [hpending]
  | poll m limit => exact h.framed (AgentMessageBroker.asked_poll m limit _)
  | acknowledge m id => exact h.framed (AgentMessageBroker.asked_acknowledge m id)
  | close =>
    refine h.looped { s.broker with closed := true } (fun q => q.status = "pending") "cancelled"
      (some .question_cancelled) (fun q hq => of_decide_eq_true hq) (.inl (by decide)) rfl rfl
      (fun _ => rfl) (fun _ => .inr ⟨by decide, fun q hq => decide_eq_true hq⟩) rfl rfl fun hc => ?_
    have hopen : true = false := (AgentMessageBroker.closed_finishQuestions ..).symm.trans hc
    cases hopen
  | wait id => exact h.startWait id
  | timer i => exact h.timeOut i
  | wake i => exact h.resume hok
  | tick now =>
    refine ⟨⟨h.keyed, h.settled, h.known, h.law.waiters, h.law.closed, fun he hc => ?_,
      fun hspins => ?_⟩, Kept.refl _⟩
    · exact hok hc (h.law.event he hc)
    · obtain ⟨he, hc, hnone⟩ := waitForPending_spins hspins
      exact hok hc (h.law.event he hc) hnone

end Attended

end

/-! ## 7. Where a run starts -/

/-- What the replay has of the questions: nobody waits yet. -/
structure Replayed (b : AgentMessageBroker τ) : Prop where
  keyed : b.KeyedQuestions
  future : ∀ id q, b.questions.get? id = some q → q.future = none
  quiet : b.pending_event = false
  opened : b.closed = false

namespace Replayed

variable {b b' : AgentMessageBroker τ} {id : String} {q : QuestionRecord τ}

theorem of_same (h : Replayed b) (hquestions : b'.questions = b.questions)
    (hflag : b'.pending_event = b.pending_event) (hclosed : b'.closed = b.closed) : Replayed b' where
  keyed := by
    unfold AgentMessageBroker.KeyedQuestions
    rw [hquestions]
    exact h.keyed
  future := by rw [hquestions]; exact h.future
  quiet := hflag.trans h.quiet
  opened := hclosed.trans h.opened

theorem of_set (h : Replayed b) (hb' : b' = { b with questions := (b.questions.set id q) })
    (hid : q.question_id = id) (hfuture : q.future = none) : Replayed b' := by
  subst hb'
  refine ⟨fun j q' hq' => ?_, fun j q' hq' => ?_, h.quiet, h.opened⟩
  · rw [Dict.get?_set] at hq'
    split at hq'
    · rename_i hj
      cases hq'
      exact hid.trans hj
    · exact h.keyed j q' hq'
  · rw [Dict.get?_set] at hq'
    split at hq'
    · cases hq'
      exact hfuture
    · exact h.future j q' hq'

theorem finish (h : Replayed b) (question : QuestionProjection τ) (status : String) :
    Replayed (b.rehydrateFinish question status) := by
  unfold AgentMessageBroker.rehydrateFinish
  split
  · exact h
  · rename_i q hq
    split
    · exact h.of_set rfl (h.keyed _ q hq) (h.future _ q hq)
    · exact h

theorem event (h : Replayed b) (raw : JournaledEvent τ) : Replayed (b.rehydrateEvent raw) := by
  unfold AgentMessageBroker.rehydrateEvent
  split
  · exact h
  · cases raw.event with
    | agent_message_sent e =>
      dsimp only
      split
      · exact h
      · split
        · exact h
        · exact h.of_same rfl rfl rfl
    | agent_pool_member w removed =>
      dsimp only
      split
      · exact h
      · split <;> exact h.of_same rfl rfl rfl
    | question_wait_started question =>
      dsimp only
      split
      · exact h
      · split
        · exact h
        · exact h.of_set rfl rfl rfl
    | question_answered question => exact h.finish question _
    | question_timed_out question => exact h.finish question _
    | question_cancelled question => exact h.finish question _
    | agent_message_delivered id m =>
      dsimp only
      split
      · exact h
      · exact h.of_same rfl rfl rfl
    | agent_message_acknowledged id m =>
      dsimp only
      split
      · exact h
      · exact h.of_same rfl rfl rfl
    | agent_message_rejected sender reason => exact h
    | question_refused question => exact h

theorem events (h : Replayed b) (events : List (JournaledEvent τ)) :
    Replayed (events.foldl AgentMessageBroker.rehydrateEvent b) := by
  induction events generalizing b with
  | nil => exact h
  | cons raw events ih => exact ih (h.event raw)

theorem start (config : BrokerConfig τ) : Replayed config.broker where
  keyed _ _ hq := by cases hq
  future _ _ hq := by cases hq
  quiet := rfl
  opened := rfl

end Replayed

section

variable [LinearOrder τ]

theorem Attended.start {s : PoolRun τ} (h : s.Opened) : Attended s := by
  cases h with
  | new config now =>
    refine ⟨fun _ _ hq => ?_, fun _ _ hq => ?_, fun w hw => ?_, fun w hw => ?_, fun hc => ?_,
      fun he => ?_, fun hspins => ?_⟩
    · cases hq
    · cases hq
    · cases hw
    · cases hw
    · cases hc
    · cases he
    · cases (waitForPending_spins hspins).1
  | rehydrated config events active now hparties =>
    have hreplayed := (Replayed.start config).events events
    generalize hb : config.broker.rehydrateEvents events now = b at hparties
    have hquestions : b.questions = (events.foldl AgentMessageBroker.rehydrateEvent
        config.broker).questions := by
      rw [← hb]
      unfold AgentMessageBroker.rehydrateEvents
      dsimp only
      split <;> rfl
    have hopen : b.closed = false := by
      rw [← hb]
      unfold AgentMessageBroker.rehydrateEvents
      dsimp only
      split <;> exact hreplayed.opened
    have hflag : b.pending_event = true → b.pendingQuestions now (some "main") ≠ [] := by
      rw [← hb]
      unfold AgentMessageBroker.rehydrateEvents
      dsimp only
      split
      · intro he
        rw [hreplayed.quiet] at he
        cases he
      · rename_i hsome
        exact fun _ hnil => hsome (List.isEmpty_iff.mpr hnil)
    have hget : ∀ id, (AgentMessageBroker.rehydrate config events active now).questions.get? id
        = (b.questions.get? id).map fun q =>
          if AgentMessageBroker.isOrphan (b.members.filter (· ∈ "main" :: active)) q then
            { q with status := "orphaned" } else q := by
      intro id
      unfold AgentMessageBroker.rehydrate
      rw [hb]
      exact Dict.get?_mapValues ..
    have hclosed : (AgentMessageBroker.rehydrate config events active now).closed = false := by
      unfold AgentMessageBroker.rehydrate
      rw [hb]
      exact hopen
    -- a question to the parent whose sender is there is no orphan
    have hevent : (AgentMessageBroker.rehydrate config events active now).pending_event = true →
        (AgentMessageBroker.rehydrate config events active now).pendingQuestions now (some "main")
          ≠ [] := by
      intro he
      unfold AgentMessageBroker.rehydrate at he
      rw [hb] at he
      obtain ⟨id, q, hq, hpending, hmain, hfresh, hsender, hactive⟩ := hparties (hflag he)
      refine AgentMessageBroker.mem_pendingQuestions.mpr ⟨id, q, ?_, hpending, hmain, hfresh⟩
      rw [hget, hq, Option.map_some, if_neg]
      unfold AgentMessageBroker.isOrphan
      simp only [hmain, Bool.and_eq_true, Bool.or_eq_true, decide_eq_true_iff, not_and, not_or]
      refine fun _ => ⟨?_, fun hne => absurd rfl hne⟩
      rw [not_not, List.mem_filter]
      exact ⟨hsender, decide_eq_true hactive⟩
    refine ⟨fun id q hq => ?_, fun id q hq => ?_, fun w hw => ?_, fun w hw => ?_, fun hc => ?_,
      fun he _ => hevent he, fun hspins => ?_⟩
    · rw [hget, Option.map_eq_some_iff] at hq
      obtain ⟨q₀, hq₀, rfl⟩ := hq
      have hkey := hreplayed.keyed id q₀ (hquestions ▸ hq₀)
      split <;> exact hkey
    · rw [hget, Option.map_eq_some_iff] at hq
      obtain ⟨q₀, hq₀, rfl⟩ := hq
      have hnone := hreplayed.future id q₀ (hquestions ▸ hq₀)
      have hfuture : (if AgentMessageBroker.isOrphan (b.members.filter (· ∈ "main" :: active)) q₀
          then { q₀ with status := "orphaned" } else q₀).future = none := by
        split <;> exact hnone
      refine ⟨fun _ hf => ?_, fun _ hf => ?_⟩
      · rw [hfuture] at hf
        cases hf
      · rw [hfuture] at hf
        cases hf
    · cases hw
    · cases hw
    · exact absurd (hclosed.symm.trans hc) Bool.false_ne_true
    · obtain ⟨he, -, hnone⟩ := waitForPending_spins hspins
      exact hevent he hnone

/-! ## 8. The questions of a run -/

variable [Add τ] [Zero τ]

/-- **The life of a question.** In every run whose steps meet the condition, a
question ends once and for all, every waiter gets what its record says, none
is pending on a closed broker, and `wait_for_pending` suspends when it waits. -/
theorem questions_run (s : PoolRun τ) (hopened : s.Opened) (ops : List (PoolOp τ))
    (hrun : Runs.RunOk PoolRun.step PoolRun.KeepsQuestions s ops) : s.QuestionsRun ops := by
  have hstep : ∀ (s : PoolRun τ) op, Attended s → s.KeepsQuestions op → Attended (s.step op) :=
    fun s op h hok => (h.step op hok).1
  have hinv := Runs.RunOk.invariant hstep (Attended.start hopened) hrun
  refine ⟨fun k => (hinv k).law, fun i j hij => ?_⟩
  induction j, hij using Nat.le_induction with
  | base => exact Kept.refl _
  | succ j hij ih =>
    refine ih.trans ?_
    rw [List.take_add_one]
    cases hop : ops[j]? with
    | none => rw [Option.toList_none, List.append_nil]; exact Kept.refl _
    | some op =>
      rw [Option.toList_some, List.foldl_append, List.foldl_cons, List.foldl_nil]
      obtain ⟨hj, hget⟩ := List.getElem?_eq_some_iff.mp hop
      have hok := Runs.runOk_iff.mp hrun (ops.take j) op (ops.drop (j + 1)) (by
        rw [← hget, ← List.drop_eq_getElem_cons hj, List.take_append_drop])
      exact (Attended.step (hinv j) op hok).2

end

/-- A question of one worker to another. -/
def peerQuestion : QuestionArgs Int where
  sender := "a"
  recipient := "b"
  question := "which port?"
  timeout_s := 60

/-- The parent's answer reaches a waiter whose timeout is later. -/
theorem questions_answered : (⟨smallPool.broker, [], 0⟩ : PoolRun Int).QuestionsRun
    [.register_worker "w", .open_question parentQuestion "m1", .wait "m1", .tick 1,
      .answer_question "main" "m1" "8080", .wake 0, .close] := by
  refine questions_run _ (.new smallPool 0) _ ⟨trivial, fun _ => ⟨rfl, rfl, .inl ⟨rfl, by decide⟩⟩,
    trivial, fun _ _ => by decide, trivial, fun w hw q hq => ?_, trivial, trivial⟩
  cases hw
  cases hq
  decide

/-- **Counterexample.** One worker asks another: the flag is set, and no question
to the parent is pending. -/
theorem not_questions_peer : ¬ (⟨smallPool.broker, [], 0⟩ : PoolRun Int).QuestionsRun
    [.register_worker "a", .register_worker "b", .open_question peerQuestion "m1"] := by
  intro h
  exact (h.1 3).event (by decide) (by decide) (by decide)

end Agenthicc.Subagents
