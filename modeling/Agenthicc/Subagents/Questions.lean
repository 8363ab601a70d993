/-
Agenthicc.Subagents.Questions — what the operations of a broker do to its
questions.

A question ends through `_finish_question_locked` only, alone or in one of the
three loops over all questions. `get?_finishQuestions` says what such a loop
leaves: every question it is about has ended, every other one is as it was.
-/
import Agenthicc.Subagents.Communication

namespace Agenthicc.Subagents

open Python

variable {τ : Type}

/-! ## 1. One question ends -/

namespace QuestionRecord

variable (q : QuestionRecord τ) (answer status : String)

@[simp] theorem question_id_finish : (q.finish answer status).question_id = q.question_id := rfl
@[simp] theorem envelope_finish : (q.finish answer status).envelope = q.envelope := rfl
@[simp] theorem status_finish : (q.finish answer status).status = status := rfl
@[simp] theorem answer_finish : (q.finish answer status).answer = answer := rfl

end QuestionRecord

namespace AgentMessageBroker

section

variable [LinearOrder τ]

@[simp] theorem questions_finishQuestion (b : AgentMessageBroker τ) (q : QuestionRecord τ)
    (answer status : String) (now : τ) : (b.finishQuestion q answer status now).questions
      = b.questions.set q.question_id (q.finish answer status) := by
  unfold finishQuestion
  dsimp only
  split <;> rfl

@[simp] theorem journal_finishQuestion (b : AgentMessageBroker τ) (q : QuestionRecord τ)
    (answer status : String) (now : τ) :
    (b.finishQuestion q answer status now).journal = b.journal := by
  unfold finishQuestion
  dsimp only
  split <;> rfl

@[simp] theorem toBrokerConfig_finishQuestion (b : AgentMessageBroker τ) (q : QuestionRecord τ)
    (answer status : String) (now : τ) :
    (b.finishQuestion q answer status now).toBrokerConfig = b.toBrokerConfig := by
  unfold finishQuestion
  dsimp only
  split <;> rfl

@[simp] theorem closed_finishQuestion (b : AgentMessageBroker τ) (q : QuestionRecord τ)
    (answer status : String) (now : τ) :
    (b.finishQuestion q answer status now).closed = b.closed := by
  unfold finishQuestion
  dsimp only
  split <;> rfl

/-- The flag stays only while a question to the parent is pending. -/
theorem pending_event_finishQuestion {b : AgentMessageBroker τ} {q : QuestionRecord τ}
    {answer status : String} {now : τ}
    (hflag : (b.finishQuestion q answer status now).pending_event = true) :
    b.pending_event = true
      ∧ (b.finishQuestion q answer status now).pendingQuestions now (some "main") ≠ [] := by
  unfold finishQuestion at hflag ⊢
  dsimp only at hflag ⊢
  split at hflag
  · cases hflag
  · rename_i hsome
    rw [if_neg hsome]
    exact ⟨hflag, fun hnil => hsome (List.isEmpty_iff.mpr hnil)⟩

theorem mem_pendingQuestions {b : AgentMessageBroker τ} {now : τ} :
    b.pendingQuestions now (some "main") ≠ [] ↔ ∃ id q, b.questions.get? id = some q
      ∧ q.status = "pending" ∧ q.envelope.recipient = "main" ∧ q.envelope.expired now = false := by
  unfold pendingQuestions
  rw [Ne, List.map_eq_nil_iff, List.filter_eq_nil_iff]
  simp only [Dict.mem_values_iff]
  constructor
  · intro h
    simp only [not_forall] at h
    obtain ⟨q, ⟨id, hq⟩, hcond⟩ := h
    simp at hcond
    exact ⟨id, q, hq, hcond.1, hcond.2.1.symm, hcond.2.2⟩
  · rintro ⟨id, q, hq, hs, hr, he⟩ h
    exact h q ⟨id, hq⟩ (by simp [hs, hr, he])

/-! ## 2. The loops over all questions -/

theorem finishQuestions_induct {ends : QuestionRecord τ → Bool} {status : String}
    {event : Option (QuestionProjection τ → BrokerEvent τ)} {clock : Nat → τ}
    {P : AgentMessageBroker τ → Prop}
    (hround : ∀ b id q i, P b → b.questions.get? id = some q → ends q = true →
      P (match event with
        | none => b.finishQuestion q "" status (clock i)
        | some event => (b.finishQuestion q "" status (clock i)).record (event
            ((b.finishQuestion q "" status (clock i)).questionProjection (q.finish "" status))))) :
    ∀ (ids : List (String × Nat)) {b : AgentMessageBroker τ}, P b →
      P (finishQuestions ends status event clock ids b)
  | [], _, h => h
  | (id, i) :: ids, b, h => by
      unfold finishQuestions
      split
      · exact finishQuestions_induct hround ids h
      · rename_i q hq
        split
        · rename_i hends
          refine finishQuestions_induct hround ids ?_
          have hnext := hround b id q i h hq hends
          cases event <;> exact hnext
        · exact finishQuestions_induct hround ids h

theorem closed_finishQuestions {ends : QuestionRecord τ → Bool} {status : String}
    {event : Option (QuestionProjection τ → BrokerEvent τ)} {clock : Nat → τ}
    (ids : List (String × Nat)) (b : AgentMessageBroker τ) :
    (finishQuestions ends status event clock ids b).closed = b.closed := by
  refine finishQuestions_induct (P := fun b' => b'.closed = b.closed)
    (fun b' id q i hb' _ _ => ?_) ids rfl
  have hround := (closed_finishQuestion b' q "" status (clock i)).trans hb'
  cases event <;> exact hround

/-- Every question is stored under its ID. -/
def KeyedQuestions (b : AgentMessageBroker τ) : Prop :=
  ∀ id q, b.questions.get? id = some q → q.question_id = id

theorem get?_finishQuestions {ends : QuestionRecord τ → Bool} {status : String}
    {event : Option (QuestionProjection τ → BrokerEvent τ)} {clock : Nat → τ} :
    ∀ {ids : List (String × Nat)} {b : AgentMessageBroker τ}, (ids.map Prod.fst).Nodup →
    b.KeyedQuestions → ∀ id, (finishQuestions ends status event clock ids b).questions.get? id
      = if id ∈ ids.map Prod.fst then (b.questions.get? id).map fun q =>
          if ends q then q.finish "" status else q
        else b.questions.get? id
  | [], b, _, _, id => by rw [finishQuestions, List.map_nil, if_neg List.not_mem_nil]
  | (id', i) :: ids, b, hnd, hkeyed, id => by
      rw [List.map_cons, List.nodup_cons] at hnd
      obtain ⟨hnot, hnd⟩ := hnd
      have hrest : ∀ {b' : AgentMessageBroker τ}, b'.KeyedQuestions →
          (∀ j, id' ≠ j → b'.questions.get? j = b.questions.get? j) →
          b'.questions.get? id' = (b.questions.get? id').map (fun q =>
            if ends q then q.finish "" status else q) →
          (finishQuestions ends status event clock ids b').questions.get? id
            = if id ∈ ((id', i) :: ids).map Prod.fst then (b.questions.get? id).map fun q =>
                if ends q then q.finish "" status else q
              else b.questions.get? id := by
        intro b' hb' hother hthis
        rw [get?_finishQuestions hnd hb', List.map_cons]
        by_cases hid : id' = id
        · subst hid
          rw [if_neg hnot, if_pos List.mem_cons_self, hthis]
        · rw [hother id hid]
          by_cases hmem : id ∈ ids.map Prod.fst
          · rw [if_pos hmem, if_pos (List.mem_cons_of_mem _ hmem)]
          · rw [if_neg hmem, if_neg]
            rw [List.mem_cons, not_or]
            exact ⟨Ne.symm hid, hmem⟩
      unfold finishQuestions
      split
      · rename_i hnone
        exact hrest hkeyed (fun j _ => rfl) (by rw [hnone]; rfl)
      · rename_i q hq
        split
        · rename_i hends
          have hkey := hkeyed id' q hq
          have hset : ∀ j, (b.questions.set q.question_id (q.finish "" status)).get? j
              = if id' = j then some (q.finish "" status) else b.questions.get? j := by
            intro j
            rw [Dict.get?_set, hkey]
          have hkeyed' : ∀ j q', (b.questions.set q.question_id (q.finish "" status)).get? j
              = some q' → q'.question_id = j := by
            intro j q' hq'
            rw [hset] at hq'
            split at hq'
            · rename_i hj
              cases hq'
              exact hkey.trans hj
            · exact hkeyed j q' hq'
          have hthis : (b.questions.set q.question_id (q.finish "" status)).get? id'
              = (b.questions.get? id').map fun q => if ends q then q.finish "" status else q := by
            rw [hset, if_pos rfl, hq, Option.map_some, if_pos hends]
          refine hrest ?_ ?_ ?_
          · cases event <;> simpa [KeyedQuestions, record] using hkeyed'
          · intro j hj
            cases event <;> simp [record, hset, hj]
          · cases event <;> simpa [record] using hthis
        · rename_i hends
          exact hrest hkeyed (fun j _ => rfl) (by rw [hq, Option.map_some, if_neg hends])

theorem get?_finishQuestions_all {ends : QuestionRecord τ → Bool} {status : String}
    {event : Option (QuestionProjection τ → BrokerEvent τ)} {clock : Nat → τ}
    (b : AgentMessageBroker τ) (hkeyed : b.KeyedQuestions) (id : String) :
    (finishQuestions ends status event clock b.questionIds b).questions.get? id
      = (b.questions.get? id).map fun q => if ends q then q.finish "" status else q := by
  have hids : b.questionIds.map Prod.fst = b.questions.items.map Prod.fst := by
    unfold questionIds
    rw [List.zipIdx_map_fst]
  rw [get?_finishQuestions (by rw [hids]; exact b.questions.nodup) hkeyed, hids]
  split
  · rfl
  · rename_i hnot
    have hnone : b.questions.get? id = none := by
      cases hq : b.questions.get? id with
      | none => rfl
      | some q => exact absurd (Dict.mem_keys_iff.mpr ⟨q, hq⟩) hnot
    rw [hnone]
    rfl

end

end AgentMessageBroker

end Agenthicc.Subagents
