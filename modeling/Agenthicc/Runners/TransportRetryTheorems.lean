/-
Agenthicc.Runners.TransportRetryTheorems — what the attempts of a retry start
from, when they start, and what the last one leaves.

Without a `checkpoint_provider` the memory at the start of every attempt is
the memory before the first one: each restore puts it back. With one, a restore
gives the checkpoint, and no checkpoint means no restore.
-/
import Agenthicc.Runners.TransportRetry
import Agenthicc.Library.Runs
import Mathlib.Tactic.Linarith

namespace Agenthicc.Runners

open Python Agenthicc.Memory Runs

namespace RetryCall

variable {M S : Type} (c : RetryCall M S)

/-! ## 1. What a retry is to do -/

/-- Where an attempt is to start from: the latest checkpoint, or the memory
before the first attempt. -/
def target (s : Retrying M S) : Projection := s.committed.elim s.initial c.memory.saved

/-- The target after an attempt. -/
def nextTarget (s : Retrying M S) (a : Attempt M S) : Projection := (c.latest s a).elim s.initial c.memory.saved

def FromCommitted (s : Retrying M S) : Prop := s.ended = none → c.memory.content s.memory = c.target s

/-- When the attempt after an error starts. -/
def started (a : Attempt M S) (retry_number : Nat) (exc : ProviderError) : ℚ :=
  a.now + c.delay retry_number exc a.uniform + a.late.1

/-- The next attempt starts in its window; the last error leaves no message
that the rollback would not have left. -/
structure Safe (s : Retrying M S) (a : Attempt M S) : Prop where
  window : ∀ exc retry_number retry_limit, s.ended = none → a.outcome = .raised exc →
    c.budget s exc = some (retry_number, retry_limit) → (c.step s a).ended = none →
    (∀ retry_after, retryAfterSeconds exc = some retry_after → a.now + retry_after ≤ c.started a retry_number exc)
      ∧ (0 < c.config.max_total_duration_s →
          c.started a retry_number exc - c.start ≤ c.config.max_total_duration_s)
      ∧ ∀ deadline, c.deadline_monotonic = some deadline →
          c.started a retry_number exc + MIN_EXEC_WINDOW_S < deadline
  final : s.ended = none → (c.step s a).ended = some .gaveUp →
    ∀ message ∈ (c.memory.content (c.step s a).memory).1, message ∈ (c.target (c.step s a)).1

/-- The rollback has a snapshot. -/
def RollsBack (a : Attempt M S) : Prop := c.checkpoint_provider = true → a.checkpoint.isSome = true

/-- The callback and the sleep overrun by no more than the ceiling and the
deadline leave. -/
def LateFits (a : Attempt M S) (retry_number : Nat) (exc : ProviderError) : Prop :=
  (0 < c.config.max_total_duration_s → a.late.1 ≤ c.config.max_total_duration_s
      - ((a.now - c.start) + c.delay retry_number exc a.uniform))
    ∧ ∀ deadline, c.deadline_monotonic = some deadline →
        a.late.1 < deadline - MIN_EXEC_WINDOW_S - (a.now + c.delay retry_number exc a.uniform)

/-- The condition on an attempt that ends in a provider error. -/
def OkError (s : Retrying M S) (a : Attempt M S) (exc : ProviderError) (retry_number : Nat) (retry_limit : Int) :
    Prop :=
  if retry_limit < retry_number then
    ∀ message ∈ (c.memory.content (a.turn s.memory)).1, message ∈ (c.nextTarget s a).1
  else if c.inTime a.now (c.delay retry_number exc a.uniform) = true then
    (c.RollsBack a ∨ c.memory.content (a.turn s.memory) = c.nextTarget s a) ∧ c.LateFits a retry_number exc
  else
    c.RollsBack a ∨ ∀ message ∈ (c.memory.content (a.turn s.memory)).1, message ∈ (c.nextTarget s a).1

/-- The condition on an attempt. -/
def Ok (s : Retrying M S) (a : Attempt M S) : Prop :=
  ∀ exc retry_number retry_limit, s.ended = none → a.outcome = .raised exc →
    c.budget s exc = some (retry_number, retry_limit) → c.OkError s a exc retry_number retry_limit

/-! ## 2. One round -/

/-- Without a `checkpoint_provider` there is no checkpoint. -/
def Uncommitted (s : Retrying M S) : Prop := c.checkpoint_provider = false → s.committed = none

variable {c} {s : Retrying M S} {a : Attempt M S}

theorem content_recovered (hs : c.Uncommitted s) (h : c.FromCommitted s) (hrun : s.ended = none)
    (hback : c.RollsBack a) : c.memory.content (c.recovered s a) = c.nextTarget s a := by
  unfold recovered recoverySnapshot nextTarget latest
  cases hprovider : c.checkpoint_provider with
  | false =>
    have hcontent := h hrun
    rw [target, hs hprovider] at hcontent
    simp only [Bool.false_eq_true, if_false, Option.elim_none]
    rw [c.memory.content_restore, c.memory.saved_snapshot, hcontent]
    rfl
  | true =>
    obtain ⟨checkpoint, hcheckpoint⟩ := Option.isSome_iff_exists.mp (hback hprovider)
    simp only [if_true, hcheckpoint, Option.some_or, Option.elim_some]
    exact c.memory.content_restore _ _

theorem recovered_of_not (hback : ¬ c.RollsBack a) : c.recovered s a = a.turn s.memory := by
  rw [RollsBack, Classical.not_imp, Bool.not_eq_true, Option.isSome_eq_false_iff, Option.isNone_iff_eq_none] at hback
  unfold recovered recoverySnapshot
  rw [if_pos hback.1, hback.2]

/-- The content after the rollback is the target, if there was a snapshot or
nothing to roll back. -/
theorem content_recovered_iff (hs : c.Uncommitted s) (h : c.FromCommitted s) (hrun : s.ended = none) :
    c.memory.content (c.recovered s a) = c.nextTarget s a ↔
      c.RollsBack a ∨ c.memory.content (a.turn s.memory) = c.nextTarget s a := by
  by_cases hback : c.RollsBack a
  · simp only [content_recovered hs h hrun hback, hback, true_or]
  · rw [recovered_of_not hback]
    simp only [hback, false_or]

theorem messages_recovered_iff (hs : c.Uncommitted s) (h : c.FromCommitted s) (hrun : s.ended = none) :
    (∀ message ∈ (c.memory.content (c.recovered s a)).1, message ∈ (c.nextTarget s a).1) ↔
      c.RollsBack a ∨ ∀ message ∈ (c.memory.content (a.turn s.memory)).1, message ∈ (c.nextTarget s a).1 := by
  by_cases hback : c.RollsBack a
  · rw [content_recovered hs h hrun hback]
    simp only [hback, true_or, iff_true]
    exact fun message hmem => hmem
  · rw [recovered_of_not hback]
    simp only [hback, false_or]

theorem retry_after_le_delay (retry_number : Nat) {exc : ProviderError} (uniform : ℚ) {retry_after : ℚ}
    (h : retryAfterSeconds exc = some retry_after) : retry_after ≤ c.delay retry_number exc uniform := by
  unfold delay
  rw [h]
  simp only [Option.getD_some]
  split
  · exact le_max_left _ _
  · exact le_max_right _ _

/-- The window of the next attempt, apart from the hint, is what its lateness
must fit in. -/
theorem lateFits_iff {retry_number : Nat} {exc : ProviderError} :
    c.LateFits a retry_number exc ↔
      (∀ retry_after, retryAfterSeconds exc = some retry_after →
          a.now + retry_after ≤ c.started a retry_number exc)
        ∧ (0 < c.config.max_total_duration_s →
            c.started a retry_number exc - c.start ≤ c.config.max_total_duration_s)
        ∧ ∀ deadline, c.deadline_monotonic = some deadline →
            c.started a retry_number exc + MIN_EXEC_WINDOW_S < deadline := by
  have hlate := a.late.2
  unfold LateFits started
  constructor
  · intro hfits
    refine ⟨fun retry_after hhint => ?_, fun hpos => ?_, fun deadline hdeadline => ?_⟩
    · have hle := retry_after_le_delay (c := c) retry_number a.uniform hhint
      linarith
    · have := hfits.1 hpos
      linarith
    · have := hfits.2 deadline hdeadline
      linarith
  · intro hwindow
    refine ⟨fun hpos => ?_, fun deadline hdeadline => ?_⟩
    · have := hwindow.2.1 hpos
      linarith
    · have := hwindow.2.2 deadline hdeadline
      linarith

/-- What an error does, by the budget, the ceiling and the deadline. -/
theorem step_error (hrun : s.ended = none) {exc : ProviderError} (hout : a.outcome = .raised exc)
    {retry_number : Nat} {retry_limit : Int} (hbudget : c.budget s exc = some (retry_number, retry_limit)) :
    c.target (c.step s a) = c.nextTarget s a ∧
      if retry_limit < retry_number then
        (c.step s a).ended = some .gaveUp ∧ (c.step s a).memory = a.turn s.memory
      else if c.inTime a.now (c.delay retry_number exc a.uniform) = true then
        (c.step s a).ended = none ∧ (c.step s a).memory = c.recovered s a
      else (c.step s a).ended = some .gaveUp ∧ (c.step s a).memory = c.recovered s a := by
  unfold step
  simp only [hrun, Option.isSome_none, Bool.false_eq_true, if_false, hout, hbudget, gt_iff_lt]
  by_cases hlimit : retry_limit < retry_number
  · simp only [if_pos hlimit]
    exact ⟨rfl, trivial, trivial⟩
  · simp only [if_neg hlimit]
    by_cases htime : c.inTime a.now (c.delay retry_number exc a.uniform) = true
    · simp only [if_pos htime]
      exact ⟨rfl, trivial, trivial⟩
    · simp only [if_neg htime]
      exact ⟨rfl, trivial, trivial⟩

/-- An attempt that does not end in a provider error is the last one, and
nobody gave up. -/
theorem step_other (hrun : s.ended = none)
    (hother : ∀ exc, a.outcome = .raised exc → c.budget s exc = none) :
    (c.step s a).ended = some .returned ∨ (c.step s a).ended = some .propagated := by
  unfold step
  simp only [hrun, Option.isSome_none, Bool.false_eq_true, if_false]
  cases hout : a.outcome with
  | returned => exact .inl rfl
  | cancelled => exact .inr rfl
  | raised exc =>
    simp only [hother exc hout]
    exact .inr trivial

theorem uncommitted_step (hs : c.Uncommitted s) : c.Uncommitted (c.step s a) := by
  intro hprovider
  have hlatest : c.latest s a = none := by
    rw [latest, hprovider]
    rfl
  unfold step
  split
  · exact hs hprovider
  · split
    · exact hs hprovider
    · exact hs hprovider
    · split
      · exact hs hprovider
      · simp only
        split
        · exact hlatest
        · split
          · exact hlatest
          · exact hlatest

/-- **One attempt.** It keeps to the target and its window exactly under the
condition. -/
theorem step_safe_iff (hs : c.Uncommitted s) (h : c.FromCommitted s) :
    (c.FromCommitted (c.step s a) ∧ c.Safe s a) ↔ c.Ok s a := by
  cases hrun : s.ended with
  | some last =>
    have hstep : c.step s a = s := by
      unfold step
      rw [hrun]
      rfl
    have hnot : s.ended ≠ none := by
      rw [hrun]
      exact Option.some_ne_none last
    refine iff_of_true ⟨?_, ?_, ?_⟩ ?_
    · rwa [hstep]
    · exact fun _ _ _ hnone => absurd hnone hnot
    · exact fun hnone => absurd hnone hnot
    · exact fun _ _ _ hnone => absurd hnone hnot
  | none =>
    by_cases hother : ∀ exc, a.outcome = .raised exc → c.budget s exc = none
    · have hend := step_other hrun hother
      refine iff_of_true ⟨fun hnone => ?_, fun exc retry_number retry_limit _ hout hbudget => ?_, fun _ hgave => ?_⟩
        fun exc retry_number retry_limit _ hout hbudget => ?_
      · rw [hnone] at hend
        simp at hend
      · rw [hother exc hout] at hbudget
        cases hbudget
      · rw [hgave] at hend
        simp at hend
      · rw [hother exc hout] at hbudget
        cases hbudget
    · rw [not_forall] at hother
      obtain ⟨exc, hother⟩ := hother
      rw [Classical.not_imp] at hother
      obtain ⟨hout, hsome⟩ := hother
      obtain ⟨⟨retry_number, retry_limit⟩, hbudget⟩ := Option.ne_none_iff_exists'.mp hsome
      obtain ⟨htarget, hstep⟩ := step_error hrun hout hbudget
      have hok : c.Ok s a ↔ c.OkError s a exc retry_number retry_limit := by
        refine ⟨fun hok => hok exc retry_number retry_limit hrun hout hbudget, fun hok => ?_⟩
        intro exc' retry_number' retry_limit' _ hout' hbudget'
        rw [hout, TurnOutcome.raised.injEq] at hout'
        subst hout'
        rw [hbudget, Option.some.injEq, Prod.mk.injEq] at hbudget'
        obtain ⟨rfl, rfl⟩ := hbudget'
        exact hok
      have hwindow : (∀ exc' n limit, s.ended = none → a.outcome = .raised exc' →
          c.budget s exc' = some (n, limit) → (c.step s a).ended = none → c.LateFits a n exc') ↔
          ((c.step s a).ended = none → c.LateFits a retry_number exc) := by
        refine ⟨fun hall => hall exc retry_number retry_limit hrun hout hbudget, fun hfits => ?_⟩
        intro exc' retry_number' retry_limit' _ hout' hbudget'
        rw [hout, TurnOutcome.raised.injEq] at hout'
        subst hout'
        rw [hbudget, Option.some.injEq, Prod.mk.injEq] at hbudget'
        obtain ⟨rfl, rfl⟩ := hbudget'
        exact hfits
      have hsafe : c.Safe s a ↔ ((c.step s a).ended = none → c.LateFits a retry_number exc)
          ∧ ((c.step s a).ended = some .gaveUp → ∀ message ∈ (c.memory.content (c.step s a).memory).1,
              message ∈ (c.nextTarget s a).1) := by
        rw [← hwindow, ← htarget]
        constructor
        · intro hsafe
          exact ⟨fun exc' n limit hnone hout' hbudget' hgo =>
            lateFits_iff.mpr (hsafe.window exc' n limit hnone hout' hbudget' hgo), hsafe.final hrun⟩
        · intro hsafe
          exact ⟨fun exc' n limit hnone hout' hbudget' hgo =>
            lateFits_iff.mp (hsafe.1 exc' n limit hnone hout' hbudget' hgo), fun _ => hsafe.2⟩
      rw [hok, hsafe, OkError, FromCommitted, htarget]
      by_cases hlimit : retry_limit < retry_number
      · rw [if_pos hlimit] at hstep ⊢
        rw [hstep.1, hstep.2]
        simp
      · rw [if_neg hlimit] at hstep ⊢
        by_cases htime : c.inTime a.now (c.delay retry_number exc a.uniform) = true
        · rw [if_pos htime] at hstep ⊢
          rw [hstep.1, hstep.2, ← content_recovered_iff hs h hrun]
          simp
        · rw [if_neg htime] at hstep ⊢
          rw [hstep.1, hstep.2, ← messages_recovered_iff hs h hrun]
          simp

/-! ## 3. Budgets -/

/-- Each budget counts its own retries, and neither is overdrawn while the
loop runs. -/
structure WithinBudgets (c : RetryCall M S) (s : Retrying M S) : Prop where
  running : s.ended = none → s.attempts = 1 + s.transient_retries + s.irrecoverable_retries
    ∧ (s.transient_retries : Int) ≤ c.config.max_retries
    ∧ (s.irrecoverable_retries : Int) ≤ c.config.irrecoverable_error_max_retries
  attempts : (s.attempts : Int) ≤ 1 + c.config.max_retries + c.config.irrecoverable_error_max_retries

theorem withinBudgets_step (h : WithinBudgets c s) : WithinBudgets c (c.step s a) := by
  unfold step
  split
  · exact h
  · rename_i hrun
    rw [Option.not_isSome_iff_eq_none] at hrun
    obtain ⟨hattempts, htransient, hirrecoverable⟩ := h.running hrun
    split
    · exact ⟨nofun, h.attempts⟩
    · exact ⟨nofun, h.attempts⟩
    · rename_i exc _
      split
      · exact ⟨nofun, h.attempts⟩
      · rename_i retry_number retry_limit hbudget
        simp only
        split
        · exact ⟨nofun, h.attempts⟩
        · rename_i hlimit
          split
          · -- one more attempt, on one of the two budgets
            unfold budget at hbudget
            cases htrans : exc.is_transient with
            | true =>
              rw [htrans, if_pos rfl, Option.some.injEq, Prod.mk.injEq] at hbudget
              obtain ⟨rfl, rfl⟩ := hbudget
              refine ⟨fun _ => ⟨?_, ?_, ?_⟩, ?_⟩ <;> simp <;> omega
            | false =>
              rw [htrans, if_neg Bool.false_ne_true] at hbudget
              split at hbudget
              · rw [Option.some.injEq, Prod.mk.injEq] at hbudget
                obtain ⟨rfl, rfl⟩ := hbudget
                refine ⟨fun _ => ⟨?_, ?_, ?_⟩, ?_⟩ <;> simp <;> omega
              · cases hbudget
          · exact ⟨nofun, h.attempts⟩

theorem withinBudgets_begin (memory : M) (htransient : 0 ≤ c.config.max_retries)
    (hirrecoverable : 0 ≤ c.config.irrecoverable_error_max_retries) : WithinBudgets c (c.begin memory) := by
  refine ⟨fun _ => ⟨rfl, htransient, hirrecoverable⟩, ?_⟩
  show (1 : Int) ≤ _
  omega

variable (c)

/-- **Retries.** The attempts start from the latest checkpoint and in their
windows, and the last error leaves nothing behind, exactly when every
attempt meets the condition; with budgets that are not negative, there are
never more attempts than they allow. -/
theorem retry_from_committed_iff (memory : M) (attempts : List (Attempt M S)) :
    (0 ≤ c.config.max_retries → 0 ≤ c.config.irrecoverable_error_max_retries →
        ∀ k, (((attempts.take k).foldl c.step (c.begin memory)).attempts : Int)
          ≤ 1 + c.config.max_retries + c.config.irrecoverable_error_max_retries)
      ∧ (((∀ k, c.FromCommitted ((attempts.take k).foldl c.step (c.begin memory)))
          ∧ ∀ k a, attempts[k]? = some a → c.Safe ((attempts.take k).foldl c.step (c.begin memory)) a)
        ↔ RunOk c.step c.Ok (c.begin memory) attempts) := by
  refine ⟨fun htransient hirrecoverable k => ?_, ?_⟩
  · have hstep : ∀ s a, WithinBudgets c s → WithinBudgets c (c.step s a) := fun _ _ h => withinBudgets_step h
    exact (Runs.invariant hstep _ (withinBudgets_begin memory htransient hirrecoverable)).attempts
  · have hinv : ∀ s a, c.Uncommitted s → c.Uncommitted (c.step s a) := fun _ _ h => uncommitted_step h
    exact forall_steps_iff hinv (fun _ _ hs h => step_safe_iff hs h) (fun _ => rfl) (fun _ => rfl)

/-- A `checkpoint_provider` without a checkpoint yet: the second attempt starts
with what the first one left. -/
theorem second_attempt_keeps_partial :
    ∃ c : RetryCall JournaledShortTermMemory Checkpoint, ∃ memory, ∃ first : Attempt _ _,
      c.memory = journaledMemory ∧ c.checkpoint_provider = true ∧ first.checkpoint = none
        ∧ (c.step (c.begin memory) first).ended = none
        ∧ (c.step (c.begin memory) first).memory.messages = [.str "partial"]
        ∧ ¬ c.FromCommitted (c.step (c.begin memory) first) := by
  refine ⟨⟨journaledMemory, {}, none, true, 0⟩, ⟨ConversationJournal.opened [], [], .null, none⟩,
    { turn := fun m => { m with messages := m.messages ++ [.str "partial"] }
      outcome := .raised ⟨true, false, []⟩, checkpoint := none, now := 0 }, rfl, rfl, rfl, ?_, ?_, ?_⟩
  · decide
  · decide
  · intro h
    exact absurd (congrArg Prod.fst (h (by decide))) (by decide)

end RetryCall

end Agenthicc.Runners
