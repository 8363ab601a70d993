/-
Agenthicc.Library.Replay — a live fold and the replay of the log it wrote.

A live machine reads inputs and, for each, moves its state and appends one
event to a log. A reader folds the log with a partial reducer, skipping what
the reducer refuses. `Writes` is the only condition between the two: the
event that is appended has, through the reducer, the effect the machine had.
`replay_live` and `replay_live_take` then say that replaying the log, or any
prefix of it, gives the state the machine had after as many inputs.
-/
import Mathlib.Data.List.Basic
import Mathlib.Tactic.Common

namespace Replay

variable {σ ε ι : Type}

/-- One event through a partial reducer: a refused event changes nothing. -/
def applyOrSkip (reducer : σ → ε → Option σ) (s : σ) (e : ε) : σ := (reducer s e).getD s

/-- The fold of a log. -/
def replay (reducer : σ → ε → Option σ) (s : σ) (log : List ε) : σ :=
  log.foldl (applyOrSkip reducer) s

/-- A live run: the state at the end and the log, from a step that returns
the next state and the event to append. -/
def live (step : σ → ι → σ × ε) (s : σ) : List ι → σ × List ε
  | [] => (s, [])
  | i :: is => ((live step (step s i).1 is).1, (step s i).2 :: (live step (step s i).1 is).2)

/-- Every appended event has the effect of the step that appended it. -/
def Writes (reducer : σ → ε → Option σ) (step : σ → ι → σ × ε) : Prop :=
  ∀ s i, applyOrSkip reducer s (step s i).2 = (step s i).1

variable {reducer : σ → ε → Option σ} {step : σ → ι → σ × ε}

/-- Replaying the log of a run gives the state of the run. -/
theorem replay_live (h : Writes reducer step) : ∀ (is : List ι) (s : σ),
    replay reducer s (live step s is).2 = (live step s is).1
  | [], _ => rfl
  | i :: is, s => by
      rw [live, replay, List.foldl_cons, h s i]
      exact replay_live h is (step s i).1

theorem live_length : ∀ (is : List ι) (s : σ), (live step s is).2.length = is.length
  | [], _ => rfl
  | i :: is, s => by simp [live, live_length is]

/-- A prefix of the log is the log of a prefix of the inputs. -/
theorem live_take : ∀ (n : Nat) (is : List ι) (s : σ),
    (live step s is).2.take n = (live step s (is.take n)).2
  | 0, _, _ => rfl
  | _ + 1, [], _ => rfl
  | n + 1, i :: is, s => by simp [live, live_take n is]

/-- Replaying a prefix of the log gives the state after a prefix of the
inputs. -/
theorem replay_live_take (h : Writes reducer step) (n : Nat) (is : List ι) (s : σ) :
    replay reducer s ((live step s is).2.take n) = (live step s (is.take n)).1 := by
  rw [live_take, replay_live h]

end Replay
