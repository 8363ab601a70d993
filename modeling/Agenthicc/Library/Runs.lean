/-
Agenthicc.Library.Runs — properties of every state of a run.

A run is the fold of a step function over its inputs. `RunOk` says that every
step meets a condition on the state it starts from and on its input.
`RunOk.invariant` is the induction rule for an invariant that such steps
preserve. `forall_states_iff` is the rule for a property that a step preserves
exactly under the condition: it holds throughout exactly when every step
meets the condition.
-/
import Mathlib.Data.List.Basic
import Mathlib.Tactic.Common

namespace Runs

variable {σ ι : Type}

/-- Every step of the run meets the condition. -/
def RunOk (step : σ → ι → σ) (ok : σ → ι → Prop) : σ → List ι → Prop
  | _, [] => True
  | s, i :: is => ok s i ∧ RunOk step ok (step s i) is

variable {step : σ → ι → σ} {ok : σ → ι → Prop} {inv P : σ → Prop}

instance instDecidableRunOk [∀ s i, Decidable (ok s i)] : ∀ (s : σ) (is : List ι), Decidable (RunOk step ok s is)
  | _, [] => isTrue trivial
  | s, i :: is =>
      have := instDecidableRunOk (step s i) is
      inferInstanceAs (Decidable (ok s i ∧ RunOk step ok (step s i) is))

theorem invariant (hstep : ∀ s i, inv s → inv (step s i)) : ∀ (is : List ι) {s : σ}, inv s →
    inv (is.foldl step s)
  | [], _, h => h
  | i :: is, s, h => invariant hstep is (hstep s i h)

/-- What every step under the condition preserves holds in every state of a
run that meets it. -/
theorem RunOk.invariant (hstep : ∀ s i, inv s → ok s i → inv (step s i)) :
    ∀ {is : List ι} {s : σ}, inv s → RunOk step ok s is → ∀ k, inv ((is.take k).foldl step s)
  | _, _, h, _, 0 => h
  | [], _, h, _, _ + 1 => h
  | i :: _, s, h, hok, k + 1 => RunOk.invariant hstep (hstep s i h hok.1) hok.2 k

theorem RunOk.of_forall (h : ∀ s i, ok s i) : ∀ (is : List ι) {s : σ}, RunOk step ok s is
  | [], _ => trivial
  | i :: is, s => ⟨h s i, RunOk.of_forall h is⟩

theorem RunOk.and {ok' : σ → ι → Prop} : ∀ {is : List ι} {s : σ}, RunOk step ok s is → RunOk step ok' s is →
    RunOk step (fun s i => ok s i ∧ ok' s i) s is
  | [], _, _, _ => trivial
  | _ :: _, _, h, h' => ⟨⟨h.1, h'.1⟩, h.2.and h'.2⟩

theorem foldl_take_succ {is : List ι} {k : Nat} {i : ι} (h : is[k]? = some i) (s : σ) :
    (is.take (k + 1)).foldl step s = step ((is.take k).foldl step s) i := by
  rw [List.take_add_one, h, Option.toList_some, List.foldl_append]
  rfl

theorem RunOk.get {is : List ι} {s : σ} {k : Nat} {i : ι} (h : RunOk step ok s is)
    (hi : is[k]? = some i) : ok ((is.take k).foldl step s) i := by
  induction is generalizing s k with
  | nil => cases hi
  | cons j is ih =>
      cases k with
      | zero =>
          cases hi
          exact h.1
      | succ k => exact ih h.2 hi

/-- A run meets a condition when each of its steps does, from the state the
steps before it lead to. -/
theorem runOk_iff : ∀ {is : List ι} {s : σ}, RunOk step ok s is ↔
    ∀ pre i post, is = pre ++ i :: post → ok (pre.foldl step s) i
  | [], s => by simp [RunOk]
  | i :: is, s => by
      rw [RunOk, runOk_iff]
      constructor
      · rintro ⟨hi, hrest⟩ pre i' post heq
        cases pre with
        | nil =>
            obtain ⟨rfl, -⟩ := List.cons.inj heq
            exact hi
        | cons p pre =>
            obtain ⟨rfl, htail⟩ := List.cons.inj heq
            exact hrest pre i' post htail
      · intro h
        refine ⟨h [] i is rfl, fun pre i' post heq => ?_⟩
        exact h (i :: pre) i' post (by rw [heq]; rfl)

/-- **Exact condition.** Where the condition decides what a step preserves,
the property holds in every state exactly when every step meets it. -/
theorem forall_states_iff (hinv : ∀ s i, inv s → inv (step s i))
    (hstep : ∀ s i, inv s → P s → (P (step s i) ↔ ok s i)) : ∀ {is : List ι} {s : σ},
    inv s → P s → ((∀ k, P ((is.take k).foldl step s)) ↔ RunOk step ok s is)
  | [], s, _, hP => ⟨fun _ => trivial, fun _ k => by simpa using hP⟩
  | i :: is, s, h, hP => by
      constructor
      · intro hall
        have hnext : P (step s i) := hall 1
        exact ⟨(hstep s i h hP).mp hnext,
          (forall_states_iff hinv hstep (hinv s i h) hnext).mp fun k => hall (k + 1)⟩
      · rintro ⟨hok, hrest⟩ k
        have hnext := (hstep s i h hP).mpr hok
        cases k with
        | zero => exact hP
        | succ k => exact (forall_states_iff hinv hstep (hinv s i h) hnext).mpr hrest k

/-- **Exact condition, for steps too.** Where the condition decides whether a
step keeps the property and is safe, the property holds in every state and
every step is safe exactly when every step meets the condition. -/
theorem forall_steps_iff {Q : σ → ι → Prop} (hinv : ∀ s i, inv s → inv (step s i))
    (hstep : ∀ s i, inv s → P s → ((P (step s i) ∧ Q s i) ↔ ok s i)) : ∀ {is : List ι} {s : σ},
    inv s → P s → (((∀ k, P ((is.take k).foldl step s)) ∧
        ∀ k i, is[k]? = some i → Q ((is.take k).foldl step s) i) ↔ RunOk step ok s is)
  | [], s, _, hP => by simpa [RunOk] using hP
  | i :: is, s, h, hP => by
      constructor
      · rintro ⟨hall, hsafe⟩
        have hnext : P (step s i) := hall 1
        refine ⟨(hstep s i h hP).mp ⟨hnext, hsafe 0 i rfl⟩, ?_⟩
        exact (forall_steps_iff hinv hstep (hinv s i h) hnext).mp
          ⟨fun k => hall (k + 1), fun k j hj => hsafe (k + 1) j hj⟩
      · rintro ⟨hok, hrest⟩
        obtain ⟨hnext, hsafe⟩ := (hstep s i h hP).mpr hok
        obtain ⟨hall, hsteps⟩ := (forall_steps_iff hinv hstep (hinv s i h) hnext).mpr hrest
        refine ⟨fun k => ?_, fun k j hj => ?_⟩
        · cases k with
          | zero => exact hP
          | succ k => exact hall k
        · cases k with
          | zero =>
              cases hj
              exact hsafe
          | succ k => exact hsteps k j hj

end Runs
