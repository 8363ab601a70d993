/-
Agenthicc.Library.Tasks — concurrent programs over atomic operations, and
a rely/guarantee rule for their runs.

A `Task` calls operations one after another and goes on with what each
returns. `System` says what an operation does to the shared state, which jobs
a process can be given and what its death does. A `World` runs one task for
each process; between any two operations of one process the others act.

`Discipline` is a rely/guarantee argument: an invariant, for each process
what the others may do to the state, and what a process promises of each
operation it calls. `Discipline.Wp` is the precondition under which a task
keeps its promises and ends in a state with the given property, whatever the
others do in between. `Discipline.run` is the rule: when every job keeps its
promises, every operation of every run does.
-/
import Agenthicc.Library.Runs
import Mathlib.Logic.Function.Basic

namespace Tasks

/-! ## 1. Tasks -/

inductive Task (Op : Type) (Reply : Op → Type) (α : Type) where
  | done (a : α)
  | call (o : Op) (next : Reply o → Task Op Reply α)

namespace Task

variable {Op : Type} {Reply : Op → Type} {α β σ : Type}

protected def bind (t : Task Op Reply α) (f : α → Task Op Reply β) : Task Op Reply β :=
  match t with
  | .done a => f a
  | .call o next => .call o fun r => (next r).bind f

instance : Monad (Task Op Reply) where
  pure := .done
  bind := Task.bind

/-- The call of one operation. -/
def ask (o : Op) : Task Op Reply (Reply o) := .call o .done

/-- A loop over a list. An exception of its body ends it. -/
def each {ε : Type} (body : β → Task Op Reply (Except ε Unit)) :
    List β → Task Op Reply (Except ε Unit)
  | [] => .done (.ok ())
  | x :: xs => (body x).bind fun
      | .ok () => each body xs
      | .error exc => .done (.error exc)

/-- A task whose value nobody looks at. -/
def forget (t : Task Op Reply α) : Task Op Reply Unit := t >>= fun _ => pure ()

@[simp] theorem pure_eq (a : α) : (pure a : Task Op Reply α) = .done a := rfl

@[simp] theorem bind_done (a : α) (f : α → Task Op Reply β) :
    (Task.done a : Task Op Reply α) >>= f = f a := rfl

@[simp] theorem bind_call (o : Op) (next : Reply o → Task Op Reply α)
    (f : α → Task Op Reply β) : Task.call o next >>= f = .call o fun r => next r >>= f := rfl

@[simp] theorem bind_ask (o : Op) (f : Reply o → Task Op Reply β) : ask o >>= f = .call o f := rfl

/-- A task that runs alone: the state it leaves and the value it ends with. -/
def exec (perform : σ → (o : Op) → σ × Reply o) : Task Op Reply α → σ → σ × α
  | .done a, s => (s, a)
  | .call o next, s => (next (perform s o).2).exec perform (perform s o).1

variable {perform : σ → (o : Op) → σ × Reply o}

@[simp] theorem exec_done (a : α) (s : σ) :
    (Task.done a : Task Op Reply α).exec perform s = (s, a) := rfl

@[simp] theorem exec_call (o : Op) (next : Reply o → Task Op Reply α) (s : σ) :
    (Task.call o next).exec perform s = (next (perform s o).2).exec perform (perform s o).1 := rfl

theorem exec_bind (t : Task Op Reply α) (f : α → Task Op Reply β) (s : σ) :
    (t >>= f).exec perform s = (f (t.exec perform s).2).exec perform (t.exec perform s).1 := by
  induction t generalizing s with
  | done a => rfl
  | call o next ih => exact ih _ _

theorem exec_each_cons {ε : Type} (body : β → Task Op Reply (Except ε Unit)) (x : β)
    (xs : List β) {s s' : σ} (h : (body x).exec perform s = (s', .ok ())) :
    (each body (x :: xs)).exec perform s = (each body xs).exec perform s' := by
  change ((body x).bind _).exec perform s = _
  refine (exec_bind (body x) _ s).trans ?_
  rw [h]

/-! ### Tasks that are stopped -/

/-- The state that a task which runs alone has left after at most `n` calls. -/
def upTo (perform : σ → (o : Op) → σ × Reply o) : Nat → Task Op Reply α → σ → σ
  | _, .done _, s => s
  | 0, .call _ _, s => s
  | n + 1, .call o next, s => (next (perform s o).2).upTo perform n (perform s o).1

/-- The number of calls of a task that runs alone. -/
def callsOf (perform : σ → (o : Op) → σ × Reply o) : Task Op Reply α → σ → Nat
  | .done _, _ => 0
  | .call o next, s => (next (perform s o).2).callsOf perform (perform s o).1 + 1

@[simp] theorem upTo_zero (t : Task Op Reply α) (s : σ) : t.upTo perform 0 s = s := by
  cases t <;> rfl

@[simp] theorem upTo_done (a : α) (n : Nat) (s : σ) :
    (Task.done a : Task Op Reply α).upTo perform n s = s := by
  cases n <;> rfl

@[simp] theorem upTo_call_succ (o : Op) (next : Reply o → Task Op Reply α) (n : Nat) (s : σ) :
    (Task.call o next).upTo perform (n + 1) s
      = (next (perform s o).2).upTo perform n (perform s o).1 := rfl

theorem upTo_of_callsOf_le {t : Task Op Reply α} {s : σ} {n : Nat} (h : t.callsOf perform s ≤ n) :
    t.upTo perform n s = (t.exec perform s).1 := by
  induction t generalizing s n with
  | done a => cases n <;> rfl
  | call o next ih =>
      cases n with
      | zero => exact absurd h (Nat.not_succ_le_zero _)
      | succ n => exact ih _ (Nat.le_of_succ_le_succ h)

theorem upTo_bind_of_le {t : Task Op Reply α} (f : α → Task Op Reply β) {s : σ} {n : Nat}
    (h : n ≤ t.callsOf perform s) : (t >>= f).upTo perform n s = t.upTo perform n s := by
  induction t generalizing s n with
  | done a =>
      obtain rfl : n = 0 := Nat.le_zero.mp h
      rw [upTo_zero, upTo_zero]
  | call o next ih =>
      cases n with
      | zero => rfl
      | succ n => exact ih _ (Nat.le_of_succ_le_succ h)

theorem upTo_bind_add (t : Task Op Reply α) (f : α → Task Op Reply β) (s : σ) (n : Nat) :
    (t >>= f).upTo perform (t.callsOf perform s + n) s
      = (f (t.exec perform s).2).upTo perform n (t.exec perform s).1 := by
  induction t generalizing s with
  | done a =>
      rw [callsOf, Nat.zero_add]
      rfl
  | call o next ih =>
      rw [callsOf, Nat.add_right_comm]
      exact ih _ _

theorem upTo_forget (t : Task Op Reply α) (s : σ) (n : Nat) :
    t.forget.upTo perform n s = t.upTo perform n s := by
  rcases Nat.le_total n (t.callsOf perform s) with h | h
  · exact upTo_bind_of_le _ h
  · obtain ⟨m, rfl⟩ := Nat.exists_eq_add_of_le h
    rw [upTo_of_callsOf_le h]
    refine (upTo_bind_add t _ s m).trans ?_
    cases m <;> rfl

/-! ### Operations that a task may call -/

/-- Whatever the replies are, every operation that the task calls satisfies
`P`. -/
def Calls (P : Op → Prop) : Task Op Reply α → Prop
  | .done _ => True
  | .call o next => P o ∧ ∀ r, (next r).Calls P

variable {P : Op → Prop}

theorem Calls.ask {o : Op} (h : P o) : (Task.ask o : Task Op Reply _).Calls P :=
  ⟨h, fun _ => trivial⟩

theorem Calls.bind {t : Task Op Reply α} {f : α → Task Op Reply β} (h : t.Calls P)
    (hf : ∀ a, (f a).Calls P) : (t >>= f).Calls P := by
  induction t with
  | done a => exact hf a
  | call o next ih => exact ⟨h.1, fun r => ih r (h.2 r)⟩

theorem Calls.imp {P' : Op → Prop} (hP : ∀ o, P o → P' o) {t : Task Op Reply α}
    (h : t.Calls P) : t.Calls P' := by
  induction t with
  | done a => trivial
  | call o next ih => exact ⟨hP o h.1, fun r => ih r (h.2 r)⟩

theorem Calls.forget {t : Task Op Reply α} (h : t.Calls P) : t.forget.Calls P :=
  h.bind fun _ => trivial

/-- What every operation that a task may call keeps, the task keeps, wherever
it is stopped. -/
theorem Calls.keeps {J : σ → Prop} (hkeep : ∀ s o, P o → J s → J (perform s o).1)
    {t : Task Op Reply α} (h : t.Calls P) {s : σ} (hs : J s) (n : Nat) : J (t.upTo perform n s) := by
  induction t generalizing s n with
  | done a => cases n <;> exact hs
  | call o next ih =>
      cases n with
      | zero => exact hs
      | succ n => exact ih _ (h.2 _) (hkeep s o h.1 hs) n

theorem Calls.exec {J : σ → Prop} (hkeep : ∀ s o, P o → J s → J (perform s o).1)
    {t : Task Op Reply α} (h : t.Calls P) {s : σ} (hs : J s) : J (t.exec perform s).1 := by
  rw [← upTo_of_callsOf_le (Nat.le_refl _)]
  exact h.keeps hkeep hs _

theorem Calls.each {ε : Type} {body : β → Task Op Reply (Except ε Unit)} {xs : List β}
    (h : ∀ x ∈ xs, (body x).Calls P) : (Task.each body xs).Calls P := by
  induction xs with
  | nil => trivial
  | cons x xs ih =>
      refine Calls.bind (h x List.mem_cons_self) fun r => ?_
      cases r with
      | error exc => trivial
      | ok u => exact ih fun y hy => h y (List.mem_cons_of_mem _ hy)

end Task

/-! ## 2. Systems of processes -/

/-- Operations on a shared state, the jobs of a process, and what its death
does to the state. -/
structure System (Op : Type) (Reply : Op → Type) (σ ι : Type) where
  perform : Nat → σ → (o : Op) → σ × Reply o
  job : ι → Task Op Reply Unit
  died : Nat → σ → σ

inductive Slot (Op : Type) (Reply : Op → Type) where
  | idle
  | busy (task : Task Op Reply Unit)
  | dead

structure World (Op : Type) (Reply : Op → Type) (σ : Type) where
  state : σ
  slots : Nat → Slot Op Reply := fun _ => .idle

inductive Action (ι : Type) where
  | start (p : Nat) (job : ι)
  /-- The next operation of the task that `p` runs. -/
  | step (p : Nat)
  | crash (p : Nat)

variable {Op : Type} {Reply : Op → Type} {α β σ ι : Type}

namespace System

def step (S : System Op Reply σ ι) (w : World Op Reply σ) : Action ι → World Op Reply σ
  | .start p job =>
      match w.slots p with
      | .idle => { w with slots := Function.update w.slots p (.busy (S.job job)) }
      | .busy _ | .dead => w
  | .step p =>
      match w.slots p with
      | .busy (.call o next) =>
          { state := (S.perform p w.state o).1
            slots := Function.update w.slots p (.busy (next (S.perform p w.state o).2)) }
      | .busy (.done _) => { w with slots := Function.update w.slots p .idle }
      | .idle | .dead => w
  | .crash p =>
      match w.slots p with
      | .dead => w
      | .idle | .busy _ =>
          { state := S.died p w.state, slots := Function.update w.slots p .dead }

def run (S : System Op Reply σ ι) (w : World Op Reply σ) (actions : List (Action ι)) :
    World Op Reply σ := actions.foldl S.step w

/-- What an action does: `p` calls an operation, a process dies, or the state
stays as it is. -/
inductive Effect (S : System Op Reply σ ι) (w : World Op Reply σ) : Action ι → Prop where
  | call {p : Nat} {o : Op} (next : Reply o → Task Op Reply Unit)
      (h : w.slots p = .busy (.call o next))
      (heq : (S.step w (.step p)).state = (S.perform p w.state o).1) : Effect S w (.step p)
  | died {p : Nat} (heq : (S.step w (.crash p)).state = S.died p w.state) : Effect S w (.crash p)
  | quiet {action : Action ι} (heq : (S.step w action).state = w.state) : Effect S w action

theorem effect (S : System Op Reply σ ι) (w : World Op Reply σ) (action : Action ι) :
    Effect S w action := by
  cases action with
  | start p job =>
      refine .quiet ?_
      rw [step]
      split <;> rfl
  | step p =>
      cases h : w.slots p with
      | idle => exact .quiet (by rw [step, h])
      | dead => exact .quiet (by rw [step, h])
      | busy task =>
          cases task with
          | done u => exact .quiet (by rw [step, h])
          | call o next => exact .call next h (by rw [step, h])
  | crash p =>
      cases h : w.slots p with
      | dead => exact .quiet (by rw [step, h])
      | idle => exact .died (by rw [step, h])
      | busy task => exact .died (by rw [step, h])

end System

/-! ## 3. Rely and guarantee -/

/-- An invariant, what holds for a process between its jobs, what the other
processes may do while `p` runs, and what a process promises of an operation
that it calls where `Ok` holds. -/
structure Discipline (S : System Op Reply σ ι) where
  Inv : σ → Prop
  Idle : Nat → σ → Prop
  Ok : Nat → σ → Op → Prop
  Rely : Nat → σ → σ → Prop
  Guar : Nat → σ → Op → Prop
  rely_refl : ∀ p s, Rely p s s
  rely_trans : ∀ {p s t u}, Rely p s t → Rely p t u → Rely p s u
  idle_rely : ∀ {p s t}, Rely p s t → Idle p s → Idle p t
  guar_inv : ∀ {p s o}, Inv s → Ok p s o → Guar p s o → Inv (S.perform p s o).1
  guar_rely : ∀ {p q s o}, q ≠ p → Inv s → Ok q s o → Guar q s o →
    Rely p s (S.perform q s o).1
  died_inv : ∀ {p s}, Inv s → Inv (S.died p s)
  died_rely : ∀ {p q s}, q ≠ p → Inv s → Rely p s (S.died q s)

namespace Discipline

variable {S : System Op Reply σ ι} (D : Discipline S)

/-- From `s` on, `p` keeps its promises, and the task ends with `Q`. -/
def Wp (p : Nat) : Task Op Reply α → (α → σ → Prop) → σ → Prop
  | .done a, Q, s => Q a s
  | .call o next, Q, s => ∀ s', D.Rely p s s' → D.Inv s' → D.Ok p s' o →
      D.Guar p s' o ∧ Wp p (next (S.perform p s' o).2) Q (S.perform p s' o).1

/-- The other processes do not make it false. -/
def Stable (p : Nat) (J : σ → Prop) : Prop := ∀ {s t}, D.Rely p s t → J s → J t

variable {D} {p : Nat} {Q R : α → σ → Prop} {J K : σ → Prop} {s s' : σ}

theorem Stable.and (hJ : D.Stable p J) (hK : D.Stable p K) : D.Stable p fun s => J s ∧ K s :=
  fun hr h => ⟨hJ hr h.1, hK hr h.2⟩

theorem Wp.imp (h : ∀ a s, Q a s → R a s) : ∀ {t : Task Op Reply α} {s : σ},
    D.Wp p t Q s → D.Wp p t R s
  | .done a, s, hw => h a s hw
  | .call _ _, _, hw => fun s' hr hi hok => ⟨(hw s' hr hi hok).1, (hw s' hr hi hok).2.imp h⟩

theorem Wp.bind {f : α → Task Op Reply β} {Q : β → σ → Prop} : ∀ {t : Task Op Reply α} {s : σ},
    D.Wp p t (fun a s => D.Wp p (f a) Q s) s → D.Wp p (t >>= f) Q s
  | .done _, _, hw => hw
  | .call _ _, _, hw => fun s' hr hi hok => ⟨(hw s' hr hi hok).1, (hw s' hr hi hok).2.bind⟩

theorem Wp.call {o : Op} {next : Reply o → Task Op Reply α} (hJ : D.Stable p J) (h : J s)
    (hcall : ∀ s', J s' → D.Inv s' → D.Ok p s' o →
      D.Guar p s' o ∧ D.Wp p (next (S.perform p s' o).2) Q (S.perform p s' o).1) :
    D.Wp p (.call o next) Q s :=
  fun s' hr hi hok => hcall s' (hJ hr h) hi hok

theorem Wp.forget {t : Task Op Reply α} (h : D.Wp p t (fun _ => J) s) :
    D.Wp p t.forget (fun _ => J) s := Wp.bind h

/-- What the others and the operations of the task keep holds at its end. -/
theorem Wp.keep (hJ : D.Stable p J)
    (hown : ∀ {s o}, D.Inv s → D.Ok p s o → D.Guar p s o → J s → J (S.perform p s o).1) :
    ∀ {t : Task Op Reply α} {s : σ}, D.Wp p t Q s → J s → D.Wp p t (fun a s => Q a s ∧ J s) s
  | .done _, _, hw, h => ⟨hw, h⟩
  | .call o _, _, hw, h => fun s' hr hi hok =>
      have hnext := hw s' hr hi hok
      ⟨hnext.1, Wp.keep hJ hown hnext.2 (hown hi hok hnext.1 (hJ hr h))⟩

/-- A task whose operations are promised in any state, and what they keep. -/
theorem Wp.of_calls {P : Op → Prop} (hJ : D.Stable p J)
    (hkeep : ∀ s o, P o → J s → J (S.perform p s o).1) (hguar : ∀ s o, P o → D.Guar p s o) :
    ∀ {t : Task Op Reply α} {s : σ}, t.Calls P → J s → D.Wp p t (fun _ => J) s
  | .done _, _, _, h => h
  | .call o _, _, hcalls, h => fun s' hr _ _ => ⟨hguar s' o hcalls.1,
      Wp.of_calls hJ hkeep hguar (hcalls.2 _) (hkeep s' o hcalls.1 (hJ hr h))⟩

/-- What the others do before the first operation of a task does no harm. -/
theorem Wp.rely {t : Task Op Reply α} (hQ : ∀ a, D.Stable p (Q a)) (hw : D.Wp p t Q s)
    (hr : D.Rely p s s') : D.Wp p t Q s' := by
  cases t with
  | done a => exact hQ a hr hw
  | call o next => exact fun s'' hr' => hw s'' (D.rely_trans hr hr')

/-- The rule for loops: what the others and each round of the loop keep. -/
theorem Wp.each {ε : Type} {body : β → Task Op Reply (Except ε Unit)} :
    ∀ {xs : List β} {s : σ}, (∀ x ∈ xs, ∀ s, J s → D.Wp p (body x) (fun _ => J) s) → J s →
      D.Wp p (Task.each body xs) (fun _ => J) s
  | [], _, _, hJ => hJ
  | x :: _, _, hbody, hJ => Wp.bind ((hbody x (List.mem_cons_self ..) _ hJ).imp fun r _ hJ' =>
      match r with
      | .ok () => Wp.each (fun y hy => hbody y (List.mem_cons_of_mem _ hy)) hJ'
      | .error _ => hJ')

/-! ## 4. Runs -/

/-- What holds of a process at the point where it is. -/
def SlotSafe (D : Discipline S) (p : Nat) (s : σ) : Slot Op Reply → Prop
  | .idle => D.Idle p s
  | .busy task => D.Wp p task (fun _ => D.Idle p) s
  | .dead => True

/-- Every process is at a point from which it keeps its promises. -/
def Safe (D : Discipline S) (w : World Op Reply σ) : Prop :=
  D.Inv w.state ∧ ∀ p, D.SlotSafe p w.state (w.slots p)

/-- The operation that an action performs is called where it may be. -/
def StepOk (D : Discipline S) (w : World Op Reply σ) : Action ι → Prop
  | .step p => ∀ o next, w.slots p = .busy (.call o next) → D.Ok p w.state o
  | .start _ _ | .crash _ => True

instance [∀ p s o, Decidable (D.Ok p s o)] (w : World Op Reply σ) (action : Action ι) :
    Decidable (D.StepOk w action) :=
  match action with
  | .step p =>
      match h : w.slots p with
      | .busy (.call o _) =>
          decidable_of_iff (D.Ok p w.state o)
            ⟨fun hok o' next' heq => by
                rw [h] at heq
                cases heq
                exact hok, fun hok => hok o _ h⟩
      | .busy (.done _) => isTrue (by simp [StepOk, h])
      | .idle | .dead => isTrue (by simp [StepOk, h])
  | .start _ _ | .crash _ => isTrue trivial

theorem SlotSafe.rely {slot : Slot Op Reply} (h : D.SlotSafe p s slot) (hr : D.Rely p s s') :
    D.SlotSafe p s' slot :=
  match slot with
  | .idle => D.idle_rely hr h
  | .busy _ => Wp.rely (fun _ => D.idle_rely) h hr
  | .dead => trivial

theorem safe_update {w : World Op Reply σ} {t : σ} {slot : Slot Op Reply} (h : D.Safe w)
    (hinv : D.Inv t) (hothers : ∀ q, p ≠ q → D.Rely q w.state t) (hslot : D.SlotSafe p t slot) :
    Safe D { state := t, slots := Function.update w.slots p slot } := by
  refine ⟨hinv, fun q => ?_⟩
  dsimp only
  by_cases hpq : q = p
  · rw [hpq, Function.update_self]
    exact hslot
  · rw [Function.update_of_ne hpq]
    exact (h.2 q).rely (hothers q (Ne.symm hpq))

theorem safe_step
    (hjob : ∀ j p s, D.Inv s → D.Idle p s → D.Wp p (S.job j) (fun _ => D.Idle p) s)
    {w : World Op Reply σ} {action : Action ι} (h : D.Safe w) (hok : D.StepOk w action) :
    D.Safe (S.step w action) := by
  have hslot := h.2
  cases action with
  | start p job =>
      specialize hslot p
      rw [System.step]
      split
      · rename_i hp
        rw [hp] at hslot
        exact safe_update h h.1 (fun q _ => D.rely_refl q _) (hjob job p w.state h.1 hslot)
      · exact h
      · exact h
  | step p =>
      specialize hslot p
      rw [System.step]
      split
      · rename_i o next hp
        rw [hp] at hslot
        have hcall : D.Ok p w.state o := hok o next hp
        obtain ⟨hguar, hnext⟩ := hslot w.state (D.rely_refl p _) h.1 hcall
        exact safe_update h (D.guar_inv h.1 hcall hguar)
          (fun q hne => D.guar_rely hne h.1 hcall hguar) hnext
      · rename_i u hp
        rw [hp] at hslot
        exact safe_update h h.1 (fun q _ => D.rely_refl q _) hslot
      · exact h
      · exact h
  | crash p =>
      rw [System.step]
      split
      · exact h
      · exact safe_update h (D.died_inv h.1) (fun q hne => D.died_rely hne h.1) trivial
      · exact safe_update h (D.died_inv h.1) (fun q hne => D.died_rely hne h.1) trivial

theorem safe_start {s : σ} (h : D.Inv s) (hidle : ∀ p, D.Idle p s) : D.Safe { state := s } :=
  ⟨h, hidle⟩

/-- **The rule for runs.** When every job keeps its promises, every state of
a run whose operations are called where they may be meets the invariant, and
every process is at a point from which it keeps its promises. -/
theorem run (hjob : ∀ j p s, D.Inv s → D.Idle p s → D.Wp p (S.job j) (fun _ => D.Idle p) s)
    {w : World Op Reply σ} {actions : List (Action ι)} (h : D.Safe w)
    (hok : Runs.RunOk S.step D.StepOk w actions) (k : Nat) : D.Safe (S.run w (actions.take k)) :=
  hok.invariant (fun _ _ hs hokay => safe_step hjob hs hokay) h k

/-- An operation that a safe process performs keeps the promise. -/
theorem Safe.guar {w : World Op Reply σ} (h : D.Safe w) {o : Op}
    {next : Reply o → Task Op Reply Unit} (hp : w.slots p = .busy (.call o next))
    (hok : D.Ok p w.state o) : D.Guar p w.state o := by
  have hslot := h.2 p
  rw [hp] at hslot
  exact (hslot w.state (D.rely_refl p _) h.1 hok).1

end Discipline

end Tasks
