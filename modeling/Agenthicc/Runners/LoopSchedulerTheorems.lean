/-
Agenthicc.Runners.LoopSchedulerTheorems — the loop of a session under its
operator's commands.

The task `_run` dispatches and ticks one after the other, so a dispatch is
never joined by a second one, and what a command does during a dispatch is
found by its end: a stopped, paused, deleted or replaced loop stays so. A loop
that was made due during its dispatch is not: the end sets a later time. And a
loop that waits for an idle session is overdue, so its wait is no wait.
-/
import Agenthicc.Runners.LoopScheduler
import Agenthicc.Library.Runs
import Mathlib.Tactic.Linarith
import Mathlib.Tactic.Positivity

namespace Agenthicc.Runners

open Runs

namespace LoopManager

variable (settings : LoopSettings)

/-! ## 1. What the operator is owed -/

/-- The loop that is dispatched is the loop of the session. -/
def sameLoop (m : LoopManager) : Bool :=
  match m.task, m.record with
  | .dispatching claimed, some record => record.loop_id = claimed.loop_id
  | _, _ => false

/-- The next turn of the task is a tick. -/
def ticks (m : LoopManager) : Bool :=
  match m.task with
  | .waitingUntil _ => m.ready
  | _ => false

structure LoopSafe (m : LoopManager) (e : LoopEvent) : Prop where
  /-- A dispatch begins for a loop that is waiting for it. -/
  starts : m.in_flight < (step settings m e).in_flight → ∃ record, m.record = some record
    ∧ (record.state = .scheduled ∨ record.state = .waiting_for_idle) ∧ m.clock < record.expires_at
  /-- The end of a dispatch does not undo a command. -/
  kept : ∀ error claimed, e = .finish error → m.task = .dispatching claimed →
    (m.record = none → (step settings m e).record = none ∧ (step settings m e).store = m.store)
      ∧ ∀ record, m.record = some record →
        (record.loop_id ≠ claimed.loop_id ∨ record.state = .stopped →
            (step settings m e).record = some record)
          ∧ (record.state = .paused →
            ∃ record', (step settings m e).record = some record' ∧ record'.state = .paused)
  /-- A loop that was made due during the dispatch is due at its end. -/
  due : ∀ error, e = .finish error → m.asked = true → ∃ record, (step settings m e).record = some record
    ∧ record.state = .scheduled ∧ record.next_due_at ≤ (step settings m e).clock
  /-- Every change of a loop raises its revision. -/
  revision : ∀ record record', m.record = some record → (step settings m e).record = some record' →
    record'.loop_id = record.loop_id → record' = record ∨ record.revision < record'.revision
  /-- Ticks that find the session busy are apart. -/
  apart : ∀ busy, e = .run → m.last_busy = some busy → m.ticks = true → m.findsBusy = true →
    busy + max (1 / 20) settings.busy_poll_s ≤ m.clock

/-- The condition on an event: a dispatch does not end with its loop made due
meanwhile, and a tick that finds the session busy is not followed by another
one. -/
def ok (m : LoopManager) : LoopEvent → Bool
  | .finish _ => !(m.asked && m.sameLoop)
  | .run => !(m.ticks && m.findsBusy && m.last_busy.isSome)
  | _ => true

/-! ## 2. What every event keeps -/

structure Inv (m : LoopManager) : Prop where
  flight : m.in_flight = if m.dispatchingNow then 1 else 0
  asked : m.asked = true → m.dispatchingNow = true ∧ ∃ record, m.record = some record
    ∧ record.state = .scheduled ∧ record.next_due_at ≤ m.clock
  busy : ∀ busy, m.last_busy = some busy → busy = m.clock ∧ ∃ due, m.task = .waitingUntil due ∧ due ≤ m.clock
  ids : (∀ record, m.record = some record → record.loop_id < m.next_id)
    ∧ ∀ record, m.store = some record → record.loop_id < m.next_id

/-- What a command leaves alone. -/
structure Frame (m m' : LoopManager) : Prop where
  task : m'.task = m.task
  clock : m'.clock = m.clock
  in_flight : m'.in_flight = m.in_flight
  last_busy : m'.last_busy = m.last_busy

/-- What a command may do to the record: a new loop, a record with a higher
revision, the stored record where there was none, or none. -/
structure Command (m m' : LoopManager) : Prop where
  frame : Frame m m'
  asked : m'.asked = true → m.dispatchingNow = true ∧ ∃ record, m'.record = some record
    ∧ record.state = .scheduled ∧ record.next_due_at ≤ m.clock
  ids : (∀ record, m'.record = some record → record.loop_id < m'.next_id)
    ∧ ∀ record, m'.store = some record → record.loop_id < m'.next_id
  revision : ∀ record record', m.record = some record → m'.record = some record' →
    record'.loop_id = record.loop_id → record' = record ∨ record.revision < record'.revision

variable {settings} {m : LoopManager}

theorem inv_of_command {m' : LoopManager} (h : Inv m) (hcommand : Command m m') : Inv m' := by
  obtain ⟨⟨htask, hclock, hflight, hbusy⟩, hasked, hids, -⟩ := hcommand
  have hdispatching : m'.dispatchingNow = m.dispatchingNow := by
    unfold dispatchingNow
    rw [htask]
  refine ⟨?_, ?_, ?_, hids⟩
  · rw [hflight, hdispatching, h.flight]
  · rw [hdispatching, hclock]
    exact hasked
  · rw [hbusy, htask, hclock]
    exact h.busy

theorem command_refl (h : Inv m) : Command m m :=
  ⟨⟨rfl, rfl, rfl, rfl⟩, h.asked, h.ids, fun _ _ hr hr' _ => .inl (Option.some.inj (hr'.symm.trans hr))⟩

/-- A record put in the place of itself with a higher revision, or where there
was none. -/
theorem command_put {record : LoopRecord} {asked wake : Bool} (h : Inv m)
    (hrecord : ∀ old, m.record = some old → old.loop_id = record.loop_id → old.revision < record.revision)
    (hid : record.loop_id < m.next_id)
    (hasked : asked = true → m.dispatchingNow = true ∧ record.state = .scheduled ∧ record.next_due_at ≤ m.clock) :
    Command m { put settings m record with wake := wake, asked := asked } := by
  refine ⟨⟨rfl, rfl, rfl, rfl⟩, ?_, ⟨?_, ?_⟩, ?_⟩
  · intro ha
    obtain ⟨hnow, hstate, hdue⟩ := hasked ha
    exact ⟨hnow, record, rfl, hstate, hdue⟩
  · intro r hr
    cases hr
    exact hid
  · intro r hr
    simp only [put] at hr
    split at hr
    · cases hr
      exact hid
    · exact h.ids.2 r hr
  · intro old new hold hnew heq
    cases hnew
    exact .inr (hrecord old hold heq.symm)

variable (settings) in
/-- Loading the stored record puts one where there was none. -/
theorem loadRecordIfNeeded_cases (m : LoopManager) :
    loadRecordIfNeeded settings m = m
      ∨ m.record = none ∧ loadRecordIfNeeded settings m = { m with record := m.store } := by
  unfold loadRecordIfNeeded
  by_cases hload : (m.record.isSome || !settings.persist) = true
  · rw [if_pos hload]
    exact .inl rfl
  · rw [if_neg hload]
    refine .inr ⟨?_, rfl⟩
    simp only [Bool.or_eq_true, not_or] at hload
    simpa using hload.1

variable (settings) in
theorem command_load (h : Inv m) : Command m (loadRecordIfNeeded settings m) := by
  obtain heq | ⟨hnone, heq⟩ := loadRecordIfNeeded_cases settings m
  · rw [heq]
    exact command_refl h
  · rw [heq]
    refine ⟨⟨rfl, rfl, rfl, rfl⟩, ?_, ⟨h.ids.2, h.ids.2⟩, ?_⟩
    · intro ha
      obtain ⟨-, record, hrecord, -⟩ := h.asked ha
      rw [hnone] at hrecord
      cases hrecord
    · intro record record' hrecord
      rw [hnone] at hrecord
      cases hrecord

variable (settings) in
theorem Command.trans_load {m' : LoopManager}
    (hnext : Command (loadRecordIfNeeded settings m) m') : Command m m' := by
  obtain heq | ⟨hnone, heq⟩ := loadRecordIfNeeded_cases settings m
  · rwa [heq] at hnext
  · rw [heq] at hnext
    obtain ⟨⟨htask, hclock, hflight, hbusy⟩, hasked, hids, -⟩ := hnext
    refine ⟨⟨htask, hclock, hflight, hbusy⟩, hasked, hids, ?_⟩
    intro record record' hrecord
    rw [hnone] at hrecord
    cases hrecord

/-! ## 3. Commands -/

theorem command_makeDue {record : LoopRecord} (h : Inv m)
    (hrecord : ∀ old, m.record = some old → old.loop_id = record.loop_id → old.revision ≤ record.revision)
    (hid : record.loop_id < m.next_id) : Command m (makeDue settings m record) := by
  refine command_put h (fun old hold heq => Nat.lt_succ_of_le (hrecord old hold heq)) hid ?_
  exact fun hnow => ⟨hnow, rfl, le_rfl⟩

theorem command_new {record : LoopRecord} (h : Inv m) (hid : record.loop_id = m.next_id) :
    Command m { put settings m record with next_id := m.next_id + 1, wake := true, asked := false } := by
  have hlt : record.loop_id < m.next_id + 1 := hid ▸ Nat.lt_succ_self _
  refine ⟨⟨rfl, rfl, rfl, rfl⟩, nofun, ⟨?_, ?_⟩, ?_⟩
  · intro r hr
    cases hr
    exact hlt
  · intro r hr
    simp only [put] at hr
    split at hr
    · cases hr
      exact hlt
    · exact Nat.lt_succ_of_lt (h.ids.2 r hr)
  · intro old new hold hnew heq
    cases hnew
    rw [hid] at heq
    exact absurd heq (Nat.ne_of_gt (h.ids.1 old hold))

theorem command_schedule (h : Inv m) (interval_s : Nat) (accepted : Bool) :
    Command m (schedule settings m interval_s accepted) := by
  unfold schedule
  split
  · split
    · exact command_new h rfl
    · exact command_refl h
  · exact command_refl h

theorem command_stop (h : Inv m) : Command m (stop settings m) := by
  refine Command.trans_load settings ?_
  have hload := inv_of_command h (command_load settings h)
  unfold stop
  simp only
  split
  · exact command_refl hload
  · rename_i record hrecord
    split
    · exact command_refl hload
    · refine command_put hload (fun old hold _ => ?_) (hload.ids.1 record hrecord) nofun
      rw [hrecord] at hold
      cases hold
      exact Nat.lt_succ_self _

theorem command_pause (h : Inv m) : Command m (pause settings m) := by
  refine Command.trans_load settings ?_
  have hload := inv_of_command h (command_load settings h)
  unfold pause
  simp only
  split
  · exact command_refl hload
  · rename_i record hrecord
    split
    · exact command_refl hload
    · refine command_put hload (fun old hold _ => ?_) (hload.ids.1 record hrecord) nofun
      rw [hrecord] at hold
      cases hold
      exact Nat.lt_succ_self _

theorem command_resume (h : Inv m) : Command m (resume settings m) := by
  unfold resume
  split
  · refine Command.trans_load settings ?_
    have hload := inv_of_command h (command_load settings h)
    simp only
    split
    · exact command_refl hload
    · rename_i record hrecord
      split
      · refine command_makeDue hload (fun old hold _ => ?_) (hload.ids.1 record hrecord)
        rw [hrecord] at hold
        cases hold
        exact le_rfl
      · exact command_refl hload
  · exact command_refl h

theorem command_run_job_now (h : Inv m) (loop_id : Nat) : Command m (run_job_now settings m loop_id) := by
  unfold run_job_now
  split
  · split
    · exact command_refl h
    · rename_i record hselected
      -- the stored record is only taken where the session has another loop, or none
      have hspec : m.record = some record
          ∨ m.store = some record ∧ ∀ old, m.record = some old → old.loop_id ≠ record.loop_id := by
        unfold selected at hselected
        split at hselected
        · rename_i current hcurrent
          split at hselected
          · rw [← hselected]
            exact .inl hcurrent
          · rename_i hother
            obtain ⟨hstore, hid⟩ := Option.filter_eq_some_iff.mp hselected
            refine .inr ⟨hstore, fun old hold heq => hother ?_⟩
            rw [hcurrent] at hold
            cases hold
            rw [heq]
            exact of_decide_eq_true hid
        · rename_i hnone
          obtain ⟨hstore, -⟩ := Option.filter_eq_some_iff.mp hselected
          refine .inr ⟨hstore, fun old hold => ?_⟩
          rw [hnone] at hold
          cases hold
      obtain hrecord | ⟨hstore, hother⟩ := hspec
      · refine command_makeDue h (fun old hold _ => ?_) (h.ids.1 record hrecord)
        rw [hrecord] at hold
        cases hold
        exact le_rfl
      · exact command_makeDue h (fun old hold heq => absurd heq (hother old hold)) (h.ids.2 record hstore)
  · exact command_refl h

theorem command_delete_job (h : Inv m) (loop_id : Nat) : Command m (delete_job m loop_id) := by
  unfold delete_job
  split
  · exact command_refl h
  · split
    · split
      · refine ⟨⟨rfl, rfl, rfl, rfl⟩, ?_, ⟨?_, ?_⟩, ?_⟩
        · intro hasked
          cases hasked
        · intro record hrecord
          cases hrecord
        · intro record hrecord
          cases hrecord
        · intro record record' _ hrecord
          cases hrecord
      · refine ⟨⟨rfl, rfl, rfl, rfl⟩, h.asked, ⟨h.ids.1, ?_⟩, ?_⟩
        · intro record hrecord
          cases hrecord
        exact fun _ _ hr hr' _ => .inl (Option.some.inj (hr'.symm.trans hr))
    · exact command_refl h

/-! ## 4. Ticks -/

/-- Every record keeps its number below the next one. -/
def Numbered (m : LoopManager) : Prop :=
  (∀ record, m.record = some record → record.loop_id < m.next_id)
    ∧ ∀ record, m.store = some record → record.loop_id < m.next_id

theorem numbered_put {record : LoopRecord} (h : Numbered m) (hid : record.loop_id < m.next_id) :
    Numbered (put settings m record) := by
  refine ⟨fun r hr => ?_, fun r hr => ?_⟩
  · cases hr
    exact hid
  · simp only [put] at hr
    split at hr
    · cases hr
      exact hid
    · exact h.2 r hr

/-- What a tick does: nothing, a change of the record, or a dispatch. -/
inductive Ticked (settings : LoopSettings) (m : LoopManager) : LoopManager → Prop where
  | same : Ticked settings m m
  | changed (record record' : LoopRecord) : m.record = some record → record'.loop_id = record.loop_id →
      record.revision < record'.revision → Ticked settings m (put settings m record')
  | dispatched (record claimed : LoopRecord) : m.record = some record → quiet record.state = false →
      m.clock < record.expires_at → m.findsBusy = false → claimed.loop_id = record.loop_id →
      record.revision < claimed.revision → Ticked settings m { put settings m claimed with
        task := .dispatching claimed, in_flight := m.in_flight + 1, asked := false }

variable (settings) in
theorem ticked_tick_once (m : LoopManager) : Ticked settings m (tick_once settings m) := by
  unfold tick_once
  split
  · exact .same
  · rename_i record hrecord
    split
    · exact .same
    · rename_i hquiet
      split
      · exact .changed record _ hrecord rfl (Nat.lt_succ_self _)
      · rename_i hexpires
        split
        · exact .same
        · split
          · split
            · exact .changed record _ hrecord rfl (Nat.lt_succ_self _)
            · exact .same
          · rename_i hidle
            refine .dispatched record _ hrecord (Bool.not_eq_true _ ▸ hquiet) (not_le.mp hexpires) ?_ rfl
              (Nat.lt_succ_self _)
            rw [findsBusy, hrecord]
            simp only [Bool.not_eq_true', Bool.not_eq_false] at hidle
            simp [hidle]

variable (settings) in
/-- A tick that finds the session busy leaves the loop waiting, and overdue. -/
theorem tick_once_busy (h : m.findsBusy = true) :
    ∃ record, (tick_once settings m).record = some record ∧ record.state = .waiting_for_idle
      ∧ record.next_due_at ≤ m.clock := by
  unfold findsBusy at h
  split at h
  · cases h
  · rename_i record hrecord
    simp only [Bool.and_eq_true, Bool.not_eq_true', decide_eq_true_eq] at h
    obtain ⟨⟨⟨hquiet, hexpires⟩, hdue⟩, hidle⟩ := h
    unfold tick_once
    rw [hrecord]
    simp only [hquiet, Bool.false_eq_true, if_false, not_le.mpr hexpires, not_lt.mpr hdue, hidle,
      Bool.not_false, if_true]
    split
    · exact ⟨_, rfl, rfl, hdue⟩
    · rename_i hsame
      rw [not_or, not_not] at hsame
      exact ⟨record, hrecord, hsame.1, hdue⟩

/-- A loop that waits for an idle session and is due does not wait. -/
theorem waitTime_overdue {record : LoopRecord} (hstate : record.state = .waiting_for_idle)
    (hdue : record.next_due_at ≤ m.clock) : waitTime settings m record = 0 := by
  unfold waitTime
  rw [if_pos hstate, max_eq_left (by linarith)]
  exact min_eq_left (le_max_of_le_left (by norm_num))

theorem inv_settle (hflight : m.in_flight = 0) (hasked : m.asked = false) (hids : Numbered m)
    (hbusy : ∀ busy, m.last_busy = some busy → busy = m.clock ∧ ∃ record, m.record = some record
      ∧ record.state = .waiting_for_idle ∧ record.next_due_at ≤ m.clock) : Inv (settle settings m) := by
  have hdispatching : (settle settings m).dispatchingNow = false := by
    unfold dispatchingNow settle
    simp only
    cases m.record with
    | none => rfl
    | some record => by_cases hdormant : dormant record.state = true <;> simp [hdormant]
  refine ⟨?_, ?_, ?_, hids⟩
  · rw [hdispatching]
    exact hflight
  · intro ha
    exact absurd (hasked.symm.trans ha) Bool.false_ne_true
  · intro busy hb
    obtain ⟨heq, record, hrecord, hstate, hdue⟩ := hbusy busy hb
    refine ⟨heq, m.clock, ?_, le_rfl⟩
    unfold settle
    simp only [hrecord, hstate, dormant, Bool.false_eq_true, if_false, waitTime_overdue hstate hdue, add_zero]

/-- While the task waits, nothing is in flight and nothing was asked. -/
theorem Inv.not_dispatching (h : Inv m) (hnot : m.dispatchingNow = false) :
    m.in_flight = 0 ∧ m.asked = false := by
  refine ⟨by rw [h.flight, hnot]; rfl, ?_⟩
  by_contra hasked
  have := (h.asked (Bool.not_eq_false _ ▸ hasked)).1
  rw [hnot] at this
  cases this

theorem Inv.last_busy_none (h : Inv m) (hnot : ∀ due, m.task ≠ .waitingUntil due) : m.last_busy = none := by
  by_contra hsome
  obtain ⟨busy, hbusy⟩ := Option.ne_none_iff_exists'.mp hsome
  obtain ⟨-, due, htask, -⟩ := h.busy busy hbusy
  exact hnot due htask

theorem inv_run (h : Inv m) : Inv (run settings m) := by
  unfold run
  split
  · split
    · rename_i due htask
      have hnot : m.dispatchingNow = false := by
        unfold dispatchingNow
        rw [htask]
      obtain ⟨hflight, hasked⟩ := h.not_dispatching hnot
      simp only
      have htick := ticked_tick_once settings m
      have hbusy := tick_once_busy settings (m := m)
      generalize tick_once settings m = ticked at htick hbusy
      cases htick with
      | same =>
        have hwait : ({ m with last_busy := if m.findsBusy = true then some m.clock else none } :
            LoopManager).dispatchingNow = false := hnot
        rw [if_neg (by rw [hwait]; exact Bool.false_ne_true)]
        refine inv_settle hflight hasked h.ids fun busy hb => ?_
        simp only at hb
        split at hb
        · rename_i hfinds
          cases hb
          exact ⟨rfl, hbusy hfinds⟩
        · cases hb
      | changed record record' hrecord hid hrevision =>
        have hwait : ({ put settings m record' with
            last_busy := if m.findsBusy = true then some m.clock else none } :
            LoopManager).dispatchingNow = false := hnot
        rw [if_neg (by rw [hwait]; exact Bool.false_ne_true)]
        have hnumbered : Numbered (put settings m record') :=
          numbered_put h.ids (by rw [hid]; exact h.ids.1 record hrecord)
        refine inv_settle hflight hasked hnumbered fun busy hb => ?_
        simp only at hb
        split at hb
        · rename_i hfinds
          cases hb
          exact ⟨rfl, hbusy hfinds⟩
        · cases hb
      | dispatched record claimed hrecord hquiet hexpires hfinds hid hrevision =>
        have hnow : ({ put settings m claimed with
            task := .dispatching claimed, in_flight := m.in_flight + 1, asked := false
            last_busy := if m.findsBusy = true then some m.clock else none } :
            LoopManager).dispatchingNow = true := rfl
        rw [if_pos hnow]
        have hnumbered : Numbered (put settings m claimed) :=
          numbered_put h.ids (by rw [hid]; exact h.ids.1 record hrecord)
        refine ⟨?_, nofun, ?_, hnumbered⟩
        · rw [hnow]
          simp only [hflight, if_true]
        · simp only [hfinds, Bool.false_eq_true, if_false]
          exact nofun
    · rename_i hready _ hother
      have hnone := h.last_busy_none hother
      have hnot : m.dispatchingNow = false := by
        unfold dispatchingNow
        unfold ready at hready
        split
        · rename_i claimed htask
          rw [htask] at hready
          cases hready
        · rfl
      obtain ⟨hflight, hasked⟩ := h.not_dispatching hnot
      refine inv_settle hflight hasked h.ids fun busy hb => ?_
      rw [hnone] at hb
      cases hb
  · exact h

/-! ## 5. The end of a dispatch -/

/-- The record after a dispatch of a loop that still runs. -/
def ended (settings : LoopSettings) (now : ℚ) (current : LoopRecord) : Option String → LoopRecord
  | none => completed now current
  | some error => retried settings now error current

theorem ended_id (now : ℚ) (current : LoopRecord) (error : Option String) :
    (ended settings now current error).loop_id = current.loop_id
      ∧ current.revision < (ended settings now current error).revision := by
  cases error with
  | none => exact ⟨rfl, Nat.lt_succ_self _⟩
  | some error => exact ⟨rfl, Nat.lt_succ_self _⟩

theorem ended_paused (now : ℚ) {current : LoopRecord} (error : Option String) (h : current.state = .paused) :
    (ended settings now current error).state = .paused := by
  cases error with
  | none => exact if_pos h
  | some error => exact if_pos h

theorem lt_ended_due (now : ℚ) (current : LoopRecord) (error : Option String) :
    now < (ended settings now current error).next_due_at := by
  have hpos : (0 : ℚ) < current.interval_s := Nat.cast_pos.mpr current.interval_pos
  cases error with
  | none =>
    show now < now + (current.interval_s : ℚ)
    linarith
  | some error =>
    show now < now + min (current.interval_s : ℚ) (max 1 (2 ^ min (current.consecutive_failures + 1 - 1) 8))
    have hmin : 0 < min (current.interval_s : ℚ) (max 1 (2 ^ min (current.consecutive_failures + 1 - 1) 8)) :=
      lt_min hpos (lt_max_of_lt_left one_pos)
    linarith

variable (settings) in
theorem finishRecord_cases (m : LoopManager) (claimed : LoopRecord) (error : Option String) :
    (finishRecord settings m claimed error = m
        ∧ ∀ record, m.record = some record → record.loop_id ≠ claimed.loop_id ∨ record.state = .stopped)
      ∨ ∃ record, m.record = some record ∧ record.loop_id = claimed.loop_id ∧ record.state ≠ .stopped
        ∧ finishRecord settings m claimed error = put settings m (ended settings m.clock record error) := by
  unfold finishRecord
  split
  · rename_i hnone
    refine .inl ⟨rfl, fun record hrecord => ?_⟩
    rw [hnone] at hrecord
    cases hrecord
  · rename_i current hcurrent
    split
    · rename_i hkept
      refine .inl ⟨rfl, fun record hrecord => ?_⟩
      rw [hcurrent] at hrecord
      cases hrecord
      exact hkept
    · rename_i hnot
      rw [not_or, not_not] at hnot
      refine .inr ⟨current, hcurrent, hnot.1, hnot.2, ?_⟩
      cases error <;> rfl

variable (settings) in
theorem finishRecord_frame (m : LoopManager) (claimed : LoopRecord) (error : Option String) :
    (finishRecord settings m claimed error).clock = m.clock
      ∧ (finishRecord settings m claimed error).last_busy = m.last_busy
      ∧ (finishRecord settings m claimed error).next_id = m.next_id := by
  obtain ⟨heq, -⟩ | ⟨record, -, -, -, heq⟩ := finishRecord_cases settings m claimed error
  · rw [heq]
    exact ⟨rfl, rfl, rfl⟩
  · rw [heq]
    exact ⟨rfl, rfl, rfl⟩

theorem inv_finish (h : Inv m) (error : Option String) : Inv (finish settings m error) := by
  unfold finish
  split
  · rename_i claimed htask
    have hnow : m.dispatchingNow = true := by
      unfold dispatchingNow
      rw [htask]
    have hnone := h.last_busy_none fun due hdue => nomatch htask.symm.trans hdue
    have hbusy := (finishRecord_frame settings m claimed error).2.1
    have hnumbered : Numbered (finishRecord settings m claimed error) := by
      obtain ⟨heq, -⟩ | ⟨record, hrecord, -, -, heq⟩ := finishRecord_cases settings m claimed error
      · rw [heq]
        exact h.ids
      · rw [heq]
        refine numbered_put h.ids ?_
        rw [(ended_id m.clock record error).1]
        exact h.ids.1 record hrecord
    refine inv_settle ?_ rfl hnumbered fun busy hb => ?_
    · show m.in_flight - 1 = 0
      rw [h.flight, hnow]
      rfl
    · rw [show _ = m.last_busy from hbusy, hnone] at hb
      cases hb
  · exact h

theorem inv_advance (h : Inv m) (dt : ℚ) : Inv (advance m dt) := by
  unfold advance
  split
  · exact h
  · rename_i hready
    have hmono : m.clock ≤ m.clock + max dt 0 := le_add_of_nonneg_right (le_max_right _ _)
    split
    · rename_i due htask
      have hnot : m.dispatchingNow = false := by
        unfold dispatchingNow
        rw [htask]
      obtain ⟨hflight, hasked⟩ := h.not_dispatching hnot
      refine ⟨h.flight, fun ha => ?_, fun busy hb => ?_, h.ids⟩
      · exact absurd (hasked.symm.trans ha) Bool.false_ne_true
      · obtain ⟨-, due', htask', hle⟩ := h.busy busy hb
        rw [htask, LoopTask.waitingUntil.injEq] at htask'
        subst htask'
        unfold ready at hready
        rw [htask] at hready
        simp [hle] at hready
    · rename_i hother
      have hnone := h.last_busy_none hother
      refine ⟨h.flight, fun ha => ?_, fun busy hb => ?_, h.ids⟩
      · obtain ⟨hnow, record, hrecord, hstate, hdue⟩ := h.asked ha
        exact ⟨hnow, record, hrecord, hstate, le_trans hdue hmono⟩
      · rw [show _ = m.last_busy from rfl, hnone] at hb
        cases hb

/-! ## 6. Every event -/

variable (settings) in
theorem inv_step (h : Inv m) (e : LoopEvent) : Inv (step settings m e) := by
  cases e with
  | schedule interval_s accepted => exact inv_of_command h (command_schedule h interval_s accepted)
  | stop => exact inv_of_command h (command_stop h)
  | pause => exact inv_of_command h (command_pause h)
  | resume => exact inv_of_command h (command_resume h)
  | run_job_now loop_id => exact inv_of_command h (command_run_job_now h loop_id)
  | delete_job loop_id => exact inv_of_command h (command_delete_job h loop_id)
  | idle value => exact ⟨h.flight, h.asked, h.busy, h.ids⟩
  | advance dt => exact inv_advance h dt
  | run => exact inv_run h
  | finish error => exact inv_finish h error

theorem inv_opened (store : Option LoopRecord) (now : ℚ) : Inv (opened store now) := by
  refine ⟨rfl, fun hasked => ?_, fun busy hbusy => ?_, fun record hrecord => ?_, fun record hrecord => ?_⟩
  · cases hasked
  · cases hbusy
  · cases hrecord
  · rw [show store = some record from hrecord, opened]
    exact Nat.lt_succ_self _

/-- An event that neither runs the task nor ends a dispatch. -/
theorem quiet_step (h : Inv m) {e : LoopEvent} (hrun : e ≠ .run) (hfinish : ∀ error, e ≠ .finish error) :
    (step settings m e).in_flight = m.in_flight
      ∧ ∀ record record', m.record = some record → (step settings m e).record = some record' →
        record'.loop_id = record.loop_id → record' = record ∨ record.revision < record'.revision := by
  have hsame : ∀ {m' : LoopManager}, m'.record = m.record → ∀ record record', m.record = some record →
      m'.record = some record' → record'.loop_id = record.loop_id →
      record' = record ∨ record.revision < record'.revision := by
    intro m' heq record record' hrecord hrecord' _
    rw [heq, hrecord] at hrecord'
    exact .inl (Option.some.inj hrecord').symm
  have hcommand : ∀ {m' : LoopManager}, Command m m' → m'.in_flight = m.in_flight
      ∧ ∀ record record', m.record = some record → m'.record = some record' →
        record'.loop_id = record.loop_id → record' = record ∨ record.revision < record'.revision :=
    fun hm => ⟨hm.frame.in_flight, hm.revision⟩
  cases e with
  | schedule interval_s accepted => exact hcommand (command_schedule h interval_s accepted)
  | stop => exact hcommand (command_stop h)
  | pause => exact hcommand (command_pause h)
  | resume => exact hcommand (command_resume h)
  | run_job_now loop_id => exact hcommand (command_run_job_now h loop_id)
  | delete_job loop_id => exact hcommand (command_delete_job h loop_id)
  | idle value => exact ⟨rfl, hsame rfl⟩
  | advance dt =>
    have hadvance : (advance m dt).in_flight = m.in_flight ∧ (advance m dt).record = m.record := by
      unfold advance
      split
      · exact ⟨rfl, rfl⟩
      · split
        · exact ⟨rfl, rfl⟩
        · exact ⟨rfl, rfl⟩
    exact ⟨hadvance.1, hsame hadvance.2⟩
  | run => exact absurd rfl hrun
  | finish error => exact absurd rfl (hfinish error)

theorem record_settled (m : LoopManager) :
    (if m.dispatchingNow then m else settle settings m).record = m.record
      ∧ (if m.dispatchingNow then m else settle settings m).in_flight = m.in_flight := by
  by_cases hnow : m.dispatchingNow = true
  · rw [if_pos hnow]
    exact ⟨rfl, rfl⟩
  · rw [if_neg hnow]
    exact ⟨rfl, rfl⟩

variable (settings) in
/-- A turn of the task is a tick, as far as records and dispatches go. -/
theorem run_ticked (m : LoopManager) : ∃ ticked, Ticked settings m ticked
    ∧ (run settings m).record = ticked.record ∧ (run settings m).in_flight = ticked.in_flight := by
  unfold run
  split
  · split
    · exact ⟨_, ticked_tick_once settings m, record_settled _⟩
    · exact ⟨m, .same, rfl, rfl⟩
  · exact ⟨m, .same, rfl, rfl⟩

theorem quiet_false {state : LoopLifecycle} (h : quiet state = false) :
    state = .scheduled ∨ state = .waiting_for_idle := by
  cases state <;> first | exact .inl rfl | exact .inr rfl | cases h

/-- A dispatch only begins for a loop that is scheduled or waits, in its time. -/
theorem starts_step (h : Inv m) (e : LoopEvent) (hstart : m.in_flight < (step settings m e).in_flight) :
    ∃ record, m.record = some record ∧ (record.state = .scheduled ∨ record.state = .waiting_for_idle)
      ∧ m.clock < record.expires_at := by
  by_cases hrun : e = .run
  · subst hrun
    obtain ⟨ticked, hticked, -, hflight⟩ := run_ticked settings m
    rw [show (step settings m .run).in_flight = ticked.in_flight from hflight] at hstart
    cases hticked with
    | same => exact absurd hstart (Nat.lt_irrefl _)
    | changed record record' hrecord hid hrevision => exact absurd hstart (Nat.lt_irrefl _)
    | dispatched record claimed hrecord hquiet hexpires hfinds hid hrevision =>
      exact ⟨record, hrecord, quiet_false hquiet, hexpires⟩
  · by_cases hfinish : ∃ error, e = .finish error
    · obtain ⟨error, rfl⟩ := hfinish
      have hle : (step settings m (.finish error)).in_flight ≤ m.in_flight := by
        show (finish settings m error).in_flight ≤ m.in_flight
        unfold finish
        split
        · exact Nat.sub_le _ _
        · exact le_rfl
      exact absurd hstart (Nat.not_lt.mpr hle)
    · rw [(quiet_step h hrun fun error heq => hfinish ⟨error, heq⟩).1] at hstart
      exact absurd hstart (Nat.lt_irrefl _)

variable (settings) in
theorem finish_record {claimed : LoopRecord} (htask : m.task = .dispatching claimed) (error : Option String) :
    (finish settings m error).record = (finishRecord settings m claimed error).record
      ∧ (finish settings m error).store = (finishRecord settings m claimed error).store
      ∧ (finish settings m error).clock = (finishRecord settings m claimed error).clock := by
  unfold finish
  rw [htask]
  exact ⟨rfl, rfl, rfl⟩

/-- **Commands last.** What the operator did to the loop during its dispatch is
still so at the end of it. -/
theorem kept_finish {claimed : LoopRecord} (htask : m.task = .dispatching claimed) (error : Option String) :
    (m.record = none → (finish settings m error).record = none ∧ (finish settings m error).store = m.store)
      ∧ ∀ record, m.record = some record →
        (record.loop_id ≠ claimed.loop_id ∨ record.state = .stopped →
            (finish settings m error).record = some record)
          ∧ (record.state = .paused →
            ∃ record', (finish settings m error).record = some record' ∧ record'.state = .paused) := by
  obtain ⟨hrecord, hstore, -⟩ := finish_record settings htask error
  rw [hrecord, hstore]
  obtain ⟨heq, hkept⟩ | ⟨current, hcurrent, hid, hstate, heq⟩ :=
    finishRecord_cases settings m claimed error
  · rw [heq]
    exact ⟨fun hnone => ⟨hnone, rfl⟩, fun record hr => ⟨fun _ => hr, fun hpaused => ⟨record, hr, hpaused⟩⟩⟩
  · rw [heq]
    refine ⟨fun hnone => ?_, fun record hr => ⟨fun hkept => ?_, fun hpaused => ?_⟩⟩
    · rw [hcurrent] at hnone
      cases hnone
    · rw [hcurrent] at hr
      cases hr
      exact absurd hkept (not_or.mpr ⟨not_not.mpr hid, hstate⟩)
    · rw [hcurrent] at hr
      cases hr
      exact ⟨_, rfl, ended_paused m.clock error hpaused⟩

theorem revision_step (h : Inv m) (e : LoopEvent) {record record' : LoopRecord} (hrecord : m.record = some record)
    (hrecord' : (step settings m e).record = some record') (hid : record'.loop_id = record.loop_id) :
    record' = record ∨ record.revision < record'.revision := by
  by_cases hrun : e = .run
  · subst hrun
    obtain ⟨ticked, hticked, hr, -⟩ := run_ticked settings m
    rw [show (step settings m .run).record = ticked.record from hr] at hrecord'
    cases hticked with
    | same =>
      rw [hrecord] at hrecord'
      exact .inl (Option.some.inj hrecord').symm
    | changed old new hold hid' hrevision =>
      rw [hrecord] at hold
      cases hold
      cases hrecord'
      exact .inr hrevision
    | dispatched old claimed hold hquiet hexpires hfinds hid' hrevision =>
      rw [hrecord] at hold
      cases hold
      cases hrecord'
      exact .inr hrevision
  · by_cases hfinish : ∃ error, e = .finish error
    · obtain ⟨error, rfl⟩ := hfinish
      rw [show step settings m (.finish error) = finish settings m error from rfl] at hrecord'
      cases htask : m.task with
      | dispatching claimed =>
        rw [(finish_record settings htask error).1] at hrecord'
        obtain ⟨heq, -⟩ | ⟨current, hcurrent, -, -, heq⟩ :=
          finishRecord_cases settings m claimed error
        · rw [heq, hrecord] at hrecord'
          exact .inl (Option.some.inj hrecord').symm
        · rw [heq] at hrecord'
          rw [hrecord] at hcurrent
          cases hcurrent
          cases hrecord'
          exact .inr (ended_id m.clock record error).2
      | waiting =>
        rw [finish, htask, hrecord] at hrecord'
        exact .inl (Option.some.inj hrecord').symm
      | waitingUntil due =>
        rw [finish, htask, hrecord] at hrecord'
        exact .inl (Option.some.inj hrecord').symm
    · exact (quiet_step h hrun fun error heq => hfinish ⟨error, heq⟩).2 record record' hrecord hrecord' hid

variable (settings) in
/-- **Asked meanwhile.** A loop that was made due during a dispatch is due at
its end exactly if it is another loop than the one that was dispatched. -/
theorem due_finish_iff (h : Inv m) (error : Option String) :
    (m.asked = true → ∃ record, (finish settings m error).record = some record
      ∧ record.state = .scheduled ∧ record.next_due_at ≤ (finish settings m error).clock) ↔
    (m.asked && m.sameLoop) = false := by
  cases hasked : m.asked with
  | false => simp
  | true =>
    obtain ⟨hnow, record, hrecord, hstate, hdue⟩ := h.asked hasked
    cases htask : m.task with
    | waiting =>
      rw [dispatchingNow, htask] at hnow
      cases hnow
    | waitingUntil due =>
      rw [dispatchingNow, htask] at hnow
      cases hnow
    | dispatching claimed =>
      obtain ⟨hr, -, hclock⟩ := finish_record settings htask error
      rw [hr, hclock, Bool.true_and, sameLoop, htask, hrecord]
      simp only [true_imp_iff, decide_eq_false_iff_not]
      obtain ⟨heq, hkept⟩ | ⟨current, hcurrent, hid, -, heq⟩ :=
        finishRecord_cases settings m claimed error
      · rw [heq]
        refine iff_of_true ⟨record, hrecord, hstate, hdue⟩ ?_
        obtain hother | hstopped := hkept record hrecord
        · exact hother
        · rw [hstate] at hstopped
          cases hstopped
      · rw [hrecord] at hcurrent
        cases hcurrent
        rw [heq]
        refine iff_of_false ?_ (not_not.mpr hid)
        intro hdue'
        obtain ⟨record', hrecord', -, hle⟩ := hdue'
        cases hrecord'
        exact absurd (lt_ended_due m.clock record error) (not_lt.mpr hle)

variable (settings) in
/-- **Busy ticks.** Two ticks in a row that find the session busy come at the
same time. -/
theorem apart_run_iff (h : Inv m) :
    (∀ busy, m.last_busy = some busy → m.ticks = true → m.findsBusy = true →
      busy + max (1 / 20) settings.busy_poll_s ≤ m.clock) ↔
    (m.ticks && m.findsBusy && m.last_busy.isSome) = false := by
  cases hbusy : m.last_busy with
  | none => simp
  | some busy =>
    obtain ⟨heq, -⟩ := h.busy busy hbusy
    have hpos : (0 : ℚ) < max (1 / 20) settings.busy_poll_s := lt_max_of_lt_left (by norm_num)
    have hnot : ¬ busy + max (1 / 20) settings.busy_poll_s ≤ m.clock := by
      rw [heq, not_le]
      linarith
    rw [Option.isSome_some, Bool.and_true, Bool.and_eq_false_iff]
    constructor
    · intro hall
      by_contra hboth
      rw [not_or, Bool.not_eq_false, Bool.not_eq_false] at hboth
      exact hnot (hall busy rfl hboth.1 hboth.2)
    · intro hnone busy' _ hticks hfinds
      rw [hticks, hfinds] at hnone
      simp at hnone

/-- **One event.** It is safe exactly under the condition. -/
theorem step_safe_iff (h : Inv m) (e : LoopEvent) :
    ((step settings m e).in_flight ≤ 1 ∧ LoopSafe settings m e) ↔ ok m e = true := by
  have hflight : (step settings m e).in_flight ≤ 1 := by
    rw [(inv_step settings h e).flight]
    split
    · exact le_rfl
    · exact Nat.zero_le 1
  have hkept : ∀ error claimed, e = .finish error → m.task = .dispatching claimed →
      (m.record = none → (step settings m e).record = none ∧ (step settings m e).store = m.store)
        ∧ ∀ record, m.record = some record →
          (record.loop_id ≠ claimed.loop_id ∨ record.state = .stopped →
              (step settings m e).record = some record)
            ∧ (record.state = .paused →
              ∃ record', (step settings m e).record = some record' ∧ record'.state = .paused) := by
    intro error claimed he htask
    subst he
    exact kept_finish htask error
  have hdue := due_finish_iff settings h
  have hapart := apart_run_iff settings h
  constructor
  · intro hsafe
    cases e with
    | finish error =>
      rw [ok, Bool.not_eq_true']
      exact (hdue error).mp (hsafe.2.due error rfl)
    | run =>
      rw [ok, Bool.not_eq_true']
      exact hapart.mp fun busy => hsafe.2.apart busy rfl
    | _ => rfl
  · intro hok
    refine ⟨hflight, fun hstart => starts_step h e hstart, hkept, ?_,
      fun record record' hrecord hrecord' hid => revision_step h e hrecord hrecord' hid, ?_⟩
    · intro error he
      subst he
      rw [ok, Bool.not_eq_true'] at hok
      exact (hdue error).mpr hok
    · intro busy he
      subst he
      rw [ok, Bool.not_eq_true'] at hok
      exact hapart.mpr hok busy

variable (settings)

/-- **The loop of a session.** Over any sequence of events, at most one dispatch
is in flight and every event is safe exactly when no dispatch ends with its own
loop made due meanwhile, and no tick finds the session busy right after one
that did. -/
theorem loop_obeys_operator_iff (store : Option LoopRecord) (now : ℚ) (events : List LoopEvent) :
    ((∀ k, ((events.take k).foldl (step settings) (opened store now)).in_flight ≤ 1)
      ∧ ∀ k e, events[k]? = some e →
        LoopSafe settings ((events.take k).foldl (step settings) (opened store now)) e)
    ↔ RunOk (step settings) (fun m e => ok m e = true) (opened store now) events := by
  have hinv : ∀ m e, Inv m → Inv (step settings m e) := fun _ e h => inv_step settings h e
  have hstep : ∀ m e, Inv m → m.in_flight ≤ 1 →
      (((step settings m e).in_flight ≤ 1 ∧ LoopSafe settings m e) ↔ ok m e = true) :=
    fun _ e h _ => step_safe_iff h e
  have hstart : (opened store now).in_flight ≤ 1 := Nat.zero_le 1
  exact forall_steps_iff hinv hstep (inv_opened store now) hstart

/-- A run-now during a dispatch is gone at its end: the next iteration is an
interval away. -/
theorem run_now_forgotten :
    ∃ settings : LoopSettings, ∃ events : List LoopEvent,
      events = [.schedule 60 true, .run, .run, .run_job_now 0, .finish none]
        ∧ ((events.take 5).foldl (step settings) (opened none 0)).record.map (·.next_due_at) = some 60
        ∧ ¬ LoopSafe settings ((events.take 4).foldl (step settings) (opened none 0)) (.finish none) := by
  refine ⟨⟨true, 1, 3600, 86400, 3, 1, false⟩,
    [.schedule 60 true, .run, .run, .run_job_now 0, .finish none], rfl, ?_, ?_⟩
  · decide +kernel
  intro hsafe
  obtain ⟨record, hrecord, -, hle⟩ := hsafe.due none rfl (by decide +kernel)
  have hdue := congrArg (Option.map LoopRecord.next_due_at) hrecord
  rw [Option.map_some] at hdue
  have hnext : record.next_due_at = 60 := Option.some.inj (hdue.symm.trans (by decide +kernel))
  rw [hnext] at hle
  exact absurd hle (by decide +kernel)

end LoopManager

end Agenthicc.Runners
