/-
Agenthicc.Runners.LoopScheduler — the `LoopManager` of a session.

Events are the operator's commands, the end of a dispatch, changes of the
session's idleness, the clock, and the turns of the task `_run`. The clock does
not go back, and it stands still while the task is ready to run: a wait ends
when its time is up. Loop ids are numbered; records of other sessions, the
payload, the texts of the answers, errors of the store and the start and
shutdown of the task are left out.
-/
import Mathlib.Algebra.Order.Ring.Rat
import Mathlib.Order.Lattice

namespace Agenthicc.Runners

/-! ## 1. Records -/

inductive LoopLifecycle where
  | scheduled | waiting_for_idle | running | paused | stopped | expired | failed
  deriving DecidableEq

structure LoopRecord where
  loop_id : Nat
  interval_s : Nat
  /-- `__post_init__` refuses other intervals. -/
  interval_pos : 0 < interval_s
  created_at : ℚ
  updated_at : ℚ
  next_due_at : ℚ
  expires_at : ℚ
  state : LoopLifecycle := .scheduled
  revision : Nat := 0
  runs : Nat := 0
  coalesced_runs : Nat := 0
  failures : Nat := 0
  consecutive_failures : Nat := 0
  last_dispatch_at : Option ℚ := none
  last_completed_at : Option ℚ := none
  last_error : String := ""
  pending : Bool := true

structure LoopSettings where
  enabled : Bool
  min_interval_s : Int
  max_interval_s : Int
  max_age_s : Int
  max_consecutive_failures : Int
  busy_poll_s : ℚ
  persist : Bool

/-- Where the task `_run` stands: in a wait without or with a time, or in the
`dispatch` of a claimed record. -/
inductive LoopTask where
  | waiting
  | waitingUntil (due : ℚ)
  | dispatching (claimed : LoopRecord)

/-- The manager. `in_flight`, `asked` and `last_busy` are not kept by the code:
the dispatches that have begun and not ended; whether a run-now or a resume is
the last command that took effect during this dispatch; and when the last tick
was, if it found the session busy. -/
structure LoopManager where
  record : Option LoopRecord := none
  store : Option LoopRecord := none
  clock : ℚ
  idle : Bool := true
  wake : Bool := false
  task : LoopTask := .waiting
  next_id : Nat := 0
  in_flight : Nat := 0
  asked : Bool := false
  last_busy : Option ℚ := none

namespace LoopManager

variable (settings : LoopSettings)

def dispatchingNow (m : LoopManager) : Bool :=
  match m.task with
  | .dispatching _ => true
  | _ => false

/-- `self.record = …` and `_save_and_emit`. -/
def put (m : LoopManager) (record : LoopRecord) : LoopManager :=
  { m with record := some record, store := if settings.persist then some record else m.store }

/-- `_load_record_if_needed`. -/
def loadRecordIfNeeded (m : LoopManager) : LoopManager :=
  if m.record.isSome || !settings.persist then m else { m with record := m.store }

/-! ## 2. Commands -/

/-- `/loop`, with a payload that is accepted or not. -/
def schedule (m : LoopManager) (interval_s : Nat) (accepted : Bool) : LoopManager :=
  if h : 0 < interval_s then
    if settings.enabled && settings.min_interval_s ≤ interval_s && interval_s ≤ settings.max_interval_s
        && 0 < settings.max_age_s && 0 < settings.max_consecutive_failures && accepted then
      { put settings m {
          loop_id := m.next_id
          interval_s := interval_s
          interval_pos := h
          created_at := m.clock
          updated_at := m.clock
          next_due_at := m.clock
          expires_at := m.clock + settings.max_age_s } with
        next_id := m.next_id + 1, wake := true, asked := false }
    else m
  else m

/-- `stop`. -/
def stop (m : LoopManager) : LoopManager :=
  let m := loadRecordIfNeeded settings m
  match m.record with
  | none => m
  | some record =>
      if record.state = .stopped then m
      else
        { put settings m { record with
            state := .stopped
            pending := false
            updated_at := m.clock
            revision := record.revision + 1 } with
          wake := true, asked := false }

/-- `pause`. It does not wake the task. -/
def pause (m : LoopManager) : LoopManager :=
  let m := loadRecordIfNeeded settings m
  match m.record with
  | none => m
  | some record =>
      if record.state = .stopped ∨ record.state = .expired ∨ record.state = .paused then m
      else
        { put settings m { record with
            state := .paused
            updated_at := m.clock
            revision := record.revision + 1 } with
          asked := false }

/-- The record is due now. -/
def makeDue (m : LoopManager) (record : LoopRecord) : LoopManager :=
  { put settings m { record with
      state := .scheduled
      pending := true
      next_due_at := m.clock
      updated_at := m.clock
      revision := record.revision + 1 } with
    wake := true, asked := m.dispatchingNow }

/-- `resume`. -/
def resume (m : LoopManager) : LoopManager :=
  if settings.enabled then
    let m := loadRecordIfNeeded settings m
    match m.record with
    | none => m
    | some record => if record.state = .paused then makeDue settings m record else m
  else m

/-- The record `run_job_now` finds. -/
def selected (m : LoopManager) (loop_id : Nat) : Option LoopRecord :=
  match m.record with
  | some record => if record.loop_id = loop_id then some record else m.store.filter (·.loop_id = loop_id)
  | none => m.store.filter (·.loop_id = loop_id)

/-- `run_job_now`, on a job of this session. -/
def run_job_now (m : LoopManager) (loop_id : Nat) : LoopManager :=
  if settings.enabled then
    match m.selected loop_id with
    | none => m
    | some record => makeDue settings m record
  else m

/-- `delete_job`, on a job of this session. -/
def delete_job (m : LoopManager) (loop_id : Nat) : LoopManager :=
  match m.store with
  | none => m
  | some current =>
      if current.loop_id = loop_id then
        if m.record.isSome then { m with store := none, record := none, wake := true, asked := false }
        else { m with store := none }
      else m

/-! ## 3. Ticks -/

/-- The states in which a tick returns at once. -/
def quiet : LoopLifecycle → Bool
  | .paused | .stopped | .expired | .failed | .running => true
  | .scheduled | .waiting_for_idle => false

/-- `tick_once`, up to the `dispatch`. -/
def tick_once (m : LoopManager) : LoopManager :=
  match m.record with
  | none => m
  | some record =>
      if quiet record.state then m
      else if record.expires_at ≤ m.clock then
        put settings m { record with
          state := .expired
          pending := false
          updated_at := m.clock
          revision := record.revision + 1 }
      else if m.clock < record.next_due_at then m
      else if !m.idle then
        if record.state ≠ .waiting_for_idle ∨ !record.pending then
          put settings m { record with
            state := .waiting_for_idle
            pending := true
            coalesced_runs := record.coalesced_runs + 1
            updated_at := m.clock
            revision := record.revision + 1 }
        else m
      else
        let claimed := { record with
          state := .running
          pending := false
          runs := record.runs + 1
          last_dispatch_at := some m.clock
          updated_at := m.clock
          revision := record.revision + 1 }
        { put settings m claimed with
          task := .dispatching claimed, in_flight := m.in_flight + 1, asked := false }

/-- A tick finds the session busy. -/
def findsBusy (m : LoopManager) : Bool :=
  match m.record with
  | none => false
  | some record => !quiet record.state && m.clock < record.expires_at && record.next_due_at ≤ m.clock && !m.idle

/-- The record after a dispatch that succeeded. -/
def completed (now : ℚ) (current : LoopRecord) : LoopRecord :=
  { current with
    state := if current.state = .paused then .paused
      else if current.expires_at ≤ now then .expired else .scheduled
    pending := false
    next_due_at := now + current.interval_s
    last_completed_at := some now
    last_error := ""
    consecutive_failures := 0
    updated_at := now
    revision := current.revision + 1 }

/-- The record after a dispatch that failed. -/
def retried (now : ℚ) (error : String) (current : LoopRecord) : LoopRecord :=
  let consecutive := current.consecutive_failures + 1
  let state := if current.state = .paused then LoopLifecycle.paused
    else if settings.max_consecutive_failures ≤ consecutive then .failed else .scheduled
  { current with
    state := state
    pending := state = .scheduled
    next_due_at := now + min (current.interval_s : ℚ) (max 1 (2 ^ min (consecutive - 1) 8))
    failures := current.failures + 1
    consecutive_failures := consecutive
    last_completed_at := some now
    last_error := error
    updated_at := now
    revision := current.revision + 1 }

/-- `_finish_success` and `_finish_failure`. -/
def finishRecord (m : LoopManager) (claimed : LoopRecord) (error : Option String) : LoopManager :=
  match m.record with
  | none => m
  | some current =>
      if current.loop_id ≠ claimed.loop_id ∨ current.state = .stopped then m
      else
        match error with
        | none => put settings m (completed m.clock current)
        | some error => put settings m (retried settings m.clock error current)

/-! ## 4. The task -/

/-- The states in which `_run` waits until it is woken. -/
def dormant : LoopLifecycle → Bool
  | .paused | .stopped | .expired | .failed => true
  | .scheduled | .waiting_for_idle | .running => false

/-- The time `_run` waits before the next tick. -/
def waitTime (m : LoopManager) (record : LoopRecord) : ℚ :=
  let delay := max 0 (record.next_due_at - m.clock)
  if record.state = .waiting_for_idle then min delay (max (1 / 20) settings.busy_poll_s) else delay

/-- The top of the loop of `_run`, up to the wait; `_wait_for_wake` clears the
wake-up first. -/
def settle (m : LoopManager) : LoopManager :=
  { m with
    wake := false
    task := match m.record with
      | none => .waiting
      | some record =>
          if dormant record.state then .waiting else .waitingUntil (m.clock + waitTime settings m record) }

/-- The wait is over. -/
def ready (m : LoopManager) : Bool :=
  match m.task with
  | .waiting => m.wake
  | .waitingUntil due => m.wake || due ≤ m.clock
  | .dispatching _ => false

/-- A turn of the task `_run`. -/
def run (m : LoopManager) : LoopManager :=
  if m.ready then
    match m.task with
    | .waitingUntil _ =>
        let ticked := tick_once settings m
        let ticked := { ticked with last_busy := if m.findsBusy then some m.clock else none }
        if ticked.dispatchingNow then ticked else settle settings ticked
    | _ => settle settings m
  else m

/-- The end of the dispatch, with an error or without. -/
def finish (m : LoopManager) (error : Option String) : LoopManager :=
  match m.task with
  | .dispatching claimed =>
      settle settings { finishRecord settings m claimed error with
        in_flight := m.in_flight - 1, asked := false }
  | _ => m

/-- Time passes. -/
def advance (m : LoopManager) (dt : ℚ) : LoopManager :=
  if m.ready then m
  else
    match m.task with
    | .waitingUntil due => { m with clock := min (m.clock + max dt 0) due }
    | _ => { m with clock := m.clock + max dt 0 }

end LoopManager

inductive LoopEvent where
  | schedule (interval_s : Nat) (accepted : Bool)
  | stop
  | pause
  | resume
  | run_job_now (loop_id : Nat)
  | delete_job (loop_id : Nat)
  | idle (value : Bool)
  | advance (dt : ℚ)
  | run
  | finish (error : Option String)

namespace LoopManager

def step (settings : LoopSettings) (m : LoopManager) : LoopEvent → LoopManager
  | .schedule interval_s accepted => schedule settings m interval_s accepted
  | .stop => stop settings m
  | .pause => pause settings m
  | .resume => resume settings m
  | .run_job_now loop_id => run_job_now settings m loop_id
  | .delete_job loop_id => delete_job m loop_id
  | .idle value => { m with idle := value }
  | .advance dt => advance m dt
  | .run => run settings m
  | .finish error => finish settings m error

/-- A session without a loop, with what its store holds. -/
def opened (store : Option LoopRecord) (now : ℚ) : LoopManager where
  store := store
  clock := now
  next_id := store.elim 0 fun record => record.loop_id + 1

end LoopManager

end Agenthicc.Runners
