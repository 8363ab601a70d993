/-
Agenthicc.Runners.TransportRetry — `run_with_transport_retry`.

A run is the list of its attempts: what the turn does to the memory, how it
ends, what `checkpoint_provider` returns afterwards, and the clock. The turn is
any function of the memory. Numbers are exact. The reset functions, which do
not touch the memory, and the callbacks but for the time they take are left
out, and so is a restore that fails on the disk.
-/
import Agenthicc.Memory.Journaled
import Mathlib.Algebra.Order.Ring.Rat

namespace Agenthicc.Runners

open Python Agenthicc.Memory

/-! ## 1. Memory -/

/-- What the retry needs of a memory: restoring a snapshot gives the messages
and the summary that were there when it was taken. -/
structure RecoverableMemory (M S : Type) where
  snapshot : M → S
  restore : M → S → M
  content : M → Projection
  saved : S → Projection
  content_restore : ∀ m s, content (restore m s) = saved s
  saved_snapshot : ∀ m, saved (snapshot m) = content m

/-- A checkpoint of `JournaledShortTermMemory`. -/
structure Checkpoint where
  messages : List Json
  summary : Json
  tool_exchange : Option ToolExchange

/-- `JournaledShortTermMemory.snapshot` and `restore`. -/
def journaledMemory : RecoverableMemory JournaledShortTermMemory Checkpoint where
  snapshot m := ⟨m.messages, m.summary, m.activeExchange⟩
  restore m c :=
    ({ m with activeExchange := c.tool_exchange }.resetTo (c.messages, c.summary) "" "" "" false).1
  content m := (m.messages, m.summary)
  saved c := (c.messages, c.summary)
  content_restore := fun _ _ => rfl
  saved_snapshot := fun _ => rfl

/-! ## 2. Attempts -/

/-- `_MIN_EXEC_WINDOW_S`. -/
def MIN_EXEC_WINDOW_S : ℚ := 2

/-- An error, as the two tests of it say, with the finite `retry_after` numbers
of the error, its cause and its context. -/
structure ProviderError where
  is_transient : Bool
  is_irrecoverable : Bool
  retry_after : List (Option ℚ) := []

/-- `_retry_after_seconds`. -/
def retryAfterSeconds (exc : ProviderError) : Option ℚ :=
  exc.retry_after.findSome? fun value => value.filter (0 ≤ ·)

structure RetryConfig where
  max_retries : Int := 10
  base_delay_s : ℚ := 1
  max_total_duration_s : ℚ := 0
  jitter : Bool := true
  irrecoverable_error_max_retries : Int := 0

inductive TurnOutcome where
  | returned
  | cancelled
  | raised (exc : ProviderError)

/-- One attempt, up to the start of the next one. -/
structure Attempt (M S : Type) where
  turn : M → M
  outcome : TurnOutcome
  /-- What `checkpoint_provider` returns after the attempt. -/
  checkpoint : Option S
  /-- `random.uniform(0.75, 1.25)`. -/
  uniform : ℚ := 1
  /-- `time.monotonic()`, after the restore. -/
  now : ℚ
  /-- What the callback and the sleep take on top of the delay. -/
  late : {q : ℚ // 0 ≤ q} := ⟨0, le_rfl⟩

inductive RetryEnd where
  | returned
  /-- Cancelled, or an error that is not retried at all. -/
  | propagated
  /-- The last provider error. -/
  | gaveUp
  deriving DecidableEq

/-- The arguments of `run_with_transport_retry` that do not change. -/
structure RetryCall (M S : Type) where
  memory : RecoverableMemory M S
  config : RetryConfig
  deadline_monotonic : Option ℚ := none
  /-- Whether there is a `checkpoint_provider`. -/
  checkpoint_provider : Bool := false
  /-- `time.monotonic()` at the start. -/
  start : ℚ

/-- The state at the start of an attempt. `attempts`, `initial` and `committed`
are not kept by the code: the memory before the first attempt, and the latest
checkpoint there is. -/
structure Retrying (M S : Type) where
  memory : M
  transient_retries : Nat := 0
  irrecoverable_retries : Nat := 0
  attempts : Nat := 1
  ended : Option RetryEnd := none
  initial : Projection
  committed : Option S := none

namespace RetryCall

variable {M S : Type} (c : RetryCall M S)

/-- The number of a retry and its limit, by the budget the error falls under. -/
def budget (s : Retrying M S) (exc : ProviderError) : Option (Nat × Int) :=
  if exc.is_transient then some (s.transient_retries + 1, c.config.max_retries)
  else if exc.is_irrecoverable then
    some (s.irrecoverable_retries + 1, c.config.irrecoverable_error_max_retries)
  else none

/-- The delay before a retry. -/
def delay (retry_number : Nat) (exc : ProviderError) (uniform : ℚ) : ℚ :=
  let delay := c.config.base_delay_s * 2 ^ (retry_number - 1)
  let delay :=
    match retryAfterSeconds exc with
    | some retry_after => max delay retry_after
    | none => delay
  if c.config.jitter && decide (0 < delay) then
    max ((retryAfterSeconds exc).getD 0) (delay * uniform)
  else delay

/-- The ceiling and the deadline let a retry go ahead. -/
def inTime (now delay : ℚ) : Bool :=
  !(decide (0 < c.config.max_total_duration_s)
      && decide (c.config.max_total_duration_s < (now - c.start) + delay))
    && c.deadline_monotonic.all fun deadline => !decide (deadline ≤ now + delay + MIN_EXEC_WINDOW_S)

/-- `recovery_snapshot`. -/
def recoverySnapshot (snapshot : S) (checkpoint : Option S) : Option S :=
  if c.checkpoint_provider then checkpoint else some snapshot

/-- The latest checkpoint after an attempt. -/
def latest (s : Retrying M S) (a : Attempt M S) : Option S :=
  if c.checkpoint_provider then a.checkpoint.or s.committed else none

/-- The memory after the rollback. -/
def recovered (s : Retrying M S) (a : Attempt M S) : M :=
  match c.recoverySnapshot (c.memory.snapshot s.memory) a.checkpoint with
  | some recovery => c.memory.restore (a.turn s.memory) recovery
  | none => a.turn s.memory

/-- One round of the loop. -/
def step (s : Retrying M S) (a : Attempt M S) : Retrying M S :=
  if s.ended.isSome then s
  else
    match a.outcome with
    | .returned => { s with memory := a.turn s.memory, ended := some .returned }
    | .cancelled => { s with memory := a.turn s.memory, ended := some .propagated }
    | .raised exc =>
        match c.budget s exc with
        | none => { s with memory := a.turn s.memory, ended := some .propagated }
        | some (retry_number, retry_limit) =>
            let counted := { s with
              transient_retries := s.transient_retries + if exc.is_transient then 1 else 0
              irrecoverable_retries := s.irrecoverable_retries + if exc.is_transient then 0 else 1
              committed := c.latest s a }
            if (retry_number : Int) > retry_limit then
              { counted with memory := a.turn s.memory, ended := some .gaveUp }
            else if c.inTime a.now (c.delay retry_number exc a.uniform) then
              { counted with memory := c.recovered s a, attempts := s.attempts + 1 }
            else { counted with memory := c.recovered s a, ended := some .gaveUp }

/-- Before the first attempt. -/
def begin (memory : M) : Retrying M S := { memory := memory, initial := c.memory.content memory }

end RetryCall

end Agenthicc.Runners
