/-
Agenthicc.Tools.Sandbox — the resource limits of `ToolSandbox.run`.

A resource limit is a pair of unsigned 64-bit numbers; the largest one is
"unlimited", and Python reads a number as a signed one, so unlimited is -1.
`setrlimit` is the system call of an unprivileged process: the soft limit may
not exceed the hard one, and a hard limit is never raised.

A run of the process is a sequence of begins and ends: a call sets its limits
before its operation starts and restores them when the operation has returned,
failed, timed out or been cancelled. Neither is interrupted.
-/
import Agenthicc.Library.Runs
import Mathlib

namespace Agenthicc.Tools

/-! ## 1. `resource` -/

/-- `RLIMIT_CPU` and `RLIMIT_AS`. -/
inductive Resource where
  | cpu | addressSpace
  deriving DecidableEq

/-- The soft and the hard limit of a resource. -/
@[ext] structure Rlimit where
  soft : BitVec 64
  hard : BitVec 64
  soft_le : soft ≤ hard
  deriving DecidableEq

/-- Why `setrlimit` raises: the two exceptions that the sandbox catches, or
the `OverflowError` of a number that no limit holds. -/
inductive SetError where
  | refused | overflow
  deriving DecidableEq

/-- The number of a limit, where it is in range. -/
def asRlim (n : Int) : Option (BitVec 64) :=
  if -2 ^ 63 ≤ n ∧ n < 2 ^ 63 then some (BitVec.ofInt 64 n) else none

def setrlimit (current : Rlimit) (soft hard : Int) : Except SetError Rlimit :=
  match asRlim soft, asRlim hard with
  | some s, some h =>
      if hle : s ≤ h then
        if h ≤ current.hard then .ok ⟨s, h, hle⟩ else .error .refused
      else .error .refused
  | _, _ => .error .overflow

/-! ## 2. `resource_limits` -/

/-- Best-effort process resource limits for a tool invocation. -/
structure ResourceLimits where
  cpu_seconds : Option Int := none
  memory_mb : Option Int := none

/-- The soft limits to set, in order. -/
def ResourceLimits.requested (limits : ResourceLimits) : List (Resource × Int) :=
  (limits.cpu_seconds.map fun n => (Resource.cpu, n)).toList
    ++ (limits.memory_mb.map fun n => (Resource.addressSpace, n * 1024 * 1024)).toList

/-- The limits of the process. -/
abbrev Rlimits := Resource → Rlimit

/-- What a call remembers to restore. -/
abbrev Saved := List (Resource × Rlimit)

/-- Saves and sets one limit after the other. A refusal ends it silently; the
flag says that an overflow ended it. -/
def applyLimits : List (Resource × Int) → Rlimits → Saved → Rlimits × Saved × Bool
  | [], rlimits, saved => (rlimits, saved, false)
  | (r, soft) :: rest, rlimits, saved =>
      match setrlimit (rlimits r) soft (max soft (rlimits r).hard.toInt) with
      | .ok v => applyLimits rest (Function.update rlimits r v) (saved ++ [(r, rlimits r)])
      | .error .refused => (rlimits, saved ++ [(r, rlimits r)], false)
      | .error .overflow => (rlimits, saved ++ [(r, rlimits r)], true)

/-- One step of the `finally` clause. -/
def restoreOne (rlimits : Rlimits) (entry : Resource × Rlimit) : Rlimits :=
  match setrlimit (rlimits entry.1) entry.2.soft.toInt entry.2.hard.toInt with
  | .ok v => Function.update rlimits entry.1 v
  | .error _ => rlimits

/-- `for limit, values in reversed(saved)`. -/
def restore (rlimits : Rlimits) (saved : Saved) : Rlimits := saved.reverse.foldl restoreOne rlimits

/-! ## 3. Runs -/

/-- The process: its limits, and what each call that has begun and not ended
will restore. -/
@[ext] structure Process where
  rlimits : Rlimits
  calls : List (Nat × Saved)

inductive Event where
  | begin (call : Nat) (limits : ResourceLimits)
  | finish (call : Nat)

namespace Process

def fresh (rlimits : Rlimits) : Process := ⟨rlimits, []⟩

/-- Where an overflow ends the setting of the limits, the call restores them
at once and its operation never starts. -/
def step (p : Process) : Event → Process
  | .begin call limits =>
      match applyLimits limits.requested p.rlimits [] with
      | (rlimits, saved, false) => ⟨rlimits, (call, saved) :: p.calls⟩
      | (rlimits, saved, true) => ⟨restore rlimits saved, p.calls⟩
  | .finish call =>
      match p.calls.find? fun entry => entry.1 = call with
      | some entry => ⟨restore p.rlimits entry.2, p.calls.eraseP fun entry => entry.1 = call⟩
      | none => p

/-- Once no call is open the limits are the given ones. -/
def Restored (original : Rlimits) (p : Process) : Prop := p.calls = [] → p.rlimits = original

end Process

end Agenthicc.Tools
