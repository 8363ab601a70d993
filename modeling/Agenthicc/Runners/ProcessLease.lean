/-
Agenthicc.Runners.ProcessLease — owner records in files, and whether the
process that wrote one still runs.

`Os` is what one process sees of the operating system at one time, `Platform`
what the processes of a run see of it. The fields of `Platform` about running
processes are what the system documents: a signal finds a running process, the
stat line of a running process is that of no zombie and its start time is
fixed. Processes with one host name share their PIDs; a PID may be used again.
-/
import Agenthicc.Python.Builtins
import Agenthicc.Python.Text

namespace Agenthicc.Runners

open Python

/-! ## 1. Records in files -/

abbrev Payload := List (String × Json)

inductive FileContent where
  | record (payload : Payload)
  /-- Too long, not readable, no JSON, or no object. -/
  | unreadable
  /-- The decoder raises an exception that the reader lets through. -/
  | raising (exc : PyError)
  deriving DecidableEq

/-- `read_json_object`. -/
def readJsonObject : Option FileContent → Except PyError (Option Payload)
  | none => .ok none
  | some (.record payload) => .ok (some payload)
  | some .unreadable => .ok (some [])
  | some (.raising exc) => .error exc

/-- A file and the process of the run that wrote it, which no operation looks
at. -/
structure OwnedFile where
  content : FileContent
  writer : Option Nat
  deriving DecidableEq

/-- The owner ID that a file names. -/
def OwnedFile.owner_id (file : OwnedFile) : Option Json :=
  match file.content with
  | .record payload => Json.lookup "owner_id" payload
  | .unreadable | .raising _ => none

theorem readJsonObject_some {file : Option OwnedFile} {payload : Payload}
    (h : readJsonObject (file.map (·.content)) = .ok (some payload)) :
    ∃ f, file = some f ∧ (f.content = .record payload ∨ payload = []) := by
  cases file with
  | none => cases h
  | some f =>
      refine ⟨f, rfl, ?_⟩
      cases hcontent : f.content with
      | record payload' =>
          simp only [Option.map_some, hcontent, readJsonObject] at h
          cases h
          exact .inl rfl
      | unreadable =>
          simp only [Option.map_some, hcontent, readJsonObject] at h
          cases h
          exact .inr rfl
      | raising exc =>
          simp only [Option.map_some, hcontent, readJsonObject] at h
          cases h

theorem readJsonObject_none {file : Option OwnedFile}
    (h : readJsonObject (file.map (·.content)) = .ok none) : file = none := by
  cases file with
  | none => rfl
  | some f =>
      cases hcontent : f.content <;> simp only [Option.map_some, hcontent, readJsonObject] at h
        <;> cases h

/-! ## 2. Liveness -/

/-- What `os.kill(pid, 0)` comes to; `failed` is an `OSError` of another class
than `ProcessLookupError`. -/
inductive Signal where
  | delivered | noSuchProcess | failed
  deriving DecidableEq

/-- The operating system, as one process sees it. -/
structure Os where
  hostname : String
  kill : Int → Except PyError Signal
  /-- The text of `/proc/<pid>/stat`, where it can be read. -/
  stat : Int → Option (List Char)
  /-- The boot ID, empty where it cannot be read. -/
  boot_id : String

/-- The state and the start time of a stat line. -/
def statFields (stat : List Char) : Option (String × String) :=
  if ')' ∉ stat then none
  else
    let fields := splitSpaces ((stat.reverse.takeWhile (· ≠ ')')).reverse.drop 1)
    match fields[0]?, fields[19]? with
    | some state, some start => some (String.ofList state, String.ofList start)
    | _, _ => none

/-- The start token that goes with a start time. -/
def tokenOf (boot_id start : String) : String :=
  if boot_id = "" then start else boot_id ++ ":" ++ start

/-- `process_identity`. -/
def Os.processIdentity (os : Os) (pid : Int) : Option (String × String) := do
  let stat ← os.stat pid
  let (state, start) ← statFields stat
  pure (state, tokenOf os.boot_id start)

/-- `owner_alive`. -/
def ownerAlive (os : Os) (payload : Payload) : Except PyError Bool :=
  match Json.lookup "host" payload, Json.lookup "pid" payload with
  | some (.str host), some (.int pid) =>
      if host ≠ os.hostname ∨ pid ≤ 0 then .ok true
      else do
        match ← os.kill pid with
        | .noSuchProcess => pure false
        | .failed => pure true
        | .delivered =>
            match os.processIdentity pid with
            | none => pure true
            | some (state, current_start_token) =>
                if state = "Z" then pure false
                else
                  match Json.lookup "process_start_token" payload with
                  | some (.str recorded) =>
                      pure (decide (recorded = "" ∨ recorded = current_start_token))
                  | _ => pure true
  | _, _ => .ok true

/-! ## 3. The processes of a run -/

/-- The processes that there have been, and how many operations they called. -/
structure Machine where
  born : List Nat := []
  dead : List Nat := []
  clock : Nat := 0

namespace Machine

def Running (m : Machine) (p : Nat) : Prop := p ∈ m.born ∧ p ∉ m.dead

instance (m : Machine) : DecidablePred m.Running := fun _ => inferInstanceAs (Decidable (_ ∧ _))

/-- `p` calls an operation. -/
def acts (m : Machine) (p : Nat) : Machine :=
  { m with born := p :: m.born, clock := m.clock + 1 }

def dies (m : Machine) (p : Nat) : Machine := { m with dead := p :: m.dead }

variable {m : Machine} {p q : Nat}

@[simp] theorem dead_acts : (m.acts p).dead = m.dead := rfl

@[simp] theorem mem_born_acts : q ∈ (m.acts p).born ↔ q = p ∨ q ∈ m.born := List.mem_cons

@[simp] theorem born_dies : (m.dies p).born = m.born := rfl

@[simp] theorem mem_dead_dies : q ∈ (m.dies p).dead ↔ q = p ∨ q ∈ m.dead := List.mem_cons

end Machine

/-- What a process knows of itself. -/
structure Self where
  pid : Int
  hostname : String
  identity : Option (String × String)

structure Platform where
  hostname : Nat → String
  pid : Nat → Int
  start_time : Nat → String
  boot_id : Nat → String
  kill : Machine → Nat → Int → Except PyError Signal
  stat : Machine → Nat → Int → Option (List Char)
  pid_pos : ∀ p, 0 < pid p
  boot_host : ∀ p q, hostname p = hostname q → boot_id p = boot_id q
  kill_running : ∀ m p q, m.Running q → hostname p = hostname q →
    kill m p (pid q) ≠ .ok .noSuchProcess
  stat_running : ∀ m p q text state start, m.Running q → hostname p = hostname q →
    stat m p (pid q) = some text → statFields text = some (state, start) →
    state ≠ "Z" ∧ start = start_time q

namespace Platform

variable (plat : Platform)

def os (m : Machine) (p : Nat) : Os where
  hostname := plat.hostname p
  kill := plat.kill m p
  stat := plat.stat m p
  boot_id := plat.boot_id p

/-- `os.getpid()`, `socket.gethostname()` and `process_identity(os.getpid())`. -/
def self (m : Machine) (p : Nat) : Self where
  pid := plat.pid p
  hostname := plat.hostname p
  identity := (plat.os m p).processIdentity (plat.pid p)

def startToken (p : Nat) : String := tokenOf (plat.boot_id p) (plat.start_time p)

/-- The record is one of `q`. -/
structure Wrote (q : Nat) (payload : Payload) : Prop where
  host : Json.lookup "host" payload = some (.str (plat.hostname q))
  pid : Json.lookup "pid" payload = some (.int (plat.pid q))
  token : ∀ recorded, Json.lookup "process_start_token" payload = some (.str recorded) →
    recorded = "" ∨ recorded = plat.startToken q

variable {plat} {m : Machine} {p q : Nat}

theorem identity_running {state token : String} (hrun : m.Running q)
    (hhost : plat.hostname p = plat.hostname q)
    (h : (plat.os m p).processIdentity (plat.pid q) = some (state, token)) :
    state ≠ "Z" ∧ token = plat.startToken q := by
  unfold Os.processIdentity at h
  obtain ⟨text, htext, h⟩ := Option.bind_eq_some_iff.mp h
  obtain ⟨⟨state', start⟩, hfields, h⟩ := Option.bind_eq_some_iff.mp h
  cases h
  obtain ⟨hzombie, rfl⟩ := plat.stat_running m p q text state start hrun hhost htext hfields
  exact ⟨hzombie, by rw [startToken, ← plat.boot_host p q hhost]; rfl⟩

theorem ownerAlive_running {payload : Payload} (hwrote : plat.Wrote q payload)
    (hrun : m.Running q) : ownerAlive (plat.os m p) payload ≠ .ok false := by
  unfold ownerAlive
  rw [hwrote.host, hwrote.pid]
  dsimp only
  split
  · simp
  · rename_i hlocal
    have hhost : plat.hostname p = plat.hostname q := by
      by_contra hne
      exact hlocal (.inl fun heq => hne heq.symm)
    have hsignal := plat.kill_running m p q hrun hhost
    change (plat.kill m p (plat.pid q) >>= _) ≠ _
    cases hkill : plat.kill m p (plat.pid q) with
    | error exc => exact fun h => by cases h
    | ok signal =>
        cases signal with
        | noSuchProcess => exact absurd hkill hsignal
        | failed => exact fun h => by cases h
        | delivered =>
            simp only [bind, Except.bind]
            split
            · exact fun h => by cases h
            · rename_i state token hidentity
              obtain ⟨hzombie, rfl⟩ := identity_running hrun hhost hidentity
              rw [if_neg hzombie]
              split
              · rename_i recorded hrecorded
                have htoken := hwrote.token recorded hrecorded
                rw [decide_eq_true htoken]
                exact fun h => by cases h
              · exact fun h => by cases h

variable (plat) in
/-- A file with a writer is a record of it. -/
def Genuine (m : Machine) (file : OwnedFile) : Prop :=
  ∀ w ∈ file.writer, w ∈ m.born ∧ ∃ payload, file.content = .record payload ∧ plat.Wrote w payload

theorem Genuine.mono {m' : Machine} {file : OwnedFile} (h : plat.Genuine m file)
    (hborn : ∀ w, w ∈ m.born → w ∈ m'.born) : plat.Genuine m' file :=
  fun w hw => ⟨hborn w (h w hw).1, (h w hw).2⟩

/-- A file whose owner is judged dead is one of a process that is gone. -/
theorem Genuine.gone {file : OwnedFile} {payload : Payload} (h : plat.Genuine m file)
    (hcontent : file.content = .record payload)
    (hjudged : ownerAlive (plat.os (m.acts p) p) payload = .ok false) :
    ∀ w ∈ file.writer, w ∈ m.dead := by
  intro w hw
  obtain ⟨hborn, payload', hcontent', hwrote⟩ := h w hw
  rw [hcontent, FileContent.record.injEq] at hcontent'
  by_contra hdead
  refine ownerAlive_running (m := m.acts p) (hcontent' ▸ hwrote) ⟨?_, hdead⟩ hjudged
  exact Machine.mem_born_acts.mpr (.inr hborn)

/-- The start token that a running process writes into a record. -/
theorem self_token {state token : String} (hrun : m.Running p)
    (h : (plat.self m p).identity = some (state, token)) : token = plat.startToken p :=
  (identity_running hrun rfl h).2

end Platform

end Agenthicc.Runners
