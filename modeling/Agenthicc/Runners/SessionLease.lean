/-
Agenthicc.Runners.SessionLease — the owner record of a durable session, and
the calls of `SessionOwnerStore` on it, at the granularity of single
operations on the record, on the owner lock and on the memory of a process.

`flock` blocks. Here the lock is tried up to `waits` times and given up with
the error of the lock; `waits` is a parameter of each call, so a call may wait
for as long as a run lasts.
-/
import Agenthicc.Library.Tasks
import Agenthicc.Runners.ProcessLease

namespace Agenthicc.Runners

open Python Tasks

/-! ## 1. The platform -/

/-- What a session owner record takes from the system: `uuid4().hex` and
`time.time()` by the number of operations before, and `str.isprintable`. -/
structure SessionPlatform extends Platform where
  uuid4_hex : Nat → String
  time : Nat → PyFloat
  isprintable : Char → Bool
  /-- The text of an `InterProcessLockError`. -/
  lock_error : String
  hex_length : ∀ n, (uuid4_hex n).length = 32
  hex_chars : ∀ n, ∀ c ∈ (uuid4_hex n).toList, c.isDigit ∨ c ∈ "abcdef".toList
  time_finite : ∀ n, (time n).text ∉ specialFloats
  printable_ascii : ∀ c : Char, 32 ≤ c.toNat → c.toNat ≤ 126 → isprintable c
  hostname_nonempty : ∀ p, hostname p ≠ ""
  hostname_length : ∀ p, (hostname p).length ≤ 255
  hostname_printable : ∀ p, ∀ c ∈ (hostname p).toList, isprintable c
  pid_length : ∀ p, (intText (pid p)).length ≤ 20
  token_length : ∀ m p q state token,
    (toPlatform.os m p).processIdentity (pid q) = some (state, token) → token.length ≤ 512

/-! ## 2. Owner records -/

structure SessionOwnerInfo where
  session_id : String
  owner_id : String
  pid : Int
  host : String
  process_start_token : Option String
  acquired_at : PyFloat
  entrypoint : String
  deriving DecidableEq

def SESSION_OWNER_SCHEMA_VERSION : Int := 1

/-- `to_mapping`. -/
def SessionOwnerInfo.toMapping (info : SessionOwnerInfo) : Payload :=
  [("schema_version", .int SESSION_OWNER_SCHEMA_VERSION), ("session_id", .str info.session_id),
    ("owner_id", .str info.owner_id), ("pid", .int info.pid), ("host", .str info.host),
    ("acquired_at", .float info.acquired_at), ("entrypoint", .str info.entrypoint)]
    ++ match info.process_start_token with
      | some token => if token = "" then [] else [("process_start_token", .str token)]
      | none => []

variable (py : Interp) (plat : SessionPlatform) (session_id : String)

/-- A non-empty printable string of at most `limit` characters. -/
def boundedText (limit : Nat) : Option Json → Option String
  | some (.str text) =>
      if text ≠ "" ∧ text.length ≤ limit ∧ text.toList.all plat.isprintable then some text
      else none
  | _ => none

/-- An `int` above zero. -/
def positiveInt : Option Json → Option Int
  | some (.int n) => if 0 < n then some n else none
  | _ => none

/-- `float(value)` of an `int` or a `float`; `none` for another value. -/
def numberAsFloat : Option Json → Except PyError (Option PyFloat)
  | some (.int n) =>
      match py.floatOfInt n with
      | some x => .ok (some x)
      | none => .error (.raised "OverflowError" "int too large to convert to float")
  | some (.float x) => .ok (some x)
  | _ => .ok none

/-- The start token of a record: absent, or a string of at most 512
characters. -/
def recordedToken : Option Json → Option (Option String)
  | none | some .null => some none
  | some (.str token) => if token.length ≤ 512 then some (some token) else none
  | some _ => none

/-- `SessionOwnerInfo.from_mapping`. -/
def fromMapping (value : Payload) : Except PyError (Option SessionOwnerInfo) :=
  if pyEq py ((Json.lookup "schema_version" value).getD .null)
      (.int SESSION_OWNER_SCHEMA_VERSION) = false
    ∨ Json.lookup "session_id" value ≠ some (.str session_id) then .ok none
  else
    match boundedText plat 256 (Json.lookup "owner_id" value),
        positiveInt (Json.lookup "pid" value),
        boundedText plat 255 (Json.lookup "host" value) with
    | some owner_id, some pid, some host => do
        match ← numberAsFloat py (Json.lookup "acquired_at" value) with
        | none => pure none
        | some acquired_at =>
            if acquired_at.text ∈ specialFloats then pure none
            else
              match boundedText plat 32 (Json.lookup "entrypoint" value),
                  recordedToken (Json.lookup "process_start_token" value) with
              | some entrypoint, some process_start_token =>
                  pure (some { session_id := session_id, owner_id := owner_id, pid := pid,
                               host := host, process_start_token := process_start_token,
                               acquired_at := acquired_at, entrypoint := entrypoint })
              | _, _ => pure none
    | _, _, _ => .ok none

/-! ## 3. The memory of a process -/

/-- `_LocalLeaseState`; `serial` tells one object from another. -/
structure LocalLease where
  serial : Nat
  owner_id : String
  references : Nat
  deriving DecidableEq

/-- A `SessionOwnerLease` that was not released. -/
structure SessionHandle where
  id : Nat
  serial : Nat
  owner_id : String
  deriving DecidableEq

/-- What `_PROCESS_LEASES` has for the session, and the handles of the process
that were not released. -/
structure Memory where
  lease : Option LocalLease := none
  handles : List SessionHandle := []
  deriving DecidableEq

/-- Another reference to the lease. -/
def Memory.attach (m : Memory) (id : Nat) : Memory :=
  match m.lease with
  | some lease =>
      { lease := some { lease with references := lease.references + 1 }
        handles := { id := id, serial := lease.serial, owner_id := lease.owner_id } :: m.handles }
  | none => m

def Memory.install (m : Memory) (id : Nat) (owner_id : String) : Memory where
  lease := some { serial := id, owner_id := owner_id, references := 1 }
  handles := { id := id, serial := id, owner_id := owner_id } :: m.handles

/-- `SessionOwnerLease.release` and `_release` up to the lock; the owner ID of
the lease if this was its last reference. -/
def Memory.release (m : Memory) (id : Nat) : Memory × Option String :=
  match m.handles.find? (·.id = id) with
  | none => (m, none)
  | some handle =>
      let handles := m.handles.eraseP (·.id = id)
      match m.lease with
      | none => ({ m with handles := handles }, none)
      | some lease =>
          if lease.serial ≠ handle.serial then ({ m with handles := handles }, none)
          else if 0 < lease.references - 1 then
            ({ lease := some { lease with references := lease.references - 1 }
               handles := handles }, none)
          else ({ lease := none, handles := handles }, some lease.owner_id)

/-! ## 4. The store -/

structure SessionStore where
  machine : Machine := {}
  directory : Bool := false
  owner : Option OwnedFile := none
  /-- Who has the owner lock. -/
  guard : Option Nat := none
  memory : Nat → Memory := fun _ => {}

inductive SessionOp where
  | isDir
  | mkdir
  /-- `_PROCESS_LEASES.get` and `_PROCESS_LEASES.pop`. -/
  | lease
  | pop
  | attach
  | self
  /-- `uuid.uuid4().hex` and `time.time()`. -/
  | draw
  | lock
  | unlock
  | publish (payload : Payload)
  | read
  | alive (payload : Payload)
  /-- `unlink`, by a release or to reclaim the record of `owner_id`. -/
  | unlink (owner_id : String) (release : Bool)
  | install (owner_id : String)
  | release (id : Nat)

abbrev SessionOp.Reply : SessionOp → Type
  | .isDir | .lock | .publish _ | .unlink _ _ => Bool
  | .lease => Option LocalLease
  | .attach | .install _ => Nat
  | .self => Self
  | .draw => String × PyFloat
  | .read => Option OwnedFile
  | .alive _ => Except PyError Bool
  | .release _ => Option String
  | .mkdir | .pop | .unlock => Unit

def SessionStore.withMemory (s : SessionStore) (p : Nat) (m : Memory) : SessionStore :=
  { s with memory := Function.update s.memory p m }

/-- What an operation does, apart from the clock. -/
def SessionStore.apply (p : Nat) (s : SessionStore) : (o : SessionOp) → SessionStore × o.Reply
  | .isDir => (s, s.directory)
  | .mkdir => ({ s with directory := true }, ())
  | .lease => (s, (s.memory p).lease)
  | .pop => (s.withMemory p { s.memory p with lease := none }, ())
  | .attach => (s.withMemory p ((s.memory p).attach s.machine.clock), s.machine.clock)
  | .self => (s, plat.self s.machine p)
  | .draw => (s, plat.uuid4_hex s.machine.clock, plat.time s.machine.clock)
  | .lock => if s.guard = none then ({ s with guard := some p }, true) else (s, false)
  | .unlock => (if s.guard = some p then { s with guard := none } else s, ())
  | .publish payload =>
      match s.owner with
      | none => ({ s with owner := some { content := .record payload, writer := some p } }, true)
      | some _ => (s, false)
  | .read => (s, s.owner)
  | .alive payload => (s, ownerAlive (plat.os s.machine p) payload)
  | .unlink _ _ => ({ s with owner := none }, s.owner.isSome)
  | .install owner_id =>
      (s.withMemory p ((s.memory p).install s.machine.clock owner_id), s.machine.clock)
  | .release id => (s.withMemory p ((s.memory p).release id).1, ((s.memory p).release id).2)

def performSession (p : Nat) (s : SessionStore) (o : SessionOp) : SessionStore × o.Reply :=
  { s with machine := s.machine.acts p }.apply plat p o

/-- A process that dies leaves the lock. -/
def sessionDied (p : Nat) (s : SessionStore) : SessionStore :=
  { s with
    machine := s.machine.dies p
    guard := if s.guard = some p then none else s.guard }

/-! ## 5. The calls -/

abbrev SessionProg (α : Type) := Task SessionOp SessionOp.Reply α

def storageError (message : String) : PyError := .raised "SessionStorageError" message

/-- `_safe_display`. -/
def safeDisplay (text : String) : String :=
  strTake 128 (String.ofList (text.toList.map fun c => if plat.isprintable c then c else '?'))

/-- `SessionAlreadyActiveError`. -/
def alreadyActive (owner : Option SessionOwnerInfo) (reason : String) : PyError :=
  let owner_text :=
    match owner with
    | some owner =>
        "pid=" ++ toString owner.pid ++ ", host=" ++ safeDisplay plat owner.host
          ++ ", entrypoint=" ++ safeDisplay plat owner.entrypoint
    | none => "unknown owner"
  .raised "SessionAlreadyActiveError" ("session " ++ py.strRepr session_id
    ++ " is already active (" ++ owner_text ++ "; reason=" ++ reason ++ ")")

/-- `SessionOwnerStore._validate_identifier`. -/
def validateSessionId : Except PyError Unit :=
  if session_id = "" ∨ session_id ∈ [".", ".."]
    ∨ session_id.toList.any (· ∈ ['/', '\\', '\x00'])
    ∨ (session_id.toList.any fun c => !plat.isprintable c) ∨ session_id.length > 256 then
    .error (.valueError "session_id must be a non-empty safe identifier")
  else .ok ()

def entrypointChars : List Char := "abcdefghijklmnopqrstuvwxyz0123456789-_".toList

/-- `_validate_entrypoint`. -/
def validateEntrypoint (entrypoint : String) : Except PyError Unit :=
  if entrypoint = "" ∨ entrypoint.length > 32
    ∨ (entrypoint.toList.any fun c => !entrypointChars.contains c) then
    .error (.valueError "entrypoint must be a short lowercase identifier")
  else .ok ()

/-- `with self._owner_guard(session_id)`. -/
def ownerGuard {α : Type} (body : SessionProg (Except PyError α)) :
    Nat → SessionProg (Except PyError α)
  | 0 => pure (.error (storageError ("cannot safely coordinate owner for session "
      ++ py.strRepr session_id ++ ": " ++ plat.lock_error)))
  | waits + 1 => do
      let locked ← Task.ask SessionOp.lock
      if locked then do
        let result ← body
        Task.ask SessionOp.unlock
        pure result
      else ownerGuard body waits

/-- `remove_if_owner`. -/
def removeIfOwner (owner_id : String) (release : Bool) : SessionProg (Except PyError Bool) := do
  let file ← Task.ask SessionOp.read
  match readJsonObject (file.map (·.content)) with
  | .error exc => pure (.error exc)
  | .ok none => pure (.ok false)
  | .ok (some payload) =>
      if Json.lookup "owner_id" payload ≠ some (.str owner_id) then pure (.ok false)
      else do
        let removed ← Task.ask (SessionOp.unlink owner_id release)
        pure (.ok removed)

/-- The directory of the session. -/
def openDirectory (require_existing : Bool) : SessionProg (Except PyError Unit) :=
  if require_existing then do
    let is_dir ← Task.ask SessionOp.isDir
    if is_dir then do
      Task.ask SessionOp.mkdir
      pure (.ok ())
    else pure (.error (storageError ("session " ++ py.strRepr session_id ++ " was not found")))
  else do
    Task.ask SessionOp.mkdir
    pure (.ok ())

/-- The lease that the process has already. -/
def reuseLease : SessionProg (Except PyError (Option Nat)) := do
  match ← Task.ask SessionOp.lease with
  | none => pure (.ok none)
  | some lease => do
      let file ← Task.ask SessionOp.read
      match readJsonObject (file.map (·.content)) with
      | .error exc => pure (.error exc)
      | .ok none => do
          Task.ask SessionOp.pop
          pure (.ok none)
      | .ok (some current) =>
          if Json.lookup "owner_id" current = some (.str lease.owner_id) then do
            let handle ← Task.ask SessionOp.attach
            pure (.ok (some handle))
          else do
            Task.ask SessionOp.pop
            pure (.ok none)

/-- The attempts of `acquire`, under the lock. -/
def publishOwner (info : SessionOwnerInfo) : Nat → SessionProg (Except PyError Nat)
  | 0 => pure (.error (storageError ("could not acquire owner lease for "
      ++ py.strRepr session_id)))
  | attempts + 1 => do
      let published ← Task.ask (SessionOp.publish info.toMapping)
      if published then do
        let handle ← Task.ask (SessionOp.install info.owner_id)
        pure (.ok handle)
      else do
        let file ← Task.ask SessionOp.read
        match readJsonObject (file.map (·.content)) with
        | .error exc => pure (.error exc)
        | .ok none => publishOwner info attempts
        | .ok (some existing_payload) =>
            match fromMapping py plat session_id existing_payload with
            | .error exc => pure (.error exc)
            | .ok none => pure (.error (alreadyActive py plat session_id none "owner_unverifiable"))
            | .ok (some existing) => do
                match ← Task.ask (SessionOp.alive existing_payload) with
                | .error exc => pure (.error exc)
                | .ok true =>
                    pure (.error (alreadyActive py plat session_id (some existing) "live_owner"))
                | .ok false => do
                    match ← removeIfOwner existing.owner_id false with
                    | .error exc => pure (.error exc)
                    | .ok _ => publishOwner info attempts

/-- The record of a new owner. -/
def newOwner (entrypoint : String) (self : Self) (draw : String × PyFloat) : SessionOwnerInfo where
  session_id := session_id
  owner_id := entrypoint ++ ":" ++ String.ofList (intText self.pid) ++ ":" ++ draw.1
  pid := self.pid
  host := self.hostname
  process_start_token := self.identity.map Prod.snd
  acquired_at := draw.2
  entrypoint := entrypoint

/-- `acquire`, from `_PROCESS_LEASES` on. -/
def acquireLease (entrypoint : String) (waits : Nat) : SessionProg (Except PyError Nat) := do
  match ← reuseLease with
  | .error exc => pure (.error exc)
  | .ok (some handle) => pure (.ok handle)
  | .ok none => do
      let self ← Task.ask SessionOp.self
      let draw ← Task.ask SessionOp.draw
      ownerGuard py plat session_id
        (publishOwner py plat session_id (newOwner session_id entrypoint self draw) 3) waits

/-- `acquire`: the ID of the new handle. -/
def acquire (entrypoint : String) (require_existing : Bool) (waits : Nat) :
    SessionProg (Except PyError Nat) :=
  match (do validateSessionId plat session_id; validateEntrypoint entrypoint :
      Except PyError Unit) with
  | .error exc => pure (.error exc)
  | .ok () => do
      match ← openDirectory py session_id require_existing with
      | .error exc => pure (.error exc)
      | .ok () => acquireLease py plat session_id entrypoint waits

/-- `SessionOwnerLease.release`. -/
def release (id waits : Nat) : SessionProg (Except PyError Unit) := do
  match ← Task.ask (SessionOp.release id) with
  | none => pure (.ok ())
  | some owner_id => do
      match ← ownerGuard py plat session_id (removeIfOwner owner_id true) waits with
      | .error (.raised "SessionStorageError" _) => pure (.ok ())
      | .error exc => pure (.error exc)
      | .ok _ => pure (.ok ())

/-! ## 6. The system -/

/-- The calls of a process. -/
inductive SessionJob where
  | acquire (entrypoint : String) (require_existing : Bool) (waits : Nat)
  | release (id waits : Nat)

def SessionJob.prog : SessionJob → SessionProg Unit
  | .acquire entrypoint require_existing waits =>
      Task.forget (Runners.acquire py plat session_id entrypoint require_existing waits)
  | .release id waits => Task.forget (Runners.release py plat session_id id waits)

def sessionSystem : System SessionOp SessionOp.Reply SessionStore SessionJob where
  perform := performSession plat
  job := SessionJob.prog py plat session_id
  died := sessionDied

/-- The owner record that a run starts with, left from before. -/
def sessionStart (content : Option FileContent) :
    World SessionOp SessionOp.Reply SessionStore where
  state := {
    directory := content.isSome
    owner := content.map fun content => { content := content, writer := none } }

/-- Any number of processes on one session. -/
def sessionsWorld (content : Option FileContent) (actions : List (Action SessionJob)) :
    World SessionOp SessionOp.Reply SessionStore :=
  (sessionSystem py plat session_id).run (sessionStart content) actions

end Agenthicc.Runners
