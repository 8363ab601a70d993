/-
Agenthicc.Runners.WorkflowClaim — the claim file of a workflow run, and the
calls of `WorkflowCheckpointStore` on it, at the granularity of single
operations on the file.

A file carries the process that wrote it, which no operation looks at.
`returned` and `releasing` mark where `acquire_claim` returns its claim and
where `release_claim` is called; between the two the caller holds the claim.
-/
import Agenthicc.Library.Tasks
import Agenthicc.Runners.ProcessLease

namespace Agenthicc.Runners

open Python Tasks

/-! ## 1. The claim file -/

structure ClaimStore where
  machine : Machine := {}
  claim : Option OwnedFile := none
  /-- Who has returned from `acquire_claim` and not called `release_claim`
  since, with the owner ID that it passed. -/
  holders : List (Nat × String) := []

inductive ClaimOp where
  /-- `os.getpid()`, `socket.gethostname()` and `process_identity(os.getpid())`. -/
  | self
  /-- `atomic_publish` of a record: a hard link that fails where the file
  exists. -/
  | publish (payload : Payload)
  | read
  | alive (payload : Payload)
  /-- `unlink`, after the file was seen. It is called to take over, or by a
  release, which found its own owner ID. -/
  | unlink (seen : Option OwnedFile) (release : Bool)
  /-- `acquire_claim` returns: it installed its claim, or it found its own
  owner ID in an existing one. -/
  | returned (owner_id : String) (existing : Option OwnedFile)
  | releasing (owner_id : String)

abbrev ClaimOp.Reply : ClaimOp → Type
  | .self => Self
  | .publish _ => Bool
  | .read => Option OwnedFile
  | .alive _ => Except PyError Bool
  | .unlink _ _ | .returned _ _ | .releasing _ => Unit

/-- What an operation does, apart from the clock. -/
def ClaimStore.apply (plat : Platform) (p : Nat) (s : ClaimStore) :
    (o : ClaimOp) → ClaimStore × o.Reply
  | .self => (s, plat.self s.machine p)
  | .publish payload =>
      match s.claim with
      | none => ({ s with claim := some { content := .record payload, writer := some p } }, true)
      | some _ => (s, false)
  | .read => (s, s.claim)
  | .alive payload => (s, ownerAlive (plat.os s.machine p) payload)
  | .unlink _ _ => ({ s with claim := none }, ())
  | .returned owner_id _ => ({ s with holders := (p, owner_id) :: s.holders }, ())
  | .releasing owner_id => ({ s with holders := s.holders.filter (· ≠ (p, owner_id)) }, ())

def performClaim (plat : Platform) (p : Nat) (s : ClaimStore) (o : ClaimOp) :
    ClaimStore × o.Reply := { s with machine := s.machine.acts p }.apply plat p o

def claimDied (p : Nat) (s : ClaimStore) : ClaimStore := { s with machine := s.machine.dies p }

/-! ## 2. The calls -/

abbrev ClaimProg (α : Type) := Task ClaimOp ClaimOp.Reply α

/-- `_validate_identifier`. -/
def validateIdentifier (value label : String) : Except PyError Unit :=
  if value = "" ∨ value ∈ [".", ".."] ∨ value.toList.any (· ∈ ['/', '\\', '\x00']) then
    .error (.valueError (label ++ " must be a non-empty safe identifier"))
  else .ok ()

/-- `_validate_owner`. -/
def validateOwner (value : String) : Except PyError Unit :=
  if value = "" ∨ '\x00' ∈ value.toList ∨ value.length > 256 then
    .error (.valueError "owner_id must be a non-empty bounded string")
  else .ok ()

variable (py : Interp) (run_id : String)

/-- `_claim_owner_description`. -/
def claimOwnerDescription (payload : Payload) : String :=
  let owner :=
    match Json.lookup "owner_id" payload with
    | some (.str owner) => if owner = "" then "unknown" else owner
    | _ => "unknown"
  let pid :=
    match Json.lookup "pid" payload with
    | some (.int pid) => toString pid
    | _ => "unknown"
  let host :=
    match Json.lookup "host" payload with
    | some (.str host) => if host = "" then "unknown host" else host
    | _ => "unknown host"
  "owner=" ++ py.strRepr owner ++ ", pid=" ++ pid ++ ", host=" ++ py.strRepr host

def claimConflict (payload : Payload) : PyError :=
  .raised "WorkflowClaimError" ("workflow run " ++ py.strRepr run_id
    ++ " is already claimed by another live owner (" ++ claimOwnerDescription py payload
    ++ "); close that agenthicc process or resume the run there before retrying")

/-- The record of a claim. -/
def claimPayload (owner_id : String) (created_at : PyFloat) (self : Self) : Payload :=
  [("owner_id", .str owner_id), ("pid", .int self.pid), ("host", .str self.hostname),
    ("created_at", .float created_at)]
    ++ match self.identity with
      | some (_, token) => [("process_start_token", .str token)]
      | none => []

/-- The attempts of `acquire_claim`. -/
def acquireAttempts (owner_id : String) (payload : Payload) : Nat → ClaimProg (Except PyError Unit)
  | 0 => pure (.error (.raised "WorkflowClaimError"
      ("could not claim workflow run " ++ py.strRepr run_id)))
  | attempts + 1 => do
      let installed ← Task.ask (ClaimOp.publish payload)
      if installed then do
        Task.ask (ClaimOp.returned owner_id none)
        pure (.ok ())
      else do
        let file ← Task.ask ClaimOp.read
        match readJsonObject (file.map (·.content)) with
        | .error exc => pure (.error exc)
        | .ok none => do
            Task.ask (ClaimOp.unlink file false)
            acquireAttempts owner_id payload attempts
        | .ok (some existing) => do
            match ← Task.ask (ClaimOp.alive existing) with
            | .error exc => pure (.error exc)
            | .ok false => do
                Task.ask (ClaimOp.unlink file false)
                acquireAttempts owner_id payload attempts
            | .ok true =>
                if Json.lookup "owner_id" existing = some (.str owner_id) then do
                  Task.ask (ClaimOp.returned owner_id file)
                  pure (.ok ())
                else pure (.error (claimConflict py run_id existing))

/-- `acquire_claim`. -/
def acquireClaim (owner_id : String) (created_at : PyFloat) : ClaimProg (Except PyError Unit) :=
  match (do validateIdentifier run_id "run_id"; validateOwner owner_id : Except PyError Unit) with
  | .error exc => pure (.error exc)
  | .ok () => do
      let self ← Task.ask ClaimOp.self
      acquireAttempts py run_id owner_id (claimPayload owner_id created_at self) 2

/-- `release_claim`. -/
def releaseClaim (owner_id : String) : ClaimProg (Except PyError Unit) :=
  match (do validateIdentifier run_id "run_id"; validateOwner owner_id : Except PyError Unit) with
  | .error exc => pure (.error exc)
  | .ok () => do
      Task.ask (ClaimOp.releasing owner_id)
      let file ← Task.ask ClaimOp.read
      match readJsonObject (file.map (·.content)) with
      | .error exc => pure (.error exc)
      | .ok none => pure (.ok ())
      | .ok (some existing) =>
          if Json.lookup "owner_id" existing ≠ some (.str owner_id) then pure (.ok ())
          else do
            Task.ask (ClaimOp.unlink file true)
            pure (.ok ())

/-- `claim_owner`. -/
def claimOwner : ClaimProg (Except PyError (Option String)) :=
  match validateIdentifier run_id "run_id" with
  | .error exc => pure (.error exc)
  | .ok () => do
      let file ← Task.ask ClaimOp.read
      match readJsonObject (file.map (·.content)) with
      | .error exc => pure (.error exc)
      | .ok none => pure (.ok none)
      | .ok (some payload) => do
          match ← Task.ask (ClaimOp.alive payload) with
          | .error exc => pure (.error exc)
          | .ok false => do
              Task.ask (ClaimOp.unlink file false)
              pure (.ok none)
          | .ok true =>
              match Json.lookup "owner_id" payload with
              | some (.str owner) => pure (.ok (some owner))
              | _ => pure (.ok none)

/-! ## 3. The system -/

/-- The calls of a process. -/
inductive ClaimJob where
  | acquire (owner_id : String) (created_at : PyFloat)
  | release (owner_id : String)
  | owner

def ClaimJob.prog : ClaimJob → ClaimProg Unit
  | .acquire owner_id created_at => Task.forget (acquireClaim py run_id owner_id created_at)
  | .release owner_id => Task.forget (releaseClaim run_id owner_id)
  | .owner => Task.forget (claimOwner run_id)

def claimSystem (plat : Platform) : System ClaimOp ClaimOp.Reply ClaimStore ClaimJob where
  perform := performClaim plat
  job := ClaimJob.prog py run_id
  died := claimDied

/-- The claim file that a run starts with, left by a process from before. -/
def claimStart (content : Option FileContent) : World ClaimOp ClaimOp.Reply ClaimStore where
  state := { claim := content.map fun content => { content := content, writer := none } }

/-- Any number of processes on the claim of one run. -/
def claimsAfter (plat : Platform) (content : Option FileContent)
    (actions : List (Action ClaimJob)) : ClaimStore :=
  ((claimSystem py run_id plat).run (claimStart content) actions).state

end Agenthicc.Runners
