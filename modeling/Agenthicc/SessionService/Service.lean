/-
Agenthicc.SessionService.Service — the coordinator of the sessions.

Every method takes the service lock for all of its work, so a method is one
function on the whole service: its runtimes, its logs and what it has drawn of
identities and of the clock. A turn handler does nothing here but publish, as
any other client of the service.

Left out: the metadata index with the listings made from it, the inbox
methods, `ensure_session`, and the imports of kernel logs. Delivery to
subscribers is in `Subscriptions`.
-/
import Agenthicc.SessionService.Store
import Agenthicc.Python.Text
import Agenthicc.Python.Dict
import Mathlib.Logic.Function.Basic
import Mathlib.Data.List.Sort

namespace Agenthicc.SessionService

open Python

/-! ## 1. Redaction -/

/-- The characters that `(?i)` takes for a letter of the pattern. -/
def foldIgnoreCase (c : Char) : Char :=
  if c = 'İ' ∨ c = 'ı' then 'i' else if c = 'ſ' then 's' else if c = 'K' then 'k' else c.toLower

/-- The words of `_SENSITIVE`. -/
def sensitiveWords : List String :=
  ["password", "passwd", "token", "secret", "apikey", "api_key", "api-key", "authorization",
    "cookie", "privatekey", "private_key", "private-key"]

/-- `_SENSITIVE.search(key)`. -/
def isSensitive (key : String) : Bool :=
  sensitiveWords.any fun word => contains word.toList (key.toList.map foldIgnoreCase)

/-- A text of at most 64000 characters. -/
def bounded (s : String) : String :=
  if s.length > 64000 then strTake 63999 s ++ "…" else s

mutual
/-- `_redact` of a value under a key that is not sensitive. -/
def redact : Json → Json
  | .obj kvs => .obj (redactPairs kvs)
  | .arr xs => .arr (redactItems xs)
  | .str s => .str (bounded s)
  | .null => .null
  | .bool b => .bool b
  | .int n => .int n
  | .float x => .float x

def redactItems : List Json → List Json
  | [] => []
  | x :: xs => redact x :: redactItems xs

/-- `_redacted_mapping`. -/
def redactPairs : Payload → Payload
  | [] => []
  | (k, v) :: rest => (k, if isSensitive k then .str "<redacted>" else redact v) :: redactPairs rest
end

/-! ## 2. The projection of an event -/

/-- `_count(value)`. -/
def count (value : Option Json) : Int := (intOf? value).getD 0

/-- The value of a key that is a string of the list, else `none`. -/
def oneOf (value : Option Json) (allowed : List String) : Option Json :=
  match value with
  | some (.str s) => if s ∈ allowed then some (.str s) else none
  | _ => none

/-- `value is None or isinstance(value, bool)`: the value to store. -/
def optionalBool : Option Json → Option Json
  | none | some .null => some .null
  | some (.bool b) => some (.bool b)
  | some _ => none

/-- `isinstance(value, (list, tuple)) and bool(value)`. -/
def nonEmptyList : Option Json → Bool
  | some (.arr (_ :: _)) => true
  | _ => false

/-- `d[key] = value` where there is one. -/
def put (d : Payload) (key : String) : Option Json → Payload
  | some value => d ++ [(key, value)]
  | none => d

/-- `{key: value … if key != "secret"}`. -/
def withoutSecret (payload : Payload) : Payload := payload.filter fun kv => kv.1 ≠ "secret"

def sortedStrings (xs : List String) : List String := xs.insertionSort (· ≤ ·)

namespace SessionSnapshot

variable (s : SessionSnapshot) (payload : Payload)

def sessionCreated : SessionSnapshot :=
  { s with
    state := .idle
    project_root := (strOf? (payload.get "project_root")).getD s.project_root
    parent_session_id := (strOf? (payload.get "parent_session_id")).or s.parent_session_id
    capabilities := ((stringsOf? (payload.get "capabilities")).map sortedStrings).getD s.capabilities
    agent := (objOf? (payload.get "agent")).getD s.agent
    workflow := (objOf? (payload.get "workflow")).getD s.workflow }

/-- `queue["depth"] = …`. -/
def withDepth (depth : Int) : SessionSnapshot := { s with queue := s.queue ++ [("depth", .int depth)] }

def depth : Int := count (s.queue.get "depth")

/-- The turn of an event, or of its payload: `event.turn_id or …`. -/
def turnOf (turn_id : Option String) : Option String :=
  match turn_id with
  | some "" | none => (strOf? (payload.get "turn_id")).or s.active_turn_id
  | some turn_id => some turn_id

def turnBegins (turn_id : Option String) : SessionSnapshot :=
  { s with state := .running, active_turn_id := s.turnOf payload turn_id }

def turnEnds (state : SessionState) : SessionSnapshot :=
  { s with state := state, active_turn_id := none }.withDepth (max 0 (s.depth - 1))

def readinessChanged : SessionSnapshot :=
  let readiness := put s.readiness "provider_history_status"
    (oneOf (payload.get "provider_history_status")
      ["unknown", "ready", "repaired", "repair_required", "irrecoverable", "journal_corrupt"])
  let readiness := put readiness "provider_history_ready"
    (optionalBool (payload.get "provider_history_ready"))
  let readiness := put readiness "workflow_recovery_status"
    (oneOf (payload.get "workflow_recovery_status") ["unknown", "none", "resumable", "blocked"])
  let readiness := put readiness "workflow_resumable"
    (optionalBool (payload.get "workflow_resumable"))
  { s with readiness := put readiness "session_viewable" (some (.bool true)) }

/-- The two readiness values of the workflow. -/
def withWorkflow (status : String) (resumable : Json) : SessionSnapshot :=
  { s with readiness := s.readiness ++ [("workflow_recovery_status", .str status),
      ("workflow_resumable", resumable)] }

def recoveryAvailable : SessionSnapshot :=
  let found := count (payload.get "count")
  let has_invalid := nonEmptyList (payload.get "invalid_run_ids")
  s.withWorkflow (if found ≠ 0 then "resumable" else if has_invalid then "blocked" else "none")
    (.bool (found > 0))

/-- The `if`/`elif` chain of `_apply_event`. -/
def applyKind (kind : String) (turn_id : Option String) : SessionSnapshot :=
  if kind = "session_created" then s.sessionCreated payload
  else if kind = "turn_queued" then (s.turnBegins payload turn_id).withDepth (s.depth + 1)
  else if kind = "turn_started" then s.turnBegins payload turn_id
  else if kind = "turn_completed" then s.turnEnds .idle
  else if kind = "cancel_requested" then { s with state := .cancelled }
  else if kind = "turn_failed" then s.turnEnds .failed
  else if kind ∈ ["turn_cancelled", "cancelled"] then s.turnEnds .cancelled
  else if kind = "waiting_approval" then
    { s with state := .waitingApproval, approvals_pending := s.approvals_pending + 1 }
  else if kind = "waiting_question" then
    { s with state := .waitingQuestion, questions_pending := s.questions_pending + 1 }
  else if kind = "approval_resolved" then
    { s with
      state := .running
      approvals_pending := max 0 (s.approvals_pending - 1)
      questions_pending := max 0 s.questions_pending }
  else if kind = "answer_resolved" then
    { s with
      state := .running
      approvals_pending := max 0 s.approvals_pending
      questions_pending := max 0 (s.questions_pending - 1) }
  else if kind ∈ ["session_resumed", "retry_scheduled"] then { s with state := .running }
  else if kind ∈ ["session_archived", "session_deleted"] then { s with state := .archived }
  else if kind = "session_completed" then { s with state := .completed }
  else if kind = "workflow_phase_changed" then
    { s with workflow := s.workflow ++ withoutSecret payload }
  else if kind = "session_readiness_changed" then s.readinessChanged payload
  else if kind = "workflow_recovery_available" then s.recoveryAvailable payload
  else if kind = "workflow_paused_after_error" then s.withWorkflow "resumable" (.bool true)
  else if kind = "workflow_resume_started" then s.withWorkflow "unknown" .null
  else if kind ∈ ["workflow_run_completed", "workflow_discarded"] then
    s.withWorkflow "none" (.bool false)
  else if kind = "workflow_failure_diagnostic" then s.withWorkflow "blocked" (.bool false)
  else if kind = "agent_changed" then { s with agent := s.agent ++ withoutSecret payload }
  else if kind = "job_changed" then
    { s with background_jobs_running :=
        (intOf? (payload.get "running_count")).getD s.background_jobs_running }
  else if kind = "terminal_changed" then
    { s with terminals_running := (intOf? (payload.get "running_count")).getD s.terminals_running }
  else s

/-- `_apply_event`. -/
def applyEvent (event : SessionEvent) : SessionSnapshot :=
  { s.applyKind event.payload event.kind event.turn_id with
    updated_at := event.occurred_at
    last_event_sequence := max s.last_event_sequence event.sequence }

end SessionSnapshot

/-! ## 3. Runtimes -/

/-- What the service draws from outside: `uuid.uuid4().hex`, the clock, and
`str(Path(…).resolve())`. -/
structure Site where
  py : Interp
  uuid : Nat → String
  uuid_length : ∀ n, (uuid n).length = 32
  uuid_hex : ∀ n, ∀ c ∈ (uuid n).toList, c ∈ "0123456789abcdef".toList
  time : Nat → PyFloat
  resolve : String → String

/-- A site whose first identities differ. -/
def sampleSite : Site where
  py := plainInterp
  uuid n := String.ofList (List.replicate (min n 32) 'b' ++ List.replicate (32 - min n 32) 'a')
  uuid_length n := by
    rw [String.length_ofList, List.length_append, List.length_replicate, List.length_replicate]
    omega
  uuid_hex n c hc := by
    rw [String.toList_ofList, List.mem_append] at hc
    rcases hc with hc | hc
    · rw [List.eq_of_mem_replicate hc]
      decide
    · rw [List.eq_of_mem_replicate hc]
      decide
  time _ := .zero
  resolve path := path

structure Runtime where
  snapshot : SessionSnapshot
  events : List SessionEvent
  command_results : List (String × CommandResult)
  earliest_sequence : Int
  deleted : Bool := false

inductive Raised where
  | error (e : SessionError)
  | valueError (message : String)
  deriving DecidableEq

/-- The service, its logs, and every event that it has published. -/
structure World where
  files : Files := fun _ => none
  runtimes : String → Option Runtime := fun _ => none
  draws : Nat := 0
  published : List SessionEvent := []

variable (site : Site)

/-- `_initial_snapshot`, at a reading of the clock. -/
def initialSnapshot (session_id project_root : String) (parent_session_id : Option String)
    (capabilities : List String) (now : PyFloat) : SessionSnapshot where
  session_id := session_id
  project_root := site.resolve project_root
  created_at := now
  updated_at := now
  state := .created
  parent_session_id := parent_session_id
  capabilities := sortedStrings capabilities

/-- `bool(value)` of an optional value. -/
def truthOr (dflt : Bool) : Option Json → Bool
  | none => dflt
  | some v => pyTruth site.py v

/-- `str(value)` of an optional value. -/
def textOr (dflt : String) : Option Json → String
  | none => dflt
  | some v => pyStr site.py v

/-- The result in the payload of a `command_accepted`. -/
def restoredResult (payload : Payload) : Option (String × CommandResult) :=
  match strOf? (payload.get "idempotency_key"), objOf? (payload.get "result") with
  | some key, some result => some (key, {
      ok := truthOr site true (result.get "ok")
      command_id := textOr site "" (result.get "command_id")
      session_id := strOf? (result.get "session_id")
      code := textOr site "ok" (result.get "code")
      message := textOr site "" (result.get "message")
      data := (objOf? (result.get "data")).getD [] })
  | _, _ => none

/-- `_restore_command_result`. -/
def restoreCommandResult (results : List (String × CommandResult)) (event : SessionEvent) :
    List (String × CommandResult) :=
  if event.kind = "command_accepted" then
    match restoredResult site event.payload with
    | some (key, result) => assocSet key result results
    | none => results
  else results

/-- A round of the loop of `_runtime_from_events`. -/
def Runtime.replay (runtime : Runtime) (event : SessionEvent) : Runtime where
  snapshot := runtime.snapshot.applyEvent event
  events := runtime.events ++ [event]
  command_results := restoreCommandResult site runtime.command_results event
  earliest_sequence := runtime.earliest_sequence
  deleted := runtime.deleted || event.kind = "session_deleted"

/-- The runtime before its first event. -/
def startRuntime (first : SessionEvent) (now : PyFloat) : Runtime where
  snapshot := initialSnapshot site first.session_id
    ((strOf? (first.payload.get "project_root")).getD ".")
    (strOf? (first.payload.get "parent_session_id"))
    ((stringsOf? (first.payload.get "capabilities")).getD []) now
  events := []
  command_results := []
  earliest_sequence := first.sequence

/-- `_runtime_from_events`. -/
def runtimeFromEvents (now : PyFloat) : List SessionEvent → Option Runtime
  | [] => none
  | first :: rest => some ((first :: rest).foldl (Runtime.replay site) (startRuntime site first now))

/-! ## 4. The service -/

def notFound (session_id : String) : Raised :=
  .error { code := "not_found", message := "session not found: " ++ session_id, status := 404 }

namespace World

variable (w : World)

def setRuntime (key : String) (runtime : Runtime) : World :=
  { w with runtimes := Function.update w.runtimes key (some runtime) }

/-- A fresh identity, or a reading of the clock. -/
def drawn : World := { w with draws := w.draws + 1 }

/-- `_ensure_runtime_locked`. -/
def ensureRuntime (session_id : String) : World × Except Raised Runtime :=
  match w.runtimes session_id with
  | some runtime => (w, .ok runtime)
  | none =>
      match safeSessionId session_id with
      | none => (w, .error (.valueError "session_id must be a single relative identifier"))
      | some name =>
          match w.files name with
          | none => (w, .error (notFound session_id))
          | some text =>
              match runtimeFromEvents site (site.time w.draws) (iterEvents site.py text) with
              | none => (w, .error (notFound session_id))
              | some runtime => (w.drawn.setRuntime session_id runtime, .ok runtime)

end World

/-- The arguments of `_append_locked` and of `publish`. -/
structure Publication where
  source : String := "session_service"
  kind : String
  payload : Payload := []
  turn_id : Option String := none
  durability : EventDurability := .durable
  visibility : String := "session"

/-- The event of a publication in a session. -/
def Publication.event (p : Publication) (runtime : Runtime) (draw : Nat) : SessionEvent where
  event_id := "evt_" ++ site.uuid draw
  sequence := runtime.snapshot.last_event_sequence + 1
  session_id := runtime.snapshot.session_id
  turn_id := p.turn_id
  source := p.source
  kind := p.kind
  occurred_at := site.time draw
  durability := p.durability
  visibility := p.visibility
  payload := redactPairs p.payload

/-- What an event does to the live runtime. -/
def Runtime.appended (runtime : Runtime) (event : SessionEvent) : Runtime :=
  { runtime with
    snapshot := runtime.snapshot.applyEvent event
    events := runtime.events ++ [event]
    earliest_sequence :=
      if runtime.earliest_sequence = 0 then event.sequence else runtime.earliest_sequence }

namespace World

variable (w : World)

/-- `_append_locked` on the runtime under a key. -/
def appendLocked (key : String) (runtime : Runtime) (p : Publication) : World × Runtime :=
  let event := p.event site runtime w.draws
  let runtime := runtime.appended event
  ({ w.drawn.setRuntime key runtime with
      files := if p.durability = .durable then w.files.append event else w.files
      published := w.published ++ [event] }, runtime)

/-- `publish`. -/
def publish (session_id : String) (p : Publication) : World × Except Raised SessionEvent :=
  match w.ensureRuntime site session_id with
  | (w, .error raised) => (w, .error raised)
  | (w, .ok runtime) =>
      if runtime.deleted then (w, .error (notFound session_id))
      else
        ((w.appendLocked site session_id runtime p).1, .ok (p.event site runtime w.draws))

end World

/-- `_require`. -/
def requireCapability (capabilities : List String) (required : String) : Except Raised Unit :=
  if required ∉ capabilities ∧ "admin" ∉ capabilities then
    .error (.error {
      code := "forbidden"
      message := "client lacks " ++ site.py.strRepr required ++ " capability"
      status := 403 })
  else .ok ()

/-- `_project_payload`. -/
def projectPayload (payload : Payload) (capabilities : List String) : Payload :=
  if "private" ∉ capabilities ∧ "admin" ∉ capabilities then redactPairs payload else payload

/-- `_project_snapshot`. -/
def projectSnapshot (snapshot : SessionSnapshot) (capabilities : List String) :
    Except Raised SessionSnapshot := do
  requireCapability site capabilities "read"
  pure { snapshot with
    project_root := if "workspace" ∈ capabilities ∨ "admin" ∈ capabilities then
      snapshot.project_root else "<workspace>"
    workflow := projectPayload snapshot.workflow capabilities
    agent := projectPayload snapshot.agent capabilities }

/-- The arguments of `create_session`. -/
structure NewSession where
  project_root : String := "."
  client_id : String := "local"
  capabilities : List String := ["control", "read"]
  agent : Payload := []
  workflow : Payload := []
  parent_session_id : Option String := none

def NewSession.publication (n : NewSession) : Publication where
  kind := "session_created"
  payload := [("project_root", .str (site.resolve n.project_root)),
    ("client_id", .str n.client_id),
    ("capabilities", .arr ((sortedStrings n.capabilities).map .str)),
    ("agent", .obj n.agent), ("workflow", .obj n.workflow),
    ("parent_session_id", Json.ofOptStr n.parent_session_id)]

/-- The runtime of a session that has no events. -/
def emptyRuntime (snapshot : SessionSnapshot) : Runtime where
  snapshot := snapshot
  events := []
  command_results := []
  earliest_sequence := 1

/-- `f"sess_{uuid.uuid4().hex}"`. -/
def freshSessionId (draw : Nat) : String := "sess_" ++ site.uuid draw

namespace World

variable (w : World)

/-- `create_session`. -/
def createSession (n : NewSession) : World × Except Raised SessionSnapshot :=
  match requireCapability site n.capabilities "control" with
  | .error raised => (w, .error raised)
  | .ok () =>
      let session_id := freshSessionId site w.draws
      let runtime := emptyRuntime (initialSnapshot site session_id n.project_root
        n.parent_session_id n.capabilities (site.time w.draws))
      let (w, runtime) := w.drawn.appendLocked site session_id runtime (n.publication site)
      -- What the client gave, not what the event says.
      let runtime := { runtime with snapshot := { runtime.snapshot with
        agent := n.agent, workflow := n.workflow } }
      (w.setRuntime session_id runtime, projectSnapshot site runtime.snapshot n.capabilities)

end World

/-! ## 5. Commands -/

/-- What a command does before it is recorded: an event in its session, or
another session. -/
inductive Effect where
  | nothing (data : Payload)
  | event (p : Publication) (data : SessionSnapshot → Payload) (deletes : Bool := false)
  | fork

def invalidCommand (message : String) : Raised := .error { code := "invalid_command", message := message }

/-- The branches of `submit`, with the digits of the turn it may start. -/
def SessionCommand.effect (c : SessionCommand) (runtime : Runtime) (digits : String) :
    Except Raised Effect :=
  if c.kind = "attach" then do
    let snapshot ← projectSnapshot site runtime.snapshot c.capabilities
    pure (.nothing [("snapshot", .obj snapshot.toDict)])
  else if c.kind = "submit_message" then
    match c.payload.get "text" with
    | some (.str text) =>
        if strip text.toList = [] then
          .error (invalidCommand "submit_message requires non-empty text")
        else
          .ok (.event {
              kind := "turn_queued"
              payload := [("text", .str text), ("client_id", .str c.client_id)]
              turn_id := some ("turn_" ++ digits) }
            fun _ => [("accepted", .bool true), ("turn_id", .str ("turn_" ++ digits))])
    | _ => .error (invalidCommand "submit_message requires non-empty text")
  else if c.kind ∈ ["cancel", "interrupt"] then
    .ok (.event {
        kind := "cancel_requested"
        payload := [("client_id", .str c.client_id)]
        turn_id := runtime.snapshot.active_turn_id }
      fun _ => [("cancel_requested", .bool true)])
  else if c.kind ∈ ["approve", "reject"] then
    .ok (.event { kind := "approval_resolved", payload := c.payload }
      fun _ => [("resolved", .bool true)])
  else if c.kind = "answer" then
    .ok (.event { kind := "answer_resolved", payload := c.payload } fun _ => [("resolved", .bool true)])
  else if c.kind = "resume" then
    .ok (.event { kind := "session_resumed", payload := c.payload }
      fun snapshot => [("state", .str snapshot.state.value)])
  else if c.kind = "retry" then
    .ok (.event { kind := "retry_scheduled", payload := c.payload }
      fun snapshot => [("state", .str snapshot.state.value)])
  else if c.kind = "archive" then
    .ok (.event { kind := "session_archived" } fun _ => [("state", .str "archived")])
  else if c.kind = "invoke_command" then
    .ok (.event { kind := "command_invoked", payload := c.payload } fun _ => [("accepted", .bool true)])
  else if c.kind = "fork" then .ok .fork
  else if c.kind = "delete" then
    .ok (.event { kind := "session_deleted", payload := [("client_id", .str c.client_id)] }
      (fun _ => [("deleted", .bool true)]) true)
  else
    .error (.error {
      code := "unknown_command"
      message := "unknown session command: " ++ c.kind })

/-- The checks of `submit` on a command that was not accepted before. -/
def SessionCommand.admitted (c : SessionCommand) (session_id : String) (runtime : Runtime) :
    Except Raised Unit := do
  if runtime.deleted then throw (notFound session_id)
  requireCapability site c.capabilities (if c.kind = "attach" then "read" else "control")
  match c.expected_sequence with
  | some expected =>
      if expected ≠ runtime.snapshot.last_event_sequence then
        throw (.error {
          code := "stale_sequence"
          message := "expected sequence " ++ toString expected ++ ", current is "
            ++ toString runtime.snapshot.last_event_sequence
          status := 409 })
  | none => pure ()
  if runtime.snapshot.state = .archived ∧ c.kind ∉ ["attach", "resume"] then
    throw (.error {
      code := "invalid_state"
      message := "archived sessions accept only attach or resume" })

/-- The event that records the acceptance of a command. -/
def SessionCommand.acceptance (c : SessionCommand) (result : CommandResult) : Publication where
  kind := "command_accepted"
  payload := [("idempotency_key", .str c.idempotency_key), ("result", .obj result.toDict)]

/-- The first event of a forked session. -/
def SessionCommand.forked (c : SessionCommand) (runtime : Runtime) : Publication where
  kind := "session_created"
  payload := [("project_root", .str runtime.snapshot.project_root),
    ("parent_session_id", .str runtime.snapshot.session_id),
    ("forked_from_sequence", .int runtime.snapshot.last_event_sequence),
    ("capabilities", .arr ((sortedStrings c.capabilities).map .str))]

namespace World

variable (w : World)

/-- `_fork_locked`: the new session, whose identity it returns. -/
def forkLocked (c : SessionCommand) (runtime : Runtime) : World × String :=
  let child_id := freshSessionId site w.draws
  let child := emptyRuntime (initialSnapshot site child_id runtime.snapshot.project_root
    (some runtime.snapshot.session_id) c.capabilities (site.time w.draws))
  ((w.drawn.appendLocked site child_id child (c.forked runtime)).1, child_id)

/-- The effect of a command on its session: the runtime it leaves and the data
of the result. -/
def carryOut (key : String) (runtime : Runtime) (c : SessionCommand) :
    Effect → World × Runtime × Payload
  | .nothing data => (w, runtime, data)
  | .event p data deletes =>
      let (w, runtime) := w.appendLocked site key runtime p
      let runtime := { runtime with deleted := runtime.deleted || deletes }
      (w.setRuntime key runtime, runtime, data runtime.snapshot)
  | .fork =>
      let (w, child) := w.forkLocked site c runtime
      (w, runtime, [("session_id", .str child)])

/-- The record of an accepted command, in memory and in the log. -/
def record (key : String) (runtime : Runtime) (c : SessionCommand) (result : CommandResult) :
    World :=
  let runtime := { runtime with
    command_results := assocSet c.idempotency_key result runtime.command_results }
  (w.appendLocked site key runtime (c.acceptance result)).1

def submit (c : SessionCommand) : World × Except Raised CommandResult :=
  if c.session_id = "" then (w, .error (invalidCommand "session_id is required"))
  else
    match w.ensureRuntime site c.session_id with
    | (w, .error raised) => (w, .error raised)
    | (w, .ok runtime) =>
        match assocGet c.idempotency_key runtime.command_results with
        | some existing => (w, .ok { existing with replayed := true })
        | none =>
            match do
              c.admitted site c.session_id runtime
              c.effect site runtime (site.uuid w.draws) with
            | .error raised => (w, .error raised)
            | .ok effect =>
                let (w, runtime, data) := w.drawn.carryOut site c.session_id runtime c effect
                let result : CommandResult :=
                  { ok := true, command_id := c.command_id, session_id := some c.session_id, data := data }
                (w.record site c.session_id runtime c result, .ok result)

/-- A service that starts on the logs of another. -/
def restarted : World := { w with runtimes := fun _ => none }

end World

end Agenthicc.SessionService
