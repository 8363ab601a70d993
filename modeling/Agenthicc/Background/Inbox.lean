/-
Agenthicc.Background.Inbox — the operator inbox: its rows, its transactions,
and the methods built from them.

An SQLite transaction is one operation, and so is a section of the registry
lock with the transaction inside it; a read of a session outside the lock is
an operation of its own. A column of JSON text is here the object it encodes.
`returned` marks what `wait_for_answer` returns.

Left out: `pending_summary`, and the schema version and the checks of `_parse`
on columns that no writer produces.
-/
import Agenthicc.Background.Model
import Agenthicc.Library.Table
import Agenthicc.Library.Tasks
import Agenthicc.Python.JsonLines
import Mathlib.Data.Rat.Defs
import Mathlib.Algebra.Order.Ring.Rat

namespace Agenthicc.Background.Inbox

open Python Tables Tasks

/-! ## 1. Items -/

abbrev Payload := List (String × Json)

inductive InboxKind where
  | approval | question | input
  deriving DecidableEq

inductive InboxStatus where
  | publishing | pending | accepted | delivered | rejected | expired | stale | failed
  deriving DecidableEq

instance : StrEnum InboxKind where
  members := [.approval, .question, .input]
  value
    | .approval => "approval"
    | .question => "question"
    | .input => "input"
  complete a := by cases a <;> decide
  injective a b h := by cases a <;> cases b <;> first | rfl | exact absurd h (by decide)

instance : StrEnum InboxStatus where
  members := [.publishing, .pending, .accepted, .delivered, .rejected, .expired, .stale, .failed]
  value
    | .publishing => "publishing"
    | .pending => "pending"
    | .accepted => "accepted"
    | .delivered => "delivered"
    | .rejected => "rejected"
    | .expired => "expired"
    | .stale => "stale"
    | .failed => "failed"
  complete a := by cases a <;> decide
  injective a b h := by cases a <;> cases b <;> first | rfl | exact absurd h (by decide)

/-- A row of `inbox_items`. -/
structure InboxItem where
  item_id : String
  session_id : String
  attempt : Int
  request_id : String
  owner_hash : String
  kind : InboxKind
  created_at : ℚ
  expires_at : Option ℚ
  target : Payload
  status : InboxStatus := .publishing
  version : Nat := 1
  required_scope : String := "control"
  project_root : String
  workspace : String
  response : Option Payload := none
  response_hash : Option String := none
  resolution : String := ""
  updated_at : ℚ

/-- A row of `inbox_idempotency`. -/
structure IdempotencyKey where
  item_id : String
  idempotency_key : String
  response_hash : String
  deriving DecidableEq

abbrev IdempotencyKey.key (k : IdempotencyKey) : String × String := (k.item_id, k.idempotency_key)

/-- What the inbox reads of a `BackgroundSession`. -/
structure Session where
  status : SessionStatus
  attempt : Int
  lease_token : String
  approval_item_id : String := ""
  input_item_id : String := ""
  approval_decision : Option Bool := none
  input_value : Option String := none
  cwd : String := ""
  deriving DecidableEq

def Session.of (s : BackgroundSession) : Session where
  status := s.status
  attempt := s.attempt
  lease_token := s.lease_token
  approval_item_id := s.value .approval_item_id
  input_item_id := s.value .input_item_id
  approval_decision := s.value .approval_decision
  input_value := s.value .input_value
  cwd := s.value .cwd

/-- The interpreter, `sha256(…).hexdigest()`, `Path(…).expanduser().resolve()`,
the `name` of a path, and `time.time()` by the number of operations before. -/
structure Env where
  py : Interp
  sha256 : String → String
  resolve : String → String
  path_name : String → String
  time : Nat → ℚ

structure Store where
  items : Table InboxItem String (·.item_id) := Table.empty
  keys : Table IdempotencyKey (String × String) IdempotencyKey.key := Table.empty
  sessions : String → Option Session
  ticks : Nat := 0
  /-- What `wait_for_answer` has returned, for which item. -/
  returns : List (String × Option Payload) := []

def conflict (message : String) : PyError := .raised "InboxConflict" message

def invalidTransition (message : String) : PyError := .raised "InvalidSessionTransition" message

def MAX_TARGET_BYTES : Nat := 64000

def MAX_RESPONSE_BYTES : Nat := 64000

variable (env : Env)

/-- `stable_item_id`. -/
def stableItemId (session_id : String) (attempt : Int) (request_id : String) : String :=
  "inbox_" ++ strTake 32 (env.sha256 (session_id ++ "\x00" ++ String.ofList (intText attempt)
    ++ "\x00" ++ request_id))

/-- `workspace_name`. -/
def workspaceName (project_root : String) : String :=
  let name := env.path_name (String.ofList
    (project_root.toList.reverse.dropWhile (· ∈ ['/', '\\'])).reverse)
  if name = "" then "workspace" else name

/-- `_owner_hash`. -/
def ownerHash (session : Session) : String := env.sha256 session.lease_token

mutual
/-- The value with the keys of every object in order. -/
def sortKeys : Json → Json
  | .arr items => .arr (sortItems items)
  | .obj kvs => .obj ((sortPairs kvs).insertionSort fun a b => a.1 ≤ b.1)
  | v => v
def sortItems : List Json → List Json
  | [] => []
  | v :: vs => sortKeys v :: sortItems vs
def sortPairs : Payload → Payload
  | [] => []
  | (k, v) :: kvs => (k, sortKeys v) :: sortPairs kvs
end

/-- `json.dumps(…, ensure_ascii=False, sort_keys=True)`. -/
def canonicalText (kvs : Payload) : String := String.ofList (rawDumps (sortKeys (.obj kvs)))

/-! ## 2. Who an item waits for -/

/-- The status of a session that waits for an item of the kind. -/
def waitingStatus : InboxKind → SessionStatus
  | .approval => .waitingApproval
  | .question | .input => .waitingInput

/-- The item that a session names for the kind. -/
def currentItemId (session : Session) : InboxKind → String
  | .approval => session.approval_item_id
  | .question | .input => session.input_item_id

/-- `_assert_current`, with the text of the `InboxConflict` that it raises. -/
def assertCurrent (session : Session) (item : InboxItem) : Except String Unit :=
  if session.status = .deleted then .error "deleted sessions cannot receive inbox answers"
  else if session.status ≠ waitingStatus item.kind ∨ session.attempt ≠ item.attempt
      ∨ currentItemId session item.kind ≠ item.item_id
      ∨ ownerHash env session ≠ item.owner_hash then
    .error "inbox item is stale; its operation is no longer waiting"
  else .ok ()

/-- `_assert_current` on the session of the item, with the text of what is
raised: that of a `KeyError` is the `repr` of the key. -/
def currentOwner (session : Option Session) (item : InboxItem) : Except String Unit :=
  match session with
  | none => .error (env.py.strRepr item.session_id)
  | some session => assertCurrent env session item

/-! ## 3. Responses -/

def mappingKeys (kvs : Payload) : List String := kvs.map Prod.fst

/-- `set(a) == set(b)`. -/
def sameMembers (a b : List String) : Bool := a.all b.contains && b.all a.contains

def approvalFields : List String :=
  ["allowed", "remember", "remember_all", "scope_grant", "message", "mode"]

/-- What `_validate_response` raises. -/
inductive Invalid where
  | value (message : String)
  | type (message : String)

def Invalid.toPyError : Invalid → PyError
  | .value message => .valueError message
  | .type message => .typeError message

def invalid {α : Type} (message : String) : Except Invalid α := .error (.value message)

/-- `scope is not None and scope not in {…}`. -/
def scopeInvalid : Json → Except Invalid Bool
  | .null => .ok false
  | .arr _ => .error (.type "unhashable type: 'list'")
  | .obj _ => .error (.type "unhashable type: 'dict'")
  | scope => .ok (scope ∉ [Json.str "target_once", .str "target_turn", .str "target_session"])

/-- `mode is not None`, and it is none of the advertised choices. -/
def modeInvalid (mode : Json) (options : Option Json) : Bool :=
  match mode with
  | .null => false
  | .str _ =>
      match options with
      | some (.arr choices) => !choices.isEmpty && !choices.any fun choice => pyEq env.py choice mode
      | _ => false
  | _ => true

/-- A flag of an approval, `False` where it is absent. -/
def rememberFlag (response : Payload) (key : String) : Except Invalid Bool :=
  match Json.lookup key response with
  | none => .ok false
  | some (.bool b) => .ok b
  | some _ => invalid "approval remember flags must be booleans"

/-- `_validate_response` of an approval. -/
def validateApproval (item : InboxItem) (response : Payload) : Except Invalid Unit := do
  if (mappingKeys response).any fun key => !approvalFields.contains key then
    invalid "approval response contains unsupported fields"
  let .bool allowed := (Json.lookup "allowed" response).getD .null
    | invalid "approval response requires boolean allowed"
  let remember ← rememberFlag response "remember"
  let remember_all ← rememberFlag response "remember_all"
  if ← scopeInvalid ((Json.lookup "scope_grant" response).getD .null) then
    invalid "approval scope_grant is invalid"
  if !allowed && (remember || remember_all) then
    invalid "a rejected approval cannot be remembered"
  match (Json.lookup "message" response).getD (.str "") with
  | .str message =>
      if message.length > 8000 then
        invalid "approval feedback must be a string up to 8000 characters"
  | _ => invalid "approval feedback must be a string up to 8000 characters"
  let mode := (Json.lookup "mode" response).getD .null
  if modeInvalid env mode (Json.lookup "mode_options" item.target) then
    invalid "approval mode is not one of the advertised choices"
  if mode ≠ .null && !allowed then
    invalid "a rejected approval cannot select an execution mode"

def jsonStr? : Json → Option String
  | .str s => some s
  | _ => none

/-- `_validate_response` of the answers to questions. -/
def validateQuestion (item : InboxItem) (response : Payload) : Except Invalid Unit :=
  if !sameMembers (mappingKeys response) ["answers"] then
    invalid "question response must contain an answers object"
  else
    match (Json.lookup "answers" response).getD .null with
    | .obj answers =>
        match (Json.lookup "question_ids" item.target).getD .null with
        | .arr question_ids =>
            match question_ids.mapM jsonStr? with
            | none => invalid "question item has invalid question IDs"
            | some ids =>
                if !sameMembers (mappingKeys answers) ids
                    || answers.any fun answer => (jsonStr? answer.2).isNone then
                  invalid "answers must contain one string for every requested question ID"
                else .ok ()
        | _ => invalid "question item has invalid question IDs"
    | _ => invalid "question response must contain an answers object"

/-- `_validate_response`. -/
def validateResponse (item : InboxItem) (response : Payload) : Except Invalid Unit :=
  match item.kind with
  | .approval => validateApproval env item response
  | .input =>
      if sameMembers (mappingKeys response) ["answer"]
          && (((Json.lookup "answer" response).bind jsonStr?).isSome) then .ok ()
      else invalid "input response must contain exactly one string answer"
  | .question => validateQuestion item response

/-- `response_from_text`; `none` is its `ValueError`. -/
def responseFromText (item : InboxItem) (text : String) : Option Payload :=
  if text.toList.all isSpace then none
  else
    match item.kind with
    | .input => some [("answer", .str text)]
    | .approval => none
    | .question =>
        let ids := match Json.lookup "question_ids" item.target with
          | some (.arr values) => values.filterMap jsonStr?
          | _ => []
        match ids with
        | [id] => some [("answers", .obj [(id, .str text)])]
        | _ =>
            match loads text.toList with
            | some (.obj value) => some [("answers", .obj value)]
            | _ => none

/-! ## 4. Transactions -/

def valueError {α : Type} (message : String) : Except PyError α := .error (.valueError message)

namespace InboxItem

/-- `SET status=?, version=version+1, updated_at=?`. -/
def moved (item : InboxItem) (status : InboxStatus) (now : ℚ) : InboxItem :=
  { item with status := status, version := item.version + 1, updated_at := now }

/-- The same, with a resolution. -/
def resolved (item : InboxItem) (status : InboxStatus) (reason : String) (now : ℚ) : InboxItem :=
  { item.moved status now with resolution := strTake 240 reason }

/-- `item.expires_at is not None and now >= item.expires_at`. -/
def overdue (item : InboxItem) (now : ℚ) : Bool :=
  match item.expires_at with
  | some expires_at => expires_at ≤ now
  | none => false

end InboxItem

namespace Store

def put (s : Store) (item : InboxItem) : Store := { s with items := s.items.set item }

/-- The transaction of `register`. -/
def insert (s : Store) (item : InboxItem) : Store × Except PyError InboxItem :=
  match s.items.find? item.item_id with
  | some row =>
      if row.session_id ≠ item.session_id ∨ row.attempt ≠ item.attempt
          ∨ row.request_id ≠ item.request_id ∨ row.kind ≠ item.kind
          ∨ pyEq env.py (.obj row.target) (.obj item.target) = false then
        (s, .error (conflict "stable inbox item ID was reused for different content"))
      else (s, .ok row)
  | none => (s.put item, .ok item)

/-- `activate`. -/
def activate (s : Store) (item_id : String) (now : ℚ) : Store × Except PyError InboxItem :=
  match s.items.find? item_id with
  | none => (s, .error (.keyError item_id))
  | some item =>
      if item.status = .publishing then (s.put (item.moved .pending now), .ok (item.moved .pending now))
      else (s, .ok item)

/-- The status of `set_terminal`. -/
inductive Terminal where
  | expired | stale | failed
  deriving DecidableEq

def Terminal.status : Terminal → InboxStatus
  | .expired => .expired
  | .stale => .stale
  | .failed => .failed

/-- The statuses that `set_terminal` leaves. -/
def Terminal.allowed : Terminal → List InboxStatus
  | .stale => [.pending, .publishing, .accepted]
  | .expired | .failed => [.pending, .publishing]

/-- `set_terminal`. -/
def setTerminal (s : Store) (item_id : String) (status : Terminal) (reason : String) (now : ℚ) :
    Store × Except PyError InboxItem :=
  match s.items.find? item_id with
  | none => (s, .error (.keyError item_id))
  | some item =>
      if item.status ∈ status.allowed then
        (s.put (item.resolved status.status reason now), .ok (item.resolved status.status reason now))
      else (s, .ok item)

/-- The status of `close_expired`. -/
inductive Closing where
  | delivered | rejected
  deriving DecidableEq

def Closing.status : Closing → InboxStatus
  | .delivered => .delivered
  | .rejected => .rejected

/-- `close_expired`. -/
def closeExpired (s : Store) (item_id : String) (status : Closing) (reason : String) (now : ℚ) :
    Store × Except PyError InboxItem :=
  match s.items.find? item_id with
  | none => (s, .error (.keyError item_id))
  | some item =>
      if item.status = .expired then
        (s.put (item.resolved status.status reason now), .ok (item.resolved status.status reason now))
      else (s, valueError ("inbox item is " ++ StrEnum.value item.status ++ ", not expired"))

/-- `mark_delivered`. -/
def markDelivered (s : Store) (item_id : String) (now : ℚ) : Store × Except PyError InboxItem :=
  match s.items.find? item_id with
  | none => (s, .error (.keyError item_id))
  | some item =>
      if item.status = .accepted then
        let status : InboxStatus :=
          match item.response.bind (Json.lookup "allowed") with
          | some (.bool false) => .rejected
          | _ => .delivered
        (s.put (item.moved status now), .ok (item.moved status now))
      else (s, .ok item)

/-- The checks of `respond` and `expire` on their arguments. -/
def validateCall (expected_version : Int) (idempotency_key : String) : Except PyError Unit :=
  if idempotency_key = "" ∨ idempotency_key.length > 256 then
    valueError "idempotency_key must be a non-empty bounded string"
  else if expected_version < 1 then valueError "expected_version must be a positive integer"
  else .ok ()

/-- `f"inbox item is {status} at version {version}"`. -/
def versionConflict (item : InboxItem) : PyError :=
  conflict ("inbox item is " ++ StrEnum.value item.status ++ " at version " ++ toString item.version)

/-- `respond`, inside the registry lock. -/
def respond (s : Store) (item_id : String) (response : Payload) (expected_version : Int)
    (idempotency_key : String) (now : ℚ) : Store × Except PyError (InboxItem × Bool) :=
  match validateCall expected_version idempotency_key with
  | .error exc => (s, .error exc)
  | .ok () =>
      if (canonicalText response).utf8ByteSize > MAX_RESPONSE_BYTES then
        (s, valueError "inbox response exceeds the size limit")
      else
        let response_hash := env.sha256 (canonicalText response)
        match s.items.find? item_id with
        | none => (s, .error (.keyError item_id))
        | some item =>
            match s.keys.find? (item_id, idempotency_key) with
            | some prior =>
                if prior.response_hash ≠ response_hash then
                  (s, .error (conflict
                    "idempotency key was already used for a different response"))
                else (s, .ok (item, true))
            | none =>
                if item.status ≠ .pending ∨ (item.version : Int) ≠ expected_version then
                  (s, .error (versionConflict item))
                else if item.overdue now then
                  (s.put (item.resolved .expired "expired before response" now),
                    .error (conflict "inbox item expired before the response was accepted"))
                else
                  match validateResponse env item response with
                  | .error exc => (s, .error exc.toPyError)
                  | .ok () =>
                      match currentOwner env (s.sessions item.session_id) item with
                      | .error reason =>
                          (s.put (item.resolved .stale reason now), .error (conflict reason))
                      | .ok () =>
                          let accepted := { item.moved .accepted now with
                            response := some response, response_hash := some response_hash }
                          ({ s.put accepted with
                             keys := s.keys.set { item_id := item_id
                                                  idempotency_key := idempotency_key
                                                  response_hash := response_hash } },
                            .ok (accepted, false))

/-- The text that `expire` hashes. -/
def expiryText (reason : String) : String :=
  String.ofList (dumps (.obj [("expire", .bool true), ("reason", .str (strTake 240 reason))]))

/-- `expire`, inside the registry lock. -/
def expire (s : Store) (item_id : String) (expected_version : Int) (idempotency_key reason : String)
    (now : ℚ) : Store × Except PyError InboxItem :=
  match validateCall expected_version idempotency_key with
  | .error exc => (s, .error exc)
  | .ok () =>
      let expiry_hash := env.sha256 (expiryText reason)
      match s.items.find? item_id with
      | none => (s, .error (.keyError item_id))
      | some item =>
          match s.keys.find? (item_id, idempotency_key) with
          | some prior =>
              if prior.response_hash ≠ expiry_hash then
                (s, .error (conflict
                  "idempotency key was already used for a different operation"))
              else (s, .ok item)
          | none =>
              if item.status ≠ .pending ∨ (item.version : Int) ≠ expected_version then
                (s, .error (versionConflict item))
              else
                match currentOwner env (s.sessions item.session_id) item with
                | .error reason =>
                    (s.put (item.resolved .stale reason now), .error (conflict reason))
                | .ok () =>
                    ({ s.put (item.resolved .expired reason now) with
                       keys := s.keys.set { item_id := item_id
                                            idempotency_key := idempotency_key
                                            response_hash := expiry_hash } },
                      .ok (item.resolved .expired reason now))

/-- The `SELECT` of `list_items` and `reconcile`. -/
structure Query where
  statuses : List InboxStatus
  project_root : Option String := none
  kind : Option InboxKind := none
  cutoff : Option ℚ := none
  limit : Option Nat := none

def Query.admits (query : Query) (item : InboxItem) : Bool :=
  query.statuses.contains item.status
    && (query.project_root.all (· = item.project_root))
    && (query.kind.all (· = item.kind))
    && (query.cutoff.all (item.created_at ≤ ·))

/-- `ORDER BY created_at ASC, item_id ASC`. -/
def older (a b : InboxItem) : Prop :=
  a.created_at < b.created_at ∨ (a.created_at = b.created_at ∧ a.item_id ≤ b.item_id)

instance : DecidableRel older := fun _ _ => inferInstanceAs (Decidable (_ ∨ _))

def select (s : Store) (query : Query) : List InboxItem :=
  let rows := s.items.rows.filter query.admits
  window older rows (query.limit.getD rows.length)

/-- The update of the transition of a running session to a waiting status. -/
def waiting (s : Store) (session_id : String) (kind : InboxKind) (item_id : String) :
    Store × Except PyError Unit :=
  match s.sessions session_id with
  | none => (s, .error (.keyError session_id))
  | some session =>
      if session.status ≠ .running then
        (s, .error (invalidTransition ("Expected " ++ StrEnum.value SessionStatus.running ++ ", found "
          ++ StrEnum.value session.status)))
      else
        ({ s with sessions := Function.update s.sessions session_id (some { session with
             status := waitingStatus kind
             approval_decision := none
             approval_item_id := if kind = .approval then item_id else ""
             input_value := none
             input_item_id := if kind = .approval then "" else item_id }) }, .ok ())

end Store

/-! ## 5. Operations -/

/-- The arguments of `register`. -/
structure Registration where
  session_id : String
  attempt : Int
  request_id : String
  kind : InboxKind
  target : Payload
  expires_at : Option ℚ

def Registration.validate (r : Registration) : Except PyError Unit :=
  if r.request_id = "" ∨ r.request_id.length > 256 then
    valueError "request_id must be a non-empty bounded identifier"
  else if r.session_id = "" ∨ r.session_id.length > 256 then
    valueError "session_id must be a non-empty bounded identifier"
  else if r.attempt < 1 then valueError "attempt must be a positive integer"
  else if (canonicalText r.target).utf8ByteSize > MAX_TARGET_BYTES then
    valueError "inbox target exceeds the size limit"
  else .ok ()

def Registration.item_id (r : Registration) : String :=
  stableItemId env r.session_id r.attempt r.request_id

/-- The session runs the attempt, or waits for the item already. -/
def Registration.fits (r : Registration) (current : Session) : Bool :=
  current.attempt = r.attempt && (current.status = .running
    || (current.status = waitingStatus r.kind && currentItemId current r.kind = r.item_id env))

/-- The row that `register` inserts. -/
def Registration.row (r : Registration) (current : Session) (created : ℚ) : InboxItem where
  item_id := r.item_id env
  session_id := r.session_id
  attempt := r.attempt
  request_id := r.request_id
  owner_hash := ownerHash env current
  kind := r.kind
  created_at := created
  expires_at := r.expires_at
  target := r.target
  project_root := env.resolve current.cwd
  workspace := workspaceName env (env.resolve current.cwd)
  updated_at := created

inductive Op where
  | time
  /-- `store.get(session_id, include_deleted=True)`. -/
  | session (session_id : String)
  /-- The same, where `reconcile` and `list_items` look up who owns an item. -/
  | owner (item : InboxItem)
  | row (item_id : String)
  | select (query : Store.Query)
  | insert (r : Registration) (current : Session) (created : ℚ)
  | activate (item_id : String) (now : ℚ)
  | setTerminal (item_id : String) (status : Store.Terminal) (reason : String) (now : ℚ)
  /-- The `set_terminal` of a waiter whose deadline is over. -/
  | giveUp (item_id reason : String) (now : ℚ)
  | closeExpired (item_id : String) (status : Store.Closing) (reason : String) (now : ℚ)
  | markDelivered (item_id : String) (now : ℚ)
  | respond (item_id : String) (response : Payload) (expected_version : Int)
      (idempotency_key : String) (now : ℚ)
  | expire (item_id : String) (expected_version : Int) (idempotency_key reason : String) (now : ℚ)
  | waiting (session_id : String) (kind : InboxKind) (item_id : String)
  /-- Any other write of the registry. -/
  | move (session_id : String) (session : Option Session)
  | returned (item_id : String) (answer : Option Payload)

abbrev Op.Reply : Op → Type
  | .time => ℚ
  | .session _ | .owner _ => Option Session
  | .row _ => Option InboxItem
  | .select _ => List InboxItem
  | .insert _ _ _ | .activate _ _ | .setTerminal _ _ _ _ | .giveUp _ _ _ | .closeExpired _ _ _ _
  | .markDelivered _ _ | .expire _ _ _ _ _ => Except PyError InboxItem
  | .respond _ _ _ _ _ => Except PyError (InboxItem × Bool)
  | .waiting _ _ _ => Except PyError Unit
  | .move _ _ | .returned _ _ => Unit

/-- What an operation does, apart from the clock. -/
def apply (s : Store) : (o : Op) → Store × o.Reply
  | .time => (s, env.time s.ticks)
  | .session session_id => (s, s.sessions session_id)
  | .owner item => (s, s.sessions item.session_id)
  | .row item_id => (s, s.items.find? item_id)
  | .select query => (s, s.select query)
  | .insert r current created => s.insert env (r.row env current created)
  | .activate item_id now => s.activate item_id now
  | .setTerminal item_id status reason now => s.setTerminal item_id status reason now
  | .giveUp item_id reason now => s.setTerminal item_id .expired reason now
  | .closeExpired item_id status reason now => s.closeExpired item_id status reason now
  | .markDelivered item_id now => s.markDelivered item_id now
  | .respond item_id response expected_version idempotency_key now =>
      s.respond env item_id response expected_version idempotency_key now
  | .expire item_id expected_version idempotency_key reason now =>
      s.expire env item_id expected_version idempotency_key reason now
  | .waiting session_id kind item_id => s.waiting session_id kind item_id
  | .move session_id session =>
      ({ s with sessions := Function.update s.sessions session_id session }, ())
  | .returned item_id answer => ({ s with returns := (item_id, answer) :: s.returns }, ())

def perform (_p : Nat) (s : Store) (o : Op) : Store × o.Reply :=
  apply env { s with ticks := s.ticks + 1 } o

/-! ## 6. Methods -/

abbrev Prog (α : Type) := Task Op Op.Reply α

/-- `time.time() if now is None else now`. -/
def currentTime : Option ℚ → Prog ℚ
  | some now => pure now
  | none => Task.ask Op.time

/-- `set_terminal`. -/
def setTerminal (item_id : String) (status : Store.Terminal) (reason : String) (now : Option ℚ) :
    Prog (Except PyError InboxItem) := do
  let current_time ← currentTime now
  Task.ask (Op.setTerminal item_id status reason current_time)

/-- `register`. -/
def register (r : Registration) (now : Option ℚ) : Prog (Except PyError InboxItem) :=
  match r.validate with
  | .error exc => pure (.error exc)
  | .ok () => do
      match ← Task.ask (Op.session r.session_id) with
      | none => pure (.error (.keyError r.session_id))
      | some current =>
          if r.fits env current then do
            let created ← currentTime now
            Task.ask (Op.insert r current created)
          else pure (.error (conflict "session attempt is no longer running"))

/-- `activate`. -/
def activate (item_id : String) : Prog (Except PyError InboxItem) := do
  let now ← Task.ask Op.time
  Task.ask (Op.activate item_id now)

/-- `respond`. -/
def respond (item_id : String) (response : Payload) (expected_version : Int)
    (idempotency_key : String) (now : Option ℚ) : Prog (Except PyError (InboxItem × Bool)) := do
  let current_time ← currentTime now
  Task.ask (Op.respond item_id response expected_version idempotency_key current_time)

/-- `expire`. -/
def expire (item_id : String) (expected_version : Int) (idempotency_key reason : String)
    (now : Option ℚ) : Prog (Except PyError InboxItem) := do
  let current_time ← currentTime now
  Task.ask (Op.expire item_id expected_version idempotency_key reason current_time)

/-- `mark_delivered`. -/
def markDelivered (item_id : String) (now : Option ℚ) : Prog (Except PyError InboxItem) := do
  let current_time ← currentTime now
  Task.ask (Op.markDelivered item_id current_time)

/-- `close_expired`. -/
def closeExpired (item_id : String) (status : Store.Closing) (reason : String) :
    Prog (Except PyError InboxItem) := do
  let current_time ← Task.ask Op.time
  Task.ask (Op.closeExpired item_id status reason current_time)

/-- Why an item has no current owner. The `KeyError` of a missing session has
a text of its own here. -/
def staleReason (session : Option Session) (item : InboxItem) : Option String :=
  match session with
  | none => some "owning session no longer exists"
  | some session =>
      match assertCurrent env session item with
      | .error reason => some reason
      | .ok () => none

/-- `_mark_if_stale`. -/
def markIfStale (item : InboxItem) : Prog (Except PyError Bool) := do
  match staleReason env (← Task.ask (Op.owner item)) item with
  | none => pure (.ok false)
  | some reason => do
      match ← setTerminal item.item_id .stale reason none with
      | .error exc => pure (.error exc)
      | .ok _ => pure (.ok true)

/-- The items without those whose session moved on. -/
def withoutStale : List InboxItem → Prog (Except PyError (List InboxItem))
  | [] => pure (.ok [])
  | item :: items =>
      if item.status ≠ .pending then do
        match ← withoutStale items with
        | .error exc => pure (.error exc)
        | .ok rest => pure (.ok (item :: rest))
      else do
        match ← markIfStale env item with
        | .error exc => pure (.error exc)
        | .ok stale => do
            match ← withoutStale items with
            | .error exc => pure (.error exc)
            | .ok rest => pure (.ok (if stale then rest else item :: rest))

/-- The arguments of `list_items`. -/
structure Listing where
  project_root : Option String := none
  item_type : Option String := none
  older_than_s : Option ℚ := none
  status : Option String := none
  limit : Int := 100
  now : Option ℚ := none

def Listing.validate (l : Listing) : Except PyError (Option InboxKind × Option InboxStatus) := do
  if ¬ (1 ≤ l.limit ∧ l.limit ≤ 500) then valueError "limit must be between 1 and 500"
  let kind ← match l.item_type with
    | none => pure none
    | some text =>
        match (StrEnum.ofValue? text : Option InboxKind) with
        | some kind => pure (some kind)
        | none => valueError "item_type must be approval, question, or input"
  let status ← match l.status with
    | none => pure none
    | some text =>
        match (StrEnum.ofValue? text : Option InboxStatus) with
        | some status => pure (some status)
        | none => valueError "unsupported inbox status"
  if l.older_than_s.any (· < 0) then valueError "older_than_s must be a non-negative number"
  pure (kind, status)

/-- `created_at<=?`. -/
def Listing.cutoff (l : Listing) : Prog (Option ℚ) :=
  match l.older_than_s with
  | none => pure none
  | some older_than_s => do
      let now ← currentTime l.now
      pure (some (now - older_than_s))

def Listing.query (l : Listing) (kind : Option InboxKind) (status : Option InboxStatus)
    (cutoff : Option ℚ) : Store.Query where
  statuses :=
    match status with
    | none => [.pending, .accepted]
    | some status => [status]
  project_root := l.project_root.map env.resolve
  kind := kind
  cutoff := cutoff
  limit := some l.limit.toNat

/-- `list_items`. -/
def listItems (l : Listing) : Prog (Except PyError (List InboxItem)) :=
  match l.validate with
  | .error exc => pure (.error exc)
  | .ok (kind, status) => do
      let cutoff ← l.cutoff
      let items ← Task.ask (Op.select (l.query env kind status cutoff))
      if status = none ∨ status = some .pending then withoutStale env items
      else pure (.ok items)

/-- `accepted_answer`: the response. -/
def acceptedAnswer (item_id : String) : Prog (Except PyError (Option Payload)) := do
  match ← Task.ask (Op.row item_id) with
  | none => pure (.ok none)
  | some item =>
      if item.status ≠ .accepted then pure (.ok none)
      else do
        match currentOwner env (← Task.ask (Op.session item.session_id)) item with
        | .error reason => do
            match ← setTerminal item_id .stale reason none with
            | .error exc => pure (.error exc)
            | .ok _ => pure (.ok none)
        | .ok () => pure (.ok item.response)

/-- What `reconcile` does with one row. -/
def reconcileRow (current_time : ℚ) (item : InboxItem) : Prog (Except PyError Unit) := do
  match staleReason env (← Task.ask (Op.owner item)) item with
  | some reason => do
      match ← setTerminal item.item_id .stale reason (some current_time) with
      | .error exc => pure (.error exc)
      | .ok _ => pure (.ok ())
  | none =>
      if item.overdue current_time && item.status = .pending then do
        match ← setTerminal item.item_id .expired "request deadline elapsed" (some current_time) with
        | .error exc => pure (.error exc)
        | .ok _ => pure (.ok ())
      else if item.status = .publishing then do
        match ← activate item.item_id with
        | .error exc => pure (.error exc)
        | .ok _ => pure (.ok ())
      else pure (.ok ())

/-- `reconcile`. -/
def reconcile (now : Option ℚ) : Prog (Except PyError Unit) := do
  let current_time ← currentTime now
  let rows ← Task.ask (Op.select { statuses := [.publishing, .pending, .accepted] })
  Task.each (reconcileRow env current_time) rows

/-! ## 7. Waiting for an answer -/

/-- The decision that an older supervisor left in the session. -/
def legacyResponse (session : Session) (item : InboxItem) : Option Payload :=
  match item.kind, session.approval_decision, session.input_value with
  | .approval, some decision, _ => some [("allowed", .bool decision)]
  | .input, _, some value | .question, _, some value => responseFromText item value
  | _, _, _ => none

/-- `try:` of a round of `wait_for_answer`; `some none` is its `return None`. -/
def adoptLegacy (item_id : String) : Prog (Except PyError (Option Unit)) := do
  match ← Task.ask (Op.row item_id) with
  | none => pure (.ok none)
  | some item => do
      match ← Task.ask (Op.session item.session_id) with
      | none => pure (.ok none)
      | some current =>
          if current.status = .cancelling ∨ current.status = .cancelled
              ∨ current.status = .deleted then do
            let _ ← setTerminal item_id .stale "owning session was cancelled or deleted" none
            pure (.ok none)
          else if current.status ≠ waitingStatus item.kind ∨ current.attempt ≠ item.attempt
              ∨ currentItemId current item.kind ≠ item.item_id then do
            let _ ← setTerminal item_id .stale "owning operation is no longer waiting" none
            pure (.ok none)
          else
            match legacyResponse current item, item.status with
            | some response, .pending => do
                match ← respond item_id response item.version ("legacy-" ++ item_id) none with
                | .error (.keyError _) => pure (.ok none)
                | .error (.typeError message) => pure (.error (.typeError message))
                | _ => pure (.ok (some ()))
            | _, _ => pure (.ok (some ()))

/-- The rest of a round: `none` goes on to the next, `some answer` returns. -/
def lookForAnswer (item_id : String) (deadline : Option ℚ) :
    Prog (Except PyError (Option (Option Payload))) := do
  match ← acceptedAnswer env item_id with
  | .error exc => pure (.error exc)
  | .ok (some answer) => pure (.ok (some (some answer)))
  | .ok none => do
      match ← Task.ask (Op.row item_id) with
      | none => pure (.ok (some none))
      | some item =>
          if item.status ∈ [.expired, .stale, .failed, .rejected, .delivered] then
            pure (.ok (some none))
          else
            match deadline with
            | none => pure (.ok none)
            | some deadline => do
                let now ← Task.ask Op.time
                if deadline ≤ now then do
                  let current_time ← Task.ask Op.time
                  match ← Task.ask (Op.giveUp item_id "request deadline elapsed" current_time) with
                  | .error exc => pure (.error exc)
                  | .ok _ => pure (.ok (some none))
                else pure (.ok none)

/-- `wait_for_answer`, for so many rounds; `none` if it waits still. -/
def waitForAnswer (item_id : String) (deadline : Option ℚ) :
    Nat → Prog (Except PyError (Option (Option Payload)))
  | 0 => pure (.ok none)
  | rounds + 1 => do
      match ← adoptLegacy item_id with
      | .error exc => pure (.error exc)
      | .ok none => do
          Task.ask (Op.returned item_id none)
          pure (.ok (some none))
      | .ok (some ()) => do
          match ← lookForAnswer env item_id deadline with
          | .error exc => pure (.error exc)
          | .ok (some answer) => do
              Task.ask (Op.returned item_id answer)
              pure (.ok (some answer))
          | .ok none => waitForAnswer item_id deadline rounds

/-! ## 8. The systems -/

/-- The calls of a process. -/
inductive Job where
  | register (r : Registration) (now : Option ℚ)
  | activate (item_id : String)
  | respond (item_id : String) (response : Payload) (expected_version : Int)
      (idempotency_key : String) (now : Option ℚ)
  | expire (item_id : String) (expected_version : Int) (idempotency_key reason : String)
      (now : Option ℚ)
  | setTerminal (item_id : String) (status : Store.Terminal) (reason : String) (now : Option ℚ)
  | markDelivered (item_id : String) (now : Option ℚ)
  | closeExpired (item_id : String) (status : Store.Closing) (reason : String)
  | reconcile (now : Option ℚ)
  | listItems (l : Listing)
  | acceptedAnswer (item_id : String)
  | waitForAnswer (item_id : String) (deadline : Option ℚ) (rounds : Nat)
  /-- A write of the registry that leaves any record, or none. -/
  | move (session_id : String) (session : Option Session)

def Job.prog : Job → Prog Unit
  | .register r now => Task.forget (Inbox.register env r now)
  | .activate item_id => Task.forget (Inbox.activate item_id)
  | .respond item_id response expected_version idempotency_key now =>
      Task.forget (Inbox.respond item_id response expected_version idempotency_key now)
  | .expire item_id expected_version idempotency_key reason now =>
      Task.forget (Inbox.expire item_id expected_version idempotency_key reason now)
  | .setTerminal item_id status reason now =>
      Task.forget (Inbox.setTerminal item_id status reason now)
  | .markDelivered item_id now => Task.forget (Inbox.markDelivered item_id now)
  | .closeExpired item_id status reason => Task.forget (Inbox.closeExpired item_id status reason)
  | .reconcile now => Task.forget (Inbox.reconcile env now)
  | .listItems l => Task.forget (Inbox.listItems env l)
  | .acceptedAnswer item_id => Task.forget (Inbox.acceptedAnswer env item_id)
  | .waitForAnswer item_id deadline rounds =>
      Task.forget (Inbox.waitForAnswer env item_id deadline rounds)
  | .move session_id session => Task.ask (Op.move session_id session)

def inboxSystem : System Op Op.Reply Store Job where
  perform := perform env
  job := Job.prog env
  died _ s := s

/-- The inbox on any registry, after the actions of any processes. -/
def inboxAfter (sessions : String → Option Session) (actions : List (Tasks.Action Job)) :
    World Op Op.Reply Store :=
  (inboxSystem env).run { state := { sessions := sessions } } actions

/-- What a worker asks for. -/
structure Request where
  session_id : String
  request_id : String
  kind : InboxKind
  target : Payload
  expires_at : Option ℚ
  deadline : Option ℚ

/-- The transition of a session to the status that waits for the item. -/
def transitionToWaiting (session_id : String) (kind : InboxKind) (item_id : String) :
    Prog (Except PyError Unit) := do
  match ← Task.ask (Op.session session_id) with
  | none => pure (.error (.keyError session_id))
  | some current =>
      if current.status = .deleted then
        pure (.error (invalidTransition "Deleted background sessions cannot change state"))
      else if current.status ≠ waitingStatus kind
          ∧ legalTransition current.status (waitingStatus kind) = false then
        pure (.error (invalidTransition ("Cannot transition " ++ StrEnum.value current.status
          ++ " → " ++ StrEnum.value (waitingStatus kind))))
      else Task.ask (Op.waiting session_id kind item_id)

/-- The publication of a request by `_wait_for_inbox_item`, and the wait for
its answer. -/
def requestAnswer (r : Request) (rounds : Nat) : Prog (Except PyError (Option Payload)) := do
  match ← Task.ask (Op.session r.session_id) with
  | none => pure (.error (.keyError r.session_id))
  | some current =>
      if current.status = .deleted then pure (.error (.keyError r.session_id))
      else do
        match ← register env { session_id := r.session_id, attempt := current.attempt,
                               request_id := r.request_id, kind := r.kind, target := r.target,
                               expires_at := r.expires_at } none with
        | .error exc => pure (.error exc)
        | .ok item => do
            match ← transitionToWaiting r.session_id r.kind item.item_id with
            | .error exc => pure (.error exc)
            | .ok () => do
                match ← activate item.item_id with
                | .error exc => do
                    let _ ← setTerminal item.item_id .failed "could not publish inbox request" none
                    pure (.error exc)
                | .ok _ => do
                    match ← waitForAnswer env item.item_id r.deadline rounds with
                    | .error exc => pure (.error exc)
                    | .ok answer => pure (.ok (answer.getD none))

/-- The calls of workers that publish requests, of clients that answer them,
and of processes that reconcile and list. -/
inductive PublicationJob where
  | request (r : Request) (rounds : Nat)
  | respond (item_id : String) (response : Payload) (expected_version : Int)
      (idempotency_key : String) (now : Option ℚ)
  | reconcile (now : Option ℚ)
  | listItems (l : Listing)

def PublicationJob.prog : PublicationJob → Prog Unit
  | .request r rounds => Task.forget (requestAnswer env r rounds)
  | .respond item_id response expected_version idempotency_key now =>
      Task.forget (Inbox.respond item_id response expected_version idempotency_key now)
  | .reconcile now => Task.forget (Inbox.reconcile env now)
  | .listItems l => Task.forget (Inbox.listItems env l)

def publicationSystem : System Op Op.Reply Store PublicationJob where
  perform := perform env
  job := PublicationJob.prog env
  died _ s := s

/-- Any number of publications on any registry. -/
def publicationAfter (sessions : String → Option Session)
    (actions : List (Tasks.Action PublicationJob)) : World Op Op.Reply Store :=
  (publicationSystem env).run { state := { sessions := sessions } } actions

end Agenthicc.Background.Inbox
