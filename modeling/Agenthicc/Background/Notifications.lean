/-
Agenthicc.Background.Notifications — the notification outbox.

The outbox is a database with a table of events and a table of deliveries;
every operation is one transaction on it, and one that raises leaves it as it
was. The primary key and the unique pair of the deliveries are proofs that an
outbox carries. What an `UPDATE` may change of a delivery is its `state`.

A dispatcher claims a delivery, sends it (`deliverOne`, whose answer from the
network is an argument) and commits the result under the token of its claim. A
coordinator enqueues the descriptors of the journal, one after the other.

Left out: the desktop and HTTP calls themselves, the launch of the detached
dispatcher, and the listing for operators. Tokens are numbers; no two claims
draw the same.
-/
import Agenthicc.Background.Model
import Agenthicc.Python.SortedJson
import Agenthicc.Python.Floats

namespace Agenthicc.Background.Notifications

open Python

/-! ## 1. Descriptors -/

mutual
/-- `json.dumps(value, ensure_ascii=False, separators=(",", ":"))`. -/
def rawCompactDumps : Json → List Char
  | .str s => rawEncodeString s
  | .arr xs => '[' :: rawCompactItems true xs
  | .obj kvs => '\x7b' :: rawCompactPairs true kvs
  | v => dumps v
def rawCompactItems (first : Bool) : List Json → List Char
  | [] => [']']
  | x :: xs => separatorWith false first ++ (rawCompactDumps x ++ rawCompactItems false xs)
def rawCompactPairs (first : Bool) : List (String × Json) → List Char
  | [] => ['\x7d']
  | (k, v) :: kvs =>
      separatorWith false first
        ++ (rawEncodeString k ++ (':' :: (rawCompactDumps v ++ rawCompactPairs false kvs)))
end

/-- The arithmetic, the value of a float (`none` for an infinity or NaN),
`float(n)` (`none` for `OverflowError`), whether `_validate_https_url` accepts
a URL, and the seconds of a `Retry-After` header. -/
structure Env where
  arith : Rounding
  floatValue : PyFloat → Option ℚ
  floatOfInt : Int → Option ℚ
  validHttpsUrl : String → Bool
  retryAfterSeconds : String → ℚ → Option (WithBot (WithTop ℚ))

variable (env : Env)

abbrev Env.Clock := env.arith.Double

def NOTIFICATION_EVENT_TYPES : List String := ["agent_needs_input", "agent_finished", "agent_failed"]

def invalid (message : String) : PyError := .valueError message

/-- `_finite_float`. -/
def finiteFloat (value : Option Json) (default minimum maximum : ℚ) : Except PyError ℚ :=
  let bounded (parsed : Option ℚ) : ℚ :=
    match parsed with
    | some x => if minimum ≤ x ∧ x ≤ maximum then x else default
    | none => default
  match value with
  | some (.int n) =>
      match env.floatOfInt n with
      | some x => .ok (bounded (some x))
      | none => .error (.raised "OverflowError" "int too large to convert to float")
  | some (.float x) => .ok (bounded (env.floatValue x))
  | _ => .ok default

/-- `_bounded_int`. -/
def boundedInt (value : Option Json) (default minimum maximum : Int) : Int :=
  match value with
  | some (.int n) => if minimum ≤ n ∧ n ≤ maximum then n else default
  | _ => default

/-- `_object`. -/
def object : Option Json → List (String × Json)
  | some (.obj kvs) => kvs
  | _ => []

/-- `_SECRET_ENV.fullmatch`. -/
def secretEnvName (s : String) : Bool :=
  let pre := "AGENTHICC_WEBHOOK_".toList
  let rest := s.toList.drop pre.length
  pre.isPrefixOf s.toList && decide (1 ≤ rest.length) && decide (rest.length ≤ 240)
    && rest.all fun c => ('A' ≤ c && c ≤ 'Z') || ('a' ≤ c && c ≤ 'z') || ('0' ≤ c && c ≤ '9') || c == '_'

/-- What `enqueue` reads of a descriptor before its transaction. -/
structure Head where
  event_id : String
  event_type : String
  session_id : String
  destinations : List Json
  policy : List (String × Json)
  payload_json : String

def checkHead (descriptor : List (String × Json)) : Except PyError Head :=
  let event := object (Json.lookup "event" descriptor)
  match Json.lookup "event_id" event, Json.lookup "type" event, Json.lookup "session_id" event,
      Json.lookup "destinations" descriptor with
  | some (.str event_id), some (.str event_type), some (.str session_id), some (.arr destinations) =>
      if event_id = "" ∨ event_type ∉ NOTIFICATION_EVENT_TYPES ∨ session_id = "" ∨ destinations = []
          ∨ 64 < destinations.length then .error (invalid "notification descriptor is invalid")
      else
        let payload_json := String.ofList (rawCompactDumps (Json.canonical (.obj event)))
        if 16384 < payload_json.utf8ByteSize then .error (invalid "notification payload exceeds 16 KiB")
        else .ok {
          event_id := event_id
          event_type := event_type
          session_id := session_id
          destinations := destinations
          policy := object (Json.lookup "policy" descriptor)
          payload_json := payload_json }
  | _, _, _, _ => .error (invalid "notification descriptor is invalid")

/-- The columns of a delivery that no update changes. -/
structure DeliveryInfo where
  delivery_id : String
  event_id : String
  destination_name : String
  destination_kind : String
  target_url : String
  secret_env : String
  local_backend : String
  allow_private_network : Bool
  request_timeout_s : ℚ
  max_attempts : Int
  retry_base_delay_s : ℚ
  retry_max_delay_s : ℚ
  retry_rate_limits : Bool
  created_at : ℚ

def strOr (dflt : String) : Option Json → String
  | some (.str s) => s
  | _ => dflt

def checkName (destination : List (String × Json)) : Except PyError (String × String) :=
  match Json.lookup "name" destination, Json.lookup "kind" destination with
  | some (.str name), some (.str kind) =>
      if name = "" ∨ 128 < name.length ∨ kind ∉ ["local", "webhook"] then
        .error (invalid "notification destination is invalid")
      else .ok (name, kind)
  | some (.str name), some (.arr _) | some (.str name), some (.obj _) =>
      if name = "" ∨ 128 < name.length then .error (invalid "notification destination is invalid")
      else .error (.typeError "unhashable type")
  | _, _ => .error (invalid "notification destination is invalid")

def checkWebhook (kind : String) (destination : List (String × Json)) : Except PyError Unit :=
  if kind = "webhook" then
    match (Json.lookup "url" destination).getD (.str ""),
        (Json.lookup "secret_env" destination).getD (.str "") with
    | .str url, .str secret_env =>
        if env.validHttpsUrl url = false then
          .error (.raised "DestinationPolicyError" "webhook must be configured as a safe HTTPS URL")
        else if secretEnvName secret_env = false then
          .error (invalid "webhook secret must use the AGENTHICC_WEBHOOK_ namespace")
        else .ok ()
    | _, _ => .error (invalid "webhook destination is invalid")
  else .ok ()

def checkBackend (destination : List (String × Json)) : Except PyError String :=
  match (Json.lookup "backend" destination).getD (.str "auto") with
  | .str backend =>
      if backend ∈ ["auto", "desktop", "terminal"] then .ok backend
      else .error (invalid "local notification backend is invalid")
  | _ => .error (invalid "local notification backend is invalid")

/-- The row of one destination. -/
def deliveryInfo (head : Head) (now : ℚ) (raw : Json) : Except PyError DeliveryInfo := do
  let destination := object (some raw)
  let (name, kind) ← checkName destination
  checkWebhook env kind destination
  let backend ← checkBackend destination
  let timeout ← finiteFloat env (Json.lookup "request_timeout_s" head.policy) 5 (1/10) 60
  let base ← finiteFloat env (Json.lookup "retry_base_delay_s" head.policy) 1 (1/10) 3600
  let max ← finiteFloat env (Json.lookup "retry_max_delay_s" head.policy) 300 (1/10) 86400
  pure {
    delivery_id := head.event_id ++ ":" ++ name
    event_id := head.event_id
    destination_name := name
    destination_kind := kind
    target_url := strOr "" (Json.lookup "url" destination)
    secret_env := strOr "" (Json.lookup "secret_env" destination)
    local_backend := backend
    allow_private_network := Json.lookup "allow_private_network" head.policy = some (.bool true)
    request_timeout_s := timeout
    max_attempts := boundedInt (Json.lookup "max_attempts" head.policy) 5 1 20
    retry_base_delay_s := base
    retry_max_delay_s := max
    retry_rate_limits := Json.lookup "retry_rate_limits" head.policy = some (.bool true)
    created_at := now }

/-! ## 2. The outbox -/

inductive DeliveryStatus where
  | pending
  | sending
  | delivered
  | failed
  deriving DecidableEq, Repr

/-- The columns that updates change. -/
structure DeliveryState where
  status : DeliveryStatus
  attempts : Int
  next_attempt_at : ℚ
  lease_token : Option Nat
  lease_until : Option ℚ
  last_result_category : String
  last_http_status : Option Int
  updated_at : ℚ

structure DeliveryRow where
  info : DeliveryInfo
  state : DeliveryState

structure EventRow where
  event_id : String
  event_type : String
  session_id : String
  created_at : ℚ
  payload_json : String

def DeliveryRow.id (row : DeliveryRow) : String := row.info.delivery_id

def DeliveryRow.edge (row : DeliveryRow) : String × String := (row.info.event_id, row.info.destination_name)

structure Outbox where
  events : List EventRow := []
  deliveries : List DeliveryRow := []
  event_key : (events.map (·.event_id)).Nodup := by simp
  delivery_key : (deliveries.map DeliveryRow.id).Nodup := by simp
  unique_edge : (deliveries.map DeliveryRow.edge).Nodup := by simp

namespace Outbox

def empty : Outbox := {}

def knows (o : Outbox) (event_id : String) : Bool := decide (event_id ∈ o.events.map (·.event_id))

theorem nodup_concat {α β : Type} {f : α → β} {l : List α} {a : α} (h : (l.map f).Nodup)
    (ha : f a ∉ l.map f) : ((l ++ [a]).map f).Nodup := by
  rw [List.map_append, List.map_singleton, List.nodup_append]
  refine ⟨h, List.nodup_singleton _, fun x hx y hy hxy => ?_⟩
  rw [List.mem_singleton.mp hy] at hxy
  exact ha (hxy ▸ hx)

/-- `INSERT INTO events`. -/
def insertEvent (o : Outbox) (row : EventRow) : Except PyError Outbox :=
  if h : row.event_id ∈ o.events.map (·.event_id) then
    .error (.raised "IntegrityError" "UNIQUE constraint failed: events.event_id")
  else .ok { o with events := o.events ++ [row], event_key := nodup_concat o.event_key h }

/-- `INSERT INTO deliveries`. -/
def insertDelivery (o : Outbox) (row : DeliveryRow) : Except PyError Outbox :=
  if h : row.id ∈ o.deliveries.map DeliveryRow.id then
    .error (.raised "IntegrityError" "UNIQUE constraint failed: deliveries.delivery_id")
  else if h' : row.edge ∈ o.deliveries.map DeliveryRow.edge then
    .error (.raised "IntegrityError"
      "UNIQUE constraint failed: deliveries.event_id, deliveries.destination_name")
  else .ok { o with
    deliveries := o.deliveries ++ [row]
    delivery_key := nodup_concat o.delivery_key h
    unique_edge := nodup_concat o.unique_edge h' }

/-- `UPDATE deliveries SET … WHERE …`: a state for every row. -/
def update (o : Outbox) (f : DeliveryRow → DeliveryState) : Outbox where
  events := o.events
  deliveries := o.deliveries.map fun row => { row with state := f row }
  event_key := o.event_key
  delivery_key := by
    rw [List.map_map]
    exact o.delivery_key
  unique_edge := by
    rw [List.map_map]
    exact o.unique_edge

end Outbox

def initialState (now : ℚ) : DeliveryState where
  status := .pending
  attempts := 0
  next_attempt_at := now
  lease_token := none
  lease_until := none
  last_result_category := ""
  last_http_status := none
  updated_at := now

def insertDestinations (head : Head) (now : ℚ) : List Json → Outbox → Except PyError Outbox
  | [], o => .ok o
  | raw :: rest, o => do
      let info ← deliveryInfo env head now raw
      let o ← o.insertDelivery ⟨info, initialState now⟩
      insertDestinations head now rest o

/-- `enqueue`: the outbox after the transaction and whether a row went in. -/
def enqueue (o : Outbox) (descriptor : List (String × Json)) (now : ℚ) : Except PyError (Outbox × Bool) := do
  let head ← checkHead descriptor
  if o.knows head.event_id then pure (o, false)
  else
    let o ← o.insertEvent ⟨head.event_id, head.event_type, head.session_id, now, head.payload_json⟩
    let o ← insertDestinations env head now head.destinations o
    pure (o, true)

/-! ## 3. Claims and results -/

/-- A claimed delivery: the row as it was read, the attempt and the token.
`payload` is `none` where the stored text is no JSON object. -/
structure NotificationDelivery where
  info : DeliveryInfo
  payload : Option (List (String × Json))
  attempts : Int
  lease_token : Nat

/-- `lease_until <= ?`, which a missing lease never meets. -/
def leaseExpired (now : ℚ) (state : DeliveryState) : Prop := ∃ u ∈ state.lease_until, u ≤ now

instance (now : ℚ) (state : DeliveryState) : Decidable (leaseExpired now state) := by
  unfold leaseExpired
  infer_instance

def isDue (now : ℚ) (state : DeliveryState) : Prop :=
  (state.status = .pending ∧ state.next_attempt_at ≤ now) ∨ (state.status = .sending ∧ leaseExpired now state)

instance (now : ℚ) (state : DeliveryState) : Decidable (isDue now state) :=
  inferInstanceAs (Decidable (_ ∨ _))

/-- A lease that ran out on the last attempt. -/
def exhaustLease (now : ℚ) (row : DeliveryRow) : DeliveryState :=
  if row.info.max_attempts ≤ row.state.attempts ∧ row.state.status = .sending
      ∧ leaseExpired now row.state then
    { row.state with
      status := .failed
      next_attempt_at := 0
      lease_token := none
      lease_until := none
      last_result_category := "attempts_exhausted"
      updated_at := now }
  else row.state

/-- `ORDER BY next_attempt_at, created_at, delivery_id`. -/
def dueBefore (a b : DeliveryRow) : Bool :=
  decide (a.state.next_attempt_at < b.state.next_attempt_at)
    || (decide (a.state.next_attempt_at = b.state.next_attempt_at)
      && (decide (a.info.created_at < b.info.created_at)
        || (decide (a.info.created_at = b.info.created_at) && decide (a.id ≤ b.id))))

/-- The first due row whose event is in the table. -/
def nextDue (o : Outbox) (now : ℚ) : Option DeliveryRow :=
  let due := o.deliveries.filter fun row => decide (isDue now row.state) && o.knows row.info.event_id
  due.find? fun row => due.all (dueBefore row)

def leaseFor (info : DeliveryInfo) : ℚ := max 30 (env.arith.fl (info.request_timeout_s + 5))

/-- An update of the row with the id alone. -/
def setRow (delivery_id : String) (f : DeliveryState → DeliveryState) (row : DeliveryRow) : DeliveryState :=
  if row.id = delivery_id then f row.state else row.state

/-- The stored payload as an object. -/
def parsedPayload (o : Outbox) (event_id : String) : Option (List (String × Json)) :=
  match (o.events.find? (·.event_id = event_id)).bind fun e => loads e.payload_json.toList with
  | some (.obj kvs) => some kvs
  | _ => none

/-- The transaction of `claim_due`, with the token it would draw. -/
def claimDue (o : Outbox) (token : Nat) (now : ℚ) : Outbox × Option NotificationDelivery :=
  let o := o.update (exhaustLease now)
  match nextDue o now with
  | none => (o, none)
  | some row =>
      if row.info.max_attempts ≤ row.state.attempts then
        (o.update (setRow row.id fun state =>
          { state with
            status := .failed
            last_result_category := "attempts_exhausted"
            lease_token := none
            lease_until := none
            updated_at := now }), none)
      else
        (o.update (setRow row.id fun state =>
          { state with
            status := .sending
            attempts := row.state.attempts + 1
            lease_token := some token
            lease_until := some (env.arith.fl (now + leaseFor env row.info))
            updated_at := now }),
          some ⟨row.info, parsedPayload o row.info.event_id, row.state.attempts + 1, token⟩)

/-- `deliver_one`'s result: category, HTTP status, retry time, terminal. -/
structure DeliveryResult where
  category : String
  http_status : Option Int := none
  retry_at : Option ℚ := none
  terminal : Bool := true

def finishStatus (result : DeliveryResult) : DeliveryStatus :=
  if result.category = "delivered" then .delivered
  else if result.terminal then .failed
  else .pending

def finish (o : Outbox) (delivery_id : String) (token : Nat) (result : DeliveryResult) (now : ℚ) : Outbox :=
  o.update fun row =>
    if row.id = delivery_id ∧ row.state.status = .sending ∧ row.state.lease_token = some token then
      { row.state with
        status := finishStatus result
        last_result_category := strTake 64 result.category
        last_http_status := result.http_status
        next_attempt_at := result.retry_at.getD 0
        lease_token := none
        lease_until := none
        updated_at := now }
    else row.state

/-! ## 4. Sending -/

/-- `classify_webhook_status`. -/
def classifyWebhookStatus (status : Int) (retryRateLimits : Bool) : String × Bool :=
  if 200 ≤ status ∧ status < 300 then ("delivered", false)
  else if status = 429 then ("rate_limited", retryRateLimits)
  else if status = 408 ∨ status = 425 ∨ (500 ≤ status ∧ status ≤ 599) then ("transient_http_error", true)
  else if 300 ≤ status ∧ status < 400 then ("redirect_blocked", false)
  else if 400 ≤ status ∧ status < 500 then ("permanent_http_error", false)
  else ("invalid_http_status", false)

inductive LocalOutcome where
  | delivered
  | unavailable
  | failed

def LocalOutcome.category : LocalOutcome → String
  | delivered => "delivered"
  | unavailable => "local_notifier_unavailable"
  | failed => "local_notifier_failed"

/-- What `_post_webhook` ends with. -/
inductive PostOutcome where
  | blocked
  | networkError
  | missingSecret
  | response (status : Int) (retryAfter : Option String)

/-- What the world answers to one delivery. `jitter` is `randbelow(401)`. -/
structure Answer where
  locally : LocalOutcome := .unavailable
  post : PostOutcome := .networkError
  jitter : Fin 401 := 0

/-- `min(max(0.0, seconds), maximum)`; NaN ends as minus infinity does. -/
def clampSeconds (seconds : WithBot (WithTop ℚ)) (maximum : ℚ) : ℚ :=
  match seconds with
  | some (some s) => min (max 0 s) maximum
  | some none => maximum
  | none => min 0 maximum

/-- `_retry_after`. -/
def retryAfter (header : Option String) (now maximum : ℚ) : Option ℚ :=
  match header with
  | none => none
  | some raw =>
      if raw = "" then none
      else (env.retryAfterSeconds raw now).map fun s => env.arith.fl (now + clampSeconds s maximum)

/-- `_backoff`. -/
def backoff (d : NotificationDelivery) (jitter : Fin 401) (now : ℚ) : ℚ :=
  let exponent := (min 30 (max 0 (d.attempts - 1))).toNat
  let ceiling := min d.info.retry_max_delay_s (env.arith.fl (d.info.retry_base_delay_s * 2 ^ exponent))
  let jitterMillis : ℚ := 800 + jitter.val
  let delay := min d.info.retry_max_delay_s
    (env.arith.fl (env.arith.fl (ceiling * jitterMillis) / 1000))
  env.arith.fl (now + delay)

/-- What follows the answer of a webhook. -/
def settle (d : NotificationDelivery) (jitter : Fin 401) (now : ℚ) (category : String)
    (status : Option Int) (retryable : Bool) (retryAfterAt : Option ℚ) : DeliveryResult :=
  if retryable = false then { category := category, http_status := status }
  else if d.info.max_attempts ≤ d.attempts then { category := "attempts_exhausted", http_status := status }
  else {
    category := category
    http_status := status
    retry_at := some (retryAfterAt.getD (backoff env d jitter now))
    terminal := false }

def deliverOne (d : NotificationDelivery) (answer : Answer) (now : ℚ) : DeliveryResult :=
  if d.info.destination_kind = "local" then { category := answer.locally.category }
  else if d.info.destination_kind ≠ "webhook" then { category := "invalid_destination_kind" }
  else
    match answer.post with
    | .blocked => { category := "destination_blocked" }
    | .networkError => settle env d answer.jitter now "transient_network_error" none true none
    | .missingSecret => settle env d answer.jitter now "missing_secret" none false none
    | .response status header =>
        let (category, retryable) := classifyWebhookStatus status d.info.retry_rate_limits
        if category = "delivered" then { category := category, http_status := some status }
        else settle env d answer.jitter now category (some status) retryable
          (retryAfter env header now d.info.retry_max_delay_s)

/-- The result a claim ends with: a payload that is no object ends it at once. -/
def claimResult (d : NotificationDelivery) (answer : Answer) (now : ℚ) : DeliveryResult :=
  match d.payload with
  | none => { category := "invalid_outbox_payload" }
  | some _ => deliverOne env d answer now

/-! ## 5. Dispatchers and repairs -/

/-- The descriptor of a journal record. -/
def recordDescriptor (record : Json) : Option (List (String × Json)) :=
  match record.get? "payload" with
  | some (.obj payload) =>
      match Json.lookup "notification" payload with
      | some (.obj descriptor) => some descriptor
      | _ => none
  | _ => none

/-- A `reconcile` call: at its next record, or over (returned or raised) when
the journal had so many records. -/
inductive Repair where
  | reading (next : Nat)
  | ended (records : Nat)
  deriving DecidableEq

structure World where
  outbox : Outbox
  journal : List Json
  /-- The claims made, by any dispatcher, the token of each being its number. -/
  claims : List NotificationDelivery
  repairs : List Repair

def World.start : World := ⟨.empty, [], [], []⟩

inductive Action (env : Env) where
  | record (event : Json)
  | enqueue (descriptor : List (String × Json)) (now : env.Clock)
  | startReconcile
  | reconcileNext (repair : Nat) (now : env.Clock)
  | claim (now : env.Clock)
  /-- The claim with the number is sent at the first time and its result
  committed at the second. -/
  | finish (claim : Nat) (answer : Answer) (sentAt committedAt : env.Clock)

/-- One record of a reconcile call: the outbox after it and where the call is. -/
def reconcileRecord (w : World) (next : Nat) (now : ℚ) : Outbox × Repair :=
  match w.journal[next]? with
  | none => (w.outbox, .ended w.journal.length)
  | some record =>
      match recordDescriptor record with
      | none => (w.outbox, .reading (next + 1))
      | some descriptor =>
          match Notifications.enqueue env w.outbox descriptor now with
          | .ok (o, _) => (o, .reading (next + 1))
          -- the exception leaves the loop
          | .error _ => (w.outbox, .ended w.journal.length)

variable {env}

def World.step (w : World) : Action env → World
  | .record event => { w with journal := w.journal ++ [event] }
  | .enqueue descriptor now =>
      match Notifications.enqueue env w.outbox descriptor now.1 with
      | .ok (o, _) => { w with outbox := o }
      | .error _ => w
  | .startReconcile => { w with repairs := w.repairs ++ [.reading 0] }
  | .reconcileNext r now =>
      match w.repairs[r]? with
      | some (.reading next) =>
          let (o, repair) := reconcileRecord env w next now.1
          { w with outbox := o, repairs := w.repairs.set r repair }
      | _ => w
  | .claim now =>
      match claimDue env w.outbox w.claims.length now.1 with
      | (o, some d) => { w with outbox := o, claims := w.claims ++ [d] }
      | (o, none) => { w with outbox := o }
  | .finish c answer sentAt committedAt =>
      match w.claims[c]? with
      | some d =>
          let result := claimResult env d answer sentAt.1
          { w with outbox := Notifications.finish w.outbox d.info.delivery_id d.lease_token result committedAt.1 }
      | none => w

end Agenthicc.Background.Notifications
