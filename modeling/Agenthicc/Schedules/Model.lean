/-
Agenthicc.Schedules.Model — schedules, their occurrences, and what the code
takes from the platform.

A `Definition` carries the proof that it passed the checks of the record
class, so a stored schedule has them. The repository root and the
configuration path are left out: they are canonical paths that only the
dispatcher reads.

Times are exact rationals. The clock and the cursor are floats in the source;
between 2^30 and 2^31 seconds (2004 to 2038) a sum or difference of two of
them, and one with a whole number of seconds, is the exact one.
-/
import Agenthicc.Background.Model
import Agenthicc.Python.Calendar
import Agenthicc.Python.Text

namespace Agenthicc.Schedules

open Python Background

abbrev Time := ℚ

/-! ## 1. Vocabularies -/

inductive RecurrenceKind where
  | once | interval | cron
  deriving DecidableEq

instance : StrEnum RecurrenceKind where
  members := [.once, .interval, .cron]
  value
    | .once => "once"
    | .interval => "interval"
    | .cron => "cron"
  complete a := by cases a <;> decide
  injective a b h := by cases a <;> cases b <;> first | rfl | exact absurd h (by decide)

inductive CoalescePolicy where
  | skip | queueOne | allowBounded
  deriving DecidableEq

instance : StrEnum CoalescePolicy where
  members := [.skip, .queueOne, .allowBounded]
  value
    | .skip => "skip"
    | .queueOne => "queue_one"
    | .allowBounded => "allow_bounded"
  complete a := by cases a <;> decide
  injective a b h := by cases a <;> cases b <;> first | rfl | exact absurd h (by decide)

inductive OccurrenceState where
  | awaitingService | queued | preparing | waitingCapacity | running
  | completed | failed | blocked | skipped | cancelled
  deriving DecidableEq

instance : StrEnum OccurrenceState where
  members := [.awaitingService, .queued, .preparing, .waitingCapacity, .running, .completed,
    .failed, .blocked, .skipped, .cancelled]
  value
    | .awaitingService => "awaiting_service"
    | .queued => "queued"
    | .preparing => "preparing"
    | .waitingCapacity => "waiting_capacity"
    | .running => "running"
    | .completed => "completed"
    | .failed => "failed"
    | .blocked => "blocked"
    | .skipped => "skipped"
    | .cancelled => "cancelled"
  complete a := by cases a <;> decide
  injective a b h := by cases a <;> cases b <;> first | rfl | exact absurd h (by decide)

/-- `_ACTIVE_OCCURRENCE_STATES`. -/
def ACTIVE_OCCURRENCE_STATES : List OccurrenceState :=
  [.awaitingService, .queued, .preparing, .waitingCapacity, .running]

/-- `_PENDING_STATES`. -/
def PENDING_STATES : List OccurrenceState :=
  [.awaitingService, .queued, .waitingCapacity, .preparing]

/-! ## 2. Definitions and schedules -/

/-- `_text(value, field, required=required, limit=limit)`. -/
def checkText (value field : String) (required : Bool) (limit : Nat) : Except PyError Unit :=
  if required ∧ strip value.toList = [] then
    .error (.valueError (field ++ " must be a non-empty string"))
  else if value.utf8ByteSize > limit then
    .error (.valueError (field ++ " exceeds " ++ toString limit ++ " UTF-8 bytes"))
  else .ok ()

/-- The fields that an edit can change. -/
structure Fields where
  workflow_name : String
  prompt : String
  profile_name : String
  permission_ceiling : String
  recurrence_kind : RecurrenceKind
  recurrence_spec : String
  timezone : String
  coalesce_policy : CoalescePolicy
  max_in_flight : Int
  deriving DecidableEq

namespace Fields

/-- The checks of `Schedule.__post_init__` on these fields. -/
def postInit (f : Fields) : Except PyError Unit := do
  checkText f.workflow_name "workflow_name" true 128
  checkText f.prompt "prompt" true 16384
  checkText f.profile_name "profile_name" true 128
  checkText f.permission_ceiling "permission_ceiling" true 128
  if f.permission_ceiling ∉ ["Safe", "Plan", "Yolo"] then
    throw (.valueError "permission_ceiling must be canonical Safe, Plan, or Yolo")
  checkText f.recurrence_spec "recurrence_spec" true 512
  checkText f.timezone "timezone" true 128
  if f.max_in_flight < 1 ∨ f.max_in_flight > 32 then
    throw (.valueError "max_in_flight must be between 1 and 32")

/-- The checks of `Schedule.from_mapping` before it builds the record. -/
def fromMapping (f : Fields) : Except PyError Unit := do
  checkText f.workflow_name "workflow_name" true 16384
  checkText f.prompt "prompt" true 16384
  checkText f.profile_name "profile_name" true 16384
  checkText f.permission_ceiling "permission_ceiling" true 16384
  checkText f.recurrence_spec "recurrence_spec" true 16384
  checkText f.timezone "timezone" true 16384

end Fields

/-- Fields that passed the checks. -/
structure Definition extends Fields where
  valid : toFields.postInit = .ok ()

namespace Definition

instance : DecidableEq Definition := fun a b =>
  decidable_of_iff (a.toFields = b.toFields) (by cases a; cases b; simp)

/-- The record class on these fields. -/
def checked (f : Fields) : Except PyError Definition :=
  match h : f.postInit with
  | .error exc => .error exc
  | .ok () => .ok { f with valid := h }

/-- `Schedule.from_mapping(payload)` on these fields. -/
def fromFields (f : Fields) : Except PyError Definition :=
  match f.fromMapping >>= fun _ => checked f with
  | .ok d => .ok d
  | .error (.valueError message) => .error (.valueError ("invalid schedule: " ++ message))
  | .error exc => .error exc

theorem limits (d : Definition) : 1 ≤ d.max_in_flight ∧ d.max_in_flight ≤ 32 := by
  have h := d.valid
  unfold Fields.postInit at h
  by_contra hbad
  have hthrow : d.max_in_flight < 1 ∨ d.max_in_flight > 32 := by omega
  rw [if_pos hthrow] at h
  obtain ⟨_, -, h⟩ := bind_ok h
  obtain ⟨_, -, h⟩ := bind_ok h
  obtain ⟨_, -, h⟩ := bind_ok h
  obtain ⟨_, -, h⟩ := bind_ok h
  split at h
  · cases h
  · obtain ⟨_, -, h⟩ := bind_ok h
    obtain ⟨_, -, h⟩ := bind_ok h
    cases h

end Definition

structure Schedule where
  schedule_id : String
  definition : Definition
  next_run_at : Option Time
  enabled : Bool
  creator : String
  revision : Nat
  created_at : Time
  updated_at : Time
  deleted_at : Option Time := none
  deriving DecidableEq

namespace Schedule

abbrev coalesce_policy (s : Schedule) : CoalescePolicy := s.definition.coalesce_policy
abbrev max_in_flight (s : Schedule) : Int := s.definition.max_in_flight
abbrev recurrence_kind (s : Schedule) : RecurrenceKind := s.definition.recurrence_kind
abbrev recurrence_spec (s : Schedule) : String := s.definition.recurrence_spec
abbrev timezone (s : Schedule) : String := s.definition.timezone
def deleted (s : Schedule) : Bool := s.deleted_at.isSome

end Schedule

/-! ## 3. Occurrences -/

/-- A value of a receipt or an outcome. -/
inductive Datum where
  | json (v : Json)
  | time (t : Time)
  deriving DecidableEq

abbrev Mapping := List (String × Datum)

structure Occurrence where
  occurrence_id : String
  schedule_id : String
  schedule_revision : Nat
  occurrence_key : String
  kind : String
  scheduled_for : Time
  created_at : Time
  updated_at : Time
  state : OccurrenceState
  session_id : String := ""
  worktree : Option Mapping := none
  base_commit : String := ""
  retry_of : String := ""
  coalesced_count : Nat := 0
  attempt : Nat := 1
  receipt : Option Mapping := none
  outcome : Option Mapping := none
  error : String := ""
  deriving DecidableEq

/-- `ORDER BY created_at, occurrence_id`. -/
def Occurrence.le (a b : Occurrence) : Prop :=
  a.created_at < b.created_at ∨ (a.created_at = b.created_at ∧ a.occurrence_id ≤ b.occurrence_id)

instance : DecidableRel Occurrence.le := fun _ _ => inferInstanceAs (Decidable (_ ∨ _ ∧ _))

/-- `ORDER BY next_run_at, schedule_id`, of rows with a cursor. -/
def Schedule.le (a b : Schedule) : Prop :=
  ∃ x ∈ a.next_run_at, ∃ y ∈ b.next_run_at,
    x < y ∨ (x = y ∧ a.schedule_id ≤ b.schedule_id)

instance : DecidableRel Schedule.le := fun a b =>
  inferInstanceAs (Decidable (∃ x ∈ a.next_run_at, ∃ y ∈ b.next_run_at, _))

/-! ## 4. The platform -/

/-- A `ZoneInfo`. -/
structure Zone where
  /-- `datetime.fromtimestamp(t, UTC).astimezone(zone)`, without the zone. -/
  toLocal : Time → Except PyError DateTime
  /-- `d.replace(tzinfo=zone, fold=0).timestamp()`. -/
  timestamp : DateTime → Time
  /-- `d.replace(tzinfo=zone, fold=0).astimezone(UTC).astimezone(zone)`,
  without the zone. -/
  roundTrip : DateTime → Except PyError DateTime

/-- Time zones, hashes and Unicode tables of the platform, and the order in
which the database meets rows that a query does not order. -/
structure Env where
  /-- `ZoneInfo(name)`; `none` is its error. -/
  zoneInfo : String → Option Zone
  /-- `datetime.fromisoformat(text)`: a local time or an instant. -/
  fromisoformat : List Char → Option (DateTime ⊕ Time)
  /-- `datetime.fromtimestamp(t, UTC).astimezone(zone).isoformat(timespec="seconds")`. -/
  isoformat : Zone → Time → Except PyError String
  /-- `int(text)` where `text.isdigit()` holds. -/
  digits : List Char → Option (Except PyError Nat)
  strRepr : String → String
  /-- `uuid.uuid5(namespace, name).hex`. -/
  uuid5 : String → String → String
  canonicalModeName : String → String
  scan : List Occurrence → List Occurrence
  scan_perm : ∀ rows, (scan rows).Perm rows

/-- UTC, right on the first day of the epoch. -/
def utc : Zone where
  toLocal t := .ok {
    date := ⟨719163⟩
    hour := (⌊t⌋ / 3600).toNat
    minute := (⌊t⌋ / 60 % 60).toNat
    second := (⌊t⌋ % 60).toNat
    microsecond := ⌊(t - ⌊t⌋) * 1000000⌋.toNat }
  timestamp d := d.hour * 3600 + d.minute * 60 + d.second + d.microsecond / 1000000
  roundTrip := .ok

/-- A platform for concrete runs: it knows UTC on the first day of the epoch,
its hash keeps the name it is given, and tables come in insertion order. -/
def plainEnv : Env where
  zoneInfo name := if name = "UTC" then some utc else none
  fromisoformat _ := none
  isoformat zone t := (zone.toLocal t).map fun d =>
    let two (n : Nat) := if n < 10 then "0" ++ toString n else toString n
    "1970-01-01T" ++ two d.hour ++ ":" ++ two d.minute ++ ":" ++ two d.second ++ "+00:00"
  digits text :=
    if text ≠ [] ∧ text.all Char.isDigit then
      some (.ok (text.foldl (fun n c => n * 10 + (c.toNat - '0'.toNat)) 0))
    else none
  strRepr s := "'" ++ s ++ "'"
  uuid5 _ name := name
  canonicalModeName name := name
  scan rows := rows
  scan_perm _ := .refl _

end Agenthicc.Schedules
