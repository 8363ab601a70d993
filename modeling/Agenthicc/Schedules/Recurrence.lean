/-
Agenthicc.Schedules.Recurrence — one-shot, interval and cron recurrences.

`nextRunAfter_lt` is what the scheduler needs of the new cursor: it lies
behind the cursor that was due and behind the clock. `nextRunAfter_grid` says
where it lies: a whole number of intervals later, or at an instant that the
cron expression names.
-/
import Agenthicc.Schedules.Model
import Mathlib.Algebra.Order.Floor.Ring
import Mathlib.Data.Finset.Sort
import Mathlib.Tactic.Linarith
import Mathlib.Tactic.Positivity

namespace Agenthicc.Schedules

open Python Background

variable (env : Env)

/-! ## 1. Intervals -/

def MULTIPLIER : Char → Option Nat
  | 's' | 'S' => some 1
  | 'm' | 'M' => some 60
  | 'h' | 'H' => some 3600
  | 'd' | 'D' => some 86400
  | _ => none

def intOfDigits (digits : List Char) : Nat :=
  digits.foldl (fun n c => n * 10 + (c.toNat - '0'.toNat)) 0

/-- `parse_interval`. The pattern ignores case, so `ſ` passes for `s` and is
then looked up in vain. -/
def parseInterval (spec : String) : Except PyError Nat :=
  let text := strip spec.toList
  let digits := text.takeWhile Char.isDigit
  let mismatch := PyError.valueError
    "interval must be a positive integer followed by s, m, h, or d"
  match digits, text.drop digits.length with
  | first :: _, [unit] =>
      if first = '0' then .error mismatch
      else
        match MULTIPLIER unit with
        | some seconds =>
            if intOfDigits digits * seconds > 2 ^ 31 - 1 then
              .error (.valueError "interval exceeds the supported maximum")
            else .ok (intOfDigits digits * seconds)
        | none => .error (if unit = 'ſ' then .keyError "ſ" else mismatch)
  | _, _ => .error mismatch

/-! ## 2. Cron expressions -/

structure CronExpression where
  minutes : Finset Nat
  hours : Finset Nat
  days : Finset Nat
  months : Finset Nat
  weekdays : Finset Nat
  day_wildcard : Bool
  weekday_wildcard : Bool

/-- A number of a cron field. -/
def fieldInt (text : List Char) (problem : PyError) : Except PyError Nat :=
  match env.digits text with
  | none => .error problem
  | some n => n

/-- The values of one item of a comma-separated cron field. -/
def parseComponent (component : List Char) (minimum maximum : Nat) :
    Except PyError (Finset Nat) := do
  if component = [] then
    throw (.valueError "cron fields cannot contain empty list items")
  let shown := env.strRepr (String.ofList component)
  let (base, slash, step_raw) := partition '/' component
  let step ←
    if slash then do
      let step ← fieldInt env step_raw (.valueError "cron step must be a positive integer")
      if step = 0 then throw (.valueError "cron step must be a positive integer")
      pure step
    else pure 1
  let (start, stop) ←
    if base = ['*'] then pure (minimum, maximum)
    else if '-' ∈ base then do
      let (start_raw, _, end_raw) := partition '-' base
      let bad := PyError.valueError ("invalid cron range: " ++ shown)
      if env.digits end_raw = none then throw bad
      let start ← fieldInt env start_raw bad
      let stop ← fieldInt env end_raw bad
      if start > stop then
        throw (.valueError ("descending cron ranges are not supported: " ++ shown))
      pure (start, stop)
    else do
      let start ← fieldInt env base (.valueError ("invalid cron field: " ++ shown))
      pure (start, if slash then maximum else start)
  if start < minimum ∨ stop > maximum then
    throw (.valueError ("cron value " ++ shown ++ " is outside " ++ toString minimum ++ ".."
      ++ toString maximum))
  pure (List.range' start ((stop + step - start) / step) step).toFinset

/-- `_parse_field`. -/
def parseField (raw : List Char) (minimum maximum : Nat) : Except PyError (Finset Nat) := do
  let values ← (splitOn ',' raw).foldlM (fun values component => do
    let more ← parseComponent env component minimum maximum
    pure (values ∪ more)) ∅
  if values = ∅ then throw (.valueError "cron field selects no values")
  pure values

namespace CronExpression

def parse (expression : String) : Except PyError CronExpression :=
  match splitSpaces expression.toList with
  | [minute, hour, day, month, weekday] => do
      let minutes ← parseField env minute 0 59
      let hours ← parseField env hour 0 23
      let days ← parseField env day 1 31
      let months ← parseField env month 1 12
      let weekdays ← parseField env weekday 0 7
      pure {
        minutes := minutes
        hours := hours
        days := days
        months := months
        weekdays := weekdays.image fun day => if day = 7 then 0 else day
        day_wildcard := day = ['*']
        weekday_wildcard := weekday = ['*'] }
  | _ => .error (.valueError
      "cron expression must contain five fields: minute hour day month weekday")

/-- `matches_date`: with both day fields restricted, either may match. -/
def matchesDate (cron : CronExpression) (value : Date) : Bool :=
  if value.month ∉ cron.months then false
  else
    let dom := decide (value.day ∈ cron.days)
    -- Sunday is 0 in cron.
    let dow := decide ((value.weekday + 1) % 7 ∈ cron.weekdays)
    if cron.day_wildcard && cron.weekday_wildcard then true
    else if cron.day_wildcard then dow
    else if cron.weekday_wildcard then dom
    else dom || dow

/-- One wall-clock minute of the search: its instant, where it exists and
lies behind `timestamp`. -/
def candidate (zone : Zone) (timestamp : Time) (skipUntil : Option DateTime)
    (local_naive : DateTime) : Option (Except PyError Time) :=
  if (skipUntil.map local_naive.le).getD false then none
  else
    match zone.roundTrip local_naive with
    | .error exc => some (.error exc)
    | .ok roundtrip =>
        -- A wall-clock time inside a spring-forward gap does not come back.
        if roundtrip ≠ local_naive then none
        else if zone.timestamp local_naive > timestamp then some (.ok (zone.timestamp local_naive))
        else none

/-- The search over the minutes of one day. -/
def searchDay (cron : CronExpression) (zone : Zone) (timestamp : Time) (local_now : DateTime)
    (offset : Nat) : Option (Except PyError Time) :=
  match local_now.date.addDays offset with
  | none => some (.error (.raised "OverflowError" "date value out of range"))
  | some day =>
      if cron.matchesDate day then
        (cron.hours.sort (· ≤ ·)).findSome? fun hour =>
          (cron.minutes.sort (· ≤ ·)).findSome? fun minute =>
            candidate zone timestamp (if offset = 0 then some local_now else none)
              { date := day, hour := hour, minute := minute }
      else none

/-- The search goes through `days` days, from the one of `timestamp` on. -/
def search (cron : CronExpression) (zone : Zone) (timestamp : Time) (days : Nat) :
    Except PyError Time := do
  let local_now ← zone.toLocal timestamp
  ((List.range days).findSome? (searchDay cron zone timestamp local_now)).getD
    (.error (.valueError "cron expression has no occurrence within the next eight years"))

def nextAfter (cron : CronExpression) (timestamp : Time) (zone : Zone) : Except PyError Time :=
  cron.search zone timestamp (366 * 8 + 2)

/-- An instant that the expression names in the time zone. -/
def Instant (cron : CronExpression) (zone : Zone) (t : Time) : Prop :=
  ∃ wall : DateTime, cron.matchesDate wall.date = true ∧ wall.hour ∈ cron.hours
    ∧ wall.minute ∈ cron.minutes ∧ wall.second = 0 ∧ wall.microsecond = 0
    ∧ zone.roundTrip wall = .ok wall ∧ zone.timestamp wall = t

theorem candidate_ok {zone : Zone} {timestamp t : Time} {skipUntil : Option DateTime}
    {wall : DateTime} (h : candidate zone timestamp skipUntil wall = some (.ok t)) :
    zone.roundTrip wall = .ok wall ∧ zone.timestamp wall = t ∧ timestamp < t := by
  unfold candidate at h
  split at h
  · cases h
  · split at h
    · cases h
    · rename_i roundtrip hround
      split at h
      · cases h
      · rename_i hsame
        split at h
        · rename_i hlate
          cases h
          rw [not_not] at hsame
          exact ⟨by rw [hround, hsame], rfl, hlate⟩
        · cases h

theorem searchDay_ok {cron : CronExpression} {zone : Zone} {timestamp t : Time}
    {local_now : DateTime} {offset : Nat}
    (h : cron.searchDay zone timestamp local_now offset = some (.ok t)) :
    timestamp < t ∧ cron.Instant zone t := by
  unfold searchDay at h
  split at h
  · cases h
  · rename_i day _
    split at h
    · rename_i hmatch
      obtain ⟨hour, hhour, h⟩ := List.exists_of_findSome?_eq_some h
      obtain ⟨minute, hminute, h⟩ := List.exists_of_findSome?_eq_some h
      obtain ⟨hround, ht, hlate⟩ := candidate_ok h
      rw [Finset.mem_sort] at hhour hminute
      exact ⟨hlate, { date := day, hour := hour, minute := minute }, hmatch, hhour, hminute, rfl,
        rfl, hround, ht⟩
    · cases h

theorem search_ok {cron : CronExpression} {zone : Zone} {timestamp t : Time} {days : Nat}
    (h : cron.search zone timestamp days = .ok t) : timestamp < t ∧ cron.Instant zone t := by
  obtain ⟨local_now, -, h⟩ := bind_ok h
  rw [Option.getD_eq_iff] at h
  rcases h with h | ⟨-, h⟩
  · obtain ⟨offset, -, h⟩ := List.exists_of_findSome?_eq_some h
    exact searchDay_ok h
  · cases h

end CronExpression

/-! ## 3. Recurrences -/

/-- `validate_timezone`. -/
def validateTimezone (name : String) : Except PyError Zone :=
  match env.zoneInfo name with
  | some zone => .ok zone
  | none => .error (.valueError ("unknown IANA timezone: " ++ env.strRepr name))

/-- `text.replace("Z", "+00:00")`. -/
def replaceZ (text : List Char) : List Char :=
  text.flatMap fun c => if c = 'Z' then "+00:00".toList else [c]

/-- `_parse_one_shot`. -/
def parseOneShot (spec : String) (zone : Zone) : Except PyError Time :=
  match env.fromisoformat (replaceZ (strip spec.toList)) with
  | none => .error (.valueError "one-shot time must be an ISO-8601 date/time")
  | some (.inr instant) => .ok instant
  | some (.inl parsed) => do
      let roundtrip ← zone.roundTrip parsed
      if roundtrip ≠ parsed then
        throw (.valueError "one-shot local time does not exist because of a DST transition")
      pure (zone.timestamp parsed)

/-- `validate_recurrence`. -/
def validateRecurrence (kind : RecurrenceKind) (spec timezone_name : String) :
    Except PyError Unit := do
  let zone ← validateTimezone env timezone_name
  match kind with
  | .interval => discard (parseInterval spec)
  | .cron => discard (CronExpression.parse env spec)
  | .once => discard (parseOneShot env spec zone)

/-- `first_run_at`. -/
def firstRunAt (kind : RecurrenceKind) (spec timezone_name : String) (now : Time) :
    Except PyError Time := do
  let zone ← validateTimezone env timezone_name
  match kind with
  | .once => do
      let result ← parseOneShot env spec zone
      if result ≤ now then throw (.valueError "one-shot schedule must be in the future")
      pure result
  | .interval => do
      let interval ← parseInterval spec
      pure (now + interval)
  | .cron => do
      let cron ← CronExpression.parse env spec
      cron.nextAfter now zone

/-- `max(1, int((now - previous) // interval) + 1)`. -/
def steps (previous now : Time) (interval : Nat) : ℤ :=
  max 1 (⌊(now - previous) / interval⌋ + 1)

/-- `next_run_after`. -/
def nextRunAfter (kind : RecurrenceKind) (spec timezone_name : String) (previous now : Time) :
    Except PyError (Option Time) :=
  match kind with
  | .once => .ok none
  | .interval => do
      let _ ← validateTimezone env timezone_name
      let interval ← parseInterval spec
      pure (some (previous + steps previous now interval * interval))
  | .cron => do
      let zone ← validateTimezone env timezone_name
      let cron ← CronExpression.parse env spec
      let next ← cron.nextAfter now zone
      pure (some next)

/-- `format_timestamp`. -/
def formatTimestamp (timestamp : Option Time) (timezone_name : String) : Except PyError String :=
  match timestamp with
  | none => .ok "—"
  | some timestamp => do
      let zone ← validateTimezone env timezone_name
      env.isoformat zone timestamp

/-! ## 4. The next cursor -/

theorem digits_pos (digits : List Char) {n : Nat} (h : 0 < n) :
    0 < digits.foldl (fun n c => n * 10 + (c.toNat - '0'.toNat)) n := by
  induction digits generalizing n with
  | nil => exact h
  | cons c rest ih => exact ih (Nat.add_pos_left (Nat.mul_pos h (by decide)) _)

theorem intOfDigits_pos {first : Char} {rest : List Char} (hdigit : first.isDigit = true)
    (hzero : first ≠ '0') : 0 < intOfDigits (first :: rest) := by
  have hlow : '0'.toNat ≤ first.toNat := by
    simp only [Char.isDigit, Bool.and_eq_true, decide_eq_true_eq] at hdigit
    exact hdigit.1
  have hne : '0'.toNat ≠ first.toNat := fun h => hzero (Char.toNat_inj.mp h.symm)
  have hpos : 0 < first.toNat - '0'.toNat := Nat.sub_pos_of_lt (lt_of_le_of_ne hlow hne)
  exact digits_pos rest (Nat.add_pos_right _ hpos)

theorem MULTIPLIER_pos {unit : Char} {seconds : Nat} (h : MULTIPLIER unit = some seconds) :
    0 < seconds := by
  unfold MULTIPLIER at h
  split at h <;> cases h <;> decide

theorem parseInterval_pos {spec : String} {interval : Nat}
    (h : parseInterval spec = .ok interval) : 0 < interval := by
  unfold parseInterval at h
  dsimp only at h
  split at h
  · rename_i first rest unit hdigits _
    split at h
    · cases h
    · rename_i hzero
      split at h
      · rename_i seconds hunit
        split at h
        · cases h
        · cases h
          have hmem : first ∈ (strip spec.toList).takeWhile Char.isDigit := by
            rw [hdigits]
            exact List.mem_cons_self
          rw [hdigits]
          exact Nat.mul_pos (intOfDigits_pos (List.mem_takeWhile_imp hmem) hzero)
            (MULTIPLIER_pos hunit)
      · cases h
  · cases h

/-- The new cursor lies behind the one that was due and behind the clock. -/
theorem steps_lt {previous now : Time} {interval : Nat} (hpos : 0 < interval) :
    previous < previous + steps previous now interval * interval
      ∧ now < previous + steps previous now interval * interval := by
  have hreal : (0 : ℚ) < interval := by exact_mod_cast hpos
  have hone : (1 : ℚ) ≤ steps previous now interval := by
    exact_mod_cast le_max_left _ _
  have hfloor : ((⌊(now - previous) / interval⌋ + 1 : ℤ) : ℚ) ≤ steps previous now interval := by
    exact_mod_cast le_max_right _ _
  have hquot : (now - previous) / interval < steps previous now interval := by
    refine lt_of_lt_of_le (Int.lt_floor_add_one _) ?_
    exact_mod_cast hfloor
  rw [div_lt_iff₀ hreal] at hquot
  constructor
  · have hstep : (0 : ℚ) < steps previous now interval * interval := by positivity
    linarith
  · linarith

theorem nextRunAfter_lt {kind : RecurrenceKind} {spec timezone_name : String}
    {previous now next : Time} (hdue : previous ≤ now)
    (h : nextRunAfter env kind spec timezone_name previous now = .ok (some next)) :
    previous < next ∧ now < next := by
  cases kind with
  | once => cases h
  | interval =>
      obtain ⟨_, -, h⟩ := bind_ok h
      obtain ⟨interval, hinterval, h⟩ := bind_ok h
      cases h
      exact steps_lt (parseInterval_pos hinterval)
  | cron =>
      obtain ⟨zone, -, h⟩ := bind_ok h
      obtain ⟨cron, -, h⟩ := bind_ok h
      obtain ⟨t, ht, h⟩ := bind_ok h
      cases h
      have hlate := (CronExpression.search_ok ht).1
      exact ⟨lt_of_le_of_lt hdue hlate, hlate⟩

/-- Where the grid of a definition goes on from a cursor: a one-shot ends, an
interval goes a whole number of times on, a cron expression names the
instant. -/
def Definition.OnGrid (d : Definition) (previous : Time) : Option Time → Prop
  | none => d.recurrence_kind = .once
  | some next =>
      (d.recurrence_kind = .interval ∧ ∃ interval : Nat, ∃ n : Nat,
        parseInterval d.recurrence_spec = .ok interval ∧ next = previous + n * interval)
      ∨ (d.recurrence_kind = .cron ∧ ∃ cron zone,
        CronExpression.parse env d.recurrence_spec = .ok cron
          ∧ env.zoneInfo d.timezone = some zone ∧ cron.Instant zone next)

theorem validateTimezone_ok {name : String} {zone : Zone}
    (h : validateTimezone env name = .ok zone) : env.zoneInfo name = some zone := by
  unfold validateTimezone at h
  split at h
  · cases h
    assumption
  · cases h

theorem nextRunAfter_grid {d : Definition} {previous now : Time} {next : Option Time}
    (h : nextRunAfter env d.recurrence_kind d.recurrence_spec d.timezone previous now = .ok next) :
    d.OnGrid env previous next := by
  generalize hkind : d.recurrence_kind = kind at h
  cases kind with
  | once =>
      cases h
      exact hkind
  | interval =>
      obtain ⟨_, -, h⟩ := bind_ok h
      obtain ⟨interval, hinterval, h⟩ := bind_ok h
      cases h
      refine .inl ⟨hkind, interval, (steps previous now interval).toNat, hinterval, ?_⟩
      have hnonneg : 0 ≤ steps previous now interval :=
        le_trans zero_le_one (le_max_left _ _)
      have hcast : (((steps previous now interval).toNat : ℤ) : ℚ) = steps previous now interval := by
        rw [Int.toNat_of_nonneg hnonneg]
      rw [← hcast, Int.cast_natCast]
  | cron =>
      obtain ⟨zone, hzone, h⟩ := bind_ok h
      obtain ⟨cron, hcron, h⟩ := bind_ok h
      obtain ⟨t, ht, h⟩ := bind_ok h
      cases h
      exact .inr ⟨hkind, cron, zone, hcron, validateTimezone_ok env hzone,
        (CronExpression.search_ok ht).2⟩

end Agenthicc.Schedules
