/-
Agenthicc.Schedules.StoreTheorems — the rows of the schedule database, and
what an operation does to them.

`perform_effect` says all that an operation can do, with what it found before;
the invariants of the other modules are derived from it.
-/
import Agenthicc.Schedules.Store

namespace Agenthicc.Schedules

open Python Background Tasks Tables

variable {s : Store}

/-! ## 1. Rows and the order of a query -/

instance : Std.Total Occurrence.le where
  total a b := by
    rcases lt_trichotomy a.created_at b.created_at with h | h | h
    · exact .inl (.inl h)
    · rcases String.le_total a.occurrence_id b.occurrence_id with hid | hid
      · exact .inl (.inr ⟨h, hid⟩)
      · exact .inr (.inr ⟨h.symm, hid⟩)
    · exact .inr (.inl h)

instance : IsTrans Occurrence Occurrence.le where
  trans a b c := by
    rintro (hab | ⟨hab, hid⟩) (hbc | ⟨hbc, hid'⟩)
    · exact .inl (hab.trans hbc)
    · exact .inl (hbc ▸ hab)
    · exact .inl (hab ▸ hbc)
    · exact .inr ⟨hab.trans hbc, String.le_trans hid hid'⟩

theorem Occurrence.le_antisymm {a b : Occurrence} (hab : a.le b) (hba : b.le a) :
    a.occurrence_id = b.occurrence_id := by
  rcases hab with hab | ⟨hab, hid⟩
  · rcases hba with hba | ⟨hba, -⟩
    · exact absurd hba (not_lt.mpr hab.le)
    · exact absurd hba.symm hab.ne
  · rcases hba with hba | ⟨-, hid'⟩
    · exact absurd hab.symm hba.ne
    · exact String.le_antisymm hid hid'

/-- A row stands in front of another one in a query. -/
def Occurrence.Before (a b : Occurrence) : Prop := a.le b ∧ ¬ b.le a

instance : DecidableRel Occurrence.Before := fun _ _ => inferInstanceAs (Decidable (_ ∧ _))

theorem Store.nodup_rows (s : Store) : s.occurrences.rows.Nodup := .of_map _ s.occurrences.nodup

theorem Store.row_eq_of_id {a b : Occurrence} (ha : a ∈ s.occurrences.rows)
    (hb : b ∈ s.occurrences.rows) (h : a.occurrence_id = b.occurrence_id) : a = b :=
  List.inj_on_of_nodup_map s.occurrences.nodup ha hb h

theorem mem_rowsBefore_none {limit : Nat} {row : Occurrence} (hrow : row ∈ s.occurrences.rows) :
    row ∈ s.rowsBefore none limit
      ↔ (s.occurrences.rows.filter fun other => other.Before row).length < limit := by
  have hall : (s.occurrences.rows.filter fun _ => true) = s.occurrences.rows :=
    List.filter_eq_self.mpr fun _ _ => rfl
  rw [Store.rowsBefore]
  dsimp only
  rw [hall]
  exact mem_window_iff s.nodup_rows
    (fun a ha b hb hab hba => s.row_eq_of_id ha hb (Occurrence.le_antisymm hab hba)) hrow

/-! ## 2. Writes -/

/-- What an update makes of a row. -/
def OccurrenceChanges.written (changes : OccurrenceChanges) (now : Time) (row : Occurrence) :
    Occurrence :=
  { changes.apply row with updated_at := now }

@[simp] theorem written_id (changes : OccurrenceChanges) (now : Time) (row : Occurrence) :
    (changes.written now row).occurrence_id = row.occurrence_id := rfl

@[simp] theorem written_schedule_id (changes : OccurrenceChanges) (now : Time) (row : Occurrence) :
    (changes.written now row).schedule_id = row.schedule_id := rfl

@[simp] theorem written_state (changes : OccurrenceChanges) (now : Time) (row : Occurrence) :
    (changes.written now row).state = changes.state.getD row.state := rfl

@[simp] theorem setRow_find? (s : Store) (row : Occurrence) (id : String) :
    (s.setRow row).occurrences.find? id
      = if row.occurrence_id = id then some row else s.occurrences.find? id :=
  Table.find?_set _ _ _

@[simp] theorem setSchedule_find? (s : Store) (schedule : Schedule) (id : String) :
    (s.setSchedule schedule).schedules.find? id
      = if schedule.schedule_id = id then some schedule else s.schedules.find? id :=
  Table.find?_set _ _ _

/-! ## 3. Operations -/

/-- A row that breaks no constraint of the table. -/
structure Insertable (s : Store) (row : Occurrence) : Prop where
  id : s.occurrences.find? row.occurrence_id = none
  key : s.withKey row.occurrence_key = none
  schedule : (s.schedules.find? row.schedule_id).isSome

theorem insertRow_ok {t : Store} {row : Occurrence} (h : s.insertRow row = .ok t) :
    Insertable s row ∧ t = s.setRow row := by
  unfold Store.insertRow at h
  split at h
  · cases h
  · rename_i hnone
    cases h
    simp only [not_or, Bool.not_eq_true, Option.isSome_eq_false_iff, Option.isNone_iff_eq_none] at hnone
    exact ⟨⟨hnone.1, hnone.2.1, Option.isSome_iff_ne_none.mpr hnone.2.2⟩, rfl⟩

/-- All that an operation can do to the store. -/
inductive Effect (p : Nat) (s : Store) : Op → Store → Prop where
  | quiet {o : Op} : Effect p s o s
  | create {schedule : Schedule} (hnew : s.schedules.find? schedule.schedule_id = none) :
      Effect p s (.create schedule)
        { s with schedules := s.schedules.set schedule, revisions := s.revisions.set schedule }
  | revise {schedule_id : String} {expected_revision : Nat} {now : Time}
      {changes : ScheduleChanges} {current : Schedule} {definition : Definition}
      (hcurrent : s.schedules.find? schedule_id = some current)
      (hrevision : current.revision = expected_revision)
      (hfields : definition.toFields = changes.fields current.definition.toFields) :
      Effect p s (.revise schedule_id expected_revision now changes)
        { s with
          schedules := s.schedules.set (changes.revised current definition now)
          revisions := s.revisions.set (changes.revised current definition now) }
  | updateRow {occurrence_id : String} {now : Time}
      {expected_states : Option (List OccurrenceState)} {changes : OccurrenceChanges}
      {row : Occurrence} (hrow : s.occurrences.find? occurrence_id = some row)
      (hexpected : ∀ states ∈ expected_states, row.state ∈ states) :
      Effect p s (.updateRow occurrence_id now expected_states changes)
        (s.setRow (changes.written now row))
  | insertRow {row : Occurrence} (hrow : Insertable s row) :
      Effect p s (.insertRow row) (s.setRow row)
  | insertManual {request : ManualRequest} {current : Schedule} {state : OccurrenceState}
      (hcurrent : s.schedules.find? request.schedule.schedule_id = some current)
      (hrevision : current.revision = request.schedule.revision)
      (hadmission : Store.admission request.schedule
        ((s.active request.schedule.schedule_id).map (·.state)) = .ok state)
      (hrow : Insertable s (request.row state)) :
      Effect p s (.insertManual request) (s.setRow (request.row state))
  | claimed {claim : Claim} {current : Schedule}
      (hschedule : s.schedules.find? claim.schedule.schedule_id = some current)
      (hcurrent : claim.Current current) (htarget : claim.coalesce_target_id = "")
      (hrow : Insertable s claim.row) :
      Effect p s (.claimDue claim) ((s.setSchedule (claim.advanced current)).setRow claim.row)
  | coalesced {claim : Claim} {current : Schedule} {target : Occurrence}
      (hschedule : s.schedules.find? claim.schedule.schedule_id = some current)
      (hcurrent : claim.Current current) (hset : claim.coalesce_target_id ≠ "")
      (htarget : s.occurrences.find? claim.coalesce_target_id = some target)
      (hqueued : target.state = .queued) :
      Effect p s (.claimDue claim)
        ((s.setSchedule (claim.advanced current)).setRow (claim.coalesced target))
  | locked (hfree : s.dispatch_lock = none) :
      Effect p s .lockDispatch { s with dispatch_lock := some p }
  | unlocked : Effect p s .unlockDispatch { s with dispatch_lock := none }

theorem commit_effect {p : Nat} {o : Op} {α : Type} {r : Except PyError (Store × α)}
    (h : ∀ t a, r = .ok (t, a) → Effect p s o t) : Effect p s o (commit s r).1 := by
  cases r with
  | error exc => exact .quiet
  | ok r => exact h r.1 r.2 rfl

theorem map_unit_ok {r : Except PyError Store} {t : Store} {u : Unit}
    (h : r.map (·, ()) = .ok (t, u)) : r = .ok t := by
  cases r with
  | error exc => cases h
  | ok t => cases h; rfl

theorem checked_ok {f : Fields} {d : Definition} (h : Definition.checked f = .ok d) :
    d.toFields = f := by
  unfold Definition.checked at h
  split at h
  · cases h
  · cases h
    rfl

theorem fromFields_ok {f : Fields} {d : Definition} (h : Definition.fromFields f = .ok d) :
    d.toFields = f := by
  unfold Definition.fromFields at h
  split at h
  · rename_i d' hd
    cases h
    obtain ⟨_, -, hchecked⟩ := bind_ok hd
    exact checked_ok hchecked
  · cases h
  · cases h

theorem get_ok {schedule_id : String} {schedule : Schedule} (h : s.get schedule_id = .ok schedule) :
    s.schedules.find? schedule_id = some schedule := by
  unfold Store.get at h
  split at h
  · rename_i hfound
    split at h
    · cases h
      exact hfound
    · cases h
  · cases h

theorem insertRevision_ok {t : Store} {schedule : Schedule}
    (h : s.insertRevision schedule = .ok t) : t = { s with revisions := s.revisions.set schedule } := by
  unfold Store.insertRevision at h
  split at h <;> cases h
  rfl

theorem create_ok {t : Store} {schedule : Schedule} (h : s.create schedule = .ok t) :
    s.schedules.find? schedule.schedule_id = none
      ∧ t = { s with schedules := s.schedules.set schedule
                     revisions := s.revisions.set schedule } := by
  unfold Store.create at h
  split at h
  · cases h
  · rename_i hnew
    split at h
    · rename_i t' hrevision
      cases h
      rw [Bool.not_eq_true, Option.isSome_eq_false_iff, Option.isNone_iff_eq_none] at hnew
      exact ⟨hnew, insertRevision_ok hrevision⟩
    · cases h

theorem revise_effect {p : Nat} {t : Store} {schedule_id : String} {expected_revision : Nat}
    {now : Time} {changes : ScheduleChanges} {updated : Schedule}
    (h : s.revise schedule_id expected_revision now changes = .ok (t, updated)) :
    Effect p s (.revise schedule_id expected_revision now changes) t := by
  obtain ⟨current, hcurrent, h⟩ := bind_ok h
  split at h
  · cases h
  · rename_i hrevision
    obtain ⟨definition, hdefinition, h⟩ := bind_ok h
    obtain ⟨t', ht, h⟩ := bind_ok h
    cases h
    rw [insertRevision_ok ht]
    exact .revise (get_ok hcurrent) (not_not.mp hrevision) (fromFields_ok hdefinition)

theorem updateRow_effect {p : Nat} {t : Store} {occurrence_id : String} {now : Time}
    {expected_states : Option (List OccurrenceState)} {changes : OccurrenceChanges}
    (h : s.updateRow occurrence_id now expected_states changes = .ok t) :
    Effect p s (.updateRow occurrence_id now expected_states changes) t := by
  unfold Store.updateRow at h
  split at h
  · rename_i row hrow
    split at h
    · rename_i hexpected
      cases h
      refine .updateRow hrow fun states hstates => ?_
      rw [Option.mem_def] at hstates
      simpa [hstates] using hexpected
    · cases h
  · cases h

theorem insertManual_effect {p : Nat} {t : Store} {request : ManualRequest}
    (h : s.insertManual request = .ok t) : Effect p s (.insertManual request) t := by
  obtain ⟨current, hcurrent, h⟩ := bind_ok h
  split at h
  · cases h
  · rename_i hrevision
    obtain ⟨state, hadmission, h⟩ := bind_ok h
    obtain ⟨hrow, rfl⟩ := insertRow_ok h
    exact .insertManual (get_ok hcurrent) (not_not.mp hrevision) hadmission hrow

theorem claimDue_effect {p : Nat} {t : Store} {claim : Claim} {row : Occurrence}
    (h : s.claimDue claim = .ok (t, row)) : Effect p s (.claimDue claim) t := by
  unfold Store.claimDue at h
  dsimp only at h
  split at h
  · split at h
    · cases h
      exact .quiet
    · cases h
  · rename_i current hschedule
    split at h
    · split at h
      · cases h
        exact .quiet
      · cases h
    · rename_i hcurrent
      rw [not_not] at hcurrent
      split at h
      · rename_i hset
        split at h
        · rename_i target htarget
          split at h
          · rename_i hqueued
            cases h
            exact .coalesced hschedule hcurrent hset htarget hqueued
          · cases h
        · cases h
      · rename_i hunset
        cases hinsert : (s.setSchedule (claim.advanced current)).insertRow claim.row with
        | error exc =>
            rw [hinsert] at h
            cases h
        | ok t' =>
            rw [hinsert] at h
            cases h
            obtain ⟨hrow, rfl⟩ := insertRow_ok hinsert
            refine .claimed hschedule hcurrent (not_not.mp hunset) ⟨hrow.id, hrow.key, ?_⟩
            change (s.schedules.find? claim.schedule.schedule_id).isSome = true
            rw [hschedule]
            rfl

theorem perform_effect (env : Env) (p : Nat) (s : Store) (o : Op) :
    Effect p s o (perform env p s o).1 := by
  cases o with
  | dueSchedules now => exact .quiet
  | inflightFor schedule_id => exact .quiet
  | listOccurrences states limit => exact .quiet
  | get schedule_id => exact .quiet
  | getRevision schedule_id revision => exact .quiet
  | getOccurrence occurrence_id => exact .quiet
  | getOccurrenceByKey occurrence_key => exact .quiet
  | create schedule =>
      refine commit_effect fun t _ h => ?_
      obtain ⟨hnew, rfl⟩ := create_ok (map_unit_ok h)
      exact .create hnew
  | revise schedule_id expected_revision now changes =>
      exact commit_effect fun t _ h => revise_effect h
  | updateRow occurrence_id now expected_states changes =>
      exact commit_effect fun t _ h => updateRow_effect (map_unit_ok h)
  | insertRow row =>
      refine commit_effect fun t _ h => ?_
      obtain ⟨hrow, rfl⟩ := insertRow_ok (map_unit_ok h)
      exact .insertRow hrow
  | insertManual request => exact commit_effect fun t _ h => insertManual_effect (map_unit_ok h)
  | claimDue claim => exact commit_effect fun t _ h => claimDue_effect h
  | lockDispatch =>
      simp only [perform]
      split
      · rename_i hfree
        exact .locked hfree
      · exact .quiet
  | unlockDispatch => exact .unlocked

/-! ## 4. One schedule, one row -/

/-- What an operation makes of a schedule. -/
inductive ScheduleMove (schedule : Schedule) : Op → Schedule → Prop where
  | same {o : Op} : ScheduleMove schedule o schedule
  | advanced {claim : Claim} (hid : schedule.schedule_id = claim.schedule.schedule_id)
      (hcurrent : claim.Current schedule) :
      ScheduleMove schedule (.claimDue claim) (claim.advanced schedule)
  | revised {expected_revision : Nat} {now : Time} {changes : ScheduleChanges}
      {definition : Definition}
      (hfields : definition.toFields = changes.fields schedule.definition.toFields) :
      ScheduleMove schedule (.revise schedule.schedule_id expected_revision now changes)
        (changes.revised schedule definition now)

/-- What an operation makes of a row. -/
inductive RowMove (row : Occurrence) : Op → Occurrence → Prop where
  | same {o : Op} : RowMove row o row
  | written {now : Time} {expected_states : Option (List OccurrenceState)}
      {changes : OccurrenceChanges} :
      RowMove row (.updateRow row.occurrence_id now expected_states changes)
        (changes.written now row)
  | coalesced {claim : Claim} (hid : row.occurrence_id = claim.coalesce_target_id)
      (hqueued : row.state = .queued) : RowMove row (.claimDue claim) (claim.coalesced row)

/-- The row that an operation inserts. -/
inductive Inserts : Op → Occurrence → Prop where
  | row {row : Occurrence} : Inserts (.insertRow row) row
  | manual {request : ManualRequest} {state : OccurrenceState} :
      Inserts (.insertManual request) (request.row state)
  | claimed {claim : Claim} : Inserts (.claimDue claim) claim.row

variable {p : Nat} {o : Op} {t : Store} {id : String}

theorem schedule_setSchedule {schedule schedule' : Schedule}
    (hfound : s.schedules.find? id = some schedule)
    (hmove : schedule'.schedule_id = id → ScheduleMove schedule o schedule') :
    ∃ new, (s.setSchedule schedule').schedules.find? id = some new
      ∧ ScheduleMove schedule o new := by
  rw [setSchedule_find?]
  split
  · rename_i hid
    exact ⟨schedule', rfl, hmove hid⟩
  · exact ⟨schedule, hfound, .same⟩

/-- Schedules are never lost, and change in two ways only. -/
theorem schedule_effect (h : Effect p s o t) {schedule : Schedule}
    (hfound : s.schedules.find? id = some schedule) :
    ∃ schedule', t.schedules.find? id = some schedule' ∧ ScheduleMove schedule o schedule' := by
  cases h with
  | @create schedule' hnew =>
      refine schedule_setSchedule hfound fun hid => ?_
      rw [← hid, hnew] at hfound
      cases hfound
  | @revise schedule_id expected_revision now changes current definition hcurrent hrevision hfields =>
      refine schedule_setSchedule hfound fun hid => ?_
      have hcid : current.schedule_id = schedule_id := Table.key_of_find? hcurrent
      change current.schedule_id = id at hid
      rw [← hid, hcid, hcurrent, Option.some.injEq] at hfound
      subst hfound hcid
      exact .revised hfields
  | @claimed claim current hschedule hcurrent htarget hrow =>
      refine schedule_setSchedule hfound fun hid => ?_
      have hcid : current.schedule_id = claim.schedule.schedule_id := Table.key_of_find? hschedule
      change current.schedule_id = id at hid
      rw [← hid, hcid, hschedule, Option.some.injEq] at hfound
      subst hfound
      exact .advanced hcid hcurrent
  | @coalesced claim current target hschedule hcurrent hset htarget hqueued =>
      refine schedule_setSchedule hfound fun hid => ?_
      have hcid : current.schedule_id = claim.schedule.schedule_id := Table.key_of_find? hschedule
      change current.schedule_id = id at hid
      rw [← hid, hcid, hschedule, Option.some.injEq] at hfound
      subst hfound
      exact .advanced hcid hcurrent
  | _ => exact ⟨schedule, hfound, .same⟩

theorem row_setRow {row row' : Occurrence} (hfound : s.occurrences.find? id = some row)
    (hmove : row'.occurrence_id = id → RowMove row o row') :
    ∃ new, (s.setRow row').occurrences.find? id = some new ∧ RowMove row o new := by
  rw [setRow_find?]
  split
  · rename_i hid
    exact ⟨row', rfl, hmove hid⟩
  · exact ⟨row, hfound, .same⟩

theorem row_effect (h : Effect p s o t) {row : Occurrence}
    (hfound : s.occurrences.find? id = some row) :
    ∃ row', t.occurrences.find? id = some row' ∧ RowMove row o row' := by
  cases h with
  | @updateRow occurrence_id now expected_states changes old hold hexpected =>
      have hid : old.occurrence_id = occurrence_id := Table.key_of_find? hold
      refine row_setRow hfound fun hwritten => ?_
      rw [written_id] at hwritten
      rw [← hwritten, hid, hold, Option.some.injEq] at hfound
      subst hfound hid
      exact .written
  | @coalesced claim current target hschedule hcurrent hset htarget hqueued =>
      have htid : target.occurrence_id = claim.coalesce_target_id := Table.key_of_find? htarget
      have hkept : (s.setSchedule (claim.advanced current)).occurrences.find? id = some row := hfound
      refine row_setRow hkept fun hid => ?_
      change target.occurrence_id = id at hid
      rw [← hid, htid, htarget, Option.some.injEq] at hfound
      subst hfound
      exact .coalesced htid hqueued
  | @insertRow row' hrow =>
      refine row_setRow hfound fun hid => ?_
      rw [← hid, hrow.id] at hfound
      cases hfound
  | @insertManual request current state hcurrent hrevision hadmission hrow =>
      refine row_setRow hfound fun hid => ?_
      rw [← hid, hrow.id] at hfound
      cases hfound
  | @claimed claim current hschedule hcurrent htarget hrow =>
      have hkept : (s.setSchedule (claim.advanced current)).occurrences.find? id = some row := hfound
      refine row_setRow hkept fun hid => ?_
      rw [← hid, hrow.id] at hfound
      cases hfound
  | _ => exact ⟨row, hfound, .same⟩

theorem Inserts.id_eq {a b : Occurrence} (ha : Inserts o a) (hb : Inserts o b) :
    a.occurrence_id = b.occurrence_id := by
  cases ha <;> cases hb <;> rfl

theorem withKey_eq_none {key : String} (h : s.withKey key = none) {row : Occurrence}
    (hrow : row ∈ s.occurrences.rows) : row.occurrence_key ≠ key := by
  have hnot := List.find?_eq_none.mp h row hrow
  simpa using hnot

theorem eq_of_setRow {row row' : Occurrence} (hnew : s.occurrences.find? id = none)
    (hfound : (s.setRow row').occurrences.find? id = some row) :
    row'.occurrence_id = id ∧ row' = row := by
  rw [setRow_find?] at hfound
  split at hfound
  · rename_i hid
    exact ⟨hid, Option.some.inj hfound⟩
  · rw [hnew] at hfound
    cases hfound

theorem inserted_effect (h : Effect p s o t) {row : Occurrence}
    (hnew : s.occurrences.find? id = none) (hfound : t.occurrences.find? id = some row) :
    Insertable s row ∧ Inserts o row := by
  cases h with
  | @updateRow occurrence_id now expected_states changes old hold hexpected =>
      obtain ⟨hid, -⟩ := eq_of_setRow hnew hfound
      rw [written_id, Table.key_of_find? hold] at hid
      rw [← hid, hold] at hnew
      cases hnew
  | @coalesced claim current target hschedule hcurrent hset htarget hqueued =>
      obtain ⟨hid, -⟩ := eq_of_setRow (s := s.setSchedule (claim.advanced current)) hnew hfound
      change target.occurrence_id = id at hid
      rw [← hid, Table.find?_key (Table.mem_of_find? htarget)] at hnew
      cases hnew
  | insertRow hrow =>
      obtain ⟨-, rfl⟩ := eq_of_setRow hnew hfound
      exact ⟨hrow, .row⟩
  | insertManual hcurrent hrevision hadmission hrow =>
      obtain ⟨-, rfl⟩ := eq_of_setRow hnew hfound
      exact ⟨hrow, .manual⟩
  | @claimed claim current hschedule hcurrent htarget hrow =>
      obtain ⟨-, rfl⟩ := eq_of_setRow (s := s.setSchedule (claim.advanced current)) hnew hfound
      exact ⟨hrow, .claimed⟩
  | _ =>
      change s.occurrences.find? id = some row at hfound
      rw [hnew] at hfound
      cases hfound

end Agenthicc.Schedules
