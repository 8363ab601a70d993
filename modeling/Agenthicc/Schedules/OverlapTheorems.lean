/-
Agenthicc.Schedules.OverlapTheorems — how many occurrences of a schedule the
overlap policies allow at once.

The dispatcher counts the others and starts an occurrence under the dispatch
lock, so nothing else adds to what is dispatched, apart from a reconciliation
that writes over a row that has ended in the meantime. What waits under
`queue_one` is counted by a run-now request in its own transaction, by a due
claim in an earlier read, and by a retry not at all. `within_policy` is the
bound for the runs in which these writes find what they take for granted.
-/
import Agenthicc.Schedules.DispatchTheorems
import Mathlib.Data.Finset.Card

namespace Agenthicc.Schedules

open Python Background Tasks Tables

variable {s t u : Store} {schedule_id occurrence_id : String} {states : List OccurrenceState}

/-! ## 1. Occurrences of a schedule in some states -/

/-- Dispatched and unfinished. -/
def DISPATCHED : List OccurrenceState := [.preparing, .waitingCapacity, .running]

/-- Not dispatched yet. -/
def WAITING : List OccurrenceState := [.awaitingService, .queued]

/-- The occurrences of a schedule in the given states. -/
def Store.inStates (s : Store) (schedule_id : String) (states : List OccurrenceState) :
    Finset String :=
  ((s.occurrences.rows.filter fun row => row.schedule_id = schedule_id ∧ row.state ∈ states).map
    Occurrence.occurrence_id).toFinset

theorem mem_inStates : occurrence_id ∈ s.inStates schedule_id states
    ↔ ∃ row, s.occurrences.find? occurrence_id = some row ∧ row.schedule_id = schedule_id
      ∧ row.state ∈ states := by
  rw [Store.inStates, List.mem_toFinset, List.mem_map]
  constructor
  · rintro ⟨row, hrow, rfl⟩
    rw [List.mem_filter, decide_eq_true_eq] at hrow
    exact ⟨row, Table.find?_key hrow.1, hrow.2⟩
  · rintro ⟨row, hrow, hstate⟩
    refine ⟨row, ?_, Table.key_of_find? hrow⟩
    rw [List.mem_filter, decide_eq_true_eq]
    exact ⟨Table.mem_of_find? hrow, hstate⟩

theorem inStates_setRow (s : Store) (row : Occurrence) :
    (s.setRow row).inStates schedule_id states
      = if row.schedule_id = schedule_id ∧ row.state ∈ states
        then insert row.occurrence_id (s.inStates schedule_id states)
        else (s.inStates schedule_id states).erase row.occurrence_id := by
  have hmem : ∀ id, id ∈ (s.setRow row).inStates schedule_id states
      ↔ if row.occurrence_id = id then row.schedule_id = schedule_id ∧ row.state ∈ states
        else id ∈ s.inStates schedule_id states := by
    intro id
    rw [mem_inStates, setRow_find?]
    split
    · simp
    · rw [mem_inStates]
  ext id
  rw [hmem]
  by_cases hid : row.occurrence_id = id
  · rw [if_pos hid, ← hid]
    split <;> simp_all
  · have hne : id ≠ row.occurrence_id := fun h => hid h.symm
    rw [if_neg hid]
    split <;> simp [hne]

/-- Of a table of one kind of states, the others are those in flight. -/
theorem inStates_others {row : Occurrence} (hsub : ∀ state ∈ states, state ∈ ACTIVE_OCCURRENCE_STATES) :
    ((s.inStates row.schedule_id states).erase row.occurrence_id).card
      ≤ (s.others row).length := by
  have hsubset : (s.inStates row.schedule_id states).erase row.occurrence_id
      ⊆ ((s.others row).map Occurrence.occurrence_id).toFinset := by
    intro id hid
    rw [Finset.mem_erase, mem_inStates] at hid
    obtain ⟨hne, other, hother, hschedule, hstate⟩ := hid
    rw [List.mem_toFinset, List.mem_map]
    refine ⟨other, ?_, Table.key_of_find? hother⟩
    have hotherid := Table.key_of_find? hother
    simp only [Store.others, Store.active, List.mem_filter, decide_eq_true_eq]
    exact ⟨⟨Table.mem_of_find? hother, hschedule, hsub _ hstate⟩, by rw [hotherid]; exact hne⟩
  calc ((s.inStates row.schedule_id states).erase row.occurrence_id).card
      ≤ ((s.others row).map Occurrence.occurrence_id).toFinset.card :=
        Finset.card_le_card hsubset
    _ ≤ ((s.others row).map Occurrence.occurrence_id).length := List.toFinset_card_le _
    _ = (s.others row).length := List.length_map _

/-! ## 2. The bounds -/

/-- How many occurrences may be dispatched at once. -/
def Schedule.limit (schedule : Schedule) : Int :=
  if schedule.coalesce_policy = .allowBounded then schedule.max_in_flight else 1

/-- The bounds of the policy of a schedule. -/
structure Bounded (s : Store) (schedule : Schedule) : Prop where
  dispatched : ((s.inStates schedule.schedule_id DISPATCHED).card : Int) ≤ schedule.limit
  waiting : schedule.coalesce_policy = .queueOne →
    (s.inStates schedule.schedule_id WAITING).card ≤ 1

/-- Every schedule is within the bounds of its policy. -/
def WithinPolicy (s : Store) : Prop := ∀ schedule ∈ s.schedules.rows, Bounded s schedule

/-- Two definitions of one policy. -/
def SamePolicy (a b : Schedule) : Prop :=
  a.coalesce_policy = b.coalesce_policy ∧ a.max_in_flight = b.max_in_flight

theorem SamePolicy.limit {a b : Schedule} (h : SamePolicy a b) : a.limit = b.limit := by
  rw [Schedule.limit, Schedule.limit, h.1, h.2]

/-- There is room for the occurrence beside the others that are dispatched. -/
def Room (s : Store) (schedule : Schedule) (occurrence_id : String) : Prop :=
  (((s.inStates schedule.schedule_id DISPATCHED).erase occurrence_id).card : Int) + 1
    ≤ schedule.limit

/-- What the writes of a run must find. A revision keeps the policy. A due
claim and a retry that add a waiting occurrence to a `queue_one` schedule find
none. A write from outside of the dispatch lock that says that a session is
under way finds its occurrence dispatched, or the lock free and room for it. -/
def Expected (p : Nat) (s : Store) : Op → Prop
  | .revise schedule_id _ _ changes => ∀ schedule, s.schedules.find? schedule_id = some schedule →
      changes.coalesce_policy.getD schedule.coalesce_policy = schedule.coalesce_policy
        ∧ changes.max_in_flight.getD schedule.max_in_flight = schedule.max_in_flight
  | .claimDue claim => ∀ schedule, s.schedules.find? claim.schedule.schedule_id = some schedule →
      claim.Current schedule → claim.coalesce_target_id = "" → Insertable s claim.row →
      schedule.coalesce_policy = .queueOne → claim.state ∈ WAITING →
      s.inStates schedule.schedule_id WAITING = ∅
  | .insertRow row => ∀ schedule, s.schedules.find? row.schedule_id = some schedule →
      Insertable s row → schedule.coalesce_policy = .queueOne → row.state ∈ WAITING →
      s.inStates schedule.schedule_id WAITING = ∅
  | .updateRow occurrence_id _ _ changes => s.dispatch_lock ≠ some p →
      (∃ state ∈ changes.state, state ∈ DISPATCHED) →
      ∀ row, s.occurrences.find? occurrence_id = some row → row.state ∈ DISPATCHED
        ∨ (s.dispatch_lock = none ∧ ∀ schedule,
          s.schedules.find? row.schedule_id = some schedule → Room s schedule occurrence_id)
  | _ => True

/-! ## 3. The argument -/

/-- Rows belong to schedules, revisions keep the policy, and the bounds hold. -/
structure Disciplined (s : Store) : Prop where
  rows : ∀ row ∈ s.occurrences.rows, (s.schedules.find? row.schedule_id).isSome
  revisions : ∀ snapshot ∈ s.revisions.rows, ∃ schedule,
    s.schedules.find? snapshot.schedule_id = some schedule ∧ SamePolicy snapshot schedule
  within : WithinPolicy s

/-- What a process promises of its writes. -/
def Promised (p : Nat) (s : Store) : Op → Prop
  | .updateRow occurrence_id _ _ changes =>
      (∀ state ∈ changes.state, state ∉ WAITING)
        ∧ ((∃ state ∈ changes.state, state ∈ DISPATCHED) →
          ∀ row, s.occurrences.find? occurrence_id = some row → row.state ∈ DISPATCHED
            ∨ ((s.dispatch_lock = none ∨ s.dispatch_lock = some p)
              ∧ ∀ schedule, s.schedules.find? row.schedule_id = some schedule →
                Room s schedule occurrence_id))
  | .claimDue claim => claim.state ∉ DISPATCHED
  | .insertRow row => row.state ∉ DISPATCHED
  | .insertManual request => ∀ schedule,
      s.schedules.find? request.schedule.schedule_id = some schedule →
        SamePolicy request.schedule schedule
  | .unlockDispatch => s.dispatch_lock = some p
  | _ => True

/-- Schedules keep their policy, occurrences their schedule. -/
structure Kept (s t : Store) : Prop where
  schedules : ∀ id schedule, s.schedules.find? id = some schedule →
    ∃ schedule', t.schedules.find? id = some schedule' ∧ SamePolicy schedule schedule'
  rows : ∀ id row, s.occurrences.find? id = some row →
    ∃ row', t.occurrences.find? id = some row' ∧ row'.schedule_id = row.schedule_id

/-- What `p` can rely on: nobody takes the dispatch lock for it or from it,
and while it holds the lock nothing else is dispatched. -/
structure Relied (p : Nat) (s t : Store) : Prop where
  kept : Kept s t
  free : s.dispatch_lock ≠ some p → t.dispatch_lock ≠ some p
  held : s.dispatch_lock = some p → t.dispatch_lock = some p
    ∧ ∀ id, t.inStates id DISPATCHED ⊆ s.inStates id DISPATCHED

theorem Kept.refl (s : Store) : Kept s s :=
  ⟨fun _ schedule h => ⟨schedule, h, rfl, rfl⟩, fun _ row h => ⟨row, h, rfl⟩⟩

theorem Kept.trans (h : Kept s t) (h' : Kept t u) : Kept s u where
  schedules id schedule hs := by
    obtain ⟨schedule', hs', hsame⟩ := h.schedules id schedule hs
    obtain ⟨schedule'', hs'', hsame'⟩ := h'.schedules id schedule' hs'
    exact ⟨schedule'', hs'', hsame.1.trans hsame'.1, hsame.2.trans hsame'.2⟩
  rows id row hr := by
    obtain ⟨row', hr', hid⟩ := h.rows id row hr
    obtain ⟨row'', hr'', hid'⟩ := h'.rows id row' hr'
    exact ⟨row'', hr'', hid'.trans hid⟩

theorem Relied.refl (p : Nat) (s : Store) : Relied p s s :=
  ⟨.refl s, fun h => h, fun h => ⟨h, fun _ => subset_rfl⟩⟩

theorem Relied.trans {p : Nat} (h : Relied p s t) (h' : Relied p t u) : Relied p s u where
  kept := h.kept.trans h'.kept
  free hs := h'.free (h.free hs)
  held hs := by
    obtain ⟨ht, hsub⟩ := h.held hs
    obtain ⟨hu, hsub'⟩ := h'.held ht
    exact ⟨hu, fun id => (hsub' id).trans (hsub id)⟩

/-! ### One write -/

theorem inStates_setRow_subset {row : Occurrence}
    (h : row.state ∈ states → row.occurrence_id ∈ s.inStates row.schedule_id states) (id : String) :
    (s.setRow row).inStates id states ⊆ s.inStates id states := by
  rw [inStates_setRow]
  split
  · rename_i hrow
    exact Finset.insert_subset (hrow.1 ▸ h hrow.2) subset_rfl
  · exact Finset.erase_subset _ _

/-- The bounds after a write: it adds nothing to what is dispatched or there
is room, and it adds nothing to what waits or nothing waits. -/
theorem bounded_setRow {schedule : Schedule} {row : Occurrence} (h : Bounded s schedule)
    (hdispatched : row.schedule_id = schedule.schedule_id → row.state ∈ DISPATCHED →
      row.occurrence_id ∈ s.inStates row.schedule_id DISPATCHED
        ∨ Room s schedule row.occurrence_id)
    (hwaiting : row.schedule_id = schedule.schedule_id → schedule.coalesce_policy = .queueOne →
      row.state ∈ WAITING → row.occurrence_id ∈ s.inStates row.schedule_id WAITING
        ∨ s.inStates schedule.schedule_id WAITING = ∅) : Bounded (s.setRow row) schedule where
  dispatched := by
    rw [inStates_setRow]
    split
    · rename_i hrow
      rcases hdispatched hrow.1 hrow.2 with hin | hroom
      · rw [Finset.insert_eq_self.mpr (hrow.1 ▸ hin)]
        exact h.dispatched
      · have hcard := Finset.card_insert_le row.occurrence_id
          ((s.inStates schedule.schedule_id DISPATCHED).erase row.occurrence_id)
        have hinsert : insert row.occurrence_id
            ((s.inStates schedule.schedule_id DISPATCHED).erase row.occurrence_id)
              = insert row.occurrence_id (s.inStates schedule.schedule_id DISPATCHED) := by
          ext id
          simp only [Finset.mem_insert, Finset.mem_erase]
          tauto
        rw [hinsert] at hcard
        unfold Room at hroom
        omega
    · have hcard := Finset.card_erase_le (s := s.inStates schedule.schedule_id DISPATCHED)
        (a := row.occurrence_id)
      have hbound := h.dispatched
      omega
  waiting hpolicy := by
    rw [inStates_setRow]
    split
    · rename_i hrow
      rcases hwaiting hrow.1 hpolicy hrow.2 with hin | hempty
      · rw [Finset.insert_eq_self.mpr (hrow.1 ▸ hin)]
        exact h.waiting hpolicy
      · rw [hempty]
        exact le_of_eq (Finset.card_singleton _)
    · exact le_trans (Finset.card_le_card (Finset.erase_subset _ _)) (h.waiting hpolicy)

theorem disciplined_setRow {row : Occurrence} (h : Disciplined s)
    (hfk : (s.schedules.find? row.schedule_id).isSome)
    (hdispatched : ∀ schedule, s.schedules.find? row.schedule_id = some schedule →
      row.state ∈ DISPATCHED → row.occurrence_id ∈ s.inStates row.schedule_id DISPATCHED
        ∨ Room s schedule row.occurrence_id)
    (hwaiting : ∀ schedule, s.schedules.find? row.schedule_id = some schedule →
      schedule.coalesce_policy = .queueOne → row.state ∈ WAITING →
      row.occurrence_id ∈ s.inStates row.schedule_id WAITING
        ∨ s.inStates schedule.schedule_id WAITING = ∅) : Disciplined (s.setRow row) where
  rows other hother := by
    rcases Table.mem_set.mp hother with rfl | ⟨hold, -⟩
    · exact hfk
    · exact h.rows other hold
  revisions := h.revisions
  within schedule hschedule := by
    have hfound : ∀ {id}, id = schedule.schedule_id → s.schedules.find? id = some schedule :=
      fun hid => hid ▸ Table.find?_key hschedule
    exact bounded_setRow (h.within schedule hschedule)
      (fun hid => hdispatched schedule (hfound hid)) (fun hid => hwaiting schedule (hfound hid))

theorem disciplined_setSchedule {schedule current : Schedule} (h : Disciplined s)
    (hcurrent : s.schedules.find? schedule.schedule_id = some current)
    (hsame : SamePolicy current schedule) : Disciplined (s.setSchedule schedule) where
  rows row hrow := by
    rw [setSchedule_find?]
    split
    · rfl
    · exact h.rows row hrow
  revisions snapshot hsnapshot := by
    obtain ⟨other, hother, hpolicy⟩ := h.revisions snapshot hsnapshot
    rw [setSchedule_find?]
    split
    · rename_i hid
      rw [← hid, hcurrent, Option.some.injEq] at hother
      rw [← hother] at hpolicy
      exact ⟨schedule, rfl, hpolicy.1.trans hsame.1, hpolicy.2.trans hsame.2⟩
    · exact ⟨other, hother, hpolicy⟩
  within other hother := by
    rcases Table.mem_set.mp hother with rfl | ⟨hold, -⟩
    · have hbound := h.within current (Table.mem_of_find? hcurrent)
      have hid : current.schedule_id = other.schedule_id := Table.key_of_find? hcurrent
      refine ⟨?_, fun hpolicy => ?_⟩
      · rw [← hsame.limit, ← hid]
        exact hbound.dispatched
      · rw [← hid]
        exact hbound.waiting (hsame.1.trans hpolicy)
    · exact ⟨(h.within other hold).dispatched, (h.within other hold).waiting⟩

/-! ### One operation -/

theorem inStates_written {row : Occurrence} {changes : OccurrenceChanges} {now : Time}
    (hrow : s.occurrences.find? occurrence_id = some row)
    (h : (changes.written now row).state ∈ states → row.state ∈ states) :
    (changes.written now row).state ∈ states →
      (changes.written now row).occurrence_id
        ∈ s.inStates (changes.written now row).schedule_id states := by
  intro hstate
  have hid : row.occurrence_id = occurrence_id := Table.key_of_find? hrow
  rw [written_id, written_schedule_id, hid]
  exact mem_inStates.mpr ⟨row, hrow, rfl, h hstate⟩

theorem admission_ok {schedule : Schedule} {inflight : List OccurrenceState} {state : OccurrenceState}
    (h : Store.admission schedule inflight = .ok state) : state ∉ DISPATCHED
      ∧ (schedule.coalesce_policy = .queueOne → ∀ other ∈ inflight, other ∉ WAITING) := by
  unfold Store.admission at h
  split at h
  · rename_i hpolicy
    split at h
    · cases h
    · cases h
      exact ⟨by decide, fun hone => absurd (hpolicy.symm.trans hone) (by decide)⟩
  · split at h
    · cases h
    · rename_i hnone
      have hall : ∀ other ∈ inflight, other ∉ WAITING := by
        intro other hother hwaiting
        refine hnone (List.any_eq_true.mpr ⟨other, hother, ?_⟩)
        simpa [WAITING] using hwaiting
      split at h
      · cases h
        exact ⟨by decide, fun _ => hall⟩
      · cases h
        exact ⟨by decide, fun _ => hall⟩
  · rename_i hpolicy
    split at h
    · cases h
    · cases h
      exact ⟨by decide, fun hone => absurd (hpolicy.symm.trans hone) (by decide)⟩

theorem inStates_waiting_empty
    (h : ∀ state ∈ (s.active schedule_id).map (·.state), state ∉ WAITING) :
    s.inStates schedule_id WAITING = ∅ := by
  refine Finset.eq_empty_of_forall_notMem fun id hid => ?_
  obtain ⟨row, hrow, hschedule, hstate⟩ := mem_inStates.mp hid
  refine h row.state (List.mem_map_of_mem ?_) hstate
  rw [Store.active, List.mem_filter, decide_eq_true_eq]
  refine ⟨Table.mem_of_find? hrow, hschedule, ?_⟩
  revert hstate
  cases row.state <;> decide

theorem disciplined_lock (h : Disciplined s) (lock : Option Nat) :
    Disciplined { s with dispatch_lock := lock } :=
  ⟨h.rows, h.revisions, fun schedule hschedule =>
    ⟨(h.within schedule hschedule).dispatched, (h.within schedule hschedule).waiting⟩⟩

theorem limit_pos (schedule : Schedule) : 1 ≤ schedule.limit := by
  unfold Schedule.limit
  split
  · exact schedule.definition.limits.1
  · exact le_rfl

theorem disciplined_newSchedule {schedule : Schedule} (h : Disciplined s)
    (hnew : s.schedules.find? schedule.schedule_id = none) :
    Disciplined (s.setSchedule schedule) where
  rows row hrow := by
    rw [setSchedule_find?]
    split
    · rfl
    · exact h.rows row hrow
  revisions snapshot hsnapshot := by
    obtain ⟨other, hother, hpolicy⟩ := h.revisions snapshot hsnapshot
    refine ⟨other, ?_, hpolicy⟩
    rw [setSchedule_find?, if_neg, hother]
    rintro hid
    rw [← hid, hnew] at hother
    cases hother
  within other hother := by
    rcases Table.mem_set.mp hother with rfl | ⟨hold, -⟩
    · -- A new schedule has no occurrences.
      have hempty : ∀ states, s.inStates other.schedule_id states = ∅ := by
        refine fun states => Finset.eq_empty_of_forall_notMem fun id hid => ?_
        obtain ⟨row, hrow, hschedule, -⟩ := mem_inStates.mp hid
        have hfk := h.rows row (Table.mem_of_find? hrow)
        rw [hschedule, hnew] at hfk
        cases hfk
      have hsame : ∀ states, (s.setSchedule other).inStates other.schedule_id states = ∅ := hempty
      have hlimit := limit_pos other
      refine ⟨?_, fun _ => ?_⟩
      · rw [hsame, Finset.card_empty]
        omega
      · rw [hsame]
        exact Nat.zero_le _
    · exact ⟨(h.within other hold).dispatched, (h.within other hold).waiting⟩

theorem disciplined_setRevision {snapshot schedule : Schedule} (h : Disciplined s)
    (hschedule : s.schedules.find? snapshot.schedule_id = some schedule)
    (hsame : SamePolicy snapshot schedule) :
    Disciplined { s with revisions := s.revisions.set snapshot } where
  rows := h.rows
  revisions other hother := by
    rcases Table.mem_set.mp hother with rfl | ⟨hold, -⟩
    · exact ⟨schedule, hschedule, hsame⟩
    · exact h.revisions other hold
  within other hother := ⟨(h.within other hother).dispatched, (h.within other hother).waiting⟩

theorem samePolicy_revised {changes : ScheduleChanges} {current : Schedule}
    {definition : Definition} {now : Time}
    (hfields : definition.toFields = changes.fields current.definition.toFields)
    (hpolicy : changes.coalesce_policy.getD current.coalesce_policy = current.coalesce_policy)
    (hmax : changes.max_in_flight.getD current.max_in_flight = current.max_in_flight) :
    SamePolicy current (changes.revised current definition now) := by
  constructor
  · change _ = definition.toFields.coalesce_policy
    rw [hfields]
    exact hpolicy.symm
  · change _ = definition.toFields.max_in_flight
    rw [hfields]
    exact hmax.symm

theorem disciplined_advanced {claim : Claim} {current : Schedule} (h : Disciplined s)
    (hschedule : s.schedules.find? claim.schedule.schedule_id = some current) :
    Disciplined (s.setSchedule (claim.advanced current)) := by
  have hid : current.schedule_id = claim.schedule.schedule_id := Table.key_of_find? hschedule
  have hfound : s.schedules.find? (claim.advanced current).schedule_id = some current := by
    change s.schedules.find? current.schedule_id = _
    rw [hid, hschedule]
  exact disciplined_setSchedule h hfound ⟨rfl, rfl⟩

theorem disciplined_effect {p : Nat} {o : Op} (h : Disciplined s) (heffect : Effect p s o t)
    (hexpected : Expected p s o) (hpromised : Promised p s o) : Disciplined t := by
  cases heffect with
  | quiet => exact h
  | locked hfree => exact disciplined_lock h _
  | unlocked => exact disciplined_lock h _
  | @create schedule hnew =>
      exact disciplined_setRevision (disciplined_newSchedule h hnew)
        (Table.find?_set_self _ schedule) ⟨rfl, rfl⟩
  | @revise schedule_id expected_revision now changes current definition hcurrent hrevision hfields =>
      have hid : current.schedule_id = schedule_id := Table.key_of_find? hcurrent
      obtain ⟨hpolicy, hmax⟩ := hexpected current hcurrent
      have hset : Disciplined (s.setSchedule (changes.revised current definition now)) :=
        disciplined_setSchedule h (hid ▸ hcurrent) (samePolicy_revised hfields hpolicy hmax)
      exact disciplined_setRevision hset (Table.find?_set_self _ _) ⟨rfl, rfl⟩
  | @updateRow occurrence_id now expected_states changes row hrow hexpect =>
      have hid : row.occurrence_id = occurrence_id := Table.key_of_find? hrow
      obtain ⟨hwaits, henters⟩ := hpromised
      refine disciplined_setRow h (h.rows row (Table.mem_of_find? hrow))
        (fun schedule hschedule hstate => ?_) fun schedule hschedule hone hstate => ?_
      · cases hchange : changes.state with
        | none => exact .inl (inStates_written hrow (by simp [hchange]) hstate)
        | some state =>
            have hin : state ∈ DISPATCHED := by simpa [hchange] using hstate
            rcases henters ⟨state, hchange, hin⟩ row hrow with hthere | ⟨-, hroom⟩
            · exact .inl (inStates_written hrow (fun _ => hthere) hstate)
            · refine .inr ?_
              rw [written_id, hid]
              exact hroom schedule hschedule
      · cases hchange : changes.state with
        | none => exact .inl (inStates_written hrow (by simp [hchange]) hstate)
        | some state =>
            have hin : state ∈ WAITING := by simpa [hchange] using hstate
            exact absurd hin (hwaits state hchange)
  | @insertRow row hrow =>
      exact disciplined_setRow h hrow.schedule (fun _ _ hstate => absurd hstate hpromised)
        fun schedule hschedule hone hstate => .inr (hexpected schedule hschedule hrow hone hstate)
  | @insertManual request current state hcurrent hrevision hadmission hrow =>
      obtain ⟨hstate, hnone⟩ := admission_ok hadmission
      refine disciplined_setRow h hrow.schedule (fun _ _ hin => absurd hin hstate)
        fun schedule hschedule hone _ => .inr ?_
      have hid : schedule.schedule_id = request.schedule.schedule_id :=
        Table.key_of_find? hschedule
      rw [hid]
      exact inStates_waiting_empty (hnone ((hpromised schedule hschedule).1.trans hone))
  | @claimed claim current hschedule hcurrent htarget hrow =>
      have hid : current.schedule_id = claim.schedule.schedule_id := Table.key_of_find? hschedule
      have hset := disciplined_advanced h hschedule
      have hfound : (s.setSchedule (claim.advanced current)).schedules.find?
          claim.row.schedule_id = some (claim.advanced current) := by
        rw [setSchedule_find?]
        exact if_pos hid
      refine disciplined_setRow hset (by rw [hfound]; rfl)
        (fun _ _ hstate => absurd hstate hpromised) fun schedule hother hone hstate => .inr ?_
      rw [hfound, Option.some.injEq] at hother
      rw [← hother]
      rw [← hother] at hone
      exact hexpected current hschedule hcurrent htarget hrow hone hstate
  | @coalesced claim current target hschedule hcurrent hset htarget hqueued =>
      have hadvanced := disciplined_advanced h hschedule
      have htid : target.occurrence_id = claim.coalesce_target_id := Table.key_of_find? htarget
      have hstate : (claim.coalesced target).state = .queued := hqueued
      refine disciplined_setRow hadvanced
        (hadvanced.rows target (Table.mem_of_find? htarget)) (fun _ _ hin => ?_)
        fun schedule hother hone _ => .inl ?_
      · rw [hstate] at hin
        exact absurd hin (by decide)
      · refine mem_inStates.mpr ⟨target, ?_, rfl, ?_⟩
        · change s.occurrences.find? target.occurrence_id = _
          rw [htid, htarget]
        · rw [hqueued]
          decide

theorem kept_effect {p : Nat} {o : Op} (heffect : Effect p s o t) (hexpected : Expected p s o) :
    Kept s t where
  schedules id schedule hfound := by
    obtain ⟨schedule', hfound', hmove⟩ := schedule_effect heffect hfound
    refine ⟨schedule', hfound', ?_⟩
    cases hmove with
    | same => exact ⟨rfl, rfl⟩
    | advanced hid hcurrent => exact ⟨rfl, rfl⟩
    | revised hfields =>
        have hid : schedule.schedule_id = id := Table.key_of_find? hfound
        obtain ⟨hpolicy, hmax⟩ := hexpected schedule (hid ▸ hfound)
        exact samePolicy_revised hfields hpolicy hmax
  rows id row hfound := by
    obtain ⟨row', hfound', hmove⟩ := row_effect heffect hfound
    refine ⟨row', hfound', ?_⟩
    cases hmove <;> rfl

/-- An operation of another process adds nothing to what is dispatched while
`p` holds the lock. -/
theorem dispatched_effect {p q : Nat} {o : Op} (hne : q ≠ p) (heffect : Effect q s o t)
    (hpromised : Promised q s o) (hlock : s.dispatch_lock = some p) (id : String) :
    t.inStates id DISPATCHED ⊆ s.inStates id DISPATCHED := by
  cases heffect with
  | quiet => exact subset_rfl
  | locked hfree => exact subset_rfl
  | unlocked => exact subset_rfl
  | create hnew => exact subset_rfl
  | revise hcurrent hrevision hfields => exact subset_rfl
  | @updateRow occurrence_id now expected_states changes row hrow hexpect =>
      refine inStates_setRow_subset (inStates_written hrow fun hstate => ?_) id
      cases hchange : changes.state with
      | none => simpa [hchange] using hstate
      | some state =>
          have hin : state ∈ DISPATCHED := by simpa [hchange] using hstate
          rcases hpromised.2 ⟨state, hchange, hin⟩ row hrow with hthere | ⟨hfree | hmine, -⟩
          · exact hthere
          · rw [hlock] at hfree
            cases hfree
          · rw [hlock, Option.some.injEq] at hmine
            exact absurd hmine.symm hne
  | insertRow hrow => exact inStates_setRow_subset (fun hstate => absurd hstate hpromised) id
  | insertManual hcurrent hrevision hadmission hrow =>
      exact inStates_setRow_subset (fun hstate => absurd hstate (admission_ok hadmission).1) id
  | @claimed claim current hschedule hcurrent htarget hrow =>
      have hstate : claim.row.state ∉ DISPATCHED := hpromised
      exact inStates_setRow_subset (s := s.setSchedule (claim.advanced current))
        (fun hin => absurd hin hstate) id
  | @coalesced claim current target hschedule hcurrent hset htarget hqueued =>
      refine inStates_setRow_subset (s := s.setSchedule (claim.advanced current))
        (fun hstate => ?_) id
      have hstill : (claim.coalesced target).state = .queued := hqueued
      rw [hstill] at hstate
      exact absurd hstate (by decide)

theorem lock_effect {p : Nat} {o : Op} (heffect : Effect p s o t) :
    t.dispatch_lock = s.dispatch_lock
      ∨ (o = .lockDispatch ∧ s.dispatch_lock = none ∧ t.dispatch_lock = some p)
      ∨ (o = .unlockDispatch ∧ t.dispatch_lock = none) := by
  cases heffect with
  | locked hfree => exact .inr (.inl ⟨rfl, hfree, rfl⟩)
  | unlocked => exact .inr (.inr ⟨rfl, rfl⟩)
  | _ => exact .inl rfl

/-- The rely/guarantee argument for the bounds. -/
def overlap (env : Env) : Discipline (system env) where
  Inv := Disciplined
  Idle p s := s.dispatch_lock ≠ some p
  Ok := Expected
  Rely := Relied
  Guar := Promised
  rely_refl := Relied.refl
  rely_trans := Relied.trans
  idle_rely h := h.free
  guar_inv {p s o} hinv hok hguar := disciplined_effect hinv (perform_effect env p s o) hok hguar
  guar_rely {p q s o} hne _ hok hguar := by
    have heffect := perform_effect env q s o
    refine ⟨kept_effect heffect hok, fun hfree => ?_, fun hlock => ⟨?_, ?_⟩⟩
    · rcases lock_effect heffect with hsame | ⟨-, -, hlocked⟩ | ⟨-, hnone⟩
      · exact hsame ▸ hfree
      · exact fun h => hne (Option.some.inj (hlocked.symm.trans h))
      · exact fun h => nomatch hnone.symm.trans h
    · rcases lock_effect heffect with hsame | ⟨-, hnone, -⟩ | ⟨rfl, -⟩
      · exact hsame.trans hlock
      · rw [hlock] at hnone
        cases hnone
      · exact absurd (Option.some.inj (hlock.symm.trans hguar)) hne.symm
    · exact dispatched_effect hne heffect hguar hlock
  died_inv {p s} h := by
    change Disciplined (died p s)
    unfold died
    split
    · exact disciplined_lock h none
    · exact h
  died_rely {p q s} hne _ := by
    change Relied p s (died q s)
    unfold died
    split
    · rename_i hq
      refine ⟨⟨(Kept.refl s).schedules, (Kept.refl s).rows⟩, (fun _ h => nomatch h), fun hp => ?_⟩
      exact absurd (Option.some.inj (hq.symm.trans hp)) hne
    · exact .refl p s

/-! ## 4. What the programs promise -/

section Programs

variable {env : Env} {p : Nat} {J : Store → Prop} {α : Type} {Q : α → Store → Prop} {now : Time}

/-- An operation whose reply is not needed, from what is known. -/
theorem wp_op {o : Op} {next : o.Reply → Prog α} (hJ : (overlap env).Stable p J) (h : J s)
    (hguar : ∀ s, J s → Disciplined s → Expected p s o → Promised p s o)
    (hkeep : ∀ s, J s → Disciplined s → Expected p s o → J (perform env p s o).1)
    (hnext : ∀ r s, J s → (overlap env).Wp p (next r) Q s) :
    (overlap env).Wp p (.call o next) Q s :=
  Discipline.Wp.call hJ h fun s' hj hi hok =>
    ⟨hguar s' hj hi hok, hnext _ _ (hkeep s' hj hi hok)⟩

theorem stable_idle : (overlap env).Stable p fun s => s.dispatch_lock ≠ some p :=
  fun hr h => hr.free h

theorem idle_perform {o : Op} (hlock : o ≠ .lockDispatch) (h : s.dispatch_lock ≠ some p) :
    (perform env p s o).1.dispatch_lock ≠ some p := by
  rcases lock_effect (perform_effect env p s o) with hsame | ⟨rfl, -, -⟩ | ⟨-, hnone⟩
  · exact hsame ▸ h
  · exact absurd rfl hlock
  · exact fun hp => nomatch hnone.symm.trans hp

theorem wp_idle {o : Op} {next : o.Reply → Prog α} (hlock : o ≠ .lockDispatch)
    (h : s.dispatch_lock ≠ some p)
    (hguar : ∀ s, s.dispatch_lock ≠ some p → Expected p s o → Promised p s o)
    (hnext : ∀ r s, s.dispatch_lock ≠ some p → (overlap env).Wp p (next r) Q s) :
    (overlap env).Wp p (.call o next) Q s :=
  wp_op stable_idle h (fun s hs _ hok => hguar s hs hok) (fun _ hs _ _ => idle_perform hlock hs)
    hnext

abbrev IdleWp (env : Env) (p : Nat) (t : Prog α) : Prop :=
  ∀ s : Store, s.dispatch_lock ≠ some p →
    (overlap env).Wp p t (fun _ s => s.dispatch_lock ≠ some p) s

theorem wp_done (a : α) : IdleWp env p (.done a) := fun _ h => h

theorem wp_ask {o : Op} (hlock : o ≠ .lockDispatch)
    (hguar : ∀ s, s.dispatch_lock ≠ some p → Expected p s o → Promised p s o) :
    IdleWp env p (Task.ask o) := fun _ h => wp_idle hlock h hguar fun _ _ h => h

/-- A write that changes no state, or reports what became of a session. -/
theorem wp_writeOccurrence {changes : OccurrenceChanges}
    (hstate : ∀ state ∈ changes.state, state ∉ WAITING) :
    IdleWp env p (writeOccurrence occurrence_id now changes) := by
  refine fun s h => wp_idle (by simp) h (fun s hs hok => ⟨hstate, fun henters => ?_⟩) ?_
  · exact fun row hrow => (hok hs henters row hrow).imp_right (And.imp_left .inl)
  · intro r s hs
    cases r with
    | error exc => exact hs
    | ok u => exact wp_idle (by simp) hs (fun _ _ _ => by trivial) fun _ _ hs => hs

theorem wp_revised (change : Schedule → Except PyError (Option (Time × ScheduleChanges))) :
    IdleWp env p (revised schedule_id change) := by
  intro s h
  rw [revised, Task.bind_ask]
  refine wp_idle (by simp) h (fun _ _ _ => by trivial) fun r s hs => ?_
  cases r with
  | error exc => exact hs
  | ok schedule =>
      dsimp only
      split
      · exact hs
      · exact hs
      · exact wp_ask (by simp) (fun _ _ _ => by trivial) s hs

theorem wp_onIntegrityError (key : String) : IdleWp env p (onIntegrityError key) := by
  intro s h
  rw [onIntegrityError, Task.bind_ask]
  refine wp_idle (by simp) h (fun _ _ _ => by trivial) fun r s hs => ?_
  cases r <;> exact hs

theorem wp_afterInsert (occurrence_id key : String) (r : Except PyError Unit) :
    IdleWp env p (afterInsert occurrence_id key r) := by
  intro s h
  cases r with
  | error exc =>
      rw [afterInsert]
      split
      · exact wp_onIntegrityError key s h
      · exact h
  | ok u => exact wp_ask (by simp) (fun _ _ _ => by trivial) s h

theorem wp_create {schedule_id : String} {fields : Fields} {creator : String} :
    IdleWp env p (managerCreate env schedule_id fields creator now) := by
  unfold managerCreate
  dsimp only
  split
  · exact wp_done _
  · exact wp_ask (by simp) fun _ _ _ => by trivial

theorem wp_runNow {occurrence_id actor : String} :
    IdleWp env p (runNow env schedule_id occurrence_id actor now) := by
  intro s h
  simp only [runNow, createManualOccurrence, Task.bind_ask]
  refine Discipline.Wp.call stable_idle h fun s hs _ _ => ⟨trivial, ?_⟩
  have hreply : ((system env).perform p s (Op.get schedule_id)).2 = s.get schedule_id := rfl
  rw [hreply]
  cases hget : s.get schedule_id with
  | error exc => exact hs
  | ok schedule =>
      have hfound := get_ok hget
      have hid : schedule.schedule_id = schedule_id := Table.key_of_find? hfound
      -- The schedule keeps the policy that was read.
      have hstable : (overlap env).Stable p fun s => s.dispatch_lock ≠ some p
          ∧ ∃ current, s.schedules.find? schedule.schedule_id = some current
            ∧ SamePolicy schedule current := by
        rintro s t hr ⟨hlock, current, hcurrent, hsame⟩
        obtain ⟨current', hcurrent', hsame'⟩ := hr.kept.schedules _ _ hcurrent
        exact ⟨hr.free hlock, current', hcurrent', hsame.1.trans hsame'.1, hsame.2.trans hsame'.2⟩
      refine Discipline.Wp.call hstable ⟨hs, schedule, hid ▸ hfound, rfl, rfl⟩
        fun s hs _ _ => ⟨?_, ?_⟩
      · intro other hother
        obtain ⟨-, current, hcurrent, hsame⟩ := hs
        have heq : current = other := Option.some.inj (hcurrent.symm.trans hother)
        exact heq ▸ hsame
      · exact wp_afterInsert _ _ _ _ (idle_perform (by simp) hs.1)

theorem wp_retry {occurrence_id occurrence_id_new actor : String} :
    IdleWp env p (retry env schedule_id occurrence_id occurrence_id_new actor now) := by
  intro s h
  simp only [retry, createOccurrence, Task.bind_ask]
  refine wp_idle (by simp) h (fun _ _ _ => by trivial) fun r s hs => ?_
  cases r with
  | error exc => exact hs
  | ok original =>
      dsimp only
      split
      · exact hs
      · split
        · exact hs
        · refine wp_idle (by simp) hs (fun _ _ _ => by trivial) fun r s hs => ?_
          cases r with
          | error exc => exact hs
          | ok snapshot =>
              dsimp only
              split
              · exact hs
              · refine wp_idle (by simp) hs (fun _ _ _ => ?_) fun r s hs => ?_
                · change OccurrenceState.awaitingService ∉ DISPATCHED
                  decide
                · exact wp_afterInsert _ _ r s hs

/-! ### The pass -/

theorem reconciled_notWaiting {lookup : Lookup} {row : Occurrence} {changes : OccurrenceChanges}
    (h : reconciled lookup row = some changes) : ∀ state ∈ changes.state, state ∉ WAITING := by
  unfold reconciled at h
  split at h
  · cases h
  · split at h
    · cases h
    · cases h
    · rename_i session _
      rw [reconciledState_eq] at h
      cases hstatus : session.status <;> simp only [hstatus] at h <;> first
        | cases h
        | (split at h
           · cases h
           · cases h
             intro state hstate
             cases hstate
             decide)

theorem wp_reconcileBackground {lookup : Option Lookup} :
    IdleWp env p (reconcileBackground now lookup) := by
  unfold reconcileBackground
  cases lookup with
  | none => exact wp_done _
  | some lookup =>
      intro s h
      dsimp only
      rw [Task.bind_ask]
      refine wp_idle (by simp) h (fun _ _ _ => by trivial) fun r s hs => ?_
      cases r with
      | error exc => exact hs
      | ok rows =>
          refine Discipline.Wp.each (fun row _ s hs => ?_) hs
          unfold reconcileOne
          split
          · exact hs
          · rename_i changes hchanges
            exact wp_writeOccurrence (reconciled_notWaiting hchanges) s hs

theorem dueState_notDispatched (schedule : Schedule) (inflight : List Occurrence) :
    (dueState schedule inflight).1 ∉ DISPATCHED := by
  unfold dueState
  split
  · simp [DISPATCHED]
  · split
    · split <;> simp [DISPATCHED]
    · split <;> simp [DISPATCHED]

theorem wp_noteSkipped (claimed : Except PyError Occurrence) : IdleWp env p (noteSkipped now claimed) := by
  cases claimed with
  | error exc => exact wp_done _
  | ok occurrence =>
      rw [noteSkipped]
      split
      · exact wp_writeOccurrence fun _ h => nomatch h
      · exact wp_done _

theorem wp_claimDueOccurrence {claim : Claim} (h : claim.state ∉ DISPATCHED) :
    IdleWp env p (claimDueOccurrence claim) := by
  intro s hs
  rw [claimDueOccurrence, Task.bind_ask]
  refine wp_idle (by simp) hs (fun _ _ _ => h) fun r s hs => ?_
  cases r with
  | error exc =>
      dsimp only
      split
      · exact wp_onIntegrityError _ s hs
      · exact hs
  | ok row => exact hs

theorem wp_claimDue : IdleWp env p (claimDue env now) := by
  intro s h
  rw [claimDue, Task.bind_ask]
  refine wp_idle (by simp) h (fun _ _ _ => by trivial) fun due s hs => ?_
  refine Discipline.Wp.each (fun schedule _ s hs => ?_) hs
  unfold claimOne
  split
  · exact hs
  · rename_i previous _
    split
    · exact hs
    · rename_i next_run _
      rw [Task.bind_ask]
      refine wp_idle (by simp) hs (fun _ _ _ => by trivial) fun inflight s hs => ?_
      refine Discipline.Wp.bind ((wp_claimDueOccurrence ?_ s hs).imp fun claimed s hs => ?_)
      · exact dueState_notDispatched schedule inflight
      · exact Discipline.Wp.bind ((wp_noteSkipped claimed s hs).imp fun _ _ hs => hs)

/-! ### Dispatch -/

/-- What a dispatcher knows of the rows that it has read. -/
structure Holding (p : Nat) (rows : List Occurrence) (s : Store) : Prop where
  lock : s.dispatch_lock = some p
  found : ∀ row ∈ rows, ∃ current, s.occurrences.find? row.occurrence_id = some current
    ∧ current.schedule_id = row.schedule_id

variable (env) in
theorem stable_holding {rows : List Occurrence} : (overlap env).Stable p (Holding p rows) := by
  intro s t hr h
  refine ⟨(hr.held h.lock).1, fun row hrow => ?_⟩
  obtain ⟨current, hcurrent, hid⟩ := h.found row hrow
  obtain ⟨current', hcurrent', hid'⟩ := hr.kept.rows _ _ hcurrent
  exact ⟨current', hcurrent', hid'.trans hid⟩

theorem holding_perform {rows : List Occurrence} {o : Op} (hunlock : o ≠ .unlockDispatch)
    (hexpected : Expected p s o) (h : Holding p rows s) :
    Holding p rows (perform env p s o).1 := by
  have heffect := perform_effect env p s o
  refine ⟨?_, fun row hrow => ?_⟩
  · rcases lock_effect heffect with hsame | ⟨-, hfree, -⟩ | ⟨heq, -⟩
    · rw [hsame, h.lock]
    · rw [h.lock] at hfree
      cases hfree
    · exact absurd heq hunlock
  · obtain ⟨current, hcurrent, hid⟩ := h.found row hrow
    obtain ⟨current', hcurrent', hid'⟩ := (kept_effect heffect hexpected).rows _ _ hcurrent
    exact ⟨current', hcurrent', hid'.trans hid⟩

/-- An update of an occurrence, from what its writer knows. -/
theorem wp_write {changes : OccurrenceChanges} (hJ : (overlap env).Stable p J) (h : J s)
    (hguar : ∀ s, J s → Promised p s (.updateRow occurrence_id now none changes))
    (hkeep : ∀ s, J s → Expected p s (.updateRow occurrence_id now none changes) →
      J (perform env p s (.updateRow occurrence_id now none changes)).1) :
    (overlap env).Wp p (writeOccurrence occurrence_id now changes) (fun _ => J) s := by
  refine wp_op hJ h (fun s hs _ _ => hguar s hs) (fun s hs _ hok => hkeep s hs hok) fun r s hs => ?_
  cases r with
  | error exc => exact hs
  | ok u => exact Discipline.Wp.call hJ hs fun s hs _ _ => ⟨trivial, hs⟩

theorem wp_writeClosed {rows : List Occurrence} {changes : OccurrenceChanges}
    (hwaiting : ∀ state ∈ changes.state, state ∉ WAITING)
    (hdispatched : ∀ state ∈ changes.state, state ∉ DISPATCHED) (h : Holding p rows s) :
    (overlap env).Wp p (writeOccurrence occurrence_id now changes) (fun _ => Holding p rows) s :=
  wp_write (stable_holding env) h
    (fun _ _ => ⟨hwaiting, fun ⟨state, hstate, hin⟩ => absurd hin (hdispatched state hstate)⟩)
    fun _ hs hok => holding_perform (by simp) hok hs

/-- What the dispatcher knows of the occurrence that it starts. -/
structure Reserved (p : Nat) (rows : List Occurrence) (schedule : Schedule)
    (occurrence : Occurrence) (s : Store) : Prop extends Holding p rows s where
  listed : occurrence ∈ rows
  owned : occurrence.schedule_id = schedule.schedule_id
  policy : ∃ current, s.schedules.find? schedule.schedule_id = some current
    ∧ SamePolicy schedule current
  room : Room s schedule occurrence.occurrence_id

section Reserved

variable {rows : List Occurrence} {schedule : Schedule} {occurrence : Occurrence}

theorem stable_reserved : (overlap env).Stable p (Reserved p rows schedule occurrence) := by
  intro s t hr h
  obtain ⟨current, hcurrent, hsame⟩ := h.policy
  obtain ⟨current', hcurrent', hsame'⟩ := hr.kept.schedules _ _ hcurrent
  refine ⟨stable_holding env hr h.toHolding, h.listed, h.owned,
    ⟨current', hcurrent', hsame.1.trans hsame'.1, hsame.2.trans hsame'.2⟩, ?_⟩
  have hcard := Finset.card_le_card (Finset.erase_subset_erase occurrence.occurrence_id
    ((hr.held h.lock).2 schedule.schedule_id))
  have hroom := h.room
  unfold Room at hroom ⊢
  omega

theorem room_updateRow {expected : Option (List OccurrenceState)} {changes : OccurrenceChanges}
    (h : Room s schedule occurrence_id) :
    Room (perform env p s (.updateRow occurrence_id now expected changes)).1 schedule
      occurrence_id := by
  have heffect := perform_effect env p s (.updateRow occurrence_id now expected changes)
  generalize (perform env p s (.updateRow occurrence_id now expected changes)).1 = t at heffect
  cases heffect with
  | quiet => exact h
  | @updateRow _ _ _ _ row hrow hexpected =>
      have hid : row.occurrence_id = occurrence_id := Table.key_of_find? hrow
      have herase : ((s.setRow (changes.written now row)).inStates schedule.schedule_id
          DISPATCHED).erase occurrence_id
            = (s.inStates schedule.schedule_id DISPATCHED).erase occurrence_id := by
        rw [inStates_setRow, written_id, hid]
        split
        · exact Finset.erase_insert_eq_erase _ _
        · exact Finset.erase_idem
      unfold Room at h ⊢
      rw [herase]
      exact h

theorem reserved_updateRow {expected : Option (List OccurrenceState)}
    {changes : OccurrenceChanges}
    (hok : Expected p s (.updateRow occurrence.occurrence_id now expected changes))
    (h : Reserved p rows schedule occurrence s) :
    Reserved p rows schedule occurrence
      (perform env p s (.updateRow occurrence.occurrence_id now expected changes)).1 := by
  obtain ⟨current, hcurrent, hsame⟩ := h.policy
  obtain ⟨current', hcurrent', hsame'⟩ :=
    (kept_effect (perform_effect env p s _) hok).schedules _ _ hcurrent
  exact ⟨holding_perform (by simp) hok h.toHolding, h.listed, h.owned,
    ⟨current', hcurrent', hsame.1.trans hsame'.1, hsame.2.trans hsame'.2⟩, room_updateRow h.room⟩

theorem promised_reserved {expected : Option (List OccurrenceState)}
    {changes : OccurrenceChanges} (hstate : ∀ state ∈ changes.state, state ∉ WAITING)
    (h : Reserved p rows schedule occurrence s) :
    Promised p s (.updateRow occurrence.occurrence_id now expected changes) := by
  refine ⟨hstate, fun _ row hrow => .inr ⟨.inr h.lock, fun other hother => ?_⟩⟩
  obtain ⟨row', hrow', hid⟩ := h.found occurrence h.listed
  obtain ⟨current, hcurrent, hsame⟩ := h.policy
  rw [hrow', Option.some.injEq] at hrow
  subst hrow
  rw [hid, h.owned, hcurrent, Option.some.injEq] at hother
  subst hother
  have hroom := h.room
  have hcid : current.schedule_id = schedule.schedule_id := Table.key_of_find? hcurrent
  unfold Room at hroom ⊢
  rw [← hsame.limit, hcid]
  exact hroom

theorem wp_writeReserved {changes : OccurrenceChanges}
    (hstate : ∀ state ∈ changes.state, state ∉ WAITING)
    (h : Reserved p rows schedule occurrence s) :
    (overlap env).Wp p (writeOccurrence occurrence.occurrence_id now changes)
      (fun _ => Reserved p rows schedule occurrence) s :=
  wp_write stable_reserved h (fun _ hs => promised_reserved hstate hs)
    fun _ hs hok => reserved_updateRow hok hs

theorem dispatched_notWaiting (schedule : Schedule) (claimed : Occurrence) (accepted_at : Time)
    (result : DispatchResult) :
    ∀ state ∈ (dispatched schedule claimed accepted_at result).state, state ∉ WAITING := by
  intro state hstate
  cases result with
  | receipt status =>
      unfold dispatched at hstate
      dsimp only at hstate
      split at hstate <;> cases hstate <;> decide
  | raised className text =>
      unfold dispatched at hstate
      dsimp only at hstate
      split at hstate <;> cases hstate <;> decide

theorem wp_claimedDispatch {claimed : Occurrence} {dispatch : Dispatcher}
    (hid : claimed.occurrence_id = occurrence.occurrence_id)
    (h : Reserved p rows schedule occurrence s) :
    (overlap env).Wp p (claimedDispatch dispatch schedule claimed)
      (fun _ => Reserved p rows schedule occurrence) s := by
  have hwrites : (overlap env).Wp p (runWrites claimed.occurrence_id
      (dispatch schedule claimed).writes) (fun _ => Reserved p rows schedule occurrence) s := by
    rw [hid]
    refine Discipline.Wp.each (fun write _ s hs => wp_writeReserved (fun state hstate => ?_) hs) h
    cases hstate
    decide
  refine Discipline.Wp.bind (hwrites.imp fun written s hs => ?_)
  rw [hid]
  exact wp_writeReserved (dispatched_notWaiting _ _ _ _) hs

theorem verdict_room {state : OccurrenceState} {others : List Occurrence}
    (h : verdict schedule state others = .dispatch) : (others.length : Int) + 1 ≤ schedule.limit := by
  unfold verdict at h
  unfold Schedule.limit
  split at h
  · cases h
  · rename_i hqueued
    split at h
    · cases h
    · rename_i hbounded
      split at h
      · cases h
      · rename_i hskip
        split at h
        · cases h
        · rename_i hone
          cases hpolicy : schedule.coalesce_policy with
          | allowBounded =>
              rw [if_pos rfl]
              have hroom := (not_and.mp hbounded) hpolicy
              omega
          | skip =>
              have hnone : others = [] := by_contra fun hsome => hskip ⟨hpolicy, hsome⟩
              simp [hnone]
          | queueOne =>
              have hnone : others = [] := by
                by_contra hsome
                by_cases hstate : state = .queued
                · exact hqueued ⟨hstate, hsome⟩
                · exact hone ⟨hpolicy, hstate, hsome⟩
              simp [hnone]

theorem getRevision_ok {revision : Nat} (h : s.getRevision schedule_id revision = .ok schedule) :
    schedule ∈ s.revisions.rows ∧ schedule.schedule_id = schedule_id := by
  unfold Store.getRevision at h
  split at h
  · rename_i found hfound
    cases h
    exact ⟨Table.mem_of_find? hfound, congrArg Prod.fst (Table.key_of_find? hfound)⟩
  · cases h

theorem getOccurrence_ok {row : Occurrence} (h : s.getOccurrence occurrence_id = .ok row) :
    row.occurrence_id = occurrence_id := by
  unfold Store.getOccurrence at h
  split at h
  · rename_i hfound
    cases h
    exact Table.key_of_find? hfound
  · cases h

/-- A verdict from a count of the others reserves a place. -/
theorem reserved_verdict (h : Holding p rows s) (hlisted : occurrence ∈ rows)
    (howned : occurrence.schedule_id = schedule.schedule_id)
    (hpolicy : ∃ current, s.schedules.find? schedule.schedule_id = some current
      ∧ SamePolicy schedule current)
    (hverdict : verdict schedule occurrence.state ((s.inflightFor env schedule.schedule_id).filter
      (·.occurrence_id ≠ occurrence.occurrence_id)) = .dispatch) :
    Reserved p rows schedule occurrence s := by
  have hperm : ((s.inflightFor env schedule.schedule_id).filter
      (·.occurrence_id ≠ occurrence.occurrence_id)).length = (s.others occurrence).length := by
    rw [Store.others, howned]
    exact ((env.scan_perm _).filter _).length_eq
  have hroom := verdict_room hverdict
  rw [hperm] at hroom
  have hothers : ((s.inStates occurrence.schedule_id DISPATCHED).erase
      occurrence.occurrence_id).card ≤ (s.others occurrence).length := inStates_others (by decide)
  rw [howned] at hothers
  refine ⟨h, hlisted, howned, hpolicy, ?_⟩
  unfold Room
  omega

theorem wp_dispatchOne {dispatch : Dispatcher} (hlisted : occurrence ∈ rows)
    (h : Holding p rows s) :
    (overlap env).Wp p (dispatchOne now dispatch occurrence) (fun _ => Holding p rows) s := by
  rw [dispatchOne, Task.bind_ask]
  refine Discipline.Wp.call (stable_holding env) h fun s hs hinv _ => ⟨trivial, ?_⟩
  change (overlap env).Wp p _ _ s
  have hreply : ((system env).perform p s
      (Op.getRevision occurrence.schedule_id occurrence.schedule_revision)).2
        = s.getRevision occurrence.schedule_id occurrence.schedule_revision := rfl
  rw [hreply]
  cases hget : s.getRevision occurrence.schedule_id occurrence.schedule_revision with
  | error exc => exact wp_writeClosed (by rintro state ⟨⟩; decide) (by rintro state ⟨⟩; decide) hs
  | ok schedule =>
      obtain ⟨hsnapshot, hid⟩ := getRevision_ok hget
      have hstable : (overlap env).Stable p fun s => Holding p rows s
          ∧ ∃ current, s.schedules.find? schedule.schedule_id = some current
            ∧ SamePolicy schedule current := by
        rintro s t hr ⟨hold, current, hcurrent, hsame⟩
        obtain ⟨current', hcurrent', hsame'⟩ := hr.kept.schedules _ _ hcurrent
        exact ⟨stable_holding env hr hold, current', hcurrent',
          hsame.1.trans hsame'.1, hsame.2.trans hsame'.2⟩
      dsimp only
      rw [Task.bind_ask]
      refine Discipline.Wp.call hstable ⟨hs, hinv.revisions schedule hsnapshot⟩
        fun s hs _ _ => ⟨trivial, ?_⟩
      obtain ⟨hs, hpolicy⟩ := hs
      change (overlap env).Wp p _ _ s
      have hreply : ((system env).perform p s (Op.inflightFor schedule.schedule_id)).2
          = s.inflightFor env schedule.schedule_id := rfl
      rw [hreply]
      split
      · exact hs
      · exact wp_writeClosed (by rintro state ⟨⟩; decide) (by rintro state ⟨⟩; decide) hs
      · rename_i hverdict
        have hreserved := reserved_verdict hs hlisted hid.symm hpolicy hverdict
        rw [updateOccurrence, Task.bind_ask]
        -- The claim, and the row that is read back.
        refine wp_op stable_reserved hreserved
          (fun _ hs _ _ => promised_reserved (by rintro state ⟨⟩; decide) hs)
          (fun _ hs _ hok => reserved_updateRow hok hs) fun r s hs => ?_
        cases r with
        | error exc => exact hs.toHolding
        | ok u =>
            refine Discipline.Wp.call (o := Op.getOccurrence occurrence.occurrence_id)
              stable_reserved hs fun s hs _ _ => ⟨trivial, ?_⟩
            change (overlap env).Wp p _ _ s
            have hreply : ((system env).perform p s (Op.getOccurrence occurrence.occurrence_id)).2
                = s.getOccurrence occurrence.occurrence_id := rfl
            rw [hreply]
            cases hclaimed : s.getOccurrence occurrence.occurrence_id with
            | error exc => exact hs.toHolding
            | ok claimed =>
                exact (wp_claimedDispatch (getOccurrence_ok hclaimed) hs).imp
                  fun _ _ hs => hs.toHolding

end Reserved

theorem holding_listed {states : Option (List OccurrenceState)} {limit : Nat}
    {rows : List Occurrence} (hlock : s.dispatch_lock = some p)
    (h : s.listOccurrences states limit = .ok rows) : Holding p rows s := by
  unfold Store.listOccurrences at h
  split at h
  · cases h
    refine ⟨hlock, fun row hrow => ⟨row, Table.find?_key ?_, rfl⟩⟩
    exact (List.mem_filter.mp (mem_of_mem_window hrow)).1
  · cases h

theorem stable_lock : (overlap env).Stable p fun s => s.dispatch_lock = some p :=
  fun hr h => (hr.held h).1

theorem wp_dispatchPendingExclusive {dispatch : Dispatcher} (h : s.dispatch_lock = some p) :
    (overlap env).Wp p (dispatchPendingExclusive now dispatch)
      (fun _ s => s.dispatch_lock = some p) s := by
  rw [dispatchPendingExclusive, Task.bind_ask]
  refine Discipline.Wp.call stable_lock h fun s hs _ _ => ⟨trivial, ?_⟩
  change (overlap env).Wp p _ _ s
  have hreply : ((system env).perform p s (Op.listOccurrences (some PENDING_STATES) 1000)).2
      = s.listOccurrences (some PENDING_STATES) 1000 := rfl
  rw [hreply]
  cases hlist : s.listOccurrences (some PENDING_STATES) 1000 with
  | error exc => exact hs
  | ok rows =>
      have hloop : (overlap env).Wp p (Task.each (dispatchOne now dispatch) rows)
          (fun _ => Holding p rows) s :=
        Discipline.Wp.each (fun row hrow s hs => wp_dispatchOne hrow hs) (holding_listed hs hlist)
      exact hloop.imp fun _ _ hs => hs.lock

theorem wp_dispatchPending {dispatch : Dispatcher} : IdleWp env p (dispatchPending now dispatch) := by
  intro s h
  rw [dispatchPending, Task.bind_ask]
  refine Discipline.Wp.call stable_idle h fun s hs _ _ => ⟨trivial, ?_⟩
  cases hfree : s.dispatch_lock with
  | some q =>
      have hrefused : (system env).perform p s Op.lockDispatch = (s, false) := by
        change perform env p s Op.lockDispatch = _
        simp only [perform, hfree]
      rw [hrefused]
      exact hs
  | none =>
      have hlocked : (system env).perform p s Op.lockDispatch
          = ({ s with dispatch_lock := some p }, true) := by
        change perform env p s Op.lockDispatch = _
        simp only [perform, hfree]
      rw [hlocked]
      have hpass : (overlap env).Wp p (dispatchPendingExclusive now dispatch)
          (fun _ s => s.dispatch_lock = some p) { s with dispatch_lock := some p } :=
        wp_dispatchPendingExclusive rfl
      refine Discipline.Wp.bind (hpass.imp fun result s hs => ?_)
      exact Discipline.Wp.call stable_lock hs fun s hs _ _ => ⟨hs, fun hp => by cases hp⟩

theorem wp_tick {dispatch : Dispatcher} {lookup : Option Lookup} :
    IdleWp env p (tick env now dispatch lookup) := by
  intro s h
  refine Discipline.Wp.bind ((wp_reconcileBackground s h).imp fun r s hs => ?_)
  cases r with
  | error exc => exact hs
  | ok u =>
      refine Discipline.Wp.bind ((wp_claimDue s hs).imp fun r s hs => ?_)
      cases r with
      | error exc => exact hs
      | ok u => exact wp_dispatchPending s hs

theorem wp_job (job : Job) : IdleWp env p (job.prog env) := by
  intro s h
  cases job with
  | tick now dispatch lookup => exact (wp_tick s h).forget
  | create schedule_id fields creator now => exact (wp_create s h).forget
  | pause schedule_id now => exact (wp_revised _ s h).forget
  | resume schedule_id confirm now => exact (wp_revised _ s h).forget
  | delete schedule_id clock => exact (wp_revised _ s h).forget
  | update schedule_id changes clock => exact (wp_revised _ s h).forget
  | runNow schedule_id occurrence_id actor now => exact (wp_runNow s h).forget
  | retry schedule_id occurrence_id occurrence_id_new actor now => exact (wp_retry s h).forget

end Programs

/-! ## 5. Runs -/

/-- Every write of a run finds what it takes for granted. -/
def Orderly (env : Env) (actions : List (Action Job)) : Prop :=
  Runs.RunOk (system env).step (overlap env).StepOk { state := {} } actions

/-- **The bounds of the policies.** In every state of a run whose writes find
what they take for granted, every schedule is within its policy. -/
theorem within_policy (env : Env) {actions : List (Action Job)} (h : Orderly env actions)
    (k : Nat) : WithinPolicy (after env (actions.take k)) := by
  have hstart : (overlap env).Safe { state := {} } :=
    Discipline.safe_start ⟨(fun _ h => nomatch h), (fun _ h => nomatch h), (fun _ h => nomatch h)⟩
      fun _ h => nomatch h
  exact (Discipline.run (fun job p s _ hidle => wp_job job s hidle) hstart h k).1.within

/-! ### Conditions that can be checked -/

instance (s : Store) : DecidablePred (Bounded s) := fun schedule =>
  decidable_of_iff (((s.inStates schedule.schedule_id DISPATCHED).card : Int) ≤ schedule.limit
      ∧ (schedule.coalesce_policy = .queueOne →
        (s.inStates schedule.schedule_id WAITING).card ≤ 1))
    ⟨fun h => ⟨h.1, h.2⟩, fun h => ⟨h.dispatched, h.waiting⟩⟩

instance : DecidablePred WithinPolicy := fun s =>
  inferInstanceAs (Decidable (∀ schedule ∈ s.schedules.rows, Bounded s schedule))

instance (s : Store) (schedule : Schedule) (occurrence_id : String) :
    Decidable (Room s schedule occurrence_id) := inferInstanceAs (Decidable (_ ≤ _))

instance (s : Store) : DecidablePred (Insertable s) := fun row =>
  decidable_of_iff (s.occurrences.find? row.occurrence_id = none
      ∧ s.withKey row.occurrence_key = none ∧ (s.schedules.find? row.schedule_id).isSome)
    ⟨fun h => ⟨h.1, h.2.1, h.2.2⟩, fun h => ⟨h.id, h.key, h.schedule⟩⟩

instance (p : Nat) (s : Store) : DecidablePred (Expected p s) := fun o =>
  match o with
  | .revise schedule_id _ _ changes =>
      inferInstanceAs (Decidable (∀ schedule ∈ s.schedules.find? schedule_id,
        changes.coalesce_policy.getD schedule.coalesce_policy = schedule.coalesce_policy
          ∧ changes.max_in_flight.getD schedule.max_in_flight = schedule.max_in_flight))
  | .claimDue claim =>
      inferInstanceAs (Decidable (∀ schedule ∈ s.schedules.find? claim.schedule.schedule_id,
        claim.Current schedule → claim.coalesce_target_id = "" → Insertable s claim.row →
        schedule.coalesce_policy = .queueOne → claim.state ∈ WAITING →
        s.inStates schedule.schedule_id WAITING = ∅))
  | .insertRow row =>
      inferInstanceAs (Decidable (∀ schedule ∈ s.schedules.find? row.schedule_id,
        Insertable s row → schedule.coalesce_policy = .queueOne → row.state ∈ WAITING →
        s.inStates schedule.schedule_id WAITING = ∅))
  | .updateRow occurrence_id _ _ changes =>
      inferInstanceAs (Decidable (s.dispatch_lock ≠ some p →
        (∃ state ∈ changes.state, state ∈ DISPATCHED) →
        ∀ row ∈ s.occurrences.find? occurrence_id, row.state ∈ DISPATCHED
          ∨ (s.dispatch_lock = none ∧ ∀ schedule ∈ s.schedules.find? row.schedule_id,
            Room s schedule occurrence_id)))
  | .dueSchedules _ | .inflightFor _ | .listOccurrences _ _ | .get _ | .getRevision _ _
  | .getOccurrence _ | .getOccurrenceByKey _ | .create _ | .insertManual _ | .lockDispatch
  | .unlockDispatch => isTrue trivial

instance (env : Env) : DecidablePred (Orderly env) := fun actions =>
  have : ∀ p s o, Decidable ((overlap env).Ok p s o) := fun p s o =>
    inferInstanceAs (Decidable (Expected p s o))
  inferInstanceAs (Decidable (Runs.RunOk _ (overlap env).StepOk { state := {} } actions))

def fails : Dispatcher := fun _ _ =>
  { result := .raised "WorkerStartError" "no such profile", now := 2, accepted_at := 2 }

/-- A request that runs, and one that waits for its end. -/
def queuedRun : List (Action Job) :=
  alone 0 (.create "schedule" (hourly .queueOne 1) "user" 0) 1
    ++ alone 1 (.runNow "schedule" "first" "user" 1) 3
    ++ alone 2 (.tick 2 starts none) 10
    ++ alone 3 (.runNow "schedule" "second" "user" 3) 3

theorem within_policy_queued : Orderly plainEnv queuedRun
    ∧ ∀ k, WithinPolicy (after plainEnv (queuedRun.take k)) :=
  have h : Orderly plainEnv queuedRun := by decide
  ⟨h, within_policy plainEnv h⟩

/-- A request that fails, one more, and a retry of the first. -/
def retriedRun : List (Action Job) :=
  alone 0 (.create "schedule" (hourly .queueOne 1) "user" 0) 1
    ++ alone 1 (.runNow "schedule" "first" "user" 1) 3
    ++ alone 2 (.tick 2 fails none) 10
    ++ alone 3 (.runNow "schedule" "second" "user" 3) 3
    ++ alone 4 (.retry "schedule" "first" "third" "user" 4) 4

/-- **A retry joins a request that waits**: two occurrences of a `queue_one`
schedule are waiting. -/
theorem not_within_retried : ¬ WithinPolicy (after plainEnv retriedRun) := by decide

end Agenthicc.Schedules
