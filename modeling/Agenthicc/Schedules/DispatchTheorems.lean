/-
Agenthicc.Schedules.DispatchTheorems — what one dispatch pass moves.

A pass visits the 1000 oldest pending occurrences in turn. An occurrence is
`Free` when nothing makes it wait for the others of its schedule. Until the
pass meets a free one of a schedule, nothing of that schedule changes; a free
one is started or closed. `progress_iff` puts that together.
-/
import Agenthicc.Schedules.ReconcileTheorems

namespace Agenthicc.Schedules

open Python Background Tasks Tables

variable {env : Env} {p : Nat} {s t u : Store} {now : Time} {dispatch : Dispatcher}
  {schedule_id occurrence_id : String} {row : Occurrence}

/-! ## 1. Writes to one row -/

/-- Only one row was written, and it stayed with its schedule. -/
structure Touches (occurrence_id : String) (s t : Store) : Prop where
  revisions : t.revisions = s.revisions
  others : ∀ id, id ≠ occurrence_id → t.occurrences.find? id = s.occurrences.find? id
  row : ∃ old new, s.occurrences.find? occurrence_id = some old
    ∧ t.occurrences.find? occurrence_id = some new ∧ new.schedule_id = old.schedule_id

theorem Touches.refl (h : s.occurrences.find? occurrence_id = some row) :
    Touches occurrence_id s s := ⟨rfl, fun _ _ => rfl, row, row, h, h, rfl⟩

theorem Touches.trans (h : Touches occurrence_id s t) (h' : Touches occurrence_id t u) :
    Touches occurrence_id s u := by
  obtain ⟨old, new, hold, hnew, hid⟩ := h.row
  obtain ⟨old', new', hold', hnew', hid'⟩ := h'.row
  rw [hnew, Option.some.injEq] at hold'
  refine ⟨h'.revisions.trans h.revisions, fun id hne => (h'.others id hne).trans (h.others id hne),
    old, new', hold, hnew', ?_⟩
  rw [hid', ← hold', hid]

theorem touches_written {changes : OccurrenceChanges}
    (h : s.occurrences.find? occurrence_id = some row) :
    Touches occurrence_id s (s.setRow (changes.written now row)) := by
  have hid : row.occurrence_id = occurrence_id := Table.key_of_find? h
  refine ⟨rfl, fun id hne => ?_, row, changes.written now row, h, ?_, rfl⟩
  · rw [setRow_find?, written_id, hid, if_neg hne.symm]
  · rw [setRow_find?, written_id, if_pos hid]

variable (env p) in
theorem exec_runWrites (writes : List DispatchWrite)
    (h : s.occurrences.find? occurrence_id = some row) :
    ∃ t, (runWrites occurrence_id writes).exec (perform env p) s = (t, .ok ())
      ∧ Touches occurrence_id s t := by
  induction writes generalizing s row with
  | nil => exact ⟨s, rfl, .refl h⟩
  | cons write writes ih =>
      have htouch : Touches occurrence_id s (s.setRow (write.changes.written write.now row)) :=
        touches_written h
      obtain ⟨_, new, -, hnew, -⟩ := htouch.row
      obtain ⟨t, hloop, hrest⟩ := ih hnew
      have hfirst : (writeOccurrence occurrence_id write.now write.changes).exec (perform env p) s
          = (s.setRow (write.changes.written write.now row), .ok ()) := exec_writeOccurrence h
      exact ⟨t, (Task.exec_each_cons _ write writes hfirst).trans hloop, htouch.trans hrest⟩

/-! ## 2. Occurrences that need not wait -/

/-- The other occurrences of the schedule in an active state. -/
def Store.others (s : Store) (row : Occurrence) : List Occurrence :=
  (s.active row.schedule_id).filter (·.occurrence_id ≠ row.occurrence_id)

/-- Nothing makes a pending occurrence wait: its revision is missing, or it is
alone, or it is not queued and the policy skips it or has room for it. -/
def Free (s : Store) (row : Occurrence) : Prop :=
  match s.revisions.find? (row.schedule_id, row.schedule_revision) with
  | none => True
  | some schedule =>
      s.others row = [] ∨ (row.state ≠ .queued
        ∧ (schedule.coalesce_policy = .skip
          ∨ (schedule.coalesce_policy = .allowBounded
            ∧ ((s.others row).length : Int) < schedule.max_in_flight)))

instance (s : Store) : DecidablePred (Free s) := fun row =>
  match h : s.revisions.find? (row.schedule_id, row.schedule_revision) with
  | none => isTrue (by rw [Free, h]; trivial)
  | some schedule =>
      decidable_of_iff (s.others row = [] ∨ (row.state ≠ .queued
        ∧ (schedule.coalesce_policy = .skip
          ∨ (schedule.coalesce_policy = .allowBounded
            ∧ ((s.others row).length : Int) < schedule.max_in_flight)))) (by rw [Free, h])

theorem verdict_wait_iff {schedule : Schedule} {state : OccurrenceState}
    {others : List Occurrence} : verdict schedule state others ≠ .wait
      ↔ others = [] ∨ (state ≠ .queued ∧ (schedule.coalesce_policy = .skip
        ∨ (schedule.coalesce_policy = .allowBounded
          ∧ (others.length : Int) < schedule.max_in_flight))) := by
  have hmax : 1 ≤ schedule.max_in_flight := schedule.definition.limits.1
  unfold verdict
  by_cases hothers : others = []
  · subst hothers
    have hroom : ¬ schedule.max_in_flight ≤ 0 := by omega
    simp [hroom]
  · by_cases hqueued : state = .queued
    · simp [hothers, hqueued]
    · cases hpolicy : schedule.coalesce_policy <;> simp [hothers, hqueued]

/-- A state in which an occurrence does not wait any more. -/
def OccurrenceState.Moved (state : OccurrenceState) : Prop :=
  state ∈ [OccurrenceState.running, .completed, .failed, .blocked, .skipped, .cancelled]

instance : DecidablePred OccurrenceState.Moved := fun _ => inferInstanceAs (Decidable (_ ∈ _))

/-- The background service starts what it is given. -/
def Accepts (dispatch : Dispatcher) : Prop :=
  ∀ schedule occurrence, ∃ status, (dispatch schedule occurrence).result = .receipt status
    ∧ casefold (status.getD "running") ∉ ["queued", "starting"]

variable (env p) in
theorem exec_claimedDispatch (hacc : Accepts dispatch) (schedule : Schedule) {claimed : Occurrence}
    (h : s.occurrences.find? claimed.occurrence_id = some claimed) :
    ∃ t new, (claimedDispatch dispatch schedule claimed).exec (perform env p) s = (t, .ok ())
      ∧ Touches claimed.occurrence_id s t
      ∧ t.occurrences.find? claimed.occurrence_id = some new ∧ new.state.Moved := by
  obtain ⟨t, hwrites, htouch⟩ := exec_runWrites env p (dispatch schedule claimed).writes h
  obtain ⟨_, row, -, hrow, -⟩ := htouch.row
  obtain ⟨status, hresult, hstatus⟩ := hacc schedule claimed
  have hid : row.occurrence_id = claimed.occurrence_id := Table.key_of_find? hrow
  let changes := dispatched schedule claimed (dispatch schedule claimed).accepted_at
    (dispatch schedule claimed).result
  let new := changes.written (dispatch schedule claimed).now row
  refine ⟨t.setRow new, new, ?_, htouch.trans (touches_written hrow), ?_, ?_⟩
  · rw [claimedDispatch]
    dsimp only
    rw [Task.exec_bind, hwrites]
    exact exec_writeOccurrence hrow
  · rw [setRow_find?, written_id, if_pos hid]
  · rw [written_state]
    simp [changes, hresult, dispatched, hstatus, OccurrenceState.Moved]

/-! ## 3. One round of a pass -/

theorem verdict_perm {schedule : Schedule} {state : OccurrenceState} {l l' : List Occurrence}
    (h : l.Perm l') : verdict schedule state l = verdict schedule state l' := by
  have hnil : l = [] ↔ l' = [] := by rw [← List.length_eq_zero_iff, h.length_eq,
    List.length_eq_zero_iff]
  simp only [verdict, h.length_eq, ne_eq, hnil]

variable (env) in
/-- What the code reads of the others is what there is, in some order. -/
theorem inflight_others (s : Store) (row : Occurrence) :
    ((s.inflightFor env row.schedule_id).filter (·.occurrence_id ≠ row.occurrence_id)).Perm
      (s.others row) :=
  (env.scan_perm _).filter _

theorem free_iff {schedule : Schedule}
    (h : s.revisions.find? (row.schedule_id, row.schedule_revision) = some schedule) :
    Free s row ↔ verdict schedule row.state (s.others row) ≠ .wait := by
  rw [verdict_wait_iff, Free, h]

variable (env p now) in
/-- A round over an occurrence that waits does nothing, one over a free
occurrence moves it; in both nothing else is written. -/
theorem exec_dispatchOne (hacc : Accepts dispatch)
    (hrow : s.occurrences.find? row.occurrence_id = some row) (hpending : row.state ∈ PENDING_STATES) :
    ∃ t new, (dispatchOne now dispatch row).exec (perform env p) s = (t, .ok ())
      ∧ Touches row.occurrence_id s t ∧ (¬ Free s row → t = s)
      ∧ t.occurrences.find? row.occurrence_id = some new ∧ (Free s row → new.state.Moved) := by
  have hwritten : ∀ changes : OccurrenceChanges,
      (s.setRow (changes.written now row)).occurrences.find? row.occurrence_id
        = some (changes.written now row) := fun changes => by
    rw [setRow_find?, written_id, if_pos rfl]
  unfold dispatchOne
  simp only [Task.bind_ask, Task.exec_call, perform, Store.getRevision]
  cases hrev : s.revisions.find? (row.schedule_id, row.schedule_revision) with
  | none =>
      have hfree : Free s row := by
        rw [Free, hrev]
        trivial
      exact ⟨_, _, exec_writeOccurrence hrow, touches_written hrow, fun h => absurd hfree h,
        hwritten _, fun _ => by simp [OccurrenceState.Moved]⟩
  | some schedule =>
      have hid := Table.key_of_find? hrev
      obtain ⟨hschedule, -⟩ := Prod.mk.inj hid
      dsimp only
      rw [hschedule, Task.exec_call]
      simp only [perform]
      rw [verdict_perm (inflight_others env s row)]
      have hfree := free_iff hrev
      cases hverdict : verdict schedule row.state (s.others row) with
      | wait =>
          refine ⟨s, row, rfl, .refl hrow, fun _ => rfl, hrow, fun h => ?_⟩
          exact absurd hverdict (hfree.mp h)
      | skip =>
          have hyes : Free s row := hfree.mpr (by rw [hverdict]; decide)
          exact ⟨_, _, exec_writeOccurrence hrow, touches_written hrow, fun h => absurd hyes h,
            hwritten _, fun _ => by simp [OccurrenceState.Moved]⟩
      | dispatch =>
          have hyes : Free s row := hfree.mpr (by rw [hverdict]; decide)
          let claimed := OccurrenceChanges.written
            { state := some .preparing, error := some "" } now row
          have hclaimed : (s.setRow claimed).occurrences.find? claimed.occurrence_id
              = some claimed := hwritten _
          have hclaim : (updateOccurrence row.occurrence_id now (some PENDING_STATES)
              { state := some .preparing, error := some "" }).exec (perform env p) s
                = (s.setRow claimed, .ok claimed) :=
            exec_updateOccurrence hrow fun states h => by
              cases h
              exact hpending
          obtain ⟨t, new, hexec, htouch, hnew, hmoved⟩ :=
            exec_claimedDispatch env p hacc schedule hclaimed
          refine ⟨t, new, ?_, (touches_written hrow).trans htouch, fun h => absurd hyes h, hnew,
            fun _ => hmoved⟩
          rw [Task.exec_bind, hclaim]
          exact hexec

/-! ## 4. A pass -/

/-- Nothing of a schedule differs between two stores. -/
structure SameFor (schedule_id : String) (s t : Store) : Prop where
  revisions : t.revisions = s.revisions
  rows : ∀ row, row.schedule_id = schedule_id →
    (row ∈ t.occurrences.rows ↔ row ∈ s.occurrences.rows)

theorem SameFor.refl (schedule_id : String) (s : Store) : SameFor schedule_id s s :=
  ⟨rfl, fun _ _ => .rfl⟩

theorem SameFor.trans (h : SameFor schedule_id s t) (h' : SameFor schedule_id t u) :
    SameFor schedule_id s u :=
  ⟨h'.revisions.trans h.revisions, fun row hrow => (h'.rows row hrow).trans (h.rows row hrow)⟩

theorem Touches.sameFor (h : Touches row.occurrence_id s t)
    (hrow : s.occurrences.find? row.occurrence_id = some row) (hne : row.schedule_id ≠ schedule_id) :
    SameFor schedule_id s t := by
  obtain ⟨old, new, hold, hnew, hid⟩ := h.row
  rw [hrow, Option.some.injEq] at hold
  subst hold
  refine ⟨h.revisions, fun other hother => ?_⟩
  have hmem : ∀ v : Store, other ∈ v.occurrences.rows
      ↔ v.occurrences.find? other.occurrence_id = some other := fun v =>
    ⟨Table.find?_key, Table.mem_of_find?⟩
  rw [hmem t, hmem s]
  by_cases heq : other.occurrence_id = row.occurrence_id
  · -- The row that was written belongs to another schedule, before and after.
    rw [heq, hnew, hrow]
    refine iff_of_false (fun hsame => hne ?_) fun hsame => hne ?_
    · rw [← hid, Option.some.inj hsame, hother]
    · rw [Option.some.inj hsame, hother]
  · rw [h.others _ heq]

theorem SameFor.others_perm (h : SameFor schedule_id s t) (hrow : row.schedule_id = schedule_id) :
    (t.others row).Perm (s.others row) := by
  refine (List.perm_ext_iff_of_nodup ?_ ?_).mpr fun other => ?_
  · exact (t.nodup_rows.filter _).filter _
  · exact (s.nodup_rows.filter _).filter _
  · simp only [Store.others, Store.active, List.mem_filter, decide_eq_true_eq, hrow]
    constructor
    · rintro ⟨⟨hmem, hid, hstate⟩, hne⟩
      exact ⟨⟨(h.rows other hid).mp hmem, hid, hstate⟩, hne⟩
    · rintro ⟨⟨hmem, hid, hstate⟩, hne⟩
      exact ⟨⟨(h.rows other hid).mpr hmem, hid, hstate⟩, hne⟩

theorem SameFor.free_iff (h : SameFor schedule_id s t) (hrow : row.schedule_id = schedule_id) :
    Free t row ↔ Free s row := by
  have hperm := h.others_perm hrow
  have hnil : t.others row = [] ↔ s.others row = [] := by
    rw [← List.length_eq_zero_iff, hperm.length_eq, List.length_eq_zero_iff]
  simp only [Free, h.revisions, hperm.length_eq, hnil]

variable (env p now schedule_id) in
/-- The rounds of a pass: nothing of the schedule changes unless one of the
rows is free, and then one of them has moved. -/
theorem exec_dispatch_rows (hacc : Accepts dispatch) {rows : List Occurrence}
    (hnodup : (rows.map Occurrence.occurrence_id).Nodup)
    (hrows : ∀ row ∈ rows, s.occurrences.find? row.occurrence_id = some row
      ∧ row.state ∈ PENDING_STATES) :
    ∃ t, (Task.each (dispatchOne now dispatch) rows).exec (perform env p) s = (t, .ok ())
      ∧ (∀ id, id ∉ rows.map Occurrence.occurrence_id →
        t.occurrences.find? id = s.occurrences.find? id)
      ∧ ((¬ ∃ row ∈ rows, row.schedule_id = schedule_id ∧ Free s row) → SameFor schedule_id s t)
      ∧ ((∃ row ∈ rows, row.schedule_id = schedule_id ∧ Free s row) →
        ∃ row ∈ rows, row.schedule_id = schedule_id ∧ ∃ new,
          t.occurrences.find? row.occurrence_id = some new ∧ new.state.Moved) := by
  induction rows generalizing s with
  | nil => exact ⟨s, rfl, fun _ _ => rfl, fun _ => .refl _ _, fun ⟨_, h, _⟩ => nomatch h⟩
  | cons first rest ih =>
      obtain ⟨hfirst, hrest⟩ := List.nodup_cons.mp hnodup
      obtain ⟨hfound, hpending⟩ := hrows first List.mem_cons_self
      obtain ⟨s₁, new, hexec, htouch, hwaits, hnew, hmoves⟩ :=
        exec_dispatchOne env p now hacc hfound hpending
      have hkept : ∀ row ∈ rest, s₁.occurrences.find? row.occurrence_id = some row
          ∧ row.state ∈ PENDING_STATES := by
        intro row hrow
        have hne : row.occurrence_id ≠ first.occurrence_id :=
          fun h => hfirst (h ▸ List.mem_map_of_mem hrow)
        obtain ⟨hthere, hstate⟩ := hrows row (List.mem_cons_of_mem _ hrow)
        exact ⟨by rw [htouch.others _ hne, hthere], hstate⟩
      -- A first row that waits or belongs to another schedule changes nothing.
      have hstep : ¬ (first.schedule_id = schedule_id ∧ Free s first) →
          SameFor schedule_id s s₁ := by
        intro hquiet
        by_cases hid : first.schedule_id = schedule_id
        · rw [hwaits fun h => hquiet ⟨hid, h⟩]
          exact .refl _ _
        · exact htouch.sameFor hfound hid
      obtain ⟨t, hloop, houtside, hsame, hmoved⟩ := ih hrest hkept
      refine ⟨t, by rw [Task.exec_each_cons _ _ _ hexec, hloop], fun id hid => ?_, fun hnone => ?_,
        fun hfree => ?_⟩
      · rw [List.map_cons, List.mem_cons, not_or] at hid
        rw [houtside id hid.2, htouch.others id hid.1]
      · have hquiet := hstep fun h => hnone ⟨first, List.mem_cons_self, h⟩
        refine hquiet.trans (hsame ?_)
        rintro ⟨row, hrow, hid, hfree⟩
        exact hnone ⟨row, List.mem_cons_of_mem _ hrow, hid, (hquiet.free_iff hid).mp hfree⟩
      · by_cases hnow : first.schedule_id = schedule_id ∧ Free s first
        · refine ⟨first, List.mem_cons_self, hnow.1, new, ?_, hmoves hnow.2⟩
          rw [houtside _ hfirst, hnew]
        · obtain ⟨row, hrow, hid, hfree⟩ := hfree
          have hlater : row ∈ rest := by
            rcases List.mem_cons.mp hrow with rfl | h
            · exact absurd ⟨hid, hfree⟩ hnow
            · exact h
          obtain ⟨row, hrow, hid, hmove⟩ :=
            hmoved ⟨row, hlater, hid, ((hstep hnow).free_iff hid).mpr hfree⟩
          exact ⟨row, List.mem_cons_of_mem _ hrow, hid, hmove⟩

/-- One pass alone. -/
def dispatchPass (env : Env) (p : Nat) (now : Time) (dispatch : Dispatcher) (s : Store) : Store :=
  ((dispatchPendingExclusive now dispatch).exec (perform env p) s).1

/-- A pending occurrence of the schedule was started or closed. -/
def Progress (schedule_id : String) (s t : Store) : Prop :=
  ∃ row ∈ s.occurrences.rows, row.schedule_id = schedule_id ∧ row.state ∈ PENDING_STATES
    ∧ ∃ new ∈ t.occurrences.rows, new.occurrence_id = row.occurrence_id ∧ new.state.Moved

instance (schedule_id : String) (s t : Store) : Decidable (Progress schedule_id s t) :=
  inferInstanceAs (Decidable (∃ row ∈ _, _))

/-- The pending occurrences that stand in front of a row. -/
def Store.pendingBefore (s : Store) (row : Occurrence) : List Occurrence :=
  s.occurrences.rows.filter fun other => other.state ∈ PENDING_STATES ∧ other.Before row

theorem mem_rowsBefore_pending {limit : Nat} : row ∈ s.rowsBefore (some PENDING_STATES) limit
    ↔ row ∈ s.occurrences.rows ∧ row.state ∈ PENDING_STATES
      ∧ (s.pendingBefore row).length < limit := by
  let pending := s.occurrences.rows.filter fun row => decide (row.state ∈ PENDING_STATES)
  have hmem : ∀ other, other ∈ pending
      ↔ other ∈ s.occurrences.rows ∧ other.state ∈ PENDING_STATES := by
    simp [pending]
  have hwindow : s.rowsBefore (some PENDING_STATES) limit
      = window Occurrence.le pending limit := rfl
  have hbefore : (pending.filter fun other => other.le row ∧ ¬ row.le other)
      = s.pendingBefore row := by
    simp only [pending, Store.pendingBefore, Occurrence.Before, List.filter_filter]
    congr 1
    funext other
    rw [← Bool.decide_and]
    exact decide_eq_decide.mpr and_comm
  have hiff : row ∈ pending → (row ∈ window Occurrence.le pending limit
      ↔ (s.pendingBefore row).length < limit) := fun hrow => by
    rw [mem_window_iff (s.nodup_rows.filter _) (fun a ha b hb hab hba => s.row_eq_of_id
      ((hmem a).mp ha).1 ((hmem b).mp hb).1 (Occurrence.le_antisymm hab hba)) hrow, hbefore]
  rw [hwindow]
  constructor
  · intro h
    have hrow := mem_of_mem_window h
    exact ⟨((hmem row).mp hrow).1, ((hmem row).mp hrow).2, (hiff hrow).mp h⟩
  · rintro ⟨hrow, hstate, hlimit⟩
    exact (hiff ((hmem row).mpr ⟨hrow, hstate⟩)).mpr hlimit

/-- **When pending work moves.** With a background service that accepts what
it is given, one pass starts or closes an occurrence of a schedule exactly
when one of its pending occurrences that the pass reads is free. -/
theorem progress_iff (env : Env) (p : Nat) (now : Time) (dispatch : Dispatcher)
    (schedule_id : String) (s : Store) (hacc : Accepts dispatch) :
    Progress schedule_id s (dispatchPass env p now dispatch s)
      ↔ ∃ row ∈ s.occurrences.rows, row.schedule_id = schedule_id ∧ row.state ∈ PENDING_STATES
        ∧ (s.pendingBefore row).length < 1000 ∧ Free s row := by
  have hnodup : ((s.rowsBefore (some PENDING_STATES) 1000).map Occurrence.occurrence_id).Nodup := by
    refine List.Nodup.map_on (fun a ha b hb => s.row_eq_of_id (mem_rowsBefore_pending.mp ha).1
      (mem_rowsBefore_pending.mp hb).1) ?_
    exact nodup_window (s.nodup_rows.filter _) 1000
  obtain ⟨t, hexec, -, hsame, hmoved⟩ := exec_dispatch_rows env p now schedule_id hacc hnodup
    fun row hrow => ⟨Table.find?_key (mem_rowsBefore_pending.mp hrow).1,
      (mem_rowsBefore_pending.mp hrow).2.1⟩
  have hpass : dispatchPass env p now dispatch s = t := by
    have hlimit : s.listOccurrences (some PENDING_STATES) 1000
        = .ok (s.rowsBefore (some PENDING_STATES) 1000) := if_pos ⟨by omega, by omega⟩
    simp only [dispatchPass, dispatchPendingExclusive, Task.bind_ask, Task.exec_call, perform,
      hlimit]
    rw [hexec]
  rw [hpass]
  constructor
  · rintro ⟨row, hrow, hid, hpending, new, hnew, hnewid, hmove⟩
    by_contra hnone
    have hkept := hsame (by
      rintro ⟨row, hread, hid, hfree⟩
      have hread := mem_rowsBefore_pending.mp hread
      exact hnone ⟨row, hread.1, hid, hread.2.1, hread.2.2, hfree⟩)
    -- The row is still there as it was.
    have heq : new = row := t.row_eq_of_id hnew ((hkept.rows row hid).mpr hrow) hnewid
    rw [heq] at hmove
    cases hstate : row.state <;> simp_all [PENDING_STATES, OccurrenceState.Moved]
  · rintro ⟨row, hrow, hid, hpending, hlimit, hfree⟩
    have hread := mem_rowsBefore_pending.mpr ⟨hrow, hpending, hlimit⟩
    obtain ⟨row, hread, hid, new, hnew, hmove⟩ := hmoved ⟨row, hread, hid, hfree⟩
    have hrow := mem_rowsBefore_pending.mp hread
    exact ⟨row, hrow.1, hid, hrow.2.1, new, Table.mem_of_find? hnew, Table.key_of_find? hnew, hmove⟩

/-! ### Occurrences that wait for each other -/

def hourly (policy : CoalescePolicy) (max_in_flight : Int) : Fields where
  workflow_name := "report"
  prompt := "Write the report"
  profile_name := "default"
  permission_ceiling := "Plan"
  recurrence_kind := .interval
  recurrence_spec := "1h"
  timezone := "UTC"
  coalesce_policy := policy
  max_in_flight := max_in_flight

/-- A job of a process of its own, up to its end. -/
def alone (p : Nat) (job : Job) (operations : Nat) : List (Action Job) :=
  .start p job :: List.replicate operations (.step p)

def starts : Dispatcher := fun _ _ =>
  { result := .receipt (some "running"), now := 4, accepted_at := 4 }

theorem starts_accepts : Accepts starts := fun _ _ => ⟨some "running", rfl, by decide⟩

def refuses : Dispatcher := fun _ _ =>
  { result := .raised "QueueFullError" "Background queue is full (32 pending requests)"
    now := 2
    accepted_at := 2 }

/-- A request, and one more while the first waits for room in the background
queue. -/
def blockedRun : List (Action Job) :=
  alone 0 (.create "schedule" (hourly .queueOne 1) "user" 0) 1
    ++ alone 1 (.runNow "schedule" "first" "user" 1) 3
    ++ alone 2 (.tick 2 refuses none) 10
    ++ alone 3 (.runNow "schedule" "second" "user" 3) 3

/-- **Two occurrences of a `queue_one` schedule wait for each other**: neither
runs or is being prepared, the service would start both, and a pass moves
none. -/
theorem not_progress_queueOne :
    (∃ row ∈ (after plainEnv blockedRun).occurrences.rows,
        row.schedule_id = "schedule" ∧ row.state ∈ PENDING_STATES)
      ∧ (∀ row ∈ (after plainEnv blockedRun).occurrences.rows,
        row.state ≠ .running ∧ row.state ≠ .preparing)
      ∧ Accepts starts
      ∧ ¬ Progress "schedule" (after plainEnv blockedRun)
        (dispatchPass plainEnv 4 4 starts (after plainEnv blockedRun)) :=
  ⟨by decide, by decide, starts_accepts, by decide⟩

/-- A single request is started. -/
theorem progress_single : Accepts starts
    ∧ Progress "schedule" (after plainEnv (blockedRun.take 6))
      (dispatchPass plainEnv 4 4 starts (after plainEnv (blockedRun.take 6))) :=
  ⟨starts_accepts, (progress_iff plainEnv 4 4 starts "schedule" _ starts_accepts).mpr
    (by decide)⟩

end Agenthicc.Schedules
