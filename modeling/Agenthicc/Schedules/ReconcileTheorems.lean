/-
Agenthicc.Schedules.ReconcileTheorems — one reconciliation pass.

A pass reads the 5000 oldest occurrences, finished ones included, and writes
into each at most once. `reconciled_iff` says for which stores and session
records no occurrence is left running behind its session.
-/
import Agenthicc.Schedules.Scheduler
import Agenthicc.Schedules.StoreTheorems

namespace Agenthicc.Schedules

open Python Background Tasks Tables

variable {env : Env} {p : Nat} {s : Store} {now : Time} {lookup : Lookup}

/-! ## 1. One update -/

/-- An update alone, of a row that is there and in an expected state. -/
theorem exec_updateOccurrence {occurrence_id : String}
    {expected_states : Option (List OccurrenceState)} {changes : OccurrenceChanges}
    {row : Occurrence} (hrow : s.occurrences.find? occurrence_id = some row)
    (hexpected : ∀ states ∈ expected_states, row.state ∈ states) :
    (updateOccurrence occurrence_id now expected_states changes).exec (perform env p) s
      = (s.setRow (changes.written now row), .ok (changes.written now row)) := by
  have hid : row.occurrence_id = occurrence_id := Table.key_of_find? hrow
  have hstate : (expected_states.map fun states => decide (row.state ∈ states)).getD true = true := by
    cases expected_states with
    | none => rfl
    | some states => exact decide_eq_true (hexpected states rfl)
  have hupdate : s.updateRow occurrence_id now expected_states changes
      = .ok (s.setRow (changes.written now row)) := by
    rw [Store.updateRow, hrow]
    exact if_pos hstate
  have hread : (s.setRow (changes.written now row)).getOccurrence occurrence_id
      = .ok (changes.written now row) := by
    rw [Store.getOccurrence, setRow_find?, written_id, hid, if_pos rfl]
  simp only [updateOccurrence, Task.bind_ask, Task.exec_call, perform, hupdate, Except.map, commit]
  change ((s.setRow (changes.written now row)),
    (s.setRow (changes.written now row)).getOccurrence occurrence_id) = _
  rw [hread]

theorem exec_writeOccurrence {occurrence_id : String} {changes : OccurrenceChanges}
    {row : Occurrence} (hrow : s.occurrences.find? occurrence_id = some row) :
    (writeOccurrence occurrence_id now changes).exec (perform env p) s
      = (s.setRow (changes.written now row), .ok ()) := by
  have hexec : (updateOccurrence occurrence_id now none changes).exec (perform env p) s
      = (s.setRow (changes.written now row), .ok (changes.written now row)) :=
    exec_updateOccurrence hrow fun _ h => nomatch h
  rw [writeOccurrence, Task.exec_bind, hexec]
  rfl

/-! ## 2. The pass -/

/-- What a pass makes of a row that it reads. -/
def settled (now : Time) (lookup : Lookup) (row : Occurrence) : Occurrence :=
  match reconciled lookup row with
  | none => row
  | some changes => changes.written now row

theorem settled_id (now : Time) (lookup : Lookup) (row : Occurrence) :
    (settled now lookup row).occurrence_id = row.occurrence_id := by
  unfold settled
  split <;> rfl

variable (env p now lookup) in
theorem exec_reconcileOne {row : Occurrence}
    (hrow : s.occurrences.find? row.occurrence_id = some row) :
    ∃ s', (reconcileOne now lookup row).exec (perform env p) s = (s', .ok ())
      ∧ ∀ id, s'.occurrences.find? id
        = if row.occurrence_id = id then some (settled now lookup row)
          else s.occurrences.find? id := by
  unfold reconcileOne settled
  cases reconciled lookup row with
  | none =>
      refine ⟨s, rfl, fun id => ?_⟩
      split
      · rename_i h
        rw [← h, hrow]
      · rfl
  | some changes =>
      exact ⟨s.setRow (changes.written now row), exec_writeOccurrence hrow,
        fun id => setRow_find? ..⟩

variable (env p now lookup) in
/-- The rows that a pass reads are settled, the others stay. -/
theorem exec_reconcile_rows {rows : List Occurrence}
    (hnodup : (rows.map Occurrence.occurrence_id).Nodup)
    (hrows : ∀ row ∈ rows, s.occurrences.find? row.occurrence_id = some row) :
    ∃ s', (Task.each (reconcileOne now lookup) rows).exec (perform env p) s = (s', .ok ())
      ∧ ∀ id, s'.occurrences.find? id = (s.occurrences.find? id).map fun row =>
        if row ∈ rows then settled now lookup row else row := by
  induction rows generalizing s with
  | nil => exact ⟨s, rfl, fun id => by simp⟩
  | cons first rest ih =>
      obtain ⟨hfirst, hrest⟩ := List.nodup_cons.mp hnodup
      have hfound := hrows first List.mem_cons_self
      obtain ⟨s₁, hexec, hfind⟩ := exec_reconcileOne env p now lookup hfound
      have hkept : ∀ row ∈ rest, s₁.occurrences.find? row.occurrence_id = some row := by
        intro row hrow
        have hne : first.occurrence_id ≠ row.occurrence_id :=
          fun h => hfirst (h ▸ List.mem_map_of_mem hrow)
        rw [hfind, if_neg hne]
        exact hrows row (List.mem_cons_of_mem _ hrow)
      obtain ⟨s', hloop, hfinal⟩ := ih hrest hkept
      refine ⟨s', by rw [Task.exec_each_cons _ _ _ hexec, hloop], fun id => ?_⟩
      rw [hfinal, hfind]
      by_cases hid : first.occurrence_id = id
      · -- The first row is written in its own round only.
        have hout : settled now lookup first ∉ rest := fun hmem =>
          hfirst (settled_id now lookup first ▸ List.mem_map_of_mem hmem)
        rw [if_pos hid, ← hid, hfound]
        simp [hout]
      · rw [if_neg hid]
        refine Option.map_congr fun row hrow => ?_
        have hne : row ≠ first := fun h => hid (h ▸ Table.key_of_find? hrow)
        simp [hne]

/-- One pass alone. -/
def reconcilePass (env : Env) (p : Nat) (now : Time) (lookup : Lookup) (s : Store) : Store :=
  ((reconcileBackground now (some lookup)).exec (perform env p) s).1

variable (env p now lookup) in
theorem reconcilePass_rows (s : Store) (row' : Occurrence) :
    row' ∈ (reconcilePass env p now lookup s).occurrences.rows
      ↔ ∃ row ∈ s.occurrences.rows,
        row' = if row ∈ s.rowsBefore none 5000 then settled now lookup row else row := by
  have hmem : ∀ row ∈ s.rowsBefore none 5000, row ∈ s.occurrences.rows := fun row h =>
    List.mem_of_mem_filter (mem_of_mem_window h)
  have hnodup : ((s.rowsBefore none 5000).map Occurrence.occurrence_id).Nodup := by
    refine List.Nodup.map_on (fun a ha b hb => s.row_eq_of_id (hmem a ha) (hmem b hb)) ?_
    exact nodup_window (s.nodup_rows.filter _) 5000
  obtain ⟨s', hexec, hfind⟩ := exec_reconcile_rows env p now lookup hnodup
    fun row hrow => Table.find?_key (hmem row hrow)
  have hpass : reconcilePass env p now lookup s = s' := by
    have hlimit : s.listOccurrences none 5000 = .ok (s.rowsBefore none 5000) :=
      if_pos ⟨by omega, le_refl _⟩
    simp only [reconcilePass, reconcileBackground, Task.bind_ask, Task.exec_call, perform, hlimit]
    rw [hexec]
  rw [hpass]
  constructor
  · intro h
    have hrow := Table.find?_key h
    rw [hfind, Option.map_eq_some_iff] at hrow
    obtain ⟨row, hrow, heq⟩ := hrow
    exact ⟨row, Table.mem_of_find? hrow, heq.symm⟩
  · rintro ⟨row, hrow, rfl⟩
    refine Table.mem_of_find? (k := row.occurrence_id) ?_
    rw [hfind, Table.find?_key hrow]
    rfl

/-! ## 3. Occurrences left running -/

/-- The statuses from which a session cannot run again. -/
def FINISHED : List SessionStatus :=
  [.completed, .failed, .cancelled, .deleted, .orphaned, .archived]

/-- The background session of a row does not exist any more, or has reached a
status from which it cannot run again. -/
def Gone (lookup : Lookup) (row : Occurrence) : Prop :=
  match lookup row.session_id with
  | .error _ => False
  | .ok none => True
  | .ok (some session) => session.status ∈ FINISHED

/-- No occurrence runs whose session is gone. -/
def NoStrays (lookup : Lookup) (s : Store) : Prop :=
  ∀ row ∈ s.occurrences.rows, row.state = .running → ¬ Gone lookup row

/-- The row names a session, and its status has a meaning for a pass. -/
def Ended (lookup : Lookup) (row : Occurrence) : Prop :=
  row.session_id ≠ "" ∧ ∃ session, lookup row.session_id = .ok (some session)
    ∧ session.status ∈ [SessionStatus.completed, .failed, .cancelled, .deleted]

theorem reconciledState_eq (status : SessionStatus) :
    reconciledState status = match status with
      | .completed => some .completed
      | .failed => some .failed
      | .cancelled | .deleted => some .cancelled
      | .queued | .starting => some .waitingCapacity
      | .running | .waitingApproval | .waitingInput => some .running
      | .retrying | .cancelling | .orphaned | .archived => none := by
  cases status <;> decide

/-- A status that a pass takes for a run that goes on is not the end of one. -/
theorem reconciledState_running {status : SessionStatus} (hgone : status ∈ FINISHED) :
    (reconciledState status = none ∧ status ∉ [SessionStatus.completed, .failed, .cancelled,
        .deleted])
      ∨ (∃ state, reconciledState status = some state ∧ state ≠ .running
        ∧ status ∈ [SessionStatus.completed, .failed, .cancelled, .deleted]) := by
  rw [reconciledState_eq]
  cases status <;> simp_all [FINISHED]

/-- A row that is settled and still running behind a session that is gone. -/
theorem settled_stray {row : Occurrence} (hgone : Gone lookup row) :
    (settled now lookup row).state = .running ↔ row.state = .running ∧ ¬ Ended lookup row := by
  unfold settled reconciled
  by_cases hskip : row.session_id = "" ∨ row.state ∉ [OccurrenceState.running, .waitingCapacity]
  · rw [if_pos hskip]
    rcases hskip with hid | hstate
    · simp [Ended, hid]
    · have hrun : row.state ≠ .running := fun h => hstate (by simp [h])
      simp [hrun]
  · rw [if_neg hskip]
    rw [not_or] at hskip
    unfold Gone at hgone
    cases hlookup : lookup row.session_id with
    | error exc => simp [hlookup] at hgone
    | ok found =>
        cases found with
        | none => simp [Ended, hlookup]
        | some session =>
            rw [hlookup] at hgone
            rcases reconciledState_running hgone with ⟨hnone, hout⟩ | ⟨state, hsome, hne, hin⟩
            · have hopen : ¬ Ended lookup row := by
                rintro ⟨-, session', heq, hin⟩
                rw [hlookup] at heq
                cases heq
                exact hout hin
              simp [hnone, hopen]
            · refine iff_of_false ?_ fun h => h.2 ⟨hskip.1, session, hlookup, hin⟩
              simp only [hsome]
              split
              · rename_i hsame
                split at hsame
                · rename_i heq
                  rw [← heq]
                  exact hne
                · cases hsame
              · rename_i changes hchanges
                split at hchanges
                · cases hchanges
                · cases hchanges
                  exact hne

/-- **What a pass leaves running.** No occurrence is left running behind a
session that is gone exactly when, of every such occurrence, fewer than 5000
rows of any schedule and state are older, and its session still exists and is
neither orphaned nor archived. -/
theorem reconciled_iff (env : Env) (p : Nat) (now : Time) (lookup : Lookup) (s : Store) :
    NoStrays lookup (reconcilePass env p now lookup s)
      ↔ ∀ row ∈ s.occurrences.rows, row.state = .running → Gone lookup row →
        (s.occurrences.rows.filter fun other => other.Before row).length < 5000
          ∧ Ended lookup row := by
  have hgone : ∀ row, Gone lookup (settled now lookup row) ↔ Gone lookup row := by
    intro row
    have hid : (settled now lookup row).session_id = row.session_id := by
      unfold settled
      split <;> rfl
    rw [Gone, Gone, hid]
  constructor
  · intro h row hrow hrun hstray
    have hnext := h _ ((reconcilePass_rows env p now lookup s _).mpr ⟨row, hrow, rfl⟩)
    by_cases hread : row ∈ s.rowsBefore none 5000
    · rw [if_pos hread] at hnext
      have hstopped : (settled now lookup row).state ≠ .running := fun hsettled =>
        hnext hsettled ((hgone row).mpr hstray)
      have hseen := mt (settled_stray hstray).mpr hstopped
      rw [not_and_not_right] at hseen
      exact ⟨(mem_rowsBefore_none hrow).mp hread, hseen hrun⟩
    · rw [if_neg hread] at hnext
      exact absurd hstray (hnext hrun)
  · intro h row' hrow' hrun hstray
    obtain ⟨row, hrow, rfl⟩ := (reconcilePass_rows env p now lookup s _).mp hrow'
    by_cases hread : row ∈ s.rowsBefore none 5000
    · rw [if_pos hread] at hrun hstray
      rw [hgone] at hstray
      obtain ⟨hrunning, hunseen⟩ := (settled_stray hstray).mp hrun
      exact hunseen (h row hrow hrunning hstray).2
    · rw [if_neg hread] at hrun hstray
      exact hread ((mem_rowsBefore_none hrow).mpr (h row hrow hrun hstray).1)

/-! ### A run whose worker was orphaned -/

def orphanedRecord : List (String × Json) :=
  [("session_id", .str "session"), ("status", .str "orphaned")]

def lookupOrphaned : Lookup := fun session_id =>
  .ok (if session_id = "session" then BackgroundSession.fromMapping plainInterp orphanedRecord
    else none)

def runningRow : Occurrence where
  occurrence_id := "occurrence"
  schedule_id := "schedule"
  schedule_revision := 1
  occurrence_key := "manual:occurrence"
  kind := "manual"
  scheduled_for := 0
  created_at := 0
  updated_at := 0
  state := .running
  session_id := "session"

def runningStore : Store := { occurrences := Table.empty.set runningRow }

/-- **An orphaned run is left running**, however few occurrences there are. -/
theorem not_reconciled_orphaned :
    ¬ NoStrays lookupOrphaned (reconcilePass plainEnv 0 10 lookupOrphaned runningStore) := by
  intro h
  have hrow : runningRow ∈ runningStore.occurrences.rows := Table.mem_set.mpr (.inl rfl)
  have hsettled : settled 10 lookupOrphaned runningRow = runningRow := by decide
  have hmem : runningRow
      ∈ (reconcilePass plainEnv 0 10 lookupOrphaned runningStore).occurrences.rows :=
    (reconcilePass_rows plainEnv 0 10 lookupOrphaned runningStore _).mpr
      ⟨runningRow, hrow, by rw [hsettled, ite_self]⟩
  refine h runningRow hmem rfl ?_
  have hstatus : (BackgroundSession.fromMapping plainInterp orphanedRecord).map (·.status)
      = some .orphaned := by decide
  obtain ⟨session, hsession, horphaned⟩ := Option.map_eq_some_iff.mp hstatus
  have hlookup : lookupOrphaned runningRow.session_id = .ok (some session) := by
    rw [← hsession]
    rfl
  simp [Gone, hlookup, horphaned, FINISHED]

end Agenthicc.Schedules
