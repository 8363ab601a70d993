/-
Agenthicc.Schedules.BackgroundDispatchTheorems — one background session for
an occurrence.

`created_once` needs nothing: whatever dies, restarts or competes, at most one
session is created for an occurrence. `dispatched_once` also says that nothing
is submitted or reported as failed for an occurrence after its session was
created, in a run where the dispatches of such an occurrence find their
session and raise nothing on the way to it.
-/
import Agenthicc.Schedules.BackgroundDispatch
import Agenthicc.Schedules.TickTheorems
import Mathlib.Data.String.Basic

namespace Agenthicc.Schedules.Installation

open Python Background Tables Tasks

variable {site : Site} {s t : State} {p q : Nat} {id : String} {α β : Type}

/-! ## 1. What was done for an occurrence -/

def Event.occurrence_id : Event → String
  | .submitted id | .created id _ | .failed id => id

def Event.creates : Event → Bool
  | .created _ _ => true
  | .submitted _ | .failed _ => false

/-- The sessions that were created for an occurrence. -/
def State.createdFor (s : State) (id : String) : List Session :=
  s.log.filterMap fun
    | .created id' session => if id' = id then some session else none
    | .submitted _ | .failed _ => none

theorem mem_createdFor {session : Session} :
    session ∈ s.createdFor id ↔ .created id session ∈ s.log := by
  simp only [State.createdFor, List.mem_filterMap]
  refine ⟨?_, fun h => ⟨_, h, if_pos rfl⟩⟩
  rintro ⟨event, hevent, heq⟩
  cases event with
  | submitted id' => cases heq
  | failed id' => cases heq
  | created id' session' =>
      dsimp only at heq
      split at heq
      · rename_i hid
        cases heq
        exact hid ▸ hevent
      · cases heq

/-- After the creation of its session nothing is done for an occurrence. -/
def Settled (log : List Event) : Prop :=
  log.Pairwise fun newer older => older.creates → newer.occurrence_id ≠ older.occurrence_id

/-- An occurrence has one session, and is neither submitted again nor reported
as failed once it has it. -/
structure DispatchedOnce (s : State) : Prop where
  once : ∀ id, (s.createdFor id).length ≤ 1
  settled : Settled s.log
  reported : ∀ row ∈ s.store.occurrences.rows, s.createdFor row.occurrence_id ≠ [] →
    row.state ≠ .blocked

/-! ## 2. One operation -/

/-- What an operation adds to the log. -/
inductive LogMove (site : Site) (s : State) : Op → List Event → Prop where
  | same {o : Op} : LogMove site s o s.log
  | submitted {r : Submission} : LogMove site s (.accept r) (.submitted r.task_id :: s.log)
  | created {r : Submission} (hnew : s.sessions.find? r.session_id = none) :
      LogMove site s (.accept r)
        (.created r.task_id (r.session site) :: .submitted r.task_id :: s.log)
  | failed {id : String} {now : Time} {changes : OccurrenceChanges} :
      LogMove site s (.fail id now changes) (.failed id :: s.log)

theorem accepted_new {r : Submission} {session : Session}
    (h : r.accepted site s = .ok (.new session)) :
    s.sessions.find? r.session_id = none ∧ session = r.session site := by
  obtain ⟨u, -, h⟩ := bind_ok h
  obtain ⟨existing, -, h⟩ := bind_ok h
  cases existing with
  | some session' => cases h
  | none =>
      dsimp only at h
      split at h
      · cases h
      · rename_i hnone
        obtain ⟨u, -, h⟩ := bind_ok h
        cases h
        exact ⟨by simpa using hnone, rfl⟩

theorem update_store (s : State) (session_id : String) (change : Session → Session) :
    (s.update session_id change).store = s.store ∧ (s.update session_id change).log = s.log := by
  unfold State.update
  split <;> exact ⟨rfl, rfl⟩

theorem launch_store (s : State) (session : Session) :
    (s.launch site session).1.store = s.store ∧ (s.launch site session).1.log = s.log := by
  unfold State.launch
  split
  · exact ⟨rfl, rfl⟩
  · exact update_store _ _ _

theorem accept_store (s : State) (r : Submission) : (s.accept site r).1.store = s.store := by
  unfold State.accept
  dsimp only
  split <;> rfl

theorem createOther_store (s : State) (session : Session) :
    (s.createOther session).store = s.store ∧ (s.createOther session).log = s.log := by
  unfold State.createOther
  split
  · split <;> exact ⟨rfl, rfl⟩
  · exact ⟨rfl, rfl⟩

/-- The store operation of an operation. -/
def Op.onStore : Op → Option Schedules.Op
  | .schedule o => some o
  | .fail id now changes => some (.updateRow id now none changes)
  | _ => none

theorem perform_store (site : Site) (p : Nat) (s : State) (o : Op) :
    (perform site p s o).1.store = match o.onStore with
      | some o => (Schedules.perform site.env p s.store o).1
      | none => s.store := by
  cases o with
  | accept r => exact accept_store _ _
  | launch session => exact (launch_store _ _).1
  | write session_id change => exact (update_store _ _ _).1
  | createOther session => exact (createOther_store _ _).1
  | _ => rfl

theorem perform_log (site : Site) (p : Nat) (s : State) (o : Op) :
    LogMove site s o (perform site p s o).1.log := by
  cases o with
  | accept r =>
      change LogMove site s (.accept r) (State.accept site { s with ticks := s.ticks + 1 } r).1.log
      unfold State.accept
      dsimp only
      split
      · exact .submitted
      · exact .submitted
      · rename_i session haccepted
        obtain ⟨hnew, rfl⟩ := accepted_new haccepted
        exact .created hnew
  | launch session =>
      change LogMove site s _ (State.launch site { s with ticks := s.ticks + 1 } session).1.log
      rw [(launch_store _ _).2]
      exact .same
  | write session_id change =>
      change LogMove site s _ (State.update { s with ticks := s.ticks + 1 } session_id change).log
      rw [(update_store _ _ _).2]
      exact .same
  | createOther session =>
      change LogMove site s _ (State.createOther { s with ticks := s.ticks + 1 } session).log
      rw [(createOther_store _ _).2]
      exact .same
  | fail id now changes => exact .failed
  | _ => exact .same

theorem accept_error {r : Submission} {exc : PyError}
    (h : (perform site p s (.accept r)).2 = .error exc) :
    (perform site p s (.accept r)).1.log = .submitted r.task_id :: s.log := by
  change (State.accept site { s with ticks := s.ticks + 1 } r).2 = _ at h
  change (State.accept site { s with ticks := s.ticks + 1 } r).1.log = _
  unfold State.accept at h ⊢
  dsimp only at h ⊢
  split at h
  · rfl
  · cases h
  · cases h

theorem set_isSome {sessions : Table Session String Session.session_id} {session : Session}
    (h : (sessions.find? id).isSome) : ((sessions.set session).find? id).isSome := by
  rw [Table.find?_set]
  split
  · rfl
  · exact h

theorem update_sessions {session_id : String} {change : Session → Session}
    (h : (s.sessions.find? id).isSome) : ((s.update session_id change).sessions.find? id).isSome := by
  unfold State.update
  split
  · exact h
  · exact set_isSome h

theorem perform_sessions {o : Op} (h : (s.sessions.find? id).isSome) :
    ((perform site p s o).1.sessions.find? id).isSome := by
  cases o with
  | accept r =>
      change ((State.accept site { s with ticks := s.ticks + 1 } r).1.sessions.find? id).isSome
      unfold State.accept
      dsimp only
      split
      · exact h
      · exact h
      · exact set_isSome h
  | launch session =>
      change ((State.launch site { s with ticks := s.ticks + 1 } session).1.sessions.find? id).isSome
      unfold State.launch
      split
      · exact h
      · exact update_sessions h
  | write session_id change => exact update_sessions h
  | createOther session =>
      change ((State.createOther { s with ticks := s.ticks + 1 } session).sessions.find? id).isSome
      unfold State.createOther
      split
      · split
        · exact set_isSome h
        · exact h
      · exact set_isSome h
  | _ => exact h

theorem created_sessions {r : Submission} (hnew : s.sessions.find? r.session_id = none)
    (hlog : (perform site p s (.accept r)).1.log
      = .created r.task_id (r.session site) :: .submitted r.task_id :: s.log) :
    ((perform site p s (.accept r)).1.sessions.find? r.session_id).isSome := by
  change ((State.accept site { s with ticks := s.ticks + 1 } r).1.sessions.find? _).isSome
  change (State.accept site { s with ticks := s.ticks + 1 } r).1.log = _ at hlog
  unfold State.accept at hlog ⊢
  dsimp only at hlog ⊢
  split at hlog
  · cases hlog
  · cases hlog
  · rename_i session haccepted
    obtain ⟨-, rfl⟩ := accepted_new haccepted
    change ((s.sessions.set (r.session site)).find? (r.session site).session_id).isSome
    rw [Table.find?_set, if_pos rfl]
    rfl

/-! ## 3. At most one session -/

/-- No two sessions were created for one occurrence, and each is in the
registry under the identity of its occurrence. -/
structure CreatedOnce (site : Site) (s : State) : Prop where
  once : s.log.Pairwise fun newer older =>
    newer.creates → older.creates → newer.occurrence_id ≠ older.occurrence_id
  registered : ∀ id session, .created id session ∈ s.log →
    (s.sessions.find? (occurrenceSessionId site.env id)).isSome

theorem createdFor_le_one (h : s.log.Pairwise fun newer older =>
      newer.creates → older.creates → newer.occurrence_id ≠ older.occurrence_id) (id : String) :
    (s.createdFor id).length ≤ 1 := by
  have hnone : ∀ log : List Event, (∀ e ∈ log, e.creates → id ≠ e.occurrence_id) →
      State.createdFor { log := log } id = [] := by
    intro log hlog
    refine List.eq_nil_iff_forall_not_mem.mpr fun session hsession => ?_
    exact hlog _ (mem_createdFor.mp hsession) rfl rfl
  change (State.createdFor { log := s.log } id).length ≤ 1
  induction hlog : s.log generalizing s with
  | nil => exact Nat.zero_le 1
  | cons event log ih =>
      rw [hlog] at h
      obtain ⟨hhead, htail⟩ := List.pairwise_cons.mp h
      have hrest : (State.createdFor { log := log } id).length ≤ 1 := ih (s := { log := log }) htail rfl
      cases event with
      | submitted id' => exact hrest
      | failed id' => exact hrest
      | created id' session =>
          by_cases hid : id' = id
          · subst hid
            have hempty := hnone log fun e he hcreates => hhead e he rfl hcreates
            have heq : State.createdFor { log := .created id' session :: log } id'
                = session :: State.createdFor { log := log } id' := by
              simp [State.createdFor]
            rw [heq, hempty]
            exact Nat.le_refl 1
          · have heq : State.createdFor { log := .created id' session :: log } id
                = State.createdFor { log := log } id := by
              simp [State.createdFor, hid]
            rw [heq]
            exact hrest

/-- A request is one for the session of its occurrence. -/
def Identified (site : Site) : Op → Prop
  | .accept r => r.session_id = occurrenceSessionId site.env r.task_id
  | _ => True

theorem createdOnce_perform {o : Op} (h : CreatedOnce site s) (ho : Identified site o) :
    CreatedOnce site (perform site p s o).1 := by
  have hmove := perform_log site p s o
  have hkept : ∀ id session, .created id session ∈ s.log →
      ((perform site p s o).1.sessions.find? (occurrenceSessionId site.env id)).isSome :=
    fun id session hmem => perform_sessions (h.registered id session hmem)
  generalize hlog : (perform site p s o).1.log = log at hmove
  cases hmove with
  | same => exact ⟨hlog ▸ h.once, hlog ▸ hkept⟩
  | submitted =>
      refine ⟨?_, ?_⟩ <;> rw [hlog]
      · exact List.pairwise_cons.mpr ⟨(fun _ _ hcreates => nomatch hcreates), h.once⟩
      · intro id session hmem
        exact hkept id session ((List.mem_cons.mp hmem).resolve_left fun heq => nomatch heq)
  | failed =>
      refine ⟨?_, ?_⟩ <;> rw [hlog]
      · exact List.pairwise_cons.mpr ⟨(fun _ _ hcreates => nomatch hcreates), h.once⟩
      · intro id session hmem
        exact hkept id session ((List.mem_cons.mp hmem).resolve_left fun heq => nomatch heq)
  | @created r hnew =>
      have hid : r.session_id = occurrenceSessionId site.env r.task_id := ho
      have hrest : (Event.submitted r.task_id :: s.log).Pairwise fun newer older =>
          newer.creates → older.creates → newer.occurrence_id ≠ older.occurrence_id :=
        List.pairwise_cons.mpr ⟨(fun _ _ hcreates => nomatch hcreates), h.once⟩
      refine ⟨?_, ?_⟩ <;> rw [hlog]
      · refine List.pairwise_cons.mpr ⟨fun event hevent _ hcreates heq => ?_, hrest⟩
        cases event with
        | submitted id => cases hcreates
        | failed id => cases hcreates
        | created id session =>
            have hmem := (List.mem_cons.mp hevent).resolve_left fun heq => nomatch heq
            have hsome := h.registered id session hmem
            have hsame : r.task_id = id := heq
            rw [← hsame, ← hid, hnew] at hsome
            cases hsome
      · intro id session hmem
        rcases List.mem_cons.mp hmem with heq | hmem
        · cases heq
          rw [← hid]
          exact created_sessions hnew hlog
        · exact hkept id session ((List.mem_cons.mp hmem).resolve_left fun heq => nomatch heq)

theorem calls_andThen {P : Op → Prop} {call : Prog (Except PyError α)}
    {next : α → Prog (Except PyError β)} (h : call.Calls P) (hnext : ∀ a, (next a).Calls P) :
    (andThen call next).Calls P := by
  refine .bind h fun r => ?_
  cases r with
  | error exc => trivial
  | ok a => exact hnext a

theorem calls_lift {P : Op → Prop} {Q : Schedules.Op → Prop} (hPQ : ∀ o, Q o → P (.schedule o)) :
    ∀ {prog : Schedules.Prog α}, prog.Calls Q → (lift prog).Calls P
  | .done _, _ => trivial
  | .call o _, h => ⟨hPQ o h.1, fun r => calls_lift hPQ (h.2 r)⟩

theorem calls_any : ∀ prog : Schedules.Prog α, prog.Calls fun _ => True
  | .done _ => trivial
  | .call _ next => ⟨trivial, fun r => calls_any (next r)⟩

theorem identified_lift (prog : Schedules.Prog α) : (lift prog).Calls (Identified site) :=
  calls_lift (fun _ _ => trivial) (calls_any prog)

theorem identified_prepared (worktree : Option Mapping) (base_commit : String) :
    (prepared id worktree base_commit).Calls (Identified site) :=
  .bind (.ask trivial) fun _ => identified_lift _

theorem identified_withBase (repository : String) (isolated : Bool) (occurrence : Occurrence) :
    (withBase repository isolated occurrence).Calls (Identified site) := by
  unfold withBase
  split
  · trivial
  · refine calls_andThen ?_ fun _ => calls_andThen (.ask trivial) fun _ => identified_prepared _ _
    split
    · exact .ask trivial
    · trivial

theorem identified_workingDirectory (schedule : Schedule) (occurrence : Occurrence) :
    (workingDirectory site schedule occurrence).Calls (Identified site) := by
  refine calls_andThen (.ask trivial) fun _ => ?_
  split
  · refine calls_andThen (identified_withBase _ _ _) fun occurrence => ?_
    refine calls_andThen ?_ fun _ => trivial
    unfold withWorktree
    split
    · trivial
    · exact calls_andThen (.ask trivial) fun _ => calls_andThen (identified_prepared _ _) fun _ => trivial
  · exact calls_andThen (identified_withBase _ _ _) fun _ => trivial

theorem identified_dispatch (schedule : Schedule) (occurrence : Occurrence) :
    (dispatch site schedule occurrence).Calls (Identified site) := by
  refine calls_andThen (identified_workingDirectory _ _) fun directory => ?_
  dsimp only
  split
  · trivial
  · refine .bind (.ask trivial) fun found => ?_
    cases found with
    | some existing =>
        dsimp only
        split <;> trivial
    | none =>
        refine calls_andThen (calls_andThen (.ask rfl) fun accepted => ?_) fun _ => trivial
        cases accepted with
        | existing session => trivial
        | new session =>
            rw [started]
            split
            · exact ⟨trivial, fun _ => .ask trivial⟩
            · exact .ask trivial

theorem identified_reportFailure (now : Time) (changes : OccurrenceChanges) :
    (reportFailure id now changes).Calls (Identified site) := by
  refine .bind (.ask trivial) fun r => ?_
  cases r with
  | error exc => trivial
  | ok u => exact ⟨trivial, fun _ => trivial⟩

theorem identified_dispatchOne (now : Time) (occurrence : Occurrence) :
    (dispatchOne site now occurrence).Calls (Identified site) := by
  refine .bind (.ask trivial) fun r => ?_
  cases r with
  | error exc => exact identified_reportFailure _ _
  | ok schedule =>
      refine .bind (.ask trivial) fun inflight => ?_
      dsimp only
      split
      · trivial
      · exact identified_lift _
      · refine .bind (identified_lift _) fun claimed => ?_
        cases claimed with
        | error exc => trivial
        | ok claimed =>
            refine .bind (identified_dispatch _ _) fun result => ⟨trivial, fun now => ?_⟩
            cases result with
            | error exc => exact identified_reportFailure _ _
            | ok status => exact ⟨trivial, fun _ => identified_lift _⟩

theorem identified_job (job : Job) : (job.prog site).Calls (Identified site) := by
  cases job with
  | tick now lookup =>
      refine Task.Calls.forget ?_
      refine calls_andThen (identified_lift _) fun _ => calls_andThen (identified_lift _) fun _ => ?_
      refine .bind (.ask trivial) fun entered => ?_
      split
      · refine .bind (calls_andThen (.ask trivial) fun rows => ?_) fun _ => ⟨trivial, fun _ => trivial⟩
        exact .each fun row _ => identified_dispatchOne _ _
      · trivial
  | manage job h => exact identified_lift _
  | write session_id change => exact .ask trivial
  | createOther session => exact .ask trivial

/-- The argument for the sessions that are created, which no process can spoil
for another. -/
def creating (site : Site) : Discipline (system site) where
  Inv := CreatedOnce site
  Idle _ _ := True
  Ok _ _ _ := True
  Rely _ _ _ := True
  Guar _ _ := Identified site
  rely_refl _ _ := trivial
  rely_trans _ _ := trivial
  idle_rely _ _ := trivial
  guar_inv h _ ho := createdOnce_perform h ho
  guar_rely _ _ _ _ := trivial
  died_inv h := ⟨h.once, h.registered⟩
  died_rely _ _ := trivial

/-- **At most one session is created for an occurrence**, whatever dies,
restarts or competes. -/
theorem created_once (site : Site) (actions : List (Tasks.Action Job)) (id : String) :
    ((after site actions).createdFor id).length ≤ 1 := by
  have hstart : (creating site).Safe { state := {} } :=
    Discipline.safe_start ⟨.nil, fun _ _ h => nomatch h⟩ fun _ => trivial
  have hok : Runs.RunOk (system site).step (creating site).StepOk { state := {} } actions :=
    Runs.RunOk.of_forall (fun _ action => match action with
      | .step _ => fun _ _ _ => trivial
      | .start _ _ | .crash _ => trivial) actions
  have hjob : ∀ job p s, (creating site).Inv s → (creating site).Idle p s →
      (creating site).Wp p ((system site).job job) (fun _ => (creating site).Idle p) s :=
    fun job p s _ _ => Discipline.Wp.of_calls (J := fun _ => True) (fun _ _ => trivial)
      (fun _ _ _ _ => trivial) (fun _ _ ho => ho) (identified_job job) trivial
  have hsafe := Discipline.run hjob hstart hok actions.length
  rw [List.take_length] at hsafe
  exact createdFor_le_one hsafe.1.once id

/-! ## 4. What others leave of an occurrence -/

/-- What a dispatch relies on in the row of an occurrence. -/
structure SameRow (row row' : Occurrence) : Prop where
  id : row'.occurrence_id = row.occurrence_id
  schedule : row'.schedule_id = row.schedule_id
  revision : row'.schedule_revision = row.schedule_revision
  session : row'.session_id = row.session_id
  worktree : row'.worktree = row.worktree
  blocked : row'.state = .blocked → row.state = .blocked

theorem SameRow.refl (row : Occurrence) : SameRow row row :=
  ⟨rfl, rfl, rfl, rfl, rfl, fun h => h⟩

theorem SameRow.trans {a b c : Occurrence} (h : SameRow a b) (h' : SameRow b c) : SameRow a c :=
  ⟨h'.id.trans h.id, h'.schedule.trans h.schedule, h'.revision.trans h.revision,
    h'.session.trans h.session, h'.worktree.trans h.worktree, fun hb => h.blocked (h'.blocked hb)⟩

/-- A row stays under its revision. -/
def SameRevision (row row' : Occurrence) : Prop :=
  row'.schedule_id = row.schedule_id ∧ row'.schedule_revision = row.schedule_revision

/-- The operation writes no worktree into the row and does not block it. -/
def Spares (id : String) : Schedules.Op → Prop
  | .updateRow id' _ _ changes => id' = id → changes.worktree = none ∧ changes.state ≠ some .blocked
  | _ => True

theorem sameRow_perform {env : Env} {store : Store} {o : Schedules.Op} {row : Occurrence}
    (hrow : store.occurrences.find? id = some row) (ho : Spares id o) :
    ∃ row', (Schedules.perform env p store o).1.occurrences.find? id = some row'
      ∧ SameRow row row' := by
  have hid : row.occurrence_id = id := Table.key_of_find? hrow
  obtain ⟨row', hrow', hmove⟩ := row_effect (perform_effect env p store o) hrow
  refine ⟨row', hrow', ?_⟩
  cases hmove with
  | same => exact .refl row
  | coalesced htarget hqueued => exact ⟨rfl, rfl, rfl, rfl, rfl, fun h => h⟩
  | @written now expected_states changes =>
      obtain ⟨hworktree, hstate⟩ := ho hid
      refine ⟨rfl, rfl, rfl, rfl, ?_, fun hblocked => ?_⟩
      · change changes.worktree.or row.worktree = row.worktree
        rw [hworktree]
        rfl
      · rw [written_state] at hblocked
        cases hchange : changes.state with
        | none =>
            rw [hchange] at hblocked
            exact hblocked
        | some state =>
            rw [hchange] at hblocked
            exact absurd (hchange.trans (congrArg some hblocked)) hstate

theorem sameRevision_perform {env : Env} {store : Store} {o : Schedules.Op} {row : Occurrence}
    (hrow : store.occurrences.find? id = some row) :
    ∃ row', (Schedules.perform env p store o).1.occurrences.find? id = some row'
      ∧ SameRevision row row' := by
  obtain ⟨row', hrow', hmove⟩ := row_effect (perform_effect env p store o) hrow
  refine ⟨row', hrow', ?_⟩
  cases hmove <;> exact ⟨rfl, rfl⟩

theorem insertRevision_new {store store' : Store} {schedule : Schedule}
    (h : store.insertRevision schedule = .ok store') :
    store.revisions.find? (schedule.schedule_id, schedule.revision) = none := by
  unfold Store.insertRevision at h
  split at h
  · cases h
  · rename_i hnone
    simpa using hnone

theorem revision_set {store : Store} {schedule found : Schedule} {key : String × Nat}
    (hnew : store.revisions.find? (schedule.schedule_id, schedule.revision) = none)
    (hfound : store.revisions.find? key = some found) :
    (store.revisions.set schedule).find? key = some found := by
  rw [Table.find?_set]
  split
  · rename_i hkey
    rw [← hkey, hnew] at hfound
    cases hfound
  · exact hfound

theorem revision_perform {env : Env} {store : Store} {o : Schedules.Op} {key : String × Nat}
    {found : Schedule} (hfound : store.revisions.find? key = some found) :
    (Schedules.perform env p store o).1.revisions.find? key = some found := by
  have hcommit : ∀ {β : Type} {r : Except PyError (Store × β)},
      (∀ store' b, r = .ok (store', b) → store'.revisions.find? key = some found) →
      (commit store r).1.revisions.find? key = some found := by
    intro β r h
    cases r with
    | error exc => exact hfound
    | ok r => exact h r.1 r.2 rfl
  cases o with
  | create schedule =>
      refine hcommit fun store' _ h => ?_
      have h := map_unit_ok h
      unfold Store.create at h
      split at h
      · cases h
      · split at h
        · rename_i store'' hrevision
          cases h
          have hnew := insertRevision_new hrevision
          rw [insertRevision_ok hrevision]
          exact revision_set hnew hfound
        · cases h
  | revise schedule_id expected_revision now changes =>
      refine hcommit fun store' _ h => ?_
      obtain ⟨current, -, h⟩ := bind_ok h
      split at h
      · cases h
      · obtain ⟨definition, -, h⟩ := bind_ok h
        obtain ⟨store'', hrevision, h⟩ := bind_ok h
        cases h
        have hnew := insertRevision_new hrevision
        rw [insertRevision_ok hrevision]
        exact revision_set hnew hfound
  | updateRow occurrence_id now expected_states changes =>
      refine hcommit fun store' _ h => ?_
      cases updateRow_effect (p := p) (map_unit_ok h) <;> exact hfound
  | insertRow row =>
      refine hcommit fun store' _ h => ?_
      obtain ⟨-, rfl⟩ := insertRow_ok (map_unit_ok h)
      exact hfound
  | insertManual request =>
      refine hcommit fun store' _ h => ?_
      cases insertManual_effect (p := p) (map_unit_ok h) <;> exact hfound
  | claimDue claim =>
      refine hcommit fun store' _ h => ?_
      cases claimDue_effect (p := p) h <;> exact hfound
  | lockDispatch =>
      simp only [Schedules.perform]
      split <;> exact hfound
  | _ => exact hfound

/-! ## 5. Rely and guarantee -/

/-- The directory of a run of the schedule. -/
def Directory (site : Site) (schedule : Schedule) (row : Occurrence) (directory : String) : Prop :=
  if casefold schedule.definition.permission_ceiling ≠ "plan" then
    ∃ value record, row.worktree = some value ∧ WorktreeRecord.fromMapping value = .ok record
      ∧ directory = record.path
  else directory = site.resolve (site.repository_root schedule.schedule_id)

theorem Directory.unique {schedule : Schedule} {row : Occurrence} {a b : String}
    (ha : Directory site schedule row a) (hb : Directory site schedule row b) : a = b := by
  unfold Directory at ha hb
  split at ha
  · rename_i hplan
    rw [if_pos hplan] at hb
    obtain ⟨value, record, hvalue, hrecord, rfl⟩ := ha
    obtain ⟨value', record', hvalue', hrecord', rfl⟩ := hb
    rw [hvalue, Option.some.injEq] at hvalue'
    rw [← hvalue', hrecord, Except.ok.injEq] at hrecord'
    rw [hrecord']
  · rename_i hplan
    rw [if_neg hplan] at hb
    rw [ha, hb]

theorem Directory.same {schedule : Schedule} {row row' : Occurrence} {directory : String}
    (h : Directory site schedule row directory) (hsame : SameRow row row') :
    Directory site schedule row' directory := by
  unfold Directory at h ⊢
  rw [hsame.worktree]
  exact h

/-- The session was created as the row and its revision ask. -/
structure Requested (site : Site) (s : State) (id : String) (session : Session) : Prop where
  row : ∃ row schedule directory, s.store.occurrences.find? id = some row
    ∧ row.state ≠ .blocked
    ∧ s.store.revisions.find? (row.schedule_id, row.schedule_revision) = some schedule
    ∧ (row.session_id ≠ "" → row.session_id = occurrenceSessionId site.env id)
    ∧ Directory site schedule row directory
    ∧ session.serves schedule (site.resolve directory)

/-- No session was created for the occurrence. -/
def Unserved (s : State) (id : String) : Prop := ∀ session, .created id session ∉ s.log

/-- The session that was found is what was created. -/
def Session.same (found session : Session) : Prop :=
  found.cwd = session.cwd ∧ found.workflow_name = session.workflow_name
    ∧ found.intent = session.intent ∧ found.requested_mode_name = session.requested_mode_name
    ∧ found.requested_profile_name = session.requested_profile_name

instance (found session : Session) : Decidable (found.same session) :=
  inferInstanceAs (Decidable (_ ∧ _ ∧ _ ∧ _ ∧ _))

/-- Where an occurrence has a session, a dispatch gets its answers from Git and
from the registry, and finds the session as it was created; and the worker of
a session that was just created starts, or the session is in the queue. -/
def Steady (site : Site) (p : Nat) (s : State) : Op → Prop
  | .git id repository call => s.createdFor id ≠ [] →
      ∃ r, (perform site p s (.git id repository call)).2 = .ok r
  | .lookup id session_id => ∀ session ∈ s.createdFor id,
      ∃ found, (perform site p s (.lookup id session_id)).2 = some found ∧ found.same session
  | .launch session => site.queue_enabled = false →
      ∃ r, (perform site p s (.launch session)).2 = .ok r
  | .reread id session_id => s.createdFor id ≠ [] →
      ∃ r, (perform site p s (.reread id session_id)).2 = .ok r
  | _ => True

/-- What a process promises of its operations. -/
def Promise (site : Site) (p : Nat) (s : State) : Op → Prop
  | .schedule (.updateRow id _ _ changes) => changes.state ≠ some .blocked
      ∧ (changes.worktree ≠ none → s.store.dispatch_lock = some p ∧ Unserved s id)
  | .schedule .unlockDispatch => s.store.dispatch_lock = some p
  | .accept r => s.store.dispatch_lock = some p ∧ Unserved s r.task_id
      ∧ Requested site s r.task_id (r.session site)
  | .fail id _ changes => s.store.dispatch_lock = some p ∧ Unserved s id ∧ changes.worktree = none
  | _ => True

structure Sound (site : Site) (s : State) : Prop where
  settled : Settled s.log
  requested : ∀ id session, .created id session ∈ s.log → Requested site s id session

/-- What the others leave to the process that dispatches. -/
structure Relied (p : Nat) (s t : State) : Prop where
  lock : s.store.dispatch_lock = some p → t.store.dispatch_lock = some p
  idle : s.store.dispatch_lock ≠ some p → t.store.dispatch_lock ≠ some p
  rows : s.store.dispatch_lock = some p → ∀ id row, s.store.occurrences.find? id = some row →
    ∃ row', t.store.occurrences.find? id = some row' ∧ SameRow row row'
  kept : ∀ id row, s.store.occurrences.find? id = some row →
    ∃ row', t.store.occurrences.find? id = some row' ∧ SameRevision row row'
  revisions : ∀ key schedule, s.store.revisions.find? key = some schedule →
    t.store.revisions.find? key = some schedule
  log : s.store.dispatch_lock = some p → t.log = s.log

theorem Relied.refl (p : Nat) (s : State) : Relied p s s :=
  ⟨id, id, fun _ _ row h => ⟨row, h, .refl row⟩, fun _ row h => ⟨row, h, rfl, rfl⟩,
    fun _ _ h => h, fun _ => rfl⟩

theorem Relied.trans {u : State} (h : Relied p s t) (h' : Relied p t u) : Relied p s u where
  lock hlock := h'.lock (h.lock hlock)
  idle hlock := h'.idle (h.idle hlock)
  rows hlock id row hrow := by
    obtain ⟨row', hrow', hsame⟩ := h.rows hlock id row hrow
    obtain ⟨row'', hrow'', hsame'⟩ := h'.rows (h.lock hlock) id row' hrow'
    exact ⟨row'', hrow'', hsame.trans hsame'⟩
  kept id row hrow := by
    obtain ⟨row', hrow', hid, hrevision⟩ := h.kept id row hrow
    obtain ⟨row'', hrow'', hid', hrevision'⟩ := h'.kept id row' hrow'
    exact ⟨row'', hrow'', hid'.trans hid, hrevision'.trans hrevision⟩
  revisions key schedule hfound := h'.revisions key schedule (h.revisions key schedule hfound)
  log hlock := (h'.log (h.lock hlock)).trans (h.log hlock)

theorem revisions_perform {o : Op} {key : String × Nat} {schedule : Schedule}
    (hfound : s.store.revisions.find? key = some schedule) :
    (perform site p s o).1.store.revisions.find? key = some schedule := by
  rw [perform_store]
  split
  · exact revision_perform hfound
  · exact hfound

theorem row_perform (site : Site) (p : Nat) {o : Op} {row : Occurrence}
    (hrow : s.store.occurrences.find? id = some row) (ho : ∀ o' ∈ o.onStore, Spares id o') :
    ∃ row', (perform site p s o).1.store.occurrences.find? id = some row' ∧ SameRow row row' := by
  rw [perform_store]
  split
  · rename_i o' heq
    exact sameRow_perform hrow (ho o' heq)
  · exact ⟨row, hrow, .refl row⟩

theorem kept_perform (site : Site) (p : Nat) (o : Op) {row : Occurrence}
    (hrow : s.store.occurrences.find? id = some row) :
    ∃ row', (perform site p s o).1.store.occurrences.find? id = some row' ∧ SameRevision row row' := by
  rw [perform_store]
  split
  · exact sameRevision_perform hrow
  · exact ⟨row, hrow, rfl, rfl⟩

/-- Operations of others spare every row while `p` dispatches, and the
occurrences that have a session always. -/
theorem spares_promise {o : Op} (h : Promise site q s o)
    (hid : ¬ (s.store.dispatch_lock = some q ∧ Unserved s id)) : ∀ o' ∈ o.onStore, Spares id o' := by
  intro o' ho'
  cases o with
  | schedule o =>
      cases ho'
      cases o' with
      | updateRow id' now expected changes =>
          rintro rfl
          refine ⟨?_, h.1⟩
          by_contra hworktree
          exact hid (h.2 hworktree)
      | _ => trivial
  | fail id' now changes =>
      cases ho'
      rintro rfl
      exact absurd ⟨h.1, h.2.1⟩ hid
  | _ => cases ho'

theorem Requested.perform {o : Op} {session : Session} (h : Requested site s id session)
    (ho : ∀ o' ∈ o.onStore, Spares id o') : Requested site (perform site p s o).1 id session := by
  obtain ⟨row, schedule, directory, hrow, hblocked, hrevision, hsession, hdirectory, hserves⟩ := h.row
  obtain ⟨row', hrow', hsame⟩ := row_perform site p hrow ho
  refine ⟨row', schedule, directory, hrow', fun hb => hblocked (hsame.blocked hb), ?_, ?_,
    hdirectory.same hsame, hserves⟩
  · rw [hsame.schedule, hsame.revision]
    exact revisions_perform hrevision
  · rw [hsame.session]
    exact hsession

theorem settled_cons {event : Event} {log : List Event} (h : Settled log)
    (hnew : ∀ session, .created event.occurrence_id session ∉ log) : Settled (event :: log) := by
  refine List.pairwise_cons.mpr ⟨fun older holder hcreates heq => ?_, h⟩
  cases older with
  | submitted id => cases hcreates
  | failed id => cases hcreates
  | created id session =>
      rw [heq] at hnew
      exact hnew session holder

theorem sound_perform {o : Op} (h : Sound site s) (ho : Promise site p s o) :
    Sound site (perform site p s o).1 := by
  have hkept : ∀ id session, .created id session ∈ s.log →
      Requested site (perform site p s o).1 id session := fun id session hmem =>
    (h.requested id session hmem).perform
      (spares_promise ho fun hunserved => hunserved.2 session hmem)
  have hmove := perform_log site p s o
  generalize hlog : (perform site p s o).1.log = log at hmove
  refine ⟨?_, ?_⟩ <;> rw [hlog]
  · cases hmove with
    | same => exact h.settled
    | submitted => exact settled_cons h.settled ho.2.1
    | failed => exact settled_cons h.settled ho.2.1
    | created hnew =>
        refine settled_cons (settled_cons h.settled ho.2.1) fun session hmem => ?_
        exact ho.2.1 session ((List.mem_cons.mp hmem).resolve_left fun heq => nomatch heq)
  · intro id session hmem
    cases hmove with
    | same => exact hkept id session hmem
    | submitted =>
        exact hkept id session ((List.mem_cons.mp hmem).resolve_left fun heq => nomatch heq)
    | failed =>
        exact hkept id session ((List.mem_cons.mp hmem).resolve_left fun heq => nomatch heq)
    | created hnew =>
        rcases List.mem_cons.mp hmem with heq | hmem
        · cases heq
          exact ho.2.2.perform fun o' ho' => nomatch ho'
        · exact hkept id session ((List.mem_cons.mp hmem).resolve_left fun heq => nomatch heq)

theorem lock_store (env : Env) (q : Nat) (store : Store) (o : Schedules.Op) :
    (Schedules.perform env q store o).1.dispatch_lock = store.dispatch_lock
      ∨ (o = .lockDispatch ∧ store.dispatch_lock = none
        ∧ (Schedules.perform env q store o).1.dispatch_lock = some q)
      ∨ (o = .unlockDispatch ∧ (Schedules.perform env q store o).1.dispatch_lock = none) := by
  have h := perform_effect env q store o
  generalize (Schedules.perform env q store o).1 = store' at h
  cases h with
  | locked hfree => exact .inr (.inl ⟨rfl, hfree, rfl⟩)
  | unlocked => exact .inr (.inr ⟨rfl, rfl⟩)
  | _ => exact .inl rfl

theorem lock_perform (site : Site) (q : Nat) (s : State) (o : Op) :
    (perform site q s o).1.store.dispatch_lock = s.store.dispatch_lock
      ∨ (o = .schedule .lockDispatch ∧ s.store.dispatch_lock = none
        ∧ (perform site q s o).1.store.dispatch_lock = some q)
      ∨ (o = .schedule .unlockDispatch ∧ (perform site q s o).1.store.dispatch_lock = none) := by
  rw [perform_store]
  split
  · rename_i o' heq
    rcases lock_store site.env q s.store o' with
      hsame | ⟨rfl, hfree, hlocked⟩ | ⟨rfl, hnone⟩
    · exact .inl hsame
    · cases o with
      | schedule o =>
          cases heq
          exact .inr (.inl ⟨rfl, hfree, hlocked⟩)
      | _ => cases heq
    · cases o with
      | schedule o =>
          cases heq
          exact .inr (.inr ⟨rfl, hnone⟩)
      | _ => cases heq
  · exact .inl rfl

theorem relied_perform {o : Op} (hne : q ≠ p) (ho : Promise site q s o) :
    Relied p s (perform site q s o).1 := by
  have hother : s.store.dispatch_lock = some p → s.store.dispatch_lock ≠ some q := by
    intro hlock hq
    rw [hlock, Option.some.injEq] at hq
    exact hne hq.symm
  have hlock := lock_perform site q s o
  refine ⟨fun hp => ?_, fun hp => ?_, fun hp id row hrow => ?_, fun id row => kept_perform site q o,
    fun key schedule => revisions_perform, fun hp => ?_⟩
  · rcases hlock with hsame | ⟨-, hfree, -⟩ | ⟨rfl, -⟩
    · rw [hsame, hp]
    · rw [hp] at hfree
      cases hfree
    · exact absurd ho (hother hp)
  · rcases hlock with hsame | ⟨-, -, hlocked⟩ | ⟨-, hnone⟩
    · rw [hsame]
      exact hp
    · rw [hlocked]
      exact fun heq => hne (Option.some.inj heq)
    · rw [hnone]
      exact fun heq => by cases heq
  · exact row_perform site q hrow (spares_promise ho fun h => hother hp h.1)
  · have hmove := perform_log site q s o
    generalize (perform site q s o).1.log = log at hmove ⊢
    cases hmove with
    | same => rfl
    | submitted => exact absurd ho.1 (hother hp)
    | created hnew => exact absurd ho.1 (hother hp)
    | failed => exact absurd ho.1 (hother hp)

theorem died_lock (q : Nat) (s : State) : (died q s).store.dispatch_lock
    = if s.store.dispatch_lock = some q then none else s.store.dispatch_lock := by
  unfold died Schedules.died
  split <;> rfl

theorem died_tables (q : Nat) (s : State) : (died q s).store.occurrences = s.store.occurrences
    ∧ (died q s).store.revisions = s.store.revisions := by
  unfold died Schedules.died
  dsimp only
  split <;> exact ⟨rfl, rfl⟩

theorem sound_died (h : Sound site s) : Sound site (died q s) := by
  refine ⟨h.settled, fun id session hmem => ?_⟩
  obtain ⟨row, schedule, directory, hrow, hblocked, hrevision, hrest⟩ :=
    (h.requested id session hmem).row
  refine ⟨row, schedule, directory, ?_, hblocked, ?_, hrest⟩
  · rw [(died_tables q s).1]
    exact hrow
  · rw [(died_tables q s).2]
    exact hrevision

theorem relied_died (hne : q ≠ p) : Relied p s (died q s) := by
  have hlock := died_lock q s
  refine ⟨fun hp => ?_, fun hp => ?_, fun _ id row hrow => ?_, fun id row hrow => ?_,
    fun key schedule hfound => ?_, fun _ => rfl⟩
  · rw [hlock, if_neg (by rw [hp]; exact fun heq => hne (Option.some.inj heq).symm), hp]
  · rw [hlock]
    split
    · exact fun heq => by cases heq
    · exact hp
  · exact ⟨row, by rw [(died_tables q s).1]; exact hrow, .refl row⟩
  · exact ⟨row, by rw [(died_tables q s).1]; exact hrow, rfl, rfl⟩
  · rw [(died_tables q s).2]
    exact hfound

/-- The argument for what happens once an occurrence has its session. -/
def dispatching (site : Site) : Discipline (system site) where
  Inv := Sound site
  Idle p s := s.store.dispatch_lock ≠ some p
  Ok := Steady site
  Rely := Relied
  Guar := Promise site
  rely_refl := Relied.refl
  rely_trans := Relied.trans
  idle_rely hr := hr.idle
  guar_inv h _ ho := sound_perform h ho
  guar_rely hne _ _ ho := relied_perform hne ho
  died_inv := sound_died
  died_rely hne _ := relied_died hne

/-! ## 6. One dispatch -/

section Dispatch

variable {schedule : Schedule} {R : Occurrence → Prop}

/-- What the row of the occurrence keeps while it is dispatched. -/
def Respects (R : Occurrence → Prop) : Prop := ∀ {row row'}, SameRow row row' → R row → R row'

/-- `p` dispatches the occurrence under the revision. -/
structure At (site : Site) (p : Nat) (schedule : Schedule) (id : String) (R : Occurrence → Prop)
    (s : State) : Prop where
  lock : s.store.dispatch_lock = some p
  row : ∃ row, s.store.occurrences.find? id = some row ∧ row.state ≠ .blocked
    ∧ s.store.revisions.find? (row.schedule_id, row.schedule_revision) = some schedule ∧ R row
  requested : ∀ session, .created id session ∈ s.log → Requested site s id session

theorem At.imp {R' : Occurrence → Prop} (h : At site p schedule id R s) (hR : ∀ row, R row → R' row) :
    At site p schedule id R' s := by
  obtain ⟨row, hrow, hblocked, hrevision, hrest⟩ := h.row
  exact ⟨h.lock, ⟨row, hrow, hblocked, hrevision, hR row hrest⟩, h.requested⟩

theorem Requested.relied {session : Session} (h : Requested site s id session)
    (hlock : s.store.dispatch_lock = some p) (hr : Relied p s t) : Requested site t id session := by
  obtain ⟨row, schedule, directory, hrow, hblocked, hrevision, hsession, hdirectory, hserves⟩ := h.row
  obtain ⟨row', hrow', hsame⟩ := hr.rows hlock id row hrow
  refine ⟨row', schedule, directory, hrow', fun hb => hblocked (hsame.blocked hb), ?_, ?_,
    hdirectory.same hsame, hserves⟩
  · rw [hsame.schedule, hsame.revision]
    exact hr.revisions _ _ hrevision
  · rw [hsame.session]
    exact hsession

theorem stable_at (hR : Respects R) : (dispatching site).Stable p (At site p schedule id R) := by
  intro s t hr h
  obtain ⟨row, hrow, hblocked, hrevision, hrest⟩ := h.row
  obtain ⟨row', hrow', hsame⟩ := hr.rows h.lock id row hrow
  refine ⟨hr.lock h.lock, ⟨row', hrow', fun hb => hblocked (hsame.blocked hb), ?_, hR hsame hrest⟩, ?_⟩
  · rw [hsame.schedule, hsame.revision]
    exact hr.revisions _ _ hrevision
  · intro session hmem
    rw [hr.log h.lock] at hmem
    exact (h.requested session hmem).relied h.lock hr

/-- An operation that leaves the row, the log and the lock. -/
structure Leaves (site : Site) (p : Nat) (id : String) (o : Op) : Prop where
  spares : ∀ o' ∈ o.onStore, Spares id o'
  log : ∀ s, (perform site p s o).1.log = s.log
  locks : o ≠ .schedule .unlockDispatch

theorem At.perform {o : Op} (hR : Respects R) (h : At site p schedule id R s)
    (ho : Leaves site p id o) : At site p schedule id R (perform site p s o).1 := by
  obtain ⟨row, hrow, hblocked, hrevision, hrest⟩ := h.row
  obtain ⟨row', hrow', hsame⟩ := row_perform site p hrow ho.spares
  refine ⟨?_, ⟨row', hrow', fun hb => hblocked (hsame.blocked hb), ?_, hR hsame hrest⟩, ?_⟩
  · rcases lock_perform site p s o with hsame | ⟨-, -, hlocked⟩ | ⟨hunlock, -⟩
    · rw [hsame, h.lock]
    · exact hlocked
    · exact absurd hunlock ho.locks
  · rw [hsame.schedule, hsame.revision]
    exact revisions_perform hrevision
  · intro session hmem
    rw [ho.log] at hmem
    exact (h.requested session hmem).perform ho.spares

theorem leaves_quiet {o : Op} (hstore : o.onStore = none)
    (hlog : ∀ s, (perform site p s o).1.log = s.log) : Leaves site p id o := by
  refine ⟨fun o' ho' => ?_, hlog, fun heq => ?_⟩
  · rw [hstore] at ho'
    cases ho'
  · rw [heq] at hstore
    cases hstore

theorem leaves_read {o : Schedules.Op} (ho : Spares id o) (hunlock : o ≠ .unlockDispatch) :
    Leaves site p id (.schedule o) := by
  refine ⟨fun o' ho' => ?_, fun s => rfl, fun heq => hunlock (Op.schedule.inj heq)⟩
  cases ho'
  exact ho

/-- How a part of a dispatch ends: with what it knows of the row, or with an
exception and no session. -/
def Ends (site : Site) (p : Nat) (schedule : Schedule) (id : String) (R : α → Occurrence → Prop) :
    Except PyError α → State → Prop
  | .error _, s => At site p schedule id (fun _ => True) s ∧ Unserved s id
  | .ok a, s => At site p schedule id (R a) s

theorem wp_andThen {R : α → Occurrence → Prop} {R' : β → Occurrence → Prop}
    {call : Prog (Except PyError α)} {next : α → Prog (Except PyError β)}
    (hcall : (dispatching site).Wp p call (Ends site p schedule id R) s)
    (hnext : ∀ a s, At site p schedule id (R a) s →
      (dispatching site).Wp p (next a) (Ends site p schedule id R') s) :
    (dispatching site).Wp p (andThen call next) (Ends site p schedule id R') s := by
  refine Discipline.Wp.bind (hcall.imp fun r s hr => ?_)
  cases r with
  | error exc => exact hr
  | ok a => exact hnext a s hr

theorem respects_true : Respects fun _ => True := fun _ _ => trivial

theorem respects_same (row : Occurrence) : Respects (SameRow row) := fun hsame h => h.trans hsame

theorem unserved_of_empty (h : s.createdFor id = []) : Unserved s id := by
  intro session hmem
  rw [← mem_createdFor, h] at hmem
  cases hmem

theorem wp_one {o : Op} {next : o.Reply → Prog α} {Q : α → State → Prop} (hR : Respects R)
    (h : At site p schedule id R s) (ho : Leaves site p id o)
    (hpromise : ∀ s, At site p schedule id R s → Promise site p s o)
    (hnext : ∀ s, At site p schedule id R s → Steady site p s o →
      At site p schedule id R (perform site p s o).1 →
      (dispatching site).Wp p (next (perform site p s o).2) Q (perform site p s o).1) :
    (dispatching site).Wp p (.call o next) Q s :=
  Discipline.Wp.call (stable_at hR) h fun s hs _ hok =>
    ⟨hpromise s hs, hnext s hs hok (hs.perform hR ho)⟩

theorem wp_git {repository : String} {call : GitCall} (hR : Respects R)
    (h : At site p schedule id R s) :
    (dispatching site).Wp p (git id repository call) (Ends site p schedule id fun _ => R) s := by
  refine wp_one hR h (leaves_quiet rfl fun _ => rfl) (fun _ _ => trivial) fun s hs hok hnext => ?_
  cases hreply : (perform site p s (.git id repository call)).2 with
  | ok r => exact hnext
  | error exc =>
      refine ⟨hnext.imp fun _ _ => trivial, unserved_of_empty ?_⟩
      by_contra hcreated
      obtain ⟨r, hr⟩ := hok hcreated
      rw [hreply] at hr
      cases hr

/-- The `UPDATE` of a row that is there goes through. -/
theorem updateRow_reply (env : Env) (p : Nat) {store : Store} {row : Occurrence} {now : Time}
    {changes : OccurrenceChanges} (hrow : store.occurrences.find? id = some row) :
    Schedules.perform env p store (.updateRow id now none changes)
      = (store.setRow (changes.written now row), .ok ()) := by
  simp only [Schedules.perform, Store.updateRow, hrow]
  rfl

theorem updateRow_granted (env : Env) (p : Nat) {store : Store} {row : Occurrence} {now : Time}
    {expected_states : Option (List OccurrenceState)} {changes : OccurrenceChanges}
    (hrow : store.occurrences.find? id = some row)
    (h : (Schedules.perform env p store (.updateRow id now expected_states changes)).2 = .ok ()) :
    Schedules.perform env p store (.updateRow id now expected_states changes)
      = (store.setRow (changes.written now row), .ok ()) := by
  simp only [Schedules.perform, Store.updateRow, hrow] at h ⊢
  split at h
  · rename_i hexpected
    rw [if_pos hexpected]
    rfl
  · cases h

theorem getOccurrence_reply {env : Env} {store : Store} {row : Occurrence}
    (hrow : store.occurrences.find? id = some row) :
    Schedules.perform env p store (.getOccurrence id) = (store, .ok row) := by
  simp only [Schedules.perform, Store.getOccurrence, hrow]

theorem wp_getOccurrence (hR : Respects R) (h : At site p schedule id R s) :
    (dispatching site).Wp p (Task.ask (Op.schedule (.getOccurrence id)))
      (Ends site p schedule id fun occurrence row => R row ∧ SameRow occurrence row) s := by
  refine wp_one hR h (leaves_read trivial fun heq => nomatch heq) (fun _ _ => trivial)
    fun s hs _ hnext => ?_
  obtain ⟨row, hrow, hblocked, hrevision, hrest⟩ := hs.row
  have hperform : perform site p s (.schedule (.getOccurrence id))
      = ({ s with ticks := s.ticks + 1 }, .ok row) := by
    simp only [perform, apply, getOccurrence_reply hrow]
  rw [hperform] at hnext ⊢
  exact ⟨hnext.lock, ⟨row, hrow, hblocked, hrevision, hrest, .refl row⟩, hnext.requested⟩

theorem wp_time {next : Time → Prog α} {Q : α → State → Prop} (hR : Respects R)
    (h : At site p schedule id R s)
    (hnext : ∀ now s, At site p schedule id R s → (dispatching site).Wp p (next now) Q s) :
    (dispatching site).Wp p (.call Op.time next) Q s :=
  wp_one hR h (leaves_quiet rfl fun _ => rfl) (fun _ _ => trivial) fun _ _ _ hs => hnext _ _ hs

theorem wp_prepared {base_commit : String} (hR : Respects R) (h : At site p schedule id R s) :
    (dispatching site).Wp p (prepared id none base_commit)
      (Ends site p schedule id fun occurrence row => R row ∧ SameRow occurrence row) s := by
  refine wp_time hR h fun now s hs => ?_
  have hspares : Spares id (.updateRow id now none (preparing none base_commit)) :=
    fun _ => ⟨rfl, fun heq => nomatch heq⟩
  refine wp_one hR hs (leaves_read hspares fun heq => nomatch heq)
    (fun _ _ => ⟨(fun heq => nomatch heq), fun hne => absurd rfl hne⟩) fun s hs _ hnext => ?_
  obtain ⟨row, hrow, -⟩ := hs.row
  have hreply : (perform site p s (.schedule (.updateRow id now none
      (preparing none base_commit)))).2 = .ok () :=
    congrArg Prod.snd (updateRow_reply site.env p hrow)
  rw [hreply]
  exact wp_getOccurrence hR hnext

theorem wp_withBase {repository : String} {isolated : Bool} {occurrence : Occurrence}
    (hid : occurrence.occurrence_id = id) (h : At site p schedule id (SameRow occurrence) s) :
    (dispatching site).Wp p (withBase repository isolated occurrence)
      (Ends site p schedule id fun occurrence' row =>
        SameRow occurrence row ∧ SameRow occurrence' row) s := by
  unfold withBase
  split
  · exact h.imp fun row hrow => ⟨hrow, hrow⟩
  · rw [hid]
    refine wp_andThen (R := fun _ => SameRow occurrence) ?_ fun _ s hs => ?_
    · split
      · exact wp_git (respects_same _) h
      · exact h
    · exact wp_andThen (wp_git (respects_same _) hs) fun _ s hs => wp_prepared (respects_same _) hs

theorem lookup_path (r : WorktreeRecord) (h : r.worktree_id ≠ "") :
    ∃ record, WorktreeRecord.fromMapping r.toMapping = .ok record ∧ record.path = r.path := by
  refine ⟨_, if_neg h, ?_⟩
  rfl

/-- Writing the worktree of an occurrence without a session. -/
theorem wp_preparedWorktree {record : WorktreeRecord} {base_commit : String} {sid : String}
    (hunserved : ∀ s, At site p schedule id (fun row => row.session_id = sid
      ∧ row.worktree = none) s → Unserved s id)
    (h : At site p schedule id (fun row => row.session_id = sid ∧ row.worktree = none) s) :
    (dispatching site).Wp p (prepared id (some record.toMapping) base_commit)
      (Ends site p schedule id fun _ row => row.session_id = sid
        ∧ row.worktree = some record.toMapping) s := by
  have hR : Respects fun row => row.session_id = sid ∧ row.worktree = none := fun hsame hrow =>
    ⟨hsame.session.trans hrow.1, hsame.worktree.trans hrow.2⟩
  have hR' : Respects fun row => row.session_id = sid ∧ row.worktree = some record.toMapping :=
    fun hsame hrow => ⟨hsame.session.trans hrow.1, hsame.worktree.trans hrow.2⟩
  refine wp_time hR h fun now s hs => ?_
  refine Discipline.Wp.call (stable_at hR) hs fun s hs _ _ => ?_
  refine ⟨⟨(fun heq => nomatch heq), fun _ => ⟨hs.lock, hunserved s hs⟩⟩, ?_⟩
  obtain ⟨row, hrow, hblocked, hrevision, hsession, -⟩ := hs.row
  have hrow_id : row.occurrence_id = id := Table.key_of_find? hrow
  have hown : perform site p s (.schedule (.updateRow id now none
      (preparing (some record.toMapping) base_commit)))
      = ({ s with
           ticks := s.ticks + 1
           store := s.store.setRow ((preparing (some record.toMapping) base_commit).written now row) },
        .ok ()) := by
    simp only [perform, apply, updateRow_reply site.env p hrow]
  have hwritten : At site p schedule id (fun row => row.session_id = sid
      ∧ row.worktree = some record.toMapping) (perform site p s (.schedule (.updateRow id now none
        (preparing (some record.toMapping) base_commit)))).1 := by
    rw [hown]
    refine ⟨hs.lock, ⟨_, (setRow_find? _ _ _).trans (if_pos hrow_id), (fun heq => nomatch heq),
      hrevision, hsession, rfl⟩, fun session hmem => absurd hmem (hunserved s hs session)⟩
  have hreply : ((system site).perform p s (.schedule (.updateRow id now none
      (preparing (some record.toMapping) base_commit)))).2 = .ok () := congrArg Prod.snd hown
  rw [hreply]
  refine (wp_getOccurrence hR' hwritten).imp fun result s hresult => ?_
  cases result with
  | error exc => exact hresult
  | ok occurrence => exact hresult.imp fun _ h => h.1

/-- Where a schedule isolates its runs, an occurrence without a worktree has no
session. -/
theorem unserved_worktree (hplan : casefold schedule.definition.permission_ceiling ≠ "plan")
    {s : State} (hrow : R = fun row => row.worktree = none) (h : At site p schedule id R s) :
    Unserved s id := by
  intro session hmem
  obtain ⟨row, hfound, -, hrevision, hnone⟩ := h.row
  rw [hrow] at hnone
  obtain ⟨row', schedule', directory, hrow', -, hrevision', -, hdirectory, -⟩ :=
    (h.requested session hmem).row
  rw [hfound, Option.some.injEq] at hrow'
  subst hrow'
  rw [hrevision, Option.some.injEq] at hrevision'
  subst hrevision'
  rw [Directory, if_pos hplan] at hdirectory
  obtain ⟨value, record, hvalue, -⟩ := hdirectory
  rw [hnone] at hvalue
  cases hvalue

theorem worktreeIdentity_ne (schedule : Schedule) (occurrence : Occurrence) :
    worktreeIdentity site schedule occurrence ≠ "" := by
  intro heq
  have hhex := site.uuid5_hex SCHEDULE_NAMESPACE (schedule.schedule_id ++ ":" ++ occurrence.occurrence_id)
  have hlist := congrArg String.toList heq
  rw [worktreeIdentity, strTake, String.toList_ofList] at hlist
  have hempty : (site.env.uuid5 SCHEDULE_NAMESPACE
      (schedule.schedule_id ++ ":" ++ occurrence.occurrence_id)).toList = [] := by
    simpa using hlist
  exact hhex (String.toList_eq_nil_iff.mp hempty)

theorem wp_withWorktree
    {repository : String} {occurrence : Occurrence} {sid : String}
    (hplan : casefold schedule.definition.permission_ceiling ≠ "plan")
    (hid : occurrence.occurrence_id = id)
    (h : At site p schedule id (fun row => row.session_id = sid ∧ SameRow occurrence row) s) :
    (dispatching site).Wp p (withWorktree site repository schedule occurrence)
      (Ends site p schedule id fun record row => row.session_id = sid
        ∧ Directory site schedule row record.path) s := by
  unfold withWorktree
  split
  · rename_i value hvalue
    obtain ⟨row, hfound, hblocked, hrevision, hsession, hsame⟩ := h.row
    have hworktree : row.worktree = some value := hsame.worktree.trans hvalue
    cases hrecord : WorktreeRecord.fromMapping value with
    | ok record =>
        refine ⟨h.lock, ⟨row, hfound, hblocked, hrevision, hsession, ?_⟩, h.requested⟩
        rw [Directory, if_pos hplan]
        exact ⟨value, record, hworktree, hrecord, rfl⟩
    | error exc =>
        refine ⟨h.imp fun _ _ => trivial, fun session hmem => ?_⟩
        obtain ⟨row', schedule', directory, hrow', -, hrevision', -, hdirectory, -⟩ :=
          (h.requested session hmem).row
        rw [hfound, Option.some.injEq] at hrow'
        subst hrow'
        rw [hrevision, Option.some.injEq] at hrevision'
        subst hrevision'
        rw [Directory, if_pos hplan] at hdirectory
        obtain ⟨value', record, hvalue', hrecord', -⟩ := hdirectory
        rw [hworktree, Option.some.injEq] at hvalue'
        rw [← hvalue', hrecord] at hrecord'
        cases hrecord'
  · rename_i hnone
    have hR : Respects fun row => row.session_id = sid ∧ row.worktree = none := fun hsame hrow =>
      ⟨hsame.session.trans hrow.1, hsame.worktree.trans hrow.2⟩
    have hstart : At site p schedule id (fun row => row.session_id = sid ∧ row.worktree = none) s :=
      h.imp fun row hrow => ⟨hrow.1, hrow.2.worktree.trans hnone⟩
    dsimp only
    rw [hid]
    refine wp_andThen (wp_git hR hstart) fun created s hs => ?_
    refine wp_andThen (wp_preparedWorktree (fun s hs => ?_) hs) fun _ s hs => ?_
    · exact unserved_worktree hplan rfl (hs.imp fun _ h => h.2)
    · refine hs.imp fun row hrow => ⟨hrow.1, ?_⟩
      rw [Directory, if_pos hplan]
      obtain ⟨record, hrecord, hpath⟩ := lookup_path
        { worktree_id := worktreeIdentity site schedule occurrence, path := created.1,
          branch := worktreeBranch schedule occurrence, other := created.2 }
        (worktreeIdentity_ne schedule occurrence)
      exact ⟨_, record, hrow.2, hrecord, hpath.symm⟩

theorem wp_workingDirectory {occurrence : Occurrence} (hid : occurrence.occurrence_id = id)
    (h : At site p schedule id (SameRow occurrence) s) :
    (dispatching site).Wp p (workingDirectory site schedule occurrence)
      (Ends site p schedule id fun directory row => row.session_id = occurrence.session_id
        ∧ Directory site schedule row directory) s := by
  unfold workingDirectory
  rw [hid]
  refine wp_andThen (wp_git (respects_same _) h) fun _ s hs => ?_
  split
  · rename_i hplan
    refine wp_andThen (wp_withBase hid hs) fun occurrence' s hs => ?_
    obtain ⟨row, hrow, -, -, hsame, hsame'⟩ := hs.row
    have hid' : occurrence'.occurrence_id = id :=
      hsame'.id.symm.trans (Table.key_of_find? hrow)
    exact wp_andThen (wp_withWorktree hplan hid'
      (hs.imp fun row hrow => ⟨hrow.1.session, hrow.2⟩)) fun record s hs => hs
  · rename_i hplan
    refine wp_andThen (wp_withBase hid hs) fun _ s hs => ?_
    refine hs.imp fun row hrow => ⟨hrow.1.session, ?_⟩
    rw [Directory, if_neg hplan]

/-! ### The submission -/

theorem length_le_utf8ByteSize (s : String) : s.length ≤ s.utf8ByteSize := by
  have h : ∀ l : List Char, (String.ofList l).length ≤ (String.ofList l).utf8ByteSize := by
    intro l
    induction l using List.reverseRecOn with
    | nil => simp
    | append_singleton l c ih =>
        have hc : 1 ≤ c.utf8Size := Char.utf8Size_pos c
        have hpush : String.ofList (l ++ [c]) = (String.ofList l).push c := by
          rw [← String.toList_inj]
          simp
        rw [hpush, String.length_push, String.utf8ByteSize_push]
        omega
  simpa using h s.toList

theorem checkText_ok {value field : String} {limit : Nat} {u : Unit}
    (h : checkText value field true limit = .ok u) :
    strip value.toList ≠ [] ∧ value.length ≤ limit := by
  unfold checkText at h
  split at h
  · cases h
  · rename_i hblank
    split at h
    · cases h
    · rename_i hlong
      refine ⟨fun heq => hblank ⟨rfl, heq⟩, ?_⟩
      have hlength := length_le_utf8ByteSize value
      omega

/-- What a definition promises of the fields of its requests. -/
theorem definition_bounds (d : Definition) :
    d.profile_name ≠ "" ∧ d.profile_name.length ≤ 128 ∧ d.permission_ceiling.length ≤ 128 := by
  have h := d.valid
  unfold Fields.postInit at h
  obtain ⟨_, -, h⟩ := bind_ok h
  obtain ⟨_, -, h⟩ := bind_ok h
  obtain ⟨_, hprofile, h⟩ := bind_ok h
  obtain ⟨_, hceiling, -⟩ := bind_ok h
  refine ⟨fun heq => ?_, (checkText_ok hprofile).2, (checkText_ok hceiling).2⟩
  rw [heq] at hprofile
  exact (checkText_ok hprofile).1 rfl

/-- **The session of an occurrence is recognised**: what `submit` creates for
it is what a later dispatch looks for. -/
theorem submission_serves (schedule : Schedule) (directory : String) :
    ((submission site schedule id directory).session site).serves schedule
      (site.resolve directory) := by
  obtain ⟨hne, hprofile, hceiling⟩ := definition_bounds schedule.definition
  refine ⟨rfl, rfl, rfl, ?_, ?_⟩
  · change (some schedule.definition.permission_ceiling).map (strTake 128) = _
    rw [Option.map_some, strTake_eq_self.mpr hceiling]
  · change strTake 128 (Submission.profile _) = _
    have heq : (submission site schedule id directory).profile = schedule.definition.profile_name :=
      if_pos hne
    rw [heq, strTake_eq_self.mpr hprofile]

theorem wp_started {accepted : Acceptance} (h : At site p schedule id R s) (hR : Respects R) :
    (dispatching site).Wp p (started site id accepted) (Ends site p schedule id fun _ => R) s := by
  have hlaunch : ∀ session, Leaves site p id (.launch session) := fun session =>
    leaves_quiet rfl fun s => (launch_store _ _).2
  cases accepted with
  | existing session => exact h
  | new session =>
      rw [started]
      split
      · refine wp_one hR h (hlaunch session) (fun _ _ => trivial) fun s hs _ hnext => ?_
        refine wp_one hR hnext (leaves_quiet rfl fun _ => rfl) (fun _ _ => trivial)
          fun s hs hok hnext => ?_
        cases hreply : (perform site p s (.reread id session.session_id)).2 with
        | ok r => exact hnext
        | error exc =>
            refine ⟨hnext.imp fun _ _ => trivial, unserved_of_empty ?_⟩
            by_contra hcreated
            obtain ⟨r, hr⟩ := hok hcreated
            rw [hreply] at hr
            cases hr
      · rename_i hqueue
        refine wp_one hR h (hlaunch session) (fun _ _ => trivial) fun s hs hok hnext => ?_
        obtain ⟨r, hr⟩ := hok (by simpa using hqueue)
        rw [hr]
        exact hnext

/-- The knowledge of the row in which a session is looked for. -/
abbrev Located (site : Site) (schedule : Schedule) (id directory : String) (row : Occurrence) : Prop :=
  (row.session_id ≠ "" → row.session_id = occurrenceSessionId site.env id)
    ∧ Directory site schedule row directory

theorem respects_located {directory : String} : Respects (Located site schedule id directory) :=
  fun hsame h => ⟨fun hne => hsame.session.trans (h.1 (hsame.session ▸ hne)), h.2.same hsame⟩

theorem wp_submit {directory : String}
    (h : At site p schedule id (Located site schedule id directory) s) (hunserved : Unserved s id) :
    (dispatching site).Wp p (submit site (submission site schedule id directory))
      (Ends site p schedule id fun _ _ => True) s := by
  have hstable : (dispatching site).Stable p fun s =>
      At site p schedule id (Located site schedule id directory) s ∧ Unserved s id := by
    intro s t hr hs
    refine ⟨stable_at respects_located hr hs.1, fun session hmem => ?_⟩
    rw [hr.log hs.1.lock] at hmem
    exact hs.2 session hmem
  refine wp_andThen (R := fun _ _ => True) ?_ fun accepted s hs => wp_started hs respects_true
  refine Discipline.Wp.call hstable ⟨h, hunserved⟩ fun s hs _ _ => ?_
  obtain ⟨row, hrow, hblocked, hrevision, hsession, hdirectory⟩ := hs.1.row
  have hrequested : Requested site s id ((submission site schedule id directory).session site) :=
    ⟨row, schedule, directory, hrow, hblocked, hrevision, hsession, hdirectory,
      submission_serves schedule directory⟩
  refine ⟨⟨hs.1.lock, hs.2, hrequested⟩, ?_⟩
  have hstore : (perform site p s (.accept (submission site schedule id directory))).1.store
      = s.store := perform_store _ _ _ _
  have hrequested' : Requested site
      (perform site p s (.accept (submission site schedule id directory))).1 id
      ((submission site schedule id directory).session site) :=
    hrequested.perform fun o' ho' => nomatch ho'
  have hlog := perform_log site p s (.accept (submission site schedule id directory))
  have hat : At site p schedule id (fun _ => True)
      (perform site p s (.accept (submission site schedule id directory))).1 := by
    refine ⟨by rw [hstore]; exact hs.1.lock, ⟨row, by rw [hstore]; exact hrow, hblocked,
      by rw [hstore]; exact hrevision, trivial⟩, fun session hmem => ?_⟩
    generalize (perform site p s (.accept (submission site schedule id directory))).1.log = log
      at hlog hmem
    cases hlog with
    | same => exact absurd hmem (hs.2 session)
    | submitted =>
        exact absurd ((List.mem_cons.mp hmem).resolve_left fun heq => nomatch heq) (hs.2 session)
    | created hnew =>
        rcases List.mem_cons.mp hmem with heq | hmem
        · cases heq
          exact hrequested'
        · exact absurd ((List.mem_cons.mp hmem).resolve_left fun heq => nomatch heq) (hs.2 session)
  change Ends site p schedule id (fun _ _ => True)
    (perform site p s (.accept (submission site schedule id directory))).2
    (perform site p s (.accept (submission site schedule id directory))).1
  cases hreply : (perform site p s (.accept (submission site schedule id directory))).2 with
  | ok accepted => exact hat
  | error exc =>
      refine ⟨hat, fun session hmem => ?_⟩
      rw [accept_error hreply] at hmem
      exact hs.2 session ((List.mem_cons.mp hmem).resolve_left fun heq => nomatch heq)

theorem serves_same {found session : Session} {directory : String} (hsame : found.same session)
    (h : session.serves schedule directory) : found.serves schedule directory :=
  ⟨hsame.1.trans h.1, hsame.2.1.trans h.2.1, hsame.2.2.1.trans h.2.2.1,
    hsame.2.2.2.1.trans h.2.2.2.1, hsame.2.2.2.2.trans h.2.2.2.2⟩

/-- The session of the occurrence is the one that its revision asks for. -/
theorem At.session {directory : String} {session : Session} (h : At site p schedule id R s)
    (hdirectory : ∀ row, R row → Directory site schedule row directory)
    (hmem : .created id session ∈ s.log) :
    ∃ row, R row ∧ (row.session_id ≠ "" → row.session_id = occurrenceSessionId site.env id)
      ∧ session.serves schedule (site.resolve directory) := by
  obtain ⟨row, hrow, -, hrevision, hrest⟩ := h.row
  obtain ⟨row', schedule', directory', hrow', -, hrevision', hsession, hdirectory', hserves⟩ :=
    (h.requested session hmem).row
  rw [hrow, Option.some.injEq] at hrow'
  subst hrow'
  rw [hrevision, Option.some.injEq] at hrevision'
  subst hrevision'
  exact ⟨row, hrest, hsession, (hdirectory row hrest).unique hdirectory' ▸ hserves⟩

/-- **A dispatch raises nothing for an occurrence that has its session**, and
submits only one that has none. -/
theorem wp_dispatch {occurrence : Occurrence} (hid : occurrence.occurrence_id = id)
    (h : At site p schedule id (SameRow occurrence) s) :
    (dispatching site).Wp p (dispatch site schedule occurrence)
      (Ends site p schedule id fun _ _ => True) s := by
  unfold dispatch
  refine wp_andThen (wp_workingDirectory hid h) fun directory s hs => ?_
  rw [hid]
  dsimp only
  split
  · rename_i hforeign
    refine ⟨hs.imp fun _ _ => trivial, fun session hmem => ?_⟩
    obtain ⟨row, hrow, hsession, -⟩ := hs.session (fun row hrow => hrow.2) hmem
    rw [hrow.1] at hsession
    exact hforeign.2 (hsession hforeign.1)
  · rename_i hown
    have hlocated : At site p schedule id (Located site schedule id directory) s := by
      refine hs.imp fun row hrow => ⟨fun hne => ?_, hrow.2⟩
      by_contra hother
      rw [hrow.1] at hne hother
      exact hown ⟨hne, hother⟩
    refine wp_one respects_located hlocated (leaves_quiet rfl fun _ => rfl) (fun _ _ => trivial)
      fun s hs hok hnext => ?_
    have hfound : ∀ session, .created id session ∈ s.log →
        ∃ found, (perform site p s (.lookup id (occurrenceSessionId site.env id))).2 = some found
          ∧ found.serves schedule (site.resolve directory) := by
      intro session hmem
      obtain ⟨found, hfound, hsame⟩ := hok session (mem_createdFor.mpr hmem)
      obtain ⟨row, -, -, hserves⟩ := hs.session (fun row hrow => hrow.2) hmem
      exact ⟨found, hfound, serves_same hsame hserves⟩
    cases hreply : (perform site p s (.lookup id (occurrenceSessionId site.env id))).2 with
    | none =>
        refine wp_andThen (wp_submit hnext fun session hmem => ?_) fun _ s hs => hs
        obtain ⟨found, heq, -⟩ := hfound session hmem
        rw [hreply] at heq
        cases heq
    | some existing =>
        change (dispatching site).Wp p (if existing.serves _ _ then _ else _) _ _
        split
        · exact hnext.imp fun _ _ => trivial
        · rename_i hother
          refine ⟨hnext.imp fun _ _ => trivial, fun session hmem => ?_⟩
          obtain ⟨found, heq, hserves⟩ := hfound session hmem
          rw [hreply, Option.some.injEq] at heq
          exact hother (heq ▸ hserves)

theorem wp_reportFailure {now : Time} {changes : OccurrenceChanges}
    (hlock : s.store.dispatch_lock = some p) (hunserved : Unserved s id)
    (hworktree : changes.worktree = none) :
    (dispatching site).Wp p (reportFailure id now changes)
      (fun _ s => s.store.dispatch_lock = some p) s := by
  have hstable : (dispatching site).Stable p fun s =>
      s.store.dispatch_lock = some p ∧ Unserved s id := by
    intro s t hr hs
    refine ⟨hr.lock hs.1, fun session hmem => ?_⟩
    rw [hr.log hs.1] at hmem
    exact hs.2 session hmem
  refine Discipline.Wp.call hstable ⟨hlock, hunserved⟩ fun s hs _ _ => ?_
  refine ⟨⟨hs.1, hs.2, hworktree⟩, ?_⟩
  have hkept : (perform site p s (.fail id now changes)).1.store.dispatch_lock = some p := by
    rcases lock_perform site p s (.fail id now changes) with hsame | ⟨heq, -⟩ | ⟨heq, -⟩
    · rw [hsame, hs.1]
    · cases heq
    · cases heq
  generalize ((system site).perform p s (.fail id now changes)).2 = r
  cases r with
  | error exc => exact hkept
  | ok u =>
      have hstable : (dispatching site).Stable p fun s => s.store.dispatch_lock = some p :=
        fun hr h => hr.lock h
      exact Discipline.Wp.call hstable hkept fun s hs _ _ => ⟨trivial, hs⟩

theorem wp_write {now : Time} {changes : OccurrenceChanges} {α : Type}
    {next : Except PyError Unit → Prog α} {Q : α → State → Prop}
    (hworktree : changes.worktree = none) (hblocked : changes.state ≠ some .blocked)
    (hR : Respects R) (h : At site p schedule id R s)
    (hnext : ∀ r s, At site p schedule id R s → (dispatching site).Wp p (next r) Q s) :
    (dispatching site).Wp p (.call (.schedule (.updateRow id now none changes)) next) Q s :=
  wp_one hR h (leaves_read (fun _ => ⟨hworktree, hblocked⟩) fun heq => nomatch heq)
    (fun _ _ => ⟨hblocked, fun hne => absurd hworktree hne⟩) fun _ _ _ hs => hnext _ _ hs

theorem wp_writeOccurrence {now : Time} {changes : OccurrenceChanges}
    (hworktree : changes.worktree = none) (hblocked : changes.state ≠ some .blocked)
    (hR : Respects R) (h : At site p schedule id R s) :
    (dispatching site).Wp p (lift (writeOccurrence id now changes))
      (fun _ => At site p schedule id R) s := by
  refine wp_write hworktree hblocked hR h fun r s hs => ?_
  cases r with
  | error exc => exact hs
  | ok u =>
      exact wp_one hR hs (leaves_read trivial fun heq => nomatch heq) (fun _ _ => trivial)
        fun s _ _ hs => hs

theorem dispatched_worktree (schedule : Schedule) (claimed : Occurrence) (now : Time)
    (result : DispatchResult) : (dispatched schedule claimed now result).worktree = none := by
  cases result <;> rfl

theorem dispatched_receipt (schedule : Schedule) (claimed : Occurrence) (now : Time)
    (status : Option String) :
    (dispatched schedule claimed now (.receipt status)).state ≠ some .blocked := by
  unfold dispatched
  dsimp only
  split <;> exact fun heq => nomatch heq

theorem wp_claimedDispatch {claimed : Occurrence} (hid : claimed.occurrence_id = id)
    (h : At site p schedule id (SameRow claimed) s) :
    (dispatching site).Wp p (claimedDispatch site schedule claimed)
      (fun _ s => s.store.dispatch_lock = some p) s := by
  refine Discipline.Wp.bind ((wp_dispatch hid h).imp fun result s hs => ?_)
  rw [hid]
  cases result with
  | error exc =>
      have hstable : (dispatching site).Stable p fun s =>
          At site p schedule id (fun _ => True) s ∧ Unserved s id := by
        intro s t hr hs
        refine ⟨stable_at respects_true hr hs.1, fun session hmem => ?_⟩
        rw [hr.log hs.1.lock] at hmem
        exact hs.2 session hmem
      refine Discipline.Wp.call hstable hs fun s hs _ _ => ⟨trivial, ?_⟩
      exact wp_reportFailure hs.1.lock hs.2 (dispatched_worktree _ _ _ _)
  | ok status =>
      refine wp_time respects_true hs fun now s hs => wp_time respects_true hs fun accepted_at s hs => ?_
      exact (wp_writeOccurrence (dispatched_worktree _ _ _ _) (dispatched_receipt _ _ _ _)
        respects_true hs).imp fun _ s hs => hs.lock

end Dispatch

/-! ## 7. The loop over the pending occurrences -/

/-- The rows of a list are in the table, under the revisions that were read. -/
def Listed (rows : List Occurrence) (s : State) : Prop :=
  ∀ occurrence ∈ rows, ∃ row, s.store.occurrences.find? occurrence.occurrence_id = some row
    ∧ SameRevision occurrence row

theorem listed_stable {rows : List Occurrence} : (dispatching site).Stable p (Listed rows) := by
  intro s t hr h occurrence hmem
  obtain ⟨row, hrow, hid, hrevision⟩ := h occurrence hmem
  obtain ⟨row', hrow', hid', hrevision'⟩ := hr.kept _ row hrow
  exact ⟨row', hrow', hid'.trans hid, hrevision'.trans hrevision⟩

theorem listed_perform {rows : List Occurrence} {o : Op} (h : Listed rows s) :
    Listed rows (perform site p s o).1 := by
  intro occurrence hmem
  obtain ⟨row, hrow, hid, hrevision⟩ := h occurrence hmem
  obtain ⟨row', hrow', hid', hrevision'⟩ := kept_perform site p o hrow
  exact ⟨row', hrow', hid'.trans hid, hrevision'.trans hrevision⟩

/-- The lock is held, and the occurrence is under the revision. -/
structure Under (p : Nat) (schedule : Schedule) (occurrence : Occurrence) (s : State) : Prop where
  lock : s.store.dispatch_lock = some p
  row : ∃ row, s.store.occurrences.find? occurrence.occurrence_id = some row
    ∧ SameRevision occurrence row
  revision : s.store.revisions.find? (occurrence.schedule_id, occurrence.schedule_revision)
    = some schedule

theorem under_stable {schedule : Schedule} {occurrence : Occurrence} :
    (dispatching site).Stable p (Under p schedule occurrence) := by
  intro s t hr h
  obtain ⟨row, hrow, hid, hrevision⟩ := h.row
  obtain ⟨row', hrow', hid', hrevision'⟩ := hr.kept _ row hrow
  exact ⟨hr.lock h.lock, ⟨row', hrow', hid'.trans hid, hrevision'.trans hrevision⟩,
    hr.revisions _ _ h.revision⟩

theorem lock_stable : (dispatching site).Stable p fun s => s.store.dispatch_lock = some p :=
  fun hr h => hr.lock h

/-! ### Programs that dispatch nothing -/

/-- What a manager, a user, the reconciliation and the claim of a tick call. -/
def Managing : Op → Prop
  | .schedule (.claimDue _) => True
  | .schedule o => Ordinary o
  | _ => False

theorem managing_ordinary (o : Schedules.Op) (h : Ordinary o) : Managing (.schedule o) := by
  cases o with
  | claimDue claim => trivial
  | _ => exact h

theorem promise_managing (s : State) (o : Op) (h : Managing o) : Promise site p s o := by
  cases o with
  | schedule o =>
      cases o with
      | updateRow id now expected changes => exact ⟨h.2, fun hne => absurd h.1 hne⟩
      | unlockDispatch => exact h.elim
      | _ => trivial
  | _ => exact h.elim

theorem lock_managing (s : State) (o : Op) (h : Managing o) :
    (perform site p s o).1.store.dispatch_lock = s.store.dispatch_lock := by
  rcases lock_perform site p s o with hsame | ⟨rfl, -⟩ | ⟨rfl, -⟩
  · exact hsame
  · exact h.elim
  · exact h.elim

theorem wp_managing (lock : Option Nat → Prop) {prog : Prog α}
    (hstable : (dispatching site).Stable p fun s => lock s.store.dispatch_lock)
    (hcalls : prog.Calls Managing) (h : lock s.store.dispatch_lock) :
    (dispatching site).Wp p prog (fun _ s => lock s.store.dispatch_lock) s :=
  Discipline.Wp.of_calls hstable (fun s o ho hs => by
    change lock (perform site p s o).1.store.dispatch_lock
    rw [lock_managing s o ho]
    exact hs) (fun s o ho => promise_managing s o ho) hcalls h

theorem managing_lift {prog : Schedules.Prog α} (h : prog.Calls Ordinary) :
    (lift prog).Calls Managing := calls_lift managing_ordinary h

theorem managing_claimDue {env : Env} {now : Time} : (lift (claimDue env now)).Calls Managing := by
  refine ⟨trivial, fun due => calls_lift (Q := fun o => Ordinary o ∨ ∃ claim, o = .claimDue claim)
    (fun o ho => ?_) (.each fun schedule _ => ?_)⟩
  · rcases ho with ho | ⟨claim, rfl⟩
    · exact managing_ordinary o ho
    · trivial
  · unfold claimOne
    split
    · trivial
    · split
      · trivial
      · refine ⟨.inl trivial, fun inflight => ⟨.inr ⟨_, rfl⟩, fun r => ?_⟩⟩
        cases r with
        | error exc => exact (calls_afterClaim _ (.error exc)).imp fun o ho => .inl ho
        | ok row => exact (calls_afterClaim "" (.ok row)).imp fun o ho => .inl ho

theorem managing_job {env : Env} {job : Schedules.Job} (h : Manages job) :
    (lift (job.prog env)).Calls Managing := by
  refine managing_lift ?_
  cases job with
  | tick now dispatch lookup => exact h.elim
  | create schedule_id fields creator now => exact calls_create.forget
  | pause schedule_id now => exact (calls_revised _).forget
  | resume schedule_id confirm now => exact (calls_revised _).forget
  | delete schedule_id clock => exact (calls_revised _).forget
  | update schedule_id changes clock => exact (calls_revised _).forget
  | runNow schedule_id occurrence_id actor now => exact calls_runNow.forget
  | retry schedule_id occurrence_id occurrence_id_new actor now => exact calls_retry.forget

/-! ### The rows of a pass -/

/-- The claim of a pending occurrence. -/
abbrev claiming (occurrence : Occurrence) (now : Time) : Schedules.Op :=
  .updateRow occurrence.occurrence_id now (some PENDING_STATES)
    { state := some .preparing, error := some "" }

theorem claimed_at {schedule : Schedule} {occurrence : Occurrence} {now : Time}
    (h : Under p schedule occurrence s) (hinv : Sound site s)
    (hreply : (perform site p s (.schedule (claiming occurrence now))).2 = .ok ()) :
    At site p schedule occurrence.occurrence_id (fun _ => True)
      (perform site p s (.schedule (claiming occurrence now))).1 := by
  obtain ⟨row, hrow, hid, hrevision⟩ := h.row
  have hrow_id : row.occurrence_id = occurrence.occurrence_id := Table.key_of_find? hrow
  have hrequested : ∀ session, .created occurrence.occurrence_id session ∈ s.log →
      Requested site (perform site p s (.schedule (claiming occurrence now))).1
        occurrence.occurrence_id session := by
    intro session hmem
    refine (hinv.requested _ session hmem).perform fun o' ho' => ?_
    cases ho'
    exact fun _ => ⟨rfl, fun heq => nomatch heq⟩
  have hstore : (perform site p s (.schedule (claiming occurrence now))).1.store
      = s.store.setRow (OccurrenceChanges.written { state := some .preparing, error := some "" } now row) :=
    congrArg Prod.fst (updateRow_granted site.env p hrow hreply)
  have hblocked : (OccurrenceChanges.written { state := some .preparing, error := some "" } now
      row).state ≠ .blocked := fun heq => nomatch heq
  refine ⟨?_, ⟨_, ?_, hblocked, ?_, trivial⟩, hrequested⟩
  · rw [hstore]
    exact h.lock
  · rw [hstore]
    exact (setRow_find? _ _ _).trans (if_pos hrow_id)
  · rw [hstore]
    change s.store.revisions.find? (row.schedule_id, row.schedule_revision) = _
    rw [hid, hrevision]
    exact h.revision

/-- The claim of an occurrence, and its dispatch unless somebody else was
there before. -/
theorem wp_claimed {schedule : Schedule} {occurrence : Occurrence} {now : Time}
    (h : Under p schedule occurrence s) :
    (dispatching site).Wp p (do
      match ← lift (updateOccurrence occurrence.occurrence_id now (some PENDING_STATES)
          { state := some .preparing, error := some "" }) with
      | .error exc => pure (if exc.className = "ScheduleConflict" then .ok () else .error exc)
      | .ok claimed => claimedDispatch site schedule claimed)
      (fun _ s => s.store.dispatch_lock = some p) s := by
  refine Discipline.Wp.call under_stable h fun s hs hinv _ => ?_
  refine ⟨⟨(fun heq => nomatch heq), fun hne => absurd rfl hne⟩, ?_⟩
  have hmanaging : Managing (.schedule (claiming occurrence now)) :=
    managing_ordinary _ ⟨rfl, (fun heq => nomatch heq)⟩
  cases hgranted : (perform site p s (.schedule (claiming occurrence now))).2 with
  | error exc =>
      have hreply : ((system site).perform p s (.schedule (.updateRow occurrence.occurrence_id now
          (some PENDING_STATES) { state := some .preparing, error := some "" }))).2 = .error exc :=
        hgranted
      rw [hreply]
      exact (lock_managing s _ hmanaging).trans hs.lock
  | ok u =>
      have hreply : ((system site).perform p s (.schedule (.updateRow occurrence.occurrence_id now
          (some PENDING_STATES) { state := some .preparing, error := some "" }))).2 = .ok u :=
        hgranted
      rw [hreply]
      have hat := claimed_at hs hinv hgranted
      refine Discipline.Wp.bind ((wp_getOccurrence respects_true hat).imp fun r s hs => ?_)
      cases r with
      | error exc => exact hs.1.lock
      | ok claimed =>
          have hsame := hs.imp fun row h => h.2
          obtain ⟨row, hrow, -, -, hid⟩ := hsame.row
          have hid : claimed.occurrence_id = occurrence.occurrence_id :=
            hid.id.symm.trans (Table.key_of_find? hrow)
          exact wp_claimedDispatch hid hsame

theorem wp_dispatchOne {rows : List Occurrence} {occurrence : Occurrence} {now : Time}
    (hlisted : occurrence ∈ rows) (hlock : s.store.dispatch_lock = some p) (h : Listed rows s) :
    (dispatching site).Wp p (dispatchOne site now occurrence)
      (fun _ s => s.store.dispatch_lock = some p) s := by
  have hstable : (dispatching site).Stable p fun s =>
      s.store.dispatch_lock = some p ∧ Listed rows s := lock_stable.and listed_stable
  refine Discipline.Wp.call hstable ⟨hlock, h⟩ fun s hs hinv _ => ⟨trivial, ?_⟩
  obtain ⟨hlock, hs⟩ := hs
  have hreply : ((system site).perform p s (.schedule (.getRevision occurrence.schedule_id
      occurrence.schedule_revision))).2 = s.store.getRevision occurrence.schedule_id
        occurrence.schedule_revision := rfl
  rw [hreply]
  unfold Store.getRevision
  cases hfound : s.store.revisions.find? (occurrence.schedule_id, occurrence.schedule_revision) with
  | none =>
      -- An occurrence with a session has its revision.
      refine wp_reportFailure hlock (fun session hmem => ?_) rfl
      obtain ⟨row, hrow, hid, hrevision⟩ := hs occurrence hlisted
      obtain ⟨row', schedule, -, hrow', -, hschedule, -⟩ := (hinv.requested _ session hmem).row
      rw [hrow, Option.some.injEq] at hrow'
      subst hrow'
      rw [hid, hrevision, hfound] at hschedule
      cases hschedule
  | some schedule =>
      have hunder : Under p schedule occurrence (perform site p s (.schedule (.getRevision
          occurrence.schedule_id occurrence.schedule_revision))).1 :=
        ⟨hlock, hs occurrence hlisted, hfound⟩
      refine Discipline.Wp.call under_stable hunder fun s hs _ _ => ?_
      refine ⟨trivial, ?_⟩
      simp only [Tasks.Task.bind]
      generalize verdict schedule occurrence.state _ = outcome
      cases outcome with
      | wait => exact hs.lock
      | skip =>
          have hcalls : (writeOccurrence occurrence.occurrence_id now {
              state := some .skipped
              outcome := some [("reason", .json (.str "another_occurrence_is_in_flight"))]
              error := some "" }).Calls Ordinary :=
            calls_writeOccurrence ⟨rfl, (fun heq => by cases heq)⟩ trivial
          exact wp_managing (· = some p) lock_stable (managing_lift hcalls) hs.lock
      | dispatch => exact wp_claimed ⟨hs.lock, hs.row, hs.revision⟩

theorem listed_window {states : Option (List OccurrenceState)} {limit : Nat}
    {rows : List Occurrence} (h : s.store.listOccurrences states limit = .ok rows) : Listed rows s := by
  unfold Store.listOccurrences at h
  split at h
  · cases h
    intro row hrow
    exact ⟨row, Table.find?_key (List.mem_filter.mp (mem_of_mem_window hrow)).1, rfl, rfl⟩
  · cases h

theorem wp_dispatchPendingExclusive {now : Time} (h : s.store.dispatch_lock = some p) :
    (dispatching site).Wp p (dispatchPendingExclusive site now)
      (fun _ s => s.store.dispatch_lock = some p) s := by
  refine Discipline.Wp.call lock_stable h fun s hs _ _ => ⟨trivial, ?_⟩
  have hreply : ((system site).perform p s (.schedule (.listOccurrences (some PENDING_STATES) 1000))).2
      = s.store.listOccurrences (some PENDING_STATES) 1000 := rfl
  rw [hreply]
  cases hlist : s.store.listOccurrences (some PENDING_STATES) 1000 with
  | error exc => exact hs
  | ok rows =>
      have hlisted : Listed rows s := listed_window hlist
      have hloop : (dispatching site).Wp p (Task.each (dispatchOne site now) rows)
          (fun _ s => s.store.dispatch_lock = some p ∧ Listed rows s) { s with ticks := s.ticks + 1 } := by
        refine Discipline.Wp.each (fun row hrow s hs => ?_) ⟨hs, hlisted⟩
        exact Discipline.Wp.keep listed_stable (fun _ _ _ h => listed_perform h)
          (wp_dispatchOne hrow hs.1 hs.2) hs.2
      exact hloop.imp fun _ _ hs => hs.1

/-- The lock is not held by `p`. -/
def Free (p : Nat) (lock : Option Nat) : Prop := lock ≠ some p

theorem free_stable : (dispatching site).Stable p fun s => Free p s.store.dispatch_lock :=
  fun hr h => hr.idle h

theorem wp_dispatchPending {now : Time} (h : s.store.dispatch_lock ≠ some p) :
    (dispatching site).Wp p (dispatchPending site now)
      (fun _ s => s.store.dispatch_lock ≠ some p) s := by
  refine Discipline.Wp.call free_stable h fun s hs _ _ => ⟨trivial, ?_⟩
  cases hfree : s.store.dispatch_lock with
  | some q =>
      have hrefused : (system site).perform p s (.schedule .lockDispatch)
          = ({ s with ticks := s.ticks + 1 }, false) := by
        change perform site p s (.schedule .lockDispatch) = _
        simp only [perform, apply, Schedules.perform, hfree]
      rw [hrefused]
      exact hs
  | none =>
      have hlocked : (system site).perform p s (.schedule .lockDispatch)
          = ({ s with ticks := s.ticks + 1, store := { s.store with dispatch_lock := some p } }, true) := by
        change perform site p s (.schedule .lockDispatch) = _
        simp only [perform, apply, Schedules.perform, hfree]
      rw [hlocked]
      have hpass : (dispatching site).Wp p (do
          let result ← dispatchPendingExclusive site now
          Task.ask (Op.schedule .unlockDispatch)
          pure result) (fun _ s => s.store.dispatch_lock ≠ some p)
          { s with ticks := s.ticks + 1, store := { s.store with dispatch_lock := some p } } := by
        refine Discipline.Wp.bind ((wp_dispatchPendingExclusive rfl).imp fun result s hs => ?_)
        exact Discipline.Wp.call lock_stable hs fun s hs _ _ => ⟨hs, fun hp => by cases hp⟩
      exact hpass

theorem wp_tick {now : Time} {lookup : Option Lookup} (h : s.store.dispatch_lock ≠ some p) :
    (dispatching site).Wp p (tick site now lookup) (fun _ s => s.store.dispatch_lock ≠ some p) s := by
  refine Discipline.Wp.bind ((wp_managing (Free p) free_stable (managing_lift calls_reconcileBackground) h).imp
    fun r s hs => ?_)
  cases r with
  | error exc => exact hs
  | ok u =>
      refine Discipline.Wp.bind ((wp_managing (Free p) free_stable managing_claimDue hs).imp fun r s hs => ?_)
      cases r with
      | error exc => exact hs
      | ok u => exact wp_dispatchPending hs

theorem wp_job (job : Job) (p : Nat) (s : State) (h : s.store.dispatch_lock ≠ some p) :
    (dispatching site).Wp p ((system site).job job) (fun _ s => s.store.dispatch_lock ≠ some p) s := by
  cases job with
  | tick now lookup => exact (wp_tick h).forget
  | manage job hmanages => exact wp_managing (Free p) free_stable (managing_job hmanages) h
  | write session_id change =>
      refine Discipline.Wp.call free_stable h fun s hs _ _ => ⟨trivial, ?_⟩
      change (perform site p s (.write session_id change)).1.store.dispatch_lock ≠ some p
      rw [perform_store]
      exact hs
  | createOther session =>
      refine Discipline.Wp.call free_stable h fun s hs _ _ => ⟨trivial, ?_⟩
      change (perform site p s (.createOther session)).1.store.dispatch_lock ≠ some p
      rw [perform_store]
      exact hs

/-! ## 8. Runs -/

/-- In every step of the run, an occurrence that has its session is dispatched
without an exception on the way to it. -/
def SteadyRun (site : Site) (actions : List (Tasks.Action Job)) : Prop :=
  Runs.RunOk (system site).step (dispatching site).StepOk { state := {} } actions

instance decidableReturned {ε γ : Type} (r : Except ε γ) : Decidable (∃ a, r = .ok a) :=
  match r with
  | .error _ => isFalse (by rintro ⟨a, h⟩; cases h)
  | .ok a => isTrue ⟨a, rfl⟩

instance (r : Option Session) (P : Session → Prop) [DecidablePred P] :
    Decidable (∃ found, r = some found ∧ P found) :=
  match r with
  | none => isFalse fun ⟨_, h, _⟩ => nomatch h
  | some found => decidable_of_iff (P found)
      ⟨fun h => ⟨found, rfl, h⟩, fun ⟨_, heq, h⟩ => Option.some.inj heq ▸ h⟩

instance (site : Site) (p : Nat) (s : State) : DecidablePred (Steady site p s) := fun o =>
  match o with
  | .git id repository call => inferInstanceAs (Decidable (s.createdFor id ≠ [] →
      ∃ r, (perform site p s (.git id repository call)).2 = .ok r))
  | .lookup id session_id => inferInstanceAs (Decidable (∀ session ∈ s.createdFor id,
      ∃ found, (perform site p s (.lookup id session_id)).2 = some found ∧ found.same session))
  | .launch session => inferInstanceAs (Decidable (site.queue_enabled = false →
      ∃ r, (perform site p s (.launch session)).2 = .ok r))
  | .reread id session_id => inferInstanceAs (Decidable (s.createdFor id ≠ [] →
      ∃ r, (perform site p s (.reread id session_id)).2 = .ok r))
  | .schedule _ | .time | .accept _ | .fail _ _ _ | .write _ _ | .createOther _ => isTrue trivial

instance (site : Site) : DecidablePred (SteadyRun site) := fun actions =>
  have : ∀ p s o, Decidable ((dispatching site).Ok p s o) := fun p s o =>
    inferInstanceAs (Decidable (Steady site p s o))
  inferInstanceAs (Decidable (Runs.RunOk _ (dispatching site).StepOk { state := {} } actions))

def plainSite (queue_enabled : Bool) (launched : Except PyError SessionStatus) : Site where
  env := { plainEnv with uuid5 := fun _ name => "u" ++ name }
  uuid5_hex _ name h := by
    have hlist := congrArg String.toList h
    simp at hlist
  repository_root _ := "/repository"
  resolve path := path
  owner_id := "service"
  queue_enabled := queue_enabled
  time n := n
  git _ _ call := match call with
    | .manager | .ensureClean => .ok ()
    | .head => .ok "0123456789abcdef"
    | .create _ worktree_id _ => .ok ("/worktrees/" ++ worktree_id, [])
  unreadable _ := none
  admission _ _ := .ok ()
  launch _ _ := launched

/-- A request for a schedule. -/
def requestedRun : List (Tasks.Action Job) :=
  .start 0 (.manage (.create "schedule" (hourly .queueOne 1) "user" 0) trivial)
    :: List.replicate 1 (.step 0)
    ++ .start 1 (.manage (.runNow "schedule" "first" "user" 1) trivial) :: List.replicate 3 (.step 1)

/-- The service dies when it has created the session, and starts again. -/
def restartedRun : List (Tasks.Action Job) :=
  requestedRun ++ .start 2 (.tick 2 none) :: List.replicate 14 (.step 2)
    ++ .crash 2 :: .start 3 (.tick 3 none) :: List.replicate 20 (.step 3)

/-- Without a queue, a dispatch whose worker cannot be started. -/
def unstartedRun : List (Tasks.Action Job) :=
  requestedRun ++ .start 2 (.tick 2 none) :: List.replicate 30 (.step 2)

end Agenthicc.Schedules.Installation
