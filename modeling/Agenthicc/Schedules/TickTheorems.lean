/-
Agenthicc.Schedules.TickTheorems — a tick of a schedule fires once.

A scheduler reads a schedule, works out the next cursor, and consumes the
cursor in a transaction that looks at the revision and the cursor again. What
it relies on in between is that a revision counts up and that a definition
belongs to its revision. `fires_once` says what a step of a run does to the
cursors, the scheduled rows and the keys; a cursor is consumed again only
after an edit of the schedule that set it anew.
-/
import Agenthicc.Schedules.DispatchTheorems

namespace Agenthicc.Schedules

open Python Background Tasks Tables

variable {s t u : Store} {env : Env} {schedule_id occurrence_id : String}

/-! ## 1. Ticks -/

/-- The installation after a run, its processes included. -/
def worldAfter (env : Env) (actions : List (Action Job)) : World Op Op.Reply Store :=
  (system env).run { state := {} } actions

/-- The schedule and the cursor that a step consumes. -/
def consumed (w : World Op Op.Reply Store) : Action Job → Option (String × Time)
  | .step p =>
      match w.slots p with
      | .busy (.call (.claimDue claim) _) =>
          match w.state.schedules.find? claim.schedule.schedule_id, w.state.claimDue claim with
          | some current, .ok _ =>
              if claim.Current current then
                some (claim.schedule.schedule_id, claim.expected_due_at)
              else none
          | _, _ => none
      | _ => none
  | .start _ _ | .crash _ => none

/-- What the `k`-th step of a run consumes. -/
def consumedAt (env : Env) (actions : List (Action Job)) (k : Nat) : Option (String × Time) :=
  actions[k]?.bind (consumed (worldAfter env (actions.take k)))

/-- A claim consumes a due cursor. The cursor moves on, to a later point of
the schedule's own grid, and in the same transaction the schedule gets one
occurrence, or one of its queued occurrences counts one more tick. -/
structure Tick (env : Env) (claim : Claim) (current : Schedule) (s t : Store) : Prop where
  found : s.schedules.find? claim.schedule.schedule_id = some current
  cursor : current.next_run_at = some claim.expected_due_at
  due : claim.expected_due_at ≤ claim.now
  later : ∀ next ∈ claim.next_run_at, claim.expected_due_at < next ∧ claim.now < next
  grid : current.definition.OnGrid env claim.expected_due_at claim.next_run_at
  written : (Insertable s claim.row
      ∧ t = (s.setSchedule (claim.advanced current)).setRow claim.row)
    ∨ ∃ target, s.occurrences.find? claim.coalesce_target_id = some target
      ∧ target.schedule_id = claim.schedule.schedule_id ∧ target.state = .queued
      ∧ t = (s.setSchedule (claim.advanced current)).setRow (claim.coalesced target)

/-- No tick: cursors stay where they are, except for those that a revision
sets, and nothing is added to what the ticks have left. -/
structure Still (s t : Store) : Prop where
  cursors : ∀ id schedule, s.schedules.find? id = some schedule →
    ∃ schedule', t.schedules.find? id = some schedule'
      ∧ (schedule'.next_run_at = schedule.next_run_at
        ∨ schedule'.revision = schedule.revision + 1)
  rows : ∀ id row', t.occurrences.find? id = some row' →
    match s.occurrences.find? id with
    | some row => row'.kind = row.kind ∧ row'.coalesced_count = row.coalesced_count
    | none => row'.kind ≠ "scheduled" ∧ row'.coalesced_count = 0

/-- An edit sets another cursor. -/
def Rearmed (schedule_id : String) (s t : Store) : Prop :=
  ∃ schedule schedule', s.schedules.find? schedule_id = some schedule
    ∧ t.schedules.find? schedule_id = some schedule'
    ∧ schedule'.revision = schedule.revision + 1
    ∧ schedule'.next_run_at ≠ schedule.next_run_at

def KeysUnique (s : Store) : Prop :=
  ∀ a ∈ s.occurrences.rows, ∀ b ∈ s.occurrences.rows, a.occurrence_key = b.occurrence_key → a = b

/-- What a run does to the cursors. -/
structure FiresOnce (env : Env) (actions : List (Action Job)) : Prop where
  keys : ∀ k, KeysUnique (after env (actions.take k))
  ticks : ∀ k action, actions[k]? = some action →
    match consumed (worldAfter env (actions.take k)) action with
    | some (schedule_id, cursor) => ∃ claim current,
        Tick env claim current (after env (actions.take k)) (after env (actions.take (k + 1)))
          ∧ claim.schedule.schedule_id = schedule_id ∧ claim.expected_due_at = cursor
    | none => Still (after env (actions.take k)) (after env (actions.take (k + 1)))
  once : ∀ i j schedule_id cursor, i < j →
    consumedAt env actions i = some (schedule_id, cursor) →
    consumedAt env actions j = some (schedule_id, cursor) →
    ∃ m, i < m ∧ m < j
      ∧ Rearmed schedule_id (after env (actions.take m)) (after env (actions.take (m + 1)))

/-! ## 2. What a scheduler plans -/

/-- What the others leave of a schedule and a row that were read. -/
structure Revisioned (s t : Store) : Prop where
  schedules : ∀ id schedule, s.schedules.find? id = some schedule →
    ∃ schedule', t.schedules.find? id = some schedule' ∧ schedule.revision ≤ schedule'.revision
      ∧ (schedule'.revision = schedule.revision → schedule'.definition = schedule.definition)
  rows : ∀ id row, s.occurrences.find? id = some row →
    ∃ row', t.occurrences.find? id = some row' ∧ row'.schedule_id = row.schedule_id

/-- The claim of a scheduler follows from what it has read. -/
structure Planned (env : Env) (s : Store) (claim : Claim) : Prop where
  due : claim.expected_due_at ≤ claim.now
  next : nextRunAfter env claim.schedule.recurrence_kind claim.schedule.recurrence_spec
    claim.schedule.timezone claim.expected_due_at claim.now = .ok claim.next_run_at
  read : ∀ current, s.schedules.find? claim.schedule.schedule_id = some current →
    current.revision = claim.schedule.revision → current.definition = claim.schedule.definition
  target : claim.coalesce_target_id ≠ "" →
    ∀ target, s.occurrences.find? claim.coalesce_target_id = some target →
      target.schedule_id = claim.schedule.schedule_id

/-- What a process promises of the operations it calls. -/
def Plans (env : Env) (s : Store) : Op → Prop
  | .claimDue claim => Planned env s claim
  | .insertRow row => row.kind ≠ "scheduled" ∧ row.coalesced_count = 0
  | _ => True

theorem Revisioned.refl (s : Store) : Revisioned s s :=
  ⟨fun _ schedule h => ⟨schedule, h, le_rfl, fun _ => rfl⟩, fun _ row h => ⟨row, h, rfl⟩⟩

theorem Revisioned.trans (h : Revisioned s t) (h' : Revisioned t u) : Revisioned s u where
  schedules id schedule hs := by
    obtain ⟨schedule', hs', hle, hsame⟩ := h.schedules id schedule hs
    obtain ⟨schedule'', hs'', hle', hsame'⟩ := h'.schedules id schedule' hs'
    refine ⟨schedule'', hs'', hle.trans hle', fun heq => ?_⟩
    have hmid : schedule'.revision = schedule.revision := le_antisymm (heq ▸ hle') hle
    rw [hsame' (heq.trans hmid.symm), hsame hmid]
  rows id row hr := by
    obtain ⟨row', hr', hid⟩ := h.rows id row hr
    obtain ⟨row'', hr'', hid'⟩ := h'.rows id row' hr'
    exact ⟨row'', hr'', hid'.trans hid⟩

theorem revisioned_effect {p : Nat} {o : Op} (h : Effect p s o t) : Revisioned s t where
  schedules id schedule hfound := by
    obtain ⟨schedule', hfound', hmove⟩ := schedule_effect h hfound
    refine ⟨schedule', hfound', ?_⟩
    cases hmove with
    | same => exact ⟨le_rfl, fun _ => rfl⟩
    | advanced hid hcurrent => exact ⟨le_rfl, fun _ => rfl⟩
    | revised hfields => exact ⟨Nat.le_succ _, fun heq => absurd heq (Nat.succ_ne_self _)⟩
  rows id row hfound := by
    obtain ⟨row', hfound', hmove⟩ := row_effect h hfound
    refine ⟨row', hfound', ?_⟩
    cases hmove <;> rfl

/-- Keys are unique: an insert looks for its key, and no update changes one. -/
theorem keysUnique_effect {p : Nat} {o : Op} (h : KeysUnique s) (heffect : Effect p s o t) :
    KeysUnique t := by
  -- Where a row comes from: it was there with its key, or its key was free.
  have horigin : ∀ row ∈ t.occurrences.rows,
      (∃ old ∈ s.occurrences.rows, old.occurrence_id = row.occurrence_id
        ∧ old.occurrence_key = row.occurrence_key)
      ∨ (s.occurrences.find? row.occurrence_id = none ∧ Inserts o row
        ∧ s.withKey row.occurrence_key = none) := by
    intro row hrow
    have hfound := Table.find?_key hrow
    cases hold : s.occurrences.find? row.occurrence_id with
    | none =>
        obtain ⟨hinsertable, hinserts⟩ := inserted_effect heffect hold hfound
        exact .inr ⟨rfl, hinserts, hinsertable.key⟩
    | some old =>
        obtain ⟨row', hfound', hmove⟩ := row_effect heffect hold
        rw [hfound, Option.some.injEq] at hfound'
        subst hfound'
        refine .inl ⟨old, Table.mem_of_find? hold, Table.key_of_find? hold, ?_⟩
        cases hmove <;> rfl
  have hclash : ∀ old ∈ s.occurrences.rows, ∀ {key : String}, old.occurrence_key = key →
      s.withKey key ≠ none := fun old hold _ hkey hnone => withKey_eq_none hnone hold hkey
  intro a ha b hb hkey
  refine t.row_eq_of_id ha hb ?_
  rcases horigin a ha with ⟨olda, holda, hida, hkeya⟩ | ⟨-, hinserta, hfreea⟩
  · rcases horigin b hb with ⟨oldb, holdb, hidb, hkeyb⟩ | ⟨-, -, hfreeb⟩
    · rw [← hida, ← hidb, h olda holda oldb holdb (hkeya.trans (hkey.trans hkeyb.symm))]
    · exact absurd hfreeb (hclash olda holda (hkeya.trans hkey))
  · rcases horigin b hb with ⟨oldb, holdb, -, hkeyb⟩ | ⟨-, hinsertb, -⟩
    · exact absurd hfreea (hclash oldb holdb (hkeyb.trans hkey.symm))
    · exact hinserta.id_eq hinsertb

/-- The rely/guarantee argument for ticks. -/
def ticking (env : Env) : Discipline (system env) where
  Inv := KeysUnique
  Idle _ _ := True
  Ok _ _ _ := True
  Rely _ := Revisioned
  Guar _ := Plans env
  rely_refl _ := Revisioned.refl
  rely_trans := Revisioned.trans
  idle_rely _ _ := trivial
  guar_inv h _ _ := keysUnique_effect h (perform_effect env _ _ _)
  guar_rely _ _ _ _ := revisioned_effect (perform_effect env _ _ _)
  died_inv {p s} h := by
    change KeysUnique (died p s)
    unfold died
    split <;> exact h
  died_rely {p q s} _ _ := by
    change Revisioned s (died q s)
    unfold died
    split
    · exact ⟨(Revisioned.refl s).schedules, (Revisioned.refl s).rows⟩
    · exact .refl s

/-! ### Programs that consume no cursor -/

/-- An operation that is promised in any state. -/
def Harmless : Op → Prop
  | .claimDue _ => False
  | .insertRow row => row.kind ≠ "scheduled" ∧ row.coalesced_count = 0
  | _ => True

theorem plans_of_harmless (s : Store) (o : Op) (h : Harmless o) : Plans env s o := by
  cases o with
  | claimDue claim => exact h.elim
  | insertRow row => exact h
  | _ => trivial

/-- An operation of the managers, of the users and of the reconciliation. -/
def Ordinary : Op → Prop
  | .claimDue _ | .lockDispatch | .unlockDispatch => False
  | .insertRow row => row.kind ≠ "scheduled" ∧ row.coalesced_count = 0
  | .updateRow _ _ _ changes => changes.worktree = none ∧ changes.state ≠ some .blocked
  | _ => True

theorem harmless_of_ordinary (o : Op) (h : Ordinary o) : Harmless o := by
  cases o with
  | claimDue claim => exact h.elim
  | insertRow row => exact h
  | _ => trivial

theorem calls_writeOccurrence {P : Op → Prop} {now : Time} {changes : OccurrenceChanges}
    (hupdate : P (.updateRow occurrence_id now none changes)) (hget : P (.getOccurrence occurrence_id)) :
    (writeOccurrence occurrence_id now changes).Calls P := by
  refine .bind (.bind (.ask hupdate) fun r => ?_) fun _ => trivial
  cases r with
  | error exc => trivial
  | ok u => exact .ask hget

theorem harmless_writeOccurrence {now : Time} {changes : OccurrenceChanges} :
    (writeOccurrence occurrence_id now changes).Calls Harmless :=
  calls_writeOccurrence trivial trivial

theorem calls_revised (change : Schedule → Except PyError (Option (Time × ScheduleChanges))) :
    (revised schedule_id change).Calls Ordinary := by
  refine .bind (.ask trivial) fun r => ?_
  cases r with
  | error exc => trivial
  | ok schedule =>
      dsimp only
      split
      · trivial
      · trivial
      · exact .ask trivial

theorem calls_afterInsert (occurrence_id key : String) (r : Except PyError Unit) :
    (afterInsert occurrence_id key r).Calls Ordinary := by
  cases r with
  | error exc =>
      rw [afterInsert]
      split
      · refine .bind (.ask trivial) fun r => ?_
        cases r <;> trivial
      · trivial
  | ok u => exact .ask trivial

theorem calls_create {fields : Fields} {creator : String} {now : Time} :
    (managerCreate env schedule_id fields creator now).Calls Ordinary := by
  unfold managerCreate
  dsimp only
  split
  · trivial
  · exact .ask trivial

theorem calls_runNow {actor : String} {now : Time} :
    (runNow env schedule_id occurrence_id actor now).Calls Ordinary := by
  refine .bind (.ask trivial) fun r => ?_
  cases r with
  | error exc => trivial
  | ok schedule => exact ⟨trivial, fun r => calls_afterInsert _ _ r⟩

theorem calls_retry {occurrence_id_new actor : String} {now : Time} :
    (retry env schedule_id occurrence_id occurrence_id_new actor now).Calls Ordinary := by
  refine .bind (.ask trivial) fun r => ?_
  cases r with
  | error exc => trivial
  | ok original =>
      dsimp only
      split
      · trivial
      · split
        · trivial
        · refine .bind (.ask trivial) fun r => ?_
          cases r with
          | error exc => trivial
          | ok snapshot =>
              dsimp only
              split
              · trivial
              · exact ⟨⟨by simp [retryRow], rfl⟩, fun r => calls_afterInsert _ _ r⟩

theorem ordinary_reconciled {lookup : Lookup} {occurrence : Occurrence}
    {changes : OccurrenceChanges} (h : reconciled lookup occurrence = some changes) :
    changes.worktree = none ∧ changes.state ≠ some .blocked := by
  unfold reconciled at h
  split at h
  · cases h
  · split at h
    · cases h
    · cases h
    · rename_i session _
      split at h
      · cases h
      · rename_i state hstate
        split at h
        · cases h
        · cases h
          refine ⟨rfl, fun heq => ?_⟩
          rw [Option.some.inj heq, reconciledState] at hstate
          repeat' split at hstate
          all_goals cases hstate

theorem calls_reconcileBackground {now : Time} {lookup : Option Lookup} :
    (reconcileBackground now lookup).Calls Ordinary := by
  unfold reconcileBackground
  cases lookup with
  | none => trivial
  | some lookup =>
      refine .bind (.ask trivial) fun r => ?_
      cases r with
      | error exc => trivial
      | ok rows =>
          refine .each fun row _ => ?_
          unfold reconcileOne
          split
          · trivial
          · rename_i changes hchanges
            exact calls_writeOccurrence (ordinary_reconciled hchanges) trivial

theorem calls_claimedDispatch {dispatch : Dispatcher} {schedule : Schedule}
    {claimed : Occurrence} : (claimedDispatch dispatch schedule claimed).Calls Harmless :=
  .bind (.each fun _ _ => harmless_writeOccurrence) fun _ => harmless_writeOccurrence

theorem calls_dispatchOne {now : Time} {dispatch : Dispatcher} {occurrence : Occurrence} :
    (dispatchOne now dispatch occurrence).Calls Harmless := by
  refine .bind (.ask trivial) fun r => ?_
  cases r with
  | error exc => exact harmless_writeOccurrence
  | ok schedule =>
      refine .bind (.ask trivial) fun inflight => ?_
      dsimp only
      split
      · trivial
      · exact harmless_writeOccurrence
      · refine .bind (.bind (.ask trivial) fun r => ?_) fun r => ?_
        · cases r with
          | error exc => trivial
          | ok u => exact .ask trivial
        · cases r with
          | error exc => trivial
          | ok claimed => exact calls_claimedDispatch

theorem calls_dispatchPending {now : Time} {dispatch : Dispatcher} :
    (dispatchPending now dispatch).Calls Harmless := by
  refine .bind (.ask trivial) fun entered => ?_
  split
  · refine .bind (.bind (.ask trivial) fun r => ?_) fun r => ⟨trivial, fun _ => trivial⟩
    cases r with
    | error exc => trivial
    | ok rows => exact .each fun _ _ => calls_dispatchOne
  · trivial

/-! ### The claim of a due cursor -/

section Claims

variable {p : Nat} {now : Time}

/-- What is known of a schedule that was read. -/
def Read (schedule : Schedule) (s : Store) : Prop :=
  ∃ current, s.schedules.find? schedule.schedule_id = some current
    ∧ schedule.revision ≤ current.revision
    ∧ (current.revision = schedule.revision → current.definition = schedule.definition)

theorem stable_read {schedule : Schedule} : (ticking env).Stable p (Read schedule) := by
  rintro s t hr ⟨current, hcurrent, hle, hsame⟩
  obtain ⟨current', hcurrent', hle', hsame'⟩ := hr.schedules _ _ hcurrent
  refine ⟨current', hcurrent', hle.trans hle', fun heq => ?_⟩
  have hmid : current.revision = schedule.revision := le_antisymm (heq ▸ hle') hle
  rw [hsame' (heq.trans hmid.symm), hsame hmid]

/-- The rows that a scheduler found in flight belong to the schedule. -/
def Owns (schedule : Schedule) (inflight : List Occurrence) (s : Store) : Prop :=
  ∀ row ∈ inflight, ∃ current, s.occurrences.find? row.occurrence_id = some current
    ∧ current.schedule_id = schedule.schedule_id

theorem stable_owns {schedule : Schedule} {inflight : List Occurrence} :
    (ticking env).Stable p (Owns schedule inflight) := by
  intro s t hr h row hrow
  obtain ⟨current, hcurrent, hid⟩ := h row hrow
  obtain ⟨current', hcurrent', hid'⟩ := hr.rows _ _ hcurrent
  exact ⟨current', hcurrent', hid'.trans hid⟩

theorem owns_inflight (schedule : Schedule) :
    Owns schedule (s.inflightFor env schedule.schedule_id) s := by
  intro row hrow
  have hactive : row ∈ s.active schedule.schedule_id := (env.scan_perm _).mem_iff.mp hrow
  rw [Store.active, List.mem_filter, decide_eq_true_eq] at hactive
  exact ⟨row, Table.find?_key hactive.1, hactive.2.1⟩

theorem dueState_target (schedule : Schedule) (inflight : List Occurrence)
    (hset : (dueState schedule inflight).2 ≠ "") :
    ∃ row ∈ inflight, row.occurrence_id = (dueState schedule inflight).2 := by
  unfold dueState at hset ⊢
  split at hset
  · exact absurd rfl hset
  · rename_i hskip
    rw [if_neg hskip]
    split at hset
    · rename_i hone
      rw [if_pos hone]
      split at hset
      · rename_i queued hfind
        exact ⟨queued, List.mem_of_find?_eq_some hfind, rfl⟩
      · exact absurd rfl hset
    · split at hset <;> exact absurd rfl hset

theorem planned_dueClaim {schedule : Schedule} {previous : Time} {next_run : Option Time}
    {inflight : List Occurrence} (hdue : previous ≤ now)
    (hnext : nextRunAfter env schedule.recurrence_kind schedule.recurrence_spec schedule.timezone
      previous now = .ok next_run)
    (hread : Read schedule s) (howns : Owns schedule inflight s) :
    Planned env s (dueClaim env schedule previous next_run inflight now) where
  due := hdue
  next := hnext
  read current hcurrent hrevision := by
    obtain ⟨current', hcurrent', -, hsame⟩ := hread
    have heq : current' = current := Option.some.inj (hcurrent'.symm.trans hcurrent)
    subst heq
    exact hsame hrevision
  target hset target htarget := by
    obtain ⟨row, hrow, hid⟩ := dueState_target schedule inflight hset
    obtain ⟨current, hcurrent, howned⟩ := howns row hrow
    rw [hid] at hcurrent
    have heq : current = target := Option.some.inj (hcurrent.symm.trans htarget)
    exact heq ▸ howned

theorem calls_onIntegrityError (key : String) : (onIntegrityError key).Calls Ordinary := by
  refine .bind (.ask trivial) fun r => ?_
  cases r <;> trivial

theorem calls_noteSkipped (claimed : Except PyError Occurrence) :
    (noteSkipped now claimed).Calls Ordinary := by
  cases claimed with
  | error exc => trivial
  | ok occurrence =>
      rw [noteSkipped]
      split
      · exact calls_writeOccurrence ⟨rfl, (fun heq => nomatch heq)⟩ trivial
      · trivial

/-- What `claimOne` does after the claim. -/
theorem calls_afterClaim (key : String) (r : Except PyError Occurrence) :
    ((match r with
        | .error exc => if exc = integrityError then onIntegrityError key else pure (.error exc)
        | .ok row => pure (.ok row) : Prog (Except PyError Occurrence)) >>= fun claimed => do
      let noted ← noteSkipped now claimed
      pure (unlessLost noted)).Calls Ordinary := by
  refine .bind ?_ fun claimed => .bind (calls_noteSkipped claimed) fun _ => trivial
  cases r with
  | error exc =>
      dsimp only
      split
      · exact calls_onIntegrityError _
      · trivial
  | ok row => trivial

/-- A program that consumes no cursor, and what it knows all along. -/
theorem wp_quiet {α : Type} {prog : Prog α} {J : Store → Prop}
    (hJ : ∀ {s t}, Revisioned s t → J s → J t) (h : prog.Calls Harmless) (hs : J s) :
    (ticking env).Wp p prog (fun _ => J) s :=
  Discipline.Wp.of_calls (fun hr => hJ hr) (fun s o _ => hJ (revisioned_effect (perform_effect env p s o)))
    (fun s o ho => plans_of_harmless s o ho) h hs

theorem wp_ordinary {α : Type} {prog : Prog α} {J : Store → Prop}
    (hJ : ∀ {s t}, Revisioned s t → J s → J t) (h : prog.Calls Ordinary) (hs : J s) :
    (ticking env).Wp p prog (fun _ => J) s := wp_quiet hJ (h.imp harmless_of_ordinary) hs

theorem planned_claimOne {schedule : Schedule} {J : Store → Prop}
    (hJ : ∀ {s t}, Revisioned s t → J s → J t) (hdue : Store.Due now schedule)
    (hread : Read schedule s) (h : J s) :
    (ticking env).Wp p (claimOne env now schedule) (fun _ => J) s := by
  have hkeep : ∀ s o, J s → J (perform env p s o).1 :=
    fun s o => hJ (revisioned_effect (perform_effect env p s o))
  unfold claimOne
  split
  · exact h
  · rename_i previous hprevious
    split
    · exact h
    · rename_i next_run hnext
      obtain ⟨x, hx, hle⟩ := hdue.2.2
      have hdue : previous ≤ now := by
        rw [hprevious, Option.mem_some] at hx
        exact hx ▸ hle
      have hstable : (ticking env).Stable p fun s => Read schedule s ∧ J s :=
        stable_read.and fun hr => hJ hr
      rw [Task.bind_ask]
      refine Discipline.Wp.call hstable ⟨hread, h⟩ fun s hs _ _ => ⟨trivial, ?_⟩
      have howns : Owns schedule ((system env).perform p s (Op.inflightFor schedule.schedule_id)).2 s :=
        owns_inflight schedule
      generalize ((system env).perform p s (Op.inflightFor schedule.schedule_id)).2 = inflight
        at howns ⊢
      refine Discipline.Wp.call (o := Op.claimDue (dueClaim env schedule previous next_run inflight now))
        (stable_read.and (stable_owns.and fun hr => hJ hr)) ⟨hs.1, howns, hs.2⟩ fun s hs _ _ =>
          ⟨planned_dueClaim hdue hnext hs.1 hs.2.1, ?_⟩
      refine wp_ordinary hJ ?_ (hkeep s _ hs.2.2)
      generalize ((system env).perform p s (Op.claimDue (dueClaim env schedule previous next_run
        inflight now))).2 = claimed
      cases claimed with
      | error exc => exact calls_afterClaim _ (.error exc)
      | ok row => exact calls_afterClaim "" (.ok row)

theorem planned_claimDue : (ticking env).Wp p (claimDue env now) (fun _ _ => True) s := by
  rw [claimDue, Task.bind_ask]
  refine Discipline.Wp.call (J := fun _ => True) (fun _ h => h) trivial fun s _ _ _ => ⟨trivial, ?_⟩
  have hstable : ∀ {s' t}, Revisioned s' t → (∀ schedule ∈ s.dueSchedules now 500, Read schedule s') →
      ∀ schedule ∈ s.dueSchedules now 500, Read schedule t :=
    fun hr h schedule hmem => (stable_read : (ticking env).Stable p (Read schedule)) hr (h schedule hmem)
  have hread : ∀ schedule ∈ s.dueSchedules now 500, Read schedule s ∧ Store.Due now schedule := by
    intro schedule hmem
    have hrow := List.mem_filter.mp (mem_of_mem_window hmem)
    exact ⟨⟨schedule, Table.find?_key hrow.1, le_rfl, fun _ => rfl⟩, by simpa using hrow.2⟩
  have hloop : (ticking env).Wp p (Task.each (claimOne env now) (s.dueSchedules now 500))
      (fun _ s' => ∀ schedule ∈ s.dueSchedules now 500, Read schedule s') s :=
    Discipline.Wp.each (fun schedule hmem s' hs' =>
      planned_claimOne hstable (hread schedule hmem).2 (hs' schedule hmem) hs')
      fun schedule hmem => (hread schedule hmem).1
  exact hloop.imp fun _ _ _ => trivial

theorem planned_pass {dispatch : Dispatcher} {lookup : Option Lookup} :
    (ticking env).Wp p (tick env now dispatch lookup) (fun _ _ => True) s := by
  have hJ : ∀ {s t : Store}, Revisioned s t → True → True := fun _ h => h
  refine Discipline.Wp.bind ((wp_ordinary hJ calls_reconcileBackground trivial).imp fun r s _ => ?_)
  cases r with
  | error exc => trivial
  | ok u =>
      refine Discipline.Wp.bind (planned_claimDue.imp fun r s _ => ?_)
      cases r with
      | error exc => trivial
      | ok u => exact wp_quiet hJ calls_dispatchPending trivial

theorem planned_job (job : Job) (p : Nat) (s : Store) :
    (ticking env).Wp p (job.prog env) (fun _ _ => True) s := by
  have hJ : ∀ {s t : Store}, Revisioned s t → True → True := fun _ h => h
  cases job with
  | tick now dispatch lookup => exact Discipline.Wp.forget planned_pass
  | create schedule_id fields creator now => exact wp_ordinary hJ calls_create.forget trivial
  | pause schedule_id now => exact wp_ordinary hJ (calls_revised _).forget trivial
  | resume schedule_id confirm now => exact wp_ordinary hJ (calls_revised _).forget trivial
  | delete schedule_id clock => exact wp_ordinary hJ (calls_revised _).forget trivial
  | update schedule_id changes clock => exact wp_ordinary hJ (calls_revised _).forget trivial
  | runNow schedule_id occurrence_id actor now => exact wp_ordinary hJ calls_runNow.forget trivial
  | retry schedule_id occurrence_id occurrence_id_new actor now =>
      exact wp_ordinary hJ calls_retry.forget trivial

end Claims

/-! ## 3. One step -/

theorem claimDue_ok {claim : Claim} {current : Schedule} {row : Occurrence}
    (hfound : s.schedules.find? claim.schedule.schedule_id = some current)
    (hcurrent : claim.Current current) (h : s.claimDue claim = .ok (t, row)) :
    (Insertable s claim.row ∧ t = (s.setSchedule (claim.advanced current)).setRow claim.row)
      ∨ (claim.coalesce_target_id ≠ "" ∧ ∃ target,
        s.occurrences.find? claim.coalesce_target_id = some target ∧ target.state = .queued
          ∧ t = (s.setSchedule (claim.advanced current)).setRow (claim.coalesced target)) := by
  unfold Store.claimDue at h
  dsimp only at h
  rw [hfound] at h
  dsimp only at h
  rw [if_neg (not_not.mpr hcurrent)] at h
  split at h
  · rename_i hset
    split at h
    · rename_i target htarget
      split at h
      · rename_i hqueued
        cases h
        exact .inr ⟨hset, target, htarget, hqueued, rfl⟩
      · cases h
    · cases h
  · cases hinsert : (s.setSchedule (claim.advanced current)).insertRow claim.row with
    | error exc =>
        rw [hinsert] at h
        cases h
    | ok t' =>
        rw [hinsert] at h
        cases h
        obtain ⟨hrow, rfl⟩ := insertRow_ok hinsert
        refine .inl ⟨⟨hrow.id, hrow.key, ?_⟩, rfl⟩
        change (s.schedules.find? claim.schedule.schedule_id).isSome = true
        rw [hfound]
        rfl

/-- A claim without a current cursor, or one that fails, changes nothing. -/
theorem claimDue_quiet {claim : Claim}
    (h : ∀ current, s.schedules.find? claim.schedule.schedule_id = some current →
      claim.Current current → ∀ r, s.claimDue claim ≠ .ok r) :
    (commit s (s.claimDue claim)).1 = s := by
  cases hclaim : s.claimDue claim with
  | error exc => rfl
  | ok r =>
      have hstale : ∀ current, s.schedules.find? claim.schedule.schedule_id = some current →
          ¬ claim.Current current := fun current hfound hcurrent => h current hfound hcurrent r hclaim
      have hwith : ∃ existing, r = (s, existing) := by
        unfold Store.claimDue at hclaim
        dsimp only at hclaim
        split at hclaim
        · split at hclaim
          · cases hclaim
            exact ⟨_, rfl⟩
          · cases hclaim
        · rename_i current hfound
          rw [if_pos (hstale current hfound)] at hclaim
          split at hclaim
          · cases hclaim
            exact ⟨_, rfl⟩
          · cases hclaim
      obtain ⟨existing, rfl⟩ := hwith
      rfl

theorem planned_tick {claim : Claim} {current : Schedule} {row : Occurrence}
    (hplan : Planned env s claim)
    (hfound : s.schedules.find? claim.schedule.schedule_id = some current)
    (hcurrent : claim.Current current) (h : s.claimDue claim = .ok (t, row)) :
    Tick env claim current s t where
  found := hfound
  cursor := hcurrent.2.1
  due := hplan.due
  later next hnext := by
    have hrun := hplan.next
    rw [Option.mem_def.mp hnext] at hrun
    exact nextRunAfter_lt env hplan.due hrun
  grid := by
    have hsame := hplan.read current hfound hcurrent.1
    rw [hsame]
    exact nextRunAfter_grid env hplan.next
  written := by
    rcases claimDue_ok hfound hcurrent h with hinsert | ⟨hset, target, htarget, hqueued, ht⟩
    · exact .inl hinsert
    · exact .inr ⟨target, htarget, hplan.target hset target htarget, hqueued, ht⟩

/-- An operation that is no claim, or a claim that changes nothing. -/
theorem still_effect {p : Nat} {o : Op} (h : Effect p s o t) (hplan : Plans env s o)
    (hclaim : ∀ claim, o = .claimDue claim → t = s) : Still s t where
  cursors id schedule hfound := by
    obtain ⟨schedule', hfound', hmove⟩ := schedule_effect h hfound
    refine ⟨schedule', hfound', ?_⟩
    cases hmove with
    | same => exact .inl rfl
    | @advanced claim hid hcurrent =>
        rw [hclaim claim rfl, hfound, Option.some.injEq] at hfound'
        exact .inl (congrArg Schedule.next_run_at hfound').symm
    | revised hfields => exact .inr rfl
  rows id row' hfound' := by
    split
    · rename_i row hfound
      obtain ⟨new, hnew, hmove⟩ := row_effect h hfound
      rw [hfound', Option.some.injEq] at hnew
      subst hnew
      cases hmove with
      | same => exact ⟨rfl, rfl⟩
      | written => exact ⟨rfl, rfl⟩
      | @coalesced claim hid hqueued =>
          rw [hclaim claim rfl, hfound, Option.some.injEq] at hfound'
          exact ⟨rfl, (congrArg Occurrence.coalesced_count hfound').symm⟩
    · rename_i hnone
      obtain ⟨-, hinserts⟩ := inserted_effect h hnone hfound'
      cases hinserts with
      | row => exact hplan
      | manual => exact ⟨by simp [ManualRequest.row], rfl⟩
      | @claimed claim =>
          rw [hclaim claim rfl, hnone] at hfound'
          cases hfound'

theorem still_refl (s : Store) : Still s s :=
  ⟨fun _ schedule h => ⟨schedule, h, .inl rfl⟩, fun id row' h => by
    split
    · rename_i row hrow
      rw [hrow, Option.some.injEq] at h
      exact h ▸ ⟨rfl, rfl⟩
    · rename_i hnone
      rw [hnone] at h
      cases h⟩

theorem consumed_spec {w : World Op Op.Reply Store} {action : Action Job} {cursor : Time}
    (h : consumed w action = some (schedule_id, cursor)) :
    ∃ p claim next current r, action = .step p ∧ w.slots p = .busy (.call (.claimDue claim) next)
      ∧ w.state.schedules.find? claim.schedule.schedule_id = some current
      ∧ claim.Current current ∧ w.state.claimDue claim = .ok r
      ∧ claim.schedule.schedule_id = schedule_id ∧ claim.expected_due_at = cursor := by
  unfold consumed at h
  split at h
  · rename_i p
    split at h
    · rename_i claim next hslot
      split at h
      · rename_i current r hfound hok
        split at h
        · rename_i hcurrent
          cases h
          exact ⟨p, claim, next, current, r, rfl, hslot, hfound, hcurrent, hok, rfl, rfl⟩
        · cases h
      · cases h
    · cases h
  · cases h
  · cases h

theorem still_died (p : Nat) (s : Store) : Still s (died p s) := by
  unfold died
  split
  · exact ⟨(still_refl s).cursors, (still_refl s).rows⟩
  · exact still_refl s

/-- What a step of processes that keep their promises does. -/
theorem step_law {w : World Op Op.Reply Store} (h : (ticking env).Safe w) (action : Action Job) :
    match consumed w action with
    | some (schedule_id, cursor) => ∃ claim current,
        Tick env claim current w.state ((system env).step w action).state
          ∧ claim.schedule.schedule_id = schedule_id ∧ claim.expected_due_at = cursor
    | none => Still w.state ((system env).step w action).state := by
  cases hconsumed : consumed w action with
  | some tick =>
      obtain ⟨schedule_id, cursor⟩ := tick
      obtain ⟨p, claim, next, current, r, rfl, hslot, hfound, hcurrent, hok, hid, hcursor⟩ :=
        consumed_spec hconsumed
      have hplan : Planned env w.state claim := h.guar hslot trivial
      have hstep : ((system env).step w (.step p)).state = r.1 := by
        rw [System.step, hslot]
        change (commit w.state (w.state.claimDue claim)).1 = r.1
        rw [hok]
        rfl
      refine ⟨claim, current, ?_, hid, hcursor⟩
      rw [hstep]
      exact planned_tick hplan hfound hcurrent hok
  | none =>
      cases (system env).effect w action with
      | quiet heq =>
          rw [heq]
          exact still_refl _
      | died heq =>
          rw [heq]
          exact still_died _ _
      | @call p o next hslot heq =>
          rw [heq]
          refine still_effect (perform_effect env p w.state o) (h.guar hslot trivial)
            fun claim ho => ?_
          subst ho
          refine claimDue_quiet fun current hfound hcurrent r hok => ?_
          have hsome : consumed w (.step p)
              = some (claim.schedule.schedule_id, claim.expected_due_at) := by
            simp only [consumed, hslot, hfound, hok, if_pos hcurrent]
          rw [hsome] at hconsumed
          cases hconsumed

/-! ## 4. Runs -/

/-- The cursor of a schedule has gone past `cursor`. -/
def Past (schedule_id : String) (cursor : Time) (s : Store) : Prop :=
  ∃ schedule, s.schedules.find? schedule_id = some schedule
    ∧ ∀ next ∈ schedule.next_run_at, cursor < next

theorem Tick.past {claim : Claim} {current : Schedule} (h : Tick env claim current s t) :
    Past claim.schedule.schedule_id claim.expected_due_at t := by
  have hid : current.schedule_id = claim.schedule.schedule_id := Table.key_of_find? h.found
  have hfound : (s.setSchedule (claim.advanced current)).schedules.find?
      claim.schedule.schedule_id = some (claim.advanced current) := by
    rw [setSchedule_find?]
    exact if_pos hid
  refine ⟨claim.advanced current, ?_, fun next hnext => (h.later next hnext).1⟩
  rcases h.written with ⟨-, rfl⟩ | ⟨target, -, -, -, rfl⟩ <;> exact hfound

/-- Ticks take a cursor further, and only an edit takes it back. -/
theorem Tick.keeps_past {claim : Claim} {current : Schedule} {cursor : Time}
    (h : Tick env claim current s t) (hpast : Past schedule_id cursor s) :
    Past schedule_id cursor t := by
  obtain ⟨schedule, hfound, hlater⟩ := hpast
  by_cases hid : claim.schedule.schedule_id = schedule_id
  · subst hid
    have heq : schedule = current := Option.some.inj (hfound.symm.trans h.found)
    obtain ⟨advanced, hadvanced, hnext⟩ := h.past
    refine ⟨advanced, hadvanced, fun next hmem => ?_⟩
    calc cursor < claim.expected_due_at := hlater _ (heq ▸ h.cursor)
      _ < next := hnext next hmem
  · have hcid : current.schedule_id = claim.schedule.schedule_id := Table.key_of_find? h.found
    have hkept : (s.setSchedule (claim.advanced current)).schedules.find? schedule_id
        = some schedule := by
      rw [setSchedule_find?, if_neg, hfound]
      exact fun heq => hid (hcid.symm.trans heq)
    refine ⟨schedule, ?_, hlater⟩
    rcases h.written with ⟨-, rfl⟩ | ⟨target, -, -, -, rfl⟩ <;> exact hkept

theorem Still.keeps_past {cursor : Time} (h : Still s t) (hnot : ¬ Rearmed schedule_id s t)
    (hpast : Past schedule_id cursor s) : Past schedule_id cursor t := by
  obtain ⟨schedule, hfound, hlater⟩ := hpast
  obtain ⟨schedule', hfound', hmove⟩ := h.cursors schedule_id schedule hfound
  refine ⟨schedule', hfound', ?_⟩
  by_cases hsame : schedule'.next_run_at = schedule.next_run_at
  · rw [hsame]
    exact hlater
  · have hrevision := hmove.resolve_left hsame
    exact absurd ⟨schedule, schedule', hfound, hfound', hrevision, hsame⟩ hnot

theorem safe_after (env : Env) (actions : List (Action Job)) (k : Nat) :
    (ticking env).Safe (worldAfter env (actions.take k)) := by
  have hstart : (ticking env).Safe { state := {} } :=
    Discipline.safe_start (fun _ h => nomatch h) fun _ => trivial
  have hok : Runs.RunOk (system env).step (ticking env).StepOk { state := {} } actions :=
    Runs.RunOk.of_forall (fun w action => by
      cases action with
      | step p => exact fun _ _ _ => trivial
      | _ => trivial) actions
  exact Discipline.run (fun job p s _ _ => planned_job job p s) hstart hok k

theorem after_succ {actions : List (Action Job)} {k : Nat} {action : Action Job}
    (h : actions[k]? = some action) :
    after env (actions.take (k + 1))
      = ((system env).step (worldAfter env (actions.take k)) action).state :=
  congrArg World.state (Runs.foldl_take_succ h _)

theorem tick_after {actions : List (Action Job)} {k : Nat} {cursor : Time}
    (h : consumedAt env actions k = some (schedule_id, cursor)) : ∃ claim current,
      Tick env claim current (after env (actions.take k)) (after env (actions.take (k + 1)))
        ∧ claim.schedule.schedule_id = schedule_id ∧ claim.expected_due_at = cursor := by
  obtain ⟨action, haction, hconsumed⟩ := Option.bind_eq_some_iff.mp h
  have hlaw := step_law (safe_after env actions k) action
  rw [hconsumed] at hlaw
  rw [after_succ haction]
  exact hlaw

theorem past_after {actions : List (Action Job)} {i j : Nat} {cursor : Time} (hij : i ≤ j)
    (hpast : Past schedule_id cursor (after env (actions.take i)))
    (hnot : ∀ m, i ≤ m → m < j →
      ¬ Rearmed schedule_id (after env (actions.take m)) (after env (actions.take (m + 1)))) :
    Past schedule_id cursor (after env (actions.take j)) := by
  induction j, hij using Nat.le_induction with
  | base => exact hpast
  | succ m hm ih =>
      have hbefore := ih fun n hn hlt => hnot n hn (Nat.lt_succ_of_lt hlt)
      cases haction : actions[m]? with
      | none =>
          -- The run is over.
          have hlength : actions.length ≤ m := List.getElem?_eq_none_iff.mp haction
          rw [List.take_of_length_le hlength] at hbefore
          rw [List.take_of_length_le (Nat.le_succ_of_le hlength)]
          exact hbefore
      | some action =>
          have hlaw := step_law (safe_after env actions m) action
          have hstays := hnot m hm (Nat.lt_succ_self m)
          rw [after_succ haction] at hstays ⊢
          split at hlaw
          · obtain ⟨claim, current, htick, -, -⟩ := hlaw
            exact htick.keeps_past hbefore
          · exact hlaw.keeps_past hstays hbefore

/-- An hourly schedule fires, is edited on a clock that was set back, resumed
with the next run that it shows, and fires again. -/
def editedRun : List (Action Job) :=
  alone 0 (.create "schedule" (hourly .allowBounded 2) "user" 0) 1
    ++ alone 1 (.resume "schedule" "1970-01-01T01:00:00+00:00" 1) 2
    ++ alone 2 (.tick 3600 starts none) 3
    ++ alone 3 (.update "schedule" { prompt := some "Write it again" } fun _ => 0) 2
    ++ alone 4 (.resume "schedule" "1970-01-01T01:00:00+00:00" 1) 2
    ++ alone 5 (.tick 3600 starts none) 3

end Agenthicc.Schedules
