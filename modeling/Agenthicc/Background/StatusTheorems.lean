/-
Agenthicc.Background.StatusTheorems — which status changes the processes on
a session record.

`transition` asks `legal_transition` about the status that it read outside
the lock. Under the lock `update` looks at what the caller told it to expect,
and most callers expect nothing. So a change is legal as long as the status
found there is the one that was read: `Unraced` says so for each step, and
`statuses_legal_iff` that the law holds throughout a run exactly when every
step meets it. `Sanctioned` is the part that no interleaving touches: what an
operation asks for is legal from what it last read.
-/
import Agenthicc.Background.Processes
import Agenthicc.Background.DeltaTheorems

namespace Agenthicc.Background

open Python BackgroundSession

/-! ## 1. What a section leaves -/

/-- The status that keyword arguments ask for. -/
def askedStatus (changes : String → Option Arg) : Option SessionStatus :=
  (changes "status").map fun v => enumOr .failed v.plain

theorem evolve_status {py : Interp} {s t : BackgroundSession} {changes : String → Option Arg}
    (h : s.evolve py changes = some t) : t.status = (askedStatus changes).getD s.status := by
  have hv := evolve_value h (f := .status) (by decide) (by decide)
  have heq : evolvedEnum SessionStatus .failed s.status ((changes "status").map Arg.plain)
      = t.status := Option.some.inj hv
  rw [← heq, askedStatus, evolvedEnum]
  cases changes "status" <;> rfl

@[simp] theorem enumOr_statusArg (dflt target : SessionStatus) :
    enumOr dflt (statusArg target).plain = target := by
  simp [statusArg, Arg.plain, enumOr]

/-- **An update under the lock**: it raises and changes nothing, or the record
is read back with the fields it evolved. -/
theorem perform_update (py : Interp) (clock : Nat → PyFloat) (seq : Int) (session_id : String)
    (expected : Expected) (changes : Dict String Arg) {s : BackgroundSession} (hs : s.Normal) :
    (∃ exc, updateRecord py clock expected changes s = .error exc
      ∧ (Section.update expected changes).perform py clock seq session_id (some s)
        = ⟨.error exc, some s, none⟩)
    ∨ ∃ t g, updateRecord py clock expected changes s = .ok t
      ∧ (Section.update expected changes).perform py clock seq session_id (some s)
        = ⟨.ok t, some g, some (updatedEvent seq (clock 6) session_id s t)⟩
      ∧ ∀ f : Field, f.kind.same (g.value f) (t.value f) = true
        ↔ f.kind.NormalHistory (t.value f) := by
  cases hu : updateRecord py clock expected changes s with
  | error exc => exact Or.inl ⟨exc, rfl, by simp [Section.perform, Section.run, withFound, hu]⟩
  | ok t =>
    have he := updateRecord_ok hu
    obtain ⟨g, hg, -, hfields⟩ := later_fields py (clock 6) seq session_id hs
      (evolve_session_id he) (evolve_evolved hs he) (evolve_coupled he)
    refine Or.inr ⟨t, g, rfl, ?_, hfields⟩
    simp only [Section.perform, Section.run, withFound, hu, Option.some_or, Option.elim]
    rw [← hg]
    rfl

/-- What a section leaves, it found, or an event of the log made it. -/
theorem perform_record (py : Interp) (clock : Nat → PyFloat) (seq : Int) (session_id : String)
    (found : Option BackgroundSession) (op : Section) :
    (op.perform py clock seq session_id found).record = found
      ∨ ∃ event t, applyEvent py (clock 6) found event = some t
        ∧ (op.perform py clock seq session_id found).record = some t := by
  unfold Section.perform
  split
  · exact Or.inl rfl
  · exact Or.inl rfl
  · rename_i returned w _
    dsimp only
    rw [recordAfter]
    cases h : applyEvent py (clock 6) found (eventRecord seq (clock 6) w) with
    | none => exact Or.inl rfl
    | some t => exact Or.inr ⟨_, t, h, rfl⟩

theorem perform_normal {py : Interp} {clock : Nat → PyFloat} {seq : Int} {session_id : String}
    {found : Option BackgroundSession} (op : Section) (h : ∀ s, found = some s → s.Normal) :
    ∀ s, (op.perform py clock seq session_id found).record = some s → s.Normal := by
  intro s hs
  rcases perform_record py clock seq session_id found op with hrecord | ⟨event, t, happly, hrecord⟩
  · exact h s (hrecord.symm.trans hs)
  · obtain rfl := Option.some.inj (hrecord.symm.trans hs)
    exact applyEvent_normal h happly

/-- The type of the event that a section appends. -/
def Section.eventType : Section → String
  | .create _ => "created"
  | .update _ _ | .restoreDeleted _ => "updated"
  | .changePriority _ _ => "priority_changed"
  | .recordWorkerExit _ _ => "worker_exited"
  | .delete _ _ _ => "deleted"

theorem run_eventType {py : Interp} {clock : Nat → PyFloat} {session_id : String}
    {found returned : Option BackgroundSession} {op : Section} {w : Write}
    (h : op.run py clock session_id found = .ok (returned, some w)) :
    w.event_type = op.eventType := by
  cases op <;> simp only [Section.run, withFound, finishDelete] at h <;>
    (repeat' split at h) <;> cases h <;> rfl

/-- A finished worker and a new priority leave the status as it is. -/
theorem perform_status {py : Interp} {clock : Nat → PyFloat} {seq : Int} {session_id : String}
    {op : Section} {s t : BackgroundSession}
    (hop : op.eventType = "priority_changed" ∨ op.eventType = "worker_exited")
    (h : (op.perform py clock seq session_id (some s)).record = some t) : t.status = s.status := by
  unfold Section.perform at h
  split at h
  · obtain rfl := Option.some.inj h
    rfl
  · obtain rfl := Option.some.inj h
    rfl
  · rename_i returned w hrun
    rw [← run_eventType hrun] at hop
    have htype : (eventRecord seq (clock 6) w).get "event_type" = .str w.event_type := rfl
    dsimp only at h
    rw [recordAfter] at h
    cases happly : applyEvent py (clock 6) (some s) (eventRecord seq (clock 6) w) with
    | none =>
      rw [happly] at h
      obtain rfl := Option.some.inj h
      rfl
    | some u =>
      rw [happly] at h
      obtain rfl := Option.some.inj h
      rcases hop with hop | hop <;> simp [applyEvent, htype, hop] at happly
      split at happly
      · split at happly
        · exact evolve_status happly
        · cases happly
      · cases happly

/-! ## 2. The law and the condition -/

namespace Operation

variable {session_id : String}

/-- The operations whose status changes need no edge. -/
def exempt : Operation session_id → Bool
  | .create _ _ | .restoreArchive | .delete _ _ _ | .restoreDeleted _ => true
  | _ => false

/-- The operations that a deleted session comes back through. -/
def revives : Operation session_id → Bool
  | .create _ _ | .restoreDeleted _ => true
  | _ => false

def isRestoreArchive : Operation session_id → Bool
  | .restoreArchive => true
  | _ => false

/-- The caller gives a status among the fields to change. -/
def namesStatus : Operation session_id → Bool
  | .update _ changes | .transition _ _ changes => (changes.get? "status").isSome
  | _ => false

end Operation

/-- **The law**: a status changes along an edge or by an exempt operation, and
a deleted session changes only when it is brought back. -/
def Entry.Legal {session_id : String} (e : Entry session_id) : Prop :=
  ∀ s t, e.before = some s → e.after = some t → s.status ≠ t.status →
    (legalTransition s.status t.status = true ∨ e.operation.exempt = true)
      ∧ (s.status = .deleted → e.operation.revives = true)

namespace Registry

variable {session_id : String}

def Legal (w : Registry session_id) : Prop := ∀ e ∈ w.log, e.Legal

/-- The update that a process makes next, with the status it asks for, where
it goes through on the record `s`. -/
def Writes (py : Interp) (clock : Nat → PyFloat) (process : Process session_id)
    (s : BackgroundSession) (target : SessionStatus) : Prop :=
  ∃ expected changes next t, process.prog = .locked (.update expected changes) next
    ∧ updateRecord py clock expected changes s = .ok t ∧ askedStatus changes.get? = some target

/-- **No race to the lock**: a step that writes a status finds the one that
its operation last read, or one that the write is legal from as well; where
it restores an archived session, it does not find it deleted. -/
def Unraced (py : Interp) (w : Registry session_id) : Action session_id → Prop
  | .step p clock => ∀ process s target, w.processes p = some process → w.record = some s →
      Writes py clock process s target →
      if process.operation.isRestoreArchive then s.status ≠ .deleted
      else (process.seen = some s.status ∧ process.operation.namesStatus = false)
        ∨ s.status = target ∨ legalTransition s.status target = true
  | _ => True

end Registry

/-! ## 3. What an operation asks for -/

/-- What a section may be, for an operation that last read the status `seen`:
one of its own, and a status that is legal from there. -/
def Section.Sanctioned {session_id : String} (operation : Operation session_id)
    (seen : Option SessionStatus) : Section → Prop
  | .create _ | .restoreDeleted _ => operation.exempt = true ∧ operation.revives = true
  | .delete _ _ _ => operation.exempt = true
  | .changePriority _ _ | .recordWorkerExit _ _ => True
  | .update _ changes => ∀ target, askedStatus changes.get? = some target →
      if operation.isRestoreArchive then target = .completed
      else operation.exempt = false ∧ (operation.namesStatus = false →
        ∃ current, seen = some current ∧ legalTransition current target = true)

/-- Every section of an operation is sanctioned by what it read before. -/
def Prog.Sanctioned {session_id : String} (operation : Operation session_id) :
    Option SessionStatus → Prog BackgroundSession → Prop
  | _, .done _ | _, .raise _ => True
  | _, .get next => ∀ found, (next found).Sanctioned operation (found.map (·.status))
  | seen, .locked op next => op.Sanctioned operation seen
      ∧ ∀ r, (next r).Sanctioned operation seen

section Sanctioned

variable {session_id : String} {operation : Operation session_id} {py : Interp}
  {clock : Nat → PyFloat}

theorem Prog.Sanctioned.bind {f : BackgroundSession → Prog BackgroundSession}
    (hf : ∀ seen r, (f r).Sanctioned operation seen) :
    ∀ {p : Prog BackgroundSession} {seen : Option SessionStatus}, p.Sanctioned operation seen →
    (p.bind f).Sanctioned operation seen
  | .done r, seen, _ => hf seen r
  | .raise _, _, _ => trivial
  | .get _, _, h => fun found => (h found).bind hf
  | .locked _ _, _, h => ⟨h.1, fun r => (h.2 r).bind hf⟩

/-- After a read the rest of the operation has the record it found. -/
theorem sanctioned_lookup {f : BackgroundSession → Prog BackgroundSession} {include_deleted : Bool}
    (hf : ∀ r, (f r).Sanctioned operation (some r.status)) (seen : Option SessionStatus) :
    ((Prog.lookup session_id include_deleted).bind f).Sanctioned operation seen := by
  intro found
  cases found with
  | none => trivial
  | some r =>
    dsimp only
    split
    · trivial
    · exact hf r

theorem sanctioned_update {expected : Expected} {changes : Dict String Arg}
    (h : askedStatus changes.get? = none) (seen : Option SessionStatus) :
    (update expected changes).Sanctioned operation seen := by
  refine ⟨fun target htarget => ?_, fun _ => trivial⟩
  rw [h] at htarget
  cases htarget

theorem askedStatus_transitionChanges {current : BackgroundSession} {target : SessionStatus}
    {changes passed : Dict String Arg}
    (h : transitionChanges py clock current target changes = .ok passed) :
    askedStatus passed.get? = some target := by
  have hstatus : (statusChanges clock target changes).get? "status" = some (statusArg target) := by
    unfold statusChanges
    dsimp only
    split
    · rw [Dict.get?_setdefault_ne _ _ (by decide), Dict.get?_set_self]
    · exact Dict.get?_set_self _ _ _
  have hset : ∀ v, ((statusChanges clock target changes).set "attempt_history" v).get? "status"
      = some (statusArg target) := by
    intro v
    rw [Dict.get?_set_ne _ _ (by decide), hstatus]
  have hpassed : passed.get? "status" = some (statusArg target) := by
    unfold transitionChanges at h
    dsimp only at h
    split at h
    · split at h
      · cases h
      · cases h
        exact hset _
    · split at h
      · cases h
        exact hset _
      · cases h
        exact hstatus
  rw [askedStatus, hpassed, Option.map_some, enumOr_statusArg]

/-- **A transition** asks for a status that is legal from the one it read. -/
theorem sanctioned_transition {target : SessionStatus} {expected : Expected}
    {changes : Dict String Arg} (hexempt : operation.exempt = false)
    (hrestore : operation.isRestoreArchive = false)
    (hchanges : operation.namesStatus = false → changes.get? "status" = none)
    (seen : Option SessionStatus) :
    (transition py clock session_id target expected changes).Sanctioned operation seen := by
  refine sanctioned_lookup (fun r => ?_) seen
  split
  · refine ⟨fun asked hasked => ?_, fun _ => trivial⟩
    rw [hrestore, if_neg (by decide)]
    refine ⟨hexempt, fun hnames => ?_⟩
    rw [askedStatus, hchanges hnames] at hasked
    cases hasked
  · split
    · trivial
    · split
      · trivial
      · rename_i hlegal
        split
        · rename_i passed hpassed
          refine ⟨fun asked hasked => ?_, fun _ => trivial⟩
          rw [askedStatus_transitionChanges hpassed, Option.some.injEq] at hasked
          subst hasked
          rw [hrestore, if_neg (by decide)]
          exact ⟨hexempt, fun _ => ⟨r.status, rfl, by simpa using hlegal⟩⟩
        · trivial

/-- **Every operation** is sanctioned. -/
theorem sanctioned_prog (operation : Operation session_id) (seen : Option SessionStatus) :
    (operation.prog py clock).Sanctioned operation seen := by
  cases operation with
  | create session h => exact ⟨⟨rfl, rfl⟩, fun _ => trivial⟩
  | restoreDeleted artifact_dir => exact ⟨⟨rfl, rfl⟩, fun _ => trivial⟩
  | delete force operation_id trash => exact ⟨rfl, fun _ => trivial⟩
  | changePriority priority changed_by => exact ⟨trivial, fun _ => trivial⟩
  | recordWorkerExit expected_attempt details => exact ⟨trivial, fun _ => trivial⟩
  | update expected changes =>
    refine ⟨fun target htarget => ⟨rfl, fun hnames => ?_⟩, fun _ => trivial⟩
    rw [askedStatus, Option.isSome_eq_false_iff.mp hnames |> Option.isNone_iff_eq_none.mp] at htarget
    cases htarget
  | transition target expected changes =>
    refine sanctioned_transition rfl rfl (fun hnames => ?_) seen
    simpa [Operation.namesStatus] using hnames
  | archive =>
    change (transition py clock session_id .archived {} .empty).Sanctioned _ seen
    exact sanctioned_transition rfl rfl (fun _ => rfl) seen
  | heartbeat lease_token attempt phase activity tokens_in tokens_out cost_usd =>
    exact sanctioned_lookup (fun r => sanctioned_update rfl _) seen
  | markOrphaned expected =>
    refine sanctioned_lookup (fun r => ?_) seen
    split
    · exact sanctioned_transition rfl rfl (fun _ => rfl) _
    · trivial
  | restoreArchive =>
    refine sanctioned_lookup (fun r => ?_) seen
    split
    · trivial
    · refine ⟨fun target htarget => ?_, fun _ => trivial⟩
      exact (Option.some.inj htarget).symm
  | claim pid lease_token dispatch_token =>
    have hrun : ∀ (current : BackgroundSession) (seen : Option SessionStatus),
        (transition py clock session_id .running
          { status := some current.status, attempt := some current.attempt }
          (claimChanges clock pid lease_token dispatch_token current)).Sanctioned
          (.claim pid lease_token dispatch_token) seen :=
      fun current seen => sanctioned_transition rfl rfl (fun _ => rfl) seen
    refine sanctioned_lookup (fun r => ?_) seen
    split
    · trivial
    · dsimp only
      split
      · exact Prog.Sanctioned.bind (fun seen current => hrun current seen)
          (sanctioned_transition rfl rfl (fun _ => rfl) _)
      · split
        · exact hrun r _
        · trivial

end Sanctioned

/-! ## 4. Runs -/

namespace Registry

variable {session_id : String} {py : Interp}

/-- The record is normal, and every process has a sanctioned rest to run. -/
structure Orderly (w : Registry session_id) : Prop where
  record : ∀ s, w.record = some s → s.Normal
  processes : ∀ p process, w.processes p = some process →
    process.prog.Sanctioned process.operation process.seen

theorem advance_normal {clock : Nat → PyFloat} {seq : Int} {record : Option BackgroundSession}
    {process : Process session_id} (h : ∀ s, record = some s → s.Normal) :
    ∀ s, (advance py clock seq record process).2.1 = some s → s.Normal := by
  obtain ⟨operation, prog, seen⟩ := process
  cases prog with
  | locked op next => exact perform_normal op h
  | _ => exact h

theorem advance_orderly (py : Interp) (clock : Nat → PyFloat) (seq : Int)
    {record : Option BackgroundSession} {process : Process session_id} (hrecord : ∀ s, record = some s → s.Normal)
    (h : process.prog.Sanctioned process.operation process.seen) :
    (∀ s, (advance py clock seq record process).2.1 = some s → s.Normal)
      ∧ (advance py clock seq record process).1.prog.Sanctioned
        (advance py clock seq record process).1.operation
        (advance py clock seq record process).1.seen := by
  refine ⟨advance_normal hrecord, ?_⟩
  obtain ⟨operation, prog, seen⟩ := process
  cases prog with
  | done r => exact h
  | raise exc => exact h
  | get next => exact h record
  | locked op next =>
    simp only [advance]
    split
    · exact h.2 _
    · trivial

theorem step_orderly {w : Registry session_id} (action : Action session_id) (h : w.Orderly) :
    (step py w action).Orderly := by
  cases action with
  | start p operation clock =>
    simp only [step]
    split
    · exact h
    · refine ⟨h.record, fun q process hq => ?_⟩
      simp only [Function.update_apply] at hq
      split at hq
      · cases hq
        exact sanctioned_prog operation none
      · exact h.processes q process hq
  | crash p =>
    refine ⟨h.record, fun q process hq => ?_⟩
    simp only [step, Function.update_apply] at hq
    split at hq
    · cases hq
    · exact h.processes q process hq
  | step p clock =>
    simp only [step]
    split
    · exact h
    · rename_i process hp
      have hadvance := advance_orderly py clock (w.events.length + 1) h.record (h.processes p process hp)
      refine ⟨hadvance.1, fun q process' hq => ?_⟩
      simp only [Function.update_apply] at hq
      split at hq
      · split at hq
        · cases hq
        · cases hq
          exact hadvance.2
      · exact h.processes q process' hq

/-- A step that makes no update and leaves the status, or changes it by right,
is legal and not raced. -/
theorem legal_iff_unraced_of_not_update {clock : Nat → PyFloat} {s : BackgroundSession}
    {process : Process session_id} {after : Option BackgroundSession}
    {returned : Option (Except PyError BackgroundSession)}
    (hprog : ∀ expected changes next, process.prog ≠ .locked (.update expected changes) next)
    (h : ∀ t, after = some t → s.status ≠ t.status → process.operation.exempt = true
      ∧ (s.status = .deleted → process.operation.revives = true)) :
    (Entry.mk process.operation (some s) after returned).Legal
      ↔ ∀ s' target, some s = some s' → Writes py clock process s' target →
        if process.operation.isRestoreArchive then s'.status ≠ .deleted
        else (process.seen = some s'.status ∧ process.operation.namesStatus = false)
          ∨ s'.status = target ∨ legalTransition s'.status target = true := by
  refine iff_of_true (fun s' t hs ht hne => ?_) (fun s' target _ hw => ?_)
  · obtain rfl := Option.some.inj hs
    obtain ⟨hexempt, hrevives⟩ := h t ht hne
    exact ⟨Or.inr hexempt, hrevives⟩
  · obtain ⟨expected, changes, next, _, hw, -⟩ := hw
    exact absurd hw (hprog expected changes next)

theorem perform_delete_deleted {clock : Nat → PyFloat} {seq : Int} {force : Bool}
    {operation_id : String} {trash : Except PyError String} {s : BackgroundSession}
    (h : s.status = .deleted) :
    ((Section.delete force operation_id trash).perform py clock seq session_id (some s)).record
      = some s := by
  simp only [Section.perform, Section.run, withFound, if_pos h]
  split
  · rfl
  · rfl
  · rename_i hrun
    split at hrun <;> cases hrun

theorem not_legalTransition_deleted (target : SessionStatus) :
    legalTransition .deleted target = false := by cases target <;> rfl

/-- What a sanctioned update asks for is legal from the status found exactly
when it is not raced. -/
theorem legal_iff_of_sanctioned {operation : Operation session_id} {seen : Option SessionStatus}
    {found target : SessionStatus}
    (h : if operation.isRestoreArchive then target = .completed
      else operation.exempt = false ∧ (operation.namesStatus = false →
        ∃ current, seen = some current ∧ legalTransition current target = true)) :
    (found ≠ target → (legalTransition found target = true ∨ operation.exempt = true)
        ∧ (found = .deleted → operation.revives = true))
      ↔ if operation.isRestoreArchive then found ≠ .deleted
        else (seen = some found ∧ operation.namesStatus = false)
          ∨ found = target ∨ legalTransition found target = true := by
  cases hrestore : operation.isRestoreArchive with
  | true =>
    have hop : operation = .restoreArchive := by
      cases operation <;> simp_all [Operation.isRestoreArchive]
    subst hop
    rw [hrestore, if_pos rfl] at h
    subst h
    simp only [if_true, Operation.exempt, Operation.revives]
    constructor
    · intro hl hdeleted
      exact absurd ((hl (by rw [hdeleted]; decide)).2 hdeleted) (by decide)
    · intro hne _
      exact ⟨Or.inr trivial, fun hdeleted => absurd hdeleted hne⟩
  | false =>
    rw [hrestore, if_neg (by decide)] at h
    obtain ⟨hexempt, hseen⟩ := h
    rw [if_neg (by decide), hexempt]
    constructor
    · intro hl
      by_cases heq : found = target
      · exact Or.inr (Or.inl heq)
      · exact Or.inr (Or.inr ((hl heq).1.resolve_right (by decide)))
    · intro hu hne
      have hlegal : legalTransition found target = true := by
        rcases hu with ⟨hfound, hnames⟩ | heq | hlegal
        · obtain ⟨current, hcurrent, hlegal⟩ := hseen hnames
          rw [hcurrent, Option.some.injEq] at hfound
          exact hfound ▸ hlegal
        · exact absurd heq hne
        · exact hlegal
      refine ⟨Or.inl hlegal, fun hdeleted => ?_⟩
      rw [hdeleted, not_legalTransition_deleted] at hlegal
      cases hlegal

/-- **An update under the lock** is legal exactly when it is not raced. -/
theorem update_legal {clock : Nat → PyFloat} {seq : Int} {s : BackgroundSession}
    {operation : Operation session_id} {seen : Option SessionStatus} {expected : Expected}
    {changes : Dict String Arg} {next : BackgroundSession → Prog BackgroundSession}
    (hs : s.Normal) (h : (Section.update expected changes).Sanctioned operation seen)
    (returned : Option (Except PyError BackgroundSession)) :
    (Entry.mk operation (some s) ((Section.update expected changes).perform py clock seq session_id
        (some s)).record returned).Legal
      ↔ ∀ s' target, some s = some s' →
        Writes py clock ⟨operation, .locked (.update expected changes) next, seen⟩ s' target →
        if operation.isRestoreArchive then s'.status ≠ .deleted
        else (seen = some s'.status ∧ operation.namesStatus = false)
          ∨ s'.status = target ∨ legalTransition s'.status target = true := by
  rcases perform_update py clock seq session_id expected changes hs with
    ⟨exc, herror, hperform⟩ | ⟨t, g, ht, hperform, hfields⟩
  · refine iff_of_true (fun s' t hs' ht hne => ?_) (fun s' target hs' hw => ?_)
    · rw [hperform] at ht
      cases hs'
      cases ht
      exact absurd rfl hne
    · obtain ⟨_, _, _, t, hprog, ht, -⟩ := hw
      cases hprog
      cases hs'
      rw [herror] at ht
      cases ht
  · have hg : g.status = (askedStatus changes.get?).getD s.status := by
      have hsame : g.status = t.status := eq_of_eqOf ((hfields .status).mpr trivial)
      have hprepared : (prepared clock s changes).get? "status" = changes.get? "status" :=
        prepared_get? clock s changes (by decide)
      rw [hsame, evolve_status (updateRecord_ok ht), askedStatus, hprepared, ← askedStatus]
    cases hasked : askedStatus changes.get? with
    | none =>
      rw [hasked] at hg
      refine iff_of_true (fun s' t hs' ht hne => ?_) (fun s' target hs' hw => ?_)
      · rw [hperform] at ht
        cases hs'
        cases ht
        exact absurd hg.symm hne
      · obtain ⟨_, _, _, _, hprog, -, hsome⟩ := hw
        cases hprog
        rw [hasked] at hsome
        cases hsome
    | some target =>
      rw [hasked, Option.getD_some] at hg
      have hlegal : (Entry.mk operation (some s) (some g) returned).Legal ↔ (s.status ≠ target →
          (legalTransition s.status target = true ∨ operation.exempt = true)
            ∧ (s.status = .deleted → operation.revives = true)) := by
        constructor
        · intro hl hne
          have hchange := hl s g rfl rfl (hg ▸ hne)
          rw [hg] at hchange
          exact hchange
        · intro hl s' t hs' ht hne
          cases hs'
          cases ht
          rw [hg] at hne ⊢
          exact hl hne
      have hunraced : (∀ s' target', some s = some s' →
          Writes py clock ⟨operation, .locked (.update expected changes) next, seen⟩ s' target' →
          if operation.isRestoreArchive then s'.status ≠ .deleted
          else (seen = some s'.status ∧ operation.namesStatus = false)
            ∨ s'.status = target' ∨ legalTransition s'.status target' = true)
          ↔ if operation.isRestoreArchive then s.status ≠ .deleted
            else (seen = some s.status ∧ operation.namesStatus = false)
              ∨ s.status = target ∨ legalTransition s.status target = true := by
        constructor
        · intro hu
          exact hu s target rfl ⟨expected, changes, next, t, rfl, ht, hasked⟩
        · intro hu s' target' hs' hw
          obtain ⟨_, _, _, _, hprog, -, hsome⟩ := hw
          cases hprog
          cases hs'
          rw [hasked, Option.some.injEq] at hsome
          exact hsome ▸ hu
      rw [hperform, hlegal, hunraced]
      exact legal_iff_of_sanctioned (h target hasked)

/-- **One step**: what it does to the status is legal exactly when it is not
raced. -/
theorem advance_legal (py : Interp) (clock : Nat → PyFloat) (seq : Int)
    {record : Option BackgroundSession} {process : Process session_id} (hrecord : ∀ s, record = some s → s.Normal)
    (h : process.prog.Sanctioned process.operation process.seen)
    (returned : Option (Except PyError BackgroundSession)) :
    (Entry.mk process.operation record (advance py clock seq record process).2.1 returned).Legal
      ↔ ∀ s target, record = some s → Writes py clock process s target →
        if process.operation.isRestoreArchive then s.status ≠ .deleted
        else (process.seen = some s.status ∧ process.operation.namesStatus = false)
          ∨ s.status = target ∨ legalTransition s.status target = true := by
  cases record with
  | none =>
    refine iff_of_true (fun s t hs => ?_) (fun s target hs => ?_) <;> cases hs
  | some s =>
    obtain ⟨operation, prog, seen⟩ := process
    have hunchanged : ∀ t, some s = some t → s.status ≠ t.status → operation.exempt = true
        ∧ (s.status = .deleted → operation.revives = true) := by
      intro t ht hne
      exact absurd (congrArg BackgroundSession.status (Option.some.inj ht)) hne
    cases prog with
    | done r => exact legal_iff_unraced_of_not_update (by simp) hunchanged
    | raise exc => exact legal_iff_unraced_of_not_update (by simp) hunchanged
    | get next => exact legal_iff_unraced_of_not_update (by simp) hunchanged
    | locked op next =>
      have hop := h.1
      cases op with
      | update expected changes => exact update_legal (hrecord s rfl) hop returned
      | create session =>
        exact legal_iff_unraced_of_not_update (by simp) fun t _ _ => ⟨hop.1, fun _ => hop.2⟩
      | restoreDeleted artifact_dir =>
        exact legal_iff_unraced_of_not_update (by simp) fun t _ _ => ⟨hop.1, fun _ => hop.2⟩
      | delete force operation_id trash =>
        refine legal_iff_unraced_of_not_update (by simp) fun t ht hne => ⟨hop, fun hdeleted => ?_⟩
        have hrecord := (perform_delete_deleted hdeleted).symm.trans ht
        exact absurd (congrArg BackgroundSession.status (Option.some.inj hrecord)) hne
      | changePriority priority changed_by =>
        refine legal_iff_unraced_of_not_update (by simp) fun t ht hne => ?_
        exact absurd (perform_status (Or.inl rfl) ht).symm hne
      | recordWorkerExit expected_attempt details =>
        refine legal_iff_unraced_of_not_update (by simp) fun t ht hne => ?_
        exact absurd (perform_status (Or.inr rfl) ht).symm hne

theorem orderly_new : (Registry.mk none [] (fun _ => none) [] : Registry session_id).Orderly :=
  ⟨fun _ h => (nomatch h), fun _ _ h => (nomatch h)⟩

theorem step_legal {w : Registry session_id} (action : Action session_id) (h : w.Orderly)
    (hlegal : w.Legal) : (step py w action).Legal ↔ Unraced py w action := by
  cases action with
  | start p operation clock =>
    refine iff_of_true ?_ trivial
    simp only [step]
    split <;> exact hlegal
  | crash p => exact iff_of_true hlegal trivial
  | step p clock =>
    simp only [step]
    split
    · rename_i hnone
      refine iff_of_true hlegal fun process s target hp => ?_
      rw [hnone] at hp
      cases hp
    · rename_i process hp
      have hentry := advance_legal py clock (w.events.length + 1) h.record
        (h.processes p process hp)
      constructor
      · intro hall process' s target hp' hs hw
        rw [hp, Option.some.injEq] at hp'
        subst hp'
        exact (hentry _).mp (hall _ (List.mem_append_right _ (List.mem_singleton.mpr rfl)))
          s target hs hw
      · intro hu e he
        rcases List.mem_append.mp he with he | he
        · exact hlegal e he
        · rw [List.mem_singleton.mp he]
          exact (hentry _).mpr fun s target hs hw => hu process s target hp hs hw

/-- **Statuses move along edges.** However several processes take turns on a
session, from an empty registry on, every status that they record is a legal
one in every state of the run exactly when no write of a status is raced. -/
theorem statuses_legal_iff (py : Interp) (actions : List (Action session_id)) :
    (∀ k, (run py {} (actions.take k)).Legal)
      ↔ Runs.RunOk (step py) (Unraced py) {} actions :=
  Runs.forall_states_iff (fun _ action h => step_orderly action h)
    (fun _ action h hlegal => step_legal action h hlegal) orderly_new
    (fun _ h => (nomatch h))

/-! ### An archive that loses its race -/

def completedRecord : List (String × Json) :=
  [("session_id", .str "s"), ("status", .str "completed")]

theorem completed_isSome : (fromMapping plainInterp completedRecord).isSome = true := by
  decide

def completed : BackgroundSession := (fromMapping plainInterp completedRecord).get completed_isSome

/-- One process reads a completed session to archive it, another one deletes
it, and the first writes. -/
def staleArchive : List (Action "s") :=
  [.start 0 (.create completed (by decide)) atZero, .step 0 atZero,
    .start 1 .archive atZero, .step 1 atZero,
    .start 2 (.delete false "" (.ok "trash")) atZero, .step 2 atZero,
    .step 1 atZero]

/-- **A deleted session is archived** by the archive that read it before. -/
theorem not_legal_staleArchive : ¬ (run plainInterp {} staleArchive).Legal := by
  have hlast : ((run plainInterp {} staleArchive).log.getLast?.map fun e =>
      (e.before.map (·.status), e.after.map (·.status), e.operation.revives))
      = some (some .deleted, some .archived, false) := by decide +kernel
  intro h
  obtain ⟨e, he, hstatus⟩ := Option.map_eq_some_iff.mp hlast
  simp only [Prod.mk.injEq, Option.map_eq_some_iff] at hstatus
  obtain ⟨⟨s, hs, hdeleted⟩, ⟨t, ht, harchived⟩, hrevives⟩ := hstatus
  have hlegal := h e (List.mem_of_getLast? he) s t hs ht (by rw [hdeleted, harchived]; decide)
  rw [hlegal.2 hdeleted] at hrevives
  cases hrevives

end Registry

end Agenthicc.Background
