/-
Agenthicc.Background.OwnerTheorems — who owns an attempt of a session.

A claim moves a session to STARTING and then to RUNNING, in two updates with
unlocked reads around them. Only the second one touches the attempt, the
lease token and the worker PID, and it goes through only while the attempt is
the one that the claim read. So claims that succeed number the attempts one
by one, in the order of their writes, and the token in the record is that of
the last of them until the worker is finalised or cancelled.
-/
import Agenthicc.Background.StatusTheorems

namespace Agenthicc.Background

open Python BackgroundSession

/-! ## 1. Fields that say who owns an attempt -/

/-- The fields that say who owns an attempt. -/
def Field.Owner (f : Field) : Prop := f = .attempt ∨ f = .lease_token ∨ f = .worker_pid

/-- `evolve` keeps an owner field that it is given nothing for. -/
theorem evolve_kept {py : Interp} {s t : BackgroundSession} {changes : String → Option Arg}
    {f : Field} (hf : f.Owner) (h : s.evolve py changes = some t) (hnone : changes f.name = none) :
    t.value f = s.value f := by
  have hv : f.kind.evolved py (s.value f) (changes f.name) = some (t.value f) :=
    evolve_value h (by rcases hf with rfl | rfl | rfl <;> decide)
      (by rcases hf with rfl | rfl | rfl <;> decide)
  rw [hnone] at hv
  rcases hf with rfl | rfl | rfl <;> exact (Option.some.inj hv).symm

/-- An event that is no creation and names no owner field keeps it. -/
theorem applyEvent_kept {py : Interp} {now : PyFloat} {s t : BackgroundSession} {event : Json}
    {f : Field} (hf : f.Owner) (htype : event.get "event_type" ≠ .str "created")
    (hnamed : event.get "event_type" = .str "updated" →
      Json.lookup f.name (mappingOf ((Json.lookup "changes" (payloadOf event)).getD .null)) = none)
    (h : applyEvent py now (some s) event = some t) : t.value f = s.value f := by
  have hne : f ≠ .last_active := by rcases hf with rfl | rfl | rfl <;> decide
  unfold applyEvent at h
  dsimp only at h
  rw [if_neg htype] at h
  split at h
  · rename_i hupdated
    split at h
    · split at h
      · cases h
        exact set_value_ne s _ hne
      · cases h
    · refine evolve_kept hf h ?_
      rw [jsonChanges, hnamed hupdated, Option.map_none]
  · split at h
    · split at h
      · refine evolve_kept hf h ?_
        rcases hf with rfl | rfl | rfl <;> rfl
      · cases h
    · split at h
      · split at h
        · split at h
          · refine evolve_kept hf h ?_
            rcases hf with rfl | rfl | rfl <;> rfl
          · cases h
        · cases h
      · cases h

/-- What an update that leaves an owner field records of it: nothing. -/
theorem changedFields_kept {s t : BackgroundSession} {f : Field} (hf : f.Owner)
    (h : t.value f = s.value f) : (changedFields s t).get? f.name = none := by
  rw [changedFields_get?, recorded, h]
  rcases hf with rfl | rfl | rfl <;> simp [FieldKind.numEq, eqOf]

theorem run_restoreDeleted {py : Interp} {clock : Nat → PyFloat} {session_id : String}
    {s : BackgroundSession} {returned : Option BackgroundSession}
    {artifact_dir : Except PyError String} {w : Write}
    (h : (Section.restoreDeleted artifact_dir).run py clock session_id (some s)
      = .ok (returned, some w)) :
    ∃ dir restored, restoredRecord py s dir = some restored
      ∧ w = ⟨"updated", [("session_id", .str session_id),
        ("changes", .obj (changedFields s restored).items)]⟩ := by
  simp only [Section.run, withFound] at h
  split at h
  · cases h
  · split at h
    · cases h
    · split at h
      · cases h
      · rename_i restored hrestored
        cases h
        exact ⟨_, restored, hrestored, rfl⟩

/-- A section that creates and updates nothing keeps the owner. -/
theorem perform_kept {py : Interp} {clock : Nat → PyFloat} {seq : Int} {session_id : String}
    {op : Section} {s t : BackgroundSession} {f : Field} (hf : f.Owner)
    (hcreate : ∀ session, op ≠ .create session)
    (hupdate : ∀ expected changes, op ≠ .update expected changes)
    (h : (op.perform py clock seq session_id (some s)).record = some t) :
    t.value f = s.value f := by
  unfold Section.perform at h
  split at h
  · cases h
    rfl
  · cases h
    rfl
  · rename_i returned w hrun
    dsimp only at h
    rw [recordAfter] at h
    cases happly : applyEvent py (clock 6) (some s) (eventRecord seq (clock 6) w) with
    | none =>
      rw [happly] at h
      cases h
      rfl
    | some u =>
      rw [happly] at h
      cases h
      have htype : (eventRecord seq (clock 6) w).get "event_type" = .str op.eventType :=
        congrArg Json.str (run_eventType hrun)
      have hother : op.eventType ≠ "updated" → t.value f = s.value f := by
        intro hne
        refine applyEvent_kept hf ?_ (fun htype' => ?_) happly
        · rw [htype]
          cases op <;> simp_all [Section.eventType]
        · exact absurd (Json.str.inj (htype.symm.trans htype')) hne
      cases op with
      | create session => exact absurd rfl (hcreate session)
      | update expected changes => exact absurd rfl (hupdate expected changes)
      | changePriority priority changed_by => exact hother (by simp [Section.eventType])
      | recordWorkerExit expected_attempt details => exact hother (by simp [Section.eventType])
      | delete force operation_id trash => exact hother (by simp [Section.eventType])
      | restoreDeleted artifact_dir =>
        obtain ⟨dir, restored, hrestored, rfl⟩ := run_restoreDeleted hrun
        refine applyEvent_kept hf (by rw [htype]; simp [Section.eventType]) (fun _ => ?_) happly
        have hkept : restored.value f = s.value f := by
          refine evolve_kept hf hrestored ?_
          rcases hf with rfl | rfl | rfl <;> rfl
        exact (lookup_items _ _).trans (changedFields_kept hf hkept)

theorem perform_isSome (py : Interp) (clock : Nat → PyFloat) (seq : Int) (session_id : String)
    (s : BackgroundSession) (op : Section) :
    ∃ t, (op.perform py clock seq session_id (some s)).record = some t := by
  rcases perform_record py clock seq session_id (some s) op with h | ⟨event, t, -, h⟩
  · exact ⟨s, h⟩
  · exact ⟨t, h⟩

/-! ## 2. What a section may do to the owner -/

/-- An update that touches no owner field. -/
def Section.Quiet (op : Section) : Prop :=
  ∃ expected changes, op = .update expected changes
    ∧ ∀ f : Field, f.Owner → changes.get? f.name = none

/-- An update that starts the attempt after the one it expects. -/
structure Section.Takes (pid : Int) (lease_token : String) (expected : Expected)
    (changes : Dict String Arg) (attempt : Int) : Prop where
  expected : expected.attempt = some attempt
  attempt : changes.get? "attempt" = some (.json (.int (attempt + 1)))
  lease_token : changes.get? "lease_token" = some (textArg lease_token)
  worker_pid : changes.get? "worker_pid" = some (.json (.int pid))

/-- Keyword arguments that leave the attempt, and take the lease away if they
name it. -/
def Releases (changes : Dict String Arg) : Prop :=
  changes.get? "attempt" = none ∧ ∀ v, changes.get? "lease_token" = some v → v = textArg ""

/-- A section that creates nothing, leaves the attempt, and gives nobody a
lease. -/
def Section.Releases : Section → Prop
  | .create _ => False
  | .update _ changes => Background.Releases changes
  | _ => True

theorem eq_of_same_owner {f : Field} (hf : f.Owner) {x y : f.kind.Value}
    (h : f.kind.same x y = true ↔ f.kind.NormalHistory y) : x = y := by
  rcases hf with rfl | rfl | rfl <;> exact eq_of_eqOf (h.mpr trivial)

/-- The arguments for an owner field reach `evolve` as they are. -/
theorem prepared_owner (clock : Nat → PyFloat) (s : BackgroundSession) (changes : Dict String Arg)
    {f : Field} (hf : f.Owner) :
    (prepared clock s changes).get? f.name = changes.get? f.name := by
  refine prepared_get? clock s changes ?_
  rcases hf with rfl | rfl | rfl <;> decide

section Perform

variable {py : Interp} {clock : Nat → PyFloat} {seq : Int} {session_id : String}
  {s t : BackgroundSession}

theorem perform_quiet {op : Section} (hs : s.Normal) (hop : op.Quiet)
    (h : (op.perform py clock seq session_id (some s)).record = some t) {f : Field}
    (hf : f.Owner) : t.value f = s.value f := by
  obtain ⟨expected, changes, rfl, hquiet⟩ := hop
  rcases perform_update py clock seq session_id expected changes hs with
    ⟨exc, -, hperform⟩ | ⟨u, g, hu, hperform, hfields⟩
  · rw [hperform] at h
    cases h
    rfl
  · rw [hperform] at h
    cases h
    rw [eq_of_same_owner hf (hfields f)]
    exact evolve_kept hf (updateRecord_ok hu)
      ((prepared_owner clock s changes hf).trans (hquiet f hf))

theorem attempt_of_check {expected : Expected} {attempt : Int}
    (hexpected : expected.attempt = some attempt) (h : expected.check s = .ok ()) :
    s.attempt = attempt := by
  unfold Expected.check at h
  rw [hexpected] at h
  by_contra hne
  simp only [Option.any_some] at h
  split at h
  · cases h
  · split at h
    · cases h
    · simp [hne] at h

theorem check_of_updateRecord {expected : Expected} {changes : Dict String Arg}
    (h : updateRecord py clock expected changes s = .ok t) : expected.check s = .ok () := by
  unfold updateRecord at h
  split at h
  · cases h
  · assumption

/-- **The write of a claim**: it raises and leaves the record, or it starts
the next attempt for the lease token. -/
theorem perform_takes (py : Interp) (clock : Nat → PyFloat) (seq : Int) (session_id : String)
    {s : BackgroundSession} {pid : Int} {lease_token : String} {expected : Expected}
    {changes : Dict String Arg} {attempt : Int} (hs : s.Normal)
    (h : Section.Takes pid lease_token expected changes attempt) :
    (∃ exc, (Section.update expected changes).perform py clock seq session_id (some s)
        = ⟨.error exc, some s, none⟩)
    ∨ ∃ r g event, (Section.update expected changes).perform py clock seq session_id (some s)
        = ⟨.ok r, some g, some event⟩
      ∧ r.attempt = s.attempt + 1 ∧ g.attempt = r.attempt ∧ g.lease_token = lease_token
      ∧ g.worker_pid = some pid := by
  rcases perform_update py clock seq session_id expected changes hs with
    ⟨exc, -, hperform⟩ | ⟨u, g, hu, hperform, hfields⟩
  · exact Or.inl ⟨exc, hperform⟩
  · have hattempt := attempt_of_check h.expected (check_of_updateRecord hu)
    have hvalue : ∀ f : Field, f.Owner →
        f.kind.evolved py (s.value f) (changes.get? f.name) = some (u.value f) := by
      intro f hf
      rw [← prepared_owner clock s changes hf]
      exact evolve_value (updateRecord_ok hu) (by rcases hf with rfl | rfl | rfl <;> decide)
        (by rcases hf with rfl | rfl | rfl <;> decide)
    have h1 := hvalue .attempt (Or.inl rfl)
    have h2 := hvalue .lease_token (Or.inr (Or.inl rfl))
    have h3 := hvalue .worker_pid (Or.inr (Or.inr rfl))
    simp only [Field.name, h.attempt, h.lease_token, h.worker_pid] at h1 h2 h3
    have hr : u.attempt = s.attempt + 1 := by
      rw [hattempt]
      exact (Option.some.inj h1).symm
    refine Or.inr ⟨u, g, _, hperform, hr, ?_, ?_, ?_⟩
    · exact eq_of_same_owner (Or.inl rfl) (hfields .attempt)
    · exact (eq_of_same_owner (Or.inr (Or.inl rfl)) (hfields .lease_token)).trans
        (Option.some.inj h2).symm
    · exact (eq_of_same_owner (Or.inr (Or.inr rfl)) (hfields .worker_pid)).trans
        (Option.some.inj h3).symm

/-- What releases an attempt keeps its number, and the token goes or stays. -/
theorem perform_releases {op : Section} (hs : s.Normal) (hop : op.Releases)
    (h : (op.perform py clock seq session_id (some s)).record = some t) :
    t.attempt = s.attempt ∧ (t.lease_token = s.lease_token ∨ t.lease_token = "") := by
  by_cases hupdate : ∃ expected changes, op = .update expected changes
  · obtain ⟨expected, changes, rfl⟩ := hupdate
    rcases perform_update py clock seq session_id expected changes hs with
      ⟨exc, -, hperform⟩ | ⟨u, g, hu, hperform, hfields⟩
    · rw [hperform] at h
      cases h
      exact ⟨rfl, Or.inl rfl⟩
    · rw [hperform] at h
      cases h
      have he := updateRecord_ok hu
      have hlease : t.lease_token = u.lease_token :=
        eq_of_same_owner (Or.inr (Or.inl rfl)) (hfields .lease_token)
      refine ⟨?_, ?_⟩
      · refine (eq_of_same_owner (Or.inl rfl) (hfields .attempt)).trans ?_
        exact evolve_kept (Or.inl rfl) he ((prepared_owner clock s changes (Or.inl rfl)).trans hop.1)
      · cases hc : changes.get? "lease_token" with
        | none =>
          left
          rw [hlease]
          exact evolve_kept (Or.inr (Or.inl rfl)) he
            ((prepared_owner clock s changes (Or.inr (Or.inl rfl))).trans hc)
        | some v =>
          right
          have hv := evolve_value he (f := .lease_token) (by decide) (by decide)
          rw [prepared_owner clock s changes (Or.inr (Or.inl rfl))] at hv
          simp only [Field.name, hc, hop.2 v hc] at hv
          rw [hlease]
          exact (Option.some.inj hv).symm
  · have hcreate : ∀ session, op ≠ .create session := by
      intro session heq
      rw [heq] at hop
      exact hop
    have hne : ∀ expected changes, op ≠ .update expected changes :=
      fun expected changes heq => hupdate ⟨expected, changes, heq⟩
    exact ⟨perform_kept (Or.inl rfl) hcreate hne h,
      Or.inl (perform_kept (Or.inr (Or.inl rfl)) hcreate hne h)⟩

end Perform

/-! ## 3. Operations -/

namespace Operation

variable {session_id : String}

/-- The calls that share a session: claims, and whatever leaves the attempt
and only takes a lease away. Nothing is created anew. -/
def Disciplined : Operation session_id → Prop
  | .create _ _ => False
  | .update _ changes | .transition _ _ changes => Releases changes
  | _ => True

def isClaim : Operation session_id → Bool
  | .claim _ _ _ => true
  | _ => false

end Operation

/-- A claim: quiet updates, and one that takes the attempt and ends it. -/
def Prog.Claims (pid : Int) (lease_token : String) : Prog BackgroundSession → Prop
  | .done _ => False
  | .raise _ => True
  | .get next => ∀ found, (next found).Claims pid lease_token
  | .locked op next =>
      (op.Quiet ∧ ∀ r, (next r).Claims pid lease_token)
        ∨ (∃ expected changes attempt, op = .update expected changes
            ∧ Section.Takes pid lease_token expected changes attempt) ∧ next = .done

/-- A call whose sections all release. -/
def Prog.Releases : Prog BackgroundSession → Prop
  | .done _ | .raise _ => True
  | .get next => ∀ found, (next found).Releases
  | .locked op next => op.Releases ∧ ∀ r, (next r).Releases

/-- What is left of an operation: the rest of a claim, or sections that
release. -/
def Process.OnCourse {session_id : String} (process : Process session_id) : Prop :=
  match process.operation with
  | .claim pid lease_token _ => process.prog.Claims pid lease_token
  | _ => process.prog.Releases

section Shapes

variable {py : Interp} {clock : Nat → PyFloat} {session_id : String}

/-- A transition sets the status, the time it was completed at and the
history; the other arguments are the caller's. -/
theorem transitionChanges_get? {current : BackgroundSession} {target : SessionStatus}
    {changes passed : Dict String Arg} {name : String}
    (hname : name ∉ ["status", "completed_at", "attempt_history"])
    (h : transitionChanges py clock current target changes = .ok passed) :
    passed.get? name = changes.get? name := by
  simp only [List.mem_cons, List.not_mem_nil, or_false, not_or] at hname
  obtain ⟨h1, h2, h3⟩ := hname
  have hstatus : (statusChanges clock target changes).get? name = changes.get? name :=
    statusChanges_get? clock target changes (by simp [h1, h2])
  have hset : ∀ v, ((statusChanges clock target changes).set "attempt_history" v).get? name
      = changes.get? name := by
    intro v
    rw [Dict.get?_set_ne _ _ (Ne.symm h3), hstatus]
  unfold transitionChanges at h
  dsimp only at h
  split at h
  · split at h
    · cases h
    · cases h
      exact hset _
  · split at h
    · cases h
      exact hset _
    · cases h
      exact hstatus

theorem transitionChanges_owner {current : BackgroundSession} {target : SessionStatus}
    {changes passed : Dict String Arg} {f : Field} (hf : f.Owner)
    (h : transitionChanges py clock current target changes = .ok passed) :
    passed.get? f.name = changes.get? f.name := by
  refine transitionChanges_get? ?_ h
  rcases hf with rfl | rfl | rfl <;> decide

/-- What a transition runs: it reads, and raises or makes one update, of the
arguments it was given as far as the owner goes. -/
theorem transition_shape {P : Prog BackgroundSession → Prop}
    {k : BackgroundSession → Prog BackgroundSession} {target : SessionStatus} {expected : Expected}
    {changes : Dict String Arg}
    (hget : ∀ next, (∀ found, P (next found)) → P (.get next)) (hraise : ∀ exc, P (.raise exc))
    (hupdate : ∀ passed : Dict String Arg,
      (∀ f : Field, f.Owner → passed.get? f.name = changes.get? f.name) →
      P (.locked (.update expected passed) k)) :
    P ((transition py clock session_id target expected changes).bind k) := by
  refine hget _ fun found => ?_
  cases found with
  | none => exact hraise _
  | some r =>
    dsimp only
    split
    · exact hraise _
    · change P (Prog.bind k (if r.status = target then _ else _))
      split
      · exact hupdate changes fun _ _ => rfl
      · split
        · exact hraise _
        · split
          · exact hraise _
          · split
            · rename_i passed hpassed
              exact hupdate passed fun f hf => transitionChanges_owner hf hpassed
            · exact hraise _

theorem bind_done : ∀ p : Prog BackgroundSession, p.bind .done = p
  | .done _ | .raise _ => rfl
  | .get next => congrArg Prog.get (funext fun found => bind_done (next found))
  | .locked op next => congrArg (Prog.locked op) (funext fun r => bind_done (next r))

/-- **A claim** touches the owner in its last update only. -/
theorem claims_claim (pid : Int) (lease_token : String) (dispatch_token : Option String) :
    (claim py clock session_id pid lease_token dispatch_token).Claims pid lease_token := by
  have hrun : ∀ current : BackgroundSession, (transition py clock session_id .running
      { status := some current.status, attempt := some current.attempt }
      (claimChanges clock pid lease_token dispatch_token current)).Claims pid lease_token := by
    intro current
    rw [← bind_done (transition _ _ _ _ _ _)]
    refine transition_shape (fun _ h => h) (fun _ => trivial) fun passed hpassed => ?_
    refine Or.inr ⟨⟨_, passed, current.attempt, rfl, ?_⟩, rfl⟩
    exact ⟨rfl, hpassed .attempt (Or.inl rfl), hpassed .lease_token (Or.inr (Or.inl rfl)),
      hpassed .worker_pid (Or.inr (Or.inr rfl))⟩
  intro found
  cases found with
  | none => trivial
  | some r =>
    dsimp only
    split
    · trivial
    · simp only [Prog.bind]
      split
      · trivial
      · split
        · refine transition_shape (fun _ h => h) (fun _ => trivial) fun passed hpassed => ?_
          exact Or.inl ⟨⟨_, passed, rfl, fun f hf => hpassed f hf⟩, hrun⟩
        · split
          · exact hrun r
          · trivial

theorem releases_transition {target : SessionStatus} {expected : Expected}
    {changes : Dict String Arg} (h : Releases changes) :
    (transition py clock session_id target expected changes).Releases := by
  rw [← bind_done (transition _ _ _ _ _ _)]
  refine transition_shape (fun _ h => h) (fun _ => trivial) fun passed hpassed => ?_
  refine ⟨⟨(hpassed .attempt (Or.inl rfl)).trans h.1, fun v hv => ?_⟩, fun _ => trivial⟩
  exact h.2 v ((hpassed .lease_token (Or.inr (Or.inl rfl))).symm.trans hv)

theorem releases_lookup {include_deleted : Bool}
    {f : BackgroundSession → Prog BackgroundSession} (h : ∀ r, (f r).Releases) :
    ((Prog.lookup session_id include_deleted).bind f).Releases := by
  intro found
  cases found with
  | none => trivial
  | some r =>
    dsimp only
    split
    · trivial
    · exact h r

/-- Arguments that name neither the attempt nor the lease token. -/
theorem releases_kwargs {changes : Dict String Arg} (h1 : changes.get? "attempt" = none)
    (h2 : changes.get? "lease_token" = none) : Releases changes := by
  refine ⟨h1, fun v hv => ?_⟩
  rw [h2] at hv
  cases hv

/-- **Every other call** releases. -/
theorem releases_prog {operation : Operation session_id} (h : operation.Disciplined)
    (hclaim : operation.isClaim = false) : (operation.prog py clock).Releases := by
  cases operation with
  | create session hid => cases h
  | claim pid lease_token dispatch_token => cases hclaim
  | update expected changes => exact ⟨h, fun _ => trivial⟩
  | transition target expected changes => exact releases_transition h
  | archive =>
    change (transition py clock session_id .archived {} .empty).Releases
    exact releases_transition (releases_kwargs rfl rfl)
  | changePriority priority changed_by => exact ⟨trivial, fun _ => trivial⟩
  | recordWorkerExit expected_attempt details => exact ⟨trivial, fun _ => trivial⟩
  | delete force operation_id trash => exact ⟨trivial, fun _ => trivial⟩
  | restoreDeleted artifact_dir => exact ⟨trivial, fun _ => trivial⟩
  | heartbeat lease_token attempt phase activity tokens_in tokens_out cost_usd =>
    exact releases_lookup fun r => ⟨releases_kwargs rfl rfl, fun _ => trivial⟩
  | markOrphaned expected =>
    refine releases_lookup fun r => ?_
    split
    · exact releases_transition (releases_kwargs rfl rfl)
    · trivial
  | restoreArchive =>
    refine releases_lookup fun r => ?_
    split
    · trivial
    · exact ⟨releases_kwargs rfl rfl, fun _ => trivial⟩

theorem onCourse_start {operation : Operation session_id} (h : operation.Disciplined) :
    Process.OnCourse { operation := operation, prog := operation.prog py clock } := by
  unfold Process.OnCourse
  split
  · rename_i pid lease_token dispatch_token hop
    dsimp only at hop
    subst hop
    exact claims_claim pid lease_token dispatch_token
  · rename_i hop
    refine releases_prog h ?_
    cases operation with
    | claim pid lease_token dispatch_token => exact absurd rfl (hop _ _ _)
    | _ => rfl

end Shapes

/-! ## 4. Runs -/

/-- The lease token and the attempt of a claim that returned. -/
def Entry.claimed {session_id : String} (e : Entry session_id) : Option (String × Int) :=
  match e.operation, e.returned with
  | .claim _ lease_token _, some (.ok r) => some (lease_token, r.attempt)
  | _, _ => none

/-- **A step of a claim**: where it is the one that returns, it raises the
attempt by one and puts the token and the PID there; where it is not, or
where it raises, it leaves all three. -/
def Entry.TakesOrLeaves {session_id : String} (e : Entry session_id) : Prop :=
  ∀ pid lease_token dispatch_token, e.operation = .claim pid lease_token dispatch_token →
    ∃ s t, e.before = some s ∧ e.after = some t ∧
      match e.returned with
      | some (.ok r) => r.attempt = s.attempt + 1 ∧ t.attempt = r.attempt
          ∧ t.lease_token = lease_token ∧ t.worker_pid = some pid
      | _ => t.attempt = s.attempt ∧ t.lease_token = s.lease_token ∧ t.worker_pid = s.worker_pid

namespace Registry

variable {session_id : String}

/-- The claims that returned, in the order of their writes. -/
def claims (w : Registry session_id) : List (String × Int) := w.log.filterMap Entry.claimed

/-- The token and attempt of the last claim, or what the run started with. -/
def owner (first : BackgroundSession) (w : Registry session_id) : String × Int :=
  w.claims.getLast?.getD (first.lease_token, first.attempt)

/-- The token and the attempt pass the checks of `update`. -/
def Holds (w : Registry session_id) (lease_token : String) (attempt : Int) : Prop :=
  ∃ s, w.record = some s
    ∧ Expected.check { lease_token := some lease_token, attempt := some attempt } s = .ok ()

/-- **One owner for an attempt.** -/
structure OneOwner (first : BackgroundSession) (w : Registry session_id) : Prop where
  /-- A claim raises the attempt by one, or leaves the owner as it was. -/
  takesOrLeaves : ∀ e ∈ w.log, e.TakesOrLeaves
  /-- Later claims have later attempts. -/
  distinct : w.claims.Pairwise fun a b => a.2 < b.2
  /-- One token passes, for one attempt. -/
  unique : ∀ lease_token attempt lease_token' attempt', w.Holds lease_token attempt →
    w.Holds lease_token' attempt' → lease_token = lease_token' ∧ attempt = attempt'
  /-- A token that passes is that of the claim that took the attempt. -/
  owner : ∀ lease_token attempt, w.Holds lease_token attempt → lease_token ≠ "" →
    (lease_token, attempt) = w.owner first

/-- What the run keeps: the record is that of the owner, whose lease may have
been taken away, no claim has a later attempt, and each process runs what is
left of its operation. -/
structure Owned (first : BackgroundSession) (w : Registry session_id) : Prop where
  record : ∃ s, w.record = some s ∧ s.Normal ∧ s.attempt = (w.owner first).2
    ∧ (s.lease_token = (w.owner first).1 ∨ s.lease_token = "")
    ∧ ∀ c ∈ w.claims, c.2 ≤ s.attempt
  entries : ∀ e ∈ w.log, e.TakesOrLeaves
  distinct : w.claims.Pairwise fun a b => a.2 < b.2
  course : ∀ p process, w.processes p = some process → process.OnCourse

/-- The owner fields are as they were. -/
def SameOwner (s t : BackgroundSession) : Prop :=
  t.attempt = s.attempt ∧ t.lease_token = s.lease_token ∧ t.worker_pid = s.worker_pid

/-- **What a step of a claim does** to the record it finds. -/
theorem advance_claim {py : Interp} {clock : Nat → PyFloat} {seq : Int} {s : BackgroundSession}
    {pid : Int} {lease_token : String} {process : Process session_id} (hs : s.Normal)
    (h : process.prog.Claims pid lease_token) :
    ∃ t, (advance py clock seq (some s) process).2.1 = some t ∧
      ((advance py clock seq (some s) process).1.prog.Claims pid lease_token ∧ SameOwner s t
        ∨ ∃ r, (advance py clock seq (some s) process).1.prog = .done r
          ∧ r.attempt = s.attempt + 1 ∧ t.attempt = r.attempt ∧ t.lease_token = lease_token
          ∧ t.worker_pid = some pid) := by
  obtain ⟨operation, prog, seen⟩ := process
  cases prog with
  | done r => cases h
  | raise exc => exact ⟨s, rfl, Or.inl ⟨trivial, rfl, rfl, rfl⟩⟩
  | get next => exact ⟨s, rfl, Or.inl ⟨h (some s), rfl, rfl, rfl⟩⟩
  | locked op next =>
    rcases h with ⟨hquiet, hnext⟩ | ⟨⟨expected, changes, attempt, rfl, htakes⟩, rfl⟩
    · obtain ⟨t, ht⟩ := perform_isSome py clock seq session_id s op
      refine ⟨t, ht, Or.inl ⟨?_, ?_⟩⟩
      · simp only [advance]
        split
        · exact hnext _
        · trivial
      · have hkept : ∀ f : Field, f.Owner → t.value f = s.value f :=
          fun f hf => perform_quiet hs hquiet ht hf
        exact ⟨hkept .attempt (Or.inl rfl), hkept .lease_token (Or.inr (Or.inl rfl)),
          hkept .worker_pid (Or.inr (Or.inr rfl))⟩
    · rcases perform_takes py clock seq session_id hs htakes with ⟨exc, hperform⟩ | ⟨r, t, event, hperform, hrest⟩
      · refine ⟨s, ?_, Or.inl ⟨?_, rfl, rfl, rfl⟩⟩
        · simp only [advance, hperform]
        · simp only [advance, hperform]
          trivial
      · refine ⟨t, ?_, Or.inr ⟨r, ?_, hrest⟩⟩
        · simp only [advance, hperform]
        · simp only [advance, hperform]

/-- **What a step of another call does** to the record it finds. -/
theorem advance_other {py : Interp} {clock : Nat → PyFloat} {seq : Int} {s : BackgroundSession}
    {process : Process session_id} (hs : s.Normal) (h : process.prog.Releases) :
    ∃ t, (advance py clock seq (some s) process).2.1 = some t
      ∧ (advance py clock seq (some s) process).1.prog.Releases
      ∧ t.attempt = s.attempt ∧ (t.lease_token = s.lease_token ∨ t.lease_token = "") := by
  obtain ⟨operation, prog, seen⟩ := process
  cases prog with
  | done r => exact ⟨s, rfl, trivial, rfl, Or.inl rfl⟩
  | raise exc => exact ⟨s, rfl, trivial, rfl, Or.inl rfl⟩
  | get next => exact ⟨s, rfl, h (some s), rfl, Or.inl rfl⟩
  | locked op next =>
    obtain ⟨t, ht⟩ := perform_isSome py clock seq session_id s op
    refine ⟨t, ht, ?_, perform_releases hs h.1 ht⟩
    simp only [advance]
    split
    · exact h.2 _
    · trivial

@[simp] theorem advance_operation (py : Interp) (clock : Nat → PyFloat) (seq : Int)
    (record : Option BackgroundSession) (process : Process session_id) :
    (advance py clock seq record process).1.operation = process.operation := by
  obtain ⟨operation, prog, seen⟩ := process
  cases prog <;> rfl

theorem returned_of_claims {pid : Int} {lease_token : String} {process : Process session_id}
    (h : process.prog.Claims pid lease_token) (r : BackgroundSession) :
    process.returned ≠ some (.ok r) := by
  obtain ⟨operation, prog, seen⟩ := process
  intro hr
  cases prog with
  | done r => cases h
  | raise exc => cases hr
  | get next => cases hr
  | locked op next => cases hr

theorem claimed_eq_none {e : Entry session_id}
    (h : e.operation.isClaim = false ∨ ∀ r, e.returned ≠ some (.ok r)) : e.claimed = none := by
  unfold Entry.claimed
  split
  · rename_i hop hret
    rcases h with h | h
    · rw [hop] at h
      cases h
    · exact absurd hret (h _)
  · rfl

theorem claim_of_isClaim {operation : Operation session_id} (h : operation.isClaim = true) :
    ∃ pid lease_token dispatch_token, operation = .claim pid lease_token dispatch_token := by
  cases operation with
  | claim pid lease_token dispatch_token => exact ⟨pid, lease_token, dispatch_token, rfl⟩
  | _ => cases h

theorem claims_of_onCourse {process : Process session_id} {pid : Int} {lease_token : String}
    {dispatch_token : Option String} (h : process.OnCourse)
    (hop : process.operation = .claim pid lease_token dispatch_token) :
    process.prog.Claims pid lease_token := by
  rw [Process.OnCourse, hop] at h
  exact h

theorem onCourse_iff_releases {process : Process session_id}
    (hclaim : process.operation.isClaim = false) : process.OnCourse ↔ process.prog.Releases := by
  obtain ⟨operation, prog, seen⟩ := process
  cases operation with
  | claim pid lease_token dispatch_token => cases hclaim
  | _ => exact Iff.rfl

section Step

variable {first s t : BackgroundSession} {w : Registry session_id} {e : Entry session_id}
  {events : List Json} {processes : Nat → Option (Process session_id)}

theorem Owned.unclaimed (h : w.Owned first) (hs : w.record = some s) (hn : t.Normal)
    (hattempt : t.attempt = s.attempt)
    (hlease : t.lease_token = s.lease_token ∨ t.lease_token = "") (he : e.claimed = none)
    (hentry : e.TakesOrLeaves)
    (hcourse : ∀ p process, processes p = some process → process.OnCourse) :
    (Registry.mk (some t) events processes (w.log ++ [e])).Owned first := by
  have hclaims : (Registry.mk (some t) events processes (w.log ++ [e])).claims = w.claims := by
    simp [claims, List.filterMap_append, he]
  obtain ⟨s', hs', -, hnum, htok, hle⟩ := h.record
  obtain rfl := Option.some.inj (hs.symm.trans hs')
  refine ⟨⟨t, rfl, hn, ?_, ?_, ?_⟩, ?_, ?_, hcourse⟩
  · rw [owner, hclaims, hattempt, hnum, owner]
  · rw [owner, hclaims]
    rcases hlease with hlease | hlease
    · rw [hlease]
      exact htok
    · exact Or.inr hlease
  · rw [hclaims, hattempt]
    exact hle
  · exact List.forall_mem_append.mpr ⟨h.entries, List.forall_mem_singleton.mpr hentry⟩
  · rw [hclaims]
    exact h.distinct

theorem Owned.claimed {lease_token : String} (h : w.Owned first) (hs : w.record = some s)
    (hn : t.Normal) (hattempt : t.attempt = s.attempt + 1) (hlease : t.lease_token = lease_token)
    (he : e.claimed = some (lease_token, t.attempt)) (hentry : e.TakesOrLeaves)
    (hcourse : ∀ p process, processes p = some process → process.OnCourse) :
    (Registry.mk (some t) events processes (w.log ++ [e])).Owned first := by
  have hclaims : (Registry.mk (some t) events processes (w.log ++ [e])).claims
      = w.claims ++ [(lease_token, t.attempt)] := by
    simp [claims, List.filterMap_append, he]
  have howner : (Registry.mk (some t) events processes (w.log ++ [e])).owner first
      = (lease_token, t.attempt) := by
    simp [owner, hclaims]
  obtain ⟨s', hs', -, -, -, hle⟩ := h.record
  obtain rfl := Option.some.inj (hs.symm.trans hs')
  have hlt : ∀ c ∈ w.claims, c.2 < t.attempt := by
    intro c hc
    have hbound := hle c hc
    omega
  refine ⟨⟨t, rfl, hn, ?_, ?_, ?_⟩, ?_, ?_, hcourse⟩
  · rw [howner]
  · rw [howner]
    exact Or.inl hlease
  · rw [hclaims]
    exact List.forall_mem_append.mpr
      ⟨fun c hc => Int.le_of_lt (hlt c hc), List.forall_mem_singleton.mpr (Int.le_refl _)⟩
  · exact List.forall_mem_append.mpr ⟨h.entries, List.forall_mem_singleton.mpr hentry⟩
  · rw [hclaims, List.pairwise_append]
    refine ⟨h.distinct, List.pairwise_singleton _ _, fun c hc d hd => ?_⟩
    rw [List.mem_singleton.mp hd]
    exact hlt c hc

/-- A process that went on is on course where its operation is. -/
theorem course_update {p : Nat} {next : Option (Process session_id)}
    (h : ∀ q process, w.processes q = some process → process.OnCourse)
    (hnext : ∀ process, next = some process → process.OnCourse) :
    ∀ q process, Function.update w.processes p next q = some process → process.OnCourse := by
  intro q process hq
  rw [Function.update_apply] at hq
  split at hq
  · exact hnext process hq
  · exact h q process hq

theorem step_owned {py : Interp} {action : Action session_id} (h : w.Owned first)
    (haction : ∀ p operation clock, action = .start p operation clock → operation.Disciplined) :
    (step py w action).Owned first := by
  cases action with
  | start p operation clock =>
    simp only [step]
    split
    · exact h
    · refine ⟨h.record, h.entries, h.distinct, course_update h.course fun process hp => ?_⟩
      cases hp
      exact onCourse_start (haction p operation clock rfl)
  | crash p =>
    exact ⟨h.record, h.entries, h.distinct, course_update h.course fun _ hp => by cases hp⟩
  | step p clock =>
    simp only [step]
    split
    · exact h
    · rename_i process hp
      obtain ⟨s, hs, hn, -⟩ := h.record
      have hcourse := h.course p process hp
      have hnormal : ∀ t, (advance py clock (w.events.length + 1) (some s) process).2.1 = some t →
          t.Normal := advance_normal fun s' hs' => Option.some.inj hs' ▸ hn
      rw [hs]
      cases hclaim : process.operation.isClaim with
      | false =>
        obtain ⟨t, ht, hreleases, hattempt, hlease⟩ :=
          advance_other hn ((onCourse_iff_releases hclaim).mp hcourse)
        rw [ht]
        refine h.unclaimed hs (hnormal t ht) hattempt hlease (claimed_eq_none (Or.inl hclaim)) ?_
          (course_update h.course fun process' hp' => ?_)
        · intro pid lease_token dispatch_token hop
          rw [show process.operation = _ from hop] at hclaim
          cases hclaim
        · split at hp'
          · cases hp'
          · cases hp'
            exact (onCourse_iff_releases (by rw [advance_operation, hclaim])).mpr hreleases
      | true =>
        obtain ⟨pid, lease_token, dispatch_token, hop⟩ := claim_of_isClaim hclaim
        obtain ⟨t, ht, hstep⟩ := advance_claim hn (claims_of_onCourse hcourse hop)
        rw [ht]
        rcases hstep with ⟨hclaims, hsame⟩ | ⟨r, hdone, hr, htr, htl, htp⟩
        · refine h.unclaimed hs (hnormal t ht) hsame.1 (Or.inl hsame.2.1)
            (claimed_eq_none (Or.inr (returned_of_claims hclaims))) ?_
            (course_update h.course fun process' hp' => ?_)
          · intro _ _ _ _
            refine ⟨s, t, rfl, rfl, ?_⟩
            split
            · rename_i r hr
              exact absurd hr (returned_of_claims hclaims r)
            · exact hsame
          · split at hp'
            · cases hp'
            · cases hp'
              unfold Process.OnCourse
              rw [advance_operation, hop]
              exact hclaims
        · have hreturned : (advance py clock (w.events.length + 1) (some s) process).1.returned
              = some (.ok r) := by
            rw [Process.returned, hdone]
          refine h.claimed hs (hnormal t ht) (htr.trans hr) htl ?_ ?_
            (course_update h.course fun process' hp' => ?_)
          · rw [Entry.claimed, hop, hreturned, htr]
          · intro pid' lease_token' dispatch_token' hop'
            rw [hop] at hop'
            cases hop'
            refine ⟨s, t, rfl, rfl, ?_⟩
            rw [hreturned]
            exact ⟨hr, htr, htl, htp⟩
          · rw [hreturned] at hp'
            cases hp'

end Step

theorem run_owned {py : Interp} {first : BackgroundSession} {actions : List (Action session_id)}
    {w : Registry session_id} (h : w.Owned first)
    (hactions : ∀ p operation clock, Action.start p operation clock ∈ actions →
      operation.Disciplined) : (run py w actions).Owned first := by
  induction actions generalizing w with
  | nil => exact h
  | cons action actions ih =>
    refine ih (step_owned h fun p operation clock haction => ?_) fun p operation clock hmem => ?_
    · exact hactions p operation clock (by rw [haction]; exact List.mem_cons_self)
    · exact hactions p operation clock (List.mem_cons_of_mem _ hmem)

theorem owned_first {first : BackgroundSession} (h : first.Normal) :
    (Registry.mk (some first) [] (fun _ => none) [] : Registry session_id).Owned first :=
  ⟨⟨first, rfl, h, rfl, Or.inl rfl, fun _ hc => (nomatch hc)⟩, fun _ he => (nomatch he),
    List.Pairwise.nil, fun _ _ hp => (nomatch hp)⟩

theorem holds_iff {w : Registry session_id} {lease_token : String} {attempt : Int} :
    w.Holds lease_token attempt
      ↔ ∃ s, w.record = some s ∧ s.lease_token = lease_token ∧ s.attempt = attempt := by
  refine exists_congr fun s => and_congr_right fun _ => ?_
  by_cases hl : s.lease_token = lease_token <;> by_cases ha : s.attempt = attempt <;>
    simp [Expected.check, hl, ha]

theorem Owned.oneOwner {first : BackgroundSession} {w : Registry session_id}
    (h : w.Owned first) : w.OneOwner first := by
  obtain ⟨s, hs, -, hattempt, hlease, -⟩ := h.record
  refine ⟨h.entries, h.distinct, ?_, ?_⟩
  · intro l a l' a' hl hl'
    obtain ⟨t, ht, rfl, rfl⟩ := holds_iff.mp hl
    obtain ⟨t', ht', rfl, rfl⟩ := holds_iff.mp hl'
    obtain rfl := Option.some.inj (ht.symm.trans ht')
    exact ⟨rfl, rfl⟩
  · intro l a hl hne
    obtain ⟨t, ht, rfl, rfl⟩ := holds_iff.mp hl
    obtain rfl := Option.some.inj (hs.symm.trans ht)
    exact Prod.ext (hlease.resolve_right hne) hattempt

def queuedRecord : List (String × Json) :=
  [("session_id", .str "s"), ("status", .str "queued")]

theorem queued_isSome : (fromMapping plainInterp queuedRecord).isSome = true := by decide

def queued : BackgroundSession := (fromMapping plainInterp queuedRecord).get queued_isSome

theorem queued_reachable : Reachable plainInterp "s" queued :=
  reachable_created queued_isSome rfl

/-- The second claim finds the session STARTING, as the first one left it, and
loses at its last write. -/
def twoClaims : List (Action "s") :=
  [.start 0 (.claim 10 "a" none) atZero, .start 1 (.claim 11 "b" none) atZero,
    .step 0 atZero, .step 0 atZero, .step 0 atZero,
    .step 1 atZero, .step 1 atZero,
    .step 0 atZero, .step 0 atZero, .step 1 atZero]

end Registry

end Agenthicc.Background
