/-
Agenthicc.Runners.WorkflowClaimTheorems — when a workflow run claim excludes.

Taking over looks at the claim, judges its owner and unlinks whatever is there
by then. The argument below is for runs whose unlinks find the file that was
looked at, and in which a process meets its own owner ID in its own claim
only; `claims_exclude` is the result.
-/
import Agenthicc.Runners.WorkflowClaim

namespace Agenthicc.Runners

open Python Tasks

variable {plat : Platform} {py : Interp} {run_id : String} {s t u : ClaimStore} {p q : Nat}

/-! ## 1. Exclusion -/

/-- At most one live process holds the claim. -/
def Exclusive (s : ClaimStore) : Prop :=
  ∀ h ∈ s.holders, ∀ h' ∈ s.holders, s.machine.Running h.1 → s.machine.Running h'.1 → h.1 = h'.1

/-- A claim of a live process is removed by that process only. -/
def Respected (s t : ClaimStore) (action : Action ClaimJob) : Prop :=
  ∀ file ∈ s.claim, ∀ w ∈ file.writer, s.machine.Running w →
    t.claim = some file ∨ action = .step w

/-- What the calls of a run must find. An unlink finds the file that was
looked at, or none; a release that goes on to it found a claim of its own
process, or of one that is gone. A call that returns an existing claim with
its own owner ID returns a claim of its own process. -/
def Undisturbed (p : Nat) (s : ClaimStore) : ClaimOp → Prop
  | .unlink seen release => (s.claim = none ∨ s.claim = seen)
      ∧ (release = true → ∀ file ∈ seen, ∀ w ∈ file.writer, w = p ∨ w ∈ s.machine.dead)
  | .returned _ existing => ∀ file ∈ existing, file.writer = some p
  | _ => True

/-! ## 2. The argument -/

/-- `p` has the claim under `owner_id`. -/
def Has (s : ClaimStore) (p : Nat) (owner_id : String) : Prop :=
  ∃ file, s.claim = some file ∧ file.writer = some p ∧ file.owner_id = some (.str owner_id)

structure ClaimsSound (plat : Platform) (s : ClaimStore) : Prop where
  genuine : ∀ file ∈ s.claim, plat.Genuine s.machine file
  held : ∀ h ∈ s.holders, h.1 ∉ s.machine.dead → Has s h.1 h.2

/-- What a process promises of its operations. -/
def Careful (plat : Platform) (p : Nat) (s : ClaimStore) : ClaimOp → Prop
  | .publish payload => plat.Wrote p payload
  | .unlink _ _ => ∀ file ∈ s.claim, ∀ w ∈ file.writer, w ∈ s.machine.dead
      ∨ (w = p ∧ ∀ owner_id, (p, owner_id) ∈ s.holders → file.owner_id ≠ some (.str owner_id))
  | .returned owner_id _ => Has s p owner_id
  | _ => True

/-- What the others leave of what `p` knows. -/
structure Unharmed (p : Nat) (s t : ClaimStore) : Prop where
  born : ∀ w, w ∈ s.machine.born → w ∈ t.machine.born
  dead : ∀ w, w ∈ s.machine.dead → w ∈ t.machine.dead
  alive : p ∉ s.machine.dead → p ∉ t.machine.dead
  mine : p ∉ s.machine.dead → ∀ file, s.claim = some file → file.writer = some p →
    t.claim = some file
  holders : ∀ owner_id, (p, owner_id) ∈ t.holders ↔ (p, owner_id) ∈ s.holders

theorem Unharmed.refl (p : Nat) (s : ClaimStore) : Unharmed p s s :=
  ⟨fun _ h => h, fun _ h => h, fun h => h, fun _ _ h _ => h, fun _ => Iff.rfl⟩

theorem Unharmed.trans (h : Unharmed p s t) (h' : Unharmed p t u) : Unharmed p s u where
  born w hw := h'.born w (h.born w hw)
  dead w hw := h'.dead w (h.dead w hw)
  alive hp := h'.alive (h.alive hp)
  mine hp file hfile hwriter := h'.mine (h.alive hp) file (h.mine hp file hfile hwriter) hwriter
  holders owner_id := (h'.holders owner_id).trans (h.holders owner_id)

/-! ### One operation -/

/-- What an operation does to the claim and the holders. -/
inductive ClaimEffect (p : Nat) (s : ClaimStore) : ClaimOp → ClaimStore → Prop where
  | quiet {o : ClaimOp} : ClaimEffect p s o { s with machine := s.machine.acts p }
  | published {payload : Payload} (hfree : s.claim = none) :
      ClaimEffect p s (.publish payload)
        { s with
          machine := s.machine.acts p
          claim := some { content := .record payload, writer := some p } }
  | unlinked {seen : Option OwnedFile} {release : Bool} :
      ClaimEffect p s (.unlink seen release)
        { s with machine := s.machine.acts p, claim := none }
  | returned {owner_id : String} {existing : Option OwnedFile} :
      ClaimEffect p s (.returned owner_id existing)
        { s with machine := s.machine.acts p, holders := (p, owner_id) :: s.holders }
  | releasing {owner_id : String} :
      ClaimEffect p s (.releasing owner_id)
        { s with
          machine := s.machine.acts p
          holders := s.holders.filter (· ≠ (p, owner_id)) }

theorem performClaim_effect (plat : Platform) (p : Nat) (s : ClaimStore) (o : ClaimOp) :
    ClaimEffect p s o (performClaim plat p s o).1 := by
  cases o with
  | publish payload =>
      cases hfree : s.claim with
      | none =>
          have heq : (performClaim plat p s (.publish payload)).1
              = { s with
                  machine := s.machine.acts p
                  claim := some { content := .record payload, writer := some p } } := by
            simp only [performClaim, ClaimStore.apply, hfree]
          exact heq ▸ .published hfree
      | some file =>
          have heq : (performClaim plat p s (.publish payload)).1
              = { s with machine := s.machine.acts p } := by
            simp only [performClaim, ClaimStore.apply, hfree]
          exact heq ▸ .quiet
  | unlink seen release => exact .unlinked
  | returned owner_id existing => exact .returned
  | releasing owner_id => exact .releasing
  | _ => exact .quiet

theorem sound_effect {o : ClaimOp} (h : ClaimsSound plat s) (heffect : ClaimEffect p s o t)
    (hcareful : Careful plat p s o) : ClaimsSound plat t := by
  have hborn : ∀ w, w ∈ s.machine.born → w ∈ (s.machine.acts p).born := fun w hw =>
    Machine.mem_born_acts.mpr (.inr hw)
  cases heffect with
  | quiet => exact ⟨fun file hfile => (h.genuine file hfile).mono hborn, h.held⟩
  | @published payload hfree =>
      refine ⟨fun file hfile w hw => ?_, fun holder hholder hdead => ?_⟩
      · cases hfile
        cases hw
        exact ⟨Machine.mem_born_acts.mpr (.inl rfl), payload, rfl, hcareful⟩
      · obtain ⟨file, hfile, -⟩ := h.held holder hholder hdead
        rw [hfree] at hfile
        cases hfile
  | unlinked =>
      refine ⟨(fun _ hfile => nomatch hfile), fun holder hholder hdead => ?_⟩
      obtain ⟨file, hfile, hwriter, howner⟩ := h.held holder hholder hdead
      rcases hcareful file hfile holder.1 hwriter with hgone | ⟨hmine, hnone⟩
      · exact absurd hgone hdead
      · have hheld : (p, holder.2) ∈ s.holders := hmine ▸ hholder
        exact absurd howner (hnone holder.2 hheld)
  | @returned owner_id existing =>
      refine ⟨fun file hfile => (h.genuine file hfile).mono hborn, fun holder hholder hdead => ?_⟩
      rcases List.mem_cons.mp hholder with rfl | hold
      · exact hcareful
      · exact h.held holder hold hdead
  | releasing =>
      refine ⟨fun file hfile => (h.genuine file hfile).mono hborn, fun holder hholder hdead => ?_⟩
      exact h.held holder (List.mem_filter.mp hholder).1 hdead

theorem unharmed_effect {o : ClaimOp} (hne : q ≠ p)
    (heffect : ClaimEffect q s o t) (hcareful : Careful plat q s o) : Unharmed p s t := by
  have hborn : ∀ w, w ∈ s.machine.born → w ∈ (s.machine.acts q).born := fun w hw =>
    Machine.mem_born_acts.mpr (.inr hw)
  cases heffect with
  | quiet => exact ⟨hborn, fun _ h => h, fun h => h, fun _ _ h _ => h, fun _ => Iff.rfl⟩
  | published hfree =>
      refine ⟨hborn, fun _ h => h, fun h => h, fun _ file hfile _ => ?_, fun _ => Iff.rfl⟩
      rw [hfree] at hfile
      cases hfile
  | unlinked =>
      refine ⟨hborn, fun _ h => h, fun h => h, fun hp file hfile hwriter => ?_, fun _ => Iff.rfl⟩
      rcases hcareful file hfile p hwriter with hgone | ⟨hmine, -⟩
      · exact absurd hgone hp
      · exact absurd hmine.symm hne
  | returned =>
      refine ⟨hborn, fun _ h => h, fun h => h, fun _ _ h _ => h, fun owner_id => ?_⟩
      simp [hne.symm]
  | releasing =>
      refine ⟨hborn, fun _ h => h, fun h => h, fun _ _ h _ => h, fun owner_id => ?_⟩
      simp [hne.symm]

/-- The rely/guarantee argument for claims. -/
def claiming (plat : Platform) (py : Interp) (run_id : String) :
    Discipline (claimSystem py run_id plat) where
  Inv := ClaimsSound plat
  Idle p s := p ∉ s.machine.dead
  Ok := Undisturbed
  Rely := Unharmed
  Guar := Careful plat
  rely_refl := Unharmed.refl
  rely_trans := Unharmed.trans
  idle_rely h := h.alive
  guar_inv h _ hcareful := sound_effect h (performClaim_effect plat _ _ _) hcareful
  guar_rely hne _ _ hcareful := unharmed_effect hne (performClaim_effect plat _ _ _) hcareful
  died_inv {p s} h := by
    refine ⟨fun file hfile => h.genuine file hfile, fun holder hholder hdead => ?_⟩
    exact h.held holder hholder fun hgone => hdead (Machine.mem_dead_dies.mpr (.inr hgone))
  died_rely {p q s} hne _ := by
    refine ⟨fun _ h => h, fun w hw => Machine.mem_dead_dies.mpr (.inr hw), fun hp hdead => ?_,
      fun _ _ h _ => h, fun _ => Iff.rfl⟩
    rcases Machine.mem_dead_dies.mp hdead with heq | hgone
    · exact hne heq.symm
    · exact hp hgone

/-! ## 3. What the calls promise -/

section Calls

variable {α : Type} {Q : α → ClaimStore → Prop} {J : ClaimStore → Prop} {owner_id : String}

/-- Running, and so far unharmed. -/
abbrev AliveWp (plat : Platform) (py : Interp) (run_id : String) (p : Nat)
    (prog : ClaimProg α) (s : ClaimStore) : Prop :=
  (claiming plat py run_id).Wp p prog (fun _ s => p ∉ s.machine.dead) s

theorem stable_alive : (claiming plat py run_id).Stable p fun s => p ∉ s.machine.dead :=
  fun hr h => hr.alive h

/-- What a process knows of a file that it read: it is genuine, and if the
process wrote it, it is still there. -/
def Seen (plat : Platform) (p : Nat) (file : Option OwnedFile) (s : ClaimStore) : Prop :=
  p ∉ s.machine.dead
    ∧ ∀ f ∈ file, plat.Genuine s.machine f ∧ (f.writer = some p → s.claim = some f)

theorem stable_seen {file : Option OwnedFile} :
    (claiming plat py run_id).Stable p (Seen plat p file) := by
  rintro s t hr ⟨halive, hfile⟩
  refine ⟨hr.alive halive, fun f hf => ?_⟩
  obtain ⟨hgenuine, hmine⟩ := hfile f hf
  exact ⟨hgenuine.mono hr.born, fun hwriter => hr.mine halive f (hmine hwriter) hwriter⟩

/-- The process of the file is gone. -/
def Gone (p : Nat) (file : Option OwnedFile) (s : ClaimStore) : Prop :=
  p ∉ s.machine.dead ∧ ∀ f ∈ file, ∀ w ∈ f.writer, w ∈ s.machine.dead

theorem stable_gone {file : Option OwnedFile} :
    (claiming plat py run_id).Stable p (Gone p file) :=
  fun hr h => ⟨hr.alive h.1, fun f hf w hw => hr.dead w (h.2 f hf w hw)⟩

theorem wp_takeOver {file : Option OwnedFile} {next : Unit → ClaimProg α} (h : Gone p file s)
    (hnext : ∀ s, p ∉ s.machine.dead → (claiming plat py run_id).Wp p (next ()) Q s) :
    (claiming plat py run_id).Wp p (.call (.unlink file false) next) Q s := by
  refine Discipline.Wp.call stable_gone h fun s hs _ hok => ⟨fun f hf w hw => .inl ?_, ?_⟩
  · rcases hok.1 with hnone | hseen
    · rw [hnone] at hf
      cases hf
    · exact hs.2 f (hseen ▸ hf) w hw
  · exact hnext _ hs.1

theorem wp_look {next : Option OwnedFile → ClaimProg α} (h : p ∉ s.machine.dead)
    (hnext : ∀ file s, Seen plat p file s → (claiming plat py run_id).Wp p (next file) Q s) :
    (claiming plat py run_id).Wp p (.call .read next) Q s := by
  refine Discipline.Wp.call stable_alive h fun s hs hinv _ => ⟨trivial, hnext s.claim _ ?_⟩
  exact ⟨hs, fun f hf => ⟨(hinv.genuine f hf).mono fun w hw =>
    Machine.mem_born_acts.mpr (.inr hw), fun _ => hf⟩⟩

theorem wp_judge {file : OwnedFile} {existing : Payload}
    {next : Except PyError Bool → ClaimProg α} (h : Seen plat p (some file) s)
    (hcontent : file.content = .record existing ∨ existing = [])
    (herror : ∀ exc s, p ∉ s.machine.dead → (claiming plat py run_id).Wp p (next (.error exc)) Q s)
    (hdead : ∀ s, Gone p (some file) s → (claiming plat py run_id).Wp p (next (.ok false)) Q s)
    (halive : ∀ s, Seen plat p (some file) s →
      (claiming plat py run_id).Wp p (next (.ok true)) Q s) :
    (claiming plat py run_id).Wp p (.call (.alive existing) next) Q s := by
  refine Discipline.Wp.call stable_seen h fun s hs _ _ => ⟨trivial, ?_⟩
  have hreply : ((claimSystem py run_id plat).perform p s (.alive existing)).2
      = ownerAlive (plat.os (s.machine.acts p) p) existing := rfl
  rw [hreply]
  cases hjudged : ownerAlive (plat.os (s.machine.acts p) p) existing with
  | error exc => exact herror exc _ hs.1
  | ok alive =>
      cases alive with
      | false =>
          have hrecord : file.content = .record existing := by
            rcases hcontent with hrecord | rfl
            · exact hrecord
            · cases hjudged
          have hgone := (hs.2 file rfl).1.gone hrecord hjudged
          refine hdead _ ⟨hs.1, fun f hf => ?_⟩
          obtain rfl := Option.mem_some.mp hf
          exact hgone
      | true =>
          exact halive _ ⟨hs.1, fun g hg => ⟨(hs.2 g hg).1.mono fun w hw =>
            Machine.mem_born_acts.mpr (.inr hw), (hs.2 g hg).2⟩⟩

theorem wp_attempts {payload : Payload} (hwrote : plat.Wrote p payload)
    (howner : Json.lookup "owner_id" payload = some (.str owner_id)) (attempts : Nat)
    (h : p ∉ s.machine.dead) :
    AliveWp plat py run_id p (acquireAttempts py run_id owner_id payload attempts) s := by
  induction attempts generalizing s with
  | zero => exact h
  | succ attempts ih =>
      simp only [acquireAttempts, Task.bind_ask]
      refine Discipline.Wp.call stable_alive h fun s hs _ _ => ⟨hwrote, ?_⟩
      cases hfree : s.claim with
      | none =>
          have hperform : (claimSystem py run_id plat).perform p s (.publish payload)
              = ({ s with
                  machine := s.machine.acts p
                  claim := some { content := .record payload, writer := some p } }, true) := by
            change performClaim plat p s (.publish payload) = _
            simp only [performClaim, ClaimStore.apply, hfree]
          rw [hperform]
          have hstable : (claiming plat py run_id).Stable p fun s =>
              p ∉ s.machine.dead ∧ Has s p owner_id := by
            rintro s t hr ⟨halive, file, hfile, hwriter, hid⟩
            exact ⟨hr.alive halive, file, hr.mine halive file hfile hwriter, hwriter, hid⟩
          exact Discipline.Wp.call hstable ⟨hs, _, rfl, rfl, howner⟩ fun s hs _ _ => ⟨hs.2, hs.1⟩
      | some existing =>
          have hperform : (claimSystem py run_id plat).perform p s (.publish payload)
              = ({ s with machine := s.machine.acts p }, false) := by
            change performClaim plat p s (.publish payload) = _
            simp only [performClaim, ClaimStore.apply, hfree]
          rw [hperform]
          refine wp_look hs fun file s hseen => ?_
          cases hread : readJsonObject (file.map (·.content)) with
          | error exc => exact hseen.1
          | ok payload? =>
              cases payload? with
              | none =>
                  have hnone : file = none := readJsonObject_none hread
                  subst hnone
                  exact wp_takeOver ⟨hseen.1, (fun _ hf => nomatch hf)⟩ fun s hs => ih hs
              | some existing =>
                  obtain ⟨f, rfl, hcontent⟩ := readJsonObject_some hread
                  refine wp_judge hseen hcontent (fun exc s hs => hs)
                    (fun s hgone => wp_takeOver hgone fun s hs => ih hs) fun s hseen => ?_
                  dsimp only
                  split
                  · rename_i hid
                    have hrecord : f.owner_id = some (.str owner_id) := by
                      rcases hcontent with hrecord | rfl
                      · rw [OwnedFile.owner_id, hrecord]
                        exact hid
                      · cases hid
                    refine Discipline.Wp.call (o := ClaimOp.returned owner_id (some f))
                      stable_seen hseen fun s hs _ hok => ⟨?_, hs.1⟩
                    have hwriter : f.writer = some p := hok f rfl
                    exact ⟨f, (hs.2 f rfl).2 hwriter, hwriter, hrecord⟩
                  · exact hseen.1

theorem lookup_claimPayload (owner_id : String) (created_at : PyFloat) (self : Self) :
    Json.lookup "owner_id" (claimPayload owner_id created_at self) = some (.str owner_id)
      ∧ Json.lookup "host" (claimPayload owner_id created_at self) = some (.str self.hostname)
      ∧ Json.lookup "pid" (claimPayload owner_id created_at self) = some (.int self.pid)
      ∧ Json.lookup "process_start_token" (claimPayload owner_id created_at self)
        = self.identity.map fun identity => .str identity.2 := by
  cases hidentity : self.identity <;> simp [claimPayload, hidentity, Json.lookup]

theorem wrote_claimPayload {created_at : PyFloat} (h : p ∉ s.machine.dead) :
    plat.Wrote p (claimPayload owner_id created_at (performClaim plat p s .self).2) := by
  obtain ⟨-, hhost, hpid, htoken⟩ :=
    lookup_claimPayload owner_id created_at (performClaim plat p s .self).2
  refine ⟨hhost, hpid, fun recorded hrecorded => .inr ?_⟩
  rw [htoken, Option.map_eq_some_iff] at hrecorded
  obtain ⟨⟨state, token⟩, hidentity, hrecorded⟩ := hrecorded
  have hrun : (s.machine.acts p).Running p := ⟨Machine.mem_born_acts.mpr (.inl rfl), h⟩
  cases hrecorded
  exact Platform.self_token hrun hidentity

theorem wp_acquireClaim {created_at : PyFloat} (h : p ∉ s.machine.dead) :
    AliveWp plat py run_id p (acquireClaim py run_id owner_id created_at) s := by
  unfold acquireClaim
  split
  · exact h
  · rw [Task.bind_ask]
    refine Discipline.Wp.call stable_alive h fun s hs hinv _ => ⟨trivial, ?_⟩
    exact wp_attempts (wrote_claimPayload hs) (lookup_claimPayload _ _ _).1 2 hs

theorem wp_releaseClaim (h : p ∉ s.machine.dead) :
    AliveWp plat py run_id p (releaseClaim run_id owner_id) s := by
  unfold releaseClaim
  split
  · exact h
  · simp only [Task.bind_ask]
    refine Discipline.Wp.call stable_alive h fun s hs _ _ => ⟨trivial, ?_⟩
    have hstable : (claiming plat py run_id).Stable p fun s =>
        p ∉ s.machine.dead ∧ (p, owner_id) ∉ s.holders :=
      fun hr h => ⟨hr.alive h.1, fun hin => h.2 ((hr.holders owner_id).mp hin)⟩
    have hfree : (p, owner_id) ∉ (s.holders.filter (· ≠ (p, owner_id))) := by simp
    refine Discipline.Wp.call hstable ⟨hs, hfree⟩ fun s hs _ _ => ⟨trivial, ?_⟩
    have hreply : ((claimSystem py run_id plat).perform p s .read).2 = s.claim := rfl
    rw [hreply]
    cases hread : readJsonObject (s.claim.map (·.content)) with
    | error exc => exact hs.1
    | ok payload? =>
        cases payload? with
        | none => exact hs.1
        | some existing =>
            dsimp only
            split
            · exact hs.1
            · rename_i hid
              obtain ⟨f, hf, hcontent⟩ := readJsonObject_some hread
              have howner : f.owner_id = some (.str owner_id) := by
                rcases hcontent with hrecord | rfl
                · rw [OwnedFile.owner_id, hrecord]
                  exact not_not.mp hid
                · exact absurd (not_not.mp hid) (fun h => nomatch h)
              refine Discipline.Wp.call hstable hs fun s' hs' _ hok => ⟨fun g hg w hw => ?_, hs'.1⟩
              have hseen : s.claim = some g := by
                rcases hok.1 with hnone | hseen
                · rw [hnone] at hg
                  cases hg
                · exact hseen.symm.trans hg
              rcases hok.2 rfl g hseen w hw with hmine | hgone
              · refine .inr ⟨hmine, fun owner hheld hother => hs'.2 ?_⟩
                rw [hf, Option.some.injEq] at hseen
                rw [← hseen, howner, Option.some.injEq, Json.str.injEq] at hother
                exact hother ▸ hheld
              · exact .inl hgone

theorem wp_claimOwner (h : p ∉ s.machine.dead) : AliveWp plat py run_id p (claimOwner run_id) s := by
  unfold claimOwner
  split
  · exact h
  · simp only [Task.bind_ask]
    refine wp_look h fun file s hseen => ?_
    cases hread : readJsonObject (file.map (·.content)) with
    | error exc => exact hseen.1
    | ok payload? =>
        cases payload? with
        | none => exact hseen.1
        | some existing =>
            obtain ⟨f, rfl, hcontent⟩ := readJsonObject_some hread
            refine wp_judge hseen hcontent (fun exc s hs => hs)
              (fun s hgone => wp_takeOver hgone fun s hs => hs) fun s hseen => ?_
            dsimp only
            split <;> exact hseen.1

end Calls

theorem wp_claimJob (job : ClaimJob) (h : p ∉ s.machine.dead) :
    AliveWp plat py run_id p (job.prog py run_id) s := by
  cases job with
  | acquire owner_id created_at => exact (wp_acquireClaim h).forget
  | release owner_id => exact (wp_releaseClaim h).forget
  | owner => exact (wp_claimOwner h).forget

/-! ## 4. Runs -/

/-- Every call of a run finds what it looked at. -/
def Orderly (py : Interp) (run_id : String) (plat : Platform) (content : Option FileContent)
    (actions : List (Action ClaimJob)) : Prop :=
  Runs.RunOk (claimSystem py run_id plat).step (claiming plat py run_id).StepOk
    (claimStart content) actions

theorem claims_safe {content : Option FileContent} {actions : List (Action ClaimJob)}
    (h : Orderly py run_id plat content actions) (k : Nat) :
    (claiming plat py run_id).Safe
      ((claimSystem py run_id plat).run (claimStart content) (actions.take k)) := by
  have hstart : (claiming plat py run_id).Safe (claimStart content) := by
    refine ⟨⟨fun file hfile w hw => ?_, (fun _ h => nomatch h)⟩, fun p h => nomatch h⟩
    obtain ⟨c, -, rfl⟩ := Option.map_eq_some_iff.mp hfile
    cases hw
  exact Discipline.run (fun job p s _ hidle => wp_claimJob job hidle) hstart h k

theorem respected_step {w : World ClaimOp ClaimOp.Reply ClaimStore} {action : Action ClaimJob}
    (h : (claiming plat py run_id).Safe w) (hok : (claiming plat py run_id).StepOk w action) :
    Respected w.state ((claimSystem py run_id plat).step w action).state action := by
  intro file hfile writer hwriter hrun
  have hkept : ∀ {t}, Unharmed writer w.state t → t.claim = some file := fun hr =>
    hr.mine hrun.2 file hfile hwriter
  cases (claimSystem py run_id plat).effect w action with
  | quiet heq =>
      rw [heq]
      exact .inl hfile
  | died heq =>
      rw [heq]
      exact .inl hfile
  | @call p o next hslot heq =>
      rw [heq]
      by_cases hp : p = writer
      · exact .inr (hp ▸ rfl)
      · have hcalled : Undisturbed p w.state o := hok o next hslot
        exact .inl (hkept ((claiming plat py run_id).guar_rely hp h.1 hcalled
          (h.guar hslot hcalled)))

/-- At most one live process holds the claim, in every state, and no step
takes the claim of a live process from it. -/
structure ClaimsExclude (py : Interp) (run_id : String) (plat : Platform)
    (content : Option FileContent) (actions : List (Action ClaimJob)) : Prop where
  exclusive : ∀ k, Exclusive (claimsAfter py run_id plat content (actions.take k))
  respected : ∀ k action, actions[k]? = some action →
    Respected (claimsAfter py run_id plat content (actions.take k))
      (claimsAfter py run_id plat content (actions.take (k + 1))) action

/-- **A claim excludes**, from any claim file left before, in every run whose
calls find what they looked at. -/
theorem claims_exclude (py : Interp) (run_id : String) (plat : Platform)
    (content : Option FileContent) (actions : List (Action ClaimJob))
    (h : Orderly py run_id plat content actions) :
    ClaimsExclude py run_id plat content actions where
  exclusive k holder hholder holder' hholder' hrun hrun' := by
    have hsound := (claims_safe h k).1
    obtain ⟨file, hfile, hwriter, -⟩ := hsound.held holder hholder hrun.2
    obtain ⟨file', hfile', hwriter', -⟩ := hsound.held holder' hholder' hrun'.2
    rw [hfile, Option.some.injEq] at hfile'
    rw [← hfile', hwriter, Option.some.injEq] at hwriter'
    exact hwriter'
  respected k action haction := by
    have hstep := h.get haction
    have hnext : claimsAfter py run_id plat content (actions.take (k + 1))
        = ((claimSystem py run_id plat).step
          ((claimSystem py run_id plat).run (claimStart content) (actions.take k)) action).state :=
      congrArg World.state (Runs.foldl_take_succ haction _)
    rw [hnext]
    exact respected_step (claims_safe h k) hstep

/-! ### Conditions that can be checked -/

instance : DecidablePred Exclusive := fun s =>
  inferInstanceAs (Decidable (∀ h ∈ s.holders, ∀ h' ∈ s.holders,
    s.machine.Running h.1 → s.machine.Running h'.1 → h.1 = h'.1))

instance (p : Nat) (s : ClaimStore) : DecidablePred (Undisturbed p s) := fun o =>
  match o with
  | .unlink seen release =>
      inferInstanceAs (Decidable ((s.claim = none ∨ s.claim = seen)
        ∧ (release = true → ∀ file ∈ seen, ∀ w ∈ file.writer, w = p ∨ w ∈ s.machine.dead)))
  | .returned _ existing =>
      inferInstanceAs (Decidable (∀ file ∈ existing, file.writer = some p))
  | .self | .publish _ | .read | .alive _ | .releasing _ => isTrue trivial

instance (py : Interp) (run_id : String) (plat : Platform) (content : Option FileContent) :
    DecidablePred (Orderly py run_id plat content) := fun actions =>
  have : ∀ p s o, Decidable ((claiming plat py run_id).Ok p s o) := fun p s o =>
    inferInstanceAs (Decidable (Undisturbed p s o))
  inferInstanceAs (Decidable (Runs.RunOk _ (claiming plat py run_id).StepOk (claimStart content)
    actions))

/-! ### Two processes that take over -/

theorem statless_running : ∀ (m : Machine) (_ q : Nat) (text : List Char) (state start : String), m.Running q →
    "host" = "host" → none = some text → statFields text = some (state, start) → state ≠ "Z" ∧ start = "" := by
  rintro m p q text state start hrun hhost ⟨⟩

/-- A host whose processes have the PIDs 1, 2, … and no stat files. -/
def plainPlatform : Platform where
  hostname _ := "host"
  pid p := p + 1
  start_time _ := ""
  boot_id _ := ""
  kill m _ pid := .ok (if m.Running (pid - 1).toNat then .delivered else .noSuchProcess)
  stat _ _ _ := none
  pid_pos p := by omega
  boot_host _ _ _ := rfl
  kill_running m _ q hrun _ := by
    have hpid : ((q : Int) + 1 - 1).toNat = q := by omega
    rw [hpid, if_pos hrun]
    exact fun h => nomatch h
  stat_running := statless_running

/-- A claim left by a process that is gone. -/
def staleClaim : FileContent :=
  .record [("owner_id", .str "headless:99:run"), ("pid", .int 99), ("host", .str "host")]

def call (p : Nat) (job : ClaimJob) (operations : Nat) : List (Action ClaimJob) :=
  .start p job :: List.replicate operations (.step p)

/-- One process takes over and releases, then another one claims. -/
def takeoverRun : List (Action ClaimJob) :=
  call 0 (.acquire "a" .zero) 7 ++ [.step 0] ++ call 0 (.release "a") 3
    ++ call 1 (.acquire "b" .zero) 3

theorem claims_exclude_takeover : Orderly plainInterp "run" plainPlatform staleClaim takeoverRun
    ∧ ClaimsExclude plainInterp "run" plainPlatform staleClaim takeoverRun :=
  have h : Orderly plainInterp "run" plainPlatform staleClaim takeoverRun := by decide
  ⟨h, claims_exclude plainInterp "run" plainPlatform staleClaim takeoverRun h⟩

/-- Both processes find the stale claim; the second takes over while the first
is about to unlink. -/
def racedRun : List (Action ClaimJob) :=
  call 0 (.acquire "a" .zero) 4
    ++ call 1 (.acquire "b" .zero) 7
    ++ List.replicate 3 (.step 0)

/-- **Two live processes have acquired the claim.** -/
theorem not_exclusive_raced :
    ¬ Exclusive (claimsAfter plainInterp "run" plainPlatform staleClaim racedRun) := by
  decide

end Agenthicc.Runners
