/-
Agenthicc.Worktrees.PreservationTheorems — what the calls of the worktree
manager may destroy.

Of all git commands of the manager only the deletion of a branch takes
anything away from what leads to a commit (`kept_effect`), and only a forced
removal of a worktree could take changes away. `StepKeeps` is the exact
condition, on the deletions alone.

  §1  commits and what carries them
  §2  the property
  §3  commands
  §4  the programs of the calls
  §5  runs
-/
import Agenthicc.Worktrees.Manager

namespace Agenthicc.Worktrees.Git

open Python Tasks Runs

/-! ## 1. Commits -/

theorem Carries.trans {commits : List Commit} {a b c : Nat} (h : Carries commits a b) (hc : Carries commits b c) :
    Carries commits a c := by
  induction h with
  | refl a => exact hc
  | parent hk hp _ ih => exact .parent hk hp (ih hc)
  | copy hk ho _ ih => exact .copy hk ho (ih hc)

theorem Carries.append {commits : List Commit} (new : List Commit) {a c : Nat} (h : Carries commits a c) :
    Carries (commits ++ new) a c := by
  have hget : ∀ {a : Nat} {k : Commit}, commits[a]? = some k → (commits ++ new)[a]? = some k := by
    intro a k hk
    rw [List.getElem?_append_left (List.getElem?_eq_some_iff.mp hk).1, hk]
  induction h with
  | refl a => exact .refl a
  | parent hk hp _ ih => exact .parent (hget hk) hp ih
  | copy hk ho _ ih => exact .copy (hget hk) ho ih

theorem carries_of_reaches {commits : List Commit} {fuel a c : Nat} (h : reaches commits fuel a c = true) :
    Carries commits a c := by
  induction fuel generalizing a with
  | zero =>
      obtain rfl : a = c := by simpa [reaches] using h
      exact .refl a
  | succ fuel ih =>
      rw [reaches, Bool.or_eq_true] at h
      rcases h with h | h
      · obtain rfl : a = c := by simpa using h
        exact .refl a
      · cases hk : commits[a]? with
        | none => simp [hk] at h
        | some k =>
            rw [hk] at h
            obtain ⟨p, hp, hreach⟩ := List.any_eq_true.mp h
            exact .parent hk hp (ih hreach)

/-- Parents and originals are older than their commit. -/
def OlderFirst (commits : List Commit) : Prop :=
  ∀ i (hi : i < commits.length), ∀ p ∈ commits[i].parents ++ commits[i].copies, p < i

instance (commits : List Commit) : Decidable (OlderFirst commits) := by
  unfold OlderFirst
  infer_instance

theorem Carries.le {commits : List Commit} (holder : OlderFirst commits) {a c : Nat}
    (h : Carries commits a c) : c ≤ a := by
  have hlt : ∀ {a p : Nat} {k : Commit}, commits[a]? = some k → p ∈ k.parents ++ k.copies → p < a := by
    intro a p k hk hp
    obtain ⟨ha, rfl⟩ := List.getElem?_eq_some_iff.mp hk
    exact holder a ha p hp
  induction h with
  | refl a => exact Nat.le_refl a
  | parent hk hp _ ih =>
      have hold := hlt hk (List.mem_append_left _ hp)
      omega
  | copy hk ho _ ih =>
      have hold := hlt hk (List.mem_append_right _ ho)
      omega

/-! ## 2. The property -/

/-- A branch that counts: the coordinator's, or a worker's. -/
def Site.Counts (s : Site) (b : String) : Prop := b = s.repo.main ∨ b ∈ s.workers

/-- Every commit that was the head of a worker branch is still carried by a
branch that counts. -/
def Kept (s : Site) : Prop :=
  ∀ c ∈ s.heads, ∃ b h, s.Counts b ∧ s.repo.head b = some h ∧ Carries s.repo.commits h c

/-- The branches that a `create` found are there. -/
def World.BranchesStay (w : World) : Prop :=
  ∀ r, w.running = some r → r.creating = true → ∀ b, r.before.head b ≠ none → w.site.repo.head b ≠ none

/-- No worker's work is lost. -/
structure World.Preserved (w : World) : Prop where
  kept : Kept w.site
  branches : w.BranchesStay

/-- No worktree with changes goes away. -/
def DirtyStay (r r' : Repo) : Prop :=
  ∀ k ∈ r.checkouts, k.dirty = true → r'.isCheckout k.path = true

/-- What a `create` found is exactly as it was. -/
def Undisturbed (before r r' : Repo) : Prop :=
  (∀ b, before.head b ≠ none → r'.head b = r.head b)
    ∧ ∀ k ∈ r.checkouts, before.isCheckout k.path = true → k ∈ r'.checkouts

/-- A step removes no worktree with changes, and as a step of a `create` it
leaves every branch and worktree that was there before the call as it is. -/
def World.StepSafe (cfg : Config) (outcomes : Nat → Outcome) (w : World) (a : Action) : Prop :=
  DirtyStay w.site.repo (w.step cfg outcomes a).site.repo ∧
    match a, w.running with
    | .git, some r => r.creating = true → Undisturbed r.before w.site.repo (w.step cfg outcomes .git).site.repo
    | _, _ => True

/-- Another branch that counts carries the head of the branch. -/
def CarriedElsewhere (s : Site) (b : String) : Prop :=
  ∀ c, s.repo.head b = some c → ∃ b' h, b' ≠ b ∧ s.Counts b' ∧ s.repo.head b' = some h ∧ Carries s.repo.commits h c

/-- The deletion of a branch that git does not refuse and that takes effect:
by a `create`, the branch was not there before the call; by a removal, its
head is carried elsewhere. -/
def World.StepKeeps (outcomes : Nat → Outcome) (w : World) : Action → Prop
  | .git => ∀ r b next, w.running = some r → r.task = .call (.deleteBranch b) next →
      w.site.repo.deletable b = true → (outcomes (w.site.calls + 1)).takes = true →
        if r.creating then r.before.head b = none else b ∈ w.site.workers → CarriedElsewhere w.site b
  | _ => True

/-! ## 3. Commands -/

section Commands

variable {s s' : Site} {o : Outcome}

/-- Every worker branch exists, and its head is one of the observed ones. -/
def WorkersKnown (s : Site) : Prop := ∀ b ∈ s.workers, ∃ h ∈ s.heads, s.repo.head b = some h

/-- The branches that count, their heads and the commits are the same. -/
structure SameRefs (s s' : Site) : Prop where
  head : s'.repo.head = s.repo.head
  main : s'.repo.main = s.repo.main
  commits : s.repo.commits <+: s'.repo.commits
  workers : s'.workers = s.workers
  heads : s'.heads = s.heads

theorem carries_of_added {commits commits' : List Commit} (hp : commits <+: commits') {a c : Nat}
    (h : Carries commits a c) : Carries commits' a c := by
  obtain ⟨new, rfl⟩ := hp
  exact h.append new

theorem SameRefs.kept (hs : SameRefs s s') (h : Kept s) : Kept s' := by
  intro c hc
  obtain ⟨b, x, hb, hx, hcarries⟩ := h c (hs.heads ▸ hc)
  refine ⟨b, x, ?_, hs.head ▸ hx, carries_of_added hs.commits hcarries⟩
  unfold Site.Counts at hb ⊢
  rwa [hs.main, hs.workers]

theorem SameRefs.known (hs : SameRefs s s') (h : WorkersKnown s) : WorkersKnown s' := by
  intro b hb
  obtain ⟨x, hx, hhead⟩ := h b (hs.workers ▸ hb)
  exact ⟨x, hs.heads ▸ hx, hs.head ▸ hhead⟩

variable {branch : String} {c : Nat} {r : Repo}

theorem kept_move (hhead : r.head = s.repo.head) (hmain : r.main = s.repo.main)
    (hcommits : s.repo.commits <+: r.commits)
    (hforward : ∀ h, s.repo.head branch = some h → Carries r.commits c h) (h : Kept s) :
    Kept (s.move r branch c) := by
  have hbranch : (s.move r branch c).repo.head branch = some c := Function.update_self ..
  intro x hx
  by_cases hnew : branch ∈ s.workers ∧ x = c
  · refine ⟨branch, c, .inr hnew.1, hbranch, ?_⟩
    rw [hnew.2]
    exact .refl c
  · have hold : x ∈ s.heads := by
      simp only [Site.move] at hx
      split at hx
      · rename_i hmem
        rcases List.mem_cons.mp hx with rfl | hx
        · exact absurd ⟨hmem, rfl⟩ hnew
        · exact hx
      · exact hx
    obtain ⟨b, y, hb, hy, hcarries⟩ := h x hold
    have hb' : (s.move r branch c).Counts b := by
      unfold Site.Counts at hb ⊢
      exact hb.imp_left fun heq => heq.trans hmain.symm
    by_cases heq : b = branch
    · subst heq
      exact ⟨b, c, hb', hbranch, (hforward y hy).trans (carries_of_added hcommits hcarries)⟩
    · refine ⟨b, y, hb', ?_, carries_of_added hcommits hcarries⟩
      change Function.update r.head branch (some c) b = some y
      rw [Function.update_of_ne heq, hhead]
      exact hy

theorem known_move (hhead : r.head = s.repo.head) (h : WorkersKnown s) : WorkersKnown (s.move r branch c) := by
  intro b hb
  have hb' : b ∈ s.workers := hb
  by_cases heq : b = branch
  · subst heq
    refine ⟨c, ?_, Function.update_self ..⟩
    simp [Site.move, hb']
  · obtain ⟨x, hx, hx'⟩ := h b hb'
    refine ⟨x, ?_, ?_⟩
    · simp only [Site.move]
      split
      · exact List.mem_cons_of_mem _ hx
      · exact hx
    · change Function.update r.head branch (some c) b = some x
      rw [Function.update_of_ne heq, hhead]
      exact hx'

theorem kept_moveNew {k : Commit} (hforward : ∀ h, s.repo.head branch = some h → h ∈ k.parents ++ k.copies)
    (h : Kept s) : Kept (s.moveNew branch k) := by
  refine kept_move rfl rfl (List.prefix_append _ _) (fun x hx => ?_) h
  have hget : (s.repo.commits ++ [k])[s.repo.commits.length]? = some k := by simp
  rcases List.mem_append.mp (hforward x hx) with hp | ho
  · exact .parent hget hp (.refl x)
  · exact .copy hget ho (.refl x)

theorem kept_newHead {base : Nat} {checkouts : List Checkout} (hnone : s.repo.head branch = none) (h : Kept s) :
    Kept (s.setRepo { s.repo.setHead branch (some base) with checkouts := checkouts }) := by
  intro x hx
  obtain ⟨b, y, hb, hy, hcarries⟩ := h x hx
  have hne : b ≠ branch := by
    intro heq
    rw [heq, hnone] at hy
    cases hy
  exact ⟨b, y, hb, (Function.update_of_ne hne ..).trans hy, hcarries⟩

theorem known_newHead {base : Nat} {checkouts : List Checkout} (hnone : s.repo.head branch = none)
    (h : WorkersKnown s) :
    WorkersKnown (s.setRepo { s.repo.setHead branch (some base) with checkouts := checkouts }) := by
  intro b hb
  obtain ⟨x, hx, hhead⟩ := h b hb
  have hne : b ≠ branch := by
    intro heq
    rw [heq, hnone] at hhead
    cases hhead
  exact ⟨x, hx, (Function.update_of_ne hne ..).trans hhead⟩

theorem mergeable_some {m x : Nat} (h : s.repo.mergeable branch = some (m, x)) :
    s.repo.head s.repo.main = some m := by
  unfold Repo.mergeable at h
  split at h
  · rename_i heq _
    cases h
    exact heq
  · cases h

theorem rebaseable_some {path onto : String} {x t : Nat} (h : s.repo.rebaseable path onto = some (branch, x, t)) :
    s.repo.head branch = some x := by
  unfold Repo.rebaseable at h
  split at h
  · split at h
    · rename_i heq _
      split at h
      · cases h
      · cases h
        exact heq
    · cases h
  · cases h

/-- The head of the coordinator branch or of a rebased branch moves forward. -/
theorem kept_merged {m x : Nat} (hm : s.repo.head s.repo.main = some m) (h : Kept s) : Kept (merged s m x) := by
  unfold merged
  split
  · exact h
  · split
    · rename_i hreach
      refine kept_move rfl rfl (List.prefix_refl _) (fun y hy => ?_) h
      obtain rfl : m = y := Option.some.inj (hm.symm.trans hy)
      exact carries_of_reaches hreach
    · refine kept_moveNew (fun y hy => ?_) h
      obtain rfl : m = y := Option.some.inj (hm.symm.trans hy)
      simp

theorem kept_rebased {x t : Nat} (hx : s.repo.head branch = some x) (h : Kept s) :
    Kept (rebased s branch x t) := by
  unfold rebased
  split
  · exact h
  · split
    · rename_i hreach
      refine kept_move rfl rfl (List.prefix_refl _) (fun y hy => ?_) h
      obtain rfl : x = y := Option.some.inj (hx.symm.trans hy)
      exact carries_of_reaches hreach
    · refine kept_moveNew (fun y hy => ?_) h
      obtain rfl : x = y := Option.some.inj (hx.symm.trans hy)
      simp

theorem known_merged {m x : Nat} (h : WorkersKnown s) : WorkersKnown (merged s m x) := by
  unfold merged
  split
  · exact h
  · split
    · exact known_move rfl h
    · exact known_move rfl h

theorem known_rebased {x t : Nat} (h : WorkersKnown s) : WorkersKnown (rebased s branch x t) := by
  unfold rebased
  split
  · exact h
  · split
    · exact known_move rfl h
    · exact known_move rfl h

theorem kept_handed (h : Kept s) : Kept (handed s branch) := by
  unfold handed
  split
  · rename_i y hhead
    intro x hx
    rcases List.mem_cons.mp hx with rfl | hx
    · exact ⟨branch, x, .inr List.mem_cons_self, hhead, .refl x⟩
    · obtain ⟨b, z, hb, hz, hcarries⟩ := h x hx
      exact ⟨b, z, hb.imp_right fun hw => List.mem_cons_of_mem _ hw, hz, hcarries⟩
  · exact h

theorem known_handed (h : WorkersKnown s) : WorkersKnown (handed s branch) := by
  unfold handed
  split
  · rename_i y hhead
    intro b hb
    rcases List.mem_cons.mp hb with rfl | hb
    · exact ⟨y, List.mem_cons_self, hhead⟩
    · obtain ⟨x, hx, hx'⟩ := h b hb
      exact ⟨x, List.mem_cons_of_mem _ hx, hx'⟩
  · exact h

/-- All that a command can do to the repository. -/
inductive Change (o : Outcome) (s : Site) : Op → Site → Prop where
  | same {op : Op} : Change o s op s
  | newBranch {path b : String} {base : Nat} (checkouts : List Checkout) (h : s.repo.head b = none)
      (hstay : s.repo.checkouts <+: checkouts)
      (hclean : ∀ k ∈ checkouts, k ∈ s.repo.checkouts ∨ k.dirty = false) :
      Change o s (.addBranch path b base)
        (s.setRepo { s.repo.setHead b (some base) with checkouts := checkouts })
  | newCheckout {path b : String} : Change o s (.add path b) (s.setRepo (s.repo.addCheckout path b))
  | removed {path : String} {force : Bool} (h : force = true ∨ s.repo.isDirty path = false) :
      Change o s (.removeWorktree path force) (s.setRepo (s.repo.removeCheckout path))
  | deleted {b : String} (h : s.repo.deletable b = true) (ho : o.takes = true) :
      Change o s (.deleteBranch b) (branchDeleted s b)
  | merged {b : String} {m x : Nat} (h : s.repo.head s.repo.main = some m) : Change o s (.merge b) (merged s m x)
  | mainDirty {op : Op} (dirty : Bool) : Change o s op (s.setRepo { s.repo with mainDirty := dirty })
  | rebased {path onto b : String} {x t : Nat} (h : s.repo.head b = some x) :
      Change o s (.rebase path onto) (rebased s b x t)
  | interrupted {path onto : String} (f : Checkout → Checkout) :
      Change o s (.rebase path onto) (s.setRepo (s.repo.modify path f))
  | aborted {path : String} (f : Checkout → Checkout) :
      Change o s (.rebaseAbort path) (s.setRepo (s.repo.modify path f))
  | handed {b : String} : Change o s (.hand b) (handed s b)

theorem change_effect (o : Outcome) (s : Site) (op : Op) : Change o s op (effect o s op) := by
  cases op with
  | addBranch path b base =>
      unfold effect
      dsimp only
      split
      · exact .same
      · rename_i hfree
        split
        · have hnone : s.repo.head b = none := by
            cases hhead : s.repo.head b <;> simp_all
          unfold branchAdded
          dsimp only
          split
          · refine .newBranch (s.repo.checkouts ++ [{ path := path, branch := b }]) hnone (List.prefix_append _ _)
              fun k hk => (List.mem_append.mp hk).imp_right fun hnew => ?_
            rw [List.mem_singleton.mp hnew]
          · exact .newBranch s.repo.checkouts hnone (List.prefix_refl _) fun k hk => .inl hk
        · exact .same
  | add path b =>
      unfold effect
      dsimp only
      split
      · exact .same
      · split
        · exact .newCheckout
        · exact .same
  | removeWorktree path force =>
      unfold effect
      dsimp only
      split
      · exact .same
      · rename_i hrefused
        split
        · refine .removed ?_
          cases force with
          | true => exact .inl rfl
          | false => exact .inr (by simpa using hrefused)
        · exact .same
  | deleteBranch b =>
      unfold effect
      dsimp only
      split
      · rename_i h
        rw [Bool.and_eq_true] at h
        exact .deleted h.1 h.2
      · exact .same
  | merge b =>
      change Change o s (.merge b) (mergeEffect o s b)
      unfold mergeEffect
      split
      · rename_i m x heq
        split
        · exact .merged (mergeable_some heq)
        · exact .mainDirty _
      · exact .same
  | mergeAbort =>
      unfold effect
      dsimp only
      split
      · exact .mainDirty _
      · exact .same
  | rebase path onto =>
      change Change o s (.rebase path onto) (rebaseEffect o s path onto)
      unfold rebaseEffect
      split
      · rename_i b x t heq
        split
        · exact .rebased (rebaseable_some heq)
        · split
          · exact .interrupted _
          · exact .same
      · exact .same
  | rebaseAbort path =>
      unfold effect
      dsimp only
      split
      · exact .aborted _
      · exact .same
  | hand b => exact .handed
  | _ => exact .same

theorem Change.kept {op : Op} (hc : Change o s op s') (hop : ∀ b, op ≠ .deleteBranch b) (h : Kept s) : Kept s' := by
  cases hc with
  | deleted => exact absurd rfl (hop _)
  | newBranch checkouts hnone => exact kept_newHead hnone h
  | merged hm => exact kept_merged hm h
  | rebased hx => exact kept_rebased hx h
  | handed => exact kept_handed h
  | _ => exact h

theorem known_branchDeleted (h : WorkersKnown s) : WorkersKnown (branchDeleted s branch) := by
  intro b hb
  obtain ⟨hb, hne⟩ := List.mem_filter.mp hb
  obtain ⟨x, hx, hhead⟩ := h b hb
  exact ⟨x, hx, (Function.update_of_ne (by simpa using hne) ..).trans hhead⟩

theorem Change.known {op : Op} (hc : Change o s op s') (h : WorkersKnown s) : WorkersKnown s' := by
  cases hc with
  | deleted => exact known_branchDeleted h
  | newBranch checkouts hnone => exact known_newHead hnone h
  | merged hm => exact known_merged h
  | rebased hx => exact known_rebased h
  | handed => exact known_handed h
  | _ => exact h

/-- A deletion keeps all heads exactly when another branch that counts
carries the head of the deleted one. -/
theorem kept_branchDeleted (hmain : branch ≠ s.repo.main) (hknown : WorkersKnown s) (h : Kept s) :
    Kept (branchDeleted s branch) ↔ (branch ∈ s.workers → CarriedElsewhere s branch) := by
  have hcounts : ∀ b, (branchDeleted s branch).Counts b ↔ s.Counts b ∧ b ≠ branch := by
    intro b
    unfold Site.Counts branchDeleted
    simp only [List.mem_filter, bne_iff_ne, ne_eq]
    constructor
    · intro hb
      rcases hb with rfl | hb
      · exact ⟨.inl rfl, fun heq => hmain heq.symm⟩
      · exact ⟨.inr hb.1, hb.2⟩
    · rintro ⟨hb, hne⟩
      exact hb.imp_right fun hw => ⟨hw, hne⟩
  have hhead : ∀ b, b ≠ branch → (branchDeleted s branch).repo.head b = s.repo.head b := fun b hne =>
    Function.update_of_ne hne ..
  constructor
  · intro hkept hworker c hc
    obtain ⟨x, hx, hx'⟩ := hknown branch hworker
    obtain rfl : x = c := Option.some.inj (hx'.symm.trans hc)
    obtain ⟨b, y, hb, hy, hcarries⟩ := hkept x hx
    obtain ⟨hb, hne⟩ := (hcounts b).mp hb
    exact ⟨b, y, hne, hb, (hhead b hne) ▸ hy, hcarries⟩
  · intro helse x hx
    obtain ⟨b, y, hb, hy, hcarries⟩ := h x hx
    by_cases heq : b = branch
    · subst heq
      have hworker : b ∈ s.workers := hb.resolve_left hmain
      obtain ⟨b', z, hne, hb', hz, hcarries'⟩ := helse hworker y hy
      exact ⟨b', z, (hcounts b').mpr ⟨hb', hne⟩, (hhead b' hne).trans hz, hcarries'.trans hcarries⟩
    · exact ⟨b, y, (hcounts b).mpr ⟨hb, heq⟩, (hhead b heq).trans hy, hcarries⟩

/-! ### Workers -/

theorem sameRefs_modify (path : String) (f : Checkout → Checkout) :
    SameRefs s (s.setRepo (s.repo.modify path f)) := ⟨rfl, rfl, List.prefix_refl _, rfl, rfl⟩

theorem kept_commit (path : String) (dirty : Bool) (h : Kept s) : Kept (commit s path dirty) := by
  unfold commit
  split
  · rename_i k _
    split
    · refine (sameRefs_modify path _).kept (kept_moveNew (fun x hx => ?_) h)
      simp [hx]
    · refine SameRefs.kept (s := s) ⟨rfl, rfl, List.prefix_append _ _, rfl, rfl⟩ h
  · exact h

theorem known_commit (path : String) (dirty : Bool) (h : WorkersKnown s) : WorkersKnown (commit s path dirty) := by
  unfold commit
  split
  · split
    · exact (sameRefs_modify path _).known (known_move rfl h)
    · exact SameRefs.known (s := s) ⟨rfl, rfl, List.prefix_append _ _, rfl, rfl⟩ h
  · exact h

/-! ### Branches and worktrees that stay -/

theorem move_head_ne_none {b : String} (hhead : r.head = s.repo.head) (h : s.repo.head b ≠ none) :
    (s.move r branch c).repo.head b ≠ none := by
  change Function.update r.head branch (some c) b ≠ none
  by_cases heq : b = branch
  · rw [heq, Function.update_self]
    exact Option.some_ne_none c
  · rw [Function.update_of_ne heq, hhead]
    exact h

theorem merged_head_ne_none {b : String} {m x : Nat} (h : s.repo.head b ≠ none) :
    (merged s m x).repo.head b ≠ none := by
  unfold merged
  split
  · exact h
  · split
    · exact move_head_ne_none rfl h
    · exact move_head_ne_none rfl h

theorem rebased_head_ne_none {b : String} {x t : Nat} (h : s.repo.head b ≠ none) :
    (rebased s branch x t).repo.head b ≠ none := by
  unfold rebased
  split
  · exact h
  · split
    · exact move_head_ne_none rfl h
    · exact move_head_ne_none rfl h

theorem commit_head_ne_none {b : String} (path : String) (dirty : Bool) (h : s.repo.head b ≠ none) :
    (commit s path dirty).repo.head b ≠ none := by
  unfold commit
  split
  · split
    · exact move_head_ne_none (s := s) rfl h
    · exact h
  · exact h

@[simp] theorem merged_checkouts (m x : Nat) : (merged s m x).repo.checkouts = s.repo.checkouts := by
  unfold merged
  split
  · rfl
  · split <;> rfl

@[simp] theorem rebased_checkouts (x t : Nat) : (rebased s branch x t).repo.checkouts = s.repo.checkouts := by
  unfold rebased
  split
  · rfl
  · split <;> rfl

@[simp] theorem handed_repo : (handed s branch).repo = s.repo := by
  unfold handed
  split <;> rfl

theorem isCheckout_iff {r : Repo} {path : String} :
    r.isCheckout path = true ↔ ∃ k ∈ r.checkouts, k.path = path := by
  simp [Repo.isCheckout]

theorem isCheckout_modify {r : Repo} {path p : String} {f : Checkout → Checkout} :
    (r.modify path f).isCheckout p = r.isCheckout p := by
  rw [Bool.eq_iff_iff, isCheckout_iff, isCheckout_iff]
  have hpath : ∀ k : Checkout, (if k.path = path then { f k with path := k.path } else k).path = k.path := by
    intro k
    split <;> rfl
  constructor
  · intro hk
    obtain ⟨k, hk, heq⟩ := hk
    obtain ⟨k₀, hk₀, rfl⟩ := List.mem_map.mp hk
    exact ⟨k₀, hk₀, (hpath k₀).symm.trans heq⟩
  · intro hk
    obtain ⟨k, hk, heq⟩ := hk
    exact ⟨_, List.mem_map_of_mem hk, (hpath k).trans heq⟩

theorem mem_setRepo_append {k : Checkout} {path b : String} (hk : k ∈ s.repo.checkouts) :
    k ∈ (s.setRepo (s.repo.addCheckout path b)).repo.checkouts := List.mem_append_left _ hk

theorem Change.isCheckout {op : Op} (hc : Change o s op s') {p : String}
    (hop : ∀ force, op ≠ .removeWorktree p force) (h : s.repo.isCheckout p = true) :
    s'.repo.isCheckout p = true := by
  obtain ⟨k, hk, heq⟩ := isCheckout_iff.mp h
  cases hc with
  | newBranch checkouts hnone hstay => exact isCheckout_iff.mpr ⟨k, hstay.subset hk, heq⟩
  | newCheckout => exact isCheckout_iff.mpr ⟨k, mem_setRepo_append hk, heq⟩
  | @removed path force =>
      refine isCheckout_iff.mpr ⟨k, List.mem_filter.mpr ⟨hk, ?_⟩, heq⟩
      have hne : p ≠ path := fun hp => hop force (hp ▸ rfl)
      simpa [heq] using hne
  | merged => rwa [Repo.isCheckout, merged_checkouts]
  | rebased => rwa [Repo.isCheckout, rebased_checkouts]
  | interrupted => exact isCheckout_modify.trans h
  | aborted => exact isCheckout_modify.trans h
  | handed => rwa [handed_repo]
  | _ => exact h

/-- No worktree with changes goes away, but by a forced removal. -/
theorem Change.dirtyStay {op : Op} (hc : Change o s op s')
    (hop : ∀ path, op = .removeWorktree path true → s.repo.isDirty path = false) : DirtyStay s.repo s'.repo := by
  intro k hk hdirty
  have hthere : s.repo.isCheckout k.path = true := isCheckout_iff.mpr ⟨k, hk, rfl⟩
  cases hc with
  | @removed path force h =>
      have hclean : s.repo.isDirty path = false := by
        cases h with
        | inl hforce => exact hop path (by rw [hforce])
        | inr hclean => exact hclean
      have hne : k.path ≠ path := by
        intro hpath
        have hisDirty : s.repo.isDirty path = true := by
          simp only [Repo.isDirty, List.any_eq_true, Bool.and_eq_true, beq_iff_eq]
          exact ⟨k, hk, hpath, hdirty⟩
        rw [hclean] at hisDirty
        cases hisDirty
      exact isCheckout_iff.mpr ⟨k, List.mem_filter.mpr ⟨hk, by simpa using hne⟩, rfl⟩
  | same => exact hthere
  | mainDirty => exact hthere
  | newBranch checkouts hnone hstay => exact isCheckout_iff.mpr ⟨k, hstay.subset hk, rfl⟩
  | newCheckout => exact isCheckout_iff.mpr ⟨k, mem_setRepo_append hk, rfl⟩
  | deleted => exact hthere
  | merged => rwa [Repo.isCheckout, merged_checkouts]
  | rebased => rwa [Repo.isCheckout, rebased_checkouts]
  | interrupted => exact isCheckout_modify.trans hthere
  | aborted => exact isCheckout_modify.trans hthere
  | handed => rwa [handed_repo]

/-- A command other than a deletion leaves every branch somewhere. -/
theorem Change.head_ne_none {op : Op} (hc : Change o s op s') (hop : ∀ b, op ≠ .deleteBranch b) {b : String}
    (h : s.repo.head b ≠ none) : s'.repo.head b ≠ none := by
  cases hc with
  | deleted => exact absurd rfl (hop _)
  | @newBranch path x base checkouts hnone =>
      have hne : b ≠ x := fun heq => h (heq ▸ hnone)
      exact fun heq => h ((Function.update_of_ne hne ..).symm.trans heq)
  | merged => exact merged_head_ne_none h
  | rebased => exact rebased_head_ne_none h
  | handed => rwa [handed_repo]
  | _ => exact h

end Commands
/-! ## 4. The programs of the calls -/

/-- A command that a `create` may run that found the repository `before`. -/
def CreateCommand (before : Repo) : Op → Prop
  | .removeWorktree path force => force = true ∧ before.isCheckout path = false
  | .merge _ | .mergeAbort | .rebase .. | .rebaseAbort _ | .hand _ => False
  | _ => True

def NoDeletion (op : Op) : Prop := ∀ b, op ≠ .deleteBranch b

def NoForce (op : Op) : Prop := ∀ path, op ≠ .removeWorktree path true

/-- What a reply says of the worktrees that were there before. -/
def ReplyOk (before : Repo) : (op : Op) → op.Reply → Prop
  | .pathExists path, r => r = false → before.isCheckout path = false
  | _, _ => True

/-- What is left of a `create`: after it has handed its worktree out it
deletes nothing any more. -/
def Careful (before : Repo) {α : Type} : Prog α → Prop
  | .done _ => True
  | .call (.hand _) next => ∀ r, Careful before (next r) ∧ (next r).Calls NoDeletion
  | .call op next => CreateCommand before op ∧ ∀ r, ReplyOk before op r → Careful before (next r)

section Programs

variable {α β : Type} {before : Repo}

theorem careful_call {op : Op} {next : op.Reply → Prog α} (hop : CreateCommand before op)
    (h : ∀ r, ReplyOk before op r → Careful before (next r)) : Careful before (Task.call op next) := by
  cases op with
  | hand b => exact absurd hop id
  | _ => exact ⟨hop, h⟩

theorem Careful.bind {t : Prog α} {f : α → Prog β} (ht : t.Calls (CreateCommand before))
    (hf : ∀ a, Careful before (f a)) : Careful before (t >>= f) := by
  induction t with
  | done a => exact hf a
  | call op next ih => exact careful_call ht.1 fun r _ => ih r (ht.2 r)

theorem careful_of_calls {t : Prog α} (ht : t.Calls (CreateCommand before)) : Careful before t := by
  induction t with
  | done a => trivial
  | call op next ih => exact careful_call ht.1 fun r _ => ih r (ht.2 r)

theorem Careful.forget {t : Prog α} (h : Careful before t) : Careful before t.forget := by
  induction t with
  | done a => trivial
  | call op next ih =>
      cases op with
      | hand b => exact fun r => ⟨ih r (h r).1, (h r).2.forget⟩
      | _ => exact ⟨h.1, fun r hr => ih r (h.2 r hr)⟩

theorem calls_andThen {P : Op → Prop} {t : Prog (Except PyError α)} {f : α → Prog (Except PyError β)}
    (h : t.Calls P) (hf : ∀ a, (f a).Calls P) : (andThen t f).Calls P := by
  refine Task.Calls.bind h fun r => ?_
  cases r with
  | ok a => exact hf a
  | error exc => trivial

theorem calls_rename {P : Op → Prop} {message : String} {t : Prog (Except PyError α)} (h : t.Calls P) :
    (rename message t).Calls P := by
  refine Task.Calls.bind h fun r => ?_
  cases r with
  | ok a => trivial
  | error exc => trivial

theorem careful_andThen {t : Prog (Except PyError α)} {f : α → Prog (Except PyError β)}
    (ht : t.Calls (CreateCommand before)) (hf : ∀ a, Careful before (f a)) : Careful before (andThen t f) := by
  refine Careful.bind ht fun r => ?_
  cases r with
  | ok a => exact hf a
  | error exc => trivial

theorem calls_plan (root : String) (args : CreateArgs) : (plan root args).Calls (CreateCommand before) := by
  refine calls_andThen ?_ fun base => Task.Calls.bind ?_ fun stable_id => ?_
  · unfold baseOf
    split
    · exact Task.Calls.ask trivial
    · exact calls_andThen (Task.Calls.ask trivial) fun head => Task.Calls.ask trivial
  · unfold stableId
    split
    · trivial
    · exact Task.Calls.ask trivial
  · dsimp only
    split
    · trivial
    · refine calls_andThen (calls_rename (Task.Calls.ask trivial)) fun valid => ?_
      split
      · trivial
      · trivial

theorem calls_ensureClean {P : Op → Prop} {cwd : Option String} (h : P (.isClean cwd)) :
    (ensureClean cwd).Calls P := by
  refine calls_andThen (Task.Calls.ask h) fun clean => ?_
  split
  · trivial
  · trivial

theorem careful_handOut (record : Record) : Careful before (handOut record) := fun _ => ⟨trivial, trivial⟩

theorem careful_readopt (p : Planned) : Careful before (readopt p) := by
  refine careful_andThen (calls_rename ?_) fun actual => ?_
  · exact calls_andThen (Task.Calls.ask trivial) fun root =>
      calls_andThen (Task.Calls.ask trivial) fun branch => trivial
  · split
    · trivial
    · exact careful_andThen (Task.Calls.ask trivial) fun head =>
        careful_andThen (Task.Calls.ask trivial) fun clean => careful_handOut _

theorem calls_addWorktree (p : Planned) : (addWorktree p).Calls (CreateCommand before) := by
  refine calls_andThen (calls_ensureClean trivial) fun _ =>
    calls_andThen (calls_rename (Task.Calls.ask trivial)) fun branch_exists => calls_andThen ?_ fun _ =>
      Task.Calls.ask trivial
  split
  · refine calls_andThen (Task.Calls.ask trivial) fun branch_head => ?_
    split
    · trivial
    · exact Task.Calls.ask trivial
  · exact Task.Calls.ask trivial

theorem calls_ignoring {P : Op → Prop} {t : Prog (Except PyError Bool)} (h : t.Calls P) : (ignoring t).Calls P :=
  calls_andThen h fun _ => trivial

theorem calls_removeAllocated {p : Planned} (hp : before.isCheckout p.record.path = false) :
    (removeAllocated p).Calls (CreateCommand before) := by
  refine Task.Calls.bind (Task.Calls.ask trivial) fun there => calls_andThen ?_ fun _ =>
    calls_ignoring (Task.Calls.ask trivial)
  split
  · exact calls_ignoring (Task.Calls.ask ⟨rfl, hp⟩)
  · trivial

/-- A `create` removes no worktree that was there before. -/
theorem careful_create (root : String) (args : CreateArgs) : Careful before (create root args) := by
  refine careful_andThen (calls_plan root args) fun p => careful_call trivial fun there hthere => ?_
  change Careful before (if there then readopt p else createNew p)
  split
  · exact careful_readopt p
  · rename_i hnew
    have hp : before.isCheckout p.record.path = false := hthere (by simpa using hnew)
    refine Careful.bind (calls_addWorktree p) fun r => ?_
    cases r with
    | ok head => exact careful_handOut _
    | error exc => exact careful_of_calls (calls_andThen (calls_removeAllocated hp) fun _ => trivial)

theorem noForce_of_ne {op : Op} (h : ∀ path force, op ≠ .removeWorktree path force) : NoForce op :=
  fun path => h path true

theorem calls_abandon {branch : String} {cwd : Option String} {abort : Prog (Except PyError Bool)}
    (h : abort.Calls NoForce) : (abandon branch cwd abort).Calls NoForce :=
  calls_andThen (Task.Calls.ask (noForce_of_ne (by simp))) fun conflicts => calls_andThen h fun _ => trivial

theorem calls_integrate (record : Record) (expected : Option String) : (integrate record expected).Calls NoForce := by
  refine calls_andThen (calls_ensureClean (noForce_of_ne (by simp))) fun _ =>
    Task.Calls.bind (Task.Calls.ask (noForce_of_ne (by simp))) fun isDir => ?_
  split
  · trivial
  · refine calls_andThen (Task.Calls.ask (noForce_of_ne (by simp))) fun current => ?_
    split
    · trivial
    · refine calls_andThen (Task.Calls.ask (noForce_of_ne (by simp))) fun ok => ?_
      split
      · exact calls_andThen (Task.Calls.ask (noForce_of_ne (by simp))) fun head => trivial
      · exact calls_abandon (Task.Calls.ask (noForce_of_ne (by simp)))

theorem calls_rebase (record : Record) (onto : String) : (rebase record onto).Calls NoForce := by
  refine calls_andThen (calls_ensureClean (noForce_of_ne (by simp))) fun _ => calls_andThen ?_ fun target =>
    calls_andThen (Task.Calls.ask (noForce_of_ne (by simp))) fun ok => ?_
  · unfold rebaseTarget
    split
    · trivial
    · exact Task.Calls.ask (noForce_of_ne (by simp))
  · split
    · exact calls_andThen (Task.Calls.ask (noForce_of_ne (by simp))) fun head => trivial
    · exact calls_abandon (Task.Calls.ask (noForce_of_ne (by simp)))

theorem calls_inspectClean (record : Record) : (inspectClean record).Calls NoForce := by
  have hother : ∀ op : Op, (∀ path force, op ≠ .removeWorktree path force) → (Task.ask op : Prog _).Calls NoForce :=
    fun op h => Task.Calls.ask (noForce_of_ne h)
  refine Task.Calls.bind (hother _ (by simp)) fun isDir => ?_
  split
  · trivial
  · exact calls_andThen (hother _ (by simp)) fun _ => calls_andThen (hother _ (by simp)) fun clean =>
      calls_andThen (hother _ (by simp)) fun _ => calls_andThen (hother _ (by simp)) fun _ =>
        calls_andThen (hother _ (by simp)) fun _ => trivial

theorem calls_remove (record : Record) : (remove record false).Calls NoForce := by
  refine calls_andThen ?_ fun _ => calls_andThen ?_ fun _ =>
    calls_andThen (calls_ignoring (Task.Calls.ask (noForce_of_ne (by simp)))) fun _ => trivial
  · refine calls_andThen (calls_inspectClean record) fun clean => ?_
    split
    · trivial
    · split
      · trivial
      · trivial
  · refine Task.Calls.bind (Task.Calls.ask (noForce_of_ne (by simp))) fun there => ?_
    split
    · refine calls_andThen (Task.Calls.ask fun path => by simp) fun ok => ?_
      split
      · trivial
      · trivial
    · trivial

theorem calls_recover (repository : String) : (recover repository).Calls NoForce := by
  refine calls_andThen (Task.Calls.ask (noForce_of_ne (by simp))) fun listed => ?_
  induction listed with
  | nil => trivial
  | cons k rest ih =>
      unfold recoverEach
      split
      · exact ih
      · exact calls_andThen (Task.Calls.ask (noForce_of_ne (by simp))) fun clean =>
          calls_andThen ih fun records => trivial

end Programs

/-! ## 5. Runs -/

/-- A `create` that is under way. -/
structure CreateOk (before : Repo) (task : Prog Unit) (s : Site) : Prop where
  there : ∀ path, before.isCheckout path = true → s.repo.isCheckout path = true
  clean : ∀ k ∈ s.repo.checkouts, k.dirty = true → before.isCheckout k.path = true
  workers : (∀ b ∈ s.workers, before.head b ≠ none) ∨ task.Calls NoDeletion
  careful : Careful before task

def RunningOk (r : Running) (s : Site) : Prop :=
  if r.creating then CreateOk r.before r.task s else r.task.Calls NoForce

structure World.Inv (w : World) : Prop where
  known : WorkersKnown w.site
  running : ∀ r, w.running = some r → RunningOk r w.site

variable {cfg : Config} {outcomes : Nat → Outcome}

theorem careful_head {before : Repo} {op : Op} {next : op.Reply → Prog Unit}
    (h : Careful before (Task.call op next)) : CreateCommand before op ∨ ∃ b, op = .hand b := by
  cases op with
  | hand b => exact .inr ⟨b, rfl⟩
  | _ => exact .inl h.1

theorem careful_next {before : Repo} {op : Op} {next : op.Reply → Prog Unit}
    (h : Careful before (Task.call op next)) (r : op.Reply) (hr : ReplyOk before op r) :
    Careful before (next r) := by
  cases op with
  | hand b => exact (h r).1
  | _ => exact h.2 r hr

/-- The commands of a `create` bring no changes into a worktree. -/
theorem Change.createClean {o : Outcome} {s s' : Site} {before : Repo} {op : Op} (hc : Change o s op s')
    (hop : CreateCommand before op ∨ ∃ b, op = .hand b) {k : Checkout} (hk : k ∈ s'.repo.checkouts)
    (hdirty : k.dirty = true) : k ∈ s.repo.checkouts := by
  cases hc with
  | same => exact hk
  | mainDirty => exact hk
  | newBranch checkouts hnone hstay hclean =>
      refine (hclean k hk).resolve_right ?_
      simp [hdirty]
  | newCheckout =>
      rcases List.mem_append.mp hk with hold | hnew
      · exact hold
      · rw [List.mem_singleton.mp hnew] at hdirty
        cases hdirty
  | removed => exact (List.mem_filter.mp hk).1
  | deleted => exact hk
  | merged => exact absurd hop (by simp [CreateCommand])
  | rebased => exact absurd hop (by simp [CreateCommand])
  | interrupted => exact absurd hop (by simp [CreateCommand])
  | aborted => exact absurd hop (by simp [CreateCommand])
  | handed => rwa [handed_repo] at hk

/-- What a command of a `create` leaves as it is; a deletion apart. -/
theorem Change.undisturbed {o : Outcome} {s s' : Site} {before : Repo} {op : Op} (hc : Change o s op s')
    (hop : CreateCommand before op ∨ ∃ b, op = .hand b) (hdelete : NoDeletion op)
    (hstay : ∀ b, before.head b ≠ none → s.repo.head b ≠ none) : Undisturbed before s.repo s'.repo := by
  cases hc with
  | same => exact ⟨fun _ _ => rfl, fun _ hk _ => hk⟩
  | mainDirty => exact ⟨fun _ _ => rfl, fun _ hk _ => hk⟩
  | @newBranch path x base checkouts hnone hfront =>
      refine ⟨fun b hb => ?_, fun k hk _ => hfront.subset hk⟩
      have hne : b ≠ x := fun heq => hstay b hb (heq ▸ hnone)
      exact Function.update_of_ne hne ..
  | newCheckout => exact ⟨fun _ _ => rfl, fun k hk _ => mem_setRepo_append hk⟩
  | @removed path force =>
      refine ⟨fun _ _ => rfl, fun k hk hbefore => List.mem_filter.mpr ⟨hk, ?_⟩⟩
      have hpath : before.isCheckout path = false := by
        rcases hop with hop | ⟨b, hb⟩
        · exact hop.2
        · cases hb
      have hne : k.path ≠ path := by
        intro heq
        rw [heq, hpath] at hbefore
        cases hbefore
      simpa using hne
  | deleted => exact absurd rfl (hdelete _)
  | merged => exact absurd hop (by simp [CreateCommand])
  | rebased => exact absurd hop (by simp [CreateCommand])
  | interrupted => exact absurd hop (by simp [CreateCommand])
  | aborted => exact absurd hop (by simp [CreateCommand])
  | handed => rw [handed_repo]; exact ⟨fun _ _ => rfl, fun _ hk _ => hk⟩

theorem Change.workers {o : Outcome} {s s' : Site} {op : Op} (hc : Change o s op s') (hop : ∀ b, op ≠ .hand b)
    {b : String} (hb : b ∈ s'.workers) : b ∈ s.workers := by
  have hmerged : ∀ m x, (Git.merged s m x).workers = s.workers := by
    intro m x
    unfold Git.merged
    split
    · rfl
    · split <;> rfl
  have hrebased : ∀ branch x t, (Git.rebased s branch x t).workers = s.workers := by
    intro branch x t
    unfold Git.rebased
    split
    · rfl
    · split <;> rfl
  cases hc with
  | deleted => exact (List.mem_filter.mp hb).1
  | merged => rwa [hmerged] at hb
  | rebased => rwa [hrebased] at hb
  | handed => exact absurd rfl (hop _)
  | _ => exact hb

theorem runningOk_git {s : Site} {r : Running} {op : Op} {next : op.Reply → Prog Unit}
    (htask : r.task = .call op next) (h : RunningOk r s) :
    RunningOk ⟨r.creating, r.before, next (perform outcomes s op).2⟩ (perform outcomes s op).1 := by
  have hc := change_effect (outcomes (s.calls + 1)) { s with calls := s.calls + 1 } op
  unfold RunningOk at h ⊢
  rw [htask] at h
  cases hcreating : r.creating with
  | false =>
      rw [hcreating] at h
      exact h.2 _
  | true =>
      rw [hcreating] at h
      have hhead := careful_head h.careful
      refine ⟨fun path hpath => ?_, fun k hk hdirty => ?_, ?_, ?_⟩
      · refine hc.isCheckout (fun force heq => ?_) (h.there path hpath)
        rcases hhead with hop | ⟨b, hb⟩
        · rw [heq] at hop
          have hpath : r.before.isCheckout path = true := hpath
          exact Bool.false_ne_true (hop.2.symm.trans hpath)
        · rw [hb] at heq
          cases heq
      · exact h.clean k (hc.createClean hhead hk hdirty) hdirty
      · rcases h.workers with hold | hno
        · by_cases hop : ∃ b, op = .hand b
          · obtain ⟨b, rfl⟩ := hop
            exact .inr (h.careful _).2
          · exact .inl fun b hb => hold b (hc.workers (fun x hx => hop ⟨x, hx⟩) hb)
        · exact .inr (hno.2 _)
      · refine careful_next h.careful _ ?_
        cases op with
        | pathExists path =>
            intro hfalse
            have hnot : s.repo.isCheckout path = false := by
              have hreply : (s.repo.isCheckout path || (outcomes (s.calls + 1)).leaves) = false := hfalse
              exact (Bool.or_eq_false_iff.mp hreply).1
            by_contra hbefore
            rw [h.there path (by simpa using hbefore)] at hnot
            cases hnot
        | _ => trivial

theorem commit_isCheckout {s : Site} {path p : String} {dirty : Bool} :
    (commit s path dirty).repo.isCheckout p = s.repo.isCheckout p := by
  unfold commit
  split
  · split
    · exact isCheckout_modify
    · exact isCheckout_modify
  · rfl

/-- Workers change the worktree that they are in, and no other. -/
theorem commit_dirty {s : Site} {path : String} {dirty : Bool} {k : Checkout}
    (hk : k ∈ (commit s path dirty).repo.checkouts) (hdirty : k.dirty = true) :
    k ∈ s.repo.checkouts ∨ (k.path = path ∧ s.repo.isCheckout path = true) := by
  have hmodify : ∀ {r : Repo} {f : Checkout → Checkout}, r.checkouts = s.repo.checkouts →
      k ∈ (r.modify path f).checkouts → k ∈ s.repo.checkouts ∨ (k.path = path ∧ s.repo.isCheckout path = true) := by
    intro r f hr hk
    obtain ⟨k₀, hk₀, heq⟩ := List.mem_map.mp hk
    rw [hr] at hk₀
    by_cases hpath : k₀.path = path
    · rw [if_pos hpath] at heq
      subst heq
      exact .inr ⟨hpath, isCheckout_iff.mpr ⟨k₀, hk₀, hpath⟩⟩
    · rw [if_neg hpath] at heq
      exact .inl (heq ▸ hk₀)
  unfold commit at hk
  split at hk
  · split at hk
    · exact hmodify rfl hk
    · exact hmodify rfl hk
  · exact .inl hk

theorem edit_dirty {s : Site} {path : String} {k : Checkout} (hk : k ∈ (edit s path).repo.checkouts) :
    k ∈ s.repo.checkouts ∨ (k.path = path ∧ s.repo.isCheckout path = true) := by
  obtain ⟨k₀, hk₀, heq⟩ := List.mem_map.mp hk
  by_cases hpath : k₀.path = path
  · rw [if_pos hpath] at heq
    subst heq
    exact .inr ⟨hpath, isCheckout_iff.mpr ⟨k₀, hk₀, hpath⟩⟩
  · rw [if_neg hpath] at heq
    exact .inl (heq ▸ hk₀)

theorem commit_workers (s : Site) (path : String) (dirty : Bool) : (commit s path dirty).workers = s.workers := by
  unfold commit
  split
  · split <;> rfl
  · rfl

/-- What a worker does to its worktree harms no call that is under way. -/
theorem runningOk_worker {w : World} {s' : Site} {path : String} (hoccupied : w.occupied path = true)
    (hthere : ∀ p, s'.repo.isCheckout p = w.site.repo.isCheckout p)
    (hdirty : ∀ k ∈ s'.repo.checkouts, k.dirty = true →
      k ∈ w.site.repo.checkouts ∨ (k.path = path ∧ w.site.repo.isCheckout path = true))
    (hworkers : s'.workers = w.site.workers) {r : Running} (hr : w.running = some r) (h : RunningOk r w.site) :
    RunningOk r s' := by
  unfold RunningOk at h ⊢
  cases hcreating : r.creating with
  | false =>
      rw [hcreating] at h
      exact h
  | true =>
      rw [hcreating] at h
      refine ⟨fun p hp => (hthere p).trans (h.there p hp), fun k hk hd => ?_, hworkers ▸ h.workers, h.careful⟩
      rcases hdirty k hk hd with hold | ⟨hpath, -⟩
      · exact h.clean k hold hd
      · rw [hpath]
        simpa [World.occupied, hr, hcreating] using hoccupied

theorem runningOk_call (c : Call) {s : Site} (hknown : WorkersKnown s) :
    RunningOk ⟨c.isCreate, s.repo, c.prog cfg⟩ s := by
  unfold RunningOk
  cases c with
  | create args =>
      refine ⟨fun _ h => h, fun k hk _ => isCheckout_iff.mpr ⟨k, hk, rfl⟩, .inl fun b hb => ?_,
        (careful_create cfg.root args).forget⟩
      obtain ⟨x, -, hhead⟩ := hknown b hb
      simp [hhead]
  | integrate record expected => exact (calls_integrate record expected).forget
  | rebase record onto => exact (calls_rebase record onto).forget
  | remove record => exact (calls_remove record).forget
  | recover => exact (calls_recover cfg.repository).forget

theorem inv_step (w : World) (a : Action) (h : w.Inv) : (w.step cfg outcomes a).Inv := by
  cases a with
  | call c =>
      unfold World.step
      dsimp only
      split
      · refine ⟨h.known, fun r hr => ?_⟩
        cases hr
        exact runningOk_call c h.known
      · exact h
  | git =>
      unfold World.step
      dsimp only
      split
      · rename_i creating before op next hr
        have hc := change_effect (outcomes (w.site.calls + 1)) { w.site with calls := w.site.calls + 1 } op
        refine ⟨hc.known h.known, fun r hr' => ?_⟩
        cases hr'
        exact runningOk_git (r := ⟨creating, before, .call op next⟩) rfl (h.running _ hr)
      · exact ⟨h.known, fun r hr => nomatch hr⟩
      · exact h
  | commit path dirty =>
      unfold World.step
      dsimp only
      split
      · rename_i hoccupied
        exact ⟨known_commit path dirty h.known, fun r hr =>
          runningOk_worker hoccupied (fun _ => commit_isCheckout) (fun k hk hd => commit_dirty hk hd)
            (commit_workers w.site path dirty) hr (h.running r hr)⟩
      · exact h
  | edit path =>
      unfold World.step
      dsimp only
      split
      · rename_i hoccupied
        exact ⟨(sameRefs_modify path _).known h.known, fun r hr =>
          runningOk_worker hoccupied (fun _ => isCheckout_modify) (fun k hk _ => edit_dirty hk) rfl hr
            (h.running r hr)⟩
      · exact h

theorem dirtyStay_of_isCheckout {r r' : Repo} (h : ∀ p, r'.isCheckout p = r.isCheckout p) : DirtyStay r r' :=
  fun k hk _ => (h k.path).trans (isCheckout_iff.mpr ⟨k, hk, rfl⟩)

theorem safe_worker {w : World} {s' : Site} (hkept : Kept s') (hheads : ∀ b, w.site.repo.head b ≠ none →
    s'.repo.head b ≠ none) (hp : w.Preserved) : World.Preserved { w with site := s' } :=
  ⟨hkept, fun r hr hcreating b hb => hheads b (hp.branches r hr hcreating b hb)⟩

theorem notDirty_of_force {s : Site} {creating : Bool} {before : Repo} {op : Op} {next : op.Reply → Prog Unit}
    {path : String} (h : RunningOk ⟨creating, before, .call op next⟩ s) (hop : op = .removeWorktree path true) :
    s.repo.isDirty path = false := by
  subst hop
  unfold RunningOk at h
  cases creating with
  | false => exact absurd rfl (h.1 path)
  | true =>
      have hnew : before.isCheckout path = false := h.careful.1.2
      by_contra hdirty
      rw [Bool.not_eq_false, Repo.isDirty, List.any_eq_true] at hdirty
      obtain ⟨k, hk, hboth⟩ := hdirty
      rw [Bool.and_eq_true, beq_iff_eq] at hboth
      have hbefore := h.clean k hk hboth.2
      rw [hboth.1] at hbefore
      exact Bool.false_ne_true (hnew.symm.trans hbefore)

theorem deletion_iff {s : Site} {creating : Bool} {before : Repo} {b : String}
    {next : (Op.deleteBranch b).Reply → Prog Unit} {takes : Prop}
    (hrunning : RunningOk ⟨creating, before, .call (.deleteBranch b) next⟩ s) (hdeletable : s.repo.deletable b = true)
    (hknown : WorkersKnown s) (hkept : Kept s)
    (hstay : creating = true → ∀ x, before.head x ≠ none → s.repo.head x ≠ none) (htakes : takes) :
    ((Kept (branchDeleted { s with calls := s.calls + 1 } b) ∧ (creating = true → ∀ x, before.head x ≠ none →
          (branchDeleted { s with calls := s.calls + 1 } b).repo.head x ≠ none)) ∧
        DirtyStay s.repo (branchDeleted { s with calls := s.calls + 1 } b).repo ∧
        (creating = true → Undisturbed before s.repo (branchDeleted { s with calls := s.calls + 1 } b).repo))
      ↔ ∀ b', Op.deleteBranch b = .deleteBranch b' → s.repo.deletable b' = true → takes →
          if creating then before.head b' = none else b' ∈ s.workers → CarriedElsewhere s b' := by
  have hb : s.repo.head b ≠ none ∧ b ≠ s.repo.main := by
    unfold Repo.deletable at hdeletable
    rw [Bool.and_eq_true] at hdeletable
    refine ⟨Option.isSome_iff_ne_none.mp hdeletable.1, fun heq => ?_⟩
    simp [Repo.checkedOut, heq] at hdeletable
  have hhead : ∀ x, x ≠ b → (branchDeleted { s with calls := s.calls + 1 } b).repo.head x = s.repo.head x :=
    fun x hne => Function.update_of_ne hne ..
  have hgone : (branchDeleted { s with calls := s.calls + 1 } b).repo.head b = none := Function.update_self ..
  have hiff := kept_branchDeleted (s := { s with calls := s.calls + 1 }) hb.2 hknown hkept
  have hdirty : DirtyStay s.repo (branchDeleted { s with calls := s.calls + 1 } b).repo :=
    dirtyStay_of_isCheckout fun _ => rfl
  constructor
  · intro hall b' heq _ _
    cases heq
    cases creating with
    | true =>
        by_contra hbefore
        exact hall.1.2 rfl b hbefore hgone
    | false => exact hiff.mp hall.1.1
  · intro hcond
    have hcond := hcond b rfl hdeletable htakes
    cases creating with
    | true =>
        have hbefore : before.head b = none := hcond
        have hne : ∀ x, before.head x ≠ none → x ≠ b := fun x hx heq => hx (heq ▸ hbefore)
        have hworker : b ∉ s.workers := by
          intro hw
          rcases hrunning.workers with hold | hno
          · exact hold b hw hbefore
          · exact hno.1 b rfl
        refine ⟨⟨hiff.mpr fun hw => absurd hw hworker, fun _ x hx => ?_⟩, hdirty, fun _ =>
          ⟨fun x hx => hhead x (hne x hx), fun k hk _ => hk⟩⟩
        rw [hhead x (hne x hx)]
        exact hstay rfl x hx
    | false => exact ⟨⟨hiff.mpr hcond, nofun⟩, hdirty, nofun⟩

/-- One git command keeps what it should exactly under the condition. -/
theorem git_iff {w : World} {creating : Bool} {before : Repo} {op : Op} {next : op.Reply → Prog Unit}
    (hr : w.running = some ⟨creating, before, .call op next⟩) (h : w.Inv) (hp : w.Preserved) :
    ((w.step cfg outcomes .git).Preserved ∧ w.StepSafe cfg outcomes .git) ↔ w.StepKeeps outcomes .git := by
  have hstep : w.step cfg outcomes .git
      = { site := (perform outcomes w.site op).1
          running := some ⟨creating, before, next (perform outcomes w.site op).2⟩ } := by
    unfold World.step
    rw [hr]
  have hc := change_effect (outcomes (w.site.calls + 1)) { w.site with calls := w.site.calls + 1 } op
  have hrunning := h.running _ hr
  -- the state after the command, whatever is left of the call
  have hpreserved : (w.step cfg outcomes .git).Preserved ↔ Kept (perform outcomes w.site op).1 ∧
      (creating = true → ∀ b, before.head b ≠ none → (perform outcomes w.site op).1.repo.head b ≠ none) := by
    rw [hstep]
    constructor
    · exact fun hnew => ⟨hnew.kept, fun hcreating b hb => hnew.branches _ rfl hcreating b hb⟩
    · refine fun hnew => ⟨hnew.1, fun r hr' hcreating b hb => ?_⟩
      cases hr'
      exact hnew.2 hcreating b hb
  have hsafe : w.StepSafe cfg outcomes .git ↔ DirtyStay w.site.repo (perform outcomes w.site op).1.repo ∧
      (creating = true → Undisturbed before w.site.repo (perform outcomes w.site op).1.repo) := by
    unfold World.StepSafe
    rw [hstep, hr]
  have hstay : creating = true → ∀ b, before.head b ≠ none → w.site.repo.head b ≠ none :=
    fun hcreating => hp.branches _ hr hcreating
  have hkeeps : w.StepKeeps outcomes .git ↔ ∀ b, op = .deleteBranch b → w.site.repo.deletable b = true →
      (outcomes (w.site.calls + 1)).takes = true →
        if creating then before.head b = none else b ∈ w.site.workers → CarriedElsewhere w.site b := by
    constructor
    · intro hk b hop
      subst hop
      exact hk _ b next hr rfl
    · intro hk r b next' hr' htask
      cases hr.symm.trans hr'
      cases htask
      exact hk b rfl
  rw [hpreserved, hsafe, hkeeps]
  by_cases hop : ∃ b, op = .deleteBranch b
  · obtain ⟨b, rfl⟩ := hop
    by_cases heffect : w.site.repo.deletable b = true ∧ (outcomes (w.site.calls + 1)).takes = true
    · have hdeleted : (perform outcomes w.site (.deleteBranch b)).1
          = branchDeleted { w.site with calls := w.site.calls + 1 } b := by
        unfold perform effect
        dsimp only
        rw [heffect.1, heffect.2]
        rfl
      rw [hdeleted]
      exact deletion_iff hrunning heffect.1 h.known hp.kept hstay heffect.2
    · have hsame : (perform outcomes w.site (.deleteBranch b)).1 = { w.site with calls := w.site.calls + 1 } := by
        unfold perform effect
        dsimp only
        rw [if_neg (by rwa [Bool.and_eq_true])]
      rw [hsame]
      constructor
      · intro _ b' hb' hdeletable htakes
        cases hb'
        exact absurd ⟨hdeletable, htakes⟩ heffect
      · exact fun _ => ⟨⟨hp.kept, hstay⟩, dirtyStay_of_isCheckout fun _ => rfl,
          fun _ => ⟨fun _ _ => rfl, fun _ hk _ => hk⟩⟩
  · have hnodelete : NoDeletion op := fun b heq => hop ⟨b, heq⟩
    constructor
    · exact fun _ b hb => absurd ⟨b, hb⟩ hop
    · refine fun _ => ⟨⟨hc.kept hnodelete hp.kept, fun hcreating b hb =>
        hc.head_ne_none hnodelete (hstay hcreating b hb)⟩, hc.dirtyStay fun path hforce => ?_, fun hcreating => ?_⟩
      · have hclean := notDirty_of_force hrunning hforce
        exact hclean
      · unfold RunningOk at hrunning
        rw [if_pos hcreating] at hrunning
        exact hc.undisturbed (careful_head hrunning.careful) hnodelete (hstay hcreating)

theorem step_iff (w : World) (a : Action) (h : w.Inv) (hp : w.Preserved) :
    ((w.step cfg outcomes a).Preserved ∧ w.StepSafe cfg outcomes a) ↔ w.StepKeeps outcomes a := by
  cases a with
  | call c =>
      refine ⟨fun _ => trivial, fun _ => ?_⟩
      unfold World.StepSafe World.step
      dsimp only
      split
      · refine ⟨⟨hp.kept, fun r hr _ b hb => ?_⟩, dirtyStay_of_isCheckout fun _ => rfl, trivial⟩
        cases hr
        exact hb
      · exact ⟨hp, dirtyStay_of_isCheckout fun _ => rfl, trivial⟩
  | git =>
      cases hr : w.running with
      | none =>
          have hsame : w.step cfg outcomes .git = w := by
            unfold World.step
            rw [hr]
          refine ⟨fun _ r b next hr' => ?_, fun _ => ?_⟩
          · rw [hr] at hr'
            cases hr'
          · unfold World.StepSafe
            rw [hsame, hr]
            exact ⟨hp, dirtyStay_of_isCheckout fun _ => rfl, trivial⟩
      | some r =>
          obtain ⟨creating, before, task⟩ := r
          cases task with
          | call op next => exact git_iff hr h hp
          | done u =>
              have hended : w.step cfg outcomes .git = { w with running := none } := by
                unfold World.step
                rw [hr]
              refine ⟨fun _ r b next hr' htask => ?_, fun _ => ?_⟩
              · rw [hr] at hr'
                cases hr'
                cases htask
              · unfold World.StepSafe
                rw [hended, hr]
                exact ⟨⟨hp.kept, nofun⟩, dirtyStay_of_isCheckout fun _ => rfl, fun _ =>
                  ⟨fun _ _ => rfl, fun _ hk _ => hk⟩⟩
  | commit path dirty =>
      refine ⟨fun _ => trivial, fun _ => ?_⟩
      unfold World.StepSafe World.step
      dsimp only
      split
      · exact ⟨safe_worker (kept_commit path dirty hp.kept) (fun b hb => commit_head_ne_none path dirty hb) hp,
          dirtyStay_of_isCheckout fun _ => commit_isCheckout, trivial⟩
      · exact ⟨hp, dirtyStay_of_isCheckout fun _ => rfl, trivial⟩
  | edit path =>
      refine ⟨fun _ => trivial, fun _ => ?_⟩
      unfold World.StepSafe World.step
      dsimp only
      split
      · exact ⟨safe_worker ((sameRefs_modify path _).kept hp.kept) (fun _ hb => hb) hp,
          dirtyStay_of_isCheckout fun _ => isCheckout_modify, trivial⟩
      · exact ⟨hp, dirtyStay_of_isCheckout fun _ => rfl, trivial⟩

theorem inv_start (repo : Repo) (names : List String) : (World.start repo names).Inv := by
  refine ⟨fun b hb => ?_, nofun⟩
  obtain ⟨hname, hsome⟩ := List.mem_filter.mp hb
  obtain ⟨x, hx⟩ := Option.isSome_iff_exists.mp hsome
  exact ⟨x, List.mem_filterMap.mpr ⟨b, hname, hx⟩, hx⟩

theorem preserved_start (repo : Repo) (names : List String) : (World.start repo names).Preserved := by
  refine ⟨fun c hc => ?_, nofun⟩
  obtain ⟨b, hname, hb⟩ := List.mem_filterMap.mp hc
  exact ⟨b, c, .inr (List.mem_filter.mpr ⟨hname, by simp [hb]⟩), hb, .refl c⟩

/-- **No work of a worker is lost, no worktree with changes is removed and no
`create` disturbs what was there, exactly in the runs whose deletions of
branches meet the condition.** -/
theorem preserved_iff (cfg : Config) (outcomes : Nat → Outcome) (repo : Repo) (names : List String)
    (actions : List Action) :
    ((∀ k, ((actions.take k).foldl (World.step cfg outcomes) (World.start repo names)).Preserved) ∧
        ∀ k a, actions[k]? = some a →
          ((actions.take k).foldl (World.step cfg outcomes) (World.start repo names)).StepSafe cfg outcomes a)
      ↔ RunOk (World.step cfg outcomes) (World.StepKeeps outcomes) (World.start repo names) actions :=
  forall_steps_iff inv_step step_iff (inv_start repo names) (preserved_start repo names)

def plainConfig : Config where
  repository := "/repo"
  root := "/worktrees"

/-- The branch of a worker is one commit ahead of the coordinator's, which
has local changes. -/
def dirtyRepo : Repo where
  commits := [{ parents := [] }, { parents := [0] }]
  head b := if b = "main" then some 0 else if b = "agenthicc/s/t-w1" then some 1 else none
  main := "main"
  mainDirty := true

/-- A worker has committed in its worktree. -/
def workingRepo : Repo where
  commits := [{ parents := [] }, { parents := [0] }]
  head b := if b = "main" then some 0 else if b = "agenthicc/s/t-w1" then some 1 else none
  main := "main"
  checkouts := [{ path := "/worktrees/w1", branch := "agenthicc/s/t-w1" }]

def integratedRecord : Record where
  worktree_id := "w1"
  path := "/worktrees/w1"
  branch := "agenthicc/s/t-w1"
  base_commit := some 0
  owner_session_id := "s"
  task_id := "t"
  status := .integrated
  head_commit := some 1

/-- A create in a coordinator with local changes. -/
def dirtyCreate : List Action :=
  .call (.create { parent_session_id := "s", task_id := "t", base_commit := some 0, worktree_id := "w1" })
    :: List.replicate 7 .git

/-- A worker is integrated, commits once more and is cleaned up. -/
def lateCommit : List Action :=
  .call (.integrate integratedRecord (some "main")) :: List.replicate 6 .git
    ++ .commit "/worktrees/w1" false :: .call (.remove integratedRecord) :: List.replicate 10 .git

def finalOf (repo : Repo) (actions : List Action) : World :=
  actions.foldl (World.step plainConfig fun _ => {}) (World.start repo ["agenthicc/s/t-w1"])

/-- The failing create deletes the branch, which was there before with a
commit of its own; the removal deletes one whose last commit is not merged. -/
theorem not_preserved_create_and_remove :
    ¬ (finalOf dirtyRepo dirtyCreate).Preserved ∧ ¬ (finalOf workingRepo lateCommit).Preserved := by
  have hlost : ∀ (s : Site) (c m : Nat), OlderFirst s.repo.commits → c ∈ s.heads → s.workers = [] →
      s.repo.head s.repo.main = some m → m < c → ¬ Kept s := by
    intro s c m holder hc hworkers hm hlt hkept
    obtain ⟨b, h, hb, hh, hcarries⟩ := hkept c hc
    obtain rfl : b = s.repo.main := hb.resolve_right (by simp [hworkers])
    obtain rfl : m = h := Option.some.inj (hm.symm.trans hh)
    exact absurd (hcarries.le holder) (by omega)
  refine ⟨fun h => hlost _ 1 0 ?_ ?_ ?_ ?_ (by decide) h.kept, fun h => hlost _ 2 1 ?_ ?_ ?_ ?_ (by decide) h.kept⟩
  · decide
  · decide
  · decide
  · decide
  · decide
  · decide
  · decide
  · decide

end Agenthicc.Worktrees.Git
