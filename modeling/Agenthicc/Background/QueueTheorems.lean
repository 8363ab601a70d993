/-
Agenthicc.Background.QueueTheorems — what the queue order promises.

The order is a round robin over the projects with pending records, each of
them in its sorted order. `served_fairQueueOrder` connects the two: what the
result holds of a project is that project's sorted records. The order within a
project, the balance between projects and the place of `last_project` follow
from it and from the results on round robins.
-/
import Agenthicc.Background.Queue
import Mathlib.Data.List.Perm.Basic
import Mathlib.Data.List.Nodup
import Mathlib.Tactic.Linarith
import Mathlib.Tactic.NormNum

namespace Agenthicc.Background

open Python RoundRobin BackgroundSession

/-! ## 1. Projects -/

variable {r : Rounding} (seconds : PyFloat → r.Double) (now aging_interval_s : r.Double)

/-- The pending records of a project, in the given order. -/
def pendingOf (sessions : List BackgroundSession) (project : String) : List BackgroundSession :=
  sessions.filter fun s => isPendingQueueRecord s && s.cwd = project

theorem mem_pendingOf {sessions : List BackgroundSession} {project : String} {s : BackgroundSession} :
    s ∈ pendingOf sessions project ↔
      s ∈ sessions.filter isPendingQueueRecord ∧ s.cwd = project := by
  simp [pendingOf, and_assoc]

variable {sessions : List BackgroundSession} {last_project : String}

section Turns

theorem sortedProjects_perm (sessions : List BackgroundSession) :
    (sortedProjects sessions).Perm ((sessions.filter isPendingQueueRecord).map (·.cwd)).dedup :=
  List.perm_insertionSort _ _

theorem turns_perm (sessions : List BackgroundSession) (last_project : String) :
    (projectTurns sessions last_project).Perm (sortedProjects sessions) := by
  unfold projectTurns
  split
  · refine List.perm_append_comm.trans ?_
    rw [List.take_append_drop]
  · exact List.Perm.refl _

theorem turns_nodup : (projectTurns sessions last_project).Nodup :=
  ((turns_perm sessions last_project).trans (sortedProjects_perm sessions)).nodup_iff.mpr
    (List.nodup_dedup _)

theorem mem_turns {project : String} :
    project ∈ projectTurns sessions last_project ↔
      ∃ s ∈ sessions.filter isPendingQueueRecord, s.cwd = project := by
  rw [(turns_perm sessions last_project).mem_iff, (sortedProjects_perm sessions).mem_iff,
    List.mem_dedup, List.mem_map]

/-- A `last_project` with pending records has the last turn. -/
theorem turns_eq_append (h : last_project ∈ projectTurns sessions last_project) :
    ∃ init, projectTurns sessions last_project = init ++ [last_project] := by
  rw [(turns_perm sessions last_project).mem_iff] at h
  have hidx := List.idxOf_lt_length_of_mem h
  have htake : (sortedProjects sessions).take ((sortedProjects sessions).idxOf last_project + 1)
      = (sortedProjects sessions).take ((sortedProjects sessions).idxOf last_project)
        ++ [last_project] := by
    rw [List.take_add_one, List.getElem?_eq_getElem hidx, List.getElem_idxOf]
    rfl
  refine ⟨(sortedProjects sessions).drop ((sortedProjects sessions).idxOf last_project + 1)
    ++ (sortedProjects sessions).take ((sortedProjects sessions).idxOf last_project), ?_⟩
  rw [projectTurns, if_pos h, List.append_assoc, ← htake]

end Turns

/-! ## 2. The records of one project -/

instance sortKey_total : Std.Total fun a b : BackgroundSession =>
    sortKey seconds now aging_interval_s a ≤ sortKey seconds now aging_interval_s b :=
  ⟨fun _ _ => le_total _ _⟩

instance sortKey_trans : IsTrans BackgroundSession fun a b =>
    sortKey seconds now aging_interval_s a ≤ sortKey seconds now aging_interval_s b :=
  ⟨fun _ _ _ => le_trans⟩

theorem projectRecords_perm (sessions : List BackgroundSession) (project : String) :
    (projectRecords seconds now aging_interval_s sessions project).Perm (pendingOf sessions project) :=
  List.perm_insertionSort _ _

theorem projectRecords_sorted (sessions : List BackgroundSession) (project : String) :
    (projectRecords seconds now aging_interval_s sessions project).Pairwise fun a b =>
      sortKey seconds now aging_interval_s a ≤ sortKey seconds now aging_interval_s b :=
  List.pairwise_insertionSort _ _

theorem projectRecords_stable (sessions : List BackgroundSession) (project : String)
    (key : Int ×ₗ ℚ ×ₗ String) :
    (projectRecords seconds now aging_interval_s sessions project).filter
        (fun s => sortKey seconds now aging_interval_s s = key)
      = (pendingOf sessions project).filter fun s => sortKey seconds now aging_interval_s s = key := by
  have hsame : ((pendingOf sessions project).filter fun s =>
      sortKey seconds now aging_interval_s s = key).Pairwise fun a b =>
        sortKey seconds now aging_interval_s a ≤ sortKey seconds now aging_interval_s b := by
    refine List.pairwise_of_forall_mem_list fun a ha b hb => ?_
    have ha' := of_decide_eq_true (List.mem_filter.mp ha).2
    have hb' := of_decide_eq_true (List.mem_filter.mp hb).2
    rw [ha', hb']
  have hsub := List.sublist_insertionSort hsame List.filter_sublist
  have hsub' := hsub.filter fun s => sortKey seconds now aging_interval_s s = key
  rw [List.filter_filter] at hsub'
  simp only [Bool.and_self] at hsub'
  refine (hsub'.eq_of_length ?_).symm
  exact ((projectRecords_perm seconds now aging_interval_s sessions project).filter _).length_eq.symm

theorem projectRecords_keyed (sessions : List BackgroundSession) :
    Keyed BackgroundSession.cwd (projectRecords seconds now aging_interval_s sessions) := by
  intro project s hs
  rw [(projectRecords_perm seconds now aging_interval_s sessions project).mem_iff] at hs
  exact (mem_pendingOf.mp hs).2

variable (sessions last_project) in
/-- **What the order holds of a project** is its sorted records. -/
theorem served_fairQueueOrder (project : String) :
    served BackgroundSession.cwd project
        (fairQueueOrder seconds now aging_interval_s sessions last_project)
      = projectRecords seconds now aging_interval_s sessions project := by
  have hkeyed := projectRecords_keyed seconds now aging_interval_s sessions
  by_cases hturn : project ∈ projectTurns sessions last_project
  · refine served_rounds hkeyed turns_nodup hturn ?_
    rw [(projectRecords_perm seconds now aging_interval_s sessions project).length_eq]
    exact Nat.le_succ_of_le (List.length_filter_le _ _)
  · have hpending : pendingOf sessions project = [] := by
      rw [List.eq_nil_iff_forall_not_mem]
      exact fun s hs => hturn (mem_turns.mpr ⟨s, mem_pendingOf.mp hs⟩)
    have hrecords : projectRecords seconds now aging_interval_s sessions project = [] := by
      have hperm := projectRecords_perm seconds now aging_interval_s sessions project
      rw [hpending] at hperm
      exact hperm.eq_nil
    rw [hrecords]
    exact served_rounds_not_mem hkeyed hturn
theorem mem_served {project : String} {out : List BackgroundSession} {s : BackgroundSession} :
    s ∈ served BackgroundSession.cwd project out ↔ s ∈ out ∧ s.cwd = project := by
  simp [served]

theorem mem_fairQueueOrder {s : BackgroundSession} :
    s ∈ fairQueueOrder seconds now aging_interval_s sessions last_project ↔
      s ∈ sessions.filter isPendingQueueRecord := by
  have hserved : s ∈ served BackgroundSession.cwd s.cwd
      (fairQueueOrder seconds now aging_interval_s sessions last_project) ↔
        s ∈ pendingOf sessions s.cwd := by
    rw [served_fairQueueOrder, (projectRecords_perm seconds now aging_interval_s sessions s.cwd).mem_iff]
  rw [mem_served, mem_pendingOf] at hserved
  simpa using hserved

/-! ## 3. The order -/

theorem fairQueueOrder_perm :
    (fairQueueOrder seconds now aging_interval_s sessions last_project).Perm
      (sessions.filter isPendingQueueRecord) := by
  classical
  rw [List.perm_iff_count]
  intro s
  -- a record is counted among those of its project
  have hcount : ∀ xs : List BackgroundSession, xs.count s
      = (served BackgroundSession.cwd s.cwd xs).count s := by
    intro xs
    rw [served, List.count_filter (by simp)]
  have hpending : served BackgroundSession.cwd s.cwd (sessions.filter isPendingQueueRecord)
      = pendingOf sessions s.cwd := by
    rw [served, pendingOf, List.filter_filter]
    exact List.filter_congr fun x _ => Bool.and_comm _ _
  rw [hcount, hcount (sessions.filter _), hpending, served_fairQueueOrder]
  exact (projectRecords_perm seconds now aging_interval_s sessions s.cwd).count_eq s

/-- Two projects that both have records left have contributed equally often,
up to one. -/
theorem fairQueueOrder_balanced {pre post : List BackgroundSession}
    (hout : fairQueueOrder seconds now aging_interval_s sessions last_project = pre ++ post)
    {p q : String} (hp : ∃ s ∈ post, s.cwd = p) (hq : ∃ s ∈ post, s.cwd = q) :
    (served BackgroundSession.cwd p pre).length ≤ (served BackgroundSession.cwd q pre).length + 1 := by
  have hleft : ∀ p, (∃ s ∈ post, s.cwd = p) →
      p ∈ projectTurns sessions last_project ∧ (served BackgroundSession.cwd p pre).length
        < (projectRecords seconds now aging_interval_s sessions p).length := by
    intro p hp
    obtain ⟨s, hs, hcwd⟩ := hp
    have hmem : s ∈ fairQueueOrder seconds now aging_interval_s sessions last_project := by
      rw [hout]
      exact List.mem_append_right pre hs
    refine ⟨mem_turns.mpr ⟨s, (mem_fairQueueOrder seconds now aging_interval_s).mp hmem, hcwd⟩, ?_⟩
    have hserved : s ∈ served BackgroundSession.cwd p post := mem_served.mpr ⟨hs, hcwd⟩
    rw [← served_fairQueueOrder seconds now aging_interval_s sessions last_project p, hout,
      served_append, List.length_append]
    exact Nat.lt_add_of_pos_right (List.length_pos_of_mem hserved)
  obtain ⟨hturnp, hleftp⟩ := hleft p hp
  obtain ⟨hturnq, hleftq⟩ := hleft q hq
  exact served_balanced (projectRecords_keyed seconds now aging_interval_s sessions) turns_nodup
    hturnp hturnq ⟨post, hout.symm⟩ hleftp hleftq

variable (sessions last_project) in
theorem fairQueueOrder_sorted :
    (fairQueueOrder seconds now aging_interval_s sessions last_project).Pairwise fun a b =>
      a.cwd = b.cwd → sortKey seconds now aging_interval_s a ≤ sortKey seconds now aging_interval_s b := by
  rw [List.pairwise_iff_forall_sublist]
  intro a b hsub hcwd
  have hserved := hsub.filter fun s => s.cwd = a.cwd
  have hpair : [a, b].filter (fun s => s.cwd = a.cwd) = [a, b] := by simp [hcwd]
  have hproject := served_fairQueueOrder seconds now aging_interval_s sessions last_project a.cwd
  rw [served] at hproject
  rw [hpair, hproject] at hserved
  exact List.pairwise_iff_forall_sublist.mp
    (projectRecords_sorted seconds now aging_interval_s sessions a.cwd) hserved

/-- Every project with pending records comes before `last_project`. -/
theorem fairQueueOrder_last {pre post : List BackgroundSession} {s other : BackgroundSession}
    (hout : fairQueueOrder seconds now aging_interval_s sessions last_project = pre ++ s :: post)
    (hs : s.cwd = last_project)
    (hother : other ∈ fairQueueOrder seconds now aging_interval_s sessions last_project)
    (hne : other.cwd ≠ last_project) : ∃ y ∈ pre, y.cwd = other.cwd := by
  have hmem : s ∈ fairQueueOrder seconds now aging_interval_s sessions last_project := by
    rw [hout]
    exact List.mem_append_right pre List.mem_cons_self
  rw [mem_fairQueueOrder] at hmem hother
  obtain ⟨init, hinit⟩ := turns_eq_append (mem_turns.mpr ⟨s, hmem, hs⟩)
  have hnodup := @turns_nodup sessions last_project
  have hturn : other.cwd ∈ projectTurns sessions last_project := mem_turns.mpr ⟨other, hother, rfl⟩
  rw [hinit] at hnodup hturn
  have hin : other.cwd ∈ init := by
    cases List.mem_append.mp hturn with
    | inl h => exact h
    | inr h => exact absurd (List.mem_singleton.mp h) hne
  have hrecords : projectRecords seconds now aging_interval_s sessions other.cwd ≠ [] := by
    have hperm := projectRecords_perm seconds now aging_interval_s sessions other.cwd
    exact List.ne_nil_of_mem (hperm.mem_iff.mpr (mem_pendingOf.mpr ⟨hother, rfl⟩))
  rw [fairQueueOrder, hinit] at hout
  exact exists_before_last (projectRecords_keyed seconds now aging_interval_s sessions) hnodup hin
    hrecords hs hout

/-! ## 4. Aging -/

variable {seconds now aging_interval_s}

/-- A record that has waited longer by as many intervals as its priority is
lower comes first. -/
theorem sortKey_lt_of_age (hpos : 0 < aging_interval_s.1) {old young : BackgroundSession}
    (hbase : priorityBase old.priority < priorityBase young.priority)
    (hage : age seconds now young
        + (priorityBase young.priority - priorityBase old.priority) * aging_interval_s.1
      ≤ age seconds now old) :
    sortKey seconds now aging_interval_s old < sortKey seconds now aging_interval_s young := by
  have hrank : effectivePriorityRank seconds now aging_interval_s young
      ≤ effectivePriorityRank seconds now aging_interval_s old := by
    have hdiv : age seconds now young / aging_interval_s.1
        + ((priorityBase young.priority - priorityBase old.priority : ℤ) : ℚ)
          ≤ age seconds now old / aging_interval_s.1 := by
      rw [le_div_iff₀ hpos, add_mul, div_mul_cancel₀ _ hpos.ne']
      push_cast
      exact hage
    have hfloor := Int.floor_le_floor hdiv
    rw [Int.floor_add_intCast] at hfloor
    unfold effectivePriorityRank
    omega
  -- the one that waited longer was created first
  have hcreated : (seconds old.created_at).1 < (seconds young.created_at).1 := by
    by_contra hle
    have hdiff : now.1 - (seconds old.created_at).1 ≤ now.1 - (seconds young.created_at).1 :=
      sub_le_sub_left (not_lt.mp hle) now.1
    have hages : age seconds now old ≤ age seconds now young := max_le_max_left 0 (r.mono hdiff)
    have hgap : (0 : ℚ) < (priorityBase young.priority - priorityBase old.priority) * aging_interval_s.1 := by
      have hcast : (priorityBase old.priority : ℚ) < priorityBase young.priority := by
        exact_mod_cast hbase
      exact mul_pos (sub_pos.mpr hcast) hpos
    linarith
  rw [sortKey, sortKey, Prod.Lex.toLex_lt_toLex]
  cases hrank.lt_or_eq with
  | inl hlt => exact .inl (neg_lt_neg hlt)
  | inr heq =>
    refine .inr ⟨by rw [heq], ?_⟩
    exact Prod.Lex.toLex_lt_toLex.mpr (.inl hcreated)
/-! ## 5. Fairness -/

variable (seconds now aging_interval_s)

/-- Within a project, records with different keys stand in the order of their
keys. -/
theorem lt_iff_sortKey_lt {out : List BackgroundSession}
    (hout : fairQueueOrder seconds now aging_interval_s sessions last_project = out)
    {i j : Nat} (hi : i < out.length) (hj : j < out.length) (hcwd : out[i].cwd = out[j].cwd)
    (hne : sortKey seconds now aging_interval_s out[i] ≠ sortKey seconds now aging_interval_s out[j]) :
    i < j ↔ sortKey seconds now aging_interval_s out[i] < sortKey seconds now aging_interval_s out[j] := by
  have hsorted := fairQueueOrder_sorted seconds now aging_interval_s sessions last_project
  rw [hout, List.pairwise_iff_getElem] at hsorted
  refine ⟨fun hij => lt_of_le_of_ne (hsorted i j hi hj hij hcwd) hne, fun hlt => ?_⟩
  by_contra hij
  have hji : j ≤ i := Nat.le_of_not_lt hij
  cases hji.lt_or_eq with
  | inl h => exact absurd (hsorted j i hj hi h hcwd.symm) (not_le.mpr hlt)
  | inr h =>
    subst h
    exact hne rfl

/-- Within a project, records with one key keep their given order. -/
theorem filter_sortKey (project : String) (key : Int ×ₗ ℚ ×ₗ String) :
    (served BackgroundSession.cwd project
        (fairQueueOrder seconds now aging_interval_s sessions last_project)).filter
        (fun s => sortKey seconds now aging_interval_s s = key)
      = (pendingOf sessions project).filter fun s => sortKey seconds now aging_interval_s s = key := by
  rw [served_fairQueueOrder, projectRecords_stable]

/-- **Fair queue order.** The result is a permutation of the pending records.
Projects take turns, a project's records stand in the order of their keys and
otherwise in the given one, every other project comes before `last_project`,
and a record outranks a younger one of higher priority that it has waited
longer than by as many intervals as the priorities differ. -/
theorem fairQueueOrder_fair (hpos : 0 < aging_interval_s.1) :
    (fairQueueOrder seconds now aging_interval_s sessions last_project).Perm
        (sessions.filter isPendingQueueRecord)
      ∧ (∀ pre post, fairQueueOrder seconds now aging_interval_s sessions last_project = pre ++ post →
          ∀ p q, (∃ s ∈ post, s.cwd = p) → (∃ s ∈ post, s.cwd = q) →
            (served BackgroundSession.cwd p pre).length
              ≤ (served BackgroundSession.cwd q pre).length + 1)
      ∧ (∀ out, fairQueueOrder seconds now aging_interval_s sessions last_project = out →
          ∀ i j (hi : i < out.length) (hj : j < out.length), out[i].cwd = out[j].cwd →
            sortKey seconds now aging_interval_s out[i] ≠ sortKey seconds now aging_interval_s out[j] →
            (i < j ↔ sortKey seconds now aging_interval_s out[i]
              < sortKey seconds now aging_interval_s out[j]))
      ∧ (∀ project key, (served BackgroundSession.cwd project
            (fairQueueOrder seconds now aging_interval_s sessions last_project)).filter
              (fun s => sortKey seconds now aging_interval_s s = key)
          = (pendingOf sessions project).filter fun s => sortKey seconds now aging_interval_s s = key)
      ∧ (∀ pre s post, fairQueueOrder seconds now aging_interval_s sessions last_project
            = pre ++ s :: post → s.cwd = last_project →
          ∀ other ∈ fairQueueOrder seconds now aging_interval_s sessions last_project,
            other.cwd ≠ last_project → ∃ y ∈ pre, y.cwd = other.cwd)
      ∧ (∀ old young, priorityBase old.priority < priorityBase young.priority →
          age seconds now young
              + (priorityBase young.priority - priorityBase old.priority) * aging_interval_s.1
            ≤ age seconds now old →
          sortKey seconds now aging_interval_s old < sortKey seconds now aging_interval_s young) :=
  ⟨fairQueueOrder_perm seconds now aging_interval_s,
    fun _ _ hout _ _ hp hq => fairQueueOrder_balanced seconds now aging_interval_s hout hp hq,
    fun _ hout _ _ hi hj hcwd hne => lt_iff_sortKey_lt seconds now aging_interval_s hout hi hj hcwd hne,
    filter_sortKey seconds now aging_interval_s,
    fun _ _ _ hout hs _ hother hne =>
      fairQueueOrder_last seconds now aging_interval_s hout hs hother hne,
    fun _ _ hbase hage => sortKey_lt_of_age hpos hbase hage⟩

/-! ### A queue of two -/

/-- The number a text of whole seconds stands for. -/
def wholeSeconds (x : PyFloat) : Rounding.exact.Double :=
  ⟨((x.text.takeWhile (· ≠ '.')).foldl (fun n c => 10 * n + (c.toNat - '0'.toNat)) 0 : Nat), rfl⟩

theorem age_wholeSeconds (now : ℚ) (s : BackgroundSession) :
    age wholeSeconds ⟨now, rfl⟩ s = max 0 (now - (wholeSeconds s.created_at).1) := rfl

/-- A pending record of one project. -/
def pendingFields (session_id priority : String) (created_at : PyFloat) : List (String × Json) :=
  [("session_id", .str session_id), ("cwd", .str "/p"), ("status", .str "queued"),
    ("dispatch_state", .str "pending"), ("priority", .str priority), ("created_at", .float created_at)]

theorem low_isSome :
    (fromMapping plainInterp (pendingFields "low" "low" .zero)).isSome = true := by decide

/-- Low priority, created at 0. -/
def lowRecord : BackgroundSession :=
  (fromMapping plainInterp (pendingFields "low" "low" .zero)).get low_isSome

theorem urgent_isSome :
    (fromMapping plainInterp (pendingFields "urgent" "urgent" ⟨"1.0".toList, by decide⟩)).isSome
      = true := by decide

/-- Urgent, created one second later. -/
def urgentRecord : BackgroundSession :=
  (fromMapping plainInterp (pendingFields "urgent" "urgent" ⟨"1.0".toList, by decide⟩)).get urgent_isSome

theorem later_isSome :
    (fromMapping plainInterp (pendingFields "later" "urgent" ⟨"1800.0".toList, by decide⟩)).isSome
      = true := by decide

/-- Urgent, created two intervals later. -/
def laterRecord : BackgroundSession :=
  (fromMapping plainInterp (pendingFields "later" "urgent" ⟨"1800.0".toList, by decide⟩)).get later_isSome

/-- Fifteen minutes, the default interval. -/
def fifteenMinutes : Rounding.exact.Double := ⟨900, rfl⟩

theorem fairQueueOrder_fair_waited :
    (fairQueueOrder wholeSeconds ⟨2000, rfl⟩ fifteenMinutes [laterRecord, lowRecord] "").Perm
        [laterRecord, lowRecord]
      ∧ sortKey wholeSeconds ⟨2000, rfl⟩ fifteenMinutes lowRecord
        < sortKey wholeSeconds ⟨2000, rfl⟩ fifteenMinutes laterRecord := by
  have hfair := @fairQueueOrder_fair _ wholeSeconds ⟨2000, rfl⟩ fifteenMinutes
    [laterRecord, lowRecord] "" (by decide)
  have hcreated : (wholeSeconds lowRecord.created_at).1 = 0
      ∧ (wholeSeconds laterRecord.created_at).1 = 1800 := by decide
  have hbases : priorityBase lowRecord.priority = 0 ∧ priorityBase laterRecord.priority = 2 := by
    decide
  refine ⟨hfair.1, hfair.2.2.2.2.2 lowRecord laterRecord (by decide) ?_⟩
  rw [age_wholeSeconds, age_wholeSeconds, hcreated.1, hcreated.2, hbases.1, hbases.2]
  norm_num [fifteenMinutes]

/-- No wait is long enough to outrank every younger record: one that is urgent
and came a second later stays in front. -/
theorem no_wait_outranks_every_younger :
    ¬ ∃ wait : ℚ, ∀ (now : Rounding.exact.Double) (old young : BackgroundSession),
      isPendingQueueRecord old → isPendingQueueRecord young → old.cwd = young.cwd →
      (wholeSeconds old.created_at).1 < (wholeSeconds young.created_at).1 →
      priorityBase old.priority < priorityBase young.priority →
      wait ≤ age wholeSeconds now old →
      sortKey wholeSeconds now fifteenMinutes old < sortKey wholeSeconds now fifteenMinutes young := by
  intro h
  obtain ⟨wait, h⟩ := h
  have hnow : (1 : ℚ) ≤ max wait 1 := le_max_right _ _
  have hlow : age wholeSeconds ⟨max wait 1, rfl⟩ lowRecord = max wait 1 := by
    have hcreated : (wholeSeconds lowRecord.created_at).1 = 0 := by decide
    rw [age_wholeSeconds, hcreated, sub_zero]
    exact max_eq_right (zero_le_one.trans hnow)
  have hurgent : age wholeSeconds ⟨max wait 1, rfl⟩ urgentRecord = max wait 1 - 1 := by
    have hcreated : (wholeSeconds urgentRecord.created_at).1 = 1 := by decide
    rw [age_wholeSeconds, hcreated]
    exact max_eq_right (sub_nonneg.mpr hnow)
  have hout := h ⟨max wait 1, rfl⟩ lowRecord urgentRecord (by decide) (by decide) (by decide)
    (by decide) (by decide) (by rw [hlow]; exact le_max_left _ _)
  have hrank : effectivePriorityRank wholeSeconds ⟨max wait 1, rfl⟩ fifteenMinutes lowRecord
      < effectivePriorityRank wholeSeconds ⟨max wait 1, rfl⟩ fifteenMinutes urgentRecord := by
    have hbases : priorityBase lowRecord.priority = 0 ∧ priorityBase urgentRecord.priority = 2 := by
      decide
    have hdiv : max wait 1 / 900 ≤ (max wait 1 - 1) / 900 + ((1 : ℤ) : ℚ) := by
      rw [sub_div, Int.cast_one]
      linarith
    have hfloor := Int.floor_le_floor hdiv
    rw [Int.floor_add_intCast] at hfloor
    unfold effectivePriorityRank
    rw [hlow, hurgent, hbases.1, hbases.2]
    change 0 + ⌊max wait 1 / 900⌋ < 2 + ⌊(max wait 1 - 1) / 900⌋
    omega
  unfold sortKey at hout
  rw [Prod.Lex.toLex_lt_toLex] at hout
  cases hout with
  | inl hlt => exact absurd hrank (not_lt.mpr (neg_lt_neg_iff.mp hlt).le)
  | inr heq => exact absurd (neg_inj.mp heq.1) hrank.ne

end Agenthicc.Background
