/-
Agenthicc.Tui.DiffRendererTheorems — the hunks of a preview, and which of its
rows are highlighted.

`grouped` is the loop of `_build_hunks` as a recursion over the opcodes that
are left, with the trimming of the last hunk in it; the trimming of the first
one is done to the opcode it begins with. From there each hunk is some context,
the opcodes from a change to a change, and some context again.
-/
import Agenthicc.Tui.DiffRenderer
import Mathlib.Tactic.Common

namespace Agenthicc.Tui

/-! ## 1. The loop -/

/-- The hunks that come out of the opcodes left, with a hunk begun. -/
def grouped (context : Nat) : (current : List Opcode) → (pending : Option Opcode) → List Opcode →
    List (List Opcode)
  | current, _, [] => if current = [] then [] else [trimEnd context current]
  | current, pending, op :: rest =>
      if op.isChange = false ∧ 2 * context < op.i2 - op.i1 then
        (if current = [] then [] else [current ++ [op.first context]])
          ++ grouped context [] (some (op.last context)) rest
      else grouped context (current ++ pending.toList ++ [op]) none rest

variable {context : Nat}

theorem isChange_first (op : Opcode) (context : Nat) : (op.first context).isChange = false := rfl

theorem isChange_last (op : Opcode) (context : Nat) : (op.last context).isChange = false := rfl

theorem trimTrail_first (op : Opcode) : trimTrail context (op.first context) = op.first context := by
  rw [trimTrail, if_neg]
  simp [Opcode.first]

theorem trimEnd_concat (hunk : List Opcode) (op : Opcode) :
    trimEnd context (hunk ++ [op]) = hunk ++ [trimTrail context op] := by
  induction hunk with
  | nil => rfl
  | cons o hunk ih =>
    cases hunk with
    | nil => rfl
    | cons o' hunk => rw [List.cons_append, List.cons_append, trimEnd, ← List.cons_append, ih]; rfl

theorem trimLast_cons (hunk : List Opcode) {hunks : List (List Opcode)} (h : hunks ≠ []) :
    trimLast context (hunk :: hunks) = hunk :: trimLast context hunks := by
  obtain ⟨next, rest, rfl⟩ := List.exists_cons_of_ne_nil h
  rfl

theorem trimLast_append (hunks : List (List Opcode)) {more : List (List Opcode)} (h : more ≠ []) :
    trimLast context (hunks ++ more) = hunks ++ trimLast context more := by
  induction hunks with
  | nil => rfl
  | cons hunk hunks ih =>
    rw [List.cons_append, trimLast_cons hunk (by simp [h]), ih, List.cons_append]

/-- A hunk that ends with the context of a long run is not trimmed. -/
theorem trimLast_closed (hunks : List (List Opcode)) (current : List Opcode) (op : Opcode) :
    trimLast context (hunks ++ [current ++ [op.first context]]) = hunks ++ [current ++ [op.first context]] := by
  rw [trimLast_append hunks (List.cons_ne_nil _ _), trimLast, trimEnd_concat, trimTrail_first]

/-- The loop from any state, with its last hunk trimmed: the hunks there are,
the last of which no longer changes, and those still to come. -/
theorem trimLast_foldl (ops : List Opcode) (s : Grouping)
    (h : s.current = [] → trimLast context s.hunks = s.hunks) :
    trimLast context (ops.foldl (Grouping.step context) s).finish
      = s.hunks ++ grouped context s.current s.pending_context ops := by
  induction ops generalizing s with
  | nil =>
    rw [List.foldl_nil, Grouping.finish, grouped]
    split
    · next hcurrent => rw [h hcurrent, List.append_nil]
    · rw [trimLast_append _ (List.cons_ne_nil _ _), trimLast]
  | cons op ops ih =>
    rw [List.foldl_cons, grouped]
    by_cases hlong : op.isChange = false ∧ 2 * context < op.i2 - op.i1
    · rw [if_pos hlong, Grouping.step, if_pos hlong]
      by_cases hcurrent : s.current = []
      · rw [if_pos hcurrent, if_pos hcurrent, List.nil_append]
        exact ih ⟨s.hunks, [], some (op.last context)⟩ fun _ => h hcurrent
      · rw [if_neg hcurrent, if_neg hcurrent, ← List.append_assoc]
        exact ih ⟨s.hunks ++ [s.current ++ [op.first context]], [], some (op.last context)⟩
          fun _ => trimLast_closed s.hunks s.current op
    · rw [if_neg hlong, Grouping.step, if_neg hlong]
      exact ih ⟨s.hunks, s.current ++ s.pending_context.toList ++ [op], none⟩ fun hnil => by simp at hnil

/-- Trimming what a hunk begins with, before or after the loop goes on. -/
theorem trimFirst_foldl (ops : List Opcode) (op : Opcode) (current : List Opcode) (pending : Option Opcode) :
    trimFirst context (ops.foldl (Grouping.step context) ⟨[], op :: current, pending⟩).finish
      = (ops.foldl (Grouping.step context) ⟨[], trimLead context op :: current, pending⟩).finish := by
  have hclosed : ∀ (ops : List Opcode) (hunk : List Opcode) (hunks : List (List Opcode)) current pending,
      trimFirst context (ops.foldl (Grouping.step context) ⟨(op :: hunk) :: hunks, current, pending⟩).finish
        = (ops.foldl (Grouping.step context) ⟨(trimLead context op :: hunk) :: hunks, current, pending⟩).finish := by
    intro ops
    induction ops with
    | nil =>
      intro hunk hunks current pending
      by_cases hcurrent : current = []
      · simp [Grouping.finish, hcurrent, trimFirst]
      · simp [Grouping.finish, hcurrent, trimFirst]
    | cons o ops ih =>
      intro hunk hunks current pending
      rw [List.foldl_cons, List.foldl_cons, Grouping.step, Grouping.step]
      split
      · split
        · exact ih hunk hunks [] _
        · exact ih hunk (hunks ++ [current ++ [o.first context]]) [] _
      · exact ih hunk hunks _ none
  induction ops generalizing current pending with
  | nil => rfl
  | cons o ops ih =>
    rw [List.foldl_cons, List.foldl_cons, Grouping.step, Grouping.step]
    split
    · exact hclosed ops (current ++ [o.first context]) [] [] _
    · exact ih (current ++ pending.toList ++ [o]) none

theorem trimLead_change {op : Opcode} (h : op.isChange = true) : trimLead context op = op := by
  rw [trimLead, if_neg]
  simp [h]

theorem trimLead_last (op : Opcode) : trimLead context (op.last context) = op.last context := by
  rw [trimLead, if_neg]
  simp only [Opcode.last, not_and, Nat.not_lt]
  omega

/-- `_build_hunks` by recursion: a short equal run that the file begins with is
trimmed, and a long one is context. -/
theorem buildHunks_cons (op : Opcode) (rest : List Opcode)
    (hrest : op.isChange = false → ∀ next ∈ rest.head?, next.isChange = true) :
    buildHunks (op :: rest) context
      = if op.isChange = false ∧ 2 * context < op.i2 - op.i1 then grouped context [] (some (op.last context)) rest
        else grouped context [trimLead context op] none rest := by
  rw [buildHunks, List.foldl_cons, Grouping.step]
  by_cases hlong : op.isChange = false ∧ 2 * context < op.i2 - op.i1
  · rw [if_pos hlong, if_pos hlong]
    cases rest with
    | nil => rfl
    | cons next rest =>
      have hnext : ¬ (next.isChange = false ∧ 2 * context < next.i2 - next.i1) := by
        simp [hrest hlong.1 next (by simp)]
      rw [List.foldl_cons, Grouping.step, if_neg hnext, grouped, if_neg hnext]
      change trimLast context (trimFirst context
        (rest.foldl (Grouping.step context) ⟨[], [op.last context, next], none⟩).finish) = _
      rw [trimFirst_foldl, trimLead_last]
      exact trimLast_foldl rest ⟨[], [op.last context, next], none⟩ fun hnil => by simp at hnil
  · rw [if_neg hlong, if_neg hlong]
    change trimLast context (trimFirst context (rest.foldl (Grouping.step context) ⟨[], [op], none⟩).finish) = _
    rw [trimFirst_foldl]
    exact trimLast_foldl rest ⟨[], [trimLead context op], none⟩ fun hnil => by simp at hnil
/-! ## 2. The shape of a hunk -/

/-- Equal lines of one run of the opcodes. -/
structure EqualLines (opcodes : List Opcode) (e run : Opcode) : Prop where
  mem : run ∈ opcodes
  unchanged : run.isChange = false ∧ e.isChange = false
  old : run.i1 ≤ e.i1 ∧ e.i1 ≤ e.i2 ∧ e.i2 ≤ run.i2
  new : run.j1 ≤ e.j1 ∧ e.j1 ≤ e.j2 ∧ e.j2 ≤ run.j2
  same : e.i2 - e.i1 = e.j2 - e.j1 ∧ e.i1 - run.i1 = e.j1 - run.j1

/-- At most `context` equal lines right in front of a change. -/
def Leads (context : Nat) (opcodes : List Opcode) (first e : Opcode) : Prop :=
  ∃ run, EqualLines opcodes e run ∧ e.i2 - e.i1 ≤ context ∧ first.i1 = e.i2 ∧ first.j1 = e.j2

/-- At most `context` equal lines right behind a change. -/
def Follows (context : Nat) (opcodes : List Opcode) (last e : Opcode) : Prop :=
  ∃ run, EqualLines opcodes e run ∧ e.i2 - e.i1 ≤ context ∧ e.i1 = last.i2 ∧ e.j1 = last.j2

/-- A hunk up to its last change: some context, then opcodes from a change to a
change, with equal runs of at most `2 * context` lines between them. -/
def HunkFront (context : Nat) (opcodes front : List Opcode) (last : Opcode) : Prop :=
  ∃ before body first, front = before ++ body ∧ body.head? = some first ∧ body.getLast? = some last
    ∧ first.isChange = true ∧ last.isChange = true
    ∧ (∀ op ∈ body, op ∈ opcodes ∧ (op.isChange = false → op.i2 - op.i1 ≤ 2 * context))
    ∧ before.length ≤ 1 ∧ ∀ e ∈ before, Leads context opcodes first e

/-- A hunk: a front, and some context. -/
def HunkShape (context : Nat) (opcodes hunk : List Opcode) : Prop :=
  ∃ front after last, hunk = front ++ after ∧ HunkFront context opcodes front last
    ∧ after.length ≤ 1 ∧ ∀ e ∈ after, Follows context opcodes last e

variable {all : List Opcode}

theorem EqualLines.refl {op : Opcode} (hmem : op ∈ all) (hequal : op.isChange = false) (h : op.Shaped) :
    EqualLines all op op := by
  obtain ⟨tag, i1, i2, j1, j2⟩ := op
  obtain rfl : tag = .equal := by simpa [Opcode.isChange] using hequal
  obtain ⟨hold, hnew, hsame⟩ := h
  exact ⟨hmem, ⟨rfl, rfl⟩, ⟨le_rfl, hold.le, le_rfl⟩, ⟨le_rfl, hnew.le, le_rfl⟩, hsame, by simp⟩

theorem EqualLines.first {op : Opcode} (hmem : op ∈ all) (hequal : op.isChange = false) (h : op.Shaped)
    (hlong : context < op.i2 - op.i1) : EqualLines all (op.first context) op := by
  obtain ⟨tag, i1, i2, j1, j2⟩ := op
  obtain rfl : tag = .equal := by simpa [Opcode.isChange] using hequal
  obtain ⟨hold, hnew, hsame⟩ := h
  simp only at hold hnew hsame hlong
  constructor
  · exact hmem
  · exact ⟨rfl, rfl⟩
  · simp only [Opcode.first]
    omega
  · simp only [Opcode.first]
    omega
  · simp only [Opcode.first]
    omega

theorem EqualLines.last {op : Opcode} (hmem : op ∈ all) (hequal : op.isChange = false) (h : op.Shaped)
    (hlong : context < op.i2 - op.i1) : EqualLines all (op.last context) op := by
  obtain ⟨tag, i1, i2, j1, j2⟩ := op
  obtain rfl : tag = .equal := by simpa [Opcode.isChange] using hequal
  obtain ⟨hold, hnew, hsame⟩ := h
  simp only at hold hnew hsame hlong
  constructor
  · exact hmem
  · exact ⟨rfl, rfl⟩
  · simp only [Opcode.last]
    omega
  · simp only [Opcode.last]
    omega
  · simp only [Opcode.last]
    omega

/-- Context that leads to the next opcode, if that is a change. -/
def LeadsTo (context : Nat) (opcodes : List Opcode) (i j : Nat) (e : Opcode) : Prop :=
  ∃ run, EqualLines opcodes e run ∧ e.i2 - e.i1 ≤ context ∧ e.i2 = i ∧ e.j2 = j

theorem leadsTo_trimLead {op : Opcode} (hmem : op ∈ all) (hequal : op.isChange = false) (h : op.Shaped) :
    LeadsTo context all op.i2 op.j2 (trimLead context op) := by
  by_cases hlong : context < op.i2 - op.i1
  · rw [trimLead, if_pos ⟨hequal, hlong⟩]
    refine ⟨op, .last hmem hequal h hlong, ?_, rfl, rfl⟩
    simp only [Opcode.last]
    omega
  · rw [trimLead, if_neg (by simp [hlong])]
    exact ⟨op, .refl hmem hequal h, by omega, rfl, rfl⟩

theorem follows_trimTrail {op last : Opcode} (hmem : op ∈ all) (hequal : op.isChange = false) (h : op.Shaped)
    (hold : op.i1 = last.i2) (hnew : op.j1 = last.j2) : Follows context all last (trimTrail context op) := by
  by_cases hlong : context < op.i2 - op.i1
  · rw [trimTrail, if_pos ⟨hequal, hlong⟩]
    refine ⟨op, .first hmem hequal h hlong, ?_, hold, hnew⟩
    simp only [Opcode.first]
    omega
  · rw [trimTrail, if_neg (by simp [hlong])]
    exact ⟨op, .refl hmem hequal h, by omega, hold, hnew⟩

/-- A change behind the context of a hunk, or as its first opcode. -/
theorem HunkFront.begin {before : List Opcode} {op : Opcode} (hmem : op ∈ all) (hchange : op.isChange = true)
    (hlength : before.length ≤ 1) (h : ∀ e ∈ before, LeadsTo context all op.i1 op.j1 e) :
    HunkFront context all (before ++ [op]) op := by
  refine ⟨before, [op], op, rfl, rfl, rfl, hchange, hchange, ?_, hlength, ?_⟩
  · intro o ho
    obtain rfl : o = op := by simpa using ho
    exact ⟨hmem, fun hequal => absurd hequal (by simp [hchange])⟩
  · intro e he
    obtain ⟨run, hlines, hshort, hi, hj⟩ := h e he
    exact ⟨run, hlines, hshort, hi.symm, hj.symm⟩

/-- A hunk goes on with a change, behind a short equal run or at once. -/
theorem HunkFront.more {front : List Opcode} {last op : Opcode} (h : HunkFront context all front last)
    {between : List Opcode} (hbetween : ∀ e ∈ between, e ∈ all ∧ e.i2 - e.i1 ≤ 2 * context)
    (hmem : op ∈ all) (hchange : op.isChange = true) : HunkFront context all (front ++ between ++ [op]) op := by
  obtain ⟨before, body, first, rfl, hhead, hlast, hfirst, -, hbody, hlength, hlead⟩ := h
  refine ⟨before, body ++ between ++ [op], first, by simp [List.append_assoc], ?_, by simp, hfirst, hchange,
    ?_, hlength, hlead⟩
  · rw [List.append_assoc, List.head?_append, hhead]
    rfl
  · intro o ho
    rw [List.mem_append, List.mem_append, List.mem_singleton] at ho
    obtain (hold | hnew) | rfl := ho
    · exact hbody o hold
    · exact ⟨(hbetween o hnew).1, fun _ => (hbetween o hnew).2⟩
    · exact ⟨hmem, fun hequal => absurd hequal (by simp [hchange])⟩

/-- The loop with a hunk begun, at this point of both files. -/
inductive HunkState (context : Nat) (all : List Opcode) (i j : Nat) :
    (current : List Opcode) → (pending : Option Opcode) → List Opcode → Prop where
  /-- Only an equal run of the file is in it: a change follows. -/
  | lead {e : Opcode} {ops : List Opcode} : LeadsTo context all i j e → ops ≠ [] →
      (∀ next ∈ ops.head?, next.isChange = true) → HunkState context all i j [e] none ops
  /-- The context behind a long run waits for a change. -/
  | pending {e : Opcode} {ops : List Opcode} : LeadsTo context all i j e →
      (∀ next ∈ ops.head?, next.isChange = true) → HunkState context all i j [] (some e) ops
  /-- It ends with a change. -/
  | change {front : List Opcode} {last : Opcode} {ops : List Opcode} : HunkFront context all front last →
      last.i2 = i → last.j2 = j → HunkState context all i j front none ops
  /-- It ends with a short equal run. -/
  | run {front : List Opcode} {last e : Opcode} {ops : List Opcode} : HunkFront context all front last →
      e ∈ all → e.isChange = false → e.Shaped → e.i1 = last.i2 → e.j1 = last.j2 → e.i2 - e.i1 ≤ 2 * context →
      (∀ next ∈ ops.head?, next.isChange = true) → HunkState context all i j (front ++ [e]) none ops

theorem HunkFront.ends {front : List Opcode} {last : Opcode} (h : HunkFront context all front last) :
    ∃ init, front = init ++ [last] ∧ last.isChange = true := by
  obtain ⟨before, body, first, rfl, -, hlast, -, hchange, -⟩ := h
  obtain ⟨init, rfl⟩ := List.getLast?_eq_some_iff.mp hlast
  exact ⟨before ++ init, by simp, hchange⟩

theorem grouped_shape {m n : Nat} {ops : List Opcode} {i j : Nat} (htiles : Tiles m n i j ops)
    (hall : ∀ op ∈ ops, op ∈ all) {current : List Opcode} {pending : Option Opcode}
    (h : HunkState context all i j current pending ops) :
    ∀ hunk ∈ grouped context current pending ops, HunkShape context all hunk := by
  induction ops generalizing i j current pending with
  | nil =>
    intro hunk hhunk
    cases h with
    | lead hlead hne => exact absurd rfl hne
    | pending => simp [grouped] at hhunk
    | change hfront =>
      obtain ⟨init, rfl, hchange⟩ := hfront.ends
      rw [grouped, if_neg (by simp), trimEnd_concat, trimTrail, if_neg (by simp [hchange]),
        List.mem_singleton] at hhunk
      exact ⟨_, [], _, by simp [hhunk], hfront, by simp, by simp⟩
    | @run front last e _ hfront hmem hequal hshaped hi hj =>
      rw [grouped, if_neg (by simp), trimEnd_concat, List.mem_singleton] at hhunk
      refine ⟨front, [trimTrail context e], last, hhunk, hfront, by simp, ?_⟩
      intro o ho
      obtain rfl := List.mem_singleton.mp ho
      exact follows_trimTrail hmem hequal hshaped hi hj
  | cons op rest ih =>
    obtain ⟨hi, hj, hshaped, halternate, htiles⟩ := htiles
    have hmem : op ∈ all := hall op (by simp)
    have hrest : ∀ o ∈ rest, o ∈ all := fun o ho => hall o (List.mem_cons_of_mem _ ho)
    have hnot : ∀ {o : Opcode}, o.isChange = true → ¬ (o.isChange = false ∧ 2 * context < o.i2 - o.i1) := by
      intro o ho
      simp [ho]
    cases h with
    | @lead e _ hlead _ hnext =>
      have hchange : op.isChange = true := hnext op (by simp)
      rw [grouped, if_neg (hnot hchange)]
      have hfront : HunkFront context all ([e] ++ [op]) op := by
        refine HunkFront.begin hmem hchange (by simp) ?_
        intro o ho
        obtain rfl : o = e := by simpa using ho
        rw [hi, hj]
        exact hlead
      exact ih htiles hrest (.change hfront rfl rfl)
    | @pending e _ hlead hnext =>
      have hchange : op.isChange = true := hnext op (by simp)
      rw [grouped, if_neg (hnot hchange)]
      have hfront : HunkFront context all ([e] ++ [op]) op := by
        refine HunkFront.begin hmem hchange (by simp) ?_
        intro o ho
        obtain rfl : o = e := by simpa using ho
        rw [hi, hj]
        exact hlead
      exact ih htiles hrest (.change hfront rfl rfl)
    | @change _ last _ hfront hlasti hlastj =>
      by_cases hchange : op.isChange = true
      · rw [grouped, if_neg (hnot hchange), Option.toList_none]
        have hmore : HunkFront context all (current ++ [] ++ [op]) op := hfront.more (by simp) hmem hchange
        exact ih htiles hrest (.change hmore rfl rfl)
      · have hequal : op.isChange = false := by simpa using hchange
        by_cases hlong : op.isChange = false ∧ 2 * context < op.i2 - op.i1
        · rw [grouped, if_pos hlong]
          intro hunk hhunk
          obtain hclosed | hlater := List.mem_append.mp hhunk
          · obtain ⟨init, hinit, -⟩ := hfront.ends
            rw [if_neg (by simp [hinit]), List.mem_singleton] at hclosed
            refine ⟨current, [op.first context], last, hclosed, hfront, by simp, ?_⟩
            intro o ho
            obtain rfl := List.mem_singleton.mp ho
            refine ⟨op, .first hmem hequal hshaped (by omega), ?_, by rw [hlasti]; exact hi, by rw [hlastj]; exact hj⟩
            simp only [Opcode.first]
            omega
          · refine ih htiles hrest (.pending ⟨op, .last hmem hequal hshaped (by omega), ?_, rfl, rfl⟩
              (halternate hequal)) hunk hlater
            simp only [Opcode.last]
            omega
        · rw [grouped, if_neg hlong, Option.toList_none, List.append_nil]
          refine ih htiles hrest (.run hfront hmem hequal hshaped (by rw [hi, hlasti]) (by rw [hj, hlastj])
            (by simp only [hequal, true_and, Nat.not_lt] at hlong; exact hlong) (halternate hequal))
    | @run front last e _ hfront hemem heequal heshaped hei hej heshort hnext =>
      have hchange : op.isChange = true := hnext op (by simp)
      rw [grouped, if_neg (hnot hchange), Option.toList_none, List.append_nil]
      have hmore : HunkFront context all (front ++ [e] ++ [op]) op := by
        refine hfront.more ?_ hmem hchange
        intro o ho
        obtain rfl : o = e := by simpa using ho
        exact ⟨hemem, heshort⟩
      exact ih htiles hrest (.change hmore rfl rfl)

/-! ## 3. All changes, once -/

theorem isChange_trimTrail (op : Opcode) : (trimTrail context op).isChange = op.isChange := by
  rw [trimTrail]
  split
  · next h => rw [h.1]; rfl
  · rfl

theorem trimTrail_change {op : Opcode} (h : op.isChange = true) : trimTrail context op = op := by
  rw [trimTrail, if_neg]
  simp [h]

/-- The blocks of adjacent changes, with one begun. -/
def changeBlocks : (block : List Opcode) → List Opcode → List (List Opcode)
  | block, [] => if block = [] then [] else [block]
  | block, op :: rest =>
      if op.isChange then changeBlocks (block ++ [op]) rest
      else (if block = [] then [] else [block]) ++ changeBlocks [] rest

theorem changeBlocks_append (block l : List Opcode) {e : Opcode} (he : e.isChange = false) (r : List Opcode) :
    changeBlocks block (l ++ e :: r) = changeBlocks block l ++ changeBlocks [] r := by
  induction l generalizing block with
  | nil => simp [changeBlocks, he]
  | cons op l ih =>
    rw [List.cons_append, changeBlocks, changeBlocks]
    split
    · exact ih _
    · rw [ih, List.append_assoc]

theorem changeBlocks_equal {e : Opcode} (he : e.isChange = false) (r : List Opcode) :
    changeBlocks [] (e :: r) = changeBlocks [] r := by
  simp [changeBlocks, he]

theorem changeBlocks_concat (block l : List Opcode) {e : Opcode} (he : e.isChange = false) :
    changeBlocks block (l ++ [e]) = changeBlocks block l := by
  rw [changeBlocks_append block l he]
  simp [changeBlocks]

theorem changeBlocks_trimEnd (hunk : List Opcode) :
    changeBlocks [] (trimEnd context hunk) = changeBlocks [] hunk := by
  induction hunk using List.reverseRecOn with
  | nil => rfl
  | append_singleton hunk op _ =>
    rw [trimEnd_concat]
    by_cases hchange : op.isChange = true
    · rw [trimTrail_change hchange]
    · have hequal : op.isChange = false := by simpa using hchange
      rw [changeBlocks_concat _ _ hequal, changeBlocks_concat _ _ (by rw [isChange_trimTrail, hequal])]

theorem grouped_blocks (ops current : List Opcode) (pending : Option Opcode)
    (h : ∀ e ∈ pending, e.isChange = false) :
    (grouped context current pending ops).flatMap (changeBlocks [])
      = changeBlocks [] (current ++ pending.toList ++ ops) := by
  have hpending : ∀ l : List Opcode, changeBlocks [] (l ++ pending.toList) = changeBlocks [] l := by
    intro l
    cases pending with
    | none => simp
    | some e => exact changeBlocks_concat [] l (h e rfl)
  induction ops generalizing current pending with
  | nil =>
    rw [grouped, List.append_nil, hpending]
    split
    · next hcurrent => rw [hcurrent]; rfl
    · rw [List.flatMap_cons, List.flatMap_nil, List.append_nil, changeBlocks_trimEnd]
  | cons op ops ih =>
    rw [grouped]
    split
    · next hlong =>
      have hlast : ∀ e ∈ some (op.last context), e.isChange = false := by
        intro e he
        cases he
        rfl
      rw [List.flatMap_append, ih [] _ hlast fun l => changeBlocks_concat [] l rfl,
        changeBlocks_append [] _ hlong.1, hpending, List.nil_append, Option.toList_some, List.singleton_append,
        changeBlocks_equal (isChange_last op context)]
      congr 1
      split
      · next hcurrent => rw [hcurrent]; rfl
      · rw [List.flatMap_cons, List.flatMap_nil, List.append_nil,
          changeBlocks_concat _ _ (isChange_first op context)]
    · rw [ih _ none (by simp) (by simp)]
      simp [List.append_assoc]

theorem flatten_changeBlocks (block ops : List Opcode) :
    (changeBlocks block ops).flatten = block ++ ops.filter Opcode.isChange := by
  have hblock : ∀ block : List Opcode, (if block = [] then [] else [block]).flatten = block := by
    intro block
    split
    · next h => rw [h]; rfl
    · simp
  induction ops generalizing block with
  | nil => rw [changeBlocks, hblock]; simp
  | cons op ops ih =>
    rw [changeBlocks]
    split
    · next h => rw [ih, List.filter_cons_of_pos h]; simp
    · next h => rw [List.flatten_append, hblock, ih, List.filter_cons_of_neg h, List.nil_append]

theorem buildHunks_blocks {m n : Nat} {i j : Nat} {ops : List Opcode} (h : Tiles m n i j ops) :
    (buildHunks ops context).flatMap (changeBlocks []) = changeBlocks [] ops := by
  cases ops with
  | nil => rfl
  | cons op rest =>
    rw [buildHunks_cons op rest h.2.2.2.1]
    split
    · next hlong =>
      rw [grouped_blocks _ _ _ (by simp [isChange_last]), List.nil_append, Option.toList_some,
        List.singleton_append, changeBlocks_equal (isChange_last op context), changeBlocks_equal hlong.1]
    · rw [grouped_blocks _ _ _ (by simp), Option.toList_none, List.append_nil, List.singleton_append]
      by_cases hchange : op.isChange = true
      · rw [trimLead_change hchange]
      · have hequal : op.isChange = false := by simpa using hchange
        have hlead : (trimLead context op).isChange = false := by
          rw [trimLead]
          split
          · rfl
          · exact hequal
        rw [changeBlocks_equal hlead, changeBlocks_equal hequal]

/-- Every changed opcode is in one hunk, once and in order. -/
theorem buildHunks_changes {m n : Nat} {i j : Nat} {ops : List Opcode} (h : Tiles m n i j ops) :
    (buildHunks ops context).flatten.filter Opcode.isChange = ops.filter Opcode.isChange := by
  have hflat : ∀ hunks : List (List Opcode),
      (hunks.flatMap (changeBlocks [])).flatten = hunks.flatten.filter Opcode.isChange := by
    intro hunks
    induction hunks with
    | nil => rfl
    | cons hunk hunks ih =>
      rw [List.flatMap_cons, List.flatten_append, ih, flatten_changeBlocks, List.flatten_cons,
        List.filter_append, List.nil_append]
  rw [← hflat, buildHunks_blocks h, flatten_changeBlocks, List.nil_append]

/-! ## 4. Which opcodes a hunk has -/

/-- An opcode of a hunk: a change, or lines of an equal run. -/
def Within (opcodes : List Opcode) (op : Opcode) : Prop :=
  (op ∈ opcodes ∧ op.isChange = true) ∨ ∃ run, EqualLines opcodes op run

theorem EqualLines.trimTrail {e run : Opcode} (h : EqualLines all e run) :
    EqualLines all (trimTrail context e) run := by
  by_cases hlong : context < e.i2 - e.i1
  · rw [Agenthicc.Tui.trimTrail, if_pos ⟨h.unchanged.2, hlong⟩]
    have hold := h.old
    have hnew := h.new
    have hsame := h.same
    refine ⟨h.mem, ⟨h.unchanged.1, rfl⟩, ?_, ?_, ?_⟩
    · simp only [Opcode.first]
      omega
    · simp only [Opcode.first]
      omega
    · simp only [Opcode.first]
      omega
  · rw [Agenthicc.Tui.trimTrail, if_neg (by simp [hlong])]
    exact h

theorem Within.trimTrail {op : Opcode} (h : Within all op) : Within all (trimTrail context op) := by
  obtain ⟨hmem, hchange⟩ | ⟨run, hlines⟩ := h
  · rw [trimTrail_change hchange]
    exact .inl ⟨hmem, hchange⟩
  · exact .inr ⟨run, hlines.trimTrail⟩

theorem within_of_mem {op : Opcode} (hmem : op ∈ all) (h : op.Shaped) : Within all op := by
  by_cases hchange : op.isChange = true
  · exact .inl ⟨hmem, hchange⟩
  · exact .inr ⟨op, .refl hmem (by simpa using hchange) h⟩

theorem grouped_within {ops : List Opcode} (hops : ∀ op ∈ ops, op ∈ all ∧ op.Shaped) {current : List Opcode}
    (hcurrent : ∀ op ∈ current, Within all op) {pending : Option Opcode}
    (hpending : ∀ op ∈ pending, Within all op) :
    ∀ hunk ∈ grouped context current pending ops, ∀ op ∈ hunk, Within all op := by
  induction ops generalizing current pending with
  | nil =>
    intro hunk hhunk
    rw [grouped] at hhunk
    split at hhunk
    · simp at hhunk
    · obtain rfl := List.mem_singleton.mp hhunk
      induction current using List.reverseRecOn with
      | nil => simp [trimEnd]
      | append_singleton init op _ =>
        rw [trimEnd_concat]
        intro o ho
        obtain hold | hnew := List.mem_append.mp ho
        · exact hcurrent o (List.mem_append_left _ hold)
        · obtain rfl := List.mem_singleton.mp hnew
          exact (hcurrent op (by simp)).trimTrail
  | cons op ops ih =>
    rw [List.forall_mem_cons] at hops
    rw [grouped]
    split
    · next hlong =>
      intro hunk hhunk
      obtain hclosed | hlater := List.mem_append.mp hhunk
      · split at hclosed
        · simp at hclosed
        · obtain rfl := List.mem_singleton.mp hclosed
          intro o ho
          obtain hold | hnew := List.mem_append.mp ho
          · exact hcurrent o hold
          · obtain rfl := List.mem_singleton.mp hnew
            exact .inr ⟨op, .first hops.1.1 hlong.1 hops.1.2 (by omega)⟩
      · refine ih hops.2 (by simp) ?_ hunk hlater
        intro o ho
        cases ho
        exact .inr ⟨op, .last hops.1.1 hlong.1 hops.1.2 (by omega)⟩
    · refine ih hops.2 ?_ (by simp)
      intro o ho
      rw [List.mem_append, List.mem_append, List.mem_singleton, Option.mem_toList] at ho
      obtain (hold | hwaiting) | rfl := ho
      · exact hcurrent o hold
      · exact hpending o hwaiting
      · exact within_of_mem hops.1.1 hops.1.2

/-- Of a tiling: every opcode is shaped, and begins at or behind its place. -/
theorem Tiles.mem {m n i j : Nat} {ops : List Opcode} (h : Tiles m n i j ops) :
    ∀ op ∈ ops, op.Shaped ∧ i ≤ op.i1 ∧ j ≤ op.j1 := by
  induction ops generalizing i j with
  | nil => simp
  | cons op rest ih =>
    obtain ⟨hi, hj, hshaped, -, hrest⟩ := h
    have hle : op.i1 ≤ op.i2 ∧ op.j1 ≤ op.j2 := by
      unfold Opcode.Shaped at hshaped
      split at hshaped <;> omega
    rw [List.forall_mem_cons]
    refine ⟨⟨hshaped, hi.ge, hj.ge⟩, ?_⟩
    intro o ho
    obtain ⟨hs, hio, hjo⟩ := ih hrest o ho
    exact ⟨hs, by omega, by omega⟩

theorem Tiles.new_unique {m n i j : Nat} {ops : List Opcode} (h : Tiles m n i j ops) {a b : Opcode}
    (ha : a ∈ ops) (hb : b ∈ ops) {k : Nat} (hka : a.j1 ≤ k ∧ k < a.j2) (hkb : b.j1 ≤ k ∧ k < b.j2) : a = b := by
  induction ops generalizing i j with
  | nil => simp at ha
  | cons op rest ih =>
    obtain ⟨hi, hj, hshaped, -, hrest⟩ := h
    have hbehind : ∀ o ∈ rest, op.j2 ≤ o.j1 := fun o ho => (hrest.mem o ho).2.2
    obtain hopa | hresta := List.mem_cons.mp ha
    · obtain hopb | hrestb := List.mem_cons.mp hb
      · rw [hopa, hopb]
      · have := hbehind b hrestb
        rw [hopa] at hka
        omega
    · obtain hopb | hrestb := List.mem_cons.mp hb
      · have := hbehind a hresta
        rw [hopb] at hkb
        omega
      · exact ih hrest hresta hrestb

theorem buildHunks_within {m n i j : Nat} {ops : List Opcode} (h : Tiles m n i j ops) :
    ∀ hunk ∈ buildHunks ops context, ∀ op ∈ hunk, Within ops op := by
  cases ops with
  | nil => simp [buildHunks, Grouping.finish, trimFirst, trimLast]
  | cons op rest =>
    have hmem : ∀ o ∈ rest, o ∈ op :: rest ∧ o.Shaped := fun o ho =>
      ⟨List.mem_cons_of_mem _ ho, (h.mem o (List.mem_cons_of_mem _ ho)).1⟩
    have hshaped := (h.mem op (by simp)).1
    rw [buildHunks_cons op rest h.2.2.2.1]
    split
    · next hlong =>
      refine grouped_within hmem (by simp) ?_
      intro o ho
      cases ho
      exact .inr ⟨op, .last (by simp) hlong.1 hshaped (by omega)⟩
    · refine grouped_within hmem ?_ (by simp)
      intro o ho
      obtain rfl := List.mem_singleton.mp ho
      by_cases hchange : op.isChange = true
      · rw [trimLead_change hchange]
        exact .inl ⟨by simp, hchange⟩
      · have hlead : LeadsTo context (op :: rest) op.i2 op.j2 (trimLead context op) :=
          leadsTo_trimLead (by simp) (by simpa using hchange) hshaped
        obtain ⟨run, hlines, -⟩ := hlead
        exact .inr ⟨run, hlines⟩
/-! ## 5. Rows and highlighting -/

namespace Row

/-- The line of the old file that a row shows. -/
def oldIndex : Row → Option Nat
  | .context old _ => some old
  | .change row => row.oldIndex
  | .omitted _ | .gap => none

/-- The line of the new file that a row shows. -/
def newIndex : Row → Option Nat
  | .context _ new => some new
  | .change row => row.newIndex
  | .omitted _ | .gap => none

/-- The line of the new file that a context row shows. -/
def contextNew : Row → Option Nat
  | .context _ new => some new
  | .change _ | .omitted _ | .gap => none

end Row

theorem length_changeRows (changes : List Opcode) : (changeRows changes).length = totalRows changes := by
  induction changes with
  | nil => rfl
  | cons op changes ih =>
    rw [changeRows] at ih
    rw [changeRows, totalRows, List.flatMap_cons, List.length_append, ih, List.map_cons, List.sum_cons, totalRows]
    simp

/-- The changed rows of a block that the preview shows. -/
def visibleRows (changes : List Opcode) : List ChangeRow :=
  if totalRows changes ≤ DIFF_PREVIEW_LINES then changeRows changes
  else firstRows (changeRows changes) ++ lastRows (changeRows changes)

/-- A block shows all its rows, or the first three, how many are left out, and
the last three. -/
def ShowsBlock (changes : List Opcode) : Prop :=
  ((changeRows changes).length ≤ DIFF_PREVIEW_LINES
      ∧ renderChangeBlock changes = (changeRows changes).map .change)
    ∨ ∃ first hidden last, changeRows changes = first ++ hidden ++ last ∧ first.length = 3 ∧ last.length = 3
      ∧ renderChangeBlock changes
        = first.map Row.change ++ [Row.omitted hidden.length] ++ last.map Row.change

theorem showsBlock (changes : List Opcode) : ShowsBlock changes := by
  have hlength := length_changeRows changes
  by_cases hshort : totalRows changes ≤ DIFF_PREVIEW_LINES
  · left
    rw [renderChangeBlock, if_pos hshort, hlength]
    exact ⟨hshort, rfl⟩
  · right
    rw [DIFF_PREVIEW_LINES] at hshort
    refine ⟨(changeRows changes).take 3, ((changeRows changes).drop 3).take (totalRows changes - 6),
      lastRows (changeRows changes), ?_, ?_, ?_, ?_⟩
    · have hrest : (changeRows changes).drop 3
          = ((changeRows changes).drop 3).take (totalRows changes - 6) ++ lastRows (changeRows changes) := by
        have hcut : 3 + (totalRows changes - 6) = (changeRows changes).length - DIFF_PREVIEW_LINES / 2 := by
          rw [DIFF_PREVIEW_LINES]
          omega
        rw [lastRows, ← hcut, ← List.drop_drop, List.take_append_drop]
      rw [List.append_assoc, ← hrest, List.take_append_drop]
    · rw [List.length_take]
      omega
    · rw [lastRows, List.length_drop, DIFF_PREVIEW_LINES]
      omega
    · have hhidden : (((changeRows changes).drop 3).take (totalRows changes - 6)).length = totalRows changes - 6 := by
        rw [List.length_take, List.length_drop]
        omega
      rw [renderChangeBlock, if_neg (by rw [DIFF_PREVIEW_LINES]; exact hshort), hhidden]
      rfl

theorem filterMap_renderChangeBlock (index : Row → Option Nat) (homitted : ∀ n, index (.omitted n) = none)
    (changes : List Opcode) :
    (renderChangeBlock changes).filterMap index = (visibleRows changes).filterMap fun row => index (.change row) := by
  rw [renderChangeBlock, visibleRows]
  split
  · rw [List.filterMap_map]
    rfl
  · rw [List.filterMap_append, List.filterMap_append, List.filterMap_append, List.filterMap_map, List.filterMap_map]
    simp [homitted]

theorem visibleChangeIndices_eq (changes : List Opcode) :
    visibleChangeIndices changes = (((visibleRows changes).filterMap ChangeRow.oldIndex).toFinset, ∅) := by
  rw [visibleChangeIndices, visibleRows]
  by_cases h : totalRows changes ≤ DIFF_PREVIEW_LINES
  · simp [drain, h, Nat.not_lt.mpr h]
  · simp [drain, h, Nat.lt_of_not_le h]

theorem filterMap_contextRows (op : Opcode) :
    (contextRows op).filterMap Row.oldIndex = List.range' op.i1 (op.i2 - op.i1)
      ∧ (contextRows op).filterMap Row.contextNew = List.range' op.j1 (op.i2 - op.i1) := by
  rw [contextRows, List.filterMap_map, List.filterMap_map, List.range'_eq_map_range, List.range'_eq_map_range]
  constructor
  · rw [← List.filterMap_eq_map]
    rfl
  · rw [← List.filterMap_eq_map]
    rfl

/-- The selected lines of a hunk are those its rows show of the old file, and
its context of the new one. -/
theorem selectHunk_eq (hunk block : List Opcode)
    (h : ∀ op ∈ hunk, op.isChange = false → op.i2 - op.i1 = op.j2 - op.j1) :
    selectHunk block hunk = (((renderHunk block hunk).filterMap Row.oldIndex).toFinset,
      ((renderHunk block hunk).filterMap Row.contextNew).toFinset) := by
  have hold : ∀ block, ((renderChangeBlock block).filterMap Row.oldIndex)
      = (visibleRows block).filterMap ChangeRow.oldIndex := fun block =>
    filterMap_renderChangeBlock Row.oldIndex (fun _ => rfl) block
  have hnew : ∀ block, ((renderChangeBlock block).filterMap Row.contextNew) = [] := by
    intro block
    rw [filterMap_renderChangeBlock Row.contextNew (fun _ => rfl) block]
    simp [Row.contextNew]
  induction hunk generalizing block with
  | nil => rw [selectHunk, renderHunk, visibleChangeIndices_eq, hold, hnew]; rfl
  | cons op hunk ih =>
    rw [List.forall_mem_cons] at h
    rw [selectHunk, renderHunk]
    split
    · exact ih _ h.2
    · next hchange =>
      have hsame := h.1 (by simpa using hchange)
      obtain ⟨hcontextOld, hcontextNew⟩ := filterMap_contextRows op
      rw [ih [] h.2, visibleChangeIndices_eq]
      simp only [List.filterMap_append, hold, hnew, hcontextOld, hcontextNew, List.toFinset_append, unite,
        contextIndices, hsame, List.nil_append, Finset.empty_union]

theorem filterMap_renderHunks (index : Row → Option Nat) (hgap : index .gap = none) (hunks : List (List Opcode)) :
    (renderHunks hunks).filterMap index = hunks.flatMap fun hunk => (renderHunk [] hunk).filterMap index := by
  induction hunks with
  | nil => rfl
  | cons hunk hunks ih =>
    cases hunks with
    | nil => simp [renderHunks]
    | cons next hunks =>
      rw [renderHunks, List.filterMap_append, List.filterMap_cons_none hgap, ih]
      rfl

theorem selectHunks_eq (hunks : List (List Opcode))
    (h : ∀ hunk ∈ hunks, ∀ op ∈ hunk, op.isChange = false → op.i2 - op.i1 = op.j2 - op.j1) :
    selectHunks hunks = (((renderHunks hunks).filterMap Row.oldIndex).toFinset,
      ((renderHunks hunks).filterMap Row.contextNew).toFinset) := by
  rw [filterMap_renderHunks Row.oldIndex rfl, filterMap_renderHunks Row.contextNew rfl]
  induction hunks with
  | nil => rfl
  | cons hunk hunks ih =>
    rw [List.forall_mem_cons] at h
    rw [selectHunks, List.foldr_cons, ← selectHunks, ih h.2, selectHunk_eq hunk [] h.1]
    simp [unite]

/-- The added lines that the rows show are the visible ones of the blocks. -/
theorem mem_renderHunk_add (hunk block : List Opcode) (k : Nat) :
    Row.change (.add k) ∈ renderHunk block hunk
      ↔ ∃ b ∈ changeBlocks block hunk, ChangeRow.add k ∈ visibleRows b := by
  have hblock : ∀ block : List Opcode, Row.change (.add k) ∈ renderChangeBlock block
      ↔ ∃ b ∈ (if block = [] then [] else [block]), ChangeRow.add k ∈ visibleRows b := by
    intro block
    by_cases hnil : block = []
    · rw [hnil]
      simp [renderChangeBlock, changeRows, totalRows]
    · have hvisible : (∃ b ∈ [block], ChangeRow.add k ∈ visibleRows b) ↔ ChangeRow.add k ∈ visibleRows block := by
        simp
      rw [if_neg hnil, hvisible, renderChangeBlock, visibleRows]
      split
      · simp
      · simp
  induction hunk generalizing block with
  | nil => rw [renderHunk, changeBlocks]; exact hblock block
  | cons op hunk ih =>
    rw [renderHunk, changeBlocks]
    split
    · exact ih _
    · have hcontext : Row.change (.add k) ∉ contextRows op := by simp [contextRows]
      simp only [List.mem_append, hblock, ih, hcontext, or_false, or_and_right, exists_or]

theorem mem_renderHunks_add (hunks : List (List Opcode)) (k : Nat) :
    Row.change (.add k) ∈ renderHunks hunks
      ↔ ∃ b ∈ hunks.flatMap (changeBlocks []), ChangeRow.add k ∈ visibleRows b := by
  induction hunks with
  | nil => simp [renderHunks]
  | cons hunk hunks ih =>
    cases hunks with
    | nil => rw [renderHunks, mem_renderHunk_add]; simp
    | cons next hunks =>
      rw [renderHunks, List.mem_append, List.mem_cons, ih, mem_renderHunk_add]
      simp only [reduceCtorEq, false_or, List.flatMap_cons, List.mem_append, or_and_right, exists_or]

/-! ## 6. The preview -/

/-- A preview shows the right rows, and highlights what it shows. -/
structure PreviewRight (old_len new_len : Nat) (opcodes : List Opcode) (context : Nat) : Prop where
  /-- Every changed opcode is in the hunks, once and in order. -/
  changes_once : (buildHunks opcodes context).flatten.filter Opcode.isChange = opcodes.filter Opcode.isChange
  /-- A hunk has a change, short equal runs between its changes, and context. -/
  shaped : ∀ hunk ∈ buildHunks opcodes context, HunkShape context opcodes hunk
  blocks : ∀ changes, ShowsBlock changes
  old_highlighted : (renderFileDiff old_len new_len opcodes context).old_indices
    = ((renderFileDiff old_len new_len opcodes context).rows.filterMap Row.oldIndex).toFinset
  new_highlighted : (renderFileDiff old_len new_len opcodes context).new_indices
    = ((renderFileDiff old_len new_len opcodes context).rows.filterMap Row.newIndex).toFinset

/-- When it does: there is a change, or no equal run short enough for a hunk of
its own, and no block of changes shows an added line. -/
def HighlightsAll (opcodes : List Opcode) (context : Nat) : Prop :=
  ((∃ op ∈ opcodes, op.isChange = true) ∨ ∀ op ∈ opcodes, 2 * context < op.i2 - op.i1)
    ∧ ∀ block ∈ changeBlocks [] opcodes, ∀ k, ChangeRow.add k ∉ visibleRows block

variable {old_len new_len : Nat}

theorem HunkShape.has_change {hunk : List Opcode} (h : HunkShape context all hunk) :
    ∃ op ∈ hunk, op.isChange = true := by
  obtain ⟨front, after, last, rfl, hfront, -, -⟩ := h
  obtain ⟨init, rfl, hchange⟩ := hfront.ends
  exact ⟨last, by simp, hchange⟩

/-- Only the equal run of two files that are the same makes a hunk without a
change. -/
theorem buildHunks_shaped_iff {i j : Nat} {ops : List Opcode} (h : Tiles old_len new_len i j ops) :
    (∀ hunk ∈ buildHunks ops context, HunkShape context ops hunk)
      ↔ (∃ op ∈ ops, op.isChange = true) ∨ ∀ op ∈ ops, 2 * context < op.i2 - op.i1 := by
  cases ops with
  | nil => simp [buildHunks, Grouping.finish, trimFirst, trimLast]
  | cons op rest =>
    obtain ⟨-, -, hshaped, halternate, htiles⟩ := h
    have hrest : ∀ o ∈ rest, o ∈ op :: rest := fun o ho => List.mem_cons_of_mem _ ho
    rw [buildHunks_cons op rest halternate]
    by_cases hchange : op.isChange = true
    · have hfront : HunkFront context (op :: rest) ([] ++ [op]) op :=
        HunkFront.begin List.mem_cons_self hchange (by simp) (by simp)
      have hstate : HunkState context (op :: rest) op.i2 op.j2 [op] none rest := .change hfront rfl rfl
      rw [if_neg (by simp [hchange]), trimLead_change hchange]
      exact ⟨fun _ => .inl ⟨op, by simp, hchange⟩, fun _ => grouped_shape htiles hrest hstate⟩
    · have hequal : op.isChange = false := by simpa using hchange
      by_cases hlong : 2 * context < op.i2 - op.i1
      · have hlead : LeadsTo context (op :: rest) op.i2 op.j2 (op.last context) := by
          refine ⟨op, .last (by simp) hequal hshaped (by omega), ?_, rfl, rfl⟩
          simp only [Opcode.last]
          omega
        rw [if_pos ⟨hequal, hlong⟩]
        have hshape := grouped_shape htiles hrest (.pending hlead (halternate hequal))
        refine ⟨fun _ => ?_, fun _ => hshape⟩
        cases rest with
        | nil => exact .inr (by simpa using hlong)
        | cons next rest => exact .inl ⟨next, by simp, halternate hequal next (by simp)⟩
      · rw [if_neg (fun hc => hlong hc.2)]
        cases rest with
        | nil =>
          -- the run of two equal files: the hunk has no change
          constructor
          · intro hshape
            obtain ⟨o, ho, hochange⟩ := (hshape (trimEnd context [trimLead context op]) (by simp [grouped])).has_change
            obtain rfl := List.mem_singleton.mp ho
            rw [isChange_trimTrail, trimLead] at hochange
            split at hochange
            · cases hochange
            · exact .inl ⟨op, by simp, hochange⟩
          · rintro (⟨o, ho, hochange⟩ | hall)
            · obtain rfl := List.mem_singleton.mp ho
              exact absurd hochange hchange
            · exact absurd (hall op (by simp)) hlong
        | cons next rest =>
          have hlead : LeadsTo context (op :: next :: rest) op.i2 op.j2 (trimLead context op) :=
            leadsTo_trimLead List.mem_cons_self hequal hshaped
          have hstate := HunkState.lead hlead (List.cons_ne_nil next rest) (halternate hequal)
          exact ⟨fun _ => .inl ⟨next, by simp, halternate hequal next (by simp)⟩,
            fun _ => grouped_shape htiles hrest hstate⟩

/-- Nothing is added or removed exactly where nothing changes. -/
theorem unchanged_iff {i j : Nat} {ops : List Opcode} (h : Tiles old_len new_len i j ops) :
    ¬ (addedLines ops ≠ 0 ∨ removedLines ops ≠ 0) ↔ ∀ op ∈ ops, op.isChange = false := by
  induction ops generalizing i j with
  | nil => simp [addedLines, removedLines]
  | cons op rest ih =>
    obtain ⟨-, -, hshaped, -, hrest⟩ := h
    have hih := ih hrest
    rw [addedLines, removedLines] at hih ⊢
    obtain ⟨tag, i1, i2, j1, j2⟩ := op
    cases tag with
    | equal => simpa [Opcode.isChange] using hih
    | replace =>
      have : i2 - i1 ≠ 0 := by simp only [Opcode.Shaped] at hshaped; omega
      simp [Opcode.isChange, this]
    | delete =>
      have : i2 - i1 ≠ 0 := by simp only [Opcode.Shaped] at hshaped; omega
      simp [Opcode.isChange, this]
    | insert =>
      have : j2 - j1 ≠ 0 := by simp only [Opcode.Shaped] at hshaped; omega
      simp [Opcode.isChange, this]

theorem length_eq_of_unchanged {i j : Nat} {ops : List Opcode} (h : Tiles old_len new_len i j ops) (hij : i = j)
    (hall : ∀ op ∈ ops, op.isChange = false) : old_len = new_len := by
  induction ops generalizing i j with
  | nil => rw [← h.1, ← h.2, hij]
  | cons op rest ih =>
    obtain ⟨hi, hj, hshaped, -, hrest⟩ := h
    rw [List.forall_mem_cons] at hall
    refine ih hrest ?_ hall.2
    obtain ⟨tag, i1, i2, j1, j2⟩ := op
    obtain rfl : tag = .equal := by simpa [Opcode.isChange] using hall.1
    simp only [Opcode.Shaped] at hshaped
    simp only at hi hj ⊢
    omega

theorem mem_changeRows_add {block : List Opcode} {k : Nat} :
    ChangeRow.add k ∈ changeRows block ↔ ∃ op ∈ block, op.j1 ≤ k ∧ k < op.j2 := by
  simp only [changeRows, List.mem_flatMap, List.mem_append, List.mem_map, reduceCtorEq, and_false, exists_false,
    false_or, ChangeRow.add.injEq, exists_eq_right, List.mem_range'_1]
  exact exists_congr fun op => and_congr_right fun _ => by omega

theorem visibleRows_subset (block : List Opcode) : visibleRows block ⊆ changeRows block := by
  rw [visibleRows]
  split
  · exact List.Subset.refl _
  · exact List.append_subset.mpr ⟨List.take_subset _ _, List.drop_subset _ _⟩

theorem mem_contextNew {block hunk : List Opcode} {k : Nat}
    (h : k ∈ (renderHunk block hunk).filterMap Row.contextNew) :
    ∃ op ∈ hunk, op.isChange = false ∧ op.j1 ≤ k ∧ k < op.j1 + (op.i2 - op.i1) := by
  have hnone : ∀ block, (renderChangeBlock block).filterMap Row.contextNew = [] := by
    intro block
    rw [filterMap_renderChangeBlock Row.contextNew (fun _ => rfl) block]
    simp [Row.contextNew]
  induction hunk generalizing block with
  | nil =>
    rw [renderHunk, hnone] at h
    cases h
  | cons op hunk ih =>
    rw [renderHunk] at h
    split at h
    · obtain ⟨o, ho, hk⟩ := ih h
      exact ⟨o, List.mem_cons_of_mem _ ho, hk⟩
    · next hchange =>
      rw [List.filterMap_append, List.filterMap_append, hnone, List.nil_append, List.mem_append,
        (filterMap_contextRows op).2, List.mem_range'_1] at h
      obtain hhere | hlater := h
      · exact ⟨op, List.mem_cons_self, by simpa using hchange, hhere⟩
      · obtain ⟨o, ho, hk⟩ := ih hlater
        exact ⟨o, List.mem_cons_of_mem _ ho, hk⟩

theorem mem_of_changeBlocks {ops block : List Opcode} (hblock : block ∈ changeBlocks [] ops) {op : Opcode}
    (hop : op ∈ block) : op ∈ ops ∧ op.isChange = true := by
  have hflat : op ∈ (changeBlocks [] ops).flatten := List.mem_flatten.mpr ⟨block, hblock, hop⟩
  rw [flatten_changeBlocks, List.nil_append] at hflat
  exact List.mem_filter.mp hflat

theorem context_not_added {ops : List Opcode} (h : Tiles old_len new_len 0 0 ops) {k : Nat}
    (hcontext : k ∈ (renderHunks (buildHunks ops context)).filterMap Row.contextNew)
    {block : List Opcode} (hblock : block ∈ changeBlocks [] ops) : ChangeRow.add k ∉ visibleRows block := by
  intro hadd
  rw [filterMap_renderHunks Row.contextNew rfl] at hcontext
  obtain ⟨hunk, hhunk, hrow⟩ := List.mem_flatMap.mp hcontext
  obtain ⟨e, he, hequal, hlow, hhigh⟩ := mem_contextNew hrow
  obtain ⟨op, hop, hopk⟩ := mem_changeRows_add.mp (visibleRows_subset block hadd)
  obtain ⟨hmem, hchange⟩ := mem_of_changeBlocks hblock hop
  obtain ⟨-, hechange⟩ | ⟨run, hlines⟩ := buildHunks_within h hunk hhunk e he
  · rw [hequal] at hechange
    cases hechange
  · have hnew := hlines.new
    have hsame := hlines.same
    have hrun : run = op := h.new_unique hlines.mem hmem ⟨by omega, by omega⟩ hopk
    have hunchanged := hlines.unchanged.1
    rw [hrun, hchange] at hunchanged
    cases hunchanged

theorem newIndex_toFinset (rows : List Row) :
    (rows.filterMap Row.newIndex).toFinset = (rows.filterMap Row.contextNew).toFinset
      ∪ (rows.filterMap fun row => match row with | .change (.add k) => some k | _ => none).toFinset := by
  ext k
  simp only [List.mem_toFinset, Finset.mem_union, List.mem_filterMap]
  constructor
  · rintro ⟨row, hrow, hk⟩
    cases row with
    | context old new => exact .inl ⟨_, hrow, hk⟩
    | change row =>
      cases row with
      | delete index => cases hk
      | add index => exact .inr ⟨_, hrow, hk⟩
    | omitted count => cases hk
    | gap => cases hk
  · rintro (⟨row, hrow, hk⟩ | ⟨row, hrow, hk⟩)
    · cases row with
      | context old new => exact ⟨_, hrow, hk⟩
      | change row => cases hk
      | omitted count => cases hk
      | gap => cases hk
    · cases row with
      | context old new => cases hk
      | change row =>
        cases row with
        | delete index => cases hk
        | add index => exact ⟨_, hrow, hk⟩
      | omitted count => cases hk
      | gap => cases hk

/-- The context of a preview is all it shows of the new file exactly where no
block shows an added line. -/
theorem new_highlighted_iff {ops : List Opcode} (h : Tiles old_len new_len 0 0 ops) :
    ((renderHunks (buildHunks ops context)).filterMap Row.contextNew).toFinset
        = ((renderHunks (buildHunks ops context)).filterMap Row.newIndex).toFinset
      ↔ ∀ block ∈ changeBlocks [] ops, ∀ k, ChangeRow.add k ∉ visibleRows block := by
  rw [newIndex_toFinset, eq_comm, Finset.union_eq_left]
  constructor
  · intro hsubset block hblock k hadd
    have hrow : Row.change (.add k) ∈ renderHunks (buildHunks ops context) :=
      (mem_renderHunks_add _ k).mpr ⟨block, by rw [buildHunks_blocks h]; exact hblock, hadd⟩
    have hcontext := hsubset (List.mem_toFinset.mpr (List.mem_filterMap.mpr ⟨_, hrow, rfl⟩))
    exact context_not_added h (List.mem_toFinset.mp hcontext) hblock hadd
  · intro hnone k hk
    obtain ⟨row, hrow, hk⟩ := List.mem_filterMap.mp (List.mem_toFinset.mp hk)
    split at hk
    · obtain rfl := Option.some.inj hk
      obtain ⟨block, hblock, hadd⟩ := (mem_renderHunks_add _ _).mp hrow
      rw [buildHunks_blocks h] at hblock
      exact absurd hadd (hnone block hblock _)
    · cases hk

/-- The preview of two files is right exactly where there is a change or no
hunk, and no block of changes shows an added line. -/
theorem preview_right_iff (opcodes : OpcodeList old_len new_len) (context : Nat) :
    PreviewRight old_len new_len opcodes.ops context ↔ HighlightsAll opcodes.ops context := by
  obtain ⟨ops, h⟩ := opcodes
  have hshaped : (∀ hunk ∈ buildHunks ops context, HunkShape context ops hunk) ↔ _ := buildHunks_shaped_iff h
  have hsame : ∀ hunk ∈ buildHunks ops context, ∀ op ∈ hunk, op.isChange = false →
      op.i2 - op.i1 = op.j2 - op.j1 := by
    intro hunk hhunk op hop hequal
    obtain ⟨-, hchange⟩ | ⟨run, hlines⟩ := buildHunks_within h hunk hhunk op hop
    · rw [hequal] at hchange
      cases hchange
    · exact hlines.same.1
  have hhighlighted : (renderFileDiff old_len new_len ops context).old_indices
        = ((renderFileDiff old_len new_len ops context).rows.filterMap Row.oldIndex).toFinset
      ∧ ((renderFileDiff old_len new_len ops context).new_indices
          = ((renderFileDiff old_len new_len ops context).rows.filterMap Row.newIndex).toFinset
        ↔ ∀ block ∈ changeBlocks [] ops, ∀ k, ChangeRow.add k ∉ visibleRows block) := by
    rw [renderFileDiff]
    split
    · simp only [selectHunks_eq _ hsame, true_and]
      exact new_highlighted_iff h
    · next hunchanged =>
      have hall := (unchanged_iff h).mp hunchanged
      have hlength := length_eq_of_unchanged h rfl hall
      have hblocks : ∀ block ∈ changeBlocks [] ops, ∀ k, ChangeRow.add k ∉ visibleRows block := by
        intro block hblock k hadd
        obtain ⟨op, hop, -⟩ := mem_changeRows_add.mp (visibleRows_subset block hadd)
        obtain ⟨hmem, hchange⟩ := mem_of_changeBlocks hblock hop
        rw [hall op hmem] at hchange
        cases hchange
      have hrange : ∀ f : Row → Option Nat, (∀ k, f (.context k k) = some k) →
          (((List.range old_len).map fun index => Row.context index index).filterMap f).toFinset
            = Finset.range old_len := by
        intro f hf
        ext k
        simp [hf]
      rw [hrange Row.oldIndex fun _ => rfl, hrange Row.newIndex fun _ => rfl, hlength]
      simp only [true_and, true_iff]
      exact hblocks
  constructor
  · intro hright
    exact ⟨hshaped.mp hright.shaped, hhighlighted.2.mp hright.new_highlighted⟩
  · intro hall
    exact ⟨buildHunks_changes h, hshaped.mpr hall.1, showsBlock, hhighlighted.1, hhighlighted.2.mpr hall.2⟩

/-- One line in place of another: the new one is shown, and not highlighted. -/
theorem new_line_not_highlighted : ¬ PreviewRight 1 1 [⟨.replace, 0, 1, 0, 1⟩] 3 := by
  intro h
  have hnew := h.new_highlighted
  revert hnew
  decide

end Agenthicc.Tui
