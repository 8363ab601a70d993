/-
Agenthicc.Tui.SessionInspectTheorems — when the resume summary of
`inspect_session` says what `fold_resume_state` does.

Both folds are read as marks of turns: a start, an end, a tool result. `Has`
says that a state holds what the marks so far give, and the turn that either
fold reports is the last one that its marks leave open. The two differ in the
marks: the fold ends at the first line that is not JSON, and the inspection
passes it over.
-/
import Agenthicc.Memory.ResumeState
import Agenthicc.Tui.SessionInspect

open Python
open Agenthicc.Memory (foldResumeState journalEntries ResumeFold IncompleteTurn StartedTurn readLoop_eq)

namespace Agenthicc.Tui

/-! ## 1. Marks of turns -/

inductive TurnMark where
  | started (turn_id : Json) (base_count : Int)
  | ended (turn_id : Json)
  | tool (turn_id : Json)
  deriving DecidableEq

namespace TurnMark

def start? : TurnMark → Option (Json × Int)
  | .started turn_id base_count => some (turn_id, base_count)
  | _ => none

def end? : TurnMark → Option Json
  | .ended turn_id => some turn_id
  | _ => none

def tool? : TurnMark → Option Json
  | .tool turn_id => some turn_id
  | _ => none

end TurnMark

def turnStarts (ms : List TurnMark) : List (Json × Int) := ms.filterMap TurnMark.start?

def turnEnds (ms : List TurnMark) : List Json := ms.filterMap TurnMark.end?

def toolCount (ms : List TurnMark) (turn_id : Json) : Nat := (ms.filterMap TurnMark.tool?).count turn_id

/-- The marks of records, of which one may not be readable. -/
def marks (mark : Json → Except PyError (Option TurnMark)) : List Json → Except PyError (List TurnMark)
  | [] => .ok []
  | v :: vs => do
      let m ← mark v
      let ms ← marks mark vs
      return m.toList ++ ms

theorem marks_append (mark : Json → Except PyError (Option TurnMark)) (vs ws : List Json) :
    marks mark (vs ++ ws) = (do
      let ms ← marks mark vs
      let ms' ← marks mark ws
      return ms ++ ms') := by
  induction vs with
  | nil =>
    rw [List.nil_append, marks]
    cases marks mark ws with
    | error exc => rfl
    | ok ms => rfl
  | cons v vs ih =>
    rw [List.cons_append, marks, marks, ih]
    cases mark v with
    | error exc => rfl
    | ok m =>
      cases marks mark vs with
      | error exc => rfl
      | ok ms =>
        cases marks mark ws with
        | error exc => rfl
        | ok ms' =>
          change Except.ok (m.toList ++ (ms ++ ms')) = Except.ok (m.toList ++ ms ++ ms')
          rw [List.append_assoc]

theorem foldlM_marks {σ : Type} {body : σ → Json → Except PyError σ} {mark : Json → Except PyError (Option TurnMark)}
    {Has : σ → List TurnMark → Prop}
    (hstep : ∀ s ms v, Has s ms → (∃ exc, mark v = .error exc ∧ body s v = .error exc)
      ∨ ∃ m s', mark v = .ok m ∧ body s v = .ok s' ∧ Has s' (ms ++ m.toList)) (vs : List Json) {s : σ}
    {ms : List TurnMark} (h : Has s ms) :
    (∃ exc, marks mark vs = .error exc ∧ vs.foldlM body s = .error exc)
      ∨ ∃ ms' s', marks mark vs = .ok ms' ∧ vs.foldlM body s = .ok s' ∧ Has s' (ms ++ ms') := by
  induction vs generalizing s ms with
  | nil => exact .inr ⟨[], s, rfl, rfl, by rwa [List.append_nil]⟩
  | cons v vs ih =>
    rw [marks, List.foldlM_cons]
    obtain ⟨exc, hmark, hbody⟩ | ⟨m, s', hmark, hbody, hhas⟩ := hstep s ms v h
    · rw [hmark, hbody]
      exact .inl ⟨exc, rfl, rfl⟩
    · rw [hmark, hbody]
      obtain ⟨exc, hmarks, hfold⟩ | ⟨ms', s'', hmarks, hfold, hhas'⟩ := ih hhas
      · left
        refine ⟨exc, ?_, hfold⟩
        change (marks mark vs >>= fun ms => .ok (m.toList ++ ms)) = _
        rw [hmarks]
        rfl
      · right
        refine ⟨m.toList ++ ms', s'', ?_, hfold, by rwa [List.append_assoc] at hhas'⟩
        change (marks mark vs >>= fun ms => .ok (m.toList ++ ms)) = _
        rw [hmarks]
        rfl

/-! ## 2. The turn that is left open -/

variable {py : Interp}

/-- One of the marks ends the turn. -/
def Ended (py : Interp) (ms : List TurnMark) (turn_id : Json) : Prop := ∃ c ∈ turnEnds ms, scalarEq py turn_id c = true

instance (ms : List TurnMark) (turn_id : Json) : Decidable (Ended py ms turn_id) :=
  inferInstanceAs (Decidable (∃ c ∈ turnEnds ms, _))

/-- The last of the starts whose turn the marks do not end. -/
def LastOpen (py : Interp) (starts : List (Json × Int)) (ms : List TurnMark) (s : Json × Int) : Prop :=
  ∃ before after, starts = before ++ s :: after ∧ ¬ Ended py ms s.1 ∧ ∀ t ∈ after, Ended py ms t.1

theorem lastOpen_iff {starts : List (Json × Int)} {ms : List TurnMark} {s : Json × Int} :
    LastOpen py starts ms s ↔ (starts.reverse.find? fun s => ¬ Ended py ms s.1) = some s := by
  rw [List.find?_eq_some_iff_append]
  constructor
  · intro h
    obtain ⟨before, after, rfl, hopen, hrest⟩ := h
    refine ⟨by simpa using hopen, after.reverse, before.reverse, by simp, ?_⟩
    simpa using fun t b ht => hrest (t, b) ht
  · intro h
    obtain ⟨hopen, after, before, hsplit, hrest⟩ := h
    refine ⟨before.reverse, after.reverse, ?_, by simpa using hopen, ?_⟩
    · rw [← List.reverse_reverse starts, hsplit]
      simp
    · intro t ht
      simpa using hrest t (List.mem_reverse.mp ht)

theorem LastOpen.unique {starts : List (Json × Int)} {ms : List TurnMark} {s t : Json × Int}
    (hs : LastOpen py starts ms s) (ht : LastOpen py starts ms t) : s = t := by
  rw [lastOpen_iff] at hs ht
  rw [hs] at ht
  exact Option.some.inj ht

/-- Either every turn is ended, or one is the last that is open. -/
theorem ended_or_lastOpen (starts : List (Json × Int)) (ms : List TurnMark) :
    (∀ s ∈ starts, Ended py ms s.1) ∨ ∃ s, LastOpen py starts ms s := by
  cases h : starts.reverse.find? fun s => ¬ Ended py ms s.1 with
  | none =>
    left
    intro s hs
    have hnone := List.find?_eq_none.mp h s (List.mem_reverse.mpr hs)
    simpa using hnone
  | some s => exact .inr ⟨s, lastOpen_iff.mpr h⟩

theorem not_lastOpen {starts : List (Json × Int)} {ms : List TurnMark} (h : ∀ s ∈ starts, Ended py ms s.1)
    {s : Json × Int} : ¬ LastOpen py starts ms s := by
  intro hs
  obtain ⟨before, after, rfl, hopen, -⟩ := hs
  exact hopen (h s (by simp))

theorem turnStarts_append (ms ms' : List TurnMark) : turnStarts (ms ++ ms') = turnStarts ms ++ turnStarts ms' :=
  List.filterMap_append

theorem turnEnds_append (ms ms' : List TurnMark) : turnEnds (ms ++ ms') = turnEnds ms ++ turnEnds ms' :=
  List.filterMap_append

theorem toolCount_append (ms ms' : List TurnMark) (turn_id : Json) :
    toolCount (ms ++ ms') turn_id = toolCount ms turn_id + toolCount ms' turn_id := by
  rw [toolCount, List.filterMap_append, List.count_append]
  rfl

theorem ended_append {ms ms' : List TurnMark} {turn_id : Json} :
    Ended py (ms ++ ms') turn_id ↔ Ended py ms turn_id ∨ Ended py ms' turn_id := by
  simp only [Ended, turnEnds_append, List.mem_append, or_and_right, exists_or]

/-- The last open start of a part behind is the last one of all. -/
theorem LastOpen.append {front behind : List (Json × Int)} {ms : List TurnMark} {s : Json × Int}
    (h : LastOpen py behind ms s) : LastOpen py (front ++ behind) ms s := by
  obtain ⟨before, after, rfl, hopen, hrest⟩ := h
  exact ⟨front ++ before, after, by rw [List.append_assoc], hopen, hrest⟩

/-! ## 3. The marks of the two folds -/

/-- The mark `fold_resume_state` takes from a record. -/
def foldMark (py : Interp) (v : Json) : Except PyError (Option TurnMark) := do
  let kind ← pyGet v "kind"
  if kind = .str "turn_started" then
    let tid ← pyItem v "turn_id"
    let baseCount ← pyInt py (v.getD "base_count" (.int 0))
    let tid ← pyKey tid
    return some (.started tid baseCount)
  else
    let kind ← pyKey kind
    if kind ∈ [Json.str "turn_completed", .str "turn_aborted", .str "turn_failed", .str "turn_recovered"] then
      let tid ← pyKey (← pyItem v "turn_id")
      return some (.ended tid)
    else if kind = .str "tool_recorded" then
      let tid ← pyKey (← pyItem v "turn_id")
      let _ ← pyItem v "key"
      return some (.tool tid)
    else return none

/-- The mark `_resume_summary` takes from a record. -/
def inspectMark (py : Interp) (v : Json) : Except PyError (Option TurnMark) :=
  if v.isObj = false ∨ textOf (v.get "turn_id") = "" then .ok none
  else if textOf (v.get "kind") = "turn_started" then do
    let baseCount ← integerOf py (v.get "base_count")
    return some (.started (.str (textOf (v.get "turn_id"))) baseCount)
  else if textOf (v.get "kind") ∈ ["turn_completed", "turn_failed", "turn_aborted", "turn_recovered"] then
    .ok (some (.ended (.str (textOf (v.get "turn_id")))))
  else if textOf (v.get "kind") = "tool_recorded" then .ok (some (.tool (.str (textOf (v.get "turn_id")))))
  else .ok none

/-- The state of the fold against the marks. -/
structure FoldHas (f : ResumeFold) (ms : List TurnMark) : Prop where
  started : f.started.map (fun t => (t.turn_id, t.base_count)) = turnStarts ms
  completed : f.completed = turnEnds ms
  records : ∀ id, ((f.records.get? id).getD []).length = toolCount ms id

/-- The state of the summary against the marks. -/
structure SummaryHas (f : SummaryFold) (ms : List TurnMark) : Prop where
  started : f.started.map (fun s => (Json.str s.1, s.2)) = turnStarts ms
  terminal : ∀ id, id ∈ f.terminal ↔ Json.str id ∈ turnEnds ms
  strings : ∀ c ∈ turnEnds ms, ∃ id, c = .str id
  tools : ∀ id, (f.tool_counts.get? id).getD 0 = toolCount ms (.str id)

theorem FoldHas.start {f : ResumeFold} {ms : List TurnMark} (h : FoldHas f ms) (g : ResumeFold) (row : StartedTurn)
    (hstarted : g.started = f.started ++ [row]) (hcompleted : g.completed = f.completed)
    (hrecords : g.records = f.records.setdefault row.turn_id []) :
    FoldHas g (ms ++ [.started row.turn_id row.base_count]) where
  started := by
    rw [hstarted, List.map_append, h.started, turnStarts_append]
    rfl
  completed := by
    rw [hcompleted, h.completed, turnEnds_append]
    exact (List.append_nil _).symm
  records id := by
    have hnone : toolCount [.started row.turn_id row.base_count] id = 0 := rfl
    rw [hrecords, toolCount_append, ← h.records, hnone, Nat.add_zero, Dict.getD_setdefault]

theorem FoldHas.finish {f : ResumeFold} {ms : List TurnMark} (h : FoldHas f ms) (tid : Json) :
    FoldHas { f with completed := f.completed ++ [tid] } (ms ++ [.ended tid]) where
  started := by
    rw [turnStarts_append, ← h.started]
    exact (List.append_nil _).symm
  completed := by
    rw [turnEnds_append, ← h.completed]
    rfl
  records id := by
    rw [toolCount_append, ← h.records]
    rfl

theorem FoldHas.tool {f : ResumeFold} {ms : List TurnMark} (h : FoldHas f ms) (tid key result : Json) :
    FoldHas { f with records := f.records.set tid ((f.records.get? tid).getD [] ++ [(key, result)]) }
      (ms ++ [.tool tid]) where
  started := by
    rw [turnStarts_append, ← h.started]
    exact (List.append_nil _).symm
  completed := by
    rw [turnEnds_append, ← h.completed]
    exact (List.append_nil _).symm
  records id := by
    have hone : toolCount [.tool tid] id = if tid = id then 1 else 0 := by
      simp [toolCount, TurnMark.tool?, List.count_singleton]
    rw [toolCount_append, ← h.records, hone, Dict.get?_set]
    by_cases hid : tid = id
    · subst hid
      simp
    · simp [hid]

theorem FoldHas.same {f g : ResumeFold} {ms : List TurnMark} (h : FoldHas f ms) (hstarted : g.started = f.started)
    (hcompleted : g.completed = f.completed) (hrecords : g.records = f.records) : FoldHas g (ms ++ []) := by
  rw [List.append_nil]
  exact ⟨hstarted ▸ h.started, hcompleted ▸ h.completed, hrecords ▸ h.records⟩

theorem foldMark_step (f : ResumeFold) (ms : List TurnMark) (v : Json) (h : FoldHas f ms) :
    (∃ exc, foldMark py v = .error exc ∧ f.entry py v = .error exc)
      ∨ ∃ m g, foldMark py v = .ok m ∧ f.entry py v = .ok g ∧ FoldHas g (ms ++ m.toList) := by
  unfold foldMark ResumeFold.entry
  cases hkind : pyGet v "kind" with
  | error exc => exact .inl ⟨exc, rfl, rfl⟩
  | ok kind =>
    simp only [bind, Except.bind, pure, Except.pure]
    split
    · unfold ResumeFold.start
      simp only [bind, Except.bind, pure, Except.pure]
      cases hid : pyItem v "turn_id" with
      | error exc => exact .inl ⟨exc, rfl, rfl⟩
      | ok tid =>
        cases hbase : pyInt py (v.getD "base_count" (.int 0)) with
        | error exc => exact .inl ⟨exc, rfl, rfl⟩
        | ok base_count =>
          cases hkey : pyKey tid with
          | error exc => exact .inl ⟨exc, by simp only [hkey], by simp only [hkey]⟩
          | ok tid =>
            have hhas := h.start { f with
                started := f.started ++ [⟨tid, v.getD "user_message" (.str ""), base_count⟩]
                workflow_runs := f.startRun tid v
                execution_kinds := f.startKind tid v
                records := f.records.setdefault tid [] }
              ⟨tid, v.getD "user_message" (.str ""), base_count⟩ rfl rfl rfl
            exact .inr ⟨some (.started tid base_count), _, by simp only [hkey], by simp only [hkey], hhas⟩
    · cases hhash : pyKey kind with
      | error exc => exact .inl ⟨exc, rfl, rfl⟩
      | ok kind =>
        simp only
        split
        · cases hid : pyItem v "turn_id" with
          | error exc => exact .inl ⟨exc, rfl, rfl⟩
          | ok tid =>
            cases hkey : pyKey tid with
            | error exc => exact .inl ⟨exc, by simp only [hkey], by simp only [hkey]⟩
            | ok tid => exact .inr ⟨some (.ended tid), _, by simp only [hkey], by simp only [hkey], h.finish tid⟩
        · split
          · cases hid : pyItem v "turn_id" with
            | error exc => exact .inl ⟨exc, rfl, rfl⟩
            | ok tid =>
              cases hkey : pyKey tid with
              | error exc => exact .inl ⟨exc, by simp only [hkey], by simp only [hkey]⟩
              | ok tid =>
                cases hname : pyItem v "key" with
                | error exc => exact .inl ⟨exc, by simp only [hkey, hname], by simp only [hkey, hname]⟩
                | ok key =>
                  have hhas := h.tool tid key (v.get "result")
                  exact .inr ⟨some (.tool tid), _, by simp only [hkey, hname], by simp only [hkey, hname], hhas⟩
          · split
            · split
              · exact .inr ⟨none, _, rfl, rfl, h.same rfl rfl rfl⟩
              · exact .inr ⟨none, _, rfl, rfl, h.same rfl rfl rfl⟩
            · split
              · split
                · exact .inr ⟨none, _, rfl, rfl, h.same rfl rfl rfl⟩
                · exact .inr ⟨none, _, rfl, rfl, h.same rfl rfl rfl⟩
              · exact .inr ⟨none, _, rfl, rfl, h.same rfl rfl rfl⟩

theorem SummaryHas.start {f : SummaryFold} {ms : List TurnMark} (h : SummaryHas f ms) (turn_id : String) (base_count : Int) :
    SummaryHas { f with started := f.started ++ [(turn_id, base_count)] } (ms ++ [.started (.str turn_id) base_count]) where
  started := by
    rw [turnStarts_append, ← h.started, List.map_append]
    rfl
  terminal id := by
    rw [turnEnds_append, h.terminal]
    simp [turnEnds, TurnMark.end?]
  strings c hc := by
    rw [turnEnds_append] at hc
    exact h.strings c (by simpa [turnEnds, TurnMark.end?] using hc)
  tools id := by
    rw [toolCount_append, ← h.tools]
    rfl

theorem SummaryHas.finish {f g : SummaryFold} {ms : List TurnMark} (h : SummaryHas f ms) {turn_id : String}
    (hstarted : g.started = f.started) (hterminal : g.terminal = f.terminal.insert turn_id)
    (htools : g.tool_counts = f.tool_counts) : SummaryHas g (ms ++ [.ended (.str turn_id)]) where
  started := by
    rw [turnStarts_append, hstarted, h.started]
    exact (List.append_nil _).symm
  terminal id := by
    rw [turnEnds_append, hterminal, List.mem_insert_iff, h.terminal, or_comm]
    simp [turnEnds, TurnMark.end?]
  strings c hc := by
    rw [turnEnds_append, List.mem_append] at hc
    obtain hc | hc := hc
    · exact h.strings c hc
    · exact ⟨turn_id, by simpa [turnEnds, TurnMark.end?] using hc⟩
  tools id := by
    rw [toolCount_append, htools, h.tools]
    rfl

theorem SummaryHas.tool {f : SummaryFold} {ms : List TurnMark} (h : SummaryHas f ms) (turn_id : String) :
    SummaryHas { f with tool_counts := f.tool_counts.set turn_id ((f.tool_counts.get? turn_id).getD 0 + 1) }
      (ms ++ [.tool (.str turn_id)]) where
  started := by
    rw [turnStarts_append, ← h.started]
    exact (List.append_nil _).symm
  terminal id := by
    rw [turnEnds_append, h.terminal]
    simp [turnEnds, TurnMark.end?]
  strings c hc := by
    rw [turnEnds_append] at hc
    exact h.strings c (by simpa [turnEnds, TurnMark.end?] using hc)
  tools id := by
    have hone : toolCount [.tool (.str turn_id)] (.str id) = if turn_id = id then 1 else 0 := by
      simp [toolCount, TurnMark.tool?, List.count_singleton]
    rw [toolCount_append, ← h.tools, hone, Dict.get?_set]
    by_cases hid : turn_id = id
    · subst hid
      simp
    · simp [hid]

theorem inspectMark_step (f : SummaryFold) (ms : List TurnMark) (v : Json) (h : SummaryHas f ms) :
    (∃ exc, inspectMark py v = .error exc ∧ f.record py v = .error exc)
      ∨ ∃ m g, inspectMark py v = .ok m ∧ f.record py v = .ok g ∧ SummaryHas g (ms ++ m.toList) := by
  have hnone : SummaryHas f (ms ++ (none : Option TurnMark).toList) := by
    rw [Option.toList_none, List.append_nil]
    exact h
  cases v with
  | obj kvs =>
    unfold inspectMark SummaryFold.record
    by_cases hid : textOf ((Json.obj kvs).get "turn_id") = ""
    · right
      refine ⟨none, f, by simp [hid], by simp [hid], hnone⟩
    · simp only [Json.isObj, hid, Bool.true_eq_false, or_self, if_false, ne_eq, not_false_eq_true, and_true]
      split
      · cases hbase : integerOf py ((Json.obj kvs).get "base_count") with
        | error exc => exact .inl ⟨exc, rfl, rfl⟩
        | ok base_count => exact .inr ⟨_, _, rfl, rfl, h.start _ base_count⟩
      · next hstart =>
        by_cases hcompleted : textOf ((Json.obj kvs).get "kind") = "turn_completed"
        · rw [hcompleted, if_pos (by decide), if_pos rfl]
          exact .inr ⟨_, _, rfl, rfl, h.finish rfl rfl rfl⟩
        · rw [if_neg hcompleted]
          by_cases hended : textOf ((Json.obj kvs).get "kind") ∈ ["turn_failed", "turn_aborted", "turn_recovered"]
          · rw [if_pos (List.mem_cons_of_mem _ hended), if_pos hended]
            exact .inr ⟨_, _, rfl, rfl, h.finish rfl rfl rfl⟩
          · rw [if_neg (by simpa [hcompleted] using hended), if_neg hended]
            split
            · exact .inr ⟨_, _, rfl, rfl, h.tool _⟩
            · exact .inr ⟨none, f, rfl, rfl, hnone⟩
  | null | bool _ | int _ | float _ | str _ | arr _ => exact .inr ⟨none, f, rfl, rfl, hnone⟩

/-! ## 4. What the two report -/

/-- The marks leave a turn open, with its base count and its tool results. -/
def LeavesOpen (py : Interp) (ms : Except PyError (List TurnMark)) (turn_id : Json) (base_count : Int) (tools : Nat) : Prop :=
  ∃ marks, ms = .ok marks ∧ LastOpen py (turnStarts marks) marks (turn_id, base_count) ∧ toolCount marks turn_id = tools

/-- `fold_resume_state` returns a turn. -/
def Resumes (py : Interp) (text : List Char) (turn_id : Json) (base_count : Int) (tools : Nat) : Prop :=
  ∃ t, foldResumeState py text = .ok (some t) ∧ t.turn_id = turn_id ∧ t.base_count = base_count
    ∧ t.tool_records.length = tools

/-- The summary says that a turn is incomplete. -/
def Reports (py : Interp) (text : List Char) (turn_id : Json) (base_count : Int) (tools : Nat) : Prop :=
  ∃ s, inspectResume py text = .ok s ∧ s.incomplete = true ∧ s.turn_id.map Json.str = some turn_id
    ∧ s.base_count = some base_count ∧ s.tool_records = tools

theorem FoldHas.isOpen {f : ResumeFold} {ms : List TurnMark} (h : FoldHas f ms) (turn_id : Json) :
    f.isOpen py turn_id = true ↔ ¬ Ended py ms turn_id := by
  rw [ResumeFold.isOpen, h.completed, List.all_eq_true]
  simp [Ended]

theorem FoldHas.select_iff {f : ResumeFold} {ms : List TurnMark} (h : FoldHas f ms) {turn_id : Json} {base_count : Int}
    {tools : Nat} :
    (∃ t, f.select py = some t ∧ t.turn_id = turn_id ∧ t.base_count = base_count ∧ t.tool_records.length = tools)
      ↔ LastOpen py (turnStarts ms) ms (turn_id, base_count) ∧ toolCount ms turn_id = tools := by
  have hfind : ((turnStarts ms).reverse.find? fun s => ¬ Ended py ms s.1)
      = (f.started.reverse.find? fun t => f.isOpen py t.turn_id).map fun t => (t.turn_id, t.base_count) := by
    rw [← h.started, ← List.map_reverse, List.find?_map]
    congr 2
    funext t
    rw [Bool.eq_iff_iff]
    simp [h.isOpen]
  rw [lastOpen_iff, hfind, ResumeFold.select]
  cases f.started.reverse.find? fun t => f.isOpen py t.turn_id with
  | none => simp
  | some t =>
    simp only [Option.map_some, Option.some.injEq, exists_eq_left', Prod.mk.injEq, h.records, and_assoc]
    constructor
    · rintro ⟨hid, hbase, htools⟩
      exact ⟨hid, hbase, hid ▸ htools⟩
    · rintro ⟨hid, hbase, htools⟩
      exact ⟨hid, hbase, hid ▸ htools⟩

theorem resumes_iff {text : List Char} {turn_id : Json} {base_count : Int} {tools : Nat} :
    Resumes py text turn_id base_count tools
      ↔ LeavesOpen py (marks (foldMark py) (journalEntries text)) turn_id base_count tools := by
  have hstart : FoldHas {} [] := ⟨rfl, rfl, fun _ => rfl⟩
  unfold Resumes LeavesOpen foldResumeState
  rw [readLoop_eq]
  change (∃ t, ((journalEntries text).foldlM (ResumeFold.entry py) {} >>= fun f => .ok (f.select py)) = .ok (some t)
    ∧ _) ↔ _
  obtain ⟨exc, hmarks, hfold⟩ | ⟨ms, f, hmarks, hfold, hhas⟩ :=
    foldlM_marks (@foldMark_step py) (journalEntries text) hstart
  · rw [hmarks, hfold]
    constructor
    · intro ⟨t, ht, _⟩
      cases ht
    · intro ⟨ms, hms, _⟩
      cases hms
  · rw [List.nil_append] at hhas
    have hselect : ∀ t, (Except.ok f >>= fun f => .ok (f.select py) : Except PyError (Option IncompleteTurn)) = .ok (some t)
        ↔ f.select py = some t := fun t => by
      change Except.ok (f.select py) = Except.ok (some t) ↔ _
      rw [Except.ok.injEq]
    rw [hmarks, hfold]
    simp only [hselect, Except.ok.injEq, exists_eq_left']
    exact hhas.select_iff

theorem SummaryHas.summary_iff {f : SummaryFold} {ms : List TurnMark} (h : SummaryHas f ms) {turn_id : Json}
    {base_count : Int} {tools : Nat} :
    (f.summary.incomplete = true ∧ f.summary.turn_id.map Json.str = some turn_id
        ∧ f.summary.base_count = some base_count ∧ f.summary.tool_records = tools)
      ↔ LastOpen py (turnStarts ms) ms (turn_id, base_count) ∧ toolCount ms turn_id = tools := by
  have hended : ∀ id : String, Ended py ms (.str id) ↔ id ∈ f.terminal := by
    intro id
    rw [h.terminal]
    constructor
    · rintro ⟨c, hc, heq⟩
      obtain ⟨id', rfl⟩ := h.strings c hc
      rw [scalarEq_str, decide_eq_true_eq] at heq
      rwa [heq]
    · intro hid
      exact ⟨_, hid, by rw [scalarEq_str, decide_eq_true_eq]⟩
  have hfind : ((turnStarts ms).reverse.find? fun s => ¬ Ended py ms s.1)
      = (f.started.reverse.find? fun s => s.1 ∉ f.terminal).map fun s => (Json.str s.1, s.2) := by
    rw [← h.started, ← List.map_reverse, List.find?_map]
    congr 2
    funext s
    rw [Bool.eq_iff_iff]
    simp [hended]
  rw [lastOpen_iff, hfind, SummaryFold.summary]
  cases f.started.reverse.find? fun s => s.1 ∉ f.terminal with
  | none => simp
  | some s =>
    simp only [Option.map_some, Option.some.injEq, Prod.mk.injEq, h.tools, true_and, and_assoc]
    constructor
    · rintro ⟨hid, hbase, htools⟩
      exact ⟨hid, hbase, hid ▸ htools⟩
    · rintro ⟨hid, hbase, htools⟩
      exact ⟨hid, hbase, hid ▸ htools⟩

theorem reports_iff {text : List Char} {turn_id : Json} {base_count : Int} {tools : Nat} :
    Reports py text turn_id base_count tools
      ↔ LeavesOpen py (marks (inspectMark py) (readJsonl text).1) turn_id base_count tools := by
  have hstart : SummaryHas {} [] := ⟨rfl, by simp [turnEnds], by simp [turnEnds], fun _ => rfl⟩
  unfold Reports LeavesOpen inspectResume resumeSummary
  obtain ⟨exc, hmarks, hfold⟩ | ⟨ms, f, hmarks, hfold, hhas⟩ :=
    foldlM_marks (@inspectMark_step py) (readJsonl text).1 hstart
  · rw [hmarks, hfold]
    constructor
    · intro ⟨s, hs, _⟩
      cases hs
    · intro ⟨ms, hms, _⟩
      cases hms
  · rw [List.nil_append] at hhas
    have hsummary : ∀ s, (Except.ok f >>= fun f => pure (f := Except PyError) f.summary) = .ok s
        ↔ f.summary = s := fun s => by
      change Except.ok f.summary = Except.ok s ↔ _
      rw [Except.ok.injEq]
    rw [hmarks, hfold]
    simp only [hsummary, Except.ok.injEq, exists_eq_left']
    exact hhas.summary_iff

/-! ## 5. When the two agree -/

/-- The summary says incomplete exactly when the fold returns a turn, and then
both give the same ID, base count and number of tool results. -/
def SummaryAgrees (py : Interp) (text : List Char) : Prop :=
  ((∃ s, inspectResume py text = .ok s ∧ s.incomplete = true) ↔ ∃ t, foldResumeState py text = .ok (some t))
    ∧ ∀ s t, inspectResume py text = .ok s → s.incomplete = true → foldResumeState py text = .ok (some t) →
      s.turn_id.map Json.str = some t.turn_id ∧ s.base_count = some t.base_count
        ∧ s.tool_records = t.tool_records.length

/-- The lines in front of the first one that is not JSON, and the others. -/
def frontLines (text : List Char) : List (List Char) := (fileLines text).takeWhile fun raw => decodeLine raw ≠ .corrupt

def behindLines (text : List Char) : List (List Char) := (fileLines text).dropWhile fun raw => decodeLine raw ≠ .corrupt

/-- Their turn records, as the inspection reads them. -/
def frontMarks (py : Interp) (text : List Char) : Except PyError (List TurnMark) :=
  marks (inspectMark py) (recordsOfLines ((frontLines text).map readRecord))

def behindMarks (py : Interp) (text : List Char) : Except PyError (List TurnMark) :=
  marks (inspectMark py) (recordsOfLines ((behindLines text).map readRecord))

/-- What is behind that line leaves the turn open that was open in front of
it: nothing there ends it or is a result of it, and the last turn left open
there, if any, is that turn started with the same base count. Where none was
open, all that are started there are ended. -/
def KeepsOpen (py : Interp) (front : List TurnMark) : Except PyError (List TurnMark) → Prop
  | .error _ => ∀ s ∈ turnStarts front, Ended py front s.1
  | .ok behind =>
      (∀ s, LastOpen py (turnStarts front) front s → ¬ Ended py behind s.1 ∧ toolCount behind s.1 = 0
        ∧ ∀ t, LastOpen py (turnStarts behind) (front ++ behind) t → t = s)
      ∧ ((∀ s ∈ turnStarts front, Ended py front s.1) → ∀ s ∈ turnStarts behind, Ended py (front ++ behind) s.1)

/-- The two read the same turn records in front of the first line that is not
JSON. -/
def ReadAlike (py : Interp) (text : List Char) (front : List TurnMark) : Prop :=
  marks (foldMark py) (journalEntries text) = .ok front ∧ frontMarks py text = .ok front

/-- The condition under which the summary is right. Where the two read
different turn records in front, these must leave the same turn open. -/
def Undisturbed (py : Interp) (text : List Char) : Prop :=
  (∃ front, ReadAlike py text front ∧ KeepsOpen py front (behindMarks py text))
    ∨ (¬ ∃ front, ReadAlike py text front) ∧ ∀ turn_id base_count tools,
      LeavesOpen py (marks (foldMark py) (journalEntries text)) turn_id base_count tools
        ↔ LeavesOpen py (marks (inspectMark py) (readJsonl text).1) turn_id base_count tools

theorem summaryAgrees_iff_same {text : List Char} : SummaryAgrees py text
    ↔ ∀ turn_id base_count tools, Resumes py text turn_id base_count tools ↔ Reports py text turn_id base_count tools := by
  constructor
  · intro ⟨hboth, hsame⟩ turn_id base_count tools
    constructor
    · intro ⟨t, ht, hid, hbase, htools⟩
      obtain ⟨s, hs, hincomplete⟩ := hboth.mpr ⟨t, ht⟩
      obtain ⟨hid', hbase', htools'⟩ := hsame s t hs hincomplete ht
      exact ⟨s, hs, hincomplete, hid ▸ hid', hbase ▸ hbase', htools'.trans htools⟩
    · intro ⟨s, hs, hincomplete, hid, hbase, htools⟩
      obtain ⟨t, ht⟩ := hboth.mp ⟨s, hs, hincomplete⟩
      obtain ⟨hid', hbase', htools'⟩ := hsame s t hs hincomplete ht
      rw [hid, Option.some.injEq] at hid'
      rw [hbase, Option.some.injEq] at hbase'
      exact ⟨t, ht, hid'.symm, hbase'.symm, htools'.symm.trans htools⟩
  · intro h
    refine ⟨⟨?_, ?_⟩, ?_⟩
    · intro ⟨s, hs, hincomplete⟩
      obtain ⟨f, -, hsummary⟩ := bind_ok hs
      have hsome : ∃ id base, s.turn_id = some id ∧ s.base_count = some base := by
        rw [← Except.ok.inj hsummary] at hincomplete ⊢
        unfold SummaryFold.summary at hincomplete ⊢
        cases hfind : f.started.reverse.find? fun s => s.1 ∉ f.terminal with
        | none =>
          simp only [hfind] at hincomplete
          cases hincomplete
        | some s => exact ⟨s.1, s.2, rfl, rfl⟩
      obtain ⟨id, base, hid, hbase⟩ := hsome
      obtain ⟨t, ht, -⟩ := (h (.str id) base s.tool_records).mpr ⟨s, hs, hincomplete, by rw [hid]; rfl, hbase, rfl⟩
      exact ⟨t, ht⟩
    · intro ⟨t, ht⟩
      obtain ⟨s, hs, hincomplete, -⟩ := (h t.turn_id t.base_count t.tool_records.length).mp ⟨t, ht, rfl, rfl, rfl⟩
      exact ⟨s, hs, hincomplete⟩
    · intro s t hs _ ht
      obtain ⟨s', hs', -, hsame⟩ := (h t.turn_id t.base_count t.tool_records.length).mp ⟨t, ht, rfl, rfl, rfl⟩
      obtain rfl := Except.ok.inj (hs.symm.trans hs')
      exact hsame

theorem inspectMarks_eq (text : List Char) : marks (inspectMark py) (readJsonl text).1 = (do
    let front ← frontMarks py text
    let behind ← behindMarks py text
    return front ++ behind) := by
  have hsplit : (readJsonl text).1 = recordsOfLines ((frontLines text).map readRecord)
      ++ recordsOfLines ((behindLines text).map readRecord) := by
    rw [recordsOfLines, recordsOfLines, ← List.filterMap_append, ← List.map_append, frontLines, behindLines,
      List.takeWhile_append_dropWhile]
    rfl
  rw [hsplit, marks_append]
  rfl

/-- With the same marks in front, the two leave the same turn open exactly
when what is behind keeps it. -/
theorem leavesOpen_iff_keepsOpen (front : List TurnMark) (behind : Except PyError (List TurnMark)) :
    (∀ turn_id base_count tools, LeavesOpen py (.ok front) turn_id base_count tools
        ↔ LeavesOpen py (behind.map fun ms => front ++ ms) turn_id base_count tools) ↔ KeepsOpen py front behind := by
  have hfront : ∀ s : Json × Int, LastOpen py (turnStarts front) front s
      ↔ LeavesOpen py (.ok front) s.1 s.2 (toolCount front s.1) := by
    intro s
    constructor
    · intro hs
      exact ⟨front, rfl, hs, rfl⟩
    · intro ⟨ms, hms, hs, _⟩
      obtain rfl := Except.ok.inj hms
      exact hs
  cases behind with
  | error exc =>
    constructor
    · intro h
      refine (ended_or_lastOpen (turnStarts front) front).resolve_right fun ⟨s, hs⟩ => ?_
      obtain ⟨ms, hms, -⟩ := (h s.1 s.2 _).mp ((hfront s).mp hs)
      cases hms
    · intro h turn_id base_count tools
      constructor
      · intro ⟨ms, hms, hopen, _⟩
        obtain rfl := Except.ok.inj hms
        exact absurd hopen (not_lastOpen h)
      · intro ⟨ms, hms, _⟩
        cases hms
  | ok behind =>
    have hall : ∀ turn_id base_count tools, LeavesOpen py ((Except.ok behind : Except PyError _).map fun ms => front ++ ms)
        turn_id base_count tools ↔ LastOpen py (turnStarts front ++ turnStarts behind) (front ++ behind) (turn_id, base_count)
          ∧ toolCount front turn_id + toolCount behind turn_id = tools := by
      intro turn_id base_count tools
      rw [← turnStarts_append, ← toolCount_append]
      constructor
      · intro ⟨ms, hms, h⟩
        obtain rfl := Except.ok.inj hms
        exact h
      · intro h
        exact ⟨_, rfl, h⟩
    constructor
    · intro h
      constructor
      · intro s hs
        obtain ⟨hopen, htools⟩ := (hall s.1 s.2 _).mp ((h s.1 s.2 _).mp ((hfront s).mp hs))
        obtain ⟨before, after, -, hnot, -⟩ := hopen
        exact ⟨fun hended => hnot (ended_append.mpr (.inr hended)), by omega,
          fun t ht => ht.append.unique ((hall s.1 s.2 _).mp ((h s.1 s.2 _).mp ((hfront s).mp hs))).1⟩
      · intro hnone
        have hended := (@ended_or_lastOpen py (turnStarts front ++ turnStarts behind) (front ++ behind)).resolve_right
          fun ⟨s, hs⟩ => by
            obtain ⟨ms, hms, hopen, -⟩ := (h s.1 s.2 _).mpr ((hall s.1 s.2 _).mpr ⟨hs, rfl⟩)
            obtain rfl := Except.ok.inj hms
            exact not_lastOpen hnone hopen
        exact fun s hs => hended s (List.mem_append_right _ hs)
    · intro ⟨hkeeps, hnone⟩
      obtain hended | ⟨s, hs⟩ := ended_or_lastOpen (turnStarts front) front
      · -- no turn is left open in front, and none behind
        have hrest : ∀ s ∈ turnStarts front ++ turnStarts behind, Ended py (front ++ behind) s.1 := by
          intro s hs
          obtain hs | hs := List.mem_append.mp hs
          · exact ended_append.mpr (.inl (hended s hs))
          · exact hnone hended s hs
        intro turn_id base_count tools
        rw [hall]
        constructor
        · intro ⟨ms, hms, hopen, _⟩
          obtain rfl := Except.ok.inj hms
          exact absurd hopen (not_lastOpen hended)
        · intro ⟨hopen, _⟩
          exact absurd hopen (not_lastOpen hrest)
      · -- the turn in front is the last one open of all
        obtain ⟨hnot, htools, hlast⟩ := hkeeps s hs
        have hopen : LastOpen py (turnStarts front ++ turnStarts behind) (front ++ behind) s := by
          obtain hended | ⟨t, ht⟩ := ended_or_lastOpen (turnStarts behind) (front ++ behind)
          · obtain ⟨before, after, hsplit, hstart, hafter⟩ := hs
            refine ⟨before, after ++ turnStarts behind, by rw [hsplit]; simp, ?_, fun t ht => ?_⟩
            · exact fun h => (ended_append.mp h).elim hstart hnot
            · obtain ht | ht := List.mem_append.mp ht
              · exact ended_append.mpr (.inl (hafter t ht))
              · exact hended t ht
          · exact hlast t ht ▸ ht.append
        intro turn_id base_count tools
        rw [hall]
        constructor
        · intro ⟨ms, hms, hopen', hcount⟩
          obtain rfl := Except.ok.inj hms
          obtain rfl := hs.unique hopen'
          have hnone : toolCount behind turn_id = 0 := htools
          exact ⟨hopen, by omega⟩
        · intro ⟨hopen', hcount⟩
          obtain rfl := hopen.unique hopen'
          have hnone : toolCount behind turn_id = 0 := htools
          exact ⟨front, rfl, hs, by omega⟩

/-- A turn is started, a line is damaged, and the turn is completed. -/
def damagedJournal : List Char :=
  jsonLine (.obj [("seq", .int 0), ("kind", .str "turn_started"), ("turn_id", .str "t1"), ("base_count", .int 0)])
    ++ "oops\n".toList
    ++ jsonLine (.obj [("seq", .int 2), ("kind", .str "turn_completed"), ("turn_id", .str "t1")])

end Agenthicc.Tui
