/-
Agenthicc.Tools.HunkTheorems — where the hunks of a diff go.

Each hunk is searched for in the lines as the hunks before it left them. As
long as every hunk lands behind what the one before it put in, the hunks
replace disjoint ranges of the original lines, in order (`Tracked`); a hunk that
lands before that spoils it. A hunk of additions behind a last line without a
newline spoils that line.
-/
import Agenthicc.Tools.ApplyDiff
import Agenthicc.Library.Runs
import Agenthicc.Library.Splices
import Mathlib

namespace Agenthicc.Tools

open Python Splices Runs

namespace Patching

/-! ## 1. Ranges -/

/-- What a list of hunks adds to the number of lines. -/
def shift (placements : List Placement) : Int :=
  (placements.map fun p => (p.hunk.new_lines.length - p.hunk.old_lines.length : Int)).sum

/-- The ranges of original lines that the hunks replace: the place of each,
less what the hunks before it have added. -/
def ranges : (offset : Int) → List Placement → List (Int × Int)
  | _, [] => []
  | offset, p :: ps =>
      (p.at_line - offset, p.at_line - offset + p.hunk.old_lines.length)
        :: ranges (offset + (p.hunk.new_lines.length - p.hunk.old_lines.length)) ps

/-- A range ends where the next one begins or before, and they are not the
same place. -/
def Before (a b : Int × Int) : Prop := a.2 ≤ b.1 ∧ (a.1 < b.1 ∨ a.2 < b.2)

instance (a b : Int × Int) : Decidable (Before a b) := inferInstanceAs (Decidable (_ ∧ _))

theorem shift_concat (ps : List Placement) (p : Placement) :
    shift (ps ++ [p]) = shift ps + (p.hunk.new_lines.length - p.hunk.old_lines.length) := by
  simp [shift]

theorem ranges_append (offset : Int) (ps qs : List Placement) :
    ranges offset (ps ++ qs) = ranges offset ps ++ ranges (offset + shift ps) qs := by
  induction ps generalizing offset with
  | nil => simp [ranges, shift]
  | cons q ps ih =>
    have hshift : offset + (q.hunk.new_lines.length - q.hunk.old_lines.length) + shift ps
        = offset + shift (q :: ps) := by
      simp only [shift, List.map_cons, List.sum_cons]
      omega
    rw [List.cons_append, ranges, ranges, ih, hshift]
    rfl

theorem ranges_concat (offset : Int) (ps : List Placement) (p : Placement) :
    ranges offset (ps ++ [p]) = ranges offset ps
      ++ [(p.at_line - (offset + shift ps), p.at_line - (offset + shift ps) + p.hunk.old_lines.length)] :=
  ranges_append offset ps [p]

/-- Where the text that the last hunk put in ends. -/
def settled (s : Patching) : Nat :=
  s.placements.getLast?.elim 0 fun p => p.at_line + p.hunk.new_lines.length

/-! ## 2. What the claim says -/

/-- The lines of a file, with their endings. -/
def original (text : List Char) : List (List Char) := splitlinesKeep text

/-- Lines as they are written: with the file's ending, or without one. -/
def WrittenAs (ending : List Char) (new_lines texts : List (List Char)) : Prop :=
  List.Forall₂ (fun line text => text = line ++ ending ∨ text = line) new_lines texts

/-- The applied hunks replace disjoint, increasing ranges of the original
lines, each of them the old lines of its hunk; all other lines are there,
unchanged and in order, and each line but the last one is a line of its own. -/
structure InPlace (text : List Char) (s : Patching) : Prop where
  ordered : (ranges 0 s.placements).Pairwise Before
  replaced : ∃ pieces : List (Piece (List Char)),
    ranges 0 s.placements = pieces.map (fun q => ((q.lo : Int), (q.hi : Int)))
      ∧ List.Forall₂ (fun p q =>
          (((original text).map rstripNewlines).drop q.lo).take (q.hi - q.lo) = p.hunk.old_lines
            ∧ WrittenAs (lineEnding text) p.hunk.new_lines q.new) s.placements pieces
      ∧ (∀ q ∈ pieces, q.hi ≤ (original text).length)
      ∧ s.lines = splice (original text) pieces
  whole : ∀ line ∈ s.lines.dropLast, endsBreak line = true

/-- Additions behind a last line without a break. -/
def glues (s : Patching) (at_line : Nat) (hunk : Hunk) : Bool :=
  at_line = s.lines.length && !hunk.new_lines.isEmpty && s.lines.getLast?.any fun line => !endsBreak line

/-- Two additions in one place. -/
def sameSpot (s : Patching) (at_line : Nat) (hunk : Hunk) : Bool :=
  at_line = s.settled && hunk.old_lines.isEmpty
    && s.placements.getLast?.any fun p => p.hunk.old_lines.isEmpty

/-- The condition on a hunk: the nearest match of its old lines is behind what
the last hunk put in, and not an addition right behind an addition or behind a
last line without a break. -/
def ok (s : Patching) (numbered : Nat × Hunk) : Bool :=
  match searchHunk s.bare numbered.2.old_lines (numbered.2.start + s.offset) with
  | some at_line =>
      s.settled ≤ at_line && !s.sameSpot at_line numbered.2 && !s.glues at_line numbered.2
  | none => true

/-! ## 3. One hunk -/

theorem searchHunk_some {bare old_lines : List (List Char)} {expected_at : Int} {n : Nat}
    (h : searchHunk bare old_lines expected_at = some n) :
    n ≤ bare.length ∧ (bare.drop n).take old_lines.length = old_lines := by
  obtain ⟨c, hfind, rfl⟩ := Option.map_eq_some_iff.mp h
  have hmatch := List.find?_some hfind
  simp only [matchesAt, Bool.and_eq_true, decide_eq_true_eq] at hmatch
  obtain ⟨⟨hlo, hhi⟩, hslice⟩ := hmatch
  exact ⟨by omega, hslice⟩

theorem searchHunk_le {bare old_lines : List (List Char)} {expected_at : Int} {n : Nat}
    (h : searchHunk bare old_lines expected_at = some n) : n + old_lines.length ≤ bare.length := by
  obtain ⟨hn, hslice⟩ := searchHunk_some h
  have hlen := congrArg List.length hslice
  rw [List.length_take, List.length_drop] at hlen
  omega

/-- A hunk is put within 50 lines of where it is expected. -/
theorem searchHunk_near {bare old_lines : List (List Char)} {expected_at : Int} {n : Nat}
    (h : searchHunk bare old_lines expected_at = some n) :
    expected_at - HUNK_FUZZ_LINES ≤ n ∧ (n : Int) ≤ expected_at + HUNK_FUZZ_LINES := by
  obtain ⟨c, hfind, rfl⟩ := Option.map_eq_some_iff.mp h
  have hmatch := List.find?_some hfind
  simp only [matchesAt, Bool.and_eq_true, decide_eq_true_eq] at hmatch
  obtain ⟨d, hd, hc⟩ := List.mem_flatMap.mp (List.mem_of_find?_eq_some hfind)
  have hd' := List.mem_range.mp hd
  simp only [List.mem_cons, List.not_mem_nil, or_false] at hc
  omega

theorem writtenAs_map (ending : List Char) (new_lines : List (List Char)) :
    WrittenAs ending new_lines (new_lines.map (· ++ ending)) := by
  induction new_lines with
  | nil => exact .nil
  | cons line lines ih => exact .cons (.inl rfl) ih

theorem rendered_writtenAs (s : Patching) (ending : List Char) (n : Nat) (new_lines : List (List Char)) :
    WrittenAs ending new_lines (s.rendered ending n new_lines) := by
  unfold rendered
  split
  · cases new_lines using List.reverseRecOn with
    | nil => exact .nil
    | append_singleton init last =>
      rw [List.dropLast_concat, List.getLast?_concat]
      exact List.rel_append (writtenAs_map ending init) (.cons (.inr rfl) .nil)
  · exact writtenAs_map ending new_lines

/-- What holds in every state. -/
structure Shape (s : Patching) : Prop where
  same_length : s.lines.length = s.bare.length
  offset : s.offset = shift s.placements
  settled_le : s.settled ≤ s.lines.length
  near : ∀ p ∈ s.placements, p.expected_at - HUNK_FUZZ_LINES ≤ p.at_line
    ∧ (p.at_line : Int) ≤ p.expected_at + HUNK_FUZZ_LINES

theorem settled_place (s : Patching) (ending : List Char) (number : Nat) (hunk : Hunk) (n : Nat) :
    (s.place ending number hunk n).settled = n + hunk.new_lines.length := by
  rw [settled, place, List.getLast?_concat]
  rfl

theorem length_place {s : Patching} {ending : List Char} {number : Nat} {hunk : Hunk} {n : Nat}
    (hn : n + hunk.old_lines.length ≤ s.lines.length) :
    (s.place ending number hunk n).lines.length
      = s.lines.length - hunk.old_lines.length + hunk.new_lines.length := by
  have hlen := (rendered_writtenAs s ending (n + hunk.old_lines.length) hunk.new_lines).length_eq
  simp only [place, List.length_append, List.length_take, List.length_drop, ← hlen]
  omega

theorem shape_place {s : Patching} (h : Shape s) {ending : List Char} {number : Nat} {hunk : Hunk}
    {n : Nat} (hfound : searchHunk s.bare hunk.old_lines (hunk.start + s.offset) = some n) :
    Shape (s.place ending number hunk n) := by
  have hn := searchHunk_le hfound
  rw [← h.same_length] at hn
  refine ⟨?_, ?_, ?_, ?_⟩
  · rw [length_place hn]
    have hsame := h.same_length
    simp only [place, List.length_append, List.length_take, List.length_drop]
    omega
  · simp only [place]
    rw [shift_concat, h.offset]
  · rw [settled_place, length_place hn]
    omega
  · intro p hp
    obtain hold | hnew := List.mem_append.mp hp
    · exact h.near p hold
    · rw [List.mem_singleton.mp hnew]
      exact searchHunk_near hfound

theorem shape_step {s : Patching} (h : Shape s) (ending : List Char) (numbered : Nat × Hunk) :
    Shape (s.step ending numbered) := by
  unfold step
  split
  · rename_i n hfound
    exact shape_place h hfound
  · exact ⟨h.same_length, h.offset, h.settled_le, h.near⟩

theorem shape_start (text : List Char) : Shape (start text) :=
  ⟨(List.length_map _).symm, rfl, Nat.zero_le _, fun _ hp => absurd hp List.not_mem_nil⟩

theorem shape_run {s : Patching} (h : Shape s) (ending : List Char) (numbered : List (Nat × Hunk)) :
    Shape (numbered.foldl (step ending) s) := by
  have hstep : ∀ (s : Patching) i, Shape s → Shape (s.step ending i) :=
    fun s i hs => shape_step hs ending i
  exact Runs.invariant hstep numbered h

/-! ## 4. Hunks behind one another -/

/-- What holds as long as every hunk goes behind what the one before put in. -/
structure Tracked (text : List Char) (s : Patching) : Prop where
  ordered : (ranges 0 s.placements).Pairwise Before
  behind : ∀ r ∈ ranges 0 s.placements, r.1 ≤ r.2 ∧ r.2 ≤ s.settled - s.offset
    ∧ (r.1 = s.settled - s.offset →
        (s.placements.getLast?.any fun p => p.hunk.old_lines.isEmpty) = true)
  lines : ∃ pieces, Spliced (original text) s.lines s.settled s.offset pieces
    ∧ ranges 0 s.placements = pieces.map (fun q => ((q.lo : Int), (q.hi : Int)))
    ∧ List.Forall₂ (fun p q =>
        (((original text).map rstripNewlines).drop q.lo).take (q.hi - q.lo) = p.hunk.old_lines
          ∧ WrittenAs (lineEnding text) p.hunk.new_lines q.new) s.placements pieces
  bare : ∃ pieces, Spliced ((original text).map rstripNewlines) s.bare s.settled s.offset pieces
  whole : ∀ line ∈ s.lines.dropLast, endsBreak line = true

theorem mem_dropLast_append {α : Type} {x : α} {l r : List α} (h : x ∈ (l ++ r).dropLast) :
    r = [] ∧ x ∈ l.dropLast ∨ r ≠ [] ∧ (x ∈ l ∨ x ∈ r.dropLast) := by
  by_cases hr : r = []
  · subst hr
    rw [List.append_nil] at h
    exact .inl ⟨rfl, h⟩
  · rw [List.dropLast_append_of_ne_nil hr, List.mem_append] at h
    exact .inr ⟨hr, h⟩

theorem mem_dropLast_of_mem_take {α : Type} {x : α} {l : List α} {n : Nat} (hn : n < l.length)
    (h : x ∈ l.take n) : x ∈ l.dropLast := by
  rw [List.dropLast_eq_take]
  exact List.take_subset_take_left l (Nat.le_sub_one_of_lt hn) h

theorem endsBreak_lineEnding (text line : List Char) : endsBreak (line ++ lineEnding text) = true := by
  unfold lineEnding endsBreak
  by_cases hcrlf : text.count '\n' - lineEnding.countCrlf text = 0 ∧ lineEnding.countCrlf text ≠ 0
  · simp [hcrlf, isBreak]
  · simp [hcrlf, isBreak]

/-- Of the lines of a hunk only the last one can go without an ending, and only
at the end of the file. -/
theorem rendered_whole (s : Patching) (text : List Char) (n : Nat) (new_lines : List (List Char)) :
    (∀ line ∈ (s.rendered (lineEnding text) n new_lines).dropLast, endsBreak line = true)
      ∧ (n ≠ s.lines.length →
          ∀ line ∈ s.rendered (lineEnding text) n new_lines, endsBreak line = true) := by
  have hall : ∀ line ∈ new_lines.map (· ++ lineEnding text), endsBreak line = true := by
    intro line hline
    obtain ⟨l, -, rfl⟩ := List.mem_map.mp hline
    exact endsBreak_lineEnding text l
  unfold rendered
  by_cases hopen : (s.keepsOpenEnd n && !new_lines.isEmpty) = true
  · rw [if_pos hopen]
    refine ⟨?_, ?_⟩
    · cases new_lines using List.reverseRecOn with
      | nil => simp
      | append_singleton init last =>
        intro line hline
        rw [List.dropLast_concat, List.getLast?_concat, Option.toList_some, List.dropLast_concat] at hline
        exact hall line (by rw [List.map_append]; exact List.mem_append_left _ hline)
    · intro hn
      rw [keepsOpenEnd, decide_eq_false hn] at hopen
      simp at hopen
  · rw [if_neg hopen]
    exact ⟨fun line hline => hall line (List.dropLast_subset _ hline), fun _ => hall⟩

theorem whole_place {text : List Char} {s : Patching} {number : Nat} {hunk : Hunk} {n : Nat}
    (h : ∀ line ∈ s.lines.dropLast, endsBreak line = true)
    (hn : n + hunk.old_lines.length ≤ s.lines.length) (hglue : s.glues n hunk = false) :
    ∀ line ∈ (s.place (lineEnding text) number hunk n).lines.dropLast, endsBreak line = true := by
  obtain ⟨hinit, hmiddle⟩ := rendered_whole s text (n + hunk.old_lines.length) hunk.new_lines
  have hbefore : hunk.new_lines ≠ [] → ∀ line ∈ s.lines.take n, endsBreak line = true := by
    intro hnew line hline
    by_cases hlt : n < s.lines.length
    · exact h line (mem_dropLast_of_mem_take hlt hline)
    · have heq : n = s.lines.length := by omega
      rw [heq, List.take_length] at hline
      have hlast : (s.lines.getLast?.any fun line => !endsBreak line) = false := by
        simpa [glues, heq, hnew] using hglue
      obtain ⟨init, last, hlines⟩ := (List.eq_nil_or_concat' s.lines).resolve_left
        (List.ne_nil_of_mem hline)
      rw [hlines, List.getLast?_concat, Option.any_some, Bool.not_eq_false'] at hlast
      rw [hlines, List.dropLast_concat] at h
      rw [hlines, List.mem_append, List.mem_singleton] at hline
      obtain hold | rfl := hline
      · exact h line hold
      · exact hlast
  intro line hline
  rw [place] at hline
  obtain ⟨hend, hmem⟩ | ⟨hend, hmem⟩ := mem_dropLast_append hline
  · obtain ⟨-, hmem⟩ | ⟨hnew, hmem | hmem⟩ := mem_dropLast_append hmem
    · rw [List.dropLast_take_eq_take_dropLast] at hmem
      exact h line (List.take_subset _ _ hmem)
    · refine hbefore (fun hnil => hnew ?_) line hmem
      rw [hnil]
      unfold rendered
      simp
    · exact hinit line hmem
  · have hlt : n + hunk.old_lines.length < s.lines.length := by
      by_contra hge
      exact hend (List.drop_eq_nil_of_le (by omega))
    obtain hmem | hmem := hmem
    · obtain hmem | hmem := List.mem_append.mp hmem
      · exact h line (mem_dropLast_of_mem_take (by omega) hmem)
      · exact hmiddle (by omega) line hmem
    · rw [List.dropLast_drop_eq_drop_dropLast] at hmem
      exact h line (List.drop_subset _ _ hmem)

theorem tracked_start (text : List Char) : Tracked text (start text) where
  ordered := List.Pairwise.nil
  behind := fun _ hr => absurd hr List.not_mem_nil
  lines := ⟨[], Spliced.refl _, rfl, .nil⟩
  bare := ⟨[], Spliced.refl _⟩
  whole := endsBreak_dropLast text

theorem ranges_place (s : Patching) (ending : List Char) (number : Nat) (hunk : Hunk) (n : Nat)
    (h : s.offset = shift s.placements) :
    ranges 0 (s.place ending number hunk n).placements
      = ranges 0 s.placements ++ [(n - s.offset, n - s.offset + hunk.old_lines.length)] := by
  rw [place, ranges_concat, Int.zero_add, ← h]

/-- **One hunk.** Behind the last one, a hunk replaces one more range of the
original lines. -/
theorem tracked_place {text : List Char} {s : Patching} {number : Nat} {hunk : Hunk} {n : Nat}
    (h : Tracked text s) (hshape : Shape s)
    (hfound : searchHunk s.bare hunk.old_lines (hunk.start + s.offset) = some n)
    (hbehind : s.settled ≤ n) (hspot : s.sameSpot n hunk = false) (hglue : s.glues n hunk = false) :
    Tracked text (s.place (lineEnding text) number hunk n) := by
  obtain ⟨pieces, hlines, hranges, hpieces⟩ := h.lines
  obtain ⟨bares, hbares⟩ := h.bare
  obtain ⟨-, hslice⟩ := searchHunk_some hfound
  have hle := searchHunk_le hfound
  have hle' : n + hunk.old_lines.length ≤ s.lines.length := by rwa [hshape.same_length]
  have hrender := rendered_writtenAs s (lineEnding text) (n + hunk.old_lines.length) hunk.new_lines
  have hsettled := settled_place s (lineEnding text) number hunk n
  have hoffset : (s.place (lineEnding text) number hunk n).offset
      = s.offset + (hunk.new_lines.length - hunk.old_lines.length) := rfl
  have hnew := ranges_place s (lineEnding text) number hunk n hshape.offset
  refine ⟨?_, ?_, ?_, ?_, whole_place h.whole hle' hglue⟩
  · rw [hnew, List.pairwise_append]
    refine ⟨h.ordered, List.pairwise_singleton _ _, ?_⟩
    intro r hr b hb
    obtain ⟨hlohi, hend, hempty⟩ := h.behind r hr
    rw [List.mem_singleton.mp hb]
    refine ⟨by simp only; omega, ?_⟩
    -- both empty and in one place is what `sameSpot` excludes
    by_contra hsame
    simp only [not_or] at hsame
    have hold : hunk.old_lines = [] := List.length_eq_zero_iff.mp (by omega)
    have hn : n = s.settled := by omega
    rw [sameSpot, hempty (by omega), hold, hn] at hspot
    simp at hspot
  · intro r hr
    rw [hnew, List.mem_append, List.mem_singleton] at hr
    rw [hsettled, hoffset]
    have hlast : ((s.place (lineEnding text) number hunk n).placements.getLast?.any
        fun p => p.hunk.old_lines.isEmpty) = hunk.old_lines.isEmpty := by
      rw [place, List.getLast?_concat]
      rfl
    rw [hlast]
    obtain hr | rfl := hr
    · obtain ⟨hlohi, hend, -⟩ := h.behind r hr
      refine ⟨hlohi, by omega, fun hr1 => ?_⟩
      rw [List.isEmpty_iff, ← List.length_eq_zero_iff]
      omega
    · simp only
      refine ⟨by omega, by omega, fun hr1 => ?_⟩
      rw [List.isEmpty_iff, ← List.length_eq_zero_iff]
      omega
  · obtain ⟨hcast, -⟩ := hlines.slice hbehind hunk.old_lines.length
    have hnext := hlines.replaceAt hbehind hle' (s.rendered (lineEnding text)
      (n + hunk.old_lines.length) hunk.new_lines)
    rw [← hrender.length_eq] at hnext
    refine ⟨_, by rw [hsettled, hoffset]; exact hnext, ?_, ?_⟩
    · rw [hnew, hranges, List.map_append]
      simp [hcast]
    · obtain ⟨-, hold⟩ := hbares.slice hbehind hunk.old_lines.length
      refine List.rel_append hpieces (.cons ⟨?_, hrender⟩ .nil)
      rw [Nat.add_sub_cancel_left, ← hold, hslice]
  · have hnext := hbares.replaceAt hbehind hle hunk.new_lines
    exact ⟨_, by rw [hsettled, hoffset]; exact hnext⟩

theorem tracked_step {text : List Char} {s : Patching} (h : Tracked text s) (hshape : Shape s)
    {numbered : Nat × Hunk} (hok : s.ok numbered = true) :
    Tracked text (s.step (lineEnding text) numbered) := by
  unfold step
  unfold ok at hok
  split
  · rename_i n hfound
    rw [hfound] at hok
    simp only [Bool.and_eq_true, decide_eq_true_eq, Bool.not_eq_true'] at hok
    obtain ⟨⟨hbehind, hspot⟩, hglue⟩ := hok
    exact tracked_place h hshape hfound hbehind hspot hglue
  · exact ⟨h.ordered, h.behind, h.lines, h.bare, h.whole⟩

theorem Tracked.inPlace {text : List Char} {s : Patching} (h : Tracked text s) : InPlace text s := by
  obtain ⟨pieces, hlines, hranges, hpieces⟩ := h.lines
  exact ⟨h.ordered, ⟨pieces, hranges, hpieces, hlines.hi_le, hlines.eq⟩, h.whole⟩

/-- **Runs.** When every hunk goes behind the one before, they are in place. -/
theorem inPlace_run {text : List Char} {numbered : List (Nat × Hunk)}
    (h : RunOk (step (lineEnding text)) (fun s i => s.ok i = true) (start text) numbered) :
    InPlace text (numbered.foldl (step (lineEnding text)) (start text)) := by
  have hstep : ∀ (s : Patching) i, Tracked text s ∧ Shape s → s.ok i = true →
      Tracked text (s.step (lineEnding text) i) ∧ Shape (s.step (lineEnding text) i) :=
    fun s i hs hok => ⟨tracked_step hs.1 hs.2 hok, shape_step hs.2 _ i⟩
  have hall := RunOk.invariant hstep ⟨tracked_start text, shape_start text⟩ h numbered.length
  rw [List.take_length] at hall
  exact hall.1.inPlace

/-! ## 5. Hunks in place were behind one another -/

/-- Increasing ranges are behind one another in the patched lines. -/
theorem behind_of_ordered {s : Patching} (hshape : Shape s) {ending : List Char} {number : Nat}
    {hunk : Hunk} {n : Nat}
    (h : (ranges 0 (s.place ending number hunk n).placements).Pairwise Before) :
    s.settled ≤ n ∧ s.sameSpot n hunk = false := by
  rw [ranges_place s ending number hunk n hshape.offset] at h
  unfold settled sameSpot
  have hoffset := hshape.offset
  obtain hnil | ⟨ps, p, hps⟩ := List.eq_nil_or_concat' s.placements
  · rw [hnil]
    simp
  · rw [hps, ranges_concat, List.append_assoc] at h
    have hpair := (List.pairwise_append.mp h).2.1
    simp only [List.cons_append, List.nil_append, List.pairwise_cons, List.mem_singleton,
      forall_eq] at hpair
    obtain ⟨⟨hend, hne⟩, -⟩ := hpair
    rw [hps, shift_concat] at hoffset
    simp only at hend hne
    unfold settled
    rw [hps, List.getLast?_concat]
    refine ⟨by simp only [Option.elim_some]; omega, ?_⟩
    simp only [Option.elim_some, Option.any_some]
    -- two additions in one place would be one range
    by_contra hspot
    simp only [Bool.not_eq_false, Bool.and_eq_true, List.isEmpty_iff] at hspot
    obtain ⟨⟨hn, hold⟩, hlast⟩ := hspot
    have hold_length : hunk.old_lines.length = 0 := by rw [hold]; rfl
    have hlast_length : p.hunk.old_lines.length = 0 := by rw [hlast]; rfl
    have hplace := of_decide_eq_true hn
    omega

theorem placements_step (s : Patching) (ending : List Char) (numbered : Nat × Hunk) :
    s.placements <+: (s.step ending numbered).placements := by
  unfold step
  split
  · exact List.prefix_append _ _
  · exact List.prefix_refl _

theorem placements_run (s : Patching) (ending : List Char) (numbered : List (Nat × Hunk)) :
    s.placements <+: (numbered.foldl (step ending) s).placements := by
  induction numbered generalizing s with
  | nil => exact List.prefix_refl _
  | cons i numbered ih => exact (placements_step s ending i).trans (ih _)

theorem ordered_prefix {ps qs : List Placement} (h : ps <+: qs)
    (hq : (ranges 0 qs).Pairwise Before) : (ranges 0 ps).Pairwise Before := by
  obtain ⟨rest, rfl⟩ := h
  rw [ranges_append] at hq
  exact (List.pairwise_append.mp hq).1

/-- A line without a break in front of text that a hunk put in. -/
def Broken (s : Patching) : Prop :=
  ∃ i line, s.lines[i]? = some line ∧ endsBreak line = false ∧ i + 1 < s.settled

theorem broken_run {ending : List Char} {numbered : List (Nat × Hunk)} {s : Patching}
    (hshape : Shape s) (h : Broken s)
    (hord : (ranges 0 (numbered.foldl (step ending) s).placements).Pairwise Before) :
    Broken (numbered.foldl (step ending) s) := by
  induction numbered generalizing s with
  | nil => exact h
  | cons i numbered ih =>
    refine ih (shape_step hshape ending i) ?_ hord
    have hnext := ordered_prefix (placements_run (s.step ending i) ending numbered) hord
    obtain ⟨k, line, hline, hbreak, hk⟩ := h
    cases hfound : searchHunk s.bare i.2.old_lines (i.2.start + s.offset) with
    | none =>
      have hstep : s.step ending i = { s with failed := s.failed ++ [i.1] } := by
        unfold step
        rw [hfound]
      rw [hstep]
      exact ⟨k, line, hline, hbreak, hk⟩
    | some n =>
      have hstep : s.step ending i = s.place ending i.1 i.2 n := by
        unfold step
        rw [hfound]
      rw [hstep] at hnext ⊢
      have hbehind := (behind_of_ordered hshape hnext).1
      have hle := searchHunk_le hfound
      rw [← hshape.same_length] at hle
      refine ⟨k, line, ?_, hbreak, ?_⟩
      · rw [place, List.append_assoc, List.getElem?_append_left, List.getElem?_take_of_lt, hline]
        · omega
        · rw [List.length_take]
          omega
      · rw [settled_place]
        omega

theorem broken_place {s : Patching} (ending : List Char) (number : Nat) {hunk : Hunk} {n : Nat}
    (h : s.glues n hunk = true) : Broken (s.place ending number hunk n) := by
  unfold glues at h
  simp only [Bool.and_eq_true, decide_eq_true_eq, Bool.not_eq_true', List.isEmpty_eq_false_iff] at h
  obtain ⟨⟨hn, hnew⟩, hopen⟩ := h
  obtain ⟨line, hline, hbreak⟩ := (Option.any_eq_true _ _).mp hopen
  have hlen : 0 < s.lines.length := by
    rw [List.length_pos_iff]
    intro hnil
    rw [hnil] at hline
    cases hline
  rw [List.getLast?_eq_getElem?] at hline
  refine ⟨s.lines.length - 1, line, ?_, by simpa using hbreak, ?_⟩
  · rw [place, List.append_assoc, List.getElem?_append_left, List.getElem?_take_of_lt, hline]
    · omega
    · rw [List.length_take]
      omega
  · rw [settled_place, hn]
    have := List.length_pos_iff.mpr hnew
    omega

theorem runOk_of_inPlace {ending : List Char} {numbered : List (Nat × Hunk)} {s : Patching}
    (hshape : Shape s)
    (hord : (ranges 0 (numbered.foldl (step ending) s).placements).Pairwise Before)
    (hwhole : ∀ line ∈ (numbered.foldl (step ending) s).lines.dropLast, endsBreak line = true) :
    RunOk (step ending) (fun s i => s.ok i = true) s numbered := by
  induction numbered generalizing s with
  | nil => trivial
  | cons i numbered ih =>
    refine ⟨?_, ih (shape_step hshape ending i) hord hwhole⟩
    show s.ok i = true
    unfold ok
    split
    · rename_i n hfound
      have hstep : s.step ending i = s.place ending i.1 i.2 n := by
        unfold step
        rw [hfound]
      have hnext := ordered_prefix (placements_run (s.step ending i) ending numbered) hord
      rw [hstep] at hnext
      obtain ⟨hbehind, hspot⟩ := behind_of_ordered hshape hnext
      have hglue : s.glues n i.2 = false := by
        by_contra hglue
        rw [Bool.not_eq_false] at hglue
        have hbroken := broken_place ending i.1 hglue 
        rw [← hstep] at hbroken
        obtain ⟨k, line, hline, hbreak, hk⟩ :=
          broken_run (shape_step hshape ending i) hbroken hord
        have hle := (shape_run (shape_step hshape ending i) ending numbered).settled_le
        have hmem : line ∈ (numbered.foldl (step ending) (s.step ending i)).lines.dropLast := by
          rw [List.dropLast_eq_take]
          refine List.mem_of_getElem? (i := k) ?_
          rw [List.getElem?_take_of_lt (by omega), hline]
        rw [hwhole line hmem] at hbreak
        cases hbreak
      simp [hbehind, hspot, hglue]
    · rfl

/-! ## 6. The whole diff -/

/-- The applied hunks are the hunks of the diff, in its order, less those that
failed, each within 50 lines of where it is expected. -/
structure Accounted (hunks : List Hunk) (s : Patching) : Prop where
  in_order : (s.placements.map fun p => (p.number, p.hunk)).Sublist (numberHunks hunks)
  count : s.placements.length + s.failed.length = hunks.length
  near : ∀ p ∈ s.placements, p.expected_at - HUNK_FUZZ_LINES ≤ p.at_line
    ∧ (p.at_line : Int) ≤ p.expected_at + HUNK_FUZZ_LINES

theorem accounted_run (ending : List Char) (numbered : List (Nat × Hunk)) (s : Patching) :
    (∃ placed : List (Nat × Hunk), placed.Sublist numbered
      ∧ (numbered.foldl (step ending) s).placements.map (fun p => (p.number, p.hunk))
        = s.placements.map (fun p => (p.number, p.hunk)) ++ placed)
      ∧ (numbered.foldl (step ending) s).placements.length + (numbered.foldl (step ending) s).failed.length
        = s.placements.length + s.failed.length + numbered.length := by
  induction numbered generalizing s with
  | nil => exact ⟨⟨[], .slnil, (List.append_nil _).symm⟩, rfl⟩
  | cons i numbered ih =>
    obtain ⟨⟨placed, hsub, hplaced⟩, hcount⟩ := ih (s.step ending i)
    rw [List.foldl_cons, hplaced, hcount, List.length_cons]
    cases hfound : searchHunk s.bare i.2.old_lines (i.2.start + s.offset) with
    | none =>
      have hstep : s.step ending i = { s with failed := s.failed ++ [i.1] } := by
        unfold step
        rw [hfound]
      rw [hstep]
      refine ⟨⟨placed, hsub.cons i, rfl⟩, ?_⟩
      simp only [List.length_append, List.length_singleton]
      omega
    | some n =>
      have hstep : s.step ending i = s.place ending i.1 i.2 n := by
        unfold step
        rw [hfound]
      rw [hstep]
      refine ⟨⟨i :: placed, hsub.cons_cons i, ?_⟩, ?_⟩
      · simp [place]
      · simp only [place, List.length_append, List.length_singleton]
        omega

theorem numberHunks_length (hunks : List Hunk) : (numberHunks hunks).length = hunks.length := by
  rw [numberHunks, List.length_map, List.length_zipIdx]

/-- The loop is the run over the hunks; without `allow_partial` each of them is
found. -/
theorem applyHunks_ok {ending : List Char} { allow_partial : Bool} {numbered : List (Nat × Hunk)}
    {s t : Patching} (h : applyHunks ending allow_partial numbered s = .ok t) :
    t = numbered.foldl (step ending) s
      ∧ ( allow_partial = false → RunOk (step ending)
          (fun s i => searchHunk s.bare i.2.old_lines (i.2.start + s.offset) ≠ none) s numbered) := by
  induction numbered generalizing s with
  | nil =>
    rw [applyHunks, Except.ok.injEq] at h
    exact ⟨h.symm, fun _ => trivial⟩
  | cons i numbered ih =>
    rw [applyHunks] at h
    by_cases hfails : ((searchHunk s.bare i.2.old_lines (i.2.start + s.offset)).isNone
        && ! allow_partial) = true
    · rw [if_pos hfails] at h
      cases h
    · rw [if_neg hfails] at h
      obtain ⟨hrun, hfound⟩ := ih h
      refine ⟨hrun, fun hpartial => ⟨fun hnone => hfails ?_, hfound hpartial⟩⟩
      rw [hnone, hpartial]
      rfl

theorem applyDiffSync_ok {text : List Char} {hunks : List Hunk} { allow_partial : Bool} {s : Patching}
    (h : (applyDiffSync text hunks allow_partial).2 = .ok s) :
    (applyDiffSync text hunks allow_partial).1 = s.lines.flatten
      ∧ applyHunks (lineEnding text) allow_partial (numberHunks hunks) (start text) = .ok s := by
  unfold applyDiffSync at h ⊢
  cases hpatch : patchText text hunks allow_partial with
  | ok t =>
    rw [hpatch] at h
    cases h
    unfold patchText at hpatch
    by_cases hempty : hunks.isEmpty = true
    · rw [if_pos hempty] at hpatch
      cases hpatch
    · rw [if_neg hempty] at hpatch
      exact ⟨rfl, hpatch⟩
  | error exc =>
    rw [hpatch] at h
    cases h

theorem applyDiffSync_error {text : List Char} {hunks : List Hunk} { allow_partial : Bool}
    {exc : DiffError} (h : (applyDiffSync text hunks allow_partial).2 = .error exc) :
    (applyDiffSync text hunks allow_partial).1 = text := by
  unfold applyDiffSync at h ⊢
  cases hpatch : patchText text hunks allow_partial with
  | ok t =>
    rw [hpatch] at h
    cases h
  | error exc' => rfl

/-- A hunk that is not found, without `allow_partial`. -/
theorem untouched_of_not_found {text : List Char} {hunks : List Hunk} {k : Nat} {i : Nat × Hunk}
    (hi : (numberHunks hunks)[k]? = some i)
    (hnone : searchHunk (((numberHunks hunks).take k).foldl (step (lineEnding text)) (start text)).bare
      i.2.old_lines (i.2.start
        + (((numberHunks hunks).take k).foldl (step (lineEnding text)) (start text)).offset) = none) :
    (applyDiffSync text hunks false).1 = text := by
  cases hend : (applyDiffSync text hunks false).2 with
  | ok s =>
    have hall := (applyHunks_ok (applyDiffSync_ok hend).2).2 rfl
    exact absurd hnone (hall.get hi)
  | error exc => exact applyDiffSync_error hend

/-- **The hunks of a diff.** The applied hunks replace disjoint, increasing
ranges of the original lines exactly when each of them, on its turn, is found
behind what the hunk before it put in; an addition must not follow an addition
in the same place, or a last line without a break. Without `allow_partial`, a
hunk that is not found leaves the file as it is. -/
theorem applyDiffSync_in_place_iff (text : List Char) (hunks : List Hunk) ( allow_partial : Bool) :
    ((∀ s, (applyDiffSync text hunks allow_partial).2 = .ok s →
        (applyDiffSync text hunks allow_partial).1 = s.lines.flatten ∧ InPlace text s ∧ Accounted hunks s)
      ∧ ( allow_partial = false → ∀ k i, (numberHunks hunks)[k]? = some i →
          searchHunk (((numberHunks hunks).take k).foldl (step (lineEnding text)) (start text)).bare
            i.2.old_lines (i.2.start
              + (((numberHunks hunks).take k).foldl (step (lineEnding text)) (start text)).offset) = none →
          (applyDiffSync text hunks allow_partial).1 = text))
    ↔ ∀ s, (applyDiffSync text hunks allow_partial).2 = .ok s →
        RunOk (step (lineEnding text)) (fun s i => s.ok i = true) (start text) (numberHunks hunks) := by
  constructor
  · intro h s hs
    obtain ⟨-, hplace, -⟩ := h.1 s hs
    obtain ⟨hrun, -⟩ := applyHunks_ok (applyDiffSync_ok hs).2
    rw [hrun] at hplace
    exact runOk_of_inPlace (shape_start text) hplace.ordered hplace.whole
  · intro h
    refine ⟨fun s hs => ?_, fun hpartial k i hi hnone => ?_⟩
    · obtain ⟨htext, happly⟩ := applyDiffSync_ok hs
      obtain ⟨hrun, -⟩ := applyHunks_ok happly
      obtain ⟨⟨placed, hsub, hplaced⟩, hcount⟩ :=
        accounted_run (lineEnding text) (numberHunks hunks) (start text)
      rw [numberHunks_length] at hcount
      have hnear := (shape_run (shape_start text) (lineEnding text) (numberHunks hunks)).near
      refine ⟨htext, ?_, ?_⟩
      · rw [hrun]
        exact inPlace_run (h s hs)
      · rw [hrun]
        refine ⟨?_, by rw [hcount]; simp [start], hnear⟩
        rw [hplaced]
        exact hsub
    · subst hpartial
      exact untouched_of_not_found hi hnone

/-- The second hunk replaces what the first one put in. -/
theorem replaced_own_text :
    ∃ s, (applyDiff "a\nb\n".toList "@@ -1 +1 @@\n-a\n+c\n@@ -2 +2 @@\n-c\n+d\n".toList false).2 = .ok s
      ∧ ¬ InPlace "a\nb\n".toList s :=
  ⟨_, rfl, fun h => absurd h.ordered (by decide)⟩

end Patching

end Agenthicc.Tools
