/-
Agenthicc.Memory.ToolOutputTheorems — what the reduction of tool output finds,
and what it leaves alone.

The search halves the range of retained lengths as if fitting were monotone.
It is not: a text shorter than its omission marker grows when it is excerpted,
so a larger retained length can fit where smaller ones do not. Up to the first
length that fits the search tries a fixed sequence, `tried`; it ends without a
candidate exactly when none of those fits.
-/
import Agenthicc.Memory.LocalFallback

namespace Agenthicc.Memory

open Python

/-! ## 1. What is left alone -/

/-- Only the text of a plain part is another one. -/
inductive PartKept : Json → Json → Prop where
  | str (text text' : String) : PartKept (.str text) (.str text')
  | block (kvs : List (String × Json)) (text' : String) :
      PartKept (.obj kvs) (.obj (setField "text" (.str text') kvs))

/-- Only the texts of a plain-text content are others. -/
inductive ContentKept : Json → Json → Prop where
  | str (text text' : String) : ContentKept (.str text) (.str text')
  | parts (parts parts' : List Json) (plain : parts.all isPlainPart = true)
      (kept : List.Forall₂ PartKept parts parts') : ContentKept (.arr parts) (.arr parts')

/-- Only the plain-text content of a tool result is another one. -/
inductive BlockKept : Json → Json → Prop where
  | same (block : Json) : BlockKept block block
  | toolResult (kvs : List (String × Json)) (content' : Json) (h : isToolResult (.obj kvs) = true)
      (kept : ContentKept ((Json.obj kvs).get "content") content') :
      BlockKept (.obj kvs) (.obj (setField "content" content' kvs))

/-- A message is the same but for the tool results a user message holds. -/
inductive MessageKept : Json → Json → Prop where
  | same (message : Json) : MessageKept message message
  | blocks (kvs : List (String × Json)) (blocks blocks' : List Json)
      (user : (Json.obj kvs).getD "role" (.str "") = .str "user")
      (content : (Json.obj kvs).get "content" = .arr blocks)
      (kept : List.Forall₂ BlockKept blocks blocks') :
      MessageKept (.obj kvs) (.obj (setField "content" (.arr blocks') kvs))

theorem forall₂_map {α β : Type} {R : α → β → Prop} {f : α → β} {xs : List α}
    (h : ∀ x ∈ xs, R x (f x)) : List.Forall₂ R xs (xs.map f) := by
  induction xs with
  | nil => exact .nil
  | cons x xs ih =>
    rw [List.forall_mem_cons] at h
    exact .cons h.1 (ih h.2)

theorem excerptPart_kept (py : Interp) (retained : Nat) {part : Json} (h : isPlainPart part = true) :
    PartKept part (excerptPart py part retained).1 := by
  cases part with
  | str text => exact .str _ _
  | obj kvs => exact .block _ _
  | _ => cases h

theorem excerptContent_kept (py : Interp) (retained : Nat) {content : Json}
    (h : (excerptToolResultContent py content retained).2 = true) :
    ContentKept content (excerptToolResultContent py content retained).1 := by
  cases content with
  | str text => exact .str _ _
  | arr parts =>
    rw [excerptToolResultContent] at h ⊢
    by_cases hplain : parts.all isPlainPart = true
    · rw [if_pos hplain]
      refine .parts _ _ hplain ?_
      rw [List.map_map]
      exact forall₂_map fun part hpart => excerptPart_kept py retained (List.all_eq_true.mp hplain part hpart)
    · rw [if_neg hplain] at h
      cases h
  | _ => cases h

theorem excerptBlock_kept (py : Interp) (retained : Nat) (block : Json) :
    BlockKept block (excerptBlock py retained block).1 := by
  cases block with
  | obj kvs =>
    rw [excerptBlock]
    split
    · rename_i htool
      simp only
      split
      · rename_i hchanged
        exact .toolResult kvs _ htool (excerptContent_kept py retained hchanged)
      · exact .same _
    · exact .same _
  | _ => exact .same _

theorem excerptMessage_kept (py : Interp) (retained : Nat) (message : Json) :
    MessageKept message (excerptMessage py retained message).1 := by
  cases message with
  | obj kvs =>
    rw [excerptMessage]
    split
    · exact .same _
    · rename_i huser
      split
      · rename_i blocks hcontent
        refine .blocks kvs blocks _ (not_not.mp huser) hcontent ?_
        rw [List.map_map]
        exact forall₂_map fun block _ => excerptBlock_kept py retained block
      · exact .same _
  | _ => exact .same _

/-! ## 2. What changes -/

theorem excerptText_changed {text : String} {retained : Nat} (h : excerptText text retained ≠ text) :
    retained < text.length := by
  by_contra hle
  exact h (if_pos (not_lt.mp hle))

/-- A part that changes holds a text longer than the retained length. -/
theorem excerptPart_changed (py : Interp) {retained : Nat} {part : Json} (h : isPlainPart part = true)
    (hchanged : (excerptPart py part retained).2 = true) : retained < (partText part).length := by
  cases part with
  | str text => exact excerptText_changed (of_decide_eq_true hchanged)
  | obj kvs =>
    rw [isPlainPart, Bool.and_eq_true] at h
    obtain ⟨text, htext⟩ : ∃ text, Json.lookup "text" kvs = some (.str text) := by
      have hget := h.2
      cases hlookup : Json.lookup "text" kvs with
      | none => simp [Json.get, Json.getD, Json.get?, hlookup] at hget
      | some v => cases v <;> simp_all [Json.get, Json.getD, Json.get?]
    have horiginal : (Json.obj kvs).getD "text" (.str "") = .str text := by
      simp [Json.getD, Json.get?, htext]
    have hlt := excerptText_changed (of_decide_eq_true hchanged)
    rw [horiginal, pyStr] at hlt
    have hpart : partText (.obj kvs) = text := by
      simp only [partText, horiginal]
    rw [hpart]
    exact hlt
  | _ => cases h

theorem excerptContent_changed (py : Interp) {retained : Nat} {content : Json}
    (h : (excerptToolResultContent py content retained).2 = true) :
    ∃ text ∈ contentTextSegments content, retained < text.length := by
  have hne : ∀ text : String, retained < text.length → text ≠ "" := by
    intro text hlt hempty
    rw [hempty] at hlt
    exact absurd hlt (Nat.not_lt_zero _)
  cases content with
  | str text =>
    have hlt := excerptText_changed (of_decide_eq_true h)
    exact ⟨text, by rw [contentTextSegments, if_neg (hne text hlt)]; exact List.mem_singleton_self _, hlt⟩
  | arr parts =>
    rw [excerptToolResultContent] at h
    by_cases hplain : parts.all isPlainPart = true
    · rw [if_pos hplain] at h
      obtain ⟨p, hp, hchanged⟩ := List.any_eq_true.mp h
      obtain ⟨part, hpart, rfl⟩ := List.mem_map.mp hp
      have hlt := excerptPart_changed py (List.all_eq_true.mp hplain part hpart) hchanged
      refine ⟨partText part, ?_, hlt⟩
      rw [contentTextSegments, if_pos hplain, List.mem_filter]
      exact ⟨List.mem_map_of_mem hpart, decide_eq_true (hne _ hlt)⟩
    · rw [if_neg hplain] at h
      cases h
  | _ => cases h

theorem excerptBlock_changed (py : Interp) {retained : Nat} {block : Json}
    (h : (excerptBlock py retained block).2 = true) :
    isToolResult block = true
      ∧ ∃ text ∈ contentTextSegments (block.get "content"), retained < text.length := by
  cases block with
  | obj kvs =>
    rw [excerptBlock] at h
    split at h
    · rename_i htool
      simp only at h
      split at h
      · rename_i hchanged
        exact ⟨htool, excerptContent_changed py hchanged⟩
      · cases h
    · cases h
  | _ => cases h

theorem excerptMessage_changed (py : Interp) {retained : Nat} {message : Json}
    (h : (excerptMessage py retained message).2 = true) :
    ∃ text ∈ toolResultTextSegments message, retained < text.length := by
  cases message with
  | obj kvs =>
    rw [excerptMessage] at h
    split at h
    · cases h
    · rename_i huser
      split at h
      · rename_i blocks hcontent
        obtain ⟨p, hp, hchanged⟩ := List.any_eq_true.mp h
        obtain ⟨block, hblock, rfl⟩ := List.mem_map.mp hp
        obtain ⟨htool, text, htext, hlt⟩ := excerptBlock_changed py hchanged
        refine ⟨text, ?_, hlt⟩
        have hfield : fieldOf (Json.obj kvs) "content" .null = .arr blocks := hcontent
        rw [toolResultTextSegments, if_neg (by simpa [fieldOf] using huser), hfield]
        exact List.mem_flatMap.mpr ⟨block, List.mem_filter.mpr ⟨hblock, htool⟩, htext⟩
      · cases h
  | _ => cases h
/-! ## 3. The search -/

/-- The length of the longest tool-result text. -/
def maxSegmentChars (messages : List Json) : Nat :=
  ((messages.flatMap toolResultTextSegments).map String.length).foldl max 0

/-- The messages with at most `retained` characters of each text. -/
def candidate (py : Interp) (messages : List Json) (retained : Nat) : List Json :=
  (messages.map (excerptMessage py retained)).map Prod.fst

/-- Whether excerpting changes anything. -/
def changedAt (py : Interp) (messages : List Json) (retained : Nat) : Bool :=
  (messages.map (excerptMessage py retained)).any Prod.snd

theorem candidate_kept (py : Interp) (messages : List Json) (retained : Nat) :
    List.Forall₂ MessageKept messages (candidate py messages retained) := by
  rw [candidate, List.map_map]
  exact forall₂_map fun message _ => excerptMessage_kept py retained message

theorem le_foldl_max (xs : List Nat) (n : Nat) :
    n ≤ xs.foldl max n ∧ ∀ x ∈ xs, x ≤ xs.foldl max n := by
  induction xs generalizing n with
  | nil => exact ⟨Nat.le_refl n, by simp⟩
  | cons x xs ih =>
    obtain ⟨hn, hxs⟩ := ih (max n x)
    refine ⟨(Nat.le_max_left n x).trans hn, fun y hy => ?_⟩
    cases hy with
    | head => exact (Nat.le_max_right n x).trans hn
    | tail _ hy => exact hxs y hy

theorem changedAt_lt {py : Interp} {messages : List Json} {retained : Nat}
    (h : changedAt py messages retained = true) : retained < maxSegmentChars messages := by
  obtain ⟨p, hp, hchanged⟩ := List.any_eq_true.mp h
  obtain ⟨message, hmessage, rfl⟩ := List.mem_map.mp hp
  obtain ⟨text, htext, hlt⟩ := excerptMessage_changed py hchanged
  refine Nat.lt_of_lt_of_le hlt ((le_foldl_max _ 0).2 _ ?_)
  exact List.mem_map_of_mem (List.mem_flatMap.mpr ⟨message, hmessage, htext⟩)

namespace Compactor

variable (c : Compactor) (T : List Json → Int) (messages : List Json) (target before : Int)

/-- The candidate with this retained length may be taken. -/
def FitsAt (retained : Nat) : Prop :=
  fits target before (T (candidate c.py messages retained)) (changedAt c.py messages retained) = true

/-- The retained lengths the search tries while none fits. -/
def probes : (rounds : Nat) → (high : Int) → List Nat
  | 0, _ => []
  | rounds + 1, high =>
      if 0 > high then [] else ((0 + high) / 2).toNat :: probes rounds ((0 + high) / 2 - 1)

/-- All lengths that are tried when none fits. -/
def tried (messages : List Json) : List Nat := probes 24 (maxSegmentChars messages) ++ [0]

variable {T messages target before} {summary : Json}

/-- Every list of messages has an estimate. -/
def Estimates (summary : Json) (T : List Json → Int) : Prop :=
  ∀ messages, c.memoryTokens (messages, summary) = .ok (T messages)

variable {c}

theorem candidateFor_eq (hT : c.Estimates summary T) (retained : Nat) :
    c.candidateFor messages summary retained = .ok (candidate c.py messages retained,
      T (candidate c.py messages retained), changedAt c.py messages retained) := by
  rw [candidateFor, candidateMemoryTokens]
  exact congrArg (· >>= _) (hT _)

theorem searchRetained_succ (hT : c.Estimates summary T) (rounds : Nat) (low high : Int)
    (best : Option (List Json × Int)) (hle : ¬ low > high) :
    c.searchRetained messages summary target before (rounds + 1) low high best =
      if fits target before (T (candidate c.py messages ((low + high) / 2).toNat))
          (changedAt c.py messages ((low + high) / 2).toNat) then
        c.searchRetained messages summary target before rounds ((low + high) / 2 + 1) high
          (some (candidate c.py messages ((low + high) / 2).toNat,
            T (candidate c.py messages ((low + high) / 2).toNat)))
      else c.searchRetained messages summary target before rounds low ((low + high) / 2 - 1) best := by
  rw [searchRetained, if_neg hle]
  simp only [candidateFor_eq hT]
  rfl

variable (messages target before) in
/-- The search ends with what it had or with a candidate that fits. -/
theorem searchRetained_found (hT : c.Estimates summary T) (rounds : Nat) (low high : Int)
    (best : Option (List Json × Int)) :
    ∃ best', c.searchRetained messages summary target before rounds low high best = .ok best'
      ∧ (best' = best ∨ ∃ k, c.FitsAt T messages target before k
          ∧ best' = some (candidate c.py messages k, T (candidate c.py messages k))) := by
  induction rounds generalizing low high best with
  | zero => exact ⟨best, rfl, .inl rfl⟩
  | succ rounds ih =>
    by_cases hle : low > high
    · exact ⟨best, by rw [searchRetained, if_pos hle], .inl rfl⟩
    · rw [searchRetained_succ hT rounds low high best hle]
      split
      · rename_i hfits
        obtain ⟨best', heq, hbest⟩ := ih ((low + high) / 2 + 1) high
          (some (candidate c.py messages ((low + high) / 2).toNat,
            T (candidate c.py messages ((low + high) / 2).toNat)))
        refine ⟨best', heq, .inr ?_⟩
        cases hbest with
        | inl hsame => exact ⟨_, hfits, hsame⟩
        | inr hfound => exact hfound
      · exact ih low ((low + high) / 2 - 1) best

variable (messages target before) in
/-- It ends with nothing exactly when nothing it tries fits. -/
theorem searchRetained_none (hT : c.Estimates summary T) (rounds : Nat) (high : Int) :
    c.searchRetained messages summary target before rounds 0 high none = .ok none ↔
      ∀ k ∈ probes rounds high, ¬ c.FitsAt T messages target before k := by
  induction rounds generalizing high with
  | zero => simp [searchRetained, probes]
  | succ rounds ih =>
    rw [probes]
    by_cases hle : (0 : Int) > high
    · rw [if_pos hle, searchRetained, if_pos hle]
      simp
    · rw [if_neg hle, searchRetained_succ hT rounds 0 high none hle, List.forall_mem_cons]
      split
      · rename_i hfits
        -- what has been found is kept
        obtain ⟨best', heq, hbest⟩ := searchRetained_found messages target before hT
          rounds ((0 + high) / 2 + 1) high (some (candidate c.py messages ((0 + high) / 2).toNat,
            T (candidate c.py messages ((0 + high) / 2).toNat)))
        rw [heq]
        constructor
        · intro hnone
          rw [Except.ok.injEq] at hnone
          subst hnone
          cases hbest with
          | inl hsame => cases hsame
          | inr hfound =>
            obtain ⟨k, -, hk⟩ := hfound
            cases hk
        · intro hnot
          exact absurd hfits hnot.1
      · rename_i hnot
        rw [ih]
        exact ⟨fun h => ⟨hnot, h⟩, And.right⟩

theorem FitsAt.lt {k : Nat} (h : c.FitsAt T messages target before k) :
    k < maxSegmentChars messages := by
  rw [FitsAt, fits, Bool.and_assoc, Bool.and_eq_true] at h
  exact changedAt_lt h.1

/-- Behind the search the candidate without any text is tried. -/
theorem reduceToolOutput_eq (hT : c.Estimates summary T) (hpos : maxSegmentChars messages ≠ 0)
    {found : Option (List Json × Int)}
    (hfound : c.searchRetained messages summary target before 24 0 (maxSegmentChars messages) none
      = .ok found) :
    c.reduceToolOutputToTarget messages summary target before = .ok (found.or
      (if fits target before (T (candidate c.py messages 0)) (changedAt c.py messages 0) then
        some (candidate c.py messages 0, T (candidate c.py messages 0)) else none)) := by
  refine (if_neg hpos).trans ?_
  change (c.searchRetained messages summary target before 24 0 (maxSegmentChars messages) none
    >>= _) = _
  rw [hfound]
  cases found with
  | some best => rfl
  | none =>
    change (c.candidateFor messages summary 0 >>= _) = _
    rw [candidateFor_eq hT]
    rfl

theorem reduceToolOutput_zero (h : maxSegmentChars messages = 0) :
    c.reduceToolOutputToTarget messages summary target before = .ok none :=
  if_pos h

/-- Nothing is returned exactly when no length that is tried fits. -/
theorem reduceToolOutput_none (hT : c.Estimates summary T) :
    c.reduceToolOutputToTarget messages summary target before = .ok none ↔
      ∀ k ∈ tried messages, ¬ c.FitsAt T messages target before k := by
  by_cases hpos : maxSegmentChars messages = 0
  · refine ⟨fun _ k _ hk => ?_, fun _ => reduceToolOutput_zero hpos⟩
    have hlt := hk.lt
    omega
  · obtain ⟨found, hfound, -⟩ := searchRetained_found messages target before hT 24 0 (maxSegmentChars messages) none
    have hsearch := searchRetained_none messages target before hT 24 (maxSegmentChars messages)
    have hlast : (∀ k ∈ tried messages, ¬ c.FitsAt T messages target before k) ↔
        (∀ k ∈ probes 24 (maxSegmentChars messages), ¬ c.FitsAt T messages target before k)
          ∧ ¬ c.FitsAt T messages target before 0 := by
      simp [tried, or_imp, forall_and]
    rw [hlast, ← hsearch, reduceToolOutput_eq hT hpos hfound, hfound]
    simp only [Except.ok.injEq, Option.or_eq_none_iff, ite_eq_right_iff, reduceCtorEq]
    rfl

theorem reduceToolOutput_some (hT : c.Estimates summary T) {best : List Json × Int}
    (h : c.reduceToolOutputToTarget messages summary target before = .ok (some best)) :
    ∃ k, c.FitsAt T messages target before k
      ∧ best = (candidate c.py messages k, T (candidate c.py messages k)) := by
  by_cases hpos : maxSegmentChars messages = 0
  · rw [reduceToolOutput_zero hpos] at h
    cases h
  · obtain ⟨found, hfound, hsome⟩ := searchRetained_found messages target before hT 24 0 (maxSegmentChars messages) none
    rw [reduceToolOutput_eq hT hpos hfound, Except.ok.injEq, Option.or_eq_some_iff] at h
    cases h with
    | inl h =>
      subst h
      cases hsome with
      | inl hnone => cases hnone
      | inr hfit =>
        obtain ⟨k, hk, hbest⟩ := hfit
        exact ⟨k, hk, Option.some_inj.mp hbest⟩
    | inr h =>
      obtain ⟨-, h⟩ := h
      split at h
      · rename_i hfits
        exact ⟨0, hfits, (Option.some_inj.mp h).symm⟩
      · cases h

/-- **What the reduction finds.** It returns nothing only if no retained length
fits, and what it returns differs in plain-text tool results only: exactly
when some length that it tries fits, if any length does. -/
theorem reduceToolOutput_complete_iff (hT : c.Estimates summary T) :
    ((c.reduceToolOutputToTarget messages summary target before = .ok none →
          ∀ k ≤ maxSegmentChars messages, ¬ c.FitsAt T messages target before k)
        ∧ ∀ best, c.reduceToolOutputToTarget messages summary target before = .ok (some best) →
          List.Forall₂ MessageKept messages best.1)
      ↔ ((∃ k ≤ maxSegmentChars messages, c.FitsAt T messages target before k) →
          ∃ k ∈ tried messages, c.FitsAt T messages target before k) := by
  rw [reduceToolOutput_none hT]
  constructor
  · intro h hexists
    by_contra hnone
    obtain ⟨k, hk, hfits⟩ := hexists
    refine h.1 (fun q hq hfit => hnone ⟨q, hq, hfit⟩) k hk hfits
  · intro h
    refine ⟨fun hnone k hk hfits => ?_, fun best hbest => ?_⟩
    · obtain ⟨q, hq, hfit⟩ := h ⟨k, hk, hfits⟩
      exact hnone q hq hfit
    · obtain ⟨k, -, rfl⟩ := reduceToolOutput_some hT hbest
      exact candidate_kept c.py messages k

end Compactor
/-! ### One short text beside a long one -/

/-- The characters of all tool-result texts. -/
def toolChars (messages : List Json) : Nat :=
  ((messages.flatMap toolResultTextSegments).map String.length).sum

/-- An estimate of one token for each character. -/
def charCompactor : Compactor where
  py := plainInterp
  tokenEstimate messages := .ok (.int (toolChars messages))
  firstIssue _ _ := .ok none
  max_input_tokens := 1000

theorem charCompactor_estimates :
    charCompactor.Estimates .null fun messages => (toolChars messages : Int) := fun _ => rfl

/-- A tool result of several texts. -/
def toolResultBlock (texts : List String) : Json :=
  .obj [("type", .str "tool_result"), ("tool_use_id", .str "c1"), ("content", .arr (texts.map .str))]

/-- A user message with one tool result. -/
def toolResultMessage (texts : List String) : Json :=
  .obj [("role", .str "user"), ("content", .arr [toolResultBlock texts])]

theorem all_isPlainPart (texts : List String) : (texts.map Json.str).all isPlainPart = true := by
  simp [isPlainPart]

theorem contentTextSegments_texts (texts : List String) :
    contentTextSegments (.arr (texts.map .str)) = texts.filter (· ≠ "") := by
  have hpart : partText ∘ Json.str = id := by
    funext text
    rfl
  rw [contentTextSegments, if_pos (all_isPlainPart texts), List.map_map, hpart, List.map_id]

theorem segments_toolResultMessage (texts : List String) :
    toolResultTextSegments (toolResultMessage texts) = texts.filter (· ≠ "") := by
  have hrole : fieldOf (toolResultMessage texts) "role" (.str "") = .str "user" := rfl
  have hcontent : fieldOf (toolResultMessage texts) "content" .null = .arr [toolResultBlock texts] := rfl
  have hblocks : [toolResultBlock texts].filter isToolResult = [toolResultBlock texts] := rfl
  have hget : (toolResultBlock texts).get "content" = .arr (texts.map .str) := rfl
  rw [toolResultTextSegments, if_neg (not_not.mpr hrole), hcontent]
  simp only
  rw [hblocks, List.flatMap_singleton, hget, contentTextSegments_texts]

theorem sum_length_filter (texts : List String) :
    ((texts.filter (· ≠ "")).map String.length).sum = (texts.map String.length).sum := by
  induction texts with
  | nil => rfl
  | cons text rest ih =>
    rw [List.map_cons, List.sum_cons, ← ih, List.filter_cons]
    by_cases h : text = ""
    · subst h
      simp
    · simp [h]

theorem toolChars_toolResultMessage (texts : List String) :
    toolChars [toolResultMessage texts] = (texts.map String.length).sum := by
  rw [toolChars, List.flatMap_singleton, segments_toolResultMessage, sum_length_filter]

theorem excerptBlock_eq {py : Interp} {retained : Nat} {kvs : List (String × Json)} {clipped : Json}
    (htool : isToolResult (.obj kvs) = true)
    (h : excerptToolResultContent py ((Json.obj kvs).get "content") retained = (clipped, true)) :
    excerptBlock py retained (.obj kvs) = (.obj (setField "content" clipped kvs), true) := by
  rw [excerptBlock, if_pos htool]
  simp only [h, if_true]

theorem excerptMessage_toolResultMessage (py : Interp) (texts : List String) (retained : Nat)
    (h : (texts.any fun text => excerptText text retained ≠ text) = true) :
    excerptMessage py retained (toolResultMessage texts)
      = (toolResultMessage (texts.map (excerptText · retained)), true) := by
  have hparts : (texts.map Json.str).map (fun part => excerptPart py part retained)
      = texts.map fun text => (Json.str (excerptText text retained), decide (excerptText text retained ≠ text)) := by
    rw [List.map_map]
    rfl
  have hcontent : excerptToolResultContent py (.arr (texts.map .str)) retained
      = (.arr ((texts.map (excerptText · retained)).map .str), true) := by
    rw [excerptToolResultContent, if_pos (all_isPlainPart texts)]
    simp only [hparts, List.map_map, List.any_map]
    exact Prod.ext rfl h
  have hblock : excerptBlock py retained (toolResultBlock texts)
      = (toolResultBlock (texts.map (excerptText · retained)), true) := by
    have hget : (toolResultBlock texts).get "content" = .arr (texts.map .str) := rfl
    have htool : isToolResult (toolResultBlock texts) = true := rfl
    rw [← hget] at hcontent
    exact excerptBlock_eq htool hcontent
  change (Json.obj (setField "content" (.arr ([excerptBlock py retained (toolResultBlock texts)].map Prod.fst)) _),
    [excerptBlock py retained (toolResultBlock texts)].any Prod.snd) = _
  rw [hblock]
  rfl

/-- Head, tail and 27 characters around the number of those left out. -/
theorem length_excerptText (text : String) (retained : Nat) (h : retained < text.length) :
    (excerptText text retained).length
      = retained + 27 + (toString (text.length - retained)).length := by
  have hlen : text.toList.length = text.length := String.length_toList
  rw [excerptText, if_neg (not_le.mpr h)]
  simp only [String.length_append, String.length_ofList, List.length_take, List.length_drop, hlen]
  have hhead : min ((retained + 1) / 2) text.length = (retained + 1) / 2 := by omega
  have htail : text.length - (text.length - retained / 2) = retained / 2 := by omega
  have homitted : text.length - (retained + 1) / 2 - retained / 2 = text.length - retained := by omega
  rw [hhead, htail, homitted]
  have hopen : "\n[… ".length = 4 := by decide
  have hclose : " characters omitted …]\n".length = 23 := by decide
  rw [hopen, hclose]
  omega

namespace Compactor

/-- Sixty characters. -/
def longText : String := String.ofList (List.replicate 60 'y')

theorem length_longText : longText.length = 60 := by
  have hlist : (List.replicate 60 'y').length = 60 := List.length_replicate
  exact String.length_ofList.trans hlist

/-- A message with a text of one character and the long one. -/
def twoTexts : List Json := [toolResultMessage ["x", longText]]

/-- The characters that are left where the excerpt of the long text has
another length. -/
theorem toolChars_candidate {retained : Nat} (h : retained < 60)
    (hne : retained + 27 + (toString (60 - retained)).length ≠ 60) :
    toolChars (candidate plainInterp twoTexts retained)
        = (excerptText "x" retained).length + (retained + 27 + (toString (60 - retained)).length)
      ∧ changedAt plainInterp twoTexts retained = true := by
  have hlength := length_excerptText longText retained (length_longText ▸ h)
  rw [length_longText] at hlength
  have hlong : excerptText longText retained ≠ longText := by
    intro heq
    rw [heq, length_longText] at hlength
    exact hne hlength.symm
  have hchanged : (["x", longText].any fun text => excerptText text retained ≠ text) = true := by
    simp [hlong]
  have hmessage := excerptMessage_toolResultMessage plainInterp ["x", longText] retained hchanged
  refine ⟨?_, ?_⟩
  · rw [candidate, twoTexts, List.map_singleton, List.map_singleton, hmessage,
      toolChars_toolResultMessage, List.map_cons, List.map_singleton, List.map_cons, List.map_singleton,
      List.sum_cons, List.sum_singleton, hlength]
  · rw [changedAt, twoTexts, List.map_singleton, hmessage]
    rfl

theorem maxSegmentChars_twoTexts : maxSegmentChars twoTexts = 60 := by
  have hne : longText ≠ "" := by
    intro h
    have hlen := length_longText
    rw [h] at hlen
    cases hlen
  have hsegments : ["x", longText].filter (· ≠ "") = ["x", longText] := by simp [hne]
  rw [maxSegmentChars, twoTexts, List.flatMap_singleton, segments_toolResultMessage,
    hsegments, List.map_cons, List.map_singleton, length_longText]
  decide

/-- What fits into a target below the 61 characters that there are. -/
theorem fitsAt_twoTexts {retained : Nat} {target : Int} (htarget : target < 61) (h : retained < 60)
    (hne : retained + 27 + (toString (60 - retained)).length ≠ 60) :
    charCompactor.FitsAt (fun messages => (toolChars messages : Int)) twoTexts target 61 retained ↔
      (((excerptText "x" retained).length + (retained + 27 + (toString (60 - retained)).length) : Nat) : Int)
        ≤ target := by
  obtain ⟨hchars, hchanged⟩ := toolChars_candidate h hne
  rw [FitsAt, fits]
  change (changedAt plainInterp twoTexts retained && _ && _) = true ↔ _
  rw [hchanged]
  change (true && decide ((toolChars (candidate plainInterp twoTexts retained) : Int) ≤ target) &&
    decide ((toolChars (candidate plainInterp twoTexts retained) : Int) < 61)) = true ↔ _
  rw [hchars]
  simp only [Bool.true_and, Bool.and_eq_true, decide_eq_true_eq]
  omega

/-- A text of one character grows where nothing of it is retained, and the
search passes over the one length that fits. -/
theorem reduceToolOutput_misses :
    ¬ (charCompactor.reduceToolOutputToTarget twoTexts .null 31 61 = .ok none →
      ∀ k ≤ maxSegmentChars twoTexts,
        ¬ charCompactor.FitsAt (fun messages => (toolChars messages : Int)) twoTexts 31 61 k) := by
  intro h
  have hbelow : (31 : Int) < 61 := by decide
  have hone : charCompactor.FitsAt (fun messages => (toolChars messages : Int)) twoTexts 31 61 1 := by
    rw [fitsAt_twoTexts hbelow (by decide) (by decide)]
    decide
  refine h ?_ 1 (by rw [maxSegmentChars_twoTexts]; decide) hone
  rw [reduceToolOutput_none charCompactor_estimates, tried, maxSegmentChars_twoTexts]
  have htried : probes 24 (60 : Nat) ++ [0] = [30, 14, 6, 2, 0, 0] := by decide
  rw [htried]
  simp only [List.forall_mem_cons, List.not_mem_nil, false_imp_iff, implies_true, and_true]
  refine ⟨?_, ?_, ?_, ?_, ?_, ?_⟩ <;>
  · rw [fitsAt_twoTexts hbelow (by decide) (by decide)]
    decide

/-- With a target of 40 the search finds a candidate. -/
theorem reduceToolOutput_complete_found :
    (charCompactor.reduceToolOutputToTarget twoTexts .null 40 61 = .ok none →
      ∀ k ≤ maxSegmentChars twoTexts,
        ¬ charCompactor.FitsAt (fun messages => (toolChars messages : Int)) twoTexts 40 61 k)
      ∧ ∀ best, charCompactor.reduceToolOutputToTarget twoTexts .null 40 61 = .ok (some best) →
        List.Forall₂ MessageKept twoTexts best.1 := by
  refine (reduceToolOutput_complete_iff charCompactor_estimates).mpr fun _ => ⟨6, ?_, ?_⟩
  · rw [tried, maxSegmentChars_twoTexts]
    decide
  · rw [fitsAt_twoTexts (by decide) (by decide) (by decide)]
    decide

end Compactor

end Agenthicc.Memory
