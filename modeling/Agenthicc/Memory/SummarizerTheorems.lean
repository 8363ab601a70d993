/-
Agenthicc.Memory.SummarizerTheorems — when the reduce loop of
`_summarize_text` ends.

A round takes the partial summaries joined by two newlines, cuts them into
chunks of `maxInputChars` and asks for a summary of each. With `k` summaries of
at most `B` characters the next round has at most `1 + (k * (B + 2) - 3) / N`
of them: fewer than `k` as soon as two summaries and what joins them fit into
one chunk of `N`, and never fewer than two when they do not.
-/
import Agenthicc.Memory.Summarizer
import Mathlib.Tactic.Ring

namespace Agenthicc.Memory

open Python

/-! ## 1. Lengths -/

theorem length_strJoin_cons (sep part : String) {parts : List String} (hne : parts ≠ []) :
    (strJoin sep (part :: parts)).length
      = part.length + sep.length + (strJoin sep parts).length := by
  simp only [strJoin, String.intercalate_cons_of_ne_nil hne, String.length_append]

theorem length_pieces (n : Nat) (text : List Char) :
    (pieces n text).length = (text.length + n - 1) / n := by
  simp [pieces]

/-- Joined with `sep`, texts of at most `B` characters are at most this long. -/
theorem length_strJoin_le (sep : String) {B : Nat} {parts : List String} (hne : parts ≠ [])
    (hB : ∀ p ∈ parts, p.length ≤ B) :
    (strJoin sep parts).length + sep.length ≤ parts.length * (B + sep.length) := by
  induction parts with
  | nil => contradiction
  | cons part parts ih =>
    have hpart := hB part (List.mem_cons_self ..)
    cases parts with
    | nil => simp only [strJoin, String.intercalate_singleton, List.length_singleton]; omega
    | cons next parts =>
      have hrest := ih (by simp) fun p hp => hB p (List.mem_cons_of_mem _ hp)
      rw [length_strJoin_cons sep part (by simp), List.length_cons (a := part), Nat.succ_mul]
      omega

/-- Texts of exactly `B` characters meet the bound. -/
theorem length_strJoin_eq (sep : String) {B : Nat} {parts : List String} (hne : parts ≠ [])
    (hB : ∀ p ∈ parts, p.length = B) :
    (strJoin sep parts).length + sep.length = parts.length * (B + sep.length) := by
  induction parts with
  | nil => contradiction
  | cons part parts ih =>
    have hpart := hB part (List.mem_cons_self ..)
    cases parts with
    | nil => simp only [strJoin, String.intercalate_singleton, List.length_singleton]; omega
    | cons next parts =>
      have hrest := ih (by simp) fun p hp => hB p (List.mem_cons_of_mem _ hp)
      rw [length_strJoin_cons sep part (by simp), List.length_cons (a := part), Nat.succ_mul]
      omega

namespace Summarising

/-! ## 2. One answer -/

/-- The partial summaries that the round in flight ends with. -/
def roundSize (s : Summarising) : Nat := s.partials.length + 1 + s.rest.length

section
variable {N : Nat}

theorem roundSize_start (hN : 0 < N) {text : String} (h : N < text.length) (attempts : Nat) :
    (start N text attempts).roundSize = 1 + (text.length - 1) / N := by
  have hdiv : (text.length - N + N - 1) / N = (text.length - 1) / N := by
    congr 1; omega
  have hlen : text.toList.length = text.length := String.length_toList
  simp only [roundSize, start, hN, h, and_self, if_true, List.length_nil, length_pieces,
    List.length_drop, hlen, hdiv]

theorem start_partials (text : String) (attempts : Nat) : (start N text attempts).partials = [] := by
  simp only [start]; split <;> rfl

theorem start_last (text : String) (attempts : Nat) :
    (start N text attempts).last = false := by
  simp only [start]; split <;> rfl

theorem reply_completed (s : Summarising) {text : String} (ht : text ≠ "")
    (kind : CompactionOutcome.SummaryResult) :
    s.reply N (.completed text kind) =
      if s.last then .inr { text, result := .summarized, attempts := s.attempts }
      else
        match s.rest with
        | chunk :: rest =>
            .inl { chunk, rest, partials := s.partials ++ [text], attempts := s.attempts + 1 }
        | [] => reduce N s.partials text s.attempts := by
  cases hlast : s.last <;> cases hrest : s.rest <;> simp [reply, Reply.result, ht, hlast, hrest]

/-- The round that follows, unless its text fits into one call. -/
theorem roundSize_reduce (hN : 0 < N) {partials : List String} {text : String} {attempts : Nat}
    {s : Summarising} (h : reduce N partials text attempts = .inl s) (hlast : s.last = false) :
    s.roundSize = 1 + ((strJoin "\n\n" (partials ++ [text])).length - 1) / N
      ∧ N < (strJoin "\n\n" (partials ++ [text])).length ∧ s.partials = [] := by
  simp only [reduce] at h
  split at h
  · cases h
  · cases h
    have hlong : N < (strJoin "\n\n" (partials ++ [text])).length := by
      simp at hlast; omega
    exact ⟨roundSize_start hN hlong attempts, hlong, start_partials _ _⟩

end

/-- The calls that lie ahead, of which a last one has none behind it. -/
def load (s : Summarising) : Nat := if s.last then 0 else s.roundSize

section
variable {N B : Nat}

/-- A round of `k` summaries of at most `B` characters, joined, is shorter than
`k - 1` chunks. -/
theorem reduced_fits (hN : 2 * B + 2 ≤ N) {parts : List String} (hk : 2 ≤ parts.length)
    (hB : ∀ p ∈ parts, p.length ≤ B) :
    1 + ((strJoin "\n\n" parts).length - 1) / N < parts.length := by
  have hlen := length_strJoin_le "\n\n" (List.ne_nil_of_length_pos (by omega)) hB
  have hsep : ("\n\n" : String).length = 2 := rfl
  rw [hsep] at hlen
  have hdiv : ((strJoin "\n\n" parts).length - 1) / N < parts.length - 1 := by
    refine Nat.div_lt_of_lt_mul ?_
    have hmul : (2 * B + 2) * (parts.length - 1) ≤ N * (parts.length - 1) :=
      Nat.mul_le_mul_right _ hN
    obtain ⟨k, hk⟩ := Nat.exists_eq_add_of_le hk
    rw [hk] at hlen hmul ⊢
    have hexp : (2 * B + 2) * (2 + k - 1) + 2 = (2 + k) * (B + 2) + k * B := by
      rw [show 2 + k - 1 = k + 1 by omega]
      ring
    have hpos : 0 < N * (2 + k - 1) := Nat.mul_pos (by omega) (by omega)
    omega
  omega

theorem reply_decreases (hN : 2 * B + 2 ≤ N) {s s' : Summarising} {text : String} (ht : text ≠ "")
    (kind : CompactionOutcome.SummaryResult) (hp : ∀ p ∈ s.partials ++ [text], p.length ≤ B)
    (h : s.reply N (.completed text kind) = .inl s') :
    (∀ p ∈ s'.partials, p.length ≤ B)
      ∧ (s'.load < s.load ∨ s'.load = s.load ∧ s'.rest.length < s.rest.length) := by
  rw [reply_completed s ht] at h
  cases hlast : s.last with
  | true => simp [hlast] at h
  | false =>
    simp only [hlast, Bool.false_eq_true, if_false] at h
    cases hrest : s.rest with
    | cons chunk rest =>
      rw [hrest] at h
      cases h
      refine ⟨hp, .inr ⟨?_, by simp⟩⟩
      simp only [load, hlast, roundSize, hrest, List.length_append, List.length_cons]
      simp
      omega
    | nil =>
      rw [hrest] at h
      simp only at h
      have hload : s.load = (s.partials ++ [text]).length := by
        simp [load, hlast, roundSize, hrest]
      cases hlast' : s'.last with
      | true =>
        have hpartials : s'.partials = [] := by
          simp only [reduce] at h
          split at h
          · cases h
          · cases h; exact start_partials _ _
        refine ⟨by simp [hpartials], .inl ?_⟩
        rw [hload]
        simp [load, hlast']
      | false =>
        obtain ⟨hsize, hlong, hpartials⟩ := roundSize_reduce (by omega) h hlast'
        have hk : 2 ≤ (s.partials ++ [text]).length := by
          cases hpar : s.partials with
          | nil => simp [reduce, hpar] at h
          | cons => simp
        refine ⟨by simp [hpartials], .inl ?_⟩
        rw [hload]
        simpa [load, hlast', hsize] using reduced_fits hN hk hp

end

/-! ## 3. Whole runs -/

section
variable {N B : Nat} {answers : Nat → String} {next : Next}

theorem after_succ {s : Summarising} {n : Nat} (h : after N answers next n = .inl s) :
    after N answers next (n + 1) = s.reply N (.completed (answers n) .summarized) := by
  simp [after, feed, h]

/-- Two summaries and the separator fit into a chunk: every round has fewer
summaries than the one before it, until one call takes them all. -/
theorem ends (hN : 2 * B + 2 ≤ N) (hne : ∀ n, answers n ≠ "") (hB : ∀ n, (answers n).length ≤ B)
    (s : Summarising) (n : Nat) (h : after N answers next n = .inl s)
    (hp : ∀ p ∈ s.partials, p.length ≤ B) : ∃ m result, after N answers next m = .inr result := by
  have hp' : ∀ p ∈ s.partials ++ [answers n], p.length ≤ B := by
    intro p hmem
    rcases List.mem_append.mp hmem with hmem | hmem
    · exact hp p hmem
    · rw [List.mem_singleton.mp hmem]; exact hB n
  have hstep := after_succ h
  match hreply : s.reply N (.completed (answers n) .summarized) with
  | .inr result => exact ⟨n + 1, result, hstep.trans hreply⟩
  | .inl s' =>
    have hdec := reply_decreases hN (hne n) .summarized hp' hreply
    exact ends hN hne hB s' (n + 1) (hstep.trans hreply) hdec.1
termination_by (s.load, s.rest.length)
decreasing_by exact Prod.lex_def.mpr hdec.2

/-- A round of two summaries or more, all of them of `B` characters. -/
structure Endless (B : Nat) (s : Summarising) : Prop where
  goes_on : s.last = false
  many : 2 ≤ s.roundSize
  full : ∀ p ∈ s.partials, p.length = B

/-- Two summaries that do not fit into a chunk never become one. -/
theorem Endless.reply {s : Summarising} (hs : Endless B s) (hpos : 0 < N) (hN : N < 2 * B + 2)
    {text : String} (ht : text ≠ "") (htB : text.length = B)
    (kind : CompactionOutcome.SummaryResult) :
    ∃ s', s.reply N (.completed text kind) = .inl s' ∧ Endless B s' := by
  have hfull : ∀ p ∈ s.partials ++ [text], p.length = B := by
    intro p hmem
    rcases List.mem_append.mp hmem with hmem | hmem
    · exact hs.full p hmem
    · rw [List.mem_singleton.mp hmem]; exact htB
  have hmany := hs.many
  rw [reply_completed s ht, hs.goes_on]
  simp only [Bool.false_eq_true, if_false]
  simp only [roundSize] at hmany
  cases hrest : s.rest with
  | cons chunk rest =>
    refine ⟨_, rfl, ⟨rfl, ?_, hfull⟩⟩
    simp only [roundSize, List.length_append, hrest, List.length_cons] at hmany ⊢
    omega
  | nil =>
    rw [hrest] at hmany
    have hne : s.partials ≠ [] := List.ne_nil_of_length_pos (by simp at hmany; omega)
    have hlen := length_strJoin_eq "\n\n" (by simp) hfull
    have hsep : ("\n\n" : String).length = 2 := rfl
    have htwo : 2 * (B + 2) ≤ (s.partials ++ [text]).length * (B + 2) :=
      Nat.mul_le_mul_right _ (by simp at hmany ⊢; omega)
    rw [hsep] at hlen
    have hlong : N < (strJoin "\n\n" (s.partials ++ [text])).length := by omega
    simp only [reduce, hne, if_false]
    refine ⟨_, rfl, ⟨by simp; omega, ?_, by simp [start_partials]⟩⟩
    have hsize := roundSize_start hpos hlong s.attempts
    have hdiv := Nat.div_pos (a := (strJoin "\n\n" (s.partials ++ [text])).length - 1)
      (by omega) hpos
    simp only [roundSize] at hsize ⊢
    omega

theorem Endless.start (hpos : 0 < N) {text : String} (h : N < text.length) (attempts : Nat) :
    Endless B (Summarising.start N text attempts) := by
  have hsize := roundSize_start hpos h attempts
  have hdiv := Nat.div_pos (a := text.length - 1) (b := N) (by omega) hpos
  exact ⟨start_last .., by omega, by simp [start_partials]⟩

theorem Endless.after (hpos : 0 < N) (hN : N < 2 * B + 2) {s : Summarising} (hs : Endless B s)
    (hne : ∀ n, answers n ≠ "") (hB : ∀ n, (answers n).length = B) (n : Nat) :
    ∃ s', Summarising.after N answers (.inl s) n = .inl s' ∧ Endless B s' := by
  induction n with
  | zero => exact ⟨s, rfl, hs⟩
  | succ n ih =>
    obtain ⟨s', hs', hend⟩ := ih
    obtain ⟨s'', hreply, hend'⟩ := hend.reply hpos hN (hne n) (hB n) .summarized
    exact ⟨s'', (after_succ hs').trans hreply, hend'⟩

end

end Summarising
/-! ## 4. The budgets of a compaction -/

/-- The longest text that the completion budget of a call permits, where a
token stands for at most `charsPerToken` characters. -/
def Compactor.longestSummary (c : Compactor) (charsPerToken : Nat) : Nat :=
  (summaryOutputLimit c.max_completion_tokens false).toNat * charsPerToken

/-- `n` times the letter a. -/
def letters (n : Nat) : String := String.ofList (List.replicate n 'a')

@[simp] theorem length_letters (n : Nat) : (letters n).length = n := by simp [letters]

theorem letters_ne {n : Nat} (h : 0 < n) : letters n ≠ "" := by
  intro hempty
  have := length_letters n
  rw [hempty] at this
  simp at this
  omega

theorem Compactor.two_thousand_le_maxInputChars {c : Compactor} (h : 0 < c.max_input_tokens) :
    2000 ≤ c.maxInputChars := by
  simp only [maxInputChars]
  split <;> omega

/-- For every transport whose answers have text and stay within the budget the
calls come to an end, if and only if one call takes the whole transcript or two
of the longest answers fit into a chunk. -/
theorem Compactor.summarize_text_ends_iff (c : Compactor) (charsPerToken : Nat)
    (transcript : String) (hc : 0 < c.max_input_tokens) :
    (∀ answers : Nat → String,
        (∀ n, answers n ≠ "" ∧ (answers n).length ≤ c.longestSummary charsPerToken) →
        ∃ n result, Summarising.after c.maxInputChars answers
          (.inl (Summarising.start c.maxInputChars transcript)) n = .inr result)
      ↔ transcript.length ≤ c.maxInputChars
        ∨ 2 * c.longestSummary charsPerToken + 2 ≤ c.maxInputChars := by
  have hN := two_thousand_le_maxInputChars hc
  generalize hB : c.longestSummary charsPerToken = B
  constructor
  · intro h
    by_contra hno
    obtain ⟨hlong, hsmall⟩ := not_or.mp hno
    have hpos : 0 < c.maxInputChars := by omega
    have hstart := Summarising.Endless.start (B := B) hpos (Nat.lt_of_not_le hlong) 0
    -- the same answer of full length, every time
    obtain ⟨n, result, hdone⟩ := h (fun _ => letters B)
      fun n => ⟨letters_ne (by omega), (length_letters B).le⟩
    obtain ⟨s, hs, -⟩ := hstart.after hpos (by omega)
      (fun _ => letters_ne (by omega)) (fun _ => length_letters B) n
    rw [hs] at hdone
    cases hdone
  · intro h answers hanswers
    rcases h with hshort | hfits
    · have hstart : Summarising.start c.maxInputChars transcript
          = { chunk := transcript, attempts := 1 } := by
        simp [Summarising.start, Nat.not_lt.mpr hshort]
      refine ⟨1, { text := answers 0, result := .summarized, attempts := 1 }, ?_⟩
      simp only [Summarising.after, Summarising.feed, hstart]
      rw [Summarising.reply_completed _ (hanswers 0).1]
      rfl
    · exact Summarising.ends hfits (fun n => (hanswers n).1) (fun n => (hanswers n).2) _ 0 rfl
        (by simp [Summarising.start_partials])

/-- The budget of a compaction, and of its summaries by default. -/
def budgetOf (max_input_tokens : Int) : Compactor where
  py := plainInterp
  tokenEstimate _ := .ok (.int 0)
  firstIssue _ _ := .ok none
  max_input_tokens := max_input_tokens

/-- A window of 100000 tokens leaves no room for an endless loop. -/
theorem Compactor.summarize_text_ends_large :
    ∃ n result, Summarising.after (budgetOf 100000).maxInputChars (fun _ => letters 5)
      (.inl (Summarising.start (budgetOf 100000).maxInputChars (letters 300000))) n
        = .inr result :=
  (Compactor.summarize_text_ends_iff (budgetOf 100000) 3 (letters 300000) (by decide)).mpr
    (.inr (by decide)) (fun _ => letters 5)
    (fun _ => ⟨letters_ne (by omega), by rw [length_letters]; decide⟩)

/-- With chunks of 2000 characters, answers of 1000 characters keep a transcript
of 2001 in the loop for ever. -/
theorem Compactor.summarize_text_never_ends :
    (budgetOf 4000).maxInputChars = 2000
      ∧ letters 1000 ≠ "" ∧ (letters 1000).length ≤ (budgetOf 4000).longestSummary 1
      ∧ ∀ n, ∃ s, Summarising.after (budgetOf 4000).maxInputChars (fun _ => letters 1000)
        (.inl (Summarising.start (budgetOf 4000).maxInputChars (letters 2001))) n = .inl s := by
  have hN : (budgetOf 4000).maxInputChars = 2000 := by decide
  have hlong : 2000 < (letters 2001).length := by rw [length_letters]; omega
  have hstart := Summarising.Endless.start (B := 1000) (Nat.zero_lt_succ 1999) hlong 0
  refine ⟨hN, letters_ne (by omega), by rw [length_letters]; decide, fun n => ?_⟩
  rw [hN]
  obtain ⟨s, hs, -⟩ := hstart.after (N := 2000) (by omega) (by omega)
    (fun _ => letters_ne (by omega)) (fun _ => length_letters 1000) n
  exact ⟨s, hs⟩

end Agenthicc.Memory
