/-
Agenthicc.Tui.TranscriptTheorems — the newest turns of a log, read from its
end, against the whole of it.

What the blocks hand to the scan are the lines of the file (`readBack_eq`), so
their size does not matter. The scan keeps the newest turns (`collect_eq`);
the first line of the file is kept without asking for its kind.
-/
import Agenthicc.Tui.Transcript
import Agenthicc.Tui.KeyboardTheorems

open Python

namespace Agenthicc.Tui

variable {py : Interp} {rendered : Bool} {kinds : Option (List String)}

/-! ## 1. Lines -/

theorem universalNewlines_eq {text : List Char} (h : '\r' ∉ text) : universalNewlines text = text := by
  induction text with
  | nil => rfl
  | cons c text ih =>
    rw [List.mem_cons, not_or] at h
    rw [universalNewlines, if_neg (Ne.symm h.1), ih h.2]
    rintro _ rfl
    exact absurd rfl h.1

theorem splitLines_line {line : List Char} (h : '\n' ∉ line) (rest : List Char) :
    splitLines (line ++ '\n' :: rest) = (line ++ ['\n']) :: splitLines rest := by
  induction line with
  | nil => simp [splitLines]
  | cons c line ih =>
    rw [List.mem_cons, not_or] at h
    rw [List.cons_append, splitLines, if_neg (Ne.symm h.1), ih h.2]
    rfl

theorem splitLines_last {line : List Char} (h : '\n' ∉ line) :
    splitLines line = if line = [] then [] else [line] := by
  induction line with
  | nil => rfl
  | cons c line ih =>
    rw [List.mem_cons, not_or] at h
    rw [splitLines, if_neg (Ne.symm h.1), ih h.2, if_neg (List.cons_ne_nil c line)]
    cases line with
    | nil => rfl
    | cons d line => rfl

theorem decodeText_newline (line : List Char) : decodeText py rendered (line ++ ['\n']) = decodeText py rendered line := by
  rw [decodeText, loads_newline, decodeText]

theorem decode_fileLines {text : List Char} (h : '\r' ∉ text) :
    (fileLines text).filterMap (decodeText py rendered) = (text.splitOn '\n').filterMap (decodeText py rendered) := by
  rw [fileLines, universalNewlines_eq h]
  clear h
  induction hn : text.length using Nat.strong_induction_on generalizing text with
  | _ n ih =>
    by_cases hmem : '\n' ∈ text
    · obtain ⟨line, rest, rfl, hline⟩ := List.eq_append_cons_of_mem hmem
      rw [splitLines_line hline, List.splitOn_append_cons_self_of_not_mem hline, List.filterMap_cons,
        List.filterMap_cons, decodeText_newline, ih rest.length (by rw [← hn]; simp; omega) rfl]
    · rw [List.splitOn_eq_singleton hmem, splitLines_last hmem]
      split
      · next hnil =>
        subst hnil
        rfl
      · rfl

theorem decodeEvent_utf8 (line : List Char) : decodeEvent py rendered (utf8 line) = decodeText py rendered line := by
  rw [decodeEvent, utf8, decodeUtf8_encode]
  rfl

theorem decodeEvent_blank {line : List Char} (h : isBlank (utf8 line) = true) : decodeText py rendered line = none := by
  have hblank : line.all isAsciiSpace = true := by
    rw [List.all_eq_true]
    intro c hc
    obtain ⟨first, rest, henc, -⟩ := utf8EncodeChar_cons c
    have hmem : first ∈ utf8 line := List.mem_flatMap.mpr ⟨c, hc, by rw [henc]; simp⟩
    have hfirst := List.all_eq_true.mp h first hmem
    simp only [Bool.or_eq_true, Bool.and_eq_true, decide_eq_true_eq, UInt8.le_iff_toNat_le] at hfirst
    have hsmall : first < 0x80 := by
      rw [UInt8.lt_iff_toNat_lt]
      obtain rfl | hfirst := hfirst
      · decide
      · have hle := hfirst.2
        simp at hle ⊢
        omega
    have hnat := toNat_of_mem_utf8 (by rw [henc]; simp : first ∈ String.utf8EncodeChar c) hsmall
    rw [isAsciiSpace, Bool.or_eq_true, Bool.and_eq_true, decide_eq_true_eq, decide_eq_true_eq, decide_eq_true_eq]
    obtain rfl | hfirst := hfirst
    · exact .inl (Char.toNat_inj.mp hnat)
    · right
      have h1 := hfirst.1
      have h2 := hfirst.2
      simp at h1 h2
      omega
  rw [decodeText, loads_blank hblank]

/-! ## 2. The scan -/

variable {last_turns : Int}

/-- The scan is over. -/
def Tail.Done (last_turns : Int) (s : Tail) : Prop :=
  last_turns ≤ s.turn_count ∨ MAX_RECENT_EVENTS ≤ s.selected.length

instance (s : Tail) : Decidable (s.Done last_turns) := inferInstanceAs (Decidable (_ ∨ _))

/-- The events of the lines, one after the other until the scan is over. -/
def collect (last_turns : Int) (kinds : Option (List String)) : List ConversationEvent → Tail → Tail
  | [], s => s
  | ev :: rest, s =>
      if (s.take kinds ev).Done last_turns then s.take kinds ev else collect last_turns kinds rest (s.take kinds ev)

/-- The loop over lines collects their events; it goes on only where the scan is not over. -/
theorem scanLines_eq (lines : List (List Char)) {s : Tail} (hs : ¬ s.Done last_turns) :
    (scanLines py rendered last_turns kinds (lines.map utf8) s).1
        = collect last_turns kinds (lines.filterMap (decodeText py rendered)) s
      ∧ ((scanLines py rendered last_turns kinds (lines.map utf8) s).2 = true →
        (collect last_turns kinds (lines.filterMap (decodeText py rendered)) s).Done last_turns)
      ∧ ((scanLines py rendered last_turns kinds (lines.map utf8) s).2 = false →
        (collect last_turns kinds (lines.filterMap (decodeText py rendered)) s).Done last_turns →
          MAX_RECENT_EVENTS ≤ (collect last_turns kinds (lines.filterMap (decodeText py rendered)) s).selected.length) := by
  induction lines generalizing s with
  | nil => exact ⟨rfl, nofun, fun _ h => absurd h hs⟩
  | cons line lines ih =>
    rw [List.map_cons, scanLines, decodeEvent_utf8, List.filterMap_cons]
    by_cases hblank : isBlank (utf8 line) = true
    · rw [if_pos hblank, decodeEvent_blank hblank]
      exact ih hs
    · rw [if_neg hblank]
      cases decodeText py rendered line with
      | none => exact ih hs
      | some ev =>
        simp only [collect]
        by_cases hturns : last_turns ≤ (s.take kinds ev).turn_count
        · rw [if_pos hturns, if_pos (.inl hturns)]
          exact ⟨rfl, fun _ => .inl hturns, nofun⟩
        · rw [if_neg hturns]
          by_cases hfull : MAX_RECENT_EVENTS ≤ (s.take kinds ev).selected.length
          · rw [if_pos hfull, if_pos (.inr hfull)]
            exact ⟨rfl, nofun, fun _ _ => hfull⟩
          · have hgoes : ¬ (s.take kinds ev).Done last_turns := by
              rintro (h | h)
              · exact hturns h
              · exact hfull h
            rw [if_neg hfull, if_neg hgoes]
            exact ih hgoes

theorem collect_append (a b : List ConversationEvent) {s : Tail} (hs : ¬ s.Done last_turns) :
    collect last_turns kinds (a ++ b) s = if (collect last_turns kinds a s).Done last_turns then collect last_turns kinds a s
      else collect last_turns kinds b (collect last_turns kinds a s) := by
  induction a generalizing s with
  | nil => rw [List.nil_append, collect, if_neg hs]
  | cons ev a ih =>
    rw [List.cons_append, collect, collect]
    split
    · rfl
    · next h => exact ih h

/-- What the call returns behind the scan of all lines but the first. -/
def conclude (py : Interp) (rendered : Bool) (last_turns : Int) (first : List Char) (s : Tail) : List ConversationEvent :=
  (if s.Done last_turns then s.selected else s.selected ++ (decodeText py rendered first).toList).reverse

theorem firstLine_eq (first : List Char) {s : Tail} (hs : ¬ MAX_RECENT_EVENTS ≤ s.selected.length) :
    firstLine py rendered (utf8 first) s = s.selected ++ (decodeText py rendered first).toList := by
  rw [firstLine, decodeEvent_utf8]
  by_cases hblank : isBlank (utf8 first) = true
  · rw [if_neg (by simp [hblank]), decodeEvent_blank hblank]
    simp
  · rw [if_pos ⟨by simpa using hblank, by omega⟩]

/-- Block by block, the lines of the file are scanned, whatever the size of
the blocks. -/
theorem readBack_eq (block : ℕ+) (file : Bytes) {position : Nat} {pending : Bytes} {s : Tail}
    (hs : ¬ s.Done last_turns) (hpending : 0x0A ∉ pending) {first : List Char} {lines : List (List Char)}
    (hlines : (file.take position ++ pending).splitOn 0x0A = (first :: lines).map utf8) :
    readBlocksBack py rendered last_turns kinds block file position pending s
      = conclude py rendered last_turns first
        (collect last_turns kinds (lines.reverse.filterMap (decodeText py rendered)) s) := by
  have hfull : ¬ MAX_RECENT_EVENTS ≤ s.selected.length := fun h => hs (.inr h)
  induction position using Nat.strong_induction_on generalizing pending s lines with
  | _ position ih =>
    rw [readBlocksBack]
    by_cases hpos : 0 < position
    · rw [dif_pos ⟨hpos, by omega⟩]
      have hcut : file.take position = file.take (position - block) ++ (file.take position).drop (position - block) := by
        have h := (List.take_append_drop (position - block) (file.take position)).symm
        rwa [List.take_take, Nat.min_eq_left (Nat.sub_le _ _)] at h
      cases hsplit : ((file.take position).drop (position - block) ++ pending).splitOn 0x0A with
      | nil => exact absurd hsplit (List.splitOn_ne_nil _ _)
      | cons l rest =>
        rw [hcut, List.append_assoc, splitOn_append hsplit] at hlines
        have hl := not_mem_splitOn_head hsplit
        obtain ⟨front, back, hfrontback, hfront, hback⟩ := List.map_eq_append_iff.mp hlines.symm
        have hblock := block.pos
        simp only [hsplit, List.tail_cons, List.headD_cons, ← hback, ← List.map_reverse]
        obtain ⟨hscan, hreturned, hbroke⟩ := @scanLines_eq py rendered kinds last_turns back.reverse s hs
        cases hresult : scanLines py rendered last_turns kinds (back.reverse.map utf8) s with
        | mk t returned =>
          rw [hresult] at hscan hreturned hbroke
          simp only at hscan hreturned hbroke ⊢
          subst hscan
          -- the lines of the block come first, then those in front of it
          cases front with
          | nil => exact absurd (List.map_eq_nil_iff.mpr rfl ▸ hfront).symm (List.splitOn_ne_nil _ _)
          | cons first' front =>
            rw [List.cons_append] at hfrontback
            obtain ⟨rfl, rfl⟩ := List.cons.inj hfrontback
            rw [List.reverse_append, List.filterMap_append, collect_append _ _ hs]
            by_cases hdone : (collect last_turns kinds (back.reverse.filterMap (decodeText py rendered)) s).Done last_turns
            · rw [if_pos hdone, conclude, if_pos hdone]
              cases returned with
              | true => rfl
              | false =>
                have hmany := hbroke rfl hdone
                simp only
                rw [readBlocksBack, dif_neg (fun h => absurd h.2 (by omega)), firstLine, if_neg (fun h => absurd h.2 (by omega))]
            · cases returned with
              | true => exact absurd (hreturned rfl) hdone
              | false =>
                rw [if_neg hdone]
                exact ih (position - block) (by omega) hdone hl hfront.symm (fun h => hdone (.inr h))
    · obtain rfl : position = 0 := by omega
      rw [dif_neg (fun h => hpos h.1)]
      rw [List.take_zero, List.nil_append, List.splitOn_eq_singleton hpending] at hlines
      obtain ⟨rfl, hnil⟩ := List.cons.inj hlines
      obtain rfl : lines = [] := List.map_eq_nil_iff.mp hnil.symm
      rw [firstLine_eq first hfull, conclude]
      simp only [List.reverse_nil, List.filterMap_nil, collect]
      rw [if_neg hs]

/-! ## 3. The newest turns -/

/-- How many turns start in the events. -/
def turns (events : List ConversationEvent) : Nat := events.countP fun ev => ev.kind = "turn_start"

/-- Of events from the newest on, those up to the `n`-th `turn_start`. -/
def newestTurns : Nat → List ConversationEvent → List ConversationEvent
  | _, [] => []
  | n, ev :: rest =>
      ev :: if ev.kind = "turn_start" then (if n ≤ 1 then [] else newestTurns (n - 1) rest) else newestTurns n rest

/-- The suffix that begins at the `n`-th `turn_start` from the end; all of the
log where there are fewer. -/
def lastTurns (n : Nat) (events : List ConversationEvent) : List ConversationEvent :=
  (newestTurns n events.reverse).reverse

theorem turns_reverse (events : List ConversationEvent) : turns events.reverse = turns events := List.countP_reverse

theorem newestTurns_append (n : Nat) (a b : List ConversationEvent) (hn : 0 < n) :
    newestTurns n (a ++ b) = if n ≤ turns a then newestTurns n a else a ++ newestTurns (n - turns a) b := by
  induction a generalizing n with
  | nil =>
    rw [List.nil_append, if_neg (by simp [turns]; omega)]
    rfl
  | cons ev a ih =>
    rw [List.cons_append, newestTurns, newestTurns, turns, List.countP_cons]
    by_cases hturn : ev.kind = "turn_start"
    · simp only [hturn, if_true, decide_true]
      by_cases hone : n ≤ 1
      · rw [if_pos hone, if_pos hone, if_pos (by omega)]
      · rw [if_neg hone, if_neg hone, ih (n - 1) (by omega), turns]
        by_cases hmore : n - 1 ≤ a.countP fun ev => ev.kind = "turn_start"
        · rw [if_pos hmore, if_pos (by omega)]
        · rw [if_neg hmore, if_neg (by omega), List.cons_append]
          congr 3
          omega
    · simp only [hturn, if_false, decide_false, Bool.false_eq_true, Nat.add_zero]
      rw [ih n hn, turns]
      split
      · rfl
      · rfl

theorem newestTurns_all {n : Nat} {events : List ConversationEvent} (h : turns events < n) :
    newestTurns n events = events := by
  have happend := newestTurns_append n events [] (by omega)
  rw [List.append_nil, if_neg (by omega), newestTurns, List.append_nil] at happend
  exact happend

theorem selected_take (ev : ConversationEvent) (s : Tail) :
    (s.take kinds ev).selected = s.selected ++ [ev].filter (keeps kinds) := by
  rw [Tail.take]
  cases h : keeps kinds ev with
  | true => simp [h]
  | false => simp [h]

/-- The scan selects the events of the newest turns that are kept, and no more
than fit. -/
theorem collect_selected (n : Nat) (events : List ConversationEvent) {s : Tail} (hs : ¬ s.Done n) :
    (collect n kinds events s).selected
      = s.selected ++ ((newestTurns (n - s.turn_count) events).filter (keeps kinds)).take
        (MAX_RECENT_EVENTS - s.selected.length) := by
  induction events generalizing s with
  | nil => simp [collect, newestTurns]
  | cons ev events ih =>
    have hturns : s.turn_count < n := by
      by_contra h
      exact hs (.inl (by omega))
    have hroom : s.selected.length < MAX_RECENT_EVENTS := by
      by_contra h
      exact hs (.inr (by omega))
    -- the events behind this one, as far as the scan would go
    have hnext : newestTurns (n - s.turn_count) (ev :: events)
        = ev :: if n ≤ (s.take kinds ev).turn_count then [] else newestTurns (n - (s.take kinds ev).turn_count) events := by
      rw [newestTurns, Tail.take]
      by_cases hturn : ev.kind = "turn_start"
      · simp only [hturn, if_true]
        by_cases hone : n - s.turn_count ≤ 1
        · rw [if_pos hone, if_pos (by omega)]
        · rw [if_neg hone, if_neg (by omega), Nat.sub_sub]
      · simp only [hturn, if_false]
        rw [if_neg (by omega)]
    have hone : ([ev].filter (keeps kinds)).length ≤ 1 := List.length_filter_le _ _
    have hlength : (s.take kinds ev).selected.length = s.selected.length + ([ev].filter (keeps kinds)).length := by
      rw [selected_take, List.length_append]
    have hroom' : MAX_RECENT_EVENTS - (s.take kinds ev).selected.length
        = MAX_RECENT_EVENTS - s.selected.length - ([ev].filter (keeps kinds)).length := by omega
    have hfilter : ∀ l, (ev :: l).filter (keeps kinds) = [ev].filter (keeps kinds) ++ l.filter (keeps kinds) := by
      intro l
      rw [← List.filter_append, List.singleton_append]
    rw [hnext, hfilter, List.take_append, List.take_of_length_le (by omega), ← List.append_assoc, ← selected_take,
      ← hroom', collect]
    by_cases hdone : (s.take kinds ev).Done n
    · rw [if_pos hdone]
      obtain hall | hfull := hdone
      · rw [if_pos (by omega)]
        simp
      · rw [Nat.sub_eq_zero_of_le hfull]
        simp
    · rw [if_neg hdone, ih hdone, if_neg (fun h => hdone (.inl (by omega)))]

theorem collect_done (n : Nat) (events : List ConversationEvent) {s : Tail} (hs : ¬ s.Done n) :
    (collect n kinds events s).Done n ↔ n ≤ s.turn_count + turns events
      ∨ MAX_RECENT_EVENTS ≤ s.selected.length + (events.filter (keeps kinds)).length := by
  induction events generalizing s with
  | nil =>
    rw [collect, Tail.Done, turns, List.countP_nil, List.filter_nil, List.length_nil]
    omega
  | cons ev events ih =>
    have hlength : (s.take kinds ev).selected.length = s.selected.length + ([ev].filter (keeps kinds)).length := by
      rw [selected_take, List.length_append]
    have hcount : (s.take kinds ev).turn_count + turns events = s.turn_count + turns (ev :: events) := by
      rw [Tail.take, turns, turns, List.countP_cons]
      by_cases hturn : ev.kind = "turn_start"
      · simp only [hturn, if_true, decide_true]
        omega
      · simp [hturn]
    have hfilter : (ev :: events).filter (keeps kinds) = [ev].filter (keeps kinds) ++ events.filter (keeps kinds) := by
      rw [← List.filter_append, List.singleton_append]
    rw [collect, hfilter, List.length_append, ← Nat.add_assoc, ← hlength, ← hcount]
    by_cases hdone : (s.take kinds ev).Done n
    · rw [if_pos hdone]
      refine iff_of_true hdone ?_
      obtain hall | hfull := hdone
      · exact .inl (by omega)
      · exact .inr (by omega)
    · rw [if_neg hdone]
      exact ih hdone

/-! ## 4. The tail read against the full read -/

/-- The events behind the first line. -/
def LogFile.laterEvents (py : Interp) (rendered : Bool) (log : LogFile) : List ConversationEvent :=
  (log.text.splitOn '\n').tail.filterMap (decodeText py rendered)

/-- The first line holds no event that was not asked for, or the scan is over
before it: `n` turns start behind it, or as many events as the reader keeps
are behind it. -/
def FirstKept (py : Interp) (rendered : Bool) (log : LogFile) (n : Nat) (kinds : Option (List String)) : Prop :=
  (∀ ev ∈ decodeText py rendered ((log.text.splitOn '\n').headD []), keeps kinds ev = true)
    ∨ n ≤ turns (log.laterEvents py rendered)
    ∨ MAX_RECENT_EVENTS ≤ ((log.laterEvents py rendered).filter (keeps kinds)).length

theorem rtake_reverse (n : Nat) (events : List ConversationEvent) : events.reverse.rtake n = (events.take n).reverse := by
  rw [List.rtake_eq_reverse_take_reverse, List.reverse_reverse]

theorem not_done_start {n : Nat} (hn : 0 < n) : ¬ Tail.Done n {} := by
  rintro (h | h)
  · have hle : (n : Int) ≤ 0 := h
    omega
  · exact absurd h (by decide)

/-- What the tail read returns, whatever the size of the blocks. -/
theorem loadRecentTurns_eq (block : ℕ+) (log : LogFile) {n : Nat} (hn : 0 < n) :
    loadRecentTurns py rendered n kinds block log.bytes
      = conclude py rendered n ((log.text.splitOn '\n').headD [])
        (collect n kinds (log.laterEvents py rendered).reverse {}) := by
  have hstart := not_done_start hn
  cases hlines : log.text.splitOn '\n' with
  | nil => exact absurd hlines (List.splitOn_ne_nil _ _)
  | cons first lines =>
    have hbytes : (log.bytes.take log.bytes.length ++ []).splitOn 0x0A = (first :: lines).map utf8 := by
      rw [List.take_length, List.append_nil, LogFile.bytes, splitOn_utf8, hlines]
    rw [loadRecentTurns, readBack_eq block log.bytes hstart List.not_mem_nil hbytes, LogFile.laterEvents, hlines,
      List.filterMap_reverse]
    rfl

/-- The events of the whole log: that of the first line, and the others. -/
theorem load_all (log : LogFile) : SessionEventLog.load py rendered (some log) none none
    = (decodeText py rendered ((log.text.splitOn '\n').headD [])).toList ++ log.laterEvents py rendered := by
  have hplain : '\r' ∉ log.text := fun h => (log.plain '\r' h).1 rfl
  have hkeeps : ∀ events : List ConversationEvent, events.filter (keeps none) = events :=
    fun events => List.filter_eq_self.mpr fun _ _ => rfl
  have hiter : SessionEventLog.load py rendered (some log) none none = iterEvents py rendered none log := rfl
  rw [hiter, iterEvents, hkeeps, decode_fileLines hplain, LogFile.laterEvents]
  cases hlines : log.text.splitOn '\n' with
  | nil => exact absurd hlines (List.splitOn_ne_nil _ _)
  | cons first lines =>
    rw [List.filterMap_cons, List.headD_cons, List.tail_cons]
    cases decodeText py rendered first with
    | none => rfl
    | some ev => rfl

/-- The scan of the later lines with the first event behind it, against the
newest turns of all. -/
theorem newest_and_first_iff {n : Nat} (hn : 0 < n) (newer : List ConversationEvent) (first : Option ConversationEvent) :
    (if n ≤ turns newer ∨ MAX_RECENT_EVENTS ≤ (newer.filter (keeps kinds)).length then
        ((newestTurns n newer).filter (keeps kinds)).take MAX_RECENT_EVENTS
      else ((newestTurns n newer).filter (keeps kinds)).take MAX_RECENT_EVENTS ++ first.toList)
        = ((newestTurns n (newer ++ first.toList.reverse)).filter (keeps kinds)).take MAX_RECENT_EVENTS
      ↔ (∀ ev ∈ first, keeps kinds ev = true) ∨ n ≤ turns newer
        ∨ MAX_RECENT_EVENTS ≤ (newer.filter (keeps kinds)).length := by
  rw [newestTurns_append n newer _ hn]
  by_cases hturns : n ≤ turns newer
  · rw [if_pos (.inl hturns), if_pos hturns]
    exact iff_of_true rfl (.inr (.inl hturns))
  · have hall : newestTurns n newer = newer := newestTurns_all (by omega)
    rw [if_neg hturns, List.filter_append, hall]
    by_cases hfull : MAX_RECENT_EVENTS ≤ (newer.filter (keeps kinds)).length
    · rw [if_pos (.inr hfull), List.take_append_of_le_length hfull]
      exact iff_of_true rfl (.inr (.inr hfull))
    · rw [if_neg (not_or.mpr ⟨hturns, hfull⟩), List.take_of_length_le (by omega)]
      have hfirst : newestTurns (n - turns newer) first.toList.reverse = first.toList := by
        cases first with
        | none => rfl
        | some ev =>
          simp only [Option.toList_some, List.reverse_singleton, newestTurns]
          simp
      have hone : (first.toList.filter (keeps kinds)).length ≤ 1 := by
        cases first with
        | none => exact Nat.zero_le 1
        | some ev => exact List.length_filter_le _ _
      rw [hfirst, List.take_of_length_le (by rw [List.length_append]; omega), List.append_cancel_left_eq, eq_comm,
        List.filter_eq_self]
      simp [hturns, hfull]

/-- A log of one event. -/
def noteLog : LogFile := LogFile.empty.append ⟨"e1", "note", [], PyFloat.zero, false⟩ 100

end Agenthicc.Tui
