/-
Agenthicc.Tui.TranscriptCoverTheorems — the pages of a session cover its log,
and a marker leads back to its record.

`unshown` is how much of the log a cursor leaves. A page shows what is between
the offset its own cursor leaves and the one of the next (`PageShown`), and
the offset in the cursor falls, so the pages come to an end and show it all.
-/
import Agenthicc.Tui.TranscriptPageTheorems

open Python

namespace Agenthicc.Tui

variable {py : Interp} {session_id : String} {limits : PageLimits} {last_turns : Int} {file window : Bytes}
  {base upper lower : Nat}

/-! ## 1. Line starts in a file -/

theorem mem_slice {i a n : Nat} (hi : file[i]? = some 0x0A) (ha : a ≤ i) (hn : i < n) :
    0x0A ∈ (file.take n).drop a := by
  obtain ⟨k, rfl⟩ := Nat.exists_eq_add_of_le ha
  refine List.mem_of_getElem? (i := k) ?_
  rw [List.getElem?_drop, List.getElem?_take_of_lt hn]
  exact hi

theorem lineStart_eq {a n : Nat} (ha : a ≤ n) (hstart : LineStart file a) (hline : 0x0A ∉ (file.take n).drop a) :
    lineStart file n = a := by
  have hle := lineStart_le file n
  have hbreak : ∀ {x y : Nat}, x < y → y ≤ n → LineStart file y → 0x0A ∈ (file.take n).drop x := by
    intro x y hxy hy h
    obtain h | h := h
    · omega
    · exact mem_slice h (by omega) (by omega)
  obtain h | h | h := Nat.lt_trichotomy (lineStart file n) a
  · exact absurd (hbreak h ha hstart) (not_mem_line file n)
  · exact h
  · exact absurd (hbreak h hle (lineStart_isStart file n)) hline

theorem lineStart_self {n : Nat} (h : LineStart file n) : lineStart file n = n := by
  refine lineStart_eq le_rfl h ?_
  rw [List.drop_of_length_le (by rw [List.length_take]; omega)]
  exact List.not_mem_nil

theorem lineStart_lt {n : Nat} (h : ¬ LineStart file n) : lineStart file n < n := by
  refine Nat.lt_of_le_of_ne (lineStart_le file n) fun heq => h ?_
  have hstart := lineStart_isStart file n
  rwa [heq] at hstart

theorem Slice.getElem? (h : Slice file base window) {i : Nat} (hi : i < window.length) : file[base + i]? = window[i]? := by
  have hslice := h.slice
  rw [← hslice, List.getElem?_drop, List.getElem?_take_of_lt (by omega)]

theorem Slice.isLineStart (h : Slice file base window) (hbase : LineStart file base) {i : Nat} (hi : i < window.length)
    (hline : LineStart window i) : LineStart file (base + i) := by
  obtain rfl | hbreak := hline
  · exact hbase
  · by_cases hzero : i = 0
    · subst hzero
      exact hbase
    · right
      rw [← h.getElem? (by omega)] at hbreak
      have hpos : base + i - 1 = base + (i - 1) := by omega
      rw [hpos]
      exact hbreak

theorem slice_of (hlower : lower ≤ upper) (hupper : upper ≤ file.length) : Slice file lower ((file.take upper).drop lower) := by
  have hlength : lower + ((file.take upper).drop lower).length = upper := by
    rw [List.length_drop, List.length_take]
    omega
  exact ⟨hlength.trans_le hupper, by rw [hlength]⟩

theorem slice_append {a b c : Nat} (hab : a ≤ b) (hbc : b ≤ c) (hc : c ≤ file.length) :
    (file.take c).drop a = (file.take b).drop a ++ (file.take c).drop b := by
  have hparts := List.take_append_drop b (file.take c)
  rw [List.take_take, Nat.min_eq_left hbc] at hparts
  have hdrop := congrArg (List.drop a) hparts
  rwa [List.drop_append_of_le_length (by rw [List.length_take]; omega), eq_comm] at hdrop

/-! ## 2. One page -/

/-- The offset in front of which a cursor has everything still to be shown. -/
def unshown (file : Bytes) : Option TranscriptCursor → Nat
  | none => 0
  | some cursor => if cursor.skip_oversized_line then lineStart file cursor.offset else cursor.offset

/-- A cursor that a page can have. -/
def Cursor (file : Bytes) (cursor : TranscriptCursor) : Prop :=
  cursor.skip_oversized_line = false → LineStart file cursor.offset

/-- The page shows what is in front of `top`, up to what its cursor leaves;
the cursor is in front of `bound`. -/
structure PageShown (py : Interp) (session_id : String) (limits : PageLimits) (file : Bytes) (top bound : Nat)
    (page : TranscriptPage) : Prop where
  shown : Shown py session_id
    (records (unshown file page.older_cursor) ((file.take top).drop (unshown file page.older_cursor))) page.entries
  le : unshown file page.older_cursor ≤ top
  cursor : ∀ c ∈ page.older_cursor, Cursor file c ∧ c.offset < bound
  within : WithinLimits limits file page.entries page.retained_bytes

theorem PageShown.mono {top bound bound' : Nat} {page : TranscriptPage}
    (h : PageShown py session_id limits file top bound page) (hle : bound ≤ bound') :
    PageShown py session_id limits file top bound' page :=
  ⟨h.shown, h.le, fun c hc => ⟨(h.cursor c hc).1, (h.cursor c hc).2.trans_le hle⟩, h.within⟩

theorem unshown_isStart {cursor : Option TranscriptCursor} (h : ∀ c ∈ cursor, Cursor file c) :
    LineStart file (unshown file cursor) := by
  cases cursor with
  | none => exact .inl rfl
  | some c =>
    rw [unshown]
    split
    · exact lineStart_isStart file _
    · next hskip => exact h c rfl (by simpa using hskip)

theorem linesPage_pageShown {skip : Bool} {scanned_bytes : Nat} (hfit : MarkersFit session_id file.length)
    (hslice : Slice file base window) (hbase : LineStart file base) (hwindow : window ≠ [] ∨ base = 0) :
    PageShown py session_id limits file (base + window.length) (base + window.length)
      (linesPage py session_id limits last_turns false skip scanned_bytes window base) := by
  have hwithin := @linesPage_within py session_id window limits last_turns base file skip scanned_bytes hslice
  have hdrop : ∀ i, (file.take (base + window.length)).drop (base + i) = window.drop i := by
    intro i
    rw [hslice.drop_take le_rfl, List.take_length]
  cases @linesPage_shown py session_id window limits last_turns base file.length skip scanned_bytes hfit hslice.fits with
  | more i hi hline hcursor hshown =>
    have hunshown : unshown file (some ⟨base + i, false⟩) = base + i := rfl
    refine ⟨?_, ?_, ?_, hwithin⟩
    · rw [hcursor, hunshown, hdrop]
      exact hshown
    · rw [hcursor, hunshown]
      omega
    · intro c hc
      rw [hcursor, Option.mem_some_iff] at hc
      subst hc
      exact ⟨fun _ => hslice.isLineStart hbase hi hline, by simpa using hi⟩
  | all hcursor hshown =>
    have hunshown : unshown file (if 0 < base then some ⟨base, skip⟩ else none) = base := by
      by_cases hzero : 0 < base
      · rw [if_pos hzero, unshown]
        simp only [lineStart_self hbase, ite_self]
      · rw [if_neg hzero, unshown]
        omega
    refine ⟨?_, ?_, ?_, hwithin⟩
    · rw [hcursor, hunshown]
      have hall := hdrop 0
      rw [Nat.add_zero] at hall
      rw [hall]
      exact hshown
    · rw [hcursor, hunshown]
      omega
    · intro c hc
      rw [hcursor] at hc
      split at hc
      · next hzero =>
        rw [Option.mem_some_iff] at hc
        subst hc
        refine ⟨fun _ => hbase, ?_⟩
        have hpos := List.length_pos_iff.mpr (hwindow.resolve_right (by omega))
        simpa using hpos
      · cases hc

theorem partialPage_pageShown {scanned_bytes : Nat} {line : Bytes} (hfit : MarkersFit session_id file.length)
    (hlower : lower < upper) (hupper : upper ≤ file.length) (hstart : ¬ LineStart file lower) (hline : 0x0A ∉ line)
    (hwindow : (file.take upper).drop lower = line ∨ (file.take upper).drop lower = line ++ [0x0A]) :
    PageShown py session_id limits file upper upper
      (partialPage session_id limits false scanned_bytes lower upper) := by
  have hlt := lineStart_lt hstart
  have hunshown : unshown file (some ⟨lower, true⟩) = lineStart file lower := rfl
  have hmarker := (hfit lower upper true (by omega) hupper).trans (@le_bytes limits)
  -- the record, from its start on
  have hsplit := slice_append hlt.le hlower.le hupper
  have hfront := not_mem_line file lower
  have hlength : ((file.take lower).drop (lineStart file lower)).length = lower - lineStart file lower := by
    rw [List.length_drop, List.length_take]
    omega
  have hwindow_length : ((file.take upper).drop lower).length = upper - lower := by
    rw [List.length_drop, List.length_take]
    omega
  have hbody : 0x0A ∉ (file.take lower).drop (lineStart file lower) ++ line := by
    rw [List.mem_append]
    exact not_or.mpr ⟨hfront, hline⟩
  have hne : (file.take lower).drop (lineStart file lower) ++ line ≠ [] := by
    intro hnil
    rw [(List.append_eq_nil_iff.mp hnil).1] at hlength
    simp at hlength
    omega
  have hrecord : records (lineStart file lower) ((file.take upper).drop (lineStart file lower))
      = [⟨lineStart file lower, upper, (file.take lower).drop (lineStart file lower) ++ line⟩] := by
    rw [hsplit]
    obtain h | h := hwindow
    · rw [h] at hwindow_length ⊢
      have hstop : lineStart file lower + (lower - lineStart file lower + (upper - lower)) = upper := by omega
      rw [records_last _ hbody, if_neg hne, List.length_append, hlength, hwindow_length, hstop]
    · rw [h] at hwindow_length ⊢
      rw [List.length_append, List.length_singleton] at hwindow_length
      have hstop : lineStart file lower + (lower - lineStart file lower + line.length) + 1 = upper := by omega
      rw [← List.append_assoc, records_line _ hbody, if_neg hne, List.length_append, hlength, hstop, records_nil,
        List.append_nil]
  refine ⟨?_, hlt.le.trans hlower.le, ?_, ?_⟩
  · simp only [partialPage, hunshown, hrecord]
    refine .entry ⟨rfl, .inr ⟨rfl, rfl, ?_⟩⟩ .nil
    exact ⟨hlt, hlower⟩
  · intro c hc
    rw [partialPage, Option.mem_some_iff] at hc
    subst hc
    exact ⟨nofun, hlower⟩
  · refine ⟨one_le_events, ?_, min_le_left _ _⟩
    simp [partialPage, TranscriptEntry.cost, Nat.min_eq_right hmarker]

theorem windowPage_pageShown {skip : Bool} {scanned_bytes : Nat} (hfit : MarkersFit session_id file.length)
    (hlower : lower < upper ∨ lower = 0) (hle : lower ≤ upper) (hupper : upper ≤ file.length)
    (hstop : LineStart file upper ∨ upper = file.length ∧ skip = false)
    (hskip : skip = true → 0x0A ∈ (file.take upper).drop lower) :
    PageShown py session_id limits file upper upper
      (windowPage py session_id limits last_turns false skip (lower = 0 || file[lower - 1]? = some 0x0A) scanned_bytes
        ((file.take upper).drop lower) lower upper) := by
  have hslice := slice_of hle hupper
  have hlength : ((file.take upper).drop lower).length = upper - lower := by
    rw [List.length_drop, List.length_take]
    omega
  have hwhole : lower + ((file.take upper).drop lower).length = upper := by omega
  have hparts := fun first => List.take_append_drop first ((file.take upper).drop lower)
  have hcut := fun (line : Bytes) (scanned : Nat) =>
    @partialPage_pageShown py session_id limits file upper lower scanned line hfit
  generalize hw : (file.take upper).drop lower = window at *
  unfold windowPage
  by_cases hinside : 0 < lower ∧ !(lower = 0 || file[lower - 1]? = some 0x0A : Bool)
  · rw [if_pos hinside]
    obtain ⟨hpos, hno⟩ := hinside
    have hstart : ¬ LineStart file lower := by
      intro h
      obtain h | h := h
      · omega
      · simp [h] at hno
    have hlt : lower < upper := hlower.resolve_right (by omega)
    cases hfind : window.idxOf? 0x0A with
    | none =>
      have hnone := List.idxOf?_eq_none_iff.mp hfind
      cases skip with
      | true => exact absurd (hskip rfl) hnone
      | false => exact hcut window _ hlt hupper hstart hnone (.inl rfl)
    | some first =>
      obtain ⟨hfirst, hbyte, hbefore⟩ := List.idxOf?_eq_some_iff.mp hfind
      have hfront : 0x0A ∉ window.take first := by
        intro hmem
        obtain ⟨j, hj, hj'⟩ := List.mem_take_iff_getElem.mp hmem
        exact hbefore j (by omega) hj'
      have hbreak : window.drop first = 0x0A :: window.drop (first + 1) := by
        rw [List.drop_eq_getElem_cons hfirst, hbyte]
      simp only
      split
      · next hlast =>
        have hend : window.drop (first + 1) = [] := List.drop_of_length_le (by omega)
        have hline := hparts first
        rw [hbreak, hend] at hline
        exact hcut _ _ hlt hupper hstart hfront (.inr hline.symm)
      · next hmore =>
        have hrest : Slice file (lower + (first + 1)) (window.drop (first + 1)) := by
          rw [← hw, List.drop_drop]
          exact slice_of (by omega) hupper
        have hline : LineStart file (lower + (first + 1)) := by
          right
          rw [Nat.add_succ_sub_one, hslice.getElem? hfirst, List.getElem?_eq_getElem hfirst, hbyte]
        have hrest_length : lower + (first + 1) + (window.drop (first + 1)).length = upper := by
          rw [List.length_drop]
          omega
        have hpage := @linesPage_pageShown py session_id limits last_turns file _ _ skip scanned_bytes hfit hrest hline
          (.inl (List.ne_nil_of_length_pos (by rw [List.length_drop]; omega)))
        rwa [hrest_length] at hpage
  · rw [if_neg hinside]
    have hline : LineStart file lower := by
      by_cases hzero : lower = 0
      · exact .inl hzero
      · right
        by_contra hno
        exact hinside ⟨by omega, by simp [hzero, hno]⟩
    have hpage := @linesPage_pageShown py session_id limits last_turns file _ _ skip scanned_bytes hfit hslice hline
      (hlower.imp_left fun h => List.ne_nil_of_length_pos (by omega))
    rwa [hwhole] at hpage

theorem one_le_scanBytes : 1 ≤ limits.scanBytes := le_max_left _ _

/-- A page in front of a cursor shows what the cursor leaves. -/
theorem loadTranscriptPage_pageShown {skip : Bool} (hfit : MarkersFit session_id file.length)
    (hupper : upper ≤ file.length) (hcursor : skip = false → LineStart file upper ∨ upper = file.length) :
    PageShown py session_id limits file (unshown file (some ⟨upper, skip⟩)) upper
      (loadTranscriptPage py session_id limits last_turns false file upper skip) := by
  have hscan := @one_le_scanBytes limits
  have hlower : upper - limits.scanBytes < upper ∨ upper - limits.scanBytes = 0 := by omega
  have hle : upper - limits.scanBytes ≤ upper := Nat.sub_le _ _
  unfold loadTranscriptPage
  simp only [Nat.min_eq_left hupper]
  generalize hlow : upper - limits.scanBytes = lower at hlower hle ⊢
  have hslice := slice_of hle hupper
  have hlength : ((file.take upper).drop lower).length = upper - lower := by
    rw [List.length_drop, List.length_take]
    omega
  cases skip with
  | false =>
    have hunshown : unshown file (some ⟨upper, false⟩) = upper := rfl
    rw [if_neg (by decide), hunshown]
    exact windowPage_pageShown hfit hlower hle hupper ((hcursor rfl).imp_right fun h => ⟨h, rfl⟩)
      fun h => by cases h
  | true =>
    have hunshown : unshown file (some ⟨upper, true⟩) = lineStart file upper := rfl
    rw [if_pos rfl, hunshown]
    cases hfind : rfindNewline ((file.take upper).drop lower) ((file.take upper).drop lower).length with
    | none =>
      have hnone := rfindNewline_eq_none hfind
      rw [List.take_length] at hnone
      have hleft : unshown file (if 0 < lower then some ⟨lower, true⟩ else none) = lineStart file upper := by
        have hfar : lineStart file upper = lineStart file lower := by
          refine lineStart_eq ((lineStart_le file lower).trans hle) (lineStart_isStart file lower) ?_
          rw [slice_append (lineStart_le file lower) hle hupper, List.mem_append]
          exact not_or.mpr ⟨not_mem_line file lower, hnone⟩
        by_cases hzero : 0 < lower
        · rw [if_pos hzero, hfar]
          rfl
        · have hstart := lineStart_le file lower
          rw [if_neg hzero, unshown, hfar]
          omega
      refine ⟨?_, ?_, ?_, Nat.zero_le _, rfl, Nat.zero_le _⟩
      · simp only [skippingPage, hleft]
        rw [List.drop_of_length_le (List.length_take_le _ _)]
        exact .nil
      · exact hleft.le
      · intro c hc
        simp only [skippingPage] at hc
        split at hc
        · next hzero =>
          rw [Option.mem_some_iff] at hc
          subst hc
          exact ⟨fun h => (by cases h), hlower.resolve_right (by omega)⟩
        · cases hc
    | some last =>
      obtain ⟨hbyte, hbehind⟩ := rfindNewline_eq_some hfind
      have hlast := rfindNewline_lt hfind
      rw [List.take_length] at hbehind
      have hbreak : LineStart file (lower + (last + 1)) := by
        right
        rw [Nat.add_succ_sub_one, hslice.getElem? hlast, hbyte]
      have htop : lineStart file upper = lower + (last + 1) := by
        refine lineStart_eq (by omega) hbreak ?_
        rwa [List.drop_drop] at hbehind
      have hwindow : ((file.take upper).drop lower).take (last + 1) = (file.take (lower + (last + 1))).drop lower := by
        have hcut := hslice.drop_take (i := 0) (j := last + 1) (by omega)
        rw [List.drop_zero, Nat.add_zero] at hcut
        exact hcut.symm
      have hmem : 0x0A ∈ (file.take (lower + (last + 1))).drop lower := by
        rw [← hwindow]
        exact List.mem_of_getElem? (i := last) (by rw [List.getElem?_take_of_lt (by omega), hbyte])
      simp only [hwindow, htop]
      exact (windowPage_pageShown hfit (.inl (by omega)) (by omega) (by omega) (.inl hbreak) fun _ => hmem).mono
        (by omega)

/-! ## 3. The record of a marker -/

theorem Shown.record {rs : List Record} {es : List TranscriptEntry} (h : Shown py session_id rs es) {e : TranscriptEntry}
    (he : e ∈ es) : ∃ r ∈ rs, Shows py session_id r e := by
  induction h with
  | nil => cases he
  | @entry r _ _ _ hshows _ ih =>
    obtain rfl | he := List.mem_cons.mp he
    · exact ⟨r, List.mem_cons_self, hshows⟩
    · obtain ⟨r', hr', hshows'⟩ := ih he
      exact ⟨r', List.mem_cons_of_mem _ hr', hshows'⟩
  | malformed _ _ ih =>
    obtain ⟨r', hr', hshows'⟩ := ih he
    exact ⟨r', List.mem_cons_of_mem _ hr', hshows'⟩

/-- A record is a line of its bytes. -/
structure IsLine (bytes : Bytes) (base : Nat) (r : Record) : Prop where
  start : ∃ i, r.start = base + i ∧ LineStart bytes i
  stop : r.stop ≤ base + bytes.length
  line : ∀ i, r.start ≤ base + i → base + i + 1 < r.stop → bytes[i]? ≠ some 0x0A

theorem isLine_of_mem {bytes : Bytes} {r : Record} (h : r ∈ records base bytes) : IsLine bytes base r := by
  induction hn : bytes.length using Nat.strong_induction_on generalizing bytes base with
  | _ n ih =>
    by_cases hmem : 0x0A ∈ bytes
    · obtain ⟨line, rest, rfl, hline⟩ := List.eq_append_cons_of_mem hmem
      rw [List.length_append, List.length_cons] at hn
      have hbehind : ∀ k, (line ++ 0x0A :: rest)[line.length + 1 + k]? = rest[k]? := by
        intro k
        rw [List.getElem?_append_right (by omega)]
        have hindex : line.length + 1 + k - line.length = k + 1 := by omega
        rw [hindex, List.getElem?_cons_succ]
      rw [records_line base hline, List.mem_append] at h
      obtain h | h := h
      · split at h
        · cases h
        · rw [List.mem_singleton] at h
          subst h
          refine ⟨⟨0, rfl, .inl rfl⟩, ?_, fun i _ hi hbyte => hline ?_⟩
          · rw [List.length_append, List.length_cons]
            simp only
            omega
          · simp only at hi
            rw [List.getElem?_append_left (by omega)] at hbyte
            exact List.mem_of_getElem? hbyte
      · obtain ⟨⟨i, hi, hstart⟩, hstop, hbody⟩ := ih rest.length (by omega) h rfl
        refine ⟨⟨line.length + 1 + i, by omega, .inr ?_⟩, ?_, fun k hk hk' => ?_⟩
        · obtain rfl | hstart := hstart
          · simp
          · by_cases hzero : i = 0
            · subst hzero
              simp
            · have hindex : line.length + 1 + i - 1 = line.length + 1 + (i - 1) := by omega
              rw [hindex, hbehind, hstart]
        · rw [List.length_append, List.length_cons]
          omega
        · obtain ⟨m, rfl⟩ : ∃ m, k = line.length + 1 + m := ⟨k - (line.length + 1), by omega⟩
          rw [hbehind]
          exact hbody m (by omega) (by omega)
    · rw [records_last base hmem] at h
      split at h
      · cases h
      · rw [List.mem_singleton] at h
        subst h
        refine ⟨⟨0, rfl, .inl rfl⟩, by simp, fun i _ _ hbyte => hmem (List.mem_of_getElem? hbyte)⟩

theorem findLineStartBefore_spec (file : Bytes) (search_end scanned budget : Nat) (hend : search_end ≤ file.length)
    (hscanned : scanned ≤ budget) :
    ((findLineStartBefore file search_end scanned budget).2.2 = true
        → (findLineStartBefore file search_end scanned budget).1 = lineStart file search_end
          ∧ scanned + (search_end - lineStart file search_end) ≤ budget)
      ∧ ((findLineStartBefore file search_end scanned budget).2.2 = false
        → budget ≤ scanned + (search_end - lineStart file search_end)) := by
  induction search_end using Nat.strong_induction_on generalizing scanned with
  | _ search_end ih =>
    rw [findLineStartBefore]
    split
    · next hmore =>
      have hchunk : 0 < TRANSCRIPT_SCAN_CHUNK_BYTES := by decide
      have hamount : 0 < min (min TRANSCRIPT_SCAN_CHUNK_BYTES (budget - scanned)) search_end := by omega
      have hbudget : min (min TRANSCRIPT_SCAN_CHUNK_BYTES (budget - scanned)) search_end ≤ budget - scanned := by omega
      have hwithin : min (min TRANSCRIPT_SCAN_CHUNK_BYTES (budget - scanned)) search_end ≤ search_end := by omega
      simp only
      generalize min (min TRANSCRIPT_SCAN_CHUNK_BYTES (budget - scanned)) search_end = amount at hamount hbudget hwithin ⊢
      have hslice := slice_of (Nat.sub_le search_end amount) hend
      have hlength : ((file.take search_end).drop (search_end - amount)).length = amount := by
        rw [List.length_drop, List.length_take]
        omega
      have hstart := lineStart_le file (search_end - amount)
      cases hfind : rfindNewline ((file.take search_end).drop (search_end - amount))
          ((file.take search_end).drop (search_end - amount)).length with
      | some newline =>
        obtain ⟨hbyte, hbehind⟩ := rfindNewline_eq_some hfind
        have hlt := rfindNewline_lt hfind
        rw [List.take_length, List.drop_drop] at hbehind
        have hfound : lineStart file search_end = search_end - amount + (newline + 1) := by
          refine lineStart_eq (by omega) (.inr ?_) hbehind
          rw [Nat.add_succ_sub_one, hslice.getElem? hlt, hbyte]
        exact ⟨fun _ => ⟨hfound.symm, by omega⟩, fun h => by cases h⟩
      | none =>
        have hnone := rfindNewline_eq_none hfind
        rw [List.take_length] at hnone
        have hfar : lineStart file search_end = lineStart file (search_end - amount) := by
          refine lineStart_eq (by omega) (lineStart_isStart file _) ?_
          rw [slice_append hstart (Nat.sub_le _ _) hend, List.mem_append]
          exact not_or.mpr ⟨not_mem_line file _, hnone⟩
        have hrest := ih (search_end - amount) (by omega) (scanned + amount) (by omega) (by omega)
        rw [hlength, hfar]
        exact ⟨fun h => ⟨(hrest.1 h).1, (by omega : _ ≤ _).trans (hrest.1 h).2⟩, fun h => (hrest.2 h).trans (by omega)⟩
    · next hdone =>
      split
      · next hzero =>
        subst hzero
        exact ⟨fun _ => ⟨rfl, hscanned⟩, fun h => by cases h⟩
      · exact ⟨fun h => (by cases h), fun _ => by omega⟩

/-- A marker leads to its record in what the file has become, unless 1 MiB of
the record or more is in front of it. -/
theorem entryRange_spec {later : Bytes} {r : Record} {e : TranscriptEntry} (hr : r ∈ records 0 file)
    (hlater : file <+: later) (he : Shows py session_id r e) (hmarker : e.oversized = true) :
    entryRange later e = some (r.start, r.stop)
      ∨ entryRange later e = none ∧ MAX_TRANSCRIPT_PREVIEW_BYTES ≤ e.start_offset - r.start := by
  obtain ⟨hstop, hshows | ⟨-, -, hstart⟩⟩ := he
  · rw [hshows.1] at hmarker
    cases hmarker
  · cases hcut : e.partial_line with
    | false =>
      rw [hcut, if_neg (by decide)] at hstart
      rw [entryRange, hcut, if_neg (by decide), hstart, hstop]
      exact .inl rfl
    | true =>
      rw [hcut, if_pos rfl] at hstart
      obtain ⟨tail, rfl⟩ := hlater
      obtain ⟨⟨i, hi, hline⟩, hbound, hbody⟩ := isLine_of_mem hr
      rw [Nat.zero_add] at hi hbound
      subst hi
      have hfound : lineStart (file ++ tail) e.start_offset = r.start := by
        refine lineStart_eq hstart.1.le ?_ fun hmem => ?_
        · refine hline.imp_right fun hbyte => ?_
          rw [List.getElem?_append_left (by omega)]
          exact hbyte
        · obtain ⟨k, hk⟩ := List.mem_iff_getElem?.mp hmem
          rw [List.getElem?_drop] at hk
          by_cases hlt : r.start + k < e.start_offset
          · rw [List.getElem?_take_of_lt hlt, List.getElem?_append_left (by omega)] at hk
            exact hbody (r.start + k) (by omega) (by omega) hk
          · rw [List.getElem?_eq_none (by rw [List.length_take]; omega)] at hk
            cases hk
      obtain ⟨hyes, hno⟩ := findLineStartBefore_spec (file ++ tail) e.start_offset 0
        MAX_TRANSCRIPT_PREVIEW_BYTES (by rw [List.length_append]; omega) (Nat.zero_le _)
      rw [entryRange, hcut, if_pos rfl]
      cases hsearch : findLineStartBefore (file ++ tail) e.start_offset 0 MAX_TRANSCRIPT_PREVIEW_BYTES with
      | mk start rest =>
        obtain ⟨scanned, complete⟩ := rest
        rw [hsearch] at hyes hno
        cases complete with
        | true =>
          left
          rw [hstop, ← hfound, ← (hyes rfl).1]
        | false =>
          right
          have hfar := hno rfl
          rw [hfound, Nat.zero_add] at hfar
          exact ⟨rfl, hfar⟩

/-! ## 4. The pages of a session -/

/-- A session in which pages are read while its log grows: the file and the
limits at each of them. -/
structure Browsing where
  session_id : String
  last_turns : Int
  file : Nat → Bytes
  limits : Nat → PageLimits
  grows : ∀ n, file n <+: file (n + 1)

namespace Browsing

variable (py : Interp) (b : Browsing)

/-- The page that is reached from the `n`-th one by following a number of
cursors. -/
def follow (n : Nat) (page : TranscriptPage) : Nat → Option TranscriptPage
  | 0 => some page
  | i + 1 =>
      match page.older_cursor with
      | none => none
      | some cursor =>
          follow (n + 1) (loadOlderTranscriptPage py b.session_id (b.file (n + 1)) cursor (b.limits (n + 1))) i

/-- The pages from the newest one on. -/
def page (i : Nat) : Option TranscriptPage :=
  b.follow py 0 (loadRecentTranscriptPage py b.session_id (b.file 0) b.last_turns (b.limits 0)) i

theorem grown (b : Browsing) (n : Nat) : b.file 0 <+: b.file n := by
  induction n with
  | zero => exact List.prefix_rfl
  | succ n ih => exact ih.trans (b.grows n)

end Browsing

/-- A page depends on the bytes in front of its cursor alone. -/
theorem loadTranscriptPage_prefix {later : Bytes} {skip : Bool} (h : file <+: later) (hupper : upper ≤ file.length) :
    loadTranscriptPage py session_id limits last_turns false later upper skip
      = loadTranscriptPage py session_id limits last_turns false file upper skip := by
  obtain ⟨tail, rfl⟩ := h
  have htake : (file ++ tail).take upper = file.take upper := List.take_append_of_le_length hupper
  have hmin : min upper (file ++ tail).length = min upper file.length := by
    rw [List.length_append]
    omega
  have hboundary : ∀ lower, lower ≤ upper → ((lower = 0 || (file ++ tail)[lower - 1]? = some 0x0A : Bool)
      = (lower = 0 || file[lower - 1]? = some 0x0A : Bool)) := by
    intro lower hlower
    by_cases hzero : lower = 0
    · simp [hzero]
    · rw [List.getElem?_append_left (by omega)]
  unfold loadTranscriptPage
  simp only [hmin, Nat.min_eq_left hupper, htake]
  rw [hboundary _ (Nat.sub_le _ _)]

theorem records_take {left top : Nat} (hle : left ≤ top) (htop : top ≤ file.length) (hleft : LineStart file left) :
    records 0 (file.take top) = records 0 (file.take left) ++ records left ((file.take top).drop left) := by
  have hends : EndsLine (file.take left) := by
    obtain rfl | hbreak := hleft
    · exact .inl rfl
    · cases left with
      | zero => exact .inl rfl
      | succ n =>
        rw [Nat.add_sub_cancel] at hbreak
        refine .inr ⟨file.take n, ?_⟩
        rw [List.take_add_one, hbreak, Option.toList_some]
  have hsplit := slice_append (a := 0) (Nat.zero_le left) hle htop
  have happend := records_append 0 hends ((file.take top).drop left)
  rw [List.drop_zero, List.drop_zero] at hsplit
  rwa [← hsplit, List.length_take, Nat.min_eq_left (hle.trans htop), Nat.zero_add] at happend

/-- The pages from the `n`-th one on, where it shows what is in front of
`top`: by induction on how far back its cursor can be. -/
theorem follow_shown {b : Browsing} (hfit : MarkersFit b.session_id (b.file 0).length) {bound top n : Nat}
    {page : TranscriptPage} (hbound : bound ≤ (b.file 0).length) (htop : top ≤ (b.file 0).length)
    (hpage : PageShown py b.session_id (b.limits n) (b.file 0) top bound page) :
    ∃ pages : List TranscriptPage, (∀ i, b.follow py n page i = pages[i]?)
      ∧ (∃ last ∈ pages.getLast?, last.older_cursor = none)
      ∧ Shown py b.session_id (records 0 ((b.file 0).take top)) (pages.reverse.flatMap TranscriptPage.entries)
      ∧ ∀ i page, pages[i]? = some page →
        WithinLimits (b.limits (n + i)) (b.file 0) page.entries page.retained_bytes := by
  induction bound using Nat.strong_induction_on generalizing n top page with
  | _ bound ih =>
    cases hcursor : page.older_cursor with
    | none =>
      refine ⟨[page], fun i => ?_, ⟨page, rfl, hcursor⟩, ?_, fun i page' hi => ?_⟩
      · cases i with
        | zero => rfl
        | succ i => simp [Browsing.follow, hcursor]
      · have hshown := hpage.shown
        rw [hcursor] at hshown
        simpa [unshown] using hshown
      · cases i with
        | zero =>
          obtain rfl := Option.some.inj hi
          exact hpage.within
        | succ i => simp at hi
    | some cursor =>
      obtain ⟨hvalid, hlt⟩ := hpage.cursor cursor hcursor
      have hle : cursor.offset ≤ (b.file 0).length := by omega
      have hgrown := b.grown (n + 1)
      have hlater : cursor.offset ≤ (b.file (n + 1)).length := hle.trans hgrown.length_le
      -- the next page, on the file of the start
      have hnext : PageShown py b.session_id (b.limits (n + 1)) (b.file 0) (unshown (b.file 0) (some cursor)) cursor.offset
          (loadOlderTranscriptPage py b.session_id (b.file (n + 1)) cursor (b.limits (n + 1))) := by
        rw [loadOlderTranscriptPage, Nat.min_eq_left hlater, loadTranscriptPage_prefix hgrown hle]
        exact loadTranscriptPage_pageShown hfit hle fun hskip => .inl (hvalid hskip)
      have hunder := hpage.le
      rw [hcursor] at hunder
      obtain ⟨pages, hpages, hlast, hshown, hwithin⟩ := ih cursor.offset hlt hle (hunder.trans htop) hnext
      refine ⟨page :: pages, fun i => ?_, ?_, ?_, fun i page' hi => ?_⟩
      · cases i with
        | zero => rfl
        | succ i =>
          rw [List.getElem?_cons_succ, ← hpages i, Browsing.follow, hcursor]
      · obtain ⟨last, hmem, hnone⟩ := hlast
        refine ⟨last, ?_, hnone⟩
        rw [List.getLast?_cons, hmem]
        rfl
      · have hbehind := hpage.shown
        rw [hcursor] at hbehind
        have hstart : LineStart (b.file 0) (unshown (b.file 0) (some cursor)) := by
          refine unshown_isStart fun c hc => ?_
          obtain rfl := Option.some.inj hc
          exact hvalid
        have hboth := hshown.append hbehind
        rw [← records_take hunder htop hstart] at hboth
        simpa using hboth
      · cases i with
        | zero =>
          obtain rfl := Option.some.inj hi
          exact hpage.within
        | succ i =>
          have hrest := hwithin i page' hi
          rwa [Nat.add_right_comm] at hrest

/-- The pages of a session show every record of the log that it began with,
once and in order, whatever is appended; they stay within their limits, and
each marker leads to its record or to the limit of the search. -/
theorem pages_cover_log (py : Interp) (b : Browsing) (hfit : MarkersFit b.session_id (b.file 0).length) :
    ∃ pages : List TranscriptPage, (∀ i, b.page py i = pages[i]?)
      ∧ (∃ last ∈ pages.getLast?, last.older_cursor = none)
      ∧ Shown py b.session_id (records 0 (b.file 0)) (pages.reverse.flatMap TranscriptPage.entries)
      ∧ (∀ i page, pages[i]? = some page →
        WithinLimits (b.limits i) (b.file 0) page.entries page.retained_bytes)
      ∧ ∀ page ∈ pages, ∀ e ∈ page.entries, e.oversized = true →
        ∃ r ∈ records 0 (b.file 0), Shows py b.session_id r e ∧ ∀ n, entryRange (b.file n) e = some (r.start, r.stop)
          ∨ entryRange (b.file n) e = none ∧ MAX_TRANSCRIPT_PREVIEW_BYTES ≤ e.start_offset - r.start := by
  have hfirst := @loadTranscriptPage_pageShown py b.session_id (b.limits 0) b.last_turns (b.file 0) (b.file 0).length
    false hfit le_rfl fun _ => .inr rfl
  obtain ⟨pages, hpages, hlast, hshown, hwithin⟩ := follow_shown (n := 0) hfit le_rfl le_rfl hfirst
  rw [List.take_length] at hshown
  refine ⟨pages, hpages, hlast, hshown, fun i page hi => ?_, fun page hpage e he hmarker => ?_⟩
  · have hlimits := hwithin i page hi
    rwa [Nat.zero_add] at hlimits
  · have hmem : e ∈ pages.reverse.flatMap TranscriptPage.entries :=
      List.mem_flatMap.mpr ⟨page, List.mem_reverse.mpr hpage, he⟩
    obtain ⟨r, hr, hshows⟩ := hshown.record hmem
    exact ⟨r, hr, hshows, fun n => entryRange_spec hr (b.grown n) hshows hmarker⟩

/-! ## 5. Markers fit -/

/-- The name is written by `json.dumps` as it is. -/
def PlainName (name : String) : Prop := ∀ c ∈ name.toList, encodeChar c = [c]

instance (name : String) : Decidable (PlainName name) := inferInstanceAs (Decidable (∀ c ∈ name.toList, _))

theorem encodeString_length {name : String} (h : PlainName name) : (encodeString name).length = name.length + 2 := by
  have hbody : name.toList.flatMap encodeChar = name.toList := by
    rw [List.flatMap_congr h]
    simp
  rw [encodeString, encodeBody, hbody, List.length_cons, List.length_append, String.length_toList]
  rfl

theorem PlainName.append {a b : String} (ha : PlainName a) (hb : PlainName b) : PlainName (a ++ b) := by
  intro c hc
  rw [String.toList_append, List.mem_append] at hc
  exact hc.elim (ha c) (hb c)

theorem plainName_digits (n : Nat) : PlainName (toString n) := by
  intro c hc
  have hmem : c ∈ Nat.toDigits 10 n := by simpa using hc
  have hdigit : c.isDigit = true := Nat.isDigit_of_mem_toDigits (by decide) (by decide) hmem
  simp only [Char.isDigit, Bool.and_eq_true, decide_eq_true_eq] at hdigit
  have hlow : 48 ≤ c.toNat := UInt32.le_iff_toNat_le.mp hdigit.1
  have hhigh : c.toNat ≤ 57 := UInt32.le_iff_toNat_le.mp hdigit.2
  rw [← Char.ofNat_toNat c]
  generalize c.toNat = k at hlow hhigh
  have hcases : ∀ k ∈ List.range' 48 10, encodeChar (Char.ofNat k) = [Char.ofNat k] := by decide
  exact hcases k (by simp; omega)

theorem utf8_length {line : List Char} (h : line.all isPlain = true) : (utf8 line).length = line.length := by
  rw [utf8]
  induction line with
  | nil => rfl
  | cons c line ih =>
    rw [List.all_cons, Bool.and_eq_true, isPlain, decide_eq_true_eq] at h
    have hsmall : c.toNat ≤ 0x7f := h.1.2.trans (by decide)
    have hone : c.utf8Size = 1 := Char.utf8Size_eq_one_iff.mpr (UInt32.le_iff_toNat_le.mpr hsmall)
    rw [List.flatMap_cons, List.length_append, ih h.2, String.length_utf8EncodeChar, hone, List.length_cons, Nat.add_comm]

theorem markerSize_eq (ev : ConversationEvent) : markerSize ev = (compactDumps ev.record).length :=
  utf8_length (compactDumps_isPlain ev.record)

theorem oversizedPreviewEvent_size {event_id text session_id : String} (hid : PlainName event_id)
    (htext : PlainName text) (hsession : PlainName session_id) :
    markerSize ⟨event_id, "system", [("text", .str text), ("_agenthicc_session_id", .str session_id)], PyFloat.zero, false⟩
      = event_id.length + text.length + session_id.length + 96 := by
  have h1 : (encodeString "event_id").length = 10 := by decide
  have h2 : (encodeString "kind").length = 6 := by decide
  have h3 : (encodeString "system").length = 8 := by decide
  have h4 : (encodeString "payload").length = 9 := by decide
  have h5 : (encodeString "text").length = 6 := by decide
  have h6 : (encodeString "_agenthicc_session_id").length = 23 := by decide
  have h7 : (encodeString "timestamp").length = 11 := by decide
  have h8 : PyFloat.zero.text.length = 3 := by decide
  rw [markerSize_eq]
  simp only [compactDumps, ConversationEvent.record, dumpsWith, dumpsPairsWith, separatorWith, gap, if_true,
    Bool.false_eq_true, if_false, List.length_append, List.length_cons, List.length_nil, h1, h2, h3, h4, h5, h6, h7, h8,
    encodeString_length hid, encodeString_length htext, encodeString_length hsession]
  omega

theorem markersFit_of_plain {session_id : String} (h : PlainName session_id) (hlength : session_id.length ≤ 255) {size : Nat}
    (hsize : size < 2 ^ 63) : MarkersFit session_id size := by
  intro start stop cut hstart hstop
  have hdigits : ∀ n, n ≤ size → (toString n).length ≤ 19 := 
    fun n hn => (Nat.length_repr_le_iff (by decide)).mpr (by omega)
  have hid : PlainName ("preview-omitted:" ++ session_id ++ ":" ++ toString start ++ ":" ++ toString stop) :=
    (((((by decide : PlainName "preview-omitted:").append h).append (by decide)).append
      (plainName_digits start)).append (by decide)).append (plainName_digits stop)
  have hreason : PlainName (if cut then "exceptionally large" else toString (stop - start) ++ " bytes")
      ∧ (if cut then "exceptionally large" else toString (stop - start) ++ " bytes").length ≤ 25 := by
    cases cut with
    | true =>
      rw [if_pos rfl]
      exact ⟨by decide, by decide⟩
    | false =>
      refine ⟨(plainName_digits _).append (by decide), ?_⟩
      have hspan := hdigits (stop - start) (by omega)
      rw [if_neg (by decide), String.length_append]
      exact Nat.add_le_add_right hspan 6
  have htext := ((by decide : PlainName "Transcript event (").append hreason.1).append
    (by decide : PlainName ") omitted from preview; use /history and Enter to inspect.")
  have h1 := hdigits start hstart
  have h2 := hdigits stop hstop
  have h3 := hreason.2
  unfold oversizedPreviewEvent
  simp only
  rw [oversizedPreviewEvent_size hid htext h]
  simp only [String.length_append]
  have h4 : "preview-omitted:".length = 16 := by decide
  have h5 : ":".length = 1 := by decide
  have h6 : "Transcript event (".length = 18 := by decide
  have h7 : ") omitted from preview; use /history and Enter to inspect.".length = 58 := by decide
  omega

/-- A log of one note, behind which blank lines are appended. -/
def noteBrowsing : Browsing where
  session_id := "s1"
  last_turns := 3
  file n := noteLog.bytes ++ List.replicate n 0x0A
  limits _ := {}
  grows n := by
    rw [List.replicate_succ', ← List.append_assoc]
    exact List.prefix_append _ _

theorem note_pages : ∃ pages : List TranscriptPage, (∀ i, noteBrowsing.page plainInterp i = pages[i]?)
    ∧ (∃ last ∈ pages.getLast?, last.older_cursor = none)
    ∧ Shown plainInterp "s1" (records 0 (noteBrowsing.file 0)) (pages.reverse.flatMap TranscriptPage.entries) := by
  have hfit : MarkersFit noteBrowsing.session_id (noteBrowsing.file 0).length :=
    markersFit_of_plain (by decide) (by decide) (by decide)
  obtain ⟨pages, hpages, hlast, hshown, -⟩ := pages_cover_log plainInterp noteBrowsing hfit
  exact ⟨pages, hpages, hlast, hshown⟩

/-! ## 6. A record whose start is out of reach -/

theorem decodeText_record {rendered : Bool} (ev : ConversationEvent) :
    decodeText py rendered (dumps ev.record) = some { ev with rendered } := by
  rw [decodeText, loads_dumps]
  simp [ConversationEvent.record, Json.lookup, floatValue]

/-- The newest page where the last line is longer than a window: a marker. -/
theorem loadTranscriptPage_long {line : Bytes} (h : 0x0A ∉ line) (hlong : limits.scanBytes ≤ line.length) :
    loadTranscriptPage py session_id limits last_turns false (line ++ [0x0A]) (line ++ [0x0A]).length false
      = partialPage session_id limits false (limits.scanBytes + 1) (line.length + 1 - limits.scanBytes)
        (line.length + 1) := by
  have hscan := @one_le_scanBytes limits
  have hlength : (line ++ [(0x0A : UInt8)]).length = line.length + 1 := by simp
  have hinside : (line ++ [(0x0A : UInt8)])[line.length + 1 - limits.scanBytes - 1]? ≠ some 0x0A := by
    rw [List.getElem?_append_left (by omega)]
    exact fun hbyte => h (List.mem_of_getElem? hbyte)
  have hwindow : (line ++ [(0x0A : UInt8)]).drop (line.length + 1 - limits.scanBytes)
      = line.drop (line.length + 1 - limits.scanBytes) ++ [0x0A] := List.drop_append_of_le_length (by omega)
  have hrest : 0x0A ∉ line.drop (line.length + 1 - limits.scanBytes) := fun hmem => h (List.mem_of_mem_drop hmem)
  have hrest_length : (line.drop (line.length + 1 - limits.scanBytes)).length = limits.scanBytes - 1 := by
    rw [List.length_drop]
    omega
  have hbreak : (line.drop (line.length + 1 - limits.scanBytes) ++ [(0x0A : UInt8)]).idxOf? 0x0A
      = some (limits.scanBytes - 1) := by
    rw [List.idxOf?_eq_some_iff]
    have hindex : limits.scanBytes - 1 < (line.drop (line.length + 1 - limits.scanBytes) ++ [(0x0A : UInt8)]).length := by
      rw [List.length_append, hrest_length, List.length_singleton]
      exact Nat.lt_succ_self _
    refine ⟨hindex, ?_, fun j hj hbyte => hrest ?_⟩
    · rw [List.getElem_append_right (by omega)]
      simp
    · rw [List.getElem_append_left (by omega)] at hbyte
      exact List.mem_of_getElem hbyte
  have hpos : 0 < line.length + 1 - limits.scanBytes := by omega
  have hnonzero : line.length + 1 - limits.scanBytes ≠ 0 := by omega
  have hlast : limits.scanBytes - 1 = limits.scanBytes - 1 + [(0x0A : UInt8)].length - 1 := rfl
  have htake : (line ++ [(0x0A : UInt8)]).take (line.length + 1) = line ++ [0x0A] := by
    rw [← hlength, List.take_length]
  unfold loadTranscriptPage windowPage
  simp only [hlength, Nat.min_self, htake, hwindow, hbreak, List.length_append, hrest_length, ← hlast]
  simp only [hpos, hnonzero, hinside, decide_false, Bool.or_false, Bool.not_false, and_self, if_true, if_false,
    Bool.false_eq_true, List.length_singleton, Nat.sub_add_cancel hscan]

/-- An event with a text. -/
def noteEvent (text : String) : ConversationEvent := ⟨"e1", "note", [("text", .str text)], PyFloat.zero, false⟩

/-- A log of one event. -/
def noteFile (text : String) : Browsing where
  session_id := "s1"
  last_turns := 3
  file _ := utf8 (dumps (noteEvent text).record) ++ [0x0A]
  limits _ := {}
  grows _ := List.prefix_rfl

theorem noteEvent_line (text : String) : 0x0A ∉ utf8 (dumps (noteEvent text).record)
    ∧ (encodeString text).length ≤ (utf8 (dumps (noteEvent text).record)).length := by
  have hplain := dumps_isPlain (noteEvent text).record
  refine ⟨newline_not_mem_utf8 fun hmem => ?_, ?_⟩
  · exact absurd (List.all_eq_true.mp hplain _ hmem) (by decide)
  · rw [utf8_length hplain, noteEvent, ConversationEvent.record]
    simp only [dumps, dumpsPairs, List.length_append, List.length_cons]
    omega

theorem noteEvent_event (text : String) :
    decodeEvent py false (trimReturn (utf8 (dumps (noteEvent text).record))) = some (noteEvent text) := by
  have hplain := dumps_isPlain (noteEvent text).record
  have hnone : (utf8 (dumps (noteEvent text).record)).getLast? ≠ some 0x0D := by
    intro hlast
    obtain ⟨c, hc, hb⟩ := List.mem_flatMap.mp (List.mem_of_getLast? hlast)
    have hcode := toNat_of_mem_utf8 hb (by decide)
    have hlow := List.all_eq_true.mp hplain c hc
    rw [isPlain, decide_eq_true_eq] at hlow
    have hreturn : (0x0D : UInt8).toNat = 13 := rfl
    omega
  rw [trimReturn, if_neg hnone, decodeEvent_utf8, decodeText_record]
  rfl

/-- The marker of such a record leads nowhere when too much of the record is
in front of it. -/
theorem noteFile_not_found {text : String} (hlong : 2 ^ 21 ≤ (encodeString text).length) :
    ∃ page r e, (noteFile text).page py 0 = some page ∧ e ∈ page.entries ∧ records 0 ((noteFile text).file 0) = [r]
      ∧ r.event py = some (noteEvent text) ∧ Shows py "s1" r e ∧ e.oversized = true
      ∧ ∀ n, entryRange ((noteFile text).file n) e = none := by
  obtain ⟨hline, hlength⟩ := noteEvent_line text
  have hevent := @noteEvent_event py text
  have hpage : (noteFile text).page py 0 = some (loadTranscriptPage py "s1" {} 3 false ((noteFile text).file 0)
      ((noteFile text).file 0).length false) := rfl
  have hscan : ({} : PageLimits).scanBytes = 147455 := by decide
  rw [hpage]
  simp only [noteFile]
  generalize utf8 (dumps (noteEvent text).record) = line at hline hlength hevent ⊢
  have hne : line ≠ [] := List.ne_nil_of_length_pos (by omega)
  rw [loadTranscriptPage_long hline (by omega), hscan]
  refine ⟨_, ⟨0, line.length + 1, line⟩, _, rfl, List.mem_singleton_self _, ?_, hevent, ?_, rfl, fun n => ?_⟩
  · rw [records_line 0 hline, if_neg hne, records_nil]
    simp
  · refine ⟨rfl, .inr ⟨rfl, rfl, ?_⟩⟩
    simp
    omega
  · rw [entryRange, if_pos rfl]
    obtain ⟨hyes, -⟩ := findLineStartBefore_spec (line ++ [0x0A]) (line.length + 1 - 147455) 0
      MAX_TRANSCRIPT_PREVIEW_BYTES (by simp; omega) (Nat.zero_le _)
    have hstart : lineStart (line ++ [0x0A]) (line.length + 1 - 147455) = 0 := by
      refine lineStart_eq (Nat.zero_le _) (.inl rfl) ?_
      rw [List.drop_zero, List.take_append_of_le_length (by omega)]
      exact fun hmem => hline (List.mem_of_mem_take hmem)
    cases hsearch : findLineStartBefore (line ++ [0x0A]) (line.length + 1 - 147455) 0 MAX_TRANSCRIPT_PREVIEW_BYTES with
    | mk start rest =>
      obtain ⟨scanned, complete⟩ := rest
      rw [hsearch, hstart, MAX_TRANSCRIPT_PREVIEW_BYTES] at hyes
      cases complete with
      | true =>
        have hnear := (hyes rfl).2
        omega
      | false => rfl

def longText : String := String.ofList (List.replicate (2 ^ 21) 'a')

theorem longText_size : 2 ^ 21 ≤ (encodeString longText).length := by
  have hsize : ∀ n, n ≤ (encodeString (String.ofList (List.replicate n 'a'))).length := by
    intro n
    have hplain : PlainName (String.ofList (List.replicate n 'a')) := by
      intro c hc
      rw [String.toList_ofList] at hc
      rw [List.eq_of_mem_replicate hc]
      decide
    rw [encodeString_length hplain, String.length_ofList, List.length_replicate]
    omega
  exact hsize _

/-- One record of more than 2 MiB, read with the default limits. -/
theorem long_record_is_not_found :
    ∃ page r e, (noteFile longText).page plainInterp 0 = some page ∧ e ∈ page.entries
      ∧ records 0 ((noteFile longText).file 0) = [r] ∧ r.event plainInterp = some (noteEvent longText)
      ∧ Shows plainInterp "s1" r e ∧ e.oversized = true ∧ ∀ n, entryRange ((noteFile longText).file n) e = none :=
  noteFile_not_found longText_size

end Agenthicc.Tui
