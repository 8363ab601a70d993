/-
Agenthicc.Python.JsonNewline — a line break behind a JSON text changes nothing.

A reader of a text file decodes a line with its line break, a reader of bytes
the line without it. Each scanner of `Json` meets the line break only where it
stops; the fuel is one more, and less would do (`parse_enough`).
-/
import Agenthicc.Python.JsonTheorems

namespace Python

/-! ## 1. Fuel that is enough -/

theorem skipWs_length (s : List Char) : (skipWs s).length ≤ s.length := by
  induction s with
  | nil => exact le_rfl
  | cons c rest ih =>
    rw [skipWs]
    split
    · exact ih.trans (by simp)
    · exact le_rfl

theorem scanString_length {s x r : List Char} (h : scanString s = some (x, r)) : r.length < s.length := by
  fun_induction scanString s generalizing x r with
  | case2 rest =>
    obtain ⟨rfl, rfl⟩ := Prod.mk.inj (Option.some.inj h)
    simp
  | case5 _ _ _ _ _ _ _ _ _ _ _ rest _ _ _ ih =>
    obtain ⟨p, hp, hpr⟩ := Option.map_eq_some_iff.mp h
    have hlt := ih hp
    simp only [Prod.mk.injEq] at hpr
    simp only [List.length_cons, ← hpr.2]
    omega
  | case9 _ _ _ _ rest _ _ _ _ ih =>
    obtain ⟨p, hp, hpr⟩ := Option.map_eq_some_iff.mp h
    have hlt := ih hp
    simp only [Prod.mk.injEq] at hpr
    simp only [List.length_cons, ← hpr.2]
    omega
  | case11 _ rest _ _ _ ih =>
    obtain ⟨p, hp, hpr⟩ := Option.map_eq_some_iff.mp h
    have hlt := ih hp
    simp only [Prod.mk.injEq] at hpr
    simp only [List.length_cons, ← hpr.2]
    omega
  | case13 _ rest _ _ _ _ ih =>
    obtain ⟨p, hp, hpr⟩ := Option.map_eq_some_iff.mp h
    have hlt := ih hp
    simp only [Prod.mk.injEq] at hpr
    simp only [List.length_cons, ← hpr.2]
    omega
  | _ => cases h

theorem parseAtom_length {s r : List Char} {v : Json} (h : parseAtom s = some (v, r)) : r.length < s.length := by
  obtain ⟨t, rfl, -, hne⟩ := parseAtom_consumes h
  have hpos := List.length_pos_iff.mpr hne
  rw [List.length_append]
  omega

theorem expect_eq_some {c : Char} {s r : List Char} (h : expect c s = some r) : s = c :: r := by
  cases s with
  | nil => cases h
  | cons d rest =>
    rw [expect] at h
    split at h
    · next hd => rw [hd, Option.some.inj h]
    · cases h

theorem parse_length (fuel : Nat) :
    (∀ s x, parseValue fuel s = some x → x.2.length < s.length)
      ∧ (∀ s x, parseMembers fuel s = some x → x.2.length < s.length)
      ∧ ∀ s x, parseItems fuel s = some x → x.2.length < s.length := by
  induction fuel with
  | zero => simp [parseValue, parseMembers, parseItems]
  | succ fuel ih =>
    obtain ⟨ihv, ihm, ihi⟩ := ih
    refine ⟨?_, ?_, ?_⟩
    · intro s x h
      rw [parseValue.eq_def] at h
      simp only at h
      split at h
      · obtain ⟨p, hp, rfl⟩ := Option.map_eq_some_iff.mp h
        exact (scanString_length hp).trans (by simp)
      · next rest =>
        have hws := skipWs_length rest
        split at h
        · next r hr =>
          rw [hr, List.length_cons] at hws
          obtain rfl := Option.some.inj h
          simp only [List.length_cons]
          omega
        · obtain ⟨p, hp, rfl⟩ := Option.map_eq_some_iff.mp h
          have hlt := ihm _ _ hp
          simp only [List.length_cons]
          omega
      · next rest =>
        have hws := skipWs_length rest
        split at h
        · next r hr =>
          rw [hr, List.length_cons] at hws
          obtain rfl := Option.some.inj h
          simp only [List.length_cons]
          omega
        · obtain ⟨p, hp, rfl⟩ := Option.map_eq_some_iff.mp h
          have hlt := ihi _ _ hp
          simp only [List.length_cons]
          omega
      · exact parseAtom_length h
    · intro s x h
      rw [parseMembers.eq_def] at h
      simp only [Option.bind_eq_bind, Option.bind_eq_some_iff] at h
      obtain ⟨r0, h0, ⟨k, r1⟩, h1, r2, h2, ⟨v, r3⟩, h3, h4⟩ := h
      obtain rfl := expect_eq_some h0
      have hkey := scanString_length h1
      have hws1 := skipWs_length r1
      rw [expect_eq_some h2, List.length_cons] at hws1
      have hws2 := skipWs_length r2
      have hvalue := ihv _ _ h3
      have hws3 := skipWs_length r3
      simp only at hvalue hws3
      rw [List.length_cons]
      split at h4
      · next r4 hr4 =>
        rw [hr4, List.length_cons] at hws3
        obtain rfl := Option.some.inj h4
        simp only
        omega
      · next r4 hr4 =>
        rw [hr4, List.length_cons] at hws3
        obtain ⟨p, hp, rfl⟩ := Option.map_eq_some_iff.mp h4
        have hlt := ihm _ _ hp
        have hws4 := skipWs_length r4
        simp only
        omega
      · cases h4
    · intro s x h
      rw [parseItems.eq_def] at h
      simp only [Option.bind_eq_bind, Option.bind_eq_some_iff] at h
      obtain ⟨⟨v, r1⟩, h1, h2⟩ := h
      have hvalue := ihv _ _ h1
      have hws1 := skipWs_length r1
      simp only at hvalue hws1
      split at h2
      · next r2 hr2 =>
        rw [hr2, List.length_cons] at hws1
        obtain rfl := Option.some.inj h2
        simp only
        omega
      · next r2 hr2 =>
        rw [hr2, List.length_cons] at hws1
        obtain ⟨p, hp, rfl⟩ := Option.map_eq_some_iff.mp h2
        have hlt := ihi _ _ hp
        have hws2 := skipWs_length r2
        simp only
        omega
      · cases h2

theorem parse_enough (fuel : Nat) :
    (∀ s x, parseValue fuel s = some x → ∀ g, s.length < g + x.2.length → parseValue g s = some x)
      ∧ (∀ s x, parseMembers fuel s = some x → ∀ g, s.length < g + x.2.length → parseMembers g s = some x)
      ∧ ∀ s x, parseItems fuel s = some x → ∀ g, s.length < g + x.2.length → parseItems g s = some x := by
  induction fuel with
  | zero => simp [parseValue, parseMembers, parseItems]
  | succ fuel ih =>
    obtain ⟨ihv, ihm, ihi⟩ := ih
    obtain ⟨hlv, hlm, hli⟩ := parse_length fuel
    refine ⟨?_, ?_, ?_⟩
    · intro s x h g hg
      have hlt := (parse_length (fuel + 1)).1 s x h
      obtain ⟨g, rfl⟩ : ∃ g', g = g' + 1 := ⟨g - 1, by omega⟩
      rw [parseValue.eq_def] at h ⊢
      simp only at h ⊢
      split at h
      · exact h
      · next rest =>
        have hws := skipWs_length rest
        rw [List.length_cons] at hg
        split at h
        · exact h
        · obtain ⟨p, hp, rfl⟩ := Option.map_eq_some_iff.mp h
          rw [ihm _ _ hp g (by simp only at hg; omega)]
          rfl
      · next rest =>
        have hws := skipWs_length rest
        rw [List.length_cons] at hg
        split at h
        · exact h
        · obtain ⟨p, hp, rfl⟩ := Option.map_eq_some_iff.mp h
          rw [ihi _ _ hp g (by simp only at hg; omega)]
          rfl
      · exact h
    · intro s x h g hg
      have hlt := (parse_length (fuel + 1)).2.1 s x h
      obtain ⟨g, rfl⟩ : ∃ g', g = g' + 1 := ⟨g - 1, by omega⟩
      rw [parseMembers.eq_def] at h ⊢
      simp only [Option.bind_eq_bind, Option.bind_eq_some_iff] at h ⊢
      obtain ⟨r0, h0, ⟨k, r1⟩, h1, r2, h2, ⟨v, r3⟩, h3, h4⟩ := h
      have hkey := scanString_length h1
      have hws1 := skipWs_length r1
      rw [expect_eq_some h2, List.length_cons] at hws1
      have hws2 := skipWs_length r2
      have hvalue := hlv _ _ h3
      have hws3 := skipWs_length r3
      have hs := congrArg List.length (expect_eq_some h0)
      rw [List.length_cons] at hs
      simp only at hvalue hws3
      have hmore : x.2.length < r3.length := by
        split at h4
        · next r4 hr4 =>
          rw [hr4, List.length_cons] at hws3
          obtain rfl := Option.some.inj h4
          simp only
          omega
        · next r4 hr4 =>
          rw [hr4, List.length_cons] at hws3
          obtain ⟨p, hp, rfl⟩ := Option.map_eq_some_iff.mp h4
          have hp' := hlm _ _ hp
          have hws4 := skipWs_length r4
          simp only
          omega
        · cases h4
      refine ⟨r0, h0, (k, r1), h1, r2, h2, (v, r3), ihv _ _ h3 g (by simp only; omega), ?_⟩
      split at h4
      · exact h4
      · next r4 hr4 =>
        rw [hr4, List.length_cons] at hws3
        obtain ⟨p, hp, rfl⟩ := Option.map_eq_some_iff.mp h4
        have hws4 := skipWs_length r4
        rw [ihm _ _ hp g (by simp only at hg; omega)]
        rfl
      · exact h4
    · intro s x h g hg
      have hlt := (parse_length (fuel + 1)).2.2 s x h
      obtain ⟨g, rfl⟩ : ∃ g', g = g' + 1 := ⟨g - 1, by omega⟩
      rw [parseItems.eq_def] at h ⊢
      simp only [Option.bind_eq_bind, Option.bind_eq_some_iff] at h ⊢
      obtain ⟨⟨v, r1⟩, h1, h2⟩ := h
      have hvalue := hlv _ _ h1
      have hws1 := skipWs_length r1
      simp only at hvalue hws1
      have hmore : x.2.length < r1.length := by
        split at h2
        · next r2 hr2 =>
          rw [hr2, List.length_cons] at hws1
          obtain rfl := Option.some.inj h2
          simp only
          omega
        · next r2 hr2 =>
          rw [hr2, List.length_cons] at hws1
          obtain ⟨p, hp, rfl⟩ := Option.map_eq_some_iff.mp h2
          have hp' := hli _ _ hp
          have hws2 := skipWs_length r2
          simp only
          omega
        · cases h2
      refine ⟨(v, r1), ihv _ _ h1 g (by simp only; omega), ?_⟩
      split at h2
      · exact h2
      · next r2 hr2 =>
        rw [hr2, List.length_cons] at hws1
        obtain ⟨p, hp, rfl⟩ := Option.map_eq_some_iff.mp h2
        have hws2 := skipWs_length r2
        rw [ihi _ _ hp g (by simp only at hg; omega)]
        rfl
      · exact h2

/-! ## 2. A line break behind -/

/-- What was read, with a line break behind what is left. -/
def breakBehind {α : Type} (p : α × List Char) : α × List Char := (p.1, p.2 ++ ['\n'])

theorem map_breakBehind {α β : Type} (x : Option (α × List Char)) (f : α → β) :
    (x.map breakBehind).map (fun p => (f p.1, p.2)) = (x.map fun p => (f p.1, p.2)).map breakBehind := by
  cases x with
  | none => rfl
  | some p => rfl

theorem skipWs_newline (s : List Char) :
    skipWs (s ++ ['\n']) = if skipWs s = [] then [] else skipWs s ++ ['\n'] := by
  induction s with
  | nil => rfl
  | cons c rest ih =>
    rw [List.cons_append, skipWs, skipWs]
    split
    · exact ih
    · simp

theorem expect_newline {c : Char} (hc : c ≠ '\n') (s : List Char) :
    expect c (s ++ ['\n']) = (expect c s).map (· ++ ['\n']) := by
  cases s with
  | nil => simp [expect, hc.symm]
  | cons d rest =>
    rw [List.cons_append, expect, expect]
    split
    · rfl
    · rfl

theorem isPrefixOf?_newline {l : List Char} (h : '\n' ∉ l) (s : List Char) :
    l.isPrefixOf? (s ++ ['\n']) = (l.isPrefixOf? s).map (· ++ ['\n']) := by
  induction l generalizing s with
  | nil => rfl
  | cons a l ih =>
    rw [List.mem_cons, not_or] at h
    cases s with
    | nil => simp [List.isPrefixOf?, Ne.symm h.1]
    | cons b s =>
      rw [List.cons_append, List.isPrefixOf?, List.isPrefixOf?]
      split
      · exact ih h.2 s
      · rfl

theorem stop_newline : Stop ['\n'] := stop_cons (by decide)

theorem scanNumber_newline (s : List Char) :
    scanNumber (s ++ ['\n']) = (scanNumber s).map fun p => (p.1, p.2.1, p.2.2.1, p.2.2.2 ++ ['\n']) := by
  cases h : scanNumber s with
  | some p => exact scanNumber_append stop_newline h
  | none =>
    rw [scanNumber] at h
    rw [scanNumber, scanSign_append s _ stop_newline]
    cases hint : scanInt (scanSign s).2 with
    | some p => rw [hint] at h; cases h
    | none =>
      have hnone : scanInt ((scanSign s).2 ++ ['\n']) = none := by
        cases hs : (scanSign s).2 with
        | nil => decide
        | cons c rest =>
          rw [hs, scanInt] at hint
          rw [List.cons_append, scanInt]
          split at hint
          · cases hint
          · next hzero =>
            split at hint
            · cases hint
            · next hdigit => rw [if_neg hzero, if_neg hdigit]
      rw [hnone]
      rfl

theorem parseAtom_newline (s : List Char) : parseAtom (s ++ ['\n']) = (parseAtom s).map breakBehind := by
  have hwords : ∀ l : List (List Char × Json), (∀ p ∈ l, '\n' ∉ p.1) →
      (l.findSome? fun p => (p.1.isPrefixOf? (s ++ ['\n'])).map fun r => (p.2, r))
        = (l.findSome? fun p => (p.1.isPrefixOf? s).map fun r => (p.2, r)).map breakBehind := by
    intro l hl
    induction l with
    | nil => rfl
    | cons p l ih =>
      rw [List.forall_mem_cons] at hl
      rw [List.findSome?_cons, List.findSome?_cons, isPrefixOf?_newline hl.1]
      cases p.1.isPrefixOf? s with
      | some r => rfl
      | none => exact ih hl.2
  have hliterals : ∀ p ∈ literals, '\n' ∉ p.1 := by decide
  rw [parseAtom, parseAtom, hwords literals hliterals]
  cases literals.findSome? fun p => (p.1.isPrefixOf? s).map fun r => (p.2, r) with
  | some r => rfl
  | none =>
    simp only [Option.map_none, parseNumber, scanNumber_newline]
    cases scanNumber s with
    | none => rfl
    | some p =>
      simp only [Option.map_some]
      split
      · rfl
      · split
        · rfl
        · rfl

/-- Four digits are not there where the last one is a line break. -/
theorem hex4_newline (a b c : Char) : hex4 a b c '\n' = none := by
  have hnone : hexVal '\n' = none := by decide
  cases ha : hexVal a with
  | none => simp [hex4, ha]
  | some x =>
    cases hb : hexVal b with
    | none => simp [hex4, ha, hb]
    | some y =>
      cases hc : hexVal c with
      | none => simp [hex4, ha, hb, hc]
      | some z => simp [hex4, ha, hb, hc, hnone]

/-- A pattern that only the line break completes ends with it. -/
theorem newline_split {s t rest : List Char} (h : s ++ ['\n'] = t ++ rest) (hs : ∀ rest', s ≠ t ++ rest') :
    rest = [] := by
  obtain rfl | ⟨rest', x, rfl⟩ := List.eq_nil_or_concat rest
  · rfl
  · rw [List.concat_eq_append, ← List.append_assoc] at h
    exact absurd (List.append_inj' h rfl).1 (hs rest')

theorem scanString_newline (s : List Char) : scanString (s ++ ['\n']) = (scanString s).map breakBehind := by
  fun_induction scanString s with
  | case1 => decide
  | case2 rest => exact scanString_quote _
  | case3 a b c d rest h => simp [scanString, h]
  | case4 a b c d m h hhigh a' b' c' d' rest h' => simp [scanString, h, hhigh, h']
  | case5 a b c d m h hhigh a' b' c' d' rest m' h' hlow ih =>
    simp [scanString, h, hhigh, h', hlow, ih, Function.comp_def, breakBehind]
  | case6 a b c d m h hhigh a' b' c' d' rest m' h' hlow => 
    simp only [List.cons_append, scanString, h, if_pos hhigh, h', if_neg hlow]
    rfl
  | case7 a b c d rest m h hhigh hnot =>
    simp only [List.cons_append, scanString, h, if_pos hhigh]
    split
    · next a' b' c' d' rest' hrest =>
      have hnil : rest' = [] := by
        refine newline_split (t := ['\\', 'u', a', b', c', d']) hrest fun rest'' hs => ?_
        exact hnot a' b' c' d' rest'' hs
      subst hnil
      have hd : d' = '\n' := by
        have hlast := congrArg List.getLast? hrest
        simpa using hlast.symm
      rw [hd, hex4_newline]
      rfl
    · rfl
  | case8 a b c d rest m h hhigh hlow =>
    simp only [List.cons_append, scanString, h, if_neg hhigh, if_pos hlow]
    rfl
  | case9 a b c d rest m h hhigh hlow ih =>
    simp [scanString, h, hhigh, hlow, ih, Function.comp_def, breakBehind]
  | case10 e rest hnot h =>
    by_cases hu : e = 'u'
    · subst hu
      refine scanString_u_bad _ fun a b c d t ht => ?_
      have hnil : t = [] := newline_split (t := [a, b, c, d]) ht fun rest' hs => hnot a b c d rest' rfl hs
      subst hnil
      have hd : d = '\n' := by
        have hlast := congrArg List.getLast? ht
        simpa using hlast.symm
      rw [hd, hex4_newline]
    · rw [List.cons_append, List.cons_append, scanString]
      · rw [h]
        rfl
      · exact fun a b c d t he _ => hu he
  | case11 e rest hnot c h ih =>
    rw [List.cons_append, List.cons_append, scanString_short _ h, ih]
    cases scanString rest with
    | none => rfl
    | some p => rfl
  | case12 c rest hquote hu hescape h =>
    obtain hcontrol | rfl := h
    · have hslash : c ≠ '\\' := by
        rintro rfl
        exact absurd hcontrol (by decide)
      rw [List.cons_append, scanString]
      · rw [if_pos (.inl hcontrol)]
        rfl
      all_goals simp_all
    · cases rest with
      | nil => decide
      | cons e rest => exact absurd rfl (fun he => hescape e rest rfl he)
  | case13 c rest hquote hu hescape h ih =>
    rw [not_or] at h
    rw [List.cons_append, scanString_plain _ hquote h.2 (by omega), ih]
    cases scanString rest with
    | none => rfl
    | some p => rfl

/-- Each parse is the same with a line break behind the text. -/
theorem parse_newline (fuel : Nat) :
    (∀ s, parseValue fuel (s ++ ['\n']) = (parseValue fuel s).map breakBehind)
      ∧ (∀ s, parseMembers fuel (s ++ ['\n']) = (parseMembers fuel s).map breakBehind)
      ∧ ∀ s, parseItems fuel (s ++ ['\n']) = (parseItems fuel s).map breakBehind := by
  induction fuel with
  | zero => simp [parseValue, parseMembers, parseItems]
  | succ fuel ih =>
    obtain ⟨ihv, ihm, ihi⟩ := ih
    have hnone : parseMembers fuel [] = none ∧ parseItems fuel [] = none := by
      cases fuel with
      | zero => exact ⟨rfl, rfl⟩
      | succ fuel =>
        refine ⟨rfl, ?_⟩
        rw [parseItems]
        cases fuel with
        | zero => rfl
        | succ fuel => rfl
    have hempty : parseValue fuel [] = none := by
      cases fuel with
      | zero => rfl
      | succ fuel => rfl
    -- behind white space there is a character, and the line break behind it, or nothing
    have hskip : ∀ r, skipWs r = [] ∧ skipWs (r ++ ['\n']) = []
        ∨ ∃ d t, skipWs r = d :: t ∧ skipWs (r ++ ['\n']) = d :: (t ++ ['\n']) := by
      intro r
      rw [skipWs_newline]
      cases h : skipWs r with
      | nil => exact .inl ⟨rfl, rfl⟩
      | cons d t => exact .inr ⟨d, t, rfl, rfl⟩
    have hmembers : ∀ r, parseMembers fuel (skipWs (r ++ ['\n'])) = (parseMembers fuel (skipWs r)).map breakBehind := by
      intro r
      obtain ⟨h, h'⟩ | ⟨d, t, h, h'⟩ := hskip r
      · rw [h, h', hnone.1]
        rfl
      · rw [h, h']
        exact ihm (d :: t)
    have hitems : ∀ r, parseItems fuel (skipWs (r ++ ['\n'])) = (parseItems fuel (skipWs r)).map breakBehind := by
      intro r
      obtain ⟨h, h'⟩ | ⟨d, t, h, h'⟩ := hskip r
      · rw [h, h', hnone.2]
        rfl
      · rw [h, h']
        exact ihi (d :: t)
    refine ⟨?_, ?_, ?_⟩
    · intro s
      cases s with
      | nil => exact parseAtom_newline []
      | cons c rest =>
        by_cases hquote : c = '"'
        · subst hquote
          rw [List.cons_append, parseValue, parseValue, scanString_newline]
          exact map_breakBehind (scanString rest) fun x => Json.str (String.ofList x)
        by_cases hbrace : c = '{'
        · subst hbrace
          rw [List.cons_append, parseValue, parseValue]
          obtain ⟨h, h'⟩ | ⟨d, t, h, h'⟩ := hskip rest
          · rw [h, h']
            simp only [hnone.1]
            rfl
          · rw [h, h']
            by_cases hd : d = '}'
            · subst hd
              rfl
            · split
              · next hr => exact absurd (List.cons.inj hr).1 hd
              · split
                · next hr => exact absurd (List.cons.inj hr).1 hd
                · rw [← List.cons_append, ihm]
                  exact map_breakBehind _ Json.obj
        by_cases hbracket : c = '['
        · subst hbracket
          rw [List.cons_append, parseValue, parseValue]
          obtain ⟨h, h'⟩ | ⟨d, t, h, h'⟩ := hskip rest
          · rw [h, h']
            simp only [hnone.2]
            rfl
          · rw [h, h']
            by_cases hd : d = ']'
            · subst hd
              rfl
            · split
              · next hr => exact absurd (List.cons.inj hr).1 hd
              · split
                · next hr => exact absurd (List.cons.inj hr).1 hd
                · rw [← List.cons_append, ihi]
                  exact map_breakBehind _ Json.arr
        · have hatom : ∀ t, parseValue (fuel + 1) (c :: t) = parseAtom (c :: t) := by
            intro t
            rw [parseValue]
            · exact fun _ h => hquote (List.cons.inj h).1
            · exact fun _ h => hbrace (List.cons.inj h).1
            · exact fun _ h => hbracket (List.cons.inj h).1
          rw [List.cons_append, hatom, hatom]
          exact parseAtom_newline (c :: rest)
    · intro s
      simp only [parseMembers, expect_newline (by decide : '"' ≠ '\n')]
      cases expect '"' s with
      | none => rfl
      | some r0 =>
        simp only [Option.map_some, Option.bind_eq_bind, Option.bind_some, scanString_newline]
        cases scanString r0 with
        | none => rfl
        | some p =>
          obtain ⟨k, r1⟩ := p
          simp only [Option.map_some, Option.bind_some, breakBehind]
          obtain ⟨h, h'⟩ | ⟨d, t, h, h'⟩ := hskip r1
          · rw [h, h']
            rfl
          rw [h, h', ← List.cons_append, expect_newline (by decide : ':' ≠ '\n')]
          cases expect ':' (d :: t) with
          | none => rfl
          | some r2 =>
            simp only [Option.map_some, Option.bind_some]
            have hvalue : parseValue fuel (skipWs (r2 ++ ['\n'])) = (parseValue fuel (skipWs r2)).map breakBehind := by
              obtain ⟨h, h'⟩ | ⟨d, t, h, h'⟩ := hskip r2
              · rw [h, h', hempty]
                rfl
              · rw [h, h']
                exact ihv (d :: t)
            rw [hvalue]
            cases parseValue fuel (skipWs r2) with
            | none => rfl
            | some p =>
              obtain ⟨v, r3⟩ := p
              simp only [Option.map_some, Option.bind_some, breakBehind]
              obtain ⟨h, h'⟩ | ⟨d, t, h, h'⟩ := hskip r3
              · rw [h, h']
                rfl
              rw [h, h']
              by_cases hd : d = '}'
              · subst hd
                rfl
              by_cases hcomma : d = ','
              · subst hcomma
                simp only [hmembers]
                exact map_breakBehind _ ((String.ofList k, v) :: ·)
              · split
                · next hr => exact absurd (List.cons.inj hr).1 hd
                · next hr => exact absurd (List.cons.inj hr).1 hcomma
                · split
                  · next hr => exact absurd (List.cons.inj hr).1 hd
                  · next hr => exact absurd (List.cons.inj hr).1 hcomma
                  · rfl
    · intro s
      simp only [parseItems, ihv]
      cases parseValue fuel s with
      | none => rfl
      | some p =>
        obtain ⟨v, r⟩ := p
        simp only [Option.map_some, Option.bind_eq_bind, Option.bind_some, breakBehind]
        obtain ⟨h, h'⟩ | ⟨d, t, h, h'⟩ := hskip r
        · rw [h, h']
          rfl
        rw [h, h']
        by_cases hd : d = ']'
        · subst hd
          rfl
        by_cases hcomma : d = ','
        · subst hcomma
          simp only [hitems]
          exact map_breakBehind _ (v :: ·)
        · split
          · next hr => exact absurd (List.cons.inj hr).1 hd
          · next hr => exact absurd (List.cons.inj hr).1 hcomma
          · split
            · next hr => exact absurd (List.cons.inj hr).1 hd
            · next hr => exact absurd (List.cons.inj hr).1 hcomma
            · rfl

theorem loads_newline (s : List Char) : loads (s ++ ['\n']) = loads s := by
  have hvalue : parseValue ((s ++ ['\n']).length + 1) (skipWs (s ++ ['\n']))
      = (parseValue (s.length + 1) (skipWs s)).map breakBehind := by
    have hfuel : parseValue (s.length + 2) (skipWs s) = parseValue (s.length + 1) (skipWs s) := by
      cases h : parseValue (s.length + 2) (skipWs s) with
      | some x =>
        have hlength := skipWs_length s
        exact ((parse_enough _).1 _ _ h (s.length + 1) (by omega)).symm
      | none =>
        cases h' : parseValue (s.length + 1) (skipWs s) with
        | none => rfl
        | some x => rw [parseValue_mono (by omega) h'] at h; cases h
    rw [List.length_append, List.length_singleton, ← hfuel, skipWs_newline]
    split
    · next hs => rw [hs]; rfl
    · exact (parse_newline _).1 _
  rw [loads, loads, hvalue]
  cases parseValue (s.length + 1) (skipWs s) with
  | none => rfl
  | some p =>
    obtain ⟨v, r⟩ := p
    simp only [Option.map_some, breakBehind, skipWs_newline]
    split
    · next hr => simp [hr]
    · next hr => simp [hr]

/-! ## 3. Blank lines -/

/-- The bytes that `bytes.strip` removes. -/
def isAsciiSpace (c : Char) : Bool := c = ' ' || (9 ≤ c.toNat && c.toNat ≤ 13)

theorem isAtomChar_space {c : Char} (h : isAsciiSpace c = true) : isAtomChar c = false := by
  have hsmall : ∀ n ≤ 32, isAtomChar (Char.ofNat n) = false := by decide
  have hle : c.toNat ≤ 32 := by
    simp only [isAsciiSpace, Bool.or_eq_true, Bool.and_eq_true, decide_eq_true_eq] at h
    obtain rfl | h := h
    · decide
    · omega
  rw [← Char.ofNat_toNat c]
  exact hsmall c.toNat hle

theorem parseAtom_not_atom {c : Char} (rest : List Char) (hc : isAtomChar c = false) : parseAtom (c :: rest) = none := by
  cases h : parseAtom (c :: rest) with
  | none => rfl
  | some x =>
    obtain ⟨t, ht, hall, hne⟩ := parseAtom_consumes h
    obtain ⟨d, t, rfl⟩ := List.exists_cons_of_ne_nil hne
    obtain ⟨rfl, -⟩ := List.cons.inj ht
    rw [List.all_cons, Bool.and_eq_true] at hall
    rw [hall.1] at hc
    cases hc

theorem loads_blank {s : List Char} (h : s.all isAsciiSpace = true) : loads s = none := by
  have hnone : ∀ fuel, parseValue fuel (skipWs s) = none := by
    intro fuel
    cases fuel with
    | zero => rfl
    | succ fuel =>
      induction s with
      | nil => rfl
      | cons c rest ih =>
        rw [List.all_cons, Bool.and_eq_true] at h
        rw [skipWs]
        split
        · exact ih h.2
        · rw [parseValue]
          · exact parseAtom_not_atom rest (isAtomChar_space h.1)
          · rintro _ hq
            obtain ⟨rfl, -⟩ := List.cons.inj hq
            exact absurd h.1 (by decide)
          · rintro _ hq
            obtain ⟨rfl, -⟩ := List.cons.inj hq
            exact absurd h.1 (by decide)
          · rintro _ hq
            obtain ⟨rfl, -⟩ := List.cons.inj hq
            exact absurd h.1 (by decide)
  rw [loads, hnone]

end Python
