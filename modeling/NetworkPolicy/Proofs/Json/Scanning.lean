import NetworkPolicy.Proofs.Json.Spelling
import NetworkPolicy.Proofs.Json.Tokens

/-! Scanning undoes spelling: the tokens that a text is read as are just those that it writes. -/
namespace NetworkPolicy.Json

open Text (Symbol ofChars)

namespace Token

/-! ### Tokens before and after -/

theorem start_frame (ts : List Token) (c : Char) : Lexer.start ⟨ts, .between⟩ c =
    ⟨(Lexer.start ⟨[], .between⟩ c).tokens ++ ts, (Lexer.start ⟨[], .between⟩ c).mode⟩ := by
  unfold Lexer.start
  split
  · rfl
  · split
    iterate 11 rfl
    split <;> rfl

theorem inString_frame (ts : List Token) (o : OpenString) (s : Symbol) :
    Lexer.inString ⟨ts, .string o⟩ o s =
      ⟨(Lexer.inString ⟨[], .string o⟩ o s).tokens ++ ts,
        (Lexer.inString ⟨[], .string o⟩ o s).mode⟩ := by
  unfold Lexer.inString
  split
  iterate 3 rfl
  · split <;> rfl
  · rfl
  · split <;> rfl
  · rfl
  · dsimp only
    split
    · rfl
    · split <;> rfl

/-- A step leaves the tokens before it alone, and does not depend on them. -/
theorem step_frame (ts : List Token) (m : Mode) (s : Symbol) : Lexer.step ⟨ts, m⟩ s =
    ⟨(Lexer.step ⟨[], m⟩ s).tokens ++ ts, (Lexer.step ⟨[], m⟩ s).mode⟩ := by
  cases m with
  | between =>
    cases s with
    | char c => exact start_frame ts c
    | stray bytes => rfl
  | string o => exact inString_frame ts o s
  | number o =>
    simp only [Lexer.step]
    split
    · rfl
    · split
      · cases s with
        | char c =>
          simp only [Lexer.emit]
          rw [start_frame, start_frame [_]]
          simp
        | stray bytes => rfl
      · rfl
  | word rest t =>
    cases rest with
    | nil => rfl
    | cons c rest =>
      simp only [Lexer.step]
      split
      · split <;> rfl
      · rfl
  | stopped => rfl

/-- The tokens of what is left of a text, the first one being under way. -/
def tokensFrom (m : Mode) (ss : List Symbol) : List Token := (ss.foldl Lexer.step ⟨[], m⟩).finish

theorem foldl_frame (ts : List Token) (m : Mode) (ss : List Symbol) :
    ss.foldl Lexer.step ⟨ts, m⟩ =
      ⟨(ss.foldl Lexer.step ⟨[], m⟩).tokens ++ ts, (ss.foldl Lexer.step ⟨[], m⟩).mode⟩ := by
  induction ss generalizing ts m with
  | nil => rfl
  | cons s ss ih =>
    rw [List.foldl_cons, List.foldl_cons, step_frame, ih, ← List.append_assoc]
    generalize Lexer.step ⟨[], m⟩ s = l
    rw [ih l.tokens l.mode]

theorem finish_frame (ts : List Token) (l : Lexer) :
    Lexer.finish ⟨l.tokens ++ ts, l.mode⟩ = ts.reverse ++ l.finish := by
  rcases l with ⟨us, m⟩
  cases m <;> simp [Lexer.finish]

theorem tokensFrom_foldl (l : Lexer) (ss : List Symbol) :
    (ss.foldl Lexer.step l).finish = l.tokens.reverse ++ tokensFrom l.mode ss := by
  rw [show l = ⟨l.tokens, l.mode⟩ from rfl, foldl_frame, finish_frame]
  rfl

theorem tokensFrom_cons (m : Mode) (s : Symbol) (ss : List Symbol) : tokensFrom m (s :: ss) =
    (Lexer.step ⟨[], m⟩ s).tokens.reverse ++ tokensFrom (Lexer.step ⟨[], m⟩ s).mode ss :=
  tokensFrom_foldl _ ss

theorem tokensFrom_append {m m' : Mode} {ts : List Token} {ss : List Symbol}
    (h : ss.foldl Lexer.step ⟨[], m⟩ = ⟨ts, m'⟩) (rest : List Symbol) :
    tokensFrom m (ss ++ rest) = ts.reverse ++ tokensFrom m' rest := by
  rw [tokensFrom, List.foldl_append, h, tokensFrom_foldl]

/-! ### Numbers -/

theorem readAll_ofChars (l : Lexer) (cs : List Char) :
    (ofChars cs).foldl Lexer.step l = l.readAll cs := rfl

/-- Adds digits, the last one first, to the part of the number that was written last. -/
def OpenNumber.gather (o : OpenNumber) (ds : List Nat) : OpenNumber :=
  match o.stage with
  | .fraction => { o with numeral := { o.numeral with fraction := ds ++ o.numeral.fraction } }
  | .exponent => { o with numeral := { o.numeral with exponent := ds ++ o.numeral.exponent } }
  | _ => { o with numeral := { o.numeral with whole := ds ++ o.numeral.whole } }

variable {n : Numeral} {stage : Stage} {d : Nat} {ds : List Nat} {cs : List Char}

theorem step_number {o o' : OpenNumber} {c : Char} (h : o.extend? c = some o') (ts : List Token) :
    Lexer.step ⟨ts, .number o⟩ (.char c) = ⟨ts, .number o'⟩ := by
  simp only [Lexer.step, Symbol.char?, Option.bind_some, h]

theorem extend?_digit {o : OpenNumber} (hd : d < 10)
    (h : o.stage = .whole ∨ o.stage = .fraction ∨ o.stage = .exponent) :
    o.extend? (Nat.digitChar d) = some (o.gather [d]) := by
  rcases o with ⟨n, stage⟩
  have hdigit := digit?_digitChar hd
  rcases h with rfl | rfl | rfl <;> simp [OpenNumber.extend?, hdigit, OpenNumber.gather]

theorem readAll_digitChars {o : OpenNumber} (hds : ∀ d ∈ ds, d < 10)
    (h : o.stage = .whole ∨ o.stage = .fraction ∨ o.stage = .exponent) (ts : List Token) :
    Lexer.readAll ⟨ts, .number o⟩ (Numeral.digitChars ds) =
      ⟨ts, .number (o.gather ds.reverse)⟩ := by
  induction ds generalizing o with
  | nil =>
    rcases o with ⟨n, stage⟩
    rcases h with rfl | rfl | rfl <;> rfl
  | cons d ds ih =>
    have hstep := step_number (extend?_digit (hds d List.mem_cons_self) h) ts
    have hstage : (o.gather [d]).stage = o.stage := by
      rcases o with ⟨n, stage⟩
      rcases h with rfl | rfl | rfl <;> rfl
    have hgather : (o.gather [d]).gather ds.reverse = o.gather (d :: ds).reverse := by
      rcases o with ⟨n, stage⟩
      rcases h with rfl | rfl | rfl <;> simp [OpenNumber.gather]
    rw [Numeral.digitChars, List.map_cons, Lexer.readAll_cons, hstep, ← Numeral.digitChars,
      ih (fun e he => hds e (List.mem_cons_of_mem _ he)) (hstage ▸ h), hgather]

/-- The first digit opens the next part of the number, and the others go on with it. -/
theorem readAll_part {o o' : OpenNumber} (hds : ∀ e ∈ d :: ds, e < 10)
    (h : o'.stage = .whole ∨ o'.stage = .fraction ∨ o'.stage = .exponent)
    (hfirst : o.extend? (Nat.digitChar d) = some (o'.gather [d])) (ts : List Token) :
    Lexer.readAll ⟨ts, .number o⟩ (Numeral.digitChars (d :: ds)) =
      ⟨ts, .number (o'.gather (d :: ds).reverse)⟩ := by
  rw [← readAll_digitChars hds h, Numeral.digitChars, List.map_cons, Lexer.readAll_cons,
    Lexer.readAll_cons, step_number hfirst,
    step_number (extend?_digit (hds d List.mem_cons_self) h)]

theorem readAll_unsigned (h : Numeral.WholeSpelt false ds cs) :
    ∃ stage, (stage = .zero ∨ stage = .whole) ∧ ∀ ts negative,
      Lexer.readAll ⟨ts, .number ⟨{ negative := negative }, .sign⟩⟩ cs =
        ⟨ts, .number ⟨{ negative := negative, whole := ds.reverse }, stage⟩⟩ := by
  cases h with
  | zero => exact ⟨.zero, Or.inl rfl, fun _ _ => rfl⟩
  | @digits d ds hpos hds =>
    refine ⟨.whole, Or.inr rfl, fun ts negative => ?_⟩
    have hdigit := digit?_digitChar (hds d List.mem_cons_self)
    have hfirst : OpenNumber.extend? ⟨{ negative := negative }, .sign⟩ (Nat.digitChar d) =
        some (OpenNumber.gather ⟨{ negative := negative }, .whole⟩ [d]) := by
      cases d with
      | zero => exact absurd hpos (Nat.lt_irrefl 0)
      | succ d => simp [OpenNumber.extend?, hdigit, OpenNumber.gather]
    rw [readAll_part hds (Or.inl rfl) hfirst]
    simp [OpenNumber.gather]

theorem exists_digit_of_unsigned (h : Numeral.WholeSpelt false ds cs) :
    ∃ d rest, d < 10 ∧ cs = Nat.digitChar d :: rest := by
  cases h with
  | zero => exact ⟨0, [], by decide, rfl⟩
  | @digits d ds _ hds => exact ⟨d, Numeral.digitChars ds, hds d List.mem_cons_self, rfl⟩

theorem readAll_whole {negative : Bool} (h : Numeral.WholeSpelt negative ds cs) :
    ∃ stage, (stage = .zero ∨ stage = .whole) ∧ ∀ ts,
      Lexer.readAll ⟨ts, .between⟩ cs =
        ⟨ts, .number ⟨{ negative := negative, whole := ds.reverse }, stage⟩⟩ := by
  cases negative with
  | false =>
    obtain ⟨stage, hstage, hread⟩ := readAll_unsigned h
    refine ⟨stage, hstage, fun ts => ?_⟩
    obtain ⟨d, rest, hd, rfl⟩ := exists_digit_of_unsigned h
    rw [← hread ts false, Lexer.readAll_cons, Lexer.readAll_cons, ← start_digit ts hd]
    rfl
  | true =>
    cases h with
    | minus h =>
      obtain ⟨stage, hstage, hread⟩ := readAll_unsigned h
      exact ⟨stage, hstage, fun ts => hread ts true⟩

theorem readAll_fraction {fs : List Nat} (h : Numeral.FractionSpelt fs cs)
    (hstage : stage = .zero ∨ stage = .whole) (hn : n.fraction = [] ∧ n.integral = true) :
    ∃ stage', (stage' = .zero ∨ stage' = .whole ∨ stage' = .fraction) ∧ ∀ ts,
      Lexer.readAll ⟨ts, .number ⟨n, stage⟩⟩ cs = ⟨ts, .number
        ⟨{ n with fraction := fs.reverse, integral := fs.isEmpty }, stage'⟩⟩ := by
  rcases n with ⟨negative, whole, fraction, exponentNegative, exponent, integral⟩
  obtain ⟨rfl, rfl⟩ := hn
  cases h with
  | none => exact ⟨stage, hstage.imp_right Or.inl, fun ts => rfl⟩
  | point hne hfs =>
    cases fs with
    | nil => exact absurd rfl hne
    | cons d fs =>
      refine ⟨.fraction, Or.inr (Or.inr rfl), fun ts => ?_⟩
      have hdigit := digit?_digitChar (hfs d List.mem_cons_self)
      have hpoint : OpenNumber.extend?
          ⟨⟨negative, whole, [], exponentNegative, exponent, true⟩, stage⟩ '.' =
          some ⟨⟨negative, whole, [], exponentNegative, exponent, false⟩, .point⟩ := by
        rcases hstage with rfl | rfl <;> rfl
      have hfirst : OpenNumber.extend?
          ⟨⟨negative, whole, [], exponentNegative, exponent, false⟩, .point⟩ (Nat.digitChar d) =
          some (OpenNumber.gather
            ⟨⟨negative, whole, [], exponentNegative, exponent, false⟩, .fraction⟩ [d]) := by
        simp [OpenNumber.extend?, hdigit, OpenNumber.gather]
      rw [Lexer.readAll_cons, step_number hpoint, readAll_part hfs (Or.inr (Or.inl rfl)) hfirst]
      simp [OpenNumber.gather]

theorem extend?_opensExponent {mark : Char} (hmark : mark ∈ ['e', 'E'])
    (hstage : stage = .zero ∨ stage = .whole ∨ stage = .fraction) :
    OpenNumber.extend? ⟨n, stage⟩ mark = some ⟨{ n with integral := false }, .mark⟩ := by
  rcases hstage with rfl | rfl | rfl
  all_goals
    rcases List.mem_pair.mp hmark with rfl | rfl
    all_goals rfl

theorem readAll_sign {negative : Bool} {sign : List Char}
    (hsign : (negative, sign) ∈ [(false, []), (false, ['+']), (true, ['-'])])
    (hn : n.exponentNegative = false) :
    ∃ stage', (stage' = .mark ∨ stage' = .markSign) ∧ ∀ ts,
      Lexer.readAll ⟨ts, .number ⟨n, .mark⟩⟩ sign =
        ⟨ts, .number ⟨{ n with exponentNegative := negative }, stage'⟩⟩ := by
  have hplus : { n with exponentNegative := false } = n := by rw [← hn]
  simp only [List.mem_cons, Prod.mk.injEq, List.not_mem_nil, or_false] at hsign
  rcases hsign with ⟨rfl, rfl⟩ | ⟨rfl, rfl⟩ | ⟨rfl, rfl⟩
  · exact ⟨.mark, Or.inl rfl, fun ts => by rw [hplus]; rfl⟩
  · exact ⟨.markSign, Or.inr rfl, fun ts => by rw [hplus]; rfl⟩
  · exact ⟨.markSign, Or.inr rfl, fun ts => rfl⟩

theorem readAll_exponent {negative : Bool} {es : List Nat}
    (h : Numeral.ExponentSpelt negative es cs)
    (hstage : stage = .zero ∨ stage = .whole ∨ stage = .fraction)
    (hn : n.exponent = [] ∧ n.exponentNegative = false) :
    ∃ stage', stage'.complete = true ∧ ∀ ts,
      Lexer.readAll ⟨ts, .number ⟨n, stage⟩⟩ cs = ⟨ts, .number
        ⟨{ n with
          exponent := es.reverse, exponentNegative := negative,
          integral := n.integral && es.isEmpty }, stage'⟩⟩ := by
  rcases n with ⟨numberNegative, whole, fraction, exponentNegative, exponent, integral⟩
  obtain ⟨rfl, rfl⟩ := hn
  cases h with
  | none =>
    refine ⟨stage, ?_, fun ts => ?_⟩
    · rcases hstage with rfl | rfl | rfl <;> rfl
    · rw [List.isEmpty_nil, Bool.and_true]
      rfl
  | @mark negative mark sign es hmark hsign hne hes =>
    cases es with
    | nil => exact absurd rfl hne
    | cons d es =>
      have hdigit := digit?_digitChar (hes d List.mem_cons_self)
      have hopen := extend?_opensExponent (n := ⟨numberNegative, whole, fraction, false, [], integral⟩)
        hmark hstage
      obtain ⟨stage', hstage', hsigned⟩ := readAll_sign
        (n := ⟨numberNegative, whole, fraction, false, [], false⟩) hsign rfl
      have hfirst : OpenNumber.extend?
          ⟨⟨numberNegative, whole, fraction, negative, [], false⟩, stage'⟩ (Nat.digitChar d) =
          some (OpenNumber.gather
            ⟨⟨numberNegative, whole, fraction, negative, [], false⟩, .exponent⟩ [d]) := by
        rcases hstage' with rfl | rfl <;> simp [OpenNumber.extend?, hdigit, OpenNumber.gather]
      refine ⟨.exponent, rfl, fun ts => ?_⟩
      rw [List.cons_append, Lexer.readAll_cons, step_number hopen, Lexer.readAll_append, hsigned,
        readAll_part hes (Or.inr (Or.inr rfl)) hfirst]
      simp [OpenNumber.gather]

/-- A number is read as it is spelt; it may still go on. -/
theorem readAll_number (h : n.Spelt cs) : ∃ o : OpenNumber, o.stage.complete = true ∧
    o.close = .number n ∧ ∀ ts, Lexer.readAll ⟨ts, .between⟩ cs = ⟨ts, .number o⟩ := by
  cases h with
  | @mk negative exponentNegative whole fraction exponent _ _ _ hwhole hfraction hexponent =>
    obtain ⟨stage, hstage, hwhole⟩ := readAll_whole hwhole
    obtain ⟨stage', hstage', hfraction⟩ := readAll_fraction
      (n := { negative := negative, whole := whole.reverse }) hfraction hstage ⟨rfl, rfl⟩
    obtain ⟨stage'', hcomplete, hexponent⟩ := readAll_exponent
      (n := { negative := negative, whole := whole.reverse, fraction := fraction.reverse,
              integral := fraction.isEmpty }) hexponent hstage' ⟨rfl, rfl⟩
    refine ⟨⟨⟨negative, whole.reverse, fraction.reverse, exponentNegative, exponent.reverse,
      fraction.isEmpty && exponent.isEmpty⟩, stage''⟩, hcomplete, ?_, fun ts => ?_⟩
    · simp [OpenNumber.close]
    · rw [Lexer.readAll_append, Lexer.readAll_append, hwhole, hfraction, hexponent]

/-! ### Strings -/

theorem hexDigit?_of_spelt {c : Char} (h : HexSpelt d c) : Number.hexDigit? c = some d := by
  obtain ⟨hd, rfl | rfl⟩ := h
  · exact Number.hexDigit?_digitChar hd
  · rw [Number.hexDigit?_toUpper, Number.hexDigit?_digitChar hd]

theorem utf8Size_of_spelt {c : Char} (h : HexSpelt d c) : c.utf8Size = 1 := by
  obtain ⟨hd, rfl | rfl⟩ := h
  · exact utf8Size_digitChar hd
  · revert d
    decide

theorem escaped?_of_mem {e c : Char} (h : (e, c) ∈ escapes) : escaped? e = some c := by
  simp only [escapes, List.mem_cons, Prod.mk.injEq, List.not_mem_nil, or_false] at h
  rcases h with ⟨rfl, rfl⟩ | ⟨rfl, rfl⟩ | ⟨rfl, rfl⟩ | ⟨rfl, rfl⟩ | ⟨rfl, rfl⟩ | ⟨rfl, rfl⟩ |
    ⟨rfl, rfl⟩ | ⟨rfl, rfl⟩ <;> rfl

theorem step_hex {c : Char} (hc : HexSpelt d c) (o : OpenString) {taken : Nat} (value : Nat)
    (htaken : taken + 1 < 4) (ts : List Token) :
    Lexer.step ⟨ts, .string { o with escape := .hex taken (some value) }⟩ (.char c) =
      ⟨ts, .string { o with escape := .hex (taken + 1) (some (value * 16 + d)) }⟩ := by
  simp [Lexer.step, Lexer.inString, Symbol.char?, Symbol.width, utf8Size_of_spelt hc,
    hexDigit?_of_spelt hc, htaken]

theorem step_lastHex {c : Char} (hc : HexSpelt d c) (o : OpenString) (value : Nat)
    (ts : List Token) :
    Lexer.step ⟨ts, .string { o with escape := .hex 3 (some value) }⟩ (.char c) =
      ⟨ts, .string (o.pushUnit (value * 16 + d))⟩ := by
  simp [Lexer.step, Lexer.inString, Symbol.char?, Symbol.width, utf8Size_of_spelt hc,
    hexDigit?_of_spelt hc]
  rfl

theorem readAll_unit {o : OpenString} {u : Nat} (h : UnitSpelt u cs) (ho : o.escape = .none)
    (ts : List Token) :
    Lexer.readAll ⟨ts, .string o⟩ cs = ⟨ts, .string (o.pushUnit u)⟩ := by
  obtain ⟨h₁, h₂, h₃, h₄⟩ := h
  have hopen : ∀ rest, Lexer.readAll ⟨ts, .string o⟩ ('\\' :: 'u' :: rest) =
      Lexer.readAll ⟨ts, .string { o with escape := .hex 0 (some 0) }⟩ rest := by
    rcases o with ⟨chars, fault, hasStray, surrogate, escape⟩
    cases ho
    exact fun rest => rfl
  rw [hopen, Lexer.readAll_cons, step_hex h₁ o 0 (by decide), Lexer.readAll_cons,
    step_hex h₂ o _ (by decide), Lexer.readAll_cons, step_hex h₃ o _ (by decide),
    Lexer.readAll_cons, step_lastHex h₄, Nat.zero_mul, Nat.zero_add]
  rfl

/-- A character is read from whatever it is spelt as. -/
theorem readAll_char {c : Char} (h : CharSpelt c cs) (ts : List Token) (done : List Char) :
    Lexer.readAll ⟨ts, .string { chars := done }⟩ cs = ⟨ts, .string { chars := c :: done }⟩ := by
  cases h with
  | plain hquote hbackslash hcontrol =>
    exact inString_plain ts done hquote hbackslash (Char.not_lt.mpr hcontrol)
  | @letter e c he =>
    have hletter := escaped?_of_mem he
    have hu : e ≠ 'u' := by
      rintro rfl
      exact nomatch hletter
    have hopen : Lexer.step ⟨ts, .string { chars := done }⟩ (.char '\\') =
        ⟨ts, .string { chars := done, escape := .backslash }⟩ := rfl
    rw [Lexer.readAll_cons, hopen, Lexer.readAll_cons]
    simp only [Lexer.step, Lexer.inString, hletter]
    rfl
  | @unit u _ hunit hplain =>
    have hlow : ¬ (0xDC00 ≤ u ∧ u ≤ 0xDFFF) := by omega
    have hhigh : ¬ (0xD800 ≤ u ∧ u ≤ 0xDBFF) := by omega
    rw [readAll_unit hunit rfl]
    simp [OpenString.pushUnit, hlow, hhigh, OpenString.push]
  | @pair high low _ _ hhigh hlow h₁ h₂ h₃ h₄ =>
    have hnot : ¬ (0xDC00 ≤ high ∧ high ≤ 0xDFFF) := by omega
    have hwait : OpenString.pushUnit { chars := done } high =
        { chars := done, surrogate := some high } := by
      simp [OpenString.pushUnit, hnot, h₁, h₂]
    rw [Lexer.readAll_append, readAll_unit hhigh rfl, hwait, readAll_unit hlow rfl]
    simp [OpenString.pushUnit, h₃, h₄]

theorem readAll_chars {cs ds : List Char} (h : CharsSpelt cs ds) (ts : List Token)
    (done : List Char) : Lexer.readAll ⟨ts, .string { chars := done }⟩ ds =
      ⟨ts, .string { chars := cs.reverse ++ done }⟩ := by
  induction h generalizing done with
  | nil => rfl
  | cons hc _ ih =>
    rw [Lexer.readAll_append, readAll_char hc, ih, List.reverse_cons, List.append_assoc]
    rfl

/-! ### Whole texts -/

/-- A token that is no number ends where its spelling does. -/
theorem foldl_token {t : Token} {ss : List Symbol} (h : t.Spelt ss) :
    ¬ t.IsNumber ∧ ss.foldl Lexer.step ⟨[], .between⟩ = ⟨[t], .between⟩ ∨
    ∃ n o, t = .number n ∧ o.stage.complete = true ∧ o.close = t ∧
      ss.foldl Lexer.step ⟨[], .between⟩ = ⟨[], .number o⟩ := by
  cases h with
  | number hn =>
    obtain ⟨o, hcomplete, hclose, hread⟩ := readAll_number hn
    exact Or.inr ⟨_, o, rfl, hcomplete, hclose, hread []⟩
  | @text s cs hcs =>
    refine Or.inl ⟨fun ⟨_, h⟩ => (nomatch h), ?_⟩
    have hopen : Lexer.step ⟨[], .between⟩ (.char '"') = ⟨[], .string {}⟩ := rfl
    have hclose : ∀ done, Lexer.readAll ⟨[], .string { chars := done }⟩ ['"'] =
        ⟨[.string (.text (String.ofList done.reverse))], .between⟩ := fun _ => rfl
    rw [readAll_ofChars, List.cons_append, Lexer.readAll_cons, hopen, Lexer.readAll_append,
      readAll_chars hcs, hclose, List.append_nil, List.reverse_reverse, String.ofList_toList]
  | faulty hread => exact Or.inl ⟨fun ⟨_, h⟩ => (nomatch h), hread⟩
  | _ => exact Or.inl ⟨fun ⟨_, h⟩ => (nomatch h), rfl⟩

theorem digit?_eq_some {c : Char} (h : Number.digit? c = some d) :
    d < 10 ∧ c = Nat.digitChar d := by
  unfold Number.digit? at h
  split at h
  · rename_i hc
    obtain rfl := Option.some.inj h
    have hlow : 48 ≤ c.toNat := hc.1
    have hhigh : c.toNat ≤ 57 := hc.2
    have hlt : c.toNat - 48 < 10 := by omega
    refine ⟨hlt, Char.toNat_inj.mp ?_⟩
    rw [Nat.toNat_digitChar_of_lt_ten hlt]
    omega
  · cases h

theorem extend?_eq_none {o : OpenNumber} (ho : o.stage.complete = true) {c : Char}
    (hc : c ∉ ['.', 'e', 'E']) (hdigit : Number.digit? c = none) : o.extend? c = none := by
  rcases o with ⟨n, stage⟩
  simp only [List.mem_cons, List.not_mem_nil, or_false, not_or] at hc
  cases stage with
  | zero | whole | fraction | exponent => simp [OpenNumber.extend?, hdigit, hc]
  | sign | point | mark | markSign => exact absurd ho Bool.false_ne_true

/-- The number may end before the symbol. -/
def endsBefore (o : OpenNumber) (s : Symbol) : Bool :=
  o.stage.complete && !(o.stage == .zero && (s.char?.bind Number.digit?).isSome)

/-- A number ends before a symbol that is no part of it. -/
theorem tokensFrom_ended {o : OpenNumber} {s : Symbol} (hnone : s.char?.bind o.extend? = none)
    (hends : endsBefore o s = true) (ss : List Symbol) :
    tokensFrom (.number o) (s :: ss) = o.close :: tokensFrom .between (s :: ss) := by
  rw [endsBefore] at hends
  have hstep : Lexer.step ⟨[], .number o⟩ s = Lexer.step ⟨[o.close], .between⟩ s := by
    simp only [Lexer.step, hnone, hends, if_true]
    rfl
  rw [tokensFrom, List.foldl_cons, hstep, ← List.foldl_cons, tokensFrom_foldl]
  rfl

/-- A number ends where nothing follows that could belong to it. -/
theorem tokensFrom_number {o : OpenNumber} (ho : o.stage.complete = true) {ss : List Symbol}
    (h : ¬ GoesOn ss) : tokensFrom (.number o) ss = o.close :: tokensFrom .between ss := by
  cases ss with
  | nil => simp [tokensFrom, Lexer.finish, ho]
  | cons s ss =>
    cases s with
    | stray bytes => exact tokensFrom_ended rfl (by simp [endsBefore, ho, Symbol.char?]) ss
    | char c =>
      have hc : c ∉ ['.', 'e', 'E'] := fun hc => h ⟨c, ss, rfl, Or.inl hc⟩
      have hdigit : Number.digit? c = none := by
        refine Option.eq_none_iff_forall_ne_some.mpr fun d hd => h ⟨c, ss, rfl, Or.inr ?_⟩
        obtain ⟨hlt, rfl⟩ := digit?_eq_some hd
        exact ⟨d, hlt, rfl⟩
      have hnone : (Symbol.char c).char?.bind o.extend? = none := extend?_eq_none ho hc hdigit
      exact tokensFrom_ended hnone (by simp [endsBefore, ho, Symbol.char?, hdigit]) ss

/-- A text is read as the tokens that it writes. -/
theorem Spells.tokensFrom_eq {ts : List Token} {ss : List Symbol} (h : Spells ts ss) :
    tokensFrom .between ss = ts := by
  induction h with
  | nil => rfl
  | @space c ts ss hc _ ih =>
    have hstep : Lexer.step ⟨[], .between⟩ (.char c) = ⟨[], .between⟩ := by
      simp only [List.mem_cons, List.not_mem_nil, or_false] at hc
      rcases hc with rfl | rfl | rfl | rfl <;> rfl
    rw [tokensFrom_cons, hstep, ih]
    rfl
  | @token t ts ss rest ht _ hend ih =>
    rcases foldl_token ht with ⟨-, hread⟩ | ⟨n, o, hn, hcomplete, hclose, hread⟩
    · rw [tokensFrom_append hread, ih]
      rfl
    · rw [tokensFrom_append hread, tokensFrom_number hcomplete (hend ⟨n, hn⟩), ih, hclose]
      rfl

theorem Spells.scan_eq {ts : List Token} {ss : List Symbol} (h : Spells ts ss) : scan ss = ts :=
  h.tokensFrom_eq

end Token
end NetworkPolicy.Json
