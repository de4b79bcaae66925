import NetworkPolicy.Proofs.Json.Scanning

/-! Spelling undoes scanning: a text whose tokens all come to their ends writes these tokens. -/
namespace NetworkPolicy.Json

open Text (Symbol ofChars)

namespace Token

variable {o o' : OpenNumber} {n : Numeral} {c : Char} {d : Nat} {ds cs : List Char}
  {ss rest : List Symbol} {t : Token}

/-- All tokens come to their ends. -/
def AllWhole (ts : List Token) : Prop := ∀ t ∈ ts, t.Whole

theorem AllWhole.tail {ts : List Token} (h : AllWhole (t :: ts)) : AllWhole ts :=
  fun u hu => h u (List.mem_cons_of_mem _ hu)

/-! ### Words -/

theorem exists_word {w : List Char} (hw : w ≠ []) (h : AllWhole (tokensFrom (.word w t) ss)) :
    ∃ rest, ss = ofChars w ++ rest ∧ tokensFrom (.word w t) ss = t :: tokensFrom .between rest := by
  induction w generalizing ss with
  | nil => exact absurd rfl hw
  | cons c w ih =>
    cases ss with
    | nil => exact absurd (h _ List.mem_cons_self) id
    | cons s ss =>
      rw [tokensFrom_cons] at h ⊢
      by_cases hs : s = .char c
      · cases w with
        | nil =>
          have hstep : Lexer.step ⟨[], .word [c] t⟩ s = ⟨[t], .between⟩ := by
            simp [Lexer.step, hs, Lexer.emit]
          rw [hstep]
          exact ⟨ss, by rw [hs]; rfl, rfl⟩
        | cons d w =>
          have hstep : Lexer.step ⟨[], .word (c :: d :: w) t⟩ s = ⟨[], .word (d :: w) t⟩ := by
            simp [Lexer.step, hs]
          rw [hstep] at h ⊢
          obtain ⟨rest, hss, htokens⟩ := ih (List.cons_ne_nil _ _) h
          exact ⟨rest, by rw [hs, hss]; rfl, htokens⟩
      · have hstep : Lexer.step ⟨[], .word (c :: w) t⟩ s =
            ⟨[.brokenValue ⟨.noWord, .noWord⟩], .stopped⟩ := by
          simp [Lexer.step, hs, Lexer.stop]
        rw [hstep] at h
        exact absurd (h _ List.mem_cons_self) id

/-! ### Numbers -/

theorem lt_of_mem_snoc {ds : List Nat} (hds : ∀ e ∈ ds, e < 10) (hd : d < 10) :
    ∀ e ∈ ds ++ [d], e < 10 := by
  intro e he
  rcases List.mem_append.mp he with he | he
  · exact hds e he
  · rw [List.mem_singleton.mp he]
    exact hd

theorem digitChars_snoc (ds : List Nat) (d : Nat) :
    Numeral.digitChars (ds ++ [d]) = Numeral.digitChars ds ++ [Nat.digitChar d] :=
  List.map_append

theorem unsignedSpelt_snoc {ds : List Nat} (h : Numeral.WholeSpelt false ds cs) (hds : ds ≠ [0])
    (hd : d < 10) : Numeral.WholeSpelt false (ds ++ [d]) (cs ++ [Nat.digitChar d]) := by
  cases h with
  | zero => exact absurd rfl hds
  | digits hpos hall =>
    rw [← digitChars_snoc]
    exact .digits hpos (lt_of_mem_snoc hall hd)

theorem wholeSpelt_snoc {negative : Bool} {ds : List Nat}
    (h : Numeral.WholeSpelt negative ds cs) (hds : ds ≠ [0]) (hd : d < 10) :
    Numeral.WholeSpelt negative (ds ++ [d]) (cs ++ [Nat.digitChar d]) := by
  cases negative with
  | false => exact unsignedSpelt_snoc h hds hd
  | true =>
    cases h with
    | minus h => exact .minus (unsignedSpelt_snoc h hds hd)

theorem wholeSpelt_ne_nil {negative : Bool} {ds : List Nat}
    (h : Numeral.WholeSpelt negative ds cs) : ds ≠ [] := by
  rintro rfl
  cases h with
  | minus h => cases h

theorem snoc_ne_zero {ds : List Nat} (h : ds ≠ []) (d : Nat) : ds ++ [d] ≠ [0] := by
  cases ds with
  | nil => exact absurd rfl h
  | cons e ds =>
    intro h
    exact absurd (List.cons.inj h).2 (List.append_ne_nil_of_right_ne_nil _ (List.cons_ne_nil _ _))

theorem fractionSpelt_snoc {ds : List Nat} (h : Numeral.FractionSpelt ds cs) (hds : ds ≠ [])
    (hd : d < 10) : Numeral.FractionSpelt (ds ++ [d]) (cs ++ [Nat.digitChar d]) := by
  cases h with
  | none => exact absurd rfl hds
  | point _ hall =>
    rw [List.cons_append, ← digitChars_snoc]
    exact .point (by simp) (lt_of_mem_snoc hall hd)

theorem exponentSpelt_snoc {negative : Bool} {ds : List Nat}
    (h : Numeral.ExponentSpelt negative ds cs) (hds : ds ≠ []) (hd : d < 10) :
    Numeral.ExponentSpelt negative (ds ++ [d]) (cs ++ [Nat.digitChar d]) := by
  cases h with
  | none => exact absurd rfl hds
  | mark hmark hsign _ hall =>
    rw [List.append_assoc, ← digitChars_snoc]
    exact .mark hmark hsign (by simp) (lt_of_mem_snoc hall hd)

/-- The characters of a number under way, part after part. -/
inductive Begun : OpenNumber → List Char → Prop where
  | sign {negative : Bool} :
      Begun ⟨{ negative := negative }, .sign⟩ (if negative then ['-'] else [])
  | whole {negative : Bool} {whole : List Nat} {cs : List Char} {stage : Stage} :
      Numeral.WholeSpelt negative whole cs →
      stage = .zero ∧ whole = [0] ∨ stage = .whole ∧ whole ≠ [0] →
      Begun ⟨{ negative := negative, whole := whole.reverse }, stage⟩ cs
  | point {negative : Bool} {whole : List Nat} {cs : List Char} :
      Numeral.WholeSpelt negative whole cs →
      Begun ⟨{ negative := negative, whole := whole.reverse, integral := false }, .point⟩
        (cs ++ ['.'])
  | fraction {negative : Bool} {whole fraction : List Nat} {cs ds : List Char} :
      Numeral.WholeSpelt negative whole cs → Numeral.FractionSpelt fraction ds → fraction ≠ [] →
      Begun ⟨{ negative := negative, whole := whole.reverse, fraction := fraction.reverse,
                integral := false }, .fraction⟩ (cs ++ ds)
  | mark {negative : Bool} {whole fraction : List Nat} {cs ds : List Char} {mark : Char} :
      Numeral.WholeSpelt negative whole cs → Numeral.FractionSpelt fraction ds →
      mark ∈ ['e', 'E'] →
      Begun ⟨{ negative := negative, whole := whole.reverse, fraction := fraction.reverse,
                integral := false }, .mark⟩ (cs ++ ds ++ [mark])
  | markSign {negative exponentNegative : Bool} {whole fraction : List Nat} {cs ds : List Char}
      {mark sign : Char} :
      Numeral.WholeSpelt negative whole cs → Numeral.FractionSpelt fraction ds →
      mark ∈ ['e', 'E'] → (exponentNegative, sign) ∈ [(false, '+'), (true, '-')] →
      Begun ⟨{ negative := negative, whole := whole.reverse, fraction := fraction.reverse,
                exponentNegative := exponentNegative, integral := false }, .markSign⟩
        (cs ++ ds ++ [mark, sign])
  | exponent {negative exponentNegative : Bool} {whole fraction exponent : List Nat}
      {cs ds es : List Char} :
      Numeral.WholeSpelt negative whole cs → Numeral.FractionSpelt fraction ds →
      Numeral.ExponentSpelt exponentNegative exponent es → exponent ≠ [] →
      Begun ⟨⟨negative, whole.reverse, fraction.reverse, exponentNegative, exponent.reverse, false⟩,
        .exponent⟩ (cs ++ ds ++ es)

/-- The stages that a character after the digits opens. -/
theorem extend?_nondigit (hdigit : Number.digit? c = none) (h : o.extend? c = some o') :
    (c = '.' ∧ (o.stage = .zero ∨ o.stage = .whole) ∧
      o' = ⟨{ o.numeral with integral := false }, .point⟩) ∨
    (c ∈ ['e', 'E'] ∧ (o.stage = .zero ∨ o.stage = .whole ∨ o.stage = .fraction) ∧
      o' = ⟨{ o.numeral with integral := false }, .mark⟩) ∨
    (o.stage = .mark ∧ (c = '+' ∧ o' = ⟨o.numeral, .markSign⟩ ∨
      c = '-' ∧ o' = ⟨{ o.numeral with exponentNegative := true }, .markSign⟩)) := by
  rcases o with ⟨n, stage⟩
  cases stage <;> simp only [OpenNumber.extend?, hdigit, reduceCtorEq] at h ⊢
  all_goals split_ifs at h <;> simp_all

/-- The stages that a digit opens or goes on with. -/
theorem extend?_somedigit (hdigit : Number.digit? c = some d) (h : o.extend? c = some o') :
    (o.stage = .sign ∧ d = 0 ∧ o' = ⟨{ o.numeral with whole := [0] }, .zero⟩) ∨
    ((o.stage = .sign ∧ d ≠ 0 ∨ o.stage = .whole) ∧
      o' = ⟨{ o.numeral with whole := d :: o.numeral.whole }, .whole⟩) ∨
    ((o.stage = .point ∨ o.stage = .fraction) ∧
      o' = ⟨{ o.numeral with fraction := d :: o.numeral.fraction }, .fraction⟩) ∨
    ((o.stage = .mark ∨ o.stage = .markSign ∨ o.stage = .exponent) ∧
      o' = ⟨{ o.numeral with exponent := d :: o.numeral.exponent }, .exponent⟩) := by
  rcases o with ⟨n, stage⟩
  cases stage <;> simp only [OpenNumber.extend?, hdigit, reduceCtorEq] at h ⊢
  · cases d with
    | zero => simp_all
    | succ d => simp_all
  all_goals simp_all

theorem wholeSpelt_signed {negative : Bool} {ds : List Nat} (h : Numeral.WholeSpelt false ds cs) :
    Numeral.WholeSpelt negative ds ((if negative then ['-'] else []) ++ cs) := by
  cases negative with
  | false => exact h
  | true => exact .minus h

theorem Begun.digit (h : Begun o cs) (hdigit : Number.digit? c = some d)
    (hext : o.extend? c = some o') : Begun o' (cs ++ [c]) := by
  obtain ⟨hd, rfl⟩ := digit?_eq_some hdigit
  have hstages := extend?_somedigit hdigit hext
  cases h with
  | sign =>
    simp only [true_and, reduceCtorEq, false_and, or_false] at hstages
    rcases hstages with ⟨rfl, rfl⟩ | ⟨hpos, rfl⟩
    · exact .whole (wholeSpelt_signed .zero) (Or.inl ⟨rfl, rfl⟩)
    · have hdigits : Numeral.WholeSpelt false [d] [Nat.digitChar d] :=
        .digits (Nat.pos_of_ne_zero hpos) (by simpa using hd)
      exact .whole (wholeSpelt_signed hdigits) (Or.inr ⟨rfl, by simpa using hpos⟩)
  | whole hwhole hstage =>
    rcases hstage with ⟨rfl, rfl⟩ | ⟨rfl, hne⟩
    · simp at hstages
    · obtain rfl : o' = _ := by simpa using hstages
      have hmore := Begun.whole (wholeSpelt_snoc hwhole hne hd)
        (Or.inr ⟨rfl, snoc_ne_zero (wholeSpelt_ne_nil hwhole) d⟩)
      rwa [List.reverse_append] at hmore
  | point hwhole =>
    obtain rfl : o' = _ := by simpa using hstages
    have hfraction : Numeral.FractionSpelt [d] ['.', Nat.digitChar d] :=
      .point (by simp) (by simpa using hd)
    rw [List.append_assoc]
    exact .fraction hwhole hfraction (by simp)
  | fraction hwhole hfraction hne =>
    obtain rfl : o' = _ := by simpa using hstages
    have hmore := Begun.fraction hwhole (fractionSpelt_snoc hfraction hne hd) (by simp)
    rwa [List.reverse_append, ← List.append_assoc] at hmore
  | @mark _ _ _ _ _ mark hwhole hfraction hmark =>
    obtain rfl : o' = _ := by simpa using hstages
    have hexponent : Numeral.ExponentSpelt false [d] (mark :: [] ++ [Nat.digitChar d]) :=
      .mark hmark (by simp) (by simp) (by simpa using hd)
    rw [List.append_assoc]
    exact .exponent hwhole hfraction hexponent (by simp)
  | @markSign _ exponentNegative _ _ _ _ mark sign hwhole hfraction hmark hsign =>
    obtain rfl : o' = _ := by simpa using hstages
    have hexponent : Numeral.ExponentSpelt exponentNegative [d]
        (mark :: [sign] ++ [Nat.digitChar d]) :=
      .mark hmark (by simpa using hsign) (by simp) (by simpa using hd)
    rw [List.append_assoc]
    exact .exponent hwhole hfraction hexponent (by simp)
  | exponent hwhole hfraction hexponent hne =>
    obtain rfl : o' = _ := by simpa using hstages
    have hmore := Begun.exponent hwhole hfraction (exponentSpelt_snoc hexponent hne hd) (by simp)
    rwa [List.reverse_append, ← List.append_assoc] at hmore

theorem Begun.nondigit (h : Begun o cs) (hdigit : Number.digit? c = none)
    (hext : o.extend? c = some o') : Begun o' (cs ++ [c]) := by
  have hstages := extend?_nondigit hdigit hext
  cases h with
  | whole hwhole hstage =>
    rcases hstages with ⟨rfl, -, rfl⟩ | ⟨hc, -, rfl⟩ | ⟨hstage', -⟩
    · exact .point hwhole
    · have hmore := Begun.mark hwhole .none hc
      rwa [List.append_nil] at hmore
    · rcases hstage with ⟨rfl, -⟩ | ⟨rfl, -⟩ <;> exact nomatch hstage'
  | fraction hwhole hfraction hne =>
    simp only [reduceCtorEq, or_self, false_and, and_false, false_or, or_false, or_true,
      true_and] at hstages
    obtain ⟨hc, rfl⟩ := hstages
    exact .mark hwhole hfraction hc
  | @mark _ _ _ _ _ mark hwhole hfraction hmark =>
    simp only [reduceCtorEq, or_self, false_and, and_false, false_or, true_and] at hstages
    rw [List.append_assoc]
    rcases hstages with ⟨rfl, rfl⟩ | ⟨rfl, rfl⟩
    · exact .markSign hwhole hfraction hmark (by simp)
    · exact .markSign hwhole hfraction hmark (by simp)
  | sign | point | markSign | exponent => simp at hstages

theorem Begun.step (h : Begun o cs) (hext : o.extend? c = some o') : Begun o' (cs ++ [c]) := by
  cases hdigit : Number.digit? c with
  | none => exact h.nondigit hdigit hext
  | some d => exact h.digit hdigit hext

/-- A number that may end here is spelt by its characters. -/
theorem Begun.spelt (h : Begun o cs) (ho : o.stage.complete = true) :
    ∃ n, o.close = .number n ∧ n.Spelt cs := by
  cases h with
  | whole hwhole =>
    have hspelt := Numeral.Spelt.mk hwhole .none .none
    rw [List.append_nil, List.append_nil] at hspelt
    exact ⟨_, by simp [OpenNumber.close], hspelt⟩
  | @fraction _ _ fraction _ _ hwhole hfraction hne =>
    have hspelt := Numeral.Spelt.mk hwhole hfraction .none
    rw [List.append_nil, List.isEmpty_eq_false_iff.mpr hne] at hspelt
    exact ⟨_, by simp [OpenNumber.close], hspelt⟩
  | exponent hwhole hfraction hexponent hne =>
    have hspelt := Numeral.Spelt.mk hwhole hfraction hexponent
    rw [List.isEmpty_eq_false_iff.mpr hne, Bool.and_false] at hspelt
    exact ⟨_, by simp [OpenNumber.close], hspelt⟩
  | sign | point | mark | markSign => exact absurd ho Bool.false_ne_true

theorem digit?_digit {c : Char} (h : ∃ d < 10, c = Nat.digitChar d) :
    ∃ d, Number.digit? c = some d := by
  obtain ⟨d, hd, rfl⟩ := h
  exact ⟨d, digit?_digitChar hd⟩

/-- Where a number may end and no symbol without a token follows, none follows that could belong to
it. -/
theorem not_goesOn {s : Symbol} (hnone : s.char?.bind o.extend? = none)
    (hends : endsBefore o s = true) (h : AllWhole (tokensFrom .between (s :: ss))) :
    ¬ GoesOn (s :: ss) := by
  rintro ⟨c, rest, hss, hc⟩
  cases hss
  rcases hc with hc | hc
  · have hstep : Lexer.step ⟨[], .between⟩ (.char c) = ⟨[.stray], .stopped⟩ := by
      simp only [List.mem_cons, List.not_mem_nil, or_false] at hc
      rcases hc with rfl | rfl | rfl <;> rfl
    rw [tokensFrom_cons, hstep] at h
    exact h _ List.mem_cons_self
  · obtain ⟨d, hd⟩ := digit?_digit hc
    rcases o with ⟨n, stage⟩
    cases stage with
    | whole | fraction | exponent => simp [Symbol.char?, OpenNumber.extend?, hd] at hnone
    | zero => simp [endsBefore, Symbol.char?, hd] at hends
    | sign | point | mark | markSign => exact absurd hends Bool.false_ne_true

theorem exists_number (hbegun : Begun o cs) (h : AllWhole (tokensFrom (.number o) ss)) :
    ∃ n ds rest, ss = ofChars ds ++ rest ∧ n.Spelt (cs ++ ds) ∧ ¬ GoesOn rest ∧
      tokensFrom (.number o) ss = .number n :: tokensFrom .between rest := by
  induction ss generalizing o cs with
  | nil =>
    by_cases ho : o.stage.complete = true
    · obtain ⟨n, hclose, hspelt⟩ := hbegun.spelt ho
      refine ⟨n, [], [], rfl, by rwa [List.append_nil], ?_, ?_⟩
      · rintro ⟨c, rest, hrest, -⟩
        cases hrest
      · simp [tokensFrom, Lexer.finish, ho, hclose]
    · have hbroken : tokensFrom (.number o) [] = [.brokenValue ⟨.valueCutShort, .badNumber⟩] := by
        simp [tokensFrom, Lexer.finish, ho]
      rw [hbroken] at h
      exact absurd (h _ List.mem_cons_self) id
  | cons s ss ih =>
    cases hext : s.char?.bind o.extend? with
    | some o' =>
      obtain ⟨c, hs, hext⟩ := Option.bind_eq_some_iff.mp hext
      obtain rfl : s = .char c := by
        cases s with
        | char => exact congrArg Symbol.char (Option.some.inj hs)
        | stray => cases hs
      have hstep : tokensFrom (.number o) (.char c :: ss) = tokensFrom (.number o') ss := by
        rw [tokensFrom_cons, step_number hext]
        rfl
      rw [hstep] at h ⊢
      obtain ⟨n, ds, rest, hss, hspelt, hrest, htokens⟩ := ih (hbegun.step hext) h
      refine ⟨n, c :: ds, rest, by rw [hss]; rfl, ?_, hrest, htokens⟩
      rwa [List.append_assoc] at hspelt
    | none =>
      by_cases hends : endsBefore o s = true
      · have ho : o.stage.complete = true := (Bool.and_eq_true_iff.mp hends).1
        obtain ⟨n, hclose, hspelt⟩ := hbegun.spelt ho
        rw [tokensFrom_ended hext hends, hclose] at h ⊢
        exact ⟨n, [], s :: ss, rfl, by rwa [List.append_nil], not_goesOn hext hends h.tail, rfl⟩
      · have hstep : Lexer.step ⟨[], .number o⟩ s =
            ⟨[.brokenValue ⟨.badNumber, .badNumber⟩], .stopped⟩ := by
          rw [endsBefore] at hends
          simp only [Lexer.step, hext, hends]
          rfl
        rw [tokensFrom_cons, hstep] at h
        exact absurd (h _ List.mem_cons_self) id

/-! ### Strings -/

theorem mem_of_escaped? {e : Char} (h : escaped? e = some c) : (e, c) ∈ escapes := by
  unfold escaped? at h
  split at h
  all_goals cases h
  all_goals decide

theorem hexSpelt_of_hexDigit? (h : Number.hexDigit? c = some d) : HexSpelt d c := by
  have hbounds : (48 ≤ c.toNat ∧ c.toNat ≤ 57 ∨ 97 ≤ c.toNat ∧ c.toNat ≤ 102) ∨
      65 ≤ c.toNat ∧ c.toNat ≤ 70 := by
    unfold Number.hexDigit? at h
    split_ifs at h with hc hc hc
    · exact Or.inl (Or.inl hc)
    · exact Or.inl (Or.inr hc)
    · exact Or.inr hc
  -- twenty-two characters
  have hall : ∀ n, (48 ≤ n ∧ n ≤ 57 ∨ 97 ≤ n ∧ n ≤ 102) ∨ 65 ≤ n ∧ n ≤ 70 →
      ∀ d, Number.hexDigit? (Char.ofNat n) = some d → HexSpelt d (Char.ofNat n) := by
    rintro n ((⟨hlow, hhigh⟩ | ⟨hlow, hhigh⟩) | ⟨hlow, hhigh⟩) d hd
    all_goals
      interval_cases n
      all_goals
        cases hd
        unfold HexSpelt
        decide
  have hchar : Char.ofNat c.toNat = c := Char.ofNat_toNat c
  rw [← hchar] at h ⊢
  exact hall _ hbounds d h

/-- Hexadecimal digits and their value. -/
inductive HexesSpelt : Nat → Nat → List Char → Prop where
  | nil : HexesSpelt 0 0 []
  | snoc {taken value d : Nat} {c : Char} {cs : List Char} : HexesSpelt taken value cs →
      HexSpelt d c → HexesSpelt (taken + 1) (value * 16 + d) (cs ++ [c])

/-- A leading surrogate that waits for its other half, as it is spelt. -/
inductive SurrogateSpelt : Option Nat → List Char → Prop where
  | none : SurrogateSpelt none []
  | some {u : Nat} {cs : List Char} : UnitSpelt u cs → 0xD800 ≤ u → u ≤ 0xDBFF →
      SurrogateSpelt (some u) cs

/-- The part of an escape that was read. -/
inductive EscapeSpelt : Escape → List Char → Prop where
  | none : EscapeSpelt .none []
  | backslash : EscapeSpelt .backslash ['\\']
  | hex {taken value : Nat} {cs : List Char} : HexesSpelt taken value cs → taken < 4 →
      EscapeSpelt (.hex taken (some value)) ('\\' :: 'u' :: cs)

/-- An escape that is no spoilt one: all of it could be read so far. -/
def Escape.Sound (e : Escape) : Prop := ∀ taken, e ≠ .hex taken Option.none

/-- As long as it has no fault, a string under way is spelt by what was read of it. -/
def SpeltSoFar (o : OpenString) (ss : List Symbol) : Prop :=
  o.fault = none → o.hasStray = false → o.escape.Sound → ∃ cs ds es, ss = ofChars (cs ++ ds ++ es) ∧
    CharsSpelt o.chars.reverse cs ∧ SurrogateSpelt o.surrogate ds ∧ EscapeSpelt o.escape es

theorem charsSpelt_snoc {cs ds es : List Char} (h : CharsSpelt cs ds) (hc : CharSpelt c es) :
    CharsSpelt (cs ++ [c]) (ds ++ es) := by
  induction h with
  | nil =>
    have hone := CharsSpelt.cons hc .nil
    rwa [List.append_nil] at hone
  | cons hd _ ih =>
    rw [List.append_assoc]
    exact .cons hd ih

theorem unitSpelt_of_hexes {value : Nat} (h : HexesSpelt 3 value cs) (hc : HexSpelt d c) :
    UnitSpelt (value * 16 + d) ('\\' :: 'u' :: cs ++ [c]) := by
  cases h with
  | snoc h h₃ =>
    cases h with
    | snoc h h₂ =>
      cases h with
      | snoc h h₁ =>
        cases h with
        | nil =>
          have hunit := UnitSpelt.mk h₁ h₂ h₃ hc
          rwa [Nat.zero_mul, Nat.zero_add]

section Strings

variable {o : OpenString} {new : Char}

theorem settle_of_fault (h : o.settle.fault = none) : o.settle = o ∧ o.surrogate = none := by
  rcases o with ⟨chars, fault, hasStray, surrogate, escape⟩
  cases surrogate with
  | none => exact ⟨rfl, rfl⟩
  | some u => cases fault <;> exact nomatch h

theorem SpeltSoFar.push (h : SpeltSoFar o ss) (ho : o.escape.Sound)
    (hchar : ∀ es, EscapeSpelt o.escape es → CharSpelt c (es ++ [new])) :
    SpeltSoFar (o.settle.push c) (ss ++ [.char new]) := by
  intro hfault hstray _
  obtain ⟨hsettle, hsurrogate⟩ := settle_of_fault hfault
  rw [hsettle] at hfault hstray ⊢
  obtain ⟨cs, ds, es, rfl, hcs, hds, hes⟩ := h hfault hstray ho
  rw [hsurrogate] at hds
  cases hds
  refine ⟨cs ++ (es ++ [new]), [], [], by simp [ofChars], ?_, ?_, .none⟩
  · rw [OpenString.push, List.reverse_cons]
    exact charsSpelt_snoc hcs (hchar es hes)
  · rw [OpenString.push, hsurrogate]
    exact .none

/-- What a unit does to a string that stays without fault. -/
theorem pushUnit_of_fault {u : Nat} (h : (o.pushUnit u).fault = none) :
    (o.surrogate = none ∧ (u < 0xD800 ∨ 0xDFFF < u) ∧
      o.pushUnit u = { o with chars := Char.ofNat u :: o.chars, escape := .none }) ∨
    (o.surrogate = none ∧ 0xD800 ≤ u ∧ u ≤ 0xDBFF ∧
      o.pushUnit u = { o with surrogate := some u, escape := .none }) ∨
    ∃ high, o.surrogate = some high ∧ 0xDC00 ≤ u ∧ u ≤ 0xDFFF ∧ o.pushUnit u = { o with
      chars := Char.ofNat (0x10000 + (high - 0xD800) * 0x400 + (u - 0xDC00)) :: o.chars,
      surrogate := none, escape := .none } := by
  rcases o with ⟨chars, fault, hasStray, surrogate, escape⟩
  have hblamed : ∀ f, fault.or (some f) ≠ (none : Option Fault) := fun f => by cases fault <;> simp
  by_cases hlow : 0xDC00 ≤ u ∧ u ≤ 0xDFFF
  · cases surrogate with
    | none => exact absurd h (by simp [OpenString.pushUnit, OpenString.blame, hlow])
    | some high =>
      exact Or.inr (Or.inr ⟨high, rfl, hlow.1, hlow.2, by simp [OpenString.pushUnit, hlow]⟩)
  · cases surrogate with
    | some high => exact absurd h (by simp [OpenString.pushUnit, OpenString.blame, hlow])
    | none =>
      by_cases hhigh : 0xD800 ≤ u ∧ u ≤ 0xDBFF
      · exact Or.inr (Or.inl ⟨rfl, hhigh.1, hhigh.2,
          by simp [OpenString.pushUnit, hlow, hhigh]⟩)
      · exact Or.inl ⟨rfl, by omega,
          by simp [OpenString.pushUnit, OpenString.push, hlow, hhigh]⟩

theorem SpeltSoFar.pushUnit {u : Nat} (h : SpeltSoFar o ss) (ho : o.escape.Sound)
    (hunit : ∀ es, EscapeSpelt o.escape es → UnitSpelt u (es ++ [new])) :
    SpeltSoFar (o.pushUnit u) (ss ++ [.char new]) := by
  intro hfault hstray _
  have hbefore : o.fault = none ∧ o.hasStray = false := by
    rcases pushUnit_of_fault hfault with ⟨-, -, heq⟩ | ⟨-, -, -, heq⟩ | ⟨_, -, -, -, heq⟩
    all_goals
      rw [heq] at hfault hstray
      exact ⟨hfault, hstray⟩
  obtain ⟨cs, ds, es, rfl, hcs, hds, hes⟩ := h hbefore.1 hbefore.2 ho
  have hunit := hunit es hes
  rcases pushUnit_of_fault hfault with ⟨hnone, hu, heq⟩ | ⟨hnone, hlow, hhigh, heq⟩ |
    ⟨high, hsome, hlow, hhigh, heq⟩
  · rw [hnone] at hds
    cases hds
    rw [heq, hnone]
    refine ⟨cs ++ (es ++ [new]), [], [], by simp [ofChars], ?_, .none, .none⟩
    rw [List.reverse_cons]
    exact charsSpelt_snoc hcs (.unit hunit hu)
  · rw [hnone] at hds
    cases hds
    rw [heq]
    exact ⟨cs, es ++ [new], [], by simp [ofChars], hcs, .some hunit hlow hhigh, .none⟩
  · rw [hsome] at hds
    cases hds with
    | some hfirst hfirstLow hfirstHigh =>
      rw [heq]
      refine ⟨cs ++ (ds ++ (es ++ [new])), [], [], by simp [ofChars], ?_, .none, .none⟩
      rw [List.reverse_cons]
      exact charsSpelt_snoc hcs (.pair hfirst hunit hfirstLow hfirstHigh hlow hhigh)

/-- What one symbol does to a string under way: the string goes on, comes to its end or breaks. -/
inductive Continues (ss : List Symbol) : Lexer → Prop where
  | more {o : OpenString} : SpeltSoFar o ss → Continues ss ⟨[], .string o⟩
  | done {l : Literal} : (∀ s, l = .text s → ∃ cs, ss = ofChars (cs ++ ['"']) ∧
      CharsSpelt s.toList cs) → Continues ss ⟨[.string l], .between⟩
  | broken {f : Flaw} : Continues ss ⟨[.brokenString f], .stopped⟩

theorem sound_none : Escape.none.Sound := fun _ h => nomatch h

theorem sound_backslash : Escape.backslash.Sound := fun _ h => nomatch h

theorem sound_hex (taken value : Nat) : (Escape.hex taken (some value)).Sound :=
  fun _ h => nomatch h

theorem SpeltSoFar.close (h : SpeltSoFar o ss) (ho : o.escape = .none) :
    Continues (ss ++ [.char '"']) ⟨[o.close], .between⟩ := by
  refine .done fun s hs => ?_
  cases hfault : o.settle.fault with
  | some f =>
    rw [hfault] at hs
    exact nomatch hs
  | none =>
    obtain ⟨hsettle, hsurrogate⟩ := settle_of_fault hfault
    rw [hsettle] at hs hfault
    cases hstray : o.hasStray with
    | true =>
      rw [hfault, hstray] at hs
      exact nomatch hs
    | false =>
      obtain ⟨cs, ds, es, rfl, hcs, hds, hes⟩ := h hfault hstray (ho ▸ sound_none)
      rw [hsurrogate] at hds
      rw [ho] at hes
      cases hds
      cases hes
      rw [hfault, hstray] at hs
      obtain rfl := Literal.text.inj hs
      exact ⟨cs, by simp [ofChars], by rwa [String.toList_ofList]⟩

/-- Outside escapes a symbol stands for itself, opens an escape or closes the string. -/
theorem SpeltSoFar.step_plain (h : SpeltSoFar o ss) (ho : o.escape = .none) (s : Symbol) :
    Continues (ss ++ [s]) (Lexer.inString ⟨[], .string o⟩ o s) := by
  rcases o with ⟨chars, fault, hasStray, surrogate, escape⟩
  cases ho
  unfold Lexer.inString
  cases s with
  | stray bytes => exact .more fun _ hstray => nomatch hstray
  | char c =>
    dsimp only
    split
    · contradiction
    · rename_i hc
      cases hc
      exact h.close rfl
    · rename_i hc
      cases hc
      refine .more fun hfault hstray _ => ?_
      obtain ⟨cs, ds, es, rfl, hcs, hds, hes⟩ := h hfault hstray sound_none
      cases hes
      exact ⟨cs, ds, ['\\'], by simp [ofChars], hcs, hds, .backslash⟩
    · rename_i c hquote hbackslash _ hc
      cases hc
      split
      · exact .broken
      · rename_i hcontrol
        refine .more (h.push sound_none fun es hes => ?_)
        cases hes
        exact .plain hquote hbackslash (Char.not_lt.mp hcontrol)
    all_goals contradiction

/-- Behind a backslash a letter stands for a character or opens a unit. -/
theorem SpeltSoFar.step_backslash (h : SpeltSoFar o ss) (ho : o.escape = .backslash) (s : Symbol) :
    Continues (ss ++ [s]) (Lexer.inString ⟨[], .string o⟩ o s) := by
  rcases o with ⟨chars, fault, hasStray, surrogate, escape⟩
  cases ho
  unfold Lexer.inString
  cases s with
  | stray bytes => exact .broken
  | char c =>
    dsimp only
    split
    iterate 4 contradiction
    · rename_i hc
      cases hc
      refine .more fun hfault hstray _ => ?_
      obtain ⟨cs, ds, es, rfl, hcs, hds, hes⟩ := h hfault hstray sound_backslash
      cases hes
      exact ⟨cs, ds, ['\\', 'u'], by simp [ofChars], hcs, hds, .hex .nil (by decide)⟩
    · rename_i c hc
      cases hc
      split
      · rename_i e he
        refine .more (h.push sound_backslash fun es hes => ?_)
        cases hes
        exact .letter (mem_of_escaped? he)
      · exact .broken
    all_goals contradiction

theorem exists_hex {value : Option Nat} {s : Symbol} {v : Nat}
    (h : (do return (← value) * 16 + (← Number.hexDigit? (← s.char?))) = some v) :
    ∃ w c d, value = some w ∧ s = .char c ∧ HexSpelt d c ∧ v = w * 16 + d := by
  cases value with
  | none => exact nomatch h
  | some w =>
    cases s with
    | stray bytes => exact nomatch h
    | char c =>
      cases hd : Number.hexDigit? c with
      | none => simp [Symbol.char?, hd] at h
      | some d =>
        refine ⟨w, c, d, rfl, rfl, hexSpelt_of_hexDigit? hd, ?_⟩
        simpa [Symbol.char?, hd] using h.symm

/-- Four hexadecimal digits give a unit. -/
theorem SpeltSoFar.step_hex {taken : Nat} {value : Option Nat} (h : SpeltSoFar o ss)
    (ho : o.escape = .hex taken value) (s : Symbol) :
    Continues (ss ++ [s]) (Lexer.inString ⟨[], .string o⟩ o s) := by
  rcases o with ⟨chars, fault, hasStray, surrogate, escape⟩
  cases ho
  unfold Lexer.inString
  dsimp only
  cases hvalue : (do return (← value) * 16 + (← Number.hexDigit? (← s.char?)) : Option Nat) with
  | none =>
    split
    · exact .more fun _ _ hsound => absurd rfl (hsound _)
    · exact .broken
  | some v =>
    obtain ⟨w, c, d, rfl, rfl, hc, rfl⟩ := exists_hex hvalue
    have hwidth : (Symbol.char c).width = 1 := utf8Size_of_spelt hc
    rw [hwidth]
    split
    · rename_i htaken
      refine .more fun hfault hstray _ => ?_
      obtain ⟨cs, ds, es, rfl, hcs, hds, hes⟩ := h hfault hstray (sound_hex taken w)
      cases hes with
      | hex hhexes _ =>
        exact ⟨cs, ds, _, by simp [ofChars], hcs, hds, .hex (hhexes.snoc hc) htaken⟩
    · rename_i htaken
      refine .more (h.pushUnit (sound_hex taken w) fun es hes => ?_)
      cases hes with
      | hex hhexes hlt =>
        obtain rfl : taken = 3 := by omega
        exact unitSpelt_of_hexes hhexes hc

theorem SpeltSoFar.step (h : SpeltSoFar o ss) (s : Symbol) :
    Continues (ss ++ [s]) (Lexer.step ⟨[], .string o⟩ s) := by
  change Continues _ (Lexer.inString ⟨[], .string o⟩ o s)
  cases ho : o.escape with
  | none => exact h.step_plain ho s
  | backslash => exact h.step_backslash ho s
  | hex taken value => exact h.step_hex ho s

theorem exists_string {before : List Symbol}
    (hrun : before.foldl Lexer.step ⟨[], .string {}⟩ = ⟨[], .string o⟩) (hsofar : SpeltSoFar o before)
    (h : AllWhole (tokensFrom (.string o) ss)) : ∃ l read rest, ss = read ++ rest ∧
      Spelt (.string l) (.char '"' :: before ++ read) ∧
      tokensFrom (.string o) ss = .string l :: tokensFrom .between rest := by
  induction ss generalizing o before with
  | nil => exact absurd (h _ List.mem_cons_self) id
  | cons s ss ih =>
    have hmore := hsofar.step s
    have hrun' : (before ++ [s]).foldl Lexer.step ⟨[], .string {}⟩ =
        Lexer.step ⟨[], .string o⟩ s := by
      rw [List.foldl_append, hrun]
      rfl
    rw [tokensFrom_cons] at h ⊢
    generalize Lexer.step ⟨[], .string o⟩ s = lexer at hmore hrun' h ⊢
    cases hmore with
    | more hsofar' =>
      obtain ⟨l, read, rest, rfl, hspelt, htokens⟩ := ih hrun' hsofar' h
      refine ⟨l, s :: read, rest, rfl, ?_, htokens⟩
      rw [List.cons_append, List.append_assoc] at hspelt
      exact hspelt
    | @done l htext =>
      refine ⟨l, [s], ss, rfl, ?_, rfl⟩
      cases l with
      | text t =>
        obtain ⟨cs, hcs, hspelt⟩ := htext t rfl
        have hquoted := Spelt.text hspelt
        rw [List.cons_append] at hquoted ⊢
        rw [hcs]
        exact hquoted
      | faulty f => exact .faulty hrun'
    | broken => exact absurd (h _ List.mem_cons_self) id

end Strings

/-! ### Whole texts -/

/-- What a character between tokens begins. -/
inductive Starts (c : Char) : Lexer → Prop where
  | space : c ∈ [' ', '\t', '\n', '\r'] → Starts c ⟨[], .between⟩
  | token {t : Token} : t.Spelt (ofChars [c]) → ¬ t.IsNumber → Starts c ⟨[t], .between⟩
  | string : c = '"' → Starts c ⟨[], .string {}⟩
  | number {o : OpenNumber} : Begun o [c] → Starts c ⟨[], .number o⟩
  | word {t : Token} {cs : List Char} : t.Spelt (ofChars (c :: cs)) → ¬ t.IsNumber → cs ≠ [] →
      Starts c ⟨[], .word cs t⟩
  | stray : Starts c ⟨[.stray], .stopped⟩

theorem starts_start (c : Char) : Starts c (Lexer.start ⟨[], .between⟩ c) := by
  unfold Lexer.start
  split
  · rename_i hspace
    refine .space ?_
    simpa [Lexer.isSpace, or_assoc] using hspace
  · split
    · exact .token .openList (fun ⟨_, h⟩ => nomatch h)
    · exact .token .closeList (fun ⟨_, h⟩ => nomatch h)
    · exact .token .openObject (fun ⟨_, h⟩ => nomatch h)
    · exact .token .closeObject (fun ⟨_, h⟩ => nomatch h)
    · exact .token .comma (fun ⟨_, h⟩ => nomatch h)
    · exact .token .colon (fun ⟨_, h⟩ => nomatch h)
    · exact .string rfl
    · exact .number (@Begun.sign true)
    · exact .word .trueWord (fun ⟨_, h⟩ => nomatch h) (List.cons_ne_nil _ _)
    · exact .word .falseWord (fun ⟨_, h⟩ => nomatch h) (List.cons_ne_nil _ _)
    · exact .word .null (fun ⟨_, h⟩ => nomatch h) (List.cons_ne_nil _ _)
    · split
      · rename_i hext
        exact .number ((@Begun.sign false).step hext)
      · exact .stray

theorem length_lt_cons_append (s : Symbol) (read rest : List Symbol) :
    rest.length < (s :: (read ++ rest)).length := by
  rw [List.length_cons, List.length_append]
  omega

/-- A text whose tokens all come to their ends writes these tokens. -/
theorem spells_tokensFrom (ss : List Symbol) (h : AllWhole (tokensFrom .between ss)) :
    Spells (tokensFrom .between ss) ss := by
  induction hlength : ss.length using Nat.strongRecOn generalizing ss with
  | ind length ih =>
    subst hlength
    cases ss with
    | nil => exact .nil
    | cons s ss =>
      cases s with
      | stray bytes =>
        rw [tokensFrom_cons] at h
        exact absurd (h _ List.mem_cons_self) id
      | char c =>
        have hstarts : Starts c (Lexer.step ⟨[], .between⟩ (.char c)) := starts_start c
        rw [tokensFrom_cons] at h ⊢
        generalize Lexer.step ⟨[], .between⟩ (.char c) = lexer at hstarts h ⊢
        cases hstarts with
        | space hspace => exact .space hspace (ih _ (Nat.lt_succ_self _) ss h rfl)
        | token ht hnumber =>
          exact .token ht (ih _ (Nat.lt_succ_self _) ss h.tail rfl) fun hn => absurd hn hnumber
        | string hquote =>
          subst hquote
          have hsofar : SpeltSoFar {} [] := fun _ _ _ => ⟨[], [], [], rfl, .nil, .none, .none⟩
          obtain ⟨l, read, rest, rfl, hspelt, htokens⟩ := exists_string rfl hsofar h
          change AllWhole (tokensFrom _ _) at h
          change Spells (tokensFrom _ _) _
          rw [htokens] at h ⊢
          exact .token hspelt (ih _ (length_lt_cons_append _ _ _) rest h.tail rfl)
            fun ⟨_, h⟩ => nomatch h
        | number hbegun =>
          obtain ⟨n, ds, rest, rfl, hspelt, hrest, htokens⟩ := exists_number hbegun h
          change AllWhole (tokensFrom _ _) at h
          change Spells (tokensFrom _ _) _
          rw [htokens] at h ⊢
          exact .token (.number hspelt) (ih _ (length_lt_cons_append _ _ _) rest h.tail rfl)
            fun _ => hrest
        | @word t cs ht hnumber hne =>
          obtain ⟨rest, rfl, htokens⟩ := exists_word hne h
          change AllWhole (tokensFrom _ _) at h
          change Spells (tokensFrom _ _) _
          rw [htokens] at h ⊢
          exact .token ht (ih _ (length_lt_cons_append _ _ _) rest h.tail rfl)
            fun hn => absurd hn hnumber
        | stray => exact absurd (h _ List.mem_cons_self) id

/-- Whatever comes to whole tokens is read as the tokens that it writes, and as no others. -/
theorem spells_iff {ts : List Token} {ss : List Symbol} (h : AllWhole ts) :
    Spells ts ss ↔ scan ss = ts := by
  constructor
  · exact Spells.scan_eq
  · rintro rfl
    exact spells_tokensFrom ss h

end Token
end NetworkPolicy.Json
