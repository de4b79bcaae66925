import Mathlib.Data.List.Forall2
import Mathlib.Tactic.IntervalCases
import NetworkPolicy.Json.Value
import NetworkPolicy.Proofs.Number.Digits

/-! The tokens of a value, and that its compact text is read as just these tokens: each quoted text
as one string with the same characters, each integer as its digits. -/
namespace NetworkPolicy.Json

/-! ### The tokens of a value -/

/-- The digits of a number in base ten. -/
def decimals (n : Nat) : List Nat := (Nat.toDigits 10 n).map fun c => c.toNat - 48

/-- An integer as written. -/
def Number.numeral : Number → Numeral
  | .natural n => { whole := decimals n }
  | .negative n => { negative := true, whole := decimals n.natAbs }
  | .float _ => {}

mutual

/-- No number in the value is a float. -/
def Integral : Json → Prop
  | .number (.float _) => False
  | .list es => IntegralElements es
  | .object ms => IntegralMembers ms
  | _ => True

def IntegralElements : List Json → Prop
  | [] => True
  | v :: vs => Integral v ∧ IntegralElements vs

def IntegralMembers : List (String × Json) → Prop
  | [] => True
  | (_, v) :: ms => Integral v ∧ IntegralMembers ms

end

theorem integralElements_of_forall {vs : List Json} (h : ∀ v ∈ vs, v.Integral) :
    IntegralElements vs := by
  induction vs with
  | nil => trivial
  | cons v vs ih =>
    exact ⟨h v List.mem_cons_self, ih fun w hw => h w (List.mem_cons_of_mem _ hw)⟩

mutual

/-- The tokens of a value without floats. -/
def tokens : Json → List Token
  | .null => [.null]
  | .bool b => [.bool b]
  | .number n => [.number n.numeral]
  | .text s => [.string (.text s)]
  | .list es => .openList :: [Token.comma].intercalate (elementTokens es) ++ [.closeList]
  | .object ms => .openObject :: [Token.comma].intercalate (memberTokens ms) ++ [.closeObject]

def elementTokens : List Json → List (List Token)
  | [] => []
  | v :: vs => tokens v :: elementTokens vs

def memberTokens : List (String × Json) → List (List Token)
  | [] => []
  | (k, v) :: ms => (.string (.text k) :: .colon :: tokens v) :: memberTokens ms

end

namespace Token

/-! ### Between tokens -/

/-- The lexer after more characters. -/
def Lexer.readAll (l : Lexer) (cs : List Char) : Lexer := (Text.ofChars cs).foldl Lexer.step l

theorem Lexer.readAll_cons (l : Lexer) (c : Char) (cs : List Char) :
    l.readAll (c :: cs) = (l.step (.char c)).readAll cs := rfl

theorem Lexer.readAll_append (l : Lexer) (cs ds : List Char) :
    l.readAll (cs ++ ds) = (l.readAll cs).readAll ds := by
  simp only [readAll, Text.ofChars, List.map_append, List.foldl_append]

/-- The lexer has these tokens behind it, the last one first. If that is a number, it may go on. -/
inductive Lexer.After : List Token → Lexer → Prop where
  | between {ts : List Token} : After ts ⟨ts, .between⟩
  | number {ts : List Token} {o : OpenNumber} : o.stage.complete = true →
      After (o.close :: ts) ⟨ts, .number o⟩

/-- Characters that end a number. -/
def isMark (c : Char) : Bool := c == ',' || c == ']' || c == '}'

theorem extend?_mark (o : OpenNumber) {c : Char} (h : isMark c = true) : o.extend? c = none := by
  have hc : c = ',' ∨ c = ']' ∨ c = '}' := by simpa [isMark, or_assoc] using h
  rcases o with ⟨n, stage⟩
  rcases hc with rfl | rfl | rfl <;> cases stage <;> rfl

theorem Lexer.After.step_mark {ts : List Token} {l : Lexer} (h : After ts l) {c : Char}
    (hc : isMark c = true) : l.step (.char c) = Lexer.start ⟨ts, .between⟩ c := by
  cases h with
  | between => rfl
  | @number ts o hcomplete =>
    have hdigit : Number.digit? c = none := by
      have hc : c = ',' ∨ c = ']' ∨ c = '}' := by simpa [isMark, or_assoc] using hc
      rcases hc with rfl | rfl | rfl <;> rfl
    simp only [step, Text.Symbol.char?, Option.bind_some, extend?_mark o hc, hdigit, hcomplete,
      Option.isSome_none, Bool.and_false, Bool.not_false, Bool.and_true, if_true]
    rfl

theorem Lexer.After.finish_eq {ts : List Token} {l : Lexer} (h : After ts l) :
    l.finish = ts.reverse := by
  cases h with
  | between => rfl
  | number hcomplete => simp [finish, hcomplete]

/-- Between tokens, the lexer reads the characters as the tokens. -/
def Reads (cs : List Char) (ts : List Token) : Prop :=
  ∀ before, Lexer.After (ts.reverse ++ before) (Lexer.readAll ⟨before, .between⟩ cs)

theorem Reads.scan_eq {cs : List Char} {ts : List Token} (h : Reads cs ts) :
    scan (Text.ofChars cs) = ts := by
  have hend := (h []).finish_eq
  rw [List.append_nil, List.reverse_reverse] at hend
  exact hend

/-! ### Strings -/

theorem utf8Size_digitChar {d : Nat} (h : d < 16) : (Nat.digitChar d).utf8Size = 1 := by
  revert d
  decide

theorem readAll_escaped (ts : List Token) (cs : List Char) {c : Char} (h : c < ' ') :
    Lexer.readAll ⟨ts, .string { chars := cs }⟩
        ['\\', 'u', '0', '0', Nat.digitChar (c.toNat / 16), Nat.digitChar (c.toNat % 16)] =
      ⟨ts, .string { chars := c :: cs }⟩ := by
  have hc : c.toNat < 32 := h
  have hhigh : c.toNat / 16 < 16 := by omega
  have hlow : c.toNat % 16 < 16 := by omega
  have hvalue : c.toNat / 16 * 16 + c.toNat % 16 = c.toNat := Nat.div_add_mod' _ _
  have hchar : Char.ofNat c.toNat = c := Char.ofNat_toNat c
  -- three digits add to the value, the fourth completes the character
  have hhex : ∀ (taken value : Nat) (d : Nat), d < 16 → taken + 1 < 4 →
      Lexer.step ⟨ts, .string { chars := cs, escape := .hex taken (some value) }⟩
          (.char (Nat.digitChar d)) =
        ⟨ts, .string { chars := cs, escape := .hex (taken + 1) (some (value * 16 + d)) }⟩ := by
    intro taken value d hd htaken
    simp [Lexer.step, Lexer.inString, Text.Symbol.char?, Text.Symbol.width, utf8Size_digitChar hd,
      Number.hexDigit?_digitChar hd, htaken]
  have hlast : ∀ (value : Nat) (d : Nat), d < 16 → value * 16 + d < 0xD800 →
      Lexer.step ⟨ts, .string { chars := cs, escape := .hex 3 (some value) }⟩
          (.char (Nat.digitChar d)) =
        ⟨ts, .string { chars := Char.ofNat (value * 16 + d) :: cs }⟩ := by
    intro value d hd hvalue
    have hnot : ¬ 0xDC00 ≤ value * 16 + d := by omega
    have hnot' : ¬ 0xD800 ≤ value * 16 + d := by omega
    simp [Lexer.step, Lexer.inString, Text.Symbol.char?, Text.Symbol.width, utf8Size_digitChar hd,
      Number.hexDigit?_digitChar hd, OpenString.pushUnit, OpenString.push, hnot, hnot']
  have hzero : Nat.digitChar 0 = '0' := rfl
  simp only [Lexer.readAll_cons]
  have hopen : Lexer.step (Lexer.step ⟨ts, .string { chars := cs }⟩ (.char '\\')) (.char 'u') =
      ⟨ts, .string { chars := cs, escape := .hex 0 (some 0) }⟩ := rfl
  rw [hopen, ← hzero, hhex 0 0 0 (by decide) (by decide), hhex 1 0 0 (by decide) (by decide),
    hhex 2 0 _ hhigh (by decide), hlast _ _ hlow (by omega)]
  simp only [Nat.zero_mul, Nat.zero_add, hvalue, hchar]
  rfl

theorem inString_plain (ts : List Token) (cs : List Char) {c : Char} (hquote : c ≠ '"')
    (hbackslash : c ≠ '\\') (hcontrol : ¬ c < ' ') :
    Lexer.inString ⟨ts, .between⟩ { chars := cs } (.char c) =
      ⟨ts, .string { chars := c :: cs }⟩ := by
  unfold Lexer.inString
  split
  · rename_i h
    cases h
  · rename_i h
    exact absurd (Text.Symbol.char.inj h) hquote
  · rename_i h
    exact absurd (Text.Symbol.char.inj h) hbackslash
  · rename_i h
    cases h
    exact if_neg hcontrol
  all_goals contradiction

/-- A character is read from what it is written as in a string. -/
theorem readAll_quotedChar (ts : List Token) (cs : List Char) (c : Char) :
    Lexer.readAll ⟨ts, .string { chars := cs }⟩ (quotedChar c) =
      ⟨ts, .string { chars := c :: cs }⟩ := by
  unfold quotedChar
  split
  iterate 7 rfl
  · rename_i hquote hbackslash _ _ _ _ _
    split_ifs with hcontrol
    · exact readAll_escaped ts cs hcontrol
    · exact inString_plain ts cs hquote hbackslash hcontrol

theorem readAll_quoted (ts : List Token) (done cs : List Char) :
    Lexer.readAll ⟨ts, .string { chars := done }⟩ (cs.flatMap quotedChar) =
      ⟨ts, .string { chars := cs.reverse ++ done }⟩ := by
  induction cs generalizing done with
  | nil => rfl
  | cons c cs ih =>
    rw [List.flatMap_cons, Lexer.readAll_append, readAll_quotedChar, ih, List.reverse_cons,
      List.append_assoc, List.singleton_append]

/-- A quoted text is read as one string, whatever its characters are. -/
theorem readAll_quote (ts : List Token) (s : String) :
    Lexer.readAll ⟨ts, .between⟩ (quote s) = ⟨.string (.text s) :: ts, .between⟩ := by
  have hstart : Lexer.readAll ⟨ts, .between⟩ (quote s) =
      Lexer.readAll (Lexer.readAll ⟨ts, .string {}⟩ (s.toList.flatMap quotedChar)) ['"'] :=
    Lexer.readAll_append _ _ _
  have hclose : ∀ cs, Lexer.readAll ⟨ts, .string { chars := cs }⟩ ['"'] =
      ⟨.string (.text (String.ofList cs.reverse)) :: ts, .between⟩ := fun _ => rfl
  rw [hstart, readAll_quoted, hclose, List.append_nil, List.reverse_reverse, String.ofList_toList]

theorem reads_quote (s : String) : Reads (quote s) [.string (.text s)] := by
  intro before
  rw [readAll_quote]
  exact .between

/-! ### Numbers -/

theorem digit?_digitChar {d : Nat} (h : d < 10) : Number.digit? (Nat.digitChar d) = some d := by
  revert d
  decide

theorem decimals_of_lt {n : Nat} (h : n < 10) : decimals n = [n] := by
  revert n
  decide

theorem decimals_snoc {n d : Nat} (hn : 0 < n) (hd : d < 10) :
    decimals (n * 10 + d) = decimals n ++ [d] := by
  have hlast : decimals d = [d] := decimals_of_lt hd
  rw [Nat.mul_comm, decimals, ← Nat.toDigits_append_toDigits (by decide) hn hd, List.map_append, ← hlast]
  rfl

/-- The number under way after the digits of `n`. -/
def openNumeral (negative : Bool) (n : Nat) : OpenNumber :=
  ⟨{ negative := negative, whole := (decimals n).reverse }, if n = 0 then .zero else .whole⟩

theorem openNumeral_complete (negative : Bool) (n : Nat) :
    (openNumeral negative n).stage.complete = true := by
  unfold openNumeral
  split <;> rfl

theorem readAll_digits (ts : List Token) (negative : Bool) (n : Nat) :
    Lexer.readAll ⟨ts, .number ⟨{ negative := negative }, .sign⟩⟩ (Nat.toDigits 10 n) =
      ⟨ts, .number (openNumeral negative n)⟩ := by
  refine Number.digits_induction (motive := fun n cs =>
    Lexer.readAll ⟨ts, .number ⟨{ negative := negative }, .sign⟩⟩ cs =
      ⟨ts, .number (openNumeral negative n)⟩) (by decide) (fun d hd => ?_) (fun n cs d hn hd ih => ?_) n
  · have hdigit := digit?_digitChar hd
    rw [Lexer.readAll_cons, openNumeral, decimals_of_lt hd]
    cases d with
    | zero => rfl
    | succ d =>
      simp [Lexer.step, Text.Symbol.char?, OpenNumber.extend?, hdigit]
      rfl
  · have hpos : n ≠ 0 := Nat.ne_of_gt hn
    have hne : n * 10 + d ≠ 0 := by omega
    have hdigit := digit?_digitChar hd
    rw [Lexer.readAll_append, ih, openNumeral, openNumeral, if_neg hpos, if_neg hne,
      decimals_snoc hn hd, List.reverse_append]
    simp [Lexer.readAll_cons, Lexer.step, Text.Symbol.char?, OpenNumber.extend?, hdigit]
    rfl

theorem start_digit (ts : List Token) {d : Nat} (h : d < 10) :
    Lexer.start ⟨ts, .between⟩ (Nat.digitChar d) =
      Lexer.step ⟨ts, .number ⟨{}, .sign⟩⟩ (.char (Nat.digitChar d)) := by
  interval_cases d <;> rfl

theorem toDigits_eq_cons (n : Nat) :
    ∃ d cs, d < 10 ∧ Nat.toDigits 10 n = Nat.digitChar d :: cs := by
  refine Number.digits_induction (motive := fun _ cs' => ∃ d cs, d < 10 ∧ cs' = Nat.digitChar d :: cs)
    (by decide) (fun d hd => ⟨d, [], hd, rfl⟩) ?_ n
  rintro n _ e - - ⟨d, cs, hd, rfl⟩
  exact ⟨d, cs ++ [Nat.digitChar e], hd, rfl⟩

theorem reads_number {n : Number} (h : Integral (.number n)) :
    Reads n.render [.number n.numeral] := by
  intro before
  have hclose : ∀ negative k, OpenNumber.close (openNumeral negative k) =
      .number { negative := negative, whole := decimals k } := fun negative k => by
    simp [OpenNumber.close, openNumeral]
  cases n with
  | natural k =>
    have hstart : Lexer.readAll ⟨before, .between⟩ (Nat.toDigits 10 k) =
        Lexer.readAll ⟨before, .number ⟨{}, .sign⟩⟩ (Nat.toDigits 10 k) := by
      obtain ⟨d, cs, hd, hcs⟩ := toDigits_eq_cons k
      rw [hcs, Lexer.readAll_cons, Lexer.readAll_cons, ← start_digit before hd]
      rfl
    rw [Number.render, hstart, readAll_digits]
    exact hclose false k ▸ .number (openNumeral_complete false k)
  | negative k =>
    have hstart : Lexer.readAll ⟨before, .between⟩ (Number.render (.negative k)) =
        Lexer.readAll ⟨before, .number ⟨{ negative := true }, .sign⟩⟩
          (Nat.toDigits 10 k.natAbs) := rfl
    rw [hstart, readAll_digits]
    exact hclose true k.natAbs ▸ .number (openNumeral_complete true k.natAbs)
  | float x => exact absurd h id

/-! ### Whole values -/

theorem reads_commas {ps : List (List Char)} {tss : List (List Token)}
    (h : List.Forall₂ Reads ps tss) : Reads (commas ps) ([Token.comma].intercalate tss) := by
  induction h with
  | nil => exact fun before => .between
  | @cons p ts ps tss hp hps ih =>
    cases hps with
    | nil => simpa [commas] using hp
    | @cons q us ps tss _ _ =>
      intro before
      -- the comma ends the part before it, be that a number
      have hsep : [Token.comma].intercalate (ts :: us :: tss) =
        ts ++ .comma :: [Token.comma].intercalate (us :: tss) := rfl
      have hrest := ih (.comma :: (ts.reverse ++ before))
      rw [commas, Lexer.readAll_append, Lexer.readAll_cons, (hp before).step_mark rfl, hsep,
        List.reverse_append, List.reverse_cons, List.append_assoc, List.append_assoc]
      exact hrest

/-- What stands between brackets or braces is read with them. -/
theorem Reads.enclosed {cs : List Char} {ts : List Token} (h : Reads cs ts) {first last : Char}
    {opening closing : Token}
    (hopen : ∀ before, Lexer.start ⟨before, .between⟩ first = ⟨opening :: before, .between⟩)
    (hclose : ∀ before, Lexer.start ⟨before, .between⟩ last = ⟨closing :: before, .between⟩)
    (hmark : isMark last = true) : Reads (first :: cs ++ [last]) (opening :: ts ++ [closing]) := by
  intro before
  have hstart : Lexer.readAll ⟨before, .between⟩ (first :: cs ++ [last]) =
      Lexer.readAll (Lexer.start ⟨before, .between⟩ first) (cs ++ [last]) := rfl
  have hend := (h (opening :: before)).step_mark hmark
  rw [hclose] at hend
  have hlist : (opening :: ts ++ [closing]).reverse ++ before =
      closing :: (ts.reverse ++ opening :: before) := by simp
  rw [hstart, hopen, Lexer.readAll_append, Lexer.readAll_cons, hend, hlist]
  exact .between

theorem reads_member {k : String} {cs : List Char} {ts : List Token} (h : Reads cs ts) :
    Reads (quote k ++ ':' :: cs) (.string (.text k) :: .colon :: ts) := by
  intro before
  have hkey : Lexer.readAll ⟨before, .between⟩ (quote k) =
      ⟨.string (.text k) :: before, .between⟩ := readAll_quote before k
  have hcolon : Lexer.step ⟨.string (.text k) :: before, .between⟩ (.char ':') =
      ⟨.colon :: .string (.text k) :: before, .between⟩ := rfl
  have hvalue := h (.colon :: .string (.text k) :: before)
  rw [Lexer.readAll_append, hkey, Lexer.readAll_cons, hcolon]
  simpa using hvalue

mutual

/-- The text of a value without floats is read as the value's tokens. -/
theorem reads_chars : ∀ {v : Json}, v.Integral → Reads v.chars v.tokens
  | .null, _ => fun _ => .between
  | .bool true, _ => fun _ => .between
  | .bool false, _ => fun _ => .between
  | .number _, h => reads_number h
  | .text s, _ => reads_quote s
  | .list _, h => (reads_commas (reads_elements h)).enclosed (fun _ => rfl) (fun _ => rfl) rfl
  | .object _, h => (reads_commas (reads_members h)).enclosed (fun _ => rfl) (fun _ => rfl) rfl

theorem reads_elements : ∀ {vs : List Json}, IntegralElements vs →
    List.Forall₂ Reads (elementChars vs) (elementTokens vs)
  | [], _ => .nil
  | _ :: _, h => .cons (reads_chars h.1) (reads_elements h.2)

theorem reads_members : ∀ {ms : List (String × Json)}, IntegralMembers ms →
    List.Forall₂ Reads (memberChars ms) (memberTokens ms)
  | [], _ => .nil
  | _ :: _, h => .cons (reads_member (reads_chars h.1)) (reads_members h.2)

end

/-- The tokens of the text that a value without floats is written as are those of the value. -/
theorem scan_chars {v : Json} (h : v.Integral) : scan (Text.ofChars v.chars) = v.tokens :=
  (reads_chars h).scan_eq

end Token
end NetworkPolicy.Json
