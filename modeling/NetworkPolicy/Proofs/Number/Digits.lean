import Mathlib.Data.List.Induction
import Mathlib.Tactic.Ring
import NetworkPolicy.Number.Digits

/-! Digits and numbers: the digits of a number give it back, small and capital digits give the same, and
among as many capital digits the lexicographic order is the order of the numbers. -/
namespace NetworkPolicy.Number

variable {base n : Nat} {c d : Char} {cs ds : List Char}

/-! ### One digit -/

/-- A hexadecimal digit that is no small letter. -/
def IsCapitalDigit (c : Char) : Prop := '0' ≤ c ∧ c ≤ '9' ∨ 'A' ≤ c ∧ c ≤ 'F'

theorem hexDigit?_eq (c : Char) : hexDigit? c =
    if 48 ≤ c.toNat ∧ c.toNat ≤ 57 then some (c.toNat - 48)
    else if 97 ≤ c.toNat ∧ c.toNat ≤ 102 then some (c.toNat - 87)
    else if 65 ≤ c.toNat ∧ c.toNat ≤ 70 then some (c.toNat - 55)
    else none := rfl

theorem isCapitalDigit_iff :
    IsCapitalDigit c ↔ 48 ≤ c.toNat ∧ c.toNat ≤ 57 ∨ 65 ≤ c.toNat ∧ c.toNat ≤ 70 := Iff.rfl

theorem hexDigit?_digitChar {d : Nat} (h : d < 16) : hexDigit? (Nat.digitChar d) = some d := by
  revert d
  decide

theorem toNat_toUpper (c : Char) :
    c.toUpper.toNat = if 97 ≤ c.toNat ∧ c.toNat ≤ 122 then c.toNat - 32 else c.toNat := by
  have hsmall : c.val ≥ 'a'.val ∧ c.val ≤ 'z'.val ↔ 97 ≤ c.toNat ∧ c.toNat ≤ 122 := Iff.rfl
  unfold Char.toUpper
  split
  · rename_i h
    have hbounds := hsmall.mp h
    have hsum : (c.val + ('A'.val - 'a'.val)).toNat = (c.toNat + (2 ^ 32 - 32)) % 2 ^ 32 :=
      UInt32.toNat_add _ _
    rw [if_pos hbounds]
    show (c.val + ('A'.val - 'a'.val)).toNat = c.toNat - 32
    omega
  · rename_i h
    rw [if_neg fun hbounds => h (hsmall.mpr hbounds)]

theorem hexDigit?_toUpper (c : Char) : hexDigit? c.toUpper = hexDigit? c := by
  rw [hexDigit?_eq, hexDigit?_eq, toNat_toUpper]
  grind

theorem isCapitalDigit_toUpper (h : (hexDigit? c).isSome) : IsCapitalDigit c.toUpper := by
  rw [hexDigit?_eq] at h
  rw [isCapitalDigit_iff, toNat_toUpper]
  grind

theorem IsCapitalDigit.value (h : IsCapitalDigit c) :
    (hexDigit? c).getD 0 = if c.toNat ≤ 57 then c.toNat - 48 else c.toNat - 55 := by
  rw [isCapitalDigit_iff] at h
  rw [hexDigit?_eq]
  grind

theorem IsCapitalDigit.value_lt (h : IsCapitalDigit c) : (hexDigit? c).getD 0 < 16 := by
  rw [h.value]
  rw [isCapitalDigit_iff] at h
  split <;> omega

/-- Capital digits stand in the order of their values. -/
theorem IsCapitalDigit.lt_iff (hc : IsCapitalDigit c) (hd : IsCapitalDigit d) :
    c < d ↔ (hexDigit? c).getD 0 < (hexDigit? d).getD 0 := by
  have hlt : c < d ↔ c.toNat < d.toNat := Iff.rfl
  rw [hlt, hc.value, hd.value]
  rw [isCapitalDigit_iff] at hc hd
  split <;> split <;> omega

theorem IsCapitalDigit.eq_iff (hc : IsCapitalDigit c) (hd : IsCapitalDigit d) :
    c = d ↔ (hexDigit? c).getD 0 = (hexDigit? d).getD 0 := by
  rw [← Char.toNat_inj, hc.value, hd.value]
  rw [isCapitalDigit_iff] at hc hd
  split <;> split <;> omega

/-! ### The number that digits give -/

theorem ofDigits_concat (base : Nat) (cs : List Char) (c : Char) :
    ofDigits base (cs ++ [c]) = ofDigits base cs * base + (hexDigit? c).getD 0 := by
  rw [ofDigits, List.foldl_append]
  rfl

theorem ofDigits_cons (base : Nat) (c : Char) (cs : List Char) :
    ofDigits base (c :: cs) = (hexDigit? c).getD 0 * base ^ cs.length + ofDigits base cs := by
  induction cs using List.reverseRecOn with
  | nil => simp [ofDigits]
  | append_singleton cs d ih =>
    rw [← List.cons_append, ofDigits_concat, ih, ofDigits_concat, List.length_append,
      List.length_singleton, Nat.pow_succ]
    ring

theorem ofDigits_zeros (base k : Nat) (cs : List Char) :
    ofDigits base (List.replicate k '0' ++ cs) = ofDigits base cs := by
  have hzero : (hexDigit? '0').getD 0 = 0 := rfl
  induction k with
  | zero => rfl
  | succ k ih => rw [List.replicate_succ, List.cons_append, ofDigits_cons, ih, hzero, Nat.zero_mul,
      Nat.zero_add]

theorem ofDigits_map_toUpper (base : Nat) (cs : List Char) :
    ofDigits base (cs.map Char.toUpper) = ofDigits base cs := by
  simp only [ofDigits, List.foldl_map, hexDigit?_toUpper]

/-- What holds of single digits, and of the digits of a number with one more behind them, holds of the
digits of every number. -/
theorem digits_induction {motive : Nat → List Char → Prop} (hbase : 1 < base)
    (single : ∀ d < base, motive d [Nat.digitChar d])
    (snoc : ∀ n cs d, 0 < n → d < base → motive n cs →
      motive (n * base + d) (cs ++ [Nat.digitChar d])) (n : Nat) :
    motive n (Nat.toDigits base n) := by
  induction n using Nat.strongRecOn with
  | ind n ih =>
    by_cases h : n < base
    · rw [Nat.toDigits_of_lt_base h]
      exact single n h
    · have hle : base ≤ n := Nat.le_of_not_lt h
      have hfront : 0 < n / base := Nat.div_pos hle (by omega)
      have hlast : n % base < base := Nat.mod_lt n (by omega)
      have hless : n / base < n := Nat.div_lt_self (by omega) hbase
      have hall := snoc _ _ _ hfront hlast (ih _ hless)
      rwa [Nat.div_add_mod', ← Nat.toDigits_of_base_le hbase hle] at hall

/-- The digits of a number give it back, in any base that has a character for each digit. -/
theorem ofDigits_toDigits (hbase : 1 < base) (hmost : base ≤ 16) (n : Nat) :
    ofDigits base (Nat.toDigits base n) = n := by
  refine digits_induction (motive := fun n cs => ofDigits base cs = n) hbase (fun d hd => ?_)
    (fun n cs d _ hd ih => ?_) n
  · have hdigit := hexDigit?_digitChar (Nat.lt_of_lt_of_le hd hmost)
    rw [ofDigits_cons, hdigit]
    simp [ofDigits]
  · have hdigit := hexDigit?_digitChar (Nat.lt_of_lt_of_le hd hmost)
    rw [ofDigits_concat, ih, hdigit, Option.getD_some]

theorem mem_toDigits (hbase : 1 < base) (h : c ∈ Nat.toDigits base n) :
    ∃ d < base, c = Nat.digitChar d := by
  revert h
  refine digits_induction (motive := fun _ cs => c ∈ cs → ∃ d < base, c = Nat.digitChar d) hbase
    (fun d hd h => ?_) (fun n cs d _ hd ih h => ?_) n
  · exact ⟨d, hd, List.mem_singleton.mp h⟩
  · rcases List.mem_append.mp h with h | h
    · exact ih h
    · exact ⟨d, hd, List.mem_singleton.mp h⟩

/-! ### Order -/

theorem ofDigits_lt_pow (h : ∀ c ∈ cs, IsCapitalDigit c) : ofDigits 16 cs < 16 ^ cs.length := by
  induction cs with
  | nil => exact Nat.one_pos
  | cons c cs ih =>
    obtain ⟨hc, hcs⟩ := List.forall_mem_cons.mp h
    have hfirst : (hexDigit? c).getD 0 + 1 ≤ 16 := hc.value_lt
    have hrest : ofDigits 16 cs < 16 ^ cs.length := ih hcs
    calc ofDigits 16 (c :: cs)
        = (hexDigit? c).getD 0 * 16 ^ cs.length + ofDigits 16 cs := ofDigits_cons 16 c cs
      _ < ((hexDigit? c).getD 0 + 1) * 16 ^ cs.length := by
          rw [Nat.succ_mul]
          exact Nat.add_lt_add_left hrest _
      _ ≤ 16 * 16 ^ cs.length := Nat.mul_le_mul_right _ hfirst
      _ = 16 ^ (c :: cs).length := (Nat.pow_succ' ..).symm

/-- Of two numbers that are split alike, the parts above decide first. -/
theorem split_lt_iff {p v w a b : Nat} (ha : a < p) (hb : b < p) :
    v * p + a < w * p + b ↔ v < w ∨ v = w ∧ a < b := by
  rcases Nat.lt_trichotomy v w with h | rfl | h
  · have hstep : (v + 1) * p ≤ w * p := Nat.mul_le_mul_right p h
    rw [Nat.succ_mul] at hstep
    exact iff_of_true (by omega) (Or.inl h)
  · simp
  · have hstep : (w + 1) * p ≤ v * p := Nat.mul_le_mul_right p h
    rw [Nat.succ_mul] at hstep
    exact iff_of_false (by omega) (by omega)

/-- As many capital digits stand in the order of the numbers that they give. -/
theorem lt_iff_ofDigits_lt (hcs : ∀ c ∈ cs, IsCapitalDigit c) (hds : ∀ d ∈ ds, IsCapitalDigit d)
    (hlength : cs.length = ds.length) : cs < ds ↔ ofDigits 16 cs < ofDigits 16 ds := by
  induction cs generalizing ds with
  | nil =>
    obtain rfl := List.eq_nil_of_length_eq_zero hlength.symm
    exact iff_of_false (List.not_lt_nil _) (Nat.lt_irrefl _)
  | cons c cs ih =>
    cases ds with
    | nil => cases hlength
    | cons d ds =>
      obtain ⟨hc, hcs⟩ := List.forall_mem_cons.mp hcs
      obtain ⟨hd, hds⟩ := List.forall_mem_cons.mp hds
      have hlength : cs.length = ds.length := Nat.succ.inj hlength
      have hleft : ofDigits 16 cs < 16 ^ ds.length := hlength ▸ ofDigits_lt_pow hcs
      rw [List.cons_lt_cons_iff, ih hcs hds hlength, ofDigits_cons, ofDigits_cons, hlength,
        split_lt_iff hleft (ofDigits_lt_pow hds), hc.lt_iff hd, hc.eq_iff hd]

end NetworkPolicy.Number
