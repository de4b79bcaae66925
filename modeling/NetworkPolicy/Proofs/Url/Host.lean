import NetworkPolicy.Proofs.Lists
import NetworkPolicy.Proofs.Text.Bytes
import NetworkPolicy.Proofs.Text.Ends
import NetworkPolicy.Proofs.Url.Form
import NetworkPolicy.Url.Host

/-! Characters that no host is named with: a text in which one stands is no domain name, whatever
stands around it. -/
namespace NetworkPolicy

/-- A byte that is neither a percent sign nor a digit is decoded to itself. -/
theorem Percent.mem_decode {b : UInt8} (hb : b ≠ 0x25) (hdigit : hexValue? b = none)
    {bs : List UInt8} (h : b ∈ bs) : b ∈ decode bs := by
  have hne {c : UInt8} {x : Nat} (hc : hexValue? c = some x) : b ≠ c := by
    rintro rfl
    exact Option.some_ne_none x (hc.symm.trans hdigit)
  fun_induction decode bs with
  | case1 high low rest x y hx hy ih =>
    have hrest : b ∈ rest := by simpa [hb, hne hx, hne hy] using h
    exact List.mem_cons_of_mem _ (ih hrest)
  | case2 high low rest hnot ih =>
    have hrest : b ∈ high :: low :: rest := by simpa [hb] using h
    exact List.mem_cons_of_mem _ (ih hrest)
  | case3 c rest hnot ih =>
    rcases List.mem_cons.mp h with rfl | h
    · exact List.mem_cons_self
    · exact List.mem_cons_of_mem _ (ih h)
  | case4 => exact h

namespace Text

theorem strict?_eq_some {ss : List Symbol} {cs : List Char} (h : strict? ss = some cs) :
    ss = ofChars cs := by
  have hall := mapM_eq_some_iff.mp h
  clear h
  induction hall with
  | nil => rfl
  | @cons s c ss cs hs _ ih =>
    cases s with
    | char d =>
      cases hs
      exact congrArg _ ih
    | stray bytes => cases hs

theorem Symbol.start_low {b : UInt8} {p : Symbol.Unfinished} (h : Symbol.start b = .inr p) :
    0x80 ≤ p.low := by
  unfold Symbol.start at h
  split_ifs at h <;> cases h <;> simp

-- no byte below 128 goes on with a character
theorem Symbol.ne_of_continues {b x : UInt8} (hb : b < 0x80) {p : Symbol.Unfinished}
    (hlow : 0x80 ≤ p.low) (hx : (p.low ≤ x && x ≤ p.high) = true) : b ≠ x := by
  rintro rfl
  have hle : p.low ≤ b := by simpa using (Bool.and_eq_true_iff.mp hx).1
  exact absurd (UInt8.le_trans hlow hle) (UInt8.not_le.mpr hb)

/-- A byte below 128 is a character of its own wherever it stands. -/
theorem Symbol.mem_split {b : UInt8} (hb : b < 0x80) {bs : List UInt8} {pending : Option Unfinished}
    (hpending : ∀ p, pending = some p → 0x80 ≤ p.low) {cs : List Char} (h : b ∈ bs)
    (hcs : split pending bs = ofChars cs) : Char.ofNat b.toNat ∈ cs := by
  have hstart : start b = .inl (.char (Char.ofNat b.toNat)) := if_pos hb
  induction bs generalizing pending cs with
  | nil => cases h
  | cons x bs ih =>
    cases pending with
    | none =>
      rw [split] at hcs
      cases hx : start x with
      | inl s =>
        rw [hx] at hcs
        cases cs with
        | nil => cases hcs
        | cons c cs =>
          obtain ⟨hs, hrest⟩ := List.cons.inj hcs
          rcases List.mem_cons.mp h with rfl | h
          · rw [hstart] at hx
            cases hx
            cases hs
            exact List.mem_cons_self
          · exact List.mem_cons_of_mem _ (ih (by simp) h hrest)
      | inr p =>
        rw [hx] at hcs
        have hne : b ≠ x := by
          rintro rfl
          rw [hstart] at hx
          cases hx
        have hrest : b ∈ bs := by simpa [hne] using h
        have hlow : 0x80 ≤ p.low := start_low hx
        exact ih (by simpa using hlow) hrest hcs
    | some p =>
      have hlow : 0x80 ≤ p.low := hpending p rfl
      rw [split] at hcs
      split_ifs at hcs with hx hlast
      · have hrest : b ∈ bs := by simpa [ne_of_continues hb hlow hx] using h
        cases cs with
        | nil => cases hcs
        | cons c cs => exact List.mem_cons_of_mem _ (ih (by simp) hrest (List.cons.inj hcs).2)
      · have hrest : b ∈ bs := by simpa [ne_of_continues hb hlow hx] using h
        exact ih (by simp) hrest hcs
      · cases cs <;> cases hcs

theorem mem_of_strict? {b : UInt8} (hb : b < 0x80) {bs : List UInt8} {cs : List Char}
    (h : b ∈ bs) (hcs : strict? (ofByteList bs) = some cs) : Char.ofNat b.toNat ∈ cs := by
  have hunits := strict?_eq_some hcs
  rcases ofByteList_cases bs with ⟨ds, rfl, hds⟩ | hsplit
  · have hsame : ofChars ds = ofChars cs := hds.symm.trans hunits
    have hchars : ds = cs := List.map_injective_iff.mpr (fun _ _ => Symbol.char.inj) hsame
    rw [← hchars]
    exact mem_of_mem_bytes hb h
  · rw [hsplit] at hunits
    exact Symbol.mem_split hb (by simp) h hunits

end Text

namespace Url.Host

/-- A character below 128, other than the percent sign, that no domain name holds. -/
structure Barred (c : Char) : Prop where
  forbidden : isForbidden c = true
  ascii : c.toNat < 128
  plain : c ≠ '%'

/-- A barred character stays as it is, and is no digit and nothing that a name is cut at. -/
theorem Barred.spec {c : Char} (h : Barred c) :
    fold c = [c] ∧ c ∉ ".-xn".toList ∧ Number.hexDigit? c = none ∧ Punycode.digit? c = none := by
  have hname : ∀ n < 128, isForbidden (Char.ofNat n) = true → Char.ofNat n ≠ '%' →
      fold (Char.ofNat n) = [Char.ofNat n] ∧ Char.ofNat n ∉ ".-xn".toList := by
    decide +kernel
  have hdigit : ∀ n < 128, isForbidden (Char.ofNat n) = true → Char.ofNat n ≠ '%' →
      Number.hexDigit? (Char.ofNat n) = none ∧ Punycode.digit? (Char.ofNat n) = none := by
    decide +kernel
  have hc := hname c.toNat h.ascii
  have hc' := hdigit c.toNat h.ascii
  rw [Char.ofNat_toNat] at hc hc'
  obtain ⟨hfold, hcut⟩ := hc h.forbidden h.plain
  exact ⟨hfold, hcut, hc' h.forbidden h.plain⟩

/-! ### Encoded labels -/

theorem mem_insert {α : Type} {x y : α} {xs : List α} (i : Nat) (h : x ∈ xs) :
    x ∈ xs.take i ++ y :: xs.drop i := by
  rw [← List.take_append_drop i xs] at h
  rcases List.mem_append.mp h with h | h
  · exact List.mem_append_left _ h
  · exact List.mem_append_right _ (List.mem_cons_of_mem _ h)

theorem mem_step? {r r' : Punycode.Reading} {c d : Char} (h : Punycode.step? r c = some r')
    (hd : d ∈ r.chars) : d ∈ r'.chars := by
  obtain ⟨n, -, h⟩ := Option.bind_eq_some_iff.mp h
  dsimp only at h
  split_ifs at h with hlarge hdigit hvalid
  · cases h
    exact hd
  · cases h
    exact mem_insert _ hd

theorem step?_barred {c : Char} (h : Barred c) (r : Punycode.Reading) :
    Punycode.step? r c = none := by
  rw [Punycode.step?, h.spec.2.2.2]
  rfl

/-- What the digits are read with keeps its characters, and no digit is barred. -/
theorem foldlM_step? {r r' : Punycode.Reading} {cs : List Char}
    (h : cs.foldlM Punycode.step? r = some r') :
    (∀ d ∈ r.chars, d ∈ r'.chars) ∧ ∀ c ∈ cs, ¬Barred c := by
  induction cs generalizing r with
  | nil =>
    cases h
    exact ⟨fun d hd => hd, fun c hc => nomatch hc⟩
  | cons c cs ih =>
    rw [List.foldlM_cons] at h
    obtain ⟨s, hs, hrest⟩ := Option.bind_eq_some_iff.mp h
    obtain ⟨hkept, hnone⟩ := ih hrest
    have hc : ¬Barred c := by
      intro hbarred
      rw [step?_barred hbarred] at hs
      cases hs
    refine ⟨fun d hd => hkept d (mem_step? hs hd), ?_⟩
    intro e he
    rcases List.mem_cons.mp he with rfl | he
    · exact hc
    · exact hnone e he

theorem mem_dropLast_of_ne {c d : Char} {cs : List Char} (hc : c ∈ cs)
    (hlast : ∀ e, cs.getLast? = some e → e = d) (hne : c ≠ d) : c ∈ cs.dropLast := by
  have hsome : cs ≠ [] := List.ne_nil_of_mem hc
  rw [← List.dropLast_append_getLast hsome] at hc
  rcases List.mem_append.mp hc with hc | hc
  · exact hc
  · have hsame := List.mem_singleton.mp hc
    exact absurd (hsame.trans (hlast _ (List.getLast?_eq_some_getLast hsome))) hne

/-- What stands before the last part of a text is cut off by the length of that part. -/
theorem take_sub_rtakeWhile (p : Char → Bool) (cs : List Char) :
    cs.take (cs.length - (cs.reverse.takeWhile p).length) = cs.rdropWhile p := by
  have hsplit : cs.rdropWhile p ++ cs.rtakeWhile p = cs := List.rdropWhile_append_rtakeWhile
  have hlast : (cs.reverse.takeWhile p).length = (cs.rtakeWhile p).length := by
    rw [List.rtakeWhile, List.length_reverse]
  have hlength : cs.length - (cs.rtakeWhile p).length = (cs.rdropWhile p).length := by
    have hsum := congrArg List.length hsplit
    rw [List.length_append] at hsum
    omega
  rw [hlast, hlength]
  conv_lhs =>
    arg 2
    rw [← hsplit]
  exact List.take_left

/-- A barred character among those of an encoded label is among those that the label stands for. -/
theorem mem_decode? {c : Char} (h : Barred c) {cs ds : List Char} (hc : c ∈ cs)
    (hds : Punycode.decode? cs = some ds) : c ∈ ds := by
  obtain ⟨r, hr, hfresh⟩ := Option.bind_eq_some_iff.mp hds
  rw [take_sub_rtakeWhile] at hr
  obtain ⟨hkept, hnone⟩ := foldlM_step? hr
  split_ifs at hfresh with hend
  obtain rfl : r.chars = ds := Option.some.inj hfresh
  have hne : c ≠ '-' := by
    rintro rfl
    exact h.spec.2.1 (by decide)
  have hlast : ∀ e, (cs.rdropWhile (· != '-')).getLast? = some e → e = '-' := by
    intro e he
    simpa using Text.last_rdropWhile he
  have hsplit : cs = cs.rdropWhile (· != '-') ++ cs.rtakeWhile (· != '-') :=
    List.rdropWhile_append_rtakeWhile.symm
  rw [hsplit] at hc
  rcases List.mem_append.mp hc with hc | hc
  · exact hkept c (mem_dropLast_of_ne hc hlast hne)
  · exact absurd h (hnone c hc)

/-! ### Names -/

theorem label?_barred {c : Char} (h : Barred c) {cs : List Char} (hc : c ∈ cs) :
    label? cs = none := by
  unfold label?
  split
  · rename_i code
    have hcode : c ∈ code := by
      have hx : c ≠ 'x' := by
        rintro rfl
        exact h.spec.2.1 (by decide)
      have hn : c ≠ 'n' := by
        rintro rfl
        exact h.spec.2.1 (by decide)
      have hhyphen : c ≠ '-' := by
        rintro rfl
        exact h.spec.2.1 (by decide)
      simpa [hx, hn, hhyphen] using hc
    cases hdecoded : Punycode.decode? code with
    | none => rfl
    | some ds =>
      have hany : ds.any isForbidden = true :=
        List.any_eq_true.mpr ⟨c, mem_decode? h hcode hdecoded, h.forbidden⟩
      show (if ds.all (·.toNat < 128) || ds.any isForbidden then none else some ds) = none
      rw [hany, Bool.or_true, if_pos rfl]
  · have hany : cs.any isForbidden = true := List.any_eq_true.mpr ⟨c, hc, h.forbidden⟩
    rw [if_pos hany]

theorem exists_mem_splitOn {c d : Char} {cs : List Char} (hc : c ∈ cs) (hne : c ≠ d) :
    ∃ part ∈ cs.splitOn d, c ∈ part := by
  induction cs with
  | nil => cases hc
  | cons e cs ih =>
    rw [List.splitOn_cons_eq_if_modifyHead]
    split_ifs with hcut
    · have hcs : c ∈ cs := by simpa [hne, eq_of_beq hcut] using hc
      obtain ⟨part, hpart, hmem⟩ := ih hcs
      exact ⟨part, List.mem_cons_of_mem _ hpart, hmem⟩
    · obtain ⟨first, others, hparts⟩ := List.exists_cons_of_ne_nil (List.splitOn_ne_nil d cs)
      rw [hparts, List.modifyHead_cons]
      rcases List.mem_cons.mp hc with rfl | hc
      · exact ⟨_, List.mem_cons_self, List.mem_cons_self⟩
      · obtain ⟨part, hpart, hmem⟩ := ih hc
        rw [hparts] at hpart
        rcases List.mem_cons.mp hpart with rfl | hpart
        · exact ⟨_, List.mem_cons_self, List.mem_cons_of_mem _ hmem⟩
        · exact ⟨part, List.mem_cons_of_mem _ hpart, hmem⟩

/-- A barred character is still there when a text is decoded. -/
theorem Barred.mem_decoded {c : Char} (h : Barred c) {cs ds : List Char} (hc : c ∈ cs)
    (hdecoded : Text.strict? (Text.ofByteList (Percent.decode (Percent.bytes cs))) = some ds) :
    c ∈ ds := by
  have hvalue : (UInt8.ofNat c.toNat).toNat = c.toNat := Percent.toNat_byte h.ascii
  have hlow : UInt8.ofNat c.toNat < 0x80 := by
    show (UInt8.ofNat c.toNat).toNat < 128
    rw [hvalue]
    exact h.ascii
  have hwritten : UInt8.ofNat c.toNat ∈ Percent.bytes cs := by
    apply List.mem_flatMap.mpr
    refine ⟨c, hc, ?_⟩
    rw [Percent.utf8EncodeChar_ascii h.ascii]
    exact List.mem_singleton_self _
  have hdigit : Percent.hexValue? (UInt8.ofNat c.toNat) = none := by
    rw [Percent.hexValue?, hvalue, Char.ofNat_toNat]
    exact h.spec.2.2.1
  have hpercent : UInt8.ofNat c.toNat ≠ 0x25 :=
    fun hsame => h.plain (Percent.byte_inj (d := '%') h.ascii (by decide) hsame)
  have hmem := Text.mem_of_strict? hlow (Percent.mem_decode hpercent hdigit hwritten) hdecoded
  rw [hvalue, Char.ofNat_toNat] at hmem
  exact hmem

/-- No text with a barred character is a host, unless it begins as an address in brackets does. -/
theorem parse_barred {c : Char} (h : Barred c) {cs : List Char} (hc : c ∈ cs)
    (hbracket : cs.head? ≠ some '[') : Host.parse cs = .error .badDomain := by
  have hdot : c ≠ '.' := by
    rintro rfl
    exact h.spec.2.1 (by decide)
  rw [parse, if_neg hbracket]
  dsimp only
  cases hdecoded : Text.strict? (Text.ofByteList (Percent.decode (Percent.bytes cs))) with
  | none => rfl
  | some ds =>
    have hfold : c ∈ ds.flatMap fold := by
      apply List.mem_flatMap.mpr
      refine ⟨c, h.mem_decoded hc hdecoded, ?_⟩
      rw [h.spec.1]
      exact List.mem_singleton_self c
    obtain ⟨part, hpart, hmem⟩ := exists_mem_splitOn hfold hdot
    cases hlabels : ((ds.flatMap fold).splitOn '.').mapM label? with
    | none =>
      dsimp only
      rw [hlabels]
    | some labels =>
      have hall := mapM_eq_some_iff.mp hlabels
      obtain ⟨label, -, hlabel⟩ := exists_mem_of_forall₂ hall part hpart
      rw [label?_barred h hmem] at hlabel
      cases hlabel

/-- Nor is it an address in brackets, unless it ends as one does. -/
theorem parse_ne_ok {c : Char} (h : Barred c) {cs : List Char} (hc : c ∈ cs)
    (hlast : cs.getLast? ≠ some ']') (host : Host) : Host.parse cs ≠ .ok host := by
  intro hparse
  by_cases hbracket : cs.head? = some '['
  · rw [parse, if_pos hbracket, bracketed, if_neg hlast] at hparse
    cases hparse
  · rw [parse_barred h hc hbracket] at hparse
    cases hparse

end Url.Host
end NetworkPolicy
