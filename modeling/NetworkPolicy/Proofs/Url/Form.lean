import NetworkPolicy.Proofs.Text.Bytes
import NetworkPolicy.Url.Form

/-! Form encoding loses nothing: pairs of any names and values are read from the bytes that they are
written in. -/
namespace NetworkPolicy

/-! ### Percent-encoded bytes -/

namespace Percent

/-- Different characters of the first half of a byte are written as different bytes. -/
theorem byte_inj {c d : Char} (hc : c.toNat < 128) (hd : d.toNat < 128)
    (h : UInt8.ofNat c.toNat = UInt8.ofNat d.toNat) : c = d := by
  have hvalue : (UInt8.ofNat c.toNat).toNat = (UInt8.ofNat d.toNat).toNat := congrArg UInt8.toNat h
  rw [toNat_byte hc, toNat_byte hd] at hvalue
  exact Char.toNat_inj.mp hvalue

theorem bytes_intercalate (sep : List Char) (css : List (List Char)) :
    bytes (sep.intercalate css) = (bytes sep).intercalate (css.map bytes) := by
  induction css with
  | nil => rfl
  | cons cs css ih =>
    cases css with
    | nil => rw [List.map_singleton, List.intercalate_singleton, List.intercalate_singleton]
    | cons ds css =>
      rw [List.map_cons, List.map_cons, List.intercalate_cons_cons, List.intercalate_cons_cons,
        bytes_append, bytes_append, ih, List.map_cons]

theorem bytes_ascii {cs : List Char} (h : ∀ c ∈ cs, c.toNat < 128) :
    bytes cs = cs.map fun c => UInt8.ofNat c.toNat := by
  induction cs with
  | nil => rfl
  | cons c cs ih =>
    obtain ⟨hc, hcs⟩ := List.forall_mem_cons.mp h
    rw [bytes, List.flatMap_cons, utf8EncodeChar_ascii hc, ← bytes, ih hcs]
    rfl

/-- What is known of the sixteen digits. -/
theorem digitChar_spec {n : Nat} (h : n < 16) :
    (digitChar n).toNat < 128 ∧ hexValue? (UInt8.ofNat (digitChar n).toNat) = some n ∧
      digitChar n ≠ '+' ∧ digitChar n ≠ '&' ∧ digitChar n ≠ '=' := by
  revert n
  decide

theorem bytes_encodeByte (b : UInt8) : bytes (encodeByte b) =
    [0x25, UInt8.ofNat (digitChar (b.toNat / 16)).toNat,
      UInt8.ofNat (digitChar (b.toNat % 16)).toNat] := by
  have hb : b.toNat < 256 := b.toNat_lt
  have hhigh := digitChar_spec (n := b.toNat / 16) (by omega)
  have hlow := digitChar_spec (n := b.toNat % 16) (by omega)
  have hascii : ∀ c ∈ encodeByte b, c.toNat < 128 := by
    simp [encodeByte, hhigh.1, hlow.1]
  rw [bytes_ascii hascii]
  rfl

theorem decode_encodeByte (b : UInt8) (rest : List UInt8) :
    decode (bytes (encodeByte b) ++ rest) = b :: decode rest := by
  have hb : b.toNat < 256 := b.toNat_lt
  have hhigh := digitChar_spec (n := b.toNat / 16) (by omega)
  have hlow := digitChar_spec (n := b.toNat % 16) (by omega)
  have hvalue : b.toNat / 16 * 16 + b.toNat % 16 = b.toNat := Nat.div_add_mod' b.toNat 16
  rw [bytes_encodeByte, List.cons_append, List.cons_append, List.cons_append, List.nil_append,
    decode, hhigh.2.1, hlow.2.1]
  dsimp only
  rw [hvalue]
  simp

theorem decode_cons {b : UInt8} (h : b ≠ 0x25) (rest : List UInt8) :
    decode (b :: rest) = b :: decode rest := by
  rw [decode]
  rintro _ _ _ rfl
  exact absurd rfl h

theorem decode_encodeBytes (bs rest : List UInt8) :
    decode (bytes (bs.flatMap encodeByte) ++ rest) = bs ++ decode rest := by
  induction bs with
  | nil => rfl
  | cons b bs ih =>
    rw [List.flatMap_cons, bytes_append, List.append_assoc, decode_encodeByte, ih,
      List.cons_append]

end Percent

/-! ### Names and values -/

namespace Form

open Percent (byte_inj bytes bytes_append bytes_ascii bytes_encodeByte bytes_intercalate
  digitChar_spec utf8EncodeChar_ascii)

theorem ascii_of_isPlain {c : Char} (h : isPlain c) : c.toNat < 128 := by
  have hcases : c.isAlphanum = true ∨ c = '*' ∨ c = '-' ∨ c = '.' ∨ c = '_' := by
    simpa [isPlain, or_assoc] using h
  rcases hcases with halnum | rfl | rfl | rfl | rfl
  · change ((decide (65 ≤ c.val ∧ c.val ≤ 90) || decide (97 ≤ c.val) && decide (c.val ≤ 122)) ||
      decide (48 ≤ c.val) && decide (c.val ≤ 57)) = true at halnum
    simp only [Bool.or_eq_true, Bool.and_eq_true, decide_eq_true_eq,
      UInt32.le_iff_toNat_le] at halnum
    change c.val.toNat < 128
    change ((65 ≤ c.val.toNat ∧ c.val.toNat ≤ 90) ∨ 97 ≤ c.val.toNat ∧ c.val.toNat ≤ 122) ∨
      48 ≤ c.val.toNat ∧ c.val.toNat ≤ 57 at halnum
    omega
  all_goals decide

/-- What a written character is not. -/
theorem encodeChar_spec {c d : Char} (h : d ∈ encodeChar c) :
    d.toNat < 128 ∧ d ≠ '&' ∧ d ≠ '=' := by
  unfold encodeChar Percent.encodeChar at h
  split_ifs at h with hspace hplain
  · obtain rfl := List.mem_singleton.mp h
    decide
  · obtain rfl := List.mem_singleton.mp h
    refine ⟨ascii_of_isPlain hplain, ?_, ?_⟩
    · rintro rfl
      exact absurd hplain (by decide)
    · rintro rfl
      exact absurd hplain (by decide)
  · obtain ⟨b, -, hd⟩ := List.mem_flatMap.mp h
    have hb : b.toNat < 256 := b.toNat_lt
    have hhigh := digitChar_spec (n := b.toNat / 16) (by omega)
    have hlow := digitChar_spec (n := b.toNat % 16) (by omega)
    simp only [Percent.encodeByte, List.mem_cons, List.not_mem_nil, or_false] at hd
    rcases hd with rfl | rfl | rfl
    · decide
    · exact ⟨hhigh.1, hhigh.2.2.2⟩
    · exact ⟨hlow.1, hlow.2.2.2⟩

theorem space_of_ne {c : Char} (hascii : c.toNat < 128) (h : c ≠ '+') :
    space (UInt8.ofNat c.toNat) = UInt8.ofNat c.toNat :=
  if_neg fun hplus => h (byte_inj (d := '+') hascii (by decide) hplus)

theorem space_encodeBytes (bs : List UInt8) :
    (bytes (bs.flatMap Percent.encodeByte)).map space = bytes (bs.flatMap Percent.encodeByte) := by
  induction bs with
  | nil => rfl
  | cons b bs ih =>
    have hb : b.toNat < 256 := b.toNat_lt
    have hhigh := digitChar_spec (n := b.toNat / 16) (by omega)
    have hlow := digitChar_spec (n := b.toNat % 16) (by omega)
    rw [List.flatMap_cons, bytes_append, List.map_append, ih, bytes_encodeByte, List.map_cons,
      List.map_cons, List.map_cons, List.map_nil, space_of_ne hhigh.1 hhigh.2.2.1,
      space_of_ne hlow.1 hlow.2.2.1]
    rfl

theorem decode_encodeChar (c : Char) (rest : List UInt8) :
    Percent.decode ((bytes (encodeChar c)).map space ++ rest) =
      String.utf8EncodeChar c ++ Percent.decode rest := by
  unfold encodeChar Percent.encodeChar
  split_ifs with hspace hplain
  · subst hspace
    exact Percent.decode_cons (by decide) rest
  · have hascii := ascii_of_isPlain hplain
    have hplus : c ≠ '+' := by
      rintro rfl
      exact absurd hplain (by decide)
    have hpercent : UInt8.ofNat c.toNat ≠ 0x25 := by
      intro h
      obtain rfl := byte_inj (d := '%') hascii (by decide) h
      exact absurd hplain (by decide)
    have hone : (bytes [c]).map space = [UInt8.ofNat c.toNat] := by
      rw [bytes_ascii (by simpa using hascii), List.map_cons, List.map_nil, List.map_cons,
        space_of_ne hascii hplus]
      rfl
    rw [hone, utf8EncodeChar_ascii hascii]
    exact Percent.decode_cons hpercent rest
  · rw [space_encodeBytes, Percent.decode_encodeBytes]

/-- Decoding gives back the bytes of the characters that were encoded. -/
theorem decode_encodeChars (cs : List Char) :
    Percent.decode ((bytes (cs.flatMap encodeChar)).map space) = bytes cs := by
  induction cs with
  | nil => rfl
  | cons c cs ih =>
    rw [List.flatMap_cons, bytes_append, List.map_append, decode_encodeChar, ih]
    rfl

theorem decode_encode (s : String) : decode (bytes (encode s)) = s := by
  have hchars : Text.lossy (Text.ofChars s.toList) = s.toList := by
    rw [Text.lossy, Text.ofChars, List.map_map]
    exact List.map_id _
  rw [decode, encode, decode_encodeChars, Text.ofByteList_bytes, hchars, String.ofList_toList]

/-! ### Pairs -/

theorem encode_spec {s : String} : ∀ c ∈ encode s, c.toNat < 128 ∧ c ≠ '&' ∧ c ≠ '=' := by
  intro c hc
  obtain ⟨d, -, hd⟩ := List.mem_flatMap.mp hc
  exact encodeChar_spec hd

/-- The separator of a character is not among the bytes of others. -/
theorem not_mem_bytes {cs : List Char} {x : Char} (hx : x.toNat < 128)
    (h : ∀ c ∈ cs, c.toNat < 128 ∧ c ≠ x) : UInt8.ofNat x.toNat ∉ bytes cs := by
  rw [bytes_ascii fun c hc => (h c hc).1]
  intro hmem
  obtain ⟨c, hc, hsame⟩ := List.mem_map.mp hmem
  exact (h c hc).2 (byte_inj (h c hc).1 hx hsame)

/-- A pair as it is written. -/
def pairChars (p : String × String) : List Char := encode p.1 ++ '=' :: encode p.2

theorem bytes_pairChars (p : String × String) :
    bytes (pairChars p) = bytes (encode p.1) ++ 0x3D :: bytes (encode p.2) := bytes_append _ _

theorem pair_pairChars (p : String × String) : pair (bytes (pairChars p)) = p := by
  have hequals : (0x3D : UInt8) ∉ bytes (encode p.1) :=
    not_mem_bytes (x := '=') (by decide) fun c hc => ⟨(encode_spec c hc).1, (encode_spec c hc).2.2⟩
  have hname : ∀ b ∈ bytes (encode p.1), (b != 0x3D) = true :=
    fun b hb => bne_iff_ne.mpr fun h => hequals (h ▸ hb)
  rw [pair, bytes_pairChars, List.takeWhile_append_of_pos hname, List.dropWhile_append_of_pos hname,
    List.takeWhile_cons_of_neg (by simp), List.dropWhile_cons_of_neg (by simp),
    List.append_nil, List.tail_cons, decode_encode, decode_encode]

theorem ampersand_not_mem (p : String × String) : (0x26 : UInt8) ∉ bytes (pairChars p) := by
  refine not_mem_bytes (x := '&') (by decide) fun c hc => ?_
  rcases List.mem_append.mp hc with hc | hc
  · exact ⟨(encode_spec c hc).1, (encode_spec c hc).2.1⟩
  · rcases List.mem_cons.mp hc with rfl | hc
    · decide
    · exact ⟨(encode_spec c hc).1, (encode_spec c hc).2.1⟩

/-- The pairs are read from the bytes that they are written in. -/
theorem parse_render (pairs : List (String × String)) : parse (bytes (render pairs)) = pairs := by
  have hwritten : bytes (render pairs) = [0x26].intercalate (pairs.map (bytes ∘ pairChars)) := by
    rw [← List.map_map]
    exact bytes_intercalate ['&'] (pairs.map pairChars)
  have hwhole : ∀ bs ∈ pairs.map (bytes ∘ pairChars), (0x26 : UInt8) ∉ bs := by
    intro bs hbs
    obtain ⟨p, -, rfl⟩ := List.mem_map.mp hbs
    exact ampersand_not_mem p
  have hfull : ∀ bs ∈ pairs.map (bytes ∘ pairChars), (!bs.isEmpty) = true := by
    intro bs hbs
    obtain ⟨p, -, rfl⟩ := List.mem_map.mp hbs
    rw [Function.comp_apply, bytes_pairChars]
    simp
  have hread : (pairs.map (bytes ∘ pairChars)).map pair = pairs := by
    rw [List.map_map]
    exact (List.map_congr_left fun p _ => pair_pairChars p).trans (List.map_id pairs)
  by_cases hnone : pairs = []
  · subst hnone
    rfl
  · have hsome : pairs.map (bytes ∘ pairChars) ≠ [] := fun h => hnone (List.map_eq_nil_iff.mp h)
    rw [parse, hwritten, List.splitOn_intercalate _ hwhole hsome, List.filter_eq_self.mpr hfull,
      hread]

end Form
end NetworkPolicy
