import Mathlib.Data.List.Basic
import NetworkPolicy.Text.Symbol
import NetworkPolicy.Url.Percent

/-! Texts held as bytes: the bytes of characters, and the characters of bytes. -/
namespace NetworkPolicy

namespace Percent

theorem bytes_append (xs ys : List Char) : bytes (xs ++ ys) = bytes xs ++ bytes ys :=
  List.flatMap_append

theorem toNat_byte {c : Char} (h : c.toNat < 128) : (UInt8.ofNat c.toNat).toNat = c.toNat := by
  rw [UInt8.toNat_ofNat', Nat.mod_eq_of_lt (by omega)]

theorem utf8EncodeChar_ascii {c : Char} (h : c.toNat < 128) :
    String.utf8EncodeChar c = [UInt8.ofNat c.toNat] :=
  if_pos (Nat.le_of_lt_succ h)

end Percent

namespace Text

theorem byteArray_toList_loop (b : ByteArray) (i : Nat) (read : List UInt8) :
    ByteArray.toList.loop b i read = read.reverse ++ b.data.toList.drop i := by
  induction i, read using ByteArray.toList.loop.induct b with
  | case1 i read hi ih =>
    have hnext : b.data.toList.drop i = b.get! i :: b.data.toList.drop (i + 1) := by
      have hlist : i < b.data.toList.length := hi
      have hget : b.get! i = b.data.toList[i] := getElem!_pos b.data i hi
      rw [hget, List.getElem_cons_drop]
    rw [ByteArray.toList.loop, if_pos hi, ih, hnext, List.reverse_cons, List.append_assoc,
      List.singleton_append]
  | case2 i read hend =>
    have hdrop : b.data.toList.drop i = [] := List.drop_eq_nil_of_le (Nat.le_of_not_lt hend)
    rw [ByteArray.toList.loop, if_neg hend, hdrop, List.append_nil]

theorem byteArray_toList (b : ByteArray) : b.toList = b.data.toList := by
  rw [ByteArray.toList, byteArray_toList_loop, List.reverse_nil, List.nil_append, List.drop_zero]

/-- The UTF-8 form of characters, as an array and as a list. -/
theorem data_utf8Encode (cs : List Char) : cs.utf8Encode.data.toList = Percent.bytes cs := by
  rw [List.utf8Encode, List.data_toByteArray]
  rfl

theorem toUTF8_toList (s : String) : s.toUTF8.toList = Percent.bytes s.toList := by
  have hbytes : s.toUTF8 = s.toList.utf8Encode := by
    rw [← String.toByteArray_ofList, String.ofList_toList]
    rfl
  rw [hbytes, byteArray_toList, data_utf8Encode]

theorem ofByteList_bytes (cs : List Char) : ofByteList (Percent.bytes cs) = ofChars cs := by
  rw [← data_utf8Encode]
  exact ofBytes_utf8Encode cs

/-- The units of bytes are the characters whose UTF-8 form they are, or else are read byte by
byte. -/
theorem ofByteList_cases (bs : List UInt8) :
    (∃ cs, bs = Percent.bytes cs ∧ ofByteList bs = ofChars cs) ∨
      ofByteList bs = Symbol.split none bs := by
  cases hdecoded : ByteArray.utf8Decode? ⟨bs.toArray⟩ with
  | none =>
    right
    rw [ofByteList, ofBytes, hdecoded, byteArray_toList]
  | some decoded =>
    left
    have hvalid : ByteArray.IsValidUTF8 ⟨bs.toArray⟩ := by
      rw [← ByteArray.isSome_utf8Decode?_iff, hdecoded]
      rfl
    obtain ⟨cs, hcs⟩ := hvalid
    have hbytes : bs = Percent.bytes cs := by
      rw [← data_utf8Encode, ← hcs]
    exact ⟨cs, hbytes, by rw [hbytes, ofByteList_bytes]⟩

/-! ### Bytes below 128 -/

/-- All bytes of a character that takes more than one are 128 or above. -/
theorem le_of_mem_utf8EncodeChar {c : Char} (hc : 128 ≤ c.toNat) {b : UInt8}
    (h : b ∈ String.utf8EncodeChar c) : 128 ≤ b.toNat := by
  have hvalue : ¬c.val.toNat ≤ 0x7f := Nat.not_le_of_gt hc
  have hhigh (n : Nat) (hlow : 128 ≤ n) (hbyte : n < 256) : 128 ≤ (UInt8.ofNat n).toNat := by
    rw [UInt8.toNat_ofNat', Nat.mod_eq_of_lt hbyte]
    exact hlow
  unfold String.utf8EncodeChar at h
  dsimp only at h
  rw [if_neg hvalue] at h
  split_ifs at h with htwo hthree
  · rcases List.mem_pair.mp h with rfl | rfl <;> apply hhigh <;> omega
  · simp only [List.mem_cons, List.not_mem_nil, or_false] at h
    rcases h with rfl | rfl | rfl <;> apply hhigh <;> omega
  · simp only [List.mem_cons, List.not_mem_nil, or_false] at h
    rcases h with rfl | rfl | rfl | rfl <;> apply hhigh <;> omega

/-- A byte below 128 stands for a character, and is not part of another one. -/
theorem eq_of_mem_utf8EncodeChar {b : UInt8} (hb : b < 0x80) {c : Char}
    (h : b ∈ String.utf8EncodeChar c) : c = Char.ofNat b.toNat := by
  have hlow : b.toNat < 128 := hb
  have hc : c.toNat < 128 := by
    by_contra hhigh
    have hbyte := le_of_mem_utf8EncodeChar (Nat.le_of_not_lt hhigh) h
    omega
  rw [Percent.utf8EncodeChar_ascii hc] at h
  obtain rfl := List.mem_singleton.mp h
  rw [Percent.toNat_byte hc, Char.ofNat_toNat]

theorem mem_of_mem_bytes {b : UInt8} (hb : b < 0x80) {cs : List Char} (h : b ∈ Percent.bytes cs) :
    Char.ofNat b.toNat ∈ cs := by
  obtain ⟨c, hc, hmem⟩ := List.mem_flatMap.mp h
  rw [← eq_of_mem_utf8EncodeChar hb hmem]
  exact hc

end Text
end NetworkPolicy
