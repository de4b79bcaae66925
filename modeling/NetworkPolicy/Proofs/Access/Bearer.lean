import NetworkPolicy.Proofs.Access.Admission
import NetworkPolicy.Proofs.Text.Ends

/-! The grammar of bearer headers: how a token may be written, and that no other header gives it. -/
namespace NetworkPolicy.Bearer

variable {text token : String}

/-- The letters of the scheme, each with its capital form. -/
def letters : List (List Char) :=
  [['b', 'B'], ['e', 'E'], ['a', 'A'], ['r', 'R'], ['e', 'E'], ['r', 'R']]

/-- The word `bearer`, each letter of it small or capital. -/
def IsScheme (s : String) : Prop := List.Forall₂ (· ∈ ·) s.toList letters

/-- The token is not empty, and no blank stands at either end of it; blanks inside are its own. -/
structure IsToken (s : String) : Prop where
  nonempty : s ≠ ""
  bounded : Text.Bounded Text.isBlank s.toList

/-- A header's text with a token: the scheme and one space before the token, and any blanks before
the scheme, after that space and after the token. -/
def Written (text token : String) : Prop :=
  ∃ before scheme between after : String,
    text = before ++ scheme ++ " " ++ between ++ token ++ after ∧
      Text.isBlankText before ∧ IsScheme scheme ∧ Text.isBlankText between ∧ IsToken token ∧
      Text.isBlankText after

/-! ### The scheme -/

theorem toNat_toLower (c : Char) :
    c.toLower.toNat = if 65 ≤ c.toNat ∧ c.toNat ≤ 90 then c.toNat + 32 else c.toNat := by
  have hcapital : c.val ≥ 'A'.val ∧ c.val ≤ 'Z'.val ↔ 65 ≤ c.toNat ∧ c.toNat ≤ 90 := Iff.rfl
  unfold Char.toLower
  split
  · rename_i h
    have hbounds := hcapital.mp h
    have hsum : (c.val + ('a'.val - 'A'.val)).toNat = (c.toNat + 32) % 2 ^ 32 :=
      UInt32.toNat_add _ _
    rw [if_pos hbounds]
    show (c.val + ('a'.val - 'A'.val)).toNat = c.toNat + 32
    omega
  · rename_i h
    rw [if_neg fun hbounds => h (hcapital.mpr hbounds)]

theorem toLower_eq_iff {c small capital : Char} (hlow : 97 ≤ small.toNat)
    (hhigh : small.toNat ≤ 122) (hcapital : capital.toNat + 32 = small.toNat) :
    c.toLower = small ↔ c ∈ [small, capital] := by
  have hlower := toNat_toLower c
  rw [List.mem_pair, ← Char.toNat_inj, ← Char.toNat_inj, ← Char.toNat_inj, hlower]
  split <;> omega

theorem map_toLower_eq_iff {word : List Char} {forms : List (List Char)}
    (h : List.Forall₂ (fun small form => ∀ c : Char, c.toLower = small ↔ c ∈ form) word forms)
    (cs : List Char) : cs.map Char.toLower = word ↔ List.Forall₂ (· ∈ ·) cs forms := by
  induction h generalizing cs with
  | nil =>
    cases cs with
    | nil => exact iff_of_true rfl .nil
    | cons c cs => exact iff_of_false (fun h => nomatch h) fun h => nomatch h
  | cons hletter _ ih =>
    cases cs with
    | nil => exact iff_of_false (fun h => nomatch h) fun h => nomatch h
    | cons c cs => rw [List.map_cons, List.cons.injEq, List.forall₂_cons, hletter, ih]

theorem isScheme_iff {s : String} :
    IsScheme s ↔ s.toList.map Char.toLower = "bearer".toList := by
  have hb (c : Char) : c.toLower = 'b' ↔ c ∈ ['b', 'B'] :=
    toLower_eq_iff (by decide) (by decide) rfl
  have he (c : Char) : c.toLower = 'e' ↔ c ∈ ['e', 'E'] :=
    toLower_eq_iff (by decide) (by decide) rfl
  have ha (c : Char) : c.toLower = 'a' ↔ c ∈ ['a', 'A'] :=
    toLower_eq_iff (by decide) (by decide) rfl
  have hr (c : Char) : c.toLower = 'r' ↔ c ∈ ['r', 'R'] :=
    toLower_eq_iff (by decide) (by decide) rfl
  have hforms : List.Forall₂ (fun small form => ∀ c : Char, c.toLower = small ↔ c ∈ form)
      ['b', 'e', 'a', 'r', 'e', 'r'] letters :=
    .cons hb (.cons he (.cons ha (.cons hr (.cons he (.cons hr .nil)))))
  exact (map_toLower_eq_iff hforms _).symm

theorem IsScheme.head {s : String} (h : IsScheme s) {c : Char} (hc : s.toList.head? = some c) :
    Text.isBlank c = false := by
  unfold IsScheme letters at h
  cases hs : s.toList with
  | nil => rw [hs] at h; cases h
  | cons d ds =>
    rw [hs] at h hc
    cases h with
    | cons hd _ =>
      have hcd : d = c := Option.some.inj hc
      rw [hcd, List.mem_pair] at hd
      rcases hd with rfl | rfl <;> rfl

/-! ### The whole header -/

theorem isBlankText_iff {s : String} :
    Text.isBlankText s = true ↔ ∀ c ∈ s.toList, Text.isBlank c = true := by
  rw [Text.isBlankText, List.all_eq_true]

theorem written_of_carries (h : Carries text token) : Written text token := by
  obtain ⟨scheme, rest, htext, hscheme, htoken, hne⟩ := h
  have hlist : token.toList ≠ [] := by simpa using hne
  obtain ⟨-, before, after, hsplit, hbefore, hafter⟩ := (Text.trim_eq_iff (by simp)).mp htext
  obtain ⟨hbounded, between, behind, hrest, hbetween, hbehind⟩ := (Text.trim_eq_iff hlist).mp htoken
  refine ⟨String.ofList before, String.ofList scheme, String.ofList between,
    String.ofList (behind ++ after), ?_, ?_, ?_, ?_, ⟨hne, hbounded⟩, ?_⟩
  · apply String.toList_inj.mp
    simp [hsplit, hrest]
  · simpa [isBlankText_iff] using hbefore
  · simpa [isScheme_iff] using hscheme
  · simpa [isBlankText_iff] using hbetween
  · rw [isBlankText_iff, String.toList_ofList]
    intro c hc
    rcases List.mem_append.mp hc with hc | hc
    · exact hbehind c hc
    · exact hafter c hc

theorem carries_of_written (h : Written text token) : Carries text token := by
  obtain ⟨before, scheme, between, after, rfl, hbefore, hscheme, hbetween, htoken, hafter⟩ := h
  rw [isBlankText_iff] at hbefore hbetween hafter
  have hlist : token.toList ≠ [] := by simpa using htoken.nonempty
  have hscheme' : scheme.toList ≠ [] := by
    intro h
    have hword := isScheme_iff.mp hscheme
    rw [h] at hword
    cases hword
  refine ⟨scheme.toList, between.toList ++ token.toList, ?_, isScheme_iff.mp hscheme, ?_,
    htoken.nonempty⟩
  · rw [Text.trim_eq_iff (by simp)]
    refine ⟨⟨?_, ?_⟩, before.toList, after.toList, by simp, hbefore, hafter⟩
    · intro c hc
      rw [List.head?_append_of_ne_nil _ hscheme'] at hc
      exact hscheme.head hc
    · intro c hc
      rw [← List.cons_append, ← List.append_assoc, List.getLast?_append_of_ne_nil _ hlist] at hc
      exact htoken.bounded.last c hc
  · rw [Text.trim_eq_iff hlist]
    exact ⟨htoken.bounded, between.toList, [], by simp, hbetween, by simp⟩

/-- A header gives a token just where its text is at most 8192 bytes long and written as the scheme
with this token. So no token is empty or has blanks at its ends, and no other scheme and no other
separator is taken. -/
theorem parse_exact (header : Option String) (token : String) :
    parse header = .ok token ↔
      ∃ text, header = some text ∧ text.utf8ByteSize ≤ 8192 ∧ Written text token := by
  have hwritten (text : String) : Carries text token ↔ Written text token :=
    ⟨written_of_carries, carries_of_written⟩
  simp only [parse_eq_ok, Shows, maxBytes, hwritten]

-- the first blank after the scheme is a plain space, all others may be any
example : parse (some "\tbeArer \u2003a b\u00a0") = .ok "a b" := by decide +kernel
example : parse (some "Bearer\tabc d") = .error .malformed := by decide +kernel

end NetworkPolicy.Bearer
