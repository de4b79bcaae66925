import NetworkPolicy.Access.Authenticator
import NetworkPolicy.Policy.Body

/-! Whom a route turns away. The version of the path, the header and what the token service says of
the token decide it. -/
namespace NetworkPolicy

theorem Version.ofName?_eq_none {version : String} :
    ofName? version = none ↔ version ≠ "v0" ∧ version ≠ "v1" := by
  have hnames : ofName? version = [v0, v1].find? (·.name == version) := rfl
  rw [hnames, List.find?_eq_none]
  constructor
  · intro h
    exact ⟨fun h0 => h v0 (by simp) (h0 ▸ rfl), fun h1 => h v1 (by simp) (h1 ▸ rfl)⟩
  · rintro ⟨h0, h1⟩ v hv hname
    have hversion : v.name = version := beq_iff_eq.mp hname
    cases v with
    | v0 => exact h0 hversion.symm
    | v1 => exact h1 hversion.symm

/-! ### Tokens in a header -/

namespace Bearer

variable {text token : String} {header : Option String}

/-- The text is the word `bearer`, a space and the token; blanks around it, and around the token,
count for nothing. -/
def Carries (text token : String) : Prop :=
  ∃ scheme rest, Text.trim text.toList = scheme ++ ' ' :: rest ∧
    scheme.map Char.toLower = "bearer".toList ∧ Text.trim rest = token.toList ∧ token ≠ ""

/-- The header carries the token, and is short enough to be looked at. -/
def Shows (header : Option String) (token : String) : Prop :=
  ∃ text, header = some text ∧ text.utf8ByteSize ≤ maxBytes ∧ Carries text token

/-- A text up to its first space is all of it, or the space follows. -/
theorem scheme_all_or_space (cs : List Char) :
    cs.takeWhile (· != ' ') = cs ∨ ∃ rest, cs = cs.takeWhile (· != ' ') ++ ' ' :: rest := by
  induction cs with
  | nil => exact Or.inl rfl
  | cons c cs ih =>
    by_cases hc : c = ' '
    · exact Or.inr ⟨cs, by simp [hc]⟩
    · have hwhile : (c :: cs).takeWhile (· != ' ') = c :: cs.takeWhile (· != ' ') :=
        List.takeWhile_cons_of_pos (bne_iff_ne.mpr hc)
      rw [hwhile]
      rcases ih with hall | ⟨rest, hrest⟩
      · exact Or.inl (congrArg (c :: ·) hall)
      · exact Or.inr ⟨rest, congrArg (c :: ·) hrest⟩

theorem token?_eq_some : token? text.toList = some token.toList ↔ Carries text token := by
  have hempty : token ≠ "" ↔ token.toList ≠ [] := by simp
  unfold token? Carries
  rw [hempty]
  generalize Text.trim text.toList = cs
  dsimp only
  constructor
  · intro h
    split at h
    · rename_i hwords
      obtain ⟨hscheme, hnonempty⟩ := Bool.and_eq_true_iff.mp hwords
      have hlist := Option.some.inj h
      rcases scheme_all_or_space cs with hall | ⟨rest, hrest⟩
      · -- without a space there is nothing after the scheme
        rw [hall, List.drop_eq_nil_of_le (Nat.le_succ _)] at hnonempty
        cases hnonempty
      · generalize cs.takeWhile (· != ' ') = scheme at *
        subst hrest
        have hdrop : (scheme ++ ' ' :: rest).drop (scheme.length + 1) = rest := by simp
        rw [hdrop] at hlist hnonempty
        exact ⟨scheme, rest, rfl, of_decide_eq_true hscheme, hlist, by simpa [← hlist] using hnonempty⟩
    · cases h
  · rintro ⟨scheme, rest, rfl, hscheme, hlist, hne⟩
    have hnospace : ∀ c ∈ scheme, (c != ' ') = true := by
      intro c hc
      have hmem : c.toLower ∈ "bearer".toList := hscheme ▸ List.mem_map_of_mem hc
      refine bne_iff_ne.mpr fun h => ?_
      rw [h] at hmem
      revert hmem
      decide
    have hwhile : (scheme ++ ' ' :: rest).takeWhile (· != ' ') = scheme := by
      rw [List.takeWhile_append_of_pos hnospace]
      simp
    have hdrop : (scheme ++ ' ' :: rest).drop (scheme.length + 1) = rest := by simp
    rw [hwhile, hdrop, hscheme, hlist]
    simp [hne]

/-- A token is read from just those headers that show one. -/
theorem parse_eq_ok : parse header = .ok token ↔ Shows header token := by
  cases header with
  | none => exact iff_of_false (fun h => nomatch h) fun ⟨_, h, _⟩ => nomatch h
  | some text =>
    simp only [parse]
    by_cases hsize : maxBytes < text.utf8ByteSize
    · rw [if_pos hsize]
      refine iff_of_false (fun h => nomatch h) ?_
      rintro ⟨_, htext, hle, -⟩
      cases htext
      exact absurd hle (Nat.not_le.mpr hsize)
    · rw [if_neg hsize]
      constructor
      · intro h
        split at h
        · rename_i cs hcs
          cases h
          rw [← String.toList_ofList (l := cs)] at hcs
          exact ⟨text, rfl, Nat.not_lt.mp hsize, token?_eq_some.mp hcs⟩
        · cases h
      · rintro ⟨_, htext, -, hcarries⟩
        cases htext
        rw [token?_eq_some.mpr hcarries]
        simp

end Bearer

/-! ### Callers that are turned away -/

/-- Whom the token service tells of, if it accepts the token. -/
def Collaborators.vouched {κ : Type} (c : Collaborators κ) (k : κ) (token : String) :
    Option Caller :=
  match (c.checkToken token k).1 with
  | .answer (.ok caller) => some caller
  | _ => none

/-- Why a caller is turned away who asks for `version` and shows `header`, where one of the `allowed`
scopes is needed and the token service has `vouched` for tokens. -/
inductive Barred (version : String) (allowed : AllowedScopes) (header : Option String)
    (vouched : String → Option Caller) : Prop where
  | version : version ≠ "v0" → version ≠ "v1" → Barred version allowed header vouched
  | missing : header = none → Barred version allowed header vouched
  | oversized {text : String} : header = some text → Bearer.maxBytes < text.utf8ByteSize →
      Barred version allowed header vouched
  | malformed {text : String} : header = some text → (∀ token, ¬ Bearer.Carries text token) →
      Barred version allowed header vouched
  | unverified {text token : String} : header = some text → Bearer.Carries text token →
      vouched token = none → Barred version allowed header vouched
  | scopeless {text token : String} {caller : Caller} {scopes : List String} :
      header = some text → Bearer.Carries text token → vouched token = some caller →
      allowed = some scopes → (∀ scope ∈ scopes, scope ∉ caller.scopes) →
      Barred version allowed header vouched

/-- The caller who shows a header, if they are let in. -/
def admitted (allowed : AllowedScopes) (header : Option String)
    (vouched : String → Option Caller) : Except AuthError Caller :=
  match Bearer.parse header with
  | .error f => .error (.credentials f)
  | .ok token =>
    match vouched token with
    | some caller => allowed.accept caller
    | none => .error .unverified

variable {κ : Type} {c : Collaborators κ} {version : String} {allowed : AllowedScopes}
  {header : Option String} {k : κ} {vouched vouched' : String → Option Caller}

theorem authenticate_eq : (authenticate c allowed header k).1 =
    admitted allowed header (c.vouched k) := by
  unfold authenticate admitted Collaborators.vouched
  cases Bearer.parse header with
  | error f => rfl
  | ok token =>
    dsimp only
    rcases c.checkToken token k with ⟨(_ | _) | _, k'⟩ <;> rfl

/-- At most one question is asked, and it is whose token the header shows. -/
theorem authenticate_asks (c : Collaborators κ) (allowed : AllowedScopes) (header : Option String)
    (k : κ) : (authenticate c allowed header k).2 = k ∨ ∃ token, Bearer.Shows header token ∧
      (authenticate c allowed header k).2 = (c.checkToken token k).2 := by
  unfold authenticate
  cases hparse : Bearer.parse header with
  | error f => exact Or.inl rfl
  | ok token =>
    refine Or.inr ⟨token, Bearer.parse_eq_ok.mp hparse, ?_⟩
    dsimp only
    rcases c.checkToken token k with ⟨(_ | _) | _, k'⟩ <;> rfl

theorem admitted_congr (h : ∀ token, Bearer.Shows header token → vouched token = vouched' token) :
    admitted allowed header vouched = admitted allowed header vouched' := by
  unfold admitted
  cases hparse : Bearer.parse header with
  | error f => rfl
  | ok token =>
    dsimp only
    rw [h token (Bearer.parse_eq_ok.mp hparse)]

/-- A barred caller has a path without a version, or is not let in. -/
theorem Barred.not_admitted (h : Barred version allowed header vouched) :
    Version.ofName? version = none ∨ ∃ e, admitted allowed header vouched = .error e := by
  have hshown : ∀ {text token : String}, header = some text → Bearer.Carries text token →
      (∃ f, Bearer.parse header = .error f) ∨ Bearer.parse header = .ok token := by
    rintro text token rfl hcarries
    by_cases hsize : text.utf8ByteSize ≤ Bearer.maxBytes
    · exact Or.inr (Bearer.parse_eq_ok.mpr ⟨text, rfl, hsize, hcarries⟩)
    · exact Or.inl ⟨.tooLarge, if_pos (Nat.lt_of_not_le hsize)⟩
  unfold admitted
  cases h with
  | version h0 h1 => exact Or.inl (Version.ofName?_eq_none.mpr ⟨h0, h1⟩)
  | missing hnone => exact Or.inr ⟨.credentials .missing, by rw [hnone]; rfl⟩
  | oversized htext hsize =>
    have hparse : Bearer.parse header = .error .tooLarge := by rw [htext]; exact if_pos hsize
    exact Or.inr ⟨.credentials .tooLarge, by rw [hparse]⟩
  | malformed htext hno =>
    cases hparse : Bearer.parse header with
    | error f => exact Or.inr ⟨.credentials f, rfl⟩
    | ok token =>
      obtain ⟨_, htext', -, hcarries⟩ := Bearer.parse_eq_ok.mp hparse
      cases htext.symm.trans htext'
      exact absurd hcarries (hno token)
  | unverified htext hcarries hnone =>
    rcases hshown htext hcarries with ⟨f, hparse⟩ | hparse
    · exact Or.inr ⟨.credentials f, by rw [hparse]⟩
    · exact Or.inr ⟨.unverified, by rw [hparse]; dsimp only; rw [hnone]⟩
  | @scopeless text token caller scopes htext hcarries hcaller hallowed hscopes =>
    rcases hshown htext hcarries with ⟨f, hparse⟩ | hparse
    · exact Or.inr ⟨.credentials f, by rw [hparse]⟩
    · have hmissing : scopes.any caller.hasScope = false := by
        simpa [Caller.hasScope] using hscopes
      refine Or.inr ⟨.missingScope caller.scopes scopes, ?_⟩
      rw [hparse]
      dsimp only
      rw [hcaller, hallowed]
      simp [AllowedScopes.accept, hmissing]

theorem barred_of_parse_error {f : CredentialFault} (h : Bearer.parse header = .error f) :
    Barred version allowed header vouched := by
  have hno : ∀ token, ¬ Bearer.Shows header token := fun token hshows =>
    nomatch h.symm.trans (Bearer.parse_eq_ok.mpr hshows)
  cases header with
  | none => exact .missing rfl
  | some text =>
    by_cases hsize : Bearer.maxBytes < text.utf8ByteSize
    · exact .oversized rfl hsize
    · exact .malformed rfl fun token hcarries => hno token ⟨text, rfl, Nat.not_lt.mp hsize, hcarries⟩

theorem accept_eq_error {caller : Caller} {e : AuthError} (h : allowed.accept caller = .error e) :
    ∃ scopes, allowed = some scopes ∧ ∀ scope ∈ scopes, scope ∉ caller.scopes := by
  cases allowed with
  | none => cases h
  | some scopes =>
    simp only [AllowedScopes.accept] at h
    split at h
    · cases h
    · rename_i hmissing
      exact ⟨scopes, rfl, by simpa [Caller.hasScope] using hmissing⟩

/-- Just those callers are barred whose path has no version or who are not let in. -/
theorem barred_iff : Barred version allowed header vouched ↔
    Version.ofName? version = none ∨ ∃ e, admitted allowed header vouched = .error e := by
  refine ⟨Barred.not_admitted, ?_⟩
  rintro (hversion | ⟨e, he⟩)
  · obtain ⟨h0, h1⟩ := Version.ofName?_eq_none.mp hversion
    exact .version h0 h1
  · unfold admitted at he
    cases hparse : Bearer.parse header with
    | error f => exact barred_of_parse_error hparse
    | ok token =>
      obtain ⟨text, htext, -, hcarries⟩ := Bearer.parse_eq_ok.mp hparse
      rw [hparse] at he
      dsimp only at he
      cases hcaller : vouched token with
      | none => exact .unverified htext hcarries hcaller
      | some caller =>
        rw [hcaller] at he
        obtain ⟨scopes, hallowed, hscopes⟩ := accept_eq_error he
        exact .scopeless htext hcarries hcaller hallowed hscopes

end NetworkPolicy
