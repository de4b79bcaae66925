import NetworkPolicy.Client.Tokens
import NetworkPolicy.Proofs.Config.Validation
import NetworkPolicy.Proofs.Url.Web

/-! The address of the token service: a port is put behind the URL of the settings, which leads to
the service for some URLs only. -/
namespace NetworkPolicy

namespace Config.TokenService

open Url

/-- A user, which may be left out, and the name of a host, which ends where a port would begin. -/
structure NamesHost (user name : List Char) : Prop where
  inside : ∀ c ∈ user ++ name, isEnd true c = false
  user : user = [] ∨ user.getLast? = some '@'
  behind : '@' ∉ name
  nonempty : name ≠ []
  closed : hostText true false (name ++ [':']) = name
  last : ∀ c, name.getLast? = some c → ' ' < c

/-- After its scheme, the text names a host and nothing else: no port, no path, no query and no
fragment, nor a blank that would stand between the host and a port. -/
def EndsInHost (url : List Char) : Prop :=
  ∃ scheme slashes user name, scheme? (shown url) = some (scheme, slashes ++ (user ++ name)) ∧
    (∀ c ∈ slashes, isSlash true c = true) ∧ NamesHost user name

/-- The address leads to the service: to the scheme and the host of the URL of the settings and to
their port, and with a path put behind it, to this path there. -/
structure Leads (t : TokenService) (u base : Url) : Prop where
  read : Url.parse t.baseUrl.toList = .ok base
  scheme : base.scheme = u.scheme
  host : base.authority.map Authority.host = u.authority.map Authority.host
  port : base.effectivePort? = some t.port.toNat
  rooted : Rooted base
  check : Url.parse ((Client.Tokens.ofAddress t.baseUrl t.client t.secret).base ++
    "/check_token").toList = .ok { base with path := .segments ["check_token".toList] }
  issue : Url.parse ((Client.Tokens.ofAddress t.baseUrl t.client t.secret).base ++
    "/oauth/token").toList = .ok { base with path := .segments ["oauth".toList, "token".toList] }

variable {t : TokenService} {u base : Url} {scheme url slashes user name port rest : List Char}

theorem baseUrl_toList (t : TokenService) :
    t.baseUrl.toList = stem t.url.toList ++ portText t.port.toNat := by
  have hport : (toString t.port.toNat).toList = Nat.toDigits 10 t.port.toNat := String.toList_ofList
  have hstem : (withoutLastSlashes t.url).toList = stem t.url.toList := String.toList_ofList
  have hbase : t.baseUrl = withoutLastSlashes t.url ++ ":" ++ toString t.port.toNat := rfl
  rw [hbase, String.toList_append, String.toList_append, hport, hstem, List.append_assoc]
  rfl

theorem client_base (t : TokenService) :
    (Client.Tokens.ofAddress t.baseUrl t.client t.secret).base = t.baseUrl := by
  have hkept : stem t.baseUrl.toList = t.baseUrl.toList := by
    apply Text.rdropWhile_of_last
    intro c hc
    have hsome : portText t.port.toNat ≠ [] := List.cons_ne_nil _ _
    rw [baseUrl_toList, List.getLast?_append_of_ne_nil _ hsome] at hc
    have hnot := (portChar_spec (portText_chars (List.mem_of_getLast? hc))).2.2
    rw [beq_eq_false_iff_ne]
    rintro rfl
    exact hnot (by decide)
  show withoutLastSlashes t.baseUrl = t.baseUrl
  apply String.toList_inj.mp
  exact String.toList_ofList.trans hkept

/-! ### Where a port leads that is put behind a host -/

theorem NamesHost.spelled (h : NamesHost user name) (hport : IsPort port)
    (hafter : ∀ c, rest.head? = some c → isEnd true c = true) :
    Spelled (user ++ (name ++ port ++ rest)) user name port rest := by
  refine ⟨rfl, ?_, hafter, h.user, ?_, h.nonempty, ?_, hport⟩
  · intro c hc
    rw [← List.append_assoc] at hc
    rcases List.mem_append.mp hc with hc | hc
    · exact h.inside c hc
    · exact (portChar_spec (hport.chars c hc)).2.1
  · intro hat
    rcases List.mem_append.mp hat with hat | hat
    · exact h.behind hat
    · exact (portChar_spec (hport.chars _ hat)).2.2 (by decide)
  · rcases hport with rfl | ⟨ds, rfl, -, -⟩
    · rw [List.append_nil]
      exact hostText_self h.closed
    · exact (hostText_append _ _).mp h.closed

theorem NamesHost.dropWhile (h : NamesHost user name)
    (hslashes : ∀ c ∈ slashes, isSlash true c = true) (rest : List Char) :
    (slashes ++ (user ++ name) ++ rest).dropWhile (isSlash true) = user ++ (name ++ rest) := by
  have hhead : ∀ c, (user ++ name ++ rest).head? = some c → isSlash true c = false := by
    intro c hc
    have hsome : user ++ name ≠ [] := List.append_ne_nil_of_right_ne_nil _ h.nonempty
    rw [List.head?_append_of_ne_nil _ hsome] at hc
    have hend := h.inside c (List.mem_of_head? hc)
    unfold isEnd at hend
    rw [Bool.or_eq_false_iff, Bool.or_eq_false_iff] at hend
    exact hend.1.1
  rw [List.append_assoc, List.dropWhile_append_of_pos hslashes, Text.dropWhile_of_head hhead,
    List.append_assoc]

/-- The host of a URL that ends in it. -/
theorem NamesHost.host_eq (h : NamesHost user name) (hweb : IsWeb u.scheme)
    (hread : Url.parse url = .ok u)
    (hscheme : scheme? (shown (stem url)) = some (scheme, slashes ++ (user ++ name)))
    (hslashes : ∀ c ∈ slashes, isSlash true c = true) :
    ∃ host, Host.parse name = .ok host ∧ u.authority.map Authority.host = some host := by
  obtain ⟨more, a, rest, hclean, hauthority, hu⟩ := (parse_web hweb).mp hread
  obtain ⟨more', front, blanks, hclean', hfront, hsame, hblanks, hone, -⟩ := scheme?_stem hweb hread
  obtain ⟨-, rfl⟩ := Prod.mk.inj (Option.some.inj (hclean.symm.trans hclean'))
  obtain ⟨-, rfl⟩ := Prod.mk.inj (Option.some.inj (hscheme.symm.trans hfront))
  have hnoblanks : blanks = [] := by
    rcases hone with hnone | hnone
    · by_contra hsome
      rw [hnone, List.append_nil] at hsame
      have hlast := congrArg List.getLast? hsame
      rw [← List.append_assoc, List.getLast?_append_of_ne_nil _ h.nonempty,
        List.getLast?_append_of_ne_nil _ hsome] at hlast
      obtain ⟨c, hc⟩ := Option.ne_none_iff_exists'.mp (mt List.getLast?_eq_none_iff.mp h.nonempty)
      have hblank := hblanks c (List.mem_of_getLast? (hlast.symm.trans hc))
      exact absurd (h.last c hc) (not_lt.mpr hblank)
    · exact hnone
  rw [hnoblanks, List.append_nil] at hsame
  have hafter : ∀ c, (lastSlashes url).head? = some c → isEnd true c = true := by
    intro c hc
    rw [eq_slash (List.mem_of_head? hc)]
    decide
  have hnoport : IsPort [] := .inl rfl
  have hspelled := h.spelled hnoport hafter
  rw [List.append_nil] at hspelled
  rw [← hsame, h.dropWhile hslashes, hspelled.read hweb.special.1] at hauthority
  obtain ⟨host, hhost, ha⟩ := map_eq_ok.mp hauthority
  refine ⟨host, hhost, ?_⟩
  rw [hu, ← (Prod.mk.inj ha).1]
  rfl

/-- A port that is put behind a host is read as such, and a path that is put behind the port as
well. -/
theorem NamesHost.parse_behind (h : NamesHost user name) (hweb : IsWeb scheme)
    (hscheme : scheme? (shown url) = some (scheme, slashes ++ (user ++ name)))
    (hslashes : ∀ c ∈ slashes, isSlash true c = true) (hvisible : ∃ c ∈ url, ' ' < c) {host : Host}
    (hhost : Host.parse name = .ok host) {n : Nat} (hport : n ≤ 65535)
    (hrest : ∀ c ∈ rest, ' ' < c) (hafter : ∀ c, rest.head? = some c → isEnd true c = true) :
    Url.parse (url ++ (portText n ++ rest)) =
      .ok (web scheme (authorityOf scheme user host (portText n)) rest) := by
  have hsome : portText n ++ rest ≠ [] := List.cons_ne_nil _ _
  have hbehind : ∀ c ∈ portText n ++ rest, ' ' < c := by
    intro c hc
    rcases List.mem_append.mp hc with hc | hc
    · exact (portChar_spec (portText_chars hc)).1
    · exact hrest c hc
  apply (parse_web hweb).mpr
  refine ⟨slashes ++ (user ++ name) ++ (portText n ++ rest), _, rest, ?_, ?_, rfl⟩
  · rw [clean_append hvisible hsome hbehind]
    exact scheme?_append hscheme _
  · show readAuthority scheme (List.dropWhile _ _) = _
    rw [h.dropWhile hslashes, ← List.append_assoc name,
      (h.spelled (isPort_portText hport) hafter).read hweb.special.1, hhost]
    rfl

/-- Behind a URL that ends in a host, the port leads to the service. -/
theorem leads_of_endsInHost (hweb : IsWeb u.scheme) (hread : Url.parse t.url.toList = .ok u)
    (h : EndsInHost (stem t.url.toList)) : ∃ base, Leads t u base := by
  obtain ⟨scheme, slashes, user, name, hscheme, hslashes, hname⟩ := h
  obtain ⟨-, front, -, -, hfront, -, -, -, hvisible⟩ := scheme?_stem hweb hread
  obtain ⟨rfl, rfl⟩ := Prod.mk.inj (Option.some.inj (hfront.symm.trans hscheme))
  obtain ⟨host, hhost, hsame⟩ := hname.host_eq hweb hread hscheme hslashes
  have hport : t.port.toNat ≤ 65535 := Nat.le_of_lt_succ t.port.toNat_lt
  have hparse (path : String) (hvisible' : path.toList.all (' ' < ·) = true)
      (hslash : path.toList.head?.all (isEnd true) = true) :
      Url.parse (t.baseUrl ++ path).toList = .ok (web u.scheme
        (authorityOf u.scheme user host (portText t.port.toNat)) path.toList) := by
    have hpath : ∀ c ∈ path.toList, ' ' < c :=
      fun c hc => of_decide_eq_true (List.all_eq_true.mp hvisible' c hc)
    have hafter : ∀ c, path.toList.head? = some c → isEnd true c = true := by
      intro c hc
      rw [hc] at hslash
      exact hslash
    rw [String.toList_append, baseUrl_toList, List.append_assoc]
    exact hname.parse_behind hweb hscheme hslashes hvisible hhost hport hpath hafter
  refine ⟨web u.scheme (authorityOf u.scheme user host (portText t.port.toNat)) [], ?_, rfl,
    hsame.symm, portNumber?_portText _ _, ⟨.inr rfl, rfl, rfl⟩, ?_, ?_⟩
  · have hbase := hparse "" rfl rfl
    rw [String.append_empty] at hbase
    exact hbase
  · rw [client_base]
    exact hparse _ (by decide) (by decide)
  · rw [client_base]
    exact hparse _ (by decide) (by decide)

/-! ### Where it does not -/

/-- Nothing is read behind a port that is put at the end, if nothing is to be named behind the
authority. -/
theorem rest_eq_nil {a : Authority} {cs : List Char} (hweb : IsWeb scheme) {n : Nat}
    (h : readAuthority scheme (cs ++ portText n) = .ok (a, rest))
    (hrooted : Rooted (web scheme a rest)) : rest = [] := by
  obtain ⟨user, name, port, hspelled⟩ := spelled_of_read hweb.special.1 h
  cases rest with
  | nil => rfl
  | cons c rest =>
    have hend : isEnd true c = true := hspelled.after c rfl
    have hc : c ∉ portText n := by
      intro hmem
      rw [(portChar_spec (portText_chars hmem)).2.1] at hend
      cases hend
    have hparts := hspelled.parts
    rw [← List.append_assoc] at hparts
    obtain ⟨between, -, hrest⟩ := append_eq_of_not_mem hc hparts
    rw [hrest] at hrooted
    exact absurd hrooted (not_rooted a hend (portText_digits n) between)

theorem rdropWhile_digits (cs : List Char) {ds : List Char} (h : ∀ d ∈ ds, d.isDigit = true) :
    (cs ++ ':' :: ds).rdropWhile Char.isDigit = cs ++ [':'] := by
  rw [← List.singleton_append, ← List.append_assoc, Text.rdropWhile_append h]
  apply Text.rdropWhile_of_last
  intro c hc
  rw [List.getLast?_concat, Option.some.injEq] at hc
  rw [← hc]
  decide

/-- A name is no host if the text that begins with it goes on in the port. -/
theorem port_ne_nil {cs : List Char} {n : Nat} {host : Host} (hparse : Host.parse name = .ok host)
    (huser : user = [] ∨ user.getLast? = some '@') (hname : name ≠ [])
    (h : cs ++ portText n = user ++ name) : False := by
  have hsome : portText n ≠ [] := List.cons_ne_nil _ _
  have hlast : name.getLast? ≠ some ']' := by
    intro hbracket
    have hsame := congrArg List.getLast? h
    rw [List.getLast?_append_of_ne_nil _ hname, hbracket,
      List.getLast?_append_of_ne_nil _ hsome] at hsame
    exact (portChar_spec (portText_chars (List.mem_of_getLast? hsame))).2.2 (by decide)
  have hcolon : ':' ∈ name := by
    by_contra hnone
    obtain ⟨ds, hds, hdigits⟩ := append_eq_of_not_mem hnone h.symm
    rcases huser with rfl | hat
    · simp at hds
    · rw [hds, List.getLast?_append_of_ne_nil _ (List.cons_ne_nil _ _)] at hat
      have hmem : '@' ∈ portText n := by
        rw [portText, hdigits, ← List.cons_append]
        exact List.mem_append_left _ (List.mem_of_getLast? hat)
      exact (portChar_spec (portText_chars hmem)).2.2 (by decide)
  have hbarred : Host.Barred ':' := ⟨by decide, by decide, by decide⟩
  exact Host.parse_ne_ok hbarred hcolon hlast host hparse

/-- A port that is read with nothing behind it was put behind a text that ends in a host. -/
theorem namesHost_of_read {a : Authority} {cs : List Char} (hweb : IsWeb scheme) {n : Nat}
    (h : readAuthority scheme (cs ++ portText n) = .ok (a, [])) :
    ∃ user name, cs = user ++ name ∧ NamesHost user name := by
  obtain ⟨user, name, port, hspelled⟩ := spelled_of_read hweb.special.1 h
  rw [hspelled.read hweb.special.1] at h
  obtain ⟨host, hhost, -⟩ := map_eq_ok.mp h
  have hparts := hspelled.parts
  rw [List.append_nil] at hparts
  rcases hspelled.port with rfl | ⟨ds, rfl, hdigits, -⟩
  · rw [List.append_nil] at hparts
    exact (port_ne_nil hhost hspelled.user hspelled.nonempty hparts).elim
  · have hcut := congrArg (List.rdropWhile Char.isDigit) hparts
    rw [portText, rdropWhile_digits _ (portText_digits n), ← List.append_assoc,
      rdropWhile_digits _ hdigits] at hcut
    have hcs : cs = user ++ name := List.append_cancel_right hcut
    refine ⟨user, name, hcs, ?_, hspelled.user, ?_, hspelled.nonempty, ?_, ?_⟩
    · intro c hc
      apply hspelled.inside
      rw [← List.append_assoc]
      exact List.mem_append_left _ hc
    · exact fun hat => hspelled.behind (List.mem_append_left _ hat)
    · exact (hostText_append _ _).mp hspelled.name
    · intro c hc
      by_contra hblank
      have hle : c ≤ ' ' := not_lt.mp hblank
      have hbound : c.toNat ≤ 32 := hle
      have hbarred : Host.Barred c := by
        refine ⟨?_, by omega, ?_⟩
        · simp [Host.isForbidden, hle]
        · rintro rfl
          exact absurd hle (by decide)
      have hbracket : name.getLast? ≠ some ']' := by
        rintro hlast
        obtain rfl : c = ']' := Option.some.inj (hc.symm.trans hlast)
        exact absurd hle (by decide)
      exact Host.parse_ne_ok hbarred (List.mem_of_getLast? hc) hbracket host hhost

theorem endsInHost_of_leads (hweb : IsWeb u.scheme) (hread : Url.parse t.url.toList = .ok u)
    (h : Leads t u base) : EndsInHost (stem t.url.toList) := by
  obtain ⟨-, front, -, -, hfront, -, -, -, hvisible⟩ := scheme?_stem hweb hread
  have hsome : portText t.port.toNat ≠ [] := List.cons_ne_nil _ _
  have hweb' : IsWeb base.scheme := h.scheme.symm ▸ hweb
  obtain ⟨more, a, rest, hscheme, hauthority, hbase⟩ := (parse_web hweb').mp h.read
  have hclean : clean t.baseUrl.toList = shown (stem t.url.toList) ++ portText t.port.toNat := by
    rw [baseUrl_toList]
    exact clean_append hvisible hsome fun c hc => (portChar_spec (portText_chars hc)).1
  rw [hclean, scheme?_append hfront] at hscheme
  obtain rfl := (Prod.mk.inj (Option.some.inj hscheme)).2
  have hdrop : (front ++ portText t.port.toNat).dropWhile (isSlash true) =
      front.dropWhile (isSlash true) ++ portText t.port.toNat := by
    have hport : (portText t.port.toNat).dropWhile (isSlash true) = portText t.port.toNat :=
      List.dropWhile_cons_of_neg (by decide)
    rw [List.dropWhile_append, hport]
    split
    · rename_i hempty
      rw [List.isEmpty_iff.mp hempty, List.nil_append]
    · rfl
  rw [hdrop] at hauthority
  have hrooted : Rooted (web base.scheme a rest) := hbase ▸ h.rooted
  obtain rfl := rest_eq_nil hweb' hauthority hrooted
  obtain ⟨user, name, hnames, hhost⟩ := namesHost_of_read hweb' hauthority
  refine ⟨u.scheme, front.takeWhile (isSlash true), user, name, ?_, ?_, hhost⟩
  · rw [← hnames, List.takeWhile_append_dropWhile]
    exact hfront
  · exact fun c hc => List.mem_takeWhile_imp hc

/-! ### Which settings lead to the service -/

/-- The address that accepted settings give leads to the token service just where the URL ends in a
host, apart from slashes at its end. -/
theorem leads_iff_endsInHost (c : Config) (h : c.validate = .ok ()) :
    (∃ u base, Url.parse c.tokens.url.toList = .ok u ∧ Leads c.tokens u base) ↔
      EndsInHost (stem c.tokens.url.toList) := by
  obtain ⟨u, hread, hweb⟩ := (Config.validate_eq_ok.mp h).tokens.url
  constructor
  · rintro ⟨u', base, hread', hleads⟩
    obtain rfl : u = u' := Except.ok.inj (hread.symm.trans hread')
    exact endsInHost_of_leads hweb hread hleads
  · intro hends
    obtain ⟨base, hleads⟩ := leads_of_endsInHost hweb hread hends
    exact ⟨u, base, hread, hleads⟩

/-- A URL with a user, an address for its host and two slashes at its end. -/
def plainSettings : Config where
  tokens := { url := "https://me@[::1]//", port := 8443 }

theorem leads_plainSettings :
    plainSettings.validate = .ok () ∧ EndsInHost (stem plainSettings.tokens.url.toList) ∧
      ∃ u base, Url.parse plainSettings.tokens.url.toList = .ok u ∧
        Leads plainSettings.tokens u base := by
  have h : plainSettings.validate = .ok () := by decide +kernel
  have hnames : NamesHost "me@".toList "[::1]".toList := by
    constructor
    · intro c hc
      have hall : ("me@".toList ++ "[::1]".toList).all (!isEnd true ·) = true := by decide
      have hc' := List.all_eq_true.mp hall c hc
      simpa using hc'
    · exact .inr (by decide)
    · decide
    · decide
    · decide
    · intro c hc
      obtain rfl : ']' = c := Option.some.inj hc
      decide
  have hends : EndsInHost (stem plainSettings.tokens.url.toList) := by
    refine ⟨"https".toList, "//".toList, "me@".toList, "[::1]".toList, by decide +kernel, ?_,
      hnames⟩
    simp [isSlash]
  exact ⟨h, hends, (leads_iff_endsInHost plainSettings h).mpr hends⟩

/-- A URL with a path. -/
def pathSettings : Config where
  tokens := { url := "http://stub/uaa" }

/-- A port behind a path is read as part of it. -/
theorem pathSettings_mislead :
    pathSettings.validate = .ok () ∧
      ∀ u base, Url.parse pathSettings.tokens.url.toList = .ok u →
        ¬Leads pathSettings.tokens u base := by
  refine ⟨by decide +kernel, ?_⟩
  intro u base _ h
  have hbase : Url.parse pathSettings.tokens.baseUrl.toList = .ok
      { scheme := "http".toList
        authority := some { host := .domain "stub".toList }
        path := .segments ["uaa:443".toList] } := by
    decide +kernel
  obtain rfl := Except.ok.inj (hbase.symm.trans h.read)
  exact absurd h.rooted.path (by decide)

end Config.TokenService
end NetworkPolicy
