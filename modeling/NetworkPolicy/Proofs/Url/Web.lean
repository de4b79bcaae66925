import NetworkPolicy.Proofs.Url.Authority

/-! URLs of web services: what their text is read for, and what may be named behind the
authority. -/
namespace NetworkPolicy.Url

variable {scheme url cs rest : List Char}

/-! ### What a text is read for -/

/-- Tabs and line ends count for nothing wherever they stand. -/
def counts (c : Char) : Bool := c != '\t' && c != '\n' && c != '\r'

/-- What is read of a text that does not end in a blank. -/
def shown (cs : List Char) : List Char := (cs.dropWhile (· ≤ ' ')).filter counts

theorem clean_of_last (h : ∀ c, cs.getLast? = some c → ' ' < c) : clean cs = shown cs := by
  have hlast : ∀ c, (cs.dropWhile (· ≤ ' ')).getLast? = some c → decide (c ≤ ' ') = false := by
    intro c hc
    have hsome : cs.dropWhile (· ≤ ' ') ≠ [] := by
      intro hnil
      rw [hnil] at hc
      cases hc
    have hcs : cs.getLast? = some c := by
      rw [← List.takeWhile_append_dropWhile (p := (· ≤ ' ')) (l := cs),
        List.getLast?_append_of_ne_nil _ hsome]
      exact hc
    simpa using h c hcs
  have hkept : (cs.dropWhile (· ≤ ' ')).rdropWhile (· ≤ ' ') = cs.dropWhile (· ≤ ' ') :=
    Text.rdropWhile_of_last hlast
  show List.filter counts ((cs.dropWhile (· ≤ ' ')).rdropWhile (· ≤ ' ')) = _
  rw [hkept, shown]

theorem shown_append {xs ys : List Char} (h : ∃ c ∈ xs, ' ' < c) :
    shown (xs ++ ys) = shown xs ++ ys.filter counts := by
  have hsome : (xs.dropWhile (· ≤ ' ')).isEmpty = false := by
    obtain ⟨c, hc, hvisible⟩ := h
    rw [List.isEmpty_eq_false_iff]
    intro hnil
    have hblank := List.dropWhile_eq_nil_iff.mp hnil c hc
    exact absurd (of_decide_eq_true hblank) (not_le.mpr hvisible)
  rw [shown, List.dropWhile_append, hsome, if_neg Bool.false_ne_true, List.filter_append, shown]

/-- What is put behind a visible text is read behind it. -/
theorem clean_append {xs ys : List Char} (hxs : ∃ c ∈ xs, ' ' < c) (hsome : ys ≠ [])
    (hys : ∀ c ∈ ys, ' ' < c) : clean (xs ++ ys) = shown xs ++ ys := by
  have hlast : ∀ c, (xs ++ ys).getLast? = some c → ' ' < c := by
    intro c hc
    rw [List.getLast?_append_of_ne_nil _ hsome] at hc
    exact hys c (List.mem_of_getLast? hc)
  have hkept : ys.filter counts = ys := by
    rw [List.filter_eq_self]
    intro c hc
    have hvisible := hys c hc
    have hne {d : Char} (hd : d ≤ ' ') : c ≠ d := by
      rintro rfl
      exact absurd hvisible (not_lt.mpr hd)
    simp [counts, hne]
  rw [clean_of_last hlast, shown_append hxs, hkept]

/-! ### The scheme -/

def isSchemeChar (c : Char) : Bool := c.isAlphanum || c == '+' || c == '-' || c == '.'

theorem scheme?_eq_some : scheme? cs = some (scheme, rest) ↔
    ∃ name, cs = name ++ ':' :: rest ∧ (∀ c ∈ name, isSchemeChar c = true) ∧
      (∃ c, name.head? = some c ∧ c.isAlpha = true) ∧ scheme = name.map Char.toLower := by
  constructor
  · intro h
    unfold scheme? at h
    dsimp only at h
    split at h
    · rename_i c others more hname hmore
      rw [drop_length_takeWhile] at hmore
      split_ifs at h with halpha
      cases h
      refine ⟨cs.takeWhile isSchemeChar, ?_, fun c hc => List.mem_takeWhile_imp hc,
        ⟨c, ?_, halpha⟩, rfl⟩
      · rw [← hmore]
        exact List.takeWhile_append_dropWhile.symm
      · exact congrArg List.head? hname
    · cases h
  · rintro ⟨name, rfl, hname, ⟨c, hc, halpha⟩, rfl⟩
    obtain ⟨others, rfl⟩ := List.head?_eq_some_iff.mp hc
    have htake : (c :: others ++ ':' :: rest).takeWhile isSchemeChar = c :: others :=
      takeWhile_split hname fun d hd => by cases hd; decide
    have hlambda : isSchemeChar = fun c => c.isAlphanum || c == '+' || c == '-' || c == '.' := rfl
    rw [hlambda] at htake
    rw [scheme?, htake, List.drop_left]
    exact if_pos halpha

theorem scheme?_append (h : scheme? cs = some (scheme, rest)) (tail : List Char) :
    scheme? (cs ++ tail) = some (scheme, rest ++ tail) := by
  obtain ⟨word, rfl, hword, hhead, hlower⟩ := scheme?_eq_some.mp h
  apply scheme?_eq_some.mpr
  exact ⟨word, by rw [List.append_assoc, List.cons_append], hword, hhead, hlower⟩

/-! ### The whole -/

/-- The schemes of web services. -/
def IsWeb (scheme : List Char) : Prop := scheme = "http".toList ∨ scheme = "https".toList

theorem IsWeb.special (h : IsWeb scheme) : isSpecial scheme = true ∧ isFile scheme = false := by
  rcases h with rfl | rfl <;> decide

/-- The URL of a web service with the path, the query and the fragment that a text gives. -/
def web (scheme : List Char) (a : Authority) (rest : List Char) : Url :=
  readRest { scheme := scheme, authority := some a } true (fun cs => .segments (readPath true cs))
    rest

theorem readFile_scheme {u : Url} (h : readFile cs = .ok u) : u.scheme = "file".toList := by
  unfold readFile at h
  split at h
  · split at h
    · obtain ⟨host, -, h⟩ := bind_eq_ok.mp h
      cases h
      rfl
    · cases h
      rfl
  · cases h
    rfl

theorem parse_web {u : Url} (hweb : IsWeb u.scheme) :
    parse cs = .ok u ↔ ∃ more a rest, scheme? (clean cs) = some (u.scheme, more) ∧
      readAuthority u.scheme (more.dropWhile (isSlash true)) = .ok (a, rest) ∧
      u = web u.scheme a rest := by
  constructor
  · intro h
    unfold parse at h
    split at h
    · cases h
    · rename_i scheme more hscheme
      have hsame : scheme = u.scheme := by
        split_ifs at h with hfile hspecial
        · rw [readFile_scheme h] at hweb
          exact absurd hweb (by unfold IsWeb; decide)
        · obtain ⟨⟨a, rest⟩, -, h⟩ := bind_eq_ok.mp h
          cases h
          rfl
        · split at h
          · obtain ⟨⟨a, rest⟩, -, h⟩ := bind_eq_ok.mp h
            cases h
            rfl
          · cases h
            rfl
          · cases h
            rfl
      subst hsame
      rw [if_neg (by simp [hweb.special.2]), if_pos hweb.special.1] at h
      obtain ⟨⟨a, rest⟩, hread, h⟩ := bind_eq_ok.mp h
      exact ⟨more, a, rest, hscheme, hread, (Except.ok.inj h).symm⟩
  · rintro ⟨more, a, rest, hscheme, hread, hu⟩
    rw [parse, hscheme]
    dsimp only
    rw [if_neg (by simp [hweb.special.2]), if_pos hweb.special.1, hread]
    exact congrArg _ hu.symm

/-! ### A text without its last slashes -/

/-- The text before the slashes at its end. -/
def stem (url : List Char) : List Char := url.rdropWhile (· == '/')

def lastSlashes (url : List Char) : List Char := url.rtakeWhile (· == '/')

theorem stem_append (url : List Char) : stem url ++ lastSlashes url = url :=
  List.rdropWhile_append_rtakeWhile

theorem eq_slash {c : Char} (h : c ∈ lastSlashes url) : c = '/' := by
  have hslash := List.mem_rtakeWhile_imp h
  exact eq_of_beq hslash

/-- What is read of a text and what is read before its last slashes differ in these slashes, or in
blanks at the end that are left out. -/
theorem shown_stem (hvisible : ∃ c ∈ stem url, ' ' < c) :
    ∃ blanks, shown (stem url) ++ lastSlashes url = clean url ++ blanks ∧
      (∀ c ∈ blanks, c ≤ ' ') ∧ (lastSlashes url = [] ∨ blanks = []) := by
  by_cases hnone : lastSlashes url = []
  · have hstem : stem url = url := by
      conv_rhs => rw [← stem_append url, hnone, List.append_nil]
    have hsplit : (url.dropWhile (· ≤ ' ')).rdropWhile (· ≤ ' ') ++
        (url.dropWhile (· ≤ ' ')).rtakeWhile (· ≤ ' ') = url.dropWhile (· ≤ ' ') :=
      List.rdropWhile_append_rtakeWhile
    refine ⟨((url.dropWhile (· ≤ ' ')).rtakeWhile (· ≤ ' ')).filter counts, ?_, ?_, .inl hnone⟩
    · rw [hstem, hnone, List.append_nil, shown]
      conv_lhs => rw [← hsplit, List.filter_append]
      rfl
    · intro c hc
      have hblank := List.mem_rtakeWhile_imp (List.mem_of_mem_filter hc)
      exact of_decide_eq_true hblank
  · have hkept : (lastSlashes url).filter counts = lastSlashes url := by
      rw [List.filter_eq_self]
      intro c hc
      rw [eq_slash hc]
      decide
    have hlast : ∀ c, url.getLast? = some c → ' ' < c := by
      intro c hc
      rw [← stem_append url, List.getLast?_append_of_ne_nil _ hnone] at hc
      rw [eq_slash (List.mem_of_getLast? hc)]
      decide
    have hshown : shown url = shown (stem url) ++ lastSlashes url := by
      conv_lhs => rw [← stem_append url, shown_append hvisible, hkept]
    exact ⟨[], by rw [List.append_nil, clean_of_last hlast, hshown], by simp, .inr rfl⟩

theorem append_eq_of_not_mem {c : Char} {xs ys zs ws : List Char} (hc : c ∉ ys)
    (h : xs ++ ys = zs ++ c :: ws) : ∃ vs, xs = zs ++ c :: vs ∧ ws = vs ++ ys := by
  rcases List.append_eq_append_iff.mp h with ⟨as, rfl, hys⟩ | ⟨cs, rfl, hcs⟩
  · rw [hys] at hc
    exact absurd (List.mem_append_right _ List.mem_cons_self) hc
  · cases cs with
    | nil =>
      rw [List.nil_append] at hcs
      rw [← hcs] at hc
      exact absurd List.mem_cons_self hc
    | cons d vs =>
      obtain ⟨rfl, hws⟩ := List.cons.inj hcs
      exact ⟨vs, rfl, hws⟩

theorem mem_of_mem_clean {c : Char} (h : c ∈ clean url) : c ∈ url := by
  have hinner : c ∈ (url.dropWhile (· ≤ ' ')).rdropWhile (· ≤ ' ') := List.mem_of_mem_filter h
  have hfront := List.rdropWhile_prefix (· ≤ ' ') (l := url.dropWhile (· ≤ ' '))
  exact List.dropWhile_subset _ (hfront.subset hinner)

/-- A web URL and its text before the last slashes have the same scheme. -/
theorem scheme?_stem {u : Url} (hweb : IsWeb u.scheme) (h : parse url = .ok u) :
    ∃ more front blanks, scheme? (clean url) = some (u.scheme, more) ∧
      scheme? (shown (stem url)) = some (u.scheme, front) ∧
      front ++ lastSlashes url = more ++ blanks ∧ (∀ c ∈ blanks, c ≤ ' ') ∧
      (lastSlashes url = [] ∨ blanks = []) ∧ ∃ c ∈ stem url, ' ' < c := by
  obtain ⟨more, -, -, hscheme, -, -⟩ := (parse_web hweb).mp h
  obtain ⟨name, hclean, hname, hhead, hlower⟩ := scheme?_eq_some.mp hscheme
  have hcolon : ':' ∉ lastSlashes url := by
    intro hc
    exact absurd (eq_slash hc) (by decide)
  have hvisible : ∃ c ∈ stem url, ' ' < c := by
    have hmem : ':' ∈ url := mem_of_mem_clean (by rw [hclean]; simp)
    rw [← stem_append url] at hmem
    rcases List.mem_append.mp hmem with hmem | hmem
    · exact ⟨':', hmem, by decide⟩
    · exact absurd hmem hcolon
  obtain ⟨blanks, hsame, hblanks, hone⟩ := shown_stem hvisible
  rw [hclean, List.append_assoc, List.cons_append] at hsame
  obtain ⟨front, hfront, hmore⟩ := append_eq_of_not_mem hcolon hsame
  exact ⟨more, front, blanks, hscheme, scheme?_eq_some.mpr ⟨name, hfront, hname, hhead, hlower⟩,
    hmore.symm, hblanks, hone, hvisible⟩

/-! ### Nothing behind the authority -/

/-- Nothing is named behind the authority. -/
structure Rooted (u : Url) : Prop where
  path : u.path = .segments [] ∨ u.path = .segments [[]]
  query : u.query = none
  fragment : u.fragment = none

/-- The last part of a text holds what stands last in it. -/
theorem getLast?_splitOn {c d : Char} {ys : List Char} (hys : d ∉ c :: ys) (xs : List Char) :
    ∃ part, ((xs ++ c :: ys).splitOn d).getLast? = some part ∧ c ∈ part := by
  induction xs with
  | nil =>
    rw [List.nil_append, List.splitOn_eq_singleton hys]
    exact ⟨_, rfl, List.mem_cons_self⟩
  | cons x xs ih =>
    obtain ⟨part, hpart, hmem⟩ := ih
    obtain ⟨first, others, hparts⟩ :=
      List.exists_cons_of_ne_nil (List.splitOn_ne_nil d (xs ++ c :: ys))
    rw [List.cons_append, List.splitOn_cons_eq_if_modifyHead]
    rw [hparts] at hpart ⊢
    split_ifs with hcut
    · exact ⟨part, hpart, hmem⟩
    · rw [List.modifyHead_cons]
      cases others with
      | nil =>
        obtain rfl : first = part := Option.some.inj hpart
        exact ⟨x :: first, rfl, List.mem_cons_of_mem _ hmem⟩
      | cons second others => exact ⟨part, hpart, hmem⟩

/-- A last segment that stands for itself ends the path. -/
theorem addSegments_last {s : List Char} (hparent : isParent s = false)
    (hcurrent : isCurrent s = false) (before ss : List (List Char)) :
    ∃ others, addSegments before (ss ++ [s]) = s :: others := by
  have hs : ∀ before, addSegments before [s] = s :: before := by
    intro before
    rw [addSegments, hparent, hcurrent]
    rfl
  induction ss generalizing before with
  | nil => exact ⟨before, hs before⟩
  | cons t ts ih =>
    obtain ⟨first, others, hmore⟩ : ∃ first others, ts ++ [s] = first :: others :=
      List.exists_cons_of_ne_nil (by simp)
    rw [List.cons_append, hmore, addSegments]
    · rw [← hmore]
      split
      · exact ih before.tail
      · split
        · exact ih before
        · exact ih (t :: before)
    · simp

/-- A segment with a colon stands for itself. -/
theorem plain_of_colon {s : List Char} (h : ':' ∈ s) :
    isParent s = false ∧ isCurrent s = false := by
  have hlower : ':' ∈ s.map Char.toLower := List.mem_map.mpr ⟨':', h, rfl⟩
  have hnot (dots : List Char) (hdots : ':' ∉ dots) : (dots == s.map Char.toLower) = false := by
    rw [beq_eq_false_iff_ne]
    rintro rfl
    exact hdots hlower
  constructor
  · simp [isParent, hnot]
  · simp [isCurrent, hnot]

theorem web_rooted {a : Authority} (h : Rooted (web scheme a rest)) :
    '#' ∉ rest ∧ '?' ∉ rest ∧ (readPath true rest = [] ∨ readPath true rest = [[]]) := by
  obtain ⟨hpath, hquery, hfragment⟩ := h
  unfold web readRest at hpath hquery hfragment
  simp only [drop_length_takeWhile] at hpath hquery hfragment
  have hhash : ∀ c ∈ rest, (c != '#') = true := by
    split at hfragment
    · rename_i hempty
      exact List.dropWhile_eq_nil_iff.mp (List.isEmpty_iff.mp hempty)
    · cases hfragment
  have hfront : rest.takeWhile (· != '#') = rest := List.takeWhile_eq_self_iff.mpr hhash
  rw [hfront] at hpath hquery
  have hmark : ∀ c ∈ rest, (c != '?') = true := by
    split at hquery
    · rename_i hempty
      exact List.dropWhile_eq_nil_iff.mp (List.isEmpty_iff.mp hempty)
    · cases hquery
  have hroute : rest.takeWhile (· != '?') = rest := List.takeWhile_eq_self_iff.mpr hmark
  rw [hroute, Path.segments.injEq, Path.segments.injEq] at hpath
  refine ⟨fun hc => ?_, fun hc => ?_, hpath⟩
  · simpa using hhash _ hc
  · simpa using hmark _ hc

-- a port is not cut
theorem slash_not_mem_port {ds : List Char} (hds : ∀ d ∈ ds, d.isDigit = true) :
    '/' ∉ ':' :: ds.map fun d => if d == '\\' then '/' else d := by
  intro hmem
  rcases List.mem_cons.mp hmem with hcolon | hmem
  · exact absurd hcolon (by decide)
  · obtain ⟨d, hd, hsame⟩ := List.mem_map.mp hmem
    split_ifs at hsame with hback
    · have hdigit := hds d hd
      rw [eq_of_beq hback] at hdigit
      exact absurd hdigit (by decide)
    · subst hsame
      exact absurd (hds _ hd) (by decide)

/-- A path that ends in a port has a last segment with a colon. -/
theorem readPath_port {c : Char} (hslash : isSlash true c = true) {ds : List Char}
    (hds : ∀ d ∈ ds, d.isDigit = true) (cs : List Char) :
    ∃ others part, readPath true (c :: (cs ++ ':' :: ds)) = others ++ [part] ∧ ':' ∈ part := by
  obtain ⟨part, hlast, hcolon⟩ :=
    getLast?_splitOn (slash_not_mem_port hds) (cs.map fun d => if d == '\\' then '/' else d)
  obtain ⟨front, hparts⟩ := List.getLast?_eq_some_iff.mp hlast
  have hkept : ':' ∈ Percent.encode keptInPath part :=
    List.mem_flatMap.mpr ⟨':', hcolon, by decide⟩
  obtain ⟨hparent, hcurrent⟩ := plain_of_colon hkept
  obtain ⟨others, hsegments⟩ :=
    addSegments_last hparent hcurrent [] (front.map (Percent.encode keptInPath))
  refine ⟨others.reverse, Percent.encode keptInPath part, ?_, hkept⟩
  rw [readPath, hslash, if_pos rfl, if_pos rfl, List.map_append, List.map_cons]
  show (addSegments [] (List.map _ ((_ ++ ':' :: _).splitOn '/'))).reverse = _
  rw [hparts, List.map_append, List.map_singleton, hsegments, List.reverse_cons]

/-- Where a port stands behind a path, a query or a fragment, something is named behind the
authority. -/
theorem not_rooted (a : Authority) {c : Char} (hc : isEnd true c = true) {ds : List Char}
    (hds : ∀ d ∈ ds, d.isDigit = true) (cs : List Char) :
    ¬Rooted (web scheme a (c :: (cs ++ ':' :: ds))) := by
  intro h
  obtain ⟨hhash, hmark, hpath⟩ := web_rooted h
  have hslash : isSlash true c = true := by
    have hcases : isSlash true c = true ∨ c = '?' ∨ c = '#' := by
      simpa [isEnd, or_assoc] using hc
    rcases hcases with hslash | rfl | rfl
    · exact hslash
    · exact absurd List.mem_cons_self hmark
    · exact absurd List.mem_cons_self hhash
  obtain ⟨others, part, hread, hcolon⟩ := readPath_port hslash hds cs
  rw [hread] at hpath
  rcases hpath with hnone | hempty
  · simp at hnone
  · have hpart : part = [] := by
      rcases List.append_eq_singleton_iff.mp hempty with h | h
      · simpa using h.2
      · simp at h
    rw [hpart] at hcolon
    cases hcolon

end NetworkPolicy.Url
