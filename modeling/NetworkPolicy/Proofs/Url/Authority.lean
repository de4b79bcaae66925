import NetworkPolicy.Proofs.Lists
import NetworkPolicy.Proofs.Number.Digits
import NetworkPolicy.Proofs.Text.Ends
import NetworkPolicy.Proofs.Url.Host
import NetworkPolicy.Url.Basic

/-! The part of a URL that names a user, a host and a port: how it is spelled, and that what is
spelled so, and nothing else, is read. -/
namespace NetworkPolicy.Url

variable {scheme cs text user name port rest : List Char}

/-! ### Texts cut at a character -/

theorem takeWhile_split {p : Char → Bool} {xs ys : List Char} (hxs : ∀ c ∈ xs, p c = true)
    (hys : ∀ c, ys.head? = some c → p c = false) : (xs ++ ys).takeWhile p = xs := by
  rw [List.takeWhile_append_of_pos hxs]
  cases ys with
  | nil => exact List.append_nil xs
  | cons y ys =>
    have hy : ¬p y = true := by simpa using hys y rfl
    rw [List.takeWhile_cons_of_neg hy, List.append_nil]

theorem rtakeWhile_split {p : Char → Bool} {xs ys : List Char} (hys : ∀ c ∈ ys, p c = true)
    (hxs : ∀ c, xs.getLast? = some c → p c = false) : (xs ++ ys).rtakeWhile p = ys := by
  have hback : ∀ c ∈ ys.reverse, p c = true := by simpa using hys
  have hfront : ∀ c, xs.reverse.head? = some c → p c = false := by simpa using hxs
  rw [List.rtakeWhile, List.reverse_append, takeWhile_split hback hfront, List.reverse_reverse]

theorem drop_length_takeWhile (p : Char → Bool) (cs : List Char) :
    cs.drop (cs.takeWhile p).length = cs.dropWhile p := by
  conv_lhs =>
    arg 2
    rw [← List.takeWhile_append_dropWhile (p := p) (l := cs)]
  exact List.drop_left

/-! ### The host's name -/

theorem hostText_prefix (special inside : Bool) (cs : List Char) :
    ∃ rest, cs = hostText special inside cs ++ rest := by
  induction cs generalizing inside with
  | nil => exact ⟨[], rfl⟩
  | cons c cs ih =>
    rw [hostText]
    split
    · exact ⟨c :: cs, rfl⟩
    · obtain ⟨rest, hrest⟩ := ih (if c == '[' then true else if c == ']' then false else inside)
      exact ⟨rest, congrArg _ hrest⟩

/-- What comes after a name begins with a colon, or ends all that a host is read from. -/
theorem hostText_stop {special inside : Bool} {d : Char}
    (h : cs = hostText special inside cs ++ d :: rest) : d = ':' ∨ isEnd special d = true := by
  induction cs generalizing inside with
  | nil => cases h
  | cons c cs ih =>
    rw [hostText] at h
    split at h
    · rename_i hstop
      have hd : c = d := (List.cons.inj h).1
      subst hd
      rw [Bool.or_eq_true, Bool.and_eq_true] at hstop
      rcases hstop with hend | ⟨hcolon, -⟩
      · exact Or.inr hend
      · exact Or.inl (eq_of_beq hcolon)
    · exact ih (List.cons.inj h).2

theorem hostText_inside {special inside : Bool} {c : Char} (h : c ∈ hostText special inside cs) :
    isEnd special c = false := by
  induction cs generalizing inside with
  | nil => cases h
  | cons d cs ih =>
    rw [hostText] at h
    split at h
    · cases h
    · rename_i hstop
      rw [Bool.or_eq_true, not_or, Bool.not_eq_true] at hstop
      rcases List.mem_cons.mp h with rfl | h
      · exact hstop.1
      · exact ih h

theorem hostText_self {special inside : Bool} (h : hostText special inside (name ++ rest) = name) :
    hostText special inside name = name := by
  induction name generalizing inside with
  | nil => rfl
  | cons c cs ih =>
    rw [List.cons_append, hostText] at h
    rw [hostText]
    split at h
    · cases h
    · rename_i hstop
      rw [if_neg hstop, ih (List.cons.inj h).2]

/-- Of what follows a name, only its first character matters. -/
theorem hostText_append {special inside : Bool} {d : Char} (xs ys : List Char) :
    hostText special inside (name ++ d :: xs) = name ↔
      hostText special inside (name ++ d :: ys) = name := by
  induction name generalizing inside with
  | nil =>
    rw [List.nil_append, List.nil_append, hostText, hostText]
    split <;> simp
  | cons c cs ih =>
    rw [List.cons_append, List.cons_append, hostText, hostText]
    split
    · rfl
    · simp only [List.cons.injEq, true_and, ih]

theorem hostText_before_end {special inside : Bool} (h : hostText special inside cs = name)
    (hrest : ∀ c, rest.head? = some c → isEnd special c = true) :
    hostText special inside (cs ++ rest) = name := by
  induction cs generalizing inside name with
  | nil =>
    cases rest with
    | nil => exact h
    | cons c cs =>
      have hc : isEnd special c = true := hrest c rfl
      rw [List.nil_append, hostText, hc, Bool.true_or, if_pos rfl]
      exact h
  | cons c cs ih =>
    rw [List.cons_append, hostText]
    rw [hostText] at h
    split
    · rename_i hstop
      rw [if_pos hstop] at h
      exact h
    · rename_i hstop
      rw [if_neg hstop] at h
      rw [← h, ih rfl]

/-! ### The user -/

/-- The user and the password of what stands up to an at sign, encoded. -/
def credentials (user : List Char) : List Char × Option (List Char) :=
  let user := user.dropLast
  let name := user.takeWhile (· != ':')
  let password := user.drop (name.length + 1)
  (Percent.encode keptInUser name,
    if password.isEmpty then none else some (Percent.encode keptInUser password))

section User

variable (hinside : ∀ c ∈ user ++ cs, isEnd true c = false)
  (hafter : ∀ c, rest.head? = some c → isEnd true c = true)
  (huser : user = [] ∨ user.getLast? = some '@') (hbehind : '@' ∉ cs)

include hinside hafter in
theorem front_eq : (user ++ (cs ++ rest)).takeWhile (!isEnd true ·) = user ++ cs := by
  have hfront : ∀ c ∈ user ++ cs, (!isEnd true c) = true := by simpa using hinside
  have hback : ∀ c, rest.head? = some c → (!isEnd true c) = false := by simpa using hafter
  rw [← List.append_assoc]
  exact takeWhile_split hfront hback

include huser hbehind in
theorem back_eq : ((user ++ cs).reverse.takeWhile (· != '@')).reverse = cs := by
  have hback : ∀ c ∈ cs, (c != '@') = true :=
    fun c hc => bne_iff_ne.mpr fun h => hbehind (h ▸ hc)
  have hfront : ∀ c, user.getLast? = some c → (c != '@') = false := by
    intro c hc
    rcases huser with rfl | hlast
    · cases hc
    · rw [hlast, Option.some.injEq] at hc
      simp [← hc]
  exact rtakeWhile_split hback hfront

include hinside hafter huser hbehind in
theorem readUser_append (hsome : cs ≠ []) : readUser true (user ++ (cs ++ rest)) =
    .ok ((credentials user).1, (credentials user).2, cs ++ rest) := by
  rw [readUser, front_eq hinside hafter, back_eq huser hbehind, List.length_append]
  dsimp only
  rcases huser with rfl | hlast
  · rw [List.length_nil, Nat.zero_add, if_pos rfl]
    rfl
  · have huser : user ≠ [] := by
      rintro rfl
      cases hlast
    have hlength : user.length ≠ 0 := fun h => huser (List.length_eq_zero_iff.mp h)
    have htake : (user ++ cs).take (user.length + cs.length - cs.length - 1) = user.dropLast := by
      rw [Nat.add_sub_cancel, List.dropLast_eq_take]
      exact List.take_append_of_le_length (by omega)
    have hdrop : (user ++ (cs ++ rest)).drop (user.dropLast.length + 1) = cs ++ rest := by
      rw [List.length_dropLast, Nat.sub_add_cancel (by omega), List.drop_left]
    have hhead : (cs ++ rest).head?.any (isEnd true) = false := by
      obtain ⟨c, ds, rfl⟩ := List.exists_cons_of_ne_nil hsome
      exact hinside c (by simp)
    rw [if_neg (by omega), htake, hdrop, hhead, Bool.and_false, if_neg Bool.false_ne_true]
    rfl

include hinside hafter huser in
/-- Where no host stands after the user, none is found elsewhere. -/
theorem readUser_bare {n : List Char} {p : Option (List Char)} {ds : List Char} (hnone : cs = [])
    (h : readUser true (user ++ (cs ++ rest)) = .ok (n, p, ds)) : ds = rest := by
  subst hnone
  rw [readUser, front_eq hinside hafter, back_eq huser List.not_mem_nil] at h
  dsimp only at h
  rw [List.append_nil, List.nil_append, List.length_nil] at h
  by_cases hempty : 0 = user.length
  · obtain rfl : user = [] := List.length_eq_zero_iff.mp hempty.symm
    rw [if_pos hempty] at h
    cases h
    rfl
  · rw [if_neg hempty] at h
    split at h
    · cases h
    · have hlength : (user.take (user.length - 0 - 1)).length + 1 = user.length := by
        rw [List.length_take]
        omega
      rw [hlength, List.drop_left] at h
      cases h
      rfl

end User

/-! ### The port -/

/-- Nothing, or a colon and the digits of a number of sixteen bits, of which there may be none. -/
def IsPort (port : List Char) : Prop :=
  port = [] ∨ ∃ ds, port = ':' :: ds ∧ (∀ d ∈ ds, d.isDigit = true) ∧ Number.ofDigits 10 ds ≤ 65535

theorem digit_not_end {c : Char} (h : isEnd true c = true) : c.isDigit = false := by
  have hcases : c = '/' ∨ c = '\\' ∨ c = '?' ∨ c = '#' := by
    simpa [isEnd, isSlash, or_assoc] using h
  rcases hcases with rfl | rfl | rfl | rfl <;> decide

/-- What no character of a port is. -/
theorem portChar_spec {c : Char} (h : c = ':' ∨ c.isDigit = true) :
    ' ' < c ∧ isEnd true c = false ∧ c ∉ ['@', ']', '/'] := by
  rcases h with rfl | hdigit
  · decide
  · have hbounds : 48 ≤ c.val ∧ c.val ≤ 57 := by simpa [Char.isDigit] using hdigit
    have hlow : 48 ≤ c.toNat := hbounds.1
    refine ⟨?_, ?_, ?_⟩
    · show 32 < c.toNat
      omega
    · by_contra hend
      rw [digit_not_end (Bool.not_eq_false _ ▸ hend)] at hdigit
      cases hdigit
    · intro hc
      simp only [List.mem_cons, List.not_mem_nil, or_false] at hc
      rcases hc with rfl | rfl | rfl <;> exact absurd hdigit (by decide)

theorem IsPort.chars (h : IsPort port) : ∀ c ∈ port, c = ':' ∨ c.isDigit = true := by
  rcases h with rfl | ⟨ds, rfl, hdigits, -⟩
  · exact fun c hc => nomatch hc
  · intro c hc
    exact (List.mem_cons.mp hc).imp id (hdigits c)

/-- The number that a port gives, unless it is the usual one of the scheme. -/
def portNumber? (scheme port : List Char) : Option Nat :=
  if port.tail.isEmpty ∨ defaultPort? scheme = some (Number.ofDigits 10 port.tail) then none
  else some (Number.ofDigits 10 port.tail)

theorem readPort_digits {ds : List Char} (hdigits : ∀ d ∈ ds, d.isDigit = true)
    (hnumber : Number.ofDigits 10 ds ≤ 65535)
    (hafter : ∀ c, rest.head? = some c → isEnd true c = true) :
    readPort scheme (ds ++ rest) = .ok (portNumber? scheme (':' :: ds), rest) := by
  have hfront : (ds ++ rest).takeWhile Char.isDigit = ds :=
    takeWhile_split hdigits fun c hc => digit_not_end (hafter c hc)
  have hback : (rest.head?.any (!isEnd true ·)) = false := by
    cases hhead : rest.head? with
    | none => rfl
    | some c => simp [hafter c hhead]
  rw [readPort, hfront, List.drop_left, hback, portNumber?, List.tail_cons,
    Bool.or_false, if_neg (by simpa using hnumber)]
  simp only [Bool.or_eq_true, decide_eq_true_eq]
  split <;> rfl

theorem readPort_spec {number : Option Nat} (h : readPort scheme cs = .ok (number, rest)) :
    ∃ ds, cs = ds ++ rest ∧ (∀ d ∈ ds, d.isDigit = true) ∧ Number.ofDigits 10 ds ≤ 65535 ∧
      ∀ c, rest.head? = some c → isEnd true c = true := by
  have hsplit : cs = cs.takeWhile Char.isDigit ++ cs.dropWhile Char.isDigit :=
    List.takeWhile_append_dropWhile.symm
  rw [readPort, drop_length_takeWhile] at h
  split at h
  · cases h
  · rename_i hfine
    rw [Bool.or_eq_true, not_or, decide_eq_true_eq, Nat.not_lt] at hfine
    have hrest : cs.dropWhile Char.isDigit = rest := by
      split at h <;> cases h <;> rfl
    rw [hrest] at hsplit hfine
    refine ⟨_, hsplit, fun d hd => List.mem_takeWhile_imp hd, hfine.1, ?_⟩
    intro c hc
    simpa [hc] using hfine.2

/-- The port at the front of a text, if one stands there. -/
def optionalPort (scheme cs : List Char) : Except Fault (Option Nat × List Char) :=
  if cs.head? = some ':' then readPort scheme cs.tail else .ok (none, cs)

theorem optionalPort_append (hport : IsPort port)
    (hafter : ∀ c, rest.head? = some c → isEnd true c = true) :
    optionalPort scheme (port ++ rest) = .ok (portNumber? scheme port, rest) := by
  rcases hport with rfl | ⟨ds, rfl, hdigits, hnumber⟩
  · have hhead : rest.head? ≠ some ':' := by
      intro hcolon
      exact absurd (hafter ':' hcolon) (by decide)
    exact if_neg hhead
  · exact readPort_digits hdigits hnumber hafter

theorem optionalPort_spec {number : Option Nat} (h : optionalPort scheme cs = .ok (number, rest))
    (hstop : ∀ c, cs.head? = some c → c = ':' ∨ isEnd true c = true) :
    ∃ port, cs = port ++ rest ∧ IsPort port ∧ ∀ c, rest.head? = some c → isEnd true c = true := by
  unfold optionalPort at h
  split at h
  · rename_i hcolon
    obtain ⟨ds, hds⟩ := List.head?_eq_some_iff.mp hcolon
    rw [hds, List.tail_cons] at h
    obtain ⟨digits, hsplit, hdigits, hnumber, hafter⟩ := readPort_spec h
    exact ⟨':' :: digits, by rw [hds, hsplit]; rfl, .inr ⟨digits, rfl, hdigits, hnumber⟩, hafter⟩
  · rename_i hcolon
    cases h
    refine ⟨[], rfl, .inl rfl, ?_⟩
    intro c hc
    rcases hstop c hc with rfl | hend
    · exact absurd hc hcolon
    · exact hend

/-- A port as it is written. -/
def portText (n : Nat) : List Char := ':' :: Nat.toDigits 10 n

theorem portText_digits (n : Nat) : ∀ d ∈ Nat.toDigits 10 n, d.isDigit = true :=
  fun _ hd => Nat.isDigit_of_mem_toDigits (by decide) (by decide) hd

theorem portText_chars {n : Nat} {c : Char} (h : c ∈ portText n) : c = ':' ∨ c.isDigit = true :=
  (List.mem_cons.mp h).imp id (portText_digits n c)

theorem isPort_portText {n : Nat} (h : n ≤ 65535) : IsPort (portText n) :=
  .inr ⟨_, rfl, portText_digits n, by rw [Number.ofDigits_toDigits (by decide) (by decide)]; exact h⟩

/-- A written port is the one that is meant, be it the usual one or not. -/
theorem portNumber?_portText (scheme : List Char) (n : Nat) :
    (portNumber? scheme (portText n)).or (defaultPort? scheme) = some n := by
  have hsome : (Nat.toDigits 10 n).isEmpty = false := by simp
  have hnumber : Number.ofDigits 10 (Nat.toDigits 10 n) = n :=
    Number.ofDigits_toDigits (by decide) (by decide) n
  rw [portNumber?, portText, List.tail_cons, hnumber, hsome]
  simp only [Bool.false_eq_true, false_or]
  split_ifs with husual
  · rw [Option.none_or, husual]
  · rfl

/-! ### The authority -/

/-- How an authority is read under a scheme with known rules. -/
theorem readAuthority_special (hscheme : isSpecial scheme = true) :
    readAuthority scheme text = (do
      let (user, password, cs) ← readUser true text
      let name := hostText true false cs
      if name = [] then throw .emptyHost
      let host ← Host.parse name
      let (number, rest) ← optionalPort scheme (cs.drop name.length)
      return (⟨user, password, host, number⟩, rest)) := by
  rw [readAuthority, hscheme]
  congr 1
  funext ⟨user, password, cs⟩
  dsimp only
  by_cases hname : hostText true false cs = []
  · simp [hname]
    rfl
  · have hempty : (hostText true false cs).isEmpty = false := by simpa using hname
    simp only [hempty, hname, Bool.and_false, Bool.false_and, Bool.false_eq_true, if_false, if_true,
      optionalPort]
    congr 1
    funext host
    split <;> rfl

/-- A text that begins with a user, a host's name and a port, each of which may take nothing but the
name, and ends or goes on with a path, a query or a fragment. -/
structure Spelled (text user name port rest : List Char) : Prop where
  parts : text = user ++ (name ++ port ++ rest)
  inside : ∀ c ∈ user ++ (name ++ port), isEnd true c = false
  after : ∀ c, rest.head? = some c → isEnd true c = true
  user : user = [] ∨ user.getLast? = some '@'
  behind : '@' ∉ name ++ port
  nonempty : name ≠ []
  name : hostText true false (name ++ port) = name
  port : IsPort port

/-- The authority that the parts of a text give. -/
def authorityOf (scheme user : List Char) (host : Host) (port : List Char) : Authority :=
  ⟨(credentials user).1, (credentials user).2, host, portNumber? scheme port⟩

/-- A text that is spelled as it must be has an authority if its host is one. -/
theorem Spelled.read (hscheme : isSpecial scheme = true) (h : Spelled text user name port rest) :
    readAuthority scheme text =
      (Host.parse name).map fun host => (authorityOf scheme user host port, rest) := by
  have hsome : name ++ port ≠ [] := List.append_ne_nil_of_left_ne_nil h.nonempty _
  have hname : hostText true false (name ++ port ++ rest) = name :=
    hostText_before_end h.name h.after
  rw [readAuthority_special hscheme, h.parts,
    readUser_append h.inside h.after h.user h.behind hsome]
  simp only [Bind.bind, Except.bind, hname, h.nonempty, if_false]
  rw [List.append_assoc, List.drop_left, optionalPort_append h.port h.after]
  cases Host.parse name <;> rfl

/-- What stands before a path is a user, which ends in an at sign, and a text without one. -/
theorem front_split (text : List Char) : ∃ user cs rest, text = user ++ (cs ++ rest) ∧
    (∀ c ∈ user ++ cs, isEnd true c = false) ∧ (∀ c, rest.head? = some c → isEnd true c = true) ∧
    (user = [] ∨ user.getLast? = some '@') ∧ '@' ∉ cs := by
  obtain ⟨front, hfront⟩ : ∃ front, text.takeWhile (!isEnd true ·) = front := ⟨_, rfl⟩
  have hsplit : front.rdropWhile (· != '@') ++ front.rtakeWhile (· != '@') = front :=
    List.rdropWhile_append_rtakeWhile
  refine ⟨front.rdropWhile (· != '@'), front.rtakeWhile (· != '@'),
    text.dropWhile (!isEnd true ·), ?_, ?_, ?_, ?_, ?_⟩
  · rw [← List.append_assoc, hsplit, ← hfront, List.takeWhile_append_dropWhile]
  · intro c hc
    rw [hsplit, ← hfront] at hc
    simpa using List.mem_takeWhile_imp hc
  · intro c hc
    simpa using Text.head_dropWhile hc
  · cases hlast : (front.rdropWhile (· != '@')).getLast? with
    | none => exact .inl (List.getLast?_eq_none_iff.mp hlast)
    | some c =>
      right
      have hc : c = '@' := by simpa using Text.last_rdropWhile hlast
      rw [hc]
  · intro hat
    simpa using List.mem_rtakeWhile_imp hat

/-- What is read of a text after its user: a host's name and perhaps a port. -/
theorem read_parts {a : Authority} (hscheme : isSpecial scheme = true)
    (h : readAuthority scheme text = .ok (a, rest)) :
    ∃ u password cs port, readUser true text = .ok (u, password, cs) ∧
      hostText true false cs ≠ [] ∧ cs = hostText true false cs ++ (port ++ rest) ∧ IsPort port ∧
      ∀ c, rest.head? = some c → isEnd true c = true := by
  rw [readAuthority_special hscheme] at h
  obtain ⟨⟨u, password, cs⟩, hread, h⟩ := bind_eq_ok.mp h
  dsimp only at h
  split at h
  · cases h
  · rename_i hname
    obtain ⟨host, -, h⟩ := bind_eq_ok.mp h
    obtain ⟨⟨number, rest'⟩, hport, h⟩ := bind_eq_ok.mp h
    obtain rfl : rest' = rest := (Prod.mk.inj (Except.ok.inj h)).2
    obtain ⟨more, hmore⟩ := hostText_prefix true false cs
    have hdrop : cs.drop (hostText true false cs).length = more := by
      conv_lhs =>
        arg 2
        rw [hmore]
      exact List.drop_left
    have hstop : ∀ c, more.head? = some c → c = ':' ∨ isEnd true c = true := by
      intro c hc
      obtain ⟨others, rfl⟩ := List.head?_eq_some_iff.mp hc
      exact hostText_stop hmore
    rw [hdrop] at hport
    obtain ⟨port, rfl, hisport, hrest⟩ := optionalPort_spec hport hstop
    exact ⟨u, password, cs, port, hread, hname, hmore, hisport, hrest⟩

/-- No other text has an authority. -/
theorem spelled_of_read {a : Authority} (hscheme : isSpecial scheme = true)
    (h : readAuthority scheme text = .ok (a, rest)) :
    ∃ user name port, Spelled text user name port rest := by
  obtain ⟨u, password, cs, port, hread, hname, hparts, hport, hrest⟩ := read_parts hscheme h
  obtain ⟨user, front, back, rfl, hinside, hafter, huser, hbehind⟩ := front_split text
  have hcs : cs = front ++ back := by
    by_cases hfront : front = []
    · rw [readUser_bare hinside hafter huser hfront hread, hfront, List.nil_append]
    · rw [readUser_append hinside hafter huser hbehind hfront] at hread
      cases hread
      rfl
  obtain ⟨name, hdef⟩ : ∃ name, hostText true false cs = name := ⟨_, rfl⟩
  rw [hdef] at hname hparts
  have hwhole : ∀ c ∈ name ++ port, isEnd true c = false := by
    intro c hc
    rcases List.mem_append.mp hc with hc | hc
    · rw [← hdef] at hc
      exact hostText_inside hc
    · exact (portChar_spec (hport.chars c hc)).2.1
  -- both `front` and the name with its port reach up to the first character that ends them
  have hfront : front = name ++ port := by
    have hinner : ∀ c ∈ [] ++ front, isEnd true c = false :=
      fun c hc => hinside c (List.mem_append_right _ hc)
    have hcut : (front ++ back).takeWhile (!isEnd true ·) = front := front_eq hinner hafter
    have hcut' : (name ++ port ++ rest).takeWhile (!isEnd true ·) = name ++ port :=
      front_eq (show ∀ c ∈ [] ++ (name ++ port), isEnd true c = false from hwhole) hrest
    rw [← hcut, ← hcut', ← hcs, hparts, List.append_assoc]
  have hback : back = rest := by
    rw [hcs, hfront, List.append_assoc] at hparts
    exact List.append_cancel_left (List.append_cancel_left hparts)
  subst hfront hback
  refine ⟨user, name, port, rfl, hinside, hafter, huser, hbehind, hname, ?_, hport⟩
  rw [hparts] at hdef
  rcases hport with rfl | ⟨ds, rfl, -, -⟩
  · rw [List.append_nil]
    exact hostText_self hdef
  · exact (hostText_append _ _).mp hdef

end NetworkPolicy.Url
