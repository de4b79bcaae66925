import Mathlib.Data.List.Basic
import NetworkPolicy.Files
import NetworkPolicy.Proofs.Lists

/-! Files that are opened for appending: a path leads to the same file after each addition, and what
was in the file stays before what is added. -/
namespace NetworkPolicy.Files

variable {f g : Files} {path : String} {p q : List String} {content : List UInt8}

/-! ### What is put at a place -/

@[simp]
theorem put_current (f : Files) (p : List String) (e : Entry) :
    (f.put p e).current = f.current := rfl

theorem entry?_put_self (h : f.entry? p ≠ some .directory) (e : Entry) :
    entry? (f.put p e) p = some e := by
  have houtside : ¬ p.isSuffixOf f.current = true := fun hsuffix => h (if_pos hsuffix)
  unfold entry?
  rw [put_current, if_neg houtside, put, List.find?_cons]
  simp

theorem entry?_put_other (h : q ≠ p) (e : Entry) : entry? (f.put p e) q = f.entry? q := by
  have hfirst : ((p, e).1 == q) = false := by simpa using h.symm
  have hfind : (f.put p e).entries.find? (·.1 == q) = f.entries.find? (·.1 == q) := by
    simp only [put, List.find?_cons, hfirst, List.find?_filter]
    congr 1
    funext m
    by_cases hm : m.1 = q
    · simp [hm, h]
    · simp [hm]
  unfold entry?
  rw [put_current, hfind]

/-! ### Where paths lead -/

private theorem throw_bind {α : Type} (e : FileError) (r : Unit → Except FileError α) :
    ((throw e : Except FileError Unit) >>= r) = .error e := rfl

private theorem ok_bind {α β : Type} (a : α) (r : α → Except FileError β) :
    ((Except.ok a : Except FileError α) >>= r) = r a := rfl

private theorem error_bind {α β : Type} (e : FileError) (r : α → Except FileError β) :
    ((Except.error e : Except FileError α) >>= r) = .error e := rfl

/-- What it takes for a path to lead to a place. -/
theorem place_eq_ok : f.place path = .ok p ↔
    (zeroAt? path).isSome = false ∧ path.isEmpty = false ∧ path.utf8ByteSize < maxPath ∧
      f.follow (if isAbsolute path then [] else f.current) (steps path) = .ok p ∧
      (path.toList.getLast? = some '/' → f.entry? p = some .directory) := by
  by_cases hzero : (zeroAt? path).isSome
  · simp [place, hzero, throw_bind]
  by_cases hempty : path.isEmpty
  · simp [place, hempty, hzero, throw_bind]
  by_cases hlong : maxPath ≤ path.utf8ByteSize
  · simp [place, hempty, hzero, hlong, hlong.not_gt, throw_bind]
  have hshort : path.utf8ByteSize < maxPath := Nat.lt_of_not_le hlong
  rcases hfollow : f.follow (if isAbsolute path then [] else f.current) (steps path) with e | q
  · simp [place, hempty, hzero, hlong, hfollow, error_bind]
  by_cases hslash : path.toList.getLast? = some '/'
  · have hsame : q = p → f.entry? p = f.entry? q := fun hq => congrArg f.entry? hq.symm
    rcases hentry : f.entry? q with - | - | content <;> rw [hentry] at hsame
    all_goals simp +contextual [place, hempty, hzero, hlong, hfollow, hslash, hentry, hshort,
      hsame, throw_bind, ok_bind, pure, Except.pure]
  · simp [place, hempty, hzero, hlong, hfollow, hslash, hshort, ok_bind, pure, Except.pure]

/-- All places on the way to another one are directories, so that what is put at one that is no
directory does not lie on the way. -/
theorem follow_put (hp : f.entry? p ≠ some .directory) (e : Entry) {start : List String}
    {ns : List String} (h : f.follow start ns = .ok q) : (f.put p e).follow start ns = .ok q := by
  induction ns generalizing start with
  | nil => exact h
  | cons n ns ih =>
    unfold follow at h ⊢
    rcases hentry : f.entry? start with - | - | content <;> rw [hentry] at h
    · cases h
    · have hother : start ≠ p := fun hsame => hp (hsame ▸ hentry)
      rw [entry?_put_other hother, hentry]
      dsimp only at h ⊢
      split_ifs at h ⊢
      all_goals exact ih h
    · cases h

theorem place_put (hp : f.entry? p ≠ some .directory) (e : Entry) (h : f.place path = .ok p) :
    (f.put p e).place path = .ok p := by
  obtain ⟨hzero, hempty, hshort, hfollow, hslash⟩ := place_eq_ok.mp h
  rw [← put_current f p e] at hfollow
  exact place_eq_ok.mpr ⟨hzero, hempty, hshort, follow_put hp e hfollow,
    fun hend => absurd (hslash hend) hp⟩

/-! ### Additions to a file -/

/-- The path leads to the place, where there is a file of this content. -/
structure FileAt (f : Files) (path : String) (p : List String) (content : List UInt8) : Prop where
  place : f.place path = .ok p
  entry : f.entry? p = some (.file content)

theorem FileAt.read_eq (h : f.FileAt path p content) : f.read path = .ok content := by
  rw [read, h.place, ok_bind, h.entry]
  rfl

theorem fileAt_put (hplace : f.place path = .ok p) (hp : f.entry? p ≠ some .directory)
    (content : List UInt8) : (f.put p (.file content)).FileAt path p content :=
  ⟨place_put hp _ hplace, entry?_put_self hp _⟩

theorem FileAt.append (h : f.FileAt path p content) (bytes : List UInt8) :
    (f.append p bytes).FileAt path p (content ++ bytes) := by
  have hp : f.entry? p ≠ some .directory := by simp [h.entry]
  rw [Files.append, h.entry]
  exact fileAt_put h.place hp (content ++ bytes)

/-- A file that is opened for appending keeps what is in it; one that is created has nothing. -/
theorem fileAt_openAppend (h : f.openAppend path = .ok (p, g)) :
    ∃ content, g.FileAt path p content ∧
      (f.get? path = none ∧ content = [] ∨ f.get? path = some (.file content)) := by
  obtain ⟨q, hplace, h⟩ := bind_eq_ok.mp h
  have hget : f.get? path = f.entry? q := by rw [get?, hplace]
  rw [hget]
  rcases hentry : f.entry? q with - | - | content <;> rw [hentry] at h <;> cases h
  · have hp : f.entry? p ≠ some .directory := by simp [hentry]
    exact ⟨[], fileAt_put hplace hp [], Or.inl ⟨rfl, rfl⟩⟩
  · exact ⟨content, ⟨hplace, hentry⟩, Or.inr rfl⟩

end NetworkPolicy.Files
