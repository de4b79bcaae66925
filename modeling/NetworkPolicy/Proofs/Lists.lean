import Mathlib.Data.List.Forall2
import Mathlib.Data.List.Nodup
import Mathlib.Data.String.Basic
import NetworkPolicy.Access.Collaborators
import NetworkPolicy.Policy.Basic

/-! Facts about lists that the laws of stores and of the server rest on: rows found by a key, results
of computations on each element, runs of equal elements, lists of distinct names, batches, and names
that are joined to one text. -/
namespace NetworkPolicy

/-- Looking a key up in rows with distinct keys finds the one row that has it. -/
theorem find?_key_eq_some {α κ : Type} [BEq κ] [LawfulBEq κ] {key : α → κ} {rows : List α}
    (distinct : (rows.map key).Nodup) {k : κ} {row : α} :
    rows.find? (fun x => key x == k) = some row ↔ row ∈ rows ∧ key row = k := by
  induction rows with
  | nil => simp
  | cons x xs ih =>
    obtain ⟨hx, hxs⟩ := List.nodup_cons.mp distinct
    by_cases hk : key x = k
    · have hnot : ∀ y ∈ xs, key y ≠ k := fun y hy h =>
        hx (List.mem_map.mpr ⟨y, hy, h.trans hk.symm⟩)
      rw [List.find?_cons_of_pos (by simpa using hk), Option.some.injEq, List.mem_cons]
      constructor
      · rintro rfl
        exact ⟨Or.inl rfl, hk⟩
      · rintro ⟨rfl | hmem, h⟩
        · rfl
        · exact absurd h (hnot row hmem)
    · rw [List.find?_cons_of_neg (by simpa using hk), ih hxs, List.mem_cons]
      constructor
      · exact fun h => ⟨Or.inr h.1, h.2⟩
      · rintro ⟨rfl | hmem, h⟩
        · exact absurd h hk
        · exact ⟨hmem, h⟩

theorem mapM_eq_ok {ε α β : Type} {f : α → Except ε β} {g : α → β} {xs : List α}
    (h : ∀ x ∈ xs, f x = .ok (g x)) : xs.mapM f = .ok (xs.map g) := by
  induction xs with
  | nil => rfl
  | cons x xs ih =>
    rw [List.mapM_cons, h x List.mem_cons_self, ih fun y hy => h y (List.mem_cons_of_mem _ hy)]
    rfl

theorem bind_eq_ok {ε α β : Type} {x : Except ε α} {f : α → Except ε β} {b : β} :
    (x >>= f) = .ok b ↔ ∃ a, x = .ok a ∧ f a = .ok b := by
  cases x with
  | error e => exact ⟨fun h => (nomatch h), fun ⟨_, h, _⟩ => (nomatch h)⟩
  | ok a => exact ⟨fun h => ⟨a, rfl, h⟩, fun ⟨_, h, hb⟩ => by cases h; exact hb⟩

theorem map_eq_ok {ε α β : Type} {x : Except ε α} {f : α → β} {b : β} :
    x.map f = .ok b ↔ ∃ a, x = .ok a ∧ f a = b := by
  cases x with
  | error e => exact ⟨fun h => (nomatch h), fun ⟨_, h, _⟩ => (nomatch h)⟩
  | ok a => simp [Except.map]

theorem toOption_eq_some {ε α : Type} {x : Except ε α} {a : α} :
    x.toOption = some a ↔ x = .ok a := by
  cases x <;> simp [Except.toOption]

theorem mapM_eq_ok_iff {ε α β : Type} {f : α → Except ε β} {xs : List α} {ys : List β} :
    xs.mapM f = .ok ys ↔ List.Forall₂ (fun x y => f x = .ok y) xs ys := by
  induction xs generalizing ys with
  | nil =>
    rw [List.mapM_nil, List.forall₂_nil_left_iff]
    exact ⟨fun h => by cases h; rfl, fun h => by rw [h]; rfl⟩
  | cons x xs ih =>
    rw [List.mapM_cons, bind_eq_ok, List.forall₂_cons_left_iff]
    constructor
    · rintro ⟨y, hy, h⟩
      obtain ⟨ys', hys, h⟩ := bind_eq_ok.mp h
      cases h
      exact ⟨y, ys', hy, ih.mp hys, rfl⟩
    · rintro ⟨y, ys', hy, hys, rfl⟩
      exact ⟨y, hy, bind_eq_ok.mpr ⟨ys', ih.mpr hys, rfl⟩⟩

theorem mapM_eq_some_iff {α β : Type} {f : α → Option β} {xs : List α} {ys : List β} :
    xs.mapM f = some ys ↔ List.Forall₂ (fun x y => f x = some y) xs ys := by
  induction xs generalizing ys with
  | nil =>
    rw [List.mapM_nil, List.forall₂_nil_left_iff]
    exact ⟨fun h => by cases h; rfl, fun h => by rw [h]; rfl⟩
  | cons x xs ih =>
    rw [List.mapM_cons, List.forall₂_cons_left_iff]
    simp only [Option.bind_eq_bind, Option.bind_eq_some_iff, Option.pure_def, Option.some.injEq, ih]
    constructor
    · rintro ⟨y, hy, ys', hys, rfl⟩
      exact ⟨y, ys', hy, hys, rfl⟩
    · rintro ⟨y, ys', hy, hys, rfl⟩
      exact ⟨y, hy, ys', hys, rfl⟩

theorem mem_of_mapM_eq_ok {ε α β : Type} {f : α → Except ε β} {xs : List α} {ys : List β}
    (h : xs.mapM f = .ok ys) : ∀ y ∈ ys, ∃ x ∈ xs, f x = .ok y := by
  induction xs generalizing ys with
  | nil =>
    cases h
    exact fun y hy => nomatch hy
  | cons x xs ih =>
    rw [List.mapM_cons] at h
    obtain ⟨y, hx, h⟩ := bind_eq_ok.mp h
    obtain ⟨ys', hxs, h⟩ := bind_eq_ok.mp h
    cases h
    intro z hz
    rcases List.mem_cons.mp hz with rfl | hz
    · exact ⟨x, List.mem_cons_self, hx⟩
    · obtain ⟨x', hmem, hx'⟩ := ih hxs z hz
      exact ⟨x', List.mem_cons_of_mem _ hmem, hx'⟩

theorem forM_eq_ok {ε α : Type} {f : α → Except ε Unit} {xs : List α} (h : xs.forM f = .ok ()) :
    ∀ x ∈ xs, f x = .ok () := by
  induction xs with
  | nil => exact fun x hx => nomatch hx
  | cons x xs ih =>
    rw [List.forM_eq_forM, List.forM_cons] at h
    obtain ⟨_, hx, h⟩ := bind_eq_ok.mp h
    intro y hy
    rcases List.mem_cons.mp hy with rfl | hy
    · exact hx
    · exact ih h y hy

theorem any_eq_of_forall₂ {α β : Type} {R : α → β → Prop} {p : α → Bool} {q : β → Bool}
    {xs : List α} {ys : List β} (h : List.Forall₂ R xs ys) (hpq : ∀ x y, R x y → p x = q y) :
    xs.any p = ys.any q := by
  induction h with
  | nil => rfl
  | cons hxy _ ih => rw [List.any_cons, List.any_cons, hpq _ _ hxy, ih]

theorem exists_mem_of_forall₂ {α β : Type} {R : α → β → Prop} {xs : List α} {ys : List β}
    (h : List.Forall₂ R xs ys) : ∀ x ∈ xs, ∃ y ∈ ys, R x y := by
  induction h with
  | nil => exact fun x hx => absurd hx List.not_mem_nil
  | cons hxy _ ih =>
    intro x hx
    rcases List.mem_cons.mp hx with rfl | hx
    · exact ⟨_, List.mem_cons_self, hxy⟩
    · obtain ⟨y, hy, hxy⟩ := ih x hx
      exact ⟨y, List.mem_cons_of_mem _ hy, hxy⟩

/-- Elements that stand for distinct ones are told apart by whatever tells those apart. -/
theorem nodup_map_of_forall₂ {α β γ : Type} {R : α → β → Prop} {f : α → γ} {xs : List α}
    {ys : List β} (h : List.Forall₂ R xs ys) (distinct : ys.Nodup)
    (hf : ∀ x x' y y', R x y → R x' y' → f x = f x' → y = y') : (xs.map f).Nodup := by
  induction h with
  | nil => exact List.nodup_nil
  | @cons x y xs ys hxy hrest ih =>
    obtain ⟨hy, hys⟩ := List.nodup_cons.mp distinct
    rw [List.map_cons, List.nodup_cons]
    refine ⟨fun hmem => ?_, ih hys⟩
    obtain ⟨x', hx', hsame⟩ := List.mem_map.mp hmem
    obtain ⟨y', hy', hxy'⟩ := exists_mem_of_forall₂ hrest x' hx'
    exact hy (hf x' x y' y hxy' hxy hsame ▸ hy')

theorem filterMap_eq_map_of_forall₂ {α β γ : Type} {R : α → β → Prop} {f : α → Option γ} {g : β → γ}
    {xs : List α} {ys : List β} (h : List.Forall₂ R xs ys)
    (hfg : ∀ x, ∀ y ∈ ys, R x y → f x = some (g y)) : xs.filterMap f = ys.map g := by
  induction h with
  | nil => rfl
  | @cons x y xs ys hxy _ ih =>
    rw [List.filterMap_cons_some (hfg x y List.mem_cons_self hxy), List.map_cons,
      ih fun x y hy => hfg x y (List.mem_cons_of_mem _ hy)]

/-! ### Runs of equal elements -/

section Runs

variable {α : Type} {r : α → α → Bool}

private theorem eraseRepsBy_loop (a : α) (xs acc : List α) :
    List.eraseRepsBy.loop r a xs acc = acc.reverse ++ (a :: xs).eraseRepsBy r := by
  induction xs generalizing a acc with
  | nil => simp [List.eraseRepsBy, List.eraseRepsBy.loop]
  | cons b xs ih =>
    cases hab : r a b with
    | true => simp only [List.eraseRepsBy, List.eraseRepsBy.loop, hab, ih a acc]
    | false =>
      simp only [List.eraseRepsBy, List.eraseRepsBy.loop, hab, ih b (a :: acc), ih b [a],
        List.reverse_cons, List.reverse_nil, List.append_assoc, List.nil_append]

theorem eraseRepsBy_cons_cons (a b : α) (xs : List α) :
    (a :: b :: xs).eraseRepsBy r =
      if r a b then (a :: xs).eraseRepsBy r else a :: (b :: xs).eraseRepsBy r := by
  cases hab : r a b with
  | true => simp only [List.eraseRepsBy, List.eraseRepsBy.loop, hab, if_true]
  | false =>
    simp only [List.eraseRepsBy, List.eraseRepsBy.loop, hab, eraseRepsBy_loop b xs [a],
      Bool.false_eq_true, if_false, List.reverse_cons, List.reverse_nil, List.nil_append,
      List.cons_append]

theorem eraseRepsBy_cons {a : α} {xs : List α} (h : ∀ x ∈ xs, r a x = false) :
    (a :: xs).eraseRepsBy r = a :: xs.eraseRepsBy r := by
  cases xs with
  | nil => rfl
  | cons b xs => rw [eraseRepsBy_cons_cons, h b List.mem_cons_self, if_neg Bool.false_ne_true]

theorem eraseRepsBy_eq_self {xs : List α} (h : xs.Pairwise fun a b => r a b = false) :
    xs.eraseRepsBy r = xs := by
  induction xs with
  | nil => rfl
  | cons a xs ih =>
    obtain ⟨ha, hxs⟩ := List.pairwise_cons.mp h
    rw [eraseRepsBy_cons ha, ih hxs]

theorem mem_eraseRepsBy [BEq α] [LawfulBEq α] {xs : List α} {x : α} :
    x ∈ xs.eraseRepsBy (fun a b => a == b) ↔ x ∈ xs := by
  induction xs with
  | nil => rfl
  | cons a xs ih =>
    cases xs with
    | nil => rfl
    | cons b xs =>
      rw [eraseRepsBy_cons_cons, List.mem_cons]
      split_ifs with hab
      · rw [eq_of_beq hab, ih]
        exact ⟨Or.inr, fun h => h.elim (fun h => h ▸ List.mem_cons_self) fun h => h⟩
      · rw [List.mem_cons, ih]

end Runs

theorem mem_insertSorted {s t : String} {ts : List String} :
    s ∈ insertSorted t ts ↔ s = t ∨ s ∈ ts := by
  induction ts with
  | nil => simp [insertSorted]
  | cons u us ih =>
    unfold insertSorted
    split_ifs with hlt heq
    · simp
    · simp [heq]
    · simp only [List.mem_cons, ih]
      tauto

theorem mem_sortedDistinct {s : String} {ss : List String} : s ∈ sortedDistinct ss ↔ s ∈ ss := by
  induction ss with
  | nil => simp [sortedDistinct]
  | cons t ts ih =>
    change s ∈ insertSorted t (sortedDistinct ts) ↔ _
    rw [mem_insertSorted, ih, List.mem_cons]

theorem insertSorted_increasing {t : String} {ts : List String} (h : ts.Pairwise (· < ·)) :
    (insertSorted t ts).Pairwise (· < ·) := by
  induction ts with
  | nil => exact List.pairwise_singleton _ _
  | cons u us ih =>
    obtain ⟨hu, hus⟩ := List.pairwise_cons.mp h
    unfold insertSorted
    split_ifs with hlt heq
    · refine List.pairwise_cons.mpr ⟨fun v hv => ?_, h⟩
      rcases List.mem_cons.mp hv with rfl | hv
      · exact hlt
      · exact hlt.trans (hu v hv)
    · exact h
    · refine List.pairwise_cons.mpr ⟨fun v hv => ?_, ih hus⟩
      rcases mem_insertSorted.mp hv with rfl | hv
      · exact (lt_trichotomy v u).elim (absurd · hlt) (·.elim (absurd · heq) id)
      · exact hu v hv

theorem sortedDistinct_increasing (ss : List String) : (sortedDistinct ss).Pairwise (· < ·) := by
  induction ss with
  | nil => exact .nil
  | cons t ts ih => exact insertSorted_increasing ih

theorem mem_namedApps {g : String} {ps : List Policy} :
    g ∈ namedApps ps ↔ ∃ p ∈ ps, g ∈ p.ends := by
  rw [namedApps, mem_sortedDistinct, List.mem_flatMap]

/-- Batches put one after the other are the list they were cut from. -/
theorem flatten_batches {α : Type} (size : Nat) (xs : List α) : (batches size xs).flatten = xs := by
  fun_induction batches size xs with
  | case1 xs h => simpa using h.symm
  | case2 xs h ih => rw [List.flatten_cons, ih, List.take_append_drop]

theorem length_of_mem_batches {α : Type} {size : Nat} {xs b : List α} (h : b ∈ batches size xs) :
    1 ≤ b.length ∧ b.length ≤ max 1 size := by
  fun_induction batches size xs with
  | case1 => exact absurd h List.not_mem_nil
  | case2 xs hsome ih =>
    rcases List.mem_cons.mp h with rfl | h
    · have hpos : xs.length ≠ 0 := fun hnone =>
        hsome (List.isEmpty_iff.mpr (List.length_eq_zero_iff.mp hnone))
      rw [List.length_take]
      omega
    · exact ih h

/-! ### Names in one text -/

/-- The parts of a text between commas. -/
def commaParts (s : String) : List String := (s.toList.splitOn ',').map String.ofList

theorem commaParts_of_not_mem {s : String} (h : ',' ∉ s.toList) : commaParts s = [s] := by
  rw [commaParts, List.splitOn_eq_singleton h, List.map_singleton, String.ofList_toList]

theorem length_commaParts (s : String) : (commaParts s).length = s.toList.count ',' + 1 := by
  rw [commaParts, List.length_map]
  induction s.toList with
  | nil => rfl
  | cons c cs ih =>
    rw [List.splitOn_cons_eq_if_modifyHead, List.count_cons]
    split_ifs with hc
    · rw [List.length_cons, ih]
    · rw [List.length_modifyHead, ih, Nat.add_zero]

/-- The parts of a text that is joined with commas are the parts of what it is joined from. -/
theorem commaParts_intercalate {ss : List String} (h : ss ≠ []) :
    commaParts (",".intercalate ss) = ss.flatMap commaParts := by
  induction ss with
  | nil => exact absurd rfl h
  | cons s ss ih =>
    cases ss with
    | nil => rw [String.intercalate_singleton, List.flatMap_singleton]
    | cons t ss =>
      have hjoined : (",".intercalate (s :: t :: ss)).toList =
          s.toList ++ ',' :: (",".intercalate (t :: ss)).toList := by
        rw [String.intercalate_cons_cons, String.toList_append, String.toList_append,
          List.append_assoc]
        rfl
      rw [commaParts, hjoined, List.splitOn_append_cons_self, List.map_append, List.flatMap_cons,
        ← ih (List.cons_ne_nil _ _)]
      rfl

/-- Names without commas are found again in the text that they are joined to. -/
theorem commaParts_names {ss : List String} (hsome : ss ≠ []) (h : ∀ s ∈ ss, ',' ∉ s.toList) :
    commaParts (",".intercalate ss) = ss := by
  have hone : ∀ s ∈ ss, commaParts s = [s] := fun s hs => commaParts_of_not_mem (h s hs)
  rw [commaParts_intercalate hsome, List.flatMap_congr hone, List.flatMap_singleton']

end NetworkPolicy
