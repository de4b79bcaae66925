import Mathlib.Data.List.Induction
import Mathlib.Order.Defs.LinearOrder
import NetworkPolicy.OrderedMap
import NetworkPolicy.Proofs.Lists

/-! Maps whose entries are held by increasing key: each change keeps them so, and is known by the
entries that there are afterwards. -/
namespace NetworkPolicy.OrderedMap

variable {κ α : Type} {m m' : OrderedMap κ α} {k k' : κ} {a b : α}

/-- The keys are distinct and in their order. -/
def Increasing [LT κ] (m : OrderedMap κ α) : Prop := m.Pairwise fun e e' => e.1 < e'.1

variable [LinearOrder κ]

theorem Increasing.nodup_keys (h : Increasing m) : (m.map (·.1)).Nodup := by
  rw [List.Nodup, List.pairwise_map]
  exact h.imp fun hlt => hlt.ne

theorem Increasing.nodup (h : Increasing m) : m.Nodup := h.nodup_keys.of_map

/-- Maps with the same entries are the same. -/
theorem Increasing.eq_of_mem_iff (h : Increasing m) (h' : Increasing m')
    (hmem : ∀ e, e ∈ m ↔ e ∈ m') : m = m' :=
  ((List.perm_ext_iff_of_nodup h.nodup h'.nodup).mpr hmem).eq_of_pairwise
    (fun _ _ _ _ hlt hgt => absurd hgt hlt.not_gt) h h'

variable [DecidableEq κ]

theorem get?_eq_some (h : Increasing m) : m.get? k = some a ↔ (k, a) ∈ m := by
  simp only [get?, Option.map_eq_some_iff, find?_key_eq_some h.nodup_keys]
  constructor
  · rintro ⟨e, ⟨he, rfl⟩, rfl⟩
    exact he
  · intro hmem
    exact ⟨(k, a), ⟨hmem, rfl⟩, rfl⟩

/-! ### Putting an entry in -/

variable [DecidableLT κ]

theorem mem_insert (h : Increasing m) :
    (k', b) ∈ m.insert k a ↔ k' = k ∧ b = a ∨ k' ≠ k ∧ (k', b) ∈ m := by
  induction m with
  | nil => simp [insert]
  | cons e m ih =>
    rcases e with ⟨l, c⟩
    obtain ⟨hl, hm⟩ := List.pairwise_cons.mp h
    -- keys behind the one that is looked at differ from all up to it
    have hlater : ∀ {x}, (k', x) ∈ m → l < k' := fun hx => hl _ hx
    unfold insert
    split_ifs with hlt heq
    · have hother : (k', b) ∈ (l, c) :: m → k' ≠ k := by
        intro hmem hk
        subst hk
        rcases List.mem_cons.mp hmem with hfirst | hrest
        · exact absurd ((Prod.mk.inj hfirst).1 ▸ hlt) (lt_irrefl _)
        · exact absurd (hlt.trans (hlater hrest)) (lt_irrefl _)
      rw [List.mem_cons, Prod.mk.injEq]
      tauto
    · subst heq
      have hother : (k', b) ∈ m → k' ≠ k := fun hmem hk => absurd (hk ▸ hlater hmem) (lt_irrefl _)
      rw [List.mem_cons, List.mem_cons, Prod.mk.injEq, Prod.mk.injEq]
      tauto
    · have hfirst : k' = l → k' ≠ k := fun hl hk => heq (hk.symm.trans hl)
      rw [List.mem_cons, List.mem_cons, Prod.mk.injEq, ih hm]
      tauto

theorem Increasing.insert (h : Increasing m) : Increasing (m.insert k a) := by
  induction m with
  | nil => exact List.pairwise_singleton _ _
  | cons e m ih =>
    rcases e with ⟨l, c⟩
    obtain ⟨hl, hm⟩ := List.pairwise_cons.mp h
    unfold OrderedMap.insert
    split_ifs with hlt heq
    · refine List.pairwise_cons.mpr ⟨fun e he => ?_, h⟩
      rcases List.mem_cons.mp he with rfl | he
      · exact hlt
      · exact hlt.trans (hl e he)
    · exact List.pairwise_cons.mpr ⟨hl, hm⟩
    · refine List.pairwise_cons.mpr ⟨fun e he => ?_, ih hm⟩
      rcases (mem_insert hm).mp he with ⟨he, -⟩ | ⟨-, he⟩
      · have hafter : l < k := (lt_trichotomy k l).elim (absurd · hlt) (·.elim (absurd · heq) id)
        exact he ▸ hafter
      · exact hl e he

/-- An entry under a new key stands before the first larger key. -/
theorem insert_perm (hnew : ∀ e ∈ m, e.1 ≠ k) : (m.insert k a).Perm ((k, a) :: m) := by
  induction m with
  | nil => exact .refl _
  | cons e m ih =>
    have hne : ¬ k = e.1 := fun heq => hnew e List.mem_cons_self heq.symm
    unfold insert
    rw [if_neg hne]
    split_ifs
    · exact .refl _
    · exact ((ih fun e he => hnew e (List.mem_cons_of_mem _ he)).cons e).trans (.swap _ _ _)

theorem insert_last (h : ∀ e ∈ m, e.1 < k) : m.insert k a = m ++ [(k, a)] := by
  induction m with
  | nil => rfl
  | cons e m ih =>
    have he : e.1 < k := h e List.mem_cons_self
    have hrest := ih fun e he => h e (List.mem_cons_of_mem _ he)
    rw [insert, if_neg he.not_gt, if_neg he.ne', hrest, List.cons_append]

/-! ### Maps of entries in any order -/

variable {es : List (κ × α)}

theorem ofEntries_concat (es : List (κ × α)) (k : κ) (a : α) :
    ofEntries (es ++ [(k, a)]) = (ofEntries es).insert k a := by
  rw [ofEntries, List.foldl_append]
  rfl

theorem increasing_ofEntries (es : List (κ × α)) : Increasing (ofEntries es) := by
  induction es using List.reverseRecOn with
  | nil => exact List.Pairwise.nil
  | append_singleton es e ih =>
    rw [ofEntries_concat]
    exact ih.insert

/-- Entries with distinct keys all count. -/
theorem mem_ofEntries (h : (es.map (·.1)).Nodup) {e : κ × α} : e ∈ ofEntries es ↔ e ∈ es := by
  induction es using List.reverseRecOn with
  | nil => rfl
  | append_singleton es d ih =>
    rw [List.map_append, List.map_singleton, List.nodup_append] at h
    obtain ⟨hes, -, hlast⟩ := h
    have hother : e ∈ es → e.1 ≠ d.1 := fun he =>
      hlast _ (List.mem_map_of_mem he) _ (List.mem_singleton_self _)
    have hsame : e.1 = d.1 ∧ e.2 = d.2 ↔ e = d := Prod.ext_iff.symm
    rw [ofEntries_concat, mem_insert (increasing_ofEntries es), ih hes, List.mem_append,
      List.mem_singleton, hsame]
    tauto

/-- Entries that are in order already stay as they are. -/
theorem Increasing.ofEntries_eq (h : Increasing es) : ofEntries es = es := by
  induction es using List.reverseRecOn with
  | nil => rfl
  | append_singleton es e ih =>
    obtain ⟨hes, -, hlast⟩ := List.pairwise_append.mp h
    have hlater : ∀ d ∈ es, d.1 < e.1 := fun d hd => hlast d hd e (List.mem_singleton_self e)
    rw [ofEntries_concat, ih hes, insert_last hlater]

end NetworkPolicy.OrderedMap
