import NetworkPolicy.Proofs.Policy.Rules

/-! For which of its policies a batch is refused, and why. Both sets of rules refuse a batch for the first
policy that breaks them, and on batches of single ports they refuse the same one. -/
namespace NetworkPolicy

/-- Steps that are taken one after the other fail at the first element that fails. -/
theorem forM_eq_error {ε α : Type} {f : α → Except ε Unit} {xs : List α} {e : ε} :
    xs.forM f = .error e ↔ ∃ front x rest, xs = front ++ x :: rest ∧
      (∀ y ∈ front, f y = .ok ()) ∧ f x = .error e := by
  induction xs with
  | nil => simp [List.forM, pure, Except.pure]
  | cons x xs ih =>
    have hcons : (x :: xs).forM f = (f x >>= fun _ => xs.forM f) := rfl
    rw [hcons]
    cases hx : f x with
    | error d =>
      change Except.error d = .error e ↔ _
      constructor
      · intro h
        exact ⟨[], x, xs, rfl, by simp, hx.trans h⟩
      · intro h
        obtain ⟨front, y, rest, hsplit, hfront, hy⟩ := h
        cases front with
        | nil =>
          obtain ⟨rfl, -⟩ := List.cons.inj hsplit
          exact hx.symm.trans hy
        | cons z front =>
          obtain ⟨rfl, -⟩ := List.cons.inj hsplit
          have hz := hfront x List.mem_cons_self
          simp [hx] at hz
    | ok u =>
      change xs.forM f = .error e ↔ _
      rw [ih]
      constructor
      · intro h
        obtain ⟨front, y, rest, rfl, hfront, hy⟩ := h
        exact ⟨x :: front, y, rest, rfl, by simpa [hx] using hfront, hy⟩
      · intro h
        obtain ⟨front, y, rest, hsplit, hfront, hy⟩ := h
        cases front with
        | nil =>
          obtain ⟨rfl, -⟩ := List.cons.inj hsplit
          simp [hx] at hy
        | cons z front =>
          obtain ⟨rfl, rfl⟩ := List.cons.inj hsplit
          exact ⟨front, y, rest, rfl, fun q hq => hfront q (List.mem_cons_of_mem _ hq), hy⟩

namespace Policy

variable {p : Policy} {ps : List Policy} {e : Invalid} {place : Option Nat}
  {rule : Policy → Except Invalid Unit}

/-- The rule refuses a batch: as a whole if it is empty, else at the place of the first policy that breaks
it. -/
inductive RefusedAt (rule : Policy → Except Invalid Unit) :
    List Policy → Option Nat → Invalid → Prop where
  | empty : RefusedAt rule [] none .missingPolicies
  | policy {front rest : List Policy} {p : Policy} {e : Invalid} :
      (∀ q ∈ front, rule q = .ok ()) → rule p = .error e →
      RefusedAt rule (front ++ p :: rest) (some front.length) e

theorem checkAll_eq_error : checkAll rule ps = .error e ↔ ∃ place, RefusedAt rule ps place e := by
  cases ps with
  | nil =>
    change Except.error Invalid.missingPolicies = .error e ↔ _
    constructor
    · intro h
      cases h
      exact ⟨none, .empty⟩
    · intro h
      obtain ⟨place, h⟩ := h
      generalize hps : ([] : List Policy) = ps at h
      cases h with
      | empty => rfl
      | policy => simp at hps
  | cons p ps =>
    change (p :: ps).forM rule = .error e ↔ _
    rw [forM_eq_error]
    constructor
    · intro h
      obtain ⟨front, q, rest, hsplit, hfront, hq⟩ := h
      exact ⟨some front.length, hsplit ▸ .policy hfront hq⟩
    · intro h
      obtain ⟨place, h⟩ := h
      generalize hps : p :: ps = qs at h
      cases h with
      | empty => simp at hps
      | policy hfront hq => exact ⟨_, _, _, rfl, hfront, hq⟩

theorem checkAll_eq_ok_iff :
    checkAll rule ps = .ok () ↔ ps ≠ [] ∧ ∀ p ∈ ps, rule p = .ok () := by
  constructor
  · intro h
    refine ⟨?_, checkAll_eq_ok h⟩
    intro hempty
    rw [hempty] at h
    simp [checkAll] at h
  · intro h
    exact checkAll_of_forall h.1 h.2

/-- Rules that differ only in how they word an error refuse a batch at the same place. -/
theorem refusedAt_of_mapError {rule' : Policy → Except Invalid Unit} {word : Invalid → Invalid}
    (hword : word .missingPolicies = .missingPolicies)
    (h : ∀ p ∈ ps, rule' p = (rule p).mapError word) :
    RefusedAt rule' ps place e ↔ ∃ e', RefusedAt rule ps place e' ∧ e = word e' := by
  have hok : ∀ q ∈ ps, rule' q = .ok () ↔ rule q = .ok () := by
    intro q hq
    rw [h q hq]
    cases rule q <;> simp [Except.mapError]
  constructor
  · intro hrefused
    cases hrefused with
    | empty => exact ⟨_, .empty, hword.symm⟩
    | @policy front rest p e hfront hp =>
      rw [h p (by simp)] at hp
      cases hchecked : rule p with
      | ok u => simp [hchecked, Except.mapError] at hp
      | error e' =>
        have heq : word e' = e := by simpa [hchecked, Except.mapError] using hp
        exact ⟨e', .policy (fun q hq => (hok q (by simp [hq])).mp (hfront q hq)) hchecked, heq.symm⟩
  · intro hrefused
    obtain ⟨e', hrefused, rfl⟩ := hrefused
    cases hrefused with
    | empty =>
      rw [hword]
      exact .empty
    | @policy front rest p e' hfront hp =>
      have hp' : rule' p = .error (word e') := by rw [h p (by simp), hp]; rfl
      exact .policy (fun q hq => (hok q (by simp [hq])).mpr (hfront q hq)) hp'

/-! ### Single ports -/

/-- What the rules for ranges say of a single port where the others say this. -/
def Invalid.asRange : Invalid → Invalid
  | port p => startPort p
  | e => e

theorem asRange_of_checkEnds (h : p.checkEnds = .error e) : e.asRange = e := by
  unfold checkEnds at h
  split_ifs at h <;> cases h <;> rfl

/-- On a single port the rules for ranges come down to those for single ports. -/
theorem check_eq_of_single (h : p.destination.ports.first = p.destination.ports.last) :
    p.check = p.checkSingle.mapError Invalid.asRange := by
  have hsingle : p.destination.ports.isSingle = true := by simp [Ports.isSingle, h]
  have hordered : ¬ p.destination.ports.last < p.destination.ports.first := by simp [h]
  unfold check checkSingle
  cases hends : p.checkEnds with
  | error e => exact congrArg Except.error (asRange_of_checkEnds hends).symm
  | ok u =>
    by_cases hzero : p.destination.ports.first = 0
    · simp [bind, Except.bind, hzero, Except.mapError, Invalid.asRange]
    · have hlast : p.destination.ports.last ≠ 0 := h ▸ hzero
      simp [bind, Except.bind, hzero, hlast, hordered, hsingle, Except.mapError]

theorem checkSingle_eq_ok_iff : p.checkSingle = .ok () ↔
    p.check = .ok () ∧ p.destination.ports.first = p.destination.ports.last := by
  constructor
  · intro h
    have hproper := proper_of_checkSingle h
    refine ⟨check_of_proper hproper, ?_⟩
    obtain ⟨_, -, h⟩ := bind_eq_ok.mp h
    dsimp only at h
    split_ifs at h with hport
    simpa [Ports.isSingle] using (not_or.mp hport).2
  · intro h
    exact checkSingle_of_proper (proper_of_check h.1) (by simp [Ports.isSingle, h.2])

/-- A batch keeps the rules for single ports exactly if it keeps those for ranges and names single ports
only. A batch of single ports is refused by both at the same place, in the same words but for a port that
is no port: there it is the start of a range. -/
theorem single_rules_agree (ps : List Policy) :
    (validateSingle ps = .ok () ↔ validate ps = .ok () ∧
      ∀ p ∈ ps, p.destination.ports.first = p.destination.ports.last) ∧
    (∀ e, validateSingle ps = .error e ↔ ∃ place, RefusedAt checkSingle ps place e) ∧
    (∀ e, validate ps = .error e ↔ ∃ place, RefusedAt check ps place e) ∧
    ((∀ p ∈ ps, p.destination.ports.first = p.destination.ports.last) → ∀ place e,
      RefusedAt check ps place e ↔ ∃ e', RefusedAt checkSingle ps place e' ∧ e = e'.asRange) := by
  refine ⟨?_, fun e => checkAll_eq_error, fun e => checkAll_eq_error, fun hsingle place e => ?_⟩
  · unfold validateSingle validate
    rw [checkAll_eq_ok_iff, checkAll_eq_ok_iff, and_assoc]
    refine and_congr_right fun _ => ?_
    simp only [checkSingle_eq_ok_iff]
    exact forall₂_and
  · exact refusedAt_of_mapError rfl fun p hp => check_eq_of_single (hsingle p hp)

/-- The third policy has no port: both refuse the batch for it, and leave the fourth one's protocol
unread. -/
theorem single_rules_agree_third_policy :
    let p : String → UInt16 → Policy := fun protocol port =>
      ⟨⟨"a", ""⟩, ⟨"b", "", protocol, .single port⟩⟩
    let ps := [p "tcp" 80, p "udp" 53, p "tcp" 0, p "icmp" 8]
    (∀ q ∈ ps, q.destination.ports.first = q.destination.ports.last) ∧
      RefusedAt checkSingle ps (some 2) (.port 0) ∧ RefusedAt check ps (some 2) (.startPort 0) ∧
      validateSingle ps = .error (.port 0) ∧ validate ps = .error (.startPort 0) := by
  intro p ps
  obtain ⟨-, hsingleError, hrangeError, hplaces⟩ := single_rules_agree ps
  have hsingle : ∀ q ∈ ps, q.destination.ports.first = q.destination.ports.last := by decide
  have hrefused : RefusedAt checkSingle ps (some 2) (.port 0) :=
    @RefusedAt.policy _ [p "tcp" 80, p "udp" 53] [p "icmp" 8] _ _ (by decide) (by decide)
  have hrange := (hplaces hsingle (some 2) (.startPort 0)).mpr ⟨_, hrefused, rfl⟩
  exact ⟨hsingle, hrefused, hrange, (hsingleError _).mpr ⟨_, hrefused⟩, (hrangeError _).mpr ⟨_, hrange⟩⟩

end Policy
end NetworkPolicy
