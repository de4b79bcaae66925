import NetworkPolicy.Proofs.Json.Meaning
import NetworkPolicy.Proofs.Json.Respelling

/-! The tree of a text is the value that the text writes, and every text that writes the value has
this tree. -/
namespace NetworkPolicy.Json

open Text (Symbol)

namespace Document

variable {b : Builder} {d root : Document} {t : Token} {ts : List Token}
  {es : List Document} {ms : List (Literal × Document)} {fs : List Frame} {k : Literal}

/-! ### The tokens of a value build it -/

mutual

theorem builds_lexemes : ∀ d : Document, d.Whole → Builds d.lexemes d
  | .null, _ => builds_single (fun h => nomatch h) fun _ => rfl
  | .bool _, _ => builds_single (fun h => nomatch h) fun _ => rfl
  | .number _, _ => builds_single (fun h => nomatch h) fun _ => rfl
  | .string _, _ => builds_single (fun h => nomatch h) fun _ => rfl
  | .list es ending, h => by
    obtain ⟨hes, rfl⟩ : WholeElements es ∧ ending = .closed := h
    exact builds_list (builds_elementLexemes es hes)
  | .object ms ending, h => by
    obtain ⟨hms, rfl⟩ : WholeMembers ms ∧ ending = .closed := h
    exact builds_object (builds_memberLexemes ms hms)

theorem builds_elementLexemes : ∀ es : List Document, WholeElements es →
    List.Forall₂ Builds (elementLexemes es) es
  | [], _ => .nil
  | d :: es, h => .cons (builds_lexemes d h.1) (builds_elementLexemes es h.2)

theorem builds_memberLexemes : ∀ ms : List (Literal × Document), WholeMembers ms →
    List.Forall₂ (fun ts m => ∃ us, ts = .string m.1 :: .colon :: us ∧ Builds us m.2)
      (memberLexemes ms) ms
  | [], _ => .nil
  | (_, d) :: ms, h => .cons ⟨_, rfl, builds_lexemes d h.1⟩ (builds_memberLexemes ms h.2)

end

theorem ofTokens_lexemes (h : d.Whole) : ofTokens d.lexemes = (d, false) := by
  have hbuilt : d.lexemes.foldl Builder.step {} = Builder.put {} d :=
    builds_lexemes d h {} ⟨rfl, Or.inl rfl⟩
  rw [ofTokens, hbuilt]
  rfl

/-! ### The tokens of a value come to their ends -/

/-- Token lists with a comma after each. -/
def withCommas (tss : List (List Token)) : List Token := tss.flatMap (· ++ [.comma])

theorem intercalate_snoc (tss : List (List Token)) (ts : List Token) :
    [Token.comma].intercalate (tss ++ [ts]) = withCommas tss ++ ts := by
  induction tss with
  | nil => exact List.intercalate_singleton
  | cons us tss ih =>
    have hne : tss ++ [ts] ≠ [] := by simp
    rw [List.cons_append, List.intercalate_cons_of_ne_nil hne, ih]
    simp [withCommas]

theorem allWhole_append {us : List Token} (hts : Token.AllWhole ts) (hus : Token.AllWhole us) :
    Token.AllWhole (ts ++ us) :=
  fun t ht => (List.mem_append.mp ht).elim (hts t) (hus t)

theorem allWhole_cons (ht : t.Whole) (hts : Token.AllWhole ts) : Token.AllWhole (t :: ts) :=
  fun u hu => (List.mem_cons.mp hu).elim (fun h => h ▸ ht) (hts u)

theorem allWhole_single (ht : t.Whole) : Token.AllWhole [t] :=
  allWhole_cons ht fun _ h => nomatch h

theorem allWhole_intercalate {tss : List (List Token)} (h : ∀ ts ∈ tss, Token.AllWhole ts) :
    Token.AllWhole ([Token.comma].intercalate tss) := by
  rcases List.eq_nil_or_concat tss with rfl | ⟨uss, us, rfl⟩
  · exact fun t ht => nomatch ht
  · rw [List.concat_eq_append, intercalate_snoc]
    rw [List.concat_eq_append] at h
    refine allWhole_append (fun t ht => ?_) (h us (by simp))
    obtain ⟨ts, hts, ht⟩ := List.mem_flatMap.mp ht
    have hcomma : Token.AllWhole [.comma] := allWhole_single trivial
    exact allWhole_append (h ts (List.mem_append_left _ hts)) hcomma t ht

mutual

theorem allWhole_lexemes : ∀ d : Document, Token.AllWhole d.lexemes
  | .null | .bool _ | .number _ | .string _ => allWhole_single trivial
  | .list es _ => allWhole_append (allWhole_cons trivial
      (allWhole_intercalate (allWhole_elementLexemes es))) (allWhole_single trivial)
  | .object ms _ => allWhole_append (allWhole_cons trivial
      (allWhole_intercalate (allWhole_memberLexemes ms))) (allWhole_single trivial)
  | .flawed _ => fun _ h => nomatch h

theorem allWhole_elementLexemes : ∀ es : List Document,
    ∀ ts ∈ elementLexemes es, Token.AllWhole ts
  | [] => fun _ h => nomatch h
  | d :: es => fun ts h => (List.mem_cons.mp h).elim (fun h => h ▸ allWhole_lexemes d)
      (allWhole_elementLexemes es ts)

theorem allWhole_memberLexemes : ∀ ms : List (Literal × Document),
    ∀ ts ∈ memberLexemes ms, Token.AllWhole ts
  | [] => fun _ h => nomatch h
  | (_, d) :: ms => fun ts h => (List.mem_cons.mp h).elim
      (fun h => h ▸ allWhole_cons trivial (allWhole_cons trivial (allWhole_lexemes d)))
      (allWhole_memberLexemes ms ts)

end

/-! ### A built value was built from its tokens -/

theorem elementLexemes_eq (es : List Document) : elementLexemes es = es.map lexemes := by
  induction es with
  | nil => rfl
  | cons d es ih => rw [elementLexemes, ih, List.map_cons]

theorem memberLexemes_eq (ms : List (Literal × Document)) :
    memberLexemes ms = ms.map fun m => .string m.1 :: .colon :: m.2.lexemes := by
  induction ms with
  | nil => rfl
  | cons m ms ih => rw [memberLexemes, ih, List.map_cons]

/-- What was read of a list before its next element; elements last first. -/
def listSoFar (es : List Document) : List Token :=
  .openList :: withCommas (elementLexemes es.reverse)

/-- What was read of an object before its next key; members last first. -/
def objectSoFar (ms : List (Literal × Document)) : List Token :=
  .openObject :: withCommas (memberLexemes ms.reverse)

theorem listSoFar_cons (d : Document) (es : List Document) :
    listSoFar (d :: es) = listSoFar es ++ d.lexemes ++ [.comma] := by
  simp [listSoFar, elementLexemes_eq, withCommas]

theorem objectSoFar_cons (k : Literal) (d : Document) (ms : List (Literal × Document)) :
    objectSoFar ((k, d) :: ms) =
      objectSoFar ms ++ [.string k, .colon] ++ d.lexemes ++ [.comma] := by
  simp [objectSoFar, memberLexemes_eq, withCommas]

theorem lexemes_list (d : Document) (es : List Document) (ending : ListEnd) :
    (list (d :: es).reverse ending).lexemes = listSoFar es ++ d.lexemes ++ [.closeList] := by
  rw [lexemes, elementLexemes_eq, List.reverse_cons, List.map_append, List.map_singleton,
    intercalate_snoc, ← elementLexemes_eq]
  simp [listSoFar]

theorem lexemes_object (d : Document) (ms : List (Literal × Document)) (ending : ObjectEnd) :
    (object ((k, d) :: ms).reverse ending).lexemes =
      objectSoFar ms ++ [.string k, .colon] ++ d.lexemes ++ [.closeObject] := by
  rw [lexemes, memberLexemes_eq, List.reverse_cons, List.map_append, List.map_singleton,
    intercalate_snoc, ← memberLexemes_eq]
  simp [objectSoFar]

/-- The tokens read before a value that stands inside these frames. -/
inductive Opened : List Frame → List Token → Prop where
  | nil : Opened [] []
  | list {fs : List Frame} {ts : List Token} {es : List Document} : Opened fs ts →
      Opened (.list es :: fs) (ts ++ listSoFar es)
  | member {fs : List Frame} {ts : List Token} {ms : List (Literal × Document)} {k : Literal} :
      Opened fs ts → Opened (.member ms k :: fs) (ts ++ (objectSoFar ms ++ [.string k, .colon]))

/-- The text goes on behind its value, or the value has a flaw. -/
structure Builder.Spoilt (b : Builder) : Prop where
  stopped : b.stopped = true
  flaw : b.surplus = true ∨ ∃ d, b.root = some d ∧ ¬ d.Whole

/-- The tokens that a builder has read, as long as its tree has no flaw. -/
inductive Read : Builder → List Token → Prop where
  | value {fs : List Frame} {ts : List Token} {w : Awaiting} : Opened fs ts →
      w = .value ∨ w = .elementOrEnd ∧ (∃ outer, fs = .list [] :: outer) →
      Read ⟨fs, w, none, false, false⟩ ts
  | element {fs : List Frame} {ts : List Token} {d : Document} {es : List Document} :
      Opened fs ts →
      Read ⟨.list (d :: es) :: fs, .separator, none, false, false⟩
        (ts ++ (listSoFar es ++ d.lexemes))
  | key {fs : List Frame} {ts : List Token} {ms : List (Literal × Document)} {w : Awaiting} :
      Opened fs ts → w = .key ∨ w = .keyOrEnd ∧ ms = [] →
      Read ⟨.object ms :: fs, w, none, false, false⟩ (ts ++ objectSoFar ms)
  | colon {fs : List Frame} {ts : List Token} {ms : List (Literal × Document)} {k : Literal} :
      Opened fs ts →
      Read ⟨.member ms k :: fs, .colon, none, false, false⟩ (ts ++ (objectSoFar ms ++ [.string k]))
  | member {fs : List Frame} {ts : List Token} {ms : List (Literal × Document)} {k : Literal}
      {d : Document} : Opened fs ts →
      Read ⟨.object ((k, d) :: ms) :: fs, .separator, none, false, false⟩
        (ts ++ (objectSoFar ms ++ [.string k, .colon] ++ d.lexemes))
  | root {d : Document} : Read ⟨[], .separator, some d, false, false⟩ d.lexemes
  | spoilt {b : Builder} {ts : List Token} : b.Spoilt → Read b ts

theorem Opened.put (h : Opened fs ts) (w : Awaiting) (d : Document) :
    Read (Builder.put ⟨fs, w, none, false, false⟩ d) (ts ++ d.lexemes) := by
  cases h with
  | nil => exact .root
  | list h =>
    rw [List.append_assoc]
    exact .element h
  | member h =>
    rw [List.append_assoc]
    exact .member h

theorem not_wholeElements (h : ¬ d.Whole) (hmem : d ∈ es) : ¬ WholeElements es := by
  induction es with
  | nil => exact absurd hmem List.not_mem_nil
  | cons e es ih =>
    intro hes
    rcases List.mem_cons.mp hmem with rfl | hmem
    · exact h hes.1
    · exact ih hmem hes.2

theorem not_wholeMembers (h : ¬ d.Whole) (hmem : (k, d) ∈ ms) : ¬ WholeMembers ms := by
  induction ms with
  | nil => exact absurd hmem List.not_mem_nil
  | cons m ms ih =>
    intro hms
    rcases List.mem_cons.mp hmem with rfl | hmem
    · exact h hms.1
    · exact ih hmem hms.2

theorem Opened.not_whole_wrap (h : Opened fs ts) (hd : ¬ d.Whole) :
    ¬ (Builder.wrap d fs).Whole := by
  induction h generalizing d with
  | nil => exact hd
  | list _ ih =>
    exact ih fun hwhole => not_wholeElements hd (by simp) hwhole.1
  | @member _ _ _ k _ ih =>
    exact ih fun hwhole => not_wholeMembers (k := k) hd (by simp) hwhole.1

theorem Opened.stop (h : Opened fs ts) (w : Awaiting) (hd : ¬ d.Whole) :
    (Builder.stop ⟨fs, w, none, false, false⟩ d).Spoilt :=
  ⟨rfl, Or.inr ⟨_, rfl, h.not_whole_wrap hd⟩⟩

theorem Opened.endList_flaw (h : Opened fs ts) (w : Awaiting) (ending : ListEnd)
    (hending : ending ≠ .closed) :
    (Builder.endList ⟨.list es :: fs, w, none, false, false⟩ ending).Spoilt := by
  have hflaw : ¬ (Document.list es.reverse ending).Whole := fun hwhole => hending hwhole.2
  rw [Builder.endList]
  simp only [if_neg hending]
  exact h.stop w hflaw

theorem Opened.endObject_flaw (h : Opened fs ts) (w : Awaiting) (ending : ObjectEnd)
    (hending : ending ≠ .closed) :
    (Builder.endObject ⟨.object ms :: fs, w, none, false, false⟩ ending).Spoilt := by
  have hflaw : ¬ (Document.object ms.reverse ending).Whole := fun hwhole => hending hwhole.2
  rw [Builder.endObject]
  simp only [if_neg hending]
  exact h.stop w hflaw

theorem not_whole_flawed (f : Flaw) : ¬ (flawed f).Whole := id

theorem Opened.startValue (h : Opened fs ts) (w : Awaiting) (t : Token) :
    Read (Builder.startValue ⟨fs, w, none, false, false⟩ t) (ts ++ [t]) := by
  cases t with
  | openList =>
    have hopen : Opened (.list [] :: fs) (ts ++ [.openList]) := .list h
    exact .value hopen (Or.inr ⟨rfl, fs, rfl⟩)
  | openObject => exact .key h (Or.inr ⟨rfl, rfl⟩)
  | null => exact h.put w .null
  | bool v => exact h.put w (.bool v)
  | number n => exact h.put w (.number n)
  | string s => exact h.put w (.string s)
  | closeList | closeObject | comma | colon | stray | brokenString | brokenValue =>
    exact .spoilt (h.stop w (not_whole_flawed _))

theorem Opened.startKey (h : Opened fs ts) (w : Awaiting) (t : Token) :
    Read (Builder.startKey ⟨.object ms :: fs, w, none, false, false⟩ t)
      (ts ++ objectSoFar ms ++ [t]) := by
  cases t with
  | string s =>
    rw [List.append_assoc]
    exact .colon h
  | brokenString f => exact .spoilt (h.endObject_flaw w (.brokenKey f) (fun hkey => nomatch hkey))
  | _ => exact .spoilt (h.endObject_flaw w .noKey (fun hkey => nomatch hkey))

/-! Each token is read in its place. -/

theorem Opened.step_value (h : Opened fs ts) (t : Token) :
    Read (Builder.step ⟨fs, .value, none, false, false⟩ t) (ts ++ [t]) := by
  cases h with
  | nil => exact Opened.nil.startValue .value t
  | member h => exact h.member.startValue .value t
  | @list fs ts es h =>
    by_cases ht : t = .closeList
    · subst ht
      exact .spoilt (h.endList_flaw .value .trailingComma (fun hend => nomatch hend))
    · have hready : Builder.Ready ⟨.list es :: fs, .value, none, false, false⟩ :=
        ⟨rfl, Or.inl rfl⟩
      rw [hready.step_eq ht]
      exact h.list.startValue .value t

theorem Opened.step_elementOrEnd (h : Opened fs ts) (t : Token) :
    Read (Builder.step ⟨.list [] :: fs, .elementOrEnd, none, false, false⟩ t)
      (ts ++ listSoFar [] ++ [t]) := by
  by_cases ht : t = .closeList
  · subst ht
    rw [List.append_assoc]
    exact h.put .elementOrEnd (.list [] .closed)
  · have hready : Builder.Ready ⟨.list [] :: fs, .elementOrEnd, none, false, false⟩ :=
      ⟨rfl, Or.inr rfl⟩
    rw [hready.step_eq ht]
    exact h.list.startValue .elementOrEnd t

theorem Opened.step_element (h : Opened fs ts) (d : Document) (es : List Document) (t : Token) :
    Read (Builder.step ⟨.list (d :: es) :: fs, .separator, none, false, false⟩ t)
      (ts ++ (listSoFar es ++ d.lexemes) ++ [t]) := by
  rw [List.append_assoc]
  cases t with
  | comma =>
    have hopen : Opened (.list (d :: es) :: fs) (ts ++ listSoFar (d :: es)) := h.list
    rw [← listSoFar_cons]
    exact .value hopen (Or.inl rfl)
  | closeList =>
    have hclosed := h.put .separator (.list (d :: es).reverse .closed)
    rwa [lexemes_list] at hclosed
  | _ => exact .spoilt (h.endList_flaw .separator .noSeparator (fun hend => nomatch hend))

theorem Opened.step_key (h : Opened fs ts) (t : Token) :
    Read (Builder.step ⟨.object ms :: fs, .key, none, false, false⟩ t)
      (ts ++ objectSoFar ms ++ [t]) := by
  by_cases ht : t = .closeObject
  · subst ht
    exact .spoilt (h.endObject_flaw .key .trailingComma (fun hend => nomatch hend))
  · have hstep : Builder.step ⟨.object ms :: fs, .key, none, false, false⟩ t =
        Builder.startKey ⟨.object ms :: fs, .key, none, false, false⟩ t := if_neg ht
    rw [hstep]
    exact h.startKey .key t

theorem Opened.step_keyOrEnd (h : Opened fs ts) (t : Token) :
    Read (Builder.step ⟨.object [] :: fs, .keyOrEnd, none, false, false⟩ t)
      (ts ++ objectSoFar [] ++ [t]) := by
  by_cases ht : t = .closeObject
  · subst ht
    rw [List.append_assoc]
    exact h.put .keyOrEnd (.object [] .closed)
  · have hstep : Builder.step ⟨.object [] :: fs, .keyOrEnd, none, false, false⟩ t =
        Builder.startKey ⟨.object [] :: fs, .keyOrEnd, none, false, false⟩ t := if_neg ht
    rw [hstep]
    exact h.startKey .keyOrEnd t

theorem Opened.step_colon (h : Opened fs ts) (t : Token) :
    Read (Builder.step ⟨.member ms k :: fs, .colon, none, false, false⟩ t)
      (ts ++ (objectSoFar ms ++ [.string k]) ++ [t]) := by
  by_cases ht : t = .colon
  · subst ht
    rw [List.append_assoc, List.append_assoc]
    exact .value h.member (Or.inl rfl)
  · have hstep : Builder.step ⟨.member ms k :: fs, .colon, none, false, false⟩ t =
        Builder.stop ⟨.member ms k :: fs, .colon, none, false, false⟩
          (.flawed ⟨.noColon, .noColon⟩) := if_neg ht
    rw [hstep]
    exact .spoilt (h.member.stop .colon (not_whole_flawed _))

theorem Opened.step_member (h : Opened fs ts) (ms : List (Literal × Document)) (k : Literal)
    (d : Document) (t : Token) :
    Read (Builder.step ⟨.object ((k, d) :: ms) :: fs, .separator, none, false, false⟩ t)
      (ts ++ (objectSoFar ms ++ [.string k, .colon] ++ d.lexemes) ++ [t]) := by
  rw [List.append_assoc]
  cases t with
  | comma =>
    rw [← objectSoFar_cons]
    exact .key h (Or.inl rfl)
  | closeObject =>
    have hclosed := h.put .separator (.object ((k, d) :: ms).reverse .closed)
    rwa [lexemes_object] at hclosed
  | _ => exact .spoilt (h.endObject_flaw .separator .noSeparator (fun hend => nomatch hend))

/-- What a builder has read grows by each token. -/
theorem Read.step (h : Read b ts) (t : Token) : Read (b.step t) (ts ++ [t]) := by
  cases h with
  | value hopened hw =>
    rcases hw with rfl | ⟨rfl, outer, rfl⟩
    · exact hopened.step_value t
    · cases hopened with
      | list hopened => exact hopened.step_elementOrEnd t
  | element hopened => exact hopened.step_element _ _ t
  | key hopened hw =>
    rcases hw with rfl | ⟨rfl, rfl⟩
    · exact hopened.step_key t
    · exact hopened.step_keyOrEnd t
  | colon hopened => exact hopened.step_colon t
  | member hopened => exact hopened.step_member _ _ _ t
  | root => exact .spoilt ⟨rfl, Or.inl rfl⟩
  | spoilt hspoilt =>
    have hstep : b.step t = b := if_pos hspoilt.stopped
    rw [hstep]
    exact .spoilt hspoilt

theorem Read.foldl (h : Read b ts) (us : List Token) :
    Read (us.foldl Builder.step b) (ts ++ us) := by
  induction us generalizing b ts with
  | nil => rwa [List.append_nil]
  | cons u us ih =>
    have hrest := ih (h.step u)
    rwa [List.append_assoc] at hrest

theorem Builder.Spoilt.not_whole (h : b.Spoilt) (d : Document)
    (hb : (b.root.getD d, b.surplus) = (root, false)) : ¬ root.Whole := by
  obtain ⟨hroot, hsurplus⟩ := Prod.mk.inj hb
  rcases h.flaw with hflaw | ⟨e, he, hflaw⟩
  · rw [hsurplus] at hflaw
    exact absurd hflaw Bool.false_ne_true
  · rw [he] at hroot
    exact hroot ▸ hflaw

/-- A text that ends within its value gives a flaw, and one that ends behind it the value. -/
theorem Read.lexemes_eq (h : Read b ts) (hfinish : b.finish = (root, false)) (hroot : root.Whole) :
    ts = root.lexemes := by
  have hspoilt : ∀ b' : Builder, b'.Spoilt → b.finish = (b'.root.getD
      (.flawed ⟨.valueCutShort, .valueCutShort⟩), b'.surplus) → ts = root.lexemes :=
    fun b' h' heq => absurd hroot (h'.not_whole _ (heq.symm.trans hfinish))
  cases h with
  | root => exact congrArg lexemes (Prod.mk.inj hfinish).1
  | spoilt h =>
    refine hspoilt b h ?_
    rw [Builder.finish, if_pos h.stopped]
  | value hopened hw =>
    rcases hw with rfl | ⟨rfl, outer, rfl⟩
    · cases hopened with
      | nil => exact hspoilt _ (Opened.nil.stop .value (not_whole_flawed _)) rfl
      | member hopened =>
        exact hspoilt _ (hopened.member.stop .value (not_whole_flawed _)) rfl
      | list hopened =>
        exact hspoilt _ (hopened.endList_flaw .value .cutAfterComma fun hend => nomatch hend) rfl
    · cases hopened with
      | list hopened =>
        exact hspoilt _ (hopened.endList_flaw .elementOrEnd .cutShort fun hend => nomatch hend) rfl
  | element hopened =>
    exact hspoilt _ (hopened.endList_flaw .separator .cutShort fun hend => nomatch hend) rfl
  | key hopened hw =>
    rcases hw with rfl | ⟨rfl, rfl⟩
    · exact hspoilt _ (hopened.endObject_flaw .key .cutAfterComma fun hend => nomatch hend) rfl
    · exact hspoilt _ (hopened.endObject_flaw .keyOrEnd .cutShort fun hend => nomatch hend) rfl
  | colon hopened => exact hspoilt _ (hopened.member.stop .colon (not_whole_flawed _)) rfl
  | member hopened =>
    exact hspoilt _ (hopened.endObject_flaw .separator .cutShort fun hend => nomatch hend) rfl

/-! ### Texts -/

theorem spelt_of_scan {ss : List Symbol} (hd : d.Whole) (h : Token.scan ss = d.lexemes) :
    d.Spelt ss :=
  ⟨hd, (Token.spells_iff (allWhole_lexemes d)).mpr h⟩

/-- A text writes the tree that it has, if this tree is whole and nothing follows it, and a text
that writes a value has it as its tree. -/
theorem spelt_iff {ss : List Symbol} : d.Spelt ss ↔ d.Whole ∧ ofText ss = (d, false) := by
  constructor
  · rintro ⟨hd, hspells⟩
    refine ⟨hd, ?_⟩
    rw [ofText, hspells.scan_eq, ofTokens_lexemes hd]
  · rintro ⟨hd, htext⟩
    have hread : Read {} [] := .value .nil (Or.inl rfl)
    exact spelt_of_scan hd ((hread.foldl (Token.scan ss)).lexemes_eq htext hd)

/-- A text writes at most one value. -/
theorem Spelt.unique {e : Document} {ss : List Symbol} (hd : d.Spelt ss) (he : e.Spelt ss) :
    d = e := by
  have htrees := (spelt_iff.mp hd).2.symm.trans (spelt_iff.mp he).2
  exact (Prod.mk.inj htrees).1

end Document

/-- A reader that accepts no flaws reads from a text the value that the text writes. -/
theorem Reader.Careful.ofText_eq_ok {α : Type} {r : Reader α} {a : α} {ss : List Symbol}
    (hr : Careful r) : ofText r ss = .ok a ↔ ∃ d : Document, d.Spelt ss ∧ r d = .ok a := by
  rcases htree : Document.ofText ss with ⟨d, surplus⟩
  rw [ofText, htree]
  constructor
  · intro h
    obtain ⟨b, hb, h⟩ := bind_eq_ok.mp h
    cases surplus <;> cases h
    exact ⟨d, Document.spelt_iff.mpr ⟨hr d _ hb, htree⟩, hb⟩
  · rintro ⟨e, hspelt, he⟩
    have htree' := (Document.spelt_iff.mp hspelt).2
    obtain ⟨rfl, rfl⟩ := Prod.mk.inj (htree.symm.trans htree')
    exact bind_eq_ok.mpr ⟨a, he, rfl⟩

end NetworkPolicy.Json
