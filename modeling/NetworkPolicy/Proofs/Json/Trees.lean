import NetworkPolicy.Proofs.Json.Tokens

/-! The tree of a value, and that it is the tree of the value's text: no part is lost, and nothing
is left over. -/
namespace NetworkPolicy.Json

mutual

/-- The tree of a value without floats. -/
def document : Json → Document
  | .null => .null
  | .bool b => .bool b
  | .number n => .number n.numeral
  | .text s => .string (.text s)
  | .list es => .list (elementDocuments es) .closed
  | .object ms => .object (memberDocuments ms) .closed

def elementDocuments : List Json → List Document
  | [] => []
  | v :: vs => document v :: elementDocuments vs

def memberDocuments : List (String × Json) → List (Literal × Document)
  | [] => []
  | (k, v) :: ms => (.text k, document v) :: memberDocuments ms

end

namespace Document

/-- A value may come next. -/
structure Builder.Ready (b : Builder) : Prop where
  running : b.stopped = false
  awaiting : b.awaiting = .value ∨ b.awaiting = .elementOrEnd

/-- Where a value may come next, the tokens put this tree there. -/
def Builds (ts : List Token) (d : Document) : Prop :=
  ∀ b : Builder, b.Ready → ts.foldl Builder.step b = b.put d

variable {b : Builder} {t : Token} {ts : List Token} {d : Document}

theorem Builder.Ready.step_eq (h : b.Ready) (ht : t ≠ .closeList) : b.step t = b.startValue t := by
  rcases b with ⟨frames, awaiting, root, surplus, stopped⟩
  obtain ⟨hrunning, hawaiting⟩ := h
  cases hrunning
  rcases hawaiting with hawaiting | hawaiting
  · cases hawaiting
    rcases frames with - | ⟨- | - | -, fs⟩
    all_goals first | rfl | (cases t <;> first | rfl | exact absurd rfl ht)
  · cases hawaiting
    exact if_neg ht

-- a finished value sets anew what is awaited
theorem Builder.put_awaiting (b : Builder) (w : Awaiting) (d : Document) :
    { b with awaiting := w }.put d = b.put d := by
  rcases b with ⟨frames, awaiting, root, surplus, stopped⟩
  rcases frames with - | ⟨- | - | -, fs⟩ <;> rfl

theorem Builder.Ready.put_eq (h : b.Ready) (w : Awaiting) (d : Document) :
    Builder.put ⟨b.frames, w, b.root, b.surplus, false⟩ d = b.put d := by
  rw [← h.running]
  exact put_awaiting b w d

theorem builds_single (ht : t ≠ .closeList) (h : ∀ b : Builder, b.startValue t = b.put d) :
    Builds [t] d :=
  fun b hb => (hb.step_eq ht).trans (h b)

/-- Elements with commas between them, up to the bracket that closes their list. -/
theorem foldl_elements {tss : List (List Token)} {ds : List Document}
    (h : List.Forall₂ Builds tss ds) (acc : List Document) (fs : List Frame)
    (root : Option Document) (surplus : Bool) {w : Awaiting}
    (hw : w = .elementOrEnd ∨ w = .value ∧ tss ≠ []) :
    ([Token.comma].intercalate tss ++ [Token.closeList]).foldl Builder.step
        ⟨.list acc :: fs, w, root, surplus, false⟩ =
      Builder.put ⟨fs, w, root, surplus, false⟩ (.list (acc.reverse ++ ds) .closed) := by
  induction h generalizing acc w with
  | nil =>
    obtain rfl : w = .elementOrEnd := hw.resolve_right fun h => h.2 rfl
    rw [List.append_nil]
    rfl
  | @cons ts d tss ds hts htss ih =>
    have hput : ts.foldl Builder.step ⟨.list acc :: fs, w, root, surplus, false⟩ =
        ⟨.list (d :: acc) :: fs, .separator, root, surplus, false⟩ :=
      hts _ ⟨rfl, hw.symm.imp_left And.left⟩
    have hacc : (d :: acc).reverse ++ ds = acc.reverse ++ d :: ds := by simp
    cases htss with
    | nil =>
      have hclose : Builder.step ⟨.list (d :: acc) :: fs, .separator, root, surplus, false⟩
          .closeList = Builder.put ⟨fs, .separator, root, surplus, false⟩
            (.list (d :: acc).reverse .closed) := rfl
      rw [List.intercalate_singleton, List.foldl_append, hput, List.foldl_cons, List.foldl_nil,
        hclose, ← hacc, List.append_nil]
      exact (Builder.put_awaiting _ w _).symm
    | @cons us e tss ds hus htss =>
      have hrest := ih (d :: acc) (w := .value) (Or.inr ⟨rfl, List.cons_ne_nil _ _⟩)
      have hcomma : Builder.step ⟨.list (d :: acc) :: fs, .separator, root, surplus, false⟩ .comma =
          ⟨.list (d :: acc) :: fs, .value, root, surplus, false⟩ := rfl
      have hsep : [Token.comma].intercalate (ts :: us :: tss) =
        ts ++ .comma :: [Token.comma].intercalate (us :: tss) := rfl
      rw [hsep, List.append_assoc, List.foldl_append, hput, List.cons_append, List.foldl_cons,
        hcomma, hrest, hacc]
      exact (Builder.put_awaiting _ w _).symm

/-- Members with commas between them, up to the brace that closes their object. -/
theorem foldl_members {tss : List (List Token)} {ms : List (Literal × Document)}
    (h : List.Forall₂ (fun ts m => ∃ us, ts = .string m.1 :: .colon :: us ∧ Builds us m.2) tss ms)
    (acc : List (Literal × Document)) (fs : List Frame) (root : Option Document) (surplus : Bool)
    {w : Awaiting} (hw : w = .keyOrEnd ∨ w = .key ∧ tss ≠ []) :
    ([Token.comma].intercalate tss ++ [Token.closeObject]).foldl Builder.step
        ⟨.object acc :: fs, w, root, surplus, false⟩ =
      Builder.put ⟨fs, w, root, surplus, false⟩ (.object (acc.reverse ++ ms) .closed) := by
  induction h generalizing acc w with
  | nil =>
    obtain rfl : w = .keyOrEnd := hw.resolve_right fun h => h.2 rfl
    rw [List.append_nil]
    rfl
  | @cons ts m tss ms hts htss ih =>
    obtain ⟨us, rfl, hus⟩ := hts
    have hput : (Token.string m.1 :: .colon :: us).foldl Builder.step
          ⟨.object acc :: fs, w, root, surplus, false⟩ =
        ⟨.object (m :: acc) :: fs, .separator, root, surplus, false⟩ := by
      have hkey : Builder.step ⟨.object acc :: fs, w, root, surplus, false⟩ (.string m.1) =
          ⟨.member acc m.1 :: fs, .colon, root, surplus, false⟩ := by
        rcases hw with rfl | ⟨rfl, -⟩ <;> rfl
      have hcolon : Builder.step ⟨.member acc m.1 :: fs, .colon, root, surplus, false⟩ .colon =
          ⟨.member acc m.1 :: fs, .value, root, surplus, false⟩ := rfl
      rw [List.foldl_cons, hkey, List.foldl_cons, hcolon, hus _ ⟨rfl, Or.inl rfl⟩]
      rfl
    have hacc : (m :: acc).reverse ++ ms = acc.reverse ++ m :: ms := by simp
    cases htss with
    | nil =>
      have hclose : Builder.step ⟨.object (m :: acc) :: fs, .separator, root, surplus, false⟩
          .closeObject = Builder.put ⟨fs, .separator, root, surplus, false⟩
            (.object (m :: acc).reverse .closed) := rfl
      rw [List.intercalate_singleton, List.foldl_append, hput, List.foldl_cons, List.foldl_nil,
        hclose, ← hacc, List.append_nil]
      exact (Builder.put_awaiting _ w _).symm
    | @cons us' m' tss ms _ _ =>
      have hrest := ih (m :: acc) (w := .key) (Or.inr ⟨rfl, List.cons_ne_nil _ _⟩)
      have hcomma : Builder.step ⟨.object (m :: acc) :: fs, .separator, root, surplus, false⟩
          .comma = ⟨.object (m :: acc) :: fs, .key, root, surplus, false⟩ := rfl
      have hsep : [Token.comma].intercalate ((.string m.1 :: .colon :: us) :: us' :: tss) =
        (.string m.1 :: .colon :: us) ++ .comma :: [Token.comma].intercalate (us' :: tss) := rfl
      rw [hsep, List.append_assoc, List.foldl_append, hput, List.cons_append, List.foldl_cons,
        hcomma, hrest, hacc]
      exact (Builder.put_awaiting _ w _).symm

theorem builds_list {tss : List (List Token)} {ds : List Document} (h : List.Forall₂ Builds tss ds) :
    Builds (.openList :: [Token.comma].intercalate tss ++ [.closeList]) (.list ds .closed) := by
  intro b hb
  have hstep : b.step .openList = b.startValue .openList := hb.step_eq fun h => nomatch h
  have hopen : b.step .openList =
      ⟨.list [] :: b.frames, .elementOrEnd, b.root, b.surplus, false⟩ := by
    rw [hstep, ← hb.running]
    rfl
  rw [List.cons_append, List.foldl_cons, hopen, foldl_elements h [] _ _ _ (Or.inl rfl)]
  exact hb.put_eq _ _

theorem builds_object {tss : List (List Token)} {ms : List (Literal × Document)}
    (h : List.Forall₂ (fun ts m => ∃ us, ts = .string m.1 :: .colon :: us ∧ Builds us m.2)
      tss ms) :
    Builds (.openObject :: [Token.comma].intercalate tss ++ [.closeObject])
      (.object ms .closed) := by
  intro b hb
  have hstep : b.step .openObject = b.startValue .openObject := hb.step_eq fun h => nomatch h
  have hopen : b.step .openObject =
      ⟨.object [] :: b.frames, .keyOrEnd, b.root, b.surplus, false⟩ := by
    rw [hstep, ← hb.running]
    rfl
  rw [List.cons_append, List.foldl_cons, hopen, foldl_members h [] _ _ _ (Or.inl rfl)]
  exact hb.put_eq _ _

mutual

/-- The tokens of a value put its tree in its place. -/
theorem builds_tokens : ∀ v : Json, Builds v.tokens v.document
  | .null => builds_single (fun h => nomatch h) fun _ => rfl
  | .bool _ => builds_single (fun h => nomatch h) fun _ => rfl
  | .number _ => builds_single (fun h => nomatch h) fun _ => rfl
  | .text _ => builds_single (fun h => nomatch h) fun _ => rfl
  | .list es => builds_list (builds_elements es)
  | .object ms => builds_object (builds_members ms)

theorem builds_elements : ∀ vs : List Json,
    List.Forall₂ Builds (elementTokens vs) (elementDocuments vs)
  | [] => .nil
  | v :: vs => .cons (builds_tokens v) (builds_elements vs)

theorem builds_members : ∀ ms : List (String × Json),
    List.Forall₂ (fun ts m => ∃ us, ts = .string m.1 :: .colon :: us ∧ Builds us m.2)
      (memberTokens ms) (memberDocuments ms)
  | [] => .nil
  | (_, v) :: ms => .cons ⟨_, rfl, builds_tokens v⟩ (builds_members ms)

end

/-- The tree of the text that a value without floats is written as is that of the value, and nothing
follows it. -/
theorem ofText_chars {v : Json} (h : v.Integral) :
    ofText (Text.ofChars v.chars) = (v.document, false) := by
  have hbuilt : v.tokens.foldl Builder.step {} = Builder.put {} v.document :=
    builds_tokens v {} ⟨rfl, Or.inl rfl⟩
  rw [ofText, Token.scan_chars h, ofTokens, hbuilt]
  rfl

end Document

end Json

/-- A text as one who is sent its bytes takes it. -/
def Text.received (s : String) : List Text.Symbol := ofBytes s.toUTF8

theorem Text.received_eq (s : String) : received s = ofChars s.toList := by
  have hbytes : s.toUTF8 = s.toList.utf8Encode := String.utf8Encode_toList.symm
  rw [received, hbytes, ofBytes_utf8Encode]

namespace Json

theorem Document.ofText_received {v : Json} (h : v.Integral) :
    ofText (Text.received v.render) = (v.document, false) := by
  rw [Text.received_eq, render, String.toList_ofList, ofText_chars h]

/-- A reader that is sent a value without floats reads the value's tree. -/
theorem Reader.ofText_received {α : Type} (r : Reader α) {v : Json} (h : v.Integral) :
    ofText r (Text.received v.render) = r v.document := by
  rw [ofText, Document.ofText_received h]
  cases hr : r v.document <;> simp only [hr] <;> rfl

theorem elementDocuments_eq (vs : List Json) : elementDocuments vs = vs.map document := by
  induction vs with
  | nil => rfl
  | cons v vs ih => rw [elementDocuments, ih, List.map_cons]

end Json
end NetworkPolicy
