import NetworkPolicy.Proofs.Json.Building
import NetworkPolicy.Proofs.Json.Members
import NetworkPolicy.Proofs.Policy.RoundTrip

/-! What a request body means: the policies that are read from it depend neither on how its values
are written nor on the order of members, on members that no version knows, on tags, or on members
that hold what is read without them. -/
namespace NetworkPolicy

open Json (Document SameList SameMembers SameRecord Slot)
open Json.Reader (Agree Careful Commute Fits Fitting agree_list careful_list careful_optional
  careful_port careful_text commute_field fits_field record)

/-- A member with a text that is empty unless it is given. -/
def textSlot (name : String) : Slot := ⟨name, Eq, (· = (Json.text "").document)⟩

/-- A member with a port that is 0 unless it is given. -/
def portSlot (name : String) : Slot := ⟨name, Eq, (· = (Json.natural 0).document)⟩

/-- A member with a record, which must be given. -/
def recordSlot (name : String) (slots : List Slot) : Slot :=
  ⟨name, SameRecord slots, fun _ => False⟩

namespace Body

variable {v : Version}

/-- A string or null. -/
inductive IsTag : Document → Prop where
  | null : IsTag .null
  | text {s : String} : IsTag (.string (.text s))

/-- A member whose value does not matter, as long as it is a string or null. -/
def tagSlot : Slot := ⟨"tag", fun d d' => IsTag d ∧ IsTag d', IsTag⟩

def sourceSlots : Version → List Slot
  | .v0 => [textSlot "id"]
  | .v1 => [textSlot "id", tagSlot]

def portsSlots : List Slot := [portSlot "start", portSlot "end"]

def destinationSlots : Version → List Slot
  | .v0 => [textSlot "id", textSlot "protocol", portSlot "port"]
  | .v1 => [textSlot "id", tagSlot, textSlot "protocol", recordSlot "ports" portsSlots]

def policySlots (v : Version) : List Slot :=
  [recordSlot "source" (sourceSlots v), recordSlot "destination" (destinationSlots v)]

/-- The member with the policies, of which there are none unless they are given. -/
def policiesSlot (v : Version) : Slot :=
  ⟨"policies", SameList (SameRecord (policySlots v)), (· = (Json.list []).document)⟩

def requestSlots (v : Version) : List Slot := [policiesSlot v]

/-- Bodies of a version that mean the same. -/
def SameRequest (v : Version) : Document → Document → Prop := SameRecord (requestSlots v)

/-! ### Fields -/

theorem fits_text {α : Type} {name : String} {set : String → α → α} {blank : α}
    (h : set "" blank = blank) :
    Fits blank (Json.Reader.field name Json.Reader.text set false) (textSlot name) :=
  fits_field careful_text (fun _ _ h => h ▸ rfl) fun _ hd => ⟨rfl, "", hd ▸ rfl, h⟩

theorem fits_port {α : Type} {name : String} {set : UInt16 → α → α} {blank : α}
    (h : set 0 blank = blank) :
    Fits blank (Json.Reader.field name Json.Reader.port set false) (portSlot name) :=
  fits_field careful_port (fun _ _ h => h ▸ rfl) fun _ hd =>
    ⟨rfl, 0, hd ▸ Json.Reader.port_natural 0, h⟩

theorem fits_record {α β : Type} {name type : String} {fields : List (Json.Reader.Field β)}
    {slots : List Slot} {init : β} {set : β → α → α} {blank : α} (h : Fitting fields slots init) :
    Fits blank (Json.Reader.field name (record type fields init) set) (recordSlot name slots) :=
  fits_field (h.careful_record type) (fun _ _ hd => h.agree_record hd type) fun _ hd => hd.elim

theorem tagField_read {α : Type} {d : Document} (h : IsTag d) (a : α) :
    tagField.read d a = .ok a := by
  cases h <;> rfl

theorem fits_tag {α : Type} (blank : α) : Fits blank tagField tagSlot where
  name := rfl
  careful d a b h := by
    obtain ⟨t, ht, -⟩ := map_eq_ok.mp h
    exact careful_optional careful_text d t ht
  same d d' a h := by rw [tagField_read h.1, tagField_read h.2]
  omissible d h := ⟨rfl, tagField_read h blank⟩

/-! ### Records -/

theorem fitting_source (v : Version) :
    Fitting (sourceFields v) (sourceSlots v) Policy.blank.source := by
  have hid : Fits Policy.blank.source (idField fun s r => { r with id := s }) (textSlot "id") :=
    fits_text rfl
  cases v with
  | v0 => exact ⟨.cons hid .nil, by decide, List.pairwise_singleton _ _⟩
  | v1 =>
    refine ⟨.cons hid (.cons (fits_tag _) .nil), by decide, ?_⟩
    exact List.pairwise_pair.mpr (commute_field fun _ _ _ => rfl)

theorem fitting_ports : Fitting
    [Json.Reader.field "start" Json.Reader.port (fun p (r : Ports) => { r with first := p }) false,
     Json.Reader.field "end" Json.Reader.port (fun p (r : Ports) => { r with last := p }) false]
    portsSlots ⟨0, 0⟩ :=
  ⟨.cons (fits_port rfl) (.cons (fits_port rfl) .nil), by decide,
    List.pairwise_pair.mpr (commute_field fun _ _ _ => rfl)⟩

theorem fitting_destination (v : Version) :
    Fitting (destinationFields v) (destinationSlots v) Policy.blank.destination := by
  have hid : Fits Policy.blank.destination (idField fun s r => { r with id := s })
    (textSlot "id") := fits_text rfl
  have hprotocol : Fits Policy.blank.destination (Json.Reader.field "protocol" Json.Reader.text
    (fun s r => { r with protocol := s }) false) (textSlot "protocol") := fits_text rfl
  cases v with
  | v0 =>
    refine ⟨.cons hid (.cons hprotocol (.cons (fits_port rfl) .nil)), by decide, ?_⟩
    have hports : List.Pairwise Commute (destinationFields .v0).tail :=
      List.pairwise_pair.mpr (commute_field fun _ _ _ => rfl)
    exact hports.cons (List.forall_mem_cons.mpr ⟨commute_field fun _ _ _ => rfl,
      List.forall_mem_singleton.mpr (commute_field fun _ _ _ => rfl)⟩)
  | v1 =>
    refine ⟨.cons hid (.cons (fits_tag _) (.cons hprotocol
      (.cons (fits_record fitting_ports) .nil))), by decide, ?_⟩
    have hports : List.Pairwise Commute ((destinationFields .v1).drop 2) :=
      List.pairwise_pair.mpr (commute_field fun _ _ _ => rfl)
    have htags : List.Pairwise Commute ((destinationFields .v1).drop 1) :=
      hports.cons (List.forall_mem_cons.mpr ⟨commute_field fun _ _ _ => rfl,
        List.forall_mem_singleton.mpr (commute_field fun _ _ _ => rfl)⟩)
    exact htags.cons (List.forall_mem_cons.mpr ⟨commute_field fun _ _ _ => rfl,
      List.forall_mem_cons.mpr ⟨commute_field fun _ _ _ => rfl,
        List.forall_mem_singleton.mpr (commute_field fun _ _ _ => rfl)⟩⟩)

/-- The members of a policy. -/
def policyFields (v : Version) : List (Json.Reader.Field Policy) :=
  [Json.Reader.field "source" (record "WireSource" (sourceFields v) Policy.blank.source)
    fun s r => { r with source := s },
   Json.Reader.field "destination"
    (record "WireDestination" (destinationFields v) Policy.blank.destination)
    fun d r => { r with destination := d }]

theorem policyReader_fields (v : Version) :
    policyReader v = record "WirePolicy" (policyFields v) Policy.blank := rfl

theorem fitting_policy (v : Version) : Fitting (policyFields v) (policySlots v) Policy.blank :=
  ⟨.cons (fits_record (fitting_source v)) (.cons (fits_record (fitting_destination v)) .nil),
    by cases v <;> decide, List.pairwise_pair.mpr (commute_field fun _ _ _ => rfl)⟩

theorem fitting_request (v : Version) : Fitting
    [Json.Reader.field "policies" (Json.Reader.list (policyReader v)) (fun ps _ => ps) false]
    (requestSlots v) [] := by
  have hpolicy := fitting_policy v
  rw [policyReader_fields]
  refine ⟨.cons (fits_field ?_ (fun d d' h => ?_) fun d h => ?_) .nil, List.nodup_singleton _,
    List.pairwise_singleton _ _⟩
  · exact careful_list (hpolicy.careful_record _)
  · exact agree_list (fun _ _ h => hpolicy.agree_record h _) h
  · exact ⟨rfl, [], h ▸ rfl, rfl⟩

/-! ### Bodies -/

theorem careful_reader (v : Version) : Careful (reader v) := (fitting_request v).careful_record _

theorem agree_reader {d d' : Document} (h : SameRequest v d d') : Agree (reader v) d d' :=
  (fitting_request v).agree_record h _

theorem decode_iff {body : List Text.Symbol} {ps : List Policy} :
    decode v body = .ok ps ↔ ∃ d : Document, d.Spelt body ∧ reader v d = .ok ps := by
  rw [← (careful_reader v).ofText_eq_ok]
  exact ⟨decode_eq_ok, decode_eq⟩

/-- What is read from a body is read from each body that means the same, however it is written: with
other white space, with strings and keys spelt otherwise, and with its objects changed in all ways
that do not matter to the version. -/
theorem decode_meaning {body : List Text.Symbol} {ps : List Policy} (h : decode v body = .ok ps) :
    ∃ d : Document, d.Spelt body ∧ ∀ (d' : Document) (body' : List Text.Symbol),
      SameRequest v d d' → d'.Spelt body' → decode v body' = .ok ps := by
  obtain ⟨d, hspelt, hread⟩ := decode_iff.mp h
  refine ⟨d, hspelt, fun d' body' hsame hspelt' => ?_⟩
  exact decode_iff.mpr ⟨d', hspelt', (agree_reader hsame).eq_ok hread⟩

/-- A body with all its members in their usual order. -/
def plainBody : String :=
  let ports := braced r#""start":80,"end":90"#
  let destination := braced (r#""id":"b","protocol":"tcp","ports":"# ++ ports)
  let source := braced r#""id":"""#
  braced (r#""policies":["# ++
    braced (r#""source":"# ++ source ++ r#","destination":"# ++ destination) ++ "]")

/-- The same with white space, escapes, members that no version knows and a tag, in another order and
without the empty id. -/
def wornBody : String :=
  let ports := braced r#""end": 90, "start": 80"#
  let destination := braced (r#""ports": "# ++ ports ++
    r#", "tag": null, "protocol": "t\u0063p", "id": "b""#)
  let policy := braced (r#""\u0064estination": "# ++ destination ++ r#", "source": "# ++ braced "")
  braced (r#" "x": ["# ++ braced r#""\n": [1e9]"# ++ r#"], "policies" : ["# ++ policy ++
    r#"], "x": """#)

/-- The members of a request for one policy. -/
def requestTree (policy : List (Json.Literal × Document)) : List (Json.Literal × Document) :=
  [(.text "policies", .list [.object policy .closed] .closed)]

def plainDestination : List (Json.Literal × Document) :=
  [(.text "id", .string (.text "b")), (.text "protocol", .string (.text "tcp")),
   (.text "ports", .object [(.text "start", (Json.natural 80).document),
     (.text "end", (Json.natural 90).document)] .closed)]

def wornDestination : List (Json.Literal × Document) :=
  [(.text "ports", .object [(.text "end", (Json.natural 90).document),
     (.text "start", (Json.natural 80).document)] .closed),
   (.text "tag", .null), (.text "protocol", .string (.text "tcp")),
   (.text "id", .string (.text "b"))]

def plainTree : Document := .object (requestTree
  [(.text "source", .object [(.text "id", .string (.text ""))] .closed),
   (.text "destination", .object plainDestination .closed)]) .closed

def wornTree : Document := .object
  ((.text "x", .list [.object [(.text "\n", .list [.number
      { whole := [1], exponent := [9], integral := false }] .closed)] .closed] .closed) ::
    requestTree [(.text "destination", .object wornDestination .closed),
      (.text "source", .object [] .closed)] ++
    [(.text "x", .string (.text ""))]) .closed

theorem spelt_plainBody : plainTree.Spelt (Text.received plainBody) := by
  rw [Text.received_eq]
  refine Document.spelt_of_scan ?_ (by decide +kernel)
  simp [plainTree, requestTree, plainDestination, Json.natural, Json.document, Document.Whole,
    Document.WholeElements, Document.WholeMembers]

theorem spelt_wornBody : wornTree.Spelt (Text.received wornBody) := by
  rw [Text.received_eq]
  refine Document.spelt_of_scan ?_ (by decide +kernel)
  simp [wornTree, requestTree, wornDestination, Json.natural, Json.document, Document.Whole,
    Document.WholeElements, Document.WholeMembers]

theorem same_destination :
    SameMembers (destinationSlots .v1) plainDestination wornDestination := by
  have hports : SameMembers portsSlots
      [(.text "start", (Json.natural 80).document), (.text "end", (Json.natural 90).document)]
      [(.text "end", (Json.natural 90).document), (.text "start", (Json.natural 80).document)] :=
    .perm (.swap _ _ _)
  have hslot : recordSlot "ports" portsSlots ∈ destinationSlots .v1 := by
    simp [destinationSlots]
  have htag : tagSlot ∈ destinationSlots .v1 := by simp [destinationSlots]
  refine .trans (.perm (List.reverse_perm _).symm) (.trans (.value hslot (.object hports)) ?_)
  refine .trans (.symm (.omitted htag .null ?_)) (.perm (.swap _ _ _))
  decide

theorem same_policy : SameMembers (policySlots .v1)
    [(.text "source", .object [(.text "id", .string (.text ""))] .closed),
     (.text "destination", .object plainDestination .closed)]
    [(.text "destination", .object wornDestination .closed),
     (.text "source", .object [] .closed)] := by
  have hid : textSlot "id" ∈ sourceSlots .v1 := by simp [sourceSlots]
  have hsource : SameMembers (sourceSlots .v1) [(.text "id", .string (.text ""))] [] :=
    .omitted hid rfl (by decide)
  have hslots : recordSlot "source" (sourceSlots .v1) ∈ policySlots .v1 ∧
      recordSlot "destination" (destinationSlots .v1) ∈ policySlots .v1 := by simp [policySlots]
  refine .trans (.value hslots.1 (.object hsource)) (.trans (.perm (.swap _ _ _)) ?_)
  exact .value hslots.2 (.object same_destination)

theorem same_request : SameRequest .v1 plainTree wornTree := by
  have hslot : policiesSlot .v1 ∈ requestSlots .v1 := List.mem_singleton.mpr rfl
  have hkey : "x" ∉ (requestSlots .v1).map Slot.name := by decide
  refine .object (.trans (.value hslot (.list (.cons (.object same_policy) .nil))) ?_)
  refine .trans (.unknown hkey ?_) (.trans (.unknown hkey ?_) (.perm (.cons _ (.swap _ _ _))))
  · trivial
  · simp [Document.Whole, Document.WholeElements, Document.WholeMembers]

/-- The worn body is read as the plain one. -/
theorem decode_meaning_worn_body :
    decode .v1 (Text.received plainBody) = .ok [⟨⟨"", ""⟩, ⟨"b", "", "tcp", ⟨80, 90⟩⟩⟩] ∧
      plainBody ≠ wornBody ∧
      decode .v1 (Text.received wornBody) = .ok [⟨⟨"", ""⟩, ⟨"b", "", "tcp", ⟨80, 90⟩⟩⟩] := by
  have hplain : decode .v1 (Text.received plainBody) =
      .ok [⟨⟨"", ""⟩, ⟨"b", "", "tcp", ⟨80, 90⟩⟩⟩] := by
    rw [Text.received_eq]
    decide +kernel
  obtain ⟨d, hd, hsame⟩ := decode_meaning hplain
  obtain rfl := hd.unique spelt_plainBody
  exact ⟨hplain, by decide +kernel, hsame wornTree _ same_request spelt_wornBody⟩

end Body
end NetworkPolicy
