import NetworkPolicy.Log.Event
import NetworkPolicy.Proofs.Json.Values
import NetworkPolicy.Proofs.Text.Bytes

/-! The lines of logged events: an event is written as one line, and what is read from the line is
what was logged. The data of a failure names its cause, whatever else it holds. -/
namespace NetworkPolicy

open Json (Exact Reader)
open OrderedMap (Increasing ofEntries)

/-- What a line tells of its event. -/
structure LogLine where
  source : String
  message : String
  level : String
  data : Json

namespace LogLine

/-- What the event's line is to tell. -/
def ofEvent (e : LogEvent) : LogLine := ⟨e.source, e.message, e.level.name, e.data⟩

/-- Reads the members of a line; the time of the event is passed over. -/
def reader : Reader LogLine :=
  Json.Reader.record "LogLine"
    [Json.Reader.field "source" Json.Reader.text fun s l => { l with source := s },
     Json.Reader.field "message" Json.Reader.text fun s l => { l with message := s },
     Json.Reader.field "log_level" Json.Reader.text fun s l => { l with level := s },
     Json.Reader.field "data" Json.Reader.value fun v l => { l with data := v }]
    ⟨"", "", "", .null⟩

/-- Reads a line from its bytes. -/
def parse (line : List UInt8) : Except Json.ReadError LogLine :=
  Json.Reader.ofText reader (Text.ofByteList line)

end LogLine

namespace LogEvent

variable {e : LogEvent} {data : Json}

/-! ### Events as lines -/

/-- The bytes of the event's line, up to the line feed. -/
def payload (e : LogEvent) : List UInt8 := Percent.bytes e.toJson.chars

theorem line_bytes (e : LogEvent) : e.line.toUTF8.toList = e.payload ++ [0x0A] := by
  have hend : Percent.bytes ['\n'] = [0x0A] := by decide
  rw [Text.toUTF8_toList, line, String.toList_ofList, Percent.bytes_append, hend]
  rfl

theorem integral_toJson (h : e.data.Exact) : e.toJson.Integral := by
  have hdata : e.data.canonical.Integral := by
    rw [h.canonical_eq]
    exact h.integral
  exact ⟨trivial, trivial, trivial, trivial, hdata, trivial⟩

/-- Whatever the texts of the event hold, no line ends within it. -/
theorem newline_not_mem_payload (h : e.data.Exact) : 0x0A ∉ e.payload := by
  intro hmem
  have hascii : (0x0A : UInt8) < 0x80 := by decide
  exact Json.newline_not_mem_chars (integral_toJson h) (Text.mem_of_mem_bytes hascii hmem)

theorem reader_toJson (h : e.data.Exact) :
    LogLine.reader e.toJson.document = .ok (.ofEvent e) := by
  have htext (s : String) : Json.Reader.text (Json.text s).document = .ok s := rfl
  have hdata : Json.Reader.value e.data.canonical.document = .ok e.data := by
    rw [h.canonical_eq]
    exact h.value_document
  have htime : (Json.natural e.millis).document.skip = .ok () := rfl
  apply Json.Reader.record_closed
  · exact (Json.Reader.members_other rfl htime).trans <|
      (Json.Reader.members_field rfl (by decide) (htext e.source)).trans <|
      (Json.Reader.members_field rfl (by decide) (htext e.message)).trans <|
      (Json.Reader.members_field rfl (by decide) (htext e.level.name)).trans <|
      (Json.Reader.members_field rfl (by decide) hdata).trans rfl
  · rfl

/-- A line tells of its event what was logged. -/
theorem parse_payload (h : e.data.Exact) : LogLine.parse e.payload = .ok (.ofEvent e) := by
  have htree := Json.Document.ofText_chars (integral_toJson h)
  rw [LogLine.parse, payload, Text.ofByteList_bytes, Json.Reader.ofText, htree]
  simp only [reader_toJson h]
  rfl

/-! ### The data of events -/

/-- The members that the data of a failure has besides its cause. -/
def details : Json → List (String × Json)
  | .object ms => ms
  | .null => []
  | detail => [("detail", detail)]

theorem failureData_eq (cause : String) (data : Json) :
    failureData cause data =
      .object ((ofEntries (details data)).insert "error" (.text cause)) := by
  cases data with
  | object ms => exact congrArg Json.object (OrderedMap.ofEntries_concat ms "error" (.text cause))
  | null => rfl
  | bool | number | text | list => rfl

theorem exact_dataOf (h : data.Exact) : (dataOf data).Exact := by
  cases data with
  | null => exact ⟨List.Pairwise.nil, trivial⟩
  | bool | number | text | list | object => exact h

theorem exact_details (h : data.Exact) :
    Increasing (details data) ∧ ∀ m ∈ details data, m.2.Exact := by
  cases data with
  | object ms => exact ⟨h.1, Json.exactMembers_iff.mp h.2⟩
  | null => exact ⟨List.Pairwise.nil, fun _ hm => nomatch hm⟩
  | bool | number | text | list =>
    exact ⟨List.pairwise_singleton _ _, fun m hm => List.mem_singleton.mp hm ▸ h⟩

/-- The data of a failure is an object, and its member `error` is the cause and nothing else, also
where the data that was passed has such a member. All other members are those that were passed. -/
theorem failureData_members (cause : String) (data : Json) :
    ∃ ms, failureData cause data = .object ms ∧ (∀ v, ("error", v) ∈ ms ↔ v = .text cause) ∧
      (data.Exact → ∀ k v, k ≠ "error" → ((k, v) ∈ ms ↔ (k, v) ∈ details data)) := by
  have hmem (k : String) (v : Json) :
      (k, v) ∈ (ofEntries (details data)).insert "error" (.text cause) ↔
        k = "error" ∧ v = .text cause ∨ k ≠ "error" ∧ (k, v) ∈ ofEntries (details data) :=
    OrderedMap.mem_insert (OrderedMap.increasing_ofEntries _)
  refine ⟨_, failureData_eq cause data, fun v => ?_, fun hexact k v hk => ?_⟩
  · rw [hmem]
    simp
  · rw [hmem, (exact_details hexact).1.ofEntries_eq]
    simp [hk]

theorem exact_failureData (cause : String) (h : data.Exact) : (failureData cause data).Exact := by
  obtain ⟨hsorted, hexact⟩ := exact_details h
  rw [failureData_eq, hsorted.ofEntries_eq]
  refine ⟨hsorted.insert, Json.exactMembers_iff.mpr fun m hm => ?_⟩
  rcases (OrderedMap.mem_insert hsorted).mp hm with ⟨-, hcause⟩ | ⟨-, hdetail⟩
  · rw [hcause]
    trivial
  · exact hexact m hdetail

end LogEvent
end NetworkPolicy
