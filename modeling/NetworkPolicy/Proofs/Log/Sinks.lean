import NetworkPolicy.Log.Logger
import NetworkPolicy.Proofs.Files
import NetworkPolicy.Proofs.Log.Lines

/-! What the sinks of a logger hold after any calls: a file holds one line for each event that is
kept in memory, and a higher level only leaves events out. -/
namespace NetworkPolicy

/-- The calls that loggers have. -/
inductive LogCall.Kind where
  | debug
  | info
  | failure (cause : String)

/-- A call of a logger. -/
structure LogCall where
  /-- The names of the sessions around it, outermost first. -/
  sessions : List String
  kind : LogCall.Kind
  event : String
  data : Json
  millis : Nat

namespace LogCall

def level (c : LogCall) : LogLevel :=
  match c.kind with
  | .debug => .debug
  | .info => .info
  | .failure _ => .error

/-- Makes the call in its sessions within those of the logger. -/
def make (c : LogCall) (l : Logger) (sink : LogSink) : LogSink :=
  let inner := c.sessions.foldl Logger.session l
  match c.kind with
  | .debug => inner.emit .debug c.event c.data c.millis sink
  | .info => inner.emit .info c.event c.data c.millis sink
  | .failure cause => inner.failure c.event cause c.data c.millis sink

/-- The data that the call shows. -/
def shown (c : LogCall) : Json :=
  match c.kind with
  | .debug | .info => LogEvent.dataOf c.data
  | .failure cause => LogEvent.failureData cause c.data

/-- The event of the call. -/
def toEvent (l : Logger) (c : LogCall) : LogEvent :=
  ⟨c.millis, l.source, ".".intercalate (l.sessions ++ c.sessions ++ [c.event]), c.level, c.shown⟩

/-- The logger writes the call. -/
def passes (l : Logger) (c : LogCall) : Bool := l.level.rank ≤ c.level.rank

/-- What a call leaves behind in an event. -/
structure Told (l : Logger) (c : LogCall) (e : LogEvent) : Prop where
  source : e.source = l.source
  message : e.message = ".".intercalate (l.sessions ++ c.sessions ++ [c.event])
  level : e.level = c.level
  data : (∀ cause, c.kind ≠ .failure cause) → e.data = LogEvent.dataOf c.data
  /-- The cause replaces a member of its name, and no other one. -/
  cause : ∀ cause, c.kind = .failure cause → ∃ ms, e.data = .object ms ∧
    (∀ v, ("error", v) ∈ ms ↔ v = .text cause) ∧
    (c.data.Exact → ∀ k v, k ≠ "error" → ((k, v) ∈ ms ↔ (k, v) ∈ LogEvent.details c.data))

/-! ### One call -/

theorem foldl_session (l : Logger) (names : List String) :
    names.foldl Logger.session l = { l with sessions := l.sessions ++ names } := by
  induction names generalizing l with
  | nil => simp
  | cons n ns ih => simp [ih, Logger.session]

theorem dataOf_failureData (cause : String) (data : Json) :
    LogEvent.dataOf (LogEvent.failureData cause data) = LogEvent.failureData cause data := by
  rw [LogEvent.failureData_eq]
  rfl

/-- A call records its event, unless its level is too low. -/
theorem make_eq (c : LogCall) (l : Logger) (sink : LogSink) :
    c.make l sink = if c.passes l then sink.record (c.toEvent l) else sink := by
  have hlow : ¬ c.passes l = true ↔ c.level.rank < l.level.rank := by
    rw [passes, decide_eq_true_iff, Nat.not_le]
  rw [← ite_not]
  simp only [hlow]
  rcases c with ⟨sessions, kind, event, data, millis⟩
  rw [make, foldl_session]
  cases kind with
  | debug | info => simp [Logger.emit, Logger.message, toEvent, level, shown]
  | failure cause =>
    simp [Logger.failure, Logger.emit, Logger.message, toEvent, level, shown, dataOf_failureData]

theorem told_toEvent (l : Logger) (c : LogCall) : Told l c (c.toEvent l) where
  source := rfl
  message := rfl
  level := rfl
  data := by
    intro hplain
    have hshown : c.shown = LogEvent.dataOf c.data := by
      unfold shown
      split
      · rfl
      · rfl
      · rename_i cause hkind
        exact absurd hkind (hplain cause)
    exact hshown
  cause := by
    intro cause hkind
    have hshown : (c.toEvent l).data = LogEvent.failureData cause c.data := by
      show c.shown = _
      unfold shown
      rw [hkind]
    rw [hshown]
    exact LogEvent.failureData_members cause c.data

theorem exact_shown {c : LogCall} (h : c.data.Exact) : c.shown.Exact := by
  unfold shown
  split
  · exact LogEvent.exact_dataOf h
  · exact LogEvent.exact_dataOf h
  · exact LogEvent.exact_failureData _ h

end LogCall

/-! ### Runs -/

/-- Takes in events one after the other. -/
def LogSink.recordAll (sink : LogSink) (es : List LogEvent) : LogSink :=
  es.foldl (fun sink e => sink.record e) sink

namespace Logger

/-- Makes calls one after the other. -/
def run (l : Logger) (calls : List LogCall) (sink : LogSink) : LogSink :=
  calls.foldl (fun sink c => c.make l sink) sink

/-- The events of the calls that are written. -/
def events (l : Logger) (calls : List LogCall) : List LogEvent :=
  (calls.filter (·.passes l)).map (·.toEvent l)

variable {l : Logger} {calls : List LogCall}

/-- A run records the events of its calls in their order, whatever the sink. -/
theorem run_eq (l : Logger) (calls : List LogCall) (sink : LogSink) :
    l.run calls sink = sink.recordAll (l.events calls) := by
  induction calls generalizing sink with
  | nil => rfl
  | cons c cs ih =>
    rw [run, List.foldl_cons, ← run, LogCall.make_eq, ih, events, events, List.filter_cons]
    split_ifs
    · rfl
    · rfl

theorem events_level {level : LogLevel} (h : l.level.rank ≤ level.rank) :
    { l with level := level }.events calls =
      (l.events calls).filter fun e => level.rank ≤ e.level.rank := by
  have hpasses : ∀ c : LogCall, c.passes { l with level := level } =
      ((decide (level.rank ≤ c.level.rank)) && c.passes l) := by
    intro c
    simp only [LogCall.passes, ← Bool.decide_and, decide_eq_decide]
    omega
  rw [events, events, List.filter_map, List.filter_filter]
  exact congrArg (List.map _) (List.filter_congr fun c _ => hpasses c)

end Logger

namespace LogSink

theorem recordAll_cons (sink : LogSink) (e : LogEvent) (es : List LogEvent) :
    sink.recordAll (e :: es) = (sink.record e).recordAll es := rfl

theorem recordAll_memory (before es : List LogEvent) :
    (memory before).recordAll es = memory (before ++ es) := by
  induction es generalizing before with
  | nil =>
    rw [List.append_nil]
    rfl
  | cons e es ih => rw [recordAll_cons, record, ih, List.append_assoc, List.singleton_append]

/-- A file that events are written to keeps what it held, and has their lines behind it. -/
theorem recordAll_file {files : Files} {path : String} {place : List String} {content : List UInt8}
    (h : files.FileAt path place content) (es : List LogEvent) :
    ∃ after, (file place files).recordAll es = file place after ∧
      after.FileAt path place (content ++ (es.map LogEvent.payload).flatMap (· ++ [0x0A])) := by
  induction es generalizing files content with
  | nil =>
    rw [List.map_nil, List.flatMap_nil, List.append_nil]
    exact ⟨files, rfl, h⟩
  | cons e es ih =>
    obtain ⟨after, hrun, hafter⟩ := ih (h.append e.line.toUTF8.toList)
    rw [LogEvent.line_bytes, List.append_assoc] at hafter
    exact ⟨after, hrun, hafter⟩

end LogSink

namespace Logger

/-- After any calls, a file that was fresh has a line for each event that is kept in memory, in
their order, from which its source, message, level and data are read; these are those of the calls
whose level is high enough. With a higher level, just the events that reach it are kept. -/
theorem sinks_agree (l : Logger) (calls : List LogCall) {files opened : Files} {path : String}
    {place : List String} (hopen : files.openAppend path = .ok (place, opened))
    (hfresh : files.get? path = none ∨ files.get? path = some (.file [])) :
    ∃ (events : List LogEvent) (lines : List (List UInt8)) (after : Files),
      l.run calls (.memory []) = .memory events ∧
      l.run calls (.file place opened) = .file place after ∧
      after.read path = .ok (lines.flatMap (· ++ [0x0A])) ∧
      ((∀ c ∈ calls, c.data.Exact) →
        List.Forall₂ (fun line e => 0x0A ∉ line ∧
          LogLine.parse line = .ok ⟨e.source, e.message, e.level.name, e.data⟩) lines events) ∧
      List.Forall₂ (LogCall.Told l) (calls.filter (·.passes l)) events ∧
      ∀ level : LogLevel, l.level.rank ≤ level.rank →
        { l with level := level }.run calls (.memory []) =
          .memory (events.filter fun e => level.rank ≤ e.level.rank) := by
  obtain ⟨content, hfile, hcontent⟩ := Files.fileAt_openAppend hopen
  obtain rfl : content = [] := by
    rcases hcontent with ⟨-, hcontent⟩ | hcontent
    · exact hcontent
    · rcases hfresh with hfresh | hfresh <;> rw [hcontent] at hfresh <;> cases hfresh
      rfl
  obtain ⟨after, hrun, hafter⟩ := LogSink.recordAll_file hfile (l.events calls)
  have hmemory : ∀ l : Logger, l.run calls (.memory []) = .memory (l.events calls) := fun l =>
    (run_eq l calls _).trans (LogSink.recordAll_memory [] _)
  refine ⟨l.events calls, (l.events calls).map LogEvent.payload, after, hmemory l,
    (run_eq l calls _).trans hrun, hafter.read_eq, fun hexact => ?_, ?_, fun level hlevel => ?_⟩
  · rw [List.forall₂_map_left_iff, List.forall₂_same]
    intro e he
    obtain ⟨c, hc, rfl⟩ := List.mem_map.mp he
    have hdata : (c.toEvent l).data.Exact :=
      LogCall.exact_shown (hexact c (List.mem_filter.mp hc).1)
    exact ⟨LogEvent.newline_not_mem_payload hdata, LogEvent.parse_payload hdata⟩
  · rw [events, List.forall₂_map_right_iff, List.forall₂_same]
    exact fun c _ => LogCall.told_toEvent l c
  · rw [hmemory, events_level hlevel]

theorem sinks_agree_opened :
    ({} : Files).openAppend "l" = .ok (["l"], ⟨[(["l"], .file [])], []⟩) ∧
      ({} : Files).get? "l" = none ∧
      ∃ (lines : List (List UInt8)) (after : Files),
        run ⟨"policy-server", .info, []⟩
          [⟨["create"], .debug, "asked", .null, 0⟩,
           ⟨["create"], .info, "done", .object [("count", .natural 1)], 1⟩,
           ⟨["create", "rows"], .failure "no\nrow", "failed", .object [("error", .null)], 2⟩]
          (.file ["l"] ⟨[(["l"], .file [])], []⟩) = .file ["l"] after ∧
        after.read "l" = .ok (lines.flatMap (· ++ [0x0A])) ∧
        lines.map LogLine.parse =
          [.ok ⟨"policy-server", "create.done", "info", .object [("count", .natural 1)]⟩,
           .ok ⟨"policy-server", "create.rows.failed", "error",
             .object [("error", .text "no\nrow")]⟩] := by
  have hsteps : Files.steps "l" = ["l"] := by
    have hend : String.splitOnAux "l" "/" 0 ⟨1⟩ 0 [] = ["l"] := by
      unfold String.splitOnAux
      decide
    have hsplit : String.splitOn "l" "/" = ["l"] := by
      show String.splitOnAux "l" "/" 0 ⟨0⟩ 0 [] = ["l"]
      unfold String.splitOnAux
      exact hend
    rw [Files.steps, hsplit]
    decide
  have hzero : (Files.zeroAt? "l").isSome = false := by
    rw [Files.zeroAt?, Text.toUTF8_toList]
    decide
  have hplace : ({} : Files).place "l" = .ok ["l"] := by
    refine Files.place_eq_ok.mpr ⟨hzero, by decide, by decide, ?_, by decide⟩
    rw [hsteps]
    decide
  have hopen : ({} : Files).openAppend "l" = .ok (["l"], ⟨[(["l"], .file [])], []⟩) := by
    rw [Files.openAppend, hplace]
    decide
  have hget : ({} : Files).get? "l" = none := by
    rw [Files.get?, hplace]
    decide
  refine ⟨hopen, hget, ?_⟩
  obtain ⟨events, lines, after, hmemory, hfile, hcontent, hlines, -, -⟩ :=
    sinks_agree _ _ hopen (Or.inl hget)
  refine ⟨lines, after, hfile, hcontent, ?_⟩
  have hevents : LogSink.memory
      [⟨1, "policy-server", "create.done", .info, .object [("count", .natural 1)]⟩,
       ⟨2, "policy-server", "create.rows.failed", .error,
         .object [("error", .text "no\nrow")]⟩] = .memory events := by
    rw [← hmemory]
    rfl
  obtain rfl := LogSink.memory.inj hevents
  have hread := hlines
    (by simp [Json.Exact, Json.ExactMembers, OrderedMap.Increasing, Json.natural])
  cases hread with
  | cons hfirst hrest =>
    cases hrest with
    | cons hsecond hrest =>
      cases hrest
      rw [List.map_cons, List.map_cons, hfirst.2, hsecond.2]
      rfl

end Logger
end NetworkPolicy
