import NetworkPolicy.Proofs.Store.Calls
import NetworkPolicy.Store.Layers
import NetworkPolicy.Store.Memory

/-! Layers around a store change nothing of what it answers or becomes, and report every call just
once for each decorator among them. -/
namespace NetworkPolicy

/-- The call that a request is. -/
def StoreRequest.call : StoreRequest → StoreCall
  | all => .all
  | write .create _ _ => .create
  | write .delete _ _ => .delete
  | byGuids _ _ => .byGuids
  | tags => .tags
  | check => .check

/-- Whether the call was carried out. -/
def StoreAnswer.succeeded {ε : Type} : StoreAnswer ε → Bool
  | policies r => r.isOk
  | tags r => r.isOk
  | done r => r.isOk

/-- The samples that tell of an answer which took so long to come. -/
def StoreAnswer.samples (r : StoreRequest) (nanos : Nat) (a : StoreAnswer StoreError) :
    List Sample :=
  if a.succeeded then [.duration s!"Store{r.call.label}SuccessTime" nanos]
  else [.counter s!"Store{r.call.label}Error", .duration s!"Store{r.call.label}ErrorTime" nanos]

/-- The recorders that layers report to, in the order of the reports: innermost first. -/
def Layer.recorders (layers : List Layer) : List Nat := layers.reverse.filterMap Layer.recorder?

theorem Layer.recorders_cons (l : Layer) (layers : List Layer) :
    recorders (l :: layers) = recorders layers ++ l.recorder?.toList := by
  rw [recorders, List.reverse_cons, List.filterMap_append]
  cases l <;> rfl

/-- An answered call that is reported, and the recorder that it is reported to. -/
abbrev Report := Nat × StoreRequest × StoreAnswer StoreError

namespace Report

/-- The reports of answered calls: of each call to each recorder. -/
def ofCalls (recorders : List Nat) (calls : List (StoreRequest × StoreAnswer StoreError)) :
    List Report := calls.flatMap fun c => recorders.map (·, c)

/-- The samples of reports, which take the durations in turn. -/
def samples : List Nat → List Report → List (Nat × Sample)
  | _, [] => []
  | times, (k, r, a) :: reports =>
    (a.samples r (times.headD 0)).map (k, ·) ++ samples times.tail reports

theorem samples_append (times : List Nat) (xs ys : List Report) :
    samples times (xs ++ ys) = samples times xs ++ samples (times.drop xs.length) ys := by
  induction xs generalizing times with
  | nil => rfl
  | cons x xs ih =>
    rw [List.cons_append, samples, samples, ih, List.append_assoc, List.length_cons,
      List.drop_tail]

theorem ofCalls_snoc (recorders : List Nat) (k : Nat) (c : StoreRequest × StoreAnswer StoreError) :
    ofCalls (recorders ++ [k]) [c] = ofCalls recorders [c] ++ [(k, c)] := by
  simp [ofCalls]

theorem ofCalls_cons (recorders : List Nat) (c : StoreRequest × StoreAnswer StoreError)
    (calls : List (StoreRequest × StoreAnswer StoreError)) :
    ofCalls recorders (c :: calls) = ofCalls recorders [c] ++ ofCalls recorders calls := by
  simp [ofCalls]

end Report

namespace Metered

variable {σ : Type}

/-- The state in which the store has become `s` and the reports have been sent. -/
def reported (m : Metered σ) (s : σ) (reports : List Report) : Metered σ :=
  ⟨s, m.sent ++ Report.samples m.times reports, m.times.drop reports.length⟩

@[simp] theorem reported_store (m : Metered σ) (s : σ) (reports : List Report) :
    (m.reported s reports).store = s := rfl

theorem reported_nil (m : Metered σ) (s : σ) : m.reported s [] = { m with store := s } :=
  congrArg (Metered.mk s · m.times) (List.append_nil m.sent)

theorem reported_reported (m : Metered σ) (s t : σ) (xs ys : List Report) :
    (m.reported s xs).reported t ys = m.reported t (xs ++ ys) := by
  unfold reported
  rw [Report.samples_append, List.append_assoc, List.drop_drop, List.length_append]

theorem report_eq {α : Type} {answered : Except StoreError α → StoreAnswer StoreError}
    (h : ∀ x, (answered x).succeeded = x.isOk) (k : Nat) (r : StoreRequest)
    (x : Except StoreError α) (m : Metered σ) :
    m.report k r.call x = m.reported m.store [(k, r, answered x)] := by
  have hsamples : Observed.samplesOf r.call (m.times.headD 0) x =
      (answered x).samples r (m.times.headD 0) := by
    unfold StoreAnswer.samples
    rw [h]
    cases x <;> rfl
  rw [report, hsamples, reported, Report.samples, Report.samples, List.append_nil,
    List.length_singleton, List.drop_one]

/-- What the recorder of a decorator that stands alone sees. -/
def observed (m : Metered σ) : Observed σ := ⟨m.store, m.sent.map (·.2), m.times⟩

theorem observe_observed {α : Type} (k : Nat) (call : StoreCall)
    (f : σ → Except StoreError α × σ) (m : Metered σ) :
    Observed.observe call f m.observed =
      (((Layer.meter k).make call (pass f) m).1, ((Layer.meter k).make call (pass f) m).2.observed) := by
  have hsent : (m.report k call (f m.store).1).sent.map (·.2) =
      m.sent.map (·.2) ++ Observed.samplesOf call (m.times.headD 0) (f m.store).1 := by
    rw [report, List.map_append, List.map_map]
    exact congrArg _ (List.map_id _)
  exact congrArg (fun samples => ((f m.store).1, Observed.mk (f m.store).2 samples m.times.tail))
    hsent.symm

end Metered

namespace PolicyStore

variable {σ : Type} (S : PolicyStore σ)

/-! ### One call -/

theorem answer_handle (layers : List Layer) (r : StoreRequest) (m : Metered σ) :
    (S.within (.handle :: layers)).answer r m = (S.within layers).answer r m := by
  rcases r with _ | ⟨_ | _, _, _⟩ | _ | _ | _ <;> rfl

theorem answer_meter (k : Nat) (layers : List Layer) (r : StoreRequest) (m : Metered σ) :
    (S.within (.meter k :: layers)).answer r m =
      let (a, m) := (S.within layers).answer r m
      (a, m.reported m.store [(k, r, a)]) := by
  rcases r with _ | ⟨_ | _, ps, limit⟩ | ⟨sources, destinations⟩ | _ | _
  case all => exact congrArg (Prod.mk _) (Metered.report_eq (fun _ => rfl) k .all _ _)
  case write.create =>
    exact congrArg (Prod.mk _)
      (Metered.report_eq (fun _ => rfl) k (.write .create ps limit) _ _)
  case write.delete =>
    exact congrArg (Prod.mk _)
      (Metered.report_eq (fun _ => rfl) k (.write .delete ps limit) _ _)
  case byGuids =>
    exact congrArg (Prod.mk _)
      (Metered.report_eq (fun _ => rfl) k (.byGuids sources destinations) _ _)
  case tags => exact congrArg (Prod.mk _) (Metered.report_eq (fun _ => rfl) k .tags _ _)
  case check => exact congrArg (Prod.mk _) (Metered.report_eq (fun _ => rfl) k .check _ _)

/-- A call through layers gives the store's answer and is reported by each decorator. -/
theorem answer_within (layers : List Layer) (r : StoreRequest) (m : Metered σ) :
    (S.within layers).answer r m =
      let (a, s) := S.answer r m.store
      (a, m.reported s (Report.ofCalls (Layer.recorders layers) [(r, a)])) := by
  induction layers with
  | nil =>
    have hbare : (S.within []).answer r m =
        ((S.answer r m.store).1, { m with store := (S.answer r m.store).2 }) := by
      rcases r with _ | ⟨_ | _, _, _⟩ | _ | _ | _ <;> rfl
    rw [hbare, ← Metered.reported_nil]
    rfl
  | cons l layers ih =>
    cases l with
    | handle =>
      have hsame : Layer.recorders (.handle :: layers) = Layer.recorders layers := by
        rw [Layer.recorders_cons]
        exact List.append_nil _
      rw [answer_handle, ih, hsame]
    | meter k =>
      have hone : Layer.recorders (.meter k :: layers) = Layer.recorders layers ++ [k] :=
        Layer.recorders_cons _ _
      rw [answer_meter, ih, hone]
      dsimp only
      rw [Report.ofCalls_snoc, ← Metered.reported_reported]
      rfl

theorem observed_answer (k : Nat) (r : StoreRequest) (m : Metered σ) :
    S.observed.answer r m.observed =
      (((S.within [.meter k]).answer r m).1, ((S.within [.meter k]).answer r m).2.observed) := by
  rcases r with _ | ⟨_ | _, ps, limit⟩ | ⟨sources, destinations⟩ | _ | _
  all_goals exact congrArg (Prod.map _ id) (Metered.observe_observed k _ _ m)

/-! ### Sequences of calls -/

theorem answers_within (layers : List Layer) (rs : List StoreRequest) (m : Metered σ) :
    (S.within layers).answers rs m =
      let (as, s) := S.answers rs m.store
      (as, m.reported s (Report.ofCalls (Layer.recorders layers) (rs.zip as))) := by
  induction rs generalizing m with
  | nil => exact congrArg (Prod.mk _) (m.reported_nil m.store).symm
  | cons r rs ih =>
    have hfirst := S.answer_within layers r m
    rcases ha : S.answer r m.store with ⟨a, s⟩
    rw [ha] at hfirst
    have hrest := ih (m.reported s (Report.ofCalls (Layer.recorders layers) [(r, a)]))
    rcases hlater : S.answers rs s with ⟨as, t⟩
    rw [answers, answers, hfirst, ha]
    dsimp only
    rw [hrest, Metered.reported_store, hlater]
    dsimp only
    rw [Metered.reported_reported, List.zip_cons_cons, Report.ofCalls_cons _ (r, a) (rs.zip as)]

theorem observed_answers (k : Nat) (rs : List StoreRequest) (m : Metered σ) :
    S.observed.answers rs m.observed =
      let (as, m) := (S.within [.meter k]).answers rs m
      (as, m.observed) := by
  induction rs generalizing m with
  | nil => rfl
  | cons r rs ih =>
    rw [answers, answers, observed_answer S k]
    dsimp only
    rw [ih]

theorem length_answers (rs : List StoreRequest) (s : σ) : (S.answers rs s).1.length = rs.length := by
  induction rs generalizing s with
  | nil => rfl
  | cons r rs ih => exact congrArg (· + 1) (ih _)

/-- Within any layers a store of any kind answers every sequence of calls as it does alone and becomes
what it becomes alone. Of each call in turn every decorator, from the inside to the outside, sends its
recorder the samples that tell of the answer, and nothing else is sent; and a decorator with a recorder
of its own keeps just what it sends. -/
theorem layers_transparent (layers : List Layer) (rs : List StoreRequest) (m : Metered σ) :
    ∃ as s, S.answers rs m.store = (as, s) ∧ as.length = rs.length ∧
      (S.within layers).answers rs m = (as,
        let reports := Report.ofCalls (Layer.recorders layers) (rs.zip as)
        ⟨s, m.sent ++ Report.samples m.times reports, m.times.drop reports.length⟩) ∧
      ∀ kept, S.observed.answers rs ⟨m.store, kept, m.times⟩ = (as,
        let reports := Report.ofCalls [0] (rs.zip as)
        ⟨s, kept ++ (Report.samples m.times reports).map (·.2),
          m.times.drop reports.length⟩) := by
  refine ⟨_, _, rfl, S.length_answers rs m.store, S.answers_within layers rs m, fun kept => ?_⟩
  have hkept : (kept.map (0, ·)).map Prod.snd = kept := by
    rw [List.map_map]
    exact List.map_id _
  have halone := S.observed_answers 0 rs ⟨m.store, kept.map (0, ·), m.times⟩
  rw [answers_within, Metered.observed, hkept] at halone
  rw [halone]
  dsimp only [Metered.observed, Metered.reported]
  rw [List.map_append, hkept]
  rfl

/-- A shared store with two decorators of one recorder: the first creation is told of twice, and so is
the failure of the second one, for which no group is free. -/
example :
    let p : Policy := ⟨⟨"a", ""⟩, ⟨"b", "", "tcp", ⟨80, 80⟩⟩⟩
    let q : Policy := ⟨⟨"c", ""⟩, ⟨"b", "", "tcp", ⟨80, 80⟩⟩⟩
    let S := MemoryStore.store.within [.meter 0, .handle, .meter 0]
    (S.answers [.write .create [p] none, .write .create [q] none]
        ⟨.empty .oneByte 2, [], [5, 6, 7, 8]⟩).2.sent.map (·.2) =
      [.duration "StoreCreateSuccessTime" 5, .duration "StoreCreateSuccessTime" 6,
        .counter "StoreCreateError", .duration "StoreCreateErrorTime" 7,
        .counter "StoreCreateError", .duration "StoreCreateErrorTime" 8] := by
  decide +kernel

end PolicyStore
end NetworkPolicy
