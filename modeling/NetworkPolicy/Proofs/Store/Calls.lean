import NetworkPolicy.Store.Basic

/-! Store calls as data, and the answers of a store to a sequence of them. -/
namespace NetworkPolicy

/-- The kinds of batch writes. -/
inductive Write where
  | create
  | delete
  deriving DecidableEq, Repr

/-- A call with what it is given. -/
inductive StoreRequest where
  | all
  | write (w : Write) (ps : List Policy) (limit : Option TimeLimit)
  | byGuids (sources destinations : List String)
  | tags
  | check
  deriving DecidableEq, Repr

/-- The answer to a call; failures are told by `ε`. -/
inductive StoreAnswer (ε : Type) where
  | policies (r : Except ε (List Policy))
  | tags (r : Except ε (List Tag))
  | done (r : Except ε Unit)
  deriving Repr

/-- The answer with its failure told otherwise. -/
def StoreAnswer.mapError {ε δ : Type} (f : ε → δ) : StoreAnswer ε → StoreAnswer δ
  | policies r => .policies (r.mapError f)
  | tags r => .tags (r.mapError f)
  | done r => .done (r.mapError f)

/-- What a failure is, apart from its text. -/
inductive StoreError.Kind where
  | io
  | db
  | corrupt
  | invalid
  | capacity
  | timeout
  deriving DecidableEq, Repr

def StoreError.kind : StoreError → Kind
  | io _ => .io
  | db _ => .db
  | corrupt _ => .corrupt
  | invalid _ => .invalid
  | capacity _ => .capacity
  | timeout _ => .timeout

/-- The time is up at the check before the commit. -/
def TimeLimit.isUp (l : TimeLimit) : Bool := l.deadline.expired l.closing

namespace PolicyStore

variable {σ : Type} (S : PolicyStore σ)

def write : Write → List Policy → Option TimeLimit → σ → Except StoreError Unit × σ
  | .create => S.create
  | .delete => S.delete

/-- Makes a call. -/
def answer : StoreRequest → σ → StoreAnswer StoreError × σ
  | .all, s => (S.all s).map .policies id
  | .write w ps limit, s => (S.write w ps limit s).map .done id
  | .byGuids sources destinations, s => (S.byGuids sources destinations s).map .policies id
  | .tags, s => (S.tags s).map .tags id
  | .check, s => (S.check s).map .done id

/-- Makes one call after the other. -/
def answers : List StoreRequest → σ → List (StoreAnswer StoreError) × σ
  | [], s => ([], s)
  | r :: rs, s =>
    let (a, s) := S.answer r s
    let (rest, s) := answers rs s
    (a :: rest, s)

variable {S : PolicyStore σ}

/-- What every single call keeps holds after a sequence of calls. -/
theorem answers_induction {P : σ → Prop} (keeps : ∀ r s, P s → P (S.answer r s).2)
    (rs : List StoreRequest) {s : σ} (h : P s) : P (S.answers rs s).2 := by
  induction rs generalizing s with
  | nil => exact h
  | cons r rs ih => exact ih (keeps r s h)

end PolicyStore
end NetworkPolicy
