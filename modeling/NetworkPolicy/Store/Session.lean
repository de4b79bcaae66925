import NetworkPolicy.Store.Tables

/-! A session with a database server: statements, transactions, and what the server refuses. -/

namespace NetworkPolicy.Database

/-- One request of a session. -/
inductive Request where
  | start (text : String)
  | statement (text : String)
  | commit
  | rollback
  deriving DecidableEq, Repr

/-- The request as sent. -/
def Request.text : Request → String
  | start text => text
  | statement text => text
  | commit => "COMMIT"
  | rollback => "ROLLBACK"

/-- Why a server refuses a request. -/
structure Refusal where
  /-- The statement ran longer than it may. -/
  cancelled : Bool
  text : String
  deriving DecidableEq, Repr

/-- A server as one session sees it. -/
structure Server where
  /-- Committed tables. -/
  tables : Tables := {}
  /-- Tables of the open transaction. -/
  working : Option Tables := none
  /-- All requests so far, newest first. -/
  sent : List Request := []
  /-- Which request is refused beyond those that cannot be served; it sees all requests so far. -/
  refuses : List Request → Option Refusal := fun _ => none
  /-- A transaction ends also when its commit or its rollback is refused; nothing of it is kept. -/
  endsWhenRefused : Bool := false

namespace Server

/-- The tables as the session sees them. -/
def view (s : Server) : Tables := s.working.getD s.tables

/-- Changes the tables, in the open transaction if there is one. -/
def update (s : Server) (t : Tables) : Server :=
  if s.working.isSome then { s with working := some t } else { s with tables := t }

/-- Takes note of a request, and may refuse it. -/
def receive (s : Server) (r : Request) : Option Refusal × Server :=
  let s := { s with sent := r :: s.sent }
  (s.refuses s.sent, s)

/-- The server after the end of a transaction was refused. -/
def refuseEnd (s : Server) : Server :=
  if s.endsWhenRefused then { s with working := none } else s

/-- Gives up the open transaction, if that is not refused. -/
def rollback (s : Server) : Server :=
  match s.receive .rollback with
  | (some _, s) => s.refuseEnd
  | (none, s) => { s with working := none }

end Server

/-- A computation in a session that may fail with `ε`. -/
abbrev Session (ε α : Type) := ExceptT ε (StateM Server) α

namespace Session

variable {ε α β : Type}

/-- A computation from its effect on the server. -/
def mk (f : Server → Except ε α × Server) : Session ε α := ExceptT.mk f

/-- The outcome on a server. -/
def run (m : Session ε α) (s : Server) : Except ε α × Server := ExceptT.run m s

@[simp] theorem run_pure (a : α) (s : Server) : (pure a : Session ε α).run s = (.ok a, s) := rfl

@[simp] theorem run_throw (e : ε) (s : Server) :
    (throw e : Session ε α).run s = (.error e, s) := rfl

theorem run_bind (m : Session ε α) (f : α → Session ε β) (s : Server) :
    (m >>= f).run s = match m.run s with
      | (.ok a, s) => (f a).run s
      | (.error e, s) => (.error e, s) := by
  simp only [run, ExceptT.run, bind, ExceptT.bind, ExceptT.mk, StateT.bind, ExceptT.bindCont]
  cases m s with
  | mk r s => cases r <;> rfl

/-- Sends a request, then goes on with `next` unless it is refused. -/
def send (refused : Refusal → ε) (r : Request) (next : Server → Except ε α × Server) :
    Session ε α :=
  mk fun s =>
    match s.receive r with
    | (some why, s) => (.error (refused why), s)
    | (none, s) => next s

/-- Runs a statement: its effect on the tables, or why they do not admit it. -/
def execute (refused : Refusal → ε) (text : String)
    (effect : Tables → Except String (α × Tables)) : Session ε α :=
  send refused (.statement text) fun s =>
    match effect s.view with
    | .ok (a, t) => (.ok a, s.update t)
    | .error why => (.error (refused ⟨false, why⟩), s)

/-- Runs a statement that only reads. -/
def query (refused : Refusal → ε) (text : String) (read : Tables → Except String α) :
    Session ε α :=
  execute refused text fun t => (read t).map (·, t)

/-- Opens a transaction; there is no transaction in a transaction. -/
def start (refused : Refusal → ε) (text nested : String) : Session ε Unit :=
  send refused (.start text) fun s =>
    if s.working.isSome then (.error (refused ⟨false, nested⟩), s)
    else (.ok (), { s with working := some s.tables })

/-- Makes the open transaction's tables the committed ones. -/
def commit (refused : Refusal → ε) : Session ε Unit :=
  mk fun s =>
    match s.receive .commit with
    | (some why, s) => (.error (refused why), s.refuseEnd)
    | (none, s) => (.ok (), { s with tables := s.view, working := none })

/-- Gives up the open transaction when the computation fails. -/
def orRollback (m : Session ε α) : Session ε α :=
  mk fun s =>
    match m.run s with
    | (.ok a, s) => (.ok a, s)
    | (.error e, s) => (.error e, s.rollback)

end Session
end NetworkPolicy.Database
