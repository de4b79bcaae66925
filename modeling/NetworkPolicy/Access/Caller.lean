import NetworkPolicy.Json.Read

/-! Callers, as a token tells who they are and what they may do. -/

namespace NetworkPolicy

structure Caller where
  scopes : List String := []
  userId : String := ""
  userName : String := ""
  deriving DecidableEq, Repr

namespace Caller

/-- The scope of those who may see and write every policy. -/
def adminScope : String := "network.admin"

/-- The scope of those who may write policies for their own applications. -/
def writeScope : String := "network.write"

def hasScope (c : Caller) (scope : String) : Bool := c.scopes.contains scope

def isAdmin (c : Caller) : Bool := c.hasScope adminScope

open Json.Reader in
/-- Reads what a token tells; what it leaves out is empty. -/
def reader : Json.Reader Caller := record "TokenData" [
  field "scope" (list text) (fun v c => { c with scopes := v }) false,
  field "user_id" text (fun v c => { c with userId := v }) false,
  field "user_name" text (fun v c => { c with userName := v }) false] {}

end Caller
end NetworkPolicy
