/-! HTTP requests and responses. -/

namespace NetworkPolicy.Http

structure Request where
  method : String := "GET"
  /-- The path as it came, encoded. -/
  path : List UInt8 := []
  query : Option (List UInt8) := none
  /-- Names in small letters, values as bytes, in their order. -/
  headers : List (String × List UInt8) := []
  body : ByteArray := .empty

/-- The request for a target: its path, and the query after a question mark. What follows a hash
counts for nothing. -/
def Request.ofTarget (method : String) (target : List UInt8) : Request :=
  let target := target.takeWhile (· != 0x23)
  let path := target.takeWhile (· != 0x3F)
  let query := target.drop path.length
  { method := method, path := path, query := if query.isEmpty then none else some query.tail }

structure Response where
  status : Nat
  contentType : Option String := none
  body : String := ""
  /-- The methods that the path takes, where another was used. -/
  allow : Option String := none
  deriving DecidableEq, Repr

/-- The first header of a name, if it holds only visible characters, spaces and tabs. -/
def Request.header? (r : Request) (name : String) : Option String := do
  let value ← (r.headers.find? (·.1 == name)).map (·.2)
  if value.all fun b => b == 9 || (32 ≤ b && b < 127) then
    some (String.ofList (value.map fun b => Char.ofNat b.toNat))
  else none

end NetworkPolicy.Http
