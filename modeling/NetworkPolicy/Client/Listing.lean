import NetworkPolicy.Client.Call

/-! Listings of a directory, which come in pages. -/

namespace NetworkPolicy.Client

/-- A page of a listing. -/
structure Page (α : Type) where
  /-- The link to the next page. -/
  next : Option String := none
  resources : List α := []
  deriving DecidableEq, Repr

open Json.Reader in
def Page.reader {α : Type} (resource : Json.Reader α) : Json.Reader (Page α) :=
  let link := record "Link" [field "href" text fun v _ => v] ""
  let next := record "Pagination" [optionalField "next" link fun v _ => v] none
  record "Page" [
    field "pagination" next (fun v p => { p with next := v }) false,
    field "resources" (list resource) (fun v p => { p with resources := v }) false] {}

/-- The most pages that a listing may have. -/
def maxPages : Nat := 1000

/-- The resources of a page and of those that follow it, `limit` pages at most. -/
def collect {τ α : Type} (fetch : String → Inquiry τ (Page α)) (link : String) :
    Nat → Inquiry τ (List α)
  | 0 => throw (.invalidResponse s!"cc listing exceeded {maxPages} pages")
  | limit + 1 => do
    let page ← fetch link
    match page.next with
    | none => return page.resources
    | some next => return page.resources ++ (← collect fetch next limit)

variable {τ α : Type}

/-- The page that a link leads to. -/
def fetchPage (send : Transport τ) (token : String) (resource : Json.Reader α) (link : String) :
    Inquiry τ (Page α) := do
  let body ← exchange send "cc" (Call.to "GET" link.toList (bearer token))
  readBody "cc listing" (Page.reader resource) body

/-- All resources of the listing at a URL. -/
def fetchAll (send : Transport τ) (token : String) (resource : Json.Reader α) (url : Url) :
    Inquiry τ (List α) :=
  collect (fetchPage send token resource) (String.ofList url.render) maxPages

end NetworkPolicy.Client
