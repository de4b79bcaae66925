import NetworkPolicy.Client.Directory
import NetworkPolicy.Json.Value
import NetworkPolicy.Policy.Validation
import NetworkPolicy.Proofs.Lists
import NetworkPolicy.Proofs.Url.Form

/-! Which applications a lookup asks the directory about. Their names are joined with commas, and the
directory parts them there: it is asked about other applications when a name itself has a comma. -/
namespace NetworkPolicy.Client.Directory

variable {d : Directory} {guids : List String} {u : Url}

/-- The applications that a URL asks the directory about. -/
def asked (u : Url) : Option (List String) :=
  (u.queryPairs.find? (·.1 == "guids")).map fun p => commaParts p.2

theorem listingUrl_eq_ok {name : String} {pairs : List (String × String)} :
    d.listingUrl name pairs = .ok u ↔ ∃ target, d.base.resolve ["v3", name] = .ok target ∧
      target.withQuery (pairs ++ [("per_page", toString perPage)]) = u := by
  unfold listingUrl
  cases d.base.resolve ["v3", name] <;> simp

/-- What a URL's query is made from is read from it. -/
theorem queryPairs_withQuery (u : Url) (pairs : List (String × String)) :
    (u.withQuery pairs).queryPairs = pairs :=
  Form.parse_render pairs

theorem exists_appsUrl : (∃ u, d.appsUrl guids = .ok u) ↔ ∃ names, d.base.path = .segments names := by
  unfold appsUrl listingUrl Url.resolve
  cases d.base.path <;> simp

/-- The directory is asked about the parts of the names. -/
theorem asked_appsUrl (hsome : guids ≠ []) (h : d.appsUrl guids = .ok u) :
    asked u = some (guids.flatMap commaParts) := by
  obtain ⟨target, -, rfl⟩ := listingUrl_eq_ok.mp h
  rw [asked, queryPairs_withQuery, List.cons_append, List.find?_cons_of_pos (by rfl), Option.map_some,
    commaParts_intercalate hsome]

/-- There is one application more for each comma. -/
theorem length_flatMap_commaParts (guids : List String) : (guids.flatMap commaParts).length =
    guids.length + (guids.flatMap String.toList).count ',' := by
  induction guids with
  | nil => rfl
  | cons g guids ih =>
    rw [List.flatMap_cons, List.length_append, length_commaParts, ih, List.length_cons,
      List.flatMap_cons, List.count_append]
    omega

theorem count_eq_zero_iff :
    (guids.flatMap String.toList).count ',' = 0 ↔ ∀ g ∈ guids, ',' ∉ g.toList := by
  rw [List.count_eq_zero, List.mem_flatMap]
  exact ⟨fun h g hg hmem => h ⟨g, hg, hmem⟩, fun h ⟨g, hg, hmem⟩ => h g hg hmem⟩

/-- A lookup has a URL unless the directory's own is no more than a text. It asks about as many
applications as there are names and commas in them. So it asks about just those that it is to ask
about, and about no more than that, if and only if no name has a comma. -/
theorem appsUrl_asks (d : Directory) (hsome : guids ≠ []) :
    ((∃ u, d.appsUrl guids = .ok u) ↔ ∃ names, d.base.path = .segments names) ∧
      ∀ u, d.appsUrl guids = .ok u → ∃ apps, asked u = some apps ∧
        apps.length = guids.length + (guids.flatMap String.toList).count ',' ∧
        (apps = guids ↔ ∀ g ∈ guids, ',' ∉ g.toList) ∧
        (apps.length ≤ guids.length ↔ ∀ g ∈ guids, ',' ∉ g.toList) := by
  refine ⟨exists_appsUrl, fun u hu => ⟨_, asked_appsUrl hsome hu, ?_⟩⟩
  have hlength := length_flatMap_commaParts guids
  have hfew : (guids.flatMap commaParts).length ≤ guids.length ↔ ∀ g ∈ guids, ',' ∉ g.toList := by
    rw [hlength, ← count_eq_zero_iff]
    omega
  refine ⟨hlength, ⟨fun h => hfew.mp (by rw [h]), fun h => ?_⟩, hfew⟩
  rw [← commaParts_intercalate hsome, commaParts_names hsome h]

/-- A directory. -/
def usual : Directory :=
  ⟨{ scheme := "https".toList, authority := some { host := .domain "cc".toList },
     path := .segments [[]] }⟩

/-- Names with characters that mean something in a query are asked about as they are. -/
theorem appsUrl_asks_odd_names : ["a b&guids=é", "%2C"] ≠ [] ∧
    ∃ u, usual.appsUrl ["a b&guids=é", "%2C"] = .ok u ∧ asked u = some ["a b&guids=é", "%2C"] := by
  have hsome : ["a b&guids=é", "%2C"] ≠ [] := List.cons_ne_nil _ _
  obtain ⟨hexists, hasks⟩ := appsUrl_asks usual hsome
  obtain ⟨u, hu⟩ := hexists.mpr ⟨_, rfl⟩
  obtain ⟨apps, hasked, -, hall, -⟩ := hasks u hu
  exact ⟨hsome, u, hu, hasked.trans (congrArg some (hall.mpr (by decide)))⟩

/-- What a directory answers in which just these applications exist, none of them in a space. -/
def page (apps : List String) : Answer where
  status := 200
  body := Percent.bytes (Json.object [("resources", .list (apps.map fun g =>
    .object [("guid", .text g), ("relationships", .object [("space", .object [])])]))]).render.toList

/-- A policy with a comma in a name is valid, and a lookup of that one application asks about two
others. Where they exist, they are what it finds. -/
theorem comma_asks_others :
    let p : Policy := ⟨⟨"a,b", ""⟩, ⟨"a,b", "", "tcp", ⟨80, 80⟩⟩⟩
    let send : Transport Unit := fun call _ =>
      (.ok (page (if asked call.url = some ["a", "b"] then ["a", "b"] else [])), ())
    Policy.validate [p] = .ok () ∧ Policy.validateSingle [p] = .ok () ∧
      namedApps [p] = ["a,b"] ∧ batches 1 ["a,b"] = [["a,b"]] ∧
      (∃ u, usual.appsUrl ["a,b"] = .ok u ∧ asked u = some ["a", "b"]) ∧
      ((usual.liveApps send "t" ["a,b"]).outcome ()).1 = .ok ["a", "b"] := by
  intro p send
  have hnames : batches 1 ["a,b"] = [["a,b"]] := by simp [batches]
  have hasked : ∃ u, usual.appsUrl ["a,b"] = .ok u ∧ asked u = some ["a", "b"] :=
    ⟨_, rfl, by decide +kernel⟩
  have hlive : ((usual.liveApps send "t" ["a,b"]).outcome ()).1 = .ok ["a", "b"] := by
    decide +kernel
  exact ⟨by decide, by decide, by decide, hnames, hasked, hlive⟩

end NetworkPolicy.Client.Directory
