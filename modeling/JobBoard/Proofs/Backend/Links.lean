import JobBoard.Backend.Exchange
import JobBoard.Proofs.Url.Front

/-!
# Links that name jobs

The link to the logs of a project and the question for the discovery status of a job name the job in
their query. Whatever the names hold and whatever the base URL is, the query is read back as exactly
these names. So links for different projects or jobs differ.
-/
namespace JobBoard.Backend

/-- What is known of a URL whose query is to carry named texts, and nothing else. -/
structure Carries (u : Url) (pairs : List (String × String)) : Prop where
  /-- The query stands in the text of the URL from the first question mark on. -/
  in_text : Url.queryIn u.text.toList = u.query
  /-- The same holds of what is sent. -/
  in_target : Url.queryIn (target u).toList = u.query
  bytes : u.query.map Url.formPairs =
    some (pairs.map fun p => (Text.Utf8.bytes p.1, Text.Utf8.bytes p.2))
  texts : u.query.map Url.formTexts = some pairs
  no_fragment : u.fragment = none ∧ '#' ∉ u.text.toList

section Query

variable {u : Url} {pairs : List (String × String)}

theorem carries_of_frontUnmarked (hu : Url.FrontUnmarked u) {list : List Url.Segment}
    (hpath : u.path = .segments list) (hquery : u.query = some (Url.formQuery pairs))
    (hfragment : u.fragment = none) : Carries u pairs := by
  have hfront := hu.front hpath
  have hmark : '#' ∉ Url.formQuery pairs := by
    intro h
    rcases Url.mem_formQuery h with h | h | h
    · exact absurd h (by decide)
    · exact absurd h (by decide)
    · exact h (by decide)
  have htext : u.text.toList = Url.front u ++ '?' :: Url.formQuery pairs := by
    rw [Url.text_eq, hquery, hfragment, Url.marked, Url.marked, List.append_nil]
  have htarget : (target u).toList = u.path.text ++ '?' :: Url.formQuery pairs := by
    rw [target, String.toList_ofList, hquery, Url.marked]
  have hsegments : Url.Unmarked u.path.text := by
    rw [hpath]
    exact Url.unmarked_segmentsText (hu.segments list hpath)
  refine ⟨?_, ?_, ?_, ?_, hfragment, ?_⟩
  · rw [htext, Url.queryIn_append hfront hmark, hquery]
  · rw [htarget, Url.queryIn_append hsegments hmark, hquery]
  · rw [hquery, Option.map_some, Url.formPairs_formQuery]
  · rw [hquery, Option.map_some, Url.formTexts_formQuery]
  · rw [htext, List.mem_append, List.mem_cons, not_or, not_or]
    exact ⟨fun h => (hfront _ h).2 rfl, by decide, hmark⟩

/-- The text of a URL tells what its query carries. -/
theorem Carries.inj {u' : Url} {pairs' : List (String × String)} (h : Carries u pairs)
    (h' : Carries u' pairs') (htext : u.text = u'.text) : pairs = pairs' := by
  have hquery : u.query = u'.query := by rw [← h.in_text, ← h'.in_text, htext]
  refine Option.some.inj ?_
  rw [← h.texts, ← h'.texts, hquery]

end Query

namespace BaseUrl

variable {b : BaseUrl} {raw : String} {idna : Url.Idna}

theorem parseChars_of_parse (h : parse raw idna = .ok b) :
    Url.parseChars idna (closed (Text.trimmed raw.toList)) = .ok b.url := by
  unfold parse at h
  split at h
  · cases h
  next url hurl =>
    split at h
    · cases h
      exact hurl
    · cases h

theorem frontUnmarked_of_parse (h : parse raw idna = .ok b) :
    Url.FrontUnmarked b.url :=
  Url.yields_parseChars _ b.url (parseChars_of_parse h)

theorem endpoint_eq (b : BaseUrl) (place : List String) {pairs : List (String × String)}
    (hpairs : pairs ≠ []) :
    b.endpoint place pairs = { b.url with
      path := .segments
        (Url.placeIn (Url.kindOf b.url.scheme) b.directory (place.map String.toList))
      query := some (Url.formQuery pairs)
      fragment := none } := by
  have hpairs : ¬pairs.isEmpty = true := by simpa using hpairs
  rw [endpoint, Url.withQuery, if_neg hpairs, Url.below, b.path_eq]

/-- Below a base URL that was read a query carries its texts. -/
theorem carries_endpoint (hb : Url.FrontUnmarked b.url) {place : List String}
    (hplace : ∀ s ∈ place, Url.Unmarked s.toList) {pairs : List (String × String)}
    (hpairs : pairs ≠ []) : Carries (b.endpoint place pairs) pairs := by
  have hplace : ∀ s ∈ place.map String.toList, Url.Unmarked s := List.forall_mem_map.mpr hplace
  rw [endpoint_eq b place hpairs]
  refine carries_of_frontUnmarked ⟨hb.scheme, hb.authority, ?_⟩ rfl rfl rfl
  rintro _ ⟨⟩
  exact Url.unmarked_placeIn (hb.segments b.directory b.path_eq) hplace

end BaseUrl

/-- Below every base URL that can be read, whatever mapping of international domain names reads it,
the link to the logs of a project carries the names of its job and its own, the question for a
discovery status those of the job. -/
theorem links_carry_names {raw : String} {idna : Url.Idna} {c : Client}
    (hbase : BaseUrl.parse raw idna = .ok c.base) :
    (∀ (job : JobKey) (project : String), Carries (c.base.logs job project)
      [("renovate", job.name), ("namespace", job.ns), ("project", project)]) ∧
    (∀ (job : JobKey) (seq : Nat), ∃ u, c.url? (.fetchDiscoveryStatus job seq) = some u ∧
      Carries u [("renovate", job.name), ("namespace", job.ns)] ∧
      ∀ d r, c.request? (.fetchDiscoveryStatus job seq) d = some r → r.target = target u) ∧
    ∀ (job job' : JobKey) (project project' : String),
      (c.base.logs job project).text = (c.base.logs job' project').text →
        job = job' ∧ project = project' := by
  have hfront := BaseUrl.frontUnmarked_of_parse hbase
  have hlogs (job : JobKey) (project : String) : Carries (c.base.logs job project)
      [("renovate", job.name), ("namespace", job.ns), ("project", project)] :=
    BaseUrl.carries_endpoint hfront (by decide) (List.cons_ne_nil _ _)
  refine ⟨hlogs, ?_, ?_⟩
  · intro job seq
    refine ⟨c.base.discoveryStatus job, rfl, ?_, ?_⟩
    · exact BaseUrl.carries_endpoint hfront (by decide) (List.cons_ne_nil _ _)
    · intro d r hrequest
      unfold Client.request? at hrequest
      dsimp only [Client.url?] at hrequest
      split at hrequest
      · cases hrequest
        rfl
      · cases hrequest
  · rintro ⟨name, ns⟩ ⟨name', ns'⟩ project project' htext
    have hpairs := (hlogs ⟨name, ns⟩ project).inj (hlogs ⟨name', ns'⟩ project') htext
    simp only [List.cons.injEq, Prod.mk.injEq, true_and, and_true] at hpairs
    obtain ⟨rfl, rfl, rfl⟩ := hpairs
    exact ⟨rfl, rfl⟩

/-- Maps one name. -/
def bookshopNames : Url.Idna where
  toAscii? name :=
    if name == "bücher.example".toList then some "xn--bcher-kva.example".toList else none
  allowed := by
    intro name mapped h
    split at h
    · cases h
      decide
    · cases h

/-- A base URL with a query and a fragment, of which nothing is left in links. -/
def visitedBase : BaseUrl :=
  ⟨⟨"http".toList, some { host := some (.domain "xn--bcher-kva.example".toList) },
    .segments ["dashboard".toList], some "tab=1".toList, some "top/".toList⟩,
    ["dashboard".toList], rfl⟩

theorem visited_links_carry_names :
    BaseUrl.parse "http://bücher.example/dashboard?tab=1#top" bookshopNames = .ok visitedBase ∧
      (visitedBase.logs ⟨"my job", "ops&dev"⟩ "a+b=c%20é").text =
        "http://xn--bcher-kva.example/api/v1/logs?renovate=my+job&namespace=ops%26dev" ++
          "&project=a%2Bb%3Dc%2520%C3%A9" ∧
      Carries (visitedBase.logs ⟨"my job", "ops&dev"⟩ "a+b=c%20é")
        [("renovate", "my job"), ("namespace", "ops&dev"), ("project", "a+b=c%20é")] := by
  have hbase : BaseUrl.parse "http://bücher.example/dashboard?tab=1#top" bookshopNames =
      .ok visitedBase := by decide +kernel
  exact ⟨hbase, by decide +kernel, (links_carry_names (c := ⟨visitedBase, none⟩) hbase).1 _ _⟩

end JobBoard.Backend
