import JobBoard.Proofs.Backend.Links
import JobBoard.Proofs.Url.Added

/-!
# Endpoints below the base URL

Each endpoint has the scheme and the authority of the configured URL, and its path continues the
path of that URL, as long as the slash that is added to the text closes the path. A slash behind a
query or a fragment does not: there the last segment of the path gives way to the endpoint.
-/
namespace JobBoard.Backend.BaseUrl

variable {b : BaseUrl} {raw : String} {idna : Url.Idna}

/-- A place below a URL: behind the path of the URL, with a slash between the two. -/
structure LiesBelow (u o : Url) (place : String) : Prop where
  scheme : u.scheme = o.scheme
  authority : u.authority = o.authority
  path : u.path.text = closed o.path.text ++ place.toList

/-- The path of a base URL that was read from a text is closed. Without query and fragment the slash
at the end of the text closes it, unless it stands behind a control or behind a backslash that is
read as a slash. With them the last segment has to be empty already. -/
structure PathClosed (b : BaseUrl) (cs : List Char) : Prop where
  unmarked : Url.Unmarked cs → ∀ c, cs.getLast? = some c →
    0x20 < c.toNat ∧ (c = '\\' → Url.kindOf b.url.scheme = .general)
  marked : ¬Url.Unmarked cs → b.url.path.Ended

section Place

theorem slashApart_closed (cs : List Char) : Url.SlashApart cs (closed cs) := by
  unfold closed
  split
  · exact Or.inl rfl
  next h => exact Or.inr ⟨h, rfl⟩

theorem closed_append (cs : List Char) : closed (cs ++ ['/']) = cs ++ ['/'] :=
  if_pos List.getLast?_concat

theorem closed_eq_of_slashApart {cs cs' : List Char} (h : Url.SlashApart cs cs') :
    closed cs' = closed cs := by
  rcases h with rfl | ⟨hlast, rfl⟩
  · rfl
  · rw [closed_append, closed, if_neg hlast]

theorem segmentsText_place {place : List Url.Segment} (hplace : place ≠ []) :
    Url.segmentsText place = '/' :: ['/'].intercalate place := by
  cases place with
  | nil => exact absurd rfl hplace
  | cons first place =>
    rw [Lists.intercalate_cons, Url.segmentsText, List.flatMap_cons, List.cons_append]

theorem segmentsText_placeIn {kind : Url.Kind} {directory place : List Url.Segment}
    (hlast : ∀ s, directory.getLast? = some s → s = []) (hplace : place ≠ []) :
    Url.segmentsText (Url.placeIn kind directory place) =
      closed (Url.segmentsText directory) ++ ['/'].intercalate place := by
  rcases List.eq_nil_or_concat directory with rfl | ⟨front, s, rfl⟩
  · exact segmentsText_place hplace
  rw [List.concat_eq_append] at hlast ⊢
  obtain rfl := hlast s List.getLast?_concat
  have hplaceIn : Url.placeIn kind (front ++ [[]]) place = front ++ place := by
    unfold Url.placeIn
    rw [List.getLast?_concat, List.dropLast_concat]
    split
    next heq =>
      cases heq
      rw [if_neg (by simp [Url.isDrive])]
    next => rfl
  have happend : Url.segmentsText (front ++ place) =
      Url.segmentsText front ++ Url.segmentsText place := List.flatMap_append
  rw [hplaceIn, happend, segmentsText_place hplace, Url.segmentsText_append_nil, closed_append,
    List.append_assoc, List.singleton_append]

theorem liesBelow_endpoint {o : Url} (hnear : Url.Near o b.url) (hended : b.url.path.Ended)
    {place : List String} (hplace : place ≠ []) {text : String}
    (htext : text.toList = ['/'].intercalate (place.map String.toList))
    (pairs : List (String × String)) : LiesBelow (b.endpoint place pairs) o text := by
  have hplace : place.map String.toList ≠ [] := by simpa using hplace
  have hparts : (b.endpoint place pairs).scheme = b.url.scheme ∧
      (b.endpoint place pairs).authority = b.url.authority ∧
      (b.endpoint place pairs).path = .segments
        (Url.placeIn (Url.kindOf b.url.scheme) b.directory (place.map String.toList)) := by
    unfold endpoint Url.withQuery Url.below
    rw [b.path_eq]
    split <;> exact ⟨rfl, rfl, rfl⟩
  obtain ⟨hscheme, hauthority, hpath⟩ := hparts
  refine ⟨hscheme.trans hnear.scheme.symm, hauthority.trans hnear.authority.symm, ?_⟩
  rw [hpath, Url.Path.text, segmentsText_placeIn (hended b.directory b.path_eq) hplace, htext,
    ← closed_eq_of_slashApart hnear.path, b.path_eq, Url.Path.text]

end Place

section Closing

variable {cs : List Char}

theorem unmarked_keptBefore (h : Url.Unmarked cs) : Url.Unmarked (Url.keptBefore cs) := by
  intro c hc
  exact h c ((List.dropWhile_sublist _).subset (List.mem_of_mem_filter hc))

theorem exists_mark (h : ¬Url.Unmarked cs) :
    ∃ front mark rest, (mark = '?' ∨ mark = '#') ∧ cs = front ++ mark :: rest := by
  obtain ⟨mark, hmem, hmark⟩ : ∃ c ∈ cs, ¬(c ≠ '?' ∧ c ≠ '#') := by
    simpa only [Url.Unmarked, not_forall, exists_prop] using h
  obtain ⟨front, rest, hcs⟩ := List.append_of_mem hmem
  refine ⟨front, mark, rest, ?_, hcs⟩
  by_contra hne
  exact hmark (not_or.mp hne)

theorem follows_closed_of_marked (h : ¬Url.Unmarked cs) :
    Url.Follows (Url.parseChars idna cs) (Url.parseChars idna (closed cs)) Url.Near := by
  obtain ⟨front, mark, rest, hmark, rfl⟩ := exists_mark h
  have hclosed : ∃ rest', closed (front ++ mark :: rest) = front ++ mark :: rest' := by
    rcases slashApart_closed (front ++ mark :: rest) with heq | ⟨-, heq⟩
    · exact ⟨rest, heq⟩
    · exact ⟨rest ++ ['/'], by rw [heq, List.append_assoc, List.cons_append]⟩
  obtain ⟨rest', hrest'⟩ := hclosed
  have hcounts : 0x20 < mark.toNat := by
    rcases hmark with rfl | rfl <;> decide
  have htails (kind : Url.Kind) : Url.Tails kind (Url.keptBefore front)
      (mark :: Url.keptAfter rest) (mark :: Url.keptAfter rest') := .marked hmark _ _
  rw [hrest']
  exact Url.follows_parseChars (Url.cleaned_append hcounts front rest)
    (Url.cleaned_append hcounts front rest') (htails .general).stops.1 (htails .general).stops.2.1
    fun scheme _ _ => htails (Url.kindOf scheme)

theorem cleaned_append_slash (cs : List Char) :
    Url.cleaned (cs ++ ['/']) = Url.keptBefore cs ++ ['/'] :=
  Url.cleaned_append (by decide) cs []

theorem follows_closed_of_unmarked (h : Url.Unmarked cs) (hslash : cs.getLast? ≠ some '/')
    (hlast : ∀ c, cs.getLast? = some c → 0x20 < c.toNat)
    (hback : ∀ scheme rest, Url.readScheme (Url.keptBefore cs) = some (scheme, rest) →
      cs.getLast? = some '\\' → Url.kindOf scheme = .general) :
    Url.Follows (Url.parseChars idna cs) (Url.parseChars idna (closed cs)) Url.Near := by
  have hcleaned : Url.cleaned cs = Url.keptBefore cs ++ [] ∧
      (Url.keptBefore cs).getLast? = cs.getLast? := by
    rcases List.eq_nil_or_concat cs with rfl | ⟨front, c, rfl⟩
    · exact ⟨rfl, rfl⟩
    · rw [List.concat_eq_append] at hlast ⊢
      have hcounts := hlast c List.getLast?_concat
      rw [Url.cleaned_append hcounts, Url.keptBefore_append_singleton hcounts, List.getLast?_concat,
        List.getLast?_concat, List.append_nil]
      exact ⟨rfl, rfl⟩
  have hopen : ∀ scheme rest, Url.readScheme (Url.keptBefore cs) = some (scheme, rest) →
      Url.Open (Url.kindOf scheme) (Url.keptBefore cs) := by
    intro scheme rest hscheme c hc
    rw [hcleaned.2] at hc
    refine ⟨fun heq => hslash (heq ▸ hc), ?_⟩
    rintro hspecial rfl
    rw [hback scheme rest hscheme hc] at hspecial
    exact absurd hspecial (by decide)
  rw [closed, if_neg hslash]
  exact Url.follows_parseChars hcleaned.1 (cleaned_append_slash cs) Url.stops_nil Url.stops_slash
    fun scheme rest hscheme => .slash (unmarked_keptBefore h) (hopen scheme rest hscheme)

theorem ended_of_unmarked (h : Url.Unmarked cs) :
    Url.Yields (Url.parseChars idna (closed cs)) (·.path.Ended) := by
  have hclosed : ∃ front, closed cs = front ++ ['/'] ∧ Url.Unmarked front := by
    unfold closed
    split
    next hslash =>
      obtain ⟨front, rfl⟩ := List.getLast?_eq_some_iff.mp hslash
      exact ⟨front, rfl, (Url.unmarked_append.mp h).1⟩
    next => exact ⟨cs, rfl, h⟩
  obtain ⟨front, hfront, hunmarked⟩ := hclosed
  refine Url.ended_parseChars ?_
  rw [hfront, cleaned_append_slash]
  refine ⟨Url.unmarked_append.mpr ⟨unmarked_keptBefore hunmarked, by decide⟩, ?_⟩
  intro c hc
  rw [List.getLast?_concat] at hc
  exact (Option.some.inj hc).symm

end Closing

/-- If the path is closed, the base URL is the one that the text spells on its own, up to one slash
at the end of the path. -/
theorem near_of_parse (hbase : parse raw idna = .ok b)
    (hclosed : b.PathClosed (Text.trimmed raw.toList)) :
    b.url.path.Ended ∧
      ∃ o, Url.parseChars idna (Text.trimmed raw.toList) = .ok o ∧ Url.Near o b.url := by
  have hurl := parseChars_of_parse hbase
  generalize Text.trimmed raw.toList = cs at hurl hclosed
  by_cases hmarks : Url.Unmarked cs
  · refine ⟨ended_of_unmarked hmarks b.url hurl, ?_⟩
    by_cases hslash : cs.getLast? = some '/'
    · rw [closed, if_pos hslash] at hurl
      exact ⟨b.url, hurl, Url.Near.refl b.url⟩
    · refine follows_closed_of_unmarked hmarks hslash ?_ ?_ b.url hurl
      · intro c hc
        exact (hclosed.unmarked hmarks c hc).1
      · intro scheme rest hscheme hc
        have hadded : Url.readScheme (Url.cleaned (closed cs)) = some (scheme, rest ++ ['/']) := by
          rw [closed, if_neg hslash, cleaned_append_slash, Url.readScheme_append Url.stops_slash,
            hscheme, Option.map_some]
        have heq : b.url.scheme = scheme := Url.scheme_parseChars hadded b.url hurl
        exact heq ▸ (hclosed.unmarked hmarks '\\' hc).2 rfl
  · exact ⟨hclosed.marked hmarks, follows_closed_of_marked hmarks b.url hurl⟩

/-- If the path is closed, all endpoints lie below the URL that the text spells on its own, whatever
mapping of international domain names reads it. -/
theorem endpoints_lie_below (hbase : parse raw idna = .ok b)
    (hclosed : b.PathClosed (Text.trimmed raw.toList)) :
    ∃ o, Url.parseChars idna (Text.trimmed raw.toList) = .ok o ∧
      LiesBelow b.jobs o "api/v1/renovatejobs" ∧
      (∀ job, LiesBelow (b.discoveryStatus job) o "api/v1/discovery/status") ∧
      LiesBelow b.discoveryStart o "api/v1/discovery/start" ∧
      LiesBelow b.renovate o "api/v1/renovate" ∧
      (∀ job project, LiesBelow (b.logs job project) o "api/v1/logs") ∧
      LiesBelow b.health o "health" := by
  obtain ⟨hended, o, ho, hnear⟩ := near_of_parse hbase hclosed
  have hbelow {place : List String} (hplace : place ≠ []) {text : String}
      (htext : text.toList = ['/'].intercalate (place.map String.toList))
      (pairs : List (String × String)) : LiesBelow (b.endpoint place pairs) o text :=
    liesBelow_endpoint hnear hended hplace htext pairs
  exact ⟨o, ho, hbelow (by simp) (by rfl) _, fun job => hbelow (by simp) (by rfl) _,
    hbelow (by simp) (by rfl) _, hbelow (by simp) (by rfl) _,
    fun job project => hbelow (by simp) (by rfl) _, hbelow (by simp) (by rfl) _⟩

/-- A base URL with credentials, an international name, a port and a path. -/
def teamBase : BaseUrl :=
  ⟨⟨"https".toList,
    some {
      username := "ops".toList, host := some (.domain "xn--bcher-kva.example".toList),
      port := some 81 },
    .segments ["team".toList, []], none, none⟩, ["team".toList, []], rfl⟩

theorem team_endpoints_lie_below :
    parse " https://ops@b%C3%BCcher.example:81/team" bookshopNames = .ok teamBase ∧
      teamBase.jobs.text =
        "https://ops@xn--bcher-kva.example:81/team/api/v1/renovatejobs" ∧
      ∃ o, Url.parseChars bookshopNames
          (Text.trimmed " https://ops@b%C3%BCcher.example:81/team".toList) = .ok o ∧
        LiesBelow teamBase.jobs o "api/v1/renovatejobs" := by
  have hbase : parse " https://ops@b%C3%BCcher.example:81/team" bookshopNames = .ok teamBase := by
    decide +kernel
  have htext : Text.trimmed " https://ops@b%C3%BCcher.example:81/team".toList =
      "https://ops@b%C3%BCcher.example:81/team".toList := by decide +kernel
  have hclosed : teamBase.PathClosed
      (Text.trimmed " https://ops@b%C3%BCcher.example:81/team".toList) := by
    rw [htext]
    refine ⟨?_, fun hmarks => absurd (by decide) hmarks⟩
    rintro - _ ⟨⟩
    decide
  obtain ⟨o, ho, hjobs, -⟩ := endpoints_lie_below hbase hclosed
  exact ⟨hbase, by decide +kernel, o, ho, hjobs⟩

/-- A base URL whose query took the slash that was meant for its path. -/
def queriedBase : BaseUrl :=
  ⟨⟨"http".toList, some { host := some (.domain "example.com".toList) },
    .segments ["dashboard".toList], some "x=1/".toList, none⟩, ["dashboard".toList], rfl⟩

theorem query_takes_slash :
    parse "http://example.com/dashboard?x=1" = .ok queriedBase ∧
      (queriedBase.logs ⟨"renovate", "ops"⟩ "group/api").text =
        "http://example.com/api/v1/logs?renovate=renovate&namespace=ops&project=group%2Fapi" ∧
      ∃ o, Url.parseChars .absent
          (Text.trimmed "http://example.com/dashboard?x=1".toList) = .ok o ∧
        o.path.text = "/dashboard".toList ∧
        ¬LiesBelow (queriedBase.logs ⟨"renovate", "ops"⟩ "group/api") o "api/v1/logs" := by
  refine ⟨by decide +kernel, by decide +kernel, { queriedBase.url with query := some "x=1".toList },
    by decide +kernel, by decide +kernel, ?_⟩
  rintro ⟨-, -, hpath⟩
  revert hpath
  decide

end JobBoard.Backend.BaseUrl
