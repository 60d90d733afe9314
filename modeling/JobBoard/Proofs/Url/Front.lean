import JobBoard.Proofs.Url.Unmarked
import Mathlib.Data.List.TakeWhile

/-!
# What stands in front of a query

For every URL that was read and has segments, the first question mark in its text begins its query
and the first number sign its fragment, because no other part holds one of the two. In paths they
are escaped.
-/
namespace JobBoard.Url

section Paths

variable {path : List Segment}

/-- What a step preserves the walk preserves. -/
theorem walk_preserves {α : Type} {step : Bool → α → List Char → α} {p : α → Prop}
    (hstep : ∀ final a piece, p a → p (step final a piece)) {start : α} (hstart : p start)
    (list : List (List Char)) : p (walk step start list) := by
  induction list generalizing start with
  | nil => exact hstart
  | cons piece list ih =>
    cases list with
    | nil => exact hstep true start piece hstart
    | cons next list => exact ih (hstep false start piece hstart)

theorem unmarked_go (h : ∀ s ∈ path, Unmarked s) (final : Bool) (piece : List Char) :
    ∀ s ∈ go final path piece, Unmarked s := by
  have hup : ∀ s ∈ up path, Unmarked s := by
    unfold up
    split
    · exact h
    · intro s hs
      exact h s (List.dropLast_subset path hs)
  unfold go
  extract_lets ending
  have hending : ∀ s ∈ ending, Unmarked s := by
    unfold ending
    split
    · exact List.forall_mem_singleton.mpr unmarked_nil
    · rintro _ ⟨⟩
  split
  · exact List.forall_mem_append.mpr ⟨hup, hending⟩
  split
  · exact List.forall_mem_append.mpr ⟨h, hending⟩
  · exact List.forall_mem_append.mpr
      ⟨h, List.forall_mem_singleton.mpr (unmarked_escaped (by decide))⟩

theorem unmarked_readSegments (kind : Kind) (text : List Char) :
    ∀ s ∈ readSegments kind text, Unmarked s := by
  unfold readSegments
  split
  · rintro _ ⟨⟩
  · have hstart : ∀ s ∈ ([] : List Segment), Unmarked s := by rintro _ ⟨⟩
    exact walk_preserves (p := fun path => ∀ s ∈ path, Unmarked s)
      (fun final path piece h => unmarked_go h final piece) hstart _

theorem unmarked_drive {letter : Char} (h : letter.isAlpha = true) :
    Unmarked [letter, ':'] := by
  refine unmarked_cons.mpr ⟨ne_marks (p := Char.isAlpha) ?_, by decide⟩
  rw [h]
  decide

theorem FilePath.unmarked_go {p : FilePath} (h : ∀ s ∈ p.path, Unmarked s) (final : Bool)
    (piece : List Char) : ∀ s ∈ (p.go final piece).path, Unmarked s := by
  have hempty : ∀ s ∈ ([] : List Segment), Unmarked s := by rintro _ ⟨⟩
  unfold FilePath.go
  split
  next letter mark _ =>
    split
    next hdrive =>
      have hletter : letter.isAlpha = true := (Bool.and_eq_true _ _ ▸ hdrive).1
      exact List.forall_mem_singleton.mpr (unmarked_drive hletter)
    next => exact Url.unmarked_go hempty final _
  next letter rest _ _ =>
    split
    next hletter =>
      exact Url.unmarked_go (List.forall_mem_singleton.mpr (unmarked_drive hletter)) final _
    next => exact Url.unmarked_go hempty final _
  next => exact Url.unmarked_go h final _

theorem FilePath.unmarked_segments {p : FilePath} (h : ∀ s ∈ p.path, Unmarked s) :
    ∀ s ∈ p.segments, Unmarked s := by
  unfold FilePath.segments
  split
  · exact List.forall_mem_singleton.mpr unmarked_nil
  · intro s hs
    exact h s ((List.dropWhile_sublist _).subset hs)

theorem unmarked_readFilePath (text : List Char) :
    ∀ s ∈ (readFilePath text).segments, Unmarked s := by
  have hstart : ∀ s ∈ ({} : FilePath).path, Unmarked s := by rintro _ ⟨⟩
  refine FilePath.unmarked_segments ?_
  exact walk_preserves (p := fun p : FilePath => ∀ s ∈ p.path, Unmarked s)
    (fun final _ piece h => FilePath.unmarked_go h final piece) hstart _

theorem unmarked_placeIn {kind : Kind} {place : List Segment} (hpath : ∀ s ∈ path, Unmarked s)
    (hplace : ∀ s ∈ place, Unmarked s) : ∀ s ∈ placeIn kind path place, Unmarked s := by
  have hdir : ∀ s ∈ path.dropLast, Unmarked s := by
    intro s hs
    exact hpath s (List.dropLast_subset path hs)
  unfold placeIn
  split
  next last first rest hlast =>
    split
    · split
      · exact List.forall_mem_append.mpr ⟨hpath, hplace⟩
      · obtain ⟨hfirst, hrest⟩ := List.forall_mem_cons.mp hplace
        have hlast := hpath last (List.mem_of_getLast? hlast)
        exact List.forall_mem_append.mpr
          ⟨hdir, List.forall_mem_cons.mpr ⟨unmarked_append.mpr ⟨hlast, hfirst⟩, hrest⟩⟩
    · exact List.forall_mem_append.mpr ⟨hdir, hplace⟩
  next => exact List.forall_mem_append.mpr ⟨hdir, hplace⟩

end Paths

section Parsing

/-- The parts of a URL in front of its query are without marks, save that nothing is said of bare
paths. -/
structure FrontUnmarked (u : Url) : Prop where
  scheme : Unmarked u.scheme
  authority : ∀ a, u.authority = some a → a.Unmarked
  segments : ∀ list, u.path = .segments list → ∀ s ∈ list, Unmarked s

variable {idna : Idna} {scheme : List Char}

theorem unmarked_readScheme {cs rest : List Char} (h : readScheme cs = some (scheme, rest)) :
    Unmarked scheme := by
  unfold readScheme at h
  split at h
  · split at h
    · cases h
      intro _ hmem
      obtain ⟨c, hc, rfl⟩ := List.mem_map.mp hmem
      have hscheme : isSchemeChar c = true := List.mem_takeWhile_imp hc
      refine toLower_unmarked (ne_marks (p := isSchemeChar) ?_)
      rw [hscheme]
      decide
    · cases h
  · cases h

theorem frontUnmarked_assemble {authority : Option Authority} {path : Path}
    (hscheme : Unmarked scheme) (hauthority : ∀ a, authority = some a → a.Unmarked)
    (hpath : ∀ list, path = .segments list → ∀ s ∈ list, Unmarked s) (ending : List Char) :
    FrontUnmarked (assemble scheme authority path ending) :=
  ⟨hscheme, hauthority, hpath⟩

theorem yields_readPlace (hscheme : Unmarked scheme) (cs : List Char) :
    Yields (readPlace idna scheme cs) FrontUnmarked := by
  unfold readPlace
  extract_lets kind
  refine (yields_readAuthority kind scheme cs).bind ?_
  intro a ha
  refine yields_ok (frontUnmarked_assemble hscheme ?_ ?_ _)
  · rintro _ ⟨⟩
    exact ha
  · rintro _ ⟨⟩
    exact unmarked_readSegments kind _

theorem yields_readFileHost (cs : List Char) :
    Yields (readFileHost idna cs) fun r => ∀ host, r.1 = some host → Unmarked host.text := by
  unfold readFileHost
  extract_lets hostText rest
  split
  · refine yields_ok ?_
    rintro _ ⟨⟩
  split
  · refine yields_ok ?_
    rintro _ ⟨⟩
  refine (yields_readHost hostText).bind ?_
  intro host hhost
  refine yields_ok ?_
  intro host' hsome
  split at hsome
  · cases hsome
  · cases hsome
    exact hhost

theorem yields_readFile (hscheme : Unmarked scheme) (cs : List Char) :
    Yields (readFile idna scheme cs) FrontUnmarked := by
  unfold readFile
  extract_lets slash rest
  have hrest (r : Option Host × List Char) (hhost : ∀ host, r.1 = some host → Unmarked host.text) :
      Yields (rest r) FrontUnmarked := by
    unfold rest
    refine yields_ok (frontUnmarked_assemble hscheme ?_ ?_ _)
    · rintro _ ⟨⟩
      refine ⟨unmarked_nil, ?_, ?_⟩
      · rintro _ ⟨⟩
      · intro host hsome
        dsimp only at hsome
        split at hsome
        · cases hsome
        · exact hhost host hsome
    · rintro _ ⟨⟩
      exact unmarked_readFilePath _
  split
  · exact (yields_readFileHost _).bind hrest
  · refine hrest (none, cs) ?_
    rintro _ ⟨⟩

theorem yields_readGeneral (hscheme : Unmarked scheme) (cs : List Char) :
    Yields (readGeneral idna scheme cs) FrontUnmarked := by
  have hnone : ∀ a, (none : Option Authority) = some a → a.Unmarked := by
    rintro _ ⟨⟩
  unfold readGeneral
  split
  · exact yields_readPlace hscheme _
  · dsimp only
    split
    · refine yields_ok (frontUnmarked_assemble hscheme hnone ?_ _)
      rintro _ ⟨⟩
      exact unmarked_readSegments .general _
    · refine yields_ok (frontUnmarked_assemble hscheme hnone ?_ _)
      rintro _ ⟨⟩

/-- Whatever text a URL is read from. -/
theorem yields_parseChars (cs : List Char) : Yields (parseChars idna cs) FrontUnmarked := by
  unfold parseChars
  split
  · exact yields_error
  next hscheme =>
    have hscheme := unmarked_readScheme hscheme
    split
    · exact yields_readPlace hscheme _
    · exact yields_readFile hscheme _
    · exact yields_readGeneral hscheme _

end Parsing

section Texts

/-- The text of a URL up to its query. -/
def front (u : Url) : List Char :=
  let authority := match u.authority with
    | some a => a.text
    | none => []
  u.scheme ++ ':' :: authority ++ pathGuard u.authority u.path ++ u.path.text

theorem text_eq (u : Url) :
    u.text.toList = front u ++ (marked '?' u.query ++ marked '#' u.fragment) := by
  rw [text, String.toList_ofList, chars, List.append_assoc]
  rfl

theorem unmarked_segmentsText {list : List Segment} (h : ∀ s ∈ list, Unmarked s) :
    Unmarked (segmentsText list) := by
  refine unmarked_flatMap ?_
  intro s hs
  exact unmarked_cons.mpr ⟨by decide, h s hs⟩

theorem FrontUnmarked.front {u : Url} (h : FrontUnmarked u) {list : List Segment}
    (hpath : u.path = .segments list) : Unmarked (front u) := by
  have hguard : Unmarked (pathGuard u.authority u.path) := by
    unfold pathGuard
    split <;> decide
  have hsegments : Unmarked u.path.text := by
    rw [hpath]
    exact unmarked_segmentsText (h.segments list hpath)
  unfold Url.front
  extract_lets authority
  have hauthority : Unmarked authority := by
    unfold authority
    split
    next a ha => exact (h.authority a ha).text
    next => exact unmarked_nil
  rw [unmarked_append, unmarked_append, unmarked_append, unmarked_cons]
  exact ⟨⟨⟨h.scheme, by decide, hauthority⟩, hguard⟩, hsegments⟩

/-- The query in the text of a URL: it begins at the first question mark and ends at the first
number sign. -/
def queryIn (text : List Char) : Option (List Char) :=
  match (text.takeWhile (· ≠ '#')).dropWhile (· ≠ '?') with
  | [] => none
  | _ :: query => some query

theorem queryIn_append {cs query : List Char} (hcs : Unmarked cs) (hquery : '#' ∉ query) :
    queryIn (cs ++ '?' :: query) = some query := by
  have hwhole : (cs ++ '?' :: query).takeWhile (· ≠ '#') = cs ++ '?' :: query := by
    rw [List.takeWhile_eq_self_iff]
    intro c hc
    refine decide_eq_true ?_
    rintro rfl
    rcases List.mem_append.mp hc with hc | hc
    · exact (hcs _ hc).2 rfl
    rcases List.mem_cons.mp hc with hc | hc
    · exact absurd hc (by decide)
    · exact hquery hc
  have hfront : ∀ c ∈ cs, decide (c ≠ '?') = true := by
    intro c hc
    exact decide_eq_true (hcs c hc).1
  rw [queryIn, hwhole, List.dropWhile_append_of_pos hfront, List.dropWhile_cons_of_neg (by simp)]

end Texts

end JobBoard.Url
