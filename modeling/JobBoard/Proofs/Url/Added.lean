import JobBoard.Proofs.Url.Slash
import Mathlib.Data.List.TakeWhile

/-!
# URLs of texts with a slash added

A slash behind a query or a fragment changes neither scheme nor authority nor path. A slash behind a
text without them stands at the end of its path, so it changes nothing else, as long as the path
ends where the text ends.
-/
namespace JobBoard.Url

/-- Two ends of a text with the same front: either both begin with the same mark, or there is no
mark and the second has a slash more. -/
inductive Tails (kind : Kind) (y : List Char) : List Char → List Char → Prop where
  | marked {mark : Char} (hmark : mark = '?' ∨ mark = '#') (r r' : List Char) :
    Tails kind y (mark :: r) (mark :: r')
  | slash (hy : Unmarked y) (hopen : Open kind y) : Tails kind y [] ['/']

/-- URLs with the same scheme and authority and with paths that differ at most in one slash. -/
structure Near (u u' : Url) : Prop where
  scheme : u.scheme = u'.scheme
  authority : u.authority = u'.authority
  path : SlashApart u.path.text u'.path.text

theorem Near.refl (u : Url) : Near u u :=
  ⟨rfl, rfl, Or.inl rfl⟩

section Tails

variable {kind : Kind} {scheme y z z' : List Char}

theorem Open.of_suffix {cs w : List Char} (h : Open kind cs) (hw : w <:+ cs) : Open kind w := by
  intro c hc
  exact h c (Lists.getLast?_of_suffix hw hc)

theorem Tails.of_suffix (h : Tails kind y z z') {w : List Char} (hw : w <:+ y) :
    Tails kind w z z' := by
  cases h with
  | marked hmark r r' => exact .marked hmark r r'
  | slash hy hopen => exact .slash (fun c hc => hy c (hw.subset hc)) (hopen.of_suffix hw)

theorem Tails.stops (h : Tails kind y z z') : Stops z ∧ Stops z' ∧ (z' = [] → z = []) := by
  cases h with
  | marked hmark r r' =>
    refine ⟨?_, ?_, fun hnil => absurd hnil (List.cons_ne_nil _ _)⟩
    · rintro _ ⟨⟩
      exact Or.inr hmark
    · rintro _ ⟨⟩
      exact Or.inr hmark
  | slash => exact ⟨stops_nil, stops_slash, fun _ => rfl⟩

theorem head_of_mark {p : Char → Bool} (hp : p '?' = false ∧ p '#' = false) {mark : Char}
    (hmark : mark = '?' ∨ mark = '#') (r : List Char) :
    ∀ c, (mark :: r).head? = some c → p c = false := by
  rintro _ ⟨⟩
  rcases hmark with rfl | rfl
  · exact hp.1
  · exact hp.2

/-- Path texts that are the same, or of which the second has a slash more. -/
def Grows (kind : Kind) (q q' : List Char) : Prop :=
  q' = q ∨ Open kind q ∧ q' = q ++ ['/']

theorem upTo_of_unmarked {cs : List Char} (h : Unmarked cs) : upTo ['?', '#'] cs = (cs, []) := by
  have hall : ∀ c ∈ cs, (!(['?', '#'].contains c)) = true := by
    intro c hc
    simp [(h c hc).1, (h c hc).2]
  rw [upTo, List.takeWhile_eq_self_iff.mpr hall, List.dropWhile_eq_nil_iff.mpr hall]

theorem Tails.grows (h : Tails kind y z z') :
    Grows kind (upTo ['?', '#'] (y ++ z)).1 (upTo ['?', '#'] (y ++ z')).1 := by
  cases h with
  | @marked mark hmark r r' =>
    have hstop : ∀ r c, (mark :: r).head? = some c → (!(['?', '#'].contains c)) = false :=
      head_of_mark (p := fun c => !(['?', '#'].contains c)) ⟨rfl, rfl⟩ hmark
    refine Or.inl ?_
    rw [upTo, upTo, (takeWhile_append_of_head (hstop r)).1, (takeWhile_append_of_head (hstop r')).1]
  | slash hy hopen =>
    have hadded : Unmarked (y ++ ['/']) := unmarked_append.mpr ⟨hy, by decide⟩
    refine Or.inr ?_
    rw [List.append_nil, upTo_of_unmarked hy, upTo_of_unmarked hadded]
    exact ⟨hopen, rfl⟩

theorem Grows.slashApart {q q' : List Char} (h : Grows kind q q') :
    SlashApart (segmentsText (readSegments kind q)) (segmentsText (readSegments kind q')) := by
  rcases h with rfl | ⟨hopen, rfl⟩
  · exact Or.inl rfl
  · exact (closes_readSegments hopen).slashApart

theorem Grows.filePath {q q' : List Char} (h : Grows .file q q') :
    (readFilePath q').drive = (readFilePath q).drive ∧
      SlashApart (segmentsText (readFilePath q).segments)
        (segmentsText (readFilePath q').segments) := by
  rcases h with rfl | ⟨hopen, rfl⟩
  · exact ⟨rfl, Or.inl rfl⟩
  · exact ⟨(closes_readFilePath hopen).1, (closes_readFilePath hopen).2.slashApart⟩

end Tails

section Readers

variable {idna : Idna} {scheme y z z' : List Char}

theorem follows_readPlace (h : Tails (kindOf scheme) y z z') :
    Follows (readPlace idna scheme (y ++ z)) (readPlace idna scheme (y ++ z')) Near := by
  obtain ⟨hz, hz', hne⟩ := h.stops
  unfold readPlace
  refine (follows_readAuthority idna (kindOf scheme) scheme hz hz' hne).bind ?_
  rintro ⟨authority, rest⟩ ⟨_, rest'⟩ ⟨rfl, w, hw, rfl, rfl⟩
  exact follows_ok ⟨rfl, rfl, (h.of_suffix hw).grows.slashApart⟩

theorem follows_readNetwork (hkind : kindOf scheme = .network) (h : Tails .network y z z') :
    Follows (readNetwork idna scheme (y ++ z)) (readNetwork idna scheme (y ++ z')) Near := by
  unfold readNetwork
  have hrest := h.of_suffix (List.dropWhile_suffix fun c => c = '/' || c = '\\')
  rw [← hkind] at hrest
  cases h with
  | @marked mark hmark r r' =>
    have hstop := head_of_mark (p := fun c => c = '/' || c = '\\') ⟨rfl, rfl⟩ hmark
    rw [(takeWhile_append_of_head (hstop r)).2, (takeWhile_append_of_head (hstop r')).2]
    exact follows_readPlace hrest
  | slash hy hopen =>
    rw [List.append_nil, List.dropWhile_append]
    split
    -- Slashes behind the colon do not count, so nothing may be left, not even the added one.
    next hempty =>
      rw [List.isEmpty_iff.mp hempty]
      exact fun u hu => ⟨u, hu, Near.refl u⟩
    next =>
      have hplace : Follows (readPlace idna scheme _) _ Near := follows_readPlace hrest
      rwa [List.append_nil] at hplace

def generalPath (q : List Char) : Path :=
  match q with
  | '/' :: _ => .segments (readSegments .general q)
  | _ => .bare (percentEncode controlSet q)

theorem readGeneral_eq {cs : List Char} (h : ∀ rest, cs ≠ '/' :: '/' :: rest) :
    readGeneral idna scheme cs = .ok (assemble scheme none (generalPath (upTo ['?', '#'] cs).1)
      (upTo ['?', '#'] cs).2) := by
  unfold readGeneral
  split
  next rest => exact absurd rfl (h rest)
  next =>
    dsimp only
    split
    next hpath =>
      rw [hpath]
      rfl
    next hpath =>
      unfold generalPath
      split
      next heq => exact absurd heq (hpath _)
      next => rfl

theorem Grows.generalPath {q q' : List Char} (h : Grows .general q q') :
    SlashApart (generalPath q).text (generalPath q').text := by
  rcases h with rfl | ⟨hopen, rfl⟩
  · exact Or.inl rfl
  cases q with
  | nil => exact Or.inr ⟨by decide, rfl⟩
  | cons c q =>
    by_cases hc : c = '/'
    · subst hc
      exact (closes_readSegments hopen).slashApart
    · have hbare (cs : List Char) :
          Url.generalPath (c :: cs) = .bare (percentEncode controlSet (c :: cs)) := by
        simp [Url.generalPath, hc]
      have hends := hopen.endsOpen (List.cons_ne_nil c q)
      rw [List.cons_append, hbare, hbare, ← List.cons_append]
      refine Or.inr ⟨(hends.percentEncode controlSet).getLast?_ne, ?_⟩
      exact List.flatMap_append

theorem Tails.ne_slashes (h : Tails .general y z z') (hy : ∀ rest, y ≠ '/' :: '/' :: rest) :
    (∀ rest, y ++ z ≠ '/' :: '/' :: rest) ∧ ∀ rest, y ++ z' ≠ '/' :: '/' :: rest := by
  -- Only a text of fewer than two characters could be completed to two slashes.
  have hmarks : ∀ mark, mark = '?' ∨ mark = '#' → mark ≠ '/' := by
    rintro _ (rfl | rfl) <;> decide
  match y, h with
  | [], .marked hmark r r' => simp [hmarks _ hmark]
  | [], .slash _ _ => simp
  | [c], .marked hmark r r' => simp [hmarks _ hmark]
  | [c], .slash _ hopen => simp [(hopen c rfl).1]
  | c :: d :: y, _ =>
    have hne : ¬(c = '/' ∧ d = '/') := by
      rintro ⟨rfl, rfl⟩
      exact hy y rfl
    simp only [List.cons_append, ne_eq, List.cons.injEq]
    exact ⟨fun rest heq => hne ⟨heq.1, heq.2.1⟩, fun rest heq => hne ⟨heq.1, heq.2.1⟩⟩

theorem follows_readGeneral (hkind : kindOf scheme = .general) (h : Tails .general y z z') :
    Follows (readGeneral idna scheme (y ++ z)) (readGeneral idna scheme (y ++ z')) Near := by
  by_cases hplace : ∃ rest, y = '/' :: '/' :: rest
  · obtain ⟨rest, rfl⟩ := hplace
    have hrest := h.of_suffix (List.suffix_append ['/', '/'] rest)
    rw [← hkind] at hrest
    exact follows_readPlace hrest
  · obtain ⟨hown, hadded⟩ := h.ne_slashes (not_exists.mp hplace)
    rw [readGeneral_eq hown, readGeneral_eq hadded]
    exact follows_ok ⟨rfl, rfl, h.grows.generalPath⟩

def beginsNetwork (cs : List Char) : Bool :=
  (cs.head?.any fun c => c = '/' || c = '\\') && cs.tail.head?.any fun c => c = '/' || c = '\\'

theorem Tails.beginsNetwork (h : Tails .file y z z') :
    (Url.beginsNetwork (y ++ z') = Url.beginsNetwork (y ++ z)) ∧
      (Url.beginsNetwork (y ++ z) = true → 2 ≤ y.length) := by
  match y, h with
  | [], .marked hmark r r' =>
    rcases hmark with rfl | rfl
    · exact ⟨rfl, by rintro ⟨⟩⟩
    · exact ⟨rfl, by rintro ⟨⟩⟩
  | [], .slash _ _ => exact ⟨rfl, by rintro ⟨⟩⟩
  | [c], .marked hmark r r' =>
    rcases hmark with rfl | rfl
    · simp [Url.beginsNetwork]
    · simp [Url.beginsNetwork]
  | [c], .slash _ hopen =>
    obtain ⟨hslash, hback⟩ := hopen c rfl
    simp [Url.beginsNetwork, hslash, hback rfl]
  | c :: d :: y, _ => exact ⟨rfl, fun _ => by simp⟩

theorem follows_readFile (h : Tails .file y z z') :
    Follows (readFile idna scheme (y ++ z)) (readFile idna scheme (y ++ z')) Near := by
  obtain ⟨hbegins, hlong⟩ := h.beginsNetwork
  obtain ⟨hz, hz', -⟩ := h.stops
  unfold readFile
  extract_lets slash rest
  have hrest (r r' : Option Host × List Char) (hleaves : Leaves y z z' r r') :
      Follows (rest r) (rest r') Near := by
    obtain ⟨host, left⟩ := r
    obtain ⟨_, left'⟩ := r'
    obtain ⟨rfl, w, hw, rfl, rfl⟩ := hleaves
    obtain ⟨hdrive, hpath⟩ := (h.of_suffix hw).grows.filePath
    refine follows_ok ⟨rfl, ?_, hpath⟩
    exact congrArg (fun drive => some ({ host := if drive = true then none else host } : Authority))
      hdrive.symm
  change Follows (if beginsNetwork (y ++ z) = true then _ else _)
    (if beginsNetwork (y ++ z') = true then _ else _) Near
  rw [hbegins]
  split
  next hnetwork =>
    rw [List.drop_append_of_le_length (hlong hnetwork),
      List.drop_append_of_le_length (hlong hnetwork)]
    refine (follows_readFileHost idna hz hz').bind ?_
    rintro r r' ⟨hhost, w, hw, hr, hr'⟩
    exact hrest r r' ⟨hhost, w, hw.trans (List.drop_suffix 2 y), hr, hr'⟩
  next => exact hrest (none, y ++ z) (none, y ++ z') ⟨rfl, y, List.suffix_rfl, rfl, rfl⟩

theorem follows_parseChars {cs cs' : List Char} (hcs : cleaned cs = y ++ z)
    (hcs' : cleaned cs' = y ++ z') (hz : Stops z) (hz' : Stops z')
    (h : ∀ scheme rest, readScheme y = some (scheme, rest) → Tails (kindOf scheme) y z z') :
    Follows (parseChars idna cs) (parseChars idna cs') Near := by
  unfold parseChars
  rw [hcs, hcs', readScheme_append hz, readScheme_append hz']
  cases hscheme : readScheme y with
  | none => exact follows_error
  | some r =>
    obtain ⟨scheme, rest⟩ := r
    have htails := (h scheme rest hscheme).of_suffix (suffix_of_readScheme hscheme)
    dsimp only [Option.map_some]
    cases hkind : kindOf scheme with
    | network => exact follows_readNetwork hkind (hkind ▸ htails)
    | file => exact follows_readFile (hkind ▸ htails)
    | general => exact follows_readGeneral hkind (hkind ▸ htails)

end Readers

section Scheme

variable {idna : Idna} {scheme cs : List Char}

theorem scheme_readPlace : Yields (readPlace idna scheme cs) (·.scheme = scheme) := by
  unfold readPlace
  refine Yields.bind (p := fun _ => True) (fun _ _ => trivial) ?_
  rintro ⟨authority, rest⟩ -
  exact yields_ok rfl

theorem scheme_readFile : Yields (readFile idna scheme cs) (·.scheme = scheme) := by
  unfold readFile
  extract_lets slash rest
  have hrest (r : Option Host × List Char) : Yields (rest r) (·.scheme = scheme) := yields_ok rfl
  split
  · exact Yields.bind (p := fun _ => True) (fun _ _ => trivial) fun r _ => hrest r
  · exact hrest (none, cs)

theorem scheme_readGeneral : Yields (readGeneral idna scheme cs) (·.scheme = scheme) := by
  unfold readGeneral
  split
  · exact scheme_readPlace
  · dsimp only
    split <;> exact yields_ok rfl

/-- The scheme of a URL is the one in front of its text. -/
theorem scheme_parseChars {rest : List Char} (h : readScheme (cleaned cs) = some (scheme, rest)) :
    Yields (parseChars idna cs) (·.scheme = scheme) := by
  unfold parseChars
  rw [h]
  dsimp only
  split
  · exact scheme_readPlace
  · exact scheme_readFile
  · exact scheme_readGeneral

end Scheme

section Ended

variable {idna : Idna} {scheme cs : List Char}

/-- A path that ends in an empty segment, if it has segments at all. -/
def Path.Ended (p : Path) : Prop :=
  ∀ list, p = .segments list → ∀ s, list.getLast? = some s → s = []

/-- A text without marks that has a slash at the end, if it is not empty. -/
def Slashed (cs : List Char) : Prop :=
  Unmarked cs ∧ ∀ c, cs.getLast? = some c → c = '/'

theorem Slashed.of_suffix (h : Slashed cs) {w : List Char} (hw : w <:+ cs) : Slashed w := by
  refine ⟨fun c hc => h.1 c (hw.subset hc), ?_⟩
  intro c hc
  exact h.2 c (Lists.getLast?_of_suffix hw hc)

theorem Slashed.upTo (h : Slashed cs) :
    ∀ c, (Url.upTo ['?', '#'] cs).1.getLast? = some c → c = '/' := by
  rw [upTo_of_unmarked h.1]
  exact h.2

theorem ended_readPlace (h : Slashed cs) : Yields (readPlace idna scheme cs) (·.path.Ended) := by
  unfold readPlace
  refine (yields_left_readAuthority idna (kindOf scheme) scheme cs).bind ?_
  intro r hr
  refine yields_ok ?_
  rintro _ ⟨⟩
  exact last_readSegments _ (h.of_suffix hr).upTo

theorem ended_readFile (h : Slashed cs) : Yields (readFile idna scheme cs) (·.path.Ended) := by
  unfold readFile
  extract_lets slash rest
  have hrest (r : Option Host × List Char) (hr : r.2 <:+ cs) :
      Yields (rest r) (·.path.Ended) := by
    refine yields_ok ?_
    rintro _ ⟨⟩
    exact last_readFilePath (h.of_suffix hr).upTo
  split
  · refine (yields_left_readFileHost idna _).bind ?_
    intro r hr
    exact hrest r (hr.trans (List.drop_suffix 2 cs))
  · exact hrest (none, cs) List.suffix_rfl

theorem ended_readGeneral (h : Slashed cs) :
    Yields (readGeneral idna scheme cs) (·.path.Ended) := by
  by_cases hplace : ∃ rest, cs = '/' :: '/' :: rest
  · obtain ⟨rest, rfl⟩ := hplace
    exact ended_readPlace (h.of_suffix (List.suffix_append ['/', '/'] rest))
  · rw [readGeneral_eq (not_exists.mp hplace)]
    refine yields_ok ?_
    change (generalPath _).Ended
    unfold generalPath
    split
    · rintro _ ⟨⟩
      exact last_readSegments .general h.upTo
    · rintro _ ⟨⟩

/-- The path of a text without marks and with a slash at the end. -/
theorem ended_parseChars (h : Slashed (cleaned cs)) :
    Yields (parseChars idna cs) (·.path.Ended) := by
  unfold parseChars
  split
  · exact yields_error
  next hscheme =>
    have hrest := h.of_suffix (suffix_of_readScheme hscheme)
    split
    · exact ended_readPlace (hrest.of_suffix (List.dropWhile_suffix _))
    · exact ended_readFile hrest
    · exact ended_readGeneral hrest

end Ended

end JobBoard.Url
