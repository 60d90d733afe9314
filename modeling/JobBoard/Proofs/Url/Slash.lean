import JobBoard.Proofs.Url.Stops

/-!
# A slash at the end of a path

A slash that is added to a path text adds an empty segment to the path, unless the path ends in one
already because its text ends in dots. Everything in front of it stays, drive letters included.
-/
namespace JobBoard.Url

/-- Texts that differ at most in one slash at the end, which only the second has. -/
def SlashApart (cs cs' : List Char) : Prop :=
  cs' = cs ∨ cs.getLast? ≠ some '/' ∧ cs' = cs ++ ['/']

def Open (kind : Kind) (cs : List Char) : Prop :=
  ∀ c, cs.getLast? = some c → c ≠ '/' ∧ (kind.isSpecial = true → c ≠ '\\')

/-- A text with something else than a slash at its end. -/
def EndsOpen (cs : List Char) : Prop :=
  ∃ front c, c ≠ '/' ∧ cs = front ++ [c]

/-- Paths that differ at most in one empty segment at the end, which only the second has. -/
def Closes (path path' : List Segment) : Prop :=
  path' = path ∨ (∀ s, path.getLast? = some s → EndsOpen s) ∧ path' = path ++ [[]]

section Encoding

theorem EndsOpen.append {cs : List Char} (h : EndsOpen cs) (front : List Char) :
    EndsOpen (front ++ cs) := by
  obtain ⟨before, c, hc, rfl⟩ := h
  exact ⟨front ++ before, c, hc, (List.append_assoc _ _ _).symm⟩

theorem EndsOpen.of_append (front : List Char) {cs : List Char} (h : EndsOpen (front ++ cs))
    (hcs : cs ≠ []) : EndsOpen cs := by
  obtain ⟨before, c, hc, heq⟩ := h
  rcases List.eq_nil_or_concat cs with rfl | ⟨cs, d, rfl⟩
  · exact absurd rfl hcs
  · rw [List.concat_eq_append, ← List.append_assoc] at heq
    obtain ⟨-, hd⟩ := List.append_inj' heq rfl
    cases hd
    exact ⟨cs, c, hc, List.concat_eq_append⟩

theorem EndsOpen.getLast?_ne {cs : List Char} (h : EndsOpen cs) : cs.getLast? ≠ some '/' := by
  obtain ⟨front, c, hc, rfl⟩ := h
  rw [List.getLast?_concat]
  exact fun heq => hc (Option.some.inj heq)

theorem Open.endsOpen {kind : Kind} {cs : List Char} (h : Open kind cs) (hcs : cs ≠ []) :
    EndsOpen cs := by
  rcases List.eq_nil_or_concat cs with rfl | ⟨front, c, rfl⟩
  · exact absurd rfl hcs
  · rw [List.concat_eq_append] at h ⊢
    exact ⟨front, c, (h c List.getLast?_concat).1, rfl⟩

theorem endsOpen_percentByte (b : UInt8) : EndsOpen (percentByte b) := by
  have hdigit : ∀ n < 16, upperHexDigit n ≠ '/' := by decide
  exact ⟨['%', upperHexDigit (b.toNat / 16)], _, hdigit _ (by omega), rfl⟩

theorem EndsOpen.percentEncode {cs : List Char} (h : EndsOpen cs) (set : Char → Bool) :
    EndsOpen (percentEncode set cs) := by
  obtain ⟨front, c, hc, rfl⟩ := h
  unfold Url.percentEncode
  rw [List.flatMap_append, List.flatMap_singleton]
  refine EndsOpen.append ?_ _
  split
  · obtain ⟨lead, tails, hbytes, -⟩ := Text.Utf8.front_encodeChar c
    rw [hbytes]
    rcases List.eq_nil_or_concat (lead :: tails) with hnil | ⟨bytes, b, hlast⟩
    · cases hnil
    · rw [hlast, List.concat_eq_append, List.flatMap_append, List.flatMap_singleton]
      exact (endsOpen_percentByte b).append _
  · exact ⟨[], c, hc, rfl⟩

end Encoding

section Segments

variable {path path' : List Segment} {piece : List Char}

theorem segmentsText_append_nil (path : List Segment) :
    segmentsText (path ++ [[]]) = segmentsText path ++ ['/'] := by
  rw [segmentsText, List.flatMap_append]
  rfl

theorem Closes.slashApart (h : Closes path path') :
    SlashApart (segmentsText path) (segmentsText path') := by
  rcases h with rfl | ⟨hlast, rfl⟩
  · exact Or.inl rfl
  · refine Or.inr ⟨?_, segmentsText_append_nil path⟩
    rcases List.eq_nil_or_concat path with rfl | ⟨front, s, rfl⟩
    · decide
    · rw [List.concat_eq_append] at hlast ⊢
      rw [segmentsText, List.flatMap_append, List.flatMap_singleton]
      exact (((hlast s List.getLast?_concat).append ['/']).append _).getLast?_ne

theorem go_nil (final : Bool) (path : List Segment) : go final path [] = path ++ [[]] := rfl

/-- A piece that is followed by an empty one instead of being the final one. -/
theorem closes_go (path : List Segment) (h : EndsOpen piece) :
    Closes (go true path piece) (go true (go false path piece) []) := by
  rw [go_nil]
  unfold go
  dsimp only
  split
  · exact Or.inl (by simp)
  split
  · exact Or.inl (by simp)
  · refine Or.inr ⟨?_, rfl⟩
    intro s hs
    rw [List.getLast?_concat] at hs
    cases hs
    exact h.percentEncode pathSet

theorem FilePath.go_nil (final : Bool) (p : FilePath) :
    p.go final [] = { p with path := p.path ++ [[]] } := by
  obtain ⟨path, drive⟩ := p
  cases path <;> rfl

theorem FilePath.closes_go (p : FilePath) (h : EndsOpen piece) :
    ((p.go false piece).go true []).drive = (p.go true piece).drive ∧
      Closes (p.go true piece).path ((p.go false piece).go true []).path := by
  rw [go_nil]
  dsimp only
  unfold FilePath.go
  split
  next letter mark _ =>
    split
    -- A drive letter is a segment like any other here, and its colon is no slash.
    · refine ⟨rfl, Or.inr ⟨?_, rfl⟩⟩
      rintro _ ⟨⟩
      exact ⟨[letter], ':', by decide, rfl⟩
    · exact ⟨rfl, Url.closes_go [] h⟩
  next letter rest hlong _ =>
    split
    · refine ⟨rfl, Url.closes_go _ (EndsOpen.of_append [letter, ':'] h ?_)⟩
      rintro rfl
      exact hlong rfl
    · exact ⟨rfl, Url.closes_go [] h⟩
  next => exact ⟨rfl, Url.closes_go p.path h⟩

theorem FilePath.closes_segments {p p' : FilePath} (h : Closes p.path p'.path) :
    Closes p.segments p'.segments := by
  rcases h with heq | ⟨hlast, heq⟩
  · exact Or.inl (by rw [segments, segments, heq])
  unfold segments
  rw [heq, List.dropWhile_append]
  cases hpath : p.path.dropWhile (·.isEmpty) with
  | nil => exact Or.inl rfl
  | cons s list =>
    refine Or.inr ⟨?_, rfl⟩
    have hsuffix : s :: list <:+ p.path := hpath ▸ List.dropWhile_suffix _
    exact fun last hs => hlast last (Lists.getLast?_of_suffix hsuffix hs)

end Segments

section Pieces

variable {kind : Kind} {q : List Char}

theorem unslashed_append (hq : q ≠ []) (cs : List Char) :
    unslashed kind (q ++ cs) = unslashed kind q ++ cs := by
  cases q with
  | nil => exact absurd rfl hq
  | cons c q =>
    unfold unslashed
    dsimp only [List.cons_append]
    split <;> rfl

/-- A slash at the end of a path text adds an empty piece if there is text in front of it. -/
theorem pieces_append_slash (kind : Kind) (hq : q ≠ []) :
    pieces kind (unslashed kind (q ++ ['/'])) = pieces kind (unslashed kind q) ++ [[]] := by
  rw [unslashed_append hq]
  exact Text.cut_append_separator (by rfl) _

theorem exists_pieces (h : Open kind q) (hq : q ≠ []) :
    ∃ front piece, pieces kind (unslashed kind q) = front ++ [piece] ∧ EndsOpen piece := by
  rcases List.eq_nil_or_concat q with rfl | ⟨q, c, rfl⟩
  · exact absurd rfl hq
  rw [List.concat_eq_append] at h hq ⊢
  obtain ⟨hslash, hback⟩ := h c List.getLast?_concat
  have hplain : ¬(decide (c = '/') || (kind.isSpecial && decide (c = '\\'))) = true := by
    simpa [hslash] using hback
  have hunslashed : ∃ front, unslashed kind (q ++ [c]) = front ++ [c] := by
    cases q with
    | nil => exact ⟨[], if_neg (by simpa using hplain)⟩
    | cons d q => exact ⟨_, unslashed_append (List.cons_ne_nil d q) [c]⟩
  obtain ⟨front, hfront⟩ := hunslashed
  have hcut : ∃ list last, pieces kind (front ++ [c]) = list ++ [last ++ [c]] := by
    refine Text.exists_cut_append ?_ front
    exact hplain
  obtain ⟨list, last, hlist⟩ := hcut
  rw [hfront]
  exact ⟨list, last ++ [c], hlist, last, c, hslash, rfl⟩

theorem walk_append_singleton {α : Type} (step : Bool → α → List Char → α) (start : α)
    (list : List (List Char)) (piece : List Char) :
    walk step start (list ++ [piece]) = step true (list.foldl (step false) start) piece := by
  induction list generalizing start with
  | nil => rfl
  | cons first list ih =>
    cases list with
    | nil => rfl
    | cons next list => exact ih (step false start first)

theorem walk_append_nil {α : Type} (step : Bool → α → List Char → α) (start : α)
    (list : List (List Char)) (piece : List Char) :
    walk step start (list ++ [piece] ++ [[]]) =
      step true (step false (list.foldl (step false) start) piece) [] := by
  rw [walk_append_singleton, List.foldl_append]
  rfl

theorem closes_readSegments (h : Open kind q) :
    Closes (readSegments kind q) (readSegments kind (q ++ ['/'])) := by
  have hadded : ¬((q ++ ['/']).isEmpty = true ∧ kind = .general) := by simp
  rw [readSegments, readSegments, if_neg hadded]
  by_cases hq : q = []
  · subst hq
    split
    · refine Or.inr ⟨?_, rfl⟩
      rintro _ ⟨⟩
    · exact Or.inl rfl
  · rw [if_neg (by simp [hq]), pieces_append_slash kind hq]
    obtain ⟨list, piece, hlist, hpiece⟩ := exists_pieces h hq
    rw [hlist, walk_append_nil, walk_append_singleton]
    exact closes_go _ hpiece

theorem closes_readFilePath (h : Open .file q) :
    (readFilePath (q ++ ['/'])).drive = (readFilePath q).drive ∧
      Closes (readFilePath q).segments (readFilePath (q ++ ['/'])).segments := by
  by_cases hq : q = []
  · subst hq
    exact ⟨rfl, Or.inl rfl⟩
  · rw [readFilePath, readFilePath, pieces_append_slash .file hq]
    obtain ⟨list, piece, hlist, hpiece⟩ := exists_pieces h hq
    rw [hlist, walk_append_nil, walk_append_singleton]
    obtain ⟨hdrive, hpath⟩ := FilePath.closes_go (list.foldl (FilePath.go false) {}) hpiece
    exact ⟨hdrive, FilePath.closes_segments hpath⟩

theorem exists_pieces_nil (kind : Kind) (hq : ∀ c, q.getLast? = some c → c = '/') :
    ∃ front, pieces kind (unslashed kind q) = front ++ [[]] := by
  rcases List.eq_nil_or_concat q with rfl | ⟨q, c, rfl⟩
  · exact ⟨[], rfl⟩
  rw [List.concat_eq_append] at hq ⊢
  obtain rfl := hq c List.getLast?_concat
  cases q with
  | nil => exact ⟨[], rfl⟩
  | cons c q => exact ⟨_, pieces_append_slash kind (List.cons_ne_nil c q)⟩

theorem last_readSegments (kind : Kind) (hq : ∀ c, q.getLast? = some c → c = '/') :
    ∀ s, (readSegments kind q).getLast? = some s → s = [] := by
  intro s hs
  unfold readSegments at hs
  split at hs
  · cases hs
  · obtain ⟨front, hfront⟩ := exists_pieces_nil kind hq
    rw [hfront, walk_append_singleton, go_nil, List.getLast?_concat] at hs
    cases hs
    rfl

theorem last_readFilePath (hq : ∀ c, q.getLast? = some c → c = '/') :
    ∀ s, (readFilePath q).segments.getLast? = some s → s = [] := by
  intro s hs
  obtain ⟨front, hfront⟩ := exists_pieces_nil .file hq
  unfold FilePath.segments readFilePath at hs
  rw [hfront, walk_append_singleton, FilePath.go_nil, List.dropWhile_append] at hs
  split at hs
  · cases hs
    rfl
  · split at hs
    · cases hs
    · rw [List.getLast?_concat] at hs
      cases hs
      rfl

end Pieces

end JobBoard.Url
