/-!
# Blank characters, trimming and words

Blank means the White_Space property of the Unicode Standard. A text is trimmed at both ends, and
it is cut into words at blanks: `words` lists the longest runs of characters that are not blank.
-/
namespace JobBoard.Text

/-- The White_Space property. -/
def isBlank (c : Char) : Bool :=
  let n := c.toNat
  (0x9 ≤ n && n ≤ 0xD) || n == 0x20 || n == 0x85 || n == 0xA0 || n == 0x1680 ||
    (0x2000 ≤ n && n ≤ 0x200A) || n == 0x2028 || n == 0x2029 || n == 0x202F || n == 0x205F ||
    n == 0x3000

/-- The characters without the blanks at both ends. -/
def trimmed (cs : List Char) : List Char :=
  ((cs.dropWhile isBlank).reverse.dropWhile isBlank).reverse

def trim (s : String) : String :=
  String.ofList (trimmed s.toList)

/-- Whether a text is empty or blank throughout. -/
def blank (s : String) : Bool :=
  s.toList.all isBlank

/-- The longest runs of characters that are not blank, in order. A character opens a word of its
own when a blank or the end follows it; otherwise it joins the word that follows. -/
def wordRuns : List Char → List (List Char)
  | [] => []
  | c :: cs =>
    if isBlank c then wordRuns cs
    else if cs.head?.all isBlank then [c] :: wordRuns cs
    else match wordRuns cs with
      | [] => [[c]]
      | w :: ws => (c :: w) :: ws

def words (s : String) : List String :=
  (wordRuns s.toList).map String.ofList

/-- Lower case for the letters A to Z; every other character stays. -/
def asciiLower (s : String) : String :=
  String.ofList (s.toList.map Char.toLower)

theorem dropWhile_isBlank_eq_nil {cs : List Char} :
    cs.dropWhile isBlank = [] ↔ cs.all isBlank = true := by
  induction cs with
  | nil => simp
  | cons c cs ih =>
    cases h : isBlank c
    · simp [h]
    · rw [List.dropWhile_cons_of_pos h, List.all_cons, h, Bool.true_and]
      exact ih

theorem trimmed_eq_nil {cs : List Char} : trimmed cs = [] ↔ cs.all isBlank = true := by
  unfold trimmed
  rw [List.reverse_eq_nil_iff, dropWhile_isBlank_eq_nil]
  constructor
  · intro h
    by_cases hd : cs.dropWhile isBlank = []
    · exact dropWhile_isBlank_eq_nil.mp hd
    · have hn := List.head_dropWhile_not isBlank hd
      rw [List.all_eq_true] at h
      have hb := h _ (List.mem_reverse.mpr (List.head_mem hd))
      rw [hn] at hb
      exact absurd hb (by simp)
  · intro h
    simp [dropWhile_isBlank_eq_nil.mpr h]

/-- Nothing is left of a text exactly when it is blank. -/
theorem trim_eq_empty {s : String} : trim s = "" ↔ blank s = true := by
  unfold trim blank
  rw [← trimmed_eq_nil]
  constructor
  · intro h
    simpa using congrArg String.toList h
  · intro h
    simp [h]

theorem not_isBlank_of_head?_dropWhile {cs : List Char} {c : Char}
    (h : (cs.dropWhile isBlank).head? = some c) : isBlank c = false := by
  have hnot := List.head?_dropWhile_not isBlank cs
  rw [h] at hnot
  exact hnot

/-- What is trimmed does not begin with a blank. -/
theorem not_isBlank_of_head?_trimmed {cs : List Char} {c : Char}
    (h : (trimmed cs).head? = some c) : isBlank c = false := by
  have hfront : trimmed cs <+: cs.dropWhile isBlank := by
    have hback := List.dropWhile_suffix (l := (cs.dropWhile isBlank).reverse) isBlank
    simpa [trimmed] using List.reverse_prefix.mpr hback
  obtain ⟨rest, hrest⟩ := hfront
  have hhead : (cs.dropWhile isBlank).head? = some c := by
    rw [← hrest, List.head?_append, h]
    rfl
  exact not_isBlank_of_head?_dropWhile hhead

/-- Nor does it end with one. -/
theorem not_isBlank_of_getLast?_trimmed {cs : List Char} {c : Char}
    (h : (trimmed cs).getLast? = some c) : isBlank c = false := by
  rw [trimmed, List.getLast?_reverse] at h
  exact not_isBlank_of_head?_dropWhile h

theorem blank_trim (s : String) : blank (trim s) = blank s := by
  rw [Bool.eq_iff_iff, ← trim_eq_empty (s := s)]
  constructor
  · intro h
    cases hcs : trimmed s.toList with
    | nil => rw [trim, hcs]
    | cons c cs =>
      have hhead : (trimmed s.toList).head? = some c := by rw [hcs]; rfl
      have hc := not_isBlank_of_head?_trimmed hhead
      rw [blank, trim, String.toList_ofList, hcs, List.all_cons, hc] at h
      cases h
  · intro h
    rw [h]
    rfl

end JobBoard.Text
