import JobBoard.Proofs.Text.Words

/-!
# What a text holds between blanks

A text that is not blank holds what stands between the blanks at its ends, and trimming finds just
that. A text names a word if what it holds is the word, in any case.
-/
namespace JobBoard.Text

/-- Neither blank nor with blanks at its ends. -/
structure Neat (s : String) : Prop where
  not_blank : blank s = false
  front : ∀ c, s.toList.head? = some c → isBlank c = false
  back : ∀ c, s.toList.getLast? = some c → isBlank c = false

theorem neat_trim {s : String} (h : blank s = false) : Neat (trim s) where
  not_blank := (blank_trim s).trans h
  front c hc := by
    rw [trim, String.toList_ofList] at hc
    exact not_isBlank_of_head?_trimmed hc
  back c hc := by
    rw [trim, String.toList_ofList] at hc
    exact not_isBlank_of_getLast?_trimmed hc

/-- Between blanks the text `raw` holds the text `kept`. -/
structure Holds (raw kept : String) : Prop where
  around : ∃ front back, Blanks front ∧ Blanks back ∧ raw.toList = front ++ kept.toList ++ back
  neat : Neat kept

theorem blank_iff {s : String} : blank s = true ↔ Blanks s.toList := by
  rw [blank, List.all_eq_true]
  rfl

section Trimming

variable {cs front back kept : List Char}

theorem dropWhile_blanks_append (hfront : Blanks front)
    (hcs : ∀ c, cs.head? = some c → isBlank c = false) :
    (front ++ cs).dropWhile isBlank = cs := by
  rw [List.dropWhile_append_of_pos hfront]
  cases cs with
  | nil => rfl
  | cons c cs => exact List.dropWhile_cons_of_neg (by simp [hcs c rfl])

theorem blanks_takeWhile (cs : List Char) : Blanks (cs.takeWhile isBlank) :=
  List.all_eq_true.mp List.all_takeWhile

theorem exists_around_trimmed (cs : List Char) :
    ∃ front back, Blanks front ∧ Blanks back ∧ cs = front ++ trimmed cs ++ back := by
  refine ⟨cs.takeWhile isBlank, ((cs.dropWhile isBlank).reverse.takeWhile isBlank).reverse,
    blanks_takeWhile cs, ?_, ?_⟩
  · -- These are the blanks in front of what is left, read backwards.
    intro c hc
    exact blanks_takeWhile _ c (List.mem_reverse.mp hc)
  · rw [trimmed, List.append_assoc, ← List.reverse_append, List.takeWhile_append_dropWhile,
      List.reverse_reverse, List.takeWhile_append_dropWhile]

theorem trimmed_around (hfront : Blanks front) (hback : Blanks back)
    (hhead : ∀ c, kept.head? = some c → isBlank c = false)
    (hlast : ∀ c, kept.getLast? = some c → isBlank c = false) (hne : kept ≠ []) :
    trimmed (front ++ kept ++ back) = kept := by
  have hrest : ∀ c, (kept ++ back).head? = some c → isBlank c = false := by
    rw [List.head?_append_of_ne_nil _ hne]
    exact hhead
  have hreverse : ∀ c, kept.reverse.head? = some c → isBlank c = false := by
    rw [List.head?_reverse]
    exact hlast
  have hback : Blanks back.reverse := fun c hc => hback c (List.mem_reverse.mp hc)
  rw [trimmed, List.append_assoc, dropWhile_blanks_append hfront hrest, List.reverse_append,
    dropWhile_blanks_append hback hreverse, List.reverse_reverse]

end Trimming

/-- Trimming a text finds what it holds. -/
theorem holds_iff {raw kept : String} : Holds raw kept ↔ blank raw = false ∧ trim raw = kept := by
  constructor
  · rintro ⟨⟨front, back, hfront, hback, hraw⟩, hneat⟩
    have hne : kept.toList ≠ [] := by
      intro hnil
      have hblank := hneat.not_blank
      rw [blank, hnil] at hblank
      cases hblank
    have htrim : trim raw = kept := by
      rw [trim, hraw, trimmed_around hfront hback hneat.front hneat.back hne, String.ofList_toList]
    refine ⟨?_, htrim⟩
    rw [← blank_trim, htrim]
    exact hneat.not_blank
  · rintro ⟨hblank, rfl⟩
    refine ⟨?_, neat_trim hblank⟩
    rw [trim, String.toList_ofList]
    exact exists_around_trimmed raw.toList

theorem Holds.unique {raw kept kept' : String} (h : Holds raw kept) (h' : Holds raw kept') :
    kept = kept' := by
  rw [← (holds_iff.mp h).2, (holds_iff.mp h').2]

theorem Holds.not_blanks {raw kept : String} (h : Holds raw kept) : ¬Blanks raw.toList := by
  rw [← blank_iff, (holds_iff.mp h).1]
  exact Bool.false_ne_true

theorem Neat.trim_eq {s : String} (h : Neat s) : trim s = s := by
  have hholds : Holds s s := ⟨⟨[], [], by simp [Blanks], by simp [Blanks], by simp⟩, h⟩
  exact (holds_iff.mp hholds).2

/-- What a text holds is the word up to ASCII case. -/
def Names (raw word : String) : Prop :=
  ∃ kept, Holds raw kept ∧ asciiLower kept = word

instance (raw word : String) : Decidable (Names raw word) :=
  decidable_of_iff (blank raw = false ∧ asciiLower (trim raw) = word) <| by
    unfold Names
    simp only [holds_iff, and_assoc, exists_and_left, exists_eq_left']

theorem names_iff {raw word : String} (hword : word ≠ "") :
    Names raw word ↔ asciiLower (trim raw) = word := by
  constructor
  · rintro ⟨kept, hkept, hlower⟩
    rwa [(holds_iff.mp hkept).2]
  · intro hlower
    refine ⟨trim raw, holds_iff.mpr ⟨?_, rfl⟩, hlower⟩
    rw [Bool.eq_false_iff]
    intro hblank
    rw [trim_eq_empty.mpr hblank] at hlower
    exact hword hlower.symm

end JobBoard.Text
