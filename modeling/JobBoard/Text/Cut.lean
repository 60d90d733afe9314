/-!
# Cutting lists at separators

`cut` lists what stands between separators. A list without separators is one piece, and every
separator adds one, so there is always at least one piece.
-/
namespace JobBoard.Text

def cut {α : Type} (separates : α → Bool) : List α → List (List α)
  | [] => [[]]
  | x :: xs =>
    if separates x then [] :: cut separates xs
    else match cut separates xs with
      | [] => [[x]]
      | piece :: pieces => (x :: piece) :: pieces

theorem cut_ne_nil {α : Type} (separates : α → Bool) (xs : List α) : cut separates xs ≠ [] := by
  cases xs with
  | nil => simp [cut]
  | cons x xs =>
    unfold cut
    split
    · simp
    · split <;> simp

section Append

variable {α : Type} {separates : α → Bool} {x : α}

/-- A separator at the end adds an empty piece. -/
theorem cut_append_separator (hx : separates x = true) (xs : List α) :
    cut separates (xs ++ [x]) = cut separates xs ++ [[]] := by
  induction xs with
  | nil => simp [cut, hx]
  | cons y xs ih =>
    obtain ⟨piece, pieces, hxs⟩ := List.exists_cons_of_ne_nil (cut_ne_nil separates xs)
    rw [List.cons_append, cut, cut, ih, hxs]
    split <;> rfl

/-- Any other element at the end belongs to the last piece. -/
theorem exists_cut_append (hx : ¬separates x = true) (xs : List α) :
    ∃ front last, cut separates (xs ++ [x]) = front ++ [last ++ [x]] := by
  induction xs with
  | nil =>
    refine ⟨[], [], ?_⟩
    rw [List.nil_append, cut, if_neg hx]
    rfl
  | cons y xs ih =>
    obtain ⟨front, last, hxs⟩ := ih
    rw [List.cons_append, cut, hxs]
    split
    · exact ⟨[] :: front, last, rfl⟩
    · cases front with
      | nil => exact ⟨[], y :: last, rfl⟩
      | cons piece front => exact ⟨(y :: piece) :: front, last, rfl⟩

end Append

end JobBoard.Text
