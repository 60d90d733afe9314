import JobBoard.Text.Collation

/-!
# Collation is a total order

The middle stage of collation, `lowercaseFirst`, is no order of its own: it leaves a text level with
every text that continues it. It is only asked about texts with the same lowercase form, and of two
such texts neither continues the other, because every character has a lowercase form of at least one
character. There it agrees with a lexicographic order, and the last stage has nothing left to
decide. Main statement: `collate` is a transitive comparison under which only equal texts are level.
-/
namespace JobBoard.Text

open Std

/-- A comparison of images inherits the laws of the comparison it is made from. -/
theorem transCmp_comap {α β : Type} (cmp : β → β → Ordering) [TransCmp cmp] (f : α → β) :
    TransCmp fun a b => cmp (f a) (f b) where
  eq_swap {a b} := OrientedCmp.eq_swap (a := f a) (b := f b)
  isLE_trans {a b c} hab hbc :=
    TransCmp.isLE_trans (a := f a) (b := f b) (c := f c) hab hbc

instance : TransCmp compareCodePoints :=
  inferInstanceAs (TransCmp (List.compareLex (compareOn Char.toNat)))

theorem toNat_eq_of_compareOn {x y : Char} (h : compareOn Char.toNat x y = .eq) : x = y :=
  Char.toNat_inj.mp (LawfulEqOrd.eq_of_compare h)

instance lawfulEqCmp_toNat : LawfulEqCmp (compareOn Char.toNat) where
  eq_of_compare := toNat_eq_of_compareOn

instance : LawfulEqCmp compareCodePoints :=
  inferInstanceAs (LawfulEqCmp (List.compareLex (compareOn Char.toNat)))

/-- The order of characters that `lowercaseFirst` applies at the first difference. -/
def compareCases : Char → Char → Ordering :=
  compareLex (compareOn fun c => !isLowercase c) (compareOn Char.toNat)

instance : TransCmp compareCases :=
  inferInstanceAs (TransCmp (compareLex _ _))

instance : LawfulEqCmp compareCases where
  eq_of_compare h := toNat_eq_of_compareOn (compareLex_eq_eq.mp h).2

theorem lowercaseFirst_cons_of_ne {x y : Char} (h : x ≠ y) (xs ys : List Char) :
    lowercaseFirst (x :: xs) (y :: ys) = compareCases x y := by
  rw [lowercaseFirst, if_neg h]
  cases hx : isLowercase x <;> cases hy : isLowercase y
  · simp [compareCases, compareLex, compareOn, hx, hy]
  · simp only [compareCases, compareLex, compareOn, hx, hy]
    rfl
  · simp only [compareCases, compareLex, compareOn, hx, hy]
    rfl
  · simp [compareCases, compareLex, compareOn, hx, hy]

theorem folded_cons (c : Char) (cs : List Char) : folded (c :: cs) = lowercase c ++ folded cs :=
  List.flatMap_cons

theorem folded_cons_ne_nil (c : Char) (cs : List Char) : folded (c :: cs) ≠ [] := by
  rw [folded_cons]
  intro h
  exact lowercase_ne_nil c (List.append_eq_nil_iff.mp h).1

/-- Among texts with the same lowercase form `lowercaseFirst` is lexicographic: neither of two such
texts is a proper beginning of the other. -/
theorem lowercaseFirst_eq_of_folded_eq {a b : List Char} (h : folded a = folded b) :
    lowercaseFirst a b = List.compareLex compareCases a b := by
  induction a generalizing b with
  | nil =>
    cases b with
    | nil => rfl
    | cons y ys => exact absurd h.symm (folded_cons_ne_nil y ys)
  | cons x xs ih =>
    cases b with
    | nil => exact absurd h (folded_cons_ne_nil x xs)
    | cons y ys =>
      by_cases hxy : x = y
      · subst y
        rw [folded_cons, folded_cons] at h
        have hself : compareCases x x = .eq := ReflCmp.compare_self
        rw [lowercaseFirst, if_pos rfl, ih (List.append_cancel_left h),
          List.compareLex_cons_cons, hself, Ordering.eq_then]
      · have hne : compareCases x y ≠ .eq := fun he => hxy (LawfulEqCmp.eq_of_compare he)
        rw [lowercaseFirst_cons_of_ne hxy, List.compareLex_cons_cons]
        cases hc : compareCases x y with
        | eq => exact absurd hc hne
        | lt => rfl
        | gt => rfl

/-- Collation as two lexicographic stages, of which the second is an order by itself. -/
theorem collateChars_eq (a b : List Char) :
    collateChars a b =
      (compareCodePoints (folded a) (folded b)).then (List.compareLex compareCases a b) := by
  unfold collateChars
  cases hf : compareCodePoints (folded a) (folded b) with
  | lt => rfl
  | gt => rfl
  | eq =>
    rw [Ordering.eq_then, Ordering.eq_then,
      lowercaseFirst_eq_of_folded_eq (LawfulEqCmp.eq_of_compare hf)]
    cases hc : List.compareLex compareCases a b with
    | lt => rfl
    | gt => rfl
    | eq =>
      have hab : a = b := LawfulEqCmp.eq_of_compare hc
      subst b
      exact @ReflCmp.compare_self _ compareCodePoints _ _

instance : TransCmp collateChars := by
  have hfold := transCmp_comap compareCodePoints folded
  have heq : collateChars = compareLex (fun a b => compareCodePoints (folded a) (folded b))
      (List.compareLex compareCases) := funext fun a => funext (collateChars_eq a)
  rw [heq]
  infer_instance

instance : LawfulEqCmp collateChars where
  eq_of_compare {a b} h := by
    rw [collateChars_eq, Ordering.then_eq_eq] at h
    exact LawfulEqCmp.eq_of_compare h.2

instance : TransCmp collate :=
  transCmp_comap collateChars String.toList

/-- Only equal texts are level. -/
instance : LawfulEqCmp collate where
  eq_of_compare h := String.toList_inj.mp (@LawfulEqCmp.eq_of_compare _ collateChars _ _ _ h)

/-- Where two texts have different lowercase forms, these alone decide. -/
theorem collate_of_folded_ne {a b : String} (h : folded a.toList ≠ folded b.toList) :
    collate a b = compareCodePoints (folded a.toList) (folded b.toList) := by
  unfold collate collateChars
  cases hf : compareCodePoints (folded a.toList) (folded b.toList) with
  | lt => rfl
  | gt => rfl
  | eq => exact absurd (LawfulEqCmp.eq_of_compare hf) h

theorem collate_congr_of_folded_eq {a b c : String} (hab : folded a.toList = folded b.toList)
    (hac : folded a.toList ≠ folded c.toList) : collate a c = collate b c := by
  have hbc : folded b.toList ≠ folded c.toList := hab ▸ hac
  rw [collate_of_folded_ne hac, collate_of_folded_ne hbc, hab]

/-- What stands between two texts with one lowercase form has that form too. -/
theorem folded_eq_of_between {a b c : String} (hab : folded a.toList = folded b.toList)
    (hac : (collate a c).isLE) (hcb : (collate c b).isLE) :
    folded a.toList = folded c.toList := by
  apply Decidable.byContradiction
  intro hne
  have hbc : (collate b c).isLE := collate_congr_of_folded_eq hab hne ▸ hac
  have heq : b = c := LawfulEqCmp.eq_of_compare (OrientedCmp.isLE_antisymm hbc hcb)
  apply hne
  rw [hab, heq]

end JobBoard.Text
