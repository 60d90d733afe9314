/-!
# Lists of pairs and optional values

Lookups in a list of pairs after its entries for one key are dropped or replaced, filtered lists of
optional values after one entry comes or goes, members and ends of joined lists, and splits of a
list that one entry was added to.
-/
namespace JobBoard.Lists

variable {α β γ : Type}

theorem lookup_cons_eq [DecidableEq α] (a : α) (x : β) (xs : List (α × β)) (b : α) :
    ((a, x) :: xs).lookup b = if b = a then some x else xs.lookup b := by
  by_cases hb : b = a
  · simp [hb]
  · have hne : (b == a) = false := by simpa using hb
    rw [List.lookup_cons, hne, if_neg hb]

theorem lookup_filter_ne [DecidableEq α] (xs : List (α × β)) (a b : α) :
    (xs.filter (·.1 ≠ a)).lookup b = if b = a then none else xs.lookup b := by
  induction xs with
  | nil => simp
  | cons x xs ih =>
    obtain ⟨c, x⟩ := x
    rw [lookup_cons_eq]
    by_cases hc : c = a
    · rw [List.filter_cons_of_neg (by simp [hc]), ih, hc]
      by_cases hb : b = a <;> simp [hb]
    · rw [List.filter_cons_of_pos (by simp [hc]), lookup_cons_eq, ih]
      by_cases hb : b = a
      · subst b
        simp [Ne.symm hc]
      · simp [hb]

theorem mem_of_lookup [DecidableEq α] {xs : List (α × β)} {a : α} {x : β}
    (h : xs.lookup a = some x) : (a, x) ∈ xs := by
  obtain ⟨before, after, rfl, -⟩ := List.lookup_eq_some_iff.mp h
  exact List.mem_append_right _ List.mem_cons_self

theorem lookup_of_mem [DecidableEq α] {xs : List (α × β)} (hxs : (xs.map Prod.fst).Nodup) {a : α}
    {x : β} (h : (a, x) ∈ xs) : xs.lookup a = some x := by
  obtain ⟨before, after, rfl⟩ := List.append_of_mem h
  refine List.lookup_eq_some_iff.mpr ⟨before, after, rfl, ?_⟩
  intro p hp
  rw [List.map_append, List.nodup_append] at hxs
  exact bne_iff_ne.mpr (hxs.2.2 _ (List.mem_map_of_mem hp) a List.mem_cons_self).symm

/-- Where no two entries have the same key, dropping the entries with one key drops just one. -/
theorem perm_cons_filter [DecidableEq β] {f : α → β} {xs : List α} (hxs : (xs.map f).Nodup) {x : α}
    (h : x ∈ xs) : xs.Perm (x :: xs.filter (f · ≠ f x)) := by
  induction xs with
  | nil => cases h
  | cons y xs ih =>
    obtain ⟨hy, hxs⟩ := List.nodup_cons.mp hxs
    rcases List.mem_cons.mp h with rfl | h
    · have hrest : xs.filter (f · ≠ f x) = xs := by
        rw [List.filter_eq_self]
        intro z hz
        refine decide_eq_true ?_
        intro heq
        exact hy (heq ▸ List.mem_map_of_mem hz)
      rw [List.filter_cons_of_neg (by simp), hrest]
    · have hne : f y ≠ f x := by
        intro heq
        exact hy (heq ▸ List.mem_map_of_mem h)
      rw [List.filter_cons_of_pos (by simpa using hne)]
      exact ((ih hxs h).cons _).trans (List.Perm.swap _ _ _)

theorem filterMap_cons_toList (f : α → Option γ) (a : α) (xs : List α) :
    (a :: xs).filterMap f = (f a).toList ++ xs.filterMap f := by
  rw [List.filterMap_cons]
  cases f a <;> rfl

theorem filterMap_append_singleton (f : α → Option γ) (xs : List α) (a : α) :
    (xs ++ [a]).filterMap f = xs.filterMap f ++ (f a).toList := by
  rw [List.filterMap_append, filterMap_cons_toList, List.filterMap_nil, List.append_nil]

theorem filterMap_perm_erase [DecidableEq α] {f : α → Option γ} {xs : List α} {a : α} (h : a ∈ xs) :
    (xs.filterMap f).Perm ((f a).toList ++ (xs.erase a).filterMap f) := by
  rw [← filterMap_cons_toList]
  exact (List.perm_cons_erase h).filterMap f

theorem mem_of_mem_intercalate {sep : List α} {list : List (List α)} {a : α}
    (h : a ∈ sep.intercalate list) : a ∈ sep ∨ ∃ xs ∈ list, a ∈ xs := by
  induction list with
  | nil => cases h
  | cons xs list ih =>
    cases list with
    | nil =>
      rw [List.intercalate_singleton] at h
      exact Or.inr ⟨xs, List.mem_cons_self, h⟩
    | cons ys list =>
      rw [List.intercalate_cons_cons, List.append_assoc] at h
      rcases List.mem_append.mp h with h | h
      · exact Or.inr ⟨xs, List.mem_cons_self, h⟩
      rcases List.mem_append.mp h with h | h
      · exact Or.inl h
      · refine (ih h).imp_right ?_
        rintro ⟨zs, hzs, hmem⟩
        exact ⟨zs, List.mem_cons_of_mem xs hzs, hmem⟩

theorem getLast?_of_suffix {xs ys : List α} {a : α} (h : xs <:+ ys) (ha : xs.getLast? = some a) :
    ys.getLast? = some a := by
  obtain ⟨front, rfl⟩ := h
  rw [List.getLast?_append, ha]
  rfl

theorem intercalate_cons (a : α) (xs : List α) (list : List (List α)) :
    [a].intercalate (xs :: list) = xs ++ list.flatMap (a :: ·) := by
  induction list generalizing xs with
  | nil => rw [List.intercalate_singleton, List.flatMap_nil, List.append_nil]
  | cons ys list ih =>
    rw [List.intercalate_cons_cons, ih, List.flatMap_cons, List.append_assoc, List.singleton_append,
      List.cons_append]

/-- Where the end of a list stands, seen from one of its entries. -/
theorem append_singleton_eq_append_cons {xs before after : List α} {x y : α} :
    xs ++ [y] = before ++ x :: after ↔
      (xs = before ∧ y = x ∧ after = []) ∨
        ∃ rest, after = rest ++ [y] ∧ xs = before ++ x :: rest := by
  constructor
  · intro h
    rcases List.eq_nil_or_concat after with rfl | ⟨rest, last, rfl⟩
    · obtain ⟨hxs, hy⟩ := List.append_inj' h rfl
      exact Or.inl ⟨hxs, List.singleton_inj.mp hy, rfl⟩
    · rw [List.concat_eq_append, ← List.cons_append, ← List.append_assoc] at h
      obtain ⟨hxs, hy⟩ := List.append_inj' h rfl
      cases hy
      exact Or.inr ⟨rest, List.concat_eq_append, hxs⟩
  · rintro (⟨rfl, rfl, rfl⟩ | ⟨rest, rfl, rfl⟩)
    · rfl
    · simp

end JobBoard.Lists
