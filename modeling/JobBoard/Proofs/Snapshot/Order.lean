import JobBoard.Proofs.Text.Collation
import JobBoard.Snapshot

/-!
# The order of jobs and projects

Keys are in a total order under which only equal keys are level, so the place of a section is fixed
by its key. Projects are in a total preorder, and sorting leaves projects that are level in the
order they were listed in.
-/
namespace JobBoard

open Std

section Sorting

variable {α : Type} (cmp : α → α → Ordering) [TransCmp cmp]

theorem isLE_or_isLE (a b : α) : (cmp a b).isLE || (cmp b a).isLE := by
  have hswap : cmp b a = (cmp a b).swap := OrientedCmp.eq_swap
  rw [hswap]
  cases cmp a b <;> rfl

theorem pairwise_mergeSort_isLE (xs : List α) :
    (xs.mergeSort fun a b => (cmp a b).isLE).Pairwise fun a b => (cmp a b).isLE :=
  List.pairwise_mergeSort (fun _ _ _ => TransCmp.isLE_trans) (isLE_or_isLE cmp) xs

/-- Sorting neither adds nor drops entries level with `x` and keeps them in order. -/
theorem filter_mergeSort_isLE (x : α) (xs : List α) :
    (xs.mergeSort fun a b => (cmp a b).isLE).filter (cmp x · = .eq) =
      xs.filter (cmp x · = .eq) := by
  -- Entries level with `x` are sorted as they stand, and a stable sort keeps a sorted sublist.
  have hlevel : (xs.filter (cmp x · = .eq)).Pairwise fun a b => (cmp a b).isLE = true := by
    rw [List.pairwise_filter]
    apply List.pairwise_of_forall
    intro a b ha hb
    have hab : cmp a b = .eq :=
      TransCmp.eq_trans (OrientedCmp.eq_symm (of_decide_eq_true ha)) (of_decide_eq_true hb)
    rw [hab]
    rfl
  have hsub : (xs.filter (cmp x · = .eq)).Sublist (xs.mergeSort fun a b => (cmp a b).isLE) :=
    List.sublist_mergeSort (fun _ _ _ => TransCmp.isLE_trans) (isLE_or_isLE cmp) hlevel
      List.filter_sublist
  have hkept := hsub.filter (cmp x · = .eq)
  rw [List.filter_filter] at hkept
  simp only [Bool.and_self] at hkept
  have hperm := (List.mergeSort_perm xs fun a b => (cmp a b).isLE).filter (cmp x · = .eq)
  exact (hkept.eq_of_length hperm.length_eq.symm).symm

omit [TransCmp cmp] in
theorem lt_of_isLE_of_ne [LawfulEqCmp cmp] {a b : α} (h : (cmp a b).isLE) (hne : a ≠ b) :
    cmp a b = .lt := by
  cases hc : cmp a b with
  | lt => rfl
  | eq => exact absurd (LawfulEqCmp.eq_of_compare hc) hne
  | gt =>
    rw [hc] at h
    cases h

/-- Sorting entries of which only equal ones are level, none of them repeated, is strict. -/
theorem pairwise_mergeSort_lt [LawfulEqCmp cmp] {xs : List α} (h : xs.Nodup) :
    (xs.mergeSort fun a b => (cmp a b).isLE).Pairwise fun a b => cmp a b = .lt := by
  have hne := (List.mergeSort_perm xs fun a b => (cmp a b).isLE).nodup_iff.mpr h
  exact (pairwise_mergeSort_isLE cmp xs).imp₂ (fun _ _ => lt_of_isLE_of_ne cmp) hne

/-- Lists in strictly ascending order are equal if they have the same members. -/
theorem eq_of_pairwise_lt {xs ys : List α} (hxs : xs.Pairwise fun a b => cmp a b = .lt)
    (hys : ys.Pairwise fun a b => cmp a b = .lt) (h : ∀ a, a ∈ xs ↔ a ∈ ys) : xs = ys := by
  have hne : ∀ {a b : α}, cmp a b = .lt → a ≠ b := by
    intro a b hab heq
    subst b
    exact OrientedCmp.not_lt_of_lt hab hab
  have hperm : xs.Perm ys := (List.perm_ext_iff_of_nodup (hxs.imp hne) (hys.imp hne)).mpr h
  apply hperm.eq_of_pairwise ?_ hxs hys
  intro a b _ _ hab hba
  exact absurd hba (OrientedCmp.not_lt_of_lt hab)

end Sorting

section Keys

variable (cmp : String → String → Ordering)

/-- Comparing names, then namespaces, inherits the laws of the comparison of texts. -/
theorem transCmp_keys [TransCmp cmp] :
    TransCmp fun a b : JobKey => (cmp a.name b.name).then (cmp a.ns b.ns) := by
  have hname := Text.transCmp_comap cmp JobKey.name
  have hns := Text.transCmp_comap cmp JobKey.ns
  exact inferInstanceAs (TransCmp (compareLex (fun a b : JobKey => cmp a.name b.name)
    (fun a b : JobKey => cmp a.ns b.ns)))

theorem lawfulEqCmp_keys [TransCmp cmp] [LawfulEqCmp cmp] :
    LawfulEqCmp fun a b : JobKey => (cmp a.name b.name).then (cmp a.ns b.ns) := by
  have htrans := transCmp_keys cmp
  refine ⟨?_⟩
  intro a b h
  obtain ⟨hname, hns⟩ := Ordering.then_eq_eq.mp h
  rw [JobKey.mk.injEq]
  exact ⟨LawfulEqCmp.eq_of_compare hname, LawfulEqCmp.eq_of_compare hns⟩

end Keys

instance : TransCmp compareKeys :=
  transCmp_keys Text.collate

/-- Only equal keys are level. -/
instance : LawfulEqCmp compareKeys :=
  lawfulEqCmp_keys Text.collate

instance : TransCmp JobKey.compare :=
  have := Text.transCmp_comap Text.compareCodePoints String.toList
  transCmp_keys fun a b => Text.compareCodePoints a.toList b.toList

instance : LawfulEqCmp JobKey.compare :=
  have := Text.transCmp_comap Text.compareCodePoints String.toList
  have : LawfulEqCmp fun a b : String => Text.compareCodePoints a.toList b.toList :=
    ⟨fun h => String.toList_inj.mp (LawfulEqCmp.eq_of_compare h)⟩
  lawfulEqCmp_keys fun a b => Text.compareCodePoints a.toList b.toList

instance : TransCmp compareJobs :=
  Text.transCmp_comap compareKeys Job.key

instance : TransCmp compareProjects := by
  have hname := Text.transCmp_comap Text.collate Project.name
  exact inferInstanceAs (TransCmp (compareLex (compareOn fun p : Project => p.status.rank)
    (fun a b : Project => Text.collate a.name b.name)))

theorem compareJobs_eq_eq {a b : Job} : compareJobs a b = .eq ↔ a.key = b.key := by
  unfold compareJobs
  exact LawfulEqCmp.compare_eq_iff_eq

theorem compareProjects_eq_eq {a b : Project} :
    compareProjects a b = .eq ↔ a.status.rank = b.status.rank ∧ a.name = b.name := by
  have hname : Text.collate a.name b.name = .eq ↔ a.name = b.name := LawfulEqCmp.compare_eq_iff_eq
  unfold compareProjects
  rw [Ordering.then_eq_eq, LawfulEqOrd.compare_eq_iff_eq, hname]

theorem rank_le_of_isLE {p q : Project} (h : (compareProjects p q).isLE) :
    p.status.rank ≤ q.status.rank := by
  rcases Ordering.isLE_then_iff_or.mp h with hlt | ⟨heq, -⟩
  · exact Nat.le_of_lt (Nat.compare_eq_lt.mp hlt)
  · exact Nat.le_of_eq (Nat.compare_eq_eq.mp heq)

/-- The order of texts is total, and only equal texts are level. Texts with one lowercase form
compare alike with all others, and nothing else stands between them. From it jobs are in a total
order by their keys, and projects in a total preorder by the ranks of their statuses and their
names. -/
theorem orders_are_lawful :
    (∀ a b, Text.collate a b = .eq ↔ a = b) ∧
      (∀ a b, Text.collate b a = (Text.collate a b).swap) ∧
      (∀ a b c, Text.collate a b = .lt → Text.collate b c = .lt → Text.collate a c = .lt) ∧
      (∀ a b c : String, Text.folded a.toList = Text.folded b.toList →
        Text.folded a.toList ≠ Text.folded c.toList →
          Text.collate a c = Text.collate b c ∧
            ¬((Text.collate a c).isLE ∧ (Text.collate c b).isLE)) ∧
      TransCmp compareJobs ∧ (∀ a b, compareJobs a b = .eq ↔ a.key = b.key) ∧
      TransCmp compareProjects ∧
      ∀ a b, compareProjects a b = .eq ↔ a.status.rank = b.status.rank ∧ a.name = b.name := by
  refine ⟨?_, ?_, ?_, ?_, inferInstance, fun _ _ => compareJobs_eq_eq, inferInstance,
    fun _ _ => compareProjects_eq_eq⟩
  · intro a b
    exact LawfulEqCmp.compare_eq_iff_eq
  · intro a b
    exact OrientedCmp.eq_swap
  · intro a b c hab hbc
    exact TransCmp.lt_trans hab hbc
  · intro a b c hab hac
    refine ⟨Text.collate_congr_of_folded_eq hab hac, ?_⟩
    rintro ⟨hle, hge⟩
    exact hac (Text.folded_eq_of_between hab hle hge)

theorem sortJobs_perm (jobs : List Job) : (sortJobs jobs).Perm jobs :=
  List.mergeSort_perm jobs _

theorem sortProjects_perm (projects : List Project) : (sortProjects projects).Perm projects :=
  List.mergeSort_perm projects _

theorem pairwise_sortProjects (projects : List Project) :
    (sortProjects projects).Pairwise fun p q => (compareProjects p q).isLE :=
  pairwise_mergeSort_isLE compareProjects projects

theorem filter_sortProjects (p : Project) (projects : List Project) :
    (sortProjects projects).filter (compareProjects p · = .eq) =
      projects.filter (compareProjects p · = .eq) :=
  filter_mergeSort_isLE compareProjects p projects

theorem pairwise_keys_sortJobs {jobs : List Job} (h : (jobs.map Job.key).Nodup) :
    ((sortJobs jobs).map Job.key).Pairwise fun a b => compareKeys a b = .lt := by
  have hle := pairwise_mergeSort_isLE compareJobs jobs
  have hne : ((sortJobs jobs).map Job.key).Nodup :=
    ((sortJobs_perm jobs).map Job.key).nodup_iff.mpr h
  rw [List.pairwise_map]
  refine hle.imp₂ ?_ (List.pairwise_map.mp hne)
  intro a b hab hkeys
  exact lt_of_isLE_of_ne compareKeys hab hkeys

end JobBoard
