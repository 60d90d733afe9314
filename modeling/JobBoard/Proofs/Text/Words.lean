import JobBoard.Text.Blank
import Mathlib.Data.List.Basic

/-!
# The words of a text

A text spells words if it consists of them with blanks around, and with a blank at least between two
of them. These are the longest runs of characters that are not blank, and the only words it spells.
-/
namespace JobBoard.Text

def Blanks (cs : List Char) : Prop :=
  ∀ c ∈ cs, isBlank c = true

structure IsWord (cs : List Char) : Prop where
  ne_nil : cs ≠ []
  no_blank : ∀ c ∈ cs, isBlank c = false

instance (cs : List Char) : Decidable (IsWord cs) :=
  decidable_of_iff (cs ≠ [] ∧ cs.all (fun c => !isBlank c) = true) <| by
    simp only [List.all_eq_true, Bool.not_eq_true']
    exact ⟨fun h => ⟨h.1, h.2⟩, fun h => ⟨h.ne_nil, h.no_blank⟩⟩

/-- Whatever the text begins with ends a word in front of it. -/
def EndsWord (rest : List Char) : Prop :=
  rest.head?.all isBlank = true

/-- The words that a text spells. -/
inductive Spells : List Char → List (List Char) → Prop
  | blanks {cs : List Char} (h : Blanks cs) : Spells cs []
  | word {front w rest : List Char} {ws : List (List Char)} (hfront : Blanks front) (hw : IsWord w)
      (hrest : EndsWord rest) (h : Spells rest ws) : Spells (front ++ (w ++ rest)) (w :: ws)

theorem blanks_cons {c : Char} {cs : List Char} :
    Blanks (c :: cs) ↔ isBlank c = true ∧ Blanks cs :=
  List.forall_mem_cons

section Runs

variable {cs rest : List Char}

theorem wordRuns_blanks (hcs : Blanks cs) (rest : List Char) :
    wordRuns (cs ++ rest) = wordRuns rest := by
  induction cs with
  | nil => rfl
  | cons c cs ih =>
    obtain ⟨hc, hcs⟩ := blanks_cons.mp hcs
    rw [List.cons_append, wordRuns, if_pos hc, ih hcs]

theorem wordRuns_word {w : List Char} (hw : IsWord w) (hrest : EndsWord rest) :
    wordRuns (w ++ rest) = w :: wordRuns rest := by
  induction w with
  | nil => exact absurd rfl hw.ne_nil
  | cons c w ih =>
    obtain ⟨hc, hnot⟩ := List.forall_mem_cons.mp hw.no_blank
    have hc : ¬isBlank c = true := by simp [hc]
    rw [List.cons_append, wordRuns, if_neg hc]
    cases w with
    | nil => exact if_pos hrest
    | cons d w =>
      have hd : ¬((d :: w ++ rest).head?.all isBlank = true) := by
        simp [hnot d List.mem_cons_self]
      rw [if_neg hd, ih ⟨List.cons_ne_nil d w, hnot⟩]

theorem wordRuns_of_spells {ws : List (List Char)} (h : Spells cs ws) : wordRuns cs = ws := by
  induction h with
  | blanks h => simpa [wordRuns] using wordRuns_blanks h []
  | word hfront hw hrest _ ih => rw [wordRuns_blanks hfront, wordRuns_word hw hrest, ih]

theorem IsWord.spells {w : List Char} {ws : List (List Char)} (hw : IsWord w)
    (hrest : EndsWord rest) (h : Spells rest ws) : Spells (w ++ rest) (w :: ws) := by
  have hfront : Blanks [] := by simp [Blanks]
  exact Spells.word hfront hw hrest h

theorem Spells.cons_blank {c : Char} {ws : List (List Char)} (hc : isBlank c = true)
    (h : Spells cs ws) : Spells (c :: cs) ws := by
  cases h with
  | blanks h => exact .blanks (blanks_cons.mpr ⟨hc, h⟩)
  | word hfront hw hrest h => exact .word (blanks_cons.mpr ⟨hc, hfront⟩) hw hrest h

theorem Spells.cons_joined {c : Char} {ws : List (List Char)} (hc : isBlank c = false)
    (hcs : ¬EndsWord cs) (h : Spells cs ws) :
    ∃ w rest, ws = w :: rest ∧ Spells (c :: cs) ((c :: w) :: rest) := by
  cases h with
  | blanks h =>
    cases cs with
    | nil => exact absurd rfl hcs
    | cons d cs => exact absurd (blanks_cons.mp h).1 hcs
  | @word front w rest ws hfront hw hrest h =>
    cases front with
    | nil =>
      refine ⟨w, ws, rfl, ?_⟩
      have hword : IsWord (c :: w) :=
        ⟨List.cons_ne_nil c w, List.forall_mem_cons.mpr ⟨hc, hw.no_blank⟩⟩
      exact hword.spells hrest h
    | cons d front => exact absurd (blanks_cons.mp hfront).1 hcs

theorem spells_wordRuns (cs : List Char) : Spells cs (wordRuns cs) := by
  induction cs with
  | nil => exact .blanks (by simp [Blanks])
  | cons c cs ih =>
    unfold wordRuns
    split
    next hc => exact ih.cons_blank hc
    next hc =>
      have hc : isBlank c = false := by simpa using hc
      split
      next hcs =>
        have hword : IsWord [c] := ⟨List.cons_ne_nil c [], List.forall_mem_singleton.mpr hc⟩
        exact hword.spells hcs ih
      next hcs =>
        obtain ⟨w, ws, hruns, h⟩ := ih.cons_joined hc hcs
        rw [hruns]
        exact h

end Runs

/-- The longest runs of characters that are not blank are the words that a text spells. -/
theorem wordRuns_eq_iff {cs : List Char} {ws : List (List Char)} :
    wordRuns cs = ws ↔ Spells cs ws := by
  constructor
  · rintro rfl
    exact spells_wordRuns cs
  · exact wordRuns_of_spells

theorem words_eq_iff {s : String} {ws : List String} :
    words s = ws ↔ Spells s.toList (ws.map String.toList) := by
  rw [← wordRuns_eq_iff, words]
  constructor
  · rintro rfl
    simp
  · intro h
    simp [h]

theorem Spells.isWord {cs : List Char} {ws : List (List Char)} (h : Spells cs ws) :
    ∀ w ∈ ws, IsWord w := by
  induction h with
  | blanks h => simp
  | word _ hw _ _ ih => exact List.forall_mem_cons.mpr ⟨hw, ih⟩

theorem Spells.eq_nil_iff {cs : List Char} {ws : List (List Char)} (h : Spells cs ws) :
    ws = [] ↔ Blanks cs := by
  constructor
  · rintro rfl
    cases h
    assumption
  · intro hcs
    rw [← wordRuns_of_spells h]
    exact wordRuns_of_spells (.blanks hcs)

/-- Blanks have no case. -/
theorem toLower_of_isBlank {c : Char} (h : isBlank c = true) : c.toLower = c := by
  unfold Char.toLower
  split
  next hupper =>
    have hrange : 65 ≤ c.toNat ∧ c.toNat ≤ 90 := hupper
    simp [isBlank] at h
    omega
  next => rfl

theorem IsWord.of_asciiLower {s : String} (h : IsWord (asciiLower s).toList) :
    IsWord s.toList := by
  rw [asciiLower, String.toList_ofList] at h
  refine ⟨mt (congrArg (List.map Char.toLower)) h.ne_nil, ?_⟩
  intro c hc
  have hlower := h.no_blank c.toLower (List.mem_map_of_mem hc)
  by_contra hblank
  rw [Bool.not_eq_false] at hblank
  rw [toLower_of_isBlank hblank, hblank] at hlower
  cases hlower

theorem spells_flatMap {ps : List (List Char × String)} {back : List Char}
    (hps : ∀ p ∈ ps, p.1 ≠ [] ∧ Blanks p.1 ∧ IsWord p.2.toList) (hback : Blanks back) :
    Spells (ps.flatMap (fun p => p.1 ++ p.2.toList) ++ back) (ps.map (·.2.toList)) ∧
      EndsWord (ps.flatMap (fun p => p.1 ++ p.2.toList) ++ back) := by
  induction ps with
  | nil =>
    refine ⟨.blanks hback, ?_⟩
    cases back with
    | nil => rfl
    | cons c back => exact (blanks_cons.mp hback).1
  | cons p ps ih =>
    obtain ⟨⟨hne, hblanks, hword⟩, hps⟩ := List.forall_mem_cons.mp hps
    obtain ⟨hspells, hends⟩ := ih hps
    rw [List.flatMap_cons, List.append_assoc, List.append_assoc]
    refine ⟨.word hblanks hword hends hspells, ?_⟩
    cases hfront : p.1 with
    | nil => exact absurd hfront hne
    | cons c front =>
      rw [hfront] at hblanks
      exact (blanks_cons.mp hblanks).1

end JobBoard.Text
