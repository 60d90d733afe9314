import JobBoard.Terminal.DateTime
import JobBoard.Terminal.Picture
import Mathlib.Data.Nat.Digits.Defs

/-!
# Colours and text

A picture is written with the same text whether tones are shown as colours or not: without its
escape sequences, what is written for a terminal with colours is what is written for one without.
-/
namespace JobBoard.Terminal

def escape : Char := '\x1b'

/-- What follows an escape sequence in front of a text: after the escape character a bracket, any
number of digits, and a letter. -/
def afterSequence? : List Char → Option (List Char)
  | e :: '[' :: cs =>
    if e = escape then
      match cs.dropWhile Char.isDigit with
      | action :: rest => if action.isAlpha then some rest else none
      | [] => none
    else none
  | _ => none

theorem length_of_afterSequence? {cs rest : List Char} (h : afterSequence? cs = some rest) :
    rest.length < cs.length := by
  unfold afterSequence? at h
  split at h
  next e cs =>
    have hdrop := (List.dropWhile_sublist Char.isDigit (l := cs)).length_le
    split at h
    · split at h
      next action after hcs =>
        split at h
        · cases h
          rw [hcs] at hdrop
          simp only [List.length_cons] at hdrop ⊢
          omega
        · cases h
      · cases h
    · cases h
  · cases h

def withoutSequences : List Char → List Char
  | [] => []
  | c :: cs =>
    match _h : afterSequence? (c :: cs) with
    | some rest => withoutSequences rest
    | none => c :: withoutSequences cs
termination_by cs => cs.length
decreasing_by
  · exact length_of_afterSequence? (by assumption)
  · exact Nat.lt_succ_self _

/-- A text has no escape character. -/
def Plain (s : String) : Prop :=
  escape ∉ s.toList

instance (s : String) : Decidable (Plain s) :=
  inferInstanceAs (Decidable (escape ∉ s.toList))

section Sequences

theorem withoutSequences_cons {c : Char} (hc : c ≠ escape) (cs : List Char) :
    withoutSequences (c :: cs) = c :: withoutSequences cs := by
  have hnone : afterSequence? (c :: cs) = none := by
    unfold afterSequence?
    split
    next h =>
      cases h
      exact if_neg hc
    next => rfl
  rw [withoutSequences]
  split
  next h =>
    rw [hnone] at h
    cases h
  next => rfl

theorem withoutSequences_plain {s : String} (hs : Plain s) (rest : List Char) :
    withoutSequences (s.toList ++ rest) = s.toList ++ withoutSequences rest := by
  unfold Plain at hs
  generalize s.toList = cs at hs ⊢
  induction cs with
  | nil => rfl
  | cons c cs ih =>
    rw [List.mem_cons, not_or] at hs
    rw [List.cons_append, withoutSequences_cons (Ne.symm hs.1), ih hs.2, List.cons_append]

theorem withoutSequences_escapeSequence {parameter : String} {action : Char}
    (hparameter : parameter.toList.all Char.isDigit = true)
    (haction : action.isAlpha = true ∧ ¬action.isDigit = true) (rest : List Char) :
    withoutSequences ((escapeSequence parameter action).toList ++ rest) =
      withoutSequences rest := by
  have htext : (escapeSequence parameter action).toList ++ rest =
      escape :: '[' :: (parameter.toList ++ action :: rest) := by
    simp [escapeSequence, escape]
  have hafter : afterSequence? (escape :: '[' :: (parameter.toList ++ action :: rest)) =
      some rest := by
    rw [afterSequence?, if_pos rfl,
      List.dropWhile_append_of_pos (List.all_eq_true.mp hparameter),
      List.dropWhile_cons_of_neg haction.2]
    exact if_pos haction.1
  rw [htext, withoutSequences]
  split
  next h =>
    rw [hafter] at h
    cases h
    rfl
  next h =>
    rw [hafter] at h
    cases h

end Sequences

section Lines

def AllPlain (line : Line) : Prop :=
  ∀ s ∈ line, Plain s.text

theorem write_false (s : Span) : s.write false = s.text := by
  unfold Span.write
  split <;> rfl

theorem withoutSequences_write {s : Span} (hs : Plain s.text) (rest : List Char) :
    withoutSequences ((s.write true).toList ++ rest) =
      (s.write false).toList ++ withoutSequences rest := by
  have hcolour : ∀ tone : Tone, ∀ colour, colour? tone = some colour →
      colour.toList.all Char.isDigit = true := by
    intro tone colour h
    cases tone <;> cases h <;> decide
  rw [write_false, Span.write]
  split
  next colour htone =>
    rw [if_pos rfl, String.toList_append, String.toList_append, List.append_assoc,
      List.append_assoc, withoutSequences_escapeSequence (hcolour _ _ htone) (by decide),
      withoutSequences_plain hs, withoutSequences_escapeSequence (by decide) (by decide)]
  next => exact withoutSequences_plain hs rest

theorem toList_writeLine (ansi : Bool) (line : Line) :
    (writeLine ansi line).toList = line.flatMap (fun s => (s.write ansi).toList) ++ ['\n'] := by
  rw [writeLine, String.toList_append, String.toList_join, List.flatMap_map]
  rfl

theorem withoutSequences_writeLine {line : Line} (h : AllPlain line) (rest : List Char) :
    withoutSequences ((writeLine true line).toList ++ rest) =
      (writeLine false line).toList ++ withoutSequences rest := by
  have hspans : ∀ rest, withoutSequences (line.flatMap (fun s => (s.write true).toList) ++ rest) =
      line.flatMap (fun s => (s.write false).toList) ++ withoutSequences rest := by
    unfold AllPlain at h
    induction line with
    | nil => intro rest; rfl
    | cons s line ih =>
      intro rest
      obtain ⟨hs, hline⟩ := List.forall_mem_cons.mp h
      rw [List.flatMap_cons, List.append_assoc, withoutSequences_write hs, ih hline,
        List.flatMap_cons, List.append_assoc]
  rw [toList_writeLine, toList_writeLine, List.append_assoc, hspans, List.append_assoc]
  exact congrArg _ (withoutSequences_cons (by decide) rest)

theorem withoutSequences_writeLines {lines : List Line} (h : ∀ line ∈ lines, AllPlain line) :
    withoutSequences (writeLines true lines).toList = (writeLines false lines).toList := by
  have hlines : withoutSequences (lines.flatMap fun line => (writeLine true line).toList) =
      lines.flatMap fun line => (writeLine false line).toList := by
    induction lines with
    | nil => rw [List.flatMap_nil, List.flatMap_nil, withoutSequences]
    | cons line lines ih =>
      obtain ⟨hline, hlines⟩ := List.forall_mem_cons.mp h
      rw [List.flatMap_cons, withoutSequences_writeLine hline, ih hlines, List.flatMap_cons]
  have hclear (rest : List Char) :
      withoutSequences (clearScreen.toList ++ rest) = withoutSequences rest := by
    rw [clearScreen, String.toList_append, List.append_assoc,
      withoutSequences_escapeSequence (by decide) (by decide),
      withoutSequences_escapeSequence (by decide) (by decide)]
  rw [writeLines, writeLines, if_pos rfl, if_neg (by decide), String.toList_append,
    String.toList_append, String.toList_join, String.toList_join, List.flatMap_map,
    List.flatMap_map, hclear, hlines]
  rfl

theorem plain_writeLines {lines : List Line} (h : ∀ line ∈ lines, AllPlain line) :
    Plain (writeLines false lines) := by
  intro hmem
  rw [writeLines, if_neg (by decide), String.toList_append, String.toList_join,
    List.flatMap_map] at hmem
  obtain ⟨line, hline, hmem⟩ := List.mem_flatMap.mp hmem
  rw [toList_writeLine] at hmem
  rcases List.mem_append.mp hmem with hmem | hmem
  · obtain ⟨s, hs, hmem⟩ := List.mem_flatMap.mp hmem
    rw [write_false] at hmem
    exact h line hline s hs hmem
  · exact absurd hmem (by decide)

end Lines

section Texts

theorem plain_append {s s' : String} : Plain (s ++ s') ↔ Plain s ∧ Plain s' := by
  rw [Plain, String.toList_append, List.mem_append, not_or]
  rfl

theorem plain_toDigits (n : Nat) : escape ∉ Nat.toDigits 10 n := by
  intro h
  have hdigit := Nat.isDigit_of_mem_toDigits (by decide) (by decide) h
  exact absurd hdigit (by decide)

theorem plain_toString (n : Nat) : Plain (toString n) := by
  rw [Plain, Nat.toString_eq_repr, Nat.toList_repr]
  exact plain_toDigits n

theorem plain_ofList_replicate {c : Char} (hc : c ≠ escape) (n : Nat) :
    Plain (String.ofList (List.replicate n c)) := by
  rw [Plain, String.toList_ofList, List.mem_replicate]
  exact fun h => hc h.2.symm

theorem plain_pad {s : String} (hs : Plain s) (width : Nat) : Plain (pad width s) :=
  plain_append.mpr ⟨hs, plain_ofList_replicate (by decide) _⟩

theorem plain_orDash {s : String} (hs : Plain s) : Plain (orDash s) := by
  unfold orDash
  split
  · decide
  · exact hs

namespace DateTime

theorem plain_padded (width n : Nat) : Plain (padded width n) := by
  rw [Plain, padded, String.toList_ofList, List.mem_append, List.mem_replicate]
  rintro (⟨-, h⟩ | h)
  · exact absurd h (by decide)
  · exact plain_toDigits n h

theorem plain_text (t : DateTime) : Plain t.text := by
  have hyear : Plain (yearText t.year) := by
    unfold yearText
    extract_lets sign
    refine plain_append.mpr ⟨?_, plain_padded _ _⟩
    unfold sign
    split_ifs <;> decide
  simp only [text, plain_append, hyear, plain_padded, true_and, and_true]
  decide

end DateTime

end Texts

section Pictures

def rowTexts : RowView → List String
  | .project name _ label trigger => [name, label, trigger.label]
  | .placeholder job => [job.name, job.ns]

def sectionTexts (s : SectionView) : List String :=
  s.caption :: s.discovery.label :: s.rows.flatMap rowTexts

def Picture.texts (p : Picture) : List String :=
  p.view.lastError.toList ++ p.view.sections.flatMap sectionTexts ++
    p.view.toasts.flatMap (fun t => [t.title, t.message]) ++ p.notice.toList

theorem allPlain_plainLine {s : String} (h : Plain s) : AllPlain (plainLine s) :=
  List.forall_mem_singleton.mpr h

theorem plain_buttonSpan {b : Button} (h : Plain b.label) : Plain (buttonSpan b).text := by
  unfold buttonSpan
  dsimp only
  split_ifs
  · simp only [plain_append, h, and_true]
    decide
  · simp only [plain_append, h, and_true]
    decide

theorem allPlain_rowLine {row : RowView} (h : ∀ s ∈ rowTexts row, Plain s) (width : Nat) :
    AllPlain (rowLine width row) := by
  have hname : Plain (rowName row) := by
    cases row with
    | project name status label trigger => exact plain_orDash (h name (by simp [rowTexts]))
    | placeholder job => exact h job.name (by simp [rowTexts])
  have hstatus : Plain (rowStatus row) := by
    cases row with
    | project name status label trigger => exact h label (by simp [rowTexts])
    | placeholder job => exact h job.ns (by simp [rowTexts])
  have hbutton : Plain (rowButton row).text := by
    cases row with
    | project name status label trigger =>
      exact plain_buttonSpan (h trigger.label (by simp [rowTexts]))
    | placeholder job =>
      change Plain (emptyCell ++ " " ++ emptyCell)
      decide
  refine List.forall_mem_cons.mpr ⟨?_, List.forall_mem_singleton.mpr hbutton⟩
  simp only [plain_append, plain_pad hname, plain_pad hstatus, and_true]
  decide

theorem allPlain_sectionLines {s : SectionView} (h : ∀ text ∈ sectionTexts s, Plain text) :
    ∀ line ∈ sectionLines s, AllPlain line := by
  obtain ⟨hcaption, h⟩ := List.forall_mem_cons.mp h
  obtain ⟨hdiscovery, hrows⟩ := List.forall_mem_cons.mp h
  refine List.forall_mem_cons.mpr ⟨?_, ?_⟩
  · refine List.forall_mem_cons.mpr ⟨plain_append.mpr ⟨hcaption, by decide⟩, ?_⟩
    exact List.forall_mem_singleton.mpr (plain_buttonSpan hdiscovery)
  · intro line hline
    obtain ⟨row, hrow, rfl⟩ := List.mem_map.mp hline
    exact allPlain_rowLine (fun s hs => hrows s (List.mem_flatMap_of_mem hrow hs)) _

theorem allPlain_toastLine {t : Toast} (htitle : Plain t.title) (hmessage : Plain t.message) :
    AllPlain (toastLine t) := by
  have htag : Plain (toastTag t.kind) := by
    cases t.kind <;> decide
  refine List.forall_mem_singleton.mpr ?_
  split_ifs
  · simp only [plain_append, htag, htitle, and_true]
    decide
  · simp only [plain_append, htag, htitle, hmessage, and_true]
    decide

theorem plain_statsText (s : Stats) : Plain (statsText s) := by
  unfold statsText
  simp only [plain_append, plain_toString, and_true]
  decide

namespace Picture

theorem plain_titleText (p : Picture) {updated : String} (h : Plain updated) :
    Plain (p.titleText updated) := by
  have hhealth : Plain (healthLabel p.view.health) := by
    cases p.view.health <;> decide
  unfold titleText
  simp only [plain_append, plain_toString, hhealth, h, and_true]
  decide

theorem allPlain_errorLines {p : Picture} (h : ∀ s ∈ p.view.lastError.toList, Plain s) :
    ∀ line ∈ p.errorLines, AllPlain line := by
  intro line hline
  obtain ⟨error, herror, rfl⟩ := List.mem_map.mp hline
  exact List.forall_mem_singleton.mpr (plain_append.mpr ⟨by decide, h error herror⟩)

theorem allPlain_tableLines {p : Picture}
    (h : ∀ s ∈ p.view.sections.flatMap sectionTexts, Plain s) :
    ∀ line ∈ p.tableLines, AllPlain line := by
  have hempty : AllPlain (plainLine "") := allPlain_plainLine (by decide)
  unfold tableLines
  split
  · have hnone : AllPlain (plainLine "No renovate jobs.") := allPlain_plainLine (by decide)
    exact List.forall_mem_cons.mpr ⟨hempty, List.forall_mem_singleton.mpr hnone⟩
  · intro line hline
    obtain ⟨s, hs, hline⟩ := List.mem_flatMap.mp hline
    rcases List.mem_cons.mp hline with rfl | hline
    · exact hempty
    · refine allPlain_sectionLines ?_ line hline
      intro text htext
      exact h text (List.mem_flatMap_of_mem hs htext)

theorem allPlain_toastLines {p : Picture}
    (h : ∀ t ∈ p.view.toasts, Plain t.title ∧ Plain t.message) :
    ∀ line ∈ p.toastLines, AllPlain line := by
  unfold toastLines
  extract_lets visible
  split
  · simp
  · refine List.forall_mem_cons.mpr ⟨allPlain_plainLine (by decide), ?_⟩
    intro line hline
    obtain ⟨t, ht, rfl⟩ := List.mem_map.mp hline
    obtain ⟨htitle, hmessage⟩ := h t (List.mem_filter.mp ht).1
    exact allPlain_toastLine htitle hmessage

theorem allPlain_noticeLines {p : Picture} (h : ∀ s ∈ p.notice.toList, Plain s) :
    ∀ line ∈ p.noticeLines, AllPlain line := by
  intro line hline
  obtain ⟨notice, hnotice, rfl⟩ := List.mem_map.mp hline
  exact allPlain_plainLine (plain_append.mpr ⟨by decide, h notice hnotice⟩)

theorem allPlain_lines {p : Picture} {updated : String} (h : ∀ s ∈ p.texts, Plain s)
    (hupdated : Plain updated) : ∀ line ∈ p.lines updated, AllPlain line := by
  unfold texts at h
  simp only [List.forall_mem_append] at h
  obtain ⟨⟨⟨herror, hsections⟩, htoasts⟩, hnotice⟩ := h
  have htoasts : ∀ t ∈ p.view.toasts, Plain t.title ∧ Plain t.message := by
    intro t ht
    have htexts {s : String} (hs : s ∈ [t.title, t.message]) : Plain s :=
      htoasts s (List.mem_flatMap_of_mem ht hs)
    exact ⟨htexts (by simp), htexts (by simp)⟩
  have hhead : ∀ line ∈ [plainLine (p.titleText updated), plainLine (statsText p.view.stats)],
      AllPlain line :=
    List.forall_mem_cons.mpr ⟨allPlain_plainLine (plain_titleText p hupdated),
      List.forall_mem_singleton.mpr (allPlain_plainLine (plain_statsText _))⟩
  have hempty : AllPlain (plainLine "") := allPlain_plainLine (by decide)
  have husage : AllPlain (plainLine usageLine) := allPlain_plainLine (by decide +kernel)
  unfold lines
  simp only [List.forall_mem_append]
  exact ⟨⟨⟨⟨⟨⟨hhead, allPlain_errorLines herror⟩, allPlain_tableLines hsections⟩,
    allPlain_toastLines htoasts⟩, List.forall_mem_singleton.mpr hempty⟩,
    allPlain_noticeLines hnotice⟩, List.forall_mem_singleton.mpr husage⟩

/-- Without its escape sequences the text of a picture in colours is its text without colours, and
that has none, if no text that the picture shows has an escape character. -/
theorem colours_change_no_text {p : Picture} (h : ∀ s ∈ p.texts, escape ∉ s.toList)
    (t : DateTime) :
    withoutSequences (p.text t.text true).toList = (p.text t.text false).toList ∧
      escape ∉ (p.text t.text false).toList := by
  have hlines := allPlain_lines h t.plain_text
  exact ⟨withoutSequences_writeLines hlines, plain_writeLines hlines⟩

/-- A picture with a span in every tone. -/
def motley : Picture where
  view :=
    { sections := [⟨⟨"api", "ops"⟩, "api - ops", ⟨"Discovery Running...", false, .active⟩,
        [.project "group/api" .failed "failed" ⟨"Trigger", true, .neutral⟩]⟩]
      toasts := [⟨1, .success, "Renovate triggered", "", true⟩]
      lastError := some "timeout" }
  notice := some "usage: refresh"

theorem motley_colours_change_no_text :
    (∀ s ∈ motley.texts, escape ∉ s.toList) ∧
      withoutSequences (motley.text (DateTime.text ⟨2024, 5, 1, 10, 30, 0⟩) true).toList =
        (motley.text (DateTime.text ⟨2024, 5, 1, 10, 30, 0⟩) false).toList ∧
      escape ∉ (motley.text (DateTime.text ⟨2024, 5, 1, 10, 30, 0⟩) false).toList := by
  have htexts : ∀ s ∈ motley.texts, escape ∉ s.toList := by decide +kernel
  exact ⟨htexts, colours_change_no_text htexts _⟩

end Picture

end Pictures

end JobBoard.Terminal
