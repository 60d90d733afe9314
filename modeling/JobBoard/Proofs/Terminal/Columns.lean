import JobBoard.Proofs.Terminal.Colours
import JobBoard.Proofs.Text.Trimmed

/-!
# Columns

The rows of a section are written in three columns. The first is as wide as the longest name, so no
name is cut and the second column begins at one place in every row; the third does so too unless a
text in the second is wider than its column. Main statement: `columns_line_up`.
-/
namespace JobBoard.Terminal

open Text (Blanks)

/-- What a row shows in its columns. -/
structure Cells where
  name : String
  status : String
  button : String

/-- The cells of a row: a blank name is shown as a dash, and two dashes stand for the button of a
placeholder. -/
inductive Shows (ansi : Bool) : RowView → Cells → Prop
  | named {name label : String} {status : ProjectStatus} {trigger : Button}
    (h : ¬Blanks name.toList) :
    Shows ansi (.project name status label trigger) ⟨name, label, (buttonSpan trigger).write ansi⟩
  | unnamed {name label : String} {status : ProjectStatus} {trigger : Button}
    (h : Blanks name.toList) :
    Shows ansi (.project name status label trigger) ⟨"-", label, (buttonSpan trigger).write ansi⟩
  | placeholder {job : JobKey} : Shows ansi (.placeholder job) ⟨job.name, job.ns, "- -"⟩

/-- A text with spaces behind it that fill it up to a width, if it is not as wide already. -/
structure Fills (width : Nat) (s filled : String) : Prop where
  spaces : ∃ n, filled.toList = s.toList ++ List.replicate n ' '
  length : filled.length = max width s.length

/-- A text has cells in columns, the first of them `width` characters wide behind two spaces and the
second 12, with a space between two columns. The place of the second column depends on `width`
alone, and so does that of the third if the text in the second fits. -/
structure InColumns (width : Nat) (cells : Cells) (text : String) : Prop where
  laid : ∃ first second, Fills width cells.name first ∧ first.length = width ∧
    Fills 12 cells.status second ∧
      text = "  " ++ first ++ " " ++ second ++ " " ++ cells.button ++ "\n"
  second : cells.status.toList <+: text.toList.drop (width + 3)
  third : cells.status.length ≤ 12 →
    text.toList.drop (width + 16) = cells.button.toList ++ ['\n']

theorem fills_pad (width : Nat) (s : String) : Fills width s (pad width s) where
  spaces := by
    refine ⟨width - s.length, ?_⟩
    rw [pad, String.toList_append, String.toList_ofList]
  length := by
    rw [pad, String.length_append, String.length_ofList, List.length_replicate]
    omega

theorem minNameWidth_le_nameWidth (rows : List RowView) : minNameWidth ≤ nameWidth rows := by
  rw [nameWidth, List.foldl_max]
  exact le_max_left _ _

theorem length_rowName_le_nameWidth {rows : List RowView} {row : RowView} (h : row ∈ rows) :
    (rowName row).length ≤ nameWidth rows := by
  rw [nameWidth, List.foldl_max]
  exact le_max_of_le_right (List.le_max?_getD_of_mem (List.mem_map_of_mem h))

theorem shows_row (ansi : Bool) (row : RowView) :
    Shows ansi row ⟨rowName row, rowStatus row, (rowButton row).write ansi⟩ := by
  cases row with
  | project name status label trigger =>
    rw [rowName, orDash]
    split
    next h => exact .unnamed (Text.blank_iff.mp h)
    next h => exact .named (mt Text.blank_iff.mpr h)
  | placeholder job => exact .placeholder

theorem inColumns_of_fills {width : Nat} {cells : Cells} {first second : String}
    (hfirst : Fills width cells.name first) (hwidth : first.length = width)
    (hsecond : Fills 12 cells.status second) :
    InColumns width cells ("  " ++ first ++ " " ++ second ++ " " ++ cells.button ++ "\n") := by
  have htext : ("  " ++ first ++ " " ++ second ++ " " ++ cells.button ++ "\n").toList =
      (' ' :: ' ' :: first.toList ++ [' ']) ++
        (second.toList ++ [' '] ++ (cells.button.toList ++ ['\n'])) := by
    simp
  have hbefore : (' ' :: ' ' :: first.toList ++ [' ']).length = width + 3 := by
    simp [String.length_toList, hwidth]
  refine ⟨⟨first, second, hfirst, hwidth, hsecond, rfl⟩, ?_, ?_⟩
  · obtain ⟨n, hspaces⟩ := hsecond.spaces
    rw [htext, List.drop_left' hbefore, hspaces, List.append_assoc, List.append_assoc]
    exact List.prefix_append _ _
  · intro hfits
    have hlength : (second.toList ++ [' ']).length = 13 := by
      simp [String.length_toList, hsecond.length, hfits]
    have hplace : width + 16 = width + 3 + 13 := rfl
    rw [htext, hplace, ← List.drop_drop, List.drop_left' hbefore, List.drop_left' hlength]

theorem writeLine_rowLine (ansi : Bool) (width : Nat) (row : RowView) :
    writeLine ansi (rowLine width row) =
      "  " ++ pad width (rowName row) ++ " " ++ pad statusWidth (rowStatus row) ++ " "
        ++ (rowButton row).write ansi ++ "\n" := by
  apply String.toList_inj.mp
  rw [toList_writeLine]
  simp [rowLine, Span.write, colour?]

theorem inColumns_rowLine {width : Nat} {row : RowView} (h : (rowName row).length ≤ width)
    (ansi : Bool) :
    InColumns width ⟨rowName row, rowStatus row, (rowButton row).write ansi⟩
      (writeLine ansi (rowLine width row)) := by
  have hfirst := fills_pad width (rowName row)
  have hwidth : (pad width (rowName row)).length = width := by
    rw [hfirst.length, max_eq_left h]
  rw [writeLine_rowLine]
  exact inColumns_of_fills hfirst hwidth (fills_pad statusWidth (rowStatus row))

/-- All rows of a section are written in columns of one width, with colours and without. -/
theorem columns_line_up (s : SectionView) :
    ∃ width head, ∃ line : RowView → Line, 24 ≤ width ∧
      sectionLines s = head :: s.rows.map line ∧
      ∀ ansi, ∀ row ∈ s.rows, ∃ cells, Shows ansi row cells ∧
        InColumns width cells (writeLine ansi (line row)) := by
  refine ⟨nameWidth s.rows, _, _, minNameWidth_le_nameWidth s.rows, rfl, ?_⟩
  intro ansi row hrow
  exact ⟨_, shows_row ansi row, inColumns_rowLine (length_rowName_le_nameWidth hrow) ansi⟩

end JobBoard.Terminal
