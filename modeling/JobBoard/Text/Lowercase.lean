import JobBoard.Text.CaseData

/-!
# Lower case

Full lowercasing of a single character and the Lowercase property, after the Unicode Standard. A
character lowercases to one character, the dotted capital I to two.
-/
namespace JobBoard.Text

/-- The simple lowercase mapping; a character without one maps to itself. -/
def simpleLowercase (c : Char) : Char :=
  if c.toNat < 0x80 then c.toLower
  else match capitalRuns.find? fun r => r.1.has c.toNat with
    | some r => Char.ofNat (r.2 + (c.toNat - r.1.first))
    | none => c

/-- The full lowercase mapping. -/
def lowercase (c : Char) : List Char :=
  if c.toNat = 0x130 then ['i', Char.ofNat 0x307] else [simpleLowercase c]

def isLowercase (c : Char) : Bool :=
  if c.toNat < 0x80 then c.isLower else lowercaseRuns.any fun r => r.has c.toNat

theorem lowercase_ne_nil (c : Char) : lowercase c ≠ [] := by
  unfold lowercase
  split <;> simp

end JobBoard.Text
