import JobBoard.Text.Lowercase

/-!
# The order of texts

Texts are compared without regard to case first. Between texts that differ in case only, the first
position where they differ decides, a lowercase letter going first. Any two texts that are still
level are put in code point order, so that only equal texts compare equal.
-/
namespace JobBoard.Text

def compareCodePoints (a b : List Char) : Ordering :=
  List.compareLex (fun x y => compare x.toNat y.toNat) a b

/-- A text with every character in lower case. -/
def folded (cs : List Char) : List Char :=
  cs.flatMap lowercase

/-- At the first position where two texts differ, a lowercase letter goes before any other
character. A text that continues another is level with it. -/
def lowercaseFirst : List Char → List Char → Ordering
  | x :: xs, y :: ys =>
    if x = y then lowercaseFirst xs ys
    else match isLowercase x, isLowercase y with
      | true, false => .lt
      | false, true => .gt
      | _, _ => compare x.toNat y.toNat
  | _, _ => .eq

/-- The order of texts, over their characters. -/
def collateChars (a b : List Char) : Ordering :=
  (compareCodePoints (folded a) (folded b)).then
    ((lowercaseFirst a b).then (compareCodePoints a b))

def collate (a b : String) : Ordering :=
  collateChars a.toList b.toList

end JobBoard.Text
