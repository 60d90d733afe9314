import JobBoard.Json.Record

/-!
# Records of texts

Jobs and projects are records whose first two fields are texts. `readTexts` reads these two and
refuses what is no such record; what it reads depends on the two fields alone.
-/
namespace JobBoard.Json

theorem bind_eq_ok {ε α β : Type} {x : Except ε α} {f : α → Except ε β} {b : β} :
    (x >>= f) = .ok b ↔ ∃ a, x = .ok a ∧ f a = .ok b := by
  cases x <;> simp [bind, Except.bind]

theorem bind_eq_error {ε α β : Type} {x : Except ε α} {f : α → Except ε β} {e : ε} :
    (x >>= f) = .error e ↔ x = .error e ∨ ∃ a, x = .ok a ∧ f a = .error e := by
  cases x <;> simp [bind, Except.bind]

theorem mapError_bind {ε δ α β : Type} (g : ε → δ) (x : Except ε α) (f : α → Except ε β) :
    (x >>= f).mapError g = x.mapError g >>= fun a => (f a).mapError g := by
  cases x <;> rfl

theorem mapError_map {ε δ α β : Type} (g : ε → δ) (f : α → β) (x : Except ε α) :
    (f <$> x).mapError g = f <$> x.mapError g := by
  cases x <;> rfl

theorem cases_of_mapError_eq {ε δ α : Type} {g : ε → δ} {x y : Except ε α}
    (h : x.mapError g = y.mapError g) :
    (∃ a, x = .ok a ∧ y = .ok a) ∨ ∃ m n, x = .error m ∧ y = .error n ∧ g m = g n := by
  cases x with
  | error m =>
    cases y with
    | error n => exact Or.inr ⟨m, n, rfl, rfl, Except.error.inj h⟩
    | ok a => cases h
  | ok a =>
    cases y with
    | error n => cases h
    | ok b => exact Or.inl ⟨a, rfl, congrArg Except.ok (Except.ok.inj h).symm⟩

def Value.field? (v : Value) (name : String) (place : Nat) : Option Value :=
  match v with
  | .object members => member? name members
  | .array items => items[place]?
  | _ => none

theorem Value.field_eq (v : Value) (name : String) (place : Nat) :
    v.field name place = (v.field? name place).getD .null := by
  cases v <;> rfl

/-- The field is missing, null or a text. -/
def isText : Option Value → Bool
  | none => true
  | some .null => true
  | some (.string _) => true
  | _ => false

def textOf : Option Value → String
  | some (.string s) => s
  | _ => ""

/-- An object, or an array of at most so many fields. -/
def Value.isRecord (count : Nat) : Value → Bool
  | .object _ => true
  | .array items => items.length ≤ count
  | _ => false

def Value.hasTexts (count : Nat) (first second : String) (v : Value) : Bool :=
  v.isRecord count && isText (v.field? first 0) && isText (v.field? second 1)

def readTexts (record : String) (count : Nat) (first second : String) (v : Value) :
    Except Mismatch (String × String) := do
  checkRecord record v
  let s ← textField (v.field first 0)
  let t ← textField (v.field second 1)
  checkSurplus count v
  return (s, t)

theorem textField_of_isText {f : Option Value} (h : isText f = true) :
    textField (f.getD .null) = .ok (textOf f) := by
  cases f with
  | none => rfl
  | some v =>
    cases v with
    | null => rfl
    | string s => rfl
    | _ => cases h

theorem isText_of_textField {f : Option Value} {s : String}
    (h : textField (f.getD .null) = .ok s) : isText f = true := by
  cases f with
  | none => rfl
  | some v =>
    cases v with
    | null => rfl
    | string s => rfl
    | _ => cases h

theorem isRecord_iff {record : String} {count : Nat} {v : Value} :
    v.isRecord count = true ↔ checkRecord record v = .ok () ∧ checkSurplus count v = .ok () := by
  cases v with
  | array items =>
    by_cases h : count < items.length
    · simp [Value.isRecord, checkSurplus, h]
    · simp [Value.isRecord, checkRecord, checkSurplus, h, Nat.not_lt.mp h]
  | _ => simp [Value.isRecord, checkRecord, checkSurplus]

section readTexts

variable {first second : String} {count : Nat} {v : Value}

theorem readTexts_of_hasTexts (record : String) (h : v.hasTexts count first second = true) :
    readTexts record count first second v =
      .ok (textOf (v.field? first 0), textOf (v.field? second 1)) := by
  simp only [Value.hasTexts, Bool.and_eq_true] at h
  obtain ⟨⟨hrecord, hfirst⟩, hsecond⟩ := h
  obtain ⟨hkind, hsurplus⟩ := isRecord_iff.mp hrecord
  rw [readTexts, hkind, hsurplus, v.field_eq, v.field_eq, textField_of_isText hfirst,
    textField_of_isText hsecond]
  rfl

theorem readTexts_of_not_hasTexts (record : String) (h : v.hasTexts count first second = false) :
    ∃ m, readTexts record count first second v = .error m := by
  cases hread : readTexts record count first second v with
  | error m => exact ⟨m, rfl⟩
  | ok texts =>
    simp only [readTexts, v.field_eq, bind_eq_ok] at hread
    obtain ⟨⟨⟩, hkind, _, hfirst, _, hsecond, ⟨⟩, hsurplus, -⟩ := hread
    rw [Value.hasTexts, isRecord_iff.mpr ⟨hkind, hsurplus⟩, isText_of_textField hfirst,
      isText_of_textField hsecond] at h
    cases h

end readTexts

def Value.shell : Value → Value
  | .array _ => .array []
  | .object _ => .object []
  | v => v

/-- Two fields that read the same: an array or an object is none that is wanted, whatever is inside
of it. -/
def SameField (a b : Option Value) : Prop :=
  a.map Value.shell = b.map Value.shell

/-- Two records that may differ in members of any names but two. -/
inductive SameTexts (first second : String) : Value → Value → Prop
  | objects {ms ns : List (String × Value)}
      (hfirst : SameField (member? first ms) (member? first ns))
      (hsecond : SameField (member? second ms) (member? second ns)) :
    SameTexts first second (.object ms) (.object ns)
  | arrays {xs ys : List Value} (h : xs.map Value.shell = ys.map Value.shell) :
    SameTexts first second (.array xs) (.array ys)
  | refl (v : Value) : SameTexts first second v v

theorem textField_shell (v : Value) :
    (textField v.shell).mapError Mismatch.message = (textField v).mapError Mismatch.message := by
  cases v <;> rfl

theorem textField_congr {a b : Option Value} (h : SameField a b) :
    (textField (a.getD .null)).mapError Mismatch.message =
      (textField (b.getD .null)).mapError Mismatch.message := by
  have hshell (f : Option Value) : (textField (f.getD .null)).mapError Mismatch.message =
      (textField ((f.map Value.shell).getD .null)).mapError Mismatch.message := by
    cases f with
    | none => rfl
    | some v => exact (textField_shell v).symm
  rw [hshell a, hshell b, h]

/-- What is read of two such records is the same, and so is what is said if they cannot be read. -/
theorem readTexts_congr (record : String) (count : Nat) {first second : String} {v w : Value}
    (h : SameTexts first second v w) :
    (readTexts record count first second v).mapError Mismatch.message =
      (readTexts record count first second w).mapError Mismatch.message := by
  cases h with
  | objects hfirst hsecond =>
    have hs := textField_congr hfirst
    have ht := textField_congr hsecond
    simp only [readTexts, mapError_bind, Value.field_eq, Value.field?, hs, ht]
    rfl
  | @arrays xs ys h =>
    have hfield (place : Nat) : SameField xs[place]? ys[place]? := by
      rw [SameField, ← List.getElem?_map, ← List.getElem?_map, h]
    have hlength : xs.length = ys.length := by simpa using congrArg List.length h
    have hs := textField_congr (hfield 0)
    have ht := textField_congr (hfield 1)
    have hsurplus : (checkSurplus count (.array xs)).mapError Mismatch.message =
        (checkSurplus count (.array ys)).mapError Mismatch.message := by
      rw [checkSurplus, checkSurplus, hlength]
    simp only [readTexts, mapError_bind, Value.field_eq, Value.field?, hs, ht, hsurplus]
    rfl
  | refl => rfl

end JobBoard.Json
