import JobBoard.Json.SoleMember
import Mathlib.Data.List.DropRight
import Mathlib.Data.List.TakeWhile

/-!
# Answers with one member

Which texts `readSole` reads and as what: an object in which the member of interest stands once or
not at all, whatever its other members are, an array of that member's value alone, or the empty
array. Main statement: `readSole_iff`.
-/
namespace JobBoard.Json

/-- A word behind white space, in front of a rest. -/
def Begins (word : String) (bytes rest : Bytes) : Prop :=
  ∃ space, (∀ b ∈ space, isSpace b = true) ∧ bytes = space ++ (Text.Utf8.bytes word ++ rest)

def Blank (bytes : Bytes) : Prop :=
  ∀ b ∈ bytes, isSpace b = true

inductive SpellsText : Bytes → Option String → Bytes → Prop
  | null {bytes rest : Bytes} (h : Begins "null" bytes rest) : SpellsText bytes none rest
  | text {bytes inside rest : Bytes} {s : String} (hquote : Begins "\"" bytes inside)
      (hs : readString inside = .ok (s, rest)) : SpellsText bytes (some s) rest

inductive SpellsBool : Bytes → Bool → Bytes → Prop
  | yes {bytes rest : Bytes} (h : Begins "true" bytes rest) : SpellsBool bytes true rest
  | no {bytes rest : Bytes} (h : Begins "false" bytes rest) : SpellsBool bytes false rest

section Grammar

variable {α : Type} (name : String) (Item : Bytes → α → Bytes → Prop)

/-- One member of an object. It gives its value if it has the name and nothing otherwise. -/
inductive Member : List α → Bytes → Bytes → Prop
  | asked {a : α} {bytes inside colon value rest : Bytes} (hquote : Begins "\"" bytes inside)
      (hname : readString inside = .ok (name, colon)) (hcolon : Begins ":" colon value)
      (ha : Item value a rest) : Member [a] bytes rest
  | other {key : String} {bytes inside colon value rest : Bytes}
      (hquote : Begins "\"" bytes inside) (hname : readString inside = .ok (key, colon))
      (hkey : key ≠ name) (hcolon : Begins ":" colon value)
      (hvalue : skipValue value = some rest) : Member [] bytes rest

/-- Where a member starts: at once if it is the first, else behind a comma. -/
def Starts (first : Bool) (bytes start : Bytes) : Prop :=
  if first then start = bytes else Begins "," bytes start

/-- The members of an object up to and including its closing brace, with what they give. -/
inductive Members : Bool → List α → Bytes → Bytes → Prop
  | close {first : Bool} {bytes rest : Bytes} (h : Begins "\x7d" bytes rest) :
    Members first [] bytes rest
  | next {first : Bool} {given more : List α} {bytes start after rest : Bytes}
      (hstart : Starts first bytes start) (hmember : Member name Item given start after)
      (hmore : Members false more after rest) : Members first (given ++ more) bytes rest

/-- What a text says of the member: its value, or that it is missing. -/
inductive Says : Bytes → Option α → Prop
  | object {found : Option α} {text start rest : Bytes} (hopen : Begins "\x7b" text start)
      (hmembers : Members name Item true found.toList start rest) (hend : Blank rest) :
    Says text found
  | array {a : α} {text start after rest : Bytes} (hopen : Begins "[" text start)
      (ha : Item start a after) (hclose : Begins "]" after rest) (hend : Blank rest) :
    Says text (some a)
  | empty {text start rest : Bytes} (hopen : Begins "[" text start)
      (hclose : Begins "]" start rest) (hend : Blank rest) : Says text none

end Grammar

section Words

variable {bytes rest : Bytes}

theorem toOption_eq_some {ε α : Type} {x : Except ε α} {a : α} :
    x.toOption = some a ↔ x = .ok a := by
  cases x <;> simp [Except.toOption]

theorem begins_iff {word : String} (b : UInt8) (es : Bytes)
    (hword : Text.Utf8.bytes word = b :: es) (hb : isSpace b = false) :
    Begins word bytes rest ↔ skipSpace bytes = b :: (es ++ rest) := by
  unfold Begins skipSpace
  rw [hword]
  constructor
  · rintro ⟨space, hspace, rfl⟩
    rw [List.dropWhile_append_of_pos hspace, List.cons_append,
      List.dropWhile_cons_of_neg (by simp [hb])]
  · intro h
    refine ⟨bytes.takeWhile isSpace, fun b hb => List.mem_takeWhile_imp hb, ?_⟩
    rw [List.cons_append, ← h, List.takeWhile_append_dropWhile]

theorem begins_mark {mark : String} (b : UInt8) (hmark : Text.Utf8.bytes mark = [b])
    (hb : isSpace b = false) : Begins mark bytes rest ↔ skipSpace bytes = b :: rest :=
  begins_iff b [] hmark hb

theorem begins_quote : Begins "\"" bytes rest ↔ skipSpace bytes = 0x22 :: rest :=
  begins_mark 0x22 rfl rfl

theorem begins_null :
    Begins "null" bytes rest ↔ skipSpace bytes = 0x6E :: ([0x75, 0x6C, 0x6C] ++ rest) :=
  begins_iff 0x6E [0x75, 0x6C, 0x6C] rfl rfl

theorem begins_true :
    Begins "true" bytes rest ↔ skipSpace bytes = 0x74 :: ([0x72, 0x75, 0x65] ++ rest) :=
  begins_iff 0x74 [0x72, 0x75, 0x65] rfl rfl

theorem begins_false :
    Begins "false" bytes rest ↔ skipSpace bytes = 0x66 :: ([0x61, 0x6C, 0x73, 0x65] ++ rest) :=
  begins_iff 0x66 [0x61, 0x6C, 0x73, 0x65] rfl rfl

theorem blank_iff : Blank bytes ↔ skipSpace bytes = [] := by
  rw [skipSpace, List.dropWhile_eq_nil_iff, Blank]

theorem Begins.length_le {word : String} (h : Begins word bytes rest) :
    (Text.Utf8.bytes word).length + rest.length ≤ bytes.length := by
  obtain ⟨space, -, rfl⟩ := h
  simp

theorem skipSpace_skipSpace (bytes : Bytes) : skipSpace (skipSpace bytes) = skipSpace bytes :=
  List.dropWhile_idempotent _ _

theorem readWord_eq_ok {es : Bytes} : readWord es bytes = .ok rest ↔ bytes = es ++ rest := by
  induction es generalizing bytes with
  | nil => simp [readWord]
  | cons e es ih =>
    cases bytes with
    | nil => simp [readWord]
    | cons b bytes =>
      by_cases h : b = e
      · simp [readWord, h, ih]
      · simp [readWord, h]

end Words

section Lengths

variable {bytes rest : Bytes}

theorem skipSpace_length (bytes : Bytes) : (skipSpace bytes).length ≤ bytes.length :=
  (List.dropWhile_sublist _).length_le

theorem dropDigits_length (bytes : Bytes) : (bytes.dropWhile isDigit).length ≤ bytes.length :=
  (List.dropWhile_sublist _).length_le

theorem readRest_length {read : List Char} {ill : Option Nat} {s : String}
    (h : readRest read ill bytes = .ok (s, rest)) : rest.length ≤ bytes.length := by
  fun_induction readRest read ill bytes <;> grind

theorem skipString_length (h : skipString bytes = some rest) : rest.length ≤ bytes.length := by
  fun_induction skipString bytes <;> grind

theorem skipScale_length (h : skipScale bytes = some rest) : rest.length ≤ bytes.length := by
  unfold skipScale skipExponent at h
  grind [dropDigits_length]

theorem skipNumber_length (h : skipNumber bytes = some rest) : rest.length ≤ bytes.length := by
  unfold skipNumber at h
  split at h
  · cases h
  next b digits =>
    have hdigits := dropDigits_length digits
    rw [List.length_cons]
    split at h
    · cases h
    · split at h
      next after hpoint =>
        have hafter := dropDigits_length after
        rw [hpoint, List.length_cons] at hdigits
        split at h
        · have hscale := skipScale_length h
          omega
        · cases h
      next =>
        have hscale := skipScale_length h
        omega

theorem skipScalar_length (h : skipScalar bytes = some rest) : rest.length ≤ bytes.length := by
  unfold skipScalar at h
  grind [→ skipNumber_length, → skipString_length, toOption_eq_some, readWord_eq_ok]

theorem skipFrom_length {fuel : Nat} {turn : Turn} {inside : List Bracket}
    (h : skipFrom fuel turn inside bytes = some rest) : rest.length ≤ bytes.length := by
  fun_induction skipFrom fuel turn inside bytes <;>
    grind [skipSpace_length, → skipScalar_length, → skipString_length, Option.bind_eq_some_iff]

end Lengths

section Items

variable {α : Type} {bytes rest : Bytes}

/-- A reader of values reads what a relation says, which can be no closing bracket. -/
structure Reads (item : Bytes → Option (α × Bytes)) (Item : Bytes → α → Bytes → Prop) : Prop where
  iff : ∀ bytes a rest, item bytes = some (a, rest) ↔ Item bytes a rest
  shortens : ∀ {bytes a rest}, Item bytes a rest → rest.length ≤ bytes.length
  spaced : ∀ bytes, item (skipSpace bytes) = item bytes
  closed : ∀ rest, item (0x5D :: rest) = none

theorem readTextOrNull_iff (bytes : Bytes) (v : Option String) (rest : Bytes) :
    readTextOrNull bytes = some (v, rest) ↔ SpellsText bytes v rest := by
  unfold readTextOrNull
  constructor
  · intro h
    split at h
    next after hspace =>
      simp only [Option.map_eq_some_iff, toOption_eq_some, readWord_eq_ok, Prod.mk.injEq] at h
      obtain ⟨_, rfl, rfl, rfl⟩ := h
      exact .null (begins_null.mpr hspace)
    next after hspace =>
      simp only [Option.map_eq_some_iff, toOption_eq_some, Prod.mk.injEq] at h
      obtain ⟨⟨s, _⟩, hs, rfl, rfl⟩ := h
      exact .text (begins_quote.mpr hspace) hs
    next => cases h
  · intro h
    cases h with
    | null h => simp [begins_null.mp h, toOption_eq_some, readWord_eq_ok]
    | text hquote hs => simp [begins_quote.mp hquote, toOption_eq_some, hs]

theorem readBool_iff (bytes : Bytes) (v : Bool) (rest : Bytes) :
    readBool bytes = some (v, rest) ↔ SpellsBool bytes v rest := by
  unfold readBool
  constructor
  · intro h
    split at h
    next after hspace =>
      simp only [Option.map_eq_some_iff, toOption_eq_some, readWord_eq_ok, Prod.mk.injEq] at h
      obtain ⟨_, rfl, rfl, rfl⟩ := h
      exact .yes (begins_true.mpr hspace)
    next after hspace =>
      simp only [Option.map_eq_some_iff, toOption_eq_some, readWord_eq_ok, Prod.mk.injEq] at h
      obtain ⟨_, rfl, rfl, rfl⟩ := h
      exact .no (begins_false.mpr hspace)
    next => cases h
  · intro h
    cases h with
    | yes h => simp [begins_true.mp h, toOption_eq_some, readWord_eq_ok]
    | no h => simp [begins_false.mp h, toOption_eq_some, readWord_eq_ok]

theorem reads_textOrNull : Reads readTextOrNull SpellsText where
  iff := readTextOrNull_iff
  shortens h := by
    cases h with
    | null h => exact (Nat.le_add_left _ _).trans h.length_le
    | text hquote hs =>
      exact (readRest_length hs).trans ((Nat.le_add_left _ _).trans hquote.length_le)
  spaced bytes := by rw [readTextOrNull, readTextOrNull, skipSpace_skipSpace]
  closed rest := rfl

theorem reads_bool : Reads readBool SpellsBool where
  iff := readBool_iff
  shortens h := by
    cases h with
    | yes h => exact (Nat.le_add_left _ _).trans h.length_le
    | no h => exact (Nat.le_add_left _ _).trans h.length_le
  spaced bytes := by rw [readBool, readBool, skipSpace_skipSpace]
  closed rest := rfl

end Items

section Members

variable {α : Type} {name : String} {item : Bytes → Option (α × Bytes)}
  {Item : Bytes → α → Bytes → Prop} {first : Bool} {bytes start rest : Bytes}

theorem readColon_eq_ok : readColon bytes = .ok rest ↔ Begins ":" bytes rest := by
  rw [begins_mark 0x3A rfl rfl, readColon]
  cases skipSpace bytes with
  | nil => simp
  | cons b after => by_cases hb : b = 0x3A <;> simp [hb]

theorem nextMember_eq_none :
    nextMember first bytes = .ok (none, rest) ↔ Begins "\x7d" bytes rest := by
  rw [begins_mark 0x7D rfl rfl, nextMember]
  cases skipSpace bytes with
  | nil => simp
  | cons b after => grind

theorem nextMember_eq_some {inside : Bytes} :
    nextMember first bytes = .ok (some inside, rest) ↔
      rest = inside ∧ ∃ start, Starts first bytes start ∧ Begins "\"" start inside := by
  have hcomma (start : Bytes) : Begins "," bytes start ↔ skipSpace bytes = 0x2C :: start :=
    begins_mark 0x2C rfl rfl
  simp only [nextMember, Starts, begins_quote, hcomma]
  cases hspace : skipSpace bytes with
  | nil => cases first <;> simp [hspace]
  | cons b after => cases first <;> grind

theorem Member.length_lt (hitem : Reads item Item) {given : List α}
    (h : Member name Item given bytes rest) : rest.length < bytes.length := by
  have hmark : (Text.Utf8.bytes "\"").length = 1 := rfl
  cases h with
  | asked hquote hname hcolon ha =>
    have hquote := hquote.length_le
    have hname := readRest_length hname
    have hcolon := hcolon.length_le
    have ha := hitem.shortens ha
    omega
  | other hquote hname hkey hcolon hvalue =>
    have hquote := hquote.length_le
    have hname := readRest_length hname
    have hcolon := hcolon.length_le
    have hvalue := skipFrom_length hvalue
    omega

theorem Starts.length_le (h : Starts first bytes start) : start.length ≤ bytes.length := by
  cases first with
  | true => exact Nat.le_of_eq (congrArg List.length h)
  | false => exact (Nat.le_add_left _ _).trans (Begins.length_le h)

theorem eq_of_toList_eq {o o' : Option α} (h : o.toList = o'.toList) : o = o' := by
  cases o <;> cases o' <;> simp_all

theorem exists_toList_eq {o : Option α} {xs ys : List α} (h : o.toList = xs ++ ys) :
    ∃ o' : Option α, o'.toList = xs := by
  match xs with
  | [] => exact ⟨none, rfl⟩
  | [x] => exact ⟨some x, rfl⟩
  | x :: y :: xs => cases o <;> simp at h

theorem readSoleIn_succ (hitem : Reads item Item) {fuel : Nat} {found result : Option α} :
    readSoleIn name item (fuel + 1) first found bytes = some (result, rest) ↔
      (Begins "\x7d" bytes rest ∧ result = found) ∨
        ∃ start given after next, Starts first bytes start ∧ Member name Item given start after ∧
          next.toList = found.toList ++ given ∧
          readSoleIn name item fuel false next after = some (result, rest) := by
  rw [readSoleIn]
  constructor
  · intro h
    simp only [Option.bind_eq_bind, Option.bind_eq_some_iff, toOption_eq_some] at h
    obtain ⟨⟨_ | inside, r⟩, hnext, h⟩ := h
    · cases h
      exact Or.inl ⟨nextMember_eq_none.mp hnext, rfl⟩
    · obtain ⟨rfl, start, hstart, hquote⟩ := nextMember_eq_some.mp hnext
      simp only [Option.bind_eq_some_iff, toOption_eq_some] at h
      obtain ⟨⟨key, colon⟩, hname, value, hcolon, h⟩ := h
      have hcolon := readColon_eq_ok.mp hcolon
      split at h
      next hkey =>
        subst hkey
        cases found with
        | some a => cases h
        | none =>
          simp only [Option.bind_eq_some_iff] at h
          obtain ⟨⟨a, after⟩, ha, h⟩ := h
          exact Or.inr ⟨start, [a], after, some a, hstart,
            .asked hquote hname hcolon ((hitem.iff _ _ _).mp ha), rfl, h⟩
      next hkey =>
        simp only [Option.bind_eq_some_iff] at h
        obtain ⟨after, hvalue, h⟩ := h
        exact Or.inr ⟨start, [], after, found, hstart, .other hquote hname hkey hcolon hvalue,
          (List.append_nil _).symm, h⟩
  · rintro (⟨hclose, rfl⟩ | ⟨start, given, after, next, hstart, hmember, hnext, hmore⟩)
    · simp [nextMember_eq_none.mpr hclose, Except.toOption]
    · cases hmember with
      | asked hquote hname hcolon ha =>
        have hinside := nextMember_eq_some.mpr ⟨rfl, start, hstart, hquote⟩
        cases found with
        | some b => cases next <;> simp at hnext
        | none =>
          obtain rfl : next = some _ := by simpa using hnext
          simp [hinside, hname, readColon_eq_ok.mpr hcolon, Except.toOption,
            (hitem.iff _ _ _).mpr ha, hmore]
      | other hquote hname hkey hcolon hvalue =>
        have hinside := nextMember_eq_some.mpr ⟨rfl, start, hstart, hquote⟩
        obtain rfl : next = found := eq_of_toList_eq (by simpa using hnext)
        simp [hinside, hname, hkey, readColon_eq_ok.mpr hcolon, Except.toOption, hvalue, hmore]

/-- The members of an object are read as long as the one that is asked for comes once at most. -/
theorem readSoleIn_iff (hitem : Reads item Item) {fuel : Nat} (hfuel : bytes.length < fuel)
    {found result : Option α} :
    readSoleIn name item fuel first found bytes = some (result, rest) ↔
      ∃ given, Members name Item first given bytes rest ∧
        result.toList = found.toList ++ given := by
  induction fuel generalizing first found bytes with
  | zero => cases hfuel
  | succ fuel ih =>
    have hshort {start after : Bytes} {given : List α} (hstart : Starts first bytes start)
        (hmember : Member name Item given start after) : after.length < fuel := by
      have hle := hstart.length_le
      have hlt := hmember.length_lt hitem
      omega
    rw [readSoleIn_succ hitem]
    constructor
    · rintro (⟨hclose, rfl⟩ | ⟨start, given, after, next, hstart, hmember, hnext, hmore⟩)
      · exact ⟨[], .close hclose, (List.append_nil _).symm⟩
      · obtain ⟨more, hmembers, hresult⟩ := (ih (hshort hstart hmember)).mp hmore
        refine ⟨given ++ more, .next hstart hmember hmembers, ?_⟩
        rw [hresult, hnext, List.append_assoc]
    · rintro ⟨_, hmembers, hresult⟩
      cases hmembers with
      | close hclose =>
        exact Or.inl ⟨hclose, eq_of_toList_eq (by simpa using hresult)⟩
      | next hstart hmember hmore =>
        rw [← List.append_assoc] at hresult
        obtain ⟨next, hnext⟩ := exists_toList_eq hresult
        refine Or.inr ⟨_, _, _, next, hstart, hmember, hnext, ?_⟩
        rw [← hnext] at hresult
        exact (ih (hshort hstart hmember)).mpr ⟨_, hmore, hresult⟩

end Members

section Texts

variable {α : Type} {name : String} {item : Bytes → Option (α × Bytes)}
  {Item : Bytes → α → Bytes → Prop}

/-- An answer is read if it is an object in which the member of interest comes once at most, or an
array of its value at most. -/
theorem readSole_iff (hitem : Reads item Item) {text : Bytes} {found : Option α} :
    readSole name item text = some found ↔ Says name Item text found := by
  have hopen (bytes rest : Bytes) : Begins "[" bytes rest ↔ skipSpace bytes = 0x5B :: rest :=
    begins_mark 0x5B rfl rfl
  have hclose (bytes rest : Bytes) : Begins "]" bytes rest ↔ skipSpace bytes = 0x5D :: rest :=
    begins_mark 0x5D rfl rfl
  have hbrace (bytes rest : Bytes) : Begins "\x7b" bytes rest ↔ skipSpace bytes = 0x7B :: rest :=
    begins_mark 0x7B rfl rfl
  have hfinish (v : Option α) (rest : Bytes) :
      (if (skipSpace rest).isEmpty = true then some v else none) = some found ↔
        v = found ∧ Blank rest := by
    cases hspace : skipSpace rest <;> simp [blank_iff, hspace]
  simp only [readSole, Option.bind_eq_bind, pure]
  constructor
  · intro h
    split at h
    next start hstart =>
      simp only [Option.bind_eq_some_iff, hfinish] at h
      obtain ⟨⟨v, rest⟩, hread, rfl, hend⟩ := h
      obtain ⟨given, hmembers, hgiven⟩ := (readSoleIn_iff hitem (Nat.lt_succ_self _)).mp hread
      obtain rfl : given = v.toList := hgiven.symm
      exact .object ((hbrace _ _).mpr hstart) hmembers hend
    next start hstart =>
      split at h
      next after hafter =>
        simp only [Option.bind_some, hfinish] at h
        obtain ⟨rfl, hend⟩ := h
        exact .empty ((hopen _ _).mpr hstart) ((hclose _ _).mpr hafter) hend
      next =>
        simp only [Option.bind_eq_some_iff] at h
        obtain ⟨⟨a, after⟩, ha, h⟩ := h
        rw [hitem.spaced] at ha
        split at h
        next rest hafter =>
          simp only [Option.bind_some, hfinish] at h
          obtain ⟨rfl, hend⟩ := h
          exact .array ((hopen _ _).mpr hstart) ((hitem.iff _ _ _).mp ha)
            ((hclose _ _).mpr hafter) hend
        next => cases h
    next => cases h
  · intro h
    cases h with
    | @object found text start rest hstart hmembers hend =>
      have hread : readSoleIn name item (start.length + 1) true none start = some (found, rest) :=
        (readSoleIn_iff hitem (Nat.lt_succ_self _)).mpr ⟨_, hmembers, rfl⟩
      simp [(hbrace _ _).mp hstart, hread, blank_iff.mp hend]
    | @array a text start after rest hstart ha hafter hend =>
      have ha := (hitem.iff _ _ _).mpr ha
      rw [← hitem.spaced] at ha
      -- No value begins with the bracket that would close an empty array.
      have hne (rest : Bytes) : skipSpace start ≠ 0x5D :: rest := by
        intro heq
        rw [heq, hitem.closed] at ha
        cases ha
      simp [(hopen _ _).mp hstart, ha, (hclose _ _).mp hafter, blank_iff.mp hend]
    | empty hstart hafter hend =>
      simp [(hopen _ _).mp hstart, (hclose _ _).mp hafter, blank_iff.mp hend]

/-- A member that comes twice is not read, whatever its values are. -/
example : readSole "status" readTextOrNull
    (Text.Utf8.bytes "\x7b\"status\":null, \"status\":\"running\"\x7d") = none := by
  decide +kernel

end Texts

end JobBoard.Json
