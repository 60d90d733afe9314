import JobBoard.Proofs.Json.Record
import JobBoard.Proofs.Text.Trimmed
import JobBoard.Settings
import Mathlib.Algebra.Group.Nat.Defs

/-!
# What variables say

Settings are read from an environment exactly if no variable says what cannot be read. Each setting
is then what its own variable says, or the default if that variable is unset or blank. Otherwise the
fault is that of the first variable that cannot be read. Main statement: `read_is_all_or_nothing`.
-/
namespace JobBoard

open Json (bind_eq_error bind_eq_ok)
open Text (Blanks Holds Neat)

namespace Text

theorem hexValue?_bind_ten (c : Char) (n : Nat) :
    ((hexValue? c).bind fun d => if d < 10 then some (n * 10 + d) else none) =
      if c.isDigit = true then some (10 * n + (c.toNat - '0'.toNat)) else none := by
  have hzero : '0'.toNat = 0x30 := rfl
  have hnine : '9'.toNat = 0x39 := rfl
  simp only [Char.isDigit_iff_toNat, hzero, hnine]
  unfold hexValue?
  extract_lets code
  split
  next hdigit =>
    have hlt : code - 0x30 < 10 := by omega
    rw [Option.bind_some, if_pos hlt, Nat.mul_comm]
  next =>
    split
    next =>
      have hge : ¬code - 0x61 + 10 < 10 := by omega
      rw [Option.bind_some, if_neg hge]
    next =>
      split
      next =>
        have hge : ¬code - 0x41 + 10 < 10 := by omega
        rw [Option.bind_some, if_neg hge]
      next => rfl

theorem digitsValue_ten_eq_some {cs : List Char} {n : Nat} :
    digitsValue 10 cs = some n ↔
      (∀ c ∈ cs, c.isDigit = true) ∧ Nat.ofDigitChars 10 cs 0 = n := by
  unfold digitsValue
  simp only [hexValue?_bind_ten]
  generalize 0 = start
  induction cs generalizing start with
  | nil => simp
  | cons c cs ih =>
    rw [List.foldlM_cons, List.forall_mem_cons, Nat.ofDigitChars_cons]
    by_cases hc : c.isDigit = true
    · rw [if_pos hc, Option.bind_eq_bind, Option.bind_some, ih]
      simp [hc]
    · simp [hc]

end Text

namespace Settings

/-- A text spells a number: an optional plus sign, and digits, one at least. -/
def SpellsNumber (text : String) (n : Nat) : Prop :=
  ∃ sign digits, text.toList = sign ++ digits ∧ (sign = [] ∨ sign = ['+']) ∧ digits ≠ [] ∧
    (∀ c ∈ digits, c.isDigit = true) ∧ Nat.ofDigitChars 10 digits 0 = n

/-- A text spells a positive number of seconds that fits 64 bits. -/
def SpellsSeconds (text : String) (d : Duration) : Prop :=
  ∃ n, SpellsNumber text n ∧ 1 ≤ n ∧ n < 2 ^ 64 ∧ d = .ofSeconds n

def destinationWord : LogDestination → String
  | .file => "file"
  | .terminal => "terminal"
  | .both => "both"

def SpellsDestination (text : String) (d : LogDestination) : Prop :=
  Text.asciiLower text = destinationWord d

/-- The text that the value of a variable gives: none if the variable is unset or blank. -/
inductive Gives : Option String → Option String → Prop
  | unset : Gives none none
  | blank {raw : String} (h : Blanks raw.toList) : Gives (some raw) none
  | text {raw text : String} (h : Holds raw text) : Gives (some raw) (some text)

/-- What the value of a variable says, if `Spells` tells which texts can be read. -/
inductive Says {α : Type} (Spells : String → α → Prop) (default : α) (value : Option String) :
    α → Prop
  | default (h : Gives value none) : Says Spells default value default
  | text {text : String} {a : α} (h : Gives value (some text)) (ha : Spells text a) :
    Says Spells default value a

/-- The value of a variable gives no text, or one that can be read. -/
def Readable {α : Type} (Spells : String → α → Prop) (value : Option String) : Prop :=
  Gives value none ∨ ∃ text a, Gives value (some text) ∧ Spells text a

/-- The value of a variable gives a text that cannot be read. -/
def Offends {α : Type} (Spells : String → α → Prop) (value : Option String) (text : String) :
    Prop :=
  Gives value (some text) ∧ ∀ a, ¬Spells text a

section Numbers

theorem exists_sign (cs : List Char) :
    ∃ sign, (sign = [] ∨ sign = ['+']) ∧ cs = sign ++ unsigned cs := by
  unfold unsigned
  split
  · exact ⟨['+'], Or.inr rfl, rfl⟩
  · exact ⟨[], Or.inl rfl, rfl⟩

theorem unsigned_append {sign digits : List Char} (hsign : sign = [] ∨ sign = ['+'])
    (hdigits : ∀ c ∈ digits, c.isDigit = true) : unsigned (sign ++ digits) = digits := by
  rcases hsign with rfl | rfl
  · rw [List.nil_append, unsigned.eq_def]
    split
    next rest =>
      -- A plus sign is no digit.
      have hplus := hdigits '+' List.mem_cons_self
      cases hplus
    next => rfl
  · rfl

theorem positive?_eq_some {text : String} {n : Nat} :
    positive? text = some n ↔ SpellsNumber text n ∧ 1 ≤ n ∧ n < 2 ^ 64 := by
  have hpositive : positive? text = some n ↔ unsigned text.toList ≠ [] ∧
      Text.digitsValue 10 (unsigned text.toList) = some n ∧ 1 ≤ n ∧ n < 2 ^ 64 := by
    unfold positive?
    rw [Option.ite_none_left_eq_some, List.isEmpty_iff, Option.filter_eq_some_iff,
      Bool.and_eq_true, decide_eq_true_eq, decide_eq_true_eq]
    rfl
  rw [hpositive, Text.digitsValue_ten_eq_some]
  constructor
  · rintro ⟨hne, ⟨hdigits, hvalue⟩, hbounds⟩
    obtain ⟨sign, hsign, htext⟩ := exists_sign text.toList
    exact ⟨⟨sign, _, htext, hsign, hne, hdigits, hvalue⟩, hbounds⟩
  · rintro ⟨⟨sign, digits, htext, hsign, hne, hdigits, hvalue⟩, hbounds⟩
    rw [htext, unsigned_append hsign hdigits]
    exact ⟨hne, ⟨hdigits, hvalue⟩, hbounds⟩

theorem map_positive?_eq_some {text : String} {d : Duration} :
    (positive? text).map .ofSeconds = some d ↔ SpellsSeconds text d := by
  rw [Option.map_eq_some_iff]
  simp only [positive?_eq_some, SpellsSeconds, and_assoc, eq_comm (a := d)]

end Numbers

theorem parse_eq_some {text : String} (htext : Neat text) {d : LogDestination} :
    LogDestination.parse text = some d ↔ SpellsDestination text d := by
  rw [LogDestination.parse, htext.trim_eq, SpellsDestination]
  split <;> cases d <;> simp_all [destinationWord]

section Variables

variable {α : Type} {environment : String → Option String} {name : String}
  {read? : String → Option α} {fault : String → Fault} {default : α} {Spells : String → α → Prop}

theorem Gives.neat {value : Option String} {text : String} (h : Gives value (some text)) :
    Neat text := by
  cases h with
  | text h => exact h.neat

theorem gives_value? (environment : String → Option String) (name : String) :
    Gives (environment name) (value? environment name) := by
  unfold value?
  cases environment name with
  | none => exact .unset
  | some raw =>
    rw [Option.map_some, Option.filter_some]
    split
    next hsome =>
      have hblank : ¬Text.blank raw = true := by simpa [← Text.trim_eq_empty] using hsome
      exact .text (Text.holds_iff.mpr ⟨by simpa using hblank, rfl⟩)
    next hnone =>
      have hblank : Text.blank raw = true := by simpa [← Text.trim_eq_empty] using hnone
      exact .blank (Text.blank_iff.mp hblank)

theorem Gives.unique {value v v' : Option String} (h : Gives value v) (h' : Gives value v') :
    v = v' := by
  cases h with
  | unset =>
    cases h'
    rfl
  | blank hblank =>
    cases h' with
    | blank => rfl
    | text htext => exact absurd hblank htext.not_blanks
  | text htext =>
    cases h' with
    | blank hblank => exact absurd hblank htext.not_blanks
    | text htext' => rw [htext.unique htext']

theorem value?_eq_iff {v : Option String} :
    value? environment name = v ↔ Gives (environment name) v := by
  constructor
  · rintro rfl
    exact gives_value? environment name
  · exact (gives_value? environment name).unique

def readWith (read? : String → Option α) (fault : String → Fault) (default : α) :
    Option String → Except Fault α
  | none => .ok default
  | some text =>
    match read? text with
    | some a => .ok a
    | none => .error (fault text)

theorem readSeconds_eq (environment : String → Option String) (name : String)
    (default : Duration) :
    readSeconds environment name default =
      readWith (fun text => (positive? text).map .ofSeconds) (.seconds name) default
        (value? environment name) := by
  unfold readSeconds readWith
  cases value? environment name with
  | none => rfl
  | some text =>
    dsimp only
    cases positive? text <;> rfl

theorem readDestination_eq (environment : String → Option String) (name : String)
    (default : LogDestination) :
    readDestination environment name default =
      readWith LogDestination.parse (.destination name) default (value? environment name) := by
  unfold readDestination readWith
  cases value? environment name with
  | none => rfl
  | some text =>
    dsimp only
    cases LogDestination.parse text <;> rfl

section

variable (hread : ∀ text, Neat text → ∀ a, read? text = some a ↔ Spells text a)

include hread

theorem readWith_eq_ok {a : α} :
    readWith read? fault default (value? environment name) = .ok a ↔
      Says Spells default (environment name) a := by
  constructor
  · intro h
    unfold readWith at h
    split at h
    next hnone =>
      cases h
      exact .default (value?_eq_iff.mp hnone)
    next text htext =>
      have hgives := value?_eq_iff.mp htext
      split at h
      next a ha =>
        cases h
        exact .text hgives ((hread text hgives.neat a).mp ha)
      next => cases h
  · intro h
    cases h with
    | default h => rw [value?_eq_iff.mpr h, readWith]
    | text h ha => rw [value?_eq_iff.mpr h, readWith, (hread _ h.neat _).mpr ha]

theorem readWith_eq_error {f : Fault} :
    readWith read? fault default (value? environment name) = .error f ↔
      ∃ text, Offends Spells (environment name) text ∧ f = fault text := by
  constructor
  · intro h
    unfold readWith at h
    split at h
    next => cases h
    next text htext =>
      have hgives := value?_eq_iff.mp htext
      split at h
      next => cases h
      next hnone =>
        cases h
        refine ⟨text, ⟨hgives, ?_⟩, rfl⟩
        intro a ha
        rw [(hread text hgives.neat a).mpr ha] at hnone
        cases hnone
  · rintro ⟨text, ⟨hgives, hnone⟩, rfl⟩
    have hunread : read? text = none := by
      rw [Option.eq_none_iff_forall_ne_some]
      intro a ha
      exact hnone a ((hread text hgives.neat a).mp ha)
    rw [value?_eq_iff.mpr hgives, readWith, hunread]

end

end Variables

theorem readSeconds_eq_ok {environment : String → Option String} {name : String}
    {default d : Duration} :
    readSeconds environment name default = .ok d ↔
      Says SpellsSeconds default (environment name) d := by
  rw [readSeconds_eq]
  exact readWith_eq_ok fun _ _ _ => map_positive?_eq_some

theorem readSeconds_eq_error {environment : String → Option String} {name : String}
    {default : Duration} {f : Fault} :
    readSeconds environment name default = .error f ↔
      ∃ text, Offends SpellsSeconds (environment name) text ∧ f = .seconds name text := by
  rw [readSeconds_eq]
  exact readWith_eq_error fun _ _ _ => map_positive?_eq_some

theorem readDestination_eq_ok {environment : String → Option String} {name : String}
    {default d : LogDestination} :
    readDestination environment name default = .ok d ↔
      Says SpellsDestination default (environment name) d := by
  rw [readDestination_eq]
  exact readWith_eq_ok fun _ htext _ => parse_eq_some htext

theorem readDestination_eq_error {environment : String → Option String} {name : String}
    {default : LogDestination} {f : Fault} :
    readDestination environment name default = .error f ↔
      ∃ text, Offends SpellsDestination (environment name) text ∧ f = .destination name text := by
  rw [readDestination_eq]
  exact readWith_eq_error fun _ htext _ => parse_eq_some htext

theorem getD_value?_eq {environment : String → Option String} {name default url : String} :
    (value? environment name).getD default = url ↔ Says Eq default (environment name) url := by
  constructor
  · rintro rfl
    cases hvalue : value? environment name with
    | none => exact .default (value?_eq_iff.mp hvalue)
    | some text => exact .text (value?_eq_iff.mp hvalue) rfl
  · intro h
    cases h with
    | default h => rw [value?_eq_iff.mpr h, Option.getD_none]
    | text h ha => rw [value?_eq_iff.mpr h, Option.getD_some, ha]

theorem readable_iff {α : Type} {Spells : String → α → Prop} {value : Option String} (default : α) :
    Readable Spells value ↔ ∃ a, Says Spells default value a := by
  constructor
  · rintro (h | ⟨text, a, h, ha⟩)
    · exact ⟨default, .default h⟩
    · exact ⟨a, .text h ha⟩
  · rintro ⟨a, h | ⟨h, ha⟩⟩
    · exact Or.inl h
    · exact Or.inr ⟨_, a, h, ha⟩

theorem exists_readSeconds_eq_ok {environment : String → Option String} {name : String}
    (default : Duration) :
    (∃ d, readSeconds environment name default = .ok d) ↔
      Readable SpellsSeconds (environment name) := by
  simp only [readSeconds_eq_ok, readable_iff default]

/-- Each setting is what its own variable says. -/
structure SaidBy (environment : String → Option String) (s : Settings) : Prop where
  baseUrl : Says Eq "http://localhost:8081" (environment baseUrlVariable) s.baseUrl
  poll : Says SpellsSeconds (.ofSeconds 30) (environment pollVariable) s.poll
  connectTimeout :
    Says SpellsSeconds (.ofSeconds 10) (environment connectTimeoutVariable) s.connectTimeout
  log : Says SpellsDestination .file (environment logVariable) s.log

/-- The fault of the first variable that cannot be read, with the text that the variable gives. -/
inductive FirstOffence (environment : String → Option String) : Fault → Prop
  | poll {text : String} (h : Offends SpellsSeconds (environment pollVariable) text) :
    FirstOffence environment (.seconds pollVariable text)
  | connectTimeout {text : String} (hpoll : Readable SpellsSeconds (environment pollVariable))
    (h : Offends SpellsSeconds (environment connectTimeoutVariable) text) :
    FirstOffence environment (.seconds connectTimeoutVariable text)
  | log {text : String} (hpoll : Readable SpellsSeconds (environment pollVariable))
    (hconnect : Readable SpellsSeconds (environment connectTimeoutVariable))
    (h : Offends SpellsDestination (environment logVariable) text) :
    FirstOffence environment (.destination logVariable text)

theorem read_eq_ok {environment : String → Option String} {s : Settings} :
    read environment = .ok s ↔ SaidBy environment s := by
  constructor
  · intro h
    obtain ⟨poll, hpoll, h⟩ := bind_eq_ok.mp h
    obtain ⟨connectTimeout, hconnect, h⟩ := bind_eq_ok.mp h
    obtain ⟨log, hlog, h⟩ := bind_eq_ok.mp h
    cases h
    exact ⟨getD_value?_eq.mp rfl, readSeconds_eq_ok.mp hpoll, readSeconds_eq_ok.mp hconnect,
      readDestination_eq_ok.mp hlog⟩
  · intro h
    refine bind_eq_ok.mpr ⟨s.poll, readSeconds_eq_ok.mpr h.poll, ?_⟩
    refine bind_eq_ok.mpr ⟨s.connectTimeout, readSeconds_eq_ok.mpr h.connectTimeout, ?_⟩
    refine bind_eq_ok.mpr ⟨s.log, readDestination_eq_ok.mpr h.log, ?_⟩
    rw [getD_value?_eq.mpr h.baseUrl]
    rfl

theorem read_eq_error {environment : String → Option String} {f : Fault} :
    read environment = .error f ↔ FirstOffence environment f := by
  constructor
  · intro h
    rcases bind_eq_error.mp h with hpoll | ⟨poll, hpoll, h⟩
    · obtain ⟨text, htext, rfl⟩ := readSeconds_eq_error.mp hpoll
      exact .poll htext
    have hpoll := (exists_readSeconds_eq_ok _).mp ⟨poll, hpoll⟩
    rcases bind_eq_error.mp h with hconnect | ⟨connectTimeout, hconnect, h⟩
    · obtain ⟨text, htext, rfl⟩ := readSeconds_eq_error.mp hconnect
      exact .connectTimeout hpoll htext
    have hconnect := (exists_readSeconds_eq_ok _).mp ⟨connectTimeout, hconnect⟩
    rcases bind_eq_error.mp h with hlog | ⟨log, hlog, h⟩
    · obtain ⟨text, htext, rfl⟩ := readDestination_eq_error.mp hlog
      exact .log hpoll hconnect htext
    · cases h
  · intro h
    cases h with
    | poll h => exact bind_eq_error.mpr (Or.inl (readSeconds_eq_error.mpr ⟨_, h, rfl⟩))
    | connectTimeout hpoll h =>
      obtain ⟨poll, hpoll⟩ := (exists_readSeconds_eq_ok _).mpr hpoll
      refine bind_eq_error.mpr (Or.inr ⟨poll, hpoll, ?_⟩)
      exact bind_eq_error.mpr (Or.inl (readSeconds_eq_error.mpr ⟨_, h, rfl⟩))
    | log hpoll hconnect h =>
      obtain ⟨poll, hpoll⟩ := (exists_readSeconds_eq_ok _).mpr hpoll
      obtain ⟨connectTimeout, hconnect⟩ := (exists_readSeconds_eq_ok _).mpr hconnect
      refine bind_eq_error.mpr (Or.inr ⟨poll, hpoll, ?_⟩)
      refine bind_eq_error.mpr (Or.inr ⟨connectTimeout, hconnect, ?_⟩)
      exact bind_eq_error.mpr (Or.inl (readDestination_eq_error.mpr ⟨_, h, rfl⟩))

theorem exists_read_eq_ok {environment : String → Option String} :
    (∃ s, read environment = .ok s) ↔
      Readable SpellsSeconds (environment pollVariable) ∧
        Readable SpellsSeconds (environment connectTimeoutVariable) ∧
          Readable SpellsDestination (environment logVariable) := by
  simp only [read_eq_ok]
  constructor
  · rintro ⟨s, h⟩
    exact ⟨(readable_iff _).mpr ⟨_, h.poll⟩, (readable_iff _).mpr ⟨_, h.connectTimeout⟩,
      (readable_iff _).mpr ⟨_, h.log⟩⟩
  · rintro ⟨hpoll, hconnect, hlog⟩
    obtain ⟨poll, hpoll⟩ := (readable_iff (.ofSeconds 30)).mp hpoll
    obtain ⟨connectTimeout, hconnect⟩ := (readable_iff (.ofSeconds 10)).mp hconnect
    obtain ⟨log, hlog⟩ := (readable_iff .file).mp hlog
    exact ⟨⟨_, poll, connectTimeout, log⟩, getD_value?_eq.mp rfl, hpoll, hconnect, hlog⟩

def variableNames : List String :=
  [baseUrlVariable, pollVariable, connectTimeoutVariable, logVariable]

theorem read_congr {environment other : String → Option String}
    (h : ∀ name ∈ variableNames, other name = environment name) :
    read other = read environment := by
  have hvalue : ∀ name ∈ variableNames, value? other name = value? environment name := by
    intro name hname
    rw [value?, value?, h name hname]
  simp only [variableNames, List.forall_mem_cons] at hvalue
  obtain ⟨hurl, hpoll, hconnect, hlog, -⟩ := hvalue
  unfold read readSeconds readDestination
  rw [hurl, hpoll, hconnect, hlog]

/-- Settings are read exactly if both numbers of seconds and the destination are unset, blank or can
be read. Each setting is then what its own variable says, and other variables do not count.
Otherwise the fault is that of the first variable that cannot be read. -/
theorem read_is_all_or_nothing (environment : String → Option String) :
    ((∃ s, read environment = .ok s) ↔
      Readable SpellsSeconds (environment pollVariable) ∧
        Readable SpellsSeconds (environment connectTimeoutVariable) ∧
          Readable SpellsDestination (environment logVariable)) ∧
      (∀ s, read environment = .ok s ↔ SaidBy environment s) ∧
      (∀ f, read environment = .error f ↔ FirstOffence environment f) ∧
      ∀ other, (∀ name ∈ variableNames, other name = environment name) →
        read other = read environment :=
  ⟨exists_read_eq_ok, fun _ => read_eq_ok, fun _ => read_eq_error, fun _ => read_congr⟩

/-- An environment with blanks, a sign and capitals, and a variable that does not count. -/
def spaced (name : String) : Option String :=
  [("DASHBOARD_BASE_URL", " http://backend:9000/"), ("DASHBOARD_POLL_INTERVAL_SECS", "\t+007 "),
    ("DASHBOARD_CONNECT_TIMEOUT_SECS", " "), ("DASHBOARD_LOG", " Both"), ("HOME", "x")].lookup name

theorem spaced_is_read :
    (∀ name ∈ variableNames,
        spaced name = (fun name => if name = "HOME" then none else spaced name) name) ∧
      read spaced = read (fun name => if name = "HOME" then none else spaced name) ∧
      SaidBy spaced ⟨"http://backend:9000/", .ofSeconds 7, .ofSeconds 10, .both⟩ := by
  have hnames : ∀ name ∈ variableNames,
      spaced name = (fun name => if name = "HOME" then none else spaced name) name := by
    decide
  refine ⟨hnames, (read_is_all_or_nothing _).2.2.2 spaced hnames, ?_⟩
  exact ((read_is_all_or_nothing spaced).2.1 _).mp (by decide +kernel)

end Settings

end JobBoard
