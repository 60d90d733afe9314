import JobBoard.Proofs.Text.Words
import JobBoard.Terminal.Instruction

/-!
# The grammar of instructions

A line is an instruction exactly if its first word names a verb and as many words follow as the verb
takes. Any other line is refused, and the fault tells whether it has no word, an unknown verb or
another number of words. Every instruction can be typed, with any name of its verb and any blanks.
-/
namespace JobBoard.Terminal

open Text (Blanks IsWord Spells)

namespace Verb

def names : Verb → List String
  | .refresh => ["refresh", "r"]
  | .discover => ["discover"]
  | .trigger => ["trigger"]
  | .logs => ["logs"]
  | .help => ["help", "?"]
  | .quit => ["quit", "q", "exit"]

def arity : Verb → Nat
  | .refresh => 0
  | .discover => 2
  | .trigger => 3
  | .logs => 3
  | .help => 0
  | .quit => 0

/-- A word is a name of the verb up to ASCII case. -/
def NamedBy (v : Verb) (w : String) : Prop :=
  Text.asciiLower w ∈ v.names

theorem named?_eq_some {s : String} {v : Verb} : named? s = some v ↔ s ∈ v.names := by
  unfold named?
  split <;> cases v <;> simp_all [names]

theorem named?_eq_none {s : String} : named? s = none ↔ ∀ v : Verb, s ∉ v.names := by
  rw [Option.eq_none_iff_forall_ne_some]
  exact forall_congr' fun v => not_congr named?_eq_some

/-- No word names two verbs. -/
theorem NamedBy.unique {v v' : Verb} {w : String} (h : v.NamedBy w) (h' : v'.NamedBy w) :
    v = v' := by
  have hv := named?_eq_some.mpr h
  rw [named?_eq_some.mpr h'] at hv
  exact (Option.some.inj hv).symm

end Verb

namespace Instruction

def verb : Instruction → Verb
  | .refresh => .refresh
  | .discover _ => .discover
  | .trigger _ _ => .trigger
  | .logs _ _ => .logs
  | .help => .help
  | .quit => .quit

def arguments : Instruction → List String
  | .discover job => [job.name, job.ns]
  | .trigger job project => [job.name, job.ns, project]
  | .logs job project => [job.name, job.ns, project]
  | _ => []

theorem length_arguments (i : Instruction) : i.arguments.length = i.verb.arity := by
  cases i <;> rfl

theorem exists_of_length_eq {v : Verb} {ws : List String} (h : ws.length = v.arity) :
    ∃ i : Instruction, i.verb = v ∧ i.arguments = ws := by
  cases v with
  | refresh => exact ⟨.refresh, rfl, (List.length_eq_zero_iff.mp h).symm⟩
  | help => exact ⟨.help, rfl, (List.length_eq_zero_iff.mp h).symm⟩
  | quit => exact ⟨.quit, rfl, (List.length_eq_zero_iff.mp h).symm⟩
  | discover =>
    obtain ⟨name, ns, rfl⟩ := List.length_eq_two.mp h
    exact ⟨.discover ⟨name, ns⟩, rfl, rfl⟩
  | trigger =>
    obtain ⟨name, ns, project, rfl⟩ := List.length_eq_three.mp h
    exact ⟨.trigger ⟨name, ns⟩ project, rfl, rfl⟩
  | logs =>
    obtain ⟨name, ns, project, rfl⟩ := List.length_eq_three.mp h
    exact ⟨.logs ⟨name, ns⟩ project, rfl, rfl⟩

end Instruction

theorem Verb.instruction?_eq_some {v : Verb} {ws : List String} {i : Instruction} :
    v.instruction? ws = some i ↔ i.verb = v ∧ i.arguments = ws := by
  constructor
  · intro h
    unfold Verb.instruction? at h
    split at h <;> cases h <;> exact ⟨rfl, rfl⟩
  · rintro ⟨rfl, rfl⟩
    cases i <;> rfl

theorem Verb.instruction?_eq_none {v : Verb} {ws : List String} :
    v.instruction? ws = none ↔ ws.length ≠ v.arity := by
  rw [Option.eq_none_iff_forall_ne_some]
  constructor
  · intro h hlength
    obtain ⟨i, hi⟩ := Instruction.exists_of_length_eq hlength
    exact h i (Verb.instruction?_eq_some.mpr hi)
  · intro h i hi
    obtain ⟨rfl, rfl⟩ := Verb.instruction?_eq_some.mp hi
    exact h i.length_arguments

namespace Instruction

/-- What comes of a line whose first word is `w`, with the words `ws` behind it. -/
structure Follows (w : String) (ws : List String) (r : Except Fault Instruction) : Prop where
  accepted : (∃ i, r = .ok i) ↔ ∃ v : Verb, v.NamedBy w ∧ ws.length = v.arity
  instruction : ∀ i, r = .ok i ↔ i.verb.NamedBy w ∧ i.arguments = ws
  misused : ∀ v, r = .error (.misused v) ↔ v.NamedBy w ∧ ws.length ≠ v.arity
  unknown : ∀ x, r = .error (.unknown x) ↔ x = w ∧ ∀ v : Verb, ¬v.NamedBy w
  not_empty : r ≠ .error .empty

/-- A line with blanks in front, before each word behind the verb, and at the end. -/
def typed (front : List Char) (w : String) (rest : List (List Char × String))
    (back : List Char) : String :=
  String.ofList (front ++ (w.toList ++ (rest.flatMap (fun p => p.1 ++ p.2.toList) ++ back)))

theorem follows_unknown {w : String} {ws : List String} (h : ∀ v : Verb, ¬v.NamedBy w) :
    Follows w ws (.error (.unknown w)) where
  accepted := by simp [h]
  instruction := by simp [h]
  misused := by simp [h]
  unknown := by simp [h, eq_comm]
  not_empty := by simp

theorem follows_misused {v : Verb} {w : String} {ws : List String} (hv : v.NamedBy w)
    (hws : ws.length ≠ v.arity) : Follows w ws (.error (.misused v)) where
  accepted := by
    refine ⟨by simp, ?_⟩
    rintro ⟨v', hv', hlength⟩
    exact absurd (hv.unique hv' ▸ hlength) hws
  instruction i := by
    refine ⟨by simp, ?_⟩
    rintro ⟨hi, rfl⟩
    exact absurd (hv.unique hi ▸ i.length_arguments) hws
  misused v' := by
    constructor
    · rintro ⟨⟩
      exact ⟨hv, hws⟩
    · rintro ⟨hv', -⟩
      rw [hv.unique hv']
  unknown x := by
    refine ⟨by simp, ?_⟩
    rintro ⟨-, hnone⟩
    exact absurd hv (hnone v)
  not_empty := by simp

theorem follows_instruction {i : Instruction} {w : String} (hw : i.verb.NamedBy w) :
    Follows w i.arguments (.ok i) where
  accepted := ⟨fun _ => ⟨i.verb, hw, i.length_arguments⟩, fun _ => ⟨i, rfl⟩⟩
  instruction j := by
    constructor
    · rintro ⟨⟩
      exact ⟨hw, rfl⟩
    · rintro ⟨hj, harguments⟩
      have hi := Verb.instruction?_eq_some.mpr ⟨hw.unique hj, rfl⟩
      rw [← harguments, Verb.instruction?_eq_some.mpr ⟨rfl, rfl⟩] at hi
      rw [Option.some.inj hi]
  misused v := by
    refine ⟨by simp, ?_⟩
    rintro ⟨hv, hlength⟩
    exact absurd (hw.unique hv ▸ i.length_arguments) hlength
  unknown x := by
    refine ⟨by simp, ?_⟩
    rintro ⟨-, hnone⟩
    exact absurd hw (hnone _)
  not_empty := by simp

theorem follows_parse {line w : String} {ws : List String}
    (h : Spells line.toList ((w :: ws).map String.toList)) : Follows w ws (parse line) := by
  rw [parse, Text.words_eq_iff.mpr h]
  dsimp only
  split
  next hunknown => exact follows_unknown (Verb.named?_eq_none.mp hunknown)
  next v hv =>
    have hv : v.NamedBy w := Verb.named?_eq_some.mp hv
    split
    next i hi =>
      obtain ⟨rfl, rfl⟩ := Verb.instruction?_eq_some.mp hi
      exact follows_instruction hv
    next hnone => exact follows_misused hv (Verb.instruction?_eq_none.mp hnone)

theorem blank_or_spells (line : String) :
    (Blanks line.toList ∧ parse line = .error .empty) ∨
      ∃ (w : String) (ws : List String), Spells line.toList ((w :: ws).map String.toList) := by
  have hspells : Spells line.toList ((Text.words line).map String.toList) :=
    Text.words_eq_iff.mp rfl
  cases hwords : Text.words line with
  | nil =>
    rw [hwords] at hspells
    refine Or.inl ⟨hspells.eq_nil_iff.mp rfl, ?_⟩
    rw [parse, hwords]
  | cons w ws => exact Or.inr ⟨w, ws, hwords ▸ hspells⟩

theorem parse_eq_empty {line : String} : parse line = .error .empty ↔ Blanks line.toList := by
  rcases blank_or_spells line with ⟨hblanks, hempty⟩ | ⟨w, ws, hspells⟩
  · exact ⟨fun _ => hblanks, fun _ => hempty⟩
  · constructor
    · intro hempty
      exact absurd hempty (follows_parse hspells).not_empty
    · intro hblanks
      cases hspells.eq_nil_iff.mpr hblanks

theorem isWord_arguments {line : String} {i : Instruction} (h : parse line = .ok i) :
    ∀ s ∈ i.arguments, IsWord s.toList := by
  rcases blank_or_spells line with ⟨-, hempty⟩ | ⟨w, ws, hspells⟩
  · rw [h] at hempty
    cases hempty
  · obtain ⟨-, rfl⟩ := ((follows_parse hspells).instruction i).mp h
    intro s hs
    exact hspells.isWord _ (List.mem_map_of_mem (List.mem_cons_of_mem w hs))

end Instruction

theorem Verb.NamedBy.isWord {v : Verb} {w : String} (h : v.NamedBy w) : IsWord w.toList := by
  have hnames : ∀ s ∈ v.names, IsWord s.toList := by
    cases v <;> decide
  exact .of_asciiLower (hnames _ h)

namespace Instruction

theorem parse_typed {i : Instruction} {w : String} {front back : List Char}
    {rest : List (List Char × String)} (hw : i.verb.NamedBy w)
    (hrest : rest.map Prod.snd = i.arguments) (harguments : ∀ s ∈ i.arguments, IsWord s.toList)
    (hfront : Blanks front) (hgaps : ∀ p ∈ rest, p.1 ≠ [] ∧ Blanks p.1) (hback : Blanks back) :
    parse (typed front w rest back) = .ok i := by
  have hps : ∀ p ∈ rest, p.1 ≠ [] ∧ Blanks p.1 ∧ IsWord p.2.toList := by
    intro p hp
    obtain ⟨hne, hblanks⟩ := hgaps p hp
    exact ⟨hne, hblanks, harguments p.2 (hrest ▸ List.mem_map_of_mem hp)⟩
  obtain ⟨hspells, hends⟩ := Text.spells_flatMap hps hback
  have hwords : rest.map (·.2.toList) = i.arguments.map String.toList := by
    rw [← hrest, List.map_map]
    rfl
  rw [hwords] at hspells
  have hline : Spells (typed front w rest back).toList ((w :: i.arguments).map String.toList) := by
    rw [typed, String.toList_ofList]
    exact .word hfront hw.isWord hends hspells
  exact ((follows_parse hline).instruction i).mpr ⟨hw, rfl⟩

/-- A line is empty if it has no character but blanks. Otherwise it is an instruction exactly if its
first word names a verb and as many words follow as the verb takes; these are the texts of the
instruction, as they stand. Any instruction whose texts are words is read back from every line in
which it can be typed, and all texts of an instruction that was read are words. -/
theorem parse_follows_grammar :
    (∀ line, parse line = .error .empty ↔ Blanks line.toList) ∧
    (∀ (line w : String) (ws : List String), Spells line.toList ((w :: ws).map String.toList) →
      Follows w ws (parse line)) ∧
    (∀ (i : Instruction) (w : String) (front back : List Char) (rest : List (List Char × String)),
      i.verb.NamedBy w → rest.map Prod.snd = i.arguments →
      (∀ s ∈ i.arguments, IsWord s.toList) → Blanks front →
      (∀ p ∈ rest, p.1 ≠ [] ∧ Blanks p.1) → Blanks back →
        parse (typed front w rest back) = .ok i) ∧
    ∀ line i, parse line = .ok i → ∀ s ∈ i.arguments, IsWord s.toList := by
  refine ⟨fun _ => parse_eq_empty, fun _ _ _ => follows_parse, ?_, fun _ _ => isWord_arguments⟩
  intro i w front back rest hw hrest harguments hfront hgaps hback
  exact parse_typed hw hrest harguments hfront hgaps hback

/-- A line with blanks of several kinds is read as its words. -/
theorem spaced_logs_follow_grammar :
    Spells " LOGS\u3000api ops\t\tgroup/x\u2003".toList
        (["LOGS", "api", "ops", "group/x"].map String.toList) ∧
      parse " LOGS\u3000api ops\t\tgroup/x\u2003" = .ok (.logs ⟨"api", "ops"⟩ "group/x") := by
  have hspells : Spells " LOGS\u3000api ops\t\tgroup/x\u2003".toList
      (["LOGS", "api", "ops", "group/x"].map String.toList) :=
    Text.wordRuns_eq_iff.mp (by decide)
  have hnamed : Text.asciiLower "LOGS" ∈ Verb.logs.names := by decide
  exact ⟨hspells, ((parse_follows_grammar.2.1 _ _ _ hspells).instruction _).mpr ⟨hnamed, rfl⟩⟩

end Instruction

end JobBoard.Terminal
