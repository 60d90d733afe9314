import JobBoard.Backend.Explanation
import JobBoard.Proofs.Text.Trimmed

/-!
# What an explanation says

The explanation in a text is what the text explains: an object speaks by the first of three members
that says anything, any other text for itself. An explanation is blank only if the whole text is.
-/
namespace JobBoard

namespace Backend

/-- A member of an object is a text, and not a blank one. -/
def Says (members : List (String × Json.Value)) (name said : String) : Prop :=
  Json.member? name members = some (.string said) ∧ Text.blank said = false

/-- The object speaks by the first of its members `Message`, `message` and `error` that says
anything. -/
def SaysFirst (members : List (String × Json.Value)) (said : String) : Prop :=
  ∃ before name after, ["Message", "message", "error"] = before ++ name :: after ∧
    Says members name said ∧ ∀ earlier ∈ before, ∀ other, ¬Says members earlier other

inductive Explains (text : String) : String → Prop
  | member {members : List (String × Json.Value)} {said : String}
      (hobject : Json.parse (Text.Utf8.bytes text) = .ok (.object members))
      (hsaid : SaysFirst members said) : Explains text (Text.trim said)
  /-- The text is no object, or none of its three members says anything. -/
  | whole (hmute : ∀ members, Json.parse (Text.Utf8.bytes text) = .ok (.object members) →
      ∀ name ∈ ["Message", "message", "error"], ∀ said, ¬Says members name said) :
    Explains text text

theorem spoken_member?_eq_some {members : List (String × Json.Value)} {name message : String} :
    (Json.member? name members).bind spoken = some message ↔
      ∃ said, Says members name said ∧ Text.trim said = message := by
  rw [Option.bind_eq_some_iff]
  constructor
  · rintro ⟨v, hv, hspoken⟩
    cases v with
    | string said =>
      rw [spoken, Option.ite_none_left_eq_some, Bool.not_eq_true] at hspoken
      exact ⟨said, ⟨hv, hspoken.1⟩, Option.some.inj hspoken.2⟩
    | _ => cases hspoken
  · rintro ⟨said, ⟨hv, hsaid⟩, rfl⟩
    exact ⟨_, hv, by simp [spoken, hsaid]⟩

theorem spoken_member?_eq_none {members : List (String × Json.Value)} {name : String} :
    (Json.member? name members).bind spoken = none ↔ ∀ said, ¬Says members name said := by
  rw [Option.eq_none_iff_forall_ne_some]
  simp only [ne_eq, spoken_member?_eq_some, not_exists, not_and]
  exact ⟨fun h said hsays => h _ said hsays rfl, fun h _ said hsays _ => h said hsays⟩

theorem explains_explanation (body : String) : Explains (Text.trim body) (explanation body) := by
  rw [explanation]
  split
  next members hobject =>
    cases hsaid : explainingMembers.findSome? fun name =>
        (Json.member? name members).bind spoken with
    | none =>
      refine .whole ?_
      intro others hothers name hname
      rw [hobject] at hothers
      cases hothers
      exact spoken_member?_eq_none.mp (List.findSome?_eq_none_iff.mp hsaid name hname)
    | some message =>
      obtain ⟨before, name, after, hnames, hmessage, hbefore⟩ :=
        List.findSome?_eq_some_iff.mp hsaid
      obtain ⟨said, hsays, rfl⟩ := spoken_member?_eq_some.mp hmessage
      exact .member hobject ⟨before, name, after, hnames, hsays,
        fun earlier hearlier => spoken_member?_eq_none.mp (hbefore earlier hearlier)⟩
  next hother =>
    refine .whole ?_
    intro members hobject
    exact absurd hobject (hother members)

/-- What is explained is neat, unless there is nothing but blanks to explain it. -/
theorem Explains.neat {body message : String} (h : Explains (Text.trim body) message)
    (hbody : Text.blank body = false) : Text.Neat message := by
  cases h with
  | member hobject hsaid =>
    obtain ⟨_, _, _, -, ⟨-, hsaid⟩, -⟩ := hsaid
    exact Text.neat_trim hsaid
  | whole hmute => exact Text.neat_trim hbody

theorem explanation_of_blank {body : String} (hbody : Text.blank body = true) :
    explanation body = "" := by
  rw [explanation, Text.trim_eq_empty.mpr hbody]
  rfl

end Backend

end JobBoard
