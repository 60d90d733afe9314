import JobBoard.Proofs.Text.Trimmed
import JobBoard.Snapshot

/-!
# Statuses and their words

A text is read as a known status exactly if it names the word for that status, and as an unknown one
otherwise. What is read is read again from its own text.
-/
namespace JobBoard.ProjectStatus

open Text (Names)

def known : List ProjectStatus :=
  [.scheduled, .running, .failed, .completed]

def words : List String :=
  ["scheduled", "running", "failed", "completed"]

theorem mem_words {word : String} : word ∈ words ↔ ∃ status ∈ known, status.text = word :=
  List.mem_map (f := text) (l := known)

theorem mem_known {status : ProjectStatus} : status ∈ known ↔ ∀ raw, status ≠ .other raw := by
  cases status <;> simp [known]

theorem text_ne_empty {status : ProjectStatus} (h : status ∈ known) : status.text ≠ "" := by
  revert status
  decide

theorem parse_eq_iff {raw : String} {status : ProjectStatus} (h : status ∈ known) :
    parse raw = status ↔ Names raw status.text := by
  rw [Text.names_iff (text_ne_empty h), parse]
  cases status with
  | other raw => exact absurd rfl (mem_known.mp h raw)
  | _ => split <;> simp_all [text]

theorem eq_of_parse_eq_other {raw kept : String} (h : parse raw = .other kept) : kept = raw := by
  unfold parse at h
  split at h <;> cases h
  rfl

theorem parse_not_mem_known {raw : String} :
    parse raw ∉ known ↔ ∀ word ∈ words, ¬Names raw word := by
  constructor
  · intro h word hword hnames
    obtain ⟨status, hknown, rfl⟩ := mem_words.mp hword
    exact h ((parse_eq_iff hknown).mpr hnames ▸ hknown)
  · intro h hknown
    exact h _ (mem_words.mpr ⟨_, hknown, rfl⟩) ((parse_eq_iff hknown).mp rfl)

theorem parse_text {status : ProjectStatus} (h : status ∈ known) : parse status.text = status := by
  revert status
  decide +kernel

/-- Reading the text of what was read changes nothing. -/
theorem parse_text_parse (raw : String) : parse (parse raw).text = parse raw := by
  cases h : parse raw with
  | other kept =>
    obtain rfl := eq_of_parse_eq_other h
    exact h
  | _ => exact parse_text (by simp [known])

/-- Known statuses are ranked before unknown ones. -/
theorem mem_known_of_rank_le {s t : ProjectStatus} (h : s.rank ≤ t.rank) (ht : t ∈ known) :
    s ∈ known := by
  cases s with
  | other raw =>
    have hbound : ∀ t ∈ known, t.rank < 99 := by decide
    exact absurd h (Nat.not_le.mpr (hbound t ht))
  | _ => simp [known]

end JobBoard.ProjectStatus
