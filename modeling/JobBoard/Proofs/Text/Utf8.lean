import JobBoard.Text.Utf8
import Mathlib.Data.Nat.Basic

/-!
# Reading what was written in UTF-8

Every character is read back from the bytes that it is written in, whatever bytes follow. So a text
is read back from its bytes, by the strict reader and by the one that puts up with anything.
-/
namespace JobBoard.Text.Utf8

section Front

variable {lead b c d : UInt8}

theorem isTail_iff : isTail b = true ↔ 0x80 ≤ b.toNat ∧ b.toNat ≤ 0xBF := by
  simp [isTail, UInt8.le_iff_toNat_le]

theorem front_one (h : lead.toNat < 0x80) (rest : Bytes) :
    front lead rest = (some (Char.ofNat lead.toNat), rest) :=
  if_pos (UInt8.lt_iff_toNat_lt.mpr h)

theorem front_two (h : 0xC2 ≤ lead.toNat ∧ lead.toNat ≤ 0xDF) (hb : isTail b = true)
    (rest : Bytes) : front lead (b :: rest) = (some (scalar 5 lead [b]), rest) := by
  have hone : ¬lead.toNat < 0x80 := by omega
  simp [front, UInt8.le_iff_toNat_le, UInt8.lt_iff_toNat_lt, hone, h, hb]

/-- The bytes that may come second: of the continuation bytes those that the lead byte allows. -/
theorem mem_secondRange (hb : isTail b = true) (he0 : lead.toNat = 0xE0 → 0xA0 ≤ b.toNat)
    (hed : lead.toNat = 0xED → b.toNat ≤ 0x9F) (hf0 : lead.toNat = 0xF0 → 0x90 ≤ b.toNat)
    (hf4 : lead.toNat = 0xF4 → b.toNat ≤ 0x8F) :
    (secondRange lead).1.toNat ≤ b.toNat ∧ b.toNat ≤ (secondRange lead).2.toNat := by
  have hb := isTail_iff.mp hb
  unfold secondRange
  split
  next h =>
    subst h
    exact ⟨he0 rfl, hb.2⟩
  split
  next h =>
    subst h
    exact ⟨hb.1, hed rfl⟩
  split
  next h =>
    subst h
    exact ⟨hf0 rfl, hb.2⟩
  split
  next h =>
    subst h
    exact ⟨hb.1, hf4 rfl⟩
  exact hb

theorem front_three (h : 0xE0 ≤ lead.toNat ∧ lead.toNat < 0xF0)
    (hb : (secondRange lead).1.toNat ≤ b.toNat ∧ b.toNat ≤ (secondRange lead).2.toNat)
    (hc : isTail c = true) (rest : Bytes) :
    front lead (b :: c :: rest) = (some (scalar 4 lead [b, c]), rest) := by
  have hone : ¬lead.toNat < 0x80 := by omega
  have htwo : ¬lead.toNat ≤ 0xDF := by omega
  have hthree : lead.toNat ≤ 0xF4 := by omega
  simp [front, UInt8.le_iff_toNat_le, UInt8.lt_iff_toNat_lt, hone, htwo, hthree, h, hb, hc]

theorem front_four (h : 0xF0 ≤ lead.toNat ∧ lead.toNat ≤ 0xF4)
    (hb : (secondRange lead).1.toNat ≤ b.toNat ∧ b.toNat ≤ (secondRange lead).2.toNat)
    (hc : isTail c = true) (hd : isTail d = true) (rest : Bytes) :
    front lead (b :: c :: d :: rest) = (some (scalar 3 lead [b, c, d]), rest) := by
  have hone : ¬lead.toNat < 0x80 := by omega
  have htwo : ¬lead.toNat ≤ 0xDF := by omega
  have hthree : 0xE0 ≤ lead.toNat := by omega
  have hfour : ¬lead.toNat < 0xF0 := by omega
  simp [front, UInt8.le_iff_toNat_le, UInt8.lt_iff_toNat_lt, hone, htwo, hthree, hfour, h, hb, hc,
    hd]

end Front

theorem toNat_ofNat {n : Nat} (h : n < 256) : (UInt8.ofNat n).toNat = n := by
  rw [UInt8.toNat_ofNat']
  exact Nat.mod_eq_of_lt h

theorem toNat_tail (n : Nat) : (UInt8.ofNat (n % 64 + 128)).toNat = n % 64 + 128 :=
  toNat_ofNat (by omega)

theorem isTail_tail (n : Nat) : isTail (UInt8.ofNat (n % 64 + 128)) = true := by
  rw [isTail_iff, toNat_tail]
  omega

section Widths

variable {v : Nat}

theorem front_of_two (h : 0x7F < v ∧ v ≤ 0x7FF) (rest : Bytes) :
    front (UInt8.ofNat (v / 64 % 32 + 192)) (UInt8.ofNat (v % 64 + 128) :: rest) =
      (some (Char.ofNat v), rest) := by
  have hlead : (UInt8.ofNat (v / 64 % 32 + 192)).toNat = v / 64 % 32 + 192 :=
    toNat_ofNat (by omega)
  have hv : (v / 64 % 32 + 192) % 32 * 0x40 + (v % 64 + 128) % 0x40 = v := by omega
  rw [front_two (by omega) (isTail_tail v), scalar, List.foldl_cons, List.foldl_nil, hlead,
    toNat_tail]
  exact congrArg (fun n => (some (Char.ofNat n), rest)) hv

theorem front_of_three (h : 0x7FF < v ∧ v ≤ 0xFFFF) (hscalar : v < 0xD800 ∨ 0xDFFF < v)
    (rest : Bytes) :
    front (UInt8.ofNat (v / 4096 % 16 + 224))
        (UInt8.ofNat (v / 64 % 64 + 128) :: UInt8.ofNat (v % 64 + 128) :: rest) =
      (some (Char.ofNat v), rest) := by
  have hlead : (UInt8.ofNat (v / 4096 % 16 + 224)).toNat = v / 4096 % 16 + 224 :=
    toNat_ofNat (by omega)
  have hsecond := toNat_tail (v / 64)
  have hrange := @mem_secondRange (UInt8.ofNat (v / 4096 % 16 + 224)) _ (isTail_tail (v / 64))
    (by omega) (by omega) (by omega) (by omega)
  have hv : ((v / 4096 % 16 + 224) % 16 * 0x40 + (v / 64 % 64 + 128) % 0x40) * 0x40 +
      (v % 64 + 128) % 0x40 = v := by omega
  rw [front_three (by omega) hrange (isTail_tail v), scalar, List.foldl_cons, List.foldl_cons,
    List.foldl_nil, hlead, hsecond, toNat_tail]
  exact congrArg (fun n => (some (Char.ofNat n), rest)) hv

theorem front_of_four (h : 0xFFFF < v ∧ v < 0x110000) (rest : Bytes) :
    front (UInt8.ofNat (v / 262144 % 8 + 240))
        (UInt8.ofNat (v / 4096 % 64 + 128) :: UInt8.ofNat (v / 64 % 64 + 128) ::
          UInt8.ofNat (v % 64 + 128) :: rest) =
      (some (Char.ofNat v), rest) := by
  have hlead : (UInt8.ofNat (v / 262144 % 8 + 240)).toNat = v / 262144 % 8 + 240 :=
    toNat_ofNat (by omega)
  have hsecond := toNat_tail (v / 4096)
  have hrange := @mem_secondRange (UInt8.ofNat (v / 262144 % 8 + 240)) _ (isTail_tail (v / 4096))
    (by omega) (by omega) (by omega) (by omega)
  have hv : (((v / 262144 % 8 + 240) % 8 * 0x40 + (v / 4096 % 64 + 128) % 0x40) * 0x40 +
      (v / 64 % 64 + 128) % 0x40) * 0x40 + (v % 64 + 128) % 0x40 = v := by omega
  rw [front_four (by omega) hrange (isTail_tail (v / 64)) (isTail_tail v), scalar, List.foldl_cons,
    List.foldl_cons, List.foldl_cons, List.foldl_nil, hlead, hsecond, toNat_tail, toNat_tail]
  exact congrArg (fun n => (some (Char.ofNat n), rest)) hv

end Widths

/-- A character is read from the bytes that it is written in. -/
theorem front_encodeChar (c : Char) : ∃ lead tails, String.utf8EncodeChar c = lead :: tails ∧
    ∀ rest, front lead (tails ++ rest) = (some c, rest) := by
  have hvalid : c.val.toNat < 0xD800 ∨ 0xDFFF < c.val.toNat ∧ c.val.toNat < 0x110000 := c.valid
  have hchar : Char.ofNat c.val.toNat = c := Char.ofNat_toNat c
  unfold String.utf8EncodeChar
  generalize c.val.toNat = v at hvalid hchar
  subst hchar
  dsimp only
  by_cases hone : v ≤ 0x7F
  · rw [if_pos hone]
    refine ⟨_, [], rfl, ?_⟩
    intro rest
    have hlead : (UInt8.ofNat v).toNat = v := toNat_ofNat (by omega)
    rw [List.nil_append, front_one (by omega), hlead]
  rw [if_neg hone]
  by_cases htwo : v ≤ 0x7FF
  · rw [if_pos htwo]
    exact ⟨_, [_], rfl, front_of_two (by omega)⟩
  rw [if_neg htwo]
  by_cases hthree : v ≤ 0xFFFF
  · rw [if_pos hthree]
    exact ⟨_, [_, _], rfl, front_of_three (by omega) (by omega)⟩
  · rw [if_neg hthree]
    exact ⟨_, [_, _, _], rfl, front_of_four (by omega)⟩

theorem toNat_char {b : UInt8} (h : b.toNat < 0x80) :
    (Char.ofNat b.toNat).toNat = b.toNat := by
  have hvalid : b.toNat.isValidChar := Or.inl (by omega)
  rw [Char.ofNat, dif_pos hvalid]
  rfl

theorem encodeChar_of_lt {c : Char} (h : c.toNat < 0x80) :
    String.utf8EncodeChar c = [UInt8.ofNat c.toNat] := by
  unfold String.utf8EncodeChar
  exact if_pos (Nat.le_of_lt_succ h)

theorem decodeLossy_encode (cs : List Char) : decodeLossy (encode cs) = cs := by
  induction cs with
  | nil => rw [encode, List.flatMap_nil, decodeLossy]
  | cons c cs ih =>
    obtain ⟨lead, tails, hc, hfront⟩ := front_encodeChar c
    rw [encode, List.flatMap_cons, hc, List.cons_append, decodeLossy, hfront, ← encode, ih,
      Option.getD_some]

end JobBoard.Text.Utf8
