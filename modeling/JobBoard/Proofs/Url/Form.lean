import JobBoard.Proofs.Lists
import JobBoard.Proofs.Text.Utf8
import JobBoard.Url.Encoding

/-!
# Reading form encoding

A query in form encoding is read in pieces between ampersands, where empty pieces do not count. The
name in a piece goes up to its first equals sign, the value is what follows. In both a plus sign is
a space, and a percent sign with two digits is a byte. Names and values that were written in form
encoding are read back byte for byte, in their order.
-/
namespace JobBoard.Url

open Text.Utf8 (encodeChar_of_lt toNat_char)

/-- The bytes that a name or a value stands for. -/
def formBytes (cs : List Char) : Bytes :=
  percentDecode (Text.Utf8.encode (cs.map fun c => if c = '+' then ' ' else c))

def formPair (piece : List Char) : Bytes × Bytes :=
  (formBytes (piece.takeWhile (· ≠ '=')), formBytes (piece.dropWhile (· ≠ '=')).tail)

def formPairs (query : List Char) : List (Bytes × Bytes) :=
  ((query.splitOn '&').filter (!·.isEmpty)).map formPair

/-- The text that bytes spell, their ill-formed parts replaced. -/
def readText (bytes : Bytes) : String :=
  String.ofList (Text.Utf8.decodeLossy bytes)

def formTexts (query : List Char) : List (String × String) :=
  (formPairs query).map fun p => (readText p.1, readText p.2)

/-- The characters that have a meaning of their own from the query of a URL on. -/
def structural : List Char :=
  ['&', '=', '?', '#']

theorem readText_bytes (s : String) : readText (Text.Utf8.bytes s) = s := by
  rw [readText, Text.Utf8.bytes, Text.Utf8.decodeLossy_encode, String.ofList_toList]

theorem upperHexDigit_spec : ∀ n < 16,
    hexDigit? (UInt8.ofNat (upperHexDigit n).toNat) = some n ∧ (upperHexDigit n).toNat < 0x80 ∧
      upperHexDigit n ≠ '+' ∧ upperHexDigit n ∉ structural := by
  decide

section Reading

variable {b : UInt8} {c : Char}

theorem percentDecode_cons (h : b ≠ 0x25) (rest : Bytes) :
    percentDecode (b :: rest) = b :: percentDecode rest := by
  rw [percentDecode]
  rintro _ _ _ rfl
  exact absurd rfl h

theorem percentDecode_escape {high low : UInt8} {m n : Nat} (hhigh : hexDigit? high = some m)
    (hlow : hexDigit? low = some n) (rest : Bytes) :
    percentDecode (0x25 :: high :: low :: rest) =
      UInt8.ofNat (m * 16 + n) :: percentDecode rest := by
  rw [percentDecode, hhigh, hlow]

theorem formBytes_nil : formBytes [] = [] := by
  rw [formBytes, List.map_nil, Text.Utf8.encode, List.flatMap_nil, percentDecode]

theorem formBytes_cons (hascii : c.toNat < 0x80) (hc : c ∉ ['%', '+']) (rest : List Char) :
    formBytes (c :: rest) = UInt8.ofNat c.toNat :: formBytes rest := by
  obtain ⟨hpercent, hplus⟩ : c ≠ '%' ∧ c ≠ '+' := by simpa using hc
  have hbyte : UInt8.ofNat c.toNat ≠ 0x25 := by
    intro h
    have hnat : (UInt8.ofNat c.toNat).toNat = 0x25 := by rw [h]; rfl
    rw [Text.Utf8.toNat_ofNat (by omega)] at hnat
    exact hpercent (Char.toNat_inj.mp hnat)
  rw [formBytes, List.map_cons, if_neg hplus, Text.Utf8.encode, List.flatMap_cons,
    encodeChar_of_lt hascii, List.singleton_append, percentDecode_cons hbyte]
  rfl

theorem formBytes_space (rest : List Char) : formBytes ('+' :: rest) = 0x20 :: formBytes rest := by
  rw [formBytes, List.map_cons, if_pos rfl, Text.Utf8.encode, List.flatMap_cons,
    encodeChar_of_lt (by decide), List.singleton_append, percentDecode_cons (by decide)]
  rfl

theorem formBytes_percentByte (b : UInt8) (rest : List Char) :
    formBytes (percentByte b ++ rest) = b :: formBytes rest := by
  have hbyte : b.toNat < 256 := b.toNat_lt
  obtain ⟨hhigh, hhigh', hhighPlus, -⟩ := upperHexDigit_spec (b.toNat / 16) (by omega)
  obtain ⟨hlow, hlow', hlowPlus, -⟩ := upperHexDigit_spec (b.toNat % 16) (by omega)
  have hescape : Text.Utf8.encode ((percentByte b ++ rest).map fun c => if c = '+' then ' ' else c)
      = 0x25 :: UInt8.ofNat (upperHexDigit (b.toNat / 16)).toNat ::
        UInt8.ofNat (upperHexDigit (b.toNat % 16)).toNat ::
        Text.Utf8.encode (rest.map fun c => if c = '+' then ' ' else c) := by
    rw [percentByte, List.cons_append, List.cons_append, List.singleton_append, List.map_cons,
      List.map_cons, List.map_cons, if_neg (by decide), if_neg hhighPlus, if_neg hlowPlus,
      Text.Utf8.encode, List.flatMap_cons, List.flatMap_cons, List.flatMap_cons,
      encodeChar_of_lt (by decide), encodeChar_of_lt hhigh', encodeChar_of_lt hlow']
    rfl
  have hb : UInt8.ofNat (b.toNat / 16 * 16 + b.toNat % 16) = b := by
    rw [Nat.div_add_mod', UInt8.ofNat_toNat]
  rw [formBytes, hescape, percentDecode_escape hhigh hlow, hb]
  rfl

end Reading

section Writing

variable {b : UInt8}

/-- A byte that is left as it is stands there as the character of its number, and that is none of
those with a meaning. -/
theorem char_of_formPlain (h : formPlain b = true) :
    (Char.ofNat b.toNat).toNat = b.toNat ∧ b.toNat < 0x80 ∧
      Char.ofNat b.toNat ∉ ['%', '+'] ++ structural := by
  have hnat : b.toNat < 0x80 ∧ b.toNat ∉ (['%', '+'] ++ structural).map Char.toNat := by
    simp only [formPlain, Bool.or_eq_true, Bool.and_eq_true, decide_eq_true_eq, beq_iff_eq,
      UInt8.le_iff_toNat_le, ← UInt8.toNat_inj, UInt8.reduceToNat] at h
    simp only [structural, List.cons_append, List.nil_append, List.map_cons, List.map_nil,
      Char.reduceToNat, List.mem_cons, List.not_mem_nil, or_false, not_or]
    omega
  have hchar := toNat_char hnat.1
  refine ⟨hchar, hnat.1, ?_⟩
  intro hmem
  exact hnat.2 (hchar ▸ List.mem_map_of_mem hmem)

/-- A byte is read from what it is written as, whatever follows. -/
theorem formBytes_formByte (b : UInt8) (rest : List Char) :
    formBytes (formByte b ++ rest) = b :: formBytes rest := by
  unfold formByte
  split
  next h =>
    obtain ⟨hchar, hascii, hmem⟩ := char_of_formPlain h
    rw [List.singleton_append, formBytes_cons (by omega) (mt (List.mem_append_left _) hmem), hchar,
      UInt8.ofNat_toNat]
  split
  next h =>
    subst h
    exact formBytes_space rest
  exact formBytes_percentByte b rest

theorem formBytes_formEncode (s : String) : formBytes (formEncode s) = Text.Utf8.bytes s := by
  have happend (bytes : Bytes) (rest : List Char) :
      formBytes (bytes.flatMap formByte ++ rest) = bytes ++ formBytes rest := by
    induction bytes with
    | nil => rfl
    | cons b bytes ih =>
      rw [List.flatMap_cons, List.append_assoc, formBytes_formByte, ih, List.cons_append]
  have hs := happend (Text.Utf8.bytes s) []
  rwa [List.append_nil, formBytes_nil, List.append_nil] at hs

theorem formByte_not_structural {c : Char} (h : c ∈ formByte b) : c ∉ structural := by
  have hbyte : b.toNat < 256 := b.toNat_lt
  unfold formByte at h
  split at h
  next hb =>
    obtain rfl := List.mem_singleton.mp h
    exact mt (List.mem_append_right _) (char_of_formPlain hb).2.2
  split at h
  next =>
    obtain rfl := List.mem_singleton.mp h
    decide
  rcases List.mem_cons.mp h with rfl | h
  · decide
  rcases List.mem_cons.mp h with rfl | h
  · exact (upperHexDigit_spec (b.toNat / 16) (by omega)).2.2.2
  · obtain rfl := List.mem_singleton.mp h
    exact (upperHexDigit_spec (b.toNat % 16) (by omega)).2.2.2

theorem formEncode_not_structural {s : String} {c : Char} (h : c ∈ formEncode s) :
    c ∉ structural := by
  obtain ⟨b, -, hb⟩ := List.mem_flatMap.mp h
  exact formByte_not_structural hb

end Writing

section Pairs

variable {pairs : List (String × String)}

def formPiece (p : String × String) : List Char :=
  formEncode p.1 ++ '=' :: formEncode p.2

theorem mem_formPiece {p : String × String} {c : Char} (h : c ∈ formPiece p) :
    c = '=' ∨ c ∉ structural := by
  rcases List.mem_append.mp h with h | h
  · exact Or.inr (formEncode_not_structural h)
  rcases List.mem_cons.mp h with rfl | h
  · exact Or.inl rfl
  · exact Or.inr (formEncode_not_structural h)

theorem formPair_formPiece (p : String × String) :
    formPair (formPiece p) = (Text.Utf8.bytes p.1, Text.Utf8.bytes p.2) := by
  have hname : ∀ c ∈ formEncode p.1, decide (c ≠ '=') = true := by
    intro c hc
    refine decide_eq_true ?_
    rintro rfl
    exact formEncode_not_structural hc (by decide)
  rw [formPair, formPiece, List.takeWhile_append_of_pos hname, List.dropWhile_append_of_pos hname,
    List.takeWhile_cons_of_neg (by simp), List.dropWhile_cons_of_neg (by simp), List.append_nil,
    List.tail_cons, formBytes_formEncode, formBytes_formEncode]

/-- What was written in form encoding is read back byte for byte. -/
theorem formPairs_formQuery (pairs : List (String × String)) :
    formPairs (formQuery pairs) =
      pairs.map fun p => (Text.Utf8.bytes p.1, Text.Utf8.bytes p.2) := by
  rcases pairs with - | ⟨p, pairs⟩
  · rfl
  have hpieces : (formQuery (p :: pairs)).splitOn '&' = (p :: pairs).map formPiece := by
    refine List.splitOn_intercalate '&' ?_ (List.cons_ne_nil _ _)
    intro piece hpiece hmem
    obtain ⟨p, -, rfl⟩ := List.mem_map.mp hpiece
    rcases mem_formPiece hmem with h | h
    · exact absurd h (by decide)
    · exact h (by decide)
  have hfull : ((p :: pairs).map formPiece).filter (!·.isEmpty) = (p :: pairs).map formPiece := by
    rw [List.filter_eq_self]
    intro piece hpiece
    obtain ⟨p, -, rfl⟩ := List.mem_map.mp hpiece
    simp [formPiece]
  rw [formPairs, hpieces, hfull, List.map_map]
  exact List.map_congr_left fun p _ => formPair_formPiece p

/-- What form encoding does not write is read as well. -/
example : formPairs "a=%4A%z&&b+c".toList =
    [([0x61], [0x4A, 0x25, 0x7A]), ([0x62, 0x20, 0x63], [])] := by
  decide

theorem formTexts_formQuery (pairs : List (String × String)) :
    formTexts (formQuery pairs) = pairs := by
  rw [formTexts, formPairs_formQuery, List.map_map]
  refine List.map_id'' ?_ pairs
  intro p
  exact Prod.ext (readText_bytes p.1) (readText_bytes p.2)

theorem mem_formQuery {c : Char} (h : c ∈ formQuery pairs) :
    c = '&' ∨ c = '=' ∨ c ∉ structural := by
  rcases Lists.mem_of_mem_intercalate h with h | ⟨piece, hpiece, h⟩
  · exact Or.inl (List.mem_singleton.mp h)
  · obtain ⟨p, -, rfl⟩ := List.mem_map.mp hpiece
    exact Or.inr (mem_formPiece h)

end Pairs

end JobBoard.Url
