import JobBoard.Json.Reader
import JobBoard.Proofs.Lists
import JobBoard.Proofs.Text.Utf8

/-!
# Reading JSON that was written

A string is read back from what it is written as, whatever characters it holds and whatever follows.
So an object of texts is read back as the object of these members.
-/
namespace JobBoard.Json

open Text.Utf8 (encode encodeChar_of_lt front)

theorem encode_append (cs cs' : List Char) : encode (cs ++ cs') = encode cs ++ encode cs' :=
  List.flatMap_append

theorem encode_cons_of_lt {c : Char} (h : c.toNat < 0x80) (cs : List Char) :
    encode (c :: cs) = UInt8.ofNat c.toNat :: encode cs := by
  rw [encode, List.flatMap_cons, encodeChar_of_lt h]
  rfl

section Strings

variable {c : Char} {read : List Char} {rest : Bytes}

theorem readRest_escape {bytes : Bytes} (h : readEscape bytes = (.ok c, rest)) :
    readRest read none (0x5C :: bytes) = readRest (c :: read) none rest := by
  rw [readRest, if_neg (by decide), if_pos rfl]
  simp only [h]

theorem readRest_letter {b : UInt8} (h : letterEscape? b = some c) :
    readRest read none (0x5C :: b :: rest) = readRest (c :: read) none rest := by
  refine readRest_escape ?_
  rw [readEscape, h]

theorem hexDigit?_digitChar : ∀ n < 16,
    hexDigit? (UInt8.ofNat n.digitChar.toNat) = some n ∧ n.digitChar.toNat < 0x80 := by
  decide

theorem readNumberEscape_written {n : Nat} (h : n < 0x20) :
    readNumberEscape (encode ['0', '0', (n / 16).digitChar, (n % 16).digitChar] ++ rest) =
      (.ok (Char.ofNat n), rest) := by
  obtain ⟨hhigh, hhigh'⟩ := hexDigit?_digitChar (n / 16) (by omega)
  obtain ⟨hlow, hlow'⟩ := hexDigit?_digitChar (n % 16) (by omega)
  have hzero : hexDigit? (UInt8.ofNat '0'.toNat) = some 0 := by decide
  have hn : ((0 * 16 + 0) * 16 + n / 16) * 16 + n % 16 = n := by omega
  rw [encode_cons_of_lt (by decide), encode_cons_of_lt (by decide), encode_cons_of_lt hhigh',
    encode_cons_of_lt hlow', readNumberEscape]
  simp only [List.cons_append, readHex, hzero, hhigh, hlow, hn]
  rw [if_neg (by omega), if_neg (by omega)]
  rfl

theorem eq_ofNat_of_front {lead : UInt8} {tails : Bytes}
    (h : ∀ rest, front lead (tails ++ rest) = (some c, rest)) (hlead : lead.toNat < 0x80) :
    c = Char.ofNat lead.toNat := by
  have hfront := h []
  rw [Text.Utf8.front_one hlead] at hfront
  exact (Option.some.inj (Prod.mk.inj hfront).1).symm

theorem readRest_plain (hquote : c ≠ '"') (hslash : c ≠ '\\') (hcontrol : ¬c.toNat < 0x20) :
    readRest read none (encode [c] ++ rest) = readRest (c :: read) none rest := by
  obtain ⟨lead, tails, hc, hfront⟩ := Text.Utf8.front_encodeChar c
  have hlead := eq_ofNat_of_front hfront
  have hne (b : UInt8) (hb : b.toNat < 0x80) (hcb : c ≠ Char.ofNat b.toNat) : lead ≠ b := by
    rintro rfl
    exact hcb (hlead hb)
  have hge : ¬lead < 0x20 := by
    intro hlt
    have hlt : lead.toNat < 0x20 := UInt8.lt_iff_toNat_lt.mp hlt
    refine hcontrol ?_
    rw [hlead (by omega), Text.Utf8.toNat_char (by omega)]
    exact hlt
  rw [encode, List.flatMap_singleton, hc, List.cons_append, readRest,
    if_neg (hne 0x22 (by decide) hquote), if_neg (hne 0x5C (by decide) hslash), if_neg hge]
  simp only [hfront]

theorem readRest_control (h : c.toNat < 0x20) :
    readRest read none (encode ['\\', 'u', '0', '0', (c.toNat / 16).digitChar,
      (c.toNat % 16).digitChar] ++ rest) = readRest (c :: read) none rest := by
  rw [encode_cons_of_lt (by decide), encode_cons_of_lt (by decide), List.cons_append,
    List.cons_append]
  refine readRest_escape ((readNumberEscape_written h).trans ?_)
  rw [Char.ofNat_toNat]

/-- A character is read from what it is written as, whatever follows. -/
theorem readRest_writeChar (c : Char) (read : List Char) (rest : Bytes) :
    readRest read none (encode (writeChar c) ++ rest) = readRest (c :: read) none rest := by
  unfold writeChar
  split_ifs with hquote hslash _ _ _ _ _ hcontrol
  iterate 7
    subst c
    exact readRest_letter rfl
  · exact readRest_control hcontrol
  · exact readRest_plain hquote hslash hcontrol

theorem readRest_written (cs read : List Char) (rest : Bytes) :
    readRest read none (encode (cs.flatMap writeChar) ++ 0x22 :: rest) =
      .ok (String.ofList (read.reverse ++ cs), rest) := by
  induction cs generalizing read with
  | nil =>
    rw [List.append_nil, List.flatMap_nil, encode, List.flatMap_nil, List.nil_append, readRest,
      if_pos rfl]
  | cons c cs ih =>
    rw [List.flatMap_cons, encode_append, List.append_assoc, readRest_writeChar, ih,
      List.reverse_cons, List.append_assoc, List.singleton_append]

end Strings

section Members

def inside (s : String) : List Char :=
  s.toList.flatMap writeChar

/-- The characters of a member, from the one after the opening quote of its name. -/
def memberTail (m : String × String) : List Char :=
  inside m.1 ++ '"' :: ':' :: '"' :: inside m.2 ++ ['"']

def insertText (members : List (String × Value)) (m : String × String) : List (String × Value) :=
  insertMember m.1 (.string m.2) members

def objectOf (texts : List (String × String)) : List (String × Value) :=
  texts.foldl insertText []

variable {m : String × String} {members : List (String × Value)} {rest : Bytes}

theorem insertMember_of_lt {name other : String} {v w : Value} (hne : name ≠ other)
    (h : Text.compareCodePoints name.toList other.toList = .lt) :
    insertMember name v ((other, w) :: members) = (name, v) :: (other, w) :: members := by
  rw [insertMember, if_neg hne, h]

theorem insertMember_of_gt {name other : String} {v w : Value} (hne : name ≠ other)
    (h : Text.compareCodePoints name.toList other.toList = .gt) :
    insertMember name v ((other, w) :: members) = (other, w) :: insertMember name v members := by
  rw [insertMember, if_neg hne, h]

theorem readString_written (s : String) (rest : Bytes) :
    readString (encode (inside s) ++ 0x22 :: rest) = .ok (s, rest) := by
  rw [readString, inside, readRest_written, List.reverse_nil, List.nil_append, String.ofList_toList]

theorem readValue_written (depth : Nat) (s : String) (rest : Bytes) :
    readValue depth (0x22 :: (encode (inside s) ++ 0x22 :: rest)) = .ok (.string s, rest) := by
  unfold readValue
  simp [skipSpace, isSpace, isDigit, readString_written]

theorem encode_memberTail (m : String × String) (rest : Bytes) :
    encode (memberTail m) ++ rest = encode (inside m.1) ++
      0x22 :: 0x3A :: 0x22 :: (encode (inside m.2) ++ 0x22 :: rest) := by
  have hmark : encode ['"'] = [0x22] := by decide
  rw [memberTail, encode_append, encode_append, encode_cons_of_lt (by decide),
    encode_cons_of_lt (by decide), encode_cons_of_lt (by decide), hmark]
  simp only [List.append_assoc, List.cons_append]
  rfl

theorem readMembers_member {depth fuel : Nat} {first : Bool} {bytes : Bytes}
    (h : nextMember first bytes =
      .ok (some (encode (memberTail m) ++ rest), encode (memberTail m) ++ rest)) :
    readMembers (readValue depth) (fuel + 1) first members bytes =
      readMembers (readValue depth) fuel false (insertText members m) rest := by
  have hcolon (bytes : Bytes) : readColon (0x3A :: bytes) = .ok bytes := rfl
  rw [readMembers, h]
  dsimp only [bind, Except.bind]
  rw [encode_memberTail, readString_written]
  dsimp only
  rw [hcolon]
  dsimp only
  rw [readValue_written]
  rfl

/-- The members of an object from the comma in front of the next one on. -/
def memberTexts (texts : List (String × String)) : List Char :=
  texts.flatMap fun m => ',' :: '"' :: memberTail m

theorem readMembers_written (depth : Nat) {fuel : Nat} {texts : List (String × String)}
    (hfuel : texts.length < fuel) (members : List (String × Value)) (rest : Bytes) :
    readMembers (readValue depth) fuel false members
        (encode (memberTexts texts) ++ 0x7D :: rest) =
      .ok (texts.foldl insertText members, rest) := by
  induction texts generalizing fuel members with
  | nil =>
    obtain ⟨fuel, rfl⟩ := Nat.exists_eq_add_one.mpr hfuel
    rfl
  | cons m texts ih =>
    obtain ⟨fuel, rfl⟩ := Nat.exists_eq_add_one.mpr (Nat.zero_lt_of_lt hfuel)
    rw [memberTexts, List.flatMap_cons, List.cons_append, List.cons_append,
      encode_cons_of_lt (by decide), encode_cons_of_lt (by decide), encode_append,
      List.cons_append, List.cons_append, List.append_assoc]
    refine (readMembers_member rfl).trans ?_
    exact ih (Nat.lt_of_succ_lt_succ hfuel) _

theorem toList_writeTexts (m : String × String) (texts : List (String × String)) :
    (writeTexts (m :: texts)).toList =
      '\x7b' :: '"' :: memberTail m ++ memberTexts texts ++ ['\x7d'] := by
  have hone (m : String × String) : (writeString m.1 ++ ":" ++ writeString m.2).toList =
      '"' :: memberTail m := by
    simp [writeString, memberTail, inside]
  have hcomma : ",".toList = [','] := rfl
  rw [writeTexts, String.toList_append, String.toList_append, String.toList_intercalate, hcomma,
    List.map_map, List.map_cons, Lists.intercalate_cons, List.flatMap_map]
  simp only [Function.comp_apply, hone]
  rfl

theorem length_le_memberTexts (texts : List (String × String)) :
    texts.length ≤ (encode (memberTexts texts)).length := by
  induction texts with
  | nil => exact Nat.le_refl 0
  | cons m texts ih =>
    rw [memberTexts, List.flatMap_cons, List.cons_append, encode_cons_of_lt (by decide),
      List.cons_append, encode_cons_of_lt (by decide), encode_append]
    simp only [List.length_cons, List.length_append]
    rw [memberTexts] at ih
    omega

theorem readValue_object (depth : Nat) (rest : Bytes) :
    readValue (depth + 1) (0x7B :: rest) =
      (readMembers (readValue depth) (rest.length + 1) true [] rest).map
        fun r => (.object r.1, r.2) := by
  rfl

/-- An object of texts is read as the object that has these texts as its members. -/
theorem parse_writeTexts (texts : List (String × String)) :
    parse (Text.Utf8.bytes (writeTexts texts)) = .ok (.object (objectOf texts)) := by
  cases texts with
  | nil => rfl
  | cons m texts =>
    have hclose : encode ['\x7d'] = [0x7D] := by decide
    have hbytes : Text.Utf8.bytes (writeTexts (m :: texts)) = 0x7B :: 0x22 ::
        (encode (memberTail m) ++ (encode (memberTexts texts) ++ [0x7D])) := by
      rw [Text.Utf8.bytes, toList_writeTexts, encode_append, encode_append, hclose,
        encode_cons_of_lt (by decide), encode_cons_of_lt (by decide), List.append_assoc]
      rfl
    rw [hbytes]
    have hlength := length_le_memberTexts texts
    have hfirst (fuel : Nat) (rest : Bytes) :
        readMembers (readValue 126) (fuel + 1) true [] (0x22 :: (encode (memberTail m) ++ rest)) =
          readMembers (readValue 126) fuel false (insertText [] m) rest :=
      readMembers_member rfl
    rw [parse, maxDepth, readValue_object, hfirst, readMembers_written]
    · rfl
    · simp only [List.length_cons, List.length_append]
      omega

end Members

end JobBoard.Json
