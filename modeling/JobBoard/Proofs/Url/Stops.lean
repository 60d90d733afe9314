import JobBoard.Proofs.Url.Unmarked

/-!
# Texts that differ behind a stop

A slash, a question mark and a number sign end the scheme and the authority of a URL, whatever
comes after them. So two texts that are the same up to such a character are read alike up to there,
and what is left of the same front is still in front of both ends.
-/
namespace JobBoard.Url

/-- A text that is empty or begins with a character that ends every authority. -/
def Stops (cs : List Char) : Prop :=
  ∀ c, cs.head? = some c → c = '/' ∨ c = '?' ∨ c = '#'

theorem stops_nil : Stops [] := by
  rintro _ ⟨⟩

theorem stops_slash : Stops ['/'] := by
  rintro _ ⟨⟩
  exact Or.inl rfl

section Follows

variable {α α' β β' : Type} {r : α → β → Prop} {s : α' → β' → Prop}

/-- Where the second reading yields something, the first yields something related to it. -/
def Follows (x : Except Fault α) (y : Except Fault β) (r : α → β → Prop) : Prop :=
  ∀ b, y = .ok b → ∃ a, x = .ok a ∧ r a b

theorem follows_ok {a : α} {b : β} (h : r a b) : Follows (.ok a) (.ok b) r := by
  rintro _ ⟨⟩
  exact ⟨a, rfl, h⟩

theorem follows_error {x : Except Fault α} {f : Fault} : Follows x (.error f) r := by
  rintro _ ⟨⟩

theorem follows_self (x : Except Fault α) : Follows x x Eq := by
  intro a ha
  exact ⟨a, ha, rfl⟩

theorem Yields.follows {x : Except Fault α} {p : α → Prop} (h : Yields x p) :
    Follows x x fun a b => a = b ∧ p a := by
  intro a ha
  exact ⟨a, ha, rfl, h a ha⟩

theorem Follows.bind {x : Except Fault α} {y : Except Fault β} {f : α → Except Fault α'}
    {g : β → Except Fault β'} (h : Follows x y r) (hfg : ∀ a b, r a b → Follows (f a) (g b) s) :
    Follows (x >>= f) (y >>= g) s := by
  cases y with
  | error fault => exact follows_error
  | ok b =>
    obtain ⟨a, rfl, hab⟩ := h b rfl
    exact hfg a b hab

end Follows

section Ends

variable (idna : Idna) {y z z' : List Char}

theorem takeWhile_append_of_head {p : Char → Bool} (hz : ∀ c, z.head? = some c → p c = false) :
    (y ++ z).takeWhile p = y.takeWhile p ∧ (y ++ z).dropWhile p = y.dropWhile p ++ z := by
  have hhead : z.takeWhile p = [] ∧ z.dropWhile p = z := by
    cases z with
    | nil => exact ⟨rfl, rfl⟩
    | cons c z =>
      have hc : ¬p c = true := Bool.eq_false_iff.mp (hz c rfl)
      exact ⟨List.takeWhile_cons_of_neg hc, List.dropWhile_cons_of_neg hc⟩
  induction y with
  | nil => exact hhead
  | cons c y ih =>
    rw [List.cons_append, List.takeWhile_cons, List.takeWhile_cons, List.dropWhile_cons,
      List.dropWhile_cons]
    split
    · exact ⟨congrArg _ ih.1, ih.2⟩
    · exact ⟨rfl, rfl⟩

theorem takeWhile_append_of_stops {p : Char → Bool}
    (hp : p '/' = false ∧ p '?' = false ∧ p '#' = false) (hz : Stops z) :
    (y ++ z).takeWhile p = y.takeWhile p ∧ (y ++ z).dropWhile p = y.dropWhile p ++ z := by
  refine takeWhile_append_of_head ?_
  intro c hc
  rcases hz c hc with rfl | rfl | rfl
  · exact hp.1
  · exact hp.2.1
  · exact hp.2.2

theorem suffix_of_splitLastAt {cs before place : List Char}
    (h : splitLastAt cs = some (before, place)) : place <:+ cs := by
  unfold splitLastAt at h
  split at h
  · cases h
  · cases h
    rw [← List.reverse_prefix, List.reverse_reverse]
    exact List.takeWhile_prefix _

theorem suffix_spanHost (inside : Bool) (cs : List Char) : (spanHost inside cs).2 <:+ cs := by
  induction cs generalizing inside with
  | nil => exact List.suffix_rfl
  | cons c cs ih =>
    unfold spanHost
    split
    · exact List.suffix_rfl
    · exact (ih _).trans (List.suffix_cons c cs)

theorem yields_readPort (scheme cs : List Char) : Yields (readPort scheme cs) (·.2 <:+ cs) := by
  unfold readPort
  extract_lets digits rest port
  split
  · exact yields_error
  · exact yields_ok (List.dropWhile_suffix _)

theorem suffix_of_readScheme {cs scheme rest : List Char}
    (h : readScheme cs = some (scheme, rest)) : rest <:+ cs := by
  unfold readScheme at h
  split at h
  next hcolon =>
    split at h
    · cases h
      exact (List.suffix_cons ':' rest).trans (hcolon ▸ List.dropWhile_suffix _)
    · cases h
  · cases h

theorem readScheme_append (hz : Stops z) :
    readScheme (y ++ z) = (readScheme y).map fun r => (r.1, r.2 ++ z) := by
  unfold readScheme
  rw [(takeWhile_append_of_stops (by decide) hz).1, (takeWhile_append_of_stops (by decide) hz).2]
  cases hrest : y.dropWhile isSchemeChar with
  | nil =>
    cases z with
    | nil => rfl
    | cons c z =>
      rcases hz c rfl with rfl | rfl | rfl <;> rfl
  | cons c rest =>
    have hhead : (y ++ z).head? = y.head? := by
      cases y with
      | nil => cases hrest
      | cons d y => rfl
    by_cases hc : c = ':'
    · subst hc
      simp only [List.cons_append, hhead]
      split <;> rfl
    · simp [hc]

/-- What is left behind an authority, in front of two different ends. -/
def Leaves {α : Type} (y z z' : List Char) (r r' : α × List Char) : Prop :=
  r.1 = r'.1 ∧ ∃ w, w <:+ y ∧ r.2 = w ++ z ∧ r'.2 = w ++ z'

theorem follows_readAuthority (kind : Kind) (scheme : List Char) (hz : Stops z) (hz' : Stops z')
    (hne : z' = [] → z = []) :
    Follows (readAuthority idna kind scheme (y ++ z)) (readAuthority idna kind scheme (y ++ z'))
      (Leaves y z z') := by
  have hends : (!endsAuthority kind '/') = false ∧ (!endsAuthority kind '?') = false ∧
      (!endsAuthority kind '#') = false := ⟨rfl, rfl, rfl⟩
  unfold readAuthority
  rw [(takeWhile_append_of_stops hends hz).1, (takeWhile_append_of_stops hends hz).2,
    (takeWhile_append_of_stops hends hz').1, (takeWhile_append_of_stops hends hz').2]
  extract_lets span after rest after' rest'
  have hspan : span ++ y.dropWhile (!endsAuthority kind ·) = y := List.takeWhile_append_dropWhile
  have hrest (info : List Char × Option (List Char)) {place : List Char} (hplace : place <:+ span) :
      Follows (rest (info, place)) (rest' (info, place)) (Leaves y z z') := by
    obtain ⟨username, password⟩ := info
    have hport : (spanHost false place).2 <:+ span := (suffix_spanHost false place).trans hplace
    unfold rest rest'
    refine (follows_self _).bind ?_
    rintro host _ rfl
    extract_lets ending ending'
    have hending (port : Option Nat) {left : List Char} (hleft : left <:+ span) :
        Follows (ending (port, left)) (ending' (port, left)) (Leaves y z z') := by
      unfold ending ending'
      dsimp only
      split
      · exact follows_error
      · refine follows_ok ⟨rfl, left ++ y.dropWhile (!endsAuthority kind ·), ?_, ?_, ?_⟩
        · obtain ⟨before, hbefore⟩ := hleft
          exact ⟨before, by rw [← List.append_assoc, hbefore, hspan]⟩
        · exact (List.append_assoc _ _ _).symm
        · exact (List.append_assoc _ _ _).symm
    split
    · exact hending none (List.nil_suffix)
    next digits hdigits =>
      split
      · exact follows_error
      · refine (yields_readPort scheme digits).follows.bind ?_
        rintro ⟨port, left⟩ _ ⟨rfl, hleft⟩
        rw [hdigits] at hport
        exact hending port (hleft.trans ((List.suffix_cons _ digits).trans hport))
  split
  · exact hrest ([], none) List.suffix_rfl
  -- An at sign without a host is refused only if something follows the authority.
  next place hplace =>
    by_cases hthrow : place.isEmpty = true ∧ (!after'.isEmpty) = true
    · rw [if_pos hthrow]
      exact follows_error
    · have hown : ¬(place.isEmpty = true ∧ (!after.isEmpty) = true) := by
        rintro ⟨hempty, hafter⟩
        refine hthrow ⟨hempty, ?_⟩
        unfold after at hafter
        unfold after'
        cases z' with
        | nil => rwa [hne rfl] at hafter
        | cons c z' => simp
      rw [if_neg hthrow, if_neg hown]
      exact hrest ([], none) (suffix_of_splitLastAt hplace)
  next info place _ hplace => exact hrest (readUserinfo info) (suffix_of_splitLastAt hplace)

theorem follows_readFileHost (hz : Stops z) (hz' : Stops z') :
    Follows (readFileHost idna (y ++ z)) (readFileHost idna (y ++ z')) (Leaves y z z') := by
  have hends : (!endsAuthority .file '/') = false ∧ (!endsAuthority .file '?') = false ∧
      (!endsAuthority .file '#') = false := ⟨rfl, rfl, rfl⟩
  have hafter : y.dropWhile (!endsAuthority .file ·) <:+ y := List.dropWhile_suffix _
  unfold readFileHost
  rw [(takeWhile_append_of_stops hends hz).1, (takeWhile_append_of_stops hends hz).2,
    (takeWhile_append_of_stops hends hz').1, (takeWhile_append_of_stops hends hz').2]
  extract_lets hostText rest rest'
  by_cases hdrive : isDriveLike hostText = true
  · rw [if_pos hdrive, if_pos hdrive]
    exact follows_ok ⟨rfl, y, List.suffix_rfl, rfl, rfl⟩
  rw [if_neg hdrive, if_neg hdrive]
  by_cases hempty : hostText.isEmpty = true
  · rw [if_pos hempty, if_pos hempty]
    exact follows_ok ⟨rfl, _, hafter, rfl, rfl⟩
  rw [if_neg hempty, if_neg hempty]
  refine (follows_self _).bind ?_
  rintro host _ rfl
  exact follows_ok ⟨rfl, _, hafter, rfl, rfl⟩

theorem yields_left {α : Type} {x : Except Fault (α × List Char)}
    (h : Follows x x (Leaves y [] [])) : Yields x (·.2 <:+ y) := by
  intro r hr
  obtain ⟨_, -, -, w, hw, -, hleft⟩ := h r hr
  rw [List.append_nil] at hleft
  exact hleft ▸ hw

theorem yields_left_readAuthority (kind : Kind) (scheme cs : List Char) :
    Yields (readAuthority idna kind scheme cs) (·.2 <:+ cs) := by
  have h := follows_readAuthority idna (y := cs) kind scheme stops_nil stops_nil fun _ => rfl
  rw [List.append_nil] at h
  exact yields_left h

theorem yields_left_readFileHost (cs : List Char) :
    Yields (readFileHost idna cs) (·.2 <:+ cs) := by
  have h := follows_readFileHost idna (y := cs) stops_nil stops_nil
  rw [List.append_nil] at h
  exact yields_left h

end Ends

section Cleaning

/-- What counts of the text in front of a character that counts. -/
def keptBefore (cs : List Char) : List Char :=
  (cs.dropWhile (·.toNat ≤ 0x20)).filter fun c => c != '\t' && c != '\n' && c != '\r'

def keptAfter (cs : List Char) : List Char :=
  (cs.reverse.dropWhile (·.toNat ≤ 0x20)).reverse.filter fun c =>
    c != '\t' && c != '\n' && c != '\r'

variable {c : Char}

theorem dropWhile_append_cons_of_lt (hc : 0x20 < c.toNat) (cs rest : List Char) :
    (cs ++ c :: rest).dropWhile (·.toNat ≤ 0x20) =
      cs.dropWhile (·.toNat ≤ 0x20) ++ c :: rest := by
  refine (takeWhile_append_of_head ?_).2
  rintro _ ⟨⟩
  exact decide_eq_false (by omega)

theorem inner_of_lt (hc : 0x20 < c.toNat) : (c != '\t' && c != '\n' && c != '\r') = true := by
  have hne (d : Char) (hd : d.toNat ≤ 0x20) : (c != d) = true := by
    rw [bne_iff_ne]
    rintro rfl
    omega
  rw [hne '\t' (by decide), hne '\n' (by decide), hne '\r' (by decide)]
  rfl

theorem cleaned_append (hc : 0x20 < c.toNat) (cs rest : List Char) :
    cleaned (cs ++ c :: rest) = keptBefore cs ++ c :: keptAfter rest := by
  unfold cleaned keptBefore keptAfter
  extract_lets outer inner
  have hinner : inner = cs.dropWhile outer ++ c :: (rest.reverse.dropWhile outer).reverse := by
    unfold inner
    rw [dropWhile_append_cons_of_lt hc, List.reverse_append, List.reverse_cons, List.append_assoc,
      List.singleton_append, dropWhile_append_cons_of_lt hc]
    simp [outer]
  rw [hinner, List.filter_append, List.filter_cons, if_pos (inner_of_lt hc)]

theorem keptBefore_append_singleton (hc : 0x20 < c.toNat) (cs : List Char) :
    keptBefore (cs ++ [c]) = keptBefore cs ++ [c] := by
  unfold keptBefore
  rw [dropWhile_append_cons_of_lt hc, List.filter_append, List.filter_cons,
    if_pos (inner_of_lt hc), List.filter_nil]

end Cleaning

end JobBoard.Url
