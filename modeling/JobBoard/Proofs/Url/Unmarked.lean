import JobBoard.Proofs.Url.Form
import JobBoard.Url.Reader
import Mathlib.Data.List.Basic

/-!
# Texts without marks

A question mark begins the query of a URL and a number sign its fragment. An authority that was read
holds neither: they are escaped in user names and passwords and refused in the names of hosts,
international names included, and all other hosts and the port are written in digits.
-/
namespace JobBoard.Url

/-- A text without the marks in front of a query and of a fragment. -/
def Unmarked (cs : List Char) : Prop :=
  ∀ c ∈ cs, c ≠ '?' ∧ c ≠ '#'

instance (cs : List Char) : Decidable (Unmarked cs) :=
  List.decidableBAll _ cs

section Texts

variable {cs cs' : List Char}

theorem unmarked_nil : Unmarked [] := by
  intro c hc
  cases hc

theorem unmarked_append : Unmarked (cs ++ cs') ↔ Unmarked cs ∧ Unmarked cs' :=
  List.forall_mem_append

theorem unmarked_cons {c : Char} : Unmarked (c :: cs) ↔ (c ≠ '?' ∧ c ≠ '#') ∧ Unmarked cs :=
  List.forall_mem_cons

theorem ne_marks {p : Char → Bool} {c : Char} (h : p c ≠ p '?' ∧ p c ≠ p '#') :
    c ≠ '?' ∧ c ≠ '#' :=
  ⟨ne_of_apply_ne p h.1, ne_of_apply_ne p h.2⟩

theorem unmarked_of_any {p : Char → Bool} (hp : p '?' = true ∧ p '#' = true)
    (h : ¬cs.any p = true) : Unmarked cs := by
  intro c hc
  have hpc : p c ≠ true := fun htrue => h (List.any_eq_true.mpr ⟨c, hc, htrue⟩)
  refine ne_marks (p := p) ?_
  rw [hp.1, hp.2]
  exact ⟨hpc, hpc⟩

theorem unmarked_flatMap {α : Type} {xs : List α} {f : α → List Char}
    (h : ∀ x ∈ xs, Unmarked (f x)) : Unmarked (xs.flatMap f) := by
  intro c hc
  obtain ⟨x, hx, hc⟩ := List.mem_flatMap.mp hc
  exact h x hx c hc

theorem unmarked_intercalate {sep : List Char} {list : List (List Char)} (hsep : Unmarked sep)
    (h : ∀ cs ∈ list, Unmarked cs) : Unmarked (sep.intercalate list) := by
  intro c hc
  rcases Lists.mem_of_mem_intercalate hc with hc | ⟨cs, hcs, hc⟩
  · exact hsep c hc
  · exact h cs hcs c hc

theorem unmarked_percentByte (b : UInt8) : Unmarked (percentByte b) := by
  have hdigit : ∀ n < 16, upperHexDigit n ≠ '?' ∧ upperHexDigit n ≠ '#' := by decide
  have hbyte : b.toNat < 256 := b.toNat_lt
  rw [percentByte, unmarked_cons, unmarked_cons, unmarked_cons]
  exact ⟨by decide, hdigit _ (by omega), hdigit _ (by omega), unmarked_nil⟩

/-- The marks are escaped if they are in the set. -/
theorem unmarked_percentEncode {set : Char → Bool}
    (h : ∀ c ∈ cs, set c = false → c ≠ '?' ∧ c ≠ '#') : Unmarked (percentEncode set cs) := by
  refine unmarked_flatMap ?_
  intro c hc
  split
  next => exact unmarked_flatMap fun b _ => unmarked_percentByte b
  next hset =>
    obtain ⟨-, hset⟩ : c.toNat < 0x80 ∧ set c = false := by simpa using hset
    exact unmarked_cons.mpr ⟨h c hc hset, unmarked_nil⟩

theorem unmarked_escaped {set : Char → Bool} (hset : set '?' = true ∧ set '#' = true) :
    Unmarked (percentEncode set cs) := by
  refine unmarked_percentEncode ?_
  intro c _ hc
  refine ne_marks (p := set) ?_
  rw [hc, hset.1, hset.2]
  decide

theorem unmarked_toDigits {base : Nat} (hbase : 0 < base ∧ base ≤ 16) (n : Nat) :
    Unmarked (Nat.toDigits base n) := by
  have hdigit : ∀ d < 16, d.digitChar ≠ '?' ∧ d.digitChar ≠ '#' := by decide
  have hcore (fuel : Nat) : ∀ n {cs}, Unmarked cs → Unmarked (Nat.toDigitsCore base fuel n cs) := by
    induction fuel with
    | zero =>
      intro n cs hcs
      exact hcs
    | succ fuel ih =>
      intro n cs hcs
      have hlt : n % base < base := Nat.mod_lt n hbase.1
      have hcons := unmarked_cons.mpr ⟨hdigit (n % base) (by omega), hcs⟩
      rw [Nat.toDigitsCore]
      split
      · exact hcons
      · exact ih _ hcons
  exact hcore _ n unmarked_nil

end Texts

/-- Whatever a reading yields has a property. -/
def Yields {α : Type} (x : Except Fault α) (p : α → Prop) : Prop :=
  ∀ a, x = .ok a → p a

section Yields

variable {α β : Type} {p : α → Prop} {q : β → Prop}

theorem yields_ok {a : α} (h : p a) : Yields (.ok a) p := by
  rintro _ ⟨⟩
  exact h

theorem yields_error {f : Fault} : Yields (.error f) p := by
  rintro _ ⟨⟩

theorem Yields.bind {x : Except Fault α} {f : α → Except Fault β} (hx : Yields x p)
    (hf : ∀ a, p a → Yields (f a) q) : Yields (x >>= f) q := by
  cases x with
  | error fault => exact yields_error
  | ok a => exact hf a (hx a rfl)

end Yields

section Hosts

variable {idna : Idna}

theorem unmarked_ipv4Text (address : Nat) : Unmarked (Host.ipv4Text address) := by
  refine unmarked_intercalate (by decide) ?_
  intro cs hcs
  obtain ⟨n, -, rfl⟩ := List.mem_map.mp hcs
  exact unmarked_toDigits (by decide) n

theorem unmarked_ipv6Join (pieces : List Nat) : Unmarked (Host.ipv6Join pieces) := by
  refine unmarked_intercalate (by decide) ?_
  intro cs hcs
  obtain ⟨n, -, rfl⟩ := List.mem_map.mp hcs
  exact unmarked_toDigits (by decide) n

theorem unmarked_ipv6Text (pieces : List Nat) : Unmarked (Host.ipv6Text pieces) := by
  unfold Host.ipv6Text
  extract_lets start count
  split
  · exact unmarked_ipv6Join pieces
  · rw [unmarked_append, unmarked_append]
    exact ⟨⟨unmarked_ipv6Join _, by decide⟩, unmarked_ipv6Join _⟩

theorem yields_bracketed (cs : List Char) : Yields (bracketed cs) (Unmarked ·.text) := by
  unfold bracketed
  split
  · split
    next pieces _ =>
      refine yields_ok ?_
      rw [Host.text, List.cons_append, unmarked_cons, unmarked_append]
      exact ⟨by decide, unmarked_ipv6Text pieces, by decide⟩
    next => exact yields_error
  · exact yields_error

theorem toLower_unmarked {c : Char} (h : c ≠ '?' ∧ c ≠ '#') :
    c.toLower ≠ '?' ∧ c.toLower ≠ '#' := by
  unfold Char.toLower
  split
  next hupper =>
    have hrange : 65 ≤ c.val.toNat ∧ c.val.toNat ≤ 90 := hupper
    have hlower : (c.val + ('a'.val - 'A'.val)).toNat = (c.val.toNat + 32) % 2 ^ 32 :=
      UInt32.toNat_add _ _
    constructor
    · intro heq
      have hnat : (c.val + ('a'.val - 'A'.val)).toNat = 63 := congrArg Char.toNat heq
      omega
    · intro heq
      have hnat : (c.val + ('a'.val - 'A'.val)).toNat = 35 := congrArg Char.toNat heq
      omega
  next => exact h

/-- What a mapping from outside gives is free of marks because it could not stand in a URL else. -/
theorem unmarked_of_domainToAscii? {name mapped : List Char}
    (h : domainToAscii? idna name = some mapped) : Unmarked mapped := by
  unfold domainToAscii? at h
  split at h
  · split at h
    · cases h
    next hname =>
      cases h
      intro _ hmem
      obtain ⟨c, hc, rfl⟩ := List.mem_map.mp hmem
      exact toLower_unmarked (unmarked_of_any (by decide) hname c hc)
  · have hallowed : ¬mapped.any forbiddenInDomain = true := by simp [idna.allowed name mapped h]
    exact unmarked_of_any (by decide) hallowed

theorem yields_readDomain (cs : List Char) : Yields (readDomain idna cs) Unmarked := by
  unfold readDomain
  split
  · split
    next mapped hmapped => exact yields_ok (unmarked_of_domainToAscii? hmapped)
    next => exact yields_error
  · exact yields_error

theorem yields_readHost (cs : List Char) : Yields (readHost idna cs) (Unmarked ·.text) := by
  unfold readHost
  split
  · exact yields_bracketed cs
  refine (yields_readDomain cs).bind ?_
  intro name hname
  extract_lets labels rest
  have hrest : Yields (rest ()) (Unmarked ·.text) := by
    unfold rest
    split
    · split
      next address _ => exact yields_ok (unmarked_ipv4Text address)
      next => exact yields_error
    · exact yields_ok hname
  split
  · exact yields_error
  · exact hrest

theorem yields_readPlainHost (cs : List Char) : Yields (readPlainHost cs) (Unmarked ·.text) := by
  unfold readPlainHost
  split
  · exact yields_bracketed cs
  split
  · exact yields_error
  next hcs =>
    refine yields_ok (unmarked_percentEncode ?_)
    intro c hc _
    exact unmarked_of_any (by decide) hcs c hc

theorem yields_readAuthorityHost (kind : Kind) (cs : List Char) :
    Yields (readAuthorityHost idna kind cs) fun host => ∀ h, host = some h → Unmarked h.text := by
  unfold readAuthorityHost
  split
  · extract_lets rest
    have hrest : Yields (rest ()) fun host => ∀ h, host = some h → Unmarked h.text := by
      refine (yields_readHost cs).bind ?_
      intro host hhost
      refine yields_ok ?_
      rintro _ ⟨⟩
      exact hhost
    split
    · exact yields_error
    · exact hrest
  · refine (yields_readPlainHost cs).bind ?_
    intro host hhost
    split
    · refine yields_ok ?_
      rintro _ ⟨⟩
    · refine yields_ok ?_
      rintro _ ⟨⟩
      exact hhost

end Hosts

section Authorities

variable {idna : Idna}

structure Authority.Unmarked (a : Authority) : Prop where
  username : Url.Unmarked a.username
  password : ∀ password, a.password = some password → Url.Unmarked password
  host : ∀ host, a.host = some host → Url.Unmarked host.text

theorem Authority.Unmarked.userinfo {a : Authority} (h : a.Unmarked) :
    Url.Unmarked a.userinfo := by
  unfold Authority.userinfo
  extract_lets password
  have hpassword : Url.Unmarked password := by
    unfold password
    split
    next password hpassword => exact unmarked_cons.mpr ⟨by decide, h.password _ hpassword⟩
    next => exact unmarked_nil
  split
  · exact unmarked_nil
  · rw [unmarked_append, unmarked_append]
    exact ⟨⟨h.username, hpassword⟩, by decide⟩

theorem Authority.Unmarked.text {a : Authority} (h : a.Unmarked) : Url.Unmarked a.text := by
  unfold Authority.text
  extract_lets host port
  have hhost : Url.Unmarked host := by
    unfold host
    split
    next host hhost => exact h.host _ hhost
    next => exact unmarked_nil
  have hport : Url.Unmarked port := by
    unfold port
    split
    next port _ => exact unmarked_cons.mpr ⟨by decide, unmarked_toDigits (by decide) port⟩
    next => exact unmarked_nil
  rw [unmarked_append, unmarked_append, unmarked_append]
  exact ⟨⟨⟨by decide, h.userinfo⟩, hhost⟩, hport⟩

theorem unmarked_readUserinfo (cs : List Char) :
    Unmarked (readUserinfo cs).1 ∧
      ∀ password, (readUserinfo cs).2 = some password → Unmarked password := by
  have hencoded (cs : List Char) : Unmarked (percentEncode userinfoSet cs) :=
    unmarked_escaped (by decide)
  unfold readUserinfo
  extract_lets encoded
  split
  next password _ =>
    refine ⟨hencoded _, ?_⟩
    intro encoded hencoded'
    split at hencoded'
    · cases hencoded'
    · cases hencoded'
      exact hencoded _
  next =>
    refine ⟨hencoded _, ?_⟩
    rintro _ ⟨⟩

theorem yields_readAuthority (kind : Kind) (scheme cs : List Char) :
    Yields (readAuthority idna kind scheme cs) (·.1.Unmarked) := by
  unfold readAuthority
  extract_lets span after rest
  have hrest {username : List Char} {password : Option (List Char)} (place : List Char)
      (husername : Unmarked username)
      (hpassword : ∀ text, password = some text → Unmarked text) :
      Yields (rest ((username, password), place)) (·.1.Unmarked) := by
    unfold rest
    refine (yields_readAuthorityHost kind _).bind ?_
    intro host hhost
    extract_lets ending
    have hending (port : Option Nat × List Char) : Yields (ending port) (·.1.Unmarked) := by
      obtain ⟨port, after⟩ := port
      unfold ending
      dsimp only
      split
      · exact yields_error
      · exact yields_ok ⟨husername, hpassword, hhost⟩
    split
    · exact hending (none, [])
    · split
      · exact yields_error
      · exact Yields.bind (p := fun _ => True) (fun _ _ => trivial) fun port _ => hending port
  have hnone : ∀ text, (none : Option (List Char)) = some text → Unmarked text := by
    rintro _ ⟨⟩
  split
  · exact hrest _ unmarked_nil hnone
  · split
    · exact yields_error
    · exact hrest _ unmarked_nil hnone
  · exact hrest _ (unmarked_readUserinfo _).1 (unmarked_readUserinfo _).2

end Authorities

end JobBoard.Url
