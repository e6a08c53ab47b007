import DevOpsAssistant.Core.Security
import DevOpsAssistant.Specs.Runs
import DevOpsAssistant.Text.Strings
import DevOpsAssistant.Text.Utf8
import Mathlib.Data.Finset.Card

/-!
# Passwords and their hashes

The rules bound the length of a password in characters, and bcrypt reads bytes.

* `Bcrypt`: what bcrypt tells apart; `AcceptedPassword`: passwords that pass the rules.
* `Separated`: a password is not verified against the hash of another.
* `lookalike`: accepted passwords with the same first bytes.
* **`separated_iff`**: all accepted passwords are told apart if and only if none has more than 18
  characters.
-/

namespace DevOps

open Txn

variable (env : Env)

/-- bcrypt reads the first 72 bytes of a password and tells them apart. -/
structure Bcrypt : Prop where
  verify : ∀ p q salt, env.bcryptVerify q (env.bcryptHash p salt) = true ↔
    (Utf8.encode q).take 72 = (Utf8.encode p).take 72

/-- The password passes `validate_password`. -/
def AcceptedPassword (password username email : String) : Prop :=
  validatePassword env password username email = pure ()

/-- `verify_password(q, hash_password(p))` is false. -/
def Separated (p q : String) : Prop := ∀ s : Session Row World,
  (hashPassword env p).Ends respond s (Prog.onOk fun hash _ => verifyPassword env q hash = false)

variable {env} {p q username email : String}

/-- **Two passwords are told apart** if and only if their first 72 bytes are different. -/
theorem separated_iff_take (hb : Bcrypt env) :
    Separated env p q ↔ (Utf8.encode p).take 72 ≠ (Utf8.encode q).take 72 := by
  have hverify : ∀ salt, verifyPassword env q (env.bcryptHash p salt) = false ↔
      (Utf8.encode p).take 72 ≠ (Utf8.encode q).take 72 := by
    intro salt
    rw [← Bool.not_eq_true, verifyPassword, hb.verify, ne_comm]
  constructor
  · intro h
    exact (hverify _).mp (h State.trial.session _ rfl)
  · intro h s hash hhash
    cases hhash
    exact (hverify _).mpr h

theorem acceptedPassword_iff : AcceptedPassword env p username email ↔ passwordErrors env p username email = [] := by
  unfold AcceptedPassword validatePassword
  by_cases h : passwordErrors env p username email = []
  · simp [h]
  · rw [if_neg h]
    exact iff_of_false (fun hthrow => nomatch hthrow) h

/-- An accepted password has at most the characters that the settings allow. -/
theorem length_le_of_acceptedPassword (h : AcceptedPassword env p username email) :
    p.length ≤ env.settings.passwordMaxLength := by
  rw [acceptedPassword_iff] at h
  by_contra hlong
  simp [passwordErrors, if_pos (Nat.lt_of_not_le hlong)] at h

/-! ## Passwords that look alike -/

/-- The emoticons, which have no case. -/
def isEmoticon (c : Char) : Prop := 0x1F600 ≤ c.toNat ∧ c.toNat ≤ 0x1F64F

/-- A password of `n + 1` characters: one emoticon many times, and another one. -/
def lookalike (n : ℕ) (c : Char) : String := String.ofList (List.replicate n '😀' ++ [c])

theorem encode_lookalike (n : ℕ) (c : Char) (hn : 18 ≤ n) : (Utf8.encode (lookalike n c)).take 72 =
    ((List.replicate n '😀').flatMap String.utf8EncodeChar).take 72 := by
  have hlen : 72 ≤ ((List.replicate n '😀').flatMap String.utf8EncodeChar).length := by
    rw [List.length_flatMap, List.map_replicate, List.sum_replicate_nat]
    have : (String.utf8EncodeChar '😀').length = 4 := by decide
    rw [this]
    simp
    omega
  rw [Utf8.encode, lookalike, String.toList_ofList, List.flatMap_append,
    List.take_append_of_le_length hlen]

theorem lookalike_injective {n : ℕ} {c d : Char} (h : lookalike n c = lookalike n d) : c = d := by
  have := String.ofList_injective h
  simpa using this

theorem isEmoticon_of_mem {n : ℕ} {c d : Char} (hc : isEmoticon c)
    (hd : d ∈ (lookalike n c).toList) : isEmoticon d := by
  rw [lookalike, String.toList_ofList, List.mem_append, List.mem_singleton] at hd
  obtain hd | rfl := hd
  · rw [List.eq_of_mem_replicate hd]
    exact ⟨by decide, by decide⟩
  · exact hc

/-- Emoticons that end a password. -/
def faces : Finset Char := {'😁', '😂', '😃', '😄'}

theorem isEmoticon_of_mem_faces {c : Char} (h : c ∈ faces) : isEmoticon c ∧ c ≠ '😀' := by
  simp only [faces, Finset.mem_insert, Finset.mem_singleton] at h
  obtain rfl | rfl | rfl | rfl := h
  all_goals exact ⟨⟨by decide, by decide⟩, by decide⟩

/-- Of four texts, two are different from two given ones. -/
theorem exists_faces (n : ℕ) (u e : String) : ∃ c ∈ faces, ∃ d ∈ faces, c ≠ d ∧
    (lookalike n c ≠ u ∧ lookalike n c ≠ e) ∧ lookalike n d ≠ u ∧ lookalike n d ≠ e := by
  have htaken : (faces.filter fun c => lookalike n c ∈ ({u, e} : Finset String)).card ≤ 2 := by
    have hpair : ({u, e} : Finset String).card ≤ 2 := Finset.card_le_two
    refine (Finset.card_le_card_of_injOn (lookalike n) (fun c hc => ?_) ?_).trans hpair
    · exact (Finset.mem_filter.mp hc).2
    · exact fun c _ d _ h => lookalike_injective h
  have hall : faces.card = 4 := by decide
  have hsum := Finset.card_filter_add_card_filter_not
    (s := faces) fun c => lookalike n c ∈ ({u, e} : Finset String)
  have hfree : 1 < (faces.filter fun c => ¬ lookalike n c ∈ ({u, e} : Finset String)).card := by
    omega
  obtain ⟨c, hc, d, hd, hcd⟩ := Finset.one_lt_card.mp hfree
  rw [Finset.mem_filter, Finset.mem_insert, Finset.mem_singleton, not_or] at hc hd
  exact ⟨c, hc.1, d, hd.1, hcd, hc.2, hd.2⟩

section

variable (hlower : ∀ s : String, (∀ c ∈ s.toList, isEmoticon c) → env.lower s = s)

include hlower

/-- A long password of emoticons is accepted, unless it is the name or the address of the user. -/
theorem accepted_lookalike {n : ℕ} {c : Char} (hn : n + 1 = env.settings.passwordMaxLength)
    (hne : n ≠ 0) (hc : isEmoticon c) (hface : c ≠ '😀') (hu : lookalike n c ≠ env.lower username)
    (he : lookalike n c ≠ env.lower email) : AcceptedPassword env (lookalike n c) username email := by
  have hmin := env.settings.validatePasswordMax
  have hlow : env.lower (lookalike n c) = lookalike n c :=
    hlower _ fun d hd => isEmoticon_of_mem hc hd
  have hlen : (lookalike n c).length = n + 1 := by
    rw [lookalike, ← String.length_toList, String.toList_ofList]
    simp
  have hcommon : lookalike n c ∉ COMMON_PASSWORDS := by
    intro hmem
    have hascii : ∀ s ∈ COMMON_PASSWORDS, ∀ d ∈ s.toList, d.toNat < 128 := by decide
    have hlast : c ∈ (lookalike n c).toList := by
      rw [lookalike, String.toList_ofList]
      simp
    have := hascii _ hmem c hlast
    have := hc.1
    omega
  have hsingle : (lookalike n c).toList.dedup.length ≠ 1 := by
    intro h
    obtain ⟨d, hd⟩ := List.length_eq_one_iff.mp h
    have hmem : ∀ x ∈ (lookalike n c).toList, x = d := by
      intro x hx
      rw [← List.mem_dedup, hd] at hx
      exact List.mem_singleton.mp hx
    have hlist : (lookalike n c).toList = List.replicate n '😀' ++ [c] := by
      rw [lookalike, String.toList_ofList]
    rw [hlist] at hmem
    have h₁ := hmem c (by simp)
    have h₂ := hmem '😀' (by simp [hne])
    exact hface (h₁.trans h₂.symm)
  rw [acceptedPassword_iff, passwordErrors, hlow, hlen]
  simp only [hcommon, hsingle, hu, he, and_false, if_false]
  rw [if_neg (by omega), if_neg (by omega)]
  rfl

/-- **The limit of bcrypt.** All accepted passwords are told apart if and only if the settings allow
no more than 18 characters; and two passwords are told apart if and only if their first 72 bytes are
different. -/
theorem separated_iff (hb : Bcrypt env) :
    ((∀ p q, AcceptedPassword env p username email → AcceptedPassword env q username email → p ≠ q →
        Separated env p q) ↔ env.settings.passwordMaxLength ≤ 18) ∧
      ∀ p q, Separated env p q ↔ (Utf8.encode p).take 72 ≠ (Utf8.encode q).take 72 := by
  refine ⟨⟨fun h => ?_, fun hmax p q hp hq hpq => ?_⟩, fun p q => separated_iff_take hb⟩
  · by_contra hlong
    obtain ⟨n, hn⟩ : ∃ n, n + 1 = env.settings.passwordMaxLength :=
      ⟨env.settings.passwordMaxLength - 1, by omega⟩
    obtain ⟨c, hc, d, hd, hcd, hcfree, hdfree⟩ :=
      exists_faces n (env.lower username) (env.lower email)
    have hc' := isEmoticon_of_mem_faces hc
    have hd' := isEmoticon_of_mem_faces hd
    have hp := accepted_lookalike hlower hn (by omega) hc'.1 hc'.2 hcfree.1 hcfree.2
    have hq := accepted_lookalike hlower hn (by omega) hd'.1 hd'.2 hdfree.1 hdfree.2
    have hsep := h _ _ hp hq fun heq => hcd (lookalike_injective heq)
    rw [separated_iff_take hb, encode_lookalike n c (by omega),
      encode_lookalike n d (by omega)] at hsep
    exact hsep rfl
  · have hp' := length_le_of_acceptedPassword hp
    have hq' := length_le_of_acceptedPassword hq
    have hshort : ∀ r : String, r.length ≤ 18 → (Utf8.encode r).take 72 = Utf8.encode r := by
      intro r hr
      have := Utf8.length_encode_le r
      exact List.take_of_length_le (by omega)
    rw [separated_iff_take hb, hshort p (by omega), hshort q (by omega)]
    exact fun h => hpq (Utf8.encode_injective h)

end

/-- bcrypt without a salt: the hash is the bytes that are read, as characters. -/
def readBytes (password : String) : String :=
  String.ofList (((Utf8.encode password).take 72).map fun b => Char.ofNat b.toNat)

/-- An environment with this hash. -/
def hashingEnv : Env :=
  { Env.trial with
    bcryptHash := fun password _ => readBytes password
    bcryptVerify := fun password hash => readBytes password == hash }

theorem bcrypt_hashingEnv : Bcrypt hashingEnv where
  verify p q salt := by
    have hinj : Function.Injective fun b : UInt8 => Char.ofNat b.toNat := by
      intro a b h
      have ha := a.toNat_lt
      have hb := b.toNat_lt
      have hnat := congrArg Char.toNat h
      simp only [Text.toNat_ofNat (n := a.toNat) (by omega),
        Text.toNat_ofNat (n := b.toNat) (by omega)] at hnat
      exact UInt8.toNat_inj.mp hnat
    change (readBytes q == readBytes p) = true ↔ _
    rw [beq_iff_eq, readBytes, readBytes, String.ofList_inj, (List.map_injective_iff.mpr hinj).eq_iff]

theorem lower_hashingEnv (s : String) (h : ∀ c ∈ s.toList, isEmoticon c) :
    hashingEnv.lower s = s := by
  have hlow : ∀ c ∈ s.toList, c.toLower = c := by
    intro c hc
    have := h c hc
    unfold isEmoticon at this
    refine (Text.toNat_toLower c).resolve_right fun hlower => ?_
    omega
  change String.ofList (s.toList.map Char.toLower) = s
  rw [List.map_congr_left hlow, List.map_id', String.ofList_toList]

theorem separated_hashingEnv :
    ((∀ p q, AcceptedPassword hashingEnv p "" "" → AcceptedPassword hashingEnv q "" "" → p ≠ q →
        Separated hashingEnv p q) ↔ hashingEnv.settings.passwordMaxLength ≤ 18) ∧
      ∀ p q, Separated hashingEnv p q ↔ (Utf8.encode p).take 72 ≠ (Utf8.encode q).take 72 :=
  separated_iff lower_hashingEnv bcrypt_hashingEnv

/-- Of a password of 128 emoticons, only the first 18 are read. -/
theorem not_separated : ¬ ∀ (env : Env) (p q : String), Bcrypt env → AcceptedPassword env p "" "" →
    AcceptedPassword env q "" "" → p ≠ q → Separated env p q := by
  intro h
  have haccepted : ∀ c, isEmoticon c → c ≠ '😀' → AcceptedPassword hashingEnv (lookalike 127 c) "" "" := by
    intro c hc hface
    have hne : lookalike 127 c ≠ hashingEnv.lower "" := by
      intro heq
      have := congrArg String.length heq
      rw [lookalike, ← String.length_toList, String.toList_ofList] at this
      simp [hashingEnv, Env.trial] at this
    exact accepted_lookalike lower_hashingEnv rfl (by decide) hc hface hne hne
  have hsep := h hashingEnv (lookalike 127 '😁') (lookalike 127 '😂') bcrypt_hashingEnv
    (haccepted _ ⟨by decide, by decide⟩ (by decide))
    (haccepted _ ⟨by decide, by decide⟩ (by decide))
    fun heq => absurd (lookalike_injective heq) (by decide)
  rw [separated_iff_take bcrypt_hashingEnv, encode_lookalike _ _ (by decide),
    encode_lookalike _ _ (by decide)] at hsep
  exact hsep rfl

end DevOps
