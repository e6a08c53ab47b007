import Mathlib.Data.List.Basic
import Mathlib.Tactic.Common

/-!
# Percent-encoded bytes

* `percentEncode`: bytes with escapes for those of a set; `percentDecode`: the bytes of escapes.
* `HasEscape`: a percent sign stands before two hexadecimal digits.
* **`percentDecode_percentEncode`**: what is encoded is decoded as before.
* **`percentDecode_eq_self_iff`**: bytes without escapes, and no others, are decoded to themselves.
-/

namespace PercentEncoding

/-- A property of each byte of a list is decided along the list, not over all bytes. -/
instance decidableForallByte {bytes : List UInt8} {p : UInt8 → Prop} [DecidablePred p] :
    Decidable (∀ b ∈ bytes, p b) := List.decidableBAll p bytes

/-- A hexadecimal digit. -/
def isHexDigit (b : UInt8) : Bool :=
  (0x30 ≤ b && b ≤ 0x39) || (0x41 ≤ b && b ≤ 0x46) || (0x61 ≤ b && b ≤ 0x66)

/-- The value of a hexadecimal digit. -/
def hexValue (b : UInt8) : ℕ :=
  if b ≤ 0x39 then b.toNat - 0x30 else if b ≤ 0x46 then b.toNat - 0x37 else b.toNat - 0x57

/-- The hexadecimal digit of a value, a capital. -/
def hexDigit (n : ℕ) : UInt8 := .ofNat (if n < 10 then 0x30 + n else 0x37 + n)

/-- The byte that two digits write. -/
def hexByte (high low : UInt8) : UInt8 := .ofNat (16 * hexValue high + hexValue low)

/-- The escape of a byte. -/
def percentEncodeByte (b : UInt8) : List UInt8 :=
  [0x25, hexDigit (b.toNat / 16), hexDigit (b.toNat % 16)]

/-- Bytes with escapes for those of the set. -/
def percentEncode (set : UInt8 → Bool) (bytes : List UInt8) : List UInt8 :=
  bytes.flatMap fun b => if set b then percentEncodeByte b else [b]

/-- The bytes start with two hexadecimal digits. -/
def startsHex : List UInt8 → Bool
  | high :: low :: _ => isHexDigit high && isHexDigit low
  | _ => false

/-- Bytes with the bytes of escapes in their places. -/
def percentDecode : List UInt8 → List UInt8
  | [] => []
  | [b] => [b]
  | [b, c] => [b, c]
  | b :: high :: low :: rest =>
    if b = 0x25 && startsHex (high :: low :: rest) then hexByte high low :: percentDecode rest
    else b :: percentDecode (high :: low :: rest)

/-- A percent sign stands before two hexadecimal digits. -/
def HasEscape (bytes : List UInt8) : Prop :=
  ∃ before rest, bytes = before ++ 0x25 :: rest ∧ startsHex rest = true

/-! ## Decoding -/

variable {set : UInt8 → Bool} {b high low : UInt8} {bytes rest : List UInt8}

theorem percentDecode_cons (h : ¬ (b = 0x25 ∧ startsHex rest = true)) :
    percentDecode (b :: rest) = b :: percentDecode rest := by
  match rest with
  | [] => rfl
  | [c] => rfl
  | high :: low :: rest =>
    rw [percentDecode, if_neg]
    simpa using h

theorem percentDecode_escape (h : startsHex (high :: low :: rest) = true) :
    percentDecode (0x25 :: high :: low :: rest) = hexByte high low :: percentDecode rest := by
  rw [percentDecode, if_pos]
  simpa using h

/-- Bytes that start with two digits have two. -/
theorem exists_of_startsHex (h : startsHex rest = true) :
    ∃ high low rest', rest = high :: low :: rest' ∧ isHexDigit high = true ∧
      isHexDigit low = true := by
  match rest, h with
  | high :: low :: rest', h => exact ⟨high, low, rest', rfl, by simpa [startsHex] using h⟩

/-- Decoding goes along the bytes: an escape is read, or a byte. -/
theorem percentDecode_induction {P : List UInt8 → Prop} (nil : P [])
    (escape : ∀ high low rest, startsHex (high :: low :: rest) = true → P rest →
      P (0x25 :: high :: low :: rest))
    (byte : ∀ b rest, ¬ (b = 0x25 ∧ startsHex rest = true) → P rest → P (b :: rest))
    (bytes : List UInt8) : P bytes := by
  generalize hn : bytes.length = n
  induction n using Nat.strongRecOn generalizing bytes with
  | ind n ih =>
    cases bytes with
    | nil => exact nil
    | cons b rest =>
      rw [List.length_cons] at hn
      by_cases h : b = 0x25 ∧ startsHex rest = true
      · obtain ⟨rfl, hhex⟩ := h
        obtain ⟨high, low, rest', rfl, -⟩ := exists_of_startsHex hhex
        rw [List.length_cons, List.length_cons] at hn
        exact escape high low rest' hhex (ih rest'.length (by omega) rest' rfl)
      · exact byte b rest h (ih rest.length (by omega) rest rfl)

/-! ## Escapes -/

theorem not_hasEscape_nil : ¬ HasEscape [] := by
  rintro ⟨before, rest, h, -⟩
  simp at h

theorem hasEscape_cons : HasEscape (b :: rest) ↔ (b = 0x25 ∧ startsHex rest = true) ∨ HasEscape rest := by
  constructor
  · rintro ⟨before, rest', h, hhex⟩
    cases before with
    | nil =>
      rw [List.nil_append, List.cons.injEq] at h
      obtain ⟨rfl, rfl⟩ := h
      exact .inl ⟨rfl, hhex⟩
    | cons c before =>
      rw [List.cons_append, List.cons.injEq] at h
      exact .inr ⟨before, rest', h.2, hhex⟩
  · rintro (⟨rfl, hhex⟩ | ⟨before, rest', rfl, hhex⟩)
    · exact ⟨[], rest, rfl, hhex⟩
    · exact ⟨b :: before, rest', rfl, hhex⟩

/-- An escape is shorter when it is decoded. -/
theorem length_percentDecode (bytes : List UInt8) : (percentDecode bytes).length ≤ bytes.length ∧
    (HasEscape bytes → (percentDecode bytes).length < bytes.length) := by
  induction bytes using percentDecode_induction with
  | nil => exact ⟨Nat.le_refl _, fun h => absurd h not_hasEscape_nil⟩
  | escape high low rest h ih =>
    rw [percentDecode_escape h]
    simp only [List.length_cons]
    exact ⟨by omega, fun _ => by omega⟩
  | byte b rest h ih =>
    rw [percentDecode_cons h, hasEscape_cons]
    simp only [List.length_cons]
    refine ⟨by omega, ?_⟩
    rintro (hescape | hescape)
    · exact absurd hescape h
    · have := ih.2 hescape
      omega

/-- **Bytes without escapes**, and no others, are decoded to themselves. -/
theorem percentDecode_eq_self_iff : percentDecode bytes = bytes ↔ ¬ HasEscape bytes := by
  constructor
  · intro h hescape
    have := (length_percentDecode bytes).2 hescape
    rw [h] at this
    omega
  · intro h
    induction bytes using percentDecode_induction with
    | nil => rfl
    | escape high low rest hhex ih => exact absurd (hasEscape_cons.mpr (.inl ⟨rfl, hhex⟩)) h
    | byte b rest hnot ih =>
      rw [percentDecode_cons hnot, ih fun hrest => h (hasEscape_cons.mpr (.inr hrest))]

/-! ## Encoding -/

theorem percentEncode_cons (b : UInt8) (bytes : List UInt8) : percentEncode set (b :: bytes) =
    (if set b then percentEncodeByte b else [b]) ++ percentEncode set bytes := rfl

theorem percentEncode_eq_self (h : ∀ b ∈ bytes, set b = false) : percentEncode set bytes = bytes := by
  induction bytes with
  | nil => rfl
  | cons b bytes ih =>
    rw [List.forall_mem_cons] at h
    rw [percentEncode_cons, h.1, if_neg Bool.false_ne_true, ih h.2, List.singleton_append]

/-- The digits of a byte. -/
theorem hexByte_hexDigit (b : UInt8) : isHexDigit (hexDigit (b.toNat / 16)) = true ∧
    isHexDigit (hexDigit (b.toNat % 16)) = true ∧
    hexByte (hexDigit (b.toNat / 16)) (hexDigit (b.toNat % 16)) = b := by
  have hall : ∀ n < 256, isHexDigit (hexDigit (n / 16)) = true ∧
      isHexDigit (hexDigit (n % 16)) = true ∧
      hexByte (hexDigit (n / 16)) (hexDigit (n % 16)) = UInt8.ofNat n := by decide +kernel
  have h := hall b.toNat b.toNat_lt
  rwa [UInt8.ofNat_toNat] at h

theorem percentDecode_percentEncodeByte (b : UInt8) (rest : List UInt8) :
    percentDecode (percentEncodeByte b ++ rest) = b :: percentDecode rest := by
  obtain ⟨hhigh, hlow, hbyte⟩ := hexByte_hexDigit b
  change percentDecode (0x25 :: hexDigit (b.toNat / 16) :: hexDigit (b.toNat % 16) :: rest) = _
  rw [percentDecode_escape (by rw [startsHex, hhigh, hlow, Bool.and_self]), hbyte]

/-- The set has neither the percent sign nor a hexadecimal digit. -/
structure KeepsEscapes (set : UInt8 → Bool) : Prop where
  percent : set 0x25 = false
  hex : ∀ b, isHexDigit b = true → set b = false

/-- An encoded byte is no digit. -/
theorem startsHex_percentEncode (hset : KeepsEscapes set) (bytes : List UInt8) :
    startsHex (percentEncode set bytes) = startsHex bytes := by
  have hpercent : isHexDigit 0x25 = false := by decide
  have hset' : ∀ b, set b = true → isHexDigit b = false := by
    intro b hb
    by_contra hhex
    rw [hset.hex b (by simpa using hhex)] at hb
    exact Bool.false_ne_true hb
  match bytes with
  | [] => rfl
  | [b] =>
    rw [percentEncode_cons]
    by_cases hb : set b = true
    · rw [if_pos hb]
      simp [percentEncodeByte, percentEncode, startsHex, hpercent]
    · rw [if_neg hb]
      rfl
  | b :: c :: rest =>
    rw [percentEncode_cons, percentEncode_cons]
    by_cases hb : set b = true
    · rw [if_pos hb]
      simp [percentEncodeByte, startsHex, hpercent, hset' b hb]
    · rw [if_neg hb]
      by_cases hc : set c = true
      · rw [if_pos hc]
        simp [percentEncodeByte, startsHex, hpercent, hset' c hc]
      · rw [if_neg hc]
        rfl

/-- **What is encoded** is decoded as before. -/
theorem percentDecode_percentEncode (hset : KeepsEscapes set) (bytes : List UInt8) :
    percentDecode (percentEncode set bytes) = percentDecode bytes := by
  induction bytes using percentDecode_induction with
  | nil => rfl
  | escape high low rest h ih =>
    obtain ⟨hhigh, hlow⟩ : isHexDigit high = true ∧ isHexDigit low = true := by
      simpa [startsHex] using h
    have hkept : percentEncode set (0x25 :: high :: low :: rest) =
        0x25 :: high :: low :: percentEncode set rest := by
      simp [percentEncode_cons, hset.percent, hset.hex _ hhigh, hset.hex _ hlow]
    rw [hkept, percentDecode_escape h, percentDecode_escape (by simpa [startsHex] using h), ih]
  | byte b rest h ih =>
    rw [percentEncode_cons]
    by_cases hb : set b = true
    · rw [if_pos hb, percentDecode_percentEncodeByte, ih, percentDecode_cons h]
    · rw [if_neg hb, List.singleton_append, percentDecode_cons, ih, percentDecode_cons h]
      rwa [startsHex_percentEncode hset]

/-- No byte of the set is left. -/
theorem not_set_of_mem_percentEncode (hset : KeepsEscapes set) (h : b ∈ percentEncode set bytes) :
    set b = false := by
  obtain ⟨c, -, hb⟩ := List.mem_flatMap.mp h
  by_cases hc : set c = true
  · rw [if_pos hc, percentEncodeByte, List.mem_cons, List.mem_cons, List.mem_singleton] at hb
    obtain rfl | rfl | rfl := hb
    · exact hset.percent
    · exact hset.hex _ (hexByte_hexDigit c).1
    · exact hset.hex _ (hexByte_hexDigit c).2.1
  · rw [if_neg hc, List.mem_singleton] at hb
    rw [hb]
    exact Bool.not_eq_true _ |>.mp hc

end PercentEncoding
