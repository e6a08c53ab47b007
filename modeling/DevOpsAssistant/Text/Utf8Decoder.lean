import Mathlib.Data.List.Basic
import Mathlib.Tactic.Common

/-!
# Decoding UTF-8 that arrives in pieces

* `Utf8.Decoder`, `Utf8.step`: the decoder between two bytes, and one byte.
* `Utf8.TextDecoder`, `Utf8.decode`: the decoder that drops a byte order mark, and a chunk of a stream.
* **`decode_append`**: it does not matter how the bytes are cut.
* **`eq_replacement_of_mem_dropLast`**: of what one byte puts out, only the last is a character of the
  text.
-/

namespace Utf8

/-- The decoder between two bytes: the code point that has begun, the bytes it needs after the first, those
it has had, and the bounds of the next. -/
structure Decoder where
  codePoint : ℕ
  needed : ℕ
  seen : ℕ
  lower : UInt8
  upper : UInt8
deriving DecidableEq

/-- The decoder between two characters. -/
def start : Decoder := ⟨0, 0, 0, 0x80, 0xBF⟩

/-- What stands for bytes that are not UTF-8. -/
def replacement : Char := '\uFFFD'

/-- The first byte of a character: what it puts out, and the decoder after it. -/
def first (byte : UInt8) : List Char × Decoder :=
  if byte ≤ 0x7F then ([.ofNat byte.toNat], start)
  else if 0xC2 ≤ byte ∧ byte ≤ 0xDF then
    ([], { start with codePoint := byte.toNat % 0x20, needed := 1 })
  else if 0xE0 ≤ byte ∧ byte ≤ 0xEF then
    ([], ⟨byte.toNat % 0x10, 2, 0, if byte = 0xE0 then 0xA0 else 0x80,
      if byte = 0xED then 0x9F else 0xBF⟩)
  else if 0xF0 ≤ byte ∧ byte ≤ 0xF4 then
    ([], ⟨byte.toNat % 0x8, 3, 0, if byte = 0xF0 then 0x90 else 0x80,
      if byte = 0xF4 then 0x8F else 0xBF⟩)
  else ([replacement], start)

/-- One byte. A byte that cannot follow is read again as a first one. -/
def step (d : Decoder) (byte : UInt8) : List Char × Decoder :=
  if d.needed = 0 then first byte
  else if byte < d.lower ∨ d.upper < byte then (replacement :: (first byte).1, (first byte).2)
  else
    let codePoint := d.codePoint * 0x40 + byte.toNat % 0x40
    if d.seen + 1 = d.needed then ([.ofNat codePoint], start)
    else ([], { d with codePoint, seen := d.seen + 1, lower := 0x80, upper := 0xBF })

/-- The decoder of a stream. A byte order mark is dropped, if it comes first. -/
structure TextDecoder where
  decoder : Decoder
  bomSeen : Bool
deriving DecidableEq

/-- `new TextDecoder()`. -/
def TextDecoder.new : TextDecoder := ⟨start, false⟩

/-- One byte of a stream. -/
def TextDecoder.step (d : TextDecoder) (byte : UInt8) : List Char × TextDecoder :=
  let (out, decoder) := Utf8.step d.decoder byte
  if d.bomSeen then (out, ⟨decoder, true⟩)
  else
    match out with
    | [] => ([], ⟨decoder, false⟩)
    | c :: cs => (if c = '\uFEFF' then cs else c :: cs, ⟨decoder, true⟩)

/-- `decoder.decode(bytes, { stream: true })`. -/
def TextDecoder.decode (d : TextDecoder) : List UInt8 → List Char × TextDecoder
  | [] => ([], d)
  | byte :: bytes =>
    let rest := (d.step byte).2.decode bytes
    ((d.step byte).1 ++ rest.1, rest.2)

variable {d : TextDecoder}

/-- **It does not matter how the bytes are cut.** -/
theorem decode_append (bytes more : List UInt8) : d.decode (bytes ++ more) =
    ((d.decode bytes).1 ++ ((d.decode bytes).2.decode more).1, ((d.decode bytes).2.decode more).2) := by
  induction bytes generalizing d with
  | nil => rfl
  | cons byte bytes ih =>
    rw [List.cons_append, TextDecoder.decode, ih, TextDecoder.decode, List.append_assoc]

example : ((TextDecoder.new.decode [0xC3]).2.decode [0xA9, 0x21]).1 = ['é', '!'] := by decide

/-! ## One byte -/

theorem length_first (byte : UInt8) : (first byte).1.length ≤ 1 := by
  unfold first
  split_ifs <;> simp

theorem eq_replacement_of_mem_dropLast_step {d : Decoder} {byte : UInt8} {c : Char}
    (h : c ∈ (step d byte).1.dropLast) : c = replacement := by
  unfold step at h
  have hfirst : ∀ {cs : List Char}, cs.length ≤ 1 → cs.dropLast = [] := by
    intro cs hcs
    rw [← List.length_eq_zero_iff, List.length_dropLast]
    omega
  split_ifs at h
  · rw [hfirst (length_first byte)] at h
    cases h
  · cases hout : (first byte).1 with
    | nil =>
      rw [hout] at h
      cases h
    | cons e es =>
      have hes : es = [] := by
        have := length_first byte
        rw [hout, List.length_cons] at this
        exact List.length_eq_zero_iff.mp (by omega)
      rw [hout, hes] at h
      exact List.mem_singleton.mp h
  · cases h
  · cases h

/-- **Of what one byte puts out**, only the last is a character of the text. -/
theorem eq_replacement_of_mem_dropLast {byte : UInt8} {c : Char} (h : c ∈ (d.step byte).1.dropLast) :
    c = replacement := by
  have hstep : ∀ e ∈ (step d.decoder byte).1.dropLast, e = replacement := fun e =>
    eq_replacement_of_mem_dropLast_step
  unfold TextDecoder.step at h
  generalize step d.decoder byte = s at h hstep
  obtain ⟨out, decoder⟩ := s
  dsimp only at h hstep
  split at h
  · exact hstep c h
  · cases out with
    | nil => cases h
    | cons e es =>
      dsimp only at h
      split at h
      · refine hstep c ?_
        cases es with
        | nil => cases h
        | cons f fs => exact List.mem_cons_of_mem _ h
      · exact hstep c h

end Utf8
