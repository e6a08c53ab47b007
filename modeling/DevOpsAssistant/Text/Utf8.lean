import Mathlib.Data.List.Basic
import Mathlib.Tactic.Common

/-!
# UTF-8

* `Utf8.encode`, `Utf8.decode?`: the bytes of a text, and the text of bytes.
* **`decode?_eq_some_iff`**: bytes are decoded to a text if and only if they encode it.
* `mem_encode_of_lt`: the bytes below 128 are characters of the text.
-/

namespace Utf8

/-- `text.encode("utf-8")`. -/
def encode (text : String) : List UInt8 := text.toList.flatMap String.utf8EncodeChar

/-- `bytes.decode("utf-8")`; `none` raises. -/
def decode? (bytes : List UInt8) : Option String := String.fromUTF8? bytes.toByteArray

theorem toByteArray_encode (text : String) : (encode text).toByteArray = text.toByteArray :=
  String.utf8Encode_toList

/-- **Bytes are decoded** to a text if and only if they encode it. -/
theorem decode?_eq_some_iff {bytes : List UInt8} {text : String} :
    decode? bytes = some text ↔ bytes = encode text := by
  unfold decode? String.fromUTF8?
  constructor
  · intro h
    by_cases hvalid : bytes.toByteArray.IsValidUTF8
    · rw [dif_pos hvalid] at h
      have htext : bytes.toByteArray = text.toByteArray :=
        congrArg String.toByteArray (Option.some.inj h)
      rw [← toByteArray_encode] at htext
      exact List.toByteArray_inj.mp htext
    · rw [dif_neg hvalid] at h
      cases h
  · rintro rfl
    have hvalid : (encode text).toByteArray.IsValidUTF8 := ByteArray.isValidUTF8_utf8Encode
    rw [dif_pos hvalid]
    exact congrArg some (String.toByteArray_inj.mp (toByteArray_encode text))

/-- Different texts have different bytes. -/
theorem encode_injective {s t : String} (h : encode s = encode t) : s = t := by
  have hs : decode? (encode s) = some s := decode?_eq_some_iff.mpr rfl
  have ht : decode? (encode t) = some t := decode?_eq_some_iff.mpr rfl
  rw [h, ht] at hs
  exact (Option.some.inj hs).symm

theorem encode_append (s t : String) : encode (s ++ t) = encode s ++ encode t := by
  rw [encode, String.toList_append, List.flatMap_append]
  rfl

theorem encode_join (ss : List String) : encode (String.join ss) = ss.flatMap encode := by
  induction ss with
  | nil => rfl
  | cons s ss ih => rw [String.join_cons, encode_append, ih, List.flatMap_cons]

theorem encode_intercalate (mark : String) (ss : List String) :
    encode (mark.intercalate ss) = (encode mark).intercalate (ss.map encode) := by
  induction ss with
  | nil => rfl
  | cons s ss ih =>
    cases ss with
    | nil => rw [String.intercalate_singleton, List.map_singleton, List.intercalate_singleton]
    | cons t ss =>
      rw [String.intercalate_cons_cons, encode_append, encode_append, ih]
      simp only [List.map_cons, List.intercalate_cons_cons]

/-- A character has at most four bytes. -/
theorem length_encode_le (text : String) : (encode text).length ≤ 4 * text.length := by
  have hlist : ∀ cs : List Char, (cs.flatMap String.utf8EncodeChar).length ≤ 4 * cs.length := by
    intro cs
    induction cs with
    | nil => simp
    | cons c cs ih =>
      have := c.utf8Size_le_four
      rw [List.flatMap_cons, List.length_append, String.length_utf8EncodeChar, List.length_cons]
      omega
  have := hlist text.toList
  rwa [String.length_toList] at this

/-! ## The bytes of a character -/

theorem utf8EncodeChar_of_lt {c : Char} (h : c.toNat < 128) :
    String.utf8EncodeChar c = [UInt8.ofNat c.toNat] := by
  unfold String.utf8EncodeChar
  exact if_pos (Nat.le_of_lt_succ h)

theorem le_toNat_ofNat {n : ℕ} (h : 128 ≤ n) (h' : n < 256) : 128 ≤ (UInt8.ofNat n).toNat := by
  rw [UInt8.toNat_ofNat']
  omega

/-- The bytes of a character outside ASCII are outside ASCII. -/
theorem le_of_mem_utf8EncodeChar {c : Char} (h : 128 ≤ c.toNat) :
    ∀ b ∈ String.utf8EncodeChar c, 128 ≤ b.toNat := by
  have hnot : ¬ c.val.toNat ≤ 0x7F := by
    change ¬ c.toNat ≤ 127
    omega
  unfold String.utf8EncodeChar
  simp only [if_neg hnot]
  split_ifs
  all_goals
    intro b hb
    simp only [List.mem_cons, List.not_mem_nil, or_false] at hb
  · rcases hb with rfl | rfl <;> apply le_toNat_ofNat <;> omega
  · rcases hb with rfl | rfl | rfl <;> apply le_toNat_ofNat <;> omega
  · rcases hb with rfl | rfl | rfl | rfl <;> apply le_toNat_ofNat <;> omega

/-- **The bytes below 128** are characters of the text. -/
theorem mem_encode_of_lt {text : String} {b : UInt8} (h : b ∈ encode text) (hb : b.toNat < 128) :
    ∃ c ∈ text.toList, c.toNat = b.toNat := by
  obtain ⟨c, hc, hmem⟩ := List.mem_flatMap.mp h
  refine ⟨c, hc, ?_⟩
  by_cases hlow : c.toNat < 128
  · rw [utf8EncodeChar_of_lt hlow, List.mem_singleton] at hmem
    rw [hmem, UInt8.toNat_ofNat']
    omega
  · have := le_of_mem_utf8EncodeChar (by omega) b hmem
    omega

end Utf8
