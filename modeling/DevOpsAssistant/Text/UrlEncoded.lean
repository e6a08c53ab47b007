import DevOpsAssistant.Text.PercentEncoding
import DevOpsAssistant.Text.Utf8

/-!
# `application/x-www-form-urlencoded`

* `serialize`: the text of a list of pairs; `parse`: the pairs of a text.
* **`parse_serialize`**: the pairs of the text of a list are that list.
-/

namespace UrlEncoded

open PercentEncoding

/-- A byte that is written as it is. -/
def isUnescaped (b : UInt8) : Bool :=
  (0x30 ≤ b && b ≤ 0x39) || (0x41 ≤ b && b ≤ 0x5a) || (0x61 ≤ b && b ≤ 0x7a) || b = 0x2a || b = 0x2d ||
    b = 0x2e || b = 0x5f

/-- A space is written as a plus. -/
def encodeByte (b : UInt8) : List UInt8 :=
  if b = 0x20 then [0x2b] else if isUnescaped b then [b] else percentEncodeByte b

def encodeText (text : String) : List UInt8 := (Utf8.encode text).flatMap encodeByte

/-- A name, an equals sign and a value. -/
def encodePair (pair : String × String) : List UInt8 :=
  encodeText pair.1 ++ 0x3d :: encodeText pair.2

/-- The text of a list of pairs. Its characters are ASCII characters. -/
def serialize (pairs : List (String × String)) : String :=
  String.ofList (([0x26].intercalate (pairs.map encodePair)).map fun b => Char.ofNat b.toNat)

/-- A plus is read as a space. -/
def plusToSpace (b : UInt8) : UInt8 := if b = 0x2b then 0x20 else b

/-- The text of escaped bytes; `lossy` decodes those that are not UTF-8. -/
def decodeText (lossy : List UInt8 → String) (bytes : List UInt8) : String :=
  let bytes := percentDecode (bytes.map plusToSpace)
  (Utf8.decode? bytes).getD (lossy bytes)

/-- The pair of a part, divided at its first equals sign. -/
def parsePair (lossy : List UInt8 → String) (part : List UInt8) : String × String :=
  (decodeText lossy (part.takeWhile (· ≠ 0x3d)),
    decodeText lossy ((part.dropWhile (· ≠ 0x3d)).drop 1))

/-- The pairs of a text. -/
def parse (lossy : List UInt8 → String) (text : String) : List (String × String) :=
  (((Utf8.encode text).splitOn 0x26).filter (· ≠ [])).map (parsePair lossy)

/-! ## Bytes -/

variable {b : UInt8}

/-- What is written of a byte: ASCII, and no separator. -/
theorem encodeByte_spec (b : UInt8) :
    (∀ c ∈ encodeByte b, c.toNat < 128 ∧ c ≠ 0x26 ∧ c ≠ 0x3d ∧ c ≠ 0x3f) ∧
    (b ≠ 0x20 → isUnescaped b = true → b ≠ 0x25 ∧ b ≠ 0x2b) ∧
    (percentEncodeByte b).map plusToSpace = percentEncodeByte b := by
  have hall : ∀ n < 256,
      (∀ c ∈ encodeByte (UInt8.ofNat n), c.toNat < 128 ∧ c ≠ 0x26 ∧ c ≠ 0x3d ∧ c ≠ 0x3f) ∧
      (UInt8.ofNat n ≠ 0x20 → isUnescaped (UInt8.ofNat n) = true →
        UInt8.ofNat n ≠ 0x25 ∧ UInt8.ofNat n ≠ 0x2b) ∧
      (percentEncodeByte (UInt8.ofNat n)).map plusToSpace = percentEncodeByte (UInt8.ofNat n) := by
    decide +kernel
  have := hall b.toNat b.toNat_lt
  rwa [UInt8.ofNat_toNat] at this

theorem percentDecode_encodeByte (b : UInt8) (rest : List UInt8) :
    percentDecode ((encodeByte b).map plusToSpace ++ rest) = b :: percentDecode rest := by
  obtain ⟨-, hplain, hescape⟩ := encodeByte_spec b
  unfold encodeByte
  by_cases hspace : b = 0x20
  · rw [if_pos hspace, hspace]
    have hplus : plusToSpace 0x2b ≠ 0x25 := by decide
    exact percentDecode_cons (by simp [hplus])
  rw [if_neg hspace]
  by_cases hunescaped : isUnescaped b = true
  · obtain ⟨hpercent, hplus⟩ := hplain hspace hunescaped
    have hkept : plusToSpace b = b := if_neg hplus
    rw [if_pos hunescaped, List.map_singleton, hkept, List.singleton_append]
    exact percentDecode_cons (by simp [hpercent])
  · rw [if_neg hunescaped, hescape, percentDecode_percentEncodeByte]

theorem percentDecode_encodeBytes (bytes : List UInt8) :
    percentDecode ((bytes.flatMap encodeByte).map plusToSpace) = bytes := by
  induction bytes with
  | nil => rfl
  | cons b bytes ih => rw [List.flatMap_cons, List.map_append, percentDecode_encodeByte, ih]

theorem decodeText_encodeText (lossy : List UInt8 → String) (text : String) :
    decodeText lossy (encodeText text) = text := by
  unfold decodeText encodeText
  dsimp only
  rw [percentDecode_encodeBytes, Utf8.decode?_eq_some_iff.mpr rfl, Option.getD_some]

theorem mem_encodeText {text : String} (h : b ∈ encodeText text) :
    b.toNat < 128 ∧ b ≠ 0x26 ∧ b ≠ 0x3d ∧ b ≠ 0x3f := by
  obtain ⟨c, -, hb⟩ := List.mem_flatMap.mp h
  exact (encodeByte_spec c).1 b hb

/-! ## Pairs -/

theorem parsePair_encodePair (lossy : List UInt8 → String) (pair : String × String) :
    parsePair lossy (encodePair pair) = pair := by
  have hall : ∀ b ∈ encodeText pair.1, decide (b ≠ 0x3d) = true := fun b hb => by
    simpa using (mem_encodeText hb).2.2.1
  unfold parsePair encodePair
  rw [List.takeWhile_append_of_pos hall, List.dropWhile_append_of_pos hall,
    List.takeWhile_cons_of_neg (by decide), List.dropWhile_cons_of_neg (by decide), List.append_nil,
    List.drop_one, List.tail_cons, decodeText_encodeText, decodeText_encodeText]

theorem mem_encodePair {pair : String × String} (h : b ∈ encodePair pair) :
    b.toNat < 128 ∧ b ≠ 0x26 ∧ b ≠ 0x3f := by
  rw [encodePair, List.mem_append, List.mem_cons] at h
  obtain h | rfl | h := h
  · exact ⟨(mem_encodeText h).1, (mem_encodeText h).2.1, (mem_encodeText h).2.2.2⟩
  · decide
  · exact ⟨(mem_encodeText h).1, (mem_encodeText h).2.1, (mem_encodeText h).2.2.2⟩

/-- ASCII bytes are the bytes of their text. -/
theorem encode_ofList {bytes : List UInt8} (h : ∀ b ∈ bytes, b.toNat < 128) :
    Utf8.encode (String.ofList (bytes.map fun b => Char.ofNat b.toNat)) = bytes := by
  rw [Utf8.encode, String.toList_ofList]
  induction bytes with
  | nil => rfl
  | cons b bytes ih =>
    rw [List.forall_mem_cons] at h
    have hnat : (Char.ofNat b.toNat).toNat = b.toNat := by
      have hvalid : b.toNat.isValidChar := .inl (by omega)
      rw [Char.ofNat, dif_pos hvalid]
      rfl
    rw [List.map_cons, List.flatMap_cons, ih h.2, Utf8.utf8EncodeChar_of_lt (by omega), hnat,
      UInt8.ofNat_toNat, List.singleton_append]

theorem mem_intercalate_pairs {pairs : List (String × String)}
    (h : b ∈ [0x26].intercalate (pairs.map encodePair)) : b.toNat < 128 ∧ b ≠ 0x3f := by
  induction pairs with
  | nil => cases h
  | cons pair pairs ih =>
    cases pairs with
    | nil =>
      rw [List.map_singleton, List.intercalate_singleton] at h
      exact ⟨(mem_encodePair h).1, (mem_encodePair h).2.2⟩
    | cons next pairs =>
      simp only [List.map_cons, List.intercalate_cons_cons, List.mem_append] at h ih
      obtain (h | h) | h := h
      · exact ⟨(mem_encodePair h).1, (mem_encodePair h).2.2⟩
      · rw [List.mem_singleton.mp h]
        decide
      · exact ih h

/-- The text of a list has no question mark. -/
theorem not_mem_serialize (pairs : List (String × String)) : '?' ∉ (serialize pairs).toList := by
  rw [serialize, String.toList_ofList, List.mem_map]
  rintro ⟨b, hb, hmark⟩
  obtain ⟨hlt, hne⟩ := mem_intercalate_pairs hb
  have hvalid : b.toNat.isValidChar := .inl (by omega)
  have hnat := congrArg Char.toNat hmark
  rw [Char.ofNat, dif_pos hvalid] at hnat
  exact hne (UInt8.toNat_inj.mp hnat)

/-- **The pairs of the text of a list** are that list. -/
theorem parse_serialize (lossy : List UInt8 → String) (pairs : List (String × String)) :
    parse lossy (serialize pairs) = pairs := by
  rw [parse, serialize, encode_ofList fun b hb => (mem_intercalate_pairs hb).1]
  by_cases hne : pairs = []
  · rw [hne]
    rfl
  rw [List.splitOn_intercalate 0x26 (List.forall_mem_map.mpr fun pair _ h =>
      (mem_encodePair h).2.1 rfl)
      (by simpa using hne),
    List.filter_eq_self.mpr, List.map_map]
  · exact (List.map_congr_left fun pair _ => parsePair_encodePair lossy pair).trans (List.map_id' _)
  · intro part hpart
    obtain ⟨pair, -, rfl⟩ := List.mem_map.mp hpart
    simp [encodePair]

end UrlEncoded
