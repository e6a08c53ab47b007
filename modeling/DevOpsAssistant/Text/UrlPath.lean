import DevOpsAssistant.Text.PercentEncoding
import DevOpsAssistant.Text.Whatwg
import Mathlib.Algebra.GroupWithZero.Nat

/-!
# The path and the query of a special URL

* `walk`: the path that the pieces of a text are, with its dot segments taken out.
* `Url`, `parse`: the path and the query of a URL with a special scheme.
* `size`: the length of a path when it is decoded.
* **`walk_eq`**: pieces without dot segments are the path.
* **`size_walk`**: the path is not longer than the pieces, and it is shorter if one of them is a dot
  segment or has an escape.
* **`parsePath_append`**: a text behind the text of a path.
-/

namespace Whatwg

open PercentEncoding

/-! ## The parser -/

/-- A byte of the query percent-encode set of special URLs. -/
def inSpecialQuerySet (b : UInt8) : Bool :=
  b ≤ 0x20 || 0x7e < b || b = 0x22 || b = 0x23 || b = 0x27 || b = 0x3c || b = 0x3e

/-- A byte of the path percent-encode set. -/
def inPathSet (b : UInt8) : Bool :=
  b ≤ 0x20 || 0x7e < b || b = 0x22 || b = 0x23 || b = 0x3c || b = 0x3e || b = 0x3f || b = 0x5e ||
    b = 0x60 || b = 0x7b || b = 0x7d

/-- A dot or its escape. -/
def isSingleDot (piece : List UInt8) : Bool :=
  [[0x2e], [0x25, 0x32, 0x65], [0x25, 0x32, 0x45]].contains piece

/-- Two dots or escapes of dots. -/
def isDoubleDot (piece : List UInt8) : Bool :=
  [[0x2e, 0x2e], [0x2e, 0x25, 0x32, 0x65], [0x2e, 0x25, 0x32, 0x45], [0x25, 0x32, 0x65, 0x2e],
    [0x25, 0x32, 0x45, 0x2e], [0x25, 0x32, 0x65, 0x25, 0x32, 0x65],
    [0x25, 0x32, 0x65, 0x25, 0x32, 0x45], [0x25, 0x32, 0x45, 0x25, 0x32, 0x65],
    [0x25, 0x32, 0x45, 0x25, 0x32, 0x45]].contains piece

/-- The path after the pieces of a text between slashes. A dot segment at the end leaves an empty one. -/
def walk (path : List (List UInt8)) : List (List UInt8) → List (List UInt8)
  | [] => path
  | [piece] =>
    if isDoubleDot piece then path.dropLast ++ [[]]
    else if isSingleDot piece then path ++ [[]]
    else path ++ [percentEncode inPathSet piece]
  | piece :: pieces =>
    if isDoubleDot piece then walk path.dropLast pieces
    else if isSingleDot piece then walk path pieces
    else walk (path ++ [percentEncode inPathSet piece]) pieces

/-- A parsed URL, without its user, its port and its fragment. -/
structure Url (Host : Type) where
  scheme : List UInt8
  host : Host
  path : List (List UInt8)
  query : Option (List UInt8)

/-- The text of the path, and the query, of what follows an authority. -/
def splitQuery (rest : List UInt8) : List UInt8 × Option (List UInt8) :=
  (rest.takeWhile (!endsPath UInt8.toNat ·),
    match rest.dropWhile (!endsPath UInt8.toNat ·) with
    | [] => none
    | mark :: query =>
      if mark = 0x3f then some (percentEncode inSpecialQuerySet (query.takeWhile (· ≠ 0x23)))
      else none)

/-- The path that a text writes; its first slash begins it. -/
def parsePath (text : List UInt8) : List (List UInt8) :=
  let text := match text with
    | [] => []
    | b :: rest => if isSlash UInt8.toNat b then rest else b :: rest
  walk [] (text.splitOnP (isSlash UInt8.toNat))

/-- The schemes of special URLs that have an authority. -/
def specialSchemes : List (List UInt8) :=
  [[0x68, 0x74, 0x74, 0x70], [0x68, 0x74, 0x74, 0x70, 0x73], [0x77, 0x73], [0x77, 0x73, 0x73],
    [0x66, 0x74, 0x70]]

/-- An ASCII letter in lower case. -/
def toLower (b : UInt8) : UInt8 := if 0x41 ≤ b ∧ b ≤ 0x5a then b + 0x20 else b

/-- What is read of authorities, and of URLs with other schemes. -/
structure HostParser (Host : Type) where
  authority : List UInt8 → List UInt8 → Option Host
  other : List UInt8 → Option (Url Host)

/-- The URL that bytes write, without a base; `none` is a failure. -/
def parse {Host : Type} (parser : HostParser Host) (input : List UInt8) : Option (Url Host) :=
  let text := cleaned UInt8.toNat input
  let scheme := (text.takeWhile (· ≠ 0x3a)).map toLower
  match text.dropWhile (· ≠ 0x3a) with
  | [] => parser.other text
  | _ :: rest =>
    if scheme ∈ specialSchemes then
      let (authority, rest) := splitAuthority UInt8.toNat rest
      let (path, query) := splitQuery rest
      (parser.authority scheme authority).map fun host => ⟨scheme, host, parsePath path, query⟩
    else parser.other text

/-- The text of a special scheme is read as it is. -/
theorem specialSchemes_spec : ∀ scheme ∈ specialSchemes, ∀ b ∈ scheme,
    isC0OrSpace UInt8.toNat b = false ∧ b ≠ 0x3a ∧ toLower b = b := by decide

/-- A byte that a path keeps is neither a control nor a space, and does not end the path. -/
theorem of_inPathSet_eq_false {b : UInt8} (h : inPathSet b = false) :
    isC0OrSpace UInt8.toNat b = false ∧ endsPath UInt8.toNat b = false := by
  have hall : ∀ n < 256, inPathSet (UInt8.ofNat n) = false →
      isC0OrSpace UInt8.toNat (UInt8.ofNat n) = false ∧
        endsPath UInt8.toNat (UInt8.ofNat n) = false := by decide +kernel
  have := hall b.toNat b.toNat_lt
  rw [UInt8.ofNat_toNat] at this
  exact this h

/-- A query that is kept has neither controls nor spaces, and no hash. -/
theorem of_inSpecialQuerySet_eq_false {b : UInt8} (h : inSpecialQuerySet b = false) :
    isC0OrSpace UInt8.toNat b = false ∧ b ≠ 0x23 := by
  have hall : ∀ n < 256, inSpecialQuerySet (UInt8.ofNat n) = false →
      isC0OrSpace UInt8.toNat (UInt8.ofNat n) = false ∧ UInt8.ofNat n ≠ 0x23 := by decide +kernel
  have := hall b.toNat b.toNat_lt
  rw [UInt8.ofNat_toNat] at this
  exact this h

/-! ## The pieces of a text -/

theorem keepsEscapes_path : KeepsEscapes inPathSet where
  percent := by decide
  hex b h := by
    have hall : ∀ n < 256, isHexDigit (UInt8.ofNat n) = true → inPathSet (UInt8.ofNat n) = false := by
      decide +kernel
    have := hall b.toNat b.toNat_lt
    rw [UInt8.ofNat_toNat] at this
    exact this h

theorem keepsEscapes_query : KeepsEscapes inSpecialQuerySet where
  percent := by decide
  hex b h := by
    have hall : ∀ n < 256, isHexDigit (UInt8.ofNat n) = true →
      inSpecialQuerySet (UInt8.ofNat n) = false := by decide +kernel
    have := hall b.toNat b.toNat_lt
    rw [UInt8.ofNat_toNat] at this
    exact this h

/-- A piece that is neither a dot nor two. -/
def IsPlain (piece : List UInt8) : Prop := isSingleDot piece = false ∧ isDoubleDot piece = false

/-- Without escapes, dot segments are dots. -/
theorem isPlain_iff {piece : List UInt8} (h : ¬ HasEscape piece) :
    IsPlain piece ↔ piece ≠ [0x2e] ∧ piece ≠ [0x2e, 0x2e] := by
  rw [← percentDecode_eq_self_iff] at h
  have hsingle : isSingleDot piece = true ↔ piece = [0x2e] := by
    refine ⟨fun hdot => ?_, fun hdot => hdot ▸ rfl⟩
    simp only [isSingleDot, List.contains_iff_mem, List.mem_cons, List.not_mem_nil, or_false] at hdot
    obtain rfl | rfl | rfl := hdot
    · rfl
    all_goals exact absurd h (by decide)
  have hdouble : isDoubleDot piece = true ↔ piece = [0x2e, 0x2e] := by
    refine ⟨fun hdot => ?_, fun hdot => hdot ▸ rfl⟩
    simp only [isDoubleDot, List.contains_iff_mem, List.mem_cons, List.not_mem_nil, or_false] at hdot
    obtain rfl | rfl | rfl | rfl | rfl | rfl | rfl | rfl | rfl := hdot
    · rfl
    all_goals exact absurd h (by decide)
  rw [IsPlain, Ne, Ne, ← hsingle, ← hdouble, Bool.not_eq_true, Bool.not_eq_true]

/-- The length of a path when it is decoded, with its slashes. -/
def size (path : List (List UInt8)) : ℕ := (path.map fun x => (percentDecode x).length + 1).sum

/-- The length of a text with an end of each piece. -/
def width (pieces : List (List UInt8)) : ℕ := (pieces.map fun x => x.length + 1).sum

variable {path pieces good : List (List UInt8)} {piece : List UInt8}

theorem size_append (path path' : List (List UInt8)) :
    size (path ++ path') = size path + size path' := by
  simp [size]

theorem size_dropLast_le (path : List (List UInt8)) : size path.dropLast ≤ size path := by
  obtain rfl | ⟨path, last, rfl⟩ := path.eq_nil_or_concat'
  · exact Nat.le_refl _
  · rw [List.dropLast_concat, size_append]
    omega

theorem size_encode (piece : List UInt8) : size [percentEncode inPathSet piece] ≤ piece.length + 1 := by
  have := (length_percentDecode piece).1
  simp only [size, List.map_cons, List.map_nil, List.sum_cons, List.sum_nil,
    percentDecode_percentEncode keepsEscapes_path]
  omega

theorem length_pos_of_isDoubleDot (h : isDoubleDot piece = true) : 0 < piece.length := by
  cases piece with
  | nil => exact absurd h (by decide)
  | cons b rest => simp

theorem length_pos_of_isSingleDot (h : isSingleDot piece = true) : 0 < piece.length := by
  cases piece with
  | nil => exact absurd h (by decide)
  | cons b rest => simp

/-- One turn on the way along the pieces. -/
theorem walk_cons_cons (piece next : List UInt8) (pieces : List (List UInt8)) :
    walk path (piece :: next :: pieces) =
      if isDoubleDot piece then walk path.dropLast (next :: pieces)
      else if isSingleDot piece then walk path (next :: pieces)
      else walk (path ++ [percentEncode inPathSet piece]) (next :: pieces) := rfl

/-- **Pieces without dot segments** are the path. -/
theorem walk_eq (h : ∀ x ∈ pieces, IsPlain x) :
    walk path pieces = path ++ pieces.map (percentEncode inPathSet) := by
  induction pieces generalizing path with
  | nil => simp [walk]
  | cons piece pieces ih =>
    rw [List.forall_mem_cons] at h
    obtain ⟨⟨hsingle, hdouble⟩, hrest⟩ := h
    cases pieces with
    | nil =>
      rw [walk, hdouble, if_neg Bool.false_ne_true, hsingle, if_neg Bool.false_ne_true]
      rfl
    | cons next pieces =>
      rw [walk_cons_cons, hdouble, if_neg Bool.false_ne_true, hsingle, if_neg Bool.false_ne_true,
        ih hrest, List.append_assoc, List.singleton_append]
      rfl

/-- Pieces without dot segments go in front. -/
theorem walk_append (h : ∀ x ∈ good, IsPlain x) (hne : pieces ≠ []) :
    walk path (good ++ pieces) = walk (path ++ good.map (percentEncode inPathSet)) pieces := by
  induction good generalizing path with
  | nil => simp
  | cons piece good ih =>
    rw [List.forall_mem_cons] at h
    obtain ⟨⟨hsingle, hdouble⟩, hrest⟩ := h
    obtain ⟨next, rest, hnext⟩ := List.exists_cons_of_ne_nil
      (List.append_ne_nil_of_right_ne_nil good hne)
    rw [List.cons_append, hnext, walk_cons_cons, hdouble, if_neg Bool.false_ne_true, hsingle,
      if_neg Bool.false_ne_true, ← hnext, ih hrest, List.append_assoc, List.map_cons,
      List.singleton_append]

/-- **The path is not longer than the pieces**, and as long only if none of them is a dot segment and
all of them are decoded to themselves. -/
theorem size_walk (hne : pieces ≠ []) : size (walk path pieces) ≤ size path + width pieces ∧
    (size (walk path pieces) = size path + width pieces →
      ∀ x ∈ pieces, IsPlain x ∧ ¬ HasEscape x) := by
  induction pieces generalizing path with
  | nil => exact absurd rfl hne
  | cons piece pieces ih =>
    have hdrop := size_dropLast_le path
    have hencode := size_encode piece
    have hescape : size [percentEncode inPathSet piece] = piece.length + 1 → ¬ HasEscape piece := by
      intro hsize hhas
      have := (length_percentDecode piece).2 hhas
      simp only [size, List.map_cons, List.map_nil, List.sum_cons, List.sum_nil,
        percentDecode_percentEncode keepsEscapes_path] at hsize
      omega
    have hempty : size [[]] = 1 := rfl
    cases pieces with
    | nil =>
      have hwidth : width [piece] = piece.length + 1 := by simp [width]
      rw [hwidth, walk]
      by_cases hdouble : isDoubleDot piece = true
      · have hpos := length_pos_of_isDoubleDot hdouble
        rw [if_pos hdouble, size_append, hempty]
        exact ⟨by omega, fun h => by omega⟩
      by_cases hsingle : isSingleDot piece = true
      · have hpos := length_pos_of_isSingleDot hsingle
        rw [if_neg hdouble, if_pos hsingle, size_append, hempty]
        exact ⟨by omega, fun h => by omega⟩
      rw [if_neg hdouble, if_neg hsingle, size_append]
      refine ⟨by omega, fun h x hx => ?_⟩
      rw [List.mem_singleton] at hx
      rw [hx]
      exact ⟨⟨by simpa using hsingle, by simpa using hdouble⟩, hescape (by omega)⟩
    | cons next pieces =>
      have hwidth : width (piece :: next :: pieces) = piece.length + 1 + width (next :: pieces) := by
        simp [width]
      have hnext : next :: pieces ≠ [] := List.cons_ne_nil _ _
      rw [hwidth, walk_cons_cons]
      by_cases hdouble : isDoubleDot piece = true
      · have hrest : size (walk path.dropLast (next :: pieces)) ≤ _ := (ih hnext).1
        rw [if_pos hdouble]
        exact ⟨by omega, fun h => by omega⟩
      by_cases hsingle : isSingleDot piece = true
      · have hrest : size (walk path (next :: pieces)) ≤ _ := (ih hnext).1
        rw [if_neg hdouble, if_pos hsingle]
        exact ⟨by omega, fun h => by omega⟩
      have hrest : size (walk (path ++ [percentEncode inPathSet piece]) (next :: pieces)) ≤ _ ∧ _ :=
        ih hnext
      rw [size_append] at hrest
      rw [if_neg hdouble, if_neg hsingle]
      refine ⟨by omega, fun h => ?_⟩
      rw [List.forall_mem_cons]
      exact ⟨⟨⟨by simpa using hsingle, by simpa using hdouble⟩, hescape (by omega)⟩,
        hrest.2 (by omega)⟩

/-! ## The text of a path -/

section

variable {p : UInt8 → Bool} {text : List UInt8}

theorem width_splitOnP (text : List UInt8) : width (text.splitOnP p) = text.length + 1 := by
  induction text with
  | nil => rfl
  | cons b text ih =>
    rw [List.splitOnP_cons_eq_if_modifyHead]
    by_cases hb : p b = true
    · rw [if_pos hb]
      simp only [width, List.map_cons, List.sum_cons, List.length_nil, List.length_cons] at ih ⊢
      omega
    · rw [if_neg hb]
      obtain ⟨first, rest, hsplit⟩ := List.exists_cons_of_ne_nil (List.splitOnP_ne_nil p text)
      rw [hsplit] at ih ⊢
      simp only [width, List.modifyHead_cons, List.map_cons, List.sum_cons, List.length_cons] at ih ⊢
      omega

/-- A piece has no separators, and its bytes are those of the text. -/
theorem of_mem_splitOnP {b : UInt8} (hpiece : piece ∈ text.splitOnP p) (hb : b ∈ piece) :
    p b = false ∧ b ∈ text := by
  induction text generalizing piece with
  | nil =>
    rw [List.splitOnP_nil, List.mem_singleton] at hpiece
    rw [hpiece] at hb
    cases hb
  | cons c text ih =>
    rw [List.splitOnP_cons_eq_if_modifyHead] at hpiece
    by_cases hc : p c = true
    · rw [if_pos hc, List.mem_cons] at hpiece
      obtain rfl | hpiece := hpiece
      · cases hb
      · exact ⟨(ih hpiece hb).1, List.mem_cons_of_mem _ (ih hpiece hb).2⟩
    · obtain ⟨first, rest, hsplit⟩ := List.exists_cons_of_ne_nil (List.splitOnP_ne_nil p text)
      rw [if_neg hc, hsplit, List.modifyHead_cons, List.mem_cons] at hpiece
      obtain rfl | hpiece := hpiece
      · rw [List.mem_cons] at hb
        obtain rfl | hb := hb
        · exact ⟨by simpa using hc, List.mem_cons_self⟩
        · have hfirst : first ∈ text.splitOnP p := hsplit ▸ List.mem_cons_self
          exact ⟨(ih hfirst hb).1, List.mem_cons_of_mem _ (ih hfirst hb).2⟩
      · have hrest : piece ∈ text.splitOnP p := hsplit ▸ List.mem_cons_of_mem _ hpiece
        exact ⟨(ih hrest hb).1, List.mem_cons_of_mem _ (ih hrest hb).2⟩

/-- Pieces without separators are those of their text. -/
theorem splitOnP_intercalate {mark : UInt8} (hmark : p mark = true) (hne : pieces ≠ [])
    (h : ∀ x ∈ pieces, ∀ b ∈ x, p b = false) : ([mark].intercalate pieces).splitOnP p = pieces := by
  induction pieces with
  | nil => exact absurd rfl hne
  | cons piece pieces ih =>
    rw [List.forall_mem_cons] at h
    cases pieces with
    | nil => rw [List.intercalate_singleton, List.splitOnP_eq_singleton h.1]
    | cons next pieces =>
      rw [List.intercalate_cons_cons, List.append_assoc, List.singleton_append,
        List.splitOnP_append_cons_of_forall_mem h.1 mark hmark, ih (List.cons_ne_nil _ _) h.2]

theorem length_intercalate {mark : UInt8} (hne : pieces ≠ []) :
    ([mark].intercalate pieces).length + 1 = width pieces := by
  induction pieces with
  | nil => exact absurd rfl hne
  | cons piece pieces ih =>
    cases pieces with
    | nil => simp [List.intercalate_singleton, width]
    | cons next pieces =>
      have hrest := ih (List.cons_ne_nil _ _)
      rw [List.intercalate_cons_cons, List.append_assoc, List.length_append, List.length_append,
        List.length_singleton]
      simp only [width, List.map_cons, List.sum_cons] at hrest ⊢
      omega

end

/-! ## A path behind others -/

/-- A path with a slash in front of each of its pieces. -/
def pathText (pieces : List (List UInt8)) : List UInt8 := pieces.flatMap (0x2f :: ·)

theorem isSlash_slash : isSlash UInt8.toNat 0x2f = true := by decide

/-- **A text behind the text of a path** is walked along from that path. -/
theorem parsePath_append (hplain : ∀ x ∈ good, IsPlain x)
    (hslash : ∀ x ∈ good, ∀ b ∈ x, isSlash UInt8.toNat b = false)
    (hset : ∀ x ∈ good, ∀ b ∈ x, inPathSet b = false) (text : List UInt8) :
    parsePath (pathText good ++ 0x2f :: text) =
      walk good (text.splitOnP (isSlash UInt8.toNat)) := by
  have htext : ∃ tail, pathText good ++ 0x2f :: text = 0x2f :: tail ∧
      tail.splitOnP (isSlash UInt8.toNat) = good ++ text.splitOnP (isSlash UInt8.toNat) := by
    clear hplain hset
    induction good with
    | nil => exact ⟨text, rfl, rfl⟩
    | cons piece good ih =>
      rw [List.forall_mem_cons] at hslash
      obtain ⟨tail, htail, hsplit⟩ := ih hslash.2
      refine ⟨piece ++ 0x2f :: tail, ?_, ?_⟩
      · rw [← htail]
        simp [pathText]
      · rw [List.splitOnP_append_cons_of_forall_mem hslash.1 _ isSlash_slash, hsplit,
          List.cons_append]
  obtain ⟨tail, htail, hsplit⟩ := htext
  have hkept : good.map (percentEncode inPathSet) = good := by
    rw [List.map_congr_left fun x hx => percentEncode_eq_self (hset x hx), List.map_id']
  rw [htail, parsePath]
  simp only [isSlash_slash, if_true]
  rw [hsplit, walk_append hplain (List.splitOnP_ne_nil _ _), hkept, List.nil_append]

/-- An authority that can be read back. -/
structure IsAuthority (authority : List UInt8) : Prop where
  nonempty : authority ≠ []
  slash : ∀ b ∈ authority, isSlash UInt8.toNat b = false
  ends : ∀ b ∈ authority, endsPath UInt8.toNat b = false
  c0 : ∀ b ∈ authority, isC0OrSpace UInt8.toNat b = false

/-- The authority of a URL, and what follows it. -/
theorem splitAuthority_append {authority rest : List UInt8} (h : IsAuthority authority)
    (hrest : ∃ tail, rest = 0x2f :: tail) :
    splitAuthority UInt8.toNat (0x2f :: 0x2f :: (authority ++ rest)) = (authority, rest) := by
  obtain ⟨tail, rfl⟩ := hrest
  have hdrop : (0x2f :: 0x2f :: (authority ++ 0x2f :: tail)).dropWhile (isSlash UInt8.toNat) =
      authority ++ 0x2f :: tail := by
    rw [List.dropWhile_cons_of_pos isSlash_slash, List.dropWhile_cons_of_pos isSlash_slash]
    obtain ⟨b, bs, rfl⟩ := List.exists_cons_of_ne_nil h.nonempty
    rw [List.cons_append, List.dropWhile_cons_of_neg (by simp [h.slash b List.mem_cons_self])]
  have hall : ∀ b ∈ authority,
      (!isSlash UInt8.toNat b && !endsPath UInt8.toNat b) = true := fun b hb => by
    rw [h.slash b hb, h.ends b hb]
    rfl
  have htake : (0x2f :: tail).takeWhile
      (fun b => !isSlash UInt8.toNat b && !endsPath UInt8.toNat b) = [] := rfl
  have hdropWhile : (0x2f :: tail).dropWhile
      (fun b => !isSlash UInt8.toNat b && !endsPath UInt8.toNat b) = 0x2f :: tail := rfl
  unfold splitAuthority
  rw [hdrop]
  dsimp only
  rw [List.takeWhile_append_of_pos hall, List.dropWhile_append_of_pos hall, htake, hdropWhile,
    List.append_nil]

theorem splitQuery_append {good : List UInt8} (h : ∀ b ∈ good, endsPath UInt8.toNat b = false)
    (rest : List UInt8) :
    splitQuery (good ++ rest) = (good ++ (splitQuery rest).1, (splitQuery rest).2) := by
  have hall : ∀ b ∈ good, (!endsPath UInt8.toNat b) = true := fun b hb => by simp [h b hb]
  unfold splitQuery
  rw [List.takeWhile_append_of_pos hall, List.dropWhile_append_of_pos hall]

/-- A query has no byte of the set of its escapes. -/
theorem splitQuery_query {rest query : List UInt8} (h : (splitQuery rest).2 = some query) :
    ∀ b ∈ query, inSpecialQuerySet b = false := by
  unfold splitQuery at h
  cases hrest : rest.dropWhile (!endsPath UInt8.toNat ·) with
  | nil =>
    rw [hrest] at h
    cases h
  | cons mark tail =>
    simp only [hrest] at h
    by_cases hmark : mark = 0x3f
    · rw [if_pos hmark] at h
      cases h
      intro b hb
      exact not_set_of_mem_percentEncode keepsEscapes_query hb
    · rw [if_neg hmark] at h
      cases h

end Whatwg
