import Mathlib.Data.List.Basic

/-!
# Regular expressions with backtracking

An expression is run at a position of a text and gives the positions it can end at, those a
backtracking matcher would try first at the head of the list.

* `Regex.Cursor`: a position in a text, with the groups captured on the way there.
* `Regex.ends`: the positions an expression can end at, in order of preference.
* `Regex.search`, `Regex.findIter`: the leftmost match, and all matches that do not overlap.
* `Regex.remove`: a text without the matches.
* `Regex.lit`, `Regex.ilit`, `Regex.plus`, …: expressions made of others.
* `Regex.mem_ends_seq`, `mem_ends_lit`, …: where the parts of an expression can end.
* **`search_isSome`**: an expression that can match anywhere is found.
-/

/-- A regular expression. `star` repeats as often as it can; `lineStart` and `lineEnd` are the
multiline anchors `^` and `$`, `textStart` and `textEnd` those without multiline; `notBehind n r` is a
negative lookbehind of the width `n`. -/
inductive Regex where
  | empty
  | char (p : Char → Bool)
  | seq (r s : Regex)
  | alt (r s : Regex)
  | star (r : Regex)
  | group (n : ℕ) (r : Regex)
  | lineStart
  | lineEnd
  | textStart
  | textEnd
  | wordBoundary (isWord : Char → Bool)
  | notBehind (n : ℕ) (r : Regex)

namespace Regex

/-- A position: the characters before it, the last one first, the characters after it, and the groups
captured on the way, the latest first. -/
structure Cursor where
  before : List Char
  rest : List Char
  groups : List (ℕ × List Char)

/-- The characters between two positions of a text. -/
def Cursor.upTo (x y : Cursor) : List Char := (y.before.take (y.before.length - x.before.length)).reverse

/-- The position `n` characters earlier. -/
def Cursor.back (x : Cursor) (n : ℕ) : Cursor :=
  { x with before := x.before.drop n, rest := (x.before.take n).reverse ++ x.rest }

/-- As many repetitions of `step` as possible first; each of them moves on. -/
def repeated (step : Cursor → List Cursor) : ℕ → Cursor → List Cursor
  | 0, x => [x]
  | n + 1, x =>
    ((step x).filter fun y => y.rest.length < x.rest.length).flatMap (repeated step n) ++ [x]

/-- The positions an expression can end at, in the order in which backtracking finds them. -/
def ends : Regex → Cursor → List Cursor
  | empty, x => [x]
  | char p, x =>
    match x.rest with
    | [] => []
    | c :: cs => if p c then [{ x with before := c :: x.before, rest := cs }] else []
  | seq r s, x => (ends r x).flatMap (ends s)
  | alt r s, x => ends r x ++ ends s x
  | star r, x => repeated (ends r) x.rest.length x
  | group n r, x => (ends r x).map fun y => { y with groups := (n, x.upTo y) :: y.groups }
  | lineStart, x => if x.before.head?.all (· == '\n') then [x] else []
  | lineEnd, x => if x.rest.head?.all (· == '\n') then [x] else []
  | textStart, x => if x.before = [] then [x] else []
  | textEnd, x => if x.rest = [] ∨ x.rest = ['\n'] then [x] else []
  | wordBoundary isWord, x =>
    if x.before.head?.any isWord ≠ x.rest.head?.any isWord then [x] else []
  | notBehind n r, x =>
    if n ≤ x.before.length ∧ (ends r (x.back n)).any fun y => y.rest.length = x.rest.length then []
    else [x]

/-- A match: where it begins and where it ends. -/
structure Match where
  start : Cursor
  stop : Cursor

namespace Match

/-- `match.start()`. -/
def startIndex (m : Match) : ℕ := m.start.before.length

/-- The length of the matched text. -/
def length (m : Match) : ℕ := m.start.rest.length - m.stop.rest.length

/-- `match.group(n)`; a group that has captured nothing is empty. -/
def group (m : Match) (n : ℕ) : List Char := (m.stop.groups.lookup n).getD []

end Match

/-- The match at one position. -/
def matchAt (r : Regex) (before rest : List Char) : Option Match :=
  ((ends r ⟨before, rest, []⟩).head?).map fun y => ⟨⟨before, rest, []⟩, y⟩

/-- The leftmost match from a position on. -/
def searchFrom (r : Regex) (before : List Char) : List Char → Option Match
  | [] => r.matchAt before []
  | c :: cs => r.matchAt before (c :: cs) <|> r.searchFrom (c :: before) cs

/-- The leftmost match. -/
def search (r : Regex) (text : List Char) : Option Match := r.searchFrom [] text

/-- The matches from a position on, after the next `skip` characters. -/
def findFrom (r : Regex) (skip : ℕ) (before : List Char) : List Char → List Match
  | [] => if skip = 0 then (r.matchAt before []).toList else []
  | c :: cs =>
    match skip with
    | skip + 1 => r.findFrom skip (c :: before) cs
    | 0 =>
      match r.matchAt before (c :: cs) with
      | none => r.findFrom 0 (c :: before) cs
      | some m => m :: r.findFrom (m.length - 1) (c :: before) cs

/-- The matches of an expression that does not match the empty text, from left to right. -/
def findIter (r : Regex) (text : List Char) : List Match := r.findFrom 0 [] text

/-- The text without the matches, from a position on, after the next `skip` characters. -/
def removeFrom (r : Regex) (skip : ℕ) (before : List Char) : List Char → List Char
  | [] => []
  | c :: cs =>
    match skip with
    | skip + 1 => r.removeFrom skip (c :: before) cs
    | 0 =>
      match r.matchAt before (c :: cs) with
      | none => c :: r.removeFrom 0 (c :: before) cs
      | some m => r.removeFrom (m.length - 1) (c :: before) cs

/-- `re.sub(r, "", text)`, for an expression that does not match the empty text. -/
def remove (r : Regex) (text : List Char) : List Char := r.removeFrom 0 [] text

/-! ## Expressions made of others -/

/-- The same letter, where case does not count. The letters `i`, `k` and `s` have other forms outside
ASCII. -/
def sameLetter (c d : Char) : Bool :=
  d = c || d.toLower = c.toLower ||
    (c.toLower = 'i' && (d = 'İ' || d = 'ı')) || (c.toLower = 'k' && d = 'K') ||
    (c.toLower = 's' && d = 'ſ')

/-- One expression after another. -/
def concat : List Regex → Regex
  | [] => empty
  | [r] => r
  | r :: rs => seq r (concat rs)

/-- One of several expressions, the first that matches. -/
def oneOf : List Regex → Regex
  | [] => char fun _ => false
  | [r] => r
  | r :: rs => alt r (oneOf rs)

/-- A text. -/
def lit (cs : List Char) : Regex := concat (cs.map fun c => char (· == c))

/-- A text whose case does not count. -/
def ilit (cs : List Char) : Regex := concat (cs.map fun c => char (sameLetter c))

/-- `r+`. -/
def plus (r : Regex) : Regex := seq r (star r)

/-- `r?`. -/
def opt (r : Regex) : Regex := alt r empty

/-- `r{n}`. -/
def times (n : ℕ) (r : Regex) : Regex := concat (List.replicate n r)

/-- `r{n,}`. -/
def atLeast (n : ℕ) (r : Regex) : Regex := seq (times n r) (star r)

/-- `.`. -/
def dot : Regex := char (· != '\n')

/-! ## Where an expression can end -/

variable {r s : Regex} {x y : Cursor}

theorem mem_ends_seq : y ∈ ends (seq r s) x ↔ ∃ z ∈ ends r x, y ∈ ends s z := List.mem_flatMap

theorem mem_ends_alt : y ∈ ends (alt r s) x ↔ y ∈ ends r x ∨ y ∈ ends s x := List.mem_append

/-- A repetition can be left out. -/
theorem mem_ends_star_self (x : Cursor) : x ∈ ends (star r) x := by
  rw [ends]
  cases x.rest.length with
  | zero => exact List.mem_singleton_self x
  | succ n => exact List.mem_append_right _ (List.mem_singleton_self x)

theorem mem_ends_concat_cons {rs : List Regex} :
    y ∈ ends (concat (r :: rs)) x ↔ ∃ z ∈ ends r x, y ∈ ends (concat rs) z := by
  cases rs with
  | nil => simp [concat, ends]
  | cons r' rs => exact mem_ends_seq

theorem mem_ends_char {p : Char → Bool} {before rest : List Char} {c : Char}
    {groups : List (ℕ × List Char)} (hc : p c = true) :
    ⟨c :: before, rest, groups⟩ ∈ ends (char p) ⟨before, c :: rest, groups⟩ := by
  simp [ends, hc]

/-- A sequence of characters ends after characters that satisfy its conditions. -/
theorem mem_ends_chars {f : Char → Char → Bool} (hf : ∀ c, f c c = true)
    {groups : List (ℕ × List Char)} : ∀ (cs : List Char) {before rest : List Char},
      ⟨cs.reverse ++ before, rest, groups⟩ ∈
        ends (concat (cs.map fun c => char (f c))) ⟨before, cs ++ rest, groups⟩
  | [], before, rest => List.mem_singleton_self _
  | c :: cs, before, rest => by
    refine mem_ends_concat_cons.mpr ⟨_, mem_ends_char (hf c), ?_⟩
    simpa using mem_ends_chars hf cs

/-- A text ends where it ends. -/
theorem mem_ends_lit (cs : List Char) {before rest : List Char} {groups : List (ℕ × List Char)} :
    ⟨cs.reverse ++ before, rest, groups⟩ ∈ ends (lit cs) ⟨before, cs ++ rest, groups⟩ :=
  mem_ends_chars (fun c => by simp) cs

/-- So does a text whose case does not count. -/
theorem mem_ends_ilit (cs : List Char) {before rest : List Char} {groups : List (ℕ × List Char)} :
    ⟨cs.reverse ++ before, rest, groups⟩ ∈ ends (ilit cs) ⟨before, cs ++ rest, groups⟩ :=
  mem_ends_chars (fun c => by simp [sameLetter]) cs

/-! ## Searching -/

theorem searchFrom_isSome : ∀ {rest before : List Char}, (r.searchFrom before rest).isSome = true ↔
    ∃ pre post, rest = pre ++ post ∧ r.ends ⟨pre.reverse ++ before, post, []⟩ ≠ []
  | [], before => by
    rw [searchFrom, matchAt, Option.isSome_map, List.isSome_head?]
    constructor
    · exact fun h => ⟨[], [], rfl, by simpa using h⟩
    · rintro ⟨pre, post, h, hne⟩
      obtain ⟨rfl, rfl⟩ := List.append_eq_nil_iff.mp h.symm
      simpa using hne
  | c :: cs, before => by
    rw [searchFrom, Option.orElse_eq_orElse, Option.orElse_eq_or, Option.isSome_or, Bool.or_eq_true,
      matchAt, Option.isSome_map, List.isSome_head?, searchFrom_isSome]
    constructor
    · rintro (h | ⟨pre, post, rfl, hne⟩)
      · exact ⟨[], c :: cs, rfl, by simpa using h⟩
      · exact ⟨c :: pre, post, rfl, by simpa using hne⟩
    · rintro ⟨pre, post, h, hne⟩
      cases pre with
      | nil =>
        obtain rfl : c :: cs = post := h
        exact .inl (by simpa using hne)
      | cons d pre =>
        obtain ⟨rfl, rfl⟩ := List.cons.inj h
        exact .inr ⟨pre, post, rfl, by simpa using hne⟩

/-- **An expression is found** if it matches anywhere. -/
theorem search_isSome {text : List Char} : (r.search text).isSome = true ↔
    ∃ pre post, text = pre ++ post ∧ r.ends ⟨pre.reverse, post, []⟩ ≠ [] := by
  rw [search, searchFrom_isSome]
  simp

end Regex
