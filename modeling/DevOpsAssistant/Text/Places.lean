import Mathlib.Data.List.TakeWhile
import Mathlib.Tactic.Common

/-!
# Places in a text

A text is a list of characters, and its lines end with a separator.

* `Text.BeginsOn`: a part of a text begins on the `n`-th line.
* `Text.SameLine`: two positions are on one line.
* **`beginsOn_iff_line`**: a part without separators begins on the line that holds it;
  `beginsOn_iff_infix`: the line of a position.
* **`beginsOn_iff_sameLine`**: a part begins on the line of a position if it begins at another position of
  that line.
-/

namespace Text

variable {α : Type*} [DecidableEq α] {sep : α} {content pre t post l q r : List α} {n k i : ℕ}

/-- The part `t` of `content` begins on the `n`-th line. -/
def BeginsOn (sep : α) (content : List α) (n : ℕ) (t : List α) : Prop :=
  ∃ pre post, content = pre ++ (t ++ post) ∧ pre.count sep + 1 = n

/-- No line ends between two positions. -/
def SameLine (sep : α) (content : List α) (i j : ℕ) : Prop :=
  sep ∉ (content.take (max i j)).drop (min i j)

/-! ## Lines -/

theorem splitOn_cons_self : (sep :: q).splitOn sep = [] :: q.splitOn sep := by
  rw [List.splitOn_cons_eq_if_modifyHead, if_pos (beq_self_eq_true sep)]

theorem splitOn_cons_of_ne {c : α} (hc : c ≠ sep) :
    (c :: q).splitOn sep = (q.splitOn sep).modifyHead (List.cons c) := by
  rw [List.splitOn_cons_eq_if_modifyHead, if_neg (by simpa using hc)]

theorem length_splitOn (q : List α) : (q.splitOn sep).length = q.count sep + 1 := by
  induction q with
  | nil => rfl
  | cons c q ih =>
    by_cases hc : c = sep
    · rw [hc, splitOn_cons_self, List.length_cons, ih, List.count_cons_self]
    · rw [splitOn_cons_of_ne hc, List.length_modifyHead, ih, List.count_cons_of_ne hc]

/-- The first line is what stands before the first separator. -/
theorem head?_splitOn_append (hl : sep ∉ l) (hr : ∀ c ∈ r.head?, c = sep) :
    ((l ++ r).splitOn sep).head? = some l := by
  cases r with
  | nil => rw [List.append_nil, List.splitOn_eq_singleton hl, List.head?_cons]
  | cons c r =>
    obtain rfl : c = sep := hr c rfl
    rw [List.splitOn_append_cons_self, List.splitOn_eq_singleton hl]
    rfl

/-- The line after the separators of `q`. -/
theorem getElem?_splitOn (hq : ∀ c ∈ q.getLast?, c = sep) (hl : sep ∉ l)
    (hr : ∀ c ∈ r.head?, c = sep) : ((q ++ (l ++ r)).splitOn sep)[q.count sep]? = some l := by
  have hfirst : ((l ++ r).splitOn sep)[0]? = some l := by
    rw [← List.head?_eq_getElem?]
    exact head?_splitOn_append hl hr
  rcases List.eq_nil_or_concat q with rfl | ⟨q, c, rfl⟩
  · exact hfirst
  · rw [List.concat_eq_append] at hq ⊢
    obtain rfl : c = sep := hq c (by simp)
    have hcount : (q ++ [c]).count c = (q.splitOn c).length := by
      rw [length_splitOn, List.count_append, List.count_singleton_self]
    rw [List.append_assoc, List.singleton_append, List.splitOn_append_cons_self, hcount,
      List.getElem?_append_right (Nat.le_refl _), Nat.sub_self]
    exact hfirst

/-- Where a line is. -/
theorem exists_of_getElem?_splitOn : ∀ {content l : List α} {k : ℕ},
    (content.splitOn sep)[k]? = some l → ∃ q r, content = q ++ (l ++ r) ∧ q.count sep = k ∧
      (∀ c ∈ q.getLast?, c = sep) ∧ sep ∉ l
  | [], l, k, h => by
    cases k with
    | zero =>
      obtain rfl : [] = l := Option.some.inj h
      exact ⟨[], [], rfl, rfl, nofun, List.not_mem_nil⟩
    | succ k => cases h
  | c :: cs, l, k, h => by
    by_cases hc : c = sep
    · rw [hc, splitOn_cons_self] at h
      cases k with
      | zero =>
        obtain rfl : [] = l := Option.some.inj h
        exact ⟨[], c :: cs, rfl, rfl, nofun, List.not_mem_nil⟩
      | succ k =>
        obtain ⟨q, r, rfl, hk, hq, hl⟩ := exists_of_getElem?_splitOn h
        refine ⟨c :: q, r, rfl, by rw [hc, List.count_cons_self, hk], ?_, hl⟩
        cases q with
        | nil => simpa using hc
        | cons d q => simpa using hq
    · rw [splitOn_cons_of_ne hc, List.getElem?_modifyHead] at h
      cases k with
      | zero =>
        obtain ⟨line, hline, rfl⟩ := Option.map_eq_some_iff.mp h
        obtain ⟨q, r, rfl, hk, hq, hl⟩ := exists_of_getElem?_splitOn hline
        obtain rfl : q = [] := by
          rcases List.eq_nil_or_concat q with rfl | ⟨q, d, rfl⟩
          · rfl
          · rw [List.concat_eq_append] at hq hk
            obtain rfl : d = sep := hq d (by simp)
            simp at hk
        exact ⟨[], r, rfl, rfl, nofun, by simpa [Ne.symm hc] using hl⟩
      | succ k =>
        obtain ⟨q, r, rfl, hk, hq, hl⟩ := exists_of_getElem?_splitOn (by simpa using h)
        refine ⟨c :: q, r, rfl, by rw [List.count_cons_of_ne hc, hk], ?_, hl⟩
        cases q with
        | nil => cases hk
        | cons d q => simpa using hq

/-! ## Parts of a text -/

/-- The rest of a line. -/
theorem exists_line_end (sep : α) (post : List α) :
    ∃ r s, post = r ++ s ∧ sep ∉ r ∧ ∀ c ∈ s.head?, c = sep := by
  refine ⟨post.takeWhile (· ≠ sep), post.dropWhile (· ≠ sep),
    List.takeWhile_append_dropWhile.symm, fun h => ?_, fun c hc => ?_⟩
  · simpa using List.mem_takeWhile_imp h
  · have hnot := List.head?_dropWhile_not (fun c => decide (c ≠ sep)) post
    rw [hc] at hnot
    simpa using hnot

/-- The start of a line. -/
theorem exists_line_start (sep : α) (pre : List α) :
    ∃ q l, pre = q ++ l ∧ (∀ c ∈ q.getLast?, c = sep) ∧ sep ∉ l := by
  obtain ⟨r, s, hpre, hr, hs⟩ := exists_line_end sep pre.reverse
  refine ⟨s.reverse, r.reverse, ?_, ?_, by simpa using hr⟩
  · rw [← List.reverse_append, ← hpre, List.reverse_reverse]
  · simpa using hs

/-- **A part without separators** begins on the line that holds it. -/
theorem beginsOn_iff_line (ht : sep ∉ t) : BeginsOn sep content (k + 1) t ↔
    ∃ line, (content.splitOn sep)[k]? = some line ∧ t <:+: line := by
  constructor
  · rintro ⟨pre, post, rfl, hk⟩
    obtain ⟨q, l, rfl, hq, hl⟩ := exists_line_start sep pre
    obtain ⟨r, s, rfl, hr, hs⟩ := exists_line_end sep post
    refine ⟨l ++ (t ++ r), ?_, l, r, by simp⟩
    have hline : sep ∉ l ++ (t ++ r) := by simp [hl, ht, hr]
    have hcount : q.count sep = k := by
      rw [List.count_append, List.count_eq_zero.mpr hl] at hk
      omega
    have hget := getElem?_splitOn hq hline hs
    rw [hcount] at hget
    simpa using hget
  · rintro ⟨line, hline, a, b, rfl⟩
    obtain ⟨q, r, rfl, hk, -, hl⟩ := exists_of_getElem?_splitOn hline
    refine ⟨q ++ a, b ++ r, by simp, ?_⟩
    have ha : sep ∉ a := fun h => hl (by simp [h])
    rw [List.count_append, List.count_eq_zero.mpr ha, hk, Nat.add_zero]

/-- The line of a position: what stands before it on the line, and the rest `l` of the line. -/
theorem beginsOn_iff_infix {b : List α} (ht : sep ∉ t) (hl : sep ∉ l) (hr : ∀ c ∈ r.head?, c = sep) :
    BeginsOn sep (b.reverse ++ (l ++ r)) (b.count sep + 1) t ↔
      t <:+: (b.takeWhile (· ≠ sep)).reverse ++ l := by
  have hstart : sep ∉ b.takeWhile (· ≠ sep) := fun h => by simpa using List.mem_takeWhile_imp h
  have hline : sep ∉ (b.takeWhile (· ≠ sep)).reverse ++ l := by
    rw [List.mem_append, List.mem_reverse]
    exact fun h => h.elim hstart hl
  have hq : ∀ c ∈ (b.dropWhile (· ≠ sep)).reverse.getLast?, c = sep := by
    intro c hc
    rw [List.getLast?_reverse] at hc
    have hnot := List.head?_dropWhile_not (fun c => decide (c ≠ sep)) b
    rw [hc] at hnot
    simpa using hnot
  have hsplit : b.reverse ++ (l ++ r) = (b.dropWhile (· ≠ sep)).reverse ++
      (((b.takeWhile (· ≠ sep)).reverse ++ l) ++ r) := by
    rw [← List.append_assoc, ← List.append_assoc, ← List.append_assoc, ← List.reverse_append,
      List.takeWhile_append_dropWhile]
  have hcount : (b.dropWhile (· ≠ sep)).reverse.count sep = b.count sep := by
    conv_rhs => rw [← List.takeWhile_append_dropWhile (p := (· ≠ sep)) (l := b)]
    rw [List.count_append, List.count_eq_zero.mpr hstart, List.count_reverse, Nat.zero_add]
  have hget := getElem?_splitOn hq hline hr
  rw [hcount, ← hsplit] at hget
  rw [beginsOn_iff_line ht]
  constructor
  · rintro ⟨line, hl, hinside⟩
    obtain rfl := Option.some.inj (hget.symm.trans hl)
    exact hinside
  · exact fun h => ⟨_, hget, h⟩

/-- **A part begins on the line of a position** if it begins at another position of that line. -/
theorem beginsOn_iff_sameLine (hi : i ≤ content.length) :
    BeginsOn sep content ((content.take i).count sep + 1) t ↔
      ∃ pre post, content = pre ++ (t ++ post) ∧ SameLine sep content i pre.length := by
  have hcount : ∀ {m n : ℕ}, m ≤ n → n ≤ content.length →
      (content.take n).count sep =
        (content.take m).count sep + ((content.take n).drop m).count sep := by
    intro m n hmn hn
    have hsplit := List.take_append_drop m (content.take n)
    rw [List.take_take, Nat.min_eq_left hmn] at hsplit
    rw [← List.count_append, hsplit]
  unfold BeginsOn SameLine
  refine exists_congr fun pre => exists_congr fun post => and_congr_right fun h => ?_
  have htake : content.take pre.length = pre := by simp [h]
  have hlength : pre.length ≤ content.length := by simp [h]
  rw [← List.count_eq_zero, Nat.add_right_cancel_iff]
  rcases Nat.le_total i pre.length with hle | hle
  · have := hcount hle hlength
    rw [htake] at this
    rw [Nat.max_eq_right hle, Nat.min_eq_left hle, htake]
    omega
  · have := hcount hle hi
    rw [htake] at this
    rw [Nat.max_eq_left hle, Nat.min_eq_right hle]
    omega

end Text
