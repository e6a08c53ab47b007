import Mathlib.Data.List.Chain
import Mathlib.Data.List.DropRight
import Mathlib.Tactic.Common

/-!
# Words and what joins them

* `words`: the longest runs of elements of a kind.
* `marked`: a list in which every other run is one mark.
* **`trimmed_marked`**: without marks at the ends, these are the words joined with the mark.
* **`getElem?_intercalate_eq_mark`**: a mark stands where the words before it end.
-/

namespace Words

variable {α : Type} (p : α → Bool) (mark : α)

/-- The longest runs of elements that satisfy `p`. -/
def words (s : List α) : List (List α) := (s.splitOnP (!p ·)).filter (· ≠ [])

/-- Every run of other elements becomes one mark; `inRun` says that such a run goes on. -/
def marked (inRun : Bool) : List α → List α
  | [] => []
  | x :: xs =>
    if p x then x :: marked false xs
    else if inRun then marked true xs
    else mark :: marked true xs

variable {p mark} {s w : List α}

/-! ## Words -/

theorem words_of_all (hw : ∀ x ∈ w, p x = true) (hne : w ≠ []) : words p w = [w] := by
  rw [words, List.splitOnP_eq_singleton (by simpa using hw)]
  simp [hne]

theorem words_cons_of_neg {x : α} (hx : p x = false) : words p (x :: s) = words p s := by
  rw [words, List.splitOnP_cons_eq_if_modifyHead, if_pos (by simp [hx])]
  simp [words]

theorem words_append_cons {x : α} (hw : ∀ y ∈ w, p y = true) (hne : w ≠ []) (hx : p x = false) :
    words p (w ++ x :: s) = w :: words p s := by
  rw [words, List.splitOnP_append_cons_of_forall_mem (by simpa using hw) x (by simp [hx])]
  simp [words, hne]

/-- A word is not empty. -/
theorem ne_nil_of_mem_words (h : w ∈ words p s) : w ≠ [] := by
  simpa using (List.mem_filter.mp h).2

/-- A list is its first word, and what follows the first element outside words. -/
theorem word_induction {motive : List α → Prop} (nil : motive [])
    (word : ∀ w, w ≠ [] → (∀ x ∈ w, p x = true) → motive w)
    (other : ∀ x s, p x = false → motive s → motive (x :: s))
    (append : ∀ w x s, w ≠ [] → (∀ y ∈ w, p y = true) → p x = false → motive s →
      motive (w ++ x :: s)) (s : List α) : motive s := by
  induction hn : s.length using Nat.strong_induction_on generalizing s with
  | _ n ih =>
    have hs : s.takeWhile p ++ s.dropWhile p = s := List.takeWhile_append_dropWhile
    have hw : ∀ x ∈ s.takeWhile p, p x = true := fun x hx => List.mem_takeWhile_imp hx
    cases hdrop : s.dropWhile p with
    | nil =>
      rw [hdrop, List.append_nil] at hs
      by_cases hnil : s = []
      · exact hnil ▸ nil
      · exact word s hnil (hs ▸ hw)
    | cons x rest =>
      have hx : p x = false := by
        have := List.head?_dropWhile_not p s
        rw [hdrop] at this
        simpa using this
      rw [hdrop] at hs
      have hlen : rest.length < n := by
        rw [← hn, ← hs]
        simp
        omega
      have hrest := ih rest.length hlen rest rfl
      rw [← hs]
      by_cases hnil : s.takeWhile p = []
      · rw [hnil]
        exact other x rest hx hrest
      · exact append _ x rest hnil hw hx hrest

/-- A word has only elements of its kind. -/
theorem forall_of_mem_words (s : List α) : ∀ w ∈ words p s, ∀ x ∈ w, p x = true := by
  induction s using word_induction (p := p) with
  | nil => simp [words]
  | word w hne hw =>
    rw [words_of_all hw hne]
    simpa using hw
  | other x s hx ih => rwa [words_cons_of_neg hx]
  | append w x s hne hw hx ih =>
    rw [words_append_cons hw hne hx]
    simpa using ⟨hw, ih⟩

/-- A list with an element of the kind has a word. -/
theorem words_ne_nil {x : α} (hx : p x = true) (h : x ∈ s) : words p s ≠ [] := by
  induction s using word_induction (p := p) with
  | nil => cases h
  | word w hne hw => simp [words_of_all hw hne]
  | other y s hy ih =>
    rw [words_cons_of_neg hy]
    refine ih ((List.mem_cons.mp h).resolve_left ?_)
    rintro rfl
    rw [hx] at hy
    cases hy
  | append w y s hne hw hy ih => simp [words_append_cons hw hne hy]

/-! ## Marks -/

theorem marked_append (hw : ∀ x ∈ w, p x = true) (hne : w ≠ []) (inRun : Bool) :
    marked p mark inRun (w ++ s) = w ++ marked p mark false s := by
  induction w generalizing inRun with
  | nil => exact absurd rfl hne
  | cons x w ih =>
    rw [List.cons_append, marked, if_pos (hw x (by simp))]
    by_cases hnil : w = []
    · rw [hnil]
      rfl
    · rw [ih (fun y hy => hw y (by simp [hy])) hnil]
      rfl

/-- After a run, the list begins with a word; marks follow the joined words. -/
theorem marked_true (s : List α) : ∃ tail, (∀ x ∈ tail, x = mark) ∧
    marked p mark true s = [mark].intercalate (words p s) ++ tail := by
  induction s using word_induction (p := p) with
  | nil => exact ⟨[], by simp, rfl⟩
  | word w hne hw =>
    refine ⟨[], by simp, ?_⟩
    have : marked p mark true (w ++ []) = w ++ marked p mark false [] := marked_append hw hne true
    rw [List.append_nil] at this
    rw [this, words_of_all hw hne, List.intercalate_singleton]
    rfl
  | other x s hx ih =>
    rw [words_cons_of_neg hx, marked, if_neg (by simp [hx]), if_pos rfl]
    exact ih
  | append w x s hne hw hx ih =>
    obtain ⟨tail, htail, ih⟩ := ih
    rw [words_append_cons hw hne hx, marked_append hw hne, marked, if_neg (by simp [hx]),
      if_neg (by simp), ih]
    by_cases hnil : words p s = []
    · exact ⟨mark :: tail, by simpa using htail, by simp [hnil]⟩
    · exact ⟨tail, htail, by simp [List.intercalate_cons_of_ne_nil hnil]⟩

/-- After a run, the list does not begin with the mark. -/
theorem head?_marked_true (hmark : p mark = false) (s : List α) :
    (marked p mark true s).head? ≠ some mark := by
  induction s with
  | nil => simp [marked]
  | cons x xs ih =>
    by_cases hx : p x = true
    · rw [marked, if_pos hx, List.head?_cons]
      intro h
      rw [Option.some_inj.mp h, hmark] at hx
      cases hx
    · rw [marked, if_neg hx, if_pos rfl]
      exact ih

/-! ## Joined words -/

theorem mem_intercalate {ws : List (List α)} {x : α} (h : x ∈ [mark].intercalate ws) :
    x = mark ∨ ∃ w ∈ ws, x ∈ w := by
  induction ws with
  | nil => cases h
  | cons w ws ih =>
    cases ws with
    | nil =>
      rw [List.intercalate_singleton] at h
      exact .inr ⟨w, by simp, h⟩
    | cons w' ws =>
      rw [List.intercalate_cons_cons, List.append_assoc, List.mem_append, List.mem_append] at h
      obtain h | h | h := h
      · exact .inr ⟨w, by simp, h⟩
      · exact .inl (List.mem_singleton.mp h)
      · obtain h | ⟨v, hv, hx⟩ := ih h
        · exact .inl h
        · exact .inr ⟨v, by simp [List.mem_cons.mp hv], hx⟩

section

variable {ws : List (List α)} (hws : ∀ w ∈ ws, w ≠ [] ∧ mark ∉ w)

include hws

/-- The joined words do not begin with the mark. -/
theorem head?_intercalate : ([mark].intercalate ws).head? ≠ some mark := by
  cases ws with
  | nil => simp [List.intercalate_nil]
  | cons w ws =>
    obtain ⟨hne, hmem⟩ := hws w (by simp)
    obtain ⟨x, xs, rfl⟩ := List.exists_cons_of_ne_nil hne
    cases ws with
    | nil =>
      rw [List.intercalate_singleton, List.head?_cons]
      intro h
      exact hmem (by simp [Option.some_inj.mp h])
    | cons w' ws =>
      rw [List.intercalate_cons_cons, List.cons_append, List.cons_append, List.head?_cons]
      intro h
      exact hmem (by simp [Option.some_inj.mp h])

theorem intercalate_ne_nil (hne : ws ≠ []) : [mark].intercalate ws ≠ [] := by
  obtain ⟨w, ws, rfl⟩ := List.exists_cons_of_ne_nil hne
  have hw := (hws w (by simp)).1
  cases ws with
  | nil => rwa [List.intercalate_singleton]
  | cons w' ws => simp [List.intercalate_cons_cons]

/-- The joined words do not end with the mark. -/
theorem getLast?_intercalate : ([mark].intercalate ws).getLast? ≠ some mark := by
  induction ws with
  | nil => simp [List.intercalate_nil]
  | cons w ws ih =>
    obtain ⟨hne, hmem⟩ := hws w (by simp)
    have hws' : ∀ w ∈ ws, w ≠ [] ∧ mark ∉ w := fun v hv => hws v (by simp [hv])
    cases ws with
    | nil =>
      rw [List.intercalate_singleton]
      exact fun h => hmem (List.mem_of_getLast? h)
    | cons w' ws =>
      have hnil := intercalate_ne_nil hws' (List.cons_ne_nil w' ws)
      rw [List.intercalate_cons_cons, List.getLast?_append_of_ne_nil _ hnil]
      exact ih hws'

/-- No two marks stand side by side between joined words. -/
theorem isChain_intercalate :
    ([mark].intercalate ws).IsChain fun x y => ¬ (x = mark ∧ y = mark) := by
  have hword : ∀ w : List α, mark ∉ w → w.IsChain fun x y => ¬ (x = mark ∧ y = mark) := by
    intro w hw
    rw [List.isChain_iff_getElem]
    intro i hi h
    exact hw (h.1 ▸ List.getElem_mem _)
  induction ws with
  | nil => simp [List.intercalate_nil]
  | cons w ws ih =>
    obtain ⟨hne, hmem⟩ := hws w (by simp)
    have hws' : ∀ w ∈ ws, w ≠ [] ∧ mark ∉ w := fun v hv => hws v (by simp [hv])
    cases ws with
    | nil =>
      rw [List.intercalate_singleton]
      exact hword w hmem
    | cons w' ws =>
      have hhead := head?_intercalate hws'
      rw [List.intercalate_cons_cons, List.append_assoc, List.isChain_append]
      refine ⟨hword w hmem, ?_, ?_⟩
      · rw [List.singleton_append, List.isChain_cons]
        refine ⟨fun y hy h => hhead ?_, ih hws'⟩
        rwa [h.2] at hy
      · intro x hx y _ h
        exact hmem (h.1 ▸ List.mem_of_getLast? hx)

/-- **Where the marks stand.** Each follows some of the words, and others follow it. -/
theorem getElem?_intercalate_eq_mark (i : ℕ) : ([mark].intercalate ws)[i]? = some mark ↔
    ∃ k, 0 < k ∧ k < ws.length ∧ ([mark].intercalate (ws.take k)).length = i := by
  induction ws generalizing i with
  | nil => simp [List.intercalate_nil]
  | cons w ws ih =>
    obtain ⟨hne, hmem⟩ := hws w (by simp)
    have hws' : ∀ w ∈ ws, w ≠ [] ∧ mark ∉ w := fun v hv => hws v (by simp [hv])
    cases ws with
    | nil =>
      rw [List.intercalate_singleton]
      refine iff_of_false (fun h => hmem (List.mem_of_getElem? h)) ?_
      rintro ⟨k, hk, hlt, -⟩
      rw [List.length_singleton] at hlt
      omega
    | cons w' ws =>
      have hlen : ∀ k, 0 < k → ([mark].intercalate ((w :: w' :: ws).take (k + 1))).length =
          w.length + 1 + ([mark].intercalate ((w' :: ws).take k)).length := by
        intro k hk
        have hne' : (w' :: ws).take k ≠ [] := by
          rw [Ne, List.take_eq_nil_iff]
          simp
          omega
        rw [List.take_succ_cons, List.intercalate_cons_of_ne_nil hne']
        simp
        omega
      rw [List.intercalate_cons_cons]
      constructor
      · intro h
        by_cases hi : i < w.length
        · rw [List.getElem?_append_left (by simp; omega), List.getElem?_append_left hi] at h
          exact absurd (List.mem_of_getElem? h) hmem
        · by_cases heq : i = w.length
          · exact ⟨1, by omega, by simp, by simp [List.intercalate_singleton, heq]⟩
          · rw [List.getElem?_append_right (by simp; omega), ih hws'] at h
            obtain ⟨k, hk, hlt, hlength⟩ := h
            refine ⟨k + 1, by omega, by simpa using hlt, ?_⟩
            rw [hlen k hk, hlength]
            simp
            omega
      · rintro ⟨k, hk, hlt, rfl⟩
        obtain ⟨k, rfl⟩ : ∃ j, k = j + 1 := ⟨k - 1, by omega⟩
        by_cases hzero : k = 0
        · subst hzero
          simp [List.intercalate_singleton]
        · rw [hlen k (by omega), List.getElem?_append_right (by simp), ih hws']
          exact ⟨k, by omega, by simpa using hlt, by simp⟩

end

/-- **Marks at the ends.** Without them, the list is its words joined with the mark. -/
theorem trimmed_marked [DecidableEq α] (hmark : p mark = false) (s : List α) :
    ((marked p mark false s).dropWhile (· = mark)).rdropWhile (· = mark) =
      [mark].intercalate (words p s) := by
  have hkeep : ∀ l : List α, l.head? ≠ some mark → l.dropWhile (· = mark) = l := by
    intro l hl
    cases l with
    | nil => rfl
    | cons x xs =>
      refine List.dropWhile_cons_of_neg ?_
      simpa using hl
  have hdrop : (marked p mark false s).dropWhile (· = mark) = marked p mark true s := by
    cases s with
    | nil => rfl
    | cons x xs =>
      have hhead := head?_marked_true hmark (x :: xs)
      by_cases hx : p x = true
      · rw [marked, if_pos hx] at hhead ⊢
        rw [marked, if_pos hx, hkeep _ hhead]
      · rw [marked, if_neg hx, if_pos rfl] at hhead
        rw [marked, if_neg hx, if_neg (by simp), marked, if_neg hx, if_pos rfl,
          List.dropWhile_cons_of_pos (by simp), hkeep _ hhead]
  obtain ⟨tail, htail, heq⟩ : ∃ tail, (∀ x ∈ tail, x = mark) ∧
      marked p mark true s = [mark].intercalate (words p s) ++ tail := marked_true s
  have hws : ∀ w ∈ words p s, w ≠ [] ∧ mark ∉ w := fun w hw =>
    ⟨ne_nil_of_mem_words hw, fun h => by
      rw [forall_of_mem_words s w hw mark h] at hmark
      cases hmark⟩
  have hlast := getLast?_intercalate hws
  rw [hdrop, heq, List.rdropWhile, List.reverse_append,
    List.dropWhile_append_of_pos (by simpa using htail), hkeep _ (by simpa using hlast),
    List.reverse_reverse]

end Words
