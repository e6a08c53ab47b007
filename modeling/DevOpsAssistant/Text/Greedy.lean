import DevOpsAssistant.Text.Matching

/-!
# The end a matcher takes

A matcher takes the first end it finds, which for a repetition of characters is the longest.

* `Regex.exists_head?_of_seq`: the first end of a sequence.
* `head?_star_char`: a repetition of characters takes all of them.
* `Regex.segments`, `Regex.segmentsOf`: segments between separators; **`head?_segments`**: they are taken as
  far as they go.
-/

namespace Regex

variable {r s : Regex} {x y z : Cursor} {p : Char → Bool} {sep : Char}

/-! ## Sequences -/

theorem exists_head?_of_flatMap {α β : Type} {f : α → List β} {b : β} : ∀ {as : List α},
    (as.flatMap f).head? = some b → ∃ a ∈ as, (f a).head? = some b
  | a :: as, h => by
    rw [List.flatMap_cons, List.head?_append] at h
    cases ha : (f a).head? with
    | some c =>
      rw [ha] at h
      exact ⟨a, List.mem_cons_self, ha.trans h⟩
    | none =>
      rw [ha] at h
      obtain ⟨a', ha', hb⟩ := exists_head?_of_flatMap h
      exact ⟨a', List.mem_cons_of_mem a ha', hb⟩

/-- The first end of a sequence is a first end of its second part. -/
theorem exists_head?_of_seq (h : (ends (seq r s) x).head? = some y) :
    ∃ z ∈ ends r x, (ends s z).head? = some y := exists_head?_of_flatMap h

theorem head?_seq (hz : (ends r x).head? = some z) (hy : (ends s z).head? = some y) :
    (ends (seq r s) x).head? = some y := by
  obtain ⟨zs, hzs⟩ := List.head?_eq_some_iff.mp hz
  unfold ends
  rw [hzs, List.flatMap_cons, List.head?_append, hy]
  rfl

/-! ## Repetitions -/

section Repetitions

variable {step : Cursor → List Cursor} {n : ℕ}

theorem repeated_ne_nil : repeated step n x ≠ [] := by
  cases n with
  | zero => exact List.cons_ne_nil _ _
  | succ n => exact List.append_ne_nil_of_right_ne_nil _ (List.cons_ne_nil _ _)

theorem repeated_succ : repeated step (n + 1) x =
    ((step x).filter fun y => y.rest.length < x.rest.length).flatMap (repeated step n) ++ [x] := rfl

/-- A repetition goes on after its first step. -/
theorem head?_repeated_of_step (hz : (step x).head? = some z) (hlt : z.rest.length < x.rest.length) :
    (repeated step (n + 1) x).head? = (repeated step n z).head? := by
  obtain ⟨zs, hzs⟩ := List.head?_eq_some_iff.mp hz
  rw [repeated_succ, hzs, List.filter_cons, if_pos (decide_eq_true hlt), List.flatMap_cons,
    List.append_assoc, List.head?_append]
  cases h : repeated step n z with
  | nil => exact absurd h repeated_ne_nil
  | cons w ws => rfl

theorem head?_repeated_of_nil (h : step x = []) : (repeated step n x).head? = some x := by
  cases n with
  | zero => rfl
  | succ n =>
    rw [repeated_succ, h]
    rfl

end Repetitions

theorem ends_char_cons {b cs : List Char} {c : Char} {g : List (ℕ × List Char)} :
    ends (char p) ⟨b, c :: cs, g⟩ = if p c then [⟨c :: b, cs, g⟩] else [] := rfl

theorem head?_repeated_char : ∀ {cs b : List Char} {n : ℕ} {g : List (ℕ × List Char)}, cs.length ≤ n →
    (repeated (ends (char p)) n ⟨b, cs, g⟩).head? =
      some ⟨(cs.takeWhile p).reverse ++ b, cs.dropWhile p, g⟩
  | [], b, n, g, _ => head?_repeated_of_nil rfl
  | c :: cs, b, n, g, hn => by
    cases n with
    | zero => simp at hn
    | succ n =>
      by_cases hc : p c = true
      · have hstep : (ends (char p) ⟨b, c :: cs, g⟩).head? = some ⟨c :: b, cs, g⟩ := by
          rw [ends_char_cons, if_pos hc]
          rfl
        rw [head?_repeated_of_step hstep (Nat.lt_succ_self _),
          head?_repeated_char (Nat.le_of_succ_le_succ hn), List.takeWhile_cons_of_pos hc,
          List.dropWhile_cons_of_pos hc]
        simp
      · rw [List.takeWhile_cons_of_neg hc, List.dropWhile_cons_of_neg hc]
        refine head?_repeated_of_nil ?_
        rw [ends_char_cons, if_neg hc]

/-- **A repetition of characters** takes all of them. -/
theorem head?_star_char {cs b : List Char} {g : List (ℕ × List Char)} :
    (ends (star (char p)) ⟨b, cs, g⟩).head? =
      some ⟨(cs.takeWhile p).reverse ++ b, cs.dropWhile p, g⟩ :=
  head?_repeated_char (Nat.le_refl _)

theorem head?_plus_char {cs b : List Char} {c : Char} {g : List (ℕ × List Char)} (hc : p c = true) :
    (ends (plus (char p)) ⟨b, c :: cs, g⟩).head? =
      some ⟨((c :: cs).takeWhile p).reverse ++ b, (c :: cs).dropWhile p, g⟩ := by
  have hfirst : (ends (char p) ⟨b, c :: cs, g⟩).head? = some ⟨c :: b, cs, g⟩ := by
    rw [ends_char_cons, if_pos hc]
    rfl
  rw [plus, head?_seq hfirst head?_star_char, List.takeWhile_cons_of_pos hc,
    List.dropWhile_cons_of_pos hc]
  simp

theorem ends_plus_char_of_head {cs b : List Char} {g : List (ℕ × List Char)}
    (h : cs.head?.any p = false) : ends (plus (char p)) ⟨b, cs, g⟩ = [] := by
  cases cs with
  | nil => rfl
  | cons c cs =>
    rw [plus, ends, ends_char_cons, if_neg (by simpa using h)]
    rfl

/-! ## Segments -/

/-- `[p]+(?:sep[p]+)*`. -/
def segments (p : Char → Bool) (sep : Char) : Regex :=
  seq (plus (char p)) (star (seq (lit [sep]) (plus (char p))))

/-- The characters up to the end of the segments, after a first one. -/
def segmentsFrom (p : Char → Bool) (sep : Char) : List Char → List Char
  | [] => []
  | c :: cs =>
    if p c then c :: segmentsFrom p sep cs
    else if c = sep ∧ cs.head?.any p then c :: segmentsFrom p sep cs
    else []

/-- The segments a text begins with. -/
def segmentsOf (p : Char → Bool) (sep : Char) (cs : List Char) : List Char :=
  if cs.head?.any p then segmentsFrom p sep cs else []

/-- Segments end where neither a character of theirs nor a separator follows. -/
theorem segmentsFrom_append {q : Char → Bool} {post : List Char}
    (hpost : ∀ c ∈ post.head?, p c = false ∧ c ≠ sep) : ∀ {cs : List Char}, (∀ c ∈ cs, p c = q c) →
      segmentsFrom p sep (cs ++ post) = segmentsFrom q sep cs
  | [], _ => by
    cases post with
    | nil => rfl
    | cons c post =>
      obtain ⟨hc, hne⟩ := hpost c rfl
      rw [List.nil_append, segmentsFrom, segmentsFrom, if_neg (by simp [hc]), if_neg (by simp [hne])]
  | c :: cs, h => by
    rw [List.forall_mem_cons] at h
    have hhead : (cs ++ post).head?.any p = cs.head?.any q := by
      cases cs with
      | cons d cs => exact h.2 d List.mem_cons_self
      | nil =>
        cases post with
        | nil => rfl
        | cons c post => exact (hpost c rfl).1
    rw [List.cons_append, segmentsFrom, segmentsFrom, h.1, hhead, segmentsFrom_append hpost h.2]

theorem segmentsOf_append {q : Char → Bool} {cs post : List Char}
    (hpost : ∀ c ∈ post.head?, p c = false ∧ c ≠ sep) (h : ∀ c ∈ cs, p c = q c) (hne : cs ≠ []) :
    segmentsOf p sep (cs ++ post) = segmentsOf q sep cs := by
  obtain ⟨c, cs, rfl⟩ := List.exists_cons_of_ne_nil hne
  unfold segmentsOf
  rw [segmentsFrom_append hpost h, List.cons_append, List.head?_cons, List.head?_cons,
    Option.any_some, Option.any_some, h c List.mem_cons_self]

theorem segmentsFrom_eq (cs : List Char) :
    segmentsFrom p sep cs = cs.takeWhile p ++ segmentsFrom p sep (cs.dropWhile p) := by
  induction cs with
  | nil => rfl
  | cons c cs ih =>
    by_cases hc : p c = true
    · rw [segmentsFrom, if_pos hc, List.takeWhile_cons_of_pos hc, List.dropWhile_cons_of_pos hc,
        List.cons_append, ← ih]
    · rw [List.takeWhile_cons_of_neg hc, List.dropWhile_cons_of_neg hc, List.nil_append]

theorem head?_dropWhile_any (cs : List Char) : (cs.dropWhile p).head?.any p = false := by
  have h := List.head?_dropWhile_not p cs
  cases hd : (cs.dropWhile p).head? with
  | none => rfl
  | some c =>
    rw [hd] at h
    simpa using h

/-- More segments are taken as far as they go. -/
theorem head?_repeated_segments : ∀ {sep : Char} {n : ℕ} {cs b : List Char}
    {g : List (ℕ × List Char)}, p sep = false → cs.length ≤ n → cs.head?.any p = false →
      ∃ rest, cs = segmentsFrom p sep cs ++ rest ∧
        (repeated (ends (seq (lit [sep]) (plus (char p)))) n ⟨b, cs, g⟩).head? =
          some ⟨(segmentsFrom p sep cs).reverse ++ b, rest, g⟩
  | _, n, [], b, g, _, _, _ => ⟨[], rfl, head?_repeated_of_nil rfl⟩
  | _, 0, c :: cs, b, g, _, hn, _ => by simp at hn
  | sep, n + 1, c :: cs, b, g, hsep, hn, hhead => by
    have hc : ¬ p c = true := by simpa using hhead
    by_cases hnext : c = sep ∧ cs.head?.any p = true
    · obtain ⟨rfl, hp⟩ := hnext
      obtain ⟨d, ds, rfl⟩ : ∃ d ds, cs = d :: ds := by
        cases cs with
        | nil => cases hp
        | cons d ds => exact ⟨d, ds, rfl⟩
      have hd : p d = true := by simpa using hp
      have hlit : (ends (lit [c]) ⟨b, c :: d :: ds, g⟩).head? = some ⟨c :: b, d :: ds, g⟩ := by
        simp [lit, concat, ends]
      have hstep := head?_seq hlit (head?_plus_char (p := p) hd)
      have hle : ((d :: ds).dropWhile p).length ≤ n :=
        Nat.le_trans (List.dropWhile_suffix p).length_le (Nat.le_of_succ_le_succ hn)
      obtain ⟨rest, hrest, hends⟩ := head?_repeated_segments hsep hle (head?_dropWhile_any (d :: ds))
        (b := ((d :: ds).takeWhile p).reverse ++ c :: b) (g := g)
      have hfrom : segmentsFrom p c (c :: d :: ds) =
          c :: ((d :: ds).takeWhile p ++ segmentsFrom p c ((d :: ds).dropWhile p)) := by
        rw [segmentsFrom, if_neg hc, if_pos ⟨rfl, hp⟩, segmentsFrom_eq]
      refine ⟨rest, ?_, ?_⟩
      · rw [hfrom, List.cons_append, List.append_assoc, ← hrest, List.takeWhile_append_dropWhile]
      · rw [head?_repeated_of_step hstep, hends, hfrom]
        · simp
        · have := (List.dropWhile_suffix (l := d :: ds) p).length_le
          simp only [List.length_cons] at this ⊢
          omega
    · have hfrom : segmentsFrom p sep (c :: cs) = [] := by
        rw [segmentsFrom, if_neg hc, if_neg hnext]
      rw [hfrom]
      refine ⟨c :: cs, rfl, head?_repeated_of_nil ?_⟩
      by_cases hcs : c = sep
      · have hp : cs.head?.any p = false := by simpa [hcs] using hnext
        have hlit : ends (lit [sep]) ⟨b, c :: cs, g⟩ = [⟨c :: b, cs, g⟩] := by
          simp [lit, concat, ends, hcs]
        rw [ends, hlit, List.flatMap_cons, ends_plus_char_of_head hp]
        rfl
      · have hlit : ends (lit [sep]) ⟨b, c :: cs, g⟩ = [] := by
          simp [lit, concat, ends, hcs]
        rw [ends, hlit]
        rfl

theorem head?_star_segments (hsep : p sep = false) {cs b : List Char} {g : List (ℕ × List Char)}
    (h : cs.head?.any p = false) : ∃ rest, cs = segmentsFrom p sep cs ++ rest ∧
      (ends (star (seq (lit [sep]) (plus (char p)))) ⟨b, cs, g⟩).head? =
        some ⟨(segmentsFrom p sep cs).reverse ++ b, rest, g⟩ :=
  head?_repeated_segments hsep (Nat.le_refl _) h

/-- **Segments are taken as far as they go.** -/
theorem head?_segments (hsep : p sep = false) {cs b : List Char} {g : List (ℕ × List Char)}
    (h : (ends (segments p sep) ⟨b, cs, g⟩).head? = some y) : ∃ rest,
      cs = segmentsOf p sep cs ++ rest ∧ y = ⟨(segmentsOf p sep cs).reverse ++ b, rest, g⟩ := by
  by_cases hp : cs.head?.any p = true
  · obtain ⟨c, cs, rfl⟩ : ∃ d ds, cs = d :: ds := by
      cases cs with
      | nil => cases hp
      | cons d ds => exact ⟨d, ds, rfl⟩
    have hc : p c = true := by simpa using hp
    obtain ⟨rest, hrest, hends⟩ := head?_star_segments hsep (head?_dropWhile_any (p := p) (c :: cs))
      (b := ((c :: cs).takeWhile p).reverse ++ b) (g := g)
    rw [segments, head?_seq (head?_plus_char hc) hends] at h
    have hof : segmentsOf p sep (c :: cs) =
        (c :: cs).takeWhile p ++ segmentsFrom p sep ((c :: cs).dropWhile p) := by
      rw [segmentsOf, if_pos hp, segmentsFrom_eq]
    refine ⟨rest, ?_, ?_⟩
    · rw [hof, List.append_assoc, ← hrest, List.takeWhile_append_dropWhile]
    · rw [hof, ← Option.some.inj h]
      simp
  · rw [segments, ends, ends_plus_char_of_head (by simpa using hp)] at h
    cases h

end Regex
