import DevOpsAssistant.Text.Regex
import Mathlib.Data.List.Forall2

/-!
# What regular expressions match

The texts an expression matches between two others, without the order in which a matcher tries them
and without groups.

* `Regex.Matches`: the text `t`, after `b` read backwards and before `a`.
* **`exists_mem_ends`**: a matcher can end after exactly the texts that match.
* `matches_concat`, `matches_lit`, `matches_star_char`, …: expressions made of others.
* `Regex.Local`: expressions without anchors; **`Matches.congr`**: their surroundings count only for
  word boundaries. `Regex.Forward`, `Matches.congr_before`: so does what stands before some others.
* `Regex.Within`: the characters an expression can match.
-/

namespace Regex

/-- Repetitions of `M`, one after the other. -/
inductive Repeats (M : List Char → List Char → List Char → Prop) :
    List Char → List Char → List Char → Prop
  | nil (b a : List Char) : Repeats M b [] a
  | cons {b u v a : List Char} (head : M b u (v ++ a)) (tail : Repeats M (u.reverse ++ b) v a) :
      Repeats M b (u ++ v) a

/-- The expression matches `t` after the characters `b`, the last one first, and before `a`. -/
def Matches : Regex → List Char → List Char → List Char → Prop
  | empty, _, t, _ => t = []
  | char p, _, t, _ => ∃ c, p c = true ∧ t = [c]
  | seq r s, b, t, a => ∃ u v, t = u ++ v ∧ r.Matches b u (v ++ a) ∧ s.Matches (u.reverse ++ b) v a
  | alt r s, b, t, a => r.Matches b t a ∨ s.Matches b t a
  | star r, b, t, a => Repeats r.Matches b t a
  | group _ r, b, t, a => r.Matches b t a
  | lineStart, b, t, _ => t = [] ∧ b.head?.all (· == '\n') = true
  | lineEnd, _, t, a => t = [] ∧ a.head?.all (· == '\n') = true
  | textStart, b, t, _ => t = [] ∧ b = []
  | textEnd, _, t, a => t = [] ∧ (a = [] ∨ a = ['\n'])
  | wordBoundary isWord, b, t, a => t = [] ∧ b.head?.any isWord ≠ a.head?.any isWord
  | notBehind n r, b, t, a =>
    t = [] ∧ ¬ (n ≤ b.length ∧ r.Matches (b.drop n) (b.take n).reverse a)

/-- The position `y` is after the text `t` that follows the position `x`. -/
structure Cursor.Past (x y : Cursor) (t : List Char) : Prop where
  rest : x.rest = t ++ y.rest
  before : y.before = t.reverse ++ x.before

theorem Cursor.Past.refl (x : Cursor) : x.Past x [] := ⟨rfl, rfl⟩

theorem Cursor.Past.trans {x y z : Cursor} {t u : List Char} (h : x.Past y t) (h' : y.Past z u) :
    x.Past z (t ++ u) := by
  refine ⟨?_, ?_⟩
  · rw [h.rest, h'.rest, List.append_assoc]
  · rw [h'.before, h.before, List.reverse_append, List.append_assoc]

/-! ## What a matcher finds -/

/-- Where repetitions can end. -/
theorem repeated_sound {M : List Char → List Char → List Char → Prop} {step : Cursor → List Cursor}
    (hstep : ∀ x, ∀ y ∈ step x, ∃ t, x.Past y t ∧ M x.before t y.rest) :
    ∀ (n : ℕ) (x : Cursor), ∀ y ∈ repeated step n x,
      ∃ t, x.Past y t ∧ Repeats M x.before t y.rest := by
  intro n
  induction n with
  | zero =>
    intro x y hy
    cases List.mem_singleton.mp hy
    exact ⟨[], .refl _, .nil _ _⟩
  | succ n ih =>
    intro x y hy
    rcases List.mem_append.mp hy with hy | hy
    · obtain ⟨z, hz, hy⟩ := List.mem_flatMap.mp hy
      obtain ⟨u, hu, hhead⟩ := hstep x z (List.mem_filter.mp hz).1
      obtain ⟨v, hv, htail⟩ := ih z y hy
      refine ⟨u ++ v, hu.trans hv, .cons ?_ ?_⟩
      · rw [← hv.rest]
        exact hhead
      · rw [← hu.before]
        exact htail
    · cases List.mem_singleton.mp hy
      exact ⟨[], .refl _, .nil _ _⟩

/-- Repetitions that match can be found: those that do not move on are left out. -/
theorem repeated_complete {M : List Char → List Char → List Char → Prop}
    {step : Cursor → List Cursor}
    (hstep : ∀ b t a g, M b t a → ∃ g', ⟨t.reverse ++ b, a, g'⟩ ∈ step ⟨b, t ++ a, g⟩)
    {b t a : List Char} (h : Repeats M b t a) : ∀ (n : ℕ) (g : List (ℕ × List Char)),
      (t ++ a).length ≤ n → ∃ g', ⟨t.reverse ++ b, a, g'⟩ ∈ repeated step n ⟨b, t ++ a, g⟩ := by
  induction h with
  | nil b a =>
    intro n g _
    refine ⟨g, ?_⟩
    cases n with
    | zero => exact List.mem_singleton_self _
    | succ n => exact List.mem_append_right _ (List.mem_singleton_self _)
  | @cons b u v a head tail ih =>
    intro n g hn
    cases u with
    | nil => exact ih n g hn
    | cons c u =>
      obtain ⟨g₁, hhead⟩ := hstep b (c :: u) (v ++ a) g head
      cases n with
      | zero => simp at hn
      | succ n =>
        obtain ⟨g₂, htail⟩ := ih n g₁ (by simp at hn ⊢; omega)
        refine ⟨g₂, List.mem_append_left _ (List.mem_flatMap.mpr
          ⟨⟨(c :: u).reverse ++ b, v ++ a, g₁⟩, List.mem_filter.mpr ⟨?_, ?_⟩, ?_⟩)⟩
        · rw [List.append_assoc]
          exact hhead
        · simp only [List.length_append, List.length_cons, decide_eq_true_eq]
          omega
        · rw [List.reverse_append, List.append_assoc]
          exact htail

/-- Both directions, for one expression. -/
structure Faithful (r : Regex) : Prop where
  sound : ∀ x, ∀ y ∈ ends r x, ∃ t, x.Past y t ∧ r.Matches x.before t y.rest
  complete : ∀ b t a g, r.Matches b t a →
    ∃ g', ⟨t.reverse ++ b, a, g'⟩ ∈ ends r ⟨b, t ++ a, g⟩

/-- An expression that matches the empty text, where `P` holds. -/
theorem Faithful.anchor {r : Regex} {P : List Char → List Char → Prop}
    (hyes : ∀ x, P x.before x.rest → ends r x = [x]) (hno : ∀ x, ¬ P x.before x.rest → ends r x = [])
    (hmatches : ∀ b t a, r.Matches b t a ↔ t = [] ∧ P b a) : Faithful r where
  sound x y hy := by
    by_cases h : P x.before x.rest
    · rw [hyes x h] at hy
      cases List.mem_singleton.mp hy
      exact ⟨[], .refl _, (hmatches _ _ _).mpr ⟨rfl, h⟩⟩
    · rw [hno x h] at hy
      cases hy
  complete b t a g h := by
    obtain ⟨rfl, hP⟩ := (hmatches _ _ _).mp h
    refine ⟨g, ?_⟩
    change ⟨b, a, g⟩ ∈ ends r ⟨b, a, g⟩
    rw [hyes ⟨b, a, g⟩ hP]
    exact List.mem_singleton_self _

theorem Faithful.seq {r s : Regex} (hr : Faithful r) (hs : Faithful s) : Faithful (seq r s) where
  sound x y hy := by
    obtain ⟨z, hz, hy⟩ := mem_ends_seq.mp hy
    obtain ⟨u, hu, hmr⟩ := hr.sound x z hz
    obtain ⟨v, hv, hms⟩ := hs.sound z y hy
    refine ⟨u ++ v, hu.trans hv, u, v, rfl, ?_, ?_⟩
    · rw [← hv.rest]
      exact hmr
    · rw [← hu.before]
      exact hms
  complete b t a g h := by
    obtain ⟨u, v, rfl, hmr, hms⟩ := h
    obtain ⟨g₁, h₁⟩ := hr.complete b u (v ++ a) g hmr
    obtain ⟨g₂, h₂⟩ := hs.complete (u.reverse ++ b) v a g₁ hms
    refine ⟨g₂, mem_ends_seq.mpr ⟨⟨u.reverse ++ b, v ++ a, g₁⟩, ?_, ?_⟩⟩
    · rw [List.append_assoc]
      exact h₁
    · rw [List.reverse_append, List.append_assoc]
      exact h₂

theorem Faithful.notBehind {n : ℕ} {r : Regex} (hr : Faithful r) : Faithful (notBehind n r) := by
  have hbehind : ∀ b a g, n ≤ b.length →
      ((ends r (Cursor.back ⟨b, a, g⟩ n)).any (fun y => decide (y.rest.length = a.length)) = true ↔
        r.Matches (b.drop n) (b.take n).reverse a) := by
    intro b a g hn
    rw [List.any_eq_true]
    constructor
    · rintro ⟨y, hy, hlength⟩
      obtain ⟨t, ht, hm⟩ := hr.sound _ y hy
      have hrest : (b.take n).reverse ++ a = t ++ y.rest := ht.rest
      obtain ⟨rfl, rfl⟩ := List.append_inj' hrest (of_decide_eq_true hlength).symm
      exact hm
    · intro h
      obtain ⟨g', hg⟩ := hr.complete _ _ _ g h
      exact ⟨_, hg, decide_eq_true rfl⟩
  refine .anchor (P := fun b a => ¬ (n ≤ b.length ∧ r.Matches (b.drop n) (b.take n).reverse a)) ?_ ?_
    fun _ _ _ => Iff.rfl
  · intro x h
    rw [ends, if_neg]
    exact fun h' => h ⟨h'.1, (hbehind x.before x.rest x.groups h'.1).mp h'.2⟩
  · intro x h
    rw [ends, if_pos]
    obtain ⟨hn, hm⟩ := not_not.mp h
    exact ⟨hn, (hbehind x.before x.rest x.groups hn).mpr hm⟩

/-- **A matcher finds what matches.** -/
theorem faithful : ∀ r : Regex, Faithful r
  | empty => .anchor (P := fun _ _ => True) (fun _ _ => rfl) (fun _ h => absurd trivial h)
      fun _ _ _ => (and_true _).symm.to_iff
  | char p => {
      sound := fun x y hy => by
        unfold ends at hy
        split at hy
        · cases hy
        · next c cs hrest =>
          split at hy
          · next hp =>
            cases List.mem_singleton.mp hy
            exact ⟨[c], ⟨hrest, rfl⟩, c, hp, rfl⟩
          · cases hy
      complete := fun b t a g h => by
        obtain ⟨c, hp, rfl⟩ := h
        exact ⟨g, mem_ends_char hp⟩ }
  | seq r s => (faithful r).seq (faithful s)
  | alt r s => {
      sound := fun x y hy => by
        rcases mem_ends_alt.mp hy with hy | hy
        · obtain ⟨t, ht, hm⟩ := (faithful r).sound x y hy
          exact ⟨t, ht, .inl hm⟩
        · obtain ⟨t, ht, hm⟩ := (faithful s).sound x y hy
          exact ⟨t, ht, .inr hm⟩
      complete := fun b t a g h => by
        rcases h with h | h
        · obtain ⟨g', hg⟩ := (faithful r).complete b t a g h
          exact ⟨g', mem_ends_alt.mpr (.inl hg)⟩
        · obtain ⟨g', hg⟩ := (faithful s).complete b t a g h
          exact ⟨g', mem_ends_alt.mpr (.inr hg)⟩ }
  | star r => {
      sound := fun x y hy => repeated_sound (faithful r).sound _ x y hy
      complete := fun b t a g h => repeated_complete (faithful r).complete h _ g (Nat.le_refl _) }
  | group n r => {
      sound := fun x y hy => by
        obtain ⟨z, hz, rfl⟩ := List.mem_map.mp hy
        obtain ⟨t, ht, hm⟩ := (faithful r).sound x z hz
        exact ⟨t, ⟨ht.rest, ht.before⟩, hm⟩
      complete := fun b t a g h => by
        obtain ⟨g', hg⟩ := (faithful r).complete b t a g h
        exact ⟨_, List.mem_map.mpr ⟨_, hg, rfl⟩⟩ }
  | lineStart => .anchor (P := fun b _ => b.head?.all (· == '\n') = true) (fun _ h => if_pos h)
      (fun _ h => if_neg h) fun _ _ _ => Iff.rfl
  | lineEnd => .anchor (P := fun _ a => a.head?.all (· == '\n') = true) (fun _ h => if_pos h)
      (fun _ h => if_neg h) fun _ _ _ => Iff.rfl
  | textStart => .anchor (P := fun b _ => b = []) (fun _ h => if_pos h) (fun _ h => if_neg h)
      fun _ _ _ => Iff.rfl
  | textEnd => .anchor (P := fun _ a => a = [] ∨ a = ['\n']) (fun _ h => if_pos h)
      (fun _ h => if_neg h) fun _ _ _ => Iff.rfl
  | wordBoundary isWord => .anchor (P := fun b a => b.head?.any isWord ≠ a.head?.any isWord)
      (fun _ h => if_pos h) (fun _ h => if_neg h) fun _ _ _ => Iff.rfl
  | notBehind _ r => (faithful r).notBehind

/-- **Positions where a matcher can end** are those after texts that match. -/
theorem exists_mem_ends {r : Regex} {b t a : List Char} (g : List (ℕ × List Char)) :
    (∃ g', ⟨t.reverse ++ b, a, g'⟩ ∈ ends r ⟨b, t ++ a, g⟩) ↔ r.Matches b t a := by
  constructor
  · rintro ⟨g', h⟩
    obtain ⟨u, hu, hm⟩ := (faithful r).sound _ _ h
    have hut : t = u := List.append_cancel_right hu.rest
    exact hut ▸ hm
  · exact (faithful r).complete b t a g

/-- An expression is found if some part of the text matches. -/
theorem search_isSome_iff {r : Regex} {text : List Char} : (r.search text).isSome = true ↔
    ∃ b t a, text = b.reverse ++ t ++ a ∧ r.Matches b t a := by
  rw [search_isSome]
  constructor
  · rintro ⟨pre, post, rfl, hne⟩
    obtain ⟨y, hy⟩ := List.exists_mem_of_ne_nil _ hne
    obtain ⟨t, ht, hm⟩ := (faithful r).sound _ y hy
    have hpost : post = t ++ y.rest := ht.rest
    exact ⟨pre.reverse, t, y.rest, by simp [hpost], hm⟩
  · rintro ⟨b, t, a, rfl, hm⟩
    obtain ⟨g, hg⟩ := (faithful r).complete b t a [] hm
    refine ⟨b.reverse, t ++ a, by simp, ?_⟩
    rw [List.reverse_reverse]
    exact List.ne_nil_of_mem hg

/-! ## Expressions made of others -/

section Derived

variable {r s : Regex} {rs : List Regex} {p : Char → Bool} {b t a : List Char}

theorem matches_concat_cons : (concat (r :: rs)).Matches b t a ↔
    ∃ u v, t = u ++ v ∧ r.Matches b u (v ++ a) ∧ (concat rs).Matches (u.reverse ++ b) v a := by
  cases rs with
  | nil =>
    constructor
    · exact fun h => ⟨t, [], by simp, by simpa [concat] using h, rfl⟩
    · rintro ⟨u, v, rfl, h, rfl⟩
      simpa [concat] using h
  | cons s rs => exact Iff.rfl

@[simp] theorem matches_concat_nil : (concat []).Matches b t a ↔ t = [] := Iff.rfl

theorem matches_concat_append {ss : List Regex} : (concat (rs ++ ss)).Matches b t a ↔
    ∃ u v, t = u ++ v ∧ (concat rs).Matches b u (v ++ a) ∧
      (concat ss).Matches (u.reverse ++ b) v a := by
  induction rs generalizing b t with
  | nil =>
    constructor
    · exact fun h => ⟨[], t, rfl, rfl, h⟩
    · rintro ⟨u, v, rfl, rfl, h⟩
      exact h
  | cons r rs ih =>
    rw [List.cons_append, matches_concat_cons]
    constructor
    · rintro ⟨u, v, rfl, hr, h⟩
      obtain ⟨v₁, v₂, rfl, h₁, h₂⟩ := ih.mp h
      refine ⟨u ++ v₁, v₂, by simp, matches_concat_cons.mpr ⟨u, v₁, rfl, ?_, h₁⟩, ?_⟩
      · rwa [List.append_assoc] at hr
      · rwa [List.reverse_append, List.append_assoc]
    · rintro ⟨w, v₂, rfl, h, h₂⟩
      obtain ⟨u, v₁, rfl, hr, h₁⟩ := matches_concat_cons.mp h
      refine ⟨u, v₁ ++ v₂, by simp, ?_, ih.mpr ⟨v₁, v₂, rfl, h₁, ?_⟩⟩
      · rwa [List.append_assoc]
      · rwa [List.reverse_append, List.append_assoc] at h₂

/-- A sequence of characters, each of which satisfies its condition. -/
theorem matches_chars {f : Char → Char → Bool} : ∀ {cs b t : List Char},
    (concat (cs.map fun c => char (f c))).Matches b t a ↔ List.Forall₂ (fun c d => f c d = true) cs t
  | [], b, t => by simp
  | c :: cs, b, t => by
    rw [List.map_cons, matches_concat_cons]
    constructor
    · rintro ⟨u, v, rfl, ⟨d, hd, rfl⟩, h⟩
      exact .cons hd (matches_chars.mp h)
    · intro h
      cases h with
      | @cons _ d _ v hd hv => exact ⟨[d], v, rfl, ⟨d, hd, rfl⟩, matches_chars.mpr hv⟩

@[simp] theorem matches_lit {cs : List Char} : (lit cs).Matches b t a ↔ t = cs := by
  rw [lit, matches_chars]
  constructor
  · intro h
    induction h with
    | nil => rfl
    | cons hd _ ih => rw [ih, eq_of_beq hd]
  · rintro rfl
    exact List.forall₂_same.mpr fun c _ => beq_self_eq_true c

theorem matches_ilit {cs : List Char} :
    (ilit cs).Matches b t a ↔ List.Forall₂ (fun c d => sameLetter c d = true) cs t :=
  matches_chars

@[simp] theorem matches_star_char : (star (char p)).Matches b t a ↔ ∀ c ∈ t, p c = true := by
  constructor
  · intro h
    change Repeats _ b t a at h
    induction h with
    | nil => exact fun _ h => nomatch h
    | cons head _ ih =>
      obtain ⟨c, hc, rfl⟩ := head
      simp only [List.cons_append, List.nil_append, List.mem_cons, forall_eq_or_imp]
      exact ⟨hc, ih⟩
  · intro h
    induction t generalizing b with
    | nil => exact .nil _ _
    | cons c t ih =>
      rw [List.forall_mem_cons] at h
      exact .cons (u := [c]) ⟨c, h.1, rfl⟩ (ih h.2)

@[simp] theorem matches_plus_char :
    (plus (char p)).Matches b t a ↔ t ≠ [] ∧ ∀ c ∈ t, p c = true := by
  constructor
  · rintro ⟨u, v, rfl, ⟨c, hc, rfl⟩, h⟩
    rw [matches_star_char] at h
    simp only [List.cons_append, List.nil_append, ne_eq, reduceCtorEq, not_false_eq_true,
      List.mem_cons, forall_eq_or_imp, true_and]
    exact ⟨hc, h⟩
  · rintro ⟨hne, h⟩
    cases t with
    | nil => exact absurd rfl hne
    | cons c t =>
      rw [List.forall_mem_cons] at h
      exact ⟨[c], t, rfl, ⟨c, h.1, rfl⟩, matches_star_char.mpr h.2⟩

@[simp] theorem matches_times_char {n : ℕ} :
    (times n (char p)).Matches b t a ↔ t.length = n ∧ ∀ c ∈ t, p c = true := by
  rw [times]
  induction n generalizing b t with
  | zero =>
    rw [List.replicate_zero, matches_concat_nil, List.length_eq_zero_iff]
    exact ⟨fun h => ⟨h, fun c hc => by simp [h] at hc⟩, And.left⟩
  | succ n ih =>
    rw [List.replicate_succ, matches_concat_cons]
    constructor
    · rintro ⟨u, v, rfl, ⟨c, hc, rfl⟩, h⟩
      obtain ⟨hlength, hall⟩ := ih.mp h
      refine ⟨by simp [hlength], ?_⟩
      simp only [List.cons_append, List.nil_append, List.mem_cons, forall_eq_or_imp]
      exact ⟨hc, hall⟩
    · rintro ⟨hlength, h⟩
      cases t with
      | nil => simp at hlength
      | cons c t =>
        rw [List.forall_mem_cons] at h
        exact ⟨[c], t, rfl, ⟨c, h.1, rfl⟩, ih.mpr ⟨by simpa using hlength, h.2⟩⟩

@[simp] theorem matches_opt : (opt r).Matches b t a ↔ r.Matches b t a ∨ t = [] := Iff.rfl

end Derived

/-! ## Surroundings -/

/-- The expression has no anchors, and its word boundaries are those of `isWord`. -/
def Local (isWord : Char → Bool) : Regex → Prop
  | empty | char _ => True
  | seq r s | alt r s => r.Local isWord ∧ s.Local isWord
  | star r | group _ r => r.Local isWord
  | wordBoundary w => w = isWord
  | _ => False

section Congr

variable {isWord : Char → Bool}

theorem head?_any_append {t a a' : List Char} (h : a.head?.any isWord = a'.head?.any isWord) :
    (t ++ a).head?.any isWord = (t ++ a').head?.any isWord := by
  cases t with
  | nil => exact h
  | cons c t => rfl

/-- **The surroundings** of an expression without anchors count only for word boundaries. -/
theorem Matches.congr : ∀ {r : Regex} {b b' t a a' : List Char}, r.Local isWord →
    b.head?.any isWord = b'.head?.any isWord → a.head?.any isWord = a'.head?.any isWord →
    r.Matches b t a → r.Matches b' t a'
  | empty, _, _, _, _, _, _, _, _, h => h
  | char _, _, _, _, _, _, _, _, _, h => h
  | seq r s, _, _, _, _, _, hr, hb, ha, h => by
    obtain ⟨u, v, rfl, h₁, h₂⟩ := h
    exact ⟨u, v, rfl, h₁.congr hr.1 hb (head?_any_append ha), h₂.congr hr.2 (head?_any_append hb) ha⟩
  | alt r s, _, _, _, _, _, hr, hb, ha, h => h.imp (·.congr hr.1 hb ha) (·.congr hr.2 hb ha)
  | star r, b, b', t, a, a', hr, hb, ha, h => by
    change Repeats _ b t a at h
    change Repeats _ b' t a'
    induction h generalizing b' with
    | nil => exact .nil _ _
    | cons head tail ih =>
      exact .cons (head.congr hr hb (head?_any_append ha)) (ih _ (head?_any_append hb) ha)
  | group _ r, _, _, _, _, _, hr, hb, ha, h => Matches.congr (r := r) hr hb ha h
  | wordBoundary w, _, _, _, _, _, hr, hb, ha, h => by
    obtain ⟨rfl, h⟩ := h
    cases (show w = isWord from hr)
    exact ⟨rfl, by rw [← hb, ← ha]; exact h⟩

/-- The expression does not look behind, word boundaries of `isWord` apart. -/
def Forward (isWord : Char → Bool) : Regex → Prop
  | empty | char _ | lineEnd | textEnd => True
  | seq r s | alt r s => r.Forward isWord ∧ s.Forward isWord
  | star r | group _ r => r.Forward isWord
  | wordBoundary w => w = isWord
  | _ => False

theorem Local.forward : ∀ {r : Regex}, r.Local isWord → r.Forward isWord
  | empty, _ => trivial
  | char _, _ => trivial
  | seq _ _, h => ⟨h.1.forward, h.2.forward⟩
  | alt _ _, h => ⟨h.1.forward, h.2.forward⟩
  | star r, h => Local.forward (r := r) h
  | group _ r, h => Local.forward (r := r) h
  | wordBoundary _, h => h

/-- **What stands before** an expression that does not look behind counts only for word boundaries. -/
theorem Matches.congr_before : ∀ {r : Regex} {b b' t a : List Char}, r.Forward isWord →
    b.head?.any isWord = b'.head?.any isWord → r.Matches b t a → r.Matches b' t a
  | empty, _, _, _, _, _, _, h => h
  | char _, _, _, _, _, _, _, h => h
  | seq r s, _, _, _, _, hr, hb, h => by
    obtain ⟨u, v, rfl, h₁, h₂⟩ := h
    exact ⟨u, v, rfl, h₁.congr_before hr.1 hb, h₂.congr_before hr.2 (head?_any_append hb)⟩
  | alt r s, _, _, _, _, hr, hb, h => h.imp (·.congr_before hr.1 hb) (·.congr_before hr.2 hb)
  | star r, b, b', t, a, hr, hb, h => by
    change Repeats _ b t a at h
    change Repeats _ b' t a
    induction h generalizing b' with
    | nil => exact .nil _ _
    | cons head tail ih =>
      exact .cons (Matches.congr_before (r := r) hr hb head) (ih _ (head?_any_append hb))
  | group _ r, _, _, _, _, hr, hb, h => Matches.congr_before (r := r) hr hb h
  | lineEnd, _, _, _, _, _, _, h => h
  | textEnd, _, _, _, _, _, _, h => h
  | wordBoundary w, _, _, _, _, hr, hb, h => by
    obtain ⟨rfl, h⟩ := h
    cases (show w = isWord from hr)
    exact ⟨rfl, by rw [← hb]; exact h⟩

theorem local_concat : ∀ {rs : List Regex}, (∀ r ∈ rs, r.Local isWord) → (concat rs).Local isWord
  | [], _ => trivial
  | [r], h => h r List.mem_cons_self
  | r :: _ :: _, h =>
    ⟨h r List.mem_cons_self, local_concat fun r' hr => h r' (List.mem_cons_of_mem _ hr)⟩

theorem local_chars (f : Char → Char → Bool) (cs : List Char) :
    (concat (cs.map fun c => char (f c))).Local isWord := by
  refine local_concat fun r hr => ?_
  obtain ⟨c, -, rfl⟩ := List.mem_map.mp hr
  trivial

@[simp] theorem local_lit (cs : List Char) : (lit cs).Local isWord := local_chars _ cs

@[simp] theorem local_ilit (cs : List Char) : (ilit cs).Local isWord := local_chars _ cs

end Congr

/-! ## The characters of a match -/

/-- Every character the expression can match satisfies `P`. -/
def Within (P : Char → Prop) : Regex → Prop
  | char p => ∀ c, p c = true → P c
  | seq r s | alt r s => r.Within P ∧ s.Within P
  | star r | group _ r => r.Within P
  | _ => True

theorem Matches.within {P : Char → Prop} : ∀ {r : Regex} {b t a : List Char}, r.Within P →
    r.Matches b t a → ∀ c ∈ t, P c
  | empty, _, _, _, _, h => by
    cases h
    exact fun _ h => nomatch h
  | char p, _, _, _, hr, h => by
    obtain ⟨c, hc, rfl⟩ := h
    exact fun d hd => List.mem_singleton.mp hd ▸ hr c hc
  | seq r s, _, _, _, hr, h => by
    obtain ⟨u, v, rfl, h₁, h₂⟩ := h
    exact fun c hc => (List.mem_append.mp hc).elim (h₁.within hr.1 c) (h₂.within hr.2 c)
  | alt r s, _, _, _, hr, h => h.elim (·.within hr.1) (·.within hr.2)
  | star r, b, t, a, hr, h => by
    change Repeats _ b t a at h
    induction h with
    | nil => exact fun _ h => nomatch h
    | cons head _ ih =>
      have hhead := Matches.within (r := r) hr head
      exact fun c hc => (List.mem_append.mp hc).elim (hhead c) (ih c)
  | group _ r, _, _, _, hr, h => Matches.within (r := r) hr h
  | lineStart, _, _, _, _, h | lineEnd, _, _, _, _, h | textStart, _, _, _, _, h
  | textEnd, _, _, _, _, h | wordBoundary _, _, _, _, _, h | notBehind _ _, _, _, _, _, h => by
    obtain ⟨rfl, -⟩ := h
    exact fun _ h => nomatch h

theorem within_concat {P : Char → Prop} : ∀ {rs : List Regex}, (∀ r ∈ rs, r.Within P) →
    (concat rs).Within P
  | [], _ => trivial
  | [r], h => h r List.mem_cons_self
  | r :: _ :: _, h =>
    ⟨h r List.mem_cons_self, within_concat fun r' hr => h r' (List.mem_cons_of_mem _ hr)⟩

theorem within_lit {P : Char → Prop} {cs : List Char} (h : ∀ c ∈ cs, P c) : (lit cs).Within P := by
  refine within_concat fun r hr => ?_
  obtain ⟨c, hc, rfl⟩ := List.mem_map.mp hr
  intro d hd
  rw [eq_of_beq hd]
  exact h c hc

end Regex
