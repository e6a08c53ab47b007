import DevOpsAssistant.Text.Matching

/-!
# The matches in a text

* `Regex.Plain`: expressions without groups; **`exists_captured`**: what the one group of a sequence holds.
* `Regex.At`: a match is at its place in a text.
* **`mem_findIter`**: what is found matches. **`exists_covering`**: what matches is found, or begins inside
  a match that is found. **`findIter_disjoint`**: matches do not overlap.
-/

namespace Regex

/-! ## Groups -/

/-- The expression captures nothing. -/
def Plain : Regex → Prop
  | group _ _ => False
  | seq r s | alt r s => r.Plain ∧ s.Plain
  | star r => r.Plain
  | _ => True

theorem repeated_groups {step : Cursor → List Cursor}
    (hstep : ∀ x, ∀ y ∈ step x, y.groups = x.groups) : ∀ (n : ℕ) (x : Cursor),
      ∀ y ∈ repeated step n x, y.groups = x.groups
  | 0, _, _, hy => by cases List.mem_singleton.mp hy; rfl
  | n + 1, x, y, hy => by
    rcases List.mem_append.mp hy with hy | hy
    · obtain ⟨z, hz, hy⟩ := List.mem_flatMap.mp hy
      exact (repeated_groups hstep n z y hy).trans (hstep x z (List.mem_filter.mp hz).1)
    · cases List.mem_singleton.mp hy
      rfl

/-- **An expression without groups** leaves those captured before. -/
theorem Plain.groups : ∀ {r : Regex}, r.Plain → ∀ x, ∀ y ∈ ends r x, y.groups = x.groups
  | empty, _, _, _, hy => by cases List.mem_singleton.mp hy; rfl
  | char p, _, x, y, hy => by
    unfold ends at hy
    split at hy
    · cases hy
    · split at hy
      · cases List.mem_singleton.mp hy
        rfl
      · cases hy
  | seq r s, h, x, y, hy => by
    obtain ⟨z, hz, hy⟩ := mem_ends_seq.mp hy
    exact (h.2.groups z y hy).trans (h.1.groups x z hz)
  | alt r s, h, x, y, hy => (mem_ends_alt.mp hy).elim (h.1.groups x y) (h.2.groups x y)
  | star r, h, x, y, hy => repeated_groups (Plain.groups (r := r) h) _ x y hy
  | lineStart, _, x, y, hy | lineEnd, _, x, y, hy | textStart, _, x, y, hy | textEnd, _, x, y, hy
  | wordBoundary _, _, x, y, hy => by
    unfold ends at hy
    split at hy
    · cases List.mem_singleton.mp hy
      rfl
    · cases hy
  | notBehind _ _, _, x, y, hy => by
    unfold ends at hy
    split at hy
    · cases hy
    · cases List.mem_singleton.mp hy
      rfl

theorem plain_concat : ∀ {rs : List Regex}, (∀ r ∈ rs, r.Plain) → (concat rs).Plain
  | [], _ => trivial
  | [r], h => h r List.mem_cons_self
  | r :: _ :: _, h =>
    ⟨h r List.mem_cons_self, plain_concat fun r' hr => h r' (List.mem_cons_of_mem _ hr)⟩

theorem plain_chars (f : Char → Char → Bool) (cs : List Char) :
    (concat (cs.map fun c => char (f c))).Plain := by
  refine plain_concat fun r hr => ?_
  obtain ⟨c, -, rfl⟩ := List.mem_map.mp hr
  trivial

@[simp] theorem plain_lit (cs : List Char) : (lit cs).Plain := plain_chars _ cs

@[simp] theorem plain_ilit (cs : List Char) : (ilit cs).Plain := plain_chars _ cs

theorem mem_ends_concat_append {rs ss : List Regex} {x y : Cursor} :
    y ∈ ends (concat (rs ++ ss)) x ↔ ∃ z ∈ ends (concat rs) x, y ∈ ends (concat ss) z := by
  induction rs generalizing x with
  | nil =>
    constructor
    · exact fun h => ⟨x, List.mem_singleton_self _, h⟩
    · rintro ⟨z, hz, h⟩
      cases List.mem_singleton.mp hz
      exact h
  | cons r rs ih =>
    rw [List.cons_append, mem_ends_concat_cons]
    constructor
    · rintro ⟨z, hz, h⟩
      obtain ⟨w, hw, h⟩ := ih.mp h
      exact ⟨w, mem_ends_concat_cons.mpr ⟨z, hz, hw⟩, h⟩
    · rintro ⟨w, hw, h⟩
      obtain ⟨z, hz, hw⟩ := mem_ends_concat_cons.mp hw
      exact ⟨z, hz, ih.mpr ⟨w, hw, h⟩⟩

theorem Cursor.Past.upTo {x y : Cursor} {t : List Char} (h : x.Past y t) : x.upTo y = t := by
  unfold Cursor.upTo
  rw [h.before]
  simp

/-- **What a group captures**, between the parts before it and after it. -/
theorem exists_captured {rs ss : List Regex} {n : ℕ} {r : Regex} {x y : Cursor}
    (hss : (concat ss).Plain) (hy : y ∈ ends (concat (rs ++ group n r :: ss)) x) :
    ∃ s t e, x.Past y (s ++ t ++ e) ∧ y.groups.lookup n = some t ∧
      (concat rs).Matches x.before s (t ++ e ++ y.rest) ∧
      r.Matches (s.reverse ++ x.before) t (e ++ y.rest) ∧
      (concat ss).Matches (t.reverse ++ (s.reverse ++ x.before)) e y.rest := by
  obtain ⟨z, hz, hy⟩ := mem_ends_concat_append.mp hy
  obtain ⟨w, hw, hy⟩ := mem_ends_concat_cons.mp hy
  obtain ⟨v, hv, rfl⟩ := List.mem_map.mp hw
  obtain ⟨s, hs, hms⟩ := (faithful _).sound x z hz
  obtain ⟨t, ht, hmt⟩ := (faithful _).sound z v hv
  obtain ⟨e, he, hme⟩ := (faithful _).sound _ y hy
  have hvy : v.rest = e ++ y.rest := he.rest
  refine ⟨s, t, e, ⟨?_, ?_⟩, ?_, ?_, ?_, ?_⟩
  · rw [hs.rest, ht.rest, hvy]
    simp
  · have hbefore : y.before = e.reverse ++ v.before := he.before
    rw [hbefore, ht.before, hs.before]
    simp
  · rw [hss.groups _ y hy, ht.upTo]
    simp
  · rw [ht.rest, hvy, ← List.append_assoc] at hms
    exact hms
  · rw [hvy, hs.before] at hmt
    exact hmt
  · rw [ht.before, hs.before] at hme
    exact hme

/-! ## Places -/

/-- The match `m` of `r` begins in `text` where its start says. -/
structure At (r : Regex) (text : List Char) (m : Match) : Prop where
  place : text = m.start.before.reverse ++ m.start.rest
  found : r.matchAt m.start.before m.start.rest = some m

variable {r : Regex} {text : List Char} {m m' : Match}

theorem matchAt_eq_some {b rest : List Char} (h : r.matchAt b rest = some m) :
    m.start = ⟨b, rest, []⟩ ∧ m.stop ∈ ends r ⟨b, rest, []⟩ := by
  obtain ⟨y, hy, rfl⟩ := Option.map_eq_some_iff.mp h
  exact ⟨rfl, List.mem_of_mem_head? hy⟩

theorem exists_matchAt {b t a : List Char} (h : r.Matches b t a) :
    ∃ m, r.matchAt b (t ++ a) = some m := by
  obtain ⟨g, hg⟩ := (faithful r).complete b t a [] h
  unfold matchAt
  cases he : ends r ⟨b, t ++ a, []⟩ with
  | nil =>
    rw [he] at hg
    cases hg
  | cons y ys => exact ⟨_, rfl⟩

/-- A match ends where a matcher ends first. -/
theorem At.head?_eq (h : r.At text m) : (ends r m.start).head? = some m.stop := by
  obtain ⟨hstart, -⟩ := matchAt_eq_some h.found
  obtain ⟨y, hy, hm⟩ := Option.map_eq_some_iff.mp h.found
  rw [hstart, hy, ← hm]

theorem At.stop_mem (h : r.At text m) : m.stop ∈ ends r m.start := by
  obtain ⟨hstart, hstop⟩ := matchAt_eq_some h.found
  rwa [hstart]

/-- The text of a match. -/
theorem At.exists_matches (h : r.At text m) : ∃ t, m.start.Past m.stop t ∧ m.length = t.length ∧
    r.Matches m.start.before t m.stop.rest := by
  obtain ⟨t, ht, hm⟩ := (faithful r).sound _ _ h.stop_mem
  refine ⟨t, ht, ?_, hm⟩
  unfold Match.length
  rw [ht.rest]
  simp

/-- Two matches that begin at one place are one match. -/
theorem At.eq_of_start (h : r.At text m) (h' : r.At text m') (hs : m.startIndex = m'.startIndex) :
    m = m' := by
  have hplace := h.place.symm.trans h'.place
  obtain ⟨hb, hrest⟩ := List.append_inj hplace (by simpa [Match.startIndex] using hs)
  have hfound := h.found
  rw [List.reverse_inj.mp hb, hrest, h'.found] at hfound
  exact (Option.some.inj hfound).symm

/-! ## Searching on -/

theorem searchFrom_sound : ∀ {rest before : List Char}, r.searchFrom before rest = some m →
    r.At (before.reverse ++ rest) m
  | [], before, h => by
    obtain ⟨hstart, -⟩ := matchAt_eq_some h
    exact ⟨by simp [hstart], by rw [hstart]; exact h⟩
  | c :: cs, before, h => by
    unfold searchFrom at h
    cases hat : r.matchAt before (c :: cs) with
    | none =>
      rw [hat] at h
      simpa using searchFrom_sound h
    | some m₀ =>
      rw [hat] at h
      obtain rfl : m₀ = m := Option.some.inj h
      obtain ⟨hstart, -⟩ := matchAt_eq_some hat
      exact ⟨by simp [hstart], by rw [hstart]; exact hat⟩

/-- The leftmost match is at its place. -/
theorem at_of_search (h : r.search text = some m) : r.At text m := searchFrom_sound h

/-- What is found from a position on is at its place, after the characters that are skipped. -/
theorem findFrom_sound : ∀ (rest before : List Char) (skip : ℕ), ∀ m ∈ r.findFrom skip before rest,
    r.At (before.reverse ++ rest) m ∧ before.length + skip ≤ m.startIndex := by
  intro rest
  induction rest with
  | nil =>
    intro before skip m hm
    unfold findFrom at hm
    split at hm
    · next hskip =>
      have hat := Option.mem_toList.mp hm
      obtain ⟨hstart, -⟩ := matchAt_eq_some hat
      refine ⟨⟨by simp [hstart], by rw [hstart]; exact hat⟩, ?_⟩
      simp [Match.startIndex, hstart, hskip]
    · cases hm
  | cons c cs ih =>
    intro before skip m hm
    have hnext : ∀ n, m ∈ r.findFrom n (c :: before) cs →
        r.At (before.reverse ++ c :: cs) m ∧ before.length + (n + 1) ≤ m.startIndex := by
      intro n hn
      obtain ⟨hat, hle⟩ := ih (c :: before) n m hn
      refine ⟨by simpa using hat, ?_⟩
      rw [List.length_cons] at hle
      omega
    cases skip with
    | succ skip => exact hnext skip hm
    | zero =>
      unfold findFrom at hm
      cases hat : r.matchAt before (c :: cs) with
      | none =>
        rw [hat] at hm
        obtain ⟨h, hle⟩ := hnext 0 hm
        exact ⟨h, by omega⟩
      | some m₀ =>
        rw [hat] at hm
        rcases List.mem_cons.mp hm with rfl | hm
        · obtain ⟨hstart, -⟩ := matchAt_eq_some hat
          refine ⟨⟨by simp [hstart], by rw [hstart]; exact hat⟩, ?_⟩
          simp [Match.startIndex, hstart]
        · obtain ⟨h, hle⟩ := hnext _ hm
          exact ⟨h, by omega⟩

/-- **What is found matches.** -/
theorem mem_findIter (h : m ∈ r.findIter text) : r.At text m :=
  (findFrom_sound text [] 0 m h).1

/-- **What matches is found**, or begins inside a match that is found. -/
theorem findFrom_complete (hr : ∀ b a, ¬ r.Matches b [] a) {b t a : List Char} (hm : r.Matches b t a) :
    ∀ (rest before : List Char) (skip : ℕ), before.reverse ++ rest = b.reverse ++ (t ++ a) →
      before.length + skip ≤ b.length →
      ∃ m ∈ r.findFrom skip before rest, m.startIndex ≤ b.length ∧
        b.length < m.startIndex + m.length := by
  intro rest
  induction rest with
  | nil =>
    intro before skip htext hle
    have hlength := congrArg List.length htext
    cases t with
    | nil => exact absurd hm (hr b a)
    | cons d t =>
      simp at hlength
      omega
  | cons c cs ih =>
    intro before skip htext hle
    have hcons : (c :: before).reverse ++ cs = b.reverse ++ (t ++ a) := by simpa using htext
    cases skip with
    | succ skip =>
      obtain ⟨m, hm', h⟩ := ih (c :: before) skip hcons (by rw [List.length_cons]; omega)
      exact ⟨m, hm', h⟩
    | zero =>
      unfold findFrom
      cases hat : r.matchAt before (c :: cs) with
      | none =>
        by_cases hb : before.length = b.length
        · obtain ⟨hbefore, hrest⟩ := List.append_inj htext (by simpa using hb)
          obtain ⟨m, hsome⟩ := exists_matchAt hm
          rw [← hrest, ← List.reverse_inj.mp hbefore, hat] at hsome
          cases hsome
        · exact ih (c :: before) 0 hcons (by rw [List.length_cons]; omega)
      | some m₀ =>
        obtain ⟨hstart, -⟩ := matchAt_eq_some hat
        have hindex : m₀.startIndex = before.length := by simp [Match.startIndex, hstart]
        by_cases hb : b.length < before.length + m₀.length
        · exact ⟨m₀, List.mem_cons_self, by omega, by omega⟩
        · have hpos : 0 < m₀.length := by
            have h₀ : r.At (before.reverse ++ c :: cs) m₀ :=
              ⟨by simp [hstart], by rw [hstart]; exact hat⟩
            obtain ⟨u, -, hlength, hu⟩ := h₀.exists_matches
            rw [hlength, List.length_pos_iff]
            rintro rfl
            exact hr _ _ hu
          obtain ⟨m, hm', h⟩ := ih (c :: before) (m₀.length - 1) hcons (by
            rw [List.length_cons]
            omega)
          exact ⟨m, List.mem_cons_of_mem _ hm', h⟩

theorem exists_covering (hr : ∀ b a, ¬ r.Matches b [] a) {b t a : List Char}
    (htext : text = b.reverse ++ (t ++ a)) (hm : r.Matches b t a) :
    ∃ m ∈ r.findIter text, m.startIndex ≤ b.length ∧ b.length < m.startIndex + m.length :=
  findFrom_complete hr hm text [] 0 htext (Nat.zero_le _)

/-- Matches come one after the other. -/
theorem findFrom_pairwise : ∀ (rest before : List Char) (skip : ℕ),
    (r.findFrom skip before rest).Pairwise fun m m' => m.startIndex + m.length ≤ m'.startIndex := by
  intro rest
  induction rest with
  | nil =>
    intro before skip
    unfold findFrom
    split
    · cases r.matchAt before [] with
      | none => exact .nil
      | some m => exact List.pairwise_singleton _ _
    · exact .nil
  | cons c cs ih =>
    intro before skip
    cases skip with
    | succ skip => exact ih _ _
    | zero =>
      unfold findFrom
      cases hat : r.matchAt before (c :: cs) with
      | none => exact ih _ _
      | some m₀ =>
        refine List.pairwise_cons.mpr ⟨fun m hm => ?_, ih _ _⟩
        obtain ⟨hstart, -⟩ := matchAt_eq_some hat
        obtain ⟨-, hle⟩ := findFrom_sound cs (c :: before) (m₀.length - 1) m hm
        have hindex : m₀.startIndex = before.length := by simp [Match.startIndex, hstart]
        rw [List.length_cons] at hle
        omega

/-- **Matches do not overlap.** -/
theorem findIter_disjoint (h : m ∈ r.findIter text)
    (h' : m' ∈ r.findIter text) (hlt : m.startIndex < m'.startIndex) :
    m.startIndex + m.length ≤ m'.startIndex := by
  have hget := List.pairwise_iff_getElem.mp (findFrom_pairwise (r := r) text [] 0)
  obtain ⟨i, hi, rfl⟩ := List.mem_iff_getElem.mp h
  obtain ⟨j, hj, rfl⟩ := List.mem_iff_getElem.mp h'
  rcases Nat.lt_trichotomy i j with hij | rfl | hij
  · exact hget i j hi hj hij
  · omega
  · have := hget j i hj hi hij
    unfold findIter at hlt
    omega

/-- Where a match ends. -/
theorem At.length_eq (h : r.At text m) :
    m.startIndex + m.length + m.stop.rest.length = text.length := by
  obtain ⟨t, ht, hlength, -⟩ := h.exists_matches
  rw [hlength, h.place, ht.rest]
  simp [Match.startIndex, Nat.add_assoc]

/-- Matches that end together are one match. -/
theorem findIter_eq_of_stop (hr : ∀ b a, ¬ r.Matches b [] a) (h : m ∈ r.findIter text)
    (h' : m' ∈ r.findIter text) (hs : m.stop.rest = m'.stop.rest) : m = m' := by
  have hpos : ∀ {m : Match}, m ∈ r.findIter text → 0 < m.length := by
    intro m hm
    obtain ⟨t, -, hlength, ht⟩ := (mem_findIter hm).exists_matches
    rw [hlength, List.length_pos_iff]
    rintro rfl
    exact hr _ _ ht
  have hend := (mem_findIter h).length_eq
  have hend' := (mem_findIter h').length_eq
  rw [hs] at hend
  have hp := hpos h
  have hp' := hpos h'
  rcases Nat.lt_trichotomy m.startIndex m'.startIndex with hlt | heq | hlt
  · have := findIter_disjoint h h' hlt
    omega
  · exact (mem_findIter h).eq_of_start (mem_findIter h') heq
  · have := findIter_disjoint h' h hlt
    omega

end Regex
