import Mathlib.Data.List.Count

/-!
# Counting in a dictionary

A dictionary from keys to counts, in the order in which its keys came first.

* `Tally.bump`: one more of a key; `Tally.tally`: the counts of a list of keys.
* **`mem_tally`**: the dictionary holds the number of times each key occurs.
* `exists_mem_tally_append`: more keys only add to the counts.
-/

namespace Tally

variable {κ : Type*} [DecidableEq κ]

/-- `d[key] = d.get(key, 0) + 1`. -/
def bump (d : List (κ × ℕ)) (key : κ) : List (κ × ℕ) :=
  match d with
  | [] => [(key, 1)]
  | (k, n) :: d => if k = key then (k, n + 1) :: d else (k, n) :: bump d key

/-- The counts of the keys of a list. -/
def tally (keys : List κ) : List (κ × ℕ) := keys.foldl bump []

/-- What a dictionary with the counts of `keys` is. -/
structure Counts (d : List (κ × ℕ)) (keys : List κ) : Prop where
  nodup : (d.map Prod.fst).Nodup
  mem_iff : ∀ k n, (k, n) ∈ d ↔ k ∈ keys ∧ n = keys.count k

theorem map_fst_bump {d : List (κ × ℕ)} {key : κ} : (bump d key).map Prod.fst =
    if key ∈ d.map Prod.fst then d.map Prod.fst else d.map Prod.fst ++ [key] := by
  induction d with
  | nil => rfl
  | cons entry d ih =>
    obtain ⟨k, n⟩ := entry
    by_cases h : k = key
    · simp [bump, h]
    · simp only [bump, if_neg h, List.map_cons, ih, List.mem_cons, Ne.symm h, false_or]
      by_cases hd : key ∈ d.map Prod.fst
      · simp only [if_pos hd]
      · simp only [if_neg hd, List.cons_append]

/-- What the dictionary says of other keys stays. -/
theorem mem_bump_of_ne {d : List (κ × ℕ)} {key k : κ} (h : k ≠ key) (n : ℕ) :
    (k, n) ∈ bump d key ↔ (k, n) ∈ d := by
  induction d with
  | nil => simp [bump, h]
  | cons entry d ih =>
    obtain ⟨k', n'⟩ := entry
    unfold bump
    by_cases h' : k' = key
    · have hk : k ≠ k' := fun e => h (e.trans h')
      simp [if_pos h', hk]
    · rw [if_neg h', List.mem_cons, List.mem_cons, ih]

/-- A key that is new is counted once. -/
theorem mem_bump_of_notMem {d : List (κ × ℕ)} {key : κ} (h : key ∉ d.map Prod.fst) (n : ℕ) :
    (key, n) ∈ bump d key ↔ n = 1 := by
  induction d with
  | nil => simp [bump]
  | cons entry d ih =>
    obtain ⟨k', n'⟩ := entry
    rw [List.map_cons, List.mem_cons, not_or] at h
    unfold bump
    rw [if_neg (Ne.symm h.1), List.mem_cons, ih h.2]
    simp [h.1]

/-- The count of a key that is there grows by one. -/
theorem mem_bump_of_mem {d : List (κ × ℕ)} {key : κ} {m : ℕ} (hd : (d.map Prod.fst).Nodup)
    (h : (key, m) ∈ d) (n : ℕ) : (key, n) ∈ bump d key ↔ n = m + 1 := by
  induction d with
  | nil => cases h
  | cons entry d ih =>
    obtain ⟨k', n'⟩ := entry
    rw [List.map_cons, List.nodup_cons] at hd
    have hnone : ∀ {i : ℕ}, (k', i) ∉ d := fun hi => hd.1 (List.mem_map.mpr ⟨_, hi, rfl⟩)
    unfold bump
    by_cases hk : k' = key
    · subst hk
      have hm : m = n' := by
        cases List.mem_cons.mp h with
        | inl h => exact congrArg Prod.snd h
        | inr h => exact absurd h hnone
      simp [hnone, hm]
    · have hm : (key, m) ∈ d := by
        cases List.mem_cons.mp h with
        | inl h => exact absurd (congrArg Prod.fst h).symm hk
        | inr h => exact h
      rw [if_neg hk, List.mem_cons, ih hd.2 hm]
      simp [Ne.symm hk]

/-- One more key. -/
theorem Counts.bump {d : List (κ × ℕ)} {keys : List κ} (h : Counts d keys) (key : κ) :
    Counts (bump d key) (keys ++ [key]) where
  nodup := by
    rw [map_fst_bump]
    by_cases hk : key ∈ d.map Prod.fst
    · rw [if_pos hk]
      exact h.nodup
    · rw [if_neg hk]
      exact List.nodup_append.mpr ⟨h.nodup, List.pairwise_singleton _ key, fun k hkd k' hk' e => by
        cases List.mem_singleton.mp hk'
        exact hk (e ▸ hkd)⟩
  mem_iff k n := by
    have hmem : key ∈ d.map Prod.fst ↔ key ∈ keys := by
      constructor
      · intro hk
        obtain ⟨⟨_, m⟩, hm, rfl⟩ := List.mem_map.mp hk
        exact ((h.mem_iff _ m).mp hm).1
      · exact fun hk => List.mem_map.mpr ⟨_, (h.mem_iff key _).mpr ⟨hk, rfl⟩, rfl⟩
    by_cases hk : k = key
    · subst hk
      by_cases hkeys : k ∈ keys
      · rw [mem_bump_of_mem h.nodup ((h.mem_iff k _).mpr ⟨hkeys, rfl⟩)]
        simp [List.count_append]
      · rw [mem_bump_of_notMem (fun hd => hkeys (hmem.mp hd))]
        simp [List.count_append, List.count_eq_zero_of_not_mem hkeys]
    · rw [mem_bump_of_ne hk, h.mem_iff]
      simp [List.count_append, hk, Ne.symm hk]

theorem counts_tally (keys : List κ) : Counts (tally keys) keys := by
  have hrun : ∀ (more : List κ) (d : List (κ × ℕ)) (keys : List κ), Counts d keys →
      Counts (more.foldl Tally.bump d) (keys ++ more) := by
    intro more
    induction more with
    | nil =>
      intro d keys h
      rwa [List.append_nil]
    | cons key more ih =>
      intro d keys h
      rw [List.append_cons]
      exact ih _ _ (h.bump key)
  exact hrun keys [] [] ⟨List.nodup_nil, fun _ _ => by simp⟩

/-- **The dictionary** holds the number of times each key occurs. -/
theorem mem_tally {keys : List κ} {k : κ} {n : ℕ} :
    (k, n) ∈ tally keys ↔ k ∈ keys ∧ n = keys.count k :=
  (counts_tally keys).mem_iff k n

/-- More keys only add to the counts. -/
theorem exists_mem_tally_append {keys : List κ} {k : κ} {n : ℕ} (h : (k, n) ∈ tally keys)
    (more : List κ) : ∃ m, n ≤ m ∧ (k, m) ∈ tally (keys ++ more) := by
  obtain ⟨hk, rfl⟩ := mem_tally.mp h
  refine ⟨(keys ++ more).count k, ?_, mem_tally.mpr ⟨List.mem_append_left _ hk, rfl⟩⟩
  rw [List.count_append]
  omega

end Tally
