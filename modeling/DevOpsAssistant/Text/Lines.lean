import Mathlib.Data.List.Basic
import Mathlib.Tactic.Common

/-!
# Texts that arrive in pieces

A consumer of lines is fed a text in chunks. It keeps the unfinished line until the rest of it arrives.

* `Text.splitFirst`: the text before and after the first separator.
* `Text.feedLines`: the finished lines of a text, one after another; `feedLines_append`.
* `Text.feedChunks`: the chunks of a text, one after another.
* **`Text.feedChunks_eq`**: it does not matter how the text is cut.
-/

namespace Text

variable {α S E : Type} [DecidableEq α]

/-! ## The first separator -/

/-- The text before and after the first separator. -/
def splitFirst (sep : α) : List α → Option (List α × List α)
  | [] => none
  | c :: cs => if c = sep then some ([], cs) else (splitFirst sep cs).map fun p => (c :: p.1, p.2)

variable {sep : α} {line rest cs : List α}

theorem splitFirst_append (h : sep ∉ line) : splitFirst sep (line ++ sep :: rest) = some (line, rest) := by
  induction line with
  | nil => exact if_pos rfl
  | cons c line ih =>
    rw [List.mem_cons, not_or] at h
    rw [List.cons_append, splitFirst, if_neg (Ne.symm h.1), ih h.2]
    rfl

theorem eq_append_of_splitFirst : ∀ {cs line rest : List α}, splitFirst sep cs = some (line, rest) →
    cs = line ++ sep :: rest ∧ sep ∉ line
  | [], _, _, h => nomatch h
  | c :: cs, line, rest, h => by
    rw [splitFirst] at h
    by_cases hc : c = sep
    · rw [if_pos hc] at h
      cases h
      exact ⟨by rw [hc, List.nil_append], List.not_mem_nil⟩
    · rw [if_neg hc, Option.map_eq_some_iff] at h
      obtain ⟨⟨line', rest'⟩, hsplit, heq⟩ := h
      cases heq
      obtain ⟨rfl, hnot⟩ := eq_append_of_splitFirst hsplit
      exact ⟨rfl, by rw [List.mem_cons, not_or]; exact ⟨Ne.symm hc, hnot⟩⟩

theorem splitFirst_eq_none : splitFirst sep cs = none ↔ sep ∉ cs := by
  induction cs with
  | nil => simp [splitFirst]
  | cons c cs ih =>
    rw [splitFirst]
    by_cases hc : c = sep
    · simp [hc]
    · simp [hc, Ne.symm hc, ih]

/-! ## Lines -/

/-- The finished lines of a text go to `step`, one after another: what it puts out, its state after
them, and the unfinished line. -/
def feedLines (sep : α) (step : S → List α → List E × S) (s : S) (cs : List α) : List E × S × List α :=
  match _h : splitFirst sep cs with
  | none => ([], s, cs)
  | some (line, rest) =>
    let fed := feedLines sep step (step s line).2 rest
    ((step s line).1 ++ fed.1, fed.2)
termination_by cs.length
decreasing_by
  rw [(eq_append_of_splitFirst _h).1, List.length_append, List.length_cons]
  omega

variable {step : S → List α → List E × S} {s : S}

theorem feedLines_of_not_mem (h : sep ∉ cs) : feedLines sep step s cs = ([], s, cs) := by
  rw [feedLines]
  split
  · rfl
  · next hsplit =>
    rw [splitFirst_eq_none.mpr h] at hsplit
    cases hsplit

/-- The first line of a text. -/
theorem feedLines_line (h : sep ∉ line) : feedLines sep step s (line ++ sep :: rest) =
    ((step s line).1 ++ (feedLines sep step (step s line).2 rest).1,
      (feedLines sep step (step s line).2 rest).2) := by
  rw [feedLines]
  split
  · next hsplit => simp [splitFirst_append h] at hsplit
  · next hsplit =>
    rw [splitFirst_append h] at hsplit
    cases hsplit
    rfl

theorem not_mem_feedLines (cs : List α) : sep ∉ (feedLines sep step s cs).2.2 := by
  fun_induction feedLines sep step s cs with
  | case1 s cs h => exact splitFirst_eq_none.mp h
  | case2 s cs line rest h fed ih => exact ih

/-- **A text in two pieces**: the unfinished line of the first piece is put before the second. -/
theorem feedLines_append (cs ds : List α) : feedLines sep step s (cs ++ ds) =
    ((feedLines sep step s cs).1 ++ (feedLines sep step (feedLines sep step s cs).2.1
      ((feedLines sep step s cs).2.2 ++ ds)).1,
    (feedLines sep step (feedLines sep step s cs).2.1 ((feedLines sep step s cs).2.2 ++ ds)).2) := by
  induction hn : cs.length using Nat.strongRecOn generalizing s cs with
  | ind n ih =>
    by_cases hmem : sep ∈ cs
    · obtain ⟨⟨line, rest⟩, hsplit⟩ : ∃ p, splitFirst sep cs = some p :=
        Option.ne_none_iff_exists'.mp fun h => splitFirst_eq_none.mp h hmem
      obtain ⟨rfl, hline⟩ := eq_append_of_splitFirst hsplit
      have hlt : rest.length < n := by
        rw [← hn, List.length_append, List.length_cons]
        omega
      rw [List.append_assoc, List.cons_append, feedLines_line hline, feedLines_line hline,
        ih rest.length hlt rest rfl, List.append_assoc]
    · rw [feedLines_of_not_mem hmem]
      rfl

/-! ## Chunks -/

/-- The chunks of a text, one after another, with the unfinished line before the first of them. -/
def feedChunks (sep : α) (step : S → List α → List E × S) (s : S) (buffer : List α) :
    List (List α) → List E × S × List α
  | [] => ([], s, buffer)
  | chunk :: chunks =>
    let fed := feedLines sep step s (buffer ++ chunk)
    let rest := feedChunks sep step fed.2.1 fed.2.2 chunks
    (fed.1 ++ rest.1, rest.2)

/-- **It does not matter how a text is cut** into chunks. -/
theorem feedChunks_eq : ∀ (chunks : List (List α)) (s : S) (buffer : List α), sep ∉ buffer →
    feedChunks sep step s buffer chunks = feedLines sep step s (buffer ++ chunks.flatten)
  | [], s, buffer, h => by
    rw [List.flatten_nil, List.append_nil, feedLines_of_not_mem h]
    rfl
  | chunk :: chunks, s, buffer, h => by
    rw [feedChunks, feedChunks_eq chunks _ _ (not_mem_feedLines _), List.flatten_cons,
      ← List.append_assoc, feedLines_append (buffer ++ chunk)]

end Text
