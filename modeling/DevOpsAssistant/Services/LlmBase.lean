import DevOpsAssistant.Text.Strings
import Mathlib.Data.List.Basic

/-!
# Chunks of an answer

* `chunkText`: `chunk_text`; `LLMProvider.stream`: what a provider without a stream of its own yields.
* `Grouped`: how the loop has grouped the words it has seen.
* `OneChunk`: the text fits into one chunk.
* **`chunks_spell_iff`**: the chunks spell the text if and only if it fits into one.
-/

namespace DevOps

/-! ## The loop -/

/-- The chunks that are complete, and the one that grows. -/
structure ChunkState where
  chunks : List (List Char)
  current : List Char

/-- The body of the loop. -/
def ChunkState.add (maxChunkChars : ℕ) (s : ChunkState) (token : List Char) : ChunkState :=
  let piece := if s.current = [] then token else ' ' :: token
  if s.current ≠ [] ∧ maxChunkChars < s.current.length + piece.length then
    ⟨s.chunks ++ [s.current], token⟩
  else ⟨s.chunks, s.current ++ piece⟩

def chunkText (text : String) (maxChunkChars : ℕ) : List String :=
  let content := Text.strip Text.isSpace text.toList
  if content = [] then []
  else
    let s := (content.splitOn ' ').foldl (ChunkState.add maxChunkChars) ⟨[], []⟩
    let chunks := if s.current = [] then s.chunks else s.chunks ++ [s.current]
    chunks.map String.ofList

/-- `LLMProvider.stream`, of a provider that has generated `text`. -/
def LLMProvider.stream (text : String) : List String := chunkText text 48

/-! ## What the loop has seen -/

/-- The words with a space between them. -/
def spaced (words : List (List Char)) : List Char := [' '].intercalate words

theorem spaced_concat {words : List (List Char)} (h : words ≠ []) (word : List Char) :
    spaced (words ++ [word]) = spaced words ++ ' ' :: word := by
  induction words with
  | nil => exact absurd rfl h
  | cons w words ih =>
    cases words with
    | nil => simp [spaced]
    | cons w' words =>
      have := ih (List.cons_ne_nil _ _)
      simp only [spaced, List.cons_append, List.intercalate_cons_cons] at this ⊢
      rw [this]
      simp

/-- How the words are grouped: in one chunk that holds them all, or with a space lost. -/
inductive Grouped (maxChunkChars : ℕ) (words : List (List Char)) (s : ChunkState) : Prop where
  | whole (chunks : s.chunks = []) (current : s.current = spaced words)
      (fits : words.length ≤ 1 ∨ (spaced words).length ≤ maxChunkChars)
  | lost (several : 2 ≤ words.length) (long : maxChunkChars < (spaced words).length)
      (short : s.chunks.flatten.length + s.current.length < (spaced words).length)

section Grouped

variable {maxChunkChars : ℕ} {words : List (List Char)} {s : ChunkState}

/-- **One word.** -/
theorem Grouped.add (g : Grouped maxChunkChars words s) (hwords : spaced words ≠ [])
    (token : List Char) :
    Grouped maxChunkChars (words ++ [token]) (s.add maxChunkChars token) := by
  have hne : words ≠ [] := fun h => hwords (by rw [h]; rfl)
  have hpos : 0 < words.length := List.length_pos_iff.mpr hne
  have hspaced := spaced_concat hne token
  have hlen : (spaced (words ++ [token])).length = (spaced words).length + 1 + token.length := by
    rw [hspaced, List.length_append, List.length_cons]
    omega
  cases g with
  | whole chunks current fits =>
    have hcur : s.current ≠ [] := by rwa [current]
    simp only [ChunkState.add, if_neg hcur, chunks, List.length_cons]
    by_cases hbreak : maxChunkChars < s.current.length + (token.length + 1)
    · rw [if_pos ⟨hcur, hbreak⟩]
      rw [current] at hbreak
      refine .lost ?_ (by omega) ?_
      · rw [List.length_append, List.length_singleton]
        omega
      · simp only [List.nil_append, List.flatten_cons, List.flatten_nil, List.append_nil]
        rw [current]
        omega
    · rw [if_neg fun h => hbreak h.2]
      rw [current] at hbreak
      refine .whole rfl ?_ (.inr (by omega))
      simp only
      rw [current, hspaced]
  | lost several long short =>
    have hseveral : 2 ≤ (words ++ [token]).length := by
      rw [List.length_append]
      omega
    refine .lost hseveral (by omega) ?_
    simp only [ChunkState.add]
    by_cases hcur : s.current = []
    · rw [if_neg fun h => h.1 hcur, if_pos hcur]
      simp only [List.length_append]
      omega
    · rw [if_neg hcur]
      split
      · simp only [List.flatten_append, List.flatten_cons, List.flatten_nil, List.append_nil,
          List.length_append]
        omega
      · simp only [List.length_append, List.length_cons]
        omega

/-- **All words.** -/
theorem Grouped.foldl : ∀ (tokens : List (List Char)) {words : List (List Char)} {s : ChunkState},
    Grouped maxChunkChars words s → spaced words ≠ [] →
    Grouped maxChunkChars (words ++ tokens) (tokens.foldl (ChunkState.add maxChunkChars) s)
  | [], words, s, g, _ => by rwa [List.append_nil]
  | token :: tokens, words, s, g, hwords => by
    have hne : words ≠ [] := fun h => hwords (by rw [h]; rfl)
    have hwords' : spaced (words ++ [token]) ≠ [] := by
      rw [spaced_concat hne]
      simp
    have := Grouped.foldl tokens (g.add hwords token) hwords'
    rwa [List.append_assoc] at this

end Grouped

/-! ## The words of a text -/

/-- A text has several words if and only if it has a space. -/
theorem length_splitOn {cs : List Char} : (cs.splitOn ' ').length ≤ 1 ↔ ' ' ∉ cs := by
  constructor
  · intro hle hmem
    obtain ⟨as, bs, rfl, has⟩ := List.eq_append_cons_of_mem hmem
    have hpos := List.length_pos_iff.mpr (List.splitOn_ne_nil ' ' bs)
    rw [List.splitOn_append_cons_self_of_not_mem has, List.length_cons] at hle
    omega
  · intro hmem
    rw [List.splitOn_eq_singleton hmem]
    exact Nat.le_refl 1

/-- The first word of a text that does not start with a space is not empty. -/
theorem splitOn_cons {c : Char} {cs : List Char} (hc : c ≠ ' ') :
    ∃ word words, (c :: cs).splitOn ' ' = (c :: word) :: words := by
  rw [List.splitOn_cons_eq_if_modifyHead, if_neg (by simpa using hc)]
  cases h : cs.splitOn ' ' with
  | nil => exact absurd h (List.splitOn_ne_nil _ _)
  | cons word words => exact ⟨word, words, rfl⟩

theorem toList_join_map (chunks : List (List Char)) :
    (String.join (chunks.map String.ofList)).toList = chunks.flatten := by
  induction chunks with
  | nil => rfl
  | cons c chunks ih =>
    rw [List.map_cons, String.join_cons, String.toList_append, ih, String.toList_ofList,
      List.flatten_cons]

/-- The text fits into one chunk. -/
def OneChunk (text : String) (maxChunkChars : ℕ) : Prop :=
  (Text.stripped text).length ≤ maxChunkChars ∨ ' ' ∉ (Text.stripped text).toList

theorem join_chunkText (text : String) (maxChunkChars : ℕ) :
    String.join (chunkText text maxChunkChars) = Text.stripped text ↔ OneChunk text maxChunkChars := by
  rw [OneChunk, String.ext_iff, ← String.length_toList, Text.stripped, String.toList_ofList, chunkText]
  cases h : Text.strip Text.isSpace text.toList with
  | nil => simp
  | cons c cs =>
    simp only [if_neg (List.cons_ne_nil c cs)]
    have hc : c ≠ ' ' := by
      rintro rfl
      exact absurd (Text.head_strip h) (by decide)
    obtain ⟨word, words, hsplit⟩ := splitOn_cons hc
    have hcontent : spaced ((c :: word) :: words) = c :: cs := by
      rw [← hsplit]
      exact List.intercalate_splitOn ' '
    have hone : words.length + 1 ≤ 1 ↔ ' ' ∉ c :: cs := by
      rw [← length_splitOn, hsplit, List.length_cons]
    have hfirst : Grouped maxChunkChars [c :: word] ⟨[], c :: word⟩ :=
      .whole rfl (by simp [spaced]) (.inl (Nat.le_refl 1))
    have hall := hfirst.foldl words (by simp [spaced])
    have hstart : ChunkState.add maxChunkChars ⟨[], []⟩ (c :: word) = ⟨[], c :: word⟩ := by
      simp [ChunkState.add]
    rw [hsplit, List.foldl_cons, hstart]
    generalize words.foldl (ChunkState.add maxChunkChars) ⟨[], c :: word⟩ = s at hall
    have hout : (String.join ((if s.current = [] then s.chunks else s.chunks ++ [s.current]).map
        String.ofList)).toList = s.chunks.flatten ++ s.current := by
      rw [toList_join_map]
      split
      · next hcur => rw [hcur, List.append_nil]
      · simp
    rw [hout, ← hone]
    rw [List.singleton_append] at hall
    cases hall with
    | whole chunks current fits =>
      rw [chunks, current, hcontent] at *
      simp only [List.flatten_nil, List.nil_append, true_iff]
      rcases fits with fits | fits
      · exact .inr fits
      · exact .inl fits
    | lost several long short =>
      rw [hcontent] at long short
      rw [List.length_cons] at several
      constructor
      · intro heq
        rw [← heq, List.length_append] at short
        omega
      · omega

/-- **The chunks spell the text** if and only if it fits into one chunk, and so do those that a provider
without a stream of its own yields and the chat service accumulates. -/
theorem chunks_spell_iff (text : String) (maxChunkChars : ℕ) :
    (String.join (chunkText text maxChunkChars) = Text.stripped text ↔ OneChunk text maxChunkChars) ∧
      ((LLMProvider.stream text).foldl (· ++ ·) "" = Text.stripped text ↔ OneChunk text 48) :=
  ⟨join_chunkText text maxChunkChars, join_chunkText text 48⟩

/-- Two words that do not fit into one chunk lose the space between them. -/
theorem chunkText_loses_space : ¬ ∀ (text : String) (maxChunkChars : ℕ), 1 ≤ maxChunkChars →
    String.join (chunkText text maxChunkChars) = Text.stripped text := by
  intro h
  exact absurd (h "ab cd" 4 (by decide)) (by decide)

end DevOps
