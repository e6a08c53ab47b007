import DevOpsAssistant.Core.Unicode
import DevOpsAssistant.Reviews.Common
import DevOpsAssistant.Text.Scanning

/-!
# Sensitive paths that stand close together

A match takes the character before the path and the one after it, and the next match begins after both.

* `Occurs`: a path between two ends of the text, white space, quotes or slashes.
* `isSensitive_iff`, `slash_inside`, `Occurs.unique`: how paths can overlap.
* `occurs_of_match`, `matches_of_occurs`: a match is an occurrence with its two sides.
* `Touching`: two occurrences with one character between them.
* **`reported_iff`**: every occurrence is reported unless two of them touch.
-/

namespace DevOps

namespace ReviewChecks

open Regex
open PolicyEngine (lineOf)

variable (env : Env)

/-! ## Occurrences -/

/-- A character of `[\s"'/]`. -/
def isSide (c : Char) : Bool := env.unicode.isSpace c || ['"', '\'', '/'].contains c

/-- The paths, without the sides. -/
def sensitiveToken : Regex :=
  oneOf [
    seq (ilit ".env".toList) (opt (seq (lit ['.']) (plus (char env.unicode.isWord)))),
    ilit "id_rsa".toList,
    ilit "id_ed25519".toList,
    ilit ".aws/credentials".toList,
    ilit ".kube/config".toList,
    ilit ".docker/config.json".toList,
    ilit ".git-credentials".toList]

theorem SENSITIVE_PATH_RE_eq : SENSITIVE_PATH_RE env =
    concat ([alt textStart (char (isSide env))] ++ group 1 (sensitiveToken env) ::
      [alt textEnd (char (isSide env))]) := rfl

/-- The text is one of the sensitive paths. -/
def IsSensitive (token : List Char) : Prop := (sensitiveToken env).Matches [] token []

/-- The path `token` of `content` after `pre` and before `post`, with an end of the text, white space, a
quote or a slash on each side. -/
structure Occurs (content pre token post : List Char) : Prop where
  split : content = pre ++ (token ++ post)
  sensitive : IsSensitive env token
  left : ∀ c ∈ pre.getLast?, isSide env c = true
  right : ∀ c ∈ post.head?, isSide env c = true

/-- Two occurrences with one character between them. -/
def Touching (content : List Char) : Prop := ∃ pre token c token' post,
  Occurs env content pre token (c :: (token' ++ post)) ∧
    Occurs env content (pre ++ token ++ [c]) token' post

/-- What `scan_sensitive_paths` says of a path. -/
def sensitivePathFinding (token : List Char) (line : ℕ) : StaticFinding :=
  finding .high "Sensitive path referenced"
    ("Reference to '" ++ String.ofList token ++
      "' may expose credentials or secrets via artifacts or scripts.")
    "Exclude secret files from artifacts and never print them." line (some "ci_sensitive_path")

/-- **An occurrence is reported** by the `k`-th finding: its match begins with the character before the
path, or with the text, and names the path. -/
def Reported (content : String) (pre token : List Char) : Prop :=
  ∃ (k : ℕ) (m : Regex.Match), ((SENSITIVE_PATH_RE env).findIter content.toList)[k]? = some m ∧
    m.startIndex = pre.length - 1 ∧ m.group 1 = token ∧
    (scanSensitivePaths env content)[k]? =
      some (sensitivePathFinding token (lineOf content m.startIndex))

theorem scanSensitivePaths_eq (content : String) : scanSensitivePaths env content =
    ((SENSITIVE_PATH_RE env).findIter content.toList).map fun m =>
      sensitivePathFinding (m.group 1) (lineOf content m.startIndex) := by
  unfold scanSensitivePaths findingsAt
  rw [← List.filterMap_eq_map]
  rfl

variable {env}

/-- Every match is a finding. -/
theorem reported_iff_match {content : String} {pre token : List Char} :
    Reported env content pre token ↔ ∃ m ∈ (SENSITIVE_PATH_RE env).findIter content.toList,
      m.startIndex = pre.length - 1 ∧ m.group 1 = token := by
  constructor
  · rintro ⟨k, m, hk, hs, hg, -⟩
    exact ⟨m, List.mem_of_getElem? hk, hs, hg⟩
  · rintro ⟨m, hm, hs, hg⟩
    obtain ⟨k, hk⟩ := List.mem_iff_getElem?.mp hm
    refine ⟨k, m, hk, hs, hg, ?_⟩
    rw [scanSensitivePaths_eq, List.getElem?_map, hk, Option.map_some, hg]

/-! ## Paths -/

/-- The text, where case does not count. -/
def Alike (s t : List Char) : Prop := List.Forall₂ (fun c d => sameLetter c d = true) s t

/-- The paths that have one form. -/
def FIXED_PATHS : List String :=
  ["id_rsa", "id_ed25519", ".aws/credentials", ".kube/config", ".docker/config.json",
    ".git-credentials"]

theorem local_token (isWord : Char → Bool) : (sensitiveToken env).Local isWord := by
  simp [sensitiveToken, oneOf, opt, plus, Local]

theorem matches_token {b t a : List Char} :
    (sensitiveToken env).Matches b t a ↔ IsSensitive env t := by
  have hcongr : ∀ {x y x' y' : List Char}, (sensitiveToken env).Matches x t y →
      (sensitiveToken env).Matches x' t y' := fun h =>
    h.congr (local_token fun _ => false) (by simp) (by simp)
  exact ⟨hcongr, hcongr⟩

theorem isSensitive_iff {token : List Char} : IsSensitive env token ↔
    (∃ u v, token = u ++ v ∧ Alike ".env".toList u ∧
      (v = [] ∨ ∃ w, v = '.' :: w ∧ w ≠ [] ∧ ∀ c ∈ w, env.unicode.isWord c = true)) ∨
    ∃ s ∈ FIXED_PATHS, Alike s.toList token := by
  unfold IsSensitive sensitiveToken
  simp only [oneOf, Regex.Matches, matches_ilit, matches_opt, matches_lit, matches_plus_char]
  refine or_congr ?_ (by simp [FIXED_PATHS, Alike])
  refine exists_congr fun u => exists_congr fun v => and_congr_right fun _ => and_congr_right fun _ => ?_
  constructor
  · rintro (⟨_, w, rfl, rfl, h⟩ | h)
    · exact .inr ⟨w, rfl, h⟩
    · exact .inl h
  · rintro (h | ⟨w, rfl, h⟩)
    · exact .inr h
    · exact .inl ⟨['.'], w, rfl, rfl, h⟩

section Sides

variable {c d : Char} {s t u v : List Char}

/-- A side, for classes that are what they should be. -/
def plainSide (c : Char) : Bool := Text.isSpace c || ['"', '\'', '/'].contains c

theorem isSide_eq (hu : env.unicode.Lawful) (c : Char) : isSide env c = plainSide c := by
  rw [isSide, hu.isSpace, plainSide]

theorem not_isWord_of_side (hu : env.unicode.Lawful) (h : plainSide c = true) :
    env.unicode.isWord c = false := by
  unfold plainSide at h
  simp only [Bool.or_eq_true, List.contains_cons, List.contains_nil, Bool.or_false, beq_iff_eq] at h
  rcases h with h | rfl | rfl | rfl
  · exact hu.isWord_space c h
  all_goals
    rw [hu.isWord _ (by decide)]
    decide

/-- A side has no other case. -/
theorem toLower_of_side (h : plainSide c = true) : c.toLower = c := by
  have halpha : c.isAlphanum = false := by
    have hword : plainEnv.unicode.isWord c = false := not_isWord_of_side Unicode.lawful_ascii h
    exact (Bool.or_eq_false_iff.mp hword).1
  have hupper : c.isUpper = false := by
    unfold Char.isAlphanum Char.isAlpha at halpha
    simp only [Bool.or_eq_false_iff] at halpha
    exact halpha.1.1
  unfold Char.toLower
  exact dif_neg (of_decide_eq_false hupper)

/-- Letters that are the same have one lower case, or other forms outside ASCII. -/
theorem lower_of_sameLetter (h : sameLetter c d = true) :
    d.toLower = c.toLower ∨ (d ∈ ['İ', 'ı', 'K', 'ſ'] ∧ c.toLower ∈ ['i', 'k', 's']) := by
  unfold sameLetter at h
  simp only [Bool.or_eq_true, Bool.and_eq_true, decide_eq_true_eq] at h
  rcases h with (((rfl | h) | ⟨h, rfl | rfl⟩) | ⟨h, rfl⟩) | ⟨h, rfl⟩
  · exact .inl rfl
  · exact .inl h
  all_goals exact .inr ⟨by decide, by simp [h]⟩

/-- The character of a text that a side can stand for. -/
theorem eq_of_sameLetter_side (h : sameLetter c d = true) (hd : plainSide d = true) :
    d = c.toLower := by
  rcases lower_of_sameLetter h with h | ⟨hmem, -⟩
  · rw [← toLower_of_side hd, h]
  · simp only [List.mem_cons, List.not_mem_nil, or_false] at hmem
    rcases hmem with rfl | rfl | rfl | rfl <;> exact absurd hd (by decide)

/-- One character is not the same letter as two that differ, the first without other forms. -/
theorem sameLetter_eq_false {b : Char} (hb : sameLetter b d = true)
    (hplain : b.toLower ∉ ['i', 'k', 's', 'İ', 'ı', 'K', 'ſ']) (hne : b.toLower ≠ c.toLower) :
    sameLetter c d = false := by
  have hother : ∀ e ∈ ['İ', 'ı', 'K', 'ſ'], e.toLower ∈ ['i', 'k', 's', 'İ', 'ı', 'K', 'ſ'] := by
    decide
  have hlower : d.toLower = b.toLower := by
    rcases lower_of_sameLetter hb with h | ⟨-, h⟩
    · exact h
    · exact absurd (List.mem_append_left ['İ', 'ı', 'K', 'ſ'] h) hplain
  rw [Bool.eq_false_iff]
  intro hc
  rcases lower_of_sameLetter hc with h | ⟨h, -⟩
  · exact hne (hlower.symm.trans h)
  · exact hplain (hlower ▸ hother d h)

/-- The parts of a text that is alike. -/
theorem Alike.split : ∀ {u : List Char} {s : List Char}, Alike s (u ++ d :: v) →
    ∃ s₁ c s₂, s = s₁ ++ c :: s₂ ∧ Alike s₁ u ∧ sameLetter c d = true ∧ Alike s₂ v
  | [], s, h => by
    cases h with
    | @cons c _ s₂ _ hc h => exact ⟨[], c, s₂, rfl, .nil, hc, h⟩
  | e :: u, s, h => by
    cases h with
    | @cons b _ s' _ hb h =>
      obtain ⟨s₁, c, s₂, rfl, h₁, hc, h₂⟩ := Alike.split h
      exact ⟨b :: s₁, c, s₂, rfl, .cons hb h₁, hc, h₂⟩

theorem Alike.length (h : Alike s t) : s.length = t.length := List.Forall₂.length_eq h

/-- A side stands for a side. -/
theorem side_of_sameLetter (hc : plainSide c.toLower = false) (h : sameLetter c d = true) :
    plainSide d = false := by
  rw [Bool.eq_false_iff]
  intro hd
  rw [← eq_of_sameLetter_side h hd, hd] at hc
  cases hc

/-- A slash in a path: what stands before it, and the letter after it. -/
theorem fixed_slash : ∀ s ∈ FIXED_PATHS, ∀ k < s.toList.length,
    plainSide (s.toList[k]?.getD 'a').toLower = true →
      s.toList.take k ∈ [".aws".toList, ".kube".toList, ".docker".toList] ∧
        s.toList[k + 1]? = some 'c' := by
  decide

theorem plainSide_env : ∀ c ∈ ".env".toList, plainSide c.toLower = false := by
  decide

/-- A path that has one form can have a side inside: the slash after the directory. -/
theorem slash_of_fixed {p : String} (hp : p ∈ FIXED_PATHS) (h : Alike p.toList (u ++ d :: v))
    (hd : plainSide d = true) :
    (∃ s₁ ∈ [".aws".toList, ".kube".toList, ".docker".toList], Alike s₁ u) ∧
      ∃ e w, v = e :: w ∧ sameLetter 'c' e = true := by
  obtain ⟨s₁, c, s₂, hs, h₁, hc, h₂⟩ := h.split
  have hside : plainSide c.toLower = true := eq_of_sameLetter_side hc hd ▸ hd
  have hget : p.toList[s₁.length]?.getD 'a' = c := by simp [hs]
  obtain ⟨htake, hnext⟩ := fixed_slash p hp s₁.length (by simp [hs]) (by rwa [hget])
  refine ⟨⟨s₁, by simpa [hs] using htake, h₁⟩, ?_⟩
  have hs₂ : s₂[0]? = some 'c' := by
    rw [hs, List.getElem?_append_right (Nat.le_succ _)] at hnext
    simpa using hnext
  cases h₂ with
  | nil => cases hs₂
  | @cons b e s₂ w hb _ =>
    obtain rfl : b = 'c' := by simpa using hs₂
    exact ⟨e, w, rfl, hb⟩

/-- **A side inside a path** is the slash after its directory. -/
theorem slash_inside (hu : env.unicode.Lawful) (h : IsSensitive env (u ++ d :: v))
    (hd : plainSide d = true) :
    (∃ s₁ ∈ [".aws".toList, ".kube".toList, ".docker".toList], Alike s₁ u) ∧
      ∃ e w, v = e :: w ∧ sameLetter 'c' e = true := by
  rcases isSensitive_iff.mp h with ⟨x, y, hxy, hx, hy⟩ | ⟨p, hp, halike⟩
  · exfalso
    have hmem : d ∈ x ++ y := hxy ▸ by simp
    rcases List.mem_append.mp hmem with hmem | hmem
    · obtain ⟨x₁, x₂, rfl⟩ := List.append_of_mem hmem
      obtain ⟨s₁, c, s₂, hs, -, hc, -⟩ := hx.split
      have hplain := side_of_sameLetter (plainSide_env c (by simp [hs])) hc
      rw [hd] at hplain
      cases hplain
    · rcases hy with rfl | ⟨w, rfl, -, hw⟩
      · cases hmem
      · rcases List.mem_cons.mp hmem with rfl | hmem
        · exact absurd hd (by decide)
        · have hword := not_isWord_of_side hu hd
          rw [hw d hmem] at hword
          cases hword
  · exact slash_of_fixed hp halike hd

/-- What stands before the slash of a path is no path. -/
theorem not_isSensitive_directory {s₁ : List Char}
    (hs : s₁ ∈ [".aws".toList, ".kube".toList, ".docker".toList]) (h : Alike s₁ u) :
    ¬ IsSensitive env u := by
  intro hsensitive
  rcases isSensitive_iff.mp hsensitive with ⟨x, y, rfl, hx, -⟩ | ⟨p, hp, halike⟩
  -- the second letter of the directory is no `e`
  · obtain ⟨a, b, x', rfl, hb⟩ : ∃ a b x', x = a :: b :: x' ∧ sameLetter 'e' b = true := by
      cases hx with
      | cons _ hx =>
        cases hx with
        | cons hb _ => exact ⟨_, _, _, rfl, hb⟩
    have hsecond : ∃ c ∈ ['a', 'k', 'd'], sameLetter c b = true := by
      simp only [List.mem_cons, List.not_mem_nil, or_false] at hs
      rcases hs with rfl | rfl | rfl <;> cases h with
        | cons _ h =>
          cases h with
          | cons hc _ => exact ⟨_, by decide, hc⟩
    obtain ⟨c, hc, hcb⟩ := hsecond
    have hne : ∀ c ∈ ['a', 'k', 'd'], 'e'.toLower ≠ c.toLower := by decide
    rw [sameLetter_eq_false hb (by decide) (hne c hc)] at hcb
    cases hcb
  · have hlengths : ∀ s₁ ∈ [".aws".toList, ".kube".toList, ".docker".toList], ∀ p ∈ FIXED_PATHS,
        s₁.length ≠ p.toList.length := by decide
    exact hlengths s₁ hs p hp (h.length.trans halike.length.symm)

/-- **The first letter of a path** is a point or an `i`. -/
theorem first_of_isSensitive (h : IsSensitive env t) :
    ∃ c u, t = c :: u ∧ plainSide c = false ∧ sameLetter 'c' c = false := by
  have hfirst : ∃ c u b, t = c :: u ∧ b ∈ ['.', 'i'] ∧ sameLetter b c = true := by
    rcases isSensitive_iff.mp h with ⟨x, y, rfl, hx, -⟩ | ⟨p, hp, halike⟩
    · cases hx with
      | cons hc _ => exact ⟨_, _, '.', rfl, by decide, hc⟩
    · have hp' : ∃ b s, p.toList = b :: s ∧ b ∈ ['.', 'i'] := by
        simp only [FIXED_PATHS, List.mem_cons, List.not_mem_nil, or_false] at hp
        rcases hp with rfl | rfl | rfl | rfl | rfl | rfl <;> exact ⟨_, _, rfl, by decide⟩
      obtain ⟨b, s, hps, hb⟩ := hp'
      rw [hps] at halike
      cases halike with
      | cons hc _ => exact ⟨_, _, b, rfl, hb, hc⟩
  obtain ⟨c, u, b, rfl, hb, hc⟩ := hfirst
  simp only [List.mem_cons, List.not_mem_nil, or_false] at hb
  refine ⟨c, u, rfl, side_of_sameLetter ?_ hc, ?_⟩
  · rcases hb with rfl | rfl <;> decide
  · rw [Bool.eq_false_iff]
    intro hcc
    have hne : ∀ b ∈ ['.', 'i'], 'c'.toLower ≠ b.toLower := by decide
    rw [sameLetter_eq_false hcc (by decide) (hne b (by simpa using hb))] at hc
    cases hc

end Sides

/-! ## Matches -/

section Occurrences

variable {content pre token post : List Char}

/-- **An occurrence is determined** by where it begins. -/
theorem Occurs.unique (hu : env.unicode.Lawful) {token' post' : List Char}
    (h : Occurs env content pre token post) (h' : Occurs env content pre token' post') :
    token = token' := by
  have hlonger : ∀ {t t' p p' : List Char}, IsSensitive env t → IsSensitive env t' →
      (∀ c ∈ p.head?, isSide env c = true) → t ++ p = t' ++ p' → t.length ≤ t'.length → t = t' := by
    intro t t' p p' ht ht' hp he hle
    obtain ⟨w, rfl, rfl⟩ : ∃ w, t' = t ++ w ∧ p = w ++ p' := by
      rcases List.append_eq_append_iff.mp he with ⟨w, hw, hp⟩ | ⟨w, hw, hp⟩
      · exact ⟨w, hw, hp⟩
      · obtain rfl : w = [] := by
          rw [hw, List.length_append] at hle
          exact List.length_eq_zero_iff.mp (by omega)
        exact ⟨[], by simpa using hw.symm, by simpa using hp.symm⟩
    cases w with
    | nil => simp
    | cons d w =>
      have hd : plainSide d = true := by
        rw [← isSide_eq hu]
        exact hp d rfl
      obtain ⟨⟨s₁, hs₁, halike⟩, -⟩ := slash_inside hu ht' hd
      exact absurd ht (not_isSensitive_directory hs₁ halike)
  have he : token ++ post = token' ++ post' := List.append_cancel_left (h.split.symm.trans h'.split)
  rcases Nat.le_total token.length token'.length with hle | hle
  · exact hlonger h.sensitive h'.sensitive h.right he hle
  · exact (hlonger h'.sensitive h.sensitive h'.right he.symm hle).symm

theorem not_matches_nil (b a : List Char) : ¬ (SENSITIVE_PATH_RE env).Matches b [] a := by
  rintro ⟨u, v, huv, -, u', v', hv, htoken, -⟩
  obtain ⟨rfl, rfl⟩ := List.append_eq_nil_iff.mp huv.symm
  obtain ⟨rfl, rfl⟩ := List.append_eq_nil_iff.mp hv.symm
  obtain ⟨c, u, hc, -⟩ := first_of_isSensitive (matches_token.mp htoken)
  cases hc

/-- The leading side of an occurrence, which its match begins with. -/
structure Leads (env : Env) (before pre s : List Char) : Prop where
  eq : pre = before.reverse ++ s
  side : (s = [] ∧ before = []) ∨ ∃ c, isSide env c = true ∧ s = [c]

/-- **A match is an occurrence** with its sides. -/
theorem occurs_of_match (hu : env.unicode.Lawful) {m : Regex.Match}
    (hm : m ∈ (SENSITIVE_PATH_RE env).findIter content) :
    ∃ pre s e, Leads env m.start.before pre s ∧
      Occurs env content pre (m.group 1) (e ++ m.stop.rest) ∧
      m.length = s.length + (m.group 1).length + e.length ∧
      ((e = [] ∧ (m.stop.rest = [] ∨ m.stop.rest = ['\n'])) ∨ ∃ c, isSide env c = true ∧ e = [c]) := by
  have hat := mem_findIter hm
  have hstop := hat.stop_mem
  rw [SENSITIVE_PATH_RE_eq] at hstop
  have hplain : (concat [alt textEnd (char (isSide env))]).Plain := ⟨trivial, trivial⟩
  obtain ⟨s, t, e, hpast, hgroup, hs, ht, he⟩ := exists_captured hplain hstop
  have htoken : m.group 1 = t := by
    unfold Match.group
    rw [hgroup]
    rfl
  have hs : (s = [] ∧ m.start.before = []) ∨ ∃ c, isSide env c = true ∧ s = [c] := hs
  have he : (e = [] ∧ (m.stop.rest = [] ∨ m.stop.rest = ['\n'])) ∨
      ∃ c, isSide env c = true ∧ e = [c] := he
  rw [htoken]
  refine ⟨m.start.before.reverse ++ s, s, e, ⟨rfl, hs⟩, ⟨?_, matches_token.mp ht, ?_, ?_⟩, ?_, he⟩
  · rw [hat.place, hpast.rest]
    simp
  · intro c hc
    rcases hs with ⟨rfl, hb⟩ | ⟨d, hd, rfl⟩
    · simp [hb] at hc
    · obtain rfl : d = c := by simpa using hc
      exact hd
  · intro c hc
    rcases he with ⟨rfl, hr | hr⟩ | ⟨d, hd, rfl⟩
    · simp [hr] at hc
    · obtain rfl : '\n' = c := by simpa [hr] using hc
      rw [isSide_eq hu]
      decide
    · obtain rfl : d = c := by simpa using hc
      exact hd
  · unfold Match.length
    simp only [hpast.rest, List.length_append]
    omega

/-- **An occurrence matches**, from the character before it on. -/
theorem matches_of_occurs (h : Occurs env content pre token post) :
    ∃ b t a, content = b.reverse ++ (t ++ a) ∧ b.length = pre.length - 1 ∧
      (SENSITIVE_PATH_RE env).Matches b t a := by
  obtain ⟨e, a, rfl, he⟩ : ∃ e a, post = e ++ a ∧ ∀ x, (alt textEnd (char (isSide env))).Matches x e a := by
    cases post with
    | nil => exact ⟨[], [], rfl, fun _ => .inl ⟨rfl, .inl rfl⟩⟩
    | cons c post => exact ⟨[c], post, rfl, fun _ => .inr ⟨c, h.right c rfl, rfl⟩⟩
  obtain ⟨b, s, rfl, hlength, hs⟩ : ∃ b s, pre = b.reverse ++ s ∧
      b.length = (b.reverse ++ s).length - 1 ∧
      ∀ y, (alt textStart (char (isSide env))).Matches b s y := by
    rcases List.eq_nil_or_concat pre with rfl | ⟨pre', c, rfl⟩
    · exact ⟨[], [], rfl, rfl, fun _ => .inl ⟨rfl, rfl⟩⟩
    · exact ⟨pre'.reverse, [c], by simp, by simp,
        fun _ => .inr ⟨c, h.left c (by simp), rfl⟩⟩
  refine ⟨b, s ++ (token ++ e), a, ?_, hlength, s, token ++ e, rfl, hs _, token, e, rfl, ?_, he _⟩
  · rw [h.split]
    simp
  · exact matches_token.mpr h.sensitive

/-- The match that begins with the character before an occurrence is its own. -/
theorem group_of_start (hu : env.unicode.Lawful) (h : Occurs env content pre token post)
    {m : Regex.Match} (hm : m ∈ (SENSITIVE_PATH_RE env).findIter content)
    (hs : m.startIndex = pre.length - 1) :
    m.group 1 = token ∧ ∃ s e, Leads env m.start.before pre s ∧
      e ++ m.stop.rest = post ∧ m.length = s.length + token.length + e.length ∧
      ((e = [] ∧ (m.stop.rest = [] ∨ m.stop.rest = ['\n'])) ∨ ∃ c, isSide env c = true ∧ e = [c]) := by
  obtain ⟨pre', s, e, hleads, hocc, hlength, he⟩ := occurs_of_match hu hm
  have hfirst : ∀ {t x y : List Char} {c : Char}, IsSensitive env t → isSide env c = true →
      t ++ x = c :: y → False := by
    intro t x y c ht hc he
    obtain ⟨d, u, rfl, hd, -⟩ := first_of_isSensitive ht
    obtain rfl : d = c := (List.cons.inj he).1
    rw [isSide_eq hu, hd] at hc
    cases hc
  have hsplit := hocc.split.symm.trans h.split
  have hpre : pre' = pre := by
    obtain ⟨rfl, hside⟩ := hleads
    have hindex : m.start.before.length = pre.length - 1 := hs
    rcases List.eq_nil_or_concat pre with rfl | ⟨p, c, rfl⟩
    · have hbefore : m.start.before = [] := List.length_eq_zero_iff.mp hindex
      rcases hside with ⟨rfl, -⟩ | ⟨c, hc, rfl⟩
      · simp [hbefore]
      · exact (hfirst h.sensitive hc (by simpa [hbefore] using hsplit.symm)).elim
    · have hc := h.left c (by simp)
      simp only [List.concat_eq_append, List.append_assoc, List.singleton_append] at hsplit ⊢
      obtain ⟨hbefore, hrest⟩ := List.append_inj hsplit (by simpa using hindex)
      rcases hside with ⟨rfl, -⟩ | ⟨d, -, rfl⟩
      · exact (hfirst hocc.sensitive hc hrest).elim
      · obtain rfl : d = c := (List.cons.inj hrest).1
        rw [hbefore]
  subst hpre
  have htoken := hocc.unique hu h
  have hpost : e ++ m.stop.rest = post := by
    rw [htoken] at hsplit
    exact List.append_cancel_left (List.append_cancel_left hsplit)
  exact ⟨htoken, s, e, hleads, hpost, htoken ▸ hlength, he⟩

/-- Two paths that touch are not both reported. -/
theorem not_touching (hu : env.unicode.Lawful) {content : String}
    (h : ∀ pre token post, Occurs env content.toList pre token post → Reported env content pre token) :
    ¬ Touching env content.toList := by
  rintro ⟨pre, token, c, token', post, h₁, h₂⟩
  obtain ⟨m, hm, hs, -⟩ := reported_iff_match.mp (h _ _ _ h₁)
  obtain ⟨m', hm', hs', -⟩ := reported_iff_match.mp (h _ _ _ h₂)
  obtain ⟨-, s, e, hleads, hpost, hlength, he⟩ := group_of_start hu h₁ hm hs
  obtain ⟨d, u, htoken', -⟩ := first_of_isSensitive h₂.sensitive
  obtain ⟨b, v, htoken, -⟩ := first_of_isSensitive h₁.sensitive
  -- the first match ends with the character between the two
  obtain ⟨x, -, rfl⟩ : ∃ x, isSide env x = true ∧ e = [x] := by
    rcases he with ⟨rfl, hr | hr⟩ | he
    · simp [hr] at hpost
    · simp [hr, htoken'] at hpost
    · exact he
  have hstart : m.startIndex + s.length = pre.length := by
    simp [Match.startIndex, hleads.eq]
  have hlt : m.startIndex < m'.startIndex := by
    simp only [hs', htoken, List.length_append, List.length_cons]
    omega
  have hdisjoint := findIter_disjoint hm hm' hlt
  rw [hs', hlength] at hdisjoint
  simp at hdisjoint
  omega

/-- **Every path is reported** when no two touch. -/
theorem reported_of_not_touching (hu : env.unicode.Lawful) {content : String}
    (ht : ¬ Touching env content.toList) {pre token post : List Char}
    (h : Occurs env content.toList pre token post) : Reported env content pre token := by
  obtain ⟨b, t, a, htext, hlength, hmatch⟩ := matches_of_occurs h
  obtain ⟨m, hm, hle, hlt⟩ := exists_covering not_matches_nil htext hmatch
  rw [hlength] at hle hlt
  rcases Nat.lt_or_ge m.startIndex (pre.length - 1) with hbefore | hge
  · exfalso
    obtain ⟨q, s, e, hleads, hocc, hmlength, he⟩ := occurs_of_match hu hm
    have hstart : m.startIndex + s.length = q.length := by simp [Match.startIndex, hleads.eq]
    have hsle : s.length ≤ 1 ∧ e.length ≤ 1 := by
      refine ⟨?_, ?_⟩
      · rcases hleads.side with ⟨rfl, -⟩ | ⟨c, -, rfl⟩ <;> simp
      · rcases he with ⟨rfl, -⟩ | ⟨c, -, rfl⟩ <;> simp
    -- the character before the path is in the earlier match
    obtain ⟨p, c, rfl⟩ : ∃ p c, pre = p ++ [c] := by
      rcases List.eq_nil_or_concat pre with rfl | ⟨p, c, rfl⟩
      · simp at hbefore
      · exact ⟨p, c, List.concat_eq_append ..⟩
    have hc : plainSide c = true := by
      rw [← isSide_eq hu]
      exact h.left c (by simp)
    have hsplit : q ++ (m.group 1 ++ (e ++ m.stop.rest)) = p ++ (c :: (token ++ post)) := by
      rw [← hocc.split, h.split]
      simp
    rw [List.length_append, List.length_singleton, Nat.add_sub_cancel] at hbefore hlt
    obtain ⟨w, rfl, hw⟩ : ∃ w, p = q ++ w ∧
        m.group 1 ++ (e ++ m.stop.rest) = w ++ c :: (token ++ post) := by
      rcases List.append_eq_append_iff.mp hsplit with ⟨w, hp, hw⟩ | ⟨w, rfl, hw⟩
      · exact ⟨w, hp, hw⟩
      · obtain rfl : w = [] := by
          rw [List.length_append] at hstart
          exact List.length_eq_zero_iff.mp (by omega)
        exact ⟨[], by simp, hw.symm⟩
    have htouch : w = m.group 1 → e ++ m.stop.rest = c :: (token ++ post) → False := by
      rintro rfl he
      rw [he] at hocc
      exact ht ⟨q, m.group 1, c, token, post, hocc, h⟩
    rcases List.append_eq_append_iff.mp hw with ⟨x, rfl, hx⟩ | ⟨x, hx, hrest⟩
    -- after the earlier path: the two touch
    · obtain rfl : x = [] := by
        rw [List.length_append, List.length_append] at hlt
        exact List.length_eq_zero_iff.mp (by omega)
      exact htouch (by simp) hx
    · cases x with
      | nil => exact htouch (by simpa using hx.symm) hrest.symm
      -- inside it: no path begins after the slash of another
      | cons d x =>
        obtain ⟨rfl, hnext⟩ := List.cons.inj hrest
        have hsensitive := hocc.sensitive
        rw [hx] at hsensitive
        obtain ⟨-, f, v, rfl, hf⟩ := slash_inside hu hsensitive hc
        obtain ⟨d, u, rfl, -, hd⟩ := first_of_isSensitive h.sensitive
        obtain rfl : d = f := (List.cons.inj hnext).1
        rw [hd] at hf
        cases hf
  · have hs : m.startIndex = pre.length - 1 := Nat.le_antisymm hle hge
    exact reported_iff_match.mpr ⟨m, hm, hs, (group_of_start hu h hm hs).1⟩

end Occurrences

/-- **Every sensitive path is reported** unless two of them have one character between them: in each
text, exactly then. -/
theorem reported_iff (env : Env) (hu : env.unicode.Lawful) (content : String) :
    (∀ pre token post, Occurs env content.toList pre token post → Reported env content pre token) ↔
      ¬ Touching env content.toList :=
  ⟨not_touching hu, fun ht _ _ _ h => reported_of_not_touching hu ht h⟩

theorem alike_refl (s : List Char) : Alike s s :=
  List.forall₂_same.mpr fun c _ => by simp [sameLetter]

/-- One path is reported. -/
theorem reported_alone : Reported plainEnv ".env" [] ".env".toList := by
  have ht : ¬ Touching plainEnv ".env".toList := by
    rintro ⟨pre, token, c, token', post, h₁, h₂⟩
    have hmem : c ∈ ".env".toList := by
      rw [h₁.split]
      simp
    have hside : isSide plainEnv c = true := h₂.left c (by simp)
    have hnone : ∀ d ∈ ".env".toList, isSide plainEnv d = false := by decide
    rw [hnone c hmem] at hside
    cases hside
  have hsensitive : IsSensitive plainEnv ".env".toList :=
    isSensitive_iff.mpr (.inl ⟨".env".toList, [], rfl, alike_refl _, .inl rfl⟩)
  exact (reported_iff plainEnv Unicode.lawful_ascii ".env").mpr ht [] _ [] ⟨rfl, hsensitive, nofun, nofun⟩

/-- The second of two paths with one space between them is not reported. -/
theorem touching_not_reported : ¬ ∀ (env : Env), env.unicode.Lawful → ∀ (content : String)
    (pre token post : List Char), Occurs env content.toList pre token post →
      Reported env content pre token := by
  intro h
  have hsensitive : IsSensitive plainEnv "id_rsa".toList :=
    isSensitive_iff.mpr (.inr ⟨"id_rsa", by decide, alike_refl _⟩)
  have hleft : ∀ c ∈ (".env ".toList).getLast?, isSide plainEnv c = true := by
    intro c hc
    obtain rfl : ' ' = c := Option.some.inj hc
    decide
  obtain ⟨k, m, hk, hs, -⟩ := h plainEnv Unicode.lawful_ascii ".env id_rsa" ".env ".toList
    "id_rsa".toList [] ⟨rfl, hsensitive, hleft, nofun⟩
  have hstarts : (((SENSITIVE_PATH_RE plainEnv).findIter ".env id_rsa".toList).all fun m =>
      decide (m.startIndex ≠ 4)) = true := by decide
  exact of_decide_eq_true (List.all_eq_true.mp hstarts m (List.mem_of_getElem? hk)) hs

end ReviewChecks

end DevOps
