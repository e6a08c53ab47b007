import DevOpsAssistant.Reviews.GitlabCi
import DevOpsAssistant.Reviews.SensitivePaths
import DevOpsAssistant.Text.Places

/-!
# The lines that findings name

A finding names the line where a match begins. What it reports can begin later in the match, or elsewhere.

* `PathLines`, `RemoteLines`, `UsesLines`: each finding names a line where what it reports begins.
* `pathLines_iff`: a path after a line break is on the line before, too.
* `remoteLines_iff`: each remote include is on the line of the first one.
* `usesLines_iff`: no line ends between the start of an entry and its value.
* **`lines_iff`**: the three together.
-/

namespace DevOps

namespace ReviewChecks

open Regex Text
open PolicyEngine (usesLine usesFindings UNPINNED_GHA_RE versionTag contains found space)
open GitlabCi (checkIncludes includesOf includeParts includeFindings UNPINNED_REMOTE_RE)

variable (env : Env)

/-! ## What findings say -/

/-- The description of a sensitive path. -/
def pathDescription (path : String) : String :=
  "Reference to '" ++ path ++ "' may expose credentials or secrets via artifacts or scripts."

/-- The description of a remote include. -/
def remoteDescription (remote : String) : String :=
  "Remote include '" ++ remote ++ ("' appears unpinned. " ++
    "Remote includes are treated as external dependencies and are not fetched during review.")

/-- The finding is about the value `v` of a `uses` entry. -/
def IsAbout (f : PolicyFinding) (v : String) : Prop :=
  (f.title = "Unpinned GitHub Action" ∧
    f.description = "Action '" ++ v ++ "' is not pinned to an immutable ref.") ∨
  (f.title = "Floating GitHub Action tag" ∧
    f.description = "Action '" ++ v ++ "' uses a mutable version tag.")

/-- The findings of `scan_sensitive_paths` name lines where the paths are. -/
def PathLines (content : String) : Prop :=
  ∀ f ∈ scanSensitivePaths env content, ∀ (n : ℕ) (path : String), f.1.line = some (n : ℤ) →
    f.1.description = pathDescription path → BeginsOn '\n' content.toList n path.toList

/-- The findings of `_check_includes` name lines where the URLs begin. -/
def RemoteLines (content : String) (data : GitlabCi.Entries) : Prop :=
  ∀ f ∈ checkIncludes env content data, ∀ (n : ℕ) (remote : String), f.1.line = some (n : ℤ) →
    f.1.description = remoteDescription remote → BeginsOn '\n' content.toList n remote.toList

/-- The findings of `require_pinned_github_actions` name lines where the values are. -/
def UsesLines (rule : PolicyRule) (configType content : String) (policyPackId : UUID) : Prop :=
  ∀ f ∈ evaluateRule env rule configType content policyPackId, ∀ (n : ℕ) (v : String),
    f.line = some n → IsAbout f v → BeginsOn '\n' content.toList n v.toList

/-! ## When they do -/

/-- What stands on the line before a position. -/
def lineBefore (x : Cursor) : List Char := (x.before.takeWhile (· ≠ '\n')).reverse

/-- The URL of an include that `_check_includes` reports. -/
def unpinnedRemote (item : PyValue) : Option String :=
  (includeParts item).1.filter fun remote =>
    remote ≠ "" && !contains "@" remote && !contains "ref=" remote &&
      ((includeParts item).2.1.filter (· ≠ "")).isNone

/-- What a match of the entry of an action has before the value. -/
def usesLead (m : Regex.Match) : List Char := m.start.rest.take (m.length - (m.group 1).length)

/-- The value is one that `require_pinned_github_actions` reports. -/
def isReported (v : String) : Bool :=
  (!contains "@" v || found (UNPINNED_GHA_RE env) ("uses: " ++ v)) &&
    (contains "@main" v || contains "@master" v || contains ":latest" v || found (versionTag env) v)

/-- A path that is found after a line break is in the line that ends there. -/
def PathsOnLines (content : String) : Prop :=
  ∀ m ∈ (SENSITIVE_PATH_RE env).findIter content.toList, m.start.rest.head? = some '\n' →
    m.group 1 <:+: lineBefore m.start

/-- Each remote URL that is reported begins on the line on which the first match of
`UNPINNED_REMOTE_RE` begins. -/
def RemotesOnLine (content : String) (data : GitlabCi.Entries) : Prop :=
  ∀ m, (UNPINNED_REMOTE_RE env).search content.toList = some m → ∀ item ∈ includesOf data,
    ∀ remote, unpinnedRemote item = some remote → ∃ pre post,
      content.toList = pre ++ (remote.toList ++ post) ∧
        SameLine '\n' content.toList m.startIndex pre.length

/-- Each entry whose value is reported has no line break before the value. -/
def UsesOnLines (rule : PolicyRule) (configType content : String) : Prop :=
  rule.isEnabled = true → PolicyEngine.matchesResource rule configType = true →
    ∀ m ∈ (usesLine env).findIter content.toList,
      isReported env (env.strip (String.ofList (m.group 1))) = true → '\n' ∉ usesLead m

variable {env} {content : String}

theorem lineOf_startIndex {r : Regex} {m : Regex.Match} (h : r.At content.toList m) :
    lineOf content m.startIndex = m.start.before.count '\n' + 1 := by
  unfold lineOf
  rw [h.place, Match.startIndex, ← List.length_reverse, List.take_left, List.count_reverse]

/-! ## Paths -/

/-- A path has no line break. -/
theorem newline_notMem_of_isSensitive (hu : env.unicode.Lawful) {t : List Char}
    (h : IsSensitive env t) : '\n' ∉ t := by
  have hfixed : ∀ s ∈ ".env" :: FIXED_PATHS, ∀ c ∈ s.toList, sameLetter c '\n' = false := by decide
  have halike : ∀ {s : String} {u : List Char}, s ∈ ".env" :: FIXED_PATHS → Alike s.toList u →
      '\n' ∉ u := by
    intro s u hs hu hmem
    obtain ⟨u₁, u₂, rfl⟩ := List.append_of_mem hmem
    obtain ⟨s₁, c, s₂, hsplit, -, hc, -⟩ := hu.split
    rw [hfixed s hs c (by simp [hsplit])] at hc
    cases hc
  rcases isSensitive_iff.mp h with ⟨u, v, rfl, hu', hv⟩ | ⟨s, hs, hu'⟩
  · intro hmem
    rcases List.mem_append.mp hmem with hmem | hmem
    · exact halike List.mem_cons_self hu' hmem
    · rcases hv with rfl | ⟨w, rfl, -, hw⟩
      · cases hmem
      · have hword := hu.isWord_space '\n' (by decide)
        rw [hw '\n' (by simpa using hmem)] at hword
        cases hword
  · exact halike (List.mem_cons_of_mem _ hs) hu'

/-- **The line of a path** is right, unless it follows a line break. -/
theorem path_line (hu : env.unicode.Lawful) {m : Regex.Match}
    (hm : m ∈ (SENSITIVE_PATH_RE env).findIter content.toList) :
    BeginsOn '\n' content.toList (lineOf content m.startIndex) (m.group 1) ↔
      (m.start.rest.head? = some '\n' → m.group 1 <:+: lineBefore m.start) := by
  have hat := mem_findIter hm
  obtain ⟨pre, s, e, hleads, hocc, -, -⟩ := occurs_of_match hu hm
  rw [lineOf_startIndex hat]
  have hrest : m.start.rest = s ++ (m.group 1 ++ (e ++ m.stop.rest)) := by
    have hsplit := hat.place.symm.trans hocc.split
    rw [hleads.eq, List.append_assoc] at hsplit
    exact List.append_cancel_left hsplit
  have hnot := newline_notMem_of_isSensitive hu hocc.sensitive
  have hbegins : '\n' ∉ s → BeginsOn '\n' content.toList (m.start.before.count '\n' + 1) (m.group 1) := by
    intro hs
    refine ⟨pre, _, hocc.split, ?_⟩
    rw [hleads.eq, List.count_append, List.count_reverse, List.count_eq_zero.mpr hs, Nat.add_zero]
  by_cases hhead : m.start.rest.head? = some '\n'
  · have hline := beginsOn_iff_infix (b := m.start.before) (l := []) (r := m.start.rest) hnot
      List.not_mem_nil fun c hc => by
        rw [hhead] at hc
        exact (Option.some.inj hc).symm
    rw [List.nil_append, List.append_nil, ← hat.place] at hline
    rw [hline]
    exact ⟨fun h _ => h, fun h => h hhead⟩
  · refine iff_of_true (hbegins fun hmem => ?_) fun h => absurd h hhead
    rcases hleads.side with ⟨rfl, -⟩ | ⟨c, -, rfl⟩
    · cases hmem
    · obtain rfl : '\n' = c := List.mem_singleton.mp hmem
      exact hhead (by rw [hrest]; rfl)

/-- **The lines of paths** are right if each path after a line break is on the line before. -/
theorem pathLines_iff (hu : env.unicode.Lawful) : PathLines env content ↔ PathsOnLines env content := by
  unfold PathLines PathsOnLines
  rw [scanSensitivePaths_eq]
  constructor
  · intro h m hm
    refine (path_line hu hm).mp ?_
    have := h _ (List.mem_map_of_mem hm) (lineOf content m.startIndex) (String.ofList (m.group 1)) rfl rfl
    rwa [String.toList_ofList] at this
  · intro h f hf n path hline hdescription
    obtain ⟨m, hm, rfl⟩ := List.mem_map.mp hf
    obtain rfl : lineOf content m.startIndex = n := Int.ofNat.inj (Option.some.inj hline)
    obtain rfl : String.ofList (m.group 1) = path := eq_of_between hdescription
    rw [String.toList_ofList]
    exact (path_line hu hm).mpr (h m hm)

/-! ## Includes -/

/-- The finding about a remote URL. -/
def remoteFinding (env : Env) (content remote : String) : StaticFinding :=
  finding .medium "Unpinned remote include" (remoteDescription remote)
    "Pin remote includes to an immutable version or checksummed artifact."
    (((UNPINNED_REMOTE_RE env).search content.toList).map fun m => lineOf content m.startIndex)
    (some "gitlab_unpinned_remote_include")

/-- The findings about an include that name a line are about its URL. -/
theorem mem_includeFindings {item : PyValue} {f : StaticFinding} (hf : f.1.line ≠ none) :
    f ∈ includeFindings env content item ↔
      ∃ remote, unpinnedRemote item = some remote ∧ f = remoteFinding env content remote := by
  unfold includeFindings unpinnedRemote
  obtain ⟨remote, ref, project⟩ := includeParts item
  have hproject : ∀ {b d r k}, f ∉ findingIf b (finding .medium "Unpinned GitLab include" d r none k) := by
    intro b d r k h
    cases b with
    | false => cases h
    | true => exact hf (by rw [List.mem_singleton.mp h]; rfl)
  rw [List.mem_append, or_iff_right hproject]
  cases remote with
  | none =>
    constructor
    · exact nofun
    · rintro ⟨remote, h, -⟩
      cases h
  | some remote =>
    have hfinding : remoteFinding env content remote = finding .medium "Unpinned remote include"
        ("Remote include '" ++ remote ++ "' appears unpinned. " ++
          "Remote includes are treated as external dependencies and are not fetched during review.")
        "Pin remote includes to an immutable version or checksummed artifact."
        (((UNPINNED_REMOTE_RE env).search content.toList).map fun m => lineOf content m.startIndex)
        (some "gitlab_unpinned_remote_include") := by
      have hdescription : remoteDescription remote = _ :=
        (@String.append_assoc ("Remote include '" ++ remote) _ _).symm
      rw [remoteFinding, hdescription]
    by_cases hempty : remote = ""
    · have hnone : ∀ p : String → Bool, (some remote).filter (fun r => decide (r ≠ "") && p r) = none :=
        fun p => by simp [hempty]
      simp only [Bool.and_assoc, hnone]
      rw [Option.filter_some, if_neg (by simp [hempty])]
      simp
    · rw [Option.filter_some, if_pos (by simp [hempty]), Option.filter_some]
      simp only [hempty, ne_eq, not_false_eq_true, decide_true, Bool.true_and, ← hfinding]
      cases !contains "@" remote && !contains "ref=" remote &&
          (ref.filter fun r => decide ¬r = "").isNone with
      | false => simp [findingIf]
      | true => simp [findingIf]

/-- **The lines of includes** are right if each URL is on the line of the first one. -/
theorem remoteLines_iff {data : GitlabCi.Entries} :
    RemoteLines env content data ↔ RemotesOnLine env content data := by
  unfold RemoteLines RemotesOnLine checkIncludes
  have hline : ∀ {m : Regex.Match} {t : List Char},
      (UNPINNED_REMOTE_RE env).search content.toList = some m →
      (BeginsOn '\n' content.toList (lineOf content m.startIndex) t ↔ ∃ pre post,
        content.toList = pre ++ (t ++ post) ∧ SameLine '\n' content.toList m.startIndex pre.length) := by
    intro m t hm
    refine beginsOn_iff_sameLine ?_
    rw [(at_of_search hm).place]
    simp [Match.startIndex]
  constructor
  · intro h m hm item hitem remote hremote
    refine (hline hm).mp (h (remoteFinding env content remote) ?_ _ remote ?_ rfl)
    · exact List.mem_flatMap.mpr ⟨item, hitem, (mem_includeFindings (by
        simp [remoteFinding, finding, hm])).mpr ⟨remote, hremote, rfl⟩⟩
    · simp [remoteFinding, finding, hm]
  · intro h f hf n remote hn hdescription
    obtain ⟨item, hitem, hf⟩ := List.mem_flatMap.mp hf
    obtain ⟨remote', hremote, rfl⟩ := (mem_includeFindings (by rw [hn]; exact fun h => by cases h)).mp hf
    obtain rfl : remote' = remote := eq_of_between hdescription
    cases hm : (UNPINNED_REMOTE_RE env).search content.toList with
    | none => simp [remoteFinding, finding, hm] at hn
    | some m =>
      obtain rfl : lineOf content m.startIndex = n := by
        have hline : some (Int.ofNat (lineOf content m.startIndex)) = some (n : ℤ) := by
          simpa only [remoteFinding, finding, hm, Option.map_some] using hn
        exact Int.ofNat.inj (Option.some.inj hline)
      exact (hline hm).mpr (h m hm item hitem remote' hremote)

/-! ## Entries of actions -/

theorem usesLine_eq : usesLine env =
    concat ([lineStart, star (space env), lit ['-'], star (space env), lit "uses:".toList,
      star (space env)] ++ group 1 (plus dot) :: [lineEnd]) := rfl

theorem contains_iff {t v : String} : contains t v = true ↔ t.toList <:+: v.toList := by
  unfold contains found
  rw [search_isSome_iff]
  constructor
  · rintro ⟨b, u, a, htext, hm⟩
    rw [matches_lit.mp hm] at htext
    exact ⟨b.reverse, a, htext.symm⟩
  · rintro ⟨a, b, h⟩
    exact ⟨a.reverse, t.toList, b, by rw [List.reverse_reverse, h], matches_lit.mpr rfl⟩

/-- The parts of a match of an entry. -/
structure UsesMatch (env : Env) (content : String) (m : Regex.Match) : Prop where
  split : content.toList = m.start.before.reverse ++ (usesLead m ++ (m.group 1 ++ m.stop.rest))
  lineStart : m.start.before.head?.all (· == '\n') = true
  lead : ∀ c ∈ usesLead m, c ≠ '@' ∧ c ≠ 'l'
  colon : ∃ x y, usesLead m = x ++ ':' :: y ∧ ':' ∉ x ∧ ∀ c ∈ y, Text.isSpace c = true
  group : '\n' ∉ m.group 1
  lineEnd : ∀ c ∈ m.stop.rest.head?, c = '\n'

theorem usesMatch (hu : env.unicode.Lawful) {m : Regex.Match}
    (hm : m ∈ (usesLine env).findIter content.toList) : UsesMatch env content m := by
  have hat := mem_findIter hm
  have hstop := hat.stop_mem
  rw [usesLine_eq] at hstop
  have hplain : (concat [Regex.lineEnd]).Plain := trivial
  obtain ⟨s, t, e, hpast, hgroup, hs, ht, he⟩ := exists_captured hplain hstop
  have htext : m.group 1 = t := by
    unfold Match.group
    rw [hgroup]
    rfl
  obtain ⟨rfl, hend⟩ : e = [] ∧ _ := he
  have hlead : usesLead m = s := by
    unfold usesLead Match.length
    rw [htext, hpast.rest]
    simp only [List.append_nil, List.append_assoc, List.length_append]
    rw [show s.length + (t.length + m.stop.rest.length) - m.stop.rest.length - t.length = s.length by
      omega]
    exact List.take_left
  obtain ⟨hne, hdot⟩ := matches_plus_char.mp ht
  have hspaces : ∀ {b t a : List Char}, (star (space env)).Matches b t a →
      ∀ c ∈ t, Text.isSpace c = true := by
    intro b t a h c hc
    rw [← hu.isSpace]
    exact matches_star_char.mp h c hc
  refine ⟨?_, ?_, ?_, ?_, ?_, ?_⟩
  · rw [hlead, htext, hat.place, hpast.rest]
    simp
  · obtain ⟨u, v, -, ⟨-, h⟩, -⟩ := matches_concat_cons.mp hs
    exact h
  · rw [hlead]
    have hspace : (star (space env)).Within fun c => c ≠ '@' ∧ c ≠ 'l' := by
      intro c hc
      rw [hu.isSpace] at hc
      exact ⟨by rintro rfl; exact absurd hc (by decide), by rintro rfl; exact absurd hc (by decide)⟩
    refine hs.within (within_concat fun r hr => ?_)
    simp only [List.mem_cons, List.not_mem_nil, or_false] at hr
    rcases hr with rfl | rfl | rfl | rfl | rfl | rfl
    · trivial
    · exact hspace
    · exact within_lit (by decide)
    · exact hspace
    · exact within_lit (by decide)
    · exact hspace
  · obtain ⟨u₀, v₀, rfl, ⟨rfl, -⟩, hv₀⟩ := matches_concat_cons.mp hs
    obtain ⟨u₁, v₁, rfl, hu₁, hv₁⟩ := matches_concat_cons.mp hv₀
    obtain ⟨u₂, v₂, rfl, hu₂, hv₂⟩ := matches_concat_cons.mp hv₁
    obtain ⟨u₃, v₃, rfl, hu₃, hv₃⟩ := matches_concat_cons.mp hv₂
    obtain ⟨u₄, v₄, rfl, hu₄, hv₄⟩ := matches_concat_cons.mp hv₃
    obtain rfl := matches_lit.mp hu₂
    obtain rfl := matches_lit.mp hu₄
    have hcolon : ∀ {u : List Char}, (∀ c ∈ u, Text.isSpace c = true) → ':' ∉ u := fun h hmem =>
      absurd (h _ hmem) (by decide)
    refine ⟨u₁ ++ '-' :: (u₃ ++ ['u', 's', 'e', 's']), v₄, by rw [hlead]; simp, ?_, hspaces hv₄⟩
    simp [hcolon (hspaces hu₁), hcolon (hspaces hu₃)]
  · rw [htext]
    exact fun h => by simpa using hdot _ h
  · intro c hc
    rw [Option.mem_def.mp hc] at hend
    simpa using hend

/-- What is reported has one of these characters. -/
theorem exists_of_isReported {v : String} (h : isReported env v = true) : '@' ∈ v.toList ∨ 'l' ∈ v.toList := by
  unfold isReported at h
  simp only [Bool.and_eq_true, Bool.or_eq_true] at h
  rcases h.2 with ((h | h) | h) | h
  · exact .inl ((contains_iff.mp h).subset (by decide))
  · exact .inl ((contains_iff.mp h).subset (by decide))
  · exact .inr ((contains_iff.mp h).subset (by decide))
  · obtain ⟨b, t, a, htext, hm⟩ := search_isSome_iff.mp h
    obtain ⟨u, w, rfl, hu, -⟩ := matches_concat_cons.mp hm
    rw [matches_lit.mp hu] at htext
    exact .inl (by simp [htext])

/-- **The line of an entry** is right if no line ends before the value. -/
theorem uses_line (hu : env.unicode.Lawful) (hs : ∀ s, env.strip s = stripped s) {m : Regex.Match}
    (hm : m ∈ (usesLine env).findIter content.toList)
    (hr : isReported env (env.strip (String.ofList (m.group 1))) = true) :
    BeginsOn '\n' content.toList (lineOf content m.startIndex)
      (env.strip (String.ofList (m.group 1))).toList ↔ '\n' ∉ usesLead m := by
  have hmatch := usesMatch hu hm
  have hv : (env.strip (String.ofList (m.group 1))).toList <:+: m.group 1 := by
    rw [hs, stripped, String.toList_ofList, String.toList_ofList]
    exact strip_isInfix _ _
  have hchar := exists_of_isReported hr
  generalize env.strip (String.ofList (m.group 1)) = v at hv hchar
  rw [lineOf_startIndex (mem_findIter hm)]
  constructor
  · intro hbegins hmem
    obtain ⟨l, s, hlead, hl, hsep⟩ := exists_line_end '\n' (usesLead m)
    have hnot : '\n' ∉ v.toList := fun h => hmatch.group (hv.subset h)
    have hs' : s ≠ [] := by
      rintro rfl
      rw [hlead, List.append_nil] at hmem
      exact hl hmem
    have hstart : (m.start.before.takeWhile (· ≠ '\n')).reverse = [] := by
      have hline := hmatch.lineStart
      cases hb : m.start.before with
      | nil => rfl
      | cons c b =>
        rw [hb] at hline
        obtain rfl : c = '\n' := by simpa using hline
        simp
    have hiff := beginsOn_iff_infix (b := m.start.before) (l := l)
      (r := s ++ (m.group 1 ++ m.stop.rest)) hnot hl fun c hc => by
        cases s with
        | nil => exact absurd rfl hs'
        | cons d s => exact hsep c hc
    have hsplit : content.toList = m.start.before.reverse ++ (l ++ (s ++ (m.group 1 ++ m.stop.rest))) := by
      rw [hmatch.split, hlead, List.append_assoc]
    rw [hstart, List.nil_append, ← hsplit] at hiff
    have hinside := hiff.mp hbegins
    have hsub : ∀ c ∈ v.toList, c ≠ '@' ∧ c ≠ 'l' := fun c hc =>
      hmatch.lead c (hlead ▸ List.mem_append_left s (hinside.subset hc))
    rcases hchar with h | h
    · exact (hsub _ h).1 rfl
    · exact (hsub _ h).2 rfl
  · intro hnot
    obtain ⟨x, y, hxy⟩ := hv
    refine ⟨m.start.before.reverse ++ (usesLead m ++ x), y ++ m.stop.rest, ?_, ?_⟩
    · rw [hmatch.split, ← hxy]
      simp
    · have hx : '\n' ∉ x := fun h => hmatch.group (by simp [← hxy, h])
      rw [List.count_append, List.count_append, List.count_eq_zero.mpr hnot,
        List.count_eq_zero.mpr hx, List.count_reverse]

variable {rule : PolicyRule} {configType : String} {policyPackId : UUID}

/-- The findings about an entry. -/
theorem of_mem_usesFindings {m : Regex.Match} {f : PolicyFinding}
    (hf : f ∈ usesFindings env rule content policyPackId m) :
    isReported env (env.strip (String.ofList (m.group 1))) = true ∧
      f.line = some (lineOf content m.startIndex) ∧
      IsAbout f (env.strip (String.ofList (m.group 1))) := by
  unfold usesFindings at hf
  unfold isReported
  generalize env.strip (String.ofList (m.group 1)) = v at hf ⊢
  dsimp only at hf
  split at hf
  · next h =>
    rw [h]
    split at hf
    · next h' =>
      rw [List.mem_singleton.mp hf, h']
      exact ⟨rfl, rfl, .inl ⟨rfl, rfl⟩⟩
    · split at hf
      · next h' =>
        rw [List.mem_singleton.mp hf, h', Bool.or_true]
        exact ⟨rfl, rfl, .inr ⟨rfl, rfl⟩⟩
      · cases hf
  · cases hf

theorem exists_mem_usesFindings (rule : PolicyRule) (content : String) (policyPackId : UUID)
    {m : Regex.Match}
    (h : isReported env (env.strip (String.ofList (m.group 1))) = true) :
    ∃ f, f ∈ usesFindings env rule content policyPackId m := by
  unfold usesFindings
  unfold isReported at h
  generalize env.strip (String.ofList (m.group 1)) = v at h ⊢
  rw [Bool.and_eq_true] at h
  simp only [h.1, if_true]
  split
  · exact ⟨_, List.mem_singleton_self _⟩
  · next hnot =>
    rw [if_pos (((Bool.or_eq_true _ _).mp h.2).resolve_left hnot)]
    exact ⟨_, List.mem_singleton_self _⟩

theorem IsAbout.unique {f : PolicyFinding} {v w : String} (h : IsAbout f v) (h' : IsAbout f w) :
    v = w := by
  rcases h with ⟨ht, hd⟩ | ⟨ht, hd⟩ <;> rcases h' with ⟨ht', hd'⟩ | ⟨ht', hd'⟩
  · exact eq_of_between (hd.symm.trans hd')
  · exact absurd (ht.symm.trans ht') (by decide)
  · exact absurd (ht.symm.trans ht') (by decide)
  · exact eq_of_between (hd.symm.trans hd')

/-- **The lines of entries** are right if no line ends between an entry and its value. -/
theorem usesLines_iff (hu : env.unicode.Lawful) (hs : ∀ s, env.strip s = stripped s)
    (hkey : rule.ruleKey = "require_pinned_github_actions") :
    UsesLines env rule configType content policyPackId ↔ UsesOnLines env rule configType content := by
  have hrule : PolicyEngine.ruleFindings env rule configType content policyPackId =
      ((usesLine env).findIter content.toList).flatMap (usesFindings env rule content policyPackId) := by
    unfold PolicyEngine.ruleFindings
    simp only [hkey]
  unfold UsesLines UsesOnLines evaluateRule
  constructor
  · intro h henabled hmatches m hm hr
    refine (uses_line hu hs hm hr).mp ?_
    obtain ⟨f, hf⟩ := exists_mem_usesFindings rule content policyPackId hr
    obtain ⟨-, hline, habout⟩ := of_mem_usesFindings hf
    refine h f ?_ _ _ hline habout
    rw [henabled, hmatches, hrule]
    exact List.mem_flatMap.mpr ⟨m, hm, hf⟩
  · intro h f hf n v hn hv
    split at hf
    · cases hf
    · next hnot =>
      simp only [Bool.or_eq_true, Bool.not_eq_true', not_or, Bool.not_eq_false] at hnot
      rw [hrule] at hf
      obtain ⟨m, hm, hf⟩ := List.mem_flatMap.mp hf
      obtain ⟨hr, hline, habout⟩ := of_mem_usesFindings hf
      obtain rfl : lineOf content m.startIndex = n := Option.some.inj (hline.symm.trans hn)
      rw [← habout.unique hv]
      exact (uses_line hu hs hm hr).mpr (h hnot.1 hnot.2 m hm hr)

/-- **The findings name the lines of what they report** exactly if no path stands on a line that begins
with it, each remote include is on the line of the first one, and no line ends between the start of an
entry and its value. -/
theorem lines_iff (env : Env) (hu : env.unicode.Lawful) (hs : ∀ s, env.strip s = stripped s)
    (content : String) (data : GitlabCi.Entries) (rule : PolicyRule)
    (hkey : rule.ruleKey = "require_pinned_github_actions") (configType : String)
    (policyPackId : UUID) :
    (PathLines env content ∧ RemoteLines env content data ∧
        UsesLines env rule configType content policyPackId) ↔
      PathsOnLines env content ∧ RemotesOnLine env content data ∧
        UsesOnLines env rule configType content :=
  and_congr (pathLines_iff hu) (and_congr remoteLines_iff (usesLines_iff hu hs hkey))

/-- The classes of ASCII, and `str.strip`. -/
def strippingEnv : Env := { plainEnv with strip := stripped }

/-- A rule that wants actions to be pinned. -/
def pinnedActionsRule : PolicyRule :=
  { id := 5, policyPackId := 4, ruleKey := "require_pinned_github_actions", name := "Pinned"
    description := "", resourceType := "github-actions", severity := .high
    configurationJson := ⟨[], []⟩, remediation := none, isEnabled := true, createdAt := 0
    updatedAt := 0 }

/-- A workflow of one entry. -/
theorem lines_of_entry : PathLines strippingEnv "- uses: a@main" ∧
    RemoteLines strippingEnv "- uses: a@main" [] ∧
      UsesLines strippingEnv pinnedActionsRule "github-actions" "- uses: a@main" 4 := by
  refine (lines_iff strippingEnv Unicode.lawful_ascii (fun _ => rfl) "- uses: a@main" []
    pinnedActionsRule rfl "github-actions" 4).mpr ⟨?_, ?_, ?_⟩
  · show ∀ m ∈ _, _
    decide
  · exact fun m _ item hitem => nomatch hitem
  · intro _ _
    show ∀ m ∈ _, _
    decide

/-- A path at the start of a line is reported on the line before. -/
theorem path_on_line_before : ¬ ∀ (env : Env), env.unicode.Lawful → (∀ s, env.strip s = stripped s) →
    ∀ (content : String) (data : GitlabCi.Entries) (rule : PolicyRule),
      rule.ruleKey = "require_pinned_github_actions" → ∀ (configType : String) (policyPackId : UUID),
        PathLines env content ∧ RemoteLines env content data ∧
          UsesLines env rule configType content policyPackId := by
  intro h
  have hlines := (h strippingEnv Unicode.lawful_ascii (fun _ => rfl) "x\n.env" [] pinnedActionsRule rfl
    "github-actions" 4).1
  have hnot : ¬ ∀ m ∈ (SENSITIVE_PATH_RE strippingEnv).findIter "x\n.env".toList,
      m.start.rest.head? = some '\n' → m.group 1 <:+: lineBefore m.start := by
    decide +kernel
  exact hnot ((pathLines_iff Unicode.lawful_ascii).mp hlines)

end ReviewChecks

end DevOps
