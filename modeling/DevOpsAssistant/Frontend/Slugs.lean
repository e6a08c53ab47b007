import DevOpsAssistant.Frontend.Strings
import DevOpsAssistant.Lists.Words
import DevOpsAssistant.Services.OrganizationService
import DevOpsAssistant.Text.Strings

/-!
# Slugs in the browser and in the service

* `slugify`: the slug that a form shows; `nameWords`: the words it is made of.
* `slugChars_eq`: what the service makes of a text of letters, digits and hyphens.
* **`normalizeSlug_slugify_iff`**: the slug is stored as it is shown, unless a word ends at its last
  place but one.
-/

namespace DevOps

namespace Slugs

/-- The lower case of an ASCII letter; other units are left alone. -/
def lowerUnit (u : UInt16) : UInt16 := if 65 ≤ u.toNat ∧ u.toNat ≤ 90 then u + 32 else u

/-- `string.toLowerCase()`: an ASCII letter becomes its lower case, another ASCII character stays. -/
structure LowerCase (lower : JsString → JsString) : Prop where
  ascii : ∀ (s : JsString) (u : UInt16), u ∈ s → u.toNat < 128 → lowerUnit u ∈ lower s

/-- A unit of `[a-z0-9]`. -/
def isWordUnit (u : UInt16) : Bool :=
  (97 ≤ u.toNat && u.toNat ≤ 122) || (48 ≤ u.toNat && u.toNat ≤ 57)

/-- An ASCII letter or digit. -/
def isAsciiAlnum (u : UInt16) : Bool := isWordUnit (lowerUnit u)

variable (lower : JsString → JsString)

def slugify (value : JsString) : JsString :=
  let s := lower (trim value)
  let s := s.filter fun u => !(js "'\"").contains u
  let s := Words.marked isWordUnit (unit '-') false s
  let s := (s.dropWhile (· = unit '-')).rdropWhile (· = unit '-')
  s.take 64

/-- The words of a name: letters and digits in lower case, also across quotes. -/
def nameWords (value : JsString) : List JsString :=
  Words.words isWordUnit ((lower (trim value)).filter fun u => !(js "'\"").contains u)

/-- The text of a string of ASCII characters. -/
def text (s : JsString) : String := String.ofList (s.map fun u => Char.ofNat u.toNat)

variable {lower}

/-! ## The slug of the browser -/

theorem slugify_eq (value : JsString) :
    slugify lower value = ([unit '-'].intercalate (nameWords lower value)).take 64 := by
  rw [slugify, Words.trimmed_marked (by decide), nameWords]

variable (lower) in
theorem word_spec (value : JsString) : ∀ w ∈ nameWords lower value, w ≠ [] ∧ unit '-' ∉ w := by
  intro w hw
  refine ⟨Words.ne_nil_of_mem_words hw, fun h => ?_⟩
  have : isWordUnit (unit '-') = true := Words.forall_of_mem_words _ w hw _ h
  exact absurd this (by decide)

/-- A letter or digit is in a word. -/
theorem nameWords_ne_nil (hl : LowerCase lower) {value : JsString}
    (h : ∃ u ∈ value, isAsciiAlnum u = true) : nameWords lower value ≠ [] := by
  obtain ⟨u, hu, halnum⟩ := h
  have hword : isWordUnit (lowerUnit u) = true := halnum
  have hrange : (65 ≤ u.toNat ∧ u.toNat ≤ 90) ∨ (97 ≤ u.toNat ∧ u.toNat ≤ 122) ∨
      (48 ≤ u.toNat ∧ u.toNat ≤ 57) := by
    by_cases hup : 65 ≤ u.toNat ∧ u.toNat ≤ 90
    · exact .inl hup
    · rw [lowerUnit, if_neg hup] at hword
      simp only [isWordUnit, Bool.or_eq_true, Bool.and_eq_true, decide_eq_true_eq] at hword
      exact .inr hword
  have hspace : isJsSpace u = false := by
    unfold isJsSpace
    simp
    omega
  have hmem : lowerUnit u ∈ lower (trim value) := hl.ascii _ u (mem_trim hu hspace) (by omega)
  have hquote : (js "'\"").contains (lowerUnit u) = false := by
    rw [← Bool.not_eq_true]
    intro hcontains
    have hmem : lowerUnit u ∈ js "'\"" := by simpa using hcontains
    revert hword
    generalize lowerUnit u = v at hmem
    revert v
    decide
  exact Words.words_ne_nil hword (List.mem_filter.mpr ⟨hmem, by rw [hquote]; rfl⟩)

/-- The slug has only units of slugs. -/
theorem mem_slugify {name : JsString} {u : UInt16} (h : u ∈ slugify lower name) :
    isWordUnit u = true ∨ u = unit '-' := by
  rw [slugify_eq] at h
  obtain h | ⟨w, hw, hu⟩ := Words.mem_intercalate (List.mem_of_mem_take h)
  · exact .inr h
  · exact .inl (Words.forall_of_mem_words _ w hw u hu)

/-- The slug of the browser ends with a hyphen where one stands in its last place. -/
theorem getLast?_slugify (name : JsString) : (slugify lower name).getLast? = some (unit '-') ↔
    ([unit '-'].intercalate (nameWords lower name))[63]? = some (unit '-') := by
  have hlast := Words.getLast?_intercalate (word_spec lower name)
  rw [slugify_eq, List.getLast?_take, if_neg (by decide)]
  cases h : ([unit '-'].intercalate (nameWords lower name))[64 - 1]? with
  | none => simpa using hlast
  | some u => simp

/-! ## The slug of the service -/

theorem isSlugChar_iff {c : Char} : isSlugChar c = true ↔
    (97 ≤ c.toNat ∧ c.toNat ≤ 122) ∨ (48 ≤ c.toNat ∧ c.toNat ≤ 57) ∨ c = '-' := by
  have hle : ∀ a b : Char, a ≤ b ↔ a.toNat ≤ b.toNat := fun a b => UInt32.le_iff_toNat_le
  simp only [isSlugChar, Bool.or_eq_true, Bool.and_eq_true, decide_eq_true_eq, beq_iff_eq, hle,
    or_assoc]
  rfl

/-- Hyphens that do not stand side by side are not collapsed. -/
theorem collapseHyphens_eq_self {cs : List Char}
    (h : cs.IsChain fun x y => ¬ (x = '-' ∧ y = '-')) : collapseHyphens cs = cs := by
  induction cs with
  | nil => rfl
  | cons c cs ih =>
    have hcs := ih h.tail
    cases cs with
    | nil => simp [collapseHyphens]
    | cons d ds =>
      have hpair : ¬ (c = '-' ∧ d = '-') := (List.isChain_cons_cons.mp h).1
      rw [collapseHyphens, hcs]
      rintro _ rfl hd
      exact hpair ⟨rfl, (List.cons.inj hd).1⟩

/-- The service reads the units of a slug as characters of a slug. -/
theorem ofNat_spec {u : UInt16} (h : isWordUnit u = true ∨ u = unit '-') :
    isSlugChar (Char.ofNat u.toNat) = true ∧ (Char.ofNat u.toNat = '-' ↔ u = unit '-') := by
  have hlt : u.toNat < 128 := by
    obtain h | rfl := h
    · simp only [isWordUnit, Bool.or_eq_true, Bool.and_eq_true, decide_eq_true_eq] at h
      omega
    · decide
  have hnat : (Char.ofNat u.toNat).toNat = u.toNat := Text.toNat_ofNat (by omega)
  have hdash : Char.ofNat u.toNat = '-' ↔ u = unit '-' := by
    rw [← Char.toNat_inj, hnat, ← UInt16.toNat_inj]
    rfl
  refine ⟨isSlugChar_iff.mpr ?_, hdash⟩
  rw [hnat, hdash]
  obtain h | h := h
  · simp only [isWordUnit, Bool.or_eq_true, Bool.and_eq_true, decide_eq_true_eq] at h
    omega
  · exact .inr (.inr h)

section

variable {env : Env} (hlower : ∀ s : String, (∀ c ∈ s.toList, c.toNat < 128) →
  env.lower s = Text.lowerAscii s) (hstrip : ∀ s, env.strip s = Text.stripped s)

include hlower hstrip

/-- **What the service makes of a slug.** Only a hyphen at its end is taken away. -/
theorem slugChars_eq {cs : List Char} (hall : ∀ c ∈ cs, isSlugChar c = true)
    (hchain : cs.IsChain fun x y => ¬ (x = '-' ∧ y = '-')) (hhead : cs.head? ≠ some '-') :
    slugChars env (String.ofList cs) = cs.rdropWhile (· == '-') := by
  have hspace : ∀ c ∈ cs, Text.isSpace c = false := by
    intro c hc
    have := isSlugChar_iff.mp (hall c hc)
    obtain h | h | rfl := this
    · exact Text.isSpace_letter (by omega) h.2
    · unfold Text.isSpace
      simp
      omega
    · decide
  have hstripped : Text.strip Text.isSpace cs = cs := by
    have hdrop : ∀ l : List Char, (∀ c ∈ l, c ∈ cs) → l.dropWhile Text.isSpace = l := by
      intro l hl
      cases l with
      | nil => rfl
      | cons c l => exact List.dropWhile_cons_of_neg (by simp [hspace c (hl c (by simp))])
    rw [Text.strip, hdrop cs fun _ h => h, hdrop cs.reverse fun _ h => List.mem_reverse.mp h,
      List.reverse_reverse]
  have hlow : ∀ c ∈ cs, c.toLower = c := by
    intro c hc
    refine (Text.toNat_toLower c).resolve_right fun h => ?_
    have := isSlugChar_iff.mp (hall c hc)
    obtain h' | h' | rfl := this
    · omega
    · omega
    · revert h
      decide
  have hmap : cs.map (fun c => if c = ' ' then '-' else c) = cs := by
    rw [List.map_congr_left (g := id), List.map_id]
    intro c hc
    rw [if_neg, id]
    rintro rfl
    exact absurd (hall _ hc) (by decide)
  have hmap' : cs.map (fun c => if isSlugChar c then c else '-') = cs := by
    rw [List.map_congr_left (g := id), List.map_id]
    intro c hc
    rw [if_pos (hall c hc), id]
  have hascii : ∀ c ∈ cs, c.toNat < 128 := by
    intro c hc
    obtain h | h | rfl := isSlugChar_iff.mp (hall c hc)
    · omega
    · omega
    · decide
  have hdrop : cs.dropWhile (· == '-') = cs := by
    cases cs with
    | nil => rfl
    | cons c cs =>
      refine List.dropWhile_cons_of_neg ?_
      simpa using hhead
  rw [slugChars, hstrip, Text.stripped, String.toList_ofList, hstripped,
    hlower _ (by simpa using hascii), Text.lowerAscii, String.toList_ofList, String.toList_ofList,
    List.map_congr_left hlow, List.map_id', hmap, hmap', collapseHyphens_eq_self hchain,
    stripHyphens, hdrop, List.rdropWhile]

variable (lower) in
/-- What the service makes of the slug of the browser. -/
theorem slugChars_slugify (name : JsString) : slugChars env (text (slugify lower name)) =
    ((slugify lower name).map fun u => Char.ofNat u.toNat).rdropWhile (· == '-') := by
  have hws := word_spec lower name
  refine slugChars_eq hlower hstrip ?_ ?_ ?_
  · intro c hc
    obtain ⟨u, hu, rfl⟩ := List.mem_map.mp hc
    exact (ofNat_spec (mem_slugify hu)).1
  · rw [List.isChain_map]
    refine List.IsChain.imp_of_mem_imp (fun x y hx hy h => ?_) ?_ (R := fun x y =>
      ¬ (x = unit '-' ∧ y = unit '-'))
    · rwa [(ofNat_spec (mem_slugify hx)).2, (ofNat_spec (mem_slugify hy)).2]
    · rw [slugify_eq]
      exact (Words.isChain_intercalate hws).take 64
  · rw [List.head?_map]
    intro h
    obtain ⟨u, hu, hdash⟩ := Option.map_eq_some_iff.mp h
    have hmem : u ∈ slugify lower name := List.mem_of_mem_head? hu
    rw [(ofNat_spec (mem_slugify hmem)).2.mp hdash, slugify_eq, List.head?_take,
      if_neg (by decide)] at hu
    exact Words.head?_intercalate hws hu

/-- The service stores the slug of the browser as it is, unless it ends with a hyphen. -/
theorem normalizeSlug_eq_pure_iff (name : JsString) (hne : slugify lower name ≠ []) :
    normalizeSlug env (text (slugify lower name)) = pure (text (slugify lower name)) ↔
      (slugify lower name).getLast? ≠ some (unit '-') := by
  have hchars := slugChars_slugify lower hlower hstrip name
  have hself : ((slugify lower name).map fun u => Char.ofNat u.toNat).rdropWhile (· == '-') =
      (slugify lower name).map (fun u => Char.ofNat u.toNat) ↔
      (slugify lower name).getLast? ≠ some (unit '-') := by
    rw [List.rdropWhile_eq_self_iff, List.getLast?_eq_getLast_of_ne_nil hne]
    have hlast := (ofNat_spec (mem_slugify (List.getLast_mem hne))).2
    simp [hne, hlast]
  rw [← hself]
  constructor
  · intro h
    unfold normalizeSlug at h
    rw [hchars] at h
    dsimp only at h
    split_ifs at h
    exact String.ofList_injective (Txn.Prog.ret.inj h)
  · intro h
    have hall : ((slugify lower name).map fun u => Char.ofNat u.toNat).all isSlugChar = true := by
      rw [List.all_eq_true]
      intro c hc
      obtain ⟨u, hu, rfl⟩ := List.mem_map.mp hc
      exact (ofNat_spec (mem_slugify hu)).1
    have hempty : ((slugify lower name).map fun u => Char.ofNat u.toNat).isEmpty = false := by
      simpa using hne
    unfold normalizeSlug
    rw [hchars, h]
    dsimp only
    rw [hall, hempty]
    rfl

/-- **Slugs that are shown and stored.** The service stores the slug that the browser shows if and
only if no words from the beginning of the name fill 63 places with another word behind them. -/
theorem normalizeSlug_slugify_iff (hl : LowerCase lower) {name : JsString}
    (hname : ∃ u ∈ name, isAsciiAlnum u = true) :
    normalizeSlug env (text (slugify lower name)) = pure (text (slugify lower name)) ↔
      ∀ k, 0 < k → k < (nameWords lower name).length →
        ([unit '-'].intercalate ((nameWords lower name).take k)).length ≠ 63 := by
  have hws := word_spec lower name
  have hne : slugify lower name ≠ [] := by
    rw [slugify_eq, Ne, List.take_eq_nil_iff, not_or]
    exact ⟨by decide, Words.intercalate_ne_nil hws (nameWords_ne_nil hl hname)⟩
  rw [normalizeSlug_eq_pure_iff hlower hstrip name hne, Ne, getLast?_slugify, Words.getElem?_intercalate_eq_mark hws]
  constructor
  · intro h k hk hlt hlen
    exact h ⟨k, hk, hlt, hlen⟩
  · rintro h ⟨k, hk, hlt, hlen⟩
    exact h k hk hlt hlen

end

/-- Lower case of ASCII letters only. -/
def lowerAscii (s : JsString) : JsString := s.map lowerUnit

theorem lowerCase_lowerAscii : LowerCase lowerAscii where
  ascii _ _ hu _ := List.mem_map_of_mem hu

/-- An environment with the white space of `str.strip` and the lower case of ASCII letters. -/
def asciiEnv : Env := { Env.trial with lower := Text.lowerAscii, strip := Text.stripped }

theorem normalizeSlug_myTeam :
    normalizeSlug asciiEnv (text (slugify lowerAscii (js "  My Team  "))) =
        pure (text (slugify lowerAscii (js "  My Team  "))) ↔
      ∀ k, 0 < k → k < (nameWords lowerAscii (js "  My Team  ")).length →
        ([unit '-'].intercalate ((nameWords lowerAscii (js "  My Team  ")).take k)).length ≠ 63 :=
  normalizeSlug_slugify_iff (fun _ _ => rfl) (fun _ => rfl) lowerCase_lowerAscii
    ⟨unit 'M', by decide, by decide⟩

/-- The cut at 64 places leaves the hyphen that the service takes away. -/
theorem not_normalizeSlug_slugify : ¬ ∀ (lower : JsString → JsString) (env : Env) (name : JsString),
    LowerCase lower →
    (∀ s : String, (∀ c ∈ s.toList, c.toNat < 128) → env.lower s = Text.lowerAscii s) →
    (∀ s, env.strip s = Text.stripped s) → (∃ u ∈ name, isAsciiAlnum u = true) →
    normalizeSlug env (text (slugify lower name)) = pure (text (slugify lower name)) := by
  intro h
  have hmem : unit 'b' ∈ List.replicate 63 (unit 'a') ++ js " b" :=
    List.mem_append.mpr (.inr (by decide))
  have hslug := h lowerAscii asciiEnv (List.replicate 63 (unit 'a') ++ js " b")
    lowerCase_lowerAscii (fun _ _ => rfl) (fun _ => rfl) ⟨_, hmem, by decide⟩
  rw [normalizeSlug_eq_pure_iff (fun _ _ => rfl) (fun _ => rfl) _ (by decide +kernel)] at hslug
  exact hslug (by decide +kernel)

end Slugs

end DevOps
