import DevOpsAssistant.Frontend.Strings
import Mathlib.Data.List.Infix

/-!
# Names of downloads

* `sanitizeFilename`: a name made safe for a download, or the fallback.
* `Normalized`: a safe name that is left alone.
* `Core`: what is left of the last part of a name; `Kept`: names that come out normalised.
* **`normalized_sanitizeFilename_iff`**: these are the names of `Kept`.
-/

namespace DevOps

namespace DownloadName

/-- A control character. -/
def isControl (u : UInt16) : Bool := u.toNat ≤ 0x1f || u.toNat = 0x7f

/-- A reserved character. -/
def isReserved (u : UInt16) : Bool := (js "<>:\"|?*").contains u

/-- A reserved character becomes an underscore. -/
def underscored (u : UInt16) : UInt16 := if isReserved u then unit '_' else u

/-- The longest name. -/
def maxLen : ℕ := 200

/-- `name.lastIndexOf(".")`, if there is a dot. -/
def lastDot (base : JsString) : Option ℕ :=
  if unit '.' ∈ base then some (base.length - 1 - base.reverse.idxOf (unit '.')) else none

/-- The extension that a cut keeps: a dot that is not the first unit, and what follows it. -/
def extension (base : JsString) : JsString :=
  match lastDot base with
  | some dot => if 0 < dot ∧ base.length < dot + 12 then base.drop dot else []
  | none => []

/-- The cut of a name that is too long. -/
def shortened (base : JsString) : JsString :=
  if maxLen < base.length then
    let ext := extension base
    base.take (maxLen - ext.length) ++ ext
  else base

/-- A name of which nothing but dots is left. -/
def IsDots (base : JsString) : Prop := base = [] ∨ base = js "." ∨ base = js ".."

instance (base : JsString) : Decidable (IsDots base) :=
  inferInstanceAs (Decidable (base = [] ∨ base = js "." ∨ base = js ".."))

def sanitizeFilename (name fallback : JsString) : JsString :=
  if name = [] then fallback
  else
    let base := (name.filter (· ≠ 0)).map fun u => if u = unit '\\' then unit '/' else u
    let base := ((base.splitOn (unit '/')).getLast?).getD []
    let base := base.filter fun u => !isControl u
    let base := base.map underscored
    let base := trim (base.dropWhile (· = unit '.'))
    if IsDots base then fallback
    else
      let base := shortened base
      if base = [] then fallback else base

/-- A separator of paths. -/
def isSeparator (u : UInt16) : Bool := u = unit '/' || u = unit '\\'

/-- A name that is safe on its own, and that the function leaves alone. -/
structure Normalized (s : JsString) : Prop where
  nonempty : s ≠ []
  bounded : s.length ≤ maxLen
  clean : ∀ u ∈ s, isSeparator u = false ∧ isControl u = false ∧ isReserved u = false
  visible : s.head? ≠ some (unit '.')
  fixed : ∀ fallback, sanitizeFilename s fallback = s

/-- What is left of the last part of a name without its control characters, its leading dots and
the white space at its ends. -/
def core (name : JsString) : JsString :=
  trim (((name.rtakeWhile (!isSeparator ·)).filter (!isControl ·)).dropWhile (· = unit '.'))

/-- A name that comes out normalised: no dot follows leading dots and white space, except in a name
of dots alone; and the cut of a long name without extension does not end in white space. -/
structure Kept (name : JsString) : Prop where
  shown : (core name).head? = some (unit '.') → core name = js "." ∨ core name = js ".."
  cut : maxLen < (core name).length → unit '.' ∉ (core name).drop ((core name).length - 11) →
    ∀ u ∈ (core name)[maxLen - 1]?, isJsSpace u = false

/-! ## The last part -/

theorem isReserved_iff {u : UInt16} : isReserved u = true ↔ u ∈ [60, 62, 58, 34, 124, 63, 42] := by
  have hjs : js "<>:\"|?*" = [60, 62, 58, 34, 124, 63, 42] := by decide
  simp [isReserved, hjs]

/-- A reserved character is neither white space nor a dot. -/
theorem of_isReserved {u : UInt16} (h : isReserved u = true) :
    isJsSpace u = false ∧ u ≠ unit '.' := by
  revert h
  rw [isReserved_iff]
  revert u
  decide

@[simp] theorem isJsSpace_underscored (u : UInt16) : isJsSpace (underscored u) = isJsSpace u := by
  by_cases h : isReserved u = true
  · rw [underscored, if_pos h, (of_isReserved h).1]
    decide
  · rw [underscored, if_neg h]

@[simp] theorem underscored_eq_dot {u : UInt16} : underscored u = unit '.' ↔ u = unit '.' := by
  by_cases h : isReserved u = true
  · rw [underscored, if_pos h]
    exact iff_of_false (by decide) (of_isReserved h).2
  · rw [underscored, if_neg h]

/-- The last part between separators. -/
theorem getLast?_splitOn {s : JsString} {a : UInt16} :
    (s.splitOn a).getLast? = some (s.rtakeWhile (· ≠ a)) := by
  have hlast : a ∉ s.rtakeWhile (· ≠ a) := fun h => by
    simpa using List.mem_rtakeWhile_imp h
  have hs := List.rdropWhile_append_rtakeWhile (p := (· ≠ a)) (l := s)
  by_cases hnil : s.rdropWhile (· ≠ a) = []
  · rw [hnil, List.nil_append] at hs
    rw [hs] at hlast
    rw [List.splitOn_eq_singleton hlast, hs]
    rfl
  · have ha : (s.rdropWhile (· ≠ a)).getLast hnil = a := by
      simpa using List.rdropWhile_last_not (· ≠ a) s hnil
    have hsplit := List.dropLast_append_getLast hnil
    rw [ha] at hsplit
    calc (s.splitOn a).getLast?
        = (((s.rdropWhile (· ≠ a)).dropLast ++ a :: s.rtakeWhile (· ≠ a)).splitOn a).getLast? := by
          rw [List.append_cons, hsplit, hs]
      _ = some (s.rtakeWhile (· ≠ a)) := by
          rw [List.splitOn_append_cons_self, List.splitOn_eq_singleton hlast]
          simp

/-- A backslash separates as a slash does. -/
theorem rtakeWhile_slash (s : JsString) :
    (s.map fun u => if u = unit '\\' then unit '/' else u).rtakeWhile (· ≠ unit '/') =
      s.rtakeWhile (!isSeparator ·) := by
  have hsep : ∀ u : UInt16, decide ((if u = unit '\\' then unit '/' else u) ≠ unit '/') =
      !isSeparator u := by
    intro u
    by_cases h : u = unit '\\' <;> simp [isSeparator, h]
  have hid : ∀ u ∈ s.reverse.takeWhile (!isSeparator ·),
      (if u = unit '\\' then unit '/' else u) = u := by
    intro u hu
    have := List.mem_takeWhile_imp hu
    rw [if_neg (by rintro rfl; revert this; decide)]
  simp only [List.rtakeWhile, ← List.map_reverse, List.takeWhile_map, Function.comp_def, hsep]
  rw [List.map_reverse, List.map_congr_left hid, List.map_id']

/-- The segment that the function works on. -/
theorem lastPart_eq (name : JsString) :
    (((((name.filter (· ≠ 0)).map fun u => if u = unit '\\' then unit '/' else u).splitOn
      (unit '/')).getLast?).getD []).filter (fun u => !isControl u) =
    (name.rtakeWhile (!isSeparator ·)).filter (!isControl ·) := by
  have hsep : ∀ u : UInt16, (!decide (u ≠ 0) || !isSeparator u) = !isSeparator u := by
    intro u
    by_cases h : u = 0
    · rw [h]
      decide
    · simp [h]
  have hcontrol : ∀ u : UInt16, (!isControl u && decide (u ≠ 0)) = !isControl u := by
    intro u
    by_cases h : u = 0
    · rw [h]
      decide
    · simp [h]
  rw [getLast?_splitOn, Option.getD_some, rtakeWhile_slash]
  simp only [List.rtakeWhile, ← List.filter_reverse, List.takeWhile_filter, hsep,
    List.filter_filter, hcontrol]

/-- **The name before it is cut.** It is the core of the name with underscores. -/
theorem trimmed_eq (name : JsString) :
    trim ((((((((name.filter (· ≠ 0)).map fun u => if u = unit '\\' then unit '/' else u).splitOn
      (unit '/')).getLast?).getD []).filter fun u => !isControl u).map underscored).dropWhile
        (· = unit '.')) = (core name).map underscored := by
  have hdot : (fun u => decide (u = unit '.')) ∘ underscored = fun u => decide (u = unit '.') := by
    funext u
    simp
  rw [lastPart_eq, List.dropWhile_map, hdot, trim_map isJsSpace_underscored, core]

/-! ## The cut -/

/-- The extension ends the name, and has at most eleven units. -/
theorem extension_spec (base : JsString) :
    extension base <:+ base ∧ (extension base).length ≤ 11 := by
  rw [extension, lastDot]
  by_cases hdot : unit '.' ∈ base
  · rw [if_pos hdot]
    dsimp only
    split_ifs with h
    · refine ⟨List.drop_suffix _ _, ?_⟩
      rw [List.length_drop]
      omega
    · exact ⟨List.nil_suffix, Nat.zero_le _⟩
  · rw [if_neg hdot]
    exact ⟨List.nil_suffix, Nat.zero_le _⟩

/-- A long name has no extension if there is no dot near its end. -/
theorem extension_eq_nil_iff {base : JsString} (hlong : maxLen < base.length) :
    extension base = [] ↔ unit '.' ∉ base.drop (base.length - 11) := by
  have hlen : 200 < base.length := hlong
  have hrev : unit '.' ∈ base.drop (base.length - 11) ↔ unit '.' ∈ base.reverse.take 11 := by
    rw [List.take_reverse, List.mem_reverse]
  rw [extension, lastDot, hrev]
  by_cases hdot : unit '.' ∈ base
  · have hmem : unit '.' ∈ base.reverse := List.mem_reverse.mpr hdot
    have hidx := List.idxOf_lt_length_of_mem hmem
    rw [List.length_reverse] at hidx
    rw [if_pos hdot, List.mem_take_iff_idxOf_lt hmem]
    dsimp only
    split_ifs with h
    · rw [List.drop_eq_nil_iff]
      omega
    · exact iff_of_true rfl (by omega)
  · rw [if_neg hdot]
    exact iff_of_true rfl fun h => hdot (List.mem_reverse.mp (List.mem_of_mem_take h))

section

variable {base : JsString}

theorem shortened_eq_self (h : base.length ≤ maxLen) : shortened base = base := by
  rw [shortened, if_neg (by omega)]

theorem shortened_of_lt (h : maxLen < base.length) :
    shortened base = base.take (maxLen - (extension base).length) ++ extension base := by
  rw [shortened, if_pos h]

theorem length_shortened (base : JsString) : (shortened base).length ≤ maxLen := by
  by_cases h : maxLen < base.length
  · have hext := (extension_spec base).2
    rw [shortened_of_lt h, List.length_append, List.length_take]
    unfold maxLen
    omega
  · rw [shortened_eq_self (by omega)]
    omega

theorem length_shortened_le (base : JsString) : (shortened base).length ≤ base.length := by
  by_cases h : maxLen < base.length
  · exact (length_shortened base).trans h.le
  · rw [shortened_eq_self (by omega)]

theorem mem_of_mem_shortened {u : UInt16} (h : u ∈ shortened base) : u ∈ base := by
  by_cases hlong : maxLen < base.length
  · rw [shortened_of_lt hlong, List.mem_append] at h
    cases h with
    | inl h => exact List.mem_of_mem_take h
    | inr h => exact (extension_spec base).1.subset h
  · rwa [shortened_eq_self (by omega)] at h

/-- A cut name keeps its first unit. -/
theorem head?_shortened (base : JsString) : (shortened base).head? = base.head? := by
  by_cases h : maxLen < base.length
  · have hext := (extension_spec base).2
    obtain ⟨n, hn⟩ : ∃ n, maxLen - (extension base).length = n + 1 :=
      ⟨maxLen - (extension base).length - 1, by unfold maxLen; omega⟩
    cases base with
    | nil => cases h
    | cons u us =>
      rw [shortened_of_lt h, hn]
      rfl
  · rw [shortened_eq_self (by omega)]

/-- A cut name keeps its last unit, if it has an extension. -/
theorem getLast?_shortened (h : maxLen < base.length → extension base ≠ []) :
    (shortened base).getLast? = base.getLast? := by
  by_cases hlong : maxLen < base.length
  · obtain ⟨stem, hstem⟩ := (extension_spec base).1
    have hlast : (extension base).getLast? ≠ none := by
      simpa using h hlong
    obtain ⟨u, hu⟩ := Option.ne_none_iff_exists'.mp hlast
    calc (shortened base).getLast?
        = (extension base).getLast? := by
          rw [shortened_of_lt hlong, List.getLast?_append, hu]
          rfl
      _ = (stem ++ extension base).getLast? := by
          rw [List.getLast?_append, hu]
          rfl
      _ = base.getLast? := by rw [hstem]
  · rw [shortened_eq_self (by omega)]

/-- Without an extension, the cut name ends where the room ends. -/
theorem getLast?_shortened_of_nil (hlong : maxLen < base.length) (h : extension base = []) :
    (shortened base).getLast? = base[maxLen - 1]? := by
  have hlen : (base.take maxLen).length = maxLen := List.length_take_of_le hlong.le
  rw [shortened_of_lt hlong, h, List.append_nil, List.length_nil, Nat.sub_zero,
    List.getLast?_eq_getElem?, hlen, List.getElem?_take_of_lt (by decide)]

end

/-! ## Names that come out -/

theorem isDots_map_underscored {s : JsString} : IsDots (s.map underscored) ↔ IsDots s := by
  have h₁ : js "." = [unit '.'] := by decide
  have h₂ : js ".." = [unit '.', unit '.'] := by decide
  simp only [IsDots, h₁, h₂, List.map_eq_nil_iff, List.map_eq_cons_iff]
  simp

/-- **What comes out.** The fallback where only dots are left, and else the cut core. -/
theorem sanitizeFilename_eq (name fallback : JsString) :
    sanitizeFilename name fallback =
      if IsDots (core name) then fallback else shortened ((core name).map underscored) := by
  have hne : ∀ base : JsString, ¬ IsDots base → shortened base ≠ [] := by
    intro base hbase hnil
    have hhead := head?_shortened base
    rw [hnil] at hhead
    exact hbase (.inl (List.head?_eq_none_iff.mp hhead.symm))
  by_cases hname : name = []
  · have hcore : core name = [] := by
      rw [hname]
      decide
    rw [sanitizeFilename, if_pos hname, if_pos (.inl hcore)]
  · rw [sanitizeFilename, if_neg hname]
    simp only [trimmed_eq]
    by_cases hdots : IsDots (core name)
    · rw [if_pos (isDots_map_underscored.mpr hdots), if_pos hdots]
    · have hdots' := fun h => hdots (isDots_map_underscored.mp h)
      rw [if_neg hdots', if_neg hdots, if_neg (hne _ hdots')]

section

variable {s : JsString} (hclean : ∀ u ∈ s, isSeparator u = false ∧ isControl u = false ∧
  isReserved u = false)

include hclean

/-- Underscores change nothing in a clean name. -/
theorem map_underscored_of_clean : s.map underscored = s := by
  have : ∀ u ∈ s, underscored u = u := fun u hu => by
    rw [underscored, (hclean u hu).2.2]
    rfl
  rw [List.map_congr_left this, List.map_id']

/-- A clean name is its own last part. -/
theorem core_of_clean (hdot : s.head? ≠ some (unit '.')) : core s = trim s := by
  have hpart : s.rtakeWhile (!isSeparator ·) = s :=
    List.rtakeWhile_eq_self_iff.mpr fun u hu => by simp [(hclean u hu).1]
  have hfilter : s.filter (!isControl ·) = s :=
    List.filter_eq_self.mpr fun u hu => by simp [(hclean u hu).2.1]
  have hdrop : s.dropWhile (· = unit '.') = s := by
    cases s with
    | nil => rfl
    | cons u us =>
      refine List.dropWhile_cons_of_neg ?_
      simpa using hdot
  rw [core, hpart, hfilter, hdrop]

/-- **Fixed points.** A clean name that does not begin with a dot is left alone if and only if it
has no white space at its ends. -/
theorem fixed_iff (hne : s ≠ []) (hlen : s.length ≤ maxLen) (hdot : s.head? ≠ some (unit '.')) :
    (∀ fallback, sanitizeFilename s fallback = s) ↔
      (∀ u ∈ s.head?, isJsSpace u = false) ∧ ∀ u ∈ s.getLast?, isJsSpace u = false := by
  have heq : ∀ fallback, sanitizeFilename s fallback =
      if IsDots (trim s) then fallback else shortened (trim s) := by
    intro fallback
    have hclean' : ∀ u ∈ trim s, _ := fun u hu => hclean u (sublist_trim.subset hu)
    rw [sanitizeFilename_eq, core_of_clean hclean hdot, map_underscored_of_clean hclean']
  constructor
  · intro h
    have hnil := (heq []).symm.trans (h [])
    by_cases hdots : IsDots (trim s)
    · rw [if_pos hdots] at hnil
      exact absurd hnil.symm hne
    · rw [if_neg hdots] at hnil
      have hle : s.length ≤ (trim s).length := by
        have := length_shortened_le (trim s)
        rwa [hnil] at this
      have htrim : trim s = s := sublist_trim.eq_of_length_le hle
      rw [← htrim]
      exact ⟨fun u hu => isJsSpace_head_trim hu, fun u hu => isJsSpace_getLast_trim hu⟩
  · rintro ⟨hhead, hlast⟩ fallback
    have hdots : ¬ IsDots s := by
      rintro (h | h | h)
      · exact hne h
      · exact hdot (by rw [h]; decide)
      · exact hdot (by rw [h]; decide)
    rw [heq, trim_eq_self hhead hlast, if_neg hdots, shortened_eq_self hlen]

end

/-- The core of a name has no separator and no control character. -/
theorem clean_of_mem_core {name : JsString} {u : UInt16} (h : u ∈ core name) :
    isSeparator u = false ∧ isControl u = false := by
  have h₁ := (List.dropWhile_suffix _).subset (sublist_trim.subset h)
  have h₂ := List.mem_filter.mp h₁
  have h₃ := List.mem_rtakeWhile_imp h₂.1
  exact ⟨by simpa using h₃, by simpa using h₂.2⟩

/-- With underscores, it has no reserved character either. -/
theorem clean_of_mem_underscored {name : JsString} {u : UInt16}
    (h : u ∈ (core name).map underscored) :
    isSeparator u = false ∧ isControl u = false ∧ isReserved u = false := by
  obtain ⟨v, hv, rfl⟩ := List.mem_map.mp h
  by_cases hr : isReserved v = true
  · rw [underscored, if_pos hr]
    decide
  · rw [underscored, if_neg hr]
    exact ⟨(clean_of_mem_core hv).1, (clean_of_mem_core hv).2, eq_false_of_ne_true hr⟩

/-- What comes out ends in white space only where a cut without extension leaves it. -/
theorem getLast?_cut_iff (name : JsString) :
    (∀ u ∈ (shortened ((core name).map underscored)).getLast?, isJsSpace u = false) ↔
      (maxLen < (core name).length → unit '.' ∉ (core name).drop ((core name).length - 11) →
        ∀ u ∈ (core name)[maxLen - 1]?, isJsSpace u = false) := by
  have hmap : ∀ o : Option UInt16, (∀ u ∈ o.map underscored, isJsSpace u = false) ↔
      ∀ u ∈ o, isJsSpace u = false := by
    intro o
    cases o <;> simp
  have hext : maxLen < (core name).length → (extension ((core name).map underscored) = [] ↔
      unit '.' ∉ (core name).drop ((core name).length - 11)) := by
    intro h
    rw [extension_eq_nil_iff (by rwa [List.length_map]), List.length_map, ← List.map_drop,
      List.mem_map]
    simp
  by_cases hcut : maxLen < (core name).length ∧ extension ((core name).map underscored) = []
  · rw [getLast?_shortened_of_nil (by simpa using hcut.1) hcut.2, List.getElem?_map, hmap]
    exact ⟨fun h _ _ => h, fun h => h hcut.1 ((hext hcut.1).mp hcut.2)⟩
  · rw [getLast?_shortened (fun h hnil => hcut ⟨by simpa using h, hnil⟩), List.getLast?_map, hmap]
    refine iff_of_true (fun u hu => isJsSpace_getLast_trim hu) fun h hdot => ?_
    exact absurd ⟨h, (hext h).mpr hdot⟩ hcut

/-- **Names of downloads.** With a normalised fallback, what comes out is normalised if and only if
the core of the name does not begin with a dot, unless it is nothing but dots, and a cut without
extension does not leave white space at the end. -/
theorem normalized_sanitizeFilename_iff {name fallback : JsString} (hf : Normalized fallback) :
    Normalized (sanitizeFilename name fallback) ↔ Kept name := by
  rw [sanitizeFilename_eq]
  by_cases hdots : IsDots (core name)
  · have hkept : Kept name := by
      refine ⟨fun hhead => hdots.resolve_left ?_, fun hlong => ?_⟩
      · rintro h
        rw [h] at hhead
        cases hhead
      · obtain h | h | h := hdots <;> rw [h] at hlong <;> exact absurd hlong (by decide)
    rw [if_pos hdots]
    exact iff_of_true hf hkept
  rw [if_neg hdots]
  have hclean : ∀ u ∈ shortened ((core name).map underscored), isSeparator u = false ∧
      isControl u = false ∧ isReserved u = false :=
    fun u hu => clean_of_mem_underscored (mem_of_mem_shortened hu)
  have hhead : (shortened ((core name).map underscored)).head? =
      (core name).head?.map underscored := by
    rw [head?_shortened, List.head?_map]
  have hdot : (shortened ((core name).map underscored)).head? = some (unit '.') ↔
      (core name).head? = some (unit '.') := by
    rw [hhead]
    simp
  have hne : shortened ((core name).map underscored) ≠ [] := by
    intro h
    rw [h] at hhead
    exact hdots (.inl (by simpa using hhead.symm))
  constructor
  · intro h
    have hfixed := (fixed_iff hclean hne h.bounded h.visible).mp h.fixed
    exact ⟨fun hcore => absurd (hdot.mpr hcore) h.visible, (getLast?_cut_iff name).mp hfixed.2⟩
  · intro h
    have hvisible := fun hhead' => hdots (.inr (h.shown (hdot.mp hhead')))
    refine ⟨hne, length_shortened _, hclean, hvisible,
      (fixed_iff hclean hne (length_shortened _) hvisible).mpr
        ⟨fun u hu => ?_, (getLast?_cut_iff name).mpr h.cut⟩⟩
    rw [hhead] at hu
    obtain ⟨v, hv, rfl⟩ := Option.map_eq_some_iff.mp hu
    rw [isJsSpace_underscored]
    exact isJsSpace_head_trim hv

/-- The default fallback is normalised. -/
theorem normalized_default : Normalized (js "download.txt") := by
  have hclean : ∀ u ∈ js "download.txt", isSeparator u = false ∧ isControl u = false ∧
      isReserved u = false := by decide
  have hfixed := fixed_iff hclean (by decide) (by decide) (by decide)
  have hhead : (js "download.txt").head? = some (unit 'd') := by decide
  have hlast : (js "download.txt").getLast? = some (unit 't') := by decide
  refine ⟨by decide, by decide, hclean, by decide, hfixed.mpr ⟨fun u hu => ?_, fun u hu => ?_⟩⟩
  · rw [hhead] at hu
    cases hu
    decide
  · rw [hlast] at hu
    cases hu
    decide

theorem normalized_report : Normalized (sanitizeFilename (js "C:\\logs\\report.log")
    (js "download.txt")) ↔ Kept (js "C:\\logs\\report.log") :=
  normalized_sanitizeFilename_iff normalized_default

/-- White space before a dot is trimmed after the leading dots are gone. -/
theorem not_normalized_sanitizeFilename : ¬ ∀ name fallback : JsString, Normalized fallback →
    Normalized (sanitizeFilename name fallback) := by
  intro h
  exact (h (js " .env") (js "download.txt") normalized_default).visible (by decide)

end DownloadName

end DevOps
