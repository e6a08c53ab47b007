import DevOpsAssistant.Frontend.Strings
import DevOpsAssistant.Text.Whatwg
import Mathlib.Data.List.Infix

/-!
# Return URLs

* `getSafeReturnUrl`: a return URL, or the fallback.
* `Origin`, `UrlParser`, `resolve`: the origin of a string that is resolved against the site.
* `Escapes`: strings that pass the checks and name another authority behind a line end.
* **`staysOnSite_getSafeReturnUrl_iff`**: other return URLs stay on the site.
-/

namespace DevOps

open Whatwg

namespace ReturnUrl

/-- `getSafeReturnUrl`; `none` is `null` or `undefined`. -/
def getSafeReturnUrl (value : Option JsString) (fallback : JsString) : JsString :=
  match value with
  | none => fallback
  | some value =>
    let trimmed := trim value
    if ¬ js "/" <+: trimmed ∨ js "//" <+: trimmed then fallback
    else if unit '\\' ∈ trimmed ∨ js "://" <:+: trimmed ∨ 0 ∈ trimmed then fallback
    else trimmed

/-! ## Resolution -/

/-- The origin of a URL with the scheme `http` or `https`. -/
structure Origin where
  scheme : JsString
  host : JsString
  port : Option ℕ
deriving DecidableEq

/-- What a parser of URLs makes of an authority, and of strings that do not begin with a slash. -/
structure UrlParser where
  authority : JsString → JsString → Option (JsString × Option ℕ)
  other : Origin → JsString → Option Origin

/-- The origin of a string that is resolved against the site; `none` is a failure. -/
def resolve (parser : UrlParser) (site : Origin) (s : JsString) : Option Origin :=
  match cleaned UInt16.toNat s with
  | [] => some site
  | u :: rest =>
    if isSlash UInt16.toNat u then
      match rest with
      | [] => some site
      | v :: _ =>
        -- two slashes begin an authority, one begins a path on the site
        if isSlash UInt16.toNat v then
          (parser.authority site.scheme (splitAuthority UInt16.toNat rest).1).map fun found =>
            ⟨site.scheme, found.1, found.2⟩
        else some site
    else parser.other site (u :: rest)

/-- The string cannot leave the site: no other origin is what it resolves to. -/
def StaysOnSite (parser : UrlParser) (site : Origin) (s : JsString) : Prop :=
  ∀ origin, resolve parser site s = some origin → origin = site

/-- The string passes the checks: a slash, tabs or ends of lines, and a slash with the authority of
another site. -/
structure Escapes (parser : UrlParser) (site : Origin) (value : JsString) : Prop where
  backslash : unit '\\' ∉ trim value
  scheme : ¬ js "://" <:+: trim value
  null : 0 ∉ trim value
  slashes : ∃ space rest, trim value = unit '/' :: (space ++ unit '/' :: rest) ∧ space ≠ [] ∧
    ∀ u ∈ space, isTabOrNewline UInt16.toNat u = true
  authority : ∃ found, parser.authority site.scheme
    (splitAuthority UInt16.toNat (cleaned UInt16.toNat (trim value))).1 = some found ∧
      (⟨site.scheme, found.1, found.2⟩ : Origin) ≠ site

variable {parser : UrlParser} {site : Origin} {value fallback : JsString}

theorem isSlash_iff {u : UInt16} : isSlash UInt16.toNat u = true ↔ u = unit '/' ∨ u = unit '\\' := by
  unfold isSlash
  rw [Bool.or_eq_true, decide_eq_true_eq, decide_eq_true_eq, ← UInt16.toNat_inj,
    ← UInt16.toNat_inj]
  rfl

/-- Slashes in front of an authority are not read. -/
theorem splitAuthority_cons {u : UInt16} (h : isSlash UInt16.toNat u = true) (s : JsString) :
    splitAuthority UInt16.toNat (u :: s) = splitAuthority UInt16.toNat s := by
  unfold splitAuthority
  rw [List.dropWhile_cons_of_pos h]

/-- A string that begins with a slash leaves the site with the authority behind two slashes. -/
theorem staysOnSite_iff {t : JsString} (hback : unit '\\' ∉ t) (h : ∃ u, t = unit '/' :: u) :
    StaysOnSite parser site t ↔ ¬ ((∃ space rest, t = unit '/' :: (space ++ unit '/' :: rest) ∧
      ∀ u ∈ space, isTabOrNewline UInt16.toNat u = true) ∧
      ∃ found, parser.authority site.scheme
        (splitAuthority UInt16.toNat (cleaned UInt16.toNat t)).1 = some found ∧
          (⟨site.scheme, found.1, found.2⟩ : Origin) ≠ site) := by
  obtain ⟨u, rfl⟩ := h
  have hc0 : isC0OrSpace UInt16.toNat (unit '/') = false := by decide
  have hsecond : (∃ space rest, unit '/' :: u = unit '/' :: (space ++ unit '/' :: rest) ∧
      ∀ u ∈ space, isTabOrNewline UInt16.toNat u = true) ↔
      ∃ rest, (u.rdropWhile (isC0OrSpace UInt16.toNat)).filter
        (!isTabOrNewline UInt16.toNat ·) = unit '/' :: rest := by
    rw [exists_cleaned_cons hc0]
    simp only [List.cons.injEq, true_and]
  rw [hsecond]
  unfold StaysOnSite resolve
  rw [cleaned_cons hc0]
  dsimp only
  have hslash : isSlash UInt16.toNat (unit '/') = true := by decide
  rw [if_pos hslash, splitAuthority_cons hslash]
  have hmem : ∀ v ∈ (u.rdropWhile (isC0OrSpace UInt16.toNat)).filter
      (!isTabOrNewline UInt16.toNat ·), v ∈ u := fun v hv =>
    (List.rdropWhile_prefix _ u).subset (List.mem_filter.mp hv).1
  generalize (u.rdropWhile (isC0OrSpace UInt16.toNat)).filter
    (!isTabOrNewline UInt16.toNat ·) = rest at *
  cases rest with
  | nil =>
    refine iff_of_true ?_ ?_
    · rintro _ ⟨⟩
      rfl
    · rintro ⟨⟨_, h⟩, -⟩
      cases h
  | cons v rest =>
    dsimp only
    by_cases hv : v = unit '/'
    · subst hv
      rw [if_pos hslash]
      cases parser.authority site.scheme (splitAuthority UInt16.toNat (unit '/' :: rest)).1 with
      | none => simp
      | some found => simp
    · have hnot : ¬ isSlash UInt16.toNat v = true := by
        rw [isSlash_iff, not_or]
        refine ⟨hv, ?_⟩
        rintro rfl
        exact hback (List.mem_cons_of_mem _ (hmem _ (by simp)))
      rw [if_neg hnot]
      refine iff_of_true ?_ ?_
      · rintro _ ⟨⟩
        rfl
      · rintro ⟨⟨_, h⟩, -⟩
        exact hv (List.cons.inj h).1

/-- **Return URLs** stay on the site if and only if their string does not escape. -/
theorem staysOnSite_getSafeReturnUrl_iff (hfallback : StaysOnSite parser site fallback)
    (value : Option JsString) : StaysOnSite parser site (getSafeReturnUrl value fallback) ↔
      ∀ v, value = some v → ¬ Escapes parser site v := by
  cases value with
  | none => exact iff_of_true hfallback fun _ h => nomatch h
  | some v =>
    have honly : (∀ w, some v = some w → ¬ Escapes parser site w) ↔ ¬ Escapes parser site v :=
      ⟨fun h => h v rfl, fun h w hw => Option.some.inj hw ▸ h⟩
    rw [honly]
    unfold getSafeReturnUrl
    dsimp only
    have hjs : js "/" = [unit '/'] ∧ js "//" = [unit '/', unit '/'] := by decide
    by_cases hslash : ¬ js "/" <+: trim v ∨ js "//" <+: trim v
    · rw [if_pos hslash]
      refine iff_of_true hfallback fun h => ?_
      obtain ⟨space, rest, htrim, hne, hspace⟩ := h.slashes
      obtain ⟨c, cs, rfl⟩ := List.exists_cons_of_ne_nil hne
      rw [htrim, hjs.1, hjs.2] at hslash
      obtain hslash | ⟨tail, htail⟩ := hslash
      · exact hslash ⟨_, rfl⟩
      · have hc : c = unit '/' := by
          have := congrArg (fun l => l[1]?) htail
          simpa using this.symm
        have := hspace c (by simp)
        rw [hc] at this
        exact absurd this (by decide)
    rw [if_neg hslash]
    by_cases hchars : unit '\\' ∈ trim v ∨ js "://" <:+: trim v ∨ 0 ∈ trim v
    · rw [if_pos hchars]
      refine iff_of_true hfallback fun h => ?_
      obtain hback | hscheme | hnull := hchars
      · exact h.backslash hback
      · exact h.scheme hscheme
      · exact h.null hnull
    rw [if_neg hchars]
    rw [not_or, not_or] at hchars
    rw [not_or, not_not, hjs.1, hjs.2] at hslash
    obtain ⟨⟨u, hu⟩, hdouble⟩ := hslash
    rw [staysOnSite_iff hchars.1 ⟨u, hu.symm⟩, not_iff_not]
    constructor
    · rintro ⟨⟨space, rest, htrim, hspace⟩, hauthority⟩
      refine ⟨hchars.1, hchars.2.1, hchars.2.2, ⟨space, rest, htrim, ?_, hspace⟩, hauthority⟩
      rintro rfl
      exact hdouble ⟨rest, htrim.symm⟩
    · intro h
      obtain ⟨space, rest, htrim, -, hspace⟩ := h.slashes
      exact ⟨⟨space, rest, htrim, hspace⟩, h.authority⟩

/-! ### A parser of plain hosts -/

/-- A parser that takes an authority as a host. -/
def plainParser : UrlParser := ⟨fun _ text => some (text, none), fun _ _ => none⟩

/-- A site. -/
def exampleSite : Origin := ⟨js "https", js "app.example", none⟩

theorem staysOnSite_dashboard : StaysOnSite plainParser exampleSite (js "/dashboard") := by
  intro origin h
  have hsite : resolve plainParser exampleSite (js "/dashboard") = some exampleSite := by
    decide +kernel
  exact Option.some.inj (h.symm.trans hsite)

theorem staysOnSite_artifacts :
    StaysOnSite plainParser exampleSite
        (getSafeReturnUrl (some (js "/orgs/123/artifacts?tab=diff")) (js "/dashboard")) ↔
      ∀ v, some (js "/orgs/123/artifacts?tab=diff") = some v → ¬ Escapes plainParser exampleSite v :=
  staysOnSite_getSafeReturnUrl_iff staysOnSite_dashboard _

/-- A tab between two slashes passes the checks, and the parser removes it. -/
theorem not_staysOnSite_getSafeReturnUrl : ¬ ∀ (parser : UrlParser) (site : Origin)
    (value : Option JsString) (fallback : JsString), StaysOnSite parser site fallback →
    StaysOnSite parser site (getSafeReturnUrl value fallback) := by
  intro h
  have hsite := h plainParser exampleSite (some (js "/\t/evil.example")) (js "/dashboard")
    staysOnSite_dashboard ⟨js "https", js "evil.example", none⟩ (by decide +kernel)
  exact absurd hsite (by decide +kernel)

end ReturnUrl

end DevOps
