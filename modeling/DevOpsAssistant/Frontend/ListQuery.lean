import DevOpsAssistant.Text.UrlEncoded
import Mathlib.Algebra.Group.Nat.Defs

/-!
# Lists in the URL

* `ListQuery.get`, `ListQuery.set`, `ListQuery.delete`: the parameters of a URL.
* `parseListQuery`, `serializeListQuery`: the state of a list in the parameters of a URL.
* `Partial.over`: a state that takes what a part of another one mentions.
* **`parseListQuery_serializeListQuery`**: the state that was written is read, and what was not
  written stays.
-/

namespace DevOps

namespace ListQuery

/-! ## Parameters -/

/-- The pairs of a `URLSearchParams`. -/
abbrev SearchParams := List (String × String)

/-- `new URLSearchParams(text)`; `lossy` decodes bytes that are not UTF-8. -/
def SearchParams.ofText (lossy : List UInt8 → String) (text : String) : SearchParams :=
  UrlEncoded.parse lossy
    (if text.toList.head? = some '?' then String.ofList text.toList.tail else text)

def get (params : SearchParams) (name : String) : Option String :=
  (params.find? (·.1 = name)).map (·.2)

def getAll (params : SearchParams) (name : String) : List String :=
  (params.filter (·.1 = name)).map (·.2)

def delete (params : SearchParams) (name : String) : SearchParams := params.filter (·.1 ≠ name)

/-- The first pair with the name takes the value, and the others go. -/
def set (name value : String) : SearchParams → SearchParams
  | [] => [(name, value)]
  | pair :: params =>
    if pair.1 = name then (name, value) :: delete params name else pair :: set name value params

section

variable {params : SearchParams} {name other value : String}

theorem get_eq_head?_getAll (params : SearchParams) (name : String) :
    get params name = (getAll params name).head? := by
  rw [get, getAll, List.head?_map, List.head?_filter]

theorem getAll_delete_self : getAll (delete params name) name = [] := by
  rw [getAll, delete, List.filter_filter]
  simp

theorem getAll_delete_of_ne (h : other ≠ name) : getAll (delete params name) other = getAll params other := by
  rw [getAll, delete, List.filter_filter, getAll]
  congr 1
  refine List.filter_congr fun pair _ => ?_
  by_cases hpair : pair.1 = other
  · simp [hpair, h]
  · simp [hpair]

theorem getAll_set_self : getAll (set name value params) name = [value] := by
  induction params with
  | nil => simp [set, getAll]
  | cons pair params ih =>
    rw [set]
    by_cases hpair : pair.1 = name
    · have hdelete : getAll (delete params name) name = [] := getAll_delete_self
      rw [if_pos hpair, getAll, List.filter_cons_of_pos (by simp), List.map_cons]
      rw [getAll] at hdelete
      rw [hdelete]
    · rw [if_neg hpair, getAll, List.filter_cons_of_neg (by simpa using hpair)]
      exact ih

theorem getAll_set_of_ne (h : other ≠ name) : getAll (set name value params) other = getAll params other := by
  induction params with
  | nil => simp [set, getAll, h.symm]
  | cons pair params ih =>
    rw [set]
    by_cases hpair : pair.1 = name
    · have hdelete : getAll (delete params name) other = _ := getAll_delete_of_ne h
      have hother : ¬ pair.1 = other := fun heq => h (heq ▸ hpair)
      rw [if_pos hpair, getAll, List.filter_cons_of_neg (by simp [h.symm]), getAll,
        List.filter_cons_of_neg (by simpa using hother)]
      exact hdelete
    · rw [if_neg hpair, getAll, getAll, List.filter_cons, List.filter_cons]
      rw [getAll, getAll] at ih
      by_cases hother : pair.1 = other
      · simp [hother, ih]
      · simp [hother, ih]

end

/-! ## The state -/

inductive SortOrder where
  | asc
  | desc
deriving DecidableEq

def SortOrder.text : SortOrder → String
  | asc => "asc"
  | desc => "desc"

structure ListQueryState where
  page : ℕ
  search : Option String
  artifactType : Option String
  tag : Option String
  favoritesOnly : Bool
  includeArchived : Bool
  sortBy : Option String
  sortOrder : Option SortOrder
deriving DecidableEq

/-- `Partial<ListQueryState>`: a key that is missing, or one with a value or `undefined`. -/
structure Partial where
  page : Option (Option ℕ)
  search : Option (Option String)
  artifactType : Option (Option String)
  tag : Option (Option String)
  favoritesOnly : Option (Option Bool)
  includeArchived : Option (Option Bool)
  sortBy : Option (Option String)
  sortOrder : Option (Option SortOrder)

/-- `Number.MAX_SAFE_INTEGER`. -/
def MAX_SAFE_INTEGER : ℕ := 2 ^ 53 - 1

/-- What `Number` makes of texts that are no decimal digits, and of integers that are not safe. -/
structure Numbers where
  /-- The positive integer that the number of a text is. -/
  other : String → Option ℕ
  /-- The nearest number of an integer that is not safe. -/
  round : ℕ → ℕ

/-- `Number(value)`, if it is a positive integer. -/
def positiveInteger (numbers : Numbers) (value : String) : Option ℕ :=
  if value ≠ "" ∧ value.toList.all Char.isDigit then
    let n := Nat.ofDigitChars 10 value.toList 0
    let n := if n ≤ MAX_SAFE_INTEGER then n else numbers.round n
    if 0 < n then some n else none
  else numbers.other value

def asPositiveInt (numbers : Numbers) (value : Option String) (fallback : ℕ) : ℕ :=
  ((value.bind (positiveInteger numbers))).getD fallback

/-- `text || undefined`. -/
def orUndefined (text : Option String) : Option String := text.filter (· ≠ "")

/-- `sortOrder === "asc" || sortOrder === "desc" ? sortOrder : undefined`. -/
def sortOrderOf (text : Option String) : Option SortOrder :=
  if text = some "asc" then some .asc else if text = some "desc" then some .desc else none

def parseListQuery (numbers : Numbers) (params : SearchParams) : ListQueryState where
  page := asPositiveInt numbers (get params "page") 1
  search := orUndefined (get params "search")
  artifactType := orUndefined (get params "artifact_type")
  tag := orUndefined (get params "tag")
  favoritesOnly := get params "favorites_only" = some "true"
  includeArchived := get params "include_archived" = some "true"
  sortBy := orUndefined (get params "sort_by")
  sortOrder := sortOrderOf (get params "sort_order")

/-- `String(value)` of a value that is written; `none` is `undefined`, `false` or empty. -/
def written : Option String → Option String := orUndefined

/-- `String(value)` of a Boolean, if it is not `false`. -/
def writtenBool : Option Bool → Option String
  | some true => some "true"
  | _ => none

/-- `write`, of the text of a value that is neither `undefined` nor `false` nor empty. -/
def write (key : String) (text : Option String) (defaultValue : Option String) (params : SearchParams) :
    SearchParams :=
  match text with
  | none => delete params key
  | some text => if some text = defaultValue then delete params key else set key text params

/-- `write`, if the state has the key. -/
def writeIn (key : String) (text : Option (Option String)) (defaultValue : Option String)
    (params : SearchParams) : SearchParams :=
  match text with
  | none => params
  | some text => write key text defaultValue params

/-- The parameters after the writes. -/
def writeState (state : Partial) (params : SearchParams) : SearchParams :=
  let params := writeIn "page" (state.page.map (·.map toString)) (some "1") params
  let params := writeIn "search" (state.search.map written) none params
  let params := writeIn "artifact_type" (state.artifactType.map written) none params
  let params := writeIn "tag" (state.tag.map written) none params
  let params := writeIn "favorites_only" (state.favoritesOnly.map writtenBool) none params
  let params := writeIn "include_archived" (state.includeArchived.map writtenBool) none params
  let params := writeIn "sort_by" (state.sortBy.map written) none params
  writeIn "sort_order" (state.sortOrder.map (·.map SortOrder.text)) none params

/-- `serializeListQuery(state, current)`. -/
def serializeListQuery (lossy : List UInt8 → String) (state : Partial) (current : SearchParams) :
    String :=
  let params := SearchParams.ofText lossy (UrlEncoded.serialize current)
  UrlEncoded.serialize (writeState state params)

/-- The keys of a list. -/
def listKeys : List String :=
  ["page", "search", "artifact_type", "tag", "favorites_only", "include_archived", "sort_by",
    "sort_order"]

/-! ## What is read of what was written -/

/-- The values a state can have: pages are positive safe integers, and no text is empty. -/
structure Partial.WellFormed (state : Partial) : Prop where
  page : ∀ n, state.page = some (some n) → 0 < n ∧ n ≤ MAX_SAFE_INTEGER
  search : state.search ≠ some (some "")
  artifactType : state.artifactType ≠ some (some "")
  tag : state.tag ≠ some (some "")
  sortBy : state.sortBy ≠ some (some "")

/-- A state that takes what a part of another one mentions. -/
def Partial.over (state : Partial) (old : ListQueryState) : ListQueryState where
  page := state.page.elim old.page (·.getD 1)
  search := state.search.getD old.search
  artifactType := state.artifactType.getD old.artifactType
  tag := state.tag.getD old.tag
  favoritesOnly := state.favoritesOnly.elim old.favoritesOnly (·.getD false)
  includeArchived := state.includeArchived.elim old.includeArchived (·.getD false)
  sortBy := state.sortBy.getD old.sortBy
  sortOrder := state.sortOrder.getD old.sortOrder

/-- A state that mentions every key. -/
def ListQueryState.whole (s : ListQueryState) : Partial :=
  ⟨some (some s.page), some s.search, some s.artifactType, some s.tag, some (some s.favoritesOnly),
    some (some s.includeArchived), some s.sortBy, some s.sortOrder⟩

section

variable {params current : SearchParams} {key other : String} {text : Option (Option String)}
  {defaultValue : Option String} {numbers : Numbers} {lossy : List UInt8 → String} {state : Partial}

/-- Parameters are read from their text as they are. -/
theorem ofText_serialize (lossy : List UInt8 → String) (params : SearchParams) :
    SearchParams.ofText lossy (UrlEncoded.serialize params) = params := by
  have hhead : (UrlEncoded.serialize params).toList.head? ≠ some '?' := fun h =>
    UrlEncoded.not_mem_serialize params (List.mem_of_head? h)
  rw [SearchParams.ofText, if_neg hhead, UrlEncoded.parse_serialize]

theorem getAll_writeIn_of_ne (h : other ≠ key) :
    getAll (writeIn key text defaultValue params) other = getAll params other := by
  cases text with
  | none => rfl
  | some text =>
    cases text with
    | none => exact getAll_delete_of_ne h
    | some text =>
      change getAll (if some text = defaultValue then delete params key else set key text params)
        other = _
      by_cases hdefault : some text = defaultValue
      · rw [if_pos hdefault, getAll_delete_of_ne h]
      · rw [if_neg hdefault, getAll_set_of_ne h]

theorem get_writeIn_of_ne (h : other ≠ key) :
    get (writeIn key text defaultValue params) other = get params other := by
  rw [get_eq_head?_getAll, getAll_writeIn_of_ne h, ← get_eq_head?_getAll]

theorem get_writeIn_self : get (writeIn key text defaultValue params) key =
    text.elim (get params key) (·.filter (some · ≠ defaultValue)) := by
  cases text with
  | none => rfl
  | some text =>
    have hdelete : get (delete params key) key = none := by
      rw [get_eq_head?_getAll, getAll_delete_self]
      rfl
    cases text with
    | none => exact hdelete
    | some text =>
      change get (if some text = defaultValue then delete params key else set key text params) key = _
      by_cases hdefault : some text = defaultValue
      · rw [if_pos hdefault, hdelete]
        change none = Option.filter (some · ≠ defaultValue) (some text)
        rw [Option.filter, if_neg (by simp [hdefault])]
      · rw [if_neg hdefault, get_eq_head?_getAll, getAll_set_self]
        change some text = Option.filter (some · ≠ defaultValue) (some text)
        rw [Option.filter, if_pos (by simp [hdefault])]

/-- **Other parameters keep their values**, in order. -/
theorem getAll_writeState (h : other ∉ listKeys) :
    getAll (writeState state params) other = getAll params other := by
  simp only [listKeys, List.mem_cons, List.not_mem_nil, or_false, not_or] at h
  obtain ⟨hpage, hsearch, htype, htag, hfavorites, harchived, hsortBy, hsortOrder⟩ := h
  unfold writeState
  dsimp only
  rw [getAll_writeIn_of_ne hsortOrder, getAll_writeIn_of_ne hsortBy, getAll_writeIn_of_ne harchived,
    getAll_writeIn_of_ne hfavorites, getAll_writeIn_of_ne htag, getAll_writeIn_of_ne htype,
    getAll_writeIn_of_ne hsearch, getAll_writeIn_of_ne hpage]

/-- A safe integer is the number of its text. -/
theorem positiveInteger_toString {n : ℕ} (hpos : 0 < n) (hsafe : n ≤ MAX_SAFE_INTEGER) :
    positiveInteger numbers (toString n) = some n := by
  have htoList : (toString n).toList = Nat.toDigits 10 n := Nat.toList_repr
  have hne : toString n ≠ "" := by
    intro h
    rw [h] at htoList
    exact Nat.toDigits_ne_nil htoList.symm
  have hdigits : (toString n).toList.all Char.isDigit = true := by
    rw [htoList, List.all_eq_true]
    exact fun c hc => Nat.isDigit_of_mem_toDigits (by decide) (by decide) hc
  rw [positiveInteger, if_pos ⟨hne, hdigits⟩]
  dsimp only
  rw [htoList, Nat.ofDigitChars_ten_toDigits, if_pos hsafe, if_pos hpos]

/-- A page is read as it was written; the first one is not written. -/
theorem asPositiveInt_page {page : Option (Option ℕ)} (old : Option String)
    (h : ∀ n, page = some (some n) → 0 < n ∧ n ≤ MAX_SAFE_INTEGER) :
    asPositiveInt numbers ((page.map (·.map toString)).elim old (·.filter (some · ≠ some "1"))) 1 =
      page.elim (asPositiveInt numbers old 1) (·.getD 1) := by
  cases page with
  | none => rfl
  | some page =>
    cases page with
    | none => rfl
    | some n =>
      obtain ⟨hpos, hsafe⟩ := h n rfl
      have hread : positiveInteger numbers (toString n) = some n := positiveInteger_toString hpos hsafe
      change asPositiveInt numbers (Option.filter (some · ≠ some "1") (some (toString n))) 1 = n
      by_cases hfirst : toString n = "1"
      · have hone : positiveInteger numbers (toString 1) = some 1 :=
          positiveInteger_toString (by decide) (by decide)
        rw [hfirst] at hread
        rw [show toString 1 = "1" from rfl, hread] at hone
        rw [Option.filter_some, hfirst]
        exact (Option.some.inj hone).symm
      · rw [Option.filter_some_pos (by simpa using hfirst), asPositiveInt, Option.bind_some, hread,
          Option.getD_some]

/-- A text is read as it was written. -/
theorem orUndefined_written {text : Option (Option String)} (old : Option String)
    (h : text ≠ some (some "")) :
    orUndefined ((text.map written).elim old (·.filter (some · ≠ none))) =
      text.getD (orUndefined old) := by
  cases text with
  | none => rfl
  | some text =>
    cases text with
    | none => rfl
    | some text =>
      have hne : text ≠ "" := fun heq => h (heq ▸ rfl)
      simp [written, orUndefined, Option.filter, hne]

/-- A Boolean is read as it was written. -/
theorem eq_true_written (flag : Option (Option Bool)) (old : Option String) :
    decide ((flag.map writtenBool).elim old (·.filter (some · ≠ none)) = some "true") =
      flag.elim (decide (old = some "true")) (·.getD false) := by
  cases flag with
  | none => rfl
  | some flag =>
    cases flag with
    | none => rfl
    | some flag => cases flag <;> rfl

/-- An order is read as it was written. -/
theorem sortOrderOf_written (order : Option (Option SortOrder)) (old : Option String) :
    sortOrderOf ((order.map (·.map SortOrder.text)).elim old (·.filter (some · ≠ none))) =
      order.getD (sortOrderOf old) := by
  cases order with
  | none => rfl
  | some order =>
    cases order with
    | none => rfl
    | some order => cases order <;> rfl

/-- **The parameters after the writes** are read as the state over what was read before. -/
theorem parseListQuery_writeState (h : state.WellFormed) (params : SearchParams) :
    parseListQuery numbers (writeState state params) =
      state.over (parseListQuery numbers params) := by
  unfold writeState parseListQuery Partial.over
  dsimp only
  congr 1
  · rw [← asPositiveInt_page _ h.page]
    simp [get_writeIn_of_ne, get_writeIn_self]
  · rw [← orUndefined_written _ h.search]
    simp [get_writeIn_of_ne, get_writeIn_self]
  · rw [← orUndefined_written _ h.artifactType]
    simp [get_writeIn_of_ne, get_writeIn_self]
  · rw [← orUndefined_written _ h.tag]
    simp [get_writeIn_of_ne, get_writeIn_self]
  · rw [← eq_true_written]
    simp [get_writeIn_of_ne, get_writeIn_self]
  · rw [← eq_true_written]
    simp [get_writeIn_of_ne, get_writeIn_self]
  · rw [← orUndefined_written _ h.sortBy]
    simp [get_writeIn_of_ne, get_writeIn_self]
  · rw [← sortOrderOf_written]
    simp [get_writeIn_of_ne, get_writeIn_self]

/-- **The state that was written is read, and what was not written stays**: a state, whatever the
parameters were; the other parameters, in order; and the keys that a partial state does not mention. -/
theorem parseListQuery_serializeListQuery (numbers : Numbers) (lossy : List UInt8 → String)
    (current : SearchParams) :
    (∀ s : ListQueryState, s.whole.WellFormed →
      parseListQuery numbers (.ofText lossy (serializeListQuery lossy s.whole current)) = s) ∧
    (∀ (state : Partial) (name : String), name ∉ listKeys →
      getAll (.ofText lossy (serializeListQuery lossy state current)) name = getAll current name) ∧
    ∀ state : Partial, state.WellFormed →
      parseListQuery numbers (.ofText lossy (serializeListQuery lossy state current)) =
        state.over (parseListQuery numbers current) := by
  have hwritten : ∀ state, SearchParams.ofText lossy (serializeListQuery lossy state current) =
      writeState state current := by
    intro state
    rw [serializeListQuery, ofText_serialize, ofText_serialize]
  refine ⟨fun s h => ?_, fun state name hname => ?_, fun state h => ?_⟩
  · rw [hwritten, parseListQuery_writeState h]
    rfl
  · rw [hwritten, getAll_writeState hname]
  · rw [hwritten, parseListQuery_writeState h]

theorem parseListQuery_serializeListQuery_example :
    let s : ListQueryState := ⟨3, some "a&b=c", none, some "x", true, false, none, some .desc⟩
    parseListQuery ⟨fun _ => none, id⟩ (.ofText (fun _ => "")
      (serializeListQuery (fun _ => "") s.whole [("tag", "y"), ("q", "1"), ("tag", "z")])) = s :=
  (parseListQuery_serializeListQuery ⟨fun _ => none, id⟩ (fun _ => "") _).1 _
    ⟨fun n hn => by cases hn; decide, nofun, nofun, nofun, nofun⟩

end

end ListQuery

end DevOps
