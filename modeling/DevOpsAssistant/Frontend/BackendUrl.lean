import DevOpsAssistant.Text.UrlPath
import DevOpsAssistant.Text.Utf8

/-!
# The URLs of the backend

* `getBackendBaseUrl`, `buildBackendUrl`: the URL that a request is forwarded to.
* `Backend`: a base URL that a parser of URLs accepts, with a path that stays as it is.
* `Preserved`: a URL has the path and the query of the request.
* `Forwardable`: the segments and the query that can be joined as they are.
* **`preserved_buildBackendUrl_iff`**: the path and the query are preserved if and only if they can be.
-/

namespace DevOps

namespace Bff

open Whatwg PercentEncoding

/-! ## The code -/

/-- The variables of the environment that name the backend. -/
structure BackendEnv where
  internalApiBaseUrl : Option String
  nextPublicApiBaseUrl : Option String

/-- `text.replace(/\/$/, "")`. -/
def withoutSlash (text : String) : String :=
  if text.toList.getLast? = some '/' then String.ofList text.toList.dropLast else text

def getBackendBaseUrl (env : BackendEnv) : String :=
  withoutSlash <|
    match env.internalApiBaseUrl.filter (· ≠ ""), env.nextPublicApiBaseUrl.filter (· ≠ "") with
    | some url, _ => url
    | none, some url => url
    | none, none => "http://localhost:8000"

def buildBackendUrl (env : BackendEnv) (pathSegments : List String) (search : String) : String :=
  let path := "/".intercalate pathSegments
  getBackendBaseUrl env ++ "/" ++ path ++ search

/-- `request.nextUrl.search`, of a query. -/
def searchOf : Option String → String
  | none => ""
  | some query => "?" ++ query

/-! ## What is preserved -/

/-- A base URL that a parser accepts. Its path has neither dot segments nor bytes that are escaped. -/
structure Backend (Host : Type) where
  parser : HostParser Host
  scheme : String
  authority : String
  path : List String
  host : Host
  scheme_mem : Utf8.encode scheme ∈ specialSchemes
  isAuthority : IsAuthority (Utf8.encode authority)
  accepted : parser.authority (Utf8.encode scheme) (Utf8.encode authority) = some host
  plain : ∀ s ∈ path, IsPlain (Utf8.encode s)
  slash : ∀ s ∈ path, ∀ b ∈ Utf8.encode s, isSlash UInt8.toNat b = false
  unescaped : ∀ s ∈ path, ∀ b ∈ Utf8.encode s, inPathSet b = false

/-- The text of a base URL. -/
def Backend.text {Host : Type} (backend : Backend Host) : String :=
  backend.scheme ++ "://" ++ backend.authority ++ String.join (backend.path.map ("/" ++ ·))

variable {Host : Type}

/-- The URL has the path of the request behind that of the base, and its query. -/
structure Preserved (backend : Backend Host) (segments : List String) (query : Option String)
    (url : Url Host) : Prop where
  path : ∃ tail, url.path = backend.path.map Utf8.encode ++ tail ∧
    tail.map percentDecode = segments.map Utf8.encode
  query : url.query = query.map Utf8.encode

/-- A segment that is one piece of a path, and stays as it is. -/
structure PlainSegment (segment : String) : Prop where
  slash : ∀ b ∈ Utf8.encode segment, isSlash UInt8.toNat b = false
  ends : ∀ b ∈ Utf8.encode segment, endsPath UInt8.toNat b = false
  newline : ∀ b ∈ Utf8.encode segment, isTabOrNewline UInt8.toNat b = false
  escape : ¬ HasEscape (Utf8.encode segment)
  dots : segment ≠ "." ∧ segment ≠ ".."

/-- Segments and a query that can be joined as they are. -/
structure Forwardable (segments : List String) (query : Option String) : Prop where
  nonempty : segments ≠ []
  plain : ∀ s ∈ segments, PlainSegment s
  last : query = none → ∀ s ∈ segments.getLast?, ∀ b ∈ (Utf8.encode s).getLast?,
    isC0OrSpace UInt8.toNat b = false
  query : ∀ q ∈ query, ∀ b ∈ Utf8.encode q, inSpecialQuerySet b = false

/-! ## The bytes of the URL -/

/-- The segments with slashes between them. -/
def joined (segments : List String) : List UInt8 := [0x2f].intercalate (segments.map Utf8.encode)

/-- What the parser reads behind the slash after the base. -/
def remainder (segments : List String) (query : Option String) : List UInt8 :=
  ((joined segments ++ Utf8.encode (searchOf query)).rdropWhile (isC0OrSpace UInt8.toNat)).filter
    (!isTabOrNewline UInt8.toNat ·)

variable {backend : Backend Host} {env : BackendEnv} {segments : List String} {query : Option String}

theorem encode_text (backend : Backend Host) : Utf8.encode backend.text =
    Utf8.encode backend.scheme ++ 0x3a :: 0x2f :: 0x2f :: (Utf8.encode backend.authority ++
      pathText (backend.path.map Utf8.encode)) := by
  have hpath : (backend.path.map ("/" ++ ·)).flatMap Utf8.encode =
      pathText (backend.path.map Utf8.encode) := by
    rw [pathText, List.flatMap_map, List.flatMap_map]
    congr 1
    funext s
    rw [Utf8.encode_append]
    rfl
  rw [Backend.text, Utf8.encode_append, Utf8.encode_append, Utf8.encode_append, Utf8.encode_join,
    hpath]
  simp [show Utf8.encode "://" = [0x3a, 0x2f, 0x2f] from by decide +kernel]

theorem encode_buildBackendUrl (hbase : getBackendBaseUrl env = backend.text) :
    Utf8.encode (buildBackendUrl env segments (searchOf query)) = Utf8.encode backend.text ++
      0x2f :: (joined segments ++ Utf8.encode (searchOf query)) := by
  have hslash : Utf8.encode "/" = [0x2f] := by decide +kernel
  unfold buildBackendUrl
  dsimp only
  rw [hbase, Utf8.encode_append, Utf8.encode_append, Utf8.encode_append, Utf8.encode_intercalate,
    hslash, joined]
  simp

/-- The path of the base has no bytes that the parser changes. -/
theorem of_mem_pathText {b : UInt8} (hb : b ∈ pathText (backend.path.map Utf8.encode)) :
    isC0OrSpace UInt8.toNat b = false ∧ endsPath UInt8.toNat b = false := by
  rw [pathText, List.mem_flatMap] at hb
  obtain ⟨piece, hpiece, hb⟩ := hb
  rw [List.mem_cons] at hb
  obtain rfl | hb := hb
  · decide
  · obtain ⟨s, hs, rfl⟩ := List.mem_map.mp hpiece
    exact of_inPathSet_eq_false (backend.unescaped s hs b hb)

/-- The base has neither controls nor spaces. -/
theorem isC0OrSpace_text {b : UInt8} (hb : b ∈ Utf8.encode backend.text) :
    isC0OrSpace UInt8.toNat b = false := by
  rw [encode_text, List.mem_append, List.mem_cons, List.mem_cons, List.mem_cons,
    List.mem_append] at hb
  obtain hb | rfl | rfl | rfl | hb | hb := hb
  · exact (specialSchemes_spec _ backend.scheme_mem b hb).1
  · decide
  · decide
  · decide
  · exact backend.isAuthority.c0 b hb
  · exact (of_mem_pathText hb).1

/-- **The URL that the parser reads**: its path is walked along from the path of the base. -/
theorem parse_buildBackendUrl (hbase : getBackendBaseUrl env = backend.text) :
    parse backend.parser (Utf8.encode (buildBackendUrl env segments (searchOf query))) =
      some ⟨Utf8.encode backend.scheme, backend.host,
        walk (backend.path.map Utf8.encode)
          ((splitQuery (remainder segments query)).1.splitOnP (isSlash UInt8.toNat)),
        (splitQuery (remainder segments query)).2⟩ := by
  have hscheme := specialSchemes_spec _ backend.scheme_mem
  have hlower : (Utf8.encode backend.scheme).map toLower = Utf8.encode backend.scheme := by
    rw [List.map_congr_left fun b hb => (hscheme b hb).2.2, List.map_id']
  have hcolon : ∀ b ∈ Utf8.encode backend.scheme, (decide (b ≠ 0x3a)) = true := fun b hb => by
    simpa using (hscheme b hb).2.1
  have hclean : cleaned UInt8.toNat (Utf8.encode (buildBackendUrl env segments (searchOf query))) =
      Utf8.encode backend.scheme ++ 0x3a :: 0x2f :: 0x2f :: (Utf8.encode backend.authority ++
        (pathText (backend.path.map Utf8.encode) ++ 0x2f :: remainder segments query)) := by
    rw [encode_buildBackendUrl hbase, cleaned_append_cons (fun b hb => isC0OrSpace_text hb)
      (by decide), encode_text, remainder]
    simp
  have hslash : ∃ tail, pathText (backend.path.map Utf8.encode) ++ 0x2f :: remainder segments query =
      0x2f :: tail := by
    cases backend.path with
    | nil => exact ⟨_, rfl⟩
    | cons s path => exact ⟨_, rfl⟩
  have hquery : splitQuery (pathText (backend.path.map Utf8.encode) ++
      0x2f :: remainder segments query) = (pathText (backend.path.map Utf8.encode) ++
        0x2f :: (splitQuery (remainder segments query)).1, (splitQuery (remainder segments query)).2) := by
    have hone : splitQuery ([0x2f] ++ remainder segments query) = _ :=
      splitQuery_append (by decide) (remainder segments query)
    rw [splitQuery_append fun b hb => (of_mem_pathText hb).2, ← List.singleton_append, hone]
    rfl
  have hpath := parsePath_append (List.forall_mem_map.mpr backend.plain)
    (List.forall_mem_map.mpr backend.slash) (List.forall_mem_map.mpr backend.unescaped)
    (splitQuery (remainder segments query)).1
  have hauthority := splitAuthority_append backend.isAuthority hslash
  unfold parse
  rw [hclean]
  dsimp only
  rw [List.takeWhile_append_of_pos hcolon, List.dropWhile_append_of_pos hcolon,
    List.takeWhile_cons_of_neg (by decide), List.dropWhile_cons_of_neg (by decide), List.append_nil,
    hlower]
  dsimp only
  rw [if_pos backend.scheme_mem, hauthority]
  dsimp only
  rw [hquery]
  dsimp only
  rw [backend.accepted, hpath]
  rfl

/-! ## The text that is walked -/

theorem joined_concat (init : List String) (last : String) : joined (init ++ [last]) =
    init.flatMap (fun s => Utf8.encode s ++ [0x2f]) ++ Utf8.encode last := by
  induction init with
  | nil => simp [joined]
  | cons s init ih =>
    obtain ⟨next, rest, hnext⟩ := List.exists_cons_of_ne_nil
      (List.append_ne_nil_of_right_ne_nil init (List.cons_ne_nil last []))
    have hcons : joined (s :: (init ++ [last])) =
        Utf8.encode s ++ 0x2f :: joined (init ++ [last]) := by
      rw [hnext, joined, joined, List.map_cons, List.map_cons, List.intercalate_cons_cons]
      simp
    rw [List.cons_append, hcons, ih, List.flatMap_cons]
    simp

/-- Nothing is taken off the end of the segments if and only if it is no control and no space. -/
theorem rdropWhile_joined (segments : List String) :
    (joined segments).rdropWhile (isC0OrSpace UInt8.toNat) = joined segments ↔
      ∀ s ∈ segments.getLast?, ∀ b ∈ (Utf8.encode s).getLast?, isC0OrSpace UInt8.toNat b = false := by
  have hslash : isC0OrSpace UInt8.toNat (0x2f : UInt8) = false := by decide
  obtain rfl | ⟨init, last, rfl⟩ := segments.eq_nil_or_concat'
  · simp [joined]
  rw [List.getLast?_concat, joined_concat]
  simp only [Option.mem_some_iff, forall_eq']
  obtain hlast | ⟨bytes, b, hlast⟩ := (Utf8.encode last).eq_nil_or_concat'
  · rw [hlast]
    refine iff_of_true ?_ nofun
    obtain rfl | ⟨init, s, rfl⟩ := init.eq_nil_or_concat'
    · rfl
    · rw [List.flatMap_append, List.flatMap_singleton, List.append_nil, ← List.append_assoc,
        List.rdropWhile_concat_neg _ _ _ (by simp [hslash])]
  · rw [hlast, ← List.append_assoc, List.getLast?_concat]
    simp only [Option.mem_some_iff, forall_eq']
    by_cases hb : isC0OrSpace UInt8.toNat b = true
    · rw [List.rdropWhile_concat_pos _ _ _ hb]
      refine iff_of_false (fun h => ?_) (by simp [hb])
      have := (List.rdropWhile_prefix (isC0OrSpace UInt8.toNat)
        (init.flatMap (fun s => Utf8.encode s ++ [0x2f]) ++ bytes)).length_le
      rw [h] at this
      simp only [List.length_append, List.length_singleton] at this
      omega
    · exact iff_of_true (List.rdropWhile_concat_neg _ _ _ hb) (by simpa using hb)

/-- What is left at the end of the segments: a query stands behind them, or nothing. -/
def kept (segments : List String) (query : Option String) : List UInt8 :=
  if query = none then (joined segments).rdropWhile (isC0OrSpace UInt8.toNat) else joined segments

/-- What is left of the query, with its mark. -/
def keptQuery : Option String → List UInt8
  | none => []
  | some q => 0x3f :: ((Utf8.encode q).rdropWhile (isC0OrSpace UInt8.toNat)).filter
      (!isTabOrNewline UInt8.toNat ·)

theorem remainder_eq (segments : List String) (query : Option String) :
    remainder segments query =
      (kept segments query).filter (!isTabOrNewline UInt8.toNat ·) ++ keptQuery query := by
  cases query with
  | none =>
    have hsearch : Utf8.encode (searchOf none) = [] := by decide +kernel
    rw [remainder, kept, if_pos rfl, hsearch, List.append_nil, keptQuery, List.append_nil]
  | some q =>
    have hsearch : Utf8.encode (searchOf (some q)) = 0x3f :: Utf8.encode q := by
      rw [searchOf, Utf8.encode_append]
      rfl
    rw [remainder, kept, if_neg nofun, hsearch, rdropWhile_append_cons (by decide), List.filter_append,
      List.filter_cons_of_pos (by decide)]
    rfl

theorem takeWhile_append_stop {α : Type} {p : α → Bool} {tail : List α}
    (h : ∀ b ∈ tail.head?, p b = false) (l : List α) : (l ++ tail).takeWhile p = l.takeWhile p := by
  induction l with
  | nil =>
    cases tail with
    | nil => rfl
    | cons b tail => rw [List.nil_append, List.takeWhile_cons_of_neg (by simp [h b rfl])]; rfl
  | cons a l ih =>
    rw [List.cons_append]
    by_cases ha : p a = true
    · rw [List.takeWhile_cons_of_pos ha, List.takeWhile_cons_of_pos ha, ih]
    · rw [List.takeWhile_cons_of_neg ha, List.takeWhile_cons_of_neg ha]

theorem fst_splitQuery_remainder (segments : List String) (query : Option String) :
    (splitQuery (remainder segments query)).1 =
      ((kept segments query).filter (!isTabOrNewline UInt8.toNat ·)).takeWhile
        (!endsPath UInt8.toNat ·) := by
  have hstop : ∀ b ∈ (keptQuery query).head?, (!endsPath UInt8.toNat b) = false := by
    cases query with
    | none => exact nofun
    | some q =>
      intro b hb
      cases hb
      decide
  rw [remainder_eq, splitQuery, takeWhile_append_stop hstop]

/-- **What is walked** is a part of the segments, and all of them only if nothing ends the path and
nothing is removed. -/
theorem sublist_joined (segments : List String) (query : Option String) :
    (splitQuery (remainder segments query)).1.Sublist (joined segments) ∧
      ((splitQuery (remainder segments query)).1 = joined segments ↔
        (∀ b ∈ joined segments, endsPath UInt8.toNat b = false ∧
          isTabOrNewline UInt8.toNat b = false) ∧ kept segments query = joined segments) := by
  have hkept : (kept segments query).Sublist (joined segments) := by
    unfold kept
    by_cases h : query = none
    · rw [if_pos h]
      exact (List.rdropWhile_prefix _ _).sublist
    · rw [if_neg h]
  have htake : (splitQuery (remainder segments query)).1.Sublist
      ((kept segments query).filter (!isTabOrNewline UInt8.toNat ·)) := by
    rw [fst_splitQuery_remainder]
    exact (List.takeWhile_prefix _).sublist
  have hfilter : ((kept segments query).filter (!isTabOrNewline UInt8.toNat ·)).Sublist
      (kept segments query) := List.filter_sublist
  refine ⟨(htake.trans hfilter).trans hkept, fun h => ?_, fun ⟨hall, heq⟩ => ?_⟩
  · have heq : kept segments query = joined segments :=
      hkept.antisymm (h ▸ htake.trans hfilter)
    have heq' : (kept segments query).filter (!isTabOrNewline UInt8.toNat ·) = joined segments :=
      (hfilter.trans hkept).antisymm (h ▸ htake)
    refine ⟨fun b hb => ⟨?_, ?_⟩, heq⟩
    · have hmem : b ∈ (splitQuery (remainder segments query)).1 := h ▸ hb
      rw [fst_splitQuery_remainder] at hmem
      simpa using List.mem_takeWhile_imp hmem
    · rw [← heq', List.mem_filter] at hb
      simpa using hb.2
  · rw [fst_splitQuery_remainder, heq, List.filter_eq_self.mpr fun b hb => by simp [(hall b hb).2],
      List.takeWhile_eq_self_iff.mpr fun b hb => by simp [(hall b hb).1]]

/-! ## The result -/

/-- The bytes of a segment are bytes of the segments with slashes between them. -/
theorem mem_joined {s : String} (hs : s ∈ segments) {b : UInt8} (hb : b ∈ Utf8.encode s) :
    b ∈ joined segments := by
  obtain ⟨before, after, rfl⟩ := List.append_of_mem hs
  obtain rfl | ⟨init, last, hlast⟩ := after.eq_nil_or_concat'
  · rw [joined_concat]
    exact List.mem_append_right _ hb
  · rw [hlast, ← List.cons_append, ← List.append_assoc, joined_concat]
    refine List.mem_append_left _ (List.mem_flatMap.mpr ⟨s, by simp, ?_⟩)
    exact List.mem_append_left _ hb

theorem splitOnP_joined (hne : segments ≠ [])
    (h : ∀ s ∈ segments, ∀ b ∈ Utf8.encode s, isSlash UInt8.toNat b = false) :
    (joined segments).splitOnP (isSlash UInt8.toNat) = segments.map Utf8.encode :=
  splitOnP_intercalate isSlash_slash (by simpa using hne) (List.forall_mem_map.mpr h)

/-- The bytes between the segments are their bytes and slashes. -/
theorem of_mem_joined {b : UInt8} (hb : b ∈ joined segments) :
    b = 0x2f ∨ ∃ s ∈ segments, b ∈ Utf8.encode s := by
  obtain rfl | ⟨init, last, rfl⟩ := segments.eq_nil_or_concat'
  · cases hb
  rw [joined_concat, List.mem_append, List.mem_flatMap] at hb
  obtain ⟨s, hs, hb⟩ | hb := hb
  · rw [List.mem_append, List.mem_singleton] at hb
    obtain hb | rfl := hb
    · exact .inr ⟨s, List.mem_append_left _ hs, hb⟩
    · exact .inl rfl
  · exact .inr ⟨last, by simp, hb⟩

/-- Decoding what a path makes of pieces decodes the pieces. -/
theorem map_percentDecode (pieces : List (List UInt8)) :
    (pieces.map (percentEncode inPathSet)).map percentDecode = pieces.map percentDecode := by
  rw [List.map_map]
  exact List.map_congr_left fun x _ => percentDecode_percentEncode keepsEscapes_path x

/-- The path is preserved only if all of the segments are walked, each as one plain piece. -/
theorem plain_of_preserved {tail : List (List UInt8)}
    (hwalk : walk (backend.path.map Utf8.encode)
      ((splitQuery (remainder segments query)).1.splitOnP (isSlash UInt8.toNat)) =
        backend.path.map Utf8.encode ++ tail)
    (htail : tail.map percentDecode = segments.map Utf8.encode) :
    segments ≠ [] ∧ (splitQuery (remainder segments query)).1 = joined segments ∧
      (joined segments).splitOnP (isSlash UInt8.toNat) = segments.map Utf8.encode ∧
      ∀ s ∈ segments, IsPlain (Utf8.encode s) ∧ ¬ HasEscape (Utf8.encode s) := by
  have hsub := (sublist_joined segments query).1
  generalize hwalked : (splitQuery (remainder segments query)).1 = walked at hwalk hsub ⊢
  have hpieces : walked.splitOnP (isSlash UInt8.toNat) ≠ [] := List.splitOnP_ne_nil _ _
  have hsize : size tail = width (segments.map Utf8.encode) := by
    rw [← htail]
    simp [size, width, Function.comp_def]
  obtain ⟨hle, heq⟩ : size (walk (backend.path.map Utf8.encode)
      (walked.splitOnP (isSlash UInt8.toNat))) ≤ _ ∧ _ := size_walk hpieces
  rw [hwalk, size_append, width_splitOnP] at hle heq
  have hne : segments ≠ [] := by
    rintro rfl
    have hnil : walked = [] := List.sublist_nil.mp hsub
    have htail' : tail = [] := by simpa using htail
    have hplain : ∀ x ∈ [([] : List UInt8)], IsPlain x := fun x hx => by
      rw [List.mem_singleton.mp hx]
      exact ⟨rfl, rfl⟩
    rw [hnil, htail', List.append_nil, List.splitOnP_nil, walk_eq hplain] at hwalk
    simp at hwalk
  have hlength : (joined segments).length + 1 = width (segments.map Utf8.encode) :=
    length_intercalate (by simpa using hne)
  have hwhole : walked = joined segments := hsub.eq_of_length_le (by omega)
  have hplain := heq (by rw [hwhole]; omega)
  rw [walk_eq fun x hx => (hplain x hx).1, List.append_cancel_left_eq] at hwalk
  have hsegments : walked.splitOnP (isSlash UInt8.toNat) = segments.map Utf8.encode := by
    rw [← htail, ← hwalk, map_percentDecode,
      List.map_congr_left fun x hx => percentDecode_eq_self_iff.mpr (hplain x hx).2, List.map_id']
  refine ⟨hne, hwhole, hwhole ▸ hsegments, fun s hs => hplain _ ?_⟩
  rw [hsegments]
  exact List.mem_map_of_mem hs

/-- Segments that can be joined are all walked, and the query is read as it is. -/
theorem splitQuery_of_forwardable (h : Forwardable segments query) :
    splitQuery (remainder segments query) = (joined segments, query.map Utf8.encode) := by
  have hall : ∀ b ∈ joined segments, endsPath UInt8.toNat b = false ∧
      isTabOrNewline UInt8.toNat b = false := by
    intro b hb
    obtain rfl | ⟨s, hs, hb⟩ := of_mem_joined hb
    · decide
    · exact ⟨(h.plain s hs).ends b hb, (h.plain s hs).newline b hb⟩
  have hkept : kept segments query = joined segments := by
    unfold kept
    by_cases hquery : query = none
    · rw [if_pos hquery, (rdropWhile_joined segments).mpr (h.last hquery)]
    · rw [if_neg hquery]
  have hremainder : remainder segments query = joined segments ++ keptQuery query := by
    rw [remainder_eq, hkept, List.filter_eq_self.mpr fun b hb => by simp [(hall b hb).2]]
  rw [hremainder, splitQuery_append fun b hb => (hall b hb).1]
  cases query with
  | none =>
    rw [keptQuery]
    change (joined segments ++ [], none) = _
    rw [List.append_nil]
    rfl
  | some q =>
    have hq := fun b hb => of_inSpecialQuerySet_eq_false (h.query q rfl b hb)
    have hdrop : (Utf8.encode q).rdropWhile (isC0OrSpace UInt8.toNat) = Utf8.encode q := by
      rw [List.rdropWhile_eq_self_iff]
      intro hne
      simp [(hq _ (List.getLast_mem hne)).1]
    have hfilter : (Utf8.encode q).filter (!isTabOrNewline UInt8.toNat ·) = Utf8.encode q :=
      List.filter_eq_self.mpr fun b hb => by simp [isTabOrNewline_of_not (hq b hb).1]
    have htake : (Utf8.encode q).takeWhile (· ≠ 0x23) = Utf8.encode q :=
      List.takeWhile_eq_self_iff.mpr fun b hb => by simpa using (hq b hb).2
    have hmark : splitQuery (0x3f :: Utf8.encode q) = ([], some (percentEncode inSpecialQuerySet
        ((Utf8.encode q).takeWhile (· ≠ 0x23)))) := rfl
    rw [keptQuery, hdrop, hfilter, hmark, htake, percentEncode_eq_self (h.query q rfl),
      List.append_nil]
    rfl

/-- **The path and the query are preserved** if and only if the segments and the query can be joined as
they are. -/
theorem preserved_buildBackendUrl_iff (backend : Backend Host) (env : BackendEnv)
    (hbase : getBackendBaseUrl env = backend.text) (segments : List String)
    (query : Option String) :
    (∃ url, parse backend.parser (Utf8.encode (buildBackendUrl env segments (searchOf query))) =
      some url ∧ Preserved backend segments query url) ↔ Forwardable segments query := by
  rw [parse_buildBackendUrl hbase]
  simp only [Option.some.injEq, exists_eq_left']
  constructor
  · rintro ⟨⟨tail, hwalk, htail⟩, hquery⟩
    dsimp only at hwalk hquery
    obtain ⟨hne, hwhole, hsegments, hplain⟩ := plain_of_preserved hwalk htail
    obtain ⟨hbytes, hkept⟩ := (sublist_joined segments query).2.mp hwhole
    refine ⟨hne, fun s hs => ?_, fun hnone => ?_, fun q hq => ?_⟩
    · have hpiece : Utf8.encode s ∈ (joined segments).splitOnP (isSlash UInt8.toNat) :=
        hsegments ▸ List.mem_map_of_mem hs
      obtain ⟨hdots, hescape⟩ := hplain s hs
      rw [isPlain_iff hescape] at hdots
      refine ⟨fun b hb => (of_mem_splitOnP hpiece hb).1, fun b hb => (hbytes b (mem_joined hs hb)).1,
        fun b hb => (hbytes b (mem_joined hs hb)).2, hescape, ?_, ?_⟩
      · rintro rfl
        exact hdots.1 (by decide +kernel)
      · rintro rfl
        exact hdots.2 (by decide +kernel)
    · unfold kept at hkept
      rw [if_pos hnone] at hkept
      exact (rdropWhile_joined segments).mp hkept
    · rw [Option.mem_def.mp hq] at hquery
      exact splitQuery_query hquery
  · intro h
    have hsegments := splitOnP_joined h.nonempty fun s hs => (h.plain s hs).slash
    have hescape : ∀ s ∈ segments, ¬ HasEscape (Utf8.encode s) := fun s hs => (h.plain s hs).escape
    have hplain : ∀ x ∈ segments.map Utf8.encode, IsPlain x := by
      refine List.forall_mem_map.mpr fun s hs => ?_
      rw [isPlain_iff (hescape s hs)]
      refine ⟨fun hdot => (h.plain s hs).dots.1 (Utf8.encode_injective (hdot.trans ?_)),
        fun hdots => (h.plain s hs).dots.2 (Utf8.encode_injective (hdots.trans ?_))⟩
      · decide +kernel
      · decide +kernel
    rw [splitQuery_of_forwardable h]
    dsimp only
    rw [hsegments, walk_eq hplain]
    refine ⟨⟨_, rfl, ?_⟩, rfl⟩
    rw [map_percentDecode, List.map_congr_left fun x hx => ?_, List.map_id']
    obtain ⟨s, hs, rfl⟩ := List.mem_map.mp hx
    exact percentDecode_eq_self_iff.mpr (hescape s hs)

/-- A base URL without a path, and a parser that takes every authority. -/
def localBackend : Backend (List UInt8) where
  parser := ⟨fun _ authority => some authority, fun _ => none⟩
  scheme := "http"
  authority := "localhost:8000"
  path := []
  host := Utf8.encode "localhost:8000"
  scheme_mem := by decide +kernel
  isAuthority := ⟨by decide +kernel, by decide +kernel, by decide +kernel, by decide +kernel⟩
  accepted := rfl
  plain := nofun
  slash := nofun
  unescaped := nofun

theorem preserved_buildBackendUrl_iff_local :
    (∃ url, parse localBackend.parser
        (Utf8.encode (buildBackendUrl ⟨none, none⟩ ["a/b"] (searchOf none))) = some url ∧
      Preserved localBackend ["a/b"] none url) ↔ Forwardable ["a/b"] none :=
  preserved_buildBackendUrl_iff localBackend ⟨none, none⟩ (by decide +kernel) ["a/b"] none

/-- A slash in a segment becomes one between segments. -/
theorem not_preserved_slash :
    ¬ ∀ (segments : List String) (query : Option String), (∀ s ∈ segments, s ≠ "") →
      ∃ url, parse localBackend.parser
        (Utf8.encode (buildBackendUrl ⟨none, none⟩ segments (searchOf query))) = some url ∧
        Preserved localBackend segments query url := by
  intro h
  obtain ⟨url, hparse, ⟨tail, hpath, htail⟩, -⟩ := h ["a/b"] none (by simp)
  have hurl : parse localBackend.parser
      (Utf8.encode (buildBackendUrl ⟨none, none⟩ ["a/b"] (searchOf none))) =
        some ⟨[0x68, 0x74, 0x74, 0x70], localBackend.host, [[0x61], [0x62]], none⟩ := by
    rfl
  rw [hurl] at hparse
  cases hparse
  have hlength := congrArg List.length htail
  rw [List.length_map, List.length_map] at hlength
  have hpath' := congrArg List.length hpath
  rw [List.length_append] at hpath'
  have hbase : (localBackend.path.map Utf8.encode).length = 0 := rfl
  simp only [List.length_cons, List.length_nil] at hlength hpath'
  omega

end Bff

end DevOps
