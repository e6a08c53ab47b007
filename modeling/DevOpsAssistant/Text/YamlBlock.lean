import Mathlib.Data.List.DropRight
import Mathlib.Data.List.Infix
import Mathlib.Tactic.Common

/-!
# A part of YAML

Documents in block style: mappings and sequences by their indentation, plain and quoted scalars on one
line, literal blocks, and flow sequences of words. Other documents are left open.

* `Node`: a document; a scalar is plain or quoted. `Failure`: why a text is not read.
* `scanPlain`, `start`: what stands on a line.
* `groups`: lines by their indentation; **`groups_hole`**.
* `readNode`, `document`: the document of a text; **`readNode_entry`**, **`readNode_item`**.
* `IsPlain`: the texts that are plain scalars; **`start_eq_plain_iff`**.
-/

namespace YamlBlock

/-- Why a text is not read: YAML does not allow it, or it uses another part of YAML. -/
inductive Failure where
  | malformed
  | beyond
deriving DecidableEq

/-- A document. The keys of a mapping are plain. -/
inductive Node where
  | plain (text : List Char)
  | quoted (text : List Char)
  | seq (items : List Node)
  | map (entries : List (List Char × Node))

namespace Node

/-- The value of a key. -/
def get? (key : String) : Node → Option Node
  | map entries => (entries.find? fun e => e.1 = key.toList).map Prod.snd
  | _ => none

def items : Node → List Node
  | seq items => items
  | _ => []

/-- The text of a scalar. -/
def text? : Node → Option (List Char)
  | plain text | quoted text => some text
  | _ => none

/-- The string `s`: `implicit` are the plain texts that stand for values of other types. -/
def IsString (implicit : String → Bool) (s : String) : Node → Prop
  | plain text => text = s.toList ∧ implicit s = false
  | quoted text => text = s.toList
  | _ => False

end Node

/-! ## Lines -/

/-- A line: the number of spaces before its text, and the text. -/
structure Line where
  indent : ℕ
  text : List Char

def Line.of (cs : List Char) : Line := ⟨(cs.takeWhile (· = ' ')).length, cs.dropWhile (· = ' ')⟩

/-- An empty line, or a comment. -/
def Line.skipped (l : Line) : Bool :=
  match l.text with
  | [] => true
  | c :: _ => c = '#'

/-- The line ends a document, or starts one. -/
def Line.isMarker (l : Line) : Bool :=
  l.indent = 0 && (['-', '-', '-'].isPrefixOf l.text || ['.', '.', '.'].isPrefixOf l.text)

/-- The lines of a text. -/
def linesOf : List Char → List (List Char)
  | [] => [[]]
  | c :: cs =>
    if c = '\n' then [] :: linesOf cs
    else
      match linesOf cs with
      | [] => [[c]]
      | l :: ls => (c :: l) :: ls

/-- A character that is printed, and that every version of YAML has on one line. -/
def isText (c : Char) : Bool :=
  (0x20 ≤ c.toNat && c.toNat ≤ 0x7e) ||
    (0xa0 ≤ c.toNat && c.toNat ∉ [0x2028, 0x2029, 0xfeff, 0xfffe, 0xffff])

/-! ## Scalars -/

/-- A text that is empty or starts with a space. -/
def endsWord : List Char → Bool
  | [] => true
  | c :: _ => c = ' '

/-- A plain scalar ends before a comment, and before a colon at the end of a word. -/
def scanPlain (afterSpace : Bool) : List Char → List Char × List Char
  | [] => ([], [])
  | c :: cs =>
    if (c = '#' && afterSpace) || (c = ':' && endsWord cs) then ([], c :: cs)
    else (c :: (scanPlain (c = ' ') cs).1, (scanPlain (c = ' ') cs).2)

/-- The characters that do not start a plain scalar. -/
def indicators : List Char :=
  [',', '[', ']', '\x7b', '\x7d', '#', '&', '*', '!', '|', '>', '\'', '\"', '%', '@', '\x60', ' ']

def startsPlain : List Char → Bool
  | [] => false
  | c :: cs => if c ∈ ['-', '?', ':'] then !endsWord cs else c ∉ indicators

/-- What stands on a line. -/
inductive Start where
  | nothing
  | dash (rest : List Char)
  | key (name rest : List Char)
  | scalar (node : Node)
  | other

def trimEnd (cs : List Char) : List Char := cs.rdropWhile (· = ' ')

/-- A plain scalar, or a key. Keys have at most 1024 characters. -/
def startPlain (text : List Char) : Start :=
  match (scanPlain false text).2 with
  | ':' :: rest =>
    if (scanPlain false text).1.length ≤ 1024 then .key (trimEnd (scanPlain false text).1) rest
    else .other
  | _ => .scalar (.plain (trimEnd (scanPlain false text).1))

/-- A quoted scalar without escapes that ends the line. -/
def startQuoted (quote : Char) (rest : List Char) : Start :=
  match rest.reverse with
  | [] => .other
  | c :: inner =>
    if c = quote && inner.all (fun d => d ≠ quote && d ≠ '\\') then .scalar (.quoted inner.reverse)
    else .other

/-- A flow sequence of words that ends the line. -/
def startFlow (rest : List Char) : Start :=
  match rest.reverse with
  | ']' :: inner =>
    let words := (inner.reverse.splitOnP (· = ',')).map fun w => trimEnd (w.dropWhile (· = ' '))
    if words.all fun w => !w.isEmpty && w.all Char.isAlphanum then .scalar (.seq (words.map .plain))
    else .other
  | _ => .other

def start (text : List Char) : Start :=
  match text with
  | [] => .nothing
  | c :: rest =>
    if c = '#' then .nothing
    else if c = '-' && endsWord rest then .dash rest
    else if c = '\"' || c = '\'' then startQuoted c rest
    else if c = '[' then startFlow rest
    else if startsPlain text then startPlain text
    else .other

/-! ## Nodes -/

/-- The lines before the first one that is indented by at most `n`, and the others: each such line with
the lines below it. -/
def groups (n : ℕ) : List Line → List Line × List (Line × List Line)
  | [] => ([], [])
  | l :: ls =>
    if l.skipped || n < l.indent then (l :: (groups n ls).1, (groups n ls).2)
    else ([], (l, (groups n ls).1) :: (groups n ls).2)

/-- The results of a function that may fail. -/
def each {α β : Type} (f : α → Except Failure β) : List α → Except Failure (List β)
  | [] => .ok []
  | a :: as => do
    let b ← f a
    let bs ← each f as
    return b :: bs

/-- A literal block below a line that is indented by `n`. -/
def literal (n : ℕ) (tail : List Line) : Except Failure Node :=
  match tail.rdropWhile fun l => l.text.isEmpty with
  | [] => .ok (.quoted [])
  | l :: ls =>
    if n < l.indent && (l :: ls).all fun l' => !l'.text.isEmpty && l.indent ≤ l'.indent then
      .ok (.quoted ((l :: ls).flatMap fun l' =>
        List.replicate (l'.indent - l.indent) ' ' ++ l'.text ++ ['\n']))
    else .error .beyond

section Nodes

variable (node : List Line → Except Failure Node)

/-- The value after the colon of a key; `node` reads the lines below. -/
def readValue (n : ℕ) (rest : List Char) (tail : List Line) : Except Failure Node :=
  match start (rest.dropWhile (· = ' ')) with
  | .nothing => node tail
  | .scalar s => if tail.all Line.skipped then .ok s else .error .beyond
  | .dash _ | .key _ _ => .error .malformed
  | .other => if rest.dropWhile (· = ' ') = ['|'] then literal n tail else .error .beyond

/-- An entry of a mapping that is indented by `n`. -/
def readEntry (n : ℕ) (g : Line × List Line) : Except Failure (List Char × Node) :=
  if g.1.indent = n then
    match start g.1.text with
    | .key name rest => do
      let value ← readValue node n rest g.2
      return (name, value)
    | _ => .error .beyond
  else .error .beyond

/-- An item of a sequence that is indented by `n`. -/
def readItem (n : ℕ) (g : Line × List Line) : Except Failure Node :=
  if g.1.indent = n then
    match start g.1.text with
    | .dash rest => node (⟨n + 1 + (Line.of rest).indent, (Line.of rest).text⟩ :: g.2)
    | _ => .error .beyond
  else .error .beyond

end Nodes

/-- The node of some lines, if it is nested at most `depth` deep. -/
def readNode : (depth : ℕ) → List Line → Except Failure Node
  | 0, _ => .error .beyond
  | depth + 1, lines =>
    match lines.dropWhile Line.skipped with
    | [] => .ok (.plain [])
    | l :: ls =>
      match start l.text with
      | .dash _ => .seq <$> each (readItem (readNode depth) l.indent) (groups l.indent (l :: ls)).2
      | .key _ _ => .map <$> each (readEntry (readNode depth) l.indent) (groups l.indent (l :: ls)).2
      | .scalar s => if ls.all Line.skipped then .ok s else .error .beyond
      | _ => .error .beyond

/-- The document of a text. -/
def document (content : String) : Except Failure Node :=
  if content.toList.all fun c => c = '\n' || isText c then
    if ((linesOf content.toList).map Line.of).any Line.isMarker then .error .beyond
    else readNode 32 ((linesOf content.toList).map Line.of)
  else .error .beyond

/-! ## A line among others -/

section Lines

/-- The lines are indented by more than `n`, or skipped. -/
def Below (n : ℕ) (ls : List Line) : Prop := ∀ l ∈ ls, (l.skipped || n < l.indent) = true

instance (n : ℕ) (ls : List Line) : Decidable (Below n ls) := by
  unfold Below
  infer_instance

variable {m n : ℕ} {A T B ls : List Line} {h : Line}

theorem Below.mono (hls : Below n ls) (hmn : m ≤ n) : Below m ls := by
  intro l hl
  have := hls l hl
  simp only [Bool.or_eq_true, decide_eq_true_eq] at this ⊢
  exact this.imp_right hmn.trans_lt

theorem below_append : Below n (A ++ B) ↔ Below n A ∧ Below n B := List.forall_mem_append

theorem below_cons : Below n (h :: ls) ↔ (h.skipped || n < h.indent) = true ∧ Below n ls :=
  List.forall_mem_cons

theorem groups_append (hB : (groups n B).1 = []) :
    groups n (A ++ B) = ((groups n A).1, (groups n A).2 ++ (groups n B).2) := by
  induction A with
  | nil => exact Prod.ext hB rfl
  | cons l A ih =>
    rw [List.cons_append, groups, groups, ih]
    split <;> rfl

theorem groups_tail (hT : Below n T) :
    groups n (T ++ B) = (T ++ (groups n B).1, (groups n B).2) := by
  induction T with
  | nil => rfl
  | cons l T ih =>
    rw [below_cons] at hT
    rw [List.cons_append, groups, if_pos hT.1, ih hT.2]
    rfl

/-- **The lines below a line** belong to it, up to the next one with its indentation. -/
theorem groups_hole (hh : (h.skipped || n < h.indent) = false)
    (hT : Below n T) (hB : (groups n B).1 = []) :
    (groups n (A ++ h :: (T ++ B))).2 = (groups n A).2 ++ (h, T) :: (groups n B).2 := by
  have hhead : groups n (h :: (T ++ B)) = ([], (h, T) :: (groups n B).2) := by
    rw [groups, if_neg (by simp [hh]), groups_tail hT, hB, List.append_nil]
  rw [groups_append (by rw [hhead]), hhead]

theorem groups_dropWhile (ls : List Line) :
    (groups n (ls.dropWhile Line.skipped)).2 = (groups n ls).2 := by
  induction ls with
  | nil => rfl
  | cons l ls ih =>
    by_cases hl : l.skipped = true
    · rw [List.dropWhile_cons_of_pos hl, ih, groups, if_pos (by simp [hl])]
    · rw [List.dropWhile_cons_of_neg hl]

/-- The indentation of the first line, and whether a mapping starts there or a sequence. -/
def shape (ls : List Line) : Option (ℕ × Bool) :=
  match ls.dropWhile Line.skipped with
  | [] => none
  | l :: _ =>
    match start l.text with
    | .key _ _ => some (l.indent, true)
    | .dash _ => some (l.indent, false)
    | _ => none

theorem shape_append (h : shape A ≠ none) : shape (A ++ B) = shape A := by
  unfold shape at h ⊢
  rw [List.dropWhile_append]
  cases hA : A.dropWhile Line.skipped with
  | nil => simp [hA] at h
  | cons l ls => rfl

variable {α β : Type} {f : α → Except Failure β} {as bs : List α} {xs ys : List β} {d : ℕ}

theorem each_append (hb : each f bs = .ok ys) (ha : each f as = .ok xs) :
    each f (as ++ bs) = .ok (xs ++ ys) := by
  induction as generalizing xs with
  | nil => cases ha; exact hb
  | cons a as ih =>
    rw [each] at ha
    rw [List.cons_append, each]
    cases hfa : f a with
    | error e => rw [hfa] at ha; cases ha
    | ok x =>
      rw [hfa] at ha
      cases hrest : each f as with
      | error e => rw [hrest] at ha; cases ha
      | ok zs =>
        rw [hrest] at ha
        cases ha
        rw [ih hrest]
        rfl

/-- **One result among others.** -/
theorem each_hole {a : α} (ha : each f as = .ok xs) (hb : each f bs = .ok ys) :
    each f (as ++ a :: bs) = (fun x => xs ++ x :: ys) <$> f a := by
  cases hfa : f a with
  | ok x => exact each_append (by rw [each, hfa, hb]; rfl) ha
  | error e =>
    induction as generalizing xs with
    | nil => rw [List.nil_append, each, hfa]; rfl
    | cons a' as ih =>
      rw [each] at ha
      rw [List.cons_append, each]
      cases hfa' : f a' with
      | error e => rw [hfa'] at ha; cases ha
      | ok x =>
        rw [hfa'] at ha
        cases hrest : each f as with
        | error e => rw [hrest] at ha; cases ha
        | ok zs => rw [ih hrest]; rfl

theorem readNode_map (h : shape ls = some (n, true)) :
    readNode (d + 1) ls = .map <$> each (readEntry (readNode d) n) (groups n ls).2 := by
  unfold shape at h
  rw [readNode]
  cases hls : ls.dropWhile Line.skipped with
  | nil => rw [hls] at h; cases h
  | cons l ls' =>
    rw [hls] at h
    dsimp only at h ⊢
    split at h
    · next name rest hstart =>
      cases h
      rw [hstart, ← groups_dropWhile ls, hls]
    · cases h
    · cases h

theorem readNode_seq (h : shape ls = some (n, false)) :
    readNode (d + 1) ls = .seq <$> each (readItem (readNode d) n) (groups n ls).2 := by
  unfold shape at h
  rw [readNode]
  cases hls : ls.dropWhile Line.skipped with
  | nil => rw [hls] at h; cases h
  | cons l ls' =>
    rw [hls] at h
    dsimp only at h ⊢
    split at h
    · cases h
    · next rest hstart =>
      cases h
      rw [hstart, ← groups_dropWhile ls, hls]
    · cases h

/-- **A mapping**, with one entry among others. -/
theorem readNode_entry {before after : List (List Char × Node)}
    (hshape : shape (A ++ [h]) = some (n, true)) (hh : (h.skipped || n < h.indent) = false)
    (hT : Below n T) (hB : (groups n B).1 = [])
    (hbefore : each (readEntry (readNode d) n) (groups n A).2 = .ok before)
    (hafter : each (readEntry (readNode d) n) (groups n B).2 = .ok after) :
    readNode (d + 1) (A ++ h :: (T ++ B)) =
      (fun e => .map (before ++ e :: after)) <$> readEntry (readNode d) n (h, T) := by
  have hlines : shape (A ++ h :: (T ++ B)) = some (n, true) := by
    rw [List.append_cons, shape_append (by rw [hshape]; exact nofun), hshape]
  rw [readNode_map hlines, groups_hole hh hT hB, each_hole hbefore hafter]
  cases readEntry (readNode d) n (h, T) <;> rfl

/-- **A sequence**, with one item among others. -/
theorem readNode_item {before after : List Node}
    (hshape : shape (A ++ [h]) = some (n, false)) (hh : (h.skipped || n < h.indent) = false)
    (hT : Below n T) (hB : (groups n B).1 = [])
    (hbefore : each (readItem (readNode d) n) (groups n A).2 = .ok before)
    (hafter : each (readItem (readNode d) n) (groups n B).2 = .ok after) :
    readNode (d + 1) (A ++ h :: (T ++ B)) =
      (fun x => .seq (before ++ x :: after)) <$> readItem (readNode d) n (h, T) := by
  have hlines : shape (A ++ h :: (T ++ B)) = some (n, false) := by
    rw [List.append_cons, shape_append (by rw [hshape]; exact nofun), hshape]
  rw [readNode_seq hlines, groups_hole hh hT hB, each_hole hbefore hafter]
  cases readItem (readNode d) n (h, T) <;> rfl

end Lines

/-- Lines that are ended, and what follows them. -/
theorem linesOf_append {l : List Char} (hl : '\n' ∉ l) (cs : List Char) :
    linesOf (l ++ '\n' :: cs) = l :: linesOf cs := by
  induction l with
  | nil => rw [List.nil_append, linesOf, if_pos rfl]
  | cons c l ih =>
    rw [List.mem_cons, not_or] at hl
    rw [List.cons_append, linesOf, if_neg (Ne.symm hl.1), ih hl.2]

theorem linesOf_flatMap {ls : List (List Char)} (h : ∀ l ∈ ls, '\n' ∉ l) :
    linesOf (ls.flatMap fun l => l ++ ['\n']) = ls ++ [[]] := by
  induction ls with
  | nil => rfl
  | cons l ls ih =>
    rw [List.forall_mem_cons] at h
    rw [List.flatMap_cons, List.append_assoc, List.singleton_append, linesOf_append h.1, ih h.2]
    rfl

/-! ## Plain scalars -/

/-- The text is a plain scalar: it starts like one, and neither a comment nor a colon at the end of a word
ends it. -/
structure IsPlain (cs : List Char) : Prop where
  text : ∀ c ∈ cs, isText c = true
  first : startsPlain cs = true
  comment : ¬ [' ', '#'] <:+: cs
  pair : ¬ [':', ' '] <:+: cs
  ending : cs.getLast? ≠ some ':'

theorem scanPlain_append (b : Bool) (cs : List Char) :
    (scanPlain b cs).1 ++ (scanPlain b cs).2 = cs := by
  fun_induction scanPlain b cs with
  | case1 => rfl
  | case2 => rfl
  | case3 b c cs h ih => rw [List.cons_append, ih]

/-- What a plain scalar leaves starts a comment or ends a key. -/
theorem scanPlain_rest {b : Bool} {cs rest : List Char} {c : Char}
    (h : (scanPlain b cs).2 = c :: rest) : c = '#' ∨ (c = ':' ∧ endsWord rest = true) := by
  fun_induction scanPlain b cs with
  | case1 => cases h
  | case2 b d cs hd =>
    cases h
    rw [Bool.or_eq_true, Bool.and_eq_true, Bool.and_eq_true, decide_eq_true_eq, decide_eq_true_eq] at hd
    exact hd.imp_left fun hd => hd.1
  | case3 b d cs hd ih => exact ih h

/-- A pair of characters starts a text, or stands in what follows the first one. -/
theorem pair_infix_cons {x y c : Char} {cs : List Char} :
    [x, y] <:+: c :: cs ↔ (c = x ∧ cs.head? = some y) ∨ [x, y] <:+: cs := by
  rw [List.infix_cons_iff]
  refine or_congr_left ?_
  cases cs with
  | nil => simp
  | cons d ds => simp [List.cons_prefix_cons, eq_comm]

/-- **The scan** goes through to the end exactly if nothing ends a plain scalar. -/
theorem scanPlain_eq_nil_iff (b : Bool) (cs : List Char) : (scanPlain b cs).2 = [] ↔
    ¬ (b = true ∧ cs.head? = some '#') ∧ ¬ [' ', '#'] <:+: cs ∧ ¬ [':', ' '] <:+: cs ∧
      cs.getLast? ≠ some ':' := by
  fun_induction scanPlain b cs with
  | case1 b => simp
  | case2 b c cs h =>
    refine iff_of_false (by simp) ?_
    rintro ⟨hfirst, -, hpair, hending⟩
    simp only [Bool.or_eq_true, Bool.and_eq_true, decide_eq_true_eq] at h
    rcases h with ⟨rfl, hb⟩ | ⟨rfl, hword⟩
    · exact hfirst ⟨hb, rfl⟩
    · cases cs with
      | nil => exact hending rfl
      | cons d ds =>
        refine hpair (pair_infix_cons.mpr (.inl ⟨rfl, ?_⟩))
        rw [List.head?_cons, of_decide_eq_true hword]
  | case3 b c cs h ih =>
    simp only [Bool.or_eq_true, Bool.and_eq_true, decide_eq_true_eq, not_or, not_and] at h
    obtain ⟨hcomment, hcolon⟩ := h
    rw [ih, pair_infix_cons, pair_infix_cons, decide_eq_true_eq, List.head?_cons]
    have hlast : (c :: cs).getLast? = some ':' ↔ cs.getLast? = some ':' := by
      cases cs with
      | nil => simpa using fun hc => absurd rfl (hcolon hc)
      | cons d ds => rw [List.getLast?_cons_cons]
    have hspace : ¬ (c = ':' ∧ cs.head? = some ' ') := by
      rintro ⟨hc, hhead⟩
      cases cs with
      | nil => cases hhead
      | cons d ds => exact hcolon hc (decide_eq_true (Option.some.inj hhead))
    have hfirst : ¬ (b = true ∧ some c = some '#') := fun ⟨hb, hc⟩ => hcomment (Option.some.inj hc) hb
    constructor
    · rintro ⟨hfirst', hcomment', hpair', hending'⟩
      exact ⟨hfirst, fun h => h.elim hfirst' hcomment', fun h => h.elim hspace hpair',
        fun h => hending' (hlast.mp h)⟩
    · rintro ⟨-, hcomment', hpair', hending'⟩
      exact ⟨fun h => hcomment' (.inl h), fun h => hcomment' (.inr h), fun h => hpair' (.inr h),
        fun h => hending' (hlast.mpr h)⟩

/-- No character is left out at the end. -/
theorem trimEnd_eq_self {cs : List Char} (h : cs.getLast? ≠ some ' ') : trimEnd cs = cs := by
  refine List.rdropWhile_eq_self_iff.mpr fun hne hlast => h ?_
  rw [List.getLast?_eq_some_getLast hne, of_decide_eq_true hlast]

/-- **A plain scalar** is read as it stands. -/
theorem start_of_isPlain {cs : List Char} (h : IsPlain cs) (hlast : cs.getLast? ≠ some ' ') :
    start cs = .scalar (.plain cs) := by
  have hscan : (scanPlain false cs).2 = [] :=
    (scanPlain_eq_nil_iff false cs).mpr ⟨by simp, h.comment, h.pair, h.ending⟩
  have hall : (scanPlain false cs).1 = cs := by
    have := scanPlain_append false cs
    rwa [hscan, List.append_nil] at this
  have hplain : startPlain cs = .scalar (.plain cs) := by
    rw [startPlain, hscan, hall, trimEnd_eq_self hlast]
  have hfirst := h.first
  cases cs with
  | nil => cases hfirst
  | cons c rest =>
    rw [start]
    rw [startsPlain] at hfirst
    split
    · next hc => subst hc; simp [indicators] at hfirst
    split
    · next hc =>
      simp only [Bool.and_eq_true, decide_eq_true_eq] at hc
      simp [hc.1, hc.2] at hfirst
    split
    · next hc =>
      simp only [Bool.or_eq_true, decide_eq_true_eq] at hc
      rcases hc with rfl | rfl <;> simp [indicators] at hfirst
    split
    · next hc => subst hc; simp [indicators] at hfirst
    · rw [if_pos (by rw [startsPlain]; exact hfirst), hplain]

/-- A quoted scalar is shorter than the text it stands in. -/
theorem length_of_startQuoted {q : Char} {rest : List Char} {node : Node}
    (h : startQuoted q rest = .scalar node) :
    ∃ text, node = .quoted text ∧ text.length < rest.length := by
  unfold startQuoted at h
  split at h
  · cases h
  · next c inner hrest =>
    split at h
    · cases h
      refine ⟨_, rfl, ?_⟩
      have := congrArg List.length hrest
      rw [List.length_reverse, List.length_cons] at this
      rw [List.length_reverse]
      omega
    · cases h

theorem seq_of_startFlow {rest : List Char} {node : Node} (h : startFlow rest = .scalar node) :
    ∃ items, node = .seq items := by
  unfold startFlow at h
  split at h
  · dsimp only at h
    split at h
    · cases h
      exact ⟨_, rfl⟩
    · cases h
  · cases h

/-- What `startPlain` takes is a beginning of the text, all of it only if the scan goes through. -/
theorem plain_of_startPlain {cs : List Char} {node : Node} (h : startPlain cs = .scalar node) :
    ∃ text, node = .plain text ∧ (text = cs → (scanPlain false cs).2 = []) := by
  unfold startPlain at h
  split at h
  · split at h <;> cases h
  · cases h
    refine ⟨_, rfl, fun heq => ?_⟩
    have hall := congrArg List.length (scanPlain_append false cs)
    have hle := (List.rdropWhile_prefix (p := fun c : Char => c = ' ')
      (l := (scanPlain false cs).1)).length_le
    have hlength := congrArg List.length heq
    rw [List.length_append] at hall
    rw [trimEnd] at hlength
    exact List.eq_nil_of_length_eq_zero (by omega)

/-- **A scalar that is read as the text it stands in** is plain. -/
theorem isPlain_of_start {cs : List Char} {node : Node} {implicit : String → Bool} {s : String}
    (htext : ∀ c ∈ cs, isText c = true) (h : start cs = .scalar node)
    (hs : node.IsString implicit s) (hcs : s.toList = cs) : IsPlain cs ∧ implicit s = false := by
  cases cs with
  | nil => cases h
  | cons c rest =>
    rw [start] at h
    split at h
    · cases h
    split at h
    · cases h
    split at h
    · obtain ⟨text, rfl, hlt⟩ := length_of_startQuoted h
      have hlength : text.length = rest.length + 1 := by rw [hs, hcs, List.length_cons]
      omega
    split at h
    · obtain ⟨items, rfl⟩ := seq_of_startFlow h
      exact hs.elim
    split at h
    · next hfirst =>
      obtain ⟨text, rfl, hscan⟩ := plain_of_startPlain h
      obtain ⟨-, hcomment, hpair, hending⟩ :=
        (scanPlain_eq_nil_iff false _).mp (hscan (hs.1.trans hcs))
      exact ⟨⟨htext, hfirst, hcomment, hpair, hending⟩, hs.2⟩
    · cases h

end YamlBlock
