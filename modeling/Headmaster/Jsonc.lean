import Headmaster.Json
import Headmaster.Json.Strings
import Headmaster.Text

/-!
# JSON with comments

A text of JSON with comments is scanned into tokens (`Mode.step`), from which a
syntax tree is built (`State.step`): its leaves are literals as they stand in
the text. What is white space, and what a literal stands for, is left open
(`Dialect`). Commas may be missing, or come last.

A tree is displayed with any white space and comments between its leaves
(`Displays`), and a leaf may have comments of its own after the literal. What
is displayed is read as what the tree is read as (`read_of_displays`).
-/

namespace Jsonc

/-! ## Tokens -/

inductive Token
  | openArray
  | closeArray
  | openObject
  | closeObject
  | comma
  | colon
  /-- A string, with its quotes, or a word. -/
  | literal (raw : List Char)
  deriving DecidableEq

namespace Token

/-- The token that a character is, if it is one on its own. -/
def ofChar? : Char → Option Token
  | '[' => some openArray
  | ']' => some closeArray
  | '\x7b' => some openObject
  | '\x7d' => some closeObject
  | ',' => some comma
  | ':' => some colon
  | _ => none

def text : Token → List Char
  | openArray => ['[']
  | closeArray => [']']
  | openObject => ['\x7b']
  | closeObject => ['\x7d']
  | comma => [',']
  | colon => [':']
  | literal raw => raw

end Token

/-- Where the scanner is. -/
inductive Mode
  | between
  | word (raw : List Char)
  | string (quote : Char) (raw : List Char)
  /-- After a backslash in a string. -/
  | escape (quote : Char) (raw : List Char)
  /-- After the slash that begins a comment. -/
  | slash
  | line
  | block
  /-- After a star in a block comment. -/
  | star
  deriving DecidableEq

def isQuote (c : Char) : Bool := c == '"' || c == '\''

/-- What begins with the character is neither a word nor white space. -/
def isSpecial (c : Char) : Bool := isQuote c || c == '/' || (Token.ofChar? c).isSome

section Scanner

variable (isBlank : Char → Bool)

/-- The character is part of a word. -/
def inWord (c : Char) : Bool := !(isSpecial c || isBlank c)

namespace Mode

/-- A character between tokens: the mode after it, and the token it is, if any. -/
def fresh (c : Char) : Mode × List Token :=
  if isQuote c then (string c [c], [])
  else if c = '/' then (slash, [])
  else match Token.ofChar? c with
    | some t => (between, [t])
    | none => if isBlank c then (between, []) else (word [c], [])

/-- A character: the mode after it, and the tokens that end. -/
def step : Mode → Char → Option (Mode × List Token)
  | between, c => some (fresh isBlank c)
  | word raw, c =>
    if inWord isBlank c then some (word (raw ++ [c]), [])
    -- The character that ends a word may begin a token, or be one.
    else some ((fresh isBlank c).1, .literal raw :: (fresh isBlank c).2)
  | string quote raw, c =>
    if c = quote then some (between, [.literal (raw ++ [c])])
    else if c = '\\' then some (escape quote (raw ++ [c]), [])
    else some (string quote (raw ++ [c]), [])
  | escape quote raw, c => some (string quote (raw ++ [c]), [])
  | slash, c => if c = '*' then some (block, []) else if c = '/' then some (line, []) else none
  | line, c => if c = '\n' then some (between, []) else some (line, [])
  | block, c => if c = '*' then some (star, []) else some (block, [])
  | star, c =>
    if c = '/' then some (between, []) else if c = '*' then some (star, []) else some (block, [])

/-- The tokens that end with the text. -/
def finish : Mode → Option (List Token)
  | between | line => some []
  | word raw => some [.literal raw]
  | string _ _ | escape _ _ | slash | block | star => none

/-- The mode after a text, and the tokens that end in it. -/
def scan : Mode → List Char → Option (Mode × List Token)
  | m, [] => some (m, [])
  | m, c :: text =>
    (step isBlank m c).bind fun p => (scan p.1 text).map fun q => (q.1, p.2 ++ q.2)

/-- The tokens of what is left of a text. -/
def lex (m : Mode) (text : List Char) : Option (List Token) :=
  (m.scan isBlank text).bind fun p => p.1.finish.map (p.2 ++ ·)

end Mode

/-- The tokens of a text. -/
def tokens (text : List Char) : Option (List Token) := Mode.between.lex isBlank text

/-- The literal in a text that has nothing else but comments. -/
def literal? (raw : List Char) : Option (List Char) :=
  match Mode.between.scan isBlank raw with
  | some (.between, [.literal l]) => some l
  | some (.word l, []) => some l
  | _ => none

end Scanner

/-! ## Syntax trees -/

/-- A syntax tree, with its literals as they stand in the text. -/
inductive CstNode
  | literal (raw : List Char)
  | array (es : List CstNode)
  | object (ps : List (List Char × CstNode))

/-- An array or an object that goes on: what it has so far, and the name of the next property. -/
inductive Frame
  | array (es : List CstNode)
  | object (ps : List (List Char × CstNode)) (key : List Char)

/-- Where the parser is: what comes next, and around it. -/
inductive State
  | value (stack : List Frame)
  /-- In an array, after these elements; whether a comma may come. -/
  | elements (es : List CstNode) (comma : Bool) (stack : List Frame)
  | properties (ps : List (List Char × CstNode)) (comma : Bool) (stack : List Frame)
  /-- After the name of a property. -/
  | colon (ps : List (List Char × CstNode)) (key : List Char) (stack : List Frame)
  | done (n : CstNode)

namespace State

/-- A value is complete. -/
def complete (n : CstNode) : List Frame → State
  | [] => done n
  | .array es :: stack => elements (es ++ [n]) true stack
  | .object ps key :: stack => properties (ps ++ [(key, n)]) true stack

/-- The first token of a value. -/
def start (stack : List Frame) : Token → Option State
  | .literal raw => some (complete (.literal raw) stack)
  | .openArray => some (elements [] false stack)
  | .openObject => some (properties [] false stack)
  | _ => none

def step : State → Token → Option State
  | value stack, t => start stack t
  | elements es comma stack, t =>
    match t with
    | .comma => if comma then some (elements es false stack) else none
    | .closeArray => some (complete (.array es) stack)
    | t => start (.array es :: stack) t
  | properties ps comma stack, t =>
    match t with
    | .comma => if comma then some (properties ps false stack) else none
    | .closeObject => some (complete (.object ps) stack)
    | .literal key => some (colon ps key stack)
    | _ => none
  | colon ps key stack, t => if t = .colon then some (value (.object ps key :: stack)) else none
  | done _, _ => none

def run (s : State) (ts : List Token) : Option State := ts.foldlM step s

/-- The tree at the end of a text, if there is one. -/
def result : State → Option (Option CstNode)
  | value [] => some none
  | done n => some (some n)
  | _ => none

end State

/-- The tree of a text; none within, where the text has comments only. -/
def parse (isBlank : Char → Bool) (text : List Char) : Option (Option CstNode) :=
  ((tokens isBlank text).bind (State.value []).run).bind State.result

/-! ## What is read -/

/-- What is left open: white space, and what literals stand for. -/
structure Dialect where
  isBlank : Char → Bool
  /-- The value that a literal stands for. -/
  read : List Char → Option Json
  /-- The name that a literal stands for. -/
  name : List Char → Option String
  isBlank_space : isBlank ' ' = true
  /-- A literal is no object. -/
  read_ne_object (raw : List Char) (ps : List (String × Json)) : read raw ≠ some (.object ps)

section Reading

variable (D : Dialect)

/-- The name of a property. -/
def nameOf (key : List Char) : Option String := (literal? D.isBlank key).bind D.name

namespace CstNode

mutual

/-- The value of a tree, if its literals have one. -/
def value : CstNode → Option Json
  | literal raw => (literal? D.isBlank raw).bind D.read
  | array es => (values es).map .array
  | object ps => (entries ps).map .object

def values : List CstNode → Option (List Json)
  | [] => some []
  | e :: es => do return (← value e) :: (← values es)

def entries : List (List Char × CstNode) → Option (List (String × Json))
  | [] => some []
  | (key, v) :: ps => do return (← nameOf D key, ← value v) :: (← entries ps)

end

end CstNode

/-- The value of a tree that may be missing. -/
def rootValue : Option CstNode → Option (Option Json)
  | none => some none
  | some n => (n.value D).map some

/-- The value of a text; none within, where the text has comments only. -/
def read (text : List Char) : Option (Option Json) := (parse D.isBlank text).bind (rootValue D)

end Reading

/-! ## How a tree is displayed -/

section Display

variable (isBlank : Char → Bool)

/-- White space and comments. -/
inductive Gap : List Char → Prop
  | nil : Gap []
  | blank {c : Char} {g : List Char} (hc : isBlank c = true) (hspecial : isSpecial c = false)
      (hg : Gap g) : Gap (c :: g)
  | line {text g : List Char} (htext : '\n' ∉ text) (hg : Gap g) :
      Gap ('/' :: '/' :: (text ++ '\n' :: g))
  | block {text g : List Char} (htext : Text.Avoids '*' '/' text) (hg : Gap g) :
      Gap ('/' :: '*' :: (text ++ '*' :: '/' :: g))

/-- No word goes on from a text to the next. -/
def Apart (text text' : List Char) : Prop :=
  ∀ c ∈ text.getLast?, ∀ d ∈ text'.head?, inWord isBlank c = true → inWord isBlank d = false

/-- A text for tokens, with white space and comments around them. The last comment may end with the
    text. -/
inductive Lays : List Token → List Char → Prop
  | nil {g : List Char} (hg : Gap isBlank g) : Lays [] g
  | line {g text : List Char} (hg : Gap isBlank g) (htext : '\n' ∉ text) :
      Lays [] (g ++ '/' :: '/' :: text)
  | cons {g text : List Char} {t : Token} {ts : List Token} (hg : Gap isBlank g)
      (hapart : Apart isBlank t.text text) (hts : Lays ts text) :
      Lays (t :: ts) (g ++ (t.text ++ text))

end Display

/-- A part of a tree. -/
inductive Part
  | node (n : CstNode)
  | elements (es : List CstNode)
  | properties (ps : List (List Char × CstNode))

/-- The leaves of a part of a tree, in order. After an element or a property is a comma, or not. -/
inductive Leaves : Part → List Token → Prop
  | literal (raw : List Char) : Leaves (.node (.literal raw)) [.literal raw]
  | array {es : List CstNode} {ts : List Token} (h : Leaves (.elements es) ts) :
      Leaves (.node (.array es)) (.openArray :: (ts ++ [.closeArray]))
  | object {ps : List (List Char × CstNode)} {ts : List Token} (h : Leaves (.properties ps) ts) :
      Leaves (.node (.object ps)) (.openObject :: (ts ++ [.closeObject]))
  | noElement : Leaves (.elements []) []
  | element {e : CstNode} {es : List CstNode} {ts ts' : List Token} (comma : Bool)
      (h : Leaves (.node e) ts) (h' : Leaves (.elements es) ts') :
      Leaves (.elements (e :: es)) (ts ++ ((if comma then [.comma] else []) ++ ts'))
  | noProperty : Leaves (.properties []) []
  | property {key : List Char} {v : CstNode} {ps : List (List Char × CstNode)} {ts ts' : List Token}
      (comma : Bool) (h : Leaves (.node v) ts) (h' : Leaves (.properties ps) ts') :
      Leaves (.properties ((key, v) :: ps))
        (.literal key :: .colon :: (ts ++ ((if comma then [.comma] else []) ++ ts')))

/-- The text displays the tree. -/
def Displays (isBlank : Char → Bool) (n : CstNode) (text : List Char) : Prop :=
  ∃ ts, Leaves (.node n) ts ∧ Lays isBlank ts text

namespace CstNode

mutual

/-- The leaves of a tree, with all commas. -/
def leaves : CstNode → List Token
  | literal raw => [.literal raw]
  | array es => .openArray :: (elementLeaves es ++ [.closeArray])
  | object ps => .openObject :: (propertyLeaves ps ++ [.closeObject])

def elementLeaves : List CstNode → List Token
  | [] => []
  | e :: es => leaves e ++ ([.comma] ++ elementLeaves es)

def propertyLeaves : List (List Char × CstNode) → List Token
  | [] => []
  | (key, v) :: ps => .literal key :: .colon :: (leaves v ++ ([.comma] ++ propertyLeaves ps))

end

mutual

theorem leaves_leaves : ∀ n : CstNode, Leaves (.node n) n.leaves
  | literal raw => .literal raw
  | array es => .array (leaves_elements es)
  | object ps => .object (leaves_properties ps)

theorem leaves_elements : ∀ es : List CstNode, Leaves (.elements es) (elementLeaves es)
  | [] => .noElement
  | e :: es => .element true (leaves_leaves e) (leaves_elements es)

theorem leaves_properties : ∀ ps : List (List Char × CstNode),
    Leaves (.properties ps) (propertyLeaves ps)
  | [] => .noProperty
  | (_, v) :: ps => .property true (leaves_leaves v) (leaves_properties ps)

end

/-- A text for a tree, with a space before each leaf. -/
def spaced (n : CstNode) : List Char := n.leaves.flatMap fun t => ' ' :: t.text

end CstNode

/-- What a leaf has is in the text. -/
theorem mem_of_lays {isBlank : Char → Bool} {ts : List Token} {text : List Char}
    (h : Lays isBlank ts text) {t : Token} (ht : t ∈ ts) : ∀ c ∈ t.text, c ∈ text := by
  induction h with
  | nil | line => cases ht
  | cons _ _ _ ih =>
    intro c hc
    rcases List.mem_cons.1 ht with rfl | ht
    · exact List.mem_append_right _ (List.mem_append_left _ hc)
    · exact List.mem_append_right _ (List.mem_append_right _ (ih ht c hc))

theorem lays_spaced {isBlank : Char → Bool} (h : isBlank ' ' = true) (ts : List Token) :
    Lays isBlank ts (ts.flatMap fun t => ' ' :: t.text) := by
  induction ts with
  | nil => exact .nil .nil
  | cons t ts ih =>
    refine .cons (.blank h rfl .nil) (fun c _ d hd _ => ?_) ih
    match ts, hd with
    | _ :: _, hd =>
      obtain rfl := Option.some.inj hd
      rw [inWord, h, Bool.or_true, Bool.not_true]

/-- Every tree can be displayed. -/
theorem displays_spaced {isBlank : Char → Bool} (h : isBlank ' ' = true) (n : CstNode) :
    Displays isBlank n n.spaced :=
  ⟨n.leaves, n.leaves_leaves, lays_spaced h n.leaves⟩

/-! ## The scanner -/

section Scanner

variable {isBlank : Char → Bool} {m m' : Mode} {c : Char} {ts ts' : List Token}
  {text text' raw l : List Char}

theorem Token.ofChar?_ne_literal : Token.ofChar? c ≠ some (.literal l) := by
  unfold Token.ofChar?
  split <;> nofun

namespace Mode

theorem scan_cons : m.scan isBlank (c :: text) = (m.step isBlank c).bind fun p =>
    (p.1.scan isBlank text).map fun q => (q.1, p.2 ++ q.2) := rfl

theorem scan_append : m.scan isBlank (text ++ text') = (m.scan isBlank text).bind fun p =>
    (p.1.scan isBlank text').map fun q => (q.1, p.2 ++ q.2) := by
  induction text generalizing m with
  | nil => exact Option.map_id'.symm
  | cons c text ih =>
    rw [List.cons_append, scan_cons, scan_cons, Option.bind_assoc]
    refine Option.bind_congr fun p _ => ?_
    rw [ih, Option.map_bind, Option.bind_map]
    refine Option.bind_congr fun q _ => ?_
    simp only [Function.comp_apply, Option.map_map, List.append_assoc]
    rfl

theorem scan_step (h : m.step isBlank c = some (m', [])) :
    m.scan isBlank (c :: text) = m'.scan isBlank text := by
  rw [scan_cons, h, Option.bind_some]
  exact Option.map_id'

theorem scan_through (h : m.scan isBlank text = some (m', [])) :
    m.scan isBlank (text ++ text') = m'.scan isBlank text' := by
  rw [scan_append, h, Option.bind_some]
  exact Option.map_id'

theorem lex_append (h : m.scan isBlank text = some (m', ts)) :
    m.lex isBlank (text ++ text') = (m'.lex isBlank text').map (ts ++ ·) := by
  rw [lex, scan_append, h, Option.bind_some, lex, Option.bind_map, Option.map_bind]
  refine Option.bind_congr fun q _ => ?_
  simp only [Function.comp_apply, Option.map_map, List.append_assoc]
  rfl

theorem lex_through (h : m.scan isBlank text = some (m', [])) :
    m.lex isBlank (text ++ text') = m'.lex isBlank text' := by
  rw [lex_append h]
  exact Option.map_id'

/-- A word ends where none goes on. -/
theorem lex_word (h : ∀ c ∈ text.head?, inWord isBlank c = false) :
    (word raw).lex isBlank text = (between.lex isBlank text).map (.literal raw :: ·) := by
  match text, h with
  | [], _ => rfl
  | c :: text, h =>
    have hc : inWord isBlank c = false := h c rfl
    have hword : (word raw).step isBlank c =
        some ((fresh isBlank c).1, .literal raw :: (fresh isBlank c).2) := by
      rw [step, hc]
      rfl
    have hbetween : between.step isBlank c = some (fresh isBlank c) := rfl
    rw [lex, lex, scan_cons, scan_cons, hword, hbetween, Option.bind_some,
      Option.bind_some, Option.bind_map, Option.bind_map, Option.map_bind]
    refine Option.bind_congr fun q _ => ?_
    simp only [Function.comp_apply, Option.map_map]
    rfl

theorem fresh_cases (isBlank : Char → Bool) (c : Char) :
    fresh isBlank c = (string c [c], []) ∨ fresh isBlank c = (slash, []) ∨
    (∃ t, (∀ l, t ≠ .literal l) ∧ fresh isBlank c = (between, [t])) ∨ fresh isBlank c = (between, []) ∨
    (inWord isBlank c = true ∧ fresh isBlank c = (word [c], [])) := by
  unfold fresh
  by_cases hquote : isQuote c = true
  · exact .inl (if_pos hquote)
  · rw [if_neg hquote]
    by_cases hslash : c = '/'
    · exact .inr (.inl (if_pos hslash))
    · rw [if_neg hslash]
      refine .inr (.inr ?_)
      cases htoken : Token.ofChar? c with
      | some t =>
        refine .inl ⟨t, ?_, rfl⟩
        rintro l rfl
        exact Token.ofChar?_ne_literal htoken
      | none =>
        refine .inr ?_
        by_cases hblank : isBlank c = true
        · exact .inl (if_pos hblank)
        · refine .inr ⟨?_, if_neg hblank⟩
          rw [inWord, isSpecial, htoken]
          simp [hquote, hslash, hblank]

theorem inWord_of_fresh (h : (fresh isBlank c).1 = word raw) : inWord isBlank c = true := by
  rcases fresh_cases isBlank c with hc | hc | ⟨t, _, hc⟩ | hc | ⟨hword, _⟩
  case inr.inr.inr.inr => exact hword
  all_goals
    rw [hc] at h
    cases h

theorem inWord_of_step (h : m.step isBlank c = some (word raw, ts)) : inWord isBlank c = true := by
  cases m
  case between => exact inWord_of_fresh (congrArg Prod.fst (Option.some.inj h))
  case word raw' =>
    rw [step] at h
    split_ifs at h with hword
    · exact hword
    · exact inWord_of_fresh (congrArg Prod.fst (Option.some.inj h))
  all_goals
    rw [step] at h
    try split_ifs at h
    all_goals cases h

/-- In a word is what goes on with one. -/
theorem last_of_scan (h : m.scan isBlank text = some (word raw, ts)) :
    (text = [] ∧ m = word raw) ∨ ∃ c ∈ text.getLast?, inWord isBlank c = true := by
  induction text generalizing m ts with
  | nil =>
    rw [scan, Option.some.injEq, Prod.mk.injEq] at h
    exact .inl ⟨rfl, h.1⟩
  | cons c text ih =>
    rw [scan_cons] at h
    obtain ⟨⟨m', ts'⟩, hstep, h⟩ := Option.bind_eq_some_iff.1 h
    obtain ⟨⟨m'', ts''⟩, hscan, heq⟩ := Option.map_eq_some_iff.1 h
    obtain ⟨rfl, _⟩ := Prod.mk.inj heq
    refine .inr ?_
    -- The last character has begun the word, or the rest ends in it.
    rcases ih hscan with ⟨rfl, hm⟩ | ⟨d, hd, hword⟩
    · obtain rfl : m' = word raw := hm
      exact ⟨c, rfl, inWord_of_step hstep⟩
    · exact ⟨d, by rw [List.getLast?_cons, hd]; rfl, hword⟩

end Mode
namespace Mode

/-- The text of the literal that goes on is scanned as one that goes on. -/
def Sound (isBlank : Char → Bool) : Mode → Prop
  | m@(word raw) | m@(string _ raw) | m@(escape _ raw) =>
    between.scan isBlank raw = some (m, [])
  | between | slash | line | block | star => True

theorem literal?_of_scan (h : between.scan isBlank raw = some (between, [.literal l])) :
    literal? isBlank raw = some l := by
  rw [literal?, h]

theorem literal?_of_word (h : between.scan isBlank raw = some (word l, [])) :
    literal? isBlank raw = some l := by
  rw [literal?, h]

theorem scan_singleton (h : m.step isBlank c = some (m', ts)) :
    m.scan isBlank [c] = some (m', ts) := by
  rw [scan_cons, h, Option.bind_some, scan, Option.map_some, List.append_nil]

theorem sound_fresh : (fresh isBlank c).1.Sound isBlank ∧ ∀ l, .literal l ∉ (fresh isBlank c).2 := by
  have hscan : between.scan isBlank [c] = some (fresh isBlank c) := scan_singleton rfl
  rcases fresh_cases isBlank c with hc | hc | ⟨t, ht, hc⟩ | hc | ⟨_, hc⟩
  all_goals rw [hc] at hscan ⊢
  case inr.inr.inl => exact ⟨trivial, fun l hl => ht l (List.mem_singleton.1 hl).symm⟩
  case inl => exact ⟨hscan, fun _ => List.not_mem_nil⟩
  case inr.inl => exact ⟨trivial, fun _ => List.not_mem_nil⟩
  case inr.inr.inr.inl => exact ⟨trivial, fun _ => List.not_mem_nil⟩
  case inr.inr.inr.inr => exact ⟨hscan, fun _ => List.not_mem_nil⟩

/-- A step keeps it, and a literal that ends is scanned as itself. -/
theorem Sound.step (h : m.Sound isBlank) (hstep : m.step isBlank c = some (m', ts)) :
    m'.Sound isBlank ∧ ∀ l, .literal l ∈ ts → literal? isBlank l = some l := by
  have hnone (l : List Char) (hl : Token.literal l ∈ ([] : List Token)) : literal? isBlank l = some l :=
    absurd hl List.not_mem_nil
  cases m
  case between =>
    rw [Mode.step, Option.some.injEq] at hstep
    obtain ⟨hsound, hfresh⟩ := @sound_fresh isBlank c
    rw [hstep] at hsound hfresh
    exact ⟨hsound, fun l hl => absurd hl (hfresh l)⟩
  case word raw =>
    have hscan : between.scan isBlank raw = some (word raw, []) := h
    have hgoes : between.scan isBlank (raw ++ [c]) = (word raw).scan isBlank [c] := scan_through hscan
    rw [scan_singleton hstep] at hgoes
    rw [Mode.step] at hstep
    split_ifs at hstep
    · obtain ⟨rfl, rfl⟩ := Prod.mk.inj (Option.some.inj hstep)
      exact ⟨hgoes, hnone⟩
    · obtain ⟨rfl, rfl⟩ := Prod.mk.inj (Option.some.inj hstep)
      obtain ⟨hsound, hfresh⟩ := @sound_fresh isBlank c
      refine ⟨hsound, fun l hl => ?_⟩
      rcases List.mem_cons.1 hl with hl | hl
      · -- The word that ends was scanned from its own first character on.
        exact Token.literal.inj hl ▸ literal?_of_word hscan
      · exact absurd hl (hfresh l)
  case string quote raw =>
    have hscan : between.scan isBlank raw = some (string quote raw, []) := h
    have hgoes : between.scan isBlank (raw ++ [c]) = (string quote raw).scan isBlank [c] :=
      scan_through hscan
    rw [scan_singleton hstep] at hgoes
    rw [Mode.step] at hstep
    split_ifs at hstep <;> obtain ⟨rfl, rfl⟩ := Prod.mk.inj (Option.some.inj hstep)
    · -- The quote that ends the string belongs to it.
      refine ⟨trivial, fun l hl => ?_⟩
      rw [Token.literal.inj (List.mem_singleton.1 hl)]
      exact literal?_of_scan hgoes
    · exact ⟨hgoes, hnone⟩
    · exact ⟨hgoes, hnone⟩
  case escape quote raw =>
    have hscan : between.scan isBlank raw = some (escape quote raw, []) := h
    have hgoes : between.scan isBlank (raw ++ [c]) = (escape quote raw).scan isBlank [c] :=
      scan_through hscan
    rw [scan_singleton hstep] at hgoes
    obtain ⟨rfl, rfl⟩ := Prod.mk.inj (Option.some.inj hstep)
    exact ⟨hgoes, hnone⟩
  all_goals
    rw [Mode.step] at hstep
    split_ifs at hstep
    all_goals
      obtain ⟨rfl, rfl⟩ := Prod.mk.inj (Option.some.inj hstep)
      exact ⟨trivial, hnone⟩

/-- In a text, a literal that ends is scanned as itself. -/
theorem Sound.scan (h : m.Sound isBlank) (hscan : m.scan isBlank text = some (m', ts)) :
    m'.Sound isBlank ∧ ∀ l, .literal l ∈ ts → literal? isBlank l = some l := by
  induction text generalizing m ts with
  | nil =>
    obtain ⟨rfl, rfl⟩ := Prod.mk.inj (Option.some.inj hscan)
    exact ⟨h, fun l hl => absurd hl List.not_mem_nil⟩
  | cons c text ih =>
    rw [scan_cons] at hscan
    obtain ⟨⟨m₁, ts₁⟩, hstep, hscan⟩ := Option.bind_eq_some_iff.1 hscan
    obtain ⟨⟨m₂, ts₂⟩, hrest, heq⟩ := Option.map_eq_some_iff.1 hscan
    obtain ⟨rfl, rfl⟩ := Prod.mk.inj heq
    obtain ⟨hsound, hts₁⟩ := h.step hstep
    obtain ⟨hsound', hts₂⟩ := ih hsound hrest
    exact ⟨hsound', fun l hl => (List.mem_append.1 hl).elim (hts₁ l) (hts₂ l)⟩

end Mode

/-- The literal of a text is that of its own text. -/
theorem literal?_literal (h : literal? isBlank raw = some l) : literal? isBlank l = some l := by
  rw [literal?] at h
  split at h
  · rename_i l' hscan
    obtain rfl := Option.some.inj h
    exact (Mode.Sound.scan (m := .between) trivial hscan).2 l' List.mem_cons_self
  · rename_i l' hscan
    obtain rfl := Option.some.inj h
    exact Mode.literal?_of_word (Mode.Sound.scan (m := .between) trivial hscan).1
  · cases h

/-! ### White space and comments -/

namespace Mode

theorem fresh_of_special (h : isSpecial c = false) (hblank : isBlank c = true) :
    fresh isBlank c = (between, []) := by
  simp only [isSpecial, Bool.or_eq_false_iff, beq_eq_false_iff_ne, Option.isSome_eq_false_iff,
    Option.isNone_iff_eq_none] at h
  obtain ⟨⟨hquote, hslash⟩, htoken⟩ := h
  rw [fresh, if_neg (by rw [hquote]; exact Bool.false_ne_true), if_neg hslash, htoken]
  exact if_pos hblank

theorem scan_line (h : '\n' ∉ text) : line.scan isBlank text = some (line, []) := by
  induction text with
  | nil => rfl
  | cons c text ih =>
    have hne : c ≠ '\n' := by
      rintro rfl
      exact h List.mem_cons_self
    have hstep : line.step isBlank c = some (line, []) := if_neg hne
    rw [scan_step hstep, ih fun hmem => h (List.mem_cons_of_mem _ hmem)]

/-- Where a block comment does not end before its last characters, it ends with these. -/
theorem scan_block (h : Text.Avoids '*' '/' text) :
    block.scan isBlank (text ++ '*' :: '/' :: text') = between.scan isBlank text' ∧
      (text.head? ≠ some '/' →
        star.scan isBlank (text ++ '*' :: '/' :: text') = between.scan isBlank text') := by
  induction text with
  | nil => exact ⟨by rw [List.nil_append, scan_step rfl, scan_step rfl],
      fun _ => by rw [List.nil_append, scan_step rfl, scan_step rfl]⟩
  | cons c text ih =>
    obtain ⟨hhead, htail⟩ := List.isChain_cons.1 h
    obtain ⟨hblock, hstar⟩ := ih htail
    -- A second star may be the one before the slash, so that both claims carry the induction.
    by_cases hc : c = '*'
    · subst hc
      have hnext : text.head? ≠ some '/' := fun hslash => hhead '/' hslash ⟨rfl, rfl⟩
      rw [List.cons_append, scan_step rfl, scan_step rfl]
      exact ⟨hstar hnext, fun _ => hstar hnext⟩
    · have hinblock : block.step isBlank c = some (block, []) := if_neg hc
      rw [List.cons_append, scan_step hinblock]
      refine ⟨hblock, fun hslash => ?_⟩
      have hinstar : star.step isBlank c = some (block, []) := by
        rw [step, if_neg fun hc => hslash (congrArg some hc), if_neg hc]
      rw [scan_step hinstar, hblock]

theorem scan_gap (h : Gap isBlank text) : between.scan isBlank text = some (between, []) := by
  induction h with
  | nil => rfl
  | @blank c g hc hspecial _ ih =>
    have hstep : between.step isBlank c = some (between, []) :=
      congrArg some (fresh_of_special hspecial hc)
    rw [scan_step hstep, ih]
  | line htext _ ih =>
    rw [scan_step rfl, scan_step rfl, scan_through (scan_line htext), scan_step rfl, ih]
  | block htext _ ih => rw [scan_step rfl, scan_step rfl, (scan_block htext).1, ih]

end Mode

/-! ### The tokens of what is displayed -/

/-- The token that is left of a leaf without its comments. -/
def Token.cut (isBlank : Char → Bool) : Token → Token
  | .literal raw => .literal ((literal? isBlank raw).getD raw)
  | t => t

namespace Mode

theorem scan_text {t : Token} (h : ∀ raw, t ≠ .literal raw) :
    between.scan isBlank t.text = some (between, [t]) := by
  cases t
  case literal raw => exact absurd rfl (h raw)
  all_goals rfl

/-- A leaf is scanned as its token, unless a word goes on after it. -/
theorem lex_leaf {t : Token} (hapart : Apart isBlank t.text text)
    (hliteral : ∀ raw, t = .literal raw → (literal? isBlank raw).isSome = true) :
    between.lex isBlank (t.text ++ text) = (between.lex isBlank text).map (t.cut isBlank :: ·) := by
  cases t
  case literal raw =>
    obtain ⟨l, hl⟩ := Option.isSome_iff_exists.1 (hliteral raw rfl)
    rw [Token.cut, hl, Option.getD_some]
    -- The leaf ends after its literal, or within a word, which `hapart` ends then.
    rw [literal?] at hl
    split at hl
    · rename_i l' hscan
      obtain rfl := Option.some.inj hl
      exact lex_append hscan
    · rename_i l' hscan
      obtain rfl := Option.some.inj hl
      rw [Token.text, lex_through hscan]
      refine lex_word fun d hd => ?_
      rcases last_of_scan hscan with ⟨_, hmode⟩ | ⟨c, hc, hword⟩
      · cases hmode
      · exact hapart c hc d hd hword
    · cases hl
  all_goals
    refine lex_append (scan_text ?_)
    nofun

/-- What is laid out is scanned as it is. -/
theorem lex_lays (h : Lays isBlank ts text)
    (hliteral : ∀ raw, .literal raw ∈ ts → (literal? isBlank raw).isSome = true) :
    between.lex isBlank text = some (ts.map (Token.cut isBlank)) := by
  induction h with
  | nil hg => rw [lex, scan_gap hg]; rfl
  | line hg htext =>
    rw [lex_through (scan_gap hg), lex, scan_step rfl, scan_step rfl, scan_line htext]
    rfl
  | @cons g text t ts hg hapart hts ih =>
    rw [lex_through (scan_gap hg), lex_leaf hapart, ih, Option.map_some, List.map_cons]
    · exact fun raw hraw => hliteral raw (List.mem_cons_of_mem _ hraw)
    · rintro raw rfl
      exact hliteral raw List.mem_cons_self

end Mode

end Scanner

/-! ## The parser -/

section Parser

variable {D : Dialect} {part : Part} {ts : List Token}

/-- The parts have values. -/
def Part.Valued (D : Dialect) : Part → Prop
  | .node n => (n.value D).isSome = true
  | .elements es => (CstNode.values D es).isSome = true
  | .properties ps => (CstNode.entries D ps).isSome = true

namespace CstNode

variable {e : CstNode} {es : List CstNode} {key : List Char} {ps : List (List Char × CstNode)}
  {j : Json}
  {js : List Json} {qs : List (String × Json)}

theorem values_cons : values D (e :: es) = some js ↔
    ∃ j js', e.value D = some j ∧ values D es = some js' ∧ j :: js' = js := by
  rw [values]
  simp [Option.bind_eq_some_iff]

theorem entries_cons : entries D ((key, e) :: ps) = some qs ↔
    ∃ k j qs', nameOf D key = some k ∧ e.value D = some j ∧ entries D ps = some qs' ∧
      (k, j) :: qs' = qs := by
  rw [entries]
  simp [Option.bind_eq_some_iff]

end CstNode

theorem comma_of_mem {comma : Bool} {t : Token} (h : t ∈ if comma then [Token.comma] else []) :
    t = .comma := by
  split at h
  · exact List.mem_singleton.1 h
  · cases h

/-- A part that has values has a literal in each leaf. -/
theorem literal_of_leaves (h : Leaves part ts) (hvalued : part.Valued D) :
    ∀ raw, .literal raw ∈ ts → (literal? D.isBlank raw).isSome = true := by
  induction h with
  | literal raw =>
    intro raw' hraw
    obtain rfl := Token.literal.inj (List.mem_singleton.1 hraw)
    obtain ⟨j, hj⟩ := Option.isSome_iff_exists.1 hvalued
    rw [CstNode.value] at hj
    obtain ⟨l, hl, _⟩ := Option.bind_eq_some_iff.1 hj
    rw [hl, Option.isSome_some]
  | array _ ih | object _ ih =>
    intro raw hraw
    simp only [List.mem_cons, List.mem_append, List.not_mem_nil, or_false, reduceCtorEq,
      false_or] at hraw
    rw [Part.Valued, CstNode.value, Option.isSome_map] at hvalued
    exact ih hvalued raw hraw
  | noElement | noProperty => exact fun raw hraw => absurd hraw List.not_mem_nil
  | element comma _ _ ih ih' =>
    obtain ⟨js, hjs⟩ := Option.isSome_iff_exists.1 hvalued
    obtain ⟨j, js', hj, hjs', _⟩ := CstNode.values_cons.1 hjs
    intro raw hraw
    rcases List.mem_append.1 hraw with hraw | hraw
    · exact ih (Option.isSome_iff_exists.2 ⟨j, hj⟩) raw hraw
    · rcases List.mem_append.1 hraw with hraw | hraw
      · cases comma_of_mem hraw
      · exact ih' (Option.isSome_iff_exists.2 ⟨js', hjs'⟩) raw hraw
  | property comma _ _ ih ih' =>
    obtain ⟨qs, hqs⟩ := Option.isSome_iff_exists.1 hvalued
    obtain ⟨k, j, qs', hk, hj, hqs', _⟩ := CstNode.entries_cons.1 hqs
    intro raw hraw
    rcases List.mem_cons.1 hraw with hraw | hraw
    · obtain ⟨l, hl, _⟩ := Option.bind_eq_some_iff.1 hk
      rw [Token.literal.inj hraw, hl, Option.isSome_some]
    · have hne : Token.literal raw ≠ .colon := nofun
      rcases List.mem_append.1 (List.mem_of_ne_of_mem hne hraw) with hraw | hraw
      · exact ih (Option.isSome_iff_exists.2 ⟨j, hj⟩) raw hraw
      · rcases List.mem_append.1 hraw with hraw | hraw
        · cases comma_of_mem hraw
        · exact ih' (Option.isSome_iff_exists.2 ⟨qs', hqs'⟩) raw hraw

/-- The tokens are read as a part with the same values. -/
def Part.Runs (D : Dialect) (ts : List Token) : Part → Prop
  | .node n => ∀ j, n.value D = some j → ∃ n', n'.value D = some j ∧ ∀ stack, ∃ t ts' s,
      ts = t :: ts' ∧ State.start stack t = some s ∧
        s.run ts' = some (.complete n' stack)
  | .elements es => ∀ js, CstNode.values D es = some js → ∃ es', CstNode.values D es' = some js ∧
      ∀ acc comma stack, ∃ comma', State.run (.elements acc comma stack) ts =
        some (.elements (acc ++ es') comma' stack)
  | .properties ps => ∀ qs, CstNode.entries D ps = some qs → ∃ ps', CstNode.entries D ps' = some qs ∧
      ∀ acc comma stack, ∃ comma', State.run (.properties acc comma stack) ts =
        some (.properties (acc ++ ps') comma' stack)

namespace State

variable {s s' : State} {t : Token} {ts' : List Token} {stack : List Frame} {comma : Bool}

theorem run_cons (h : s.step t = some s') : s.run (t :: ts) = s'.run ts := by
  rw [run, List.foldlM_cons, h]
  rfl

theorem run_append (h : s.run ts = some s') : s.run (ts ++ ts') = s'.run ts' := by
  rw [run] at h
  rw [run, List.foldlM_append, h]
  rfl

theorem step_elements {es : List CstNode} (h : start (.array es :: stack) t = some s) :
    step (elements es comma stack) t = some s := by
  cases t
  case comma | closeArray => cases h
  all_goals exact h

/-- After an element, a comma may come. -/
theorem run_elements_comma {isBlank : Char → Bool} {es : List CstNode} :
    run (elements es true stack) ((if comma then [Token.comma] else []).map (Token.cut isBlank) ++ ts) =
      run (elements es (!comma) stack) ts := by
  cases comma
  · rfl
  · exact run_cons rfl

theorem run_properties_comma {isBlank : Char → Bool} {ps : List (List Char × CstNode)} :
    run (properties ps true stack)
        ((if comma then [Token.comma] else []).map (Token.cut isBlank) ++ ts) =
      run (properties ps (!comma) stack) ts := by
  cases comma
  · rfl
  · exact run_cons rfl

end State

/-- The leaves of a part are read as a part with the same values. -/
theorem runs_of_leaves (h : Leaves part ts) : part.Runs D (ts.map (Token.cut D.isBlank)) := by
  induction h with
  | literal raw =>
    intro j hj
    rw [CstNode.value] at hj
    obtain ⟨l, hl, hread⟩ := Option.bind_eq_some_iff.1 hj
    refine ⟨.literal l, ?_, fun stack => ⟨.literal l, [], _, ?_, rfl, rfl⟩⟩
    · rw [CstNode.value, literal?_literal hl, Option.bind_some, hread]
    · rw [List.map_singleton, Token.cut, hl, Option.getD_some]
  | array _ ih =>
    intro j hj
    rw [CstNode.value] at hj
    obtain ⟨js, hjs, rfl⟩ := Option.map_eq_some_iff.1 hj
    obtain ⟨es', hes', hrun⟩ := ih js hjs
    refine ⟨.array es', by rw [CstNode.value, hes', Option.map_some], fun stack => ?_⟩
    obtain ⟨comma, hcomma⟩ := hrun [] false stack
    refine ⟨.openArray, _, _, List.map_cons, rfl, ?_⟩
    rw [List.map_append, State.run_append hcomma]
    rfl
  | object _ ih =>
    intro j hj
    rw [CstNode.value] at hj
    obtain ⟨qs, hqs, rfl⟩ := Option.map_eq_some_iff.1 hj
    obtain ⟨ps', hps', hrun⟩ := ih qs hqs
    refine ⟨.object ps', by rw [CstNode.value, hps', Option.map_some], fun stack => ?_⟩
    obtain ⟨comma, hcomma⟩ := hrun [] false stack
    refine ⟨.openObject, _, _, List.map_cons, rfl, ?_⟩
    rw [List.map_append, State.run_append hcomma]
    rfl
  | noElement =>
    exact fun js hjs => ⟨[], hjs, fun acc comma stack => ⟨comma, by rw [List.append_nil]; rfl⟩⟩
  | noProperty =>
    exact fun qs hqs => ⟨[], hqs, fun acc comma stack => ⟨comma, by rw [List.append_nil]; rfl⟩⟩
  | element comma _ _ ih ih' =>
    intro js hjs
    obtain ⟨j, js', hj, hjs', rfl⟩ := CstNode.values_cons.1 hjs
    obtain ⟨e', he', hfirst⟩ := ih j hj
    obtain ⟨es', hes', hrest⟩ := ih' js' hjs'
    refine ⟨e' :: es', CstNode.values_cons.2 ⟨j, js', he', hes', rfl⟩, fun acc b stack => ?_⟩
    -- The element is read in the array, and then the others, whether or not a comma came.
    obtain ⟨t, ts', s, hts, hstart, hrun⟩ := hfirst (.array acc :: stack)
    obtain ⟨b', hb'⟩ := hrest (acc ++ [e']) (!comma) stack
    refine ⟨b', ?_⟩
    rw [List.map_append, hts, List.cons_append, State.run_cons (State.step_elements hstart),
      State.run_append hrun, State.complete, List.map_append, State.run_elements_comma, hb',
      List.append_assoc, List.singleton_append]
  | @property key v ps ts ts' comma _ _ ih ih' =>
    intro qs hqs
    obtain ⟨k, j, qs', hk, hj, hqs', rfl⟩ := CstNode.entries_cons.1 hqs
    obtain ⟨v', hv', hfirst⟩ := ih j hj
    obtain ⟨ps', hps', hrest⟩ := ih' qs' hqs'
    obtain ⟨l, hl, hname⟩ := Option.bind_eq_some_iff.1 hk
    have hkey : nameOf D l = some k := by rw [nameOf, literal?_literal hl, Option.bind_some, hname]
    refine ⟨(l, v') :: ps', CstNode.entries_cons.2 ⟨k, j, qs', hkey, hv', hps', rfl⟩,
      fun acc b stack => ?_⟩
    -- The comments of the name are gone with the tokens; it still stands for the same.
    obtain ⟨t, ts₁, s, hts, hstart, hrun⟩ := hfirst (.object acc l :: stack)
    obtain ⟨b', hb'⟩ := hrest (acc ++ [(l, v')]) (!comma) stack
    refine ⟨b', ?_⟩
    have hcut : (Token.literal key).cut D.isBlank = .literal l := by
      rw [Token.cut, hl, Option.getD_some]
    have hcolon' : Token.colon.cut D.isBlank = .colon := rfl
    have hcolon : (State.colon acc l stack).step .colon = some (.value (.object acc l :: stack)) := rfl
    have hvalue : (State.value (.object acc l :: stack)).step t = some s := hstart
    rw [List.map_cons, hcut, State.run_cons rfl, List.map_cons, hcolon', State.run_cons hcolon,
      List.map_append, hts, List.cons_append, State.run_cons hvalue, State.run_append hrun,
      State.complete, List.map_append, State.run_properties_comma, hb', List.append_assoc,
      List.singleton_append]

/-- What is displayed of a tree that has a value is read as this value. -/
theorem read_of_displays {n : CstNode} {text : List Char} {j : Json} (h : Displays D.isBlank n text)
    (hvalue : n.value D = some j) : read D text = some (some j) := by
  obtain ⟨ts, hleaves, hlays⟩ := h
  have hvalued : (Part.node n).Valued D := Option.isSome_iff_exists.2 ⟨j, hvalue⟩
  have htokens : tokens D.isBlank text = some (ts.map (Token.cut D.isBlank)) :=
    Mode.lex_lays hlays (literal_of_leaves hleaves hvalued)
  obtain ⟨n', hvalue', hruns⟩ := runs_of_leaves hleaves j hvalue
  obtain ⟨t, ts', s, hts, hstart, hrun⟩ := hruns []
  have hfirst : (State.value []).step t = some s := hstart
  rw [read, parse, htokens, hts, Option.bind_some, State.run_cons hfirst, hrun, Option.bind_some,
    State.complete, State.result, Option.bind_some]
  exact congrArg (Option.map some) hvalue'

end Parser
/-! ## Strings and comments that are written -/

section Writing

variable {isBlank : Char → Bool} {c : Char} {text g raw : List Char}

namespace Mode

theorem step_string (hquote : c ≠ '"') (hbackslash : c ≠ '\\') :
    (string '"' raw).step isBlank c = some (string '"' (raw ++ [c]), []) := by
  rw [step, if_neg hquote, if_neg hbackslash]

theorem scan_escape (c : Char) : (string '"' raw).scan isBlank ('\\' :: c :: text) =
    (string '"' (raw ++ ['\\', c])).scan isBlank text := by
  rw [scan_step rfl, scan_step rfl, List.append_assoc]
  rfl

/-- What is written for a character does not end the string. -/
theorem scan_escapeChar (c : Char) (raw : List Char) :
    (string '"' raw).scan isBlank (Json.escapeChar c) =
      some (string '"' (raw ++ Json.escapeChar c), []) := by
  have hdigit : ∀ n < 16, Json.hexDigit n ≠ '"' ∧ Json.hexDigit n ≠ '\\' := by decide
  rw [Json.escapeChar]
  split_ifs with hquote hbackslash hb hf hn hr ht hcontrol
  case neg => exact scan_singleton (step_string hquote hbackslash)
  on_goal 8 =>
    obtain ⟨hquote₁, hbackslash₁⟩ := hdigit (c.toNat / 16) (by omega)
    obtain ⟨hquote₂, hbackslash₂⟩ := hdigit (c.toNat % 16) (by omega)
    rw [scan_escape, scan_step (step_string (by decide) (by decide)),
      scan_step (step_string (by decide) (by decide)), scan_step (step_string hquote₁ hbackslash₁),
      scan_step (step_string hquote₂ hbackslash₂), scan]
    simp only [List.append_assoc, List.cons_append, List.nil_append]
  all_goals
    rw [scan_escape]
    rfl

theorem scan_escaped (text raw : List Char) : (string '"' raw).scan isBlank (Json.escape text) =
    some (string '"' (raw ++ Json.escape text), []) := by
  induction text generalizing raw with
  | nil => rw [Json.escape, List.flatMap_nil, List.append_nil, scan]
  | cons c text ih =>
    rw [Json.escape, List.flatMap_cons, ← Json.escape, scan_through (scan_escapeChar c raw), ih,
      List.append_assoc]

/-- A string that is written is a literal. -/
theorem scan_serialize (s : String) : between.scan isBlank (Json.serialize s) =
    some (between, [.literal (Json.serialize s)]) := by
  have hopen : between.step isBlank '"' = some (string '"' ['"'], []) := rfl
  rw [Json.serialize, scan_step hopen, scan_through (scan_escaped _ _)]
  exact scan_singleton rfl

end Mode

/-- A literal may have comments after it. -/
theorem literal?_append (h : Mode.between.scan isBlank raw = some (.between, [.literal raw]))
    (hg : Gap isBlank g) : literal? isBlank (raw ++ g) = some raw := by
  refine Mode.literal?_of_scan ?_
  rw [Mode.scan_append, h, Option.bind_some, Mode.scan_gap hg, Option.map_some, List.append_nil]

end Writing

end Jsonc
