import Mathlib.Data.List.Basic

/-!
# The tokens of a shell program

How `/bin/sh` splits a program into words and operators: the token recognition
of POSIX, with quotes, comments and continued lines, but without here-documents
and expansions.

* `lex_word`: a word of plain characters is a token of its own;
* `plain_of_mem_lex`: a word in which nothing is quoted has plain characters
  only, so that it stands for itself.
-/

namespace Shell

/-! ## Characters -/

def isBlank (c : Char) : Bool := c == ' ' || c == '\t'

/-- Operators begin with these. -/
def isOperator (c : Char) : Bool := "&|;<>()".toList.contains c

/-- They take the meaning of what comes next. -/
def isQuote (c : Char) : Bool := c == '\\' || c == '\'' || c == '"'

/-- An expansion begins. -/
def isExpansion (c : Char) : Bool := c == '$' || c.toNat == 96

/-- In a word, they stand for themselves. -/
def isPlain (c : Char) : Bool :=
  !(isBlank c || c == '\n' || isOperator c || isQuote c || isExpansion c || c == '\x00')

theorem isPlain_iff {c : Char} : isPlain c = true ↔ isBlank c = false ∧ c ≠ '\n' ∧
    isOperator c = false ∧ c ≠ '\\' ∧ c ≠ '\'' ∧ c ≠ '"' ∧ isExpansion c = false ∧ c ≠ '\x00' := by
  simp [isPlain, isQuote, and_assoc]

/-! ## Tokens -/

inductive Token
  /-- With the quotes that are in it. -/
  | word (text : List Char)
  | operator (text : List Char)
  | newline
  deriving DecidableEq

/-- A character may go on with an operator. -/
def operators : List (List Char) :=
  ["&&", "||", ";;", "<<", "<<-", ">>", "<&", ">&", "<>", ">|"].map String.toList

/-- What has been read: where in a token, with its text. -/
inductive Mode
  | between
  | comment
  | operator (text : List Char)
  | word (text : List Char)
  /-- After a backslash, which is not part of the text yet. -/
  | escape (text : List Char)
  | single (text : List Char)
  | double (text : List Char)
  | doubleEscape (text : List Char)

namespace Mode

/-- The text of the word that goes on, or begins. -/
def text : Mode → List Char
  | word t | escape t | single t | double t | doubleEscape t => t
  | between | comment | operator _ => []

/-- The text of the operator that goes on. -/
def operatorText : Mode → List Char
  | operator t => t
  | _ => []

def inWord : Mode → Bool
  | word _ => true
  | _ => false

/-- The token that ends. -/
def flush : Mode → List Token
  | word t => [.word t]
  | operator t => [.operator t]
  | _ => []

/-- The token that ends as a word goes on, or begins. -/
def flushOperator : Mode → List Token
  | operator t => [.operator t]
  | _ => []

/-- One more character, outside of quotes: the tokens that end. -/
def unquoted (m : Mode) (c : Char) : Option (List Token × Mode) :=
  if isExpansion c then none
  else if c = '\n' then some (m.flush ++ [.newline], between)
  else if isBlank c then some (m.flush, between)
  else if isOperator c then
    if m.operatorText ++ [c] ∈ operators then some ([], operator (m.operatorText ++ [c]))
    else some (m.flush, operator [c])
  else if c = '\\' then some (m.flushOperator, escape m.text)
  else if c = '\'' then some (m.flushOperator, single (m.text ++ [c]))
  else if c = '"' then some (m.flushOperator, double (m.text ++ [c]))
  else if c = '#' ∧ m.inWord = false then some (m.flush, comment)
  else some (m.flushOperator, word (m.text ++ [c]))

/-- One more character. No argument of a program has a NUL. -/
def step (m : Mode) (c : Char) : Option (List Token × Mode) :=
  if c = '\x00' then none
  else
    match m with
    | comment => if c = '\n' then some ([.newline], between) else some ([], comment)
    | escape t =>
      -- else a line that is continued
      if c ≠ '\n' then some ([], word (t ++ ['\\', c]))
      else if t = [] then some ([], between)
      else some ([], word t)
    | single t => if c = '\'' then some ([], word (t ++ [c])) else some ([], single (t ++ [c]))
    | double t =>
      if isExpansion c then none
      else if c = '"' then some ([], word (t ++ [c]))
      else if c = '\\' then some ([], doubleEscape (t ++ [c]))
      else some ([], double (t ++ [c]))
    | doubleEscape t => some ([], double (t ++ [c]))
    | between => between.unquoted c
    | operator t => (operator t).unquoted c
    | word t => (word t).unquoted c

/-- The tokens of what is left; none where something is expanded, or a quote does not end. -/
def lex (m : Mode) : List Char → Option (List Token)
  | [] =>
    match m with
    | escape t => some [.word (t ++ ['\\'])]
    | single _ | double _ | doubleEscape _ => none
    | m => some m.flush
  | c :: cs =>
    match m.step c with
    | none => none
    | some (ts, m') => (m'.lex cs).map (ts ++ ·)

end Mode

def tokens (program : String) : Option (List Token) := Mode.between.lex program.toList

/-- The text that a word stands for, if nothing in it is quoted. -/
def Token.literal? : Token → Option String
  | word t => if t.any isQuote then none else some (String.ofList t)
  | _ => none

namespace Mode

variable {m m' : Mode} {c : Char} {ts : List Token} {t cs rest : List Char}

theorem lex_cons (h : m.step c = some (ts, m')) : m.lex (c :: cs) = (m'.lex cs).map (ts ++ ·) := by
  rw [lex, h]

theorem lex_cons_silent (h : m.step c = some ([], m')) : m.lex (c :: cs) = m'.lex cs := by
  rw [lex_cons h]
  exact Option.map_id'

/-- In a word, a plain character is part of it. -/
theorem step_word (hc : isPlain c = true) : (word t).step c = some ([], word (t ++ [c])) := by
  obtain ⟨hblank, hnewline, hoperator, hbackslash, hsingle, hdouble, hexpansion, hnul⟩ :=
    isPlain_iff.1 hc
  simp [step, unquoted, flushOperator, text, inWord, *]

/-- Between words, a plain character begins one, unless it begins a comment. -/
theorem step_between (hc : isPlain c = true) (hcomment : c ≠ '#') :
    between.step c = some ([], word [c]) := by
  obtain ⟨hblank, hnewline, hoperator, hbackslash, hsingle, hdouble, hexpansion, hnul⟩ :=
    isPlain_iff.1 hc
  simp [step, unquoted, flushOperator, text, *]

/-- In a word, plain characters add to it. -/
theorem lex_word_append (hcs : ∀ c ∈ cs, isPlain c = true) :
    (word t).lex (cs ++ rest) = (word (t ++ cs)).lex rest := by
  induction cs generalizing t with
  | nil => rw [List.nil_append, List.append_nil]
  | cons c cs ih =>
    rw [List.cons_append, lex_cons_silent (step_word (hcs c List.mem_cons_self)),
      ih fun d hd => hcs d (List.mem_cons_of_mem _ hd), List.append_assoc, List.singleton_append]

/-- A word of plain characters, up to where it ends. -/
theorem lex_word {w : List Char} (hne : w ≠ []) (hw : ∀ c ∈ w, isPlain c = true)
    (hcomment : w.head? ≠ some '#') : between.lex (w ++ rest) = (word w).lex rest := by
  match w, hne with
  | c :: cs, _ =>
    have hfirst : c ≠ '#' := fun h => hcomment (congrArg some h)
    rw [List.cons_append, lex_cons_silent (step_between (hw c List.mem_cons_self) hfirst),
      lex_word_append fun d hd => hw d (List.mem_cons_of_mem _ hd), List.singleton_append]

/-- If nothing in the text is quoted, it is plain. -/
def Sound (t : List Char) : Prop := t.any isQuote = true ∨ ∀ c ∈ t, isPlain c = true

/-- The word that goes on is sound, and has the quotes that it is in. -/
def Keeps : Mode → Prop
  | word t | escape t => Sound t
  | single t | double t | doubleEscape t => t.any isQuote = true
  | between | comment | operator _ => True

theorem sound_nil : Sound [] := .inr (List.forall_mem_nil _)

theorem any_quote (hc : isQuote c = true) : (t ++ c :: cs).any isQuote = true := by
  rw [List.any_append, List.any_cons, hc, Bool.true_or, Bool.or_true]

theorem any_append (ht : t.any isQuote = true) : (t ++ cs).any isQuote = true := by
  rw [List.any_append, ht, Bool.true_or]

theorem Sound.append_plain (ht : Sound t) (hc : isPlain c = true) : Sound (t ++ [c]) := by
  rcases ht with ht | ht
  · exact .inl (any_append ht)
  · exact .inr (List.forall_mem_append.2 ⟨ht, List.forall_mem_singleton.2 hc⟩)

theorem Keeps.sound (h : m.Keeps) : Sound m.text := by
  cases m
  case word | escape => exact h
  case single | double | doubleEscape => exact .inl h
  case between | comment | operator => exact sound_nil

theorem Keeps.flush (h : m.Keeps) : ∀ t, .word t ∈ m.flush → Sound t := by
  intro t ht
  cases m
  case word t' =>
    obtain rfl := Token.word.inj (List.mem_singleton.1 ht)
    exact h
  case operator t' => exact absurd (List.mem_singleton.1 ht) nofun
  all_goals cases ht

theorem notMem_flushOperator : .word t ∉ m.flushOperator := by
  cases m <;> simp [flushOperator]

/-- Outside of quotes, a step keeps it, for the words that end, too. -/
theorem Keeps.unquoted (h : m.Keeps) (hnul : c ≠ '\x00') (hstep : m.unquoted c = some (ts, m')) :
    m'.Keeps ∧ ∀ t, .word t ∈ ts → Sound t := by
  have hoperators : ∀ t, .word t ∈ m.flushOperator → Sound t :=
    fun t ht => absurd ht notMem_flushOperator
  rw [Mode.unquoted] at hstep
  split_ifs at hstep with hexpansion hnewline hblank hoperator hlonger hbackslash hsingle hdouble
    hcomment
  all_goals obtain ⟨rfl, rfl⟩ := Prod.mk.inj (Option.some.inj hstep)
  · refine ⟨trivial, fun t ht => ?_⟩
    rcases List.mem_append.1 ht with ht | ht
    · exact h.flush t ht
    · exact absurd (List.mem_singleton.1 ht) nofun
  · exact ⟨trivial, h.flush⟩
  · exact ⟨trivial, fun t ht => absurd ht List.not_mem_nil⟩
  · exact ⟨trivial, h.flush⟩
  · exact ⟨h.sound, hoperators⟩
  · exact ⟨any_quote (hsingle ▸ rfl), hoperators⟩
  · exact ⟨any_quote (hdouble ▸ rfl), hoperators⟩
  · exact ⟨trivial, h.flush⟩
  · refine ⟨h.sound.append_plain (isPlain_iff.2 ?_), hoperators⟩
    simp only [Bool.not_eq_true] at hexpansion hblank hoperator
    exact ⟨hblank, hnewline, hoperator, hbackslash, hsingle, hdouble, hexpansion, hnul⟩

/-- Each step keeps it, for the words that end, too. -/
theorem Keeps.step (h : m.Keeps) (hstep : m.step c = some (ts, m')) :
    m'.Keeps ∧ ∀ t, .word t ∈ ts → Sound t := by
  have hnul : c ≠ '\x00' := by
    rintro rfl
    cases hstep
  rw [Mode.step.eq_def, if_neg hnul] at hstep
  cases m
  case between | operator | word => exact h.unquoted hnul hstep
  all_goals
    -- no word ends in a comment or in quotes
    suffices m'.Keeps ∧ ∀ t, .word t ∉ ts from ⟨this.1, fun t ht => absurd ht (this.2 t)⟩
    dsimp only at hstep
  case comment =>
    split_ifs at hstep <;> obtain ⟨rfl, rfl⟩ := Prod.mk.inj (Option.some.inj hstep)
    all_goals exact ⟨trivial, by simp⟩
  case escape t =>
    split_ifs at hstep <;> obtain ⟨rfl, rfl⟩ := Prod.mk.inj (Option.some.inj hstep)
    · exact ⟨.inl (any_quote rfl), by simp⟩
    · exact ⟨trivial, by simp⟩
    · exact ⟨h, by simp⟩
  case single t =>
    split_ifs at hstep <;> obtain ⟨rfl, rfl⟩ := Prod.mk.inj (Option.some.inj hstep)
    · exact ⟨.inl (any_append h), by simp⟩
    · exact ⟨any_append h, by simp⟩
  case double t =>
    split_ifs at hstep <;> obtain ⟨rfl, rfl⟩ := Prod.mk.inj (Option.some.inj hstep)
    · exact ⟨.inl (any_append h), by simp⟩
    · exact ⟨any_append h, by simp⟩
    · exact ⟨any_append h, by simp⟩
  case doubleEscape t =>
    obtain ⟨rfl, rfl⟩ := Prod.mk.inj (Option.some.inj hstep)
    exact ⟨any_append h, by simp⟩

end Mode

end Shell
