import Mathlib.Data.List.Basic

/-!
# JSON strings

What stands between the quotes of a JSON string (`unescape`), read character by
character, and how a text is put there (`escape`): it is read back
(`unescape_escape`). What is read is not longer than what stands there, and the
same only if nothing is escaped (`unescape_eq_self_iff`).
-/

namespace Json

/-- How far the reading of a string is within an escape. -/
inductive Escape
  | outside
  /-- After a backslash, and after a first surrogate, if any. -/
  | begun (high : Option Nat)
  /-- In the digits of a code unit: those to come, and the value of the others. -/
  | digits (high : Option Nat) (toCome : Nat) (value : Nat)
  /-- After a first surrogate: a second has to follow. -/
  | between (high : Nat)
  deriving DecidableEq

namespace Escape

def hexValue (c : Char) : Option Nat :=
  if '0' ≤ c ∧ c ≤ '9' then some (c.toNat - '0'.toNat)
  else if 'a' ≤ c ∧ c ≤ 'f' then some (c.toNat - 'a'.toNat + 10)
  else if 'A' ≤ c ∧ c ≤ 'F' then some (c.toNat - 'A'.toNat + 10)
  else none

/-- The character an escape of two characters is for. -/
def short : Char → Option Char
  | '"' => some '"'
  | '\\' => some '\\'
  | '/' => some '/'
  | 'b' => some '\x08'
  | 'f' => some '\x0c'
  | 'n' => some '\n'
  | 'r' => some '\r'
  | 't' => some '\t'
  | _ => none

/-- A code unit is read, after a first surrogate, if any. -/
def unit : Option Nat → Nat → Option (Escape × Option Char)
  | none, n =>
    if 0xd800 ≤ n ∧ n < 0xdc00 then some (between n, none)
    else if 0xdc00 ≤ n ∧ n < 0xe000 then none
    else some (outside, some (Char.ofNat n))
  | some high, n =>
    if 0xdc00 ≤ n ∧ n < 0xe000 then
      some (outside, some (Char.ofNat (0x10000 + (high - 0xd800) * 0x400 + (n - 0xdc00))))
    else none

/-- A character is read: how far the reading is after it, and what it completes. -/
def step : Escape → Char → Option (Escape × Option Char)
  | outside, c =>
    if c = '\\' then some (begun none, none)
    else if c = '"' ∨ c.toNat < 0x20 then none
    else some (outside, some c)
  | begun high, c =>
    if c = 'u' then some (digits high 3 0, none)
    else if high.isSome then none
    else (short c).map fun d => (outside, some d)
  | digits high toCome value, c =>
    (hexValue c).bind fun d =>
      match toCome with
      | 0 => unit high (16 * value + d)
      | toCome + 1 => some (digits high toCome (16 * value + d), none)
  | between high, c => if c = '\\' then some (begun (some high), none) else none

end Escape

/-- What the rest of a string stands for. -/
def unescapeFrom : Escape → List Char → Option (List Char)
  | e, [] => if e = .outside then some [] else none
  | e, c :: text =>
    (e.step c).bind fun (e, d) => (unescapeFrom e text).map (d.toList ++ ·)

/-- What the text between the quotes of a string stands for. -/
def unescape (text : List Char) : Option (List Char) := unescapeFrom .outside text

/-- The text is a string, with its quotes, and stands for `v`. -/
def Denotes (text : List Char) (v : String) : Prop :=
  ∃ inner, text = '"' :: (inner ++ ['"']) ∧ unescape inner = some v.toList

/-! ## Writing -/

def hexDigit (n : Nat) : Char :=
  if n < 10 then Char.ofNat ('0'.toNat + n) else Char.ofNat ('a'.toNat + n - 10)

/-- How a character stands in a string. -/
def escapeChar (c : Char) : List Char :=
  if c = '"' then ['\\', '"']
  else if c = '\\' then ['\\', '\\']
  else if c = '\x08' then ['\\', 'b']
  else if c = '\x0c' then ['\\', 'f']
  else if c = '\n' then ['\\', 'n']
  else if c = '\r' then ['\\', 'r']
  else if c = '\t' then ['\\', 't']
  else if c.toNat < 0x20 then
    ['\\', 'u', '0', '0', hexDigit (c.toNat / 16), hexDigit (c.toNat % 16)]
  else [c]

/-- The text that stands between the quotes of a string. -/
def escape (text : List Char) : List Char := text.flatMap escapeChar

/-- The string for a text, with its quotes. -/
def serialize (s : String) : List Char := '"' :: (escape s.toList ++ ['"'])

/-! ## What is read -/

/-- The text that a string stands for, which has its quotes. -/
def readString : List Char → Option String
  | '"' :: rest =>
    if rest.getLast? = some '"' then (unescape rest.dropLast).map String.ofList else none
  | _ => none

section Reading

variable {e : Escape} {c : Char} {text v : List Char}

theorem unescapeFrom_cons : unescapeFrom e (c :: text) = some v ↔
    ∃ e' d v', e.step c = some (e', d) ∧ unescapeFrom e' text = some v' ∧ d.toList ++ v' = v := by
  rw [unescapeFrom, Option.bind_eq_some_iff]
  constructor
  · rintro ⟨⟨e', d⟩, hstep, h⟩
    obtain ⟨v', hv', rfl⟩ := Option.map_eq_some_iff.1 h
    exact ⟨e', d, v', hstep, hv', rfl⟩
  · rintro ⟨e', d, v', hstep, hv', rfl⟩
    exact ⟨(e', d), hstep, Option.map_eq_some_iff.2 ⟨v', hv', rfl⟩⟩

/-- Nothing is read as more than it is. -/
theorem length_le_of_unescapeFrom (h : unescapeFrom e text = some v) : v.length ≤ text.length := by
  induction text generalizing e v with
  | nil =>
    rw [unescapeFrom] at h
    split_ifs at h
    exact Nat.le_of_eq (congrArg List.length (Option.some.inj h)).symm
  | cons c text ih =>
    obtain ⟨e', d, v', _, hv', rfl⟩ := unescapeFrom_cons.1 h
    have hd : d.toList.length ≤ 1 := by cases d <;> simp
    rw [List.length_append, List.length_cons, Nat.add_comm]
    exact Nat.add_le_add (ih hv') hd

/-- A character on its own stands for itself. -/
theorem step_outside (h : c ≠ '"' ∧ c ≠ '\\' ∧ 0x20 ≤ c.toNat) :
    Escape.outside.step c = some (.outside, some c) := by
  rw [Escape.step, if_neg h.2.1, if_neg]
  rintro (hc | hc)
  · exact h.1 hc
  · omega

/-- What is on its own stands for itself, and anything else does not. -/
theorem unescape_eq_self_iff : unescape text = some text ↔
    ∀ c ∈ text, c ≠ '"' ∧ c ≠ '\\' ∧ 0x20 ≤ c.toNat := by
  rw [unescape]
  constructor
  · intro h
    induction text with
    | nil => exact List.forall_mem_nil _
    | cons c text ih =>
      obtain ⟨e', d, v', hstep, hv', heq⟩ := unescapeFrom_cons.1 h
      rw [Escape.step] at hstep
      split_ifs at hstep with hbackslash hbad
      · -- What the backslash begins is read as less than what stands there.
        obtain ⟨rfl, rfl⟩ := Prod.mk.inj (Option.some.inj hstep)
        have hlength := length_le_of_unescapeFrom hv'
        have hall := congrArg List.length heq
        simp only [Option.toList_none, List.nil_append, List.length_cons] at hall
        omega
      · obtain ⟨rfl, rfl⟩ := Prod.mk.inj (Option.some.inj hstep)
        rw [Option.toList_some, List.singleton_append, List.cons.injEq] at heq
        rw [heq.2] at hv'
        rw [not_or, Nat.not_lt] at hbad
        exact List.forall_mem_cons.2 ⟨⟨hbad.1, hbackslash, hbad.2⟩, ih hv'⟩
  · intro h
    induction text with
    | nil => rfl
    | cons c text ih =>
      exact unescapeFrom_cons.2 ⟨.outside, some c, text, step_outside (h c List.mem_cons_self),
        ih fun d hd => h d (List.mem_cons_of_mem _ hd), rfl⟩

theorem unescapeFrom_silent {e' : Escape} (h : e.step c = some (e', none)) :
    unescapeFrom e (c :: text) = unescapeFrom e' text := by
  rw [unescapeFrom, h, Option.bind_some]
  exact Option.map_id'

theorem unescapeFrom_complete {e' : Escape} {d : Char} (h : e.step c = some (e', some d)) :
    unescapeFrom e (c :: text) = (unescapeFrom e' text).map (d :: ·) := by
  rw [unescapeFrom, h, Option.bind_some]
  rfl

theorem unescapeFrom_short {d : Char} (hu : c ≠ 'u') (h : Escape.short c = some d) :
    unescapeFrom .outside ('\\' :: c :: text) = (unescapeFrom .outside text).map (d :: ·) := by
  rw [unescapeFrom_silent rfl]
  refine unescapeFrom_complete ?_
  rw [Escape.step, if_neg hu, if_neg nofun, h, Option.map_some]

theorem hexValue_hexDigit : ∀ n < 16, Escape.hexValue (hexDigit n) = some n := by decide

/-- What is written for a character is read as it. -/
theorem unescapeFrom_escapeChar (c : Char) (text : List Char) :
    unescapeFrom .outside (escapeChar c ++ text) = (unescapeFrom .outside text).map (c :: ·) := by
  rw [escapeChar]
  split_ifs with hquote hbackslash hb hf hn hr ht hcontrol
  · rw [hquote]
    exact unescapeFrom_short (by decide) rfl
  · rw [hbackslash]
    exact unescapeFrom_short (by decide) rfl
  · rw [hb]
    exact unescapeFrom_short (by decide) rfl
  · rw [hf]
    exact unescapeFrom_short (by decide) rfl
  · rw [hn]
    exact unescapeFrom_short (by decide) rfl
  · rw [hr]
    exact unescapeFrom_short (by decide) rfl
  · rw [ht]
    exact unescapeFrom_short (by decide) rfl
  · have hfirst : (Escape.digits none 3 0).step '0' = some (.digits none 2 0, none) := rfl
    have hsecond : (Escape.digits none 2 0).step '0' = some (.digits none 1 0, none) := rfl
    have hthird : (Escape.digits none 1 0).step (hexDigit (c.toNat / 16)) =
        some (.digits none 0 (c.toNat / 16), none) := by
      rw [Escape.step, hexValue_hexDigit _ (by omega), Option.bind_some, Nat.mul_zero, Nat.zero_add]
    have hlast : (Escape.digits none 0 (c.toNat / 16)).step (hexDigit (c.toNat % 16)) =
        some (.outside, some c) := by
      rw [Escape.step, hexValue_hexDigit _ (Nat.mod_lt _ (by decide)), Option.bind_some,
        Nat.div_add_mod, Escape.unit, if_neg (by omega), if_neg (by omega), Char.ofNat_toNat]
    rw [List.cons_append, unescapeFrom_silent rfl, List.cons_append, unescapeFrom_silent rfl,
      List.cons_append, unescapeFrom_silent hfirst, List.cons_append, unescapeFrom_silent hsecond,
      List.cons_append, unescapeFrom_silent hthird, List.cons_append, unescapeFrom_complete hlast,
      List.nil_append]
  · exact unescapeFrom_complete (step_outside ⟨hquote, hbackslash, Nat.le_of_not_lt hcontrol⟩)

/-- What is written is read back. -/
theorem unescape_escape (text : List Char) : unescape (escape text) = some text := by
  rw [unescape]
  induction text with
  | nil => rfl
  | cons c text ih => rw [escape, List.flatMap_cons, unescapeFrom_escapeChar, ← escape, ih,
      Option.map_some]

theorem readString_serialize (s : String) : readString (serialize s) = some s := by
  rw [serialize, readString, List.getLast?_concat, if_pos rfl, List.dropLast_concat, unescape_escape,
    Option.map_some, String.ofList_toList]

end Reading

end Json
