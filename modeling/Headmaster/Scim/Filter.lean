import Headmaster.Json.Strings
import Headmaster.Scim.Services
import Headmaster.Text.Lowercase

/-!
# The filter of the list of users

The users are listed by a filter `userName eq "value"`
(`src/scim/src/routes/users.rs`), where `parseUsernameEqFilter` finds the value.
It never cuts a character in two (`parseUsernameEqFilter_of_framed`), but it
takes what is between the first quote and the last as it stands: it accepts
the grammar, and nothing else, exactly on the filters where no quote, backslash
or control character is between them (`exactlyParsed_iff`).
-/

namespace Headmaster.Scim.Users

open Text

/-! ## The parser -/

section Parser

variable (cased caseIgnorable : Char → Bool)

/-- What a filter begins with, in lower case. -/
def usernameEq : List Char := "username eq \"".toList

/-- The name in a filter `userName eq "value"`, or the error with any other filter. The value is
    cut at bytes; without one where a character would be cut. -/
def parseUsernameEqFilter (filter : String) : Option (Except String String) :=
  let trimmed := trim filter.toList
  let lower := toLowercase cased caseIgnorable trimmed
  match lower.dropPrefix? usernameEq with
  | none => some (.error (String.ofList trimmed))
  | some rest =>
    if rest.getLast? ≠ some '"' then some (.error (String.ofList trimmed))
    else
      -- The text in lower case locates the value only, whose case is preserved.
      let prefixLen := byteLength lower - byteLength rest
      (slice trimmed prefixLen (byteLength trimmed - 1)).map fun value => .ok (String.ofList value)

/-- The users that a filter leaves of the list, or the detail of the error. -/
def listUsers (filter : Option String) (list : ScimListResponse ScimUser) :
    Option (Except String (ScimListResponse ScimUser)) :=
  match filter with
  | none => some (.ok list)
  | some filter => (parseUsernameEqFilter cased caseIgnorable filter).map fun
    | .error f => .error ("unsupported filter: " ++ f)
    | .ok name => .ok (.new (list.resources.filter (·.userName == name)))

end Parser

/-! ## The grammar -/

/-- The text is `userName`, `eq` and a JSON string for `v`, with a space between them. -/
def IsUserNameEq (text : List Char) (v : String) : Prop :=
  ∃ field op literal, text = field ++ ' ' :: (op ++ ' ' :: literal) ∧
    field.map Char.toLower = "username".toList ∧ op.map Char.toLower = "eq".toList ∧
    Json.Denotes literal v

/-- The text is `userName eq`, in any case, and something in quotes. -/
def Framed (text pre inner : List Char) : Prop :=
  text = pre ++ inner ++ ['"'] ∧ pre.map Char.toLower = usernameEq

section Frame

variable {cased caseIgnorable : Char → Bool} {filter : String} {text pre inner : List Char} {v : String}

theorem ascii_usernameEq : ∀ c ∈ usernameEq, c.toNat < 0x80 ∧ c ≠ 'i' ∧ c ≠ 'k' :=
  Text.forall_mem_of_all (by decide)

theorem Framed.ascii (h : Framed text pre inner) : ∀ c ∈ pre, c.toNat < 0x80 := fun _ hc =>
  ascii_of_toLower (ascii_usernameEq _ (h.2 ▸ List.mem_map_of_mem hc)).1

theorem Framed.byteLength (h : Framed text pre inner) :
    byteLength usernameEq = byteLength pre := by
  rw [byteLength_of_ascii fun _ hc => (ascii_usernameEq _ hc).1, byteLength_of_ascii h.ascii, ← h.2,
    List.length_map]

/-- What is in quotes is one text. -/
theorem Framed.unique (h : Framed text pre inner) {pre' inner' : List Char}
    (h' : Framed text pre' inner') : inner = inner' := by
  have hlength : pre.length = pre'.length := by
    rw [← List.length_map Char.toLower, h.2, ← h'.2, List.length_map]
  have heq := h.1.symm.trans h'.1
  rw [List.append_assoc, List.append_assoc] at heq
  exact List.append_cancel_right (List.append_inj heq hlength).2

/-- The grammar, by what is in quotes. -/
theorem isUserNameEq_iff : IsUserNameEq text v ↔
    ∃ pre inner, Framed text pre inner ∧ Json.unescape inner = some v.toList := by
  constructor
  · rintro ⟨field, op, _, rfl, hfield, hop, inner, rfl, hv⟩
    refine ⟨field ++ ' ' :: (op ++ [' ', '"']), inner, ⟨by simp, ?_⟩, hv⟩
    rw [List.map_append, List.map_cons, List.map_append, hfield, hop]
    rfl
  · rintro ⟨pre, inner, ⟨rfl, hpre⟩, hv⟩
    obtain ⟨field, pre, rfl, hfield, hpre⟩ := List.map_eq_append_iff.1
      (show _ = "username".toList ++ ' ' :: ("eq".toList ++ [' ', '"']) from hpre)
    obtain ⟨space, pre, rfl, hspace, hpre⟩ := List.map_eq_cons_iff.1 hpre
    obtain ⟨op, pre, rfl, hop, hpre⟩ := List.map_eq_append_iff.1 hpre
    obtain ⟨space', pre, rfl, hspace', hpre⟩ := List.map_eq_cons_iff.1 hpre
    obtain ⟨quote, pre, rfl, hquote, hpre⟩ := List.map_eq_cons_iff.1 hpre
    obtain rfl := List.map_eq_nil_iff.1 hpre
    obtain rfl := eq_of_toLower hspace rfl
    obtain rfl := eq_of_toLower hspace' rfl
    obtain rfl := eq_of_toLower hquote rfl
    exact ⟨field, op, '"' :: (inner ++ ['"']), by simp, hfield, hop, inner, rfl, hv⟩

/-- What is in quotes is found, and no character is cut. -/
theorem parseUsernameEqFilter_of_framed (h : Framed (trim filter.toList) pre inner) :
    parseUsernameEqFilter cased caseIgnorable filter = some (.ok (String.ofList inner)) := by
  have hlower : toLowercase cased caseIgnorable (trim filter.toList) = usernameEq ++
      toLowercaseFrom cased caseIgnorable (pre.reverse ++ []) (inner ++ ['"']) := by
    rw [toLowercase, h.1, List.append_assoc, toLowercaseFrom_append h.ascii, h.2]
  obtain ⟨xs, before, hrest⟩ := @exists_toLowercaseFrom_concat cased caseIgnorable
    (pre.reverse ++ []) inner '"'
  rw [lowerBetween_of_ascii (by decide)] at hrest
  rw [parseUsernameEqFilter]
  dsimp only
  rw [hlower, List.dropPrefix?_append_of_beq _ (beq_self_eq_true _), hrest]
  dsimp only
  rw [if_neg (by rw [List.getLast?_concat]; exact not_not_intro rfl), byteLength_append,
    Nat.add_sub_cancel, h.byteLength, h.1, byteLength_append, byteLength_append,
    byteLength_of_ascii (List.forall_mem_singleton.2 (by decide)), List.length_singleton,
    Nat.add_sub_cancel, slice_append,
    Option.map_some]

/-- Where nothing is in quotes after `userName eq`, the filter is refused. -/
theorem parseUsernameEqFilter_of_not_framed
    (h : ∀ pre inner, ¬Framed (trim filter.toList) pre inner) :
    parseUsernameEqFilter cased caseIgnorable filter =
      some (.error (String.ofList (trim filter.toList))) := by
  rw [parseUsernameEqFilter]
  dsimp only
  split
  · rfl
  · rename_i rest hrest
    obtain ⟨p, hlower, hp⟩ := List.dropPrefix?_eq_some_iff.1 hrest
    obtain rfl := eq_of_beq hp
    obtain ⟨pre, after, htext, hpre, rfl⟩ := exists_of_toLowercaseFrom hlower ascii_usernameEq
    rw [if_pos]
    intro hlast
    rcases List.eq_nil_or_concat after with rfl | ⟨inner, c, rfl⟩
    · cases hlast
    · obtain ⟨xs, before, hlowered⟩ := @exists_toLowercaseFrom_concat cased caseIgnorable
        (pre.reverse ++ []) inner c
      rw [List.concat_eq_append, hlowered] at hlast
      rw [List.getLast?_append_of_ne_nil _ lowerBetween_ne_nil] at hlast
      have hquote := (lowerBetween_of_mem (List.mem_of_getLast? hlast) (by decide) (by decide)
        (by decide)).2
      obtain rfl := eq_of_toLower hquote rfl
      exact h pre inner ⟨by rw [htext, List.concat_eq_append, List.append_assoc], hpre⟩

/-- The filter is read as the grammar has it, and nothing is cut. -/
def ExactlyParsed (cased caseIgnorable : Char → Bool) (filter : String) : Prop :=
  ∃ r, parseUsernameEqFilter cased caseIgnorable filter = some r ∧
    ∀ v, r = .ok v ↔ IsUserNameEq (trim filter.toList) v

/-- A filter is read as the grammar has it exactly if what it has in quotes, if anything, stands for
    itself. -/
theorem exactlyParsed_iff : ExactlyParsed cased caseIgnorable filter ↔
    ∀ pre inner, Framed (trim filter.toList) pre inner →
      ∀ c ∈ inner, c ≠ '"' ∧ c ≠ '\\' ∧ 0x20 ≤ c.toNat := by
  constructor
  · rintro ⟨r, hr, hexact⟩ pre inner hframed
    rw [parseUsernameEqFilter_of_framed hframed] at hr
    obtain ⟨pre', inner', hframed', hv⟩ :=
      isUserNameEq_iff.1 ((hexact (String.ofList inner)).1 (Option.some.inj hr).symm)
    rw [← hframed.unique hframed', String.toList_ofList] at hv
    exact Json.unescape_eq_self_iff.1 hv
  · intro h
    by_cases hframed : ∃ pre inner, Framed (trim filter.toList) pre inner
    · obtain ⟨pre, inner, hframed⟩ := hframed
      have hself := Json.unescape_eq_self_iff.2 (h pre inner hframed)
      refine ⟨_, parseUsernameEqFilter_of_framed hframed, fun v => ?_⟩
      rw [isUserNameEq_iff, Except.ok.injEq]
      constructor
      · rintro rfl
        exact ⟨pre, inner, hframed, by rw [hself, String.toList_ofList]⟩
      · rintro ⟨pre', inner', hframed', hv⟩
        rw [← hframed.unique hframed', hself] at hv
        rw [Option.some.inj hv, String.ofList_toList]
    · rw [not_exists] at hframed
      simp only [not_exists] at hframed
      refine ⟨_, parseUsernameEqFilter_of_not_framed hframed, fun v => ⟨nofun, fun hv => ?_⟩⟩
      obtain ⟨pre, inner, hframed', _⟩ := isUserNameEq_iff.1 hv
      exact absurd hframed' (hframed pre inner)

/-- The users with the name that is in quotes are listed, whatever the filter goes on with there. -/
theorem listUsers_of_framed (h : Framed (trim filter.toList) pre inner)
    (list : ScimListResponse ScimUser) :
    listUsers cased caseIgnorable (some filter) list =
      some (.ok (.new (list.resources.filter (·.userName == String.ofList inner)))) := by
  rw [listUsers, parseUsernameEqFilter_of_framed h, Option.map_some]

end Frame

/-! ### Two comparisons -/

/-- Either of two users. -/
def compound : String := "userName eq \"alice\" or userName eq \"bob\""

theorem framed_compound : Framed (trim compound.toList) "userName eq \"".toList
    "alice\" or userName eq \"bob".toList := by
  constructor <;> decide

/-- Two comparisons are read as one, with a name that no one has. -/
theorem not_exactlyParsed_compound :
    parseUsernameEqFilter Char.isAlpha (· == '.') compound =
        some (.ok "alice\" or userName eq \"bob") ∧
      ¬ExactlyParsed Char.isAlpha (· == '.') compound := by
  constructor
  · rw [parseUsernameEqFilter_of_framed framed_compound, String.ofList_toList]
  · intro h
    exact absurd (exactlyParsed_iff.1 h _ _ framed_compound '"' (by decide)).1 (by decide)

end Headmaster.Scim.Users
