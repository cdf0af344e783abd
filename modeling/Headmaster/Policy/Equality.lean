import Headmaster.Json.Order
import Headmaster.Policy.Rendering

/-!
# Policies that are the same

Two policy texts are compared by the values that are parsed of them
(`policies_are_semantically_equal` in `src/headscale-client/src/policy.rs`), or
as they stand, trimmed, if one of them has none. Of texts in which no object
repeats a name, this tells different documents apart, and no others, up to the
order of the properties (`comparesValues`). The parser is left open: what is
asked of it is that it reads a tree through comments, white space and commas
(`ReadsDisplayed`), as `Jsonc.read` does.
-/

namespace Headmaster.Policy.Equality

open Jsonc (CstNode Dialect Displays)

section Comparison

variable (parse : List Char → Option (Option Json))

/-- The value of a text, if it has one. -/
def parseToValue (text : List Char) : Option Json := (parse text).join.map toValue

/-- The same JSON values, or else the same text. -/
def policiesAreSemanticallyEqual (a b : List Char) : Bool :=
  match parseToValue parse a, parseToValue parse b with
  | some parsedA, some parsedB => jsonValuesEqual parsedA parsedB
  | _, _ => Text.trim a == Text.trim b

/-- A text that has a value, in which no object repeats a name. -/
structure UniqueText where
  text : List Char
  value : Json
  read : parse text = some (some value)
  distinct : value.Distinct

/-- What displays a tree is parsed as its value. -/
def ReadsDisplayed (D : Dialect) : Prop :=
  ∀ (n : CstNode) (text : List Char) (j : Json), n.value D = some j → Displays D.isBlank n text →
    parse text = some (some j)

/-- Texts are equal exactly when their values are, but for the order of properties. -/
structure ComparesValues (D : Dialect) : Prop where
  values : ∀ a b : UniqueText parse,
    policiesAreSemanticallyEqual parse a.text b.text = true ↔ a.value.Reordered b.value
  equivalence : Equivalence fun a b : UniqueText parse =>
    policiesAreSemanticallyEqual parse a.text b.text = true
  /-- Comments, white space and commas make no difference. -/
  layout : ∀ (a b : UniqueText parse) (n : CstNode) (text : List Char), n.value D = some a.value →
    Displays D.isBlank n text → policiesAreSemanticallyEqual parse text b.text =
      policiesAreSemanticallyEqual parse a.text b.text

variable {parse} {D : Dialect} {a b : UniqueText parse}

/-- Texts that have values are compared as the documents in the model of the editor. -/
theorem policiesAreSemanticallyEqual_of_parse {text text' : List Char} {v w : Json}
    (hv : parse text = some (some v)) (hw : parse text' = some (some w)) :
    policiesAreSemanticallyEqual parse text text' =
      Policy.policiesAreSemanticallyEqual (.document v) (.document w) := by
  rw [policiesAreSemanticallyEqual, parseToValue, parseToValue, hv, hw]
  rfl

theorem equal_iff_meaning : policiesAreSemanticallyEqual parse a.text b.text = true ↔
    a.value.meaning = b.value.meaning := by
  rw [policiesAreSemanticallyEqual_of_parse a.read b.read, Policy.policiesAreSemanticallyEqual,
    jsonValuesEqual_iff]

theorem equivalence_equal : Equivalence fun a b : UniqueText parse =>
    policiesAreSemanticallyEqual parse a.text b.text = true where
  refl _ := equal_iff_meaning.2 rfl
  symm h := equal_iff_meaning.2 (equal_iff_meaning.1 h).symm
  trans h h' := equal_iff_meaning.2 ((equal_iff_meaning.1 h).trans (equal_iff_meaning.1 h'))

/-- Policies are equal exactly when their values are the same but for the order of properties. It
    is an equivalence, and the layout makes no difference to it. -/
theorem comparesValues (hreads : ReadsDisplayed parse D) : ComparesValues parse D where
  values a b := by
    rw [equal_iff_meaning, Json.reordered_iff a.distinct b.distinct]
  equivalence := equivalence_equal
  layout a b n text hvalue hdisplays := by
    rw [policiesAreSemanticallyEqual_of_parse (hreads n text a.value hvalue hdisplays) b.read,
      policiesAreSemanticallyEqual_of_parse a.read b.read]

end Comparison

open Rendering (strict policyTree value_policyTree)

theorem comparesValues_strict : ComparesValues (Jsonc.read strict.toDialect) strict.toDialect :=
  comparesValues fun _ _ _ hvalue hdisplays => Jsonc.read_of_displays hdisplays hvalue

/-! ### A policy with more white space -/

/-- A policy with a blank before each leaf. -/
def spacedPolicy : UniqueText (Jsonc.read strict.toDialect) where
  text := policyTree.spaced
  value := .object [("acls", .array []), ("groups", .object [("group:old", .array [])])]
  read := Jsonc.read_of_displays (Jsonc.displays_spaced strict.isBlank_space _) value_policyTree
  distinct := by
    refine .object (by decide) fun p hp => ?_
    rcases List.mem_pair.1 hp with rfl | rfl
    · exact .array (List.forall_mem_nil _)
    · exact .object (by decide) (List.forall_mem_singleton.2 (.array (List.forall_mem_nil _)))

example : policiesAreSemanticallyEqual (Jsonc.read strict.toDialect) Rendering.policy
    spacedPolicy.text = true := by
  have hblank : (Text.trim Rendering.policy).isEmpty = false := by decide +kernel
  have hread : Jsonc.read strict.toDialect Rendering.policy = some (some spacedPolicy.value) := by
    refine .trans ?_ Rendering.read_policy
    rw [Jsonc.read, Rendering.read, Rendering.parse, hblank, if_neg Bool.false_ne_true]
  rw [policiesAreSemanticallyEqual_of_parse hread spacedPolicy.read]
  exact (jsonValuesEqual_iff _ _).2 rfl

end Headmaster.Policy.Equality
