import Headmaster.Json

/-!
# The policy editor

Edits of the headscale ACL policy (`src/headscale-client/src/policy.rs`), a
HuJSON text. The text is taken as its parser takes it (`PolicyText`): it cannot
be parsed, or it has no value, or it is a document. Layout and comments within
a document are left out, since no function here reads them: an edit of the
syntax tree is an edit of the `Json` document, where the first property with a
name is the one an edit finds. The comparison of two policies goes through
values instead, where the last one counts (`toValue`).
-/

namespace Headmaster.Policy

open Props (remove alter)

/-- A policy text, as the HuJSON parser reads it. -/
inductive PolicyText
  /-- White space only, or nothing. -/
  | blank (s : String)
  /-- Comments without a value, trimmed. -/
  | comments (s : String)
  /-- A text that does not parse, trimmed, and the parser's message. -/
  | unparsable (s message : String)
  | document (j : Json)

/-- There is nothing in the text, not even white space. -/
def PolicyText.isEmpty : PolicyText → Bool
  | .blank s => s == ""
  | _ => false

structure PolicyParseError where
  message : String
  deriving DecidableEq

def PolicyParseError.toString (e : PolicyParseError) : String := "policy parse error: " ++ e.message

/-- A token of a group. The comment is written beside the token, for readers of
    the text. -/
structure PolicyMember where
  token : String
  comment : Option String
  deriving DecidableEq

/-- The syntax tree of a policy: its comments, or its value. -/
inductive PolicyEditor
  | valueless (comments : String)
  | value (j : Json)

/-- The properties of an object; of anything else, none. -/
def propsOf : Option Json → List (String × Json)
  | some (.object ps) => ps
  | _ => []

/-- The elements of an array; of anything else, none. -/
def elementsOf : Option Json → List Json
  | some (.array es) => es
  | _ => []

/-- The strings among the elements. -/
def strings (es : List Json) : List String :=
  es.filterMap fun
    | .string s => some s
    | _ => none

namespace PolicyEditor

def parse : PolicyText → Except PolicyParseError PolicyEditor
  | .blank _ => .ok (.value (.object []))
  | .comments s => .ok (.valueless s)
  | .unparsable _ message => .error ⟨message⟩
  | .document j => .ok (.value j)

def toText : PolicyEditor → PolicyText
  | valueless s => .comments s
  | value j => .document j

/-- The properties of the root, if it is an object. -/
def objectValue : PolicyEditor → Option (List (String × Json))
  | value (.object ps) => some ps
  | _ => none

/-- The properties of the root, which becomes an object if it was not one. -/
def objectValueOrSet (e : PolicyEditor) : List (String × Json) := e.objectValue.getD []

/-- The value of an entry of `groups`. -/
def groupValue (members : List PolicyMember) : Json := .array (members.map fun m => .string m.token)

/-- The properties of `groups`, one for each group. -/
def groupProps (groups : List (String × List PolicyMember)) : List (String × Json) :=
  groups.map fun (name, members) => ("group:" ++ name, groupValue members)

/-- Replace the entire `groups` key by entries built from `groups`, or remove
    it when there are none. All other keys are preserved. -/
def setGroups (e : PolicyEditor) (groups : List (String × List PolicyMember)) : PolicyEditor :=
  let root := remove "groups" e.objectValueOrSet
  if groups.isEmpty then
    value (.object root)
  else
    value (.object (alter "groups" (fun v => .object (propsOf v ++ groupProps groups)) root))

/-- Remove `groups`, and put the `groups` of `other`, if any, in its place. -/
def copyGroupsFrom (e other : PolicyEditor) : PolicyEditor :=
  let root := remove "groups" e.objectValueOrSet
  match other.objectValue.bind (·.lookup "groups") with
  | none => value (.object root)
  | some groups => value (.object (root ++ [("groups", groups)]))

/-- The names under `groups`. -/
def knownGroups (e : PolicyEditor) : List String :=
  (propsOf (e.objectValueOrSet.lookup "groups")).map Prod.fst

/-- Ensure `tag` is in `tagOwners` with at least `owners` as members. -/
def setTagOwner (e : PolicyEditor) (tag : String) (owners : List String) : PolicyEditor :=
  value <| .object <| e.objectValueOrSet |> alter "tagOwners" fun tagOwners =>
    .object <| propsOf tagOwners |> alter tag fun arr =>
      let existing := strings (elementsOf arr)
      .array (elementsOf arr ++ (owners.filter (· ∉ existing)).map .string)

/-- Append `grants` to the `grants` array. -/
def appendGrants (e : PolicyEditor) (grants : List Json) : PolicyEditor :=
  if grants.isEmpty then e
  else value <| .object <| e.objectValueOrSet |> alter "grants" fun arr =>
    .array (elementsOf arr ++ grants)

end PolicyEditor

/-! ## Grants -/

/-- An element of `grants` that is an object, by its properties. -/
abbrev Grant := List (String × Json)

namespace Grant

/-- The strings in an array field. -/
def fieldValues (g : Grant) (field : String) : List String :=
  strings (elementsOf (g.lookup field))

def src (g : Grant) : List String := g.fieldValues "src"
def dst (g : Grant) : List String := g.fieldValues "dst"

/-- Remove a string from an array field; a field that is not an array is left
    alone. -/
def removeFromField (g : Grant) (field value : String) : Grant :=
  match g.lookup field with
  | some (.array es) =>
    g |> alter field fun _ => .array <| es.filter fun
      | .string s => s != value
      | _ => true
  | _ => g

def removeFromSrc (g : Grant) (value : String) : Grant := g.removeFromField "src" value
def removeFromDst (g : Grant) (value : String) : Grant := g.removeFromField "dst" value

/-- Remove the members that name a group not in `newGroups`, and the grant too
    when that leaves it without sources or without destinations. -/
def prune (newGroups : List String) (g : Grant) : Option Grant :=
  let stale (m : String) : Bool := "group:".toList.isPrefixOf m.toList && m ∉ newGroups
  let srcWasEmpty := g.src.isEmpty
  let dstWasEmpty := g.dst.isEmpty
  let g := (g.src.filter stale).foldl removeFromSrc g
  let g := (g.dst.filter stale).foldl removeFromDst g
  let weEmptiedSrc := !srcWasEmpty && g.src.isEmpty
  let weEmptiedDst := !dstWasEmpty && g.dst.isEmpty
  if weEmptiedSrc || weEmptiedDst then none else some g

end Grant

/-- Change each element of the `grants` array that is an object by `f`, or
    remove it. -/
def filterMapGrants (f : Grant → Option Grant) (ps : List (String × Json)) : List (String × Json) :=
  match ps.lookup "grants" with
  | some (.array es) =>
    ps |> alter "grants" fun _ => .array <| es.filterMap fun
      | .object g => (f g).map .object
      | j => some j
  | _ => ps

/-- The policy with each of its grants changed by `f`, or removed. -/
def PolicyEditor.filterMapGrants (f : Grant → Option Grant) (e : PolicyEditor) : PolicyEditor :=
  match e.objectValue with
  | none => e
  | some ps => value (.object (Policy.filterMapGrants f ps))

/-! ## Comparing policies -/

mutual

/-- The document as a value: of several properties with one name, the last. -/
def toValue : Json → Json
  | .array es => .array (toValues es)
  | .object ps => .object (toMap ps)
  | j => j

def toValues : List Json → List Json
  | [] => []
  | e :: es => toValue e :: toValues es

def toMap : List (String × Json) → List (String × Json)
  | [] => []
  | (k, v) :: ps => if k ∈ (toMap ps).map Prod.fst then toMap ps else (k, toValue v) :: toMap ps

end

mutual

def jsonValuesEqual : Json → Json → Bool
  | .null, .null => true
  | .bool a, .bool b => a == b
  | .number a, .number b => a == b
  | .string a, .string b => a == b
  | .array a, .array b => a.length == b.length && elementsEqual a b
  | .object a, .object b => a.length == b.length && entriesEqual a b
  | _, _ => false

/-- The elements, taken in pairs, are equal. -/
def elementsEqual : List Json → List Json → Bool
  | va :: a, vb :: b => jsonValuesEqual va vb && elementsEqual a b
  | _, _ => true

/-- Every entry of `a` has an equal one under the same key in `b`. -/
def entriesEqual : List (String × Json) → List (String × Json) → Bool
  | [], _ => true
  | (key, va) :: a, b =>
    (match b.lookup key with
      | some vb => jsonValuesEqual va vb
      | none => false) && entriesEqual a b

end

/-- The same JSON values, or else the same text. -/
def policiesAreSemanticallyEqual : PolicyText → PolicyText → Bool
  | .document a, .document b => jsonValuesEqual (toValue a) (toValue b)
  | .blank _, .blank _ => true
  | .comments a, .comments b => a == b
  | .unparsable a _, .unparsable b _ => a == b
  | _, _ => false

end Headmaster.Policy
