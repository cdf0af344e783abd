import Headmaster.Jsonc
import Headmaster.Policy.Halves

/-!
# The text of the groups

`PolicyEditor::set_groups` edits the syntax tree of a policy (`setGroups`), and
writes the comments of members beside their tokens, into the text of the policy
(`memberText`). The terminators of comments are taken out first
(`avoids_sanitize`), so that the text which the policy then displays is read as
the groups that were given, beside all the rest (`read_setGroups`).
-/

namespace Headmaster.Policy.Rendering

open Jsonc (CstNode nameOf literal? rootValue Displays)
open Props (remove alter others Once)

/-! ## The edit -/

/-- The library that parses and edits the text: how it writes a string, in a way that it reads
    itself, and that it reads the strings of JSON. -/
structure Library extends Jsonc.Dialect where
  write : String → List Char
  literal_write (s : String) :
    Jsonc.Mode.between.scan isBlank (write s) = some (.between, [.literal (write s)])
  read_write (s : String) : read (write s) = some (.string s)
  name_write (s : String) : name (write s) = some s
  read_serialize (s : String) : read (Json.serialize s) = some (.string s)

section Edit

variable (L : Library)

/-- The tree of a policy. -/
def parse (text : List Char) : Option (Option CstNode) :=
  Jsonc.parse L.isBlank (if (Text.trim text).isEmpty then "\x7b\x7d".toList else text)

/-- The value of a policy. -/
def read (text : List Char) : Option (Option Json) := (parse L text).bind (rootValue L.toDialect)

/-- The properties of an object; of anything else, none. -/
def propsOf : Option CstNode → List (List Char × CstNode)
  | some (.object ps) => ps
  | _ => []

/-- Remove the first property with a name. -/
def removeProp (name : String) : List (List Char × CstNode) → List (List Char × CstNode)
  | [] => []
  | (key, v) :: ps =>
    if nameOf L.toDialect key = some name then ps else (key, v) :: removeProp name ps

/-- Edit the properties of the object under a name, which becomes one if it was not. -/
def alterObject (name : String) (f : List (List Char × CstNode) → List (List Char × CstNode)) :
    List (List Char × CstNode) → List (List Char × CstNode)
  | [] => [(L.write name, .object (f []))]
  | (key, v) :: ps =>
    if nameOf L.toDialect key = some name then (key, .object (f (propsOf (some v)))) :: ps
    else (key, v) :: alterObject name f ps

/-- The comment without what would end it. -/
def sanitize (comment : String) : List Char :=
  Text.replacePair '*' '/' ['*', ' ', '/'] comment.toList

/-- The text of a member. -/
def memberText (m : PolicyMember) : List Char :=
  match m.comment with
  | none => L.write m.token
  | some comment =>
    Json.serialize m.token ++ " /* ".toList ++ sanitize comment ++ " */".toList

/-- The entry for a group. -/
def groupEntry (group : String × List PolicyMember) : List Char × CstNode :=
  (L.write ("group:" ++ group.1), .array (group.2.map fun m => .literal (memberText L m)))

/-- Replace the entire `groups` key by entries built from `groups`, or remove it when there are
    none. -/
def setGroups (root : Option CstNode) (groups : List (String × List PolicyMember)) : CstNode :=
  let rootObj := removeProp L "groups" (propsOf root)
  if groups.isEmpty then .object rootObj
  else .object (alterObject L "groups" (· ++ groups.map (groupEntry L)) rootObj)

end Edit

/-! ## Its value -/

section Value

variable {L : Library} {name : String} {ps : List (List Char × CstNode)} {qs : List (String × Json)}

theorem avoids_sanitize (comment : String) : Text.Avoids '*' '/' (sanitize comment) :=
  Text.avoids_replacePair (by decide) (by decide) (by decide) comment.toList

/-- What stands beside a token is a comment, to its end. -/
theorem gap_comment (comment : String) :
    Jsonc.Gap L.isBlank (" /* ".toList ++ sanitize comment ++ " */".toList) := by
  have hinside : Text.Avoids '*' '/' (' ' :: (sanitize comment ++ [' '])) := by
    refine List.isChain_cons.2 ⟨fun d _ h => absurd h.1 (by decide), ?_⟩
    refine List.isChain_append.2 ⟨avoids_sanitize comment, .singleton _, fun c _ d hd h => ?_⟩
    rw [← Option.some.inj hd] at h
    exact absurd h.2 (by decide)
  have htext : " /* ".toList ++ sanitize comment ++ " */".toList =
      ' ' :: '/' :: '*' :: (' ' :: (sanitize comment ++ [' ']) ++ '*' :: '/' :: []) := by
    simp
  rw [htext]
  exact .blank L.isBlank_space rfl (.block hinside .nil)

/-- A member is read as its token, whatever its comment. -/
theorem value_member (m : PolicyMember) :
    (CstNode.literal (memberText L m)).value L.toDialect = some (.string m.token) := by
  rw [CstNode.value, memberText]
  cases m.comment with
  | none =>
    rw [Jsonc.Mode.literal?_of_scan (L.literal_write m.token), Option.bind_some, L.read_write]
  | some comment =>
    dsimp only
    rw [List.append_assoc, List.append_assoc, ← List.append_assoc " /* ".toList,
      Jsonc.literal?_append (Jsonc.Mode.scan_serialize m.token) (gap_comment comment),
      Option.bind_some, L.read_serialize]

theorem nameOf_write (s : String) : nameOf L.toDialect (L.write s) = some s := by
  rw [nameOf, Jsonc.Mode.literal?_of_scan (L.literal_write s), Option.bind_some, L.name_write]

theorem values_members (members : List PolicyMember) :
    CstNode.values L.toDialect (members.map fun m => .literal (memberText L m)) =
      some (members.map fun m => .string m.token) := by
  induction members with
  | nil => rfl
  | cons m members ih =>
    rw [List.map_cons, List.map_cons]
    exact CstNode.values_cons.2 ⟨_, _, value_member m, ih, rfl⟩

theorem entries_groups (groups : List (String × List PolicyMember)) :
    CstNode.entries L.toDialect (groups.map (groupEntry L)) =
      some (PolicyEditor.groupProps groups) := by
  induction groups with
  | nil => rfl
  | cons group groups ih =>
    rw [List.map_cons]
    refine CstNode.entries_cons.2 ⟨_, _, _, nameOf_write _, ?_, ih, rfl⟩
    rw [CstNode.value, values_members, Option.map_some, PolicyEditor.groupValue]

theorem entries_append {ps' : List (List Char × CstNode)} {qs' : List (String × Json)}
    (h : CstNode.entries L.toDialect ps = some qs)
    (h' : CstNode.entries L.toDialect ps' = some qs') :
    CstNode.entries L.toDialect (ps ++ ps') = some (qs ++ qs') := by
  induction ps generalizing qs with
  | nil =>
    rw [← Option.some.inj h]
    exact h'
  | cons p ps ih =>
    obtain ⟨k, j, qs₁, hk, hj, hqs₁, rfl⟩ := CstNode.entries_cons.1 h
    exact CstNode.entries_cons.2 ⟨k, j, qs₁ ++ qs', hk, hj, ih hqs₁, rfl⟩

theorem entries_removeProp (h : CstNode.entries L.toDialect ps = some qs) :
    CstNode.entries L.toDialect (removeProp L name ps) = some (remove name qs) := by
  induction ps generalizing qs with
  | nil =>
    rw [← Option.some.inj h]
    rfl
  | cons p ps ih =>
    obtain ⟨k, j, qs', hk, hj, hqs', rfl⟩ := CstNode.entries_cons.1 h
    rw [removeProp, hk, remove]
    by_cases hname : k = name
    · rw [if_pos (congrArg some hname), if_pos hname, hqs']
    · rw [if_neg fun h => hname (Option.some.inj h), if_neg hname]
      exact CstNode.entries_cons.2 ⟨k, j, _, hk, hj, ih hqs', rfl⟩

theorem entries_propsOf {n : CstNode} {j : Json} (h : n.value L.toDialect = some j) :
    CstNode.entries L.toDialect (propsOf (some n)) = some (Policy.propsOf (some j)) := by
  match n, h with
  | .literal raw, h =>
    rw [CstNode.value] at h
    obtain ⟨l, _, hread⟩ := Option.bind_eq_some_iff.1 h
    cases j with
    | object ps => exact absurd hread (L.read_ne_object l ps)
    | null | bool | number | string | array => rfl
  | .array es, h =>
    rw [CstNode.value] at h
    obtain ⟨js, _, rfl⟩ := Option.map_eq_some_iff.1 h
    rfl
  | .object ps, h =>
    rw [CstNode.value] at h
    obtain ⟨qs, hqs, rfl⟩ := Option.map_eq_some_iff.1 h
    exact hqs

theorem entries_alterObject {f : List (List Char × CstNode) → List (List Char × CstNode)}
    {g : List (String × Json) → List (String × Json)}
    (hf : ∀ ps qs, CstNode.entries L.toDialect ps = some qs →
      CstNode.entries L.toDialect (f ps) = some (g qs))
    (h : CstNode.entries L.toDialect ps = some qs) :
    CstNode.entries L.toDialect (alterObject L name f ps) =
      some (alter name (fun v => .object (g (Policy.propsOf v))) qs) := by
  induction ps generalizing qs with
  | nil =>
    rw [← Option.some.inj h]
    refine CstNode.entries_cons.2 ⟨_, _, _, nameOf_write name, ?_, rfl, rfl⟩
    rw [CstNode.value, hf [] [] rfl, Option.map_some]
    rfl
  | cons p ps ih =>
    obtain ⟨k, j, qs', hk, hj, hqs', rfl⟩ := CstNode.entries_cons.1 h
    rw [alterObject, hk, alter]
    by_cases hname : k = name
    · rw [if_pos (congrArg some hname), if_pos hname]
      refine CstNode.entries_cons.2 ⟨k, _, qs', hk, ?_, hqs', rfl⟩
      rw [CstNode.value, hf _ _ (entries_propsOf hj), Option.map_some]
    · rw [if_neg fun h => hname (Option.some.inj h), if_neg hname]
      exact CstNode.entries_cons.2 ⟨k, j, _, hk, hj, ih hqs', rfl⟩

/-- The policy, as its value shows it. -/
def editorOf : Option Json → PolicyEditor
  | none => .valueless ""
  | some j => .value j

/-- The tree is edited as its value is. -/
theorem value_setGroups {root : Option CstNode} {j : Option Json}
    (h : rootValue L.toDialect root = some j)
    (groups : List (String × List PolicyMember)) :
    (setGroups L root groups).value L.toDialect =
      some (.object ((editorOf j).setGroups groups).objectValueOrSet) := by
  have hroot : CstNode.entries L.toDialect (propsOf root) = some (editorOf j).objectValueOrSet := by
    match root, h with
    | none, h =>
      obtain rfl := Option.some.inj h
      rfl
    | some n, h =>
      obtain ⟨j, hj, rfl⟩ := Option.map_eq_some_iff.1 h
      rw [entries_propsOf hj]
      match j with
      | .null | .bool _ | .number _ | .string _ | .array _ | .object _ => rfl
  rw [PolicyEditor.objectValueOrSet_setGroups, setGroups]
  split_ifs with hempty
  · rw [CstNode.value, entries_removeProp hroot, Option.map_some]
  · rw [CstNode.value, entries_alterObject (fun _ _ hqs => entries_append hqs (entries_groups groups))
      (entries_removeProp hroot), Option.map_some]

theorem exists_object (root : Option CstNode) (groups : List (String × List PolicyMember)) :
    ∃ ps, setGroups L root groups = .object ps := by
  rw [setGroups]
  split_ifs <;> exact ⟨_, rfl⟩

/-- What is displayed of an object is not blank. -/
theorem parse_of_displays {text : List Char} (h : Displays L.isBlank (.object ps) text) :
    parse L text = Jsonc.parse L.isBlank text := by
  obtain ⟨ts, hleaves, hlays⟩ := h
  have hbrace : '\x7b' ∈ text := by
    match ts, hleaves with
    | _, .object _ => exact Jsonc.mem_of_lays hlays List.mem_cons_self _ List.mem_cons_self
  rw [parse, if_neg]
  rw [List.isEmpty_iff]
  exact Text.trim_ne_nil hbrace rfl

/-- Whatever the names, tokens and comments, the text that the policy displays is read as the groups
    that were given, with no other `groups` section, and everything else as it was. -/
theorem read_setGroups {text text' : List Char} {root : Option CstNode} {j : Option Json}
    {groups : List (String × List PolicyMember)} (hparse : parse L text = some root)
    (hread : read L text = some j) (hOnce : (editorOf j).OneGroups)
    (hdisplay : Displays L.isBlank (setGroups L root groups) text') :
    ∃ ps, read L text' = some (some (.object ps)) ∧ Once "groups" ps ∧
      ps.lookup "groups" = PolicyEditor.groupsOf groups ∧
      others "groups" ps = others "groups" (editorOf j).objectValueOrSet := by
  rw [read, hparse, Option.bind_some] at hread
  have hvalue := value_setGroups hread groups
  refine ⟨_, ?_, PolicyEditor.once_setGroups _ groups hOnce,
    PolicyEditor.groups_setGroups groups hOnce, ?_⟩
  · obtain ⟨ps, hps⟩ := exists_object (L := L) root groups
    rw [read, parse_of_displays (hps ▸ hdisplay)]
    exact Jsonc.read_of_displays hdisplay hvalue
  · have hrest := (editorOf j).rest_setGroups groups
    rw [PolicyEditor.rest, PolicyEditor.rest, PolicyEditor.value.injEq, Json.object.injEq] at hrest
    exact hrest

end Value

/-! ### A policy with a comment that would end early -/

def readWord (raw : List Char) : Option Json :=
  if raw = "null".toList then some .null
  else if raw = "true".toList then some (.bool true)
  else if raw = "false".toList then some (.bool false)
  else if raw ≠ [] ∧ raw.all Char.isDigit then some (.number (String.ofList raw))
  else none

/-- The words of JSON, and strings as JSON has them. -/
def strict : Library where
  isBlank := Text.isSpace
  read raw := ((Json.readString raw).map .string).or (readWord raw)
  name := Json.readString
  isBlank_space := rfl
  read_ne_object raw ps := by
    cases Json.readString raw with
    | some s => exact nofun
    | none =>
      rw [Option.map_none, Option.none_or, readWord]
      split_ifs <;> exact nofun
  write := Json.serialize
  literal_write s := Jsonc.Mode.scan_serialize s
  read_write s := by rw [Json.readString_serialize]; rfl
  name_write := Json.readString_serialize
  read_serialize s := by rw [Json.readString_serialize]; rfl

/-- A policy with a group that is replaced. -/
def policy : List Char := "\x7b\"acls\": [], \"groups\": \x7b\"group:old\": [] \x7d\x7d".toList

def policyTree : CstNode := .object [("\"acls\"".toList, .array []),
  ("\"groups\"".toList, .object [("\"group:old\"".toList, .array [])])]

def eng : List (String × List PolicyMember) :=
  [("eng", [⟨"https://idp/uuid@", some "C*/O, alice**//evil"⟩])]

example : String.ofList (sanitize "C*/O, alice**//evil") = "C* /O, alice** //evil" := by decide

theorem parse_policy : parse strict policy = some (some policyTree) := by
  have htokens : Jsonc.tokens strict.isBlank policy = some [.openObject, .literal "\"acls\"".toList,
      .colon, .openArray, .closeArray, .comma, .literal "\"groups\"".toList, .colon, .openObject,
      .literal "\"group:old\"".toList, .colon, .openArray, .closeArray, .closeObject,
      .closeObject] := by
    decide +kernel
  have hblank : (Text.trim policy).isEmpty = false := by decide +kernel
  rw [parse, hblank, if_neg Bool.false_ne_true, Jsonc.parse, htokens]
  rfl

theorem value_policyTree : policyTree.value strict.toDialect = some (.object
    [("acls", .array []), ("groups", .object [("group:old", .array [])])]) := by
  have hacls : nameOf strict.toDialect "\"acls\"".toList = some "acls" := by decide +kernel
  have hgroups : nameOf strict.toDialect "\"groups\"".toList = some "groups" := by decide +kernel
  have hold : nameOf strict.toDialect "\"group:old\"".toList = some "group:old" := by decide +kernel
  have hinner : CstNode.entries strict.toDialect [("\"group:old\"".toList, .array [])] =
      some [("group:old", .array [])] :=
    CstNode.entries_cons.2 ⟨_, .array [], [], hold, rfl, rfl, rfl⟩
  have hlast : CstNode.entries strict.toDialect
      [("\"groups\"".toList, .object [("\"group:old\"".toList, .array [])])] =
        some [("groups", .object [("group:old", .array [])])] :=
    CstNode.entries_cons.2 ⟨_, _, [], hgroups, by rw [CstNode.value, hinner]; rfl, rfl, rfl⟩
  rw [policyTree, CstNode.value, CstNode.entries_cons.2 ⟨_, .array [], _, hacls, rfl, hlast, rfl⟩]
  rfl

theorem read_policy : read strict policy = some (some (.object
    [("acls", .array []), ("groups", .object [("group:old", .array [])])])) := by
  rw [read, parse_policy, Option.bind_some, rootValue, value_policyTree, Option.map_some]

/-- The comment does not end before it should. -/
theorem read_setGroups_eng : ∃ ps,
    read strict (setGroups strict (some policyTree) eng).spaced = some (some (.object ps)) ∧
      Once "groups" ps ∧ ps.lookup "groups" = PolicyEditor.groupsOf eng ∧
      others "groups" ps = [("acls", .array [])] :=
  read_setGroups parse_policy read_policy (by decide) (Jsonc.displays_spaced strict.isBlank_space _)

end Headmaster.Policy.Rendering
