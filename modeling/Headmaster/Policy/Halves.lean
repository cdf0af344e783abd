import Headmaster.Policy.Meaning

/-!
# The two halves of a policy

A policy is its `groups` (`PolicyEditor.groups`) and the rest
(`PolicyEditor.rest`). Each edit is characterised by what it does to the two:
setting or copying the groups keeps the rest, and the other edits act on the
rest. Policies are `Alike` when all their sections mean the same, which is the
case exactly when both halves do (`alike_iff`); documents that are objects compare
as equal exactly when they are alike (`semanticallyEqual_iff`).
-/

namespace Headmaster.Policy

open Props (last remove alter Once others)

theorem mem_strings {s : String} {es : List Json} : s ∈ strings es ↔ .string s ∈ es := by
  rw [strings, List.mem_filterMap]
  constructor
  · rintro ⟨j, hj, h⟩
    match j, h with
    | .string _, rfl => exact hj
  · exact fun h => ⟨_, h, rfl⟩

namespace PolicyEditor

variable {e e' : PolicyEditor}

/-- The root is an object. -/
def IsObject (e : PolicyEditor) : Prop := ∃ ps, e = value (.object ps)

/-- The first `groups` of the root. -/
def groups (e : PolicyEditor) : Option Json := e.objectValueOrSet.lookup "groups"

/-- The policy without any `groups`. -/
def rest (e : PolicyEditor) : PolicyEditor := value (.object (others "groups" e.objectValueOrSet))

/-- The top-level key `groups` does not repeat. -/
abbrev OneGroups (e : PolicyEditor) : Prop := Once "groups" e.objectValueOrSet

@[simp]
theorem objectValueOrSet_object (ps : List (String × Json)) :
    (value (.object ps)).objectValueOrSet = ps := rfl

@[simp]
theorem objectValueOrSet_rest (e : PolicyEditor) :
    e.rest.objectValueOrSet = others "groups" e.objectValueOrSet := rfl

theorem IsObject.eq (h : e.IsObject) : e = value (.object e.objectValueOrSet) := by
  obtain ⟨ps, rfl⟩ := h
  rfl

theorem IsObject.parse_toText (h : e.IsObject) : parse e.toText = .ok e := by
  obtain ⟨ps, rfl⟩ := h
  rfl

theorem knownGroups_eq (e : PolicyEditor) : e.knownGroups = (propsOf e.groups).map Prod.fst := rfl

/-! ## Policies that mean the same -/

/-- All sections mean the same. -/
def Alike (e e' : PolicyEditor) : Prop := ∀ k, sectionOf e.toText k = sectionOf e'.toText k

theorem Alike.refl (e : PolicyEditor) : e.Alike e := fun _ => rfl

theorem Alike.trans {e'' : PolicyEditor} (h : e.Alike e') (h' : e'.Alike e'') : e.Alike e'' :=
  fun k => (h k).trans (h' k)

theorem semanticallyEqual_iff (h : e.IsObject) (h' : e'.IsObject) :
    policiesAreSemanticallyEqual e.toText e'.toText = true ↔ e.Alike e' := by
  obtain ⟨ps, rfl⟩ := h
  obtain ⟨qs, rfl⟩ := h'
  exact (jsonValuesEqual_iff _ _).trans Json.meaning_object_inj

/-- What compares as equal to an object is an object that means the same. -/
theorem exists_of_semanticallyEqual {t : PolicyText} (h' : e'.IsObject)
    (h : policiesAreSemanticallyEqual t e'.toText = true) :
    ∃ e : PolicyEditor, e.IsObject ∧ t = e.toText ∧ e.Alike e' := by
  obtain ⟨qs, rfl⟩ := h'
  match t, h with
  | .document j, h =>
    have hmeaning := (jsonValuesEqual_iff j (.object qs)).1 h
    match j, hmeaning with
    | .object ps, hmeaning => exact ⟨_, ⟨ps, rfl⟩, rfl, Json.meaning_object_inj.1 hmeaning⟩
    | .null, h | .bool _, h | .number _, h | .string _, h | .array _, h => simp [Json.meaning] at h

theorem sectionOf_groups (h : e.OneGroups) :
    sectionOf e.toText "groups" = e.groups.map Json.meaning := by
  rw [sectionOf_toText, groups, Props.lookup_eq_last h]

theorem sectionOf_rest {k : String} (h : k ≠ "groups") :
    sectionOf e.rest.toText k = sectionOf e.toText k := by
  rw [sectionOf_toText, sectionOf_toText, objectValueOrSet_rest, Props.last_others h]

theorem sectionOf_rest_groups : sectionOf e.rest.toText "groups" = none := by
  rw [sectionOf_toText, objectValueOrSet_rest, Props.last_eq_none_iff.2, Option.map_none]
  simp [others]

/-- Policies are alike when both halves are. -/
theorem alike_iff (h : e.OneGroups) (h' : e'.OneGroups) :
    e.Alike e' ↔ e.groups.map Json.meaning = e'.groups.map Json.meaning ∧ e.rest.Alike e'.rest := by
  rw [← sectionOf_groups h, ← sectionOf_groups h']
  constructor
  · refine fun hk => ⟨hk "groups", fun k => ?_⟩
    by_cases hne : k = "groups"
    · rw [hne, sectionOf_rest_groups, sectionOf_rest_groups]
    · rw [sectionOf_rest hne, sectionOf_rest hne, hk k]
  · rintro ⟨hgroups, hrest⟩ k
    by_cases hne : k = "groups"
    · rw [hne, hgroups]
    · rw [← sectionOf_rest (e := e) hne, ← sectionOf_rest (e := e') hne, hrest k]

theorem Alike.groups (h : e.Alike e') (hOnce : e.OneGroups) (hOnce' : e'.OneGroups) :
    e.groups.map Json.meaning = e'.groups.map Json.meaning := ((alike_iff hOnce hOnce').1 h).1

theorem Alike.rest (h : e.Alike e') (hOnce : e.OneGroups) (hOnce' : e'.OneGroups) :
    e.rest.Alike e'.rest := ((alike_iff hOnce hOnce').1 h).2

theorem objectValueOrSet_copyGroupsFrom (e other : PolicyEditor) :
    (e.copyGroupsFrom other).objectValueOrSet =
      remove "groups" e.objectValueOrSet ++ (other.groups.map fun v => ("groups", v)).toList := by
  have hgroups : other.objectValue.bind (·.lookup "groups") = other.groups := by
    rw [groups, objectValueOrSet]
    cases other.objectValue <;> rfl
  rw [copyGroupsFrom, hgroups]
  cases other.groups with
  | none => exact (List.append_nil _).symm
  | some v => rfl

theorem rest_copyGroupsFrom (other : PolicyEditor) : (e.copyGroupsFrom other).rest = e.rest := by
  rw [rest, rest, objectValueOrSet_copyGroupsFrom]
  cases other.groups with
  | none => rw [Option.map_none, Option.toList_none, List.append_nil, Props.others_remove]
  | some v => rw [Option.map_some, Option.toList_some, Props.others_concat, Props.others_remove]

theorem groups_copyGroupsFrom (other : PolicyEditor) (h : e.OneGroups) :
    (e.copyGroupsFrom other).groups = other.groups := by
  have hnone : (remove "groups" e.objectValueOrSet).lookup "groups" = none := by
    rw [Props.lookup_eq_last (Props.once_remove h), Props.last_remove h]
  rw [groups, objectValueOrSet_copyGroupsFrom, List.lookup_append, hnone, Option.none_or]
  cases other.groups with
  | none => rfl
  | some v => simp

theorem oneGroups_copyGroupsFrom (other : PolicyEditor) (h : e.OneGroups) :
    (e.copyGroupsFrom other).OneGroups := by
  have hnone : ((remove "groups" e.objectValueOrSet).map Prod.fst).count "groups" = 0 := by
    rw [List.count_eq_zero, ← Props.last_eq_none_iff, Props.last_remove h]
  rw [OneGroups, Once, objectValueOrSet_copyGroupsFrom, List.map_append, List.count_append, hnone,
    Nat.zero_add]
  cases other.groups <;> simp

theorem isObject_setGroups (gs : List (String × List PolicyMember)) : (e.setGroups gs).IsObject := by
  rw [setGroups]
  split <;> exact ⟨_, rfl⟩

theorem rest_setGroups (gs : List (String × List PolicyMember)) : (e.setGroups gs).rest = e.rest := by
  rw [rest, rest, objectValueOrSet_setGroups]
  split
  · rw [Props.others_remove]
  · rw [Props.others_alter, Props.others_remove]

/-- The groups that `setGroups` leaves. -/
def groupsOf (gs : List (String × List PolicyMember)) : Option Json :=
  if gs.isEmpty then none else some (.object (groupProps gs))

theorem groups_setGroups (gs : List (String × List PolicyMember)) (h : e.OneGroups) :
    (e.setGroups gs).groups = groupsOf gs := by
  rw [groups, Props.lookup_eq_last (once_setGroups e gs h), last_setGroups e gs h, groupsOf]

theorem names_groupsOf (gs : List (String × List PolicyMember)) :
    (propsOf (groupsOf gs)).map Prod.fst = (groupProps gs).map Prod.fst := by
  cases gs <;> rfl

/-! ## Edits of the rest -/

/-- The elements of `grants`. -/
def grantElements (e : PolicyEditor) : List Json := elementsOf (e.objectValueOrSet.lookup "grants")

theorem grantElements_rest : e.rest.grantElements = e.grantElements := by
  rw [grantElements, objectValueOrSet_rest, Props.lookup_others (by decide), grantElements]

section TagOwner

variable (tag : String) (owners : List String)

theorem isObject_setTagOwner : (e.setTagOwner tag owners).IsObject := ⟨_, rfl⟩

theorem rest_setTagOwner : (e.setTagOwner tag owners).rest = e.rest.setTagOwner tag owners :=
  congrArg (fun ps => value (.object ps)) (Props.others_alter_of_ne _ (by decide))

theorem groups_setTagOwner : (e.setTagOwner tag owners).groups = e.groups :=
  Props.lookup_alter_of_ne _ (by decide)

theorem oneGroups_setTagOwner (h : e.OneGroups) : (e.setTagOwner tag owners).OneGroups := h.alter _

theorem grantElements_setTagOwner : (e.setTagOwner tag owners).grantElements = e.grantElements :=
  congrArg elementsOf (Props.lookup_alter_of_ne _ (by decide))

/-- The value of a tag in `tagOwners`. -/
def tagOwner (e : PolicyEditor) (tag : String) : Option Json :=
  (propsOf (e.objectValueOrSet.lookup "tagOwners")).lookup tag

theorem tagOwner_setTagOwner : (e.setTagOwner tag owners).tagOwner tag =
    some (.array (elementsOf (e.tagOwner tag) ++
      (owners.filter (· ∉ strings (elementsOf (e.tagOwner tag)))).map .string)) := by
  rw [tagOwner, setTagOwner, objectValueOrSet_object, Props.lookup_alter, propsOf,
    Props.lookup_alter, tagOwner]

theorem tagOwner_setTagOwner_of_ne {tag' : String} (h : tag' ≠ tag) :
    (e.setTagOwner tag owners).tagOwner tag' = e.tagOwner tag' := by
  rw [tagOwner, setTagOwner, objectValueOrSet_object, Props.lookup_alter, propsOf,
    Props.lookup_alter_of_ne _ h, tagOwner]

theorem tagOwner_copyGroupsFrom (other : PolicyEditor) :
    (e.copyGroupsFrom other).tagOwner tag = e.tagOwner tag := by
  have hrest (e : PolicyEditor) : e.rest.tagOwner tag = e.tagOwner tag := by
    rw [tagOwner, objectValueOrSet_rest, Props.lookup_others (by decide), tagOwner]
  rw [← hrest, rest_copyGroupsFrom, hrest]

end TagOwner

section AppendGrant

variable (grant : Json)

theorem isObject_appendGrants : (e.appendGrants [grant]).IsObject := ⟨_, rfl⟩

theorem rest_appendGrants : (e.appendGrants [grant]).rest = e.rest.appendGrants [grant] :=
  congrArg (fun ps => value (.object ps)) (Props.others_alter_of_ne _ (by decide))

theorem groups_appendGrants : (e.appendGrants [grant]).groups = e.groups :=
  Props.lookup_alter_of_ne _ (by decide)

theorem tagOwner_appendGrants (tag : String) :
    (e.appendGrants [grant]).tagOwner tag = e.tagOwner tag :=
  congrArg (fun v => (propsOf v).lookup tag) (Props.lookup_alter_of_ne _ (by decide))

theorem grantElements_appendGrants :
    (e.appendGrants [grant]).grantElements = e.grantElements ++ [grant] :=
  congrArg elementsOf (Props.lookup_alter _)

end AppendGrant

section FilterMapGrants

variable (f : Grant → Option Grant)

/-- What a change of the grants leaves of an element of `grants`. -/
def changed : Json → Option Json
  | .object g => (f g).map .object
  | j => some j

theorem isObject_filterMapGrants (h : e.IsObject) : (e.filterMapGrants f).IsObject := by
  obtain ⟨ps, rfl⟩ := h
  exact ⟨_, rfl⟩

theorem rest_filterMapGrants : (e.filterMapGrants f).rest = e.rest.filterMapGrants f := by
  rw [rest, objectValueOrSet_filterMapGrants, rest]
  refine congrArg (fun ps => value (.object ps)) ?_
  rw [Policy.filterMapGrants, Policy.filterMapGrants, Props.lookup_others (by decide)]
  split
  · exact Props.others_alter_of_ne _ (by decide)
  · rfl

theorem groups_filterMapGrants : (e.filterMapGrants f).groups = e.groups := by
  rw [groups, objectValueOrSet_filterMapGrants, Policy.filterMapGrants]
  split
  · exact Props.lookup_alter_of_ne _ (by decide)
  · rfl

theorem oneGroups_filterMapGrants (h : e.OneGroups) : (e.filterMapGrants f).OneGroups := by
  rw [OneGroups, Once, names_filterMapGrants]
  exact h

theorem grantElements_filterMapGrants :
    (e.filterMapGrants f).grantElements = e.grantElements.filterMap (changed f) := by
  rw [grantElements, objectValueOrSet_filterMapGrants, Policy.filterMapGrants, grantElements]
  split
  · rename_i es hes
    rw [Props.lookup_alter, hes]
    rfl
  · rename_i hes
    cases h : e.objectValueOrSet.lookup "grants" with
    | none => rfl
    | some j =>
      rw [h] at hes
      cases j <;> first | rfl | exact absurd rfl (hes _)

theorem props_filterMapGrants_of_array {ps : List (String × Json)} {es : List Json}
    (h : ps.lookup "grants" = some (.array es)) : Policy.filterMapGrants f ps =
      alter "grants" (fun _ => .array (es.filterMap (changed f))) ps := by
  rw [Policy.filterMapGrants, h]
  refine congrArg (fun es => alter "grants" (fun _ => Json.array es) ps) ?_
  refine List.filterMap_congr fun j _ => ?_
  cases j <;> rfl

theorem props_filterMapGrants_of_not_array {ps : List (String × Json)}
    (h : ∀ es, ps.lookup "grants" ≠ some (.array es)) : Policy.filterMapGrants f ps = ps := by
  rw [Policy.filterMapGrants]
  split
  · rename_i es hes
    exact absurd hes (h es)
  · rfl

theorem filterMapGrants_congr {f f' : Grant → Option Grant}
    (h : ∀ g, .object g ∈ e.grantElements → f g = f' g) :
    e.filterMapGrants f = e.filterMapGrants f' := by
  have hchanged : ∀ j ∈ e.grantElements, changed f j = changed f' j := by
    intro j hj
    match j, hj with
    | .object g, hj => rw [changed, h g hj, changed]
    | .null, _ | .bool _, _ | .number _, _ | .string _, _ | .array _, _ => rfl
  match e, hchanged with
  | value (.object ps), hchanged =>
    refine congrArg (fun ps => value (.object ps)) ?_
    by_cases hes : ∃ es, ps.lookup "grants" = some (.array es)
    · obtain ⟨es, hes⟩ := hes
      rw [grantElements, objectValueOrSet_object, hes, elementsOf] at hchanged
      rw [props_filterMapGrants_of_array f hes, props_filterMapGrants_of_array f' hes,
        List.filterMap_congr hchanged]
    · have hes := not_exists.1 hes
      rw [props_filterMapGrants_of_not_array f hes, props_filterMapGrants_of_not_array f' hes]
  | value .null, _ | value (.bool _), _ | value (.number _), _ | value (.string _), _
  | value (.array _), _ | valueless _, _ => rfl

/-- Two changes in a row are one. -/
theorem filterMapGrants_filterMapGrants (f' : Grant → Option Grant) :
    (e.filterMapGrants f).filterMapGrants f' = e.filterMapGrants fun g => (f g).bind f' := by
  match e with
  | value (.object ps) =>
    refine congrArg (fun ps => value (.object ps)) ?_
    by_cases hes : ∃ es, ps.lookup "grants" = some (.array es)
    · obtain ⟨es, hes⟩ := hes
      have hboth : (fun j => (changed f j).bind (changed f')) =
          changed fun g => (f g).bind f' := by
        funext j
        match j with
        | .object g => cases h : f g <;> simp [changed, h]
        | .null | .bool _ | .number _ | .string _ | .array _ => rfl
      rw [props_filterMapGrants_of_array f hes,
        props_filterMapGrants_of_array f' (Props.lookup_alter _), Props.alter_alter,
        List.filterMap_filterMap, hboth, props_filterMapGrants_of_array _ hes]
    · have hes := not_exists.1 hes
      rw [props_filterMapGrants_of_not_array f hes, props_filterMapGrants_of_not_array f' hes,
        props_filterMapGrants_of_not_array _ hes]
  | value .null | value (.bool _) | value (.number _) | value (.string _) | value (.array _)
  | valueless _ => rfl

/-- A change that leaves every grant as it is leaves the policy as it is. -/
theorem filterMapGrants_eq_self
    (h : ∀ g, .object g ∈ e.grantElements → f g = some g) : e.filterMapGrants f = e := by
  rw [filterMapGrants_congr h]
  match e with
  | value (.object ps) =>
    refine congrArg (fun ps => value (.object ps)) ?_
    by_cases hes : ∃ es, ps.lookup "grants" = some (.array es)
    · obtain ⟨es, hes⟩ := hes
      rw [props_filterMapGrants_of_array some hes]
      refine Props.alter_eq_self hes (congrArg Json.array ?_)
      refine (List.filterMap_congr fun j _ => ?_).trans List.filterMap_some
      cases j <;> rfl
    · rw [props_filterMapGrants_of_not_array some (not_exists.1 hes)]
  | value .null | value (.bool _) | value (.number _) | value (.string _) | value (.array _)
  | valueless _ => rfl

end FilterMapGrants

end PolicyEditor

end Headmaster.Policy
