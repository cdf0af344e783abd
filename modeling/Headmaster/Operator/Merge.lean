import Headmaster.Operator.PolicySync
import Headmaster.Process.Ends

/-!
# What is merged

The access grants of the Ingresses are merged into a policy
(`merge_ingress_grants` in
`src/operator/src/controllers/headscale_instance/policy.rs`) exactly
(`mergeIngressGrants_exact`): those that wait for no group (`admitted`) are
appended, one grant each (`grantMeaning`), after the grants that were there, and
their tags get the owner that headscale requires (`Owned`). Nothing that was there goes, and
the order in which the Ingresses were listed does not matter, for the warnings to
those that wait neither.

What stands under a name is what an edit finds there, the first property with
the name; names that did not repeat still do not.
-/

namespace Headmaster.Operator

open Policy (PolicyText PolicyEditor)
open Props (others Once)

/-! ## The order of the Ingresses -/

namespace Ingress

/-- What tells Ingresses apart. -/
def key (ing : Ingress) : String × String := ing.metadata.key

/-- The order of the Ingresses, strictly. -/
def lt (a b : Ingress) : Prop := a.metadata.lt b.metadata

variable {ingresses ingresses' : List Ingress}

theorem insertionSort_eq (ingresses : List Ingress) :
    ingresses.insertionSort Ingress.le = ObjectMeta.sortBy Ingress.metadata ingresses := rfl

theorem pairwise_sorted (h : (ingresses.map key).Nodup) :
    (ingresses.insertionSort Ingress.le).Pairwise Ingress.lt :=
  insertionSort_eq ingresses ▸ ObjectMeta.pairwise_sortBy h

theorem insertionSort_eq_of_perm (h : (ingresses.map key).Nodup) (hperm : ingresses'.Perm ingresses) :
    ingresses'.insertionSort Ingress.le = ingresses.insertionSort Ingress.le := by
  rw [insertionSort_eq, insertionSort_eq]
  exact ObjectMeta.sortBy_eq_of_perm h hperm

end Ingress

/-! ## The grants -/

variable (read : Reader) (digest : Digest)

/-- The access grants of an Ingress; none where its configuration does not parse. -/
def accessOf (ing : Ingress) : List IngressAccessGrant :=
  match IngressAnnotations.parse read ing.metadata with
  | .ok annotations => annotations.access
  | .error _ => []

/-- The access grants of some Ingresses, in order, whose groups are all known. -/
def admitted (knownGroups : List String) (ingresses : List Ingress) :
    List (Ingress × IngressAccessGrant) :=
  ingresses.flatMap fun ing =>
    accessOf read ing
      |>.filter (fun grant => ∀ s ∈ grant.principals,
        "group:".toList.isPrefixOf s.toList = true → s ∈ knownGroups)
      |>.map fun grant => (ing, grant)

def Ingress.autoTag (ing : Ingress) : String := ingressAutoTag digest ing.ns ing.metadata.name

/-- What the grant for an access grant is to mean: from its sources to the proxy with the tag, for
    its capabilities, or for every port when it has none. -/
def grantMeaning (autoTag : String) (grant : IngressAccessGrant) : Val :=
  .object fun
    | "src" => some (.array (grant.principals.map .string))
    | "dst" => some (.array [.string autoTag])
    | "app" => grant.capabilities.map fun caps =>
        .object fun name => caps[name]?.map fun args => .array (args.map Json.meaning)
    | "ip" => if grant.capabilities.isNone then some (.array [.string "*:*"]) else none
    | _ => none

section Grants

variable {read digest} {knownGroups : List String} {ingresses : List Ingress}

theorem missingGroups_eq_nil_iff {grant : IngressAccessGrant} :
    missingGroups knownGroups grant = [] ↔ ∀ s ∈ grant.principals,
      "group:".toList.isPrefixOf s.toList = true → s ∈ knownGroups := by
  simp [missingGroups, List.filter_eq_nil_iff]

theorem ingressGrants_eq_map : ingressGrants read digest knownGroups ingresses =
    (admitted read knownGroups (ingresses.insertionSort Ingress.le)).map fun p =>
      (grantValue (p.1.autoTag digest) p.2, p.1.autoTag digest) := by
  rw [ingressGrants, admitted, List.map_flatMap]
  refine List.flatMap_congr fun ing _ => ?_
  rw [grantsOf, accessOf, List.map_map]
  cases IngressAnnotations.parse read ing.metadata with
  | error _ => rfl
  | ok annotations =>
    refine congrArg (List.map _) (List.filter_congr fun grant _ => ?_)
    rw [Bool.eq_iff_iff, List.isEmpty_iff, decide_eq_true_iff, missingGroups_eq_nil_iff]

/-- The capabilities of a grant mean the same as those of the access grant. -/
theorem last_capabilities (caps : Std.ExtTreeMap String (List Json)) (name : String) :
    (Props.last (caps.toList.map fun p => (p.1, Json.array (p.2.map Policy.toValue))) name).map
        Json.meaning =
      caps[name]?.map fun args : List Json => .array (args.map Json.meaning) := by
  have hnodup : (caps.toList.map Prod.fst).Nodup := by
    refine List.pairwise_map.2 (Std.ExtTreeMap.distinct_keys_toList.imp ?_)
    exact fun h heq => h (Std.compare_eq_iff_eq.2 heq)
  have hlast : Props.last caps.toList name = caps[name]? := by
    cases hget : caps[name]? with
    | some args =>
      exact Props.last_of_mem hnodup (Std.ExtTreeMap.mem_toList_iff_getElem?_eq_some.2 hget)
    | none =>
      rw [Props.last_eq_none_iff]
      intro hmem
      obtain ⟨⟨k, args⟩, hmem, hk⟩ := List.mem_map.1 hmem
      have hsome := Std.ExtTreeMap.mem_toList_iff_getElem?_eq_some.1 hmem
      rw [show k = name from hk, hget] at hsome
      cases hsome
  rw [Props.last_map fun _ (args : List Json) => Json.array (args.map Policy.toValue), Option.map_map,
    hlast]
  refine Option.map_congr fun args _ => ?_
  rw [Function.comp_apply, Json.meaning_array, List.map_map]
  exact congrArg Val.array (List.map_congr_left fun j _ => Policy.meaning_toValue j)

theorem meaning_grantValue (autoTag : String) (grant : IngressAccessGrant) :
    (grantValue autoTag grant).meaning = grantMeaning autoTag grant := by
  have hstring (s : String) : (Json.string s).meaning = .string s := rfl
  rw [grantValue, Json.meaning_object, grantMeaning]
  congr
  funext k
  rw [Props.last_cons, Props.last_cons, Props.last_cons, Props.last_nil, Option.none_or]
  -- the four names, and any other
  by_cases hk : k = "src"
  · subst hk
    cases grant.capabilities <;> simp [hstring]
  by_cases hk : k = "dst"
  · subst hk
    cases grant.capabilities <;> simp [hstring]
  by_cases hk : k = "app"
  · subst hk
    cases grant.capabilities <;> simp [last_capabilities]
  by_cases hk : k = "ip"
  · subst hk
    cases grant.capabilities <;> simp [hstring]
  · cases grant.capabilities <;> simp_all [eq_comm]

theorem dst_grantValue {autoTag : String} {grant : IngressAccessGrant} {g : Policy.Grant}
    (h : .object g = grantValue autoTag grant) : g.dst = [autoTag] := by
  obtain rfl := Json.object.inj h
  rfl

end Grants

/-! ## The tags -/

/-- A tag is declared in a policy, with the tag of the operator as an owner. -/
def Owned (e : PolicyEditor) (tag : String) : Prop :=
  ∃ owners, e.tagOwner tag = some (.array owners) ∧ .string headmasterTag ∈ owners

/-- The owners that tags have in a policy they have in another, which may add the tag of the
    operator to them. -/
def KeepsOwners (e e' : PolicyEditor) : Prop :=
  ∀ tag owners, e.tagOwner tag = some (.array owners) →
    ∃ added, e'.tagOwner tag = some (.array (owners ++ added)) ∧
      ∀ j ∈ added, j = .string headmasterTag

section Tags

variable {e e' e'' : PolicyEditor} {tag : String} {grants : List (Json × String)}

theorem KeepsOwners.refl (e : PolicyEditor) : KeepsOwners e e :=
  fun _ owners h => ⟨[], by rwa [List.append_nil], fun _ h => absurd h List.not_mem_nil⟩

theorem KeepsOwners.trans (h : KeepsOwners e e') (h' : KeepsOwners e' e'') : KeepsOwners e e'' := by
  intro tag owners howners
  obtain ⟨added, hadded, hown⟩ := h tag owners howners
  obtain ⟨added', hadded', hown'⟩ := h' tag _ hadded
  refine ⟨added ++ added', by rw [hadded', List.append_assoc], fun j hj => ?_⟩
  exact (List.mem_append.1 hj).elim (hown j) (hown' j)

theorem KeepsOwners.owned (h : KeepsOwners e e') (ho : Owned e tag) : Owned e' tag := by
  obtain ⟨owners, howners, hmem⟩ := ho
  obtain ⟨added, hadded, _⟩ := h tag owners howners
  exact ⟨_, hadded, List.mem_append_left _ hmem⟩

theorem tagOwner_appendIngressGrant (grant : Json × String) (tag : String) :
    (appendIngressGrant e grant).tagOwner tag = (e.setTagOwner grant.2 [headmasterTag]).tagOwner tag :=
  PolicyEditor.tagOwner_appendGrants _ _

theorem keepsOwners_appendIngressGrant (e : PolicyEditor) (grant : Json × String) :
    KeepsOwners e (appendIngressGrant e grant) := by
  intro tag owners howners
  rw [tagOwner_appendIngressGrant]
  by_cases htag : tag = grant.2
  · subst htag
    rw [PolicyEditor.tagOwner_setTagOwner, howners]
    refine ⟨_, rfl, fun j hj => ?_⟩
    obtain ⟨owner, howner, rfl⟩ := List.mem_map.1 hj
    rw [List.mem_singleton.1 (List.mem_filter.1 howner).1]
  · rw [PolicyEditor.tagOwner_setTagOwner_of_ne _ _ htag, howners]
    exact ⟨[], by rw [List.append_nil], fun _ h => absurd h List.not_mem_nil⟩

theorem owned_appendIngressGrant (e : PolicyEditor) (grant : Json × String) :
    Owned (appendIngressGrant e grant) grant.2 := by
  refine ⟨_, (tagOwner_appendIngressGrant _ _).trans (PolicyEditor.tagOwner_setTagOwner _ _), ?_⟩
  rw [List.mem_append, List.mem_map]
  by_cases h : headmasterTag ∈ Policy.strings (Policy.elementsOf (e.tagOwner grant.2))
  · exact .inl (Policy.mem_strings.1 h)
  · exact .inr ⟨_, List.mem_filter.2 ⟨List.mem_singleton_self _, by simpa using h⟩, rfl⟩

theorem keepsOwners_appendIngressGrants (e : PolicyEditor) (grants : List (Json × String)) :
    KeepsOwners e (grants.foldl appendIngressGrant e) := by
  induction grants generalizing e with
  | nil => exact .refl e
  | cons grant grants ih => exact (keepsOwners_appendIngressGrant e grant).trans (ih _)

/-- Appending a grant owns its tag, and what comes after keeps that. -/
theorem owned_appendIngressGrants (e : PolicyEditor) {grant : Json × String} (h : grant ∈ grants) :
    Owned (grants.foldl appendIngressGrant e) grant.2 := by
  induction grants generalizing e with
  | nil => cases h
  | cons g grants ih =>
    rcases List.mem_cons.1 h with rfl | h
    · exact (keepsOwners_appendIngressGrants _ grants).owned (owned_appendIngressGrant e grant)
    · exact ih _ h

theorem tagOwner_appendIngressGrants (h : ∀ grant ∈ grants, grant.2 ≠ tag) :
    (grants.foldl appendIngressGrant e).tagOwner tag = e.tagOwner tag := by
  induction grants generalizing e with
  | nil => rfl
  | cons grant grants ih =>
    rw [List.foldl_cons, ih fun g hg => h g (List.mem_cons_of_mem _ hg),
      tagOwner_appendIngressGrant,
      PolicyEditor.tagOwner_setTagOwner_of_ne _ _ (h grant List.mem_cons_self).symm]

theorem others_appendIngressGrants :
    others "grants" (others "tagOwners" (grants.foldl appendIngressGrant e).objectValueOrSet) =
      others "grants" (others "tagOwners" e.objectValueOrSet) := by
  induction grants generalizing e with
  | nil => rfl
  | cons grant grants ih =>
    rw [List.foldl_cons, ih, appendIngressGrant, PolicyEditor.appendGrants, PolicyEditor.setTagOwner]
    simp only [List.isEmpty_cons, Bool.false_eq_true, if_false, PolicyEditor.objectValueOrSet_object]
    rw [Props.others_alter_of_ne _ (by decide), Props.others_alter, Props.others_alter]

end Tags

/-! ## The merge -/

/-- A policy after the merge, for the Ingresses in order, with the grants that were appended. -/
structure MergedExactly (before after : PolicyEditor) (ingresses : List Ingress)
    (appended : List Json) : Prop where
  /-- The grants that were there, and then the appended ones. -/
  grants : after.grantElements = before.grantElements ++ appended
  /-- One grant for each access grant whose groups are all known, and no other. -/
  exact : appended.map Json.meaning = (admitted read before.knownGroups ingresses).map fun p =>
    grantMeaning (p.1.autoTag digest) p.2
  /-- The tags of the appended grants are declared. -/
  owned : ∀ g, .object g ∈ appended → ∀ tag ∈ Policy.Grant.dst g, Owned after tag
  /-- The tags that were declared keep their owners, and those of no appended grant their value. -/
  owners : KeepsOwners before after
  untouched : ∀ tag, (∀ g, .object g ∈ appended → tag ∉ Policy.Grant.dst g) →
    after.tagOwner tag = before.tagOwner tag
  /-- All other properties are as they were. -/
  others : Props.others "grants" (Props.others "tagOwners" after.objectValueOrSet) =
    Props.others "grants" (Props.others "tagOwners" before.objectValueOrSet)
  once : ∀ k, Once k before.objectValueOrSet → Once k after.objectValueOrSet

variable {read digest} {policyStr : PolicyText} {before : PolicyEditor} {ingresses : List Ingress}

/-- The merge appends the grants to what it parses, also where there are none. -/
theorem parse_withIngressGrants (hparse : PolicyEditor.parse policyStr = .ok before) :
    PolicyEditor.parse (withIngressGrants read digest policyStr ingresses) =
      .ok ((ingressGrants read digest before.knownGroups ingresses).foldl appendIngressGrant
        before) := by
  have hknown : knownGroupsOf policyStr = before.knownGroups := by rw [knownGroupsOf, hparse]
  rw [withIngressGrants, hknown, hparse]
  dsimp only
  cases ingressGrants read digest before.knownGroups ingresses with
  | nil => exact hparse
  | cons grant grants =>
    exact (isObject_appendIngressGrants grants (PolicyEditor.isObject_appendGrants _)).parse_toText

theorem mergedExactly (before : PolicyEditor) (ingresses : List Ingress) :
    MergedExactly read digest before
      ((ingressGrants read digest before.knownGroups ingresses).foldl appendIngressGrant before)
      (ingresses.insertionSort Ingress.le)
      ((ingressGrants read digest before.knownGroups ingresses).map Prod.fst) := by
  -- a grant that is appended has one tag, its own
  have hdst : ∀ grant ∈ ingressGrants read digest before.knownGroups ingresses,
      ∃ autoTag access, grant = (grantValue autoTag access, autoTag) := by
    intro grant hgrant
    rw [ingressGrants_eq_map] at hgrant
    obtain ⟨p, _, rfl⟩ := List.mem_map.1 hgrant
    exact ⟨_, _, rfl⟩
  refine ⟨grantElements_appendIngressGrants _, ?_, ?_, keepsOwners_appendIngressGrants _ _, ?_,
    others_appendIngressGrants, fun k => once_appendIngressGrants _⟩
  · rw [ingressGrants_eq_map, List.map_map, List.map_map]
    exact List.map_congr_left fun p _ => meaning_grantValue _ _
  · intro g hg tag htag
    obtain ⟨grant, hgrant, hobject⟩ := List.mem_map.1 hg
    obtain ⟨autoTag, access, rfl⟩ := hdst grant hgrant
    rw [dst_grantValue hobject.symm, List.mem_singleton] at htag
    exact htag ▸ owned_appendIngressGrants before hgrant
  · intro tag huntouched
    refine tagOwner_appendIngressGrants fun grant hgrant htag => ?_
    obtain ⟨autoTag, access, rfl⟩ := hdst grant hgrant
    refine huntouched _ (List.mem_map.2 ⟨_, hgrant, rfl⟩) ?_
    rw [dst_grantValue rfl, List.mem_singleton]
    exact htag.symm

/-- However its warnings are answered, the merge ends with the text. -/
theorem ends_mergeIngressGrants : (mergeIngressGrants read digest policyStr ingresses).Ends
    (· = .ok (withIngressGrants read digest policyStr ingresses)) := by
  rw [mergeIngressGrants]
  generalize waitingGrants read (knownGroupsOf policyStr) ingresses = waiting
  induction waiting with
  | nil => exact rfl
  | cons p waiting ih => exact fun _ => ih

/-- Both what is appended and what is warned of are in the order of the Ingresses. -/
theorem mergeIngressGrants_eq_of_perm {ingresses' : List Ingress}
    (hdistinct : (ingresses.map Ingress.key).Nodup) (hperm : ingresses'.Perm ingresses) :
    mergeIngressGrants read digest policyStr ingresses' =
      mergeIngressGrants read digest policyStr ingresses := by
  have hsorted := Ingress.insertionSort_eq_of_perm hdistinct hperm
  rw [mergeIngressGrants, waitingGrants, withIngressGrants, ingressGrants, hsorted]
  rfl

/-- The merge is exact, for Ingresses that differ in namespace or name: it appends one grant for
    each access grant whose groups are all in the policy, in the order of the namespaces and
    names, declares their tags, and keeps the rest; the order of the list does not matter. -/
theorem mergeIngressGrants_exact (read : Reader) (digest : Digest)
    (hparse : PolicyEditor.parse policyStr = .ok before)
    (hdistinct : (ingresses.map Ingress.key).Nodup) :
    (∃ text after sorted appended,
      (mergeIngressGrants read digest policyStr ingresses).Ends (· = .ok text) ∧
      PolicyEditor.parse text = .ok after ∧
      sorted.Perm ingresses ∧ sorted.Pairwise Ingress.lt ∧
      MergedExactly read digest before after sorted appended) ∧
    ∀ ingresses', ingresses'.Perm ingresses →
      mergeIngressGrants read digest policyStr ingresses' =
        mergeIngressGrants read digest policyStr ingresses :=
  ⟨⟨_, _, _, _, ends_mergeIngressGrants, parse_withIngressGrants hparse, List.perm_insertionSort _ _,
    Ingress.pairwise_sorted hdistinct, mergedExactly before ingresses⟩,
    fun _ hperm => mergeIngressGrants_eq_of_perm hdistinct hperm⟩

/-- Two Ingresses, the later one first. -/
theorem mergeIngressGrants_exact_two :
    let web : Ingress :=
      { Contribution.app with metadata := { Contribution.app.metadata with name := "web" } }
    ∃ text before after sorted appended,
      (mergeIngressGrants Contribution.reader Contribution.sha256 Contribution.policy
        [web, Contribution.app]).Ends (· = .ok text) ∧
      PolicyEditor.parse text = .ok after ∧
      sorted.Perm [web, Contribution.app] ∧ sorted.Pairwise Ingress.lt ∧
      MergedExactly Contribution.reader Contribution.sha256 before after sorted appended := by
  intro web
  have hparse : PolicyEditor.parse Contribution.policy =
      .ok (.value (.object [("tagOwners", .object [(headmasterTag, .array [])])])) := rfl
  have hdistinct : ([web, Contribution.app].map Ingress.key).Nodup := by decide +kernel
  obtain ⟨text, hexact⟩ :=
    (mergeIngressGrants_exact Contribution.reader Contribution.sha256 hparse hdistinct).1
  exact ⟨text, _, hexact⟩

end Headmaster.Operator
