import Headmaster.Operator.Convergence
import Headmaster.Operator.Merge
import Std.Data.ExtTreeSet

/-!
# The tags of a proxy

The Ingress controller gives the proxy of an Ingress with access grants a tag
of its own, in its pre-auth key (`ensure_auth_key` in
`src/operator/src/controllers/proxy/auth_key.rs`) and by `SetTags` (`apply` in
`src/operator/src/controllers/ingress/reconcile.rs`). headscale rejects a tag
that the policy does not declare.

The sync of the policy declares the tags of the grants that it merges: a tag is
declared exactly when an access grant of the Ingress waits for no group, but for
tags that the instance declares itself and for Ingresses that share a tag
(`assignedTag_declared_iff`). While all of them wait, it is not
(`not_declared_of_waiting`).
-/

namespace Headmaster.Operator

open Policy (PolicyText PolicyEditor)

variable (read : Reader) (digest : Digest)

/-! ## Assigned tags -/

/-- The tag for the access grants of an Ingress, if it has any. -/
def autoTagFor (ing : Ingress) (annotations : IngressAnnotations) : Option String :=
  if !annotations.access.isEmpty then
    some (ingressAutoTag digest ing.ns ing.metadata.name)
  else none

/-- The tags of the pre-auth key. -/
def aclTags (annotations : IngressAnnotations) (autoTag : Option String) : List String :=
  annotations.managedKeyTags ++ autoTag.toList

/-- The tags for `SetTags`, sorted and without repetitions. -/
def desiredTags (annotations : IngressAnnotations) (autoTag : Option String) : List String :=
  (Std.ExtTreeSet.ofList (annotations.managedKeyTags ++ autoTag.toList)).toList

/-- The Ingress controller of the deployment provisions the proxy of the Ingress against the
    instance, with a tag for its access grants. -/
structure Assigns (ctx : Context) (inst : HeadscaleInstance) (ing : Ingress)
    (annotations : IngressAnnotations) (tag : String) : Prop where
  adopted : Adopted read ctx inst ing
  parsed : IngressAnnotations.parse read ing.metadata = .ok annotations
  autoTag : autoTagFor digest ing annotations = some tag

/-! ## Declared tags -/

/-- A tag is declared in a policy text, owned by the tag of the operator. -/
def Declared (policyStr : PolicyText) (tag : String) : Prop :=
  ∃ e, PolicyEditor.parse policyStr = .ok e ∧ Owned e tag

/-- The groups in the policy that a sync computes. With SCIM those of the live policy take the
    place of those of the instance, if it parses. -/
def groupsAtSync (scimEnabled : Bool) (live : PolicyText) (editor : PolicyEditor) : Option Json :=
  match scimEnabled, PolicyEditor.parse live with
  | true, .ok current =>
    ((Props.remove "groups" editor.objectValueOrSet).lookup "groups").or current.groups
  | _, _ => editor.groups

/-- An access grant of the Ingress waits for no group. -/
def Admitted (knownGroups : List String) (ing : Ingress) : Prop :=
  ∃ grant ∈ accessOf read ing, missingGroups knownGroups grant = []

variable {read digest} {scimEnabled : Bool} {ingresses : List Ingress} {live inline : PolicyText}
  {editor : PolicyEditor} {tag : String} {ing : Ingress} {annotations : IngressAnnotations}
  {ctx : Context} {inst : HeadscaleInstance}

theorem Assigns.eq_autoTag (h : Assigns read digest ctx inst ing annotations tag) :
    tag = ing.autoTag digest := by
  have htag := h.autoTag
  rw [autoTagFor] at htag
  split at htag
  · exact (Option.some.inj htag).symm
  · cases htag

theorem Assigns.mem_aclTags (h : Assigns read digest ctx inst ing annotations tag) :
    tag ∈ aclTags annotations (autoTagFor digest ing annotations) := by
  rw [aclTags, h.autoTag]
  exact List.mem_append_right _ (List.mem_singleton_self tag)

theorem Assigns.mem_desiredTags (h : Assigns read digest ctx inst ing annotations tag) :
    tag ∈ desiredTags annotations (autoTagFor digest ing annotations) := by
  rw [desiredTags, Std.ExtTreeSet.mem_toList, Std.ExtTreeSet.mem_ofList, h.autoTag]
  exact List.contains_iff_mem.2 (List.mem_append_right _ (List.mem_singleton_self tag))

/-- A policy before the merge: the groups of the sync, and the tags of the instance. -/
theorem exists_policyBeforeGrants (scimEnabled : Bool) (live : PolicyText)
    (editor : PolicyEditor) : ∃ e : PolicyEditor,
      PolicyEditor.parse (policyBeforeGrants scimEnabled live editor) = .ok e ∧
      e.groups = groupsAtSync scimEnabled live editor ∧
      ∀ tag, tag ≠ headmasterTag → e.tagOwner tag = editor.tagOwner tag := by
  have hset (e : PolicyEditor) : PolicyEditor.parse (e.setTagOwner headmasterTag []).toText =
      .ok (e.setTagOwner headmasterTag []) := (PolicyEditor.isObject_setTagOwner _ _).parse_toText
  have hown : ∃ e : PolicyEditor,
      PolicyEditor.parse (editor.setTagOwner headmasterTag []).toText = .ok e ∧
      e.groups = editor.groups ∧ ∀ tag, tag ≠ headmasterTag → e.tagOwner tag = editor.tagOwner tag :=
    ⟨_, hset editor, PolicyEditor.groups_setTagOwner _ _,
      fun _ htag => PolicyEditor.tagOwner_setTagOwner_of_ne _ _ htag⟩
  rw [policyBeforeGrants, groupsAtSync.eq_def]
  -- the groups are copied only where SCIM is on and the live policy can be read
  cases scimEnabled with
  | false => exact hown
  | true =>
    cases PolicyEditor.parse live with
    | error _ => exact hown
    | ok current =>
      refine ⟨_, hset (editor.copyGroupsFrom current), ?_, fun tag htag => ?_⟩
      · rw [PolicyEditor.groups_setTagOwner, PolicyEditor.groups,
          PolicyEditor.objectValueOrSet_copyGroupsFrom, List.lookup_append]
        dsimp only
        cases current.groups <;> simp
      · rw [PolicyEditor.tagOwner_setTagOwner_of_ne _ _ htag, PolicyEditor.tagOwner_copyGroupsFrom]

theorem autoTag_ne_headmasterTag (ing : Ingress) : ing.autoTag digest ≠ headmasterTag := by
  intro h
  have hchars := congrArg String.toList h
  rw [Ingress.autoTag, ingressAutoTag, String.toList_append] at hchars
  cases hchars

/-- Appending grants declares their tags and no others. -/
theorem owned_appendIngressGrants_iff {e : PolicyEditor} {grants : List (Json × String)} :
    Owned (grants.foldl appendIngressGrant e) tag ↔
      Owned e tag ∨ ∃ grant ∈ grants, grant.2 = tag := by
  constructor
  · intro h
    by_cases hgrant : ∃ grant ∈ grants, grant.2 = tag
    · exact .inr hgrant
    · rw [Owned, tagOwner_appendIngressGrants fun grant hmem htag => hgrant ⟨grant, hmem, htag⟩] at h
      exact .inl h
  · rintro (h | ⟨grant, hmem, rfl⟩)
    · exact (keepsOwners_appendIngressGrants e grants).owned h
    · exact owned_appendIngressGrants e hmem

theorem exists_ingressGrant_iff {knownGroups : List String} :
    (∃ grant ∈ ingressGrants read digest knownGroups ingresses, grant.2 = tag) ↔
      ∃ ing ∈ ingresses, ing.autoTag digest = tag ∧ Admitted read knownGroups ing := by
  simp only [mem_ingressGrants]
  constructor
  · rintro ⟨grant, ⟨ing, hing, hmem⟩, rfl⟩
    rw [grantsOf] at hmem
    split at hmem
    · cases hmem
    · rename_i a ha
      obtain ⟨access, haccess, rfl⟩ := List.mem_map.1 hmem
      obtain ⟨hmem, hempty⟩ := List.mem_filter.1 haccess
      refine ⟨ing, hing, rfl, access, ?_, List.isEmpty_iff.1 hempty⟩
      rwa [accessOf, ha]
  · rintro ⟨ing, hing, rfl, access, haccess, hmissing⟩
    refine ⟨(grantValue (ing.autoTag digest) access, ing.autoTag digest), ⟨ing, hing, ?_⟩, rfl⟩
    rw [accessOf] at haccess
    rw [grantsOf]
    split at haccess
    · rename_i a ha
      rw [ha]
      exact List.mem_map.2 ⟨access, List.mem_filter.2 ⟨haccess, List.isEmpty_iff.2 hmissing⟩, rfl⟩
    · cases haccess

/-- What a sync declares for an Ingress: what the instance does, and the tags of the Ingresses
    with an access grant that waits for no group. -/
theorem declared_effectiveDesired_iff (scimEnabled : Bool) (live : PolicyText)
    (editor : PolicyEditor) (ing : Ingress) :
    Declared (effectiveDesired read digest scimEnabled ingresses live editor) (ing.autoTag digest) ↔
      Owned editor (ing.autoTag digest) ∨
      ∃ other ∈ ingresses, other.autoTag digest = ing.autoTag digest ∧
        Admitted read (namesOf (groupsAtSync scimEnabled live editor)) other := by
  obtain ⟨e, hparse, hgroups, howners⟩ := exists_policyBeforeGrants scimEnabled live editor
  have hknown : e.knownGroups = namesOf (groupsAtSync scimEnabled live editor) := by
    rw [PolicyEditor.knownGroups_eq, hgroups, namesOf]
  have howned : Owned e (ing.autoTag digest) ↔ Owned editor (ing.autoTag digest) := by
    rw [Owned, howners _ (autoTag_ne_headmasterTag ing), ← Owned]
  rw [effectiveDesired, Declared, parse_withIngressGrants hparse, hknown]
  simp only [Except.ok.injEq, exists_eq_left']
  rw [owned_appendIngressGrants_iff, howned, exists_ingressGrant_iff]

/-- The tag that the Ingress controller assigns for the access grants of an Ingress, in the pre-auth
    key and by `SetTags`, is declared in the policy that a sync computes for the instance, from a
    list with the Ingress, exactly when an access grant of the Ingress waits for no group, or the
    policy of the instance declares the tag, or another Ingress of the list that has the same tag
    has an access grant that waits for no group. -/
theorem assignedTag_declared_iff (scimEnabled : Bool) (live : PolicyText)
    (h : Assigns read digest ctx inst ing annotations tag) (hmem : ing ∈ ingresses)
    (hparse : PolicyEditor.parse inline = .ok editor) :
    tag ∈ aclTags annotations (autoTagFor digest ing annotations) ∧
    tag ∈ desiredTags annotations (autoTagFor digest ing annotations) ∧
    (Declared (effectiveDesired read digest scimEnabled ingresses live editor) tag ↔
      Admitted read (namesOf (groupsAtSync scimEnabled live editor)) ing ∨
      Declared inline tag ∨
      ∃ other ∈ ingresses, other ≠ ing ∧ other.autoTag digest = tag ∧
        Admitted read (namesOf (groupsAtSync scimEnabled live editor)) other) := by
  refine ⟨h.mem_aclTags, h.mem_desiredTags, ?_⟩
  -- the inline policy parses, so a tag it declares is one the editor owns
  have hdeclared : Declared inline tag ↔ Owned editor tag := by
    rw [Declared, hparse]
    simp only [Except.ok.injEq, exists_eq_left']
  obtain rfl := h.eq_autoTag
  rw [declared_effectiveDesired_iff, hdeclared]
  constructor
  · rintro (howned | ⟨other, hother, htag, hadmitted⟩)
    · exact .inr (.inl howned)
    · by_cases hsame : other = ing
      · exact .inl (hsame ▸ hadmitted)
      · exact .inr (.inr ⟨other, hother, hsame, htag, hadmitted⟩)
  · rintro (hadmitted | howned | ⟨other, hother, _, htag, hadmitted⟩)
    · exact .inr ⟨ing, hmem, rfl, hadmitted⟩
    · exact .inl howned
    · exact .inr ⟨other, hother, htag, hadmitted⟩

/-- The Ingress is provisioned against the instance `main`, with a tag for its access grants. -/
theorem exists_assigns (h : (!ing.metadata.deleting && ing.hasClass && isOurs read ctx ing.metadata &&
      match IngressAnnotations.parse read ing.metadata with
      | .ok a => a.headscaleRef == "main" && !a.serviceOnly && !a.emptyFrom && !a.access.isEmpty
      | .error _ => false) = true) :
    ∃ a, Assigns read digest ctx ⟨"main", ["*"]⟩ ing a (ing.autoTag digest) := by
  cases hparse : IngressAnnotations.parse read ing.metadata with
  | error e =>
    rw [hparse, Bool.and_false] at h
    cases h
  | ok a =>
    rw [hparse] at h
    simp only [Bool.and_eq_true, Bool.not_eq_true', beq_iff_eq] at h
    obtain ⟨⟨⟨halive, hclass⟩, hours⟩, ⟨⟨href, hservice⟩, hfrom⟩, haccess⟩ := h
    refine ⟨a, ⟨halive, hclass, hours, rfl, a, hparse, href, hservice, hfrom⟩, hparse, ?_⟩
    rw [autoTagFor, haccess]
    rfl

/-- While the group of its access grant is not there, the tag of the Ingress is assigned, and the
    policy does not declare it. -/
theorem not_declared_of_waiting : ∃ a,
    Assigns Convergence.reader Contribution.sha256 ⟨"headmaster", true⟩ ⟨"main", ["*"]⟩
        Convergence.app a (Convergence.app.autoTag Contribution.sha256) ∧
      ¬Declared (effectiveDesired Convergence.reader Contribution.sha256 true [Convergence.app]
        (.blank "") (.value (.object []))) (Convergence.app.autoTag Contribution.sha256) := by
  obtain ⟨a, ha⟩ : ∃ a, Assigns Convergence.reader Contribution.sha256 ⟨"headmaster", true⟩
      ⟨"main", ["*"]⟩ Convergence.app a (Convergence.app.autoTag Contribution.sha256) :=
    exists_assigns (by decide +kernel)
  refine ⟨a, ha, ?_⟩
  rintro ⟨e, he, owners, howners, _⟩
  have hnone : ((PolicyEditor.parse (effectiveDesired Convergence.reader Contribution.sha256
      true [Convergence.app] (.blank "") (.value (.object [])))).toOption.any fun e =>
        (e.tagOwner (Convergence.app.autoTag Contribution.sha256)).isNone) = true := by
    decide +kernel
  rw [he] at hnone
  change (e.tagOwner _).isNone = true at hnone
  rw [howners] at hnone
  cases hnone

/-- The access grant of the Ingress is for everyone, and its tag is declared. -/
theorem assignedTag_declared_everyone : ∃ a,
    Assigns Contribution.reader Contribution.sha256 ⟨"staging", true⟩ ⟨"main", ["*"]⟩
      Contribution.app a (Contribution.app.autoTag Contribution.sha256) ∧
    Declared (effectiveDesired Contribution.reader Contribution.sha256 true [Contribution.app]
      (.blank "") (.value (.object []))) (Contribution.app.autoTag Contribution.sha256) := by
  obtain ⟨a, ha⟩ : ∃ a, Assigns Contribution.reader Contribution.sha256 ⟨"staging", true⟩
      ⟨"main", ["*"]⟩ Contribution.app a (Contribution.app.autoTag Contribution.sha256) :=
    exists_assigns (by decide +kernel)
  have hparse : PolicyEditor.parse (.document (.object [])) = .ok (.value (.object [])) := rfl
  have hadmitted : ((accessOf Contribution.reader Contribution.app).any fun grant =>
      (missingGroups [] grant).isEmpty) = true := by decide +kernel
  obtain ⟨grant, hgrant, hempty⟩ := List.any_eq_true.1 hadmitted
  refine ⟨a, ha, ((assignedTag_declared_iff true (.blank "") ha (List.mem_singleton_self _)
    hparse).2.2).2 (.inl ⟨grant, hgrant, List.isEmpty_iff.1 hempty⟩)⟩

end Headmaster.Operator
