import Headmaster.Operator.Objects
import Headmaster.Policy.Editor

/-!
# The access grants of Ingresses

The operator appends grants to the policy of an instance, one for each access
grant of the Ingresses that reference the instance and whose groups are there
(`list_contributing_ingresses` and `merge_ingress_grants` in
`src/operator/src/controllers/headscale_instance/`).

* `mem_ingressGrants`: each grant comes from an Ingress of the list;
* `contributors_adopted_iff`: the Ingresses whose grants are merged are ones
  the Ingress controller of the deployment adopts (`Adopted`) exactly when all
  that may contribute comply (`Complies`): which of them it adopts is not looked
  at where the grants are merged, beyond their class, reference and namespace.
-/

namespace Headmaster.Operator

open Policy (PolicyText PolicyEditor toValue)

variable (read : Reader) (digest : Digest)

/-! ## Contributing Ingresses -/

/-- All Ingresses that reference an instance, from the namespaces it watches. -/
def listContributingIngresses (instanceName : String) (watchedNamespaces : List String)
    (all : List Ingress) : List Ingress :=
  all
    |>.filter Ingress.hasClass
    |>.filter (fun ing => IngressAnnotations.headscaleRefOf read ing.metadata == some instanceName)
    |>.filter fun ing => watchedNamespaces.any fun w => w == "*" || w == ing.ns

variable {read} in
theorem mem_listContributingIngresses {inst : HeadscaleInstance} {all : List Ingress}
    {ing : Ingress} :
    ing ∈ listContributingIngresses read inst.name inst.watchedNamespaces all ↔
      ing ∈ all ∧ ing.hasClass = true ∧
        IngressAnnotations.headscaleRefOf read ing.metadata = some inst.name ∧
        inst.namespaceAllowed ing.ns = true := by
  rw [listContributingIngresses, List.mem_filter, List.mem_filter, List.mem_filter, beq_iff_eq,
    and_assoc, and_assoc]
  rfl

/-! ## Merging their grants -/

def headmasterTag : String := "tag:headmaster"

/-- The groups a grant is for that are not known. -/
def missingGroups (knownGroups : List String) (grant : IngressAccessGrant) : List String :=
  grant.principals.filter fun s => "group:".toList.isPrefixOf s.toList && s ∉ knownGroups

/-- The grant to the proxy of an Ingress, as it stands in a policy. -/
def grantValue (autoTag : String) (grant : IngressAccessGrant) : Json :=
  .object [
    ("src", .array (grant.principals.map .string)),
    ("dst", .array [.string autoTag]),
    match grant.capabilities with
    | some caps =>
      ("app", .object (caps.toList.map fun (name, args) => (name, .array (args.map toValue))))
    | none => ("ip", .array [.string "*:*"])]

/-- The grants of an Ingress, each with the tag of its proxy. A grant for a group that
    is not known is left for later; a configuration that does not parse has none. -/
def grantsOf (knownGroups : List String) (ing : Ingress) : List (Json × String) :=
  match IngressAnnotations.parse read ing.metadata with
  | .error _ => []
  | .ok annotations =>
    let autoTag := ingressAutoTag digest ing.ns ing.metadata.name
    annotations.access
      |>.filter (fun grant => (missingGroups knownGroups grant).isEmpty)
      |>.map fun grant => (grantValue autoTag grant, autoTag)

/-- The order of the Ingresses: by namespace, and by name within one. -/
def Ingress.le (a b : Ingress) : Prop :=
  a.ns < b.ns ∨ a.ns = b.ns ∧ a.metadata.name ≤ b.metadata.name

instance : DecidableRel Ingress.le := fun a b =>
  inferInstanceAs (Decidable (a.ns < b.ns ∨ a.ns = b.ns ∧ a.metadata.name ≤ b.metadata.name))

def ingressGrants (knownGroups : List String) (ingresses : List Ingress) : List (Json × String) :=
  (ingresses.insertionSort Ingress.le).flatMap (grantsOf read digest knownGroups)

/-- The names under `groups` in a policy text. -/
def knownGroupsOf (policyStr : PolicyText) : List String :=
  match PolicyEditor.parse policyStr with
  | .ok editor => editor.knownGroups
  | .error _ => []

def appendIngressGrant (editor : PolicyEditor) (grant : Json × String) : PolicyEditor :=
  (editor.setTagOwner grant.2 [headmasterTag]).appendGrants [grant.1]

/-- For each grant of an Ingress that is left for later, the groups that it waits for. -/
def waitingGrantsOf (knownGroups : List String) (ing : Ingress) : List (Ingress × List String) :=
  match IngressAnnotations.parse read ing.metadata with
  | .error _ => []
  | .ok annotations =>
    annotations.access
      |>.map (missingGroups knownGroups)
      |>.filter (fun missing => !missing.isEmpty)
      |>.map fun missing => (ing, missing)

def waitingGrants (knownGroups : List String) (ingresses : List Ingress) :
    List (Ingress × List String) :=
  (ingresses.insertionSort Ingress.le).flatMap (waitingGrantsOf read knownGroups)

/-- What the Ingress is told while a grant waits. -/
def waitingNote (missingGroups : List String) : String :=
  "access grant references groups not yet synced: " ++ ", ".intercalate missingGroups ++
    "; the grant will be applied once these groups are available"

/-- A policy text with the grants of the Ingresses. -/
def withIngressGrants (policyStr : PolicyText) (ingresses : List Ingress) : PolicyText :=
  let grants := ingressGrants read digest (knownGroupsOf policyStr) ingresses
  if grants.isEmpty then policyStr
  else
    match PolicyEditor.parse policyStr with
    | .error _ => policyStr
    | .ok editor => (grants.foldl appendIngressGrant editor).toText

section Merging

variable {read digest} {knownGroups : List String}

theorem mem_ingressGrants {grant : Json × String} {ingresses : List Ingress} :
    grant ∈ ingressGrants read digest knownGroups ingresses ↔
      ∃ ing ∈ ingresses, grant ∈ grantsOf read digest knownGroups ing := by
  simp only [ingressGrants, List.mem_flatMap, List.mem_insertionSort]

/-- An Ingress has grants to merge exactly when its configuration parses and has one
    whose groups are all known. -/
theorem grantsOf_ne_nil_iff {ing : Ingress} : grantsOf read digest knownGroups ing ≠ [] ↔
    ∃ a, IngressAnnotations.parse read ing.metadata = .ok a ∧
      ∃ grant ∈ a.access, missingGroups knownGroups grant = [] := by
  rw [grantsOf]
  split
  · rename_i e he
    simp [he]
  · rename_i a ha
    simp [ha]

end Merging

/-! ## Who contributes, and who is adopted -/

variable (ctx : Context) (inst : HeadscaleInstance)

/-- The grants of an Ingress are merged into the policy `before`, that of an instance. -/
structure Merged (before : PolicyText) (all : List Ingress) (ing : Ingress) : Prop where
  contributes : ing ∈ listContributingIngresses read inst.name inst.watchedNamespaces all
  grants : grantsOf read digest (knownGroupsOf before) ing ≠ []

/-- The Ingress controller of the deployment adopts the Ingress and provisions its proxy
    against the instance. -/
structure Adopted (ing : Ingress) : Prop where
  alive : ing.metadata.deleting = false
  hasClass : ing.hasClass = true
  ours : isOurs read ctx ing.metadata = true
  allowed : inst.namespaceAllowed ing.ns = true
  accepted : ∃ a, IngressAnnotations.parse read ing.metadata = .ok a ∧ a.headscaleRef = inst.name ∧
    a.serviceOnly = false ∧ a.emptyFrom = false

/-- What is not looked at where the grants are merged. -/
structure Complies (ing : Ingress) : Prop where
  alive : ing.metadata.deleting = false
  ours : isOurs read ctx ing.metadata = true
  accepted : ∀ a, IngressAnnotations.parse read ing.metadata = .ok a →
    a.serviceOnly = false ∧ a.emptyFrom = false

variable {read digest ctx inst} {ing : Ingress} {before : PolicyText} {all : List Ingress}

theorem Adopted.complies (h : Adopted read ctx inst ing) : Complies read ctx ing := by
  refine ⟨h.alive, h.ours, fun a ha => ?_⟩
  obtain ⟨a', ha', _, haccepted⟩ := h.accepted
  obtain rfl : a' = a := Except.ok.inj (ha'.symm.trans ha)
  exact haccepted

/-- The class, the reference and the namespace are looked at. -/
theorem Merged.adopted (h : Merged read digest inst before all ing)
    (hcomplies : Complies read ctx ing) : Adopted read ctx inst ing := by
  obtain ⟨_, hclass, href, hallowed⟩ := mem_listContributingIngresses.1 h.contributes
  obtain ⟨a, ha, _⟩ := grantsOf_ne_nil_iff.1 h.grants
  -- the reference is read without the rest, and the whole configuration parses
  have hsame := IngressAnnotations.headscaleRef_eq_of_parse ha href
  exact ⟨hcomplies.alive, hclass, hcomplies.ours, hallowed, a, ha, hsame, hcomplies.accepted a ha⟩

/-- Of any set of Ingresses, those whose grants are merged into the policy of an instance
    are adopted against it exactly when all of its class that reference the instance from
    a namespace it allows, with an access grant whose groups are known, comply. -/
theorem contributors_adopted_iff (read : Reader) (digest : Digest) (ctx : Context)
    (inst : HeadscaleInstance) (before : PolicyText) (all : List Ingress) :
    (∀ ing, Merged read digest inst before all ing → Adopted read ctx inst ing) ↔
      ∀ ing ∈ all, ing.hasClass = true →
        IngressAnnotations.headscaleRefOf read ing.metadata = some inst.name →
        inst.namespaceAllowed ing.ns = true →
        (∃ a, IngressAnnotations.parse read ing.metadata = .ok a ∧
          ∃ grant ∈ a.access, missingGroups (knownGroupsOf before) grant = []) →
        Complies read ctx ing := by
  constructor
  · intro h ing hmem hclass href hallowed hgrant
    have hmerged : Merged read digest inst before all ing :=
      ⟨mem_listContributingIngresses.2 ⟨hmem, hclass, href, hallowed⟩, grantsOf_ne_nil_iff.2 hgrant⟩
    exact (h ing hmerged).complies
  · intro h ing hmerged
    obtain ⟨hmem, hclass, href, hallowed⟩ := mem_listContributingIngresses.1 hmerged.contributes
    exact hmerged.adopted (h ing hmem hclass href hallowed (grantsOf_ne_nil_iff.1 hmerged.grants))

namespace Contribution

/-! ### An Ingress of another deployment -/

def config : String :=
  "\x7b\"headscale-ref\":\"main\",\"headscale-namespace\":\"staging\",\"user\":\"alice\"," ++
    "\"access\":[\x7b\"from\":[\"*\"]\x7d]\x7d"

def reader : Reader := fun s =>
  if s = config then
    some (.object [("headscale-ref", .string "main"), ("headscale-namespace", .string "staging"),
      ("user", .string "alice"), ("access", .array [.object [("from", .array [.string "*"])]])])
  else none

/-- The digest for the names of the Ingress below. -/
def sha256 : Digest := fun _ => "956a9c22060f948c721f2de9975462b825c25956f5eb4577ba7f80745b51fc75"

/-- An Ingress for the deployment in the namespace `staging`. -/
def app : Ingress where
  metadata := {
    name := "app"
    namespaceName := some "default"
    annotations := [(annotationConfig, config)] }
  className := some ingressClassName

def policy : PolicyText :=
  .document (.object [("tagOwners", .object [(headmasterTag, .array [])])])

end Contribution

/-- The grants of an Ingress for another deployment are merged. -/
theorem not_adopted_of_other_deployment :
    Merged Contribution.reader Contribution.sha256 ⟨"main", ["*"]⟩ Contribution.policy
        [Contribution.app] Contribution.app ∧
      ¬Adopted Contribution.reader ⟨"headmaster", true⟩ ⟨"main", ["*"]⟩ Contribution.app := by
  have hgrants : (grantsOf Contribution.reader Contribution.sha256 [] Contribution.app).isEmpty =
      false := by decide +kernel
  refine ⟨⟨mem_listContributingIngresses.2 ⟨List.mem_singleton_self _, ?_, ?_, ?_⟩, ?_⟩, ?_⟩
  · decide +kernel
  · decide +kernel
  · decide +kernel
  · intro h
    rw [show knownGroupsOf Contribution.policy = [] from rfl] at h
    rw [h] at hgrants
    cases hgrants
  · intro h
    have hours := h.ours
    revert hours
    decide +kernel

end Headmaster.Operator
