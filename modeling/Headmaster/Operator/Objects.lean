import Mathlib.Data.List.Sort
import Headmaster.Operator.Annotations

/-!
# The objects of the operator

Ingresses and HeadscaleInstances, as far as the controllers read them, the
checks the controllers make on them before anything else
(`src/operator/src/controllers/ingress/reconcile.rs`,
`src/operator/src/types/headscale_instance.rs`), and the names of what the
operator creates for them (`src/operator/src/controllers/proxy/names.rs`).
-/

namespace Headmaster.Operator

/-- How a call to the API server fails. -/
inductive KubeError
  /-- The answer is 404. -/
  | notFound
  | other
  deriving DecidableEq

/-- The deployment of the operator. -/
structure Context where
  operatorNamespace : String
  /-- The deployment claims the objects that name no deployment. -/
  claimDefault : Bool

/-! ## The order of objects -/

namespace ObjectMeta

/-- What tells objects of one kind apart. -/
def key (m : ObjectMeta) : String × String := (m.ns, m.name)

/-- By namespace, and by name within one. -/
def le (a b : ObjectMeta) : Prop := a.ns < b.ns ∨ a.ns = b.ns ∧ a.name ≤ b.name

def lt (a b : ObjectMeta) : Prop := a.ns < b.ns ∨ a.ns = b.ns ∧ a.name < b.name

instance : DecidableRel le := fun a b =>
  inferInstanceAs (Decidable (a.ns < b.ns ∨ a.ns = b.ns ∧ a.name ≤ b.name))

theorem le_total (a b : ObjectMeta) : a.le b ∨ b.le a := by
  by_cases hns : a.ns = b.ns
  · exact (String.le_total a.name b.name).imp (fun hn => .inr ⟨hns, hn⟩)
      fun hn => .inr ⟨hns.symm, hn⟩
  · rcases String.le_total a.ns b.ns with h | h
    · exact .inl (.inl (String.not_le.1 fun h' => hns (String.le_antisymm h h')))
    · exact .inr (.inl (String.not_le.1 fun h' => hns (String.le_antisymm h' h)))

theorem le_trans {a b c : ObjectMeta} (hab : a.le b) (hbc : b.le c) : a.le c := by
  rcases hab with hab | ⟨hab, hn⟩ <;> rcases hbc with hbc | ⟨hbc, hn'⟩
  · exact .inl (String.lt_trans hab hbc)
  · exact .inl (hbc ▸ hab)
  · exact .inl (hab ▸ hbc)
  · exact .inr ⟨hab.trans hbc, String.le_trans hn hn'⟩

theorem lt_of_le {a b : ObjectMeta} (h : a.le b) (hne : a.key ≠ b.key) : a.lt b := by
  refine h.imp_right fun ⟨hns, hn⟩ => ⟨hns, String.not_le.1 fun hn' => hne ?_⟩
  exact Prod.ext hns (String.le_antisymm hn hn')

theorem le.not_lt {a b : ObjectMeta} (h : a.le b) : ¬b.lt a := by
  rintro (h' | ⟨hns, h'⟩) <;> rcases h with h | ⟨hns', h⟩
  · exact String.lt_asymm h h'
  · exact String.lt_irrefl _ (hns' ▸ h')
  · exact String.lt_irrefl _ (hns ▸ h)
  · exact String.not_le.2 h' h

theorem lt.le {a b : ObjectMeta} (h : a.lt b) : a.le b := h.imp_right fun ⟨hns, hn⟩ =>
  ⟨hns, String.not_lt.1 fun hn' => String.lt_asymm hn hn'⟩

theorem lt.not_lt {a b : ObjectMeta} (h : a.lt b) : ¬b.lt a := h.le.not_lt

section Sorted

variable {α : Type} (f : α → ObjectMeta)

/-- Objects in their order, by what `f` has of them. -/
def sortBy (xs : List α) : List α := xs.insertionSort fun a b => (f a).le (f b)

variable {f} {xs ys : List α}

theorem perm_sortBy (xs : List α) : (sortBy f xs).Perm xs := List.perm_insertionSort _ _

theorem pairwise_le_sortBy (xs : List α) : (sortBy f xs).Pairwise fun a b => (f a).le (f b) :=
  have : Std.Total fun a b => (f a).le (f b) := ⟨fun a b => le_total (f a) (f b)⟩
  have : IsTrans α fun a b => (f a).le (f b) := ⟨fun _ _ _ => le_trans⟩
  List.pairwise_insertionSort (fun a b => (f a).le (f b)) xs

theorem pairwise_sortBy (h : (xs.map fun x => (f x).key).Nodup) :
    (sortBy f xs).Pairwise fun a b => (f a).lt (f b) := by
  have hnodup : ((sortBy f xs).map fun x => (f x).key).Nodup :=
    ((perm_sortBy xs).map _).nodup_iff.2 h
  exact (pairwise_le_sortBy xs).imp₂ (fun _ _ => lt_of_le) (List.pairwise_map.1 hnodup)

/-- Nothing that has a property comes before the first that has it. -/
theorem not_lt_of_find?_sortBy {p : α → Bool} {a b : α} (h : (sortBy f xs).find? p = some a)
    (hb : b ∈ sortBy f xs) (hp : p b = true) : ¬(f b).lt (f a) := by
  obtain ⟨_, before, after, heq, hbefore⟩ := List.find?_eq_some_iff_append.1 h
  have hsorted : (before ++ a :: after).Pairwise fun a b => (f a).le (f b) :=
    heq ▸ pairwise_le_sortBy xs
  rw [heq] at hb
  rcases List.mem_append.1 hb with hb | hb
  · have hnot := hbefore b hb
    rw [hp] at hnot
    cases hnot
  · rcases List.mem_cons.1 hb with rfl | hb
    · exact fun hlt => hlt.not_lt hlt
    · exact ((List.pairwise_cons.1 (List.pairwise_append.1 hsorted).2.1).1 b hb).not_lt

/-- Objects that differ in namespace or name are sorted into one list, however they are listed. -/
theorem sortBy_eq_of_perm (h : (xs.map fun x => (f x).key).Nodup) (hperm : ys.Perm xs) :
    sortBy f ys = sortBy f xs := by
  refine List.Perm.eq_of_pairwise (fun _ _ _ _ hab hba => absurd hba hab.not_lt)
    (pairwise_sortBy ((hperm.map _).nodup_iff.2 h)) (pairwise_sortBy h) ?_
  exact ((perm_sortBy ys).trans hperm).trans (perm_sortBy xs).symm

/-- In order, the first object with a property is the least one. -/
theorem find?_eq_some_iff_of_pairwise {p : α → Bool} {a : α}
    (h : xs.Pairwise fun a b => (f a).lt (f b)) :
    xs.find? p = some a ↔ a ∈ xs ∧ p a = true ∧ ∀ b ∈ xs, p b = true → ¬(f b).lt (f a) := by
  -- along the list: the head is least, and `find?` stops at the first hit
  induction h with
  | nil => simp
  | @cons x xs hx _ ih =>
    rw [List.find?_cons]
    match hp : p x with
    | true =>
      constructor
      · rintro ⟨⟩
        refine ⟨List.mem_cons_self, hp, fun b hb _ hlt => ?_⟩
        rcases List.mem_cons.1 hb with rfl | hb
        · exact hlt.not_lt hlt
        · exact hlt.not_lt (hx b hb)
      · rintro ⟨ha, _, hleast⟩
        rcases List.mem_cons.1 ha with rfl | ha
        · rfl
        · exact absurd (hx a ha) (hleast x List.mem_cons_self hp)
    | false =>
      rw [ih]
      constructor
      · rintro ⟨ha, hpa, hleast⟩
        refine ⟨List.mem_cons_of_mem _ ha, hpa, fun b hb hpb => ?_⟩
        rcases List.mem_cons.1 hb with rfl | hb
        · rw [hp] at hpb
          cases hpb
        · exact hleast b hb hpb
      · rintro ⟨ha, hpa, hleast⟩
        rcases List.mem_cons.1 ha with rfl | ha
        · rw [hp] at hpa
          cases hpa
        · exact ⟨ha, hpa, fun b hb => hleast b (List.mem_cons_of_mem _ hb)⟩

end Sorted

end ObjectMeta

/-! ## Ingresses -/

def ingressClassName : String := "headmaster"

structure Ingress where
  metadata : ObjectMeta
  /-- `spec.ingressClassName`. -/
  className : Option String := none

namespace Ingress

variable (ing : Ingress)

def ns : String := ing.metadata.ns

/-- The class, from the spec or else from the annotation that came before it. -/
def class? : Option String :=
  ing.className.or (ing.metadata.annotations.lookup "kubernetes.io/ingress.class")

def hasClass : Bool := ing.class? == some ingressClassName

end Ingress

/-- The sharding check: the object names this deployment, or names none and the
    deployment claims such objects. -/
def isOurs (read : Reader) (ctx : Context) (obj : ObjectMeta) : Bool :=
  match IngressAnnotations.headscaleNamespaceOf read obj with
  | some n => n == ctx.operatorNamespace
  | none => ctx.claimDefault

namespace IngressAnnotations

/-- What is for egress Services is set. -/
def serviceOnly (a : IngressAnnotations) : Bool := a.tailnetFqdn.isSome || !a.consumers.isEmpty

def emptyFrom (a : IngressAnnotations) : Bool := a.access.any fun grant => grant.principals.isEmpty

end IngressAnnotations

/-! ## Instances -/

structure HeadscaleInstance where
  name : String
  watchedNamespaces : List String := ["*"]

def HeadscaleInstance.namespaceAllowed (inst : HeadscaleInstance) (ns : String) : Bool :=
  inst.watchedNamespaces.any fun w => w == "*" || w == ns

/-! ## Names -/

/-- The first characters, as many as take up to `n` bytes together. -/
def floorCharBoundary : Nat → List Char → List Char
  | _, [] => []
  | n, c :: cs => if c.utf8Size ≤ n then c :: floorCharBoundary (n - c.utf8Size) cs else []

/-- The hexadecimal digits of the SHA-256 of a text. -/
abbrev Digest := String → String

structure ProxyNames where
  proxyBase : String
  proxyName : String
  wgServiceName : String
  configSecretName : String
  stateSecretName : String
  serveConfigmapName : String
  deriving DecidableEq

namespace ProxyNames

variable (digest : Digest)

def fromParts (hashInput display : String) : ProxyNames :=
  let hash := String.ofList ((digest hashInput).toList.take 8)
  let pre := String.ofList (floorCharBoundary 40 display.toList)
  let proxyBase := pre ++ "-" ++ hash
  { proxyBase
    proxyName := "proxy-" ++ proxyBase
    wgServiceName := "proxy-wg-" ++ proxyBase
    configSecretName := "proxy-authkey-" ++ proxyBase
    stateSecretName := "proxy-state-" ++ proxyBase
    serveConfigmapName := "proxy-serve-" ++ proxyBase }

/-- The names for an Ingress. -/
def new (ingressNs ingressName : String) : ProxyNames :=
  fromParts digest (ingressNs ++ "\x00" ++ ingressName) (ingressNs ++ "-" ++ ingressName)

def forService (svcNs svcName : String) : ProxyNames :=
  fromParts digest ("svc\x00" ++ svcNs ++ "\x00" ++ svcName) ("svc-" ++ svcNs ++ "-" ++ svcName)

end ProxyNames

/-- The tag of an Ingress with access grants. -/
def ingressAutoTag (digest : Digest) (ingressNs ingressName : String) : String :=
  "tag:hm-" ++ (ProxyNames.new digest ingressNs ingressName).proxyBase

end Headmaster.Operator
