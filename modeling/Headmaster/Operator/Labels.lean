import Headmaster.Operator.Instance.Calls
import Headmaster.Operator.Proxy.Names
import Headmaster.Operator.Proxy.Pods
import Headmaster.Operator.Proxy.Runs
import Headmaster.Operator.Proxy.Walk

/-!
# What the labels are for

The children of a proxy are in the namespace of the operator, where nothing but
their labels ties them to their pods, and to the object that the proxy is for.

* *Back to the object*: an event on a Secret or a StatefulSet makes the
  controllers reconcile the object that its labels name (`wakes`). Whatever
  labels the instance adds, that is the one the child is for (`wakes_of_applied`).
* *To the pods*: a Service, or a policy, is about the pods with the labels that
  it selects (`Selects`). They are those of the StatefulSet that it governs, or is
  called as, and of no other proxy and no instance (`selects_of_applied`).
-/

namespace Headmaster.Operator

/-! ## Components -/

/-- The pods that have all labels of a selector. -/
def Selects (selector pod : List (String × String)) : Prop :=
  ∀ key value, (key, value) ∈ selector → pod.lookup key = some value

/-- What the operator runs. -/
inductive Component
  | headscale
  | scim
  | proxy
  deriving DecidableEq

namespace Component

variable (c : Component) (inst : String)

def label : Component → String
  | headscale => "headscale"
  | scim => "scim"
  | proxy => Proxy.proxyComponent

/-- What the name of its Service begins with. -/
def servicePrefix : Component → String
  | headscale => "headscale-server-"
  | scim => "headscale-scim-"
  | proxy => "proxy-wg-"

/-- What the name of its StatefulSet begins with. -/
def setPrefix : Component → String
  | headscale => "headscale-server-"
  | scim => "headscale-scim-"
  | proxy => "proxy-"

def selectorLabels : List (String × String) :=
  [(Proxy.appName, c.label), (Proxy.appInstance, inst), (Proxy.appManagedBy, Proxy.managedByValue)]

variable {c inst} {c' : Component} {inst' : String}

theorem label_injective (h : c.label = c'.label) : c = c' := by
  cases c <;> cases c' <;> first | rfl | simp [label, Proxy.proxyComponent] at h

/-- Names that begin differently are told apart by that. -/
theorem eq_of_append {pre : Component → String}
    (hne : ∀ c c', c ≠ c' → ∃ i, i < (pre c).toList.length ∧ i < (pre c').toList.length ∧
      (pre c).toList[i]? ≠ (pre c').toList[i]?)
    (h : pre c ++ inst = pre c' ++ inst') : c = c' ∧ inst = inst' := by
  have hlist : (pre c).toList ++ inst.toList = (pre c').toList ++ inst'.toList := by
    rw [← String.toList_append, h, String.toList_append]
  by_cases hc : c = c'
  · subst hc
    exact ⟨rfl, String.toList_inj.1 (List.append_cancel_left hlist)⟩
  · obtain ⟨i, hi, hi', hdiff⟩ := hne c c' hc
    refine absurd ?_ hdiff
    rw [← List.getElem?_append_left hi, hlist, List.getElem?_append_left hi']

theorem eq_of_servicePrefix (h : c.servicePrefix ++ inst = c'.servicePrefix ++ inst') :
    c = c' ∧ inst = inst' := by
  refine eq_of_append (fun c c' hc => ?_) h
  cases c <;> cases c' <;> first | exact absurd rfl hc | exact ⟨0, by decide⟩ | exact ⟨11, by decide⟩

theorem eq_of_setPrefix (h : c.setPrefix ++ inst = c'.setPrefix ++ inst') :
    c = c' ∧ inst = inst' := by
  refine eq_of_append (fun c c' hc => ?_) h
  cases c <;> cases c' <;> first | exact absurd rfl hc | exact ⟨0, by decide⟩ | exact ⟨11, by decide⟩

theorem selects_selectorLabels : Selects (c.selectorLabels inst) (c.selectorLabels inst) := by
  intro key value h
  simp only [selectorLabels, List.mem_cons, Prod.mk.injEq, List.not_mem_nil, or_false] at h
  rcases h with ⟨rfl, rfl⟩ | ⟨rfl, rfl⟩ | ⟨rfl, rfl⟩ <;> rfl

/-- Pods have the labels of one component of one instance. -/
theorem eq_of_selects {selector pod : List (String × String)}
    (hname : (Proxy.appName, c.label) ∈ selector) (hinst : (Proxy.appInstance, inst) ∈ selector)
    (h : Selects selector pod) (hpod : Selects (c'.selectorLabels inst') pod) :
    c = c' ∧ inst = inst' := by
  have hname' := hpod Proxy.appName c'.label List.mem_cons_self
  have hinst' := hpod Proxy.appInstance inst' (List.mem_cons_of_mem _ List.mem_cons_self)
  refine ⟨label_injective ?_, ?_⟩
  · exact Option.some.inj ((h _ _ hname).symm.trans hname')
  · exact Option.some.inj ((h _ _ hinst).symm.trans hinst')

end Component

/-! ## What is applied -/

/-- A Service, or a policy: its name, and what it selects. -/
structure Front where
  name : String
  selector : List (String × String)
  deriving DecidableEq

/-- A StatefulSet: its name, its governing Service, and the labels of its pods. -/
structure Workload where
  name : String
  serviceName : String
  matchLabels : List (String × String)
  deriving DecidableEq

namespace Component

/-- The Service of a component. -/
def front (c : Component) (inst : String) : Front := ⟨c.servicePrefix ++ inst, c.selectorLabels inst⟩

def workload (c : Component) (inst : String) : Workload :=
  ⟨c.setPrefix ++ inst, c.servicePrefix ++ inst, c.selectorLabels inst⟩

end Component

namespace Proxy

open Process (Entry Machine Pool)
open Process.Prog (Uses uses_op)

/-- `apply_service` stamps the selector. -/
def ChildApplier.selectorLabels (child : ChildApplier) (component : String) :
    List (String × String) :=
  [(appName, component), (appInstance, child.proxyBase), (appManagedBy, managedByValue)]

/-- What the policy of a proxy selects. -/
def NetworkPolicy.podSelector (policy : NetworkPolicy) : List (String × String) :=
  [(appInstance, policy.selects), (appName, proxyComponent)]

namespace Op

/-- The Service that a request applies. -/
def service? : Op → Option Front
  | .apply child (.service name _) => some ⟨name, child.selectorLabels proxyComponent⟩
  | _ => none

def policy? : Op → Option Front
  | .apply _ (.networkPolicy policy) => some ⟨policy.name, policy.podSelector⟩
  | _ => none

/-- The StatefulSet that a request applies, for the proxy with those names. -/
def workload? (names : ProxyNames) : Op → Option Workload
  | .apply child (.statefulSet name spec) =>
    some ⟨name, (spec.build names).serviceName, child.selectorLabels proxyComponent⟩
  | _ => none

end Op

/-! ### By the controllers of proxies -/

/-- A resource has its name of those of the proxy. -/
def Child.Named (names : ProxyNames) : Child → Prop
  | .service name _ => name = names.wgServiceName
  | .statefulSet name _ => name = names.proxyName
  | .networkPolicy policy => policy.name = names.proxyName ∧ policy.selects = names.proxyBase
  | _ => True

/-- A resource is applied under a name of the proxy, and labelled with the object that it is for. -/
def Labelled (names : ProxyNames) (parent : ObjectReference) : Op → Prop
  | .apply child resource => resource.area = none ∨
      child.proxyBase = names.proxyBase ∧ child.parent = parent ∧ resource.Named names
  | _ => True

/-- The areas in which nothing is applied. -/
def Area.appliesNothing : Area → Bool
  | .secret _ | .service | .configMap | .policy | .statefulSet => false
  | _ => true

section Uses

variable {names : ProxyNames} {parent : ObjectReference} {child : ChildApplier} {α : Type}

theorem labelled_of_uses {p : M α} (hp : p.Uses (Within fun a => a.appliesNothing = true)) :
    p.Uses (Labelled names parent) := by
  refine hp.mono fun o ho => ?_
  cases o with
  | apply child resource =>
    left
    cases resource with
    -- Access is applied, but nothing selects pods by it.
    | serviceAccount | role | roleBinding => rfl
    | _ => cases ho _ rfl
  | _ => trivial

theorem labelled_apply {resource : Child} (hbase : child.proxyBase = names.proxyBase)
    (hparent : child.parent = parent) (hnamed : resource.Named names) :
    (apply child resource).Uses (Labelled names parent) :=
  .bind (uses_op (.inr ⟨hbase, hparent, hnamed⟩)) fun _ => trivial

theorem labelled_deleteIgnoring404 {kind : Kind} {name : String} :
    (deleteIgnoring404 kind name).Uses (Labelled names parent) :=
  .bind (uses_op trivial) fun _ => trivial

/-- A child applier of the proxy. -/
def OfProxy (names : ProxyNames) (parent : ObjectReference) (child : ChildApplier) : Prop :=
  child.proxyBase = names.proxyBase ∧ child.parent = parent

variable (hchild : OfProxy names parent child)

include hchild

theorem labelled_applyWireguardService {hostNetwork : Bool} :
    (applyWireguardService child names hostNetwork).Uses (Labelled names parent) := by
  have hshape : (ensureServiceShape names hostNetwork).Uses (Labelled names parent) := by
    refine .bind (uses_op trivial) fun r => .bind (labelled_of_uses (within_ifFound r)) fun svc => ?_
    cases svc with
    | none => trivial
    | some svc =>
      dsimp only
      split
      · exact labelled_deleteIgnoring404
      · trivial
  refine .bind hshape fun _ => ?_
  split
  · exact .bind (labelled_apply hchild.1 hchild.2 rfl) fun _ => trivial
  · refine .bind (labelled_apply hchild.1 hchild.2 rfl) fun _ => ?_
    refine .bind (uses_op trivial) fun _ => .bind (labelled_of_uses (within_fromKube _)) fun svc => ?_
    split <;> trivial

theorem labelled_ensureAuthKey {headscale : AuthenticatedClient} {user : Option String}
    {managedKeyTags : List String} {autoTag : Option String} {expirySecs : Nat}
    {reusable ephemeral : Bool} :
    (ensureAuthKey parent headscale child names user managedKeyTags autoTag expirySecs reusable
      ephemeral).Uses (Labelled names parent) := by
  refine .bind (labelled_of_uses within_existingAuthKey) fun key => ?_
  split
  · trivial
  · refine .bind (uses_op trivial) fun now =>
      .bind (labelled_of_uses within_userIdOf) fun userId => ?_
    cases userId with
    | none => trivial
    | some userId =>
      refine .bind ?_ fun _ => trivial
      refine .bind (uses_op trivial) fun minted => .bind (labelled_of_uses (within_fromStatus _))
        fun preAuthKey => ?_
      cases preAuthKey with
      | none => trivial
      | some preAuthKey =>
        refine .bind (Uses.attempt (labelled_apply hchild.1 hchild.2 trivial)) fun saved => ?_
        cases saved with
        | ok _ => trivial
        | error e => exact .bind (uses_op trivial) fun _ => trivial

theorem labelled_ensureStateSecret {headscaleRef : String} :
    (ensureStateSecret child names headscaleRef).Uses (Labelled names parent) :=
  .bind (labelled_apply hchild.1 hchild.2 trivial) fun _ => .bind (uses_op trivial) fun _ => trivial

theorem labelled_applyConsumerPolicy {consumers : List EgressConsumer} {forwards : List (Int × Int)} :
    (applyConsumerPolicy child names consumers forwards).Uses (Labelled names parent) := by
  rw [applyConsumerPolicy]
  split
  · exact labelled_deleteIgnoring404
  · refine .bind (.forM fun consumer _ => labelled_of_uses within_checkConsumer) fun _ => ?_
    exact labelled_apply hchild.1 hchild.2 ⟨rfl, rfl⟩

end Uses

/-! ### Reconciles -/

section Reconciles

variable {read : Reader} {digest : Digest} {dep : Deployment} {t : Turn}
  {annotations : IngressAnnotations} {inst : Instance}

theorem RoutedIngress.labelled_provision {ing : RoutedIngress} {hostNetwork : Bool}
    {routes : List ProxyRoute} :
    (ing.provision read digest dep annotations inst hostNetwork routes).Uses
      (Labelled (ing.names digest) ing.parent) := by
  have hchild : OfProxy (ing.names digest) ing.parent
    ⟨inst.name, (ing.names digest).proxyBase, ing.parent⟩ := ⟨rfl, rfl⟩
  refine .bind (labelled_of_uses (.mapError (within_headscaleConnect _ _))) fun headscale => ?_
  refine .bind (labelled_applyWireguardService hchild) fun networking => ?_
  refine .bind (labelled_of_uses (within_resetIfRetargeted (by rfl) (by rfl))) fun _ => ?_
  refine .bind (labelled_of_uses (within_rotateStaleAuthKey (by rfl) (by rfl))) fun _ => ?_
  refine .bind (labelled_ensureAuthKey hchild) fun status => ?_
  cases status with
  | waitingForUser => trivial
  | ready =>
    refine .bind (labelled_ensureStateSecret hchild) fun stateSecret => ?_
    refine .bind (labelled_apply rfl rfl trivial) fun _ => ?_
    refine .bind (labelled_of_uses within_applyProxyRbac) fun _ => ?_
    refine .bind (labelled_apply rfl rfl rfl) fun _ => labelled_of_uses ?_
    exact .bind (within_syncTags (by rfl)) fun tagged => .bind within_report fun _ =>
      .bind (within_claim (by rfl)) fun _ => within_pure _

namespace PortedService

variable {svc : PortedService}

theorem labelled_provisionEgress {tailnetFqdn : String} {forwards : List (Int × Int)} :
    (svc.provisionEgress read digest dep annotations tailnetFqdn forwards inst).Uses
      (Labelled (svc.names digest) svc.parent) := by
  have hchild : OfProxy (svc.names digest) svc.parent
    ⟨inst.name, (svc.names digest).proxyBase, svc.parent⟩ := ⟨rfl, rfl⟩
  refine .bind (labelled_of_uses (.mapError (within_headscaleConnect _ _))) fun headscale => ?_
  refine .bind (labelled_of_uses (within_resetIfRetargeted (by rfl) (by rfl))) fun _ => ?_
  refine .bind (labelled_of_uses (within_rotateStaleAuthKey (by rfl) (by rfl))) fun _ => ?_
  refine .bind (labelled_ensureAuthKey hchild) fun status => ?_
  cases status with
  | waitingForUser => trivial
  | ready =>
    refine .bind (labelled_ensureStateSecret hchild) fun stateSecret => ?_
    refine .bind (labelled_apply rfl rfl rfl) fun _ => ?_
    refine .bind (labelled_of_uses within_applyProxyRbac) fun _ => ?_
    refine .bind (labelled_apply rfl rfl rfl) fun _ => ?_
    refine .bind (labelled_applyConsumerPolicy hchild) fun _ => labelled_of_uses ?_
    refine .bind (within_claim (by rfl)) fun _ => .bind (within_syncTags (by rfl)) fun tagged => ?_
    exact .bind within_report fun _ => .bind (within_syncEgressDns (by rfl)) fun _ => within_pure _

theorem labelled_provisionExpose {hostNetwork : Bool} {ports : List Int}
    {clusterIp : Option String} :
    (svc.provisionExpose read digest dep annotations hostNetwork ports clusterIp inst).Uses
      (Labelled (svc.names digest) svc.parent) := by
  have hchild : OfProxy (svc.names digest) svc.parent
    ⟨inst.name, (svc.names digest).proxyBase, svc.parent⟩ := ⟨rfl, rfl⟩
  refine .bind (labelled_of_uses (.mapError (within_headscaleConnect _ _))) fun headscale => ?_
  refine .bind (labelled_of_uses (within_resetIfRetargeted (by rfl) (by rfl))) fun _ => ?_
  refine .bind (labelled_of_uses (within_rotateStaleAuthKey (by rfl) (by rfl))) fun _ => ?_
  refine .bind (labelled_ensureAuthKey hchild) fun status => ?_
  cases status with
  | waitingForUser => trivial
  | ready =>
    refine .bind (labelled_ensureStateSecret hchild) fun stateSecret => ?_
    refine .bind (labelled_applyWireguardService hchild) fun networking => ?_
    refine .bind (labelled_of_uses within_applyProxyRbac) fun _ => ?_
    refine .bind ?_ fun _ => .bind labelled_deleteIgnoring404 fun _ => labelled_of_uses ?_
    · rw [applyExposeProxy.eq_def]
      dsimp only
      split
      · exact .bind (labelled_apply rfl rfl trivial) fun _ => labelled_apply rfl rfl rfl
      · split
        · trivial
        · trivial
        · exact .bind (labelled_apply rfl rfl rfl) fun _ => labelled_deleteIgnoring404
    · exact .bind (within_claim (by rfl)) fun _ => .bind (within_syncTags (by rfl)) fun tagged =>
        .bind within_report fun _ => within_pure _

end PortedService

theorem labelled_leaving {p : M Unit} (h : Leaving read digest dep t p) :
    p.Uses (Labelled (t.names digest) t.parent) := by
  refine h.uses (fun o ho => ?_) (uses_cleanupProxyResources trivial fun _ _ _ => trivial)
  exact (labelled_of_uses (uses_op (ho.mono fun a ha => ha ▸ rfl))).1

/-- All that a reconcile applies is labelled with its object. -/
theorem labelled_reconcile (t : Turn) :
    (t.reconcile read digest dep).Uses (Labelled (t.names digest) t.parent) := by
  have hwalk : Walk read digest dep t (fun p => p.Uses (Labelled (t.names digest) t.parent))
      (fun p => p.Uses (Labelled (t.names digest) t.parent)) := {
    quiet := fun hp => labelled_of_uses hp.within
    last := fun hp => hp
    bind := Uses.bind
    andThen := fun hp hf => hp.bind fun a => labelled_of_uses (hf a).within
    leave := fun hp _ => labelled_leaving hp
    leaveInSync := fun hp _ hq hr => (labelled_leaving hp).bind fun _ => labelled_of_uses
      (.bind hq.within fun _ => .bind (within_syncEgressDns (by rfl)) fun _ => hr.within)
    ingress := fun ht _ => by
      subst ht
      exact RoutedIngress.labelled_provision
    egress := fun ht _ _ _ => by
      subst ht
      exact PortedService.labelled_provisionEgress
    expose := fun ht _ _ _ => by
      subst ht
      exact PortedService.labelled_provisionExpose }
  exact hwalk.reconcile

end Reconciles

end Proxy

/-! ### By the controller of instances -/

namespace Instance

open Process.Prog (Uses uses_op)

namespace Op

def service? : Op → Option Front
  | .apply ⟨metadata, .service spec⟩ => some ⟨metadata.name, spec.selector⟩
  | _ => none

def workload? : Op → Option Workload
  | .apply ⟨metadata, .statefulSet spec⟩ => some ⟨metadata.name, spec.serviceName, spec.matchLabels⟩
  | _ => none

end Op

/-- What is applied is the Service, or the StatefulSet, of a component. -/
def Labelled (o : Op) : Prop :=
  (∀ front, o.service? = some front → ∃ (c : Component) (inst : String), front = c.front inst) ∧
    ∀ workload, o.workload? = some workload →
      ∃ (c : Component) (inst : String), workload = c.workload inst

section Uses

variable {dep : Deployment} {obj : CustomResource} {child : ChildApplier} {name : String} {α : Type}

/-- A request that applies neither. -/
theorem labelled_of_none {o : Op} (h : o.service? = none ∧ o.workload? = none) : Labelled o := by
  constructor
  · rw [h.1]
    nofun
  · rw [h.2]
    nofun

theorem labelled_call {o : Op} (h : o.service? = none ∧ o.workload? = none) :
    (call o).Uses Labelled := uses_op (labelled_of_none h)

theorem labelled_fromKube (r : Except KubeError α) : (fromKube r).Uses Labelled := trivial

theorem labelled_ofExcept (r : Except Error α) : (.ofExcept r : M α).Uses Labelled := trivial

theorem labelled_object {component : String} {resource : Resource}
    (h : (Op.apply (child.object component name resource)).service? = none ∧
      (Op.apply (child.object component name resource)).workload? = none) :
    (apply (child.object component name resource)).Uses Labelled :=
  .bind (labelled_call h) labelled_fromKube

/-- The Service of a component selects by its label and the instance. -/
theorem labelled_service (c : Component) {spec : ServiceSpec} (hspec : spec.selector = [])
    (hname : name = c.servicePrefix ++ child.instanceName) :
    (apply (child.service c.label name spec)).Uses Labelled := by
  refine .bind (uses_op ⟨fun front h => ⟨c, child.instanceName, ?_⟩, nofun⟩) fun _ => trivial
  obtain rfl := Option.some.inj h
  subst hname
  change Front.mk _ (Props.extend spec.selector _) = _
  rw [hspec]
  rfl

theorem labelled_statefulSet (c : Component) {spec : StatefulSetSpec} (hspec : spec.matchLabels = [])
    (hservice : spec.serviceName = c.servicePrefix ++ child.instanceName)
    (hname : name = c.setPrefix ++ child.instanceName) :
    (apply (child.statefulSet c.label name spec)).Uses Labelled := by
  refine .bind (uses_op ⟨nofun, fun workload h => ⟨c, child.instanceName, ?_⟩⟩) fun _ => trivial
  obtain rfl := Option.some.inj h
  subst hname
  change Workload.mk _ spec.serviceName (Props.extend spec.matchLabels _) = _
  rw [hspec, hservice]
  rfl

theorem labelled_secretExists {n : String} : (secretExists n).Uses Labelled := by
  refine .bind (labelled_call ⟨rfl, rfl⟩) fun r => ?_
  rcases r with (_ | _) | _ <;> trivial

theorem labelled_ensureHeadscale : (ensureHeadscale dep child obj).Uses Labelled := by
  refine .bind (labelled_ofExcept _) fun config => ?_
  refine .bind (labelled_object ⟨rfl, rfl⟩) fun _ => ?_
  exact .bind (labelled_service .headscale rfl rfl) fun _ => labelled_statefulSet .headscale rfl rfl rfl

theorem labelled_ensureApiKey : (ensureApiKey dep child).Uses Labelled := by
  refine .bind labelled_secretExists fun found => ?_
  cases found with
  | true => trivial
  | false =>
    refine .bind (labelled_call ⟨rfl, rfl⟩) fun r => .bind (labelled_ofExcept _) fun output => ?_
    exact .bind (labelled_ofExcept _) fun key => labelled_object ⟨rfl, rfl⟩

theorem labelled_ensureScim {scim : ScimSpec} : (ensureScim dep child scim).Uses Labelled := by
  refine .bind (.bind labelled_secretExists fun found => ?_) fun _ => ?_
  · cases found with
    | true => trivial
    | false => exact .bind (labelled_call ⟨rfl, rfl⟩) fun token => labelled_object ⟨rfl, rfl⟩
  · exact .bind (labelled_statefulSet .scim rfl rfl rfl) fun _ => labelled_service .scim rfl rfl

theorem labelled_deleteIgnoring404 {kind : Kind} {n : String} :
    (deleteIgnoring404 kind n).Uses Labelled :=
  .bind (labelled_call ⟨rfl, rfl⟩) fun _ => labelled_fromKube _

theorem labelled_syncPolicyOf {spec : Spec} {ingresses : List Ingress} :
    (syncPolicyOf dep name spec ingresses).Uses Labelled :=
  .mapError (.lift (Process.Prog.uses_of_forall (fun _ => labelled_of_none ⟨rfl, rfl⟩) _))

theorem labelled_whenReady : (whenReady dep obj child).Uses Labelled := by
  refine .bind labelled_ensureApiKey fun _ => ?_
  cases obj.spec.scimConflict with
  | true => trivial
  | false =>
    refine .bind (.bind (labelled_call ⟨rfl, rfl⟩) fun r => .bind (labelled_fromKube r) fun _ => trivial)
      fun ingresses => .bind labelled_syncPolicyOf fun _ => ?_
    cases obj.spec.scim with
    | none =>
      refine .bind labelled_deleteIgnoring404 fun _ => .bind labelled_deleteIgnoring404 fun _ => ?_
      exact .bind labelled_deleteIgnoring404 fun _ => labelled_deleteIgnoring404
    | some scim => exact labelled_ensureScim

theorem labelled_of_reports {p : M α} (hp : p.Uses (Op.Reports name)) : p.Uses Labelled := by
  refine hp.mono fun o ho => labelled_of_none ?_
  cases o with
  | apply => cases ho
  | _ => exact ⟨rfl, rfl⟩

theorem labelled_applyManaged : (applyManaged dep obj child).Uses Labelled := by
  refine .bind (.attempt labelled_ensureHeadscale) fun applied => ?_
  cases applied with
  | error e => exact labelled_of_reports reports_failWith
  | ok _ =>
    refine .bind (labelled_call ⟨rfl, rfl⟩) fun r => .bind (labelled_fromKube r) fun replicas => ?_
    split
    · refine .bind (.attempt labelled_whenReady) fun done => ?_
      cases done with
      | error e => exact labelled_of_reports reports_failWith
      | ok _ => exact labelled_of_reports reports_settle
    · exact labelled_of_reports reports_settle

theorem labelled_applyInstance : (applyInstance dep obj).Uses Labelled := by
  rw [applyInstance]
  split
  · trivial
  · split
    · refine probes_applyExternal.mono fun o ho => labelled_of_none ?_
      rcases ho with ho | rfl
      · cases o with
        | apply => cases ho
        | _ => exact ⟨rfl, rfl⟩
      · exact ⟨rfl, rfl⟩
    · split
      · trivial
      · exact labelled_applyManaged

/-- All that a reconcile applies is labelled with its component and its instance. -/
theorem labelled_reconcile : (reconcile dep obj).Uses Labelled := by
  rw [reconcile]
  split
  · trivial
  · rw [withFinalizer]
    split
    · exact labelled_applyInstance
    · refine .bind (cleans_cleanup.mono fun o ho => labelled_of_none ?_) fun _ => ?_
      · cases o with
        | apply => cases ho
        | _ => exact ⟨rfl, rfl⟩
      · exact .bind (labelled_call ⟨rfl, rfl⟩) fun r => .bind (labelled_fromKube r) fun _ => trivial
    · exact .bind (labelled_call ⟨rfl, rfl⟩) fun r => .bind (labelled_fromKube r) fun _ => trivial
    · trivial

end Uses

end Instance

/-! ## To the pods -/

section Pods

open Process (Pool)

variable {read : Reader} {digest : Digest} {deployment : Proxy.Deployment} {turns : List Proxy.Turn}
  {w : Proxy.Cluster} {events : List (Process.Event Proxy.Fate (Proxy.Cluster → Proxy.Cluster))}
  {s : Pool Proxy.sig Proxy.Error Proxy.Action Proxy.Cluster} {dep : Instance.Deployment}
  {versions : List Instance.CustomResource} {v : Instance.Cluster}
  {steps : List (Process.Event Instance.Fate (Instance.Cluster → Instance.Cluster))}
  {s' : Pool Instance.sig Instance.Error Proxy.Action Instance.Cluster}

variable (s s') in
/-- One of the controllers has applied the Service. -/
def ServiceApplied (front : Front) : Prop :=
  (∃ e ∈ s.history, e.op.service? = some front) ∨ ∃ e ∈ s'.history, e.op.service? = some front

variable (digest turns s s') in
/-- One of the controllers has applied the StatefulSet. -/
def WorkloadApplied (workload : Workload) : Prop :=
  (∃ e ∈ s.history, ∃ t, turns[e.thread]? = some t ∧
    e.op.workload? (t.names digest) = some workload) ∨
  ∃ e ∈ s'.history, e.op.workload? = some workload

namespace Proxy

section Fronts

variable {t : Turn} {o : Op} (ho : Labelled (t.names digest) t.parent o)

include ho

theorem front_of_service? {front : Front} (h : o.service? = some front) :
    front = Component.proxy.front (t.names digest).proxyBase := by
  unfold Op.service? at h
  split at h
  · obtain rfl := Option.some.inj h
    obtain ⟨hbase, -, hname⟩ := ho.resolve_left nofun
    rw [ChildApplier.selectorLabels, hbase, show _ = _ from hname]
    cases t <;> rfl
  · cases h

theorem front_of_policy? {front : Front} (h : o.policy? = some front) :
    front.name = Component.proxy.setPrefix ++ (t.names digest).proxyBase ∧
      (appName, Component.proxy.label) ∈ front.selector ∧
      (appInstance, (t.names digest).proxyBase) ∈ front.selector ∧
      ∀ kv ∈ front.selector, kv ∈ Component.proxy.selectorLabels (t.names digest).proxyBase := by
  unfold Op.policy? at h
  split at h
  · rename_i child policy
    obtain rfl := Option.some.inj h
    obtain ⟨-, -, hname, hselects⟩ := ho.resolve_left nofun
    change policy.name = _ ∧ _ ∈ policy.podSelector ∧ _ ∈ policy.podSelector ∧ _
    rw [NetworkPolicy.podSelector, hselects, hname]
    refine ⟨by cases t <;> rfl, by simp [Component.label], by simp, ?_⟩
    simp [Component.selectorLabels, Component.label]
  · cases h

theorem workload_of_workload? {workload : Workload} (h : o.workload? (t.names digest) = some workload) :
    workload = Component.proxy.workload (t.names digest).proxyBase := by
  unfold Op.workload? at h
  split at h
  · rename_i child name spec
    obtain rfl := Option.some.inj h
    obtain ⟨hbase, -, hname⟩ := ho.resolve_left nofun
    rw [ChildApplier.selectorLabels, hbase, show _ = _ from hname]
    cases spec <;> cases t <;> rfl
  · cases h

end Fronts

end Proxy

namespace Component

variable {c c' : Component} {inst inst' : String} {pod : List (String × String)}

theorem selects_front_iff (hpod : Selects (c'.workload inst').matchLabels pod) :
    Selects (c.front inst).selector pod ↔ (c.front inst).name = (c'.workload inst').serviceName := by
  constructor
  · intro h
    obtain ⟨rfl, rfl⟩ := eq_of_selects List.mem_cons_self
      (List.mem_cons_of_mem _ List.mem_cons_self) h hpod
    rfl
  · intro h
    obtain ⟨rfl, rfl⟩ := eq_of_servicePrefix h
    exact hpod

end Component

theorem Instance.labelled_of_mem
    (hexec : Instance.cluster.exec (Instance.reconciles dep versions v) steps = some s')
    {e : Process.Entry Instance.sig Instance.Cluster} (he : e ∈ s'.history) :
    Instance.Labelled e.op := by
  obtain ⟨later, hist, hhistory⟩ := List.append_of_mem he
  have hlt := Process.Machine.exec_thread_lt rfl hexec e he
  rw [Process.Machine.exec_length hexec, Instance.reconciles, List.length_map] at hlt
  exact Instance.calls_of_safe (A := fun _ _ => Instance.Labelled)
    (fun _ => Instance.labelled_reconcile.safe fun _ _ ho => ho) hexec
    (hhistory ▸ List.suffix_append later _) (List.getElem?_eq_getElem hlt)

/-- The pods of a StatefulSet that the operator runs are those that the Service selects that governs
    it, and those that the policy is about that is called as it is. Nothing else selects them, be it
    of another proxy or of an instance. -/
theorem selects_of_applied
    (hexec : Proxy.cluster.exec (Proxy.reconciles read digest deployment turns w) events = some s)
    (hexec' : Instance.cluster.exec (Instance.reconciles dep versions v) steps = some s')
    {workload : Workload} (hworkload : WorkloadApplied digest turns s s' workload)
    {pod : List (String × String)} (hpod : Selects workload.matchLabels pod) :
    (∀ front, ServiceApplied s s' front →
      (Selects front.selector pod ↔ front.name = workload.serviceName)) ∧
    ∀ e ∈ s.history, ∀ front, e.op.policy? = some front →
      (Selects front.selector pod ↔ front.name = workload.name) := by
  have hproxy (e) (he : e ∈ s.history) : ∃ t, turns[e.thread]? = some t ∧
      Proxy.Labelled (t.names digest) t.parent e.op := by
    obtain ⟨t, -, ht⟩ := Proxy.exists_turn hexec he
    exact ⟨t, ht, Proxy.calls_of_uses (fun t => Proxy.labelled_reconcile t) hexec he ht⟩
  have hrun : ∃ (c : Component) (inst : String), workload = c.workload inst := by
    rcases hworkload with ⟨e, he, t, ht, hw⟩ | ⟨e, he, hw⟩
    · obtain ⟨t', ht', hlabelled⟩ := hproxy e he
      obtain rfl := Option.some.inj (ht.symm.trans ht')
      exact ⟨_, _, Proxy.workload_of_workload? hlabelled hw⟩
    · exact (Instance.labelled_of_mem hexec' he).2 _ hw
  obtain ⟨c, inst, rfl⟩ := hrun
  refine ⟨fun front hfront => ?_, fun e he front hfront => ?_⟩
  · -- A Service is of a component, whichever controller has applied it.
    have hserves : ∃ (c : Component) (inst : String), front = c.front inst := by
      rcases hfront with ⟨e, he, hf⟩ | ⟨e, he, hf⟩
      · obtain ⟨t, -, hlabelled⟩ := hproxy e he
        exact ⟨_, _, Proxy.front_of_service? hlabelled hf⟩
      · exact (Instance.labelled_of_mem hexec' he).1 _ hf
    obtain ⟨c', inst', rfl⟩ := hserves
    exact Component.selects_front_iff hpod
  · -- A policy selects by some of the labels only, but these are the component and the base.
    obtain ⟨t, -, hlabelled⟩ := hproxy e he
    obtain ⟨hname, hcomponent, hbase, hsub⟩ := Proxy.front_of_policy? hlabelled hfront
    constructor
    · intro h
      obtain ⟨rfl, rfl⟩ := Component.eq_of_selects hcomponent hbase h hpod
      exact hname
    · intro h
      obtain ⟨rfl, rfl⟩ := Component.eq_of_setPrefix (hname.symm.trans h)
      exact fun key value hkv => hpod key value (hsub _ hkv)

end Pods

namespace Neighbours

/-! ### A proxy beside an instance -/

open Proxy.Orphans (sha256)
open Proxy.Shop (external)
open Instance.Office (served)

def base : String := ((external Proxy.Shop.main).names sha256).proxyBase

/-- The pods of the proxy. -/
def pod : List (String × String) := (Component.proxy.workload base).matchLabels

end Neighbours

open Process (Pool) in
open Neighbours in
open Proxy.Orphans (sha256) in
open Proxy.Shop (external) in
open Instance.Office (served) in
/-- The Service of the proxy selects its pods, and that of headscale does not. -/
theorem selects_of_applied_beside : ∃ (s : Pool Proxy.sig Proxy.Error Proxy.Action Proxy.Cluster)
    (s' : Pool Instance.sig Instance.Error Proxy.Action Instance.Cluster),
    Proxy.cluster.exec (Proxy.reconciles Proxy.Shop.reader sha256 Proxy.Orphans.deployment
      [.service (external Proxy.Shop.main)] Proxy.Shop.fresh) (Proxy.Shop.succeeds 0 22) = some s ∧
    Instance.cluster.exec (Instance.reconciles Instance.Office.deployment [served "main" none]
      Instance.Office.fresh) (Instance.Office.succeeds 0 18) = some s' ∧
    Selects (Component.proxy.front base).selector pod ∧
    ¬Selects (Component.headscale.front "main").selector pod := by
  have hrun : (Proxy.cluster.exec (Proxy.reconciles Proxy.Shop.reader sha256
      Proxy.Orphans.deployment [.service (external Proxy.Shop.main)] Proxy.Shop.fresh)
      (Proxy.Shop.succeeds 0 22)).any (fun s =>
        (s.history.any fun e => e.thread == 0 &&
          e.op.workload? ((external Proxy.Shop.main).names sha256) ==
            some (Component.proxy.workload base)) &&
        s.history.any fun e => e.op.service? == some (Component.proxy.front base)) = true := by
    decide +kernel
  have hrun' : (Instance.cluster.exec (Instance.reconciles Instance.Office.deployment
      [served "main" none] Instance.Office.fresh) (Instance.Office.succeeds 0 18)).any (fun s' =>
        s'.history.any fun e => e.op.service? == some (Component.headscale.front "main")) = true := by
    decide +kernel
  obtain ⟨s, hs, hcheck⟩ := Option.any_eq_true _ _ |>.1 hrun
  obtain ⟨hworkload, hservice⟩ := Bool.and_eq_true_iff.1 hcheck
  obtain ⟨s', hs', hcheck'⟩ := Option.any_eq_true _ _ |>.1 hrun'
  obtain ⟨e, he, hworkload⟩ := List.any_eq_true.1 hworkload
  obtain ⟨hthread, hworkload⟩ := Bool.and_eq_true_iff.1 hworkload
  obtain ⟨e₁, he₁, hservice⟩ := List.any_eq_true.1 hservice
  obtain ⟨e₂, he₂, hserver⟩ := List.any_eq_true.1 hcheck'
  have ht : [Proxy.Turn.service (external Proxy.Shop.main)][e.thread]? =
      some (.service (external Proxy.Shop.main)) := by
    rw [beq_iff_eq.1 hthread]
    rfl
  obtain ⟨hfronts, -⟩ := selects_of_applied hs hs'
    (.inl ⟨e, he, _, ht, beq_iff_eq.1 hworkload⟩) Component.selects_selectorLabels
  refine ⟨s, s', hs, hs', ?_, ?_⟩
  · exact (hfronts _ (.inl ⟨e₁, he₁, beq_iff_eq.1 hservice⟩)).2 rfl
  · intro h
    have hname := (hfronts _ (.inr ⟨e₂, he₂, beq_iff_eq.1 hserver⟩)).1 h
    revert hname
    decide +kernel

/-! ## Back to the object -/

namespace Proxy

open Process (Entry Pool)

/-- The object that the labels of a child name, as one of a kind. -/
def namedParent (kind : ParentKind) (labels : List (String × String)) : Option ObjectReference := do
  let name ← labels.lookup ingressName
  let ns ← labels.lookup ingressNamespace
  return ⟨kind, ns, name⟩

/-- In the watches of the controller of Ingresses; the kind was not always a label. -/
def ingressOf (labels : List (String × String)) : Option ObjectReference :=
  match labels.lookup parentKind with
  | none => namedParent .ingress labels
  | some kind => if kind = ParentKind.ingress.value then namedParent .ingress labels else none

/-- In the watches of the controller of Services. -/
def serviceOf (labels : List (String × String)) : Option ObjectReference :=
  if labels.lookup parentKind ≠ some ParentKind.service.value then none
  else namedParent .service labels

/-- What is reconciled after an event on a Secret, or a StatefulSet, in the namespace of the
    operator: both controllers watch what the operator manages. -/
def wakes (labels : List (String × String)) : List ObjectReference :=
  if labels.lookup appManagedBy = some managedByValue then
    (ingressOf labels).toList ++ (serviceOf labels).toList
  else []

/-- The child that a request applies, if it is of a kind that is watched. -/
def Op.watched? : Op → Option ChildApplier
  | .apply child (.secret _ _) | .apply child (.statefulSet _ _) => some child
  | _ => none

theorem wakes_labels (child : ChildApplier) (ownerLabels own : List (String × String)) :
    wakes (child.labels ownerLabels proxyComponent own) = [child.parent] := by
  have hlookup (key value : String) (h : (key, value) ∈ child.stamped) :
      (child.labels ownerLabels proxyComponent own).lookup key = some value :=
    ChildApplier.lookup_labels child h
  have hmanaged := hlookup appManagedBy managedByValue (by simp [ChildApplier.stamped])
  have hkind := hlookup parentKind child.parent.kind.value (by simp [ChildApplier.stamped])
  have hname := hlookup ingressName child.parent.name (by simp [ChildApplier.stamped])
  have hns := hlookup ingressNamespace child.parent.ns (by simp [ChildApplier.stamped])
  have hnamed (kind : ParentKind) : namedParent kind (child.labels ownerLabels proxyComponent own) =
      some ⟨kind, child.parent.ns, child.parent.name⟩ := by
    rw [namedParent, hname, hns]
    rfl
  rw [wakes, if_pos hmanaged, ingressOf, serviceOf, hkind, hnamed, hnamed]
  -- The label of the kind is read by both controllers, and each leaves the other's to it.
  rcases child.parent with ⟨kind, ns, name⟩
  cases kind <;> rfl

/-- Whatever labels the instance has, an event on a Secret or a StatefulSet of a proxy makes the
    controllers reconcile the object that the proxy is for, and no other one. -/
theorem wakes_of_applied {read : Reader} {digest : Digest} {dep : Deployment} {turns : List Turn}
    {w : Cluster} {events : List (Process.Event Fate (Cluster → Cluster))}
    {s : Pool sig Error Action Cluster}
    (hexec : cluster.exec (reconciles read digest dep turns w) events = some s)
    {e : Entry sig Cluster} (he : e ∈ s.history) {t : Turn} (ht : turns[e.thread]? = some t)
    {child : ChildApplier} (hchild : e.op.watched? = some child)
    (ownerLabels own : List (String × String)) :
    wakes (child.labels ownerLabels proxyComponent own) = [t.parent] := by
  have hlabelled := calls_of_uses (fun t => labelled_reconcile t) hexec he ht
  rw [wakes_labels]
  unfold Op.watched? at hchild
  split at hchild
  · rename_i hop
    rw [hop] at hlabelled
    obtain rfl := Option.some.inj hchild
    rw [(hlabelled.resolve_left nofun).2.1]
  · rename_i hop
    rw [hop] at hlabelled
    obtain rfl := Option.some.inj hchild
    rw [(hlabelled.resolve_left nofun).2.1]
  · cases hchild

open Orphans (sha256 deployment) in
/-- The instance may well have labels of its own that are called so. -/
theorem wakes_of_applied_external : ∃ (s : Pool sig Error Action Cluster) (e : Entry sig Cluster)
    (child : ChildApplier),
    cluster.exec (reconciles Shop.reader sha256 deployment [.service (Shop.external Shop.main)]
      Shop.fresh) (Shop.succeeds 0 22) = some s ∧
    e ∈ s.history ∧ e.op.watched? = some child ∧
    wakes (child.labels [(parentKind, "ingress"), (ingressName, "web")] proxyComponent []) =
      [⟨.service, "shop", "db"⟩] := by
  have hrun : (cluster.exec (reconciles Shop.reader sha256 deployment
      [.service (Shop.external Shop.main)] Shop.fresh) (Shop.succeeds 0 22)).any (fun s =>
        s.history.any fun e => e.thread == 0 && e.op.watched?.isSome) = true := by
    decide +kernel
  obtain ⟨s, hs, hcheck⟩ := Option.any_eq_true _ _ |>.1 hrun
  obtain ⟨e, he, hcheck⟩ := List.any_eq_true.1 hcheck
  obtain ⟨hthread, hsome⟩ := Bool.and_eq_true_iff.1 hcheck
  obtain ⟨child, hchild⟩ := Option.isSome_iff_exists.1 hsome
  have ht : [Turn.service (Shop.external Shop.main)][e.thread]? =
      some (.service (Shop.external Shop.main)) := by
    rw [beq_iff_eq.1 hthread]
    rfl
  exact ⟨s, e, child, hs, he, hchild, wakes_of_applied hs he ht hchild _ _⟩

end Proxy

end Headmaster.Operator
