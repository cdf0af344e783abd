import Headmaster.Process.Trace
import Headmaster.Operator.Proxy.Ingress
import Headmaster.Operator.Proxy.Service

/-!
# What the functions touch

The requests of the proxy controllers fall into areas, by the kind of resource
they apply or delete, or by what of headscale they are about (`Op.area`); most
are in none, as they only read, report or patch the object itself. Each function
stays within some areas (`Within`), given here once for all that is proved about
the parts of the cluster.
-/

namespace Headmaster.Operator.Proxy

open Process.Prog (Uses uses_op)

/-! ## Areas -/

/-- What a request may change, or is about. -/
inductive Area
  /-- Secrets that go with their proxy, or as it moves, and StatefulSets that go. -/
  | removal
  /-- Secrets that go for a new key. -/
  | rotation
  /-- A Secret that is applied. -/
  | secret (name : String)
  | key
  | node
  | service
  | configMap
  | policy
  | statefulSet
  | dns
  /-- The object itself, as it is claimed. -/
  | claim
  deriving DecidableEq

/-- What is known of keys and nodes is there: the Secrets, and the mints. -/
def Area.isKnowledge : Area → Bool
  | removal | rotation | secret _ | key => true
  | _ => false

def Kind.area : Kind → Option Area
  | .statefulSet => some .removal
  | .service => some .service
  | .secret .cleanup | .secret .retarget => some .removal
  | .secret .lost | .secret .rejectedKey | .secret .rejectedIdentity | .secret .expired =>
    some .rotation
  | .configMap => some .configMap
  | .networkPolicy => some .policy
  | .roleBinding | .role | .serviceAccount => none

def Child.area : Child → Option Area
  | .secret name _ => some (.secret name)
  | .service _ _ => some .service
  | .configMap _ _ => some .configMap
  | .statefulSet _ _ => some .statefulSet
  | .networkPolicy _ => some .policy
  | .serviceAccount _ | .role _ _ | .roleBinding _ => none

def Op.area : Op → Option Area
  | .apply _ resource => resource.area
  | .delete kind _ => kind.area
  | .getNode _ _ | .deleteNode _ _ | .setTags _ _ _ => some .node
  | .createPreAuthKey _ _ | .deletePreAuthKey _ _ => some .key
  | .listServices | .applyOverride _ => some .dns
  | .patchParent _ (.claim _ _) => some .claim
  | _ => none

/-- A request in one of those areas, or in none. -/
def Within (S : Area → Prop) (o : Op) : Prop := ∀ a, o.area = some a → S a

variable {S : Area → Prop}

theorem within_none {o : Op} (h : o.area = none) : Within S o := by
  intro a ha
  rw [h] at ha
  cases ha

theorem within_some {o : Op} {a : Area} (h : o.area = some a) (ha : S a) : Within S o := by
  intro b hb
  obtain rfl : a = b := Option.some.inj (h.symm.trans hb)
  exact ha

theorem Within.mono {S' : Area → Prop} {o : Op} (ho : Within S o) (h : ∀ a, S a → S' a) :
    Within S' o := fun a ha => h a (ho a ha)

/-! ## Single requests -/

section Calls

variable {α : Type} {parent : ObjectReference} {child : ChildApplier} {names : ProxyNames}

theorem within_call {o : Op} (h : Within S o) : (call o).Uses (Within S) := uses_op h

/-- A request in no area. -/
theorem within_quiet {o : Op} (h : o.area = none) : (call o).Uses (Within S) :=
  within_call (within_none h)

theorem within_pure (a : α) : (pure a : M α).Uses (Within S) := trivial

theorem within_throw (e : Error) : (throw e : M α).Uses (Within S) := trivial

theorem within_fromKube (r : Except KubeError α) : (fromKube r).Uses (Within S) := trivial

theorem within_fromStatus (r : Except Status α) : (fromStatus r).Uses (Within S) := trivial

theorem within_ifFound (r : Except KubeError α) : (ifFound r).Uses (Within S) := by
  match r with
  | .ok _ | .error .notFound | .error .other => exact trivial

theorem within_deleteIgnoring404 {kind : Kind} {name : String} {a : Area}
    (h : kind.area = some a) (ha : S a) : (deleteIgnoring404 kind name).Uses (Within S) :=
  .bind (within_call (within_some h ha)) fun _ => within_fromKube _

theorem within_publish {event : Event} : (publish parent event).Uses (Within S) :=
  .bind (within_quiet rfl) fun _ => within_pure _

theorem within_publishWarning {reason note : String} :
    (publishWarning parent reason note).Uses (Within S) := within_publish

theorem within_apply {resource : Child} {a : Area} (h : resource.area = some a) (ha : S a) :
    (apply child resource).Uses (Within S) :=
  .bind (within_call (within_some h ha)) fun _ => within_fromKube _

theorem within_applyQuiet {resource : Child} (h : resource.area = none) :
    (apply child resource).Uses (Within S) :=
  .bind (within_quiet h) fun _ => within_fromKube _

theorem within_patchParent {patch : ParentPatch} (h : (Op.patchParent parent patch).area = none) :
    (patchParent parent patch).Uses (Within S) :=
  .bind (within_quiet h) fun _ => within_fromKube _

theorem within_claim (hclaim : S .claim) {operatorNamespace : String} {externalName : Option String} :
    (patchParent parent (.claim operatorNamespace externalName)).Uses (Within S) :=
  .bind (within_call (within_some rfl hclaim)) fun _ => within_fromKube _

end Calls

/-! ## What both controllers do -/

section Proxies

variable {parent : ObjectReference} {child : ChildApplier} {names : ProxyNames}
  {headscale : AuthenticatedClient}

theorem within_headscaleConnect (opNs name : String) :
    (headscaleConnect opNs name).Uses (Within S) := by
  refine .bind (uses_op (within_none rfl)) fun r => ?_
  split
  · exact trivial
  · refine .bind (uses_op (within_none rfl)) fun r => ?_
    split
    · exact trivial
    · split
      · exact trivial
      · refine .bind (uses_op (within_none rfl)) fun b => ?_
        cases b <;> exact trivial

theorem within_namespaceIsDeleting (ns : String) : (namespaceIsDeleting ns).Uses (Within S) :=
  .bind (within_quiet rfl) fun _ => .bind (within_ifFound _) fun _ => within_pure _

theorem within_ensureServiceShape (hservice : S .service) {wantHeadless : Bool} :
    (ensureServiceShape names wantHeadless).Uses (Within S) := by
  refine .bind (within_quiet rfl) fun _ => .bind (within_ifFound _) fun svc => ?_
  match svc with
  | none => exact trivial
  | some svc =>
    dsimp only
    split
    · exact within_deleteIgnoring404 rfl hservice
    · exact trivial

theorem within_applyWireguardService (hservice : S .service) {hostNetwork : Bool} :
    (applyWireguardService child names hostNetwork).Uses (Within S) := by
  refine .bind (within_ensureServiceShape hservice) fun _ => ?_
  split
  · exact .bind (within_apply rfl hservice) fun _ => within_pure _
  · refine .bind (within_apply rfl hservice) fun _ => .bind (within_quiet rfl) fun _ =>
      .bind (within_fromKube _) fun svc => ?_
    split <;> exact trivial

theorem within_ensureStateSecret (hsecret : S (.secret names.stateSecretName))
    {headscaleRef : String} :
    (ensureStateSecret child names headscaleRef).Uses (Within S) :=
  .bind (within_apply rfl hsecret) fun _ => .bind (within_quiet rfl) fun _ => within_fromKube _

theorem within_applyProxyRbac : (applyProxyRbac child names).Uses (Within S) :=
  .bind (within_applyQuiet rfl) fun _ => .bind (within_applyQuiet rfl) fun _ => within_applyQuiet rfl

/-! ### Nodes -/

theorem within_deletedOrGone (r : Except Status Unit) : (deletedOrGone r).Uses (Within S) := by
  match r with
  | .ok () => exact trivial
  | .error s =>
    rw [deletedOrGone]
    split <;> exact trivial

theorem within_deregister (hnode : S .node) {dep : Deployment} {ref : String} {id : Nat} :
    (deregister dep parent ref id).Uses (Within S) := by
  refine .bind (.attempt (within_headscaleConnect _ _)) fun headscale => ?_
  split
  · exact within_publishWarning
  · exact .bind (within_call (within_some rfl hnode)) fun _ =>
      .bind (within_deletedOrGone _) fun _ => within_publish

theorem within_deregisterOld (hnode : S .node) {opNs ref : String} {id : Nat} :
    (deregisterOld opNs ref id).Uses (Within S) := by
  refine .bind (.attempt (within_headscaleConnect _ _)) fun headscale => ?_
  split
  · exact .bind (within_call (within_some rfl hnode)) fun _ => within_deletedOrGone _
  · exact trivial
  · exact trivial

theorem uses_cleanupProxyResources {C : Op → Prop} (hjoin : C (.join (proxyResources names)))
    (hdelete : ∀ kind name, (kind, name) ∈ proxyResources names → C (.delete kind name)) :
    (cleanupProxyResources names).Uses C := by
  refine .bind (uses_op hjoin) fun order => .forM fun (kind, name) hmem => ?_
  exact .bind (uses_op (hdelete kind name (order.2.subset hmem))) fun _ => trivial

/-- A node is deregistered, if there is one, and then all that belongs to its proxy is deleted. -/
theorem uses_deregisterAndCleanup {C : Op → Prop} {dep : Deployment} {fallback : String}
    (hnode : ∀ o, Within (· = .node) o → C o) (hcleanup : (cleanupProxyResources names).Uses C) :
    (deregisterAndCleanup dep names parent fallback).Uses C := by
  refine .bind ((within_quiet rfl).mono hnode) fun a =>
    .bind ((within_ifFound a).mono hnode) fun stateSecret => ?_
  split
  · exact .bind ((within_deregister (S := (· = .node)) rfl).mono hnode) fun _ => hcleanup
  · exact hcleanup

theorem within_cleanupProxyResources (hservice : S .service) (hremoval : S .removal)
    (hconfigMap : S .configMap) (hpolicy : S .policy) :
    (cleanupProxyResources names).Uses (Within S) := by
  refine uses_cleanupProxyResources (within_none rfl) fun kind name hkind => ?_
  simp only [proxyResources, List.mem_cons, Prod.mk.injEq, List.not_mem_nil, or_false] at hkind
  rcases hkind with ⟨rfl, _⟩ | ⟨rfl, _⟩ | ⟨rfl, _⟩ | ⟨rfl, _⟩ | ⟨rfl, _⟩ | ⟨rfl, _⟩ | ⟨rfl, _⟩ |
    ⟨rfl, _⟩ | ⟨rfl, _⟩
  · exact within_some rfl hremoval
  · exact within_some rfl hservice
  · exact within_some rfl hremoval
  · exact within_some rfl hremoval
  · exact within_some rfl hconfigMap
  · exact within_some rfl hpolicy
  · exact within_none rfl
  · exact within_none rfl
  · exact within_none rfl

/-! ### Keys -/

theorem within_keyWindowElapsed (configSecret : Secret) (expirySecs : Nat) :
    (keyWindowElapsed configSecret expirySecs).Uses (Within S) := by
  rw [keyWindowElapsed]
  split
  · exact trivial
  · exact .bind (within_quiet rfl) fun _ => within_pure _

theorem within_proxyCrashState : (proxyCrashState names).Uses (Within S) := by
  refine .bind (within_quiet rfl) fun _ => .bind (within_ifFound _) fun statuses => ?_
  cases statuses <;> exact trivial

theorem within_registrationRefused {expirySecs : Nat} :
    (registrationRefused names expirySecs).Uses (Within S) := by
  refine .bind (within_quiet rfl) fun _ => .bind (within_ifFound _) fun configSecret => ?_
  match configSecret with
  | none => exact trivial
  | some configSecret =>
    refine .bind within_proxyCrashState fun crash => ?_
    split
    · exact trivial
    · refine .bind (within_keyWindowElapsed _ _) fun elapsed => ?_
      split
      · exact trivial
      · split <;> exact trivial

theorem within_nodeStanding (hnode : S .node) {nodeId : Nat} :
    (nodeStanding headscale nodeId).Uses (Within S) := by
  refine .bind (within_quiet rfl) fun _ => .bind (within_call (within_some rfl hnode)) fun node => ?_
  split
  · exact trivial
  · exact trivial
  · split <;> exact trivial

theorem within_resetIdentity (hrotation : S .rotation) {why : Deleter}
    (hwhy : (Kind.secret why).area = some .rotation) :
    (resetIdentity why names).Uses (Within S) :=
  .bind (within_deleteIgnoring404 hwhy hrotation) fun _ => within_deleteIgnoring404 hwhy hrotation

theorem within_rotateRegistered (hnode : S .node) (hrotation : S .rotation)
    {expirySecs nodeId : Nat} :
    (rotateRegistered parent headscale names expirySecs nodeId).Uses (Within S) := by
  refine .bind (within_nodeStanding hnode) fun (lost, online) => ?_
  dsimp only
  split
  · exact .bind within_publishWarning fun _ => within_resetIdentity hrotation rfl
  · refine .bind ?_ fun refusal => ?_
    · split
      · exact trivial
      · exact within_registrationRefused
    · cases refusal with
      | none => exact trivial
      | retryWithNewKey =>
        exact .bind within_publishWarning fun _ => within_deleteIgnoring404 rfl hrotation
      | resetIdentity => exact .bind within_publishWarning fun _ => within_resetIdentity hrotation rfl

theorem within_rotateUnregistered (hrotation : S .rotation) {expirySecs : Nat} :
    (rotateUnregistered parent names expirySecs).Uses (Within S) := by
  refine .bind (within_quiet rfl) fun _ => .bind (within_ifFound _) fun configSecret => ?_
  match configSecret with
  | none => exact trivial
  | some configSecret =>
    refine .bind (within_keyWindowElapsed _ _) fun elapsed => ?_
    split
    · exact .bind within_publishWarning fun _ => within_deleteIgnoring404 rfl hrotation
    · exact trivial

theorem within_rotateStaleAuthKey (hnode : S .node) (hrotation : S .rotation) {expirySecs : Nat} :
    (rotateStaleAuthKey parent headscale names expirySecs).Uses (Within S) := by
  refine .bind (within_quiet rfl) fun _ => .bind (within_ifFound _) fun stateSecret => ?_
  split
  · exact within_rotateRegistered hnode hrotation
  · exact within_rotateUnregistered hrotation

theorem within_existingAuthKey {configSecretName : String} :
    (existingAuthKey configSecretName).Uses (Within S) :=
  .bind (within_quiet rfl) fun _ => .bind (within_ifFound _) fun _ => within_pure _

theorem within_userIdOf {user : Option String} : (userIdOf parent headscale user).Uses (Within S) := by
  match user with
  | none => exact trivial
  | some userName =>
    refine .bind (within_quiet rfl) fun _ => .bind (within_fromStatus _) fun users => ?_
    split
    · exact trivial
    · exact .bind within_publishWarning fun _ => within_pure _

theorem within_mintAuthKey (hkey : S .key) (hsecret : S (.secret names.configSecretName))
    {request : CreatePreAuthKeyRequest} :
    (mintAuthKey headscale child names request).Uses (Within S) := by
  refine .bind (within_call (within_some rfl hkey)) fun _ =>
    .bind (within_fromStatus _) fun preAuthKey => ?_
  match preAuthKey with
  | none => exact trivial
  | some preAuthKey =>
    refine .bind (Uses.attempt (within_apply rfl hsecret)) fun saved => ?_
    match saved with
    | .ok () => exact trivial
    | .error e => exact .bind (within_call (within_some rfl hkey)) fun _ => within_throw e

theorem within_ensureAuthKey (hkey : S .key) (hsecret : S (.secret names.configSecretName))
    {user : Option String} {managedKeyTags : List String}
    {autoTag : Option String} {expirySecs : Nat} {reusable ephemeral : Bool} :
    (ensureAuthKey parent headscale child names user managedKeyTags autoTag expirySecs reusable
      ephemeral).Uses (Within S) := by
  refine .bind within_existingAuthKey fun key => ?_
  split
  · exact trivial
  · refine .bind (within_quiet rfl) fun now => .bind within_userIdOf fun userId => ?_
    cases userId with
    | none => exact trivial
    | some userId => exact .bind (within_mintAuthKey hkey hsecret) fun _ => within_pure _

/-! ### Gates and reports -/

theorem within_mayAdopt {read : Reader} {obj : ObjectMeta} {ns : String} :
    (mayAdopt read obj ns).Uses (Within S) := by
  rw [mayAdopt]
  split
  · exact trivial
  · refine .bind (within_quiet rfl) fun _ => .bind (within_ifFound _) fun inst => ?_
    cases inst <;> exact trivial

theorem within_releaseFinalizer {dep : Deployment} : (releaseFinalizer dep parent).Uses (Within S) :=
  .bind (within_quiet rfl) fun _ => .bind (within_fromKube _) fun _ => within_patchParent rfl

theorem within_hostNetworkOf {annotations : IngressAnnotations} :
    (hostNetworkOf parent annotations).Uses (Within S) := by
  rw [hostNetworkOf]
  split
  · exact .bind within_publishWarning fun _ => within_pure _
  · exact trivial

theorem within_instanceFor {annotations : IngressAnnotations} :
    (instanceFor parent annotations).Uses (Within S) := by
  refine .bind (within_quiet rfl) fun _ => .bind (within_ifFound _) fun inst => ?_
  cases inst with
  | some inst => exact trivial
  | none => exact .bind within_publishWarning fun _ => within_pure _

theorem within_syncTags (hnode : S .node) {stateSecret : Secret} {tags : List String} :
    (syncTags headscale stateSecret tags).Uses (Within S) := by
  rw [syncTags]
  split
  · exact trivial
  · split
    · exact trivial
    · exact .bind (within_call (within_some rfl hnode)) fun _ => within_pure _

theorem within_resetIfRetargeted (hnode : S .node) (hremoval : S .removal)
    {opNs newHeadscaleRef : String} :
    (resetIfRetargeted opNs names newHeadscaleRef).Uses (Within S) := by
  refine .bind (within_quiet rfl) fun _ => .bind (within_ifFound _) fun stateSecret => ?_
  have hdeletes (u : Unit) : (do
      deleteIgnoring404 (.secret .retarget) names.configSecretName
      deleteIgnoring404 (.secret .retarget) names.stateSecretName : M Unit).Uses (Within S) :=
    .bind (within_deleteIgnoring404 rfl hremoval) fun _ => within_deleteIgnoring404 rfl hremoval
  split
  · exact trivial
  · split
    · exact .bind (within_deregisterOld hnode) hdeletes
    · exact hdeletes ()

end Proxies

/-! ## The Ingress controller -/

theorem within_portNumber {svcName ns : String} {portRef : ServiceBackendPort} :
    (portNumber svcName ns portRef).Uses (Within S) := by
  rw [portNumber]
  split
  · exact trivial
  · refine .bind (within_quiet rfl) fun service => ?_
    split <;> exact trivial
  · exact trivial

theorem within_routeOf {ns : String} {p : HTTPIngressPath} : (routeOf ns p).Uses (Within S) := by
  rw [routeOf]
  split
  · exact trivial
  · split
    · exact trivial
    · exact .bind within_portNumber fun _ => within_pure _

theorem within_collectIngressRoutes {ing : RoutedIngress} :
    (collectIngressRoutes ing).Uses (Within S) := by
  rw [collectIngressRoutes]
  split
  · exact trivial
  · exact .bind (.mapM fun _ _ => within_routeOf) fun _ => within_pure _

namespace RoutedIngress

variable {read : Reader} {digest : Digest} {dep : Deployment} {ing : RoutedIngress}

theorem within_release : (ing.release dep).Uses (Within S) :=
  .bind (within_patchParent rfl) fun _ => within_releaseFinalizer

theorem within_report {stateSecret : Secret} :
    (ing.report read digest stateSecret).Uses (Within S) := by
  rw [report]
  split
  · split
    · exact .bind (within_patchParent rfl) fun _ => within_publish
    · exact trivial
  · exact within_publishWarning

end RoutedIngress

/-! ## The Service controller -/

theorem within_checkConsumer {parent : ObjectReference} {consumer : EgressConsumer} :
    (checkConsumer parent consumer).Uses (Within S) := by
  refine .bind (within_quiet rfl) fun _ => .bind (within_ifFound _) fun ns => ?_
  match ns with
  | some _ => exact trivial
  | none => exact within_publishWarning

theorem within_applyConsumerPolicy (hpolicy : S .policy) {child : ChildApplier} {names : ProxyNames}
    {consumers : List EgressConsumer} {forwards : List (Int × Int)} :
    (applyConsumerPolicy child names consumers forwards).Uses (Within S) := by
  rw [applyConsumerPolicy]
  split
  · exact within_deleteIgnoring404 rfl hpolicy
  · exact .bind (.forM fun _ _ => within_checkConsumer) fun _ => within_apply rfl hpolicy

theorem within_syncEgressDns (hdns : S .dns) {read : Reader} {digest : Digest} {dep : Deployment} :
    (syncEgressDns read digest dep).Uses (Within S) := by
  rw [syncEgressDns]
  split
  · exact trivial
  · refine .bind (within_call (within_some rfl hdns)) fun _ => ?_
    refine .bind (within_fromKube _) fun services => ?_
    exact .bind (.forM fun _ _ => within_publishWarning) fun _ =>
      .bind (within_call (within_some rfl hdns)) fun _ => within_fromKube _

namespace PortedService

variable {read : Reader} {digest : Digest} {dep : Deployment} {svc : PortedService}

theorem within_report {before after : String} {stateSecret : Secret} :
    (svc.report read digest before after stateSecret).Uses (Within S) := by
  rw [report]
  split
  · split
    · exact trivial
    · exact within_publish
  · exact within_publishWarning

/-- A warning that is published under a condition. -/
theorem within_warnIf {α : Type} {c : Prop} [Decidable c] {parent : ObjectReference}
    {reason note : String} {f : Unit → M α} (hf : ∀ u, (f u).Uses (Within S)) :
    (if c then publishWarning parent reason note >>= f else f ()).Uses (Within S) := by
  split
  · exact .bind within_publishWarning hf
  · exact hf ()

theorem within_warnIgnored {annotations : IngressAnnotations} :
    (svc.warnIgnored annotations).Uses (Within S) := by
  refine within_warnIf fun _ => within_warnIf fun _ => ?_
  split
  · exact within_publishWarning
  · exact within_pure _

theorem within_applyExposeProxy (hconfigMap : S .configMap) (hsts : S .statefulSet)
    {annotations : IngressAnnotations} {ports : List Int}
    {clusterIp : Option String} {inst : Instance} {child : ChildApplier}
    {networking : ProxyNetworking} :
    (svc.applyExposeProxy digest dep annotations ports clusterIp inst child networking).Uses
      (Within S) := by
  rw [applyExposeProxy.eq_def]
  dsimp only
  split
  · exact .bind (within_apply rfl hconfigMap) fun _ => within_apply rfl hsts
  · split
    · exact trivial
    · exact trivial
    · exact .bind (within_apply rfl hsts) fun _ => within_deleteIgnoring404 rfl hconfigMap

end PortedService

end Headmaster.Operator.Proxy
