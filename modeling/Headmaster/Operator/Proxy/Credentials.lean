import Headmaster.Process.After
import Headmaster.Operator.Proxy.Orphans
import Headmaster.Operator.Proxy.Runs

/-!
# Credentials

The operator holds an API key for each headscale, which is good for the nodes and
keys of every proxy there. What a reconcile asks of a headscale is for its own
object (`Entitled`): it looks up the instance and the key itself, and connects
with them, before it asks anything on nodes or keys; new keys, tags and what is
read of a node are of the headscale that the configuration names; and a node is
the one that the state Secret of the proxy names, deleted from the headscale it
is recorded with.
-/

namespace Headmaster.Operator.Proxy

open Process (Entry Made Pool trace)
open Process.Prog (After Safe Stays Uses stays_mem stays_true)

/-! ## What must come before -/

/-- A connection that came about, to where an instance says, with the API key it refers to. -/
structure Connected (opNs : String) (tr : List (Made sig)) (headscale : AuthenticatedClient) :
    Prop where
  found : HeadscaleOf opNs tr headscale.instanceName headscale
  connected : made (.connect headscale) true ∈ tr

section Entitled

variable (read : Reader) (digest : Digest) (dep : Deployment) (t : Turn) (tr : List (Made sig))

/-- It is to the headscale that the configuration of an object names. -/
structure OwnConnection (headscale : AuthenticatedClient) : Prop
    extends Connected dep.operatorNamespace tr headscale where
  own : ∃ annotations, IngressAnnotations.parse read t.metadata = .ok annotations ∧
    headscale.instanceName = annotations.headscaleRef

/-- A node is the one that the state Secret of a proxy names, as it was read. -/
structure NodeRead (id : Nat) (secret : Secret) : Prop where
  read : made (.getSecret (t.names digest).stateSecretName) (.ok secret) ∈ tr
  names : deviceId secret = some id

/-- What a reconcile asks of a headscale is for its object. -/
def Entitled : Op → Prop
  | .getNode headscale id | .setTags headscale id _ =>
    OwnConnection read dep t tr headscale ∧ ∃ secret, NodeRead digest t tr id secret
  | .deleteNode headscale id =>
    Connected dep.operatorNamespace tr headscale ∧ ∃ secret, NodeRead digest t tr id secret ∧
      ∀ ref, t.recordedRef read secret = some ref → headscale.instanceName = ref
  | .createPreAuthKey headscale _ => OwnConnection read dep t tr headscale
  -- a key that could not be saved
  | .deletePreAuthKey headscale id => OwnConnection read dep t tr headscale ∧ ∃ request key,
    made (.createPreAuthKey headscale request) (.ok (some key)) ∈ tr ∧ key.id = id
  | _ => True

end Entitled

/-! ### Later -/

variable {read : Reader} {digest : Digest} {dep : Deployment} {t : Turn}
  {headscale : AuthenticatedClient} {names : ProxyNames} {id : Nat} {ref : String}
  {I : List (Made sig) → Prop}

theorem Connected.mono {opNs : String} {tr tr' : List (Made sig)} (h : Connected opNs tr headscale)
    (hsub : tr ⊆ tr') : Connected opNs tr' headscale :=
  ⟨h.found.mono hsub, hsub h.connected⟩

theorem stays_ownConnection : Stays fun tr => OwnConnection read dep t tr headscale :=
  fun _ _ hsub h => ⟨h.toConnected.mono hsub, h.own⟩

theorem stays_stateRead {stateSecret : Secret} : Stays fun tr =>
    OwnConnection read dep t tr headscale ∧
      made (.getSecret (t.names digest).stateSecretName) (.ok stateSecret) ∈ tr :=
  stays_ownConnection.and stays_mem

theorem stays_nodeRead : Stays fun tr => ∃ secret, NodeRead digest t tr id secret := by
  rintro tr tr' hsub ⟨secret, h⟩
  exact ⟨secret, hsub h.read, h.names⟩

/-! ## Requests on nothing of a headscale -/

/-- Neither nodes nor keys. -/
abbrev Elsewhere (a : Area) : Prop := a ≠ .node ∧ a ≠ .key

theorem elsewhere_secret (name : String) : Elsewhere (.secret name) := ⟨nofun, nofun⟩

theorem entitled_of_within {tr : List (Made sig)} {o : Op} (h : Within Elsewhere o) :
    Entitled read digest dep t tr o := by
  cases o with
  | getNode headscale id => exact absurd rfl (h _ rfl).1
  | deleteNode headscale id => exact absurd rfl (h _ rfl).1
  | setTags headscale id tags => exact absurd rfl (h _ rfl).1
  | createPreAuthKey headscale request => exact absurd rfl (h _ rfl).2
  | deletePreAuthKey headscale id => exact absurd rfl (h _ rfl).2
  | _ => trivial

section Parts

variable {α : Type} {J : α → List (Made sig) → Prop}

theorem after_of_within {p : M α} (hI : Stays I) (hp : p.Uses (Within Elsewhere)) :
    p.After (Entitled read digest dep t) I fun _ => I :=
  .of_uses hI hp fun _ _ _ ho => entitled_of_within ho

/-- It is known what a Secret was read as, if it was found. -/
theorem after_readSecret {name : String} {f : Option Secret → M α} (hI : Stays I)
    (hf : ∀ found, (f found).After (Entitled read digest dep t)
      (fun tr => I tr ∧ ∀ secret, found = some secret →
        made (.getSecret name) (.ok secret) ∈ tr) J) :
    (call (.getSecret name) >>= fun r => ifFound r >>= f).After (Entitled read digest dep t) I
      J := by
  refine .bind (.op hI fun _ _ => trivial) fun r => ?_
  rcases r with (_ | _) | secret
  · refine .bind (.ret fun found tr hfound h => ?_) hf
    obtain rfl := Except.ok.inj hfound
    exact ⟨h.1, fun secret hsecret => by cases hsecret⟩
  · exact .error _
  · refine .bind (.ret fun found tr hfound h => ?_) hf
    obtain rfl := Except.ok.inj hfound
    refine ⟨h.1, fun secret' hsecret => ?_⟩
    obtain rfl := Option.some.inj hsecret
    exact h.2

/-- A connection comes about only as the instance and its Secret were read. -/
theorem after_headscaleConnect (hI : Stays I) :
    (headscaleConnect dep.operatorNamespace ref).After (Entitled read digest dep t) I
      fun headscale tr => I tr ∧ Connected dep.operatorNamespace tr headscale ∧
        headscale.instanceName = ref := by
  refine .bind (.op hI fun _ _ => trivial) fun r => ?_
  rcases r with e | inst
  · exact .error _
  · refine .bind (.op (hI.and stays_mem) fun _ _ => trivial) fun r => ?_
    rcases r with e | secret
    · exact .error _
    · dsimp only
      cases hlookup : secret.data.lookup "HEADSCALE_API_KEY" with
      | none => exact .error _
      | some apiKey =>
        refine .bind (.op ((hI.and stays_mem).and stays_mem) fun _ _ => trivial)
          fun connected => ?_
        cases connected with
        | false => exact .error _
        | true =>
          refine .ret fun headscale tr hheadscale h => ?_
          obtain rfl := Except.ok.inj hheadscale
          obtain ⟨⟨⟨h, hinst⟩, hkey⟩, hconnect⟩ := h
          exact ⟨h, ⟨.found inst secret apiKey hinst hkey hlookup, hconnect⟩, rfl⟩

end Parts

/-! ## Nodes that are deleted -/

section Deletions

variable {α : Type}

/-- The rest asks nothing on nodes or keys. -/
theorem after_last {p : M α} (hp : p.Uses (Within Elsewhere)) :
    p.After (Entitled read digest dep t) I fun _ _ => True :=
  (after_of_within stays_true hp).mono (fun _ _ => trivial) fun _ _ h => h

variable (read digest t) in
/-- A node is to be deleted from the headscale that it is recorded with. -/
def Deletable (ref : String) (id : Nat) (tr : List (Made sig)) : Prop :=
  ∃ secret, NodeRead digest t tr id secret ∧
    ∀ ref', t.recordedRef read secret = some ref' → ref = ref'

theorem stays_deletable : Stays (Deletable read digest t ref id) := by
  rintro tr tr' hsub ⟨secret, hread, hrecorded⟩
  exact ⟨secret, ⟨hsub hread.read, hread.names⟩, hrecorded⟩

theorem after_deleteNode (ref : String) {f : Except Status Unit → M α}
    (hf : ∀ r, (f r).Uses (Within Elsewhere)) :
    (call (.deleteNode headscale id) >>= f).After (Entitled read digest dep t)
      (fun tr => Deletable read digest t ref id tr ∧
        Connected dep.operatorNamespace tr headscale ∧ headscale.instanceName = ref)
      fun _ _ => True := by
  have hstays : Stays fun tr => Deletable read digest t ref id tr ∧
      Connected dep.operatorNamespace tr headscale ∧ headscale.instanceName = ref :=
    fun tr tr' hsub h => ⟨stays_deletable _ _ hsub h.1, h.2.1.mono hsub, h.2.2⟩
  refine .bind (.op hstays ?_) fun r => after_last (hf r)
  rintro tr ⟨⟨secret, hread, hrecorded⟩, hconnected, rfl⟩
  exact show _ ∧ _ from ⟨hconnected, secret, hread, hrecorded⟩

theorem after_deregister : (deregister dep t.parent ref id).After
    (Entitled read digest dep t) (Deletable read digest t ref id) fun _ _ => True := by
  refine .bind (.attempt (after_headscaleConnect stays_deletable)) fun r => ?_
  rcases r with e | headscale
  · exact after_last within_publishWarning
  · -- The node goes over the connection to `ref`, which is where it is recorded.
    refine (after_deleteNode ref fun r => ?_).mono (fun tr h => h headscale rfl) fun _ _ h => h
    exact .bind (within_deletedOrGone r) fun _ => within_publish

theorem after_deregisterOld : (deregisterOld dep.operatorNamespace ref id).After
    (Entitled read digest dep t) (Deletable read digest t ref id) fun _ _ => True := by
  refine .bind (.attempt (after_headscaleConnect stays_deletable)) fun r => ?_
  rcases r with (_ | _) | headscale
  · exact after_last (within_pure _)
  · exact after_last (within_throw _)
  · refine (after_deleteNode ref fun r => ?_).mono (fun tr h => h headscale rfl) fun _ _ h => h
    exact within_deletedOrGone r

theorem after_deregisterAndCleanup {headscaleRefFallback : String}
    (hfallback : ∀ ref, IngressAnnotations.headscaleRefOf read t.metadata = some ref →
      headscaleRefFallback = ref) :
    (deregisterAndCleanup dep (t.names digest) t.parent
      headscaleRefFallback).After (Entitled read digest dep t) (fun _ => True) fun _ _ => True := by
  have hcleanup : (cleanupProxyResources (t.names digest)).Uses (Within Elsewhere) :=
    within_cleanupProxyResources (by decide) (by decide) (by decide) (by decide)
  refine after_readSecret stays_true fun found => ?_
  cases hid : found.bind deviceId with
  | none => exact after_last hcleanup
  | some id =>
    refine .bind (after_deregister.mono (fun tr h => ?_) fun _ _ h => h) fun _ =>
      after_last hcleanup
    obtain ⟨secret, rfl, hid⟩ := Option.bind_eq_some_iff.1 hid
    refine ⟨secret, ⟨h.2 secret rfl, hid⟩, fun ref href => ?_⟩
    rw [Turn.recordedRef] at href
    -- Without a record the cleanup falls back on the configuration, as `recordedRef` does.
    cases hown : headscaleRef secret with
    | some own =>
      rw [hown] at href
      exact (congrArg (Option.getD · headscaleRefFallback) hown).trans (Option.some.inj href)
    | none =>
      rw [hown] at href
      exact (congrArg (Option.getD · headscaleRefFallback) hown).trans (hfallback ref href)

theorem after_resetIfRetargeted {newHeadscaleRef : String} :
    (resetIfRetargeted dep.operatorNamespace (t.names digest) newHeadscaleRef).After
      (Entitled read digest dep t) (fun _ => True) fun _ _ => True := by
  refine after_readSecret stays_true fun found => ?_
  have hdeletes (u : Unit) : (do
      deleteIgnoring404 (.secret .retarget) (t.names digest).configSecretName
      deleteIgnoring404 (.secret .retarget) (t.names digest).stateSecretName : M Unit).Uses
        (Within Elsewhere) :=
    .bind (within_deleteIgnoring404 rfl (by decide)) fun _ =>
      within_deleteIgnoring404 rfl (by decide)
  cases hretarget : found.bind (retargetOf newHeadscaleRef) with
  | none => exact after_last (within_pure _)
  | some old =>
    obtain ⟨oldHeadscaleRef, oldNodeId⟩ := old
    cases oldNodeId with
    | none => exact after_last (hdeletes ())
    | some id =>
      refine .bind (after_deregisterOld.mono (fun tr h => ?_) fun _ _ h => h) fun _ =>
        after_last (hdeletes ())
      obtain ⟨secret, rfl, hretarget⟩ := Option.bind_eq_some_iff.1 hretarget
      obtain ⟨own, hown, heq⟩ := Option.map_eq_some_iff.1 hretarget
      obtain ⟨rfl, hid⟩ := Prod.mk.inj heq
      refine ⟨secret, ⟨h.2 secret rfl, hid⟩, fun ref href => ?_⟩
      rw [Turn.recordedRef, (Option.filter_eq_some_iff.1 hown).1] at href
      exact Option.some.inj href

end Deletions

/-! ## Requests on the own headscale -/

section Own

variable {parent : ObjectReference} {child : ChildApplier}

/-- Of the node that the state Secret names. -/
theorem after_nodeStanding : (nodeStanding headscale id).After (Entitled read digest dep t)
    (fun tr => OwnConnection read dep t tr headscale ∧ ∃ secret, NodeRead digest t tr id secret)
    fun _ tr => OwnConnection read dep t tr headscale := by
  have hstays : Stays fun tr => OwnConnection read dep t tr headscale ∧
      ∃ secret, NodeRead digest t tr id secret := .and stays_ownConnection stays_nodeRead
  refine .bind (after_of_within hstays (within_quiet rfl)) fun now => ?_
  refine .bind (.op hstays fun _ h => h) fun node => ?_
  refine (after_of_within stays_ownConnection ?_).mono (fun _ h => h.1.1) fun _ _ h => h
  split
  · exact within_pure _
  · exact within_pure _
  · split
    · exact within_pure _
    · exact within_throw _

theorem after_rotateRegistered {expirySecs : Nat} :
    (rotateRegistered parent headscale names expirySecs id).After (Entitled read digest dep t)
      (fun tr => OwnConnection read dep t tr headscale ∧ ∃ secret, NodeRead digest t tr id secret)
      fun _ tr => OwnConnection read dep t tr headscale := by
  refine .bind after_nodeStanding fun standing => after_of_within stays_ownConnection ?_
  have hreset {why : Deleter} (hwhy : (Kind.secret why).area = some .rotation) :=
    @within_resetIdentity Elsewhere names (by decide) why hwhy
  obtain ⟨lost, online⟩ := standing
  dsimp only
  cases lost with
  | true => exact .bind within_publishWarning fun _ => hreset rfl
  | false =>
    refine .bind ?_ fun refusal => ?_
    · cases online with
      | true => exact within_pure _
      | false => exact within_registrationRefused
    · cases refusal with
      | none => exact within_pure _
      | retryWithNewKey =>
        exact .bind within_publishWarning fun _ => within_deleteIgnoring404 rfl (by decide)
      | resetIdentity => exact .bind within_publishWarning fun _ => hreset rfl

theorem after_rotateStaleAuthKey {expirySecs : Nat} :
    (rotateStaleAuthKey parent headscale (t.names digest) expirySecs).After
      (Entitled read digest dep t) (fun tr => OwnConnection read dep t tr headscale)
      fun _ tr => OwnConnection read dep t tr headscale := by
  refine after_readSecret stays_ownConnection fun found => ?_
  cases hid : found.bind deviceId with
  | none =>
    exact (after_of_within stays_ownConnection (within_rotateUnregistered (by decide))).mono
      (fun _ h => h.1) fun _ _ h => h
  | some id =>
    obtain ⟨secret, rfl, hid⟩ := Option.bind_eq_some_iff.1 hid
    refine after_rotateRegistered.mono (fun tr h => ?_) fun _ _ h => h
    exact ⟨h.1, secret, h.2 secret rfl, hid⟩

/-- The key that is deleted is the one that was just minted. -/
theorem after_mintAuthKey {request : CreatePreAuthKeyRequest} :
    (mintAuthKey headscale child names request).After (Entitled read digest dep t)
      (fun tr => OwnConnection read dep t tr headscale)
      fun _ tr => OwnConnection read dep t tr headscale := by
  refine .bind (.op stays_ownConnection fun _ h => h) fun r => ?_
  rcases r with s | (_ | key)
  · exact .error _
  · exact .error _
  · have hstays : Stays fun tr => OwnConnection read dep t tr headscale ∧
        made (.createPreAuthKey headscale request) (.ok (some key)) ∈ tr :=
      stays_ownConnection.and stays_mem
    have hsave : (applyConfigSecret child names key.key).Uses (Within Elsewhere) :=
      within_apply rfl (elsewhere_secret _)
    change (Process.Prog.attempt (applyConfigSecret child names key.key) >>= _).After _ _ _
    refine .bind (after_of_within hstays hsave.attempt) fun saved => ?_
    rcases saved with e | u
    · -- The key could not be saved: it is deleted, and its minting is still on the trace.
      refine .bind (.op hstays fun tr h => ?_) fun _ => .error _
      exact show _ ∧ _ from ⟨h.1, request, key, h.2, rfl⟩
    · exact .ret fun _ _ _ h => h.1

theorem after_ensureAuthKey {user : Option String} {managedKeyTags : List String}
    {autoTag : Option String} {expirySecs : Nat} {reusable ephemeral : Bool} :
    (ensureAuthKey parent headscale child names user managedKeyTags autoTag expirySecs reusable
      ephemeral).After (Entitled read digest dep t)
      (fun tr => OwnConnection read dep t tr headscale)
      fun _ tr => OwnConnection read dep t tr headscale := by
  refine .bind (after_of_within stays_ownConnection within_existingAuthKey) fun key => ?_
  cases key with
  | some key => exact .ret fun _ _ _ h => h
  | none =>
    refine .bind (after_of_within stays_ownConnection (within_quiet rfl)) fun now => ?_
    refine .bind (after_of_within stays_ownConnection within_userIdOf) fun userId => ?_
    cases userId with
    | none => exact .ret fun _ _ _ h => h
    | some userId => exact .bind after_mintAuthKey fun _ => .ret fun _ _ _ h => h

/-- The state Secret that a reconcile goes on with is as it was read. -/
theorem after_ensureStateSecret :
    (ensureStateSecret child (t.names digest) ref).After (Entitled read digest dep t)
      (fun tr => OwnConnection read dep t tr headscale)
      fun secret tr => OwnConnection read dep t tr headscale ∧
        made (.getSecret (t.names digest).stateSecretName) (.ok secret) ∈ tr := by
  refine .bind (after_of_within stays_ownConnection (within_apply rfl (elsewhere_secret _))) fun _ => ?_
  refine .bind (.op stays_ownConnection fun _ _ => trivial) fun r => ?_
  rcases r with e | secret
  · exact .error _
  · refine .ret fun secret' tr hsecret h => ?_
    obtain rfl := Except.ok.inj (hsecret : (Except.ok secret : Except Error Secret) = .ok secret')
    exact h

theorem after_syncTags {secret : Secret} {tags : List String} :
    (syncTags headscale secret tags).After (Entitled read digest dep t)
      (fun tr => OwnConnection read dep t tr headscale ∧
        made (.getSecret (t.names digest).stateSecretName) (.ok secret) ∈ tr)
      fun _ _ => True := by
  rw [syncTags]
  cases hid : deviceId secret with
  | none => exact after_last (within_pure _)
  | some id =>
    dsimp only
    split
    · exact after_last (within_pure _)
    · refine .bind (.op stays_stateRead fun tr h => ?_)
        fun _ => after_last (within_pure _)
      exact show _ ∧ _ from ⟨h.1, secret, h.2, hid⟩

end Own

/-! ## Whole reconciles -/

section Provisions

variable {annotations : IngressAnnotations} {inst : Instance}

/-- The connection that a proxy is provisioned with. -/
theorem after_ownConnection
    (hparse : IngressAnnotations.parse read t.metadata = .ok annotations) :
    ((headscaleConnect dep.operatorNamespace annotations.headscaleRef).mapError Error.kube).After
      (Entitled read digest dep t) (fun _ => True)
      fun headscale tr => OwnConnection read dep t tr headscale :=
  (after_headscaleConnect stays_true).mapError.mono (fun _ h => h) fun _ _ h =>
    ⟨h.2.1, annotations, hparse, h.2.2⟩

/-- Moving a proxy away leaves the connection to where it is to be. -/
theorem after_resetIfRetargeted_own {newHeadscaleRef : String} :
    (resetIfRetargeted dep.operatorNamespace (t.names digest) newHeadscaleRef).After
      (Entitled read digest dep t) (fun tr => OwnConnection read dep t tr headscale)
      fun _ tr => OwnConnection read dep t tr headscale :=
  (after_resetIfRetargeted.frame stays_ownConnection).mono (fun _ h => ⟨h, trivial⟩)
    fun _ _ h => h.1

theorem RoutedIngress.after_provision {ing : RoutedIngress} {hostNetwork : Bool}
    {routes : List ProxyRoute}
    (hparse : IngressAnnotations.parse read ing.metadata = .ok annotations) :
    (ing.provision read digest dep annotations inst hostNetwork routes).After
      (Entitled read digest dep (.ingress ing)) (fun _ => True) fun _ _ => True := by
  -- The connection is made first, and what is known of it is framed through all that follows.
  refine .bind (after_ownConnection (t := .ingress ing) hparse) fun headscale => ?_
  refine .bind (after_of_within stays_ownConnection (within_applyWireguardService (by decide)))
    fun networking => ?_
  refine .bind (after_resetIfRetargeted_own (t := .ingress ing)) fun _ => ?_
  refine .bind (after_rotateStaleAuthKey (t := .ingress ing)) fun _ => ?_
  refine .bind after_ensureAuthKey fun status => ?_
  cases status with
  | waitingForUser => exact after_last (within_pure _)
  | ready =>
    refine .bind (after_ensureStateSecret (t := .ingress ing)) fun stateSecret => ?_
    have hstays := @stays_stateRead read digest dep (.ingress ing) headscale stateSecret
    refine .bind (after_of_within hstays (within_apply rfl (by decide))) fun _ => ?_
    refine .bind (after_of_within hstays within_applyProxyRbac) fun _ => ?_
    refine .bind (after_of_within hstays (within_apply rfl (by decide))) fun _ => ?_
    refine .bind (after_syncTags (t := .ingress ing)) fun tagged => after_last ?_
    exact .bind RoutedIngress.within_report fun _ => .bind (within_claim (by decide)) fun _ =>
      within_pure _

namespace PortedService

variable {svc : PortedService}
  (hparse : IngressAnnotations.parse read svc.metadata = .ok annotations)

include hparse

theorem after_provisionEgress {tailnetFqdn : String} {forwards : List (Int × Int)} :
    (svc.provisionEgress read digest dep annotations tailnetFqdn forwards inst).After
      (Entitled read digest dep (.service svc)) (fun _ => True) fun _ _ => True := by
  refine .bind (after_ownConnection (t := .service svc) hparse) fun headscale => ?_
  refine .bind (after_resetIfRetargeted_own (t := .service svc)) fun _ => ?_
  refine .bind (after_rotateStaleAuthKey (t := .service svc)) fun _ => ?_
  refine .bind after_ensureAuthKey fun status => ?_
  cases status with
  | waitingForUser => exact after_last (within_pure _)
  | ready =>
    refine .bind (after_ensureStateSecret (t := .service svc)) fun stateSecret => ?_
    have hstays := @stays_stateRead read digest dep (.service svc) headscale stateSecret
    refine .bind (after_of_within hstays (within_apply rfl (by decide))) fun _ => ?_
    refine .bind (after_of_within hstays within_applyProxyRbac) fun _ => ?_
    refine .bind (after_of_within hstays (within_apply rfl (by decide))) fun _ => ?_
    refine .bind (after_of_within hstays (within_applyConsumerPolicy (by decide))) fun _ => ?_
    refine .bind (after_of_within hstays (within_claim (by decide))) fun _ => ?_
    refine .bind (after_syncTags (t := .service svc)) fun tagged => after_last ?_
    exact .bind within_report fun _ => .bind (within_syncEgressDns (by decide)) fun _ =>
      within_pure _

theorem after_provisionExpose {hostNetwork : Bool} {ports : List Int} {clusterIp : Option String} :
    (svc.provisionExpose read digest dep annotations hostNetwork ports clusterIp inst).After
      (Entitled read digest dep (.service svc)) (fun _ => True) fun _ _ => True := by
  refine .bind (after_ownConnection (t := .service svc) hparse) fun headscale => ?_
  refine .bind (after_resetIfRetargeted_own (t := .service svc)) fun _ => ?_
  refine .bind (after_rotateStaleAuthKey (t := .service svc)) fun _ => ?_
  refine .bind after_ensureAuthKey fun status => ?_
  cases status with
  | waitingForUser => exact after_last (within_pure _)
  | ready =>
    refine .bind (after_ensureStateSecret (t := .service svc)) fun stateSecret => ?_
    have hstays := @stays_stateRead read digest dep (.service svc) headscale stateSecret
    refine .bind (after_of_within hstays (within_applyWireguardService (by decide)))
      fun networking => ?_
    refine .bind (after_of_within hstays within_applyProxyRbac) fun _ => ?_
    refine .bind (after_of_within hstays (within_applyExposeProxy (by decide) (by decide)))
      fun _ => ?_
    refine .bind (after_of_within hstays (within_deleteIgnoring404 rfl (by decide))) fun _ => ?_
    refine .bind (after_of_within hstays (within_claim (by decide))) fun _ => ?_
    refine .bind (after_syncTags (t := .service svc)) fun tagged => after_last ?_
    exact .bind within_report fun _ => within_pure _

end PortedService

end Provisions

theorem entitled_leaving {p : M Unit} (h : Leaving read digest dep t p) :
    p.Safe (Entitled read digest dep t) := by
  cases h with
  | deregister _ hfallback => exact (after_deregisterAndCleanup hfallback).safe
  | blindly _ _ =>
    exact (after_last (within_cleanupProxyResources (by decide) (by decide) (by decide)
      (by decide))).safe

theorem entitled_walk : Walk read digest dep t (fun p => p.Safe (Entitled read digest dep t))
    (fun p => p.Safe (Entitled read digest dep t)) where
  quiet hp := (after_last hp.within).safe
  last hp := hp
  bind := Safe.bind
  andThen hp hf := hp.bind fun a => (after_last (hf a).within).safe
  leave hp _ := entitled_leaving hp
  leaveInSync hp _ hq hr := (entitled_leaving hp).bind fun _ => (after_last <|
    .bind hq.within fun _ => .bind (within_syncEgressDns (by decide)) fun _ => hr.within).safe
  ingress ht hparse := by
    subst ht
    exact (RoutedIngress.after_provision hparse).safe
  egress ht _ _ hparse := by
    subst ht
    exact (PortedService.after_provisionEgress hparse).safe
  expose ht _ _ hparse := by
    subst ht
    exact (PortedService.after_provisionExpose hparse).safe

/-! ## Executions -/

variable {turns : List Turn} {w : Cluster} {events : List (Process.Event Fate (Cluster → Cluster))}
  {s : Pool sig Error Action Cluster}

/-- Whatever else goes on, a reconcile asks of a headscale, on nodes and keys, what is for its own
    object, on connections that it has made as it has read. -/
theorem entitled_of_called
    (hexec : cluster.exec (reconciles read digest dep turns w) events = some s)
    {e : Entry sig Cluster} {hist : List (Entry sig Cluster)} (he : e :: hist <:+ s.history)
    {t : Turn} (ht : turns[e.thread]? = some t) :
    Entitled read digest dep t (trace e.thread hist) e.op :=
  calls_of_safe (A := Entitled read digest dep) (fun _ => entitled_walk.reconcile) hexec he ht

/-- The request deletes a node. -/
def deletesNode : Op → Bool
  | .deleteNode _ _ => true
  | _ => false

theorem exists_of_deletesNode {o : Op} (h : deletesNode o = true) :
    ∃ headscale id, o = .deleteNode headscale id := by
  cases o with
  | deleteNode headscale id => exact ⟨headscale, id, rfl⟩
  | _ => cases h

open Orphans (reader sha256 deployment db registered next config) in
/-- The node of a Service that is deleted goes from the headscale it is recorded with. -/
theorem entitled_of_called_deleted : ∃ (s : Pool sig Error Action Cluster)
    (e : Entry sig Cluster) (hist : List (Entry sig Cluster)) (headscale : AuthenticatedClient)
    (id : Nat),
    cluster.exec (reconciles reader sha256 deployment
      [.service (db [(annotationConfig, config)] true)] registered) (List.replicate 11 next) =
        some s ∧
    e :: hist <:+ s.history ∧ e.op = .deleteNode headscale id ∧
    Connected "headmaster" (trace 0 hist) headscale := by
  have hrun : (cluster.exec (reconciles reader sha256 deployment
      [.service (db [(annotationConfig, config)] true)] registered) (List.replicate 11 next)).any
        (fun s => s.history.tails.any fun h => h.head?.any fun e =>
          e.thread == 0 && deletesNode e.op) = true := by
    decide +kernel
  obtain ⟨s, hs, hcheck⟩ := Option.any_eq_true _ _ |>.1 hrun
  obtain ⟨h, htail, hhead⟩ := List.any_eq_true.1 hcheck
  obtain ⟨e, he, hdeletes⟩ := Option.any_eq_true _ _ |>.1 hhead
  obtain ⟨hist, rfl⟩ := List.head?_eq_some_iff.1 he
  obtain ⟨hthread, hdeletes⟩ := Bool.and_eq_true_iff.1 hdeletes
  obtain ⟨headscale, id, hop⟩ := exists_of_deletesNode hdeletes
  have hthread : e.thread = 0 := beq_iff_eq.1 hthread
  have hsuffix := (List.mem_tails _ _).1 htail
  have ht : [Turn.service (db [(annotationConfig, config)] true)][e.thread]? =
      some (.service (db [(annotationConfig, config)] true)) := by rw [hthread]; rfl
  have hentitled := entitled_of_called hs hsuffix ht
  rw [hop, hthread] at hentitled
  exact ⟨s, e, hist, headscale, id, hs, hsuffix, hop, hentitled.1⟩

end Headmaster.Operator.Proxy
