import Headmaster.Process.Pool
import Headmaster.Operator.Proxy.Ingress
import Headmaster.Operator.Proxy.Service

/-!
# Reconciles on a cluster

The reconciles of Ingresses and of Services as threads on the API server
(`reconciles`). Of the server the Secrets in the namespace of the operator are
kept (`Cluster`); what is not in a Secret, and headscale, is answered in any
way. Between two requests others may change the Secrets, as the pod of a proxy
does when it has registered.
-/

namespace Headmaster.Operator.Proxy

open Process (Machine Pool)

/-! ## Objects -/

/-- An object, as it is when it is reconciled. -/
inductive Turn
  | ingress (ing : RoutedIngress)
  | service (svc : PortedService)

namespace Turn

def metadata : Turn → ObjectMeta
  | ingress ing => ing.metadata
  | service svc => svc.metadata

variable (read : Reader) (digest : Digest) (dep : Deployment)

def names : Turn → ProxyNames
  | ingress ing => ing.names digest
  | service svc => svc.names digest

def parent : Turn → ObjectReference
  | ingress ing => ing.parent
  | service svc => svc.parent

def reconcile : Turn → M Action
  | ingress ing => ing.reconcile read digest dep
  | service svc => svc.reconcile read digest dep

/-- The object lives, and is no longer one for the controllers of the deployment. -/
def released (t : Turn) : Bool :=
  !t.metadata.deleting && (!isOurs read dep.toContext t.metadata ||
    match t with
    | ingress ing => !ing.hasClass
    | service svc => !svc.hasConfig)

/-- It is released, and its annotation does not say which headscale it was for. -/
def releasedBlindly (t : Turn) : Bool :=
  t.released read dep && (IngressAnnotations.headscaleRefOf read t.metadata).isNone

/-- The headscale that the node of a proxy is recorded with: in the state Secret, or else in the
    annotation. -/
def recordedRef (t : Turn) (stateSecret : Secret) : Option String :=
  (headscaleRef stateSecret).or (IngressAnnotations.headscaleRefOf read t.metadata)

end Turn

/-! ## The cluster -/

/-- A run of a container that has ended, in seconds. -/
structure ContainerRun where
  container : String
  started : Int
  finished : Int
  deriving DecidableEq

/-- A container of a pod, with its last run that has ended. -/
structure Container where
  name : String
  waitingReason : Option String := none
  last : Option ContainerRun := none

def Container.status (c : Container) : ContainerStatus where
  waitingReason := c.waitingReason
  lastFinishedAt := c.last.map (·.finished)

/-- A pre-auth key that the headscale of an instance has minted, in seconds. -/
structure Mint where
  instanceName : String
  key : String
  time : Nat
  expiration : Int
  lifetime : Nat

/-- What the API server has, most of it in the namespace of the operator, and what headscale has
    given out. -/
structure Cluster where
  /-- The clock, in seconds. -/
  now : Nat := 0
  secrets : String → Option Secret := fun _ => none
  /-- The child Services of proxies. -/
  children : String → Option ServiceSpec := fun _ => none
  configMaps : String → Option Json := fun _ => none
  policies : String → Option NetworkPolicy := fun _ => none
  statefulSets : String → Option ProxyStatefulSet := fun _ => none
  pods : String → Option (List Container) := fun _ => none
  /-- All runs of the containers of a pod that have ended. -/
  runs : String → List ContainerRun := fun _ => []
  /-- The Services of all namespaces. -/
  services : List Service := []
  /-- What the override of the cluster DNS rewrites. -/
  override : List (String × String) := []
  /-- The pre-auth keys that were minted for a Secret, the latest first. -/
  minted : String → List Mint := fun _ => []
  /-- The nodes that the pod of a proxy has registered as, with the instances. -/
  issued : String → List (String × Nat) := fun _ => []

/-- How a request goes: the server answers it, or it fails, possibly after it had its effect; what
    a server that works is free to answer; and the answers to everything that is not kept here. -/
structure Fate where
  failure : Option Bool := none
  nodePort : Int := 30000
  answer : (o : Op) → o.Ans

namespace Fate

variable {α : Type} (f : Fate) (w w' : Cluster) (r : Except KubeError α)

/-- A failure is never the one that says that there is no such object. -/
def serve : Except KubeError α × Cluster :=
  match f.failure with
  | none => (r, w')
  | some effect => (.error .other, if effect then w' else w)

variable {f w w' r}

/-- A request that was answered by its server had its effect. -/
theorem serve_ok {a : α} (h : (f.serve w w' r).1 = .ok a) : r = .ok a ∧ (f.serve w w' r).2 = w' := by
  rw [serve] at h ⊢
  split at h
  · exact ⟨h, rfl⟩
  · cases h

theorem serve_notFound (h : (f.serve w w' r).1 = .error .notFound) : r = .error .notFound := by
  rw [serve] at h
  split at h
  · exact h
  · cases h

/-- An object that is gone after it was asked for has gone then, or had before. -/
theorem serve_of_ignoring404 {r : Except KubeError Unit}
    (h : ignoring404 (f.serve w w' r).1 = .ok ()) : (f.serve w w' r).2 = w' := by
  rw [serve] at h ⊢
  split at h
  · rfl
  · cases h

theorem serve_snd : (f.serve w w' r).2 = w ∨ (f.serve w w' r).2 = w' := by
  rw [serve]
  split
  · exact .inr rfl
  · split
    · exact .inr rfl
    · exact .inl rfl

/-- What the effect leaves alone. -/
theorem serve_keeps {β : Type} {φ : Cluster → β} (h : φ w' = φ w) : φ (f.serve w w' r).2 = φ w := by
  rcases @serve_snd α f w w' r with hs | hs <;> rw [hs]
  exact h

@[simp]
theorem serve_same : (f.serve w w r).2 = w := serve_keeps (φ := id) rfl

end Fate

/-- An object by its name. -/
def find {α : Type} : Option α → Except KubeError α
  | some a => .ok a
  | none => .error .notFound

namespace Cluster

variable (w : Cluster) (name : String)

def setSecret (secret : Option Secret) : Cluster :=
  { w with secrets := Function.update w.secrets name secret }

def setChild (spec : Option ServiceSpec) : Cluster :=
  { w with children := Function.update w.children name spec }

def setConfigMap (serveJson : Option Json) : Cluster :=
  { w with configMaps := Function.update w.configMaps name serveJson }

def setPolicy (policy : Option NetworkPolicy) : Cluster :=
  { w with policies := Function.update w.policies name policy }

def setStatefulSet (spec : Option ProxyStatefulSet) : Cluster :=
  { w with statefulSets := Function.update w.statefulSets name spec }

@[simp]
theorem secrets_setSecret (secret : Option Secret) : (w.setSecret name secret).secrets name = secret :=
  Function.update_self ..

theorem secrets_setSecret_of_ne {other : String} (hne : other ≠ name) (secret : Option Secret) :
    (w.setSecret name secret).secrets other = w.secrets other := Function.update_of_ne hne ..

/-- What is not applied stays. -/
def appliedSecret (data : List (String × Bytes)) : Secret :=
  match w.secrets name with
  | some secret => { secret with data := Props.extend secret.data data }
  | none => { data, created := some (w.now : Int) }

/-- The address of a Service is kept, and cannot be changed. -/
def applyService (spec : ServiceSpec) : Except KubeError Unit × Cluster :=
  match w.children name with
  | some old =>
    if spec.clusterIp.isSome ∧ spec.clusterIp ≠ old.clusterIp then (.error .other, w)
    else
      (.ok (), w.setChild name (some { spec with clusterIp := old.clusterIp }))
  | none => (.ok (), w.setChild name (some spec))

/-- A child Service as it is read. -/
def readService (nodePort : Int) (spec : ServiceSpec) : PortedService where
  metadata := { name }
  type := spec.type
  clusterIp := spec.clusterIp
  ports := spec.ports.map fun p =>
    { p with nodePort := if spec.type == some "NodePort" then some nodePort else none }

def recordMint (m : Mint) : Cluster :=
  { w with minted := Function.update w.minted name (m :: w.minted name) }

@[simp]
theorem minted_recordMint (m : Mint) : (w.recordMint name m).minted name = m :: w.minted name :=
  Function.update_self ..

/-- A key that headscale returns is recorded; it is not empty. -/
def mint (headscale : AuthenticatedClient) (request : CreatePreAuthKeyRequest) :
    Except Status (Option PreAuthKey) → Except Status (Option PreAuthKey) × Cluster
  | .error s => (.error s, w)
  | .ok key =>
    match key.filter (·.key ≠ "") with
    | none => (.ok none, w)
    | some key =>
      (.ok (some key), w.recordMint request.configSecretName
        ⟨headscale.instanceName, key.key, w.now, request.expiration, request.lifetime⟩)

end Cluster

def act (f : Fate) : (o : Op) → Cluster → o.Ans × Cluster
  | .getSecret name, w => f.serve w w (find (w.secrets name))
  | .getInstance name, w => ((f.answer (.getInstance name)).map fun inst => { inst with name }, w)
  | .getWgService name, w =>
    f.serve w w (find ((w.children name).map (Cluster.readService name f.nodePort)))
  | .getPod name, w => f.serve w w (find ((w.pods name).map (·.map Container.status)))
  | .listServices, w => f.serve w w (.ok w.services)
  | .apply _ (.secret name data), w =>
    f.serve w (w.setSecret name (some (w.appliedSecret name data))) (.ok ())
  | .apply _ (.service name spec), w =>
    f.serve w (w.applyService name spec).2 (w.applyService name spec).1
  | .apply _ (.configMap name serveJson), w =>
    f.serve w (w.setConfigMap name (some serveJson)) (.ok ())
  | .apply _ (.statefulSet name spec), w =>
    f.serve w (w.setStatefulSet name (some spec)) (.ok ())
  | .apply _ (.networkPolicy policy), w =>
    f.serve w (w.setPolicy policy.name (some policy)) (.ok ())
  | .delete (.secret _) name, w =>
    f.serve w (w.setSecret name none) ((find (w.secrets name)).map fun _ => ())
  | .delete .service name, w =>
    f.serve w (w.setChild name none) ((find (w.children name)).map fun _ => ())
  | .delete .configMap name, w =>
    f.serve w (w.setConfigMap name none) ((find (w.configMaps name)).map fun _ => ())
  | .delete .statefulSet name, w =>
    f.serve w (w.setStatefulSet name none) ((find (w.statefulSets name)).map fun _ => ())
  | .delete .networkPolicy name, w =>
    f.serve w (w.setPolicy name none) ((find (w.policies name)).map fun _ => ())
  | .applyOverride rewrites, w => f.serve w { w with override := rewrites } (.ok ())
  | .createPreAuthKey headscale request, w => w.mint headscale request
    (f.answer (.createPreAuthKey headscale request))
  | .now, w => (w.now, w)
  | o, w => (f.answer o, w)

/-- Between two requests others may change the cluster. -/
def cluster : Machine sig Cluster Fate (Cluster → Cluster) where
  act := act
  ready _ _ := true
  env g := g

/-- Reconciles of objects, in any order. -/
def reconciles (read : Reader) (digest : Digest) (dep : Deployment) (turns : List Turn)
    (w : Cluster) : Pool sig Error Action Cluster :=
  { world := w, threads := turns.map (Turn.reconcile read digest dep) }

/-- An answer without failure, of a server with one instance. -/
def answerOf (inst : Instance) : (o : Op) → o.Ans
  | .getSecret _ => .error .notFound
  | .getInstance _ => .ok inst
  | .getService _ _ => .error .notFound
  | .listServices => .ok []
  | .getWgService _ => .error .notFound
  | .getNamespace _ => .ok false
  | .getPod _ => .error .notFound
  | .getParent _ => .ok {}
  | .apply _ _ | .delete _ _ | .patchParent _ _ | .applyOverride _ | .publish _ _ => .ok ()
  | .connect _ => true
  | .getNode _ _ => .ok (some {})
  | .deleteNode _ _ | .setTags _ _ _ | .deletePreAuthKey _ _ => .ok ()
  | .listUsers _ _ => .ok []
  | .createPreAuthKey _ _ => .ok (some ⟨1, "key"⟩)
  | .now => (0 : Nat)
  | .join deletions => ⟨deletions, .refl _⟩

/-! ## What the requests do -/

variable {f : Fate} {w : Cluster} {name : String}

theorem find_ok {α : Type} {a : α} : {o : Option α} → find o = .ok a → o = some a
  | some _, rfl => rfl

theorem find_notFound {α : Type} : {o : Option α} → find o = .error .notFound → o = none
  | none, _ => rfl

/-- A Secret is read as it is on the server. -/
theorem secret_of_getSecret {secret : Secret}
    (h : (cluster.act f (.getSecret name) w).1 = .ok secret) : w.secrets name = some secret :=
  find_ok (Fate.serve_ok h).1

theorem no_secret_of_getSecret
    (h : (cluster.act f (.getSecret name) w).1 = .error .notFound) : w.secrets name = none :=
  find_notFound (Fate.serve_notFound h)

/-- A key that is returned was recorded. -/
theorem mint_ok {headscale : AuthenticatedClient} {request : CreatePreAuthKeyRequest}
    {r : Except Status (Option PreAuthKey)} {key : PreAuthKey}
    (h : (w.mint headscale request r).1 = .ok (some key)) : key.key ≠ "" ∧
      (w.mint headscale request r).2 = w.recordMint request.configSecretName
        ⟨headscale.instanceName, key.key, w.now, request.expiration, request.lifetime⟩ := by
  match r with
  | .error _ => cases h
  | .ok minted =>
    rw [Cluster.mint] at h ⊢
    cases hkey : minted.filter (·.key ≠ "") with
    | none =>
      rw [hkey] at h
      cases Except.ok.inj h
    | some key' =>
      rw [hkey] at h
      obtain rfl : key' = key := Option.some.inj (Except.ok.inj h)
      exact ⟨of_decide_eq_true (Option.filter_eq_some_iff.1 hkey).2, rfl⟩

/-- What is applied to a Secret is read from it. -/
theorem readSecretString_appliedSecret (key value : String) :
    readSecretString (w.appliedSecret name [(key, .utf8 value)]) key = some value := by
  rw [readSecretString, Cluster.appliedSecret]
  split
  · simp [Props.lookup_extend, Props.last, Bytes.text?]
  · simp [Bytes.text?]

end Headmaster.Operator.Proxy
