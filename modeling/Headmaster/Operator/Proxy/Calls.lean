import Headmaster.Process
import Headmaster.Headscale
import Headmaster.Operator.EgressDns

/-!
# The calls of the proxy controllers

The controllers of Ingresses and of Services run a proxy for each object they
adopt (`src/operator/src/controllers/ingress`, `.../external_service`,
`.../proxy`). They are processes: what they ask of the API server and of
headscale is one operation for each request (`Op`), answered by a result.

Everything but the objects themselves is in the namespace of the operator, and
is told apart by its name.
-/

namespace Headmaster.Operator.Proxy

open Process (Sig Prog)

/-! ## Objects -/

/-- The bytes of a value in a Secret. -/
inductive Bytes
  | utf8 (s : String)
  /-- Not UTF-8; with what a lossy reading makes of it. -/
  | other (lossy : String)
  deriving DecidableEq

namespace Bytes

def text? : Bytes → Option String
  | utf8 s => some s
  | other _ => none

def lossy : Bytes → String
  | utf8 s => s
  | other s => s

end Bytes

structure Secret where
  data : List (String × Bytes) := []
  /-- The creation timestamp, in seconds. -/
  created : Option Int := none
  deriving DecidableEq

def readSecretString (secret : Secret) (key : String) : Option String :=
  (secret.data.lookup key).bind Bytes.text?

def readSecretJson {α : Type} (read : Reader) (deserialize : Json → Option α) (secret : Secret)
    (key : String) : Option α :=
  ((readSecretString secret key).bind read).bind deserialize

/-- `parse::<u64>()`. -/
def parseU64 (s : String) : Option Nat :=
  let digits := match s.toList with
    | '+' :: cs => cs
    | cs => cs
  if digits.isEmpty || !digits.all Char.isDigit then none
  else some (digits.foldl (fun n c => 10 * n + (c.toNat - '0'.toNat)) 0) |>.filter (· < 2 ^ 64)

/-- A headscale that the operator does not run. -/
structure ExternalSpec where
  grpcEndpoint : String
  apiKeySecretRef : String

structure Instance extends HeadscaleInstance where
  serverUrl : String := ""
  dnsBaseDomain : String := ""
  external : Option ExternalSpec := none
  /-- The status says that it is ready. -/
  ready : Bool := false

/-- How `/dev/net/tun` gets into a pod. -/
inductive TunDeviceAccess
  | privileged
  | devicePlugin (resource : String)
  deriving DecidableEq

structure Deployment extends Context where
  proxyImage : String := ""
  socatImage : String := ""
  tunDevice : TunDeviceAccess := .privileged
  egressDnsCorednsCustom : Bool := false
  /-- How the errors of the API server, and of connections, are displayed. -/
  displayKube : KubeError → String

inductive IntOrString
  | int (n : Int)
  | string (s : String)
  deriving DecidableEq

structure ServicePort where
  name : Option String := none
  protocol : Option String := none
  port : Int
  targetPort : Option IntOrString := none
  nodePort : Option Int := none
  deriving DecidableEq

/-- A Service with the ports it declares. -/
structure PortedService extends Service where
  ports : List ServicePort := []
  clusterIp : Option String := none

structure ServiceBackendPort where
  name : Option String := none
  number : Option Int := none

structure IngressServiceBackend where
  name : String
  port : Option ServiceBackendPort := none

structure HTTPIngressPath where
  path : Option String := none
  service : Option IngressServiceBackend := none

/-- An Ingress with the paths of its rules. -/
structure RoutedIngress extends Ingress where
  paths : List HTTPIngressPath := []

structure ContainerStatus where
  /-- `state.waiting.reason`. -/
  waitingReason : Option String := none
  /-- `lastState.terminated.finishedAt`, in seconds. -/
  lastFinishedAt : Option Int := none

inductive ParentKind
  | ingress
  | service
  deriving DecidableEq

/-- The object that a proxy is for. -/
structure ObjectReference where
  kind : ParentKind
  ns : String
  name : String
  deriving DecidableEq

/-- The state of an object on the server, as far as a release reads it. -/
structure LiveObject where
  finalizers : List String := []
  resourceVersion : Option String := none

/-- A connection to headscale. -/
structure AuthenticatedClient where
  /-- The instance it was made for. -/
  instanceName : String
  endpoint : String
  apiKey : String
  deriving DecidableEq

/-- What a controller reads of a node. -/
structure NodeState where
  expiry : Option Int := none
  online : Bool := false

structure CreatePreAuthKeyRequest where
  user : Nat
  reusable : Bool
  ephemeral : Bool
  expiration : Int
  aclTags : List String
  /-- What the expiration was computed from, in seconds; headscale is not told. -/
  lifetime : Nat
  /-- The Secret that the key is for; headscale is not told. -/
  configSecretName : String

structure PreAuthKey where
  id : Nat
  key : String

/-! ## Children -/

/-- How peers reach the WireGuard socket of a proxy. -/
inductive ProxyNetworking
  | nodePort (nodePort : Int)
  | host
  deriving DecidableEq

structure ServiceSpec where
  type : Option String := none
  clusterIp : Option String := none
  externalTrafficPolicy : Option String := none
  ports : List ServicePort := []

/-- The StatefulSets of the three kinds of proxies, by what they are built from. -/
inductive ProxyStatefulSet
  | serve (proxyImage headscaleUrl hostname : String) (networking : ProxyNetworking)
      (tunDevice : Option TunDeviceAccess)
  | tun (proxyImage headscaleUrl hostname destIp : String) (nodePort : Int)
      (tunDevice : TunDeviceAccess)
  /-- With the consumers of the configuration, which are no part of it. -/
  | egress (proxyImage socatImage headscaleUrl hostname tailnetFqdn : String)
      (forwards : List (Int × Int)) (consumers : List EgressConsumer)

/-- Where the proxy logs in. -/
def ProxyStatefulSet.headscaleUrl : ProxyStatefulSet → String
  | serve _ headscaleUrl _ _ _ | tun _ headscaleUrl _ _ _ _ | egress _ _ headscaleUrl _ _ _ _ =>
    headscaleUrl

/-- The policy that admits the consumers of an egress proxy. -/
structure NetworkPolicy where
  name : String
  /-- The pods it is about, by their instance label. -/
  selects : String
  peers : List EgressConsumer
  ports : List Int
  deriving DecidableEq

/-- A resource of a proxy, as it is applied. -/
inductive Child
  | secret (name : String) (data : List (String × Bytes))
  | service (name : String) (spec : ServiceSpec)
  | configMap (name : String) (serveJson : Json)
  | serviceAccount (name : String)
  /-- Access to the state Secret, and to events. -/
  | role (name stateSecretName : String)
  | roleBinding (name : String)
  | statefulSet (name : String) (spec : ProxyStatefulSet)
  | networkPolicy (policy : NetworkPolicy)

/-- What `ChildApplier::for_proxy` stamps on the children of a proxy. -/
structure ChildApplier where
  /-- The instance that owns them. -/
  owner : String
  proxyBase : String
  parent : ObjectReference

/-- Why a Secret is deleted; the server is not told. -/
inductive Deleter
  /-- Its proxy is taken down. -/
  | cleanup
  /-- Its proxy moves to another instance. -/
  | retarget
  /-- Headscale has lost the node. -/
  | lost
  /-- The key is refused. -/
  | rejectedKey
  /-- The node itself is refused. -/
  | rejectedIdentity
  /-- The key has expired unused. -/
  | expired
  deriving DecidableEq

/-- The kinds of children that are deleted. -/
inductive Kind
  | statefulSet
  | service
  | secret (deleter : Deleter)
  | configMap
  | networkPolicy
  | roleBinding
  | role
  | serviceAccount
  deriving DecidableEq

inductive Event
  | ready
  | deleted
  | warning (reason note : String)

/-- A patch of the object that a proxy is for. -/
inductive ParentPatch
  | addFinalizer (finalizer : String)
  | removeFinalizer (finalizer : String)
  | clearStatus
  | loadBalancer (ip : String)
  /-- The `claimed-by` annotation, and for egress the external name. -/
  | claim (operatorNamespace : String) (externalName : Option String)
  /-- The finalizers that remain, without the annotation, if the version is still that. -/
  | release (resourceVersion : String) (finalizers : List String)

/-! ## Requests -/

inductive Op
  | getSecret (name : String)
  | getInstance (name : String)
  /-- Of a Service in any namespace. -/
  | getService (ns name : String)
  | listServices
  /-- The child Service of a proxy. -/
  | getWgService (name : String)
  | getNamespace (name : String)
  | getPod (name : String)
  | getParent (parent : ObjectReference)
  | apply (child : ChildApplier) (resource : Child)
  | delete (kind : Kind) (name : String)
  | patchParent (parent : ObjectReference) (patch : ParentPatch)
  /-- The override of the cluster DNS, with one rewrite for each egress name. -/
  | applyOverride (rewrites : List (String × String))
  | publish (parent : ObjectReference) (event : Event)
  /-- Whether the connection comes about. -/
  | connect (headscale : AuthenticatedClient)
  | getNode (headscale : AuthenticatedClient) (nodeId : Nat)
  | deleteNode (headscale : AuthenticatedClient) (nodeId : Nat)
  | setTags (headscale : AuthenticatedClient) (nodeId : Nat) (tags : List String)
  | listUsers (headscale : AuthenticatedClient) (name : String)
  | createPreAuthKey (headscale : AuthenticatedClient) (request : CreatePreAuthKeyRequest)
  | deletePreAuthKey (headscale : AuthenticatedClient) (id : Nat)
  /-- The clock, in seconds. -/
  | now
  /-- Deletions that are joined, for the order in which they are served. -/
  | join (deletions : List (Kind × String))

def Op.Ans : Op → Type
  | getSecret _ => Except KubeError Secret
  | getInstance _ => Except KubeError Instance
  | getService _ _ => Except KubeError PortedService
  | listServices => Except KubeError (List Service)
  | getWgService _ => Except KubeError PortedService
  -- whether it is being deleted
  | getNamespace _ => Except KubeError Bool
  | getPod _ => Except KubeError (List ContainerStatus)
  | getParent _ => Except KubeError LiveObject
  | apply _ _ => Except KubeError Unit
  | delete _ _ => Except KubeError Unit
  | patchParent _ _ => Except KubeError Unit
  | applyOverride _ => Except KubeError Unit
  | publish _ _ => Except KubeError Unit
  | connect _ => Bool
  | getNode _ _ => Except Status (Option NodeState)
  | deleteNode _ _ => Except Status Unit
  | setTags _ _ _ => Except Status Unit
  | listUsers _ _ => Except Status (List User)
  | createPreAuthKey _ _ => Except Status (Option PreAuthKey)
  | deletePreAuthKey _ _ => Except Status Unit
  | now => Nat
  | join deletions => { order : List (Kind × String) // order.Perm deletions }

abbrev sig : Sig := ⟨Op, Op.Ans⟩

inductive Error
  | kube (e : KubeError)
  | headscaleApi (s : Status)
  | annotation (e : AnnotationError)
  | missingNamespace
  | nodePortNotAssigned
  /-- A panic, which ends the reconcile. -/
  | panic (message : String)

abbrev M := Prog sig Error

def call (o : Op) : M o.Ans := Prog.op (σ := sig) o

def fromKube {α : Type} (r : Except KubeError α) : M α := .ofExcept (r.mapError .kube)

def fromStatus {α : Type} (r : Except Status α) : M α := .ofExcept (r.mapError .headscaleApi)

/-- An object that the server may not have. -/
def ifFound {α : Type} : Except KubeError α → M (Option α)
  | .ok a => pure (some a)
  | .error .notFound => pure none
  | .error .other => throw (.kube .other)

theorem ifFound_ok_bind {α β : Type} (a : α) (k : Option α → M β) :
    ifFound (.ok a) >>= k = k (some a) := rfl

/-- `delete_ignoring_404`. -/
def ignoring404 : Except KubeError Unit → Except KubeError Unit
  | .error .notFound => .ok ()
  | r => r

def deleteIgnoring404 (kind : Kind) (name : String) : M Unit := do
  fromKube (ignoring404 (← call (.delete kind name)))

def publish (parent : ObjectReference) (event : Event) : M Unit := do
  -- the answer is ignored
  let _ ← call (.publish parent event)

def publishWarning (parent : ObjectReference) (reason note : String) : M Unit :=
  publish parent (.warning reason note)

def apply (child : ChildApplier) (resource : Child) : M Unit := do
  fromKube (← call (.apply child resource))

def patchParent (parent : ObjectReference) (patch : ParentPatch) : M Unit := do
  fromKube (← call (.patchParent parent patch))

/-- What a controller asks to happen next. -/
inductive Action
  | awaitChange
  /-- After that many seconds. -/
  | requeue (secs : Nat)
  deriving DecidableEq

end Headmaster.Operator.Proxy
