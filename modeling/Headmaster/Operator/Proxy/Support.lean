import Headmaster.Operator.Proxy.Calls

/-!
# What the proxy controllers share

Connecting to the headscale of an instance, taking a proxy down, moving it to
another instance (`src/operator/src/controllers/proxy/support.rs`), and the
children it consists of (`resources.rs` in the same directory).

The state Secret of a proxy says under which node it is registered, which the
pod writes, and with which headscale, which the operator writes.
-/

namespace Headmaster.Operator.Proxy

open Process (Sig Prog)

/-! ## Headscale -/

namespace Instance

variable (inst : Instance) (opNs name : String)

def grpcEndpoint : String :=
  match inst.external with
  | some ext => ext.grpcEndpoint
  | none => "http://headscale-server-" ++ name ++ "." ++ opNs ++ ".svc:50443"

def apiKeySecretName : String :=
  match inst.external with
  | some ext => ext.apiKeySecretRef
  | none => "headscale-api-key-" ++ name

/-- The URL that the proxy logs in to. -/
def loginUrl : String :=
  match inst.external with
  | some _ => inst.serverUrl
  | none => "http://headscale-server-" ++ name ++ "." ++ opNs ++ ".svc.cluster.local:8080"

end Instance

/-- Of its failures, 404 is left to an instance or a Secret with the API key that is not there. -/
def headscaleConnect (opNs name : String) : Prog sig KubeError AuthenticatedClient := do
  match ← Prog.op (σ := sig) (.getInstance name) with
  | .error e => throw e
  | .ok inst =>
    match ← Prog.op (σ := sig) (.getSecret (inst.apiKeySecretName name)) with
    | .error e => throw e
    | .ok secret =>
      match secret.data.lookup "HEADSCALE_API_KEY" with
      | none => throw .other
      | some apiKey =>
        let headscale := ⟨name, inst.grpcEndpoint opNs name, apiKey.lossy⟩
        match ← Prog.op (σ := sig) (.connect headscale) with
        | true => return headscale
        | false => throw .other

/-- A node that headscale does not have counts as deleted. -/
def deletedOrGone : Except Status Unit → M Unit
  | .ok () => pure ()
  | .error s => if s.code = .notFound then pure () else throw (.headscaleApi s)

/-- The node that a state Secret names, if it is a number. -/
def deviceId (secret : Secret) : Option Nat := (readSecretString secret "device_id").bind parseU64

def headscaleRef (secret : Secret) : Option String := readSecretString secret "headscale_ref"

/-! ## Taking a proxy down -/

/-- What a proxy consists of. -/
def proxyResources (names : ProxyNames) : List (Kind × String) :=
  [(.statefulSet, names.proxyName), (.service, names.wgServiceName),
    (.secret .cleanup, names.configSecretName), (.secret .cleanup, names.stateSecretName),
    (.configMap, names.serveConfigmapName), (.networkPolicy, names.proxyName),
    (.roleBinding, names.proxyName), (.role, names.proxyName), (.serviceAccount, names.proxyName)]

/-- One that fails does not keep the others from being deleted. -/
def cleanupProxyResources (names : ProxyNames) : M Unit := do
  let order ← call (.join (proxyResources names))
  order.1.forM fun (kind, name) => do
    let _ ← call (.delete kind name)

/-- The note of a node that is left behind, with the error of the connection. -/
def orphanedNote (id : Nat) (e : String) : String :=
  "could not connect to headscale to delete node " ++ toString id ++ ": " ++ e ++
    "; the node may remain registered in headscale"

/-- Delete a node; when there is no connection, say so in an event. -/
def deregister (dep : Deployment) (parentRef : ObjectReference) (headscaleRef : String) (id : Nat) :
    M Unit := do
  match ← (headscaleConnect dep.operatorNamespace headscaleRef).attempt with
  | .error e => publishWarning parentRef "NodeOrphaned" (orphanedNote id (dep.displayKube e))
  | .ok headscale =>
    deletedOrGone (← call (.deleteNode headscale id))
    publish parentRef .deleted

def deregisterAndCleanup (dep : Deployment) (names : ProxyNames) (parentRef : ObjectReference)
    (headscaleRefFallback : String) : M Unit := do
  let stateSecret ← ifFound (← call (.getSecret names.stateSecretName))
  match stateSecret.bind deviceId with
  | some id =>
    let ref := (stateSecret.bind headscaleRef).getD headscaleRefFallback
    deregister dep parentRef ref id
  | none => pure ()
  cleanupProxyResources names

/-! ## Moving a proxy -/

/-- The instance that a proxy was for, if it is to be for another one now, and its node there. -/
def retargetOf (newHeadscaleRef : String) (secret : Secret) : Option (String × Option Nat) :=
  ((headscaleRef secret).filter (· ≠ newHeadscaleRef)).map fun r => (r, deviceId secret)

def deregisterOld (opNs oldHeadscaleRef : String) (nodeId : Nat) : M Unit := do
  match ← (headscaleConnect opNs oldHeadscaleRef).attempt with
  | .ok oldHeadscale => deletedOrGone (← call (.deleteNode oldHeadscale nodeId))
  | .error .notFound => pure ()
  | .error e => throw (.kube e)

def resetIfRetargeted (opNs : String) (names : ProxyNames) (newHeadscaleRef : String) : M Unit := do
  let stateSecret ← ifFound (← call (.getSecret names.stateSecretName))
  match stateSecret.bind (retargetOf newHeadscaleRef) with
  | none => pure ()
  | some (oldHeadscaleRef, oldNodeId) =>
    match oldNodeId with
    | some nodeId => deregisterOld opNs oldHeadscaleRef nodeId
    | none => pure ()
    deleteIgnoring404 (.secret .retarget) names.configSecretName
    deleteIgnoring404 (.secret .retarget) names.stateSecretName

/-! ## Namespaces -/

/-- A namespace that is not there counts as being deleted. -/
def namespaceIsDeleting (ns : String) : M Bool := do
  return (← ifFound (← call (.getNamespace ns))).getD true

/-! ## Children -/

def wireguardPodPort : Int := 41641

/-- A Service that is to be headless, or not to be, cannot be patched into it. -/
def ensureServiceShape (names : ProxyNames) (wantHeadless : Bool) : M Unit := do
  match ← ifFound (← call (.getWgService names.wgServiceName)) with
  | none => pure ()
  | some svc =>
    let isHeadless := svc.clusterIp == some "None"
    if isHeadless != wantHeadless then
      deleteIgnoring404 .service names.wgServiceName

def applyWireguardService (child : ChildApplier) (names : ProxyNames) (hostNetwork : Bool) :
    M ProxyNetworking := do
  ensureServiceShape names hostNetwork
  if hostNetwork then
    apply child (.service names.wgServiceName
      { clusterIp := some "None"
        ports := [{ name := some "wireguard", protocol := some "UDP", port := wireguardPodPort }] })
    return .host
  else
    apply child (.service names.wgServiceName
      { type := some "NodePort"
        externalTrafficPolicy := some "Local"
        ports := [{ name := some "wireguard", protocol := some "UDP", port := wireguardPodPort
                    targetPort := some (.int wireguardPodPort) }] })
    let svc ← fromKube (← call (.getWgService names.wgServiceName))
    match svc.ports.head?.bind (·.nodePort) with
    | some nodePort => return .nodePort nodePort
    | none => throw .nodePortNotAssigned

def ensureStateSecret (child : ChildApplier) (names : ProxyNames) (headscaleRef : String) :
    M Secret := do
  apply child (.secret names.stateSecretName [("headscale_ref", .utf8 headscaleRef)])
  fromKube (← call (.getSecret names.stateSecretName))

def applyServeConfigmap (child : ChildApplier) (names : ProxyNames) (serveJson : Json) : M Unit :=
  apply child (.configMap names.serveConfigmapName serveJson)

def applyProxyRbac (child : ChildApplier) (names : ProxyNames) : M Unit := do
  apply child (.serviceAccount names.proxyName)
  apply child (.role names.proxyName names.stateSecretName)
  apply child (.roleBinding names.proxyName)

def applyProxyStatefulset (child : ChildApplier) (names : ProxyNames)
    (proxyImage headscaleUrl hostname : String) (networking : ProxyNetworking)
    (tunDevice : Option TunDeviceAccess) : M Unit :=
  apply child (.statefulSet names.proxyName
    (.serve proxyImage headscaleUrl hostname networking tunDevice))

def applyTunProxyStatefulset (child : ChildApplier) (names : ProxyNames)
    (proxyImage headscaleUrl hostname destIp : String) (nodePort : Int)
    (tunDevice : TunDeviceAccess) : M Unit :=
  apply child (.statefulSet names.proxyName
    (.tun proxyImage headscaleUrl hostname destIp nodePort tunDevice))

end Headmaster.Operator.Proxy
