import Headmaster.Operator.Proxy.Parent

/-!
# The Ingress controller

The reconcile of an Ingress
(`src/operator/src/controllers/ingress/reconcile.rs`) and the routes that its
proxy serves (`serve.rs` in the same directory).
-/

namespace Headmaster.Operator.Proxy

/-! ## Routes -/

structure ProxyRoute where
  path : String
  backendUrl : String
  deriving DecidableEq

/-- The number of a named port of a Service. -/
def resolveServicePort (svcName ns portName : String) : M (Option Int) := do
  match ← call (.getService ns svcName) with
  | .error _ => return none
  | .ok service => return (service.ports.find? fun p => p.name == some portName).map (·.port)

def portNumber (svcName ns : String) (portRef : ServiceBackendPort) : M (Option Int) :=
  match portRef.number, portRef.name with
  | some n, _ => return some n
  | none, some portName => resolveServicePort svcName ns portName
  | none, none => return none

/-- The route of a path, unless its backend has no port, or none that is known. -/
def routeOf (ns : String) (p : HTTPIngressPath) : M (Option ProxyRoute) :=
  match p.service with
  | none => return none
  | some svc =>
    match svc.port with
    | none => return none
    | some portRef => do
      return (← portNumber svc.name ns portRef).map fun port =>
        { path := p.path.getD "/"
          backendUrl := "http://" ++ svc.name ++ "." ++ ns ++ ".svc.cluster.local:" ++ toString port }

/-- The routes, those with longer paths first. -/
def longestFirst (routes : List ProxyRoute) : List ProxyRoute :=
  routes.insertionSort fun r s => s.path.utf8ByteSize ≤ r.path.utf8ByteSize

/-- The routes, sorted; `none` when the Ingress has no paths. -/
def collectIngressRoutes (ing : RoutedIngress) : M (Option (List ProxyRoute)) := do
  if ing.paths.isEmpty then
    return none
  else
    let routes := (← ing.paths.mapM (routeOf ing.ns)).reduceOption
    return some (longestFirst routes)

def handlerOf (acceptAppCaps : List String) (r : ProxyRoute) : Json :=
  .object (("Proxy", .string r.backendUrl) ::
    if acceptAppCaps.isEmpty then [] else [("AcceptAppCaps", .array (acceptAppCaps.map .string))])

def buildServeJson (tailnetFqdn : String) (routes : List ProxyRoute) (acceptAppCaps : List String) :
    Json :=
  let handlers := Props.extend [] (routes.map fun r => (r.path, handlerOf acceptAppCaps r))
  .object [("TCP", .object [("80", .object [("HTTP", .bool true)])]),
    ("Web", .object [(tailnetFqdn ++ ":80", .object [("Handlers", .object handlers)])])]

/-- The capabilities of the access grants, sorted and without repetitions. -/
def capNames (annotations : IngressAnnotations) : List String :=
  (Std.ExtTreeSet.ofList (annotations.access.flatMap fun grant =>
    (grant.capabilities.map (·.keys)).getD [])).toList

/-! ## The reconcile -/

namespace RoutedIngress

variable (read : Reader) (digest : Digest) (dep : Deployment) (ing : RoutedIngress)

def names : ProxyNames := ProxyNames.new digest ing.ns ing.metadata.name

def parent : ObjectReference := ⟨.ingress, ing.ns, ing.metadata.name⟩

/-- The status goes first, so that it does not outlive the proxy. -/
def release : M Unit := do
  patchParent ing.parent .clearStatus
  releaseFinalizer dep ing.parent

/-- The address of the proxy in the status, once it has one. -/
def report (stateSecret : Secret) : M Unit :=
  match readSecretString stateSecret "device_id" with
  | some _ =>
    match (deviceIps read stateSecret).head? with
    | some ip => do
      patchParent ing.parent (.loadBalancer ip)
      publish ing.parent .ready
    | none => return
  | none =>
    publishWarning ing.parent "ProxyNotRegistered"
      ("proxy for Ingress '" ++ ing.metadata.name ++ "' has not registered with headscale; " ++
        "if this persists beyond the auth-key expiry window, delete the Secret '" ++
        (ing.names digest).configSecretName ++ "' to force key rotation")

/-- The proxy for the routes. -/
def provision (annotations : IngressAnnotations) (inst : Instance) (hostNetwork : Bool)
    (routes : List ProxyRoute) : M Action := do
  let opNs := dep.operatorNamespace
  let names := ing.names digest
  let child : ChildApplier := ⟨inst.name, names.proxyBase, ing.parent⟩
  let autoTag := autoTagFor digest ing.toIngress annotations
  let headscale ← (headscaleConnect opNs annotations.headscaleRef).mapError .kube
  let networking ← applyWireguardService child names hostNetwork
  -- written out in the source, with the steps of the function
  resetIfRetargeted opNs names annotations.headscaleRef
  rotateStaleAuthKey ing.parent headscale names annotations.authKeyExpirySecs
  match ← ensureAuthKey ing.parent headscale child names annotations.user annotations.managedKeyTags
      autoTag annotations.authKeyExpirySecs annotations.authKeyReusable
      (annotations.mode = .tun) with
  | .waitingForUser => return .requeue 30
  | .ready =>
    let stateSecret ← ensureStateSecret child names annotations.headscaleRef
    let tailnetFqdn := annotations.hostname ++ "." ++ inst.dnsBaseDomain
    applyServeConfigmap child names (buildServeJson tailnetFqdn routes (capNames annotations))
    applyProxyRbac child names
    applyProxyStatefulset child names dep.proxyImage (inst.loginUrl opNs annotations.headscaleRef)
      annotations.hostname networking (if annotations.mode = .tun then some dep.tunDevice else none)
    let tagged ← syncTags headscale stateSecret (desiredTags annotations autoTag)
    ing.report read digest stateSecret
    patchParent ing.parent (.claim opNs none)
    return if tagged then .awaitChange else .requeue 30

/-- For an instance that allows the namespace and is ready. -/
def applyReady (annotations : IngressAnnotations) (inst : Instance) (hostNetwork : Bool) :
    M Action := do
  if annotations.emptyFrom then
    publishWarning ing.parent "InvalidConfig" "access grant 'from' must not be empty"
    return .awaitChange
  else
    match ← collectIngressRoutes ing with
    | none =>
      publishWarning ing.parent "NoPathRules"
        "Ingress has no HTTP path rules; add spec.rules with at least one backend"
      deregisterAndCleanup dep (ing.names digest) ing.parent
        annotations.headscaleRef
      return .awaitChange
    | some [] =>
      publishWarning ing.parent "Pending"
        "backend Service not yet available; waiting for named port to resolve"
      return .requeue 30
    | some (route :: routes) =>
      ing.provision read digest dep annotations inst hostNetwork (route :: routes)

/-- For an Ingress of this deployment, with a configuration. -/
def applyConfigured (annotations : IngressAnnotations) : M Action := do
  if annotations.serviceOnly then
    publishWarning ing.parent "InvalidConfig"
      ("'tailnet-fqdn' and 'consumers' do not apply to Ingresses; they configure egress " ++
        "ExternalName Services")
    return .awaitChange
  else
    let hostNetwork ← hostNetworkOf ing.parent annotations
    if ← namespaceIsDeleting ing.ns then
      return .awaitChange
    else
      match ← instanceFor ing.parent annotations with
      | none => return .requeue 30
      | some inst =>
        if !inst.namespaceAllowed ing.ns then
          publishExcluded ing.parent annotations "Ingress"
          deregisterAndCleanup dep (ing.names digest) ing.parent
            annotations.headscaleRef
          ing.release dep
          return .awaitChange
        else if !inst.ready then
          publishNotReady ing.parent annotations
          return .requeue 5
        else
          ing.applyReady read digest dep annotations inst hostNetwork

/-- The Ingress is released when its class, and when its deployment is another one. -/
def apply : M Action :=
  if !ing.hasClass || !isOurs read dep.toContext ing.metadata then do
    takeDown read dep (ing.names digest) ing.parent ing.metadata
    ing.release dep
    return .awaitChange
  else
    match IngressAnnotations.parse read ing.metadata with
    | .error e => throw <| Error.annotation e
    | .ok annotations => ing.applyConfigured read digest dep annotations

def cleanup : M Action := do
  cleanupObject read dep (ing.names digest) ing.parent ing.metadata
  return .awaitChange

def reconcile : M Action :=
  reconcileObject read dep ing.hasClass .ingress ing.metadata (ing.apply read digest dep)
    (ing.cleanup read digest dep)

end RoutedIngress

end Headmaster.Operator.Proxy
