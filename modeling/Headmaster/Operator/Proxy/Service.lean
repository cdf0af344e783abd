import Headmaster.Operator.Proxy.Parent

/-!
# The Service controller

The reconcile of a Service
(`src/operator/src/controllers/external_service/reconcile.rs`): an ExternalName
Service gets a proxy out of the tailnet, its egress, and any other Service one
into it (`expose.rs` in the same directory). What is rewritten for the names of
the tailnet is computed in `Headmaster.Operator.EgressDns`.
-/

namespace Headmaster.Operator.Proxy

/-! ## Ports -/

def isTcp (p : ServicePort) : Bool := p.protocol.all (· == "TCP")

/-- What an egress proxy forwards: each TCP port, and the port behind it. -/
def collectTcpForwards (svc : PortedService) : List (Int × Int) :=
  (svc.ports.filter isTcp).map fun p =>
    (p.port, match p.targetPort with
      | some (.int n) => n
      | _ => p.port)

/-- What a userspace proxy forwards. -/
def collectExposeTcpPorts (svc : PortedService) : List Int :=
  (svc.ports.filter isTcp).map (·.port)

def listenPortBase : Int := 10000

/-- The ports that an egress proxy listens on. -/
def listenPorts (forwards : List (Int × Int)) : List Int :=
  (List.range forwards.length).map fun idx => listenPortBase + idx

/-- The ports of the Service in front of an egress proxy. -/
def forwardPorts (forwards : List (Int × Int)) : List ServicePort :=
  (forwards.zip (listenPorts forwards)).map fun ((port, _), listen) =>
    { name := some ("fwd-" ++ toString port), protocol := some "TCP", port
      targetPort := some (.int listen) }

/-- What tailscaled listens on within the pod. -/
def socks5Port : Int := 1055

/-- One socat for each forward, in the background, and what keeps the container alive. -/
def forwarderScript (tailnetFqdn : String) (forwards : List (Int × Int)) : String :=
  let lines := forwards.zipIdx.map fun ((_, backend), idx) =>
    "socat TCP-LISTEN:" ++ toString (listenPortBase + idx) ++ ",fork,reuseaddr " ++
      "SOCKS5-CONNECT:127.0.0.1:" ++ toString socks5Port ++ ":" ++ tailnetFqdn ++ ":" ++
      toString backend ++ " &"
  "\n".intercalate (lines ++ ["wait"])

structure ContainerPort where
  name : Option String := none
  containerPort : Int
  protocol : Option String := none
  deriving DecidableEq

structure ContainerSpec where
  name : String
  image : String
  command : List String := []
  ports : List ContainerPort := []
  deriving DecidableEq

/-- The container of an egress proxy that forwards. -/
def forwarder (socatImage tailnetFqdn : String) (forwards : List (Int × Int)) : ContainerSpec where
  name := "forwarder"
  image := socatImage
  command := ["/bin/sh", "-c", forwarderScript tailnetFqdn forwards]
  ports := forwards.zipIdx.map fun ((port, _), idx) =>
    { name := some ("fwd-" ++ toString port), containerPort := listenPortBase + idx
      protocol := some "TCP" }

def buildExposeServeJson (backendHost : String) (ports : List Int) : Json :=
  .object [("TCP", .object (Props.extend [] (ports.map fun port =>
    (toString port, .object [("TCPForward", .string (backendHost ++ ":" ++ toString port))]))))]

/-! ## Consumers -/

def buildConsumerPolicy (names : ProxyNames) (consumers : List EgressConsumer)
    (forwards : List (Int × Int)) : NetworkPolicy where
  name := names.proxyName
  selects := names.proxyBase
  peers := consumers
  ports := listenPorts forwards

def checkConsumer (parent : ObjectReference) (consumer : EgressConsumer) : M Unit := do
  match ← ifFound (← call (.getNamespace consumer.namespaceName)) with
  | some _ => return
  | none =>
    publishWarning parent "ConsumerNamespaceMissing"
      ("consumers entry references namespace '" ++ consumer.namespaceName ++
        "', which does not                              exist; its pods will be denied until it does")

/-- Without consumers there is no policy: any pod may use the proxy. -/
def applyConsumerPolicy (child : ChildApplier) (names : ProxyNames)
    (consumers : List EgressConsumer) (forwards : List (Int × Int)) : M Unit := do
  if consumers.isEmpty then
    deleteIgnoring404 .networkPolicy names.proxyName
  else
    consumers.forM (checkConsumer child.parent)
    apply child (.networkPolicy (buildConsumerPolicy names consumers forwards))

/-! ## DNS -/

section Dns

variable (read : Reader) (digest : Digest) (dep : Deployment)

def publishDuplicate (dup : Duplicate) : M Unit :=
  publishWarning ⟨.service, dup.service.ns, dup.service.metadata.name⟩ "DuplicateTailnetFqdn"
    ("tailnet-fqdn '" ++ dup.fqdn ++ "' is already rewritten to the egress proxy of Service '" ++
      dup.winnerNs ++ "/" ++ dup.winnerName ++ "'; a tailnet FQDN must be cluster-unique — this " ++
      "Service's egress works, but in-cluster DNS resolves the name to the other proxy")

/-- The override is computed anew from all Services. -/
def syncEgressDns : M Unit := do
  if !dep.egressDnsCorednsCustom then
    return
  else
    let services ← fromKube (← call .listServices)
    let (rewrites, duplicates) := collectRewrites read digest dep.toContext services
    duplicates.forM publishDuplicate
    fromKube (← call (.applyOverride rewrites))

end Dns

/-! ## The reconcile -/

namespace PortedService

variable (read : Reader) (digest : Digest) (dep : Deployment) (svc : PortedService)

def names : ProxyNames := ProxyNames.forService digest svc.ns svc.metadata.name

def parent : ObjectReference := ⟨.service, svc.ns, svc.metadata.name⟩

/-- The proxy is registered once the state Secret names a node, and ready with an address;
    `before` and `after` go around the name of the Service in the warning. -/
def report (before after : String) (stateSecret : Secret) : M Unit :=
  match readSecretString stateSecret "device_id" with
  | some _ => if (deviceIps read stateSecret).isEmpty then return else publish svc.parent .ready
  | none =>
    publishWarning svc.parent "ProxyNotRegistered"
      (before ++ svc.metadata.name ++ after ++ (svc.names digest).configSecretName ++
        "' to force key rotation")

/-! ### Egress -/

/-- What is set for other proxies only. -/
def warnIgnored (annotations : IngressAnnotations) : M Unit := do
  if !annotations.access.isEmpty then
    publishWarning svc.parent "IgnoredConfig"
      ("'access' does not apply to egress proxies; grant this proxy's tag access to the destination " ++
        "in the tailnet ACL instead")
  if annotations.hostNetwork then
    publishWarning svc.parent "IgnoredConfig"
      "'host-network' does not apply to egress proxies; ignored"
  if annotations.mode ≠ .tsnet then
    publishWarning svc.parent "IgnoredConfig"
      ("'mode' does not apply to egress proxies; it selects the packet path for Ingress and exposed " ++
        "Service proxies")

def provisionEgress (annotations : IngressAnnotations) (tailnetFqdn : String)
    (forwards : List (Int × Int)) (inst : Instance) : M Action := do
  let opNs := dep.operatorNamespace
  let names := svc.names digest
  let child : ChildApplier := ⟨inst.name, names.proxyBase, svc.parent⟩
  let headscale ← (headscaleConnect opNs annotations.headscaleRef).mapError .kube
  resetIfRetargeted opNs names annotations.headscaleRef
  rotateStaleAuthKey svc.parent headscale names annotations.authKeyExpirySecs
  match ← ensureAuthKey svc.parent headscale child names annotations.user annotations.managedKeyTags
      none annotations.authKeyExpirySecs annotations.authKeyReusable false with
  | .waitingForUser => return .requeue 30
  | .ready =>
    let stateSecret ← ensureStateSecret child names annotations.headscaleRef
    Proxy.apply child (.service names.wgServiceName { ports := forwardPorts forwards })
    applyProxyRbac child names
    Proxy.apply child (.statefulSet names.proxyName
      (.egress dep.proxyImage dep.socatImage (inst.loginUrl opNs annotations.headscaleRef)
        annotations.hostname tailnetFqdn forwards annotations.consumers))
    applyConsumerPolicy child names annotations.consumers forwards
    patchParent svc.parent
      (.claim opNs (some (names.wgServiceName ++ "." ++ opNs ++ ".svc.cluster.local")))
    let tagged ← syncTags headscale stateSecret (desiredTags annotations none)
    svc.report read digest "egress proxy for Service '"
      ("' has not registered with headscale; if this persists beyond the auth-key expiry window, " ++
        "delete the Secret '") stateSecret
    syncEgressDns read digest dep
    return if tagged then .awaitChange else .requeue 30

/-- The steps from the namespace on, with what to do for an instance that allows it and is
    ready. -/
def applyTo (annotations : IngressAnnotations) (provision : Instance → M Action) : M Action := do
  if ← namespaceIsDeleting svc.ns then
    return .awaitChange
  else
    match ← instanceFor svc.parent annotations with
    | none => return .requeue 30
    | some inst =>
      if !inst.namespaceAllowed svc.ns then
        publishExcluded svc.parent annotations "Service"
        deregisterAndCleanup dep (svc.names digest) svc.parent
          annotations.headscaleRef
        releaseFinalizer dep svc.parent
        return .awaitChange
      else if !inst.ready then
        publishNotReady svc.parent annotations
        return .requeue 5
      else
        provision inst

def applyEgress (annotations : IngressAnnotations) : M Action := do
  match annotations.tailnetFqdn.filter (· ≠ "") with
  | none =>
    publishWarning svc.parent "InvalidConfig"
      ("egress Service needs 'tailnet-fqdn' in the config annotation: the tailnet destination to " ++
        "forward to")
    return .awaitChange
  | some tailnetFqdn =>
    svc.warnIgnored annotations
    let forwards := collectTcpForwards svc
    if forwards.isEmpty then
      publishWarning svc.parent "InvalidConfig"
        "egress Service declares no TCP ports; add spec.ports to forward them"
      return .awaitChange
    else
      svc.applyTo digest dep annotations
        (svc.provisionEgress read digest dep annotations tailnetFqdn forwards)

/-! ### Exposure -/

/-- The proxy of an exposed Service, after its Service and access: a serve configuration in
    userspace, a destination address in the kernel. -/
def applyExposeProxy (annotations : IngressAnnotations) (ports : List Int)
    (clusterIp : Option String) (inst : Instance) (child : ChildApplier)
    (networking : ProxyNetworking) : M Unit := do
  let names := svc.names digest
  let loginUrl := inst.loginUrl dep.operatorNamespace annotations.headscaleRef
  match annotations.mode with
  | .tsnet =>
    let backendHost := svc.metadata.name ++ "." ++ svc.ns ++ ".svc.cluster.local"
    applyServeConfigmap child names (buildExposeServeJson backendHost ports)
    applyProxyStatefulset child names dep.proxyImage loginUrl annotations.hostname networking none
  | .tun =>
    match clusterIp, networking with
    | none, _ => throw (.panic "checked above for tun mode")
    | some _, .host => throw (.panic "BUG: tun proxies always request pod networking")
    | some destIp, .nodePort nodePort =>
      applyTunProxyStatefulset child names dep.proxyImage loginUrl annotations.hostname destIp
        nodePort dep.tunDevice
      deleteIgnoring404 .configMap names.serveConfigmapName

def provisionExpose (annotations : IngressAnnotations) (hostNetwork : Bool) (ports : List Int)
    (clusterIp : Option String) (inst : Instance) : M Action := do
  let opNs := dep.operatorNamespace
  let names := svc.names digest
  let child : ChildApplier := ⟨inst.name, names.proxyBase, svc.parent⟩
  let headscale ← (headscaleConnect opNs annotations.headscaleRef).mapError .kube
  resetIfRetargeted opNs names annotations.headscaleRef
  rotateStaleAuthKey svc.parent headscale names annotations.authKeyExpirySecs
  match ← ensureAuthKey svc.parent headscale child names annotations.user annotations.managedKeyTags
      none annotations.authKeyExpirySecs annotations.authKeyReusable (annotations.mode = .tun) with
  | .waitingForUser => return .requeue 30
  | .ready =>
    let stateSecret ← ensureStateSecret child names annotations.headscaleRef
    let networking ← applyWireguardService child names hostNetwork
    applyProxyRbac child names
    svc.applyExposeProxy digest dep annotations ports clusterIp inst child networking
    -- left by a proxy for egress
    deleteIgnoring404 .networkPolicy names.proxyName
    patchParent svc.parent (.claim opNs none)
    let tagged ← syncTags headscale stateSecret (desiredTags annotations none)
    svc.report read digest "proxy for exposed Service '"
      ("' has not registered with headscale; if this persists beyond the auth-key expiry window, " ++
        "delete the Secret '") stateSecret
    return if tagged then .awaitChange else .requeue 30

def applyExpose (annotations : IngressAnnotations) : M Action := do
  if annotations.serviceOnly then
    publishWarning svc.parent "InvalidConfig"
      ("'tailnet-fqdn' and 'consumers' do not apply to exposed Services; they configure egress " ++
        "ExternalName Services")
    return .awaitChange
  else
    if !annotations.access.isEmpty then
      publishWarning svc.parent "IgnoredConfig"
        ("'access' is not supported on exposed Services; grant access to this proxy's tag in the " ++
          "tailnet ACL instead")
    let hostNetwork ← hostNetworkOf svc.parent annotations
    let ports := collectExposeTcpPorts svc
    let clusterIp := svc.clusterIp.filter fun ip => ip ≠ "None" ∧ ip ≠ ""
    if annotations.mode = .tsnet ∧ ports.isEmpty then
      publishWarning svc.parent "InvalidConfig"
        ("exposed Service declares no TCP ports; add spec.ports so the tsnet proxy knows what to " ++
          "forward")
      return .awaitChange
    else if annotations.mode = .tun ∧ clusterIp.isNone then
      publishWarning svc.parent "InvalidConfig"
        ("tun mode requires a ClusterIP to DNAT to; headless Services can only be exposed in tsnet " ++
          "mode")
      return .awaitChange
    else
      svc.applyTo digest dep annotations
        (svc.provisionExpose read digest dep annotations hostNetwork ports clusterIp)

/-! ### All Services -/

/-- The Service is released when it has no configuration, and when its deployment is another
    one. -/
def apply : M Action :=
  if !svc.hasConfig then do
    takeDown read dep (svc.names digest) svc.parent svc.metadata
    releaseFinalizer dep svc.parent
    syncEgressDns read digest dep
    return .awaitChange
  else if !isOurs read dep.toContext svc.metadata then do
    takeDown read dep (svc.names digest) svc.parent svc.metadata
    releaseFinalizer dep svc.parent
    return .awaitChange
  else
    match IngressAnnotations.parse read svc.metadata with
    | .error e => throw <| Error.annotation e
    | .ok annotations =>
      if svc.isExternalName then svc.applyEgress read digest dep annotations
      else svc.applyExpose read digest dep annotations

def cleanup : M Action := do
  cleanupObject read dep (svc.names digest) svc.parent svc.metadata
  syncEgressDns read digest dep
  return .awaitChange

def reconcile : M Action :=
  reconcileObject read dep (svc.isEgressShape || svc.isExposeShape) .service svc.metadata
    (svc.apply read digest dep) (svc.cleanup read digest dep)

end PortedService

end Headmaster.Operator.Proxy
