import Headmaster.Operator.Instance.Objects
import Headmaster.Operator.Proxy.Service

/-!
# The pods of a proxy

The StatefulSets of the three kinds of proxies, with all that their pods refer
to and are granted (`ProxyStatefulSet.build`), and the Role that lets the pod of a
proxy write its state Secret (`src/operator/src/controllers/proxy/resources.rs`,
and `reconcile.rs` in `src/operator/src/controllers/external_service`).
-/

namespace Headmaster.Operator.Proxy

/-! ## Pods -/

inductive EnvVarSource
  | value (value : String)
  /-- The Secret must have the key. -/
  | secretKeyRef (secret key : String)
  | fieldRef (fieldPath : String)
  deriving DecidableEq

structure EnvVar where
  name : String
  source : EnvVarSource
  deriving DecidableEq

namespace EnvVar

def value (name value : String) : EnvVar := ⟨name, .value value⟩

def secretKeyRef (name secret key : String) : EnvVar := ⟨name, .secretKeyRef secret key⟩

def metadataName (name : String) : EnvVar := ⟨name, .fieldRef "metadata.name"⟩

def metadataNamespace (name : String) : EnvVar := ⟨name, .fieldRef "metadata.namespace"⟩

def statusHostIp (name : String) : EnvVar := ⟨name, .fieldRef "status.hostIP"⟩

end EnvVar

structure SecurityContext where
  privileged : Option Bool := none
  allowPrivilegeEscalation : Option Bool := none
  drop : List String := []
  add : List String := []
  deriving DecidableEq

structure PodContainer extends ContainerSpec where
  env : List EnvVar := []
  volumeMounts : List Instance.VolumeMount := []
  resourceLimits : List (String × String) := []
  securityContext : SecurityContext := {}
  deriving DecidableEq

inductive Volume
  | configMap (name configMap : String)
  | hostPath (name path type : String)
  deriving DecidableEq

structure Sysctl where
  name : String
  value : String
  deriving DecidableEq

structure PodSpec where
  containers : List PodContainer
  serviceAccountName : String
  volumes : List Volume := []
  hostNetwork : Bool := false
  dnsPolicy : Option String := none
  seccompProfile : String
  sysctls : List Sysctl := []
  deriving DecidableEq

structure StatefulSetSpec where
  replicas : Int
  serviceName : String
  podSpec : PodSpec
  deriving DecidableEq

namespace PodSpec

/-- The entry of a ConfigMap that a container reads at a path. -/
def configMapEntry? (spec : PodSpec) (container : PodContainer) (path : String) :
    Option (String × String) :=
  container.volumeMounts.findSome? fun mount => do
    let entry ← mount.entry? path
    spec.volumes.findSome? fun
      | .configMap name configMap => if name = mount.name then some (configMap, entry) else none
      | .hostPath _ _ _ => none

end PodSpec

/-! ## Access -/

structure PolicyRule where
  apiGroups : List String
  resources : List String
  /-- All of them, where there are none. -/
  resourceNames : List String := []
  verbs : List String
  deriving DecidableEq

/-- A request for an object by its name. -/
def PolicyRule.allows (rule : PolicyRule) (apiGroup resource name verb : String) : Bool :=
  rule.apiGroups.contains apiGroup && rule.resources.contains resource &&
    (rule.resourceNames.isEmpty || rule.resourceNames.contains name) && rule.verbs.contains verb

structure Role where
  name : String
  rules : List PolicyRule
  deriving DecidableEq

def Role.allows (role : Role) (apiGroup resource name verb : String) : Bool :=
  role.rules.any fun rule => rule.allows apiGroup resource name verb

/-- The accounts, of the namespace of the operator, that have a role. -/
structure RoleBinding where
  name : String
  roleRef : String
  serviceAccounts : List String
  deriving DecidableEq

def proxyRole (name stateSecretName : String) : Role where
  name := name
  rules := [
    { apiGroups := [""], resources := ["secrets"], resourceNames := [stateSecretName]
      verbs := ["get", "update", "patch"] },
    { apiGroups := [""], resources := ["events"], verbs := ["create", "patch"] }]

def proxyRoleBinding (name : String) : RoleBinding where
  name := name
  roleRef := name
  serviceAccounts := [name]

/-! ## The three kinds -/

def serveConfigMount : String := "/etc/serve"

def serveConfigPath : String := "/etc/serve/serve.json"

/-- The flags of `tailscale up`. -/
def loginArgs (headscaleUrl : String) : String :=
  "--login-server=" ++ headscaleUrl ++ " --advertise-exit-node=false --snat-subnet-routes=false " ++
    "--stateful-filtering=false"

/-- What tailscaled is pinned to where a Service leads to it. -/
def pinnedArgs : String := "--port=" ++ toString wireguardPodPort ++ " --socket=/tmp/tailscaled.sock"

/-- The address that peers on the LAN reach the socket at. -/
def pretendEndpoint (nodePort : Int) : List EnvVar :=
  [.statusHostIp "NODE_IP", .value "NODE_PORT" (toString nodePort),
    .value "TS_DEBUG_PRETENDPOINT" "$(NODE_IP):$(NODE_PORT)"]

/-- What keeps a container from more than it was started with. -/
def restricted : SecurityContext where
  allowPrivilegeEscalation := some false
  drop := ["ALL"]

/-- The container with access to the device, the volumes it takes, and the sysctls. -/
def grantTunDevice (container : PodContainer) :
    TunDeviceAccess → PodContainer × List Volume × List Sysctl
  | .privileged =>
    let container := { container with
      securityContext := { container.securityContext with privileged := some true }
      volumeMounts := container.volumeMounts ++
        [{ mountPath := "/dev/net/tun", name := "dev-net-tun" }] }
    (container, [.hostPath "dev-net-tun" "/dev/net/tun" "CharDevice"], [])
  | .devicePlugin resource =>
    let container := { container with
      securityContext := { container.securityContext with
        allowPrivilegeEscalation := some false
        drop := container.securityContext.drop ++ ["ALL"]
        add := container.securityContext.add ++ ["NET_ADMIN"] }
      resourceLimits := container.resourceLimits ++ [(resource, "1")] }
    (container, [], [⟨"net.ipv4.ip_forward", "1"⟩, ⟨"net.ipv6.conf.all.forwarding", "1"⟩])

section Build

variable (names : ProxyNames) (proxyImage headscaleUrl hostname : String)

/-- The variables of a proxy with a serve configuration. -/
def serveEnv (networking : ProxyNetworking) (tunDevice : Option TunDeviceAccess) : List EnvVar :=
  [.secretKeyRef "TS_AUTHKEY" names.configSecretName "key",
    .value "TS_HOSTNAME" hostname,
    .value "TS_EXTRA_ARGS" (loginArgs headscaleUrl),
    .value "TS_TAILSCALED_EXTRA_ARGS" (match networking with
      | .nodePort _ => pinnedArgs
      | .host => "--port=0 --socket=/tmp/tailscaled.sock"),
    .value "TS_SERVE_CONFIG" serveConfigPath,
    .value "TS_USERSPACE" (if tunDevice.isSome then "false" else "true"),
    .value "TS_KUBE_SECRET" names.stateSecretName,
    .metadataName "POD_NAME",
    .metadataNamespace "POD_NAMESPACE"] ++
  match networking with
  | .nodePort nodePort => pretendEndpoint nodePort
  | .host => []

def buildProxyStatefulset (networking : ProxyNetworking) (tunDevice : Option TunDeviceAccess) :
    StatefulSetSpec :=
  let serveConfigVolume := Volume.configMap "serve-config" names.serveConfigmapName
  let container : PodContainer := {
    name := "proxy"
    image := proxyImage
    env := serveEnv names headscaleUrl hostname networking tunDevice
    volumeMounts := [{ mountPath := serveConfigMount, name := "serve-config", readOnly := true }] }
  let (container, volumes, sysctls) := match tunDevice with
    | none => ({ container with securityContext := restricted }, [], [])
    | some access => grantTunDevice container access
  { replicas := 1
    serviceName := names.wgServiceName
    podSpec := {
      containers := [container]
      serviceAccountName := names.proxyName
      volumes := serveConfigVolume :: volumes
      hostNetwork := networking == .host
      dnsPolicy := if networking == .host then some "ClusterFirstWithHostNet" else none
      seccompProfile := "RuntimeDefault"
      sysctls } }

/-- The variables of a proxy that forwards in the kernel. -/
def tunEnv (destIp : String) (nodePort : Int) : List EnvVar :=
  [.secretKeyRef "TS_AUTHKEY" names.configSecretName "key",
    .value "TS_HOSTNAME" hostname,
    .value "TS_EXTRA_ARGS" (loginArgs headscaleUrl),
    .value "TS_TAILSCALED_EXTRA_ARGS" pinnedArgs,
    .value "TS_USERSPACE" "false",
    .value "TS_DEST_IP" destIp,
    .value "TS_KUBE_SECRET" names.stateSecretName,
    .metadataName "POD_NAME",
    .metadataNamespace "POD_NAMESPACE"] ++
  pretendEndpoint nodePort

def buildTunStatefulset (destIp : String) (nodePort : Int) (tunDevice : TunDeviceAccess) :
    StatefulSetSpec :=
  let (container, volumes, sysctls) := grantTunDevice
    { name := "proxy", image := proxyImage
      env := tunEnv names headscaleUrl hostname destIp nodePort } tunDevice
  { replicas := 1
    serviceName := names.wgServiceName
    podSpec := {
      containers := [container]
      serviceAccountName := names.proxyName
      volumes
      seccompProfile := "RuntimeDefault"
      sysctls } }

def buildEgressStatefulset (socatImage tailnetFqdn : String) (forwards : List (Int × Int)) :
    StatefulSetSpec :=
  let tailscale : PodContainer := {
    name := "tailscale"
    image := proxyImage
    securityContext := restricted
    env := [
      .secretKeyRef "TS_AUTHKEY" names.configSecretName "key",
      .value "TS_HOSTNAME" hostname,
      .value "TS_EXTRA_ARGS" (loginArgs headscaleUrl),
      .value "TS_TAILSCALED_EXTRA_ARGS" "--socket=/tmp/tailscaled.sock",
      .value "TS_USERSPACE" "true",
      .value "TS_SOCKS5_SERVER" ("localhost:" ++ toString socks5Port),
      .value "TS_KUBE_SECRET" names.stateSecretName,
      .metadataName "POD_NAME",
      .metadataNamespace "POD_NAMESPACE"] }
  { replicas := 1
    serviceName := names.wgServiceName
    podSpec := {
      containers := [tailscale,
        { forwarder socatImage tailnetFqdn forwards with securityContext := restricted }]
      serviceAccountName := names.proxyName
      seccompProfile := "RuntimeDefault" } }

/-- The StatefulSet of a proxy, as it is applied. -/
def ProxyStatefulSet.build : ProxyStatefulSet → StatefulSetSpec
  | serve proxyImage headscaleUrl hostname networking tunDevice =>
    buildProxyStatefulset names proxyImage headscaleUrl hostname networking tunDevice
  | tun proxyImage headscaleUrl hostname destIp nodePort tunDevice =>
    buildTunStatefulset names proxyImage headscaleUrl hostname destIp nodePort tunDevice
  | egress proxyImage socatImage headscaleUrl hostname tailnetFqdn forwards _ =>
    buildEgressStatefulset names proxyImage headscaleUrl hostname socatImage tailnetFqdn forwards

end Build

/-! ## What a pod may do -/

/-- The role is for one Secret, and does not let it be created. -/
theorem proxyRole_allows_secrets {name stateSecretName secret verb : String} :
    (proxyRole name stateSecretName).allows "" "secrets" secret verb = true ↔
      secret = stateSecretName ∧ verb ∈ ["get", "update", "patch"] := by
  simp [Role.allows, proxyRole, PolicyRule.allows]

end Headmaster.Operator.Proxy
