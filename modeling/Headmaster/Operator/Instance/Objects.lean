import Headmaster.Operator.Conditions
import Headmaster.Operator.Config
import Headmaster.Operator.PolicySync
import Headmaster.Operator.Proxy.Names

/-!
# The objects of an instance

The spec of a HeadscaleInstance (`src/operator/src/types/headscale_instance.rs`)
and the objects that the operator creates for it: the configuration, the Service
and the StatefulSet of headscale (`builders.rs` and `reconcile.rs` in
`src/operator/src/controllers/headscale_instance`), those of its SCIM server
(`scim.rs`), and the Secrets of both. Each is stamped with the instance that
owns it and with labels (`ChildApplier` in `src/operator/src/controllers/applier.rs`).
-/

namespace Headmaster.Operator.Instance

open Policy (PolicyText PolicyParseError toValue)
open Proxy (ServicePort)

/-- A map from names to values, as the API has it. -/
abbrev Labels := List (String × String)

/-! ## The spec -/

structure StorageSpec where
  size : String := "1Gi"
  storageClass : Option String := none
  deriving DecidableEq

structure ScimSpec where
  policyUserKey : Option String := none
  oidcIssuer : Option String := none
  storage : StorageSpec := {}
  expireNodesOnChange : Bool := false
  deriving DecidableEq

structure ResourceRequirements where
  requests : Option Labels := none
  limits : Option Labels := none
  deriving DecidableEq

def noExtraConfig : ExtraConfig := ⟨[], .object List.nodup_nil nofun⟩

structure Spec where
  serverUrl : String := ""
  dnsBaseDomain : String := ""
  external : Option Proxy.ExternalSpec := none
  storage : StorageSpec := {}
  policy : Option PolicyText := none
  scim : Option ScimSpec := none
  watchedNamespaces : List String := ["*"]
  extraConfig : ExtraConfig := noExtraConfig
  resources : Option ResourceRequirements := none
  labels : Labels := []

/-- The instance as it is read from the API server. -/
structure CustomResource where
  metadata : ObjectMeta
  uid : Option String := none
  generation : Option Int := none
  spec : Spec := {}
  status : Option HeadscaleInstanceStatus := none

namespace CustomResource

variable (obj : CustomResource)

def name : String := obj.metadata.name

def objectRef : ObjectRef where
  kind := some "HeadscaleInstance"
  name := some obj.name
  ns := obj.metadata.namespaceName

/-- As the controllers of proxies read it. -/
def read : Proxy.Instance where
  name := obj.name
  watchedNamespaces := obj.spec.watchedNamespaces
  serverUrl := obj.spec.serverUrl
  dnsBaseDomain := obj.spec.dnsBaseDomain
  external := obj.spec.external
  ready := (obj.status.getD {}).isReady

end CustomResource

/-- Some group of the policy of the instance has members. -/
def policyHasGroupsWithMembers : Option PolicyText → Bool
  | some (.document j) =>
    match toValue j with
    | .object ps =>
      match ps.lookup "groups" with
      | some (.object groups) => groups.any fun group =>
          match group.2 with
          | .array (_ :: _) => true
          | _ => false
      | _ => false
    | _ => false
  | _ => false

namespace Spec

variable (spec : Spec)

/-- The configuration and the policy of an external headscale are not the operator's. -/
def externalConflict : Bool :=
  spec.policy.isSome || spec.scim.isSome || !spec.extraConfig.entries.isEmpty

/-- With SCIM, the groups are those of the SCIM server. -/
def scimConflict : Bool := spec.scim.isSome && policyHasGroupsWithMembers spec.policy

end Spec

/-! ## Objects -/

/-- The instance that owns an object, as its controller. -/
structure OwnerReference where
  name : String
  uid : String
  deriving DecidableEq

structure Metadata where
  name : String
  ns : String := ""
  owners : List OwnerReference := []
  labels : Labels := []
  deriving DecidableEq

structure ServiceSpec where
  ports : List ServicePort := []
  selector : Labels := []
  deriving DecidableEq

structure ContainerPort where
  name : String
  port : Int
  deriving DecidableEq

structure VolumeMount where
  mountPath : String
  name : String
  readOnly : Bool := false
  subPath : Option String := none
  deriving DecidableEq

structure Container where
  name : String
  image : String
  command : List String := []
  args : List String := []
  env : Labels := []
  /-- The Secrets whose entries are variables, too; they are required. -/
  envFrom : List String := []
  ports : List ContainerPort := []
  volumeMounts : List VolumeMount := []
  requests : Labels := []
  limits : Labels := []
  deriving DecidableEq

inductive Volume
  | configMap (name configMap : String)
  | emptyDir (name : String)
  deriving DecidableEq

structure PodTemplate where
  annotations : Labels := []
  labels : Labels := []
  container : Container
  volumes : List Volume := []
  deriving DecidableEq

/-- A claim for each pod of a StatefulSet, for it alone. -/
structure VolumeClaimTemplate where
  name : String
  storageClass : Option String
  size : String
  deriving DecidableEq

structure StatefulSetSpec where
  replicas : Int
  serviceName : String
  matchLabels : Labels := []
  template : PodTemplate
  volumeClaimTemplates : List VolumeClaimTemplate := []
  deriving DecidableEq

inductive Kind
  | configMap
  | service
  | statefulSet
  | secret
  | persistentVolumeClaim
  deriving DecidableEq

inductive Resource
  | configMap (data : Labels)
  | service (spec : ServiceSpec)
  | statefulSet (spec : StatefulSetSpec)
  | secret (stringData : Labels)
  deriving DecidableEq

def Resource.kind : Resource → Kind
  | configMap _ => .configMap
  | service _ => .service
  | statefulSet _ => .statefulSet
  | secret _ => .secret

structure Object where
  metadata : Metadata
  resource : Resource
  deriving DecidableEq

def Resource.data : Resource → Labels
  | configMap data => data
  | _ => []

/-! ## Files -/

/-- The entry of a ConfigMap that a mount puts at a path: all entries are in a directory, unless
    only one is mounted. -/
def VolumeMount.entry? (mount : VolumeMount) (path : String) : Option String :=
  match mount.subPath with
  | some entry => if path = mount.mountPath then some entry else none
  | none =>
    let dir := (mount.mountPath ++ "/").toList
    if dir.isPrefixOf path.toList then some (String.ofList (path.toList.drop dir.length)) else none

/-- What a volume holds. -/
def Volume.data? (configMaps : String → Option Object) (name : String) : Volume → Option Labels
  | configMap volume n => if volume = name then (configMaps n).map fun o => o.resource.data else none
  | emptyDir _ => none

/-- The file that the container of a pod reads at a path. -/
def PodTemplate.file? (configMaps : String → Option Object) (template : PodTemplate)
    (path : String) : Option String :=
  template.container.volumeMounts.findSome? fun mount => do
    let entry ← mount.entry? path
    let data ← template.volumes.findSome? (Volume.data? configMaps mount.name)
    data.lookup entry

/-! ## Stamping -/

structure ChildApplier where
  ns : String
  instanceName : String
  owner : OwnerReference
  extraLabels : Labels

namespace ChildApplier

variable (child : ChildApplier) (component : String)

/-- The labels that tell the pods of a component from all others. -/
def selectorLabels : Labels :=
  [(Proxy.appName, component), (Proxy.appInstance, child.instanceName),
    (Proxy.appManagedBy, Proxy.managedByValue)]

/-- The labels of the instance come first, so that those of the operator win. -/
def stamp (metadata : Metadata) : Metadata :=
  { metadata with
    ns := child.ns
    owners := metadata.owners ++ [child.owner]
    labels := Props.extend (Props.extend metadata.labels child.extraLabels)
      (child.selectorLabels component) }

def object (name : String) (resource : Resource) : Object where
  metadata := child.stamp component { name }
  resource := resource

def statefulSet (name : String) (spec : StatefulSetSpec) : Object :=
  let selector := child.selectorLabels component
  child.object component name <| .statefulSet
    { spec with
      matchLabels := Props.extend spec.matchLabels selector
      template := { spec.template with labels := Props.extend spec.template.labels selector } }

def service (name : String) (spec : ServiceSpec) : Object :=
  child.object component name <| .service
    { spec with selector := Props.extend spec.selector (child.selectorLabels component) }

end ChildApplier

/-! ## Names -/

def serverName (name : String) : String := "headscale-server-" ++ name

def serverPodName (name : String) : String := "headscale-server-" ++ name ++ "-0"

def serverClaimName (name : String) : String := "data-headscale-server-" ++ name ++ "-0"

def apiKeySecretName (name : String) : String := "headscale-api-key-" ++ name

def scimName (name : String) : String := "headscale-scim-" ++ name

def scimTokenSecretName (name : String) : String := "headscale-scim-token-" ++ name

def scimClaimName (name : String) : String := "data-headscale-scim-" ++ name ++ "-0"

/-! ## What headscale consists of -/

/-- What the operator is deployed with, and what it takes from the crates that it links. -/
structure Deployment extends Proxy.Deployment where
  headscaleImage : String := ""
  operatorImage : String := ""
  read : Reader
  digest : Digest
  /-- `serde_saphyr::to_string`. -/
  toYaml : List (String × Json) → Except String String
  /-- `serde_json::from_str::<String>`. -/
  parseString : String → Except String String
  /-- How the errors of headscale are displayed. -/
  displayStatus : Status → String

variable (dep : Deployment)

def portHttp : Int := 8080
def portMetrics : Int := 9090
def portGrpc : Int := 50443
def portScim : Int := 8081

/-- `ServicePort::tcp`, to the port of the container with the name. -/
def tcpPort (name : String) (port : Int) : ServicePort where
  name := some name
  protocol := some "TCP"
  port := port
  targetPort := some (.string name)

/-- The data of the ConfigMap, and the hash of the file in it. -/
def buildConfigmap (serverUrl dnsBaseDomain : String) (extraConfig : ExtraConfig) :
    Except String (Labels × String) := do
  let configYaml ← dep.toYaml (buildConfig serverUrl dnsBaseDomain extraConfig)
  return ([("config.yaml", configYaml)], dep.digest configYaml)

def headscaleService : ServiceSpec where
  ports := [tcpPort "http" portHttp, tcpPort "metrics" portMetrics, tcpPort "grpc" portGrpc]

def defaultHeadscaleResources : ResourceRequirements where
  requests := some [("cpu", "50m"), ("memory", "64Mi")]
  limits := some [("cpu", "500m"), ("memory", "512Mi")]

def desiredStatefulset (name : String) (storage : StorageSpec)
    (resources : Option ResourceRequirements) (configHash : String) : StatefulSetSpec :=
  let resources := resources.getD defaultHeadscaleResources
  { replicas := 1
    serviceName := name
    template := {
      annotations := [("headmaster/config-hash", configHash)]
      container := {
        name := "headscale"
        image := dep.headscaleImage
        args := ["serve"]
        ports := [⟨"http", portHttp⟩, ⟨"metrics", portMetrics⟩, ⟨"grpc", portGrpc⟩]
        volumeMounts := [
          { mountPath := "/etc/headscale/config.yaml", name := "config", readOnly := true
            subPath := some "config.yaml" },
          { mountPath := "/var/lib/headscale", name := "data" },
          { mountPath := "/var/run/headscale", name := "var-run-headscale" }]
        requests := resources.requests.getD []
        limits := resources.limits.getD [] }
      volumes := [.configMap "config" name, .emptyDir "var-run-headscale"] }
    volumeClaimTemplates := [⟨"data", storage.storageClass, storage.size⟩] }

/-! ## What its SCIM server consists of -/

/-- The variables that the SCIM server is configured by. -/
def scimEnv (name ns : String) (scim : ScimSpec) : Labels :=
  ("HEADSCALE_URL", "http://headscale-server-" ++ name ++ "." ++ ns ++ ".svc:50443") ::
    (scim.policyUserKey.map fun key => ("POLICY_USER_KEY", key)).toList ++
    (scim.oidcIssuer.map fun issuer => ("OIDC_ISSUER", issuer)).toList ++
    if scim.expireNodesOnChange then [("EXPIRE_NODES_ON_CHANGE", "true")] else []

def scimStatefulset (name ns : String) (scim : ScimSpec) : StatefulSetSpec where
  replicas := 1
  serviceName := scimName name
  template := {
    container := {
      name := "scim"
      image := dep.operatorImage
      command := ["/usr/local/bin/headmaster-scim"]
      env := scimEnv name ns scim
      envFrom := [apiKeySecretName name, scimTokenSecretName name]
      ports := [⟨"scim", portScim⟩]
      volumeMounts := [{ mountPath := "/data", name := "data" }] } }
  volumeClaimTemplates := [⟨"data", scim.storage.storageClass, scim.storage.size⟩]

def scimService : ServiceSpec where
  ports := [tcpPort "scim" portScim]

end Headmaster.Operator.Instance
