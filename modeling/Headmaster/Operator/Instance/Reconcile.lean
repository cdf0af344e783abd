import Headmaster.Operator.Instance.Objects

/-!
# The controller of instances

The reconcile of a HeadscaleInstance
(`src/operator/src/controllers/headscale_instance/reconcile.rs`), with the
bootstrap of its API key (`bootstrap.rs`) and its SCIM server (`scim.rs` in the
same directory). It is a process that calls one operation for each request
(`Op`); the requests of `syncPolicy` are among them.

All objects are in one namespace, that of the operator, and are told apart by
kind and name.
-/

namespace Headmaster.Operator.Instance

open Process (Sig Prog Hom)
open Policy (PolicyParseError)
open Proxy (Action)

/-! ## Errors -/

inductive Error
  | kube (e : KubeError)
  | configSerialization (e : String)
  | missingNamespace
  | headscaleApi (s : Status)
  | execIo (e : String)
  | execFailed (e : String)
  | execInvalidOutput (e : String)
  | invalidPolicy (e : PolicyParseError)
  | scimPolicyConflict
  | externalSpecConflict
  /-- A panic, which ends the reconcile. -/
  | panic (message : String)

def Error.text (dep : Deployment) : Error → String
  | kube e => "kube error: " ++ dep.displayKube e
  | configSerialization e => "config serialization failed: " ++ e
  | missingNamespace => "object has no namespace"
  | headscaleApi s => "headscale gRPC error: " ++ dep.displayStatus s
  | execIo e => "exec io error: " ++ e
  | execFailed e => "exec failed: " ++ e
  | execInvalidOutput e => "exec produced unexpected output: " ++ e
  | invalidPolicy e => "spec.policy.inline is not valid HuJSON: " ++ e.toString
  | scimPolicyConflict =>
    "spec.policy.inline contains groups with members while spec.scim is set; SCIM owns the " ++
      "groups section — remove member entries from 'groups' in spec.policy.inline"
  | externalSpecConflict =>
    "spec.external is mutually exclusive with spec.policy, spec.scim, and spec.extraConfig; the " ++
      "external headscale's configuration and policy are managed outside the operator"
  | panic message => message

def Error.ofSync : SyncError → Error
  | .kube e => .kube e
  | .invalidPolicy e => .invalidPolicy e
  | .headscaleApi s => .headscaleApi s

/-- How a command in a pod can fail. -/
inductive ExecError
  | kube (e : KubeError)
  | io (e : String)
  | failed (e : String)

def Error.ofExec : ExecError → Error
  | .kube e => .kube e
  | .io e => .execIo e
  | .failed e => .execFailed e

/-! ## Requests -/

inductive Op
  | getSecret (name : String)
  /-- The ready replicas in its status. -/
  | getStatefulSet (name : String)
  /-- What the command prints. -/
  | exec (podName container : String) (command : List String)
  /-- 32 bytes, in hexadecimal digits. -/
  | randomBytes
  | apply (object : Object)
  | delete (kind : Kind) (name : String)
  /-- The Ingresses of all namespaces. -/
  | listIngresses
  | clearIngressStatus (ns name : String)
  | patchStatus (name : String) (status : HeadscaleInstanceStatus)
  | addFinalizer (name finalizer : String)
  | removeFinalizer (name finalizer : String)
  | publish (obj : ObjectRef) (event : KubeEvent)
  /-- A request of a sync, on the headscale of an instance. -/
  | sync (name : String) (o : SyncOp)
  | listUsers (name : String)
  /-- The clock, in seconds. -/
  | now

def Op.Ans : Op → Type
  | getSecret _ => Except KubeError Labels
  | getStatefulSet _ => Except KubeError (Option Int)
  | exec _ _ _ => Except ExecError String
  | randomBytes => String
  | apply _ => Except KubeError Unit
  | delete _ _ => Except KubeError Unit
  | listIngresses => Except KubeError (List Ingress)
  | clearIngressStatus _ _ => Except KubeError Unit
  | patchStatus _ _ => Except KubeError Unit
  | addFinalizer _ _ => Except KubeError Unit
  | removeFinalizer _ _ => Except KubeError Unit
  | publish _ _ => Except KubeError Unit
  | sync _ o => o.Ans
  | listUsers _ => Except Status Unit
  | now => Int

abbrev sig : Sig := ⟨Op, Op.Ans⟩

abbrev M := Prog sig Error

def call (o : Op) : M o.Ans := Prog.op (σ := sig) o

def fromKube {α : Type} (r : Except KubeError α) : M α := .ofExcept (r.mapError .kube)

/-- Apply an object, or end. -/
def apply (object : Object) : M Unit := do
  fromKube (← call (.apply object))

def deleteIgnoring404 (kind : Kind) (name : String) : M Unit := do
  fromKube (Proxy.ignoring404 (← call (.delete kind name)))

/-- `get_opt`, of which only whether there is one is looked at. -/
def secretExists (name : String) : M Bool := do
  match ← call (.getSecret name) with
  | .ok _ => return true
  | .error .notFound => return false
  | .error .other => throw (.kube .other)

/-- The answer is ignored. -/
def publish (obj : ObjectRef) (event : KubeEvent) : M Unit := do
  let _ ← call (.publish obj event)

def publishTransitions (obj : CustomResource) (oldStatus newStatus : HeadscaleInstanceStatus) :
    M Unit :=
  (transitionEvents obj.objectRef oldStatus newStatus).forM (publish obj.objectRef)

/-! ## Steps -/

variable (dep : Deployment)

def ensureHeadscale (child : ChildApplier) (obj : CustomResource) : M Unit := do
  let headscaleName := serverName child.instanceName
  let (data, hash) ← .ofExcept <| Except.mapError .configSerialization <|
    buildConfigmap dep obj.spec.serverUrl obj.spec.dnsBaseDomain obj.spec.extraConfig
  apply (child.object "headscale" headscaleName (.configMap data))
  apply (child.service "headscale" headscaleName headscaleService)
  apply (child.statefulSet "headscale" headscaleName
    (desiredStatefulset dep headscaleName obj.spec.storage obj.spec.resources hash))

def apiKeyCommand : List String :=
  ["headscale", "apikeys", "create", "--expiration", "876000h", "--output", "json"]

/-- The key in what the command printed. -/
def apiKeyOf (output : String) : Except Error String :=
  (dep.parseString (String.ofList (Text.trim output.toList))).mapError fun e =>
    .execInvalidOutput ("bad apikeys create output: " ++ e)

def ensureApiKey (child : ChildApplier) : M Unit := do
  let secretName := apiKeySecretName child.instanceName
  if ← secretExists secretName then
    return
  else
    let output ← .ofExcept <| Except.mapError .ofExec
      (← call (.exec (serverPodName child.instanceName) "headscale" apiKeyCommand))
    let apiKey ← .ofExcept (apiKeyOf dep output)
    apply (child.object "headscale" secretName (.secret [("HEADSCALE_API_KEY", apiKey)]))

def ensureScimToken (child : ChildApplier) : M Unit := do
  let secretName := scimTokenSecretName child.instanceName
  if ← secretExists secretName then
    return
  else
    let token ← call .randomBytes
    apply (child.object "scim" secretName (.secret [("SCIM_BEARER_TOKEN", token)]))

def ensureScim (child : ChildApplier) (scim : ScimSpec) : M Unit := do
  ensureScimToken child
  let name := scimName child.instanceName
  apply (child.statefulSet "scim" name (scimStatefulset dep child.instanceName child.ns scim))
  apply (child.service "scim" name scimService)

/-- The first that fails keeps the rest from being deleted. -/
def deleteScimIfExists (name : String) : M Unit := do
  deleteIgnoring404 .statefulSet (scimName name)
  deleteIgnoring404 .service (scimName name)
  deleteIgnoring404 .secret (scimTokenSecretName name)
  deleteIgnoring404 .persistentVolumeClaim (scimClaimName name)

/-- The Ingresses of the server that reference the instance. -/
def fetchContributingIngresses (name : String) (watchedNamespaces : List String) :
    M (List Ingress) := do
  return listContributingIngresses dep.read name watchedNamespaces
    (← fromKube (← call .listIngresses))

/-- The requests of a sync, on the headscale of an instance. -/
def syncHom (name : String) : Hom syncSig sig := ⟨Op.sync name, fun _ a => a⟩

def syncPolicyOf (name : String) (spec : Spec) (ingresses : List Ingress) : M Unit :=
  ((syncPolicy dep.read dep.digest spec.policy spec.scim.isSome ingresses).lift
    (syncHom name)).mapError .ofSync

/-! ## Statuses -/

def updateReady (status : HeadscaleInstanceStatus) (isReady : Bool) (reason message : String)
    (generation : Int) : M HeadscaleInstanceStatus := do
  return status.updateReadyAt isReady reason message generation (← call .now)

def applyStatus (obj : CustomResource) (status : HeadscaleInstanceStatus) : M Unit := do
  fromKube (← call (.patchStatus obj.name status))

/-- End with the error, which goes into the status if that can be written. -/
def failWith {α : Type} (obj : CustomResource) (reason message : String) (e : Error) : M α := do
  let errorStatus ← updateReady (obj.status.getD {}) false reason message (obj.generation.getD 0)
  let _ ← call (.patchStatus obj.name errorStatus)
  throw e

/-- Write a status, publish what changed, and come back. -/
def settle (obj : CustomResource) (isReady : Bool) (reason message : String) (requeueSecs : Nat) :
    M Action := do
  let oldStatus := obj.status.getD {}
  let newStatus ← updateReady oldStatus isReady reason message (obj.generation.getD 0)
  applyStatus obj newStatus
  publishTransitions obj oldStatus newStatus
  return .requeue requeueSecs

/-! ## The reconcile -/

/-- What is done once headscale is ready. -/
def whenReady (obj : CustomResource) (child : ChildApplier) : M Unit := do
  ensureApiKey dep child
  if obj.spec.scimConflict then
    throw .scimPolicyConflict
  else
    let contributingIngresses ←
      fetchContributingIngresses dep obj.name obj.spec.watchedNamespaces
    syncPolicyOf dep obj.name obj.spec contributingIngresses
    match obj.spec.scim with
    | some scim => ensureScim dep child scim
    | none => deleteScimIfExists obj.name

def Error.reason : Error → String
  | scimPolicyConflict => "ScimPolicyConflict"
  | _ => "ReconcileFailed"

/-- Of an instance whose headscale the operator runs. -/
def applyManaged (obj : CustomResource) (child : ChildApplier) : M Action := do
  match ← (ensureHeadscale dep child obj).attempt with
  | .error e =>
    failWith obj "ChildApplyFailed" ("failed to apply child resource: " ++ e.text dep) e
  | .ok () =>
    let readyReplicas ← fromKube (← call (.getStatefulSet (serverName obj.name)))
    if readyReplicas.getD 0 > 0 then
      match ← (whenReady dep obj child).attempt with
      | .error e => failWith obj e.reason (e.text dep) e
      | .ok () => settle obj true "StatefulSetReady" "headscale StatefulSet is ready" 60
    else
      settle obj false "StatefulSetNotReady" "headscale StatefulSet is not yet ready" 10

/-- Whether the external headscale answers. -/
def probe (name : String) : M (Except String Unit) := do
  match ← call (.sync name .connect) with
  | .error e => return .error (dep.displayKube e)
  | .ok () =>
    match ← call (.listUsers name) with
    | .error s => return .error (dep.displayStatus s)
    | .ok () => return .ok ()

def applyExternal (obj : CustomResource) : M Action := do
  if obj.spec.externalConflict then
    failWith obj "ExternalSpecConflict" (Error.externalSpecConflict.text dep) .externalSpecConflict
  else
    match ← probe dep obj.name with
    | .ok () =>
      settle obj true "ExternalReachable" "external headscale answered an authenticated gRPC call" 60
    | .error e =>
      settle obj false "ExternalUnreachable" ("external headscale probe failed: " ++ e) 15

def childApplierOf (obj : CustomResource) (ns uid : String) : ChildApplier where
  ns := ns
  instanceName := obj.name
  owner := ⟨obj.name, uid⟩
  extraLabels := obj.spec.labels

def applyInstance (obj : CustomResource) : M Action :=
  match obj.metadata.namespaceName with
  | none => throw .missingNamespace
  | some ns =>
    if obj.spec.external.isSome then applyExternal dep obj
    else
      match obj.uid with
      | none => throw <| .panic "reconciled object must have a UID"
      | some uid => applyManaged dep obj (childApplierOf obj ns uid)

def ingressRef (ing : Ingress) : ObjectRef where
  kind := some "Ingress"
  name := some ing.metadata.name
  ns := ing.metadata.namespaceName

/-- The Ingress stays, without an address; the answers are ignored. -/
def orphanIngress (name : String) (ing : Ingress) : M Unit := do
  publish (ingressRef ing) <| warningEvent "InstanceDeleted" <|
    "HeadscaleInstance '" ++ name ++
      "' was deleted; this Ingress is now orphaned and will stop functioning"
  let _ ← call (.clearIngressStatus ing.ns ing.metadata.name)

def cleanup (obj : CustomResource) : M Action := do
  (← fetchContributingIngresses dep obj.name ["*"]).forM (orphanIngress obj.name)
  match obj.metadata.namespaceName with
  | none => throw .missingNamespace
  | some _ =>
    deleteIgnoring404 .persistentVolumeClaim (serverClaimName obj.name)
    deleteIgnoring404 .persistentVolumeClaim (scimClaimName obj.name)
    publish obj.objectRef (deletedEvent obj.objectRef)
    return .awaitChange

/-- `kube::runtime::finalizer`: an object is applied while it lives, under the finalizer, and
    cleaned up before the finalizer goes. -/
def withFinalizer (obj : CustomResource) (ourFinalizer : String) (apply cleanup : M Action) :
    M Action :=
  match obj.metadata.finalizers.contains ourFinalizer, obj.metadata.deleting with
  | true, false => apply
  | true, true => do
    let action ← cleanup
    fromKube (← call (.removeFinalizer obj.name ourFinalizer))
    return action
  | false, false => do
    fromKube (← call (.addFinalizer obj.name ourFinalizer))
    return .awaitChange
  | false, true => return .awaitChange

def reconcile (obj : CustomResource) : M Action :=
  match obj.metadata.namespaceName with
  | none => throw .missingNamespace
  | some _ =>
    withFinalizer obj (finalizer dep.operatorNamespace) (applyInstance dep obj) (cleanup dep obj)

end Headmaster.Operator.Instance
