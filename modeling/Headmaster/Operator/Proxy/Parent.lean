import Headmaster.Operator.Tags
import Headmaster.Operator.Proxy.AuthKey

/-!
# What both controllers do with an object

The gates and the finalizer around a reconcile, the release of an object, and
what is reported once its proxy runs: the steps that `reconcile.rs` of the
Ingress controller and of the Service controller have in common.
-/

namespace Headmaster.Operator.Proxy

/-! ## Adoption -/

variable (read : Reader) (digest : Digest) (dep : Deployment)

/-- Before adoption the configuration must parse, and the instance must allow the namespace. -/
def mayAdopt (obj : ObjectMeta) (ns : String) : M Bool :=
  match IngressAnnotations.parse read obj with
  | .error _ => return false
  | .ok annotations => do
    match ← ifFound (← call (.getInstance annotations.headscaleRef)) with
    | some inst => return inst.namespaceAllowed ns
    | none => return true

/-- `kube::runtime::finalizer`: an object is applied while it lives, under the finalizer, and
    cleaned up before the finalizer goes. -/
def withFinalizer (parent : ObjectReference) (obj : ObjectMeta) (ourFinalizer : String)
    (apply cleanup : M Action) : M Action :=
  match obj.finalizers.contains ourFinalizer, obj.deleting with
  | true, false => apply
  | true, true => do
    let action ← cleanup
    patchParent parent (.removeFinalizer ourFinalizer)
    return action
  | false, false => do
    patchParent parent (.addFinalizer ourFinalizer)
    return .awaitChange
  | false, true => return .awaitChange

/-- The gates before the finalizer, for an object that the controller is there for or is not. -/
def reconcileObject (isOurKind : Bool) (kind : ParentKind) (obj : ObjectMeta)
    (apply cleanup : M Action) : M Action :=
  let ourFinalizer := finalizer dep.operatorNamespace
  let hasOurFinalizer := obj.finalizers.contains ourFinalizer
  if !isOurKind && !hasOurFinalizer then return .awaitChange
  else
    match obj.namespaceName with
    | none => throw .missingNamespace
    | some ns =>
      if !isOurs read dep.toContext obj && !hasOurFinalizer then return .awaitChange
      else do
        if ← (if hasOurFinalizer then return true else mayAdopt read obj ns) then
          withFinalizer ⟨kind, ns, obj.name⟩ obj ourFinalizer apply cleanup
        else
          return .awaitChange

/-! ## Release -/

/-- Take the proxy of an object down. Which headscale its node is deleted from is asked only
    where the annotation names one. -/
def takeDown (names : ProxyNames) (parent : ObjectReference) (obj : ObjectMeta) : M Unit :=
  match IngressAnnotations.headscaleRefOf read obj with
  | some headscaleRef => deregisterAndCleanup dep names parent headscaleRef
  | none => cleanupProxyResources names

/-- Give up the finalizer of a live object, unless it changed in between. -/
def releaseFinalizer (parent : ObjectReference) : M Unit := do
  let live ← fromKube (← call (.getParent parent))
  let remaining := live.finalizers.filter (· ≠ finalizer dep.operatorNamespace)
  patchParent parent (.release (live.resourceVersion.getD "") remaining)

/-- Of an object that is deleted. -/
def cleanupObject (names : ProxyNames) (parent : ObjectReference) (obj : ObjectMeta) : M Unit :=
  deregisterAndCleanup dep names parent
    ((IngressAnnotations.headscaleRefOf read obj).getD "")

/-! ## Provisioning -/

/-- A proxy with a kernel tailscaled stays on the network of its pod. -/
def hostNetworkOf (parent : ObjectReference) (annotations : IngressAnnotations) : M Bool := do
  if annotations.mode = .tun ∧ annotations.hostNetwork then
    publishWarning parent "IgnoredConfig"
      "'host-network' does not apply to tun-mode proxies; ignored"
    return false
  else
    return annotations.hostNetwork

/-- The instance that an object names, unless it is not there. -/
def instanceFor (parent : ObjectReference) (annotations : IngressAnnotations) :
    M (Option Instance) := do
  match ← ifFound (← call (.getInstance annotations.headscaleRef)) with
  | some inst => return some inst
  | none =>
    publishWarning parent "Pending"
      ("HeadscaleInstance '" ++ annotations.headscaleRef ++ "' does not exist")
    return none

def publishNotReady (parent : ObjectReference) (annotations : IngressAnnotations) : M Unit :=
  publishWarning parent "Pending"
    ("HeadscaleInstance '" ++ annotations.headscaleRef ++ "' is not yet ready")

/-- An instance no longer allows the namespace of an object, a `what`. -/
def publishExcluded (parent : ObjectReference) (annotations : IngressAnnotations) (what : String) :
    M Unit :=
  publishWarning parent "NamespaceExcluded"
    ("namespace '" ++ parent.ns ++ "' is not in HeadscaleInstance '" ++ annotations.headscaleRef ++
      "' watchedNamespaces; this " ++ what ++ " is now orphaned")

/-- Give the node its tags, if there is one, and tags for it; false when that fails. -/
def syncTags (headscale : AuthenticatedClient) (stateSecret : Secret) (tags : List String) :
    M Bool := do
  match deviceId stateSecret with
  | none => return true
  | some nodeId =>
    if tags.isEmpty then
      return true
    else
      return (← call (.setTags headscale nodeId tags)).isOk

def deviceIps (stateSecret : Secret) : List String :=
  (readSecretJson read (deserializeVec deserializeString) stateSecret "device_ips").getD []

end Headmaster.Operator.Proxy
