import Mathlib.Algebra.Ring.Int.Defs
import Headmaster.Operator.Proxy.Support

/-!
# The pre-auth key of a proxy

A proxy joins the tailnet with a key from its config Secret, which the operator
mints and, when it can no longer work, replaces
(`src/operator/src/controllers/proxy/auth_key.rs`). Where the node itself is
refused, the state Secret goes, too, and the proxy registers anew.
-/

namespace Headmaster.Operator.Proxy

def i64Max : Int := 2 ^ 63 - 1

def nowEpochSecs : M Nat := call .now

/-! ## Stale keys -/

/-- The window that the key of a config Secret was minted with has passed. -/
def keyWindowElapsed (configSecret : Secret) (expirySecs : Nat) : M Bool := do
  match configSecret.created with
  | none => return false
  | some created =>
    let now ← nowEpochSecs
    return min (created + min (expirySecs : Int) i64Max) i64Max < (now : Int)

inductive Refusal
  | none
  /-- A new key, for the node that is there. -/
  | retryWithNewKey
  /-- A new key was tried. -/
  | resetIdentity
  deriving DecidableEq

structure ProxyCrashState where
  crashLooping : Bool
  /-- When a container last exited, in seconds. -/
  lastExit : Option Int

def crashStateOf (statuses : List ContainerStatus) : ProxyCrashState where
  crashLooping := statuses.any fun c => c.waitingReason == some "CrashLoopBackOff"
  lastExit := (statuses.filterMap (·.lastFinishedAt)).max?

def proxyCrashState (names : ProxyNames) : M ProxyCrashState := do
  match ← ifFound (← call (.getPod (names.proxyName ++ "-0"))) with
  | none => return ⟨false, none⟩
  | some statuses => return crashStateOf statuses

/-- How far to go for a proxy that headscale does not let back. -/
def registrationRefused (names : ProxyNames) (expirySecs : Nat) : M Refusal := do
  match ← ifFound (← call (.getSecret names.configSecretName)) with
  | none => return .none
  | some configSecret =>
    let crash ← proxyCrashState names
    if !crash.crashLooping then
      return .none
    else if ← keyWindowElapsed configSecret expirySecs then
      return .retryWithNewKey
    else
      match configSecret.created, crash.lastExit with
      | some minted, some exit => return if exit > minted then .resetIdentity else .none
      | _, _ => return .none

/-- The node is lost to headscale, and whether it is connected. -/
def nodeStanding (headscale : AuthenticatedClient) (nodeId : Nat) : M (Bool × Bool) := do
  let now ← nowEpochSecs
  match ← call (.getNode headscale nodeId) with
  -- an expiry that is not there, or zero, means that there is none
  | .ok (some node) => return (node.expiry.any fun t => t > 0 && t < (now : Int), node.online)
  | .ok none => return (false, false)
  | .error s => if s.code = .notFound then return (true, false) else throw (.headscaleApi s)

/-- The key goes, and the proxy registers from scratch. -/
def resetIdentity (why : Deleter) (names : ProxyNames) : M Unit := do
  deleteIgnoring404 (.secret why) names.configSecretName
  deleteIgnoring404 (.secret why) names.stateSecretName

def rotateRegistered (parentRef : ObjectReference) (headscale : AuthenticatedClient)
    (names : ProxyNames) (expirySecs nodeId : Nat) : M Unit := do
  let (lost, online) ← nodeStanding headscale nodeId
  if lost then
    publishWarning parentRef "ProxyRegistrationLost"
      ("headscale no longer accepts node " ++ toString nodeId ++ "; rotating the auth key and " ++
        "resetting proxy state so it can re-register")
    resetIdentity .lost names
  else
    match ← (if online then return .none else registrationRefused names expirySecs) with
    | .none => pure ()
    | .retryWithNewKey =>
      publishWarning parentRef "ProxyAuthKeyRejected"
        ("node " ++ toString nodeId ++ " is present and unexpired but the proxy is " ++
          "crash-looping and offline, so headscale is refusing its registration; rotating the " ++
          "auth key so it can retry with the identity it has")
      deleteIgnoring404 (.secret .rejectedKey) names.configSecretName
    | .resetIdentity =>
      publishWarning parentRef "ProxyIdentityRejected"
        ("proxy died on a freshly minted key, so headscale objects to node " ++ toString nodeId ++
          " itself rather than to the key; resetting proxy state so it registers from scratch")
      resetIdentity .rejectedIdentity names

/-- A proxy without a node has only its key to get one. -/
def rotateUnregistered (parentRef : ObjectReference) (names : ProxyNames) (expirySecs : Nat) :
    M Unit := do
  match ← ifFound (← call (.getSecret names.configSecretName)) with
  | none => pure ()
  | some configSecret =>
    if ← keyWindowElapsed configSecret expirySecs then
      publishWarning parentRef "AuthKeyExpired"
        ("auth key in Secret '" ++ names.configSecretName ++
          "' expired before the proxy ever registered; rotating it")
      deleteIgnoring404 (.secret .expired) names.configSecretName

def rotateStaleAuthKey (parentRef : ObjectReference) (headscale : AuthenticatedClient)
    (names : ProxyNames) (expirySecs : Nat) : M Unit := do
  match (← ifFound (← call (.getSecret names.stateSecretName))).bind deviceId with
  | some nodeId => rotateRegistered parentRef headscale names expirySecs nodeId
  | none => rotateUnregistered parentRef names expirySecs

/-! ## New keys -/

inductive AuthKeyStatus
  | ready
  /-- The user the key is to be for does not exist. -/
  | waitingForUser
  deriving DecidableEq

def extractAuthKey (secret : Secret) : Option String :=
  (readSecretString secret "key").filter (· ≠ "")

def existingAuthKey (configSecretName : String) : M (Option String) := do
  return (← ifFound (← call (.getSecret configSecretName))).bind extractAuthKey

def applyConfigSecret (child : ChildApplier) (names : ProxyNames) (authKey : String) : M Unit :=
  apply child (.secret names.configSecretName [("key", .utf8 authKey)])

/-- The id of a user; that of no user is 0, and `none` is for one that does not exist. -/
def userIdOf (parentRef : ObjectReference) (headscale : AuthenticatedClient) :
    Option String → M (Option Nat)
  | none => return some 0
  | some userName => do
    match (← fromStatus (← call (.listUsers headscale userName))).head? with
    | some u => return some u.id
    | none =>
      publishWarning parentRef "UserNotFound"
        ("headscale user '" ++ userName ++ "' does not exist; create it in headscale before this " ++
          "proxy can be provisioned")
      return none

/-- Mint a key and save it; if it cannot be saved, it is deleted again. -/
def mintAuthKey (headscale : AuthenticatedClient) (child : ChildApplier) (names : ProxyNames)
    (request : CreatePreAuthKeyRequest) : M Unit := do
  match ← fromStatus (← call (.createPreAuthKey headscale request)) with
  | none => throw (.headscaleApi ⟨.other, "CreatePreAuthKey returned no key"⟩)
  | some preAuthKey =>
    match ← (applyConfigSecret child names preAuthKey.key).attempt with
    | .ok () => pure ()
    | .error e =>
      let _ ← call (.deletePreAuthKey headscale preAuthKey.id)
      throw e

def ensureAuthKey (parentRef : ObjectReference) (headscale : AuthenticatedClient)
    (child : ChildApplier) (names : ProxyNames) (user : Option String)
    (managedKeyTags : List String) (autoTag : Option String) (expirySecs : Nat)
    (reusable ephemeral : Bool) : M AuthKeyStatus := do
  if (← existingAuthKey names.configSecretName).isSome then
    return .ready
  else
    let now ← nowEpochSecs
    let expiration : Int := if (now + expirySecs : Int) ≤ i64Max then now + expirySecs else i64Max
    match ← userIdOf parentRef headscale user with
    | none => return .waitingForUser
    | some userId =>
      mintAuthKey headscale child names
        { user := userId, reusable, ephemeral, expiration, aclTags := managedKeyTags ++ autoTag.toList
          lifetime := expirySecs, configSecretName := names.configSecretName }
      return .ready

end Headmaster.Operator.Proxy
