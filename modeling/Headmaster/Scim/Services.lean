import Headmaster.Process
import Headmaster.Headscale
import Headmaster.Scim.Storage

/-!
# SCIM services

The requests of the SCIM server (`src/scim/src/services.rs`), each a process
whose calls are of two kinds: a section run under the mapping lock (`Section`),
and a call to headscale or a step of the policy lock. Everything between two
calls is local to the request, so interleaving the calls of several requests
gives every order of what they share.
-/

namespace Headmaster.Scim

open Process (Sig Prog Machine)
open Policy (PolicyText PolicyEditor PolicyMember)

/-! ## Configuration -/

/-- Which identifier is written into policy group entries and locates a user's
    headscale account. -/
inductive PolicyUserKey
  | email
  | username
  | externalId (oidcIssuer : String)
  deriving DecidableEq

namespace PolicyUserKey

def isExternalId : PolicyUserKey → Bool
  | externalId _ => true
  | _ => false

end PolicyUserKey

structure ScimConfig where
  policyUserKey : PolicyUserKey := .email
  /-- Expire a user's nodes when the identifier `policyUserKey` uses changes. -/
  expireNodesOnChange : Bool := false
  deriving DecidableEq

/-- The headscale-side identifier of a user record. -/
inductive ResolvedKey
  | email (e : String)
  | name (n : String)
  /-- Without the trailing `@` of policy tokens. -/
  | providerId (id : String)
  deriving DecidableEq

/-- The identifier of a headscale user is the resolved one. -/
def ResolvedKey.matches (u : User) : ResolvedKey → Bool
  | email e => u.email == e
  | name n => u.name == n
  | providerId id => u.providerId == id

/-- The identifier of a record, if the field it comes from is there. -/
def resolveKey (config : ScimConfig) (record : UserRecord) : Option ResolvedKey :=
  match config.policyUserKey with
  | .email => record.email.map .email
  | .username => some (.name record.name)
  | .externalId oidcIssuer =>
    record.externalId.map fun extId => .providerId (oidcIssuer ++ "/" ++ extId.value)

/-! ## Bodies and conversions -/

structure UserBody where
  userName : Option String := none
  displayName : Option String := none
  externalId : Option String := none
  emails : Option (List ScimEmail) := none
  active : Option Bool := none

structure GroupBody where
  displayName : Option String := none
  externalId : Option String := none
  members : Option (List ScimMember) := none

def userRecordToScim (scimId : ScimId) (record : UserRecord) : ScimUser where
  schemas := [schemaUser]
  id := scimId.value
  externalId := record.externalId.map (·.value)
  userName := record.name
  displayName := record.displayName
  emails := (record.email.map fun e => [⟨e, true⟩]).getD []
  active := record.active
  scimMeta := {
    resourceType := "User"
    location := "/scim/v2/Users/" ++ scimId.value
    lastModified := some record.updatedAt }

def groupRecordToScim (id : String) (record : GroupRecord) (mapping : Mapping) : ScimGroup where
  schemas := [schemaGroup]
  id := id
  externalId := record.externalId.map (·.value)
  displayName := record.name
  members := record.members.filterMap fun scimId => do
    let user ← mapping.getUser scimId
    return ⟨scimId.value, user.email⟩
  scimMeta := {
    resourceType := "Group"
    location := "/scim/v2/Groups/" ++ id
    lastModified := some record.updatedAt }

/-- Members that are not in the mapping are stored as they are. -/
def collectMemberIds (members : Option (List ScimMember)) : List ScimId :=
  (members.getD []).map fun m => ⟨m.value⟩

def ScimError.fromIo (e : IoError) : ScimError := .internal e

def userNotFound (id : ScimId) : ScimError := .notFound ("user " ++ id.value ++ " not found")

def groupNotFound (id : GroupScimId) : ScimError :=
  .notFound ("group '" ++ id.value ++ "' not found")

/-- The token that stands for a user in a policy group, if the user is active and
    the identifier resolves. -/
def policyMember (config : ScimConfig) (user : UserRecord) : Option PolicyMember := do
  guard user.active
  match ← resolveKey config user with
  | .email email => return ⟨email, none⟩
  | .name name => return ⟨name ++ "@", none⟩
  | .providerId providerId =>
    let raw := user.email.getD "-" ++ ", " ++ user.name
    -- This is shown in a block comment, which a name must not end.
    return ⟨providerId ++ "@", some (raw.replace "*/" "* /")⟩

/-- The tokens of the members of some groups, the users found by `getUser`. -/
def groupTokensWith (config : ScimConfig) (getUser : ScimId → Option UserRecord)
    (groups : List (GroupScimId × GroupRecord)) : List (String × List PolicyMember) :=
  groups.map fun (_, r) =>
    (r.name, r.members.filterMap fun sid => do policyMember config (← getUser sid))

/-- The groups the policy is to have: for each group, the tokens of its active
    members whose identifier resolves. -/
def desiredGroups (config : ScimConfig) (mapping : Mapping) : List (String × List PolicyMember) :=
  groupTokensWith config mapping.getUser mapping.groups

/-! ## Sections under the mapping lock -/

/-- The parts of the requests that run while they hold the mapping lock. -/
inductive Section
  | listUsers
  | getUser (id : ScimId)
  /-- `create_user`: find the user by name, or draw an identifier, and store. -/
  | upsertUser (record : UserRecord)
  | readUser (id : ScimId)
  | setUser (id : ScimId) (record : UserRecord)
  | isInAnyGroup (id : ScimId)
  | removeUserAndFromGroups (id : ScimId)
  | listGroups
  | getGroup (id : GroupScimId)
  /-- `create_group`: find the group by name, or draw an identifier, and store. -/
  | upsertGroup (name : String) (body : GroupBody)
  /-- `put_group`: check that the group exists and its name is free, and store. -/
  | replaceGroup (id : GroupScimId) (name : String) (body : GroupBody)
  | removeGroup (id : GroupScimId)
  | describeGroup (id : GroupScimId) (stored : GroupRecord)
  | desiredGroups (config : ScimConfig)

namespace Section

/-- What a section hands on. -/
def Result : Section → Type
  | listUsers => ScimListResponse ScimUser
  | getUser _ => ScimUser
  | upsertUser _ => ScimUser × Bool
  | readUser _ => UserRecord
  | setUser _ _ => UserRecord
  | isInAnyGroup _ => Bool
  | removeUserAndFromGroups _ => Unit
  | listGroups => ScimListResponse ScimGroup
  | getGroup _ => ScimGroup
  | upsertGroup _ _ => GroupScimId × GroupRecord × Bool
  | replaceGroup _ _ _ => GroupRecord
  | removeGroup _ => Unit
  | describeGroup _ _ => ScimGroup
  | desiredGroups _ => List (String × List PolicyMember)

/-- The record of a user, or the error that there is none. -/
def lookupUser (id : ScimId) : StoreM ScimError UserRecord := do
  match (← get).mapping.getUser id with
  | some record => return record
  | none => throw (userNotFound id)

def lookupGroup (id : GroupScimId) : StoreM ScimError GroupRecord := do
  match (← get).mapping.getGroup id with
  | some record => return record
  | none => throw (groupNotFound id)

/-- The identifier of the user with a name, or else a new one, and whether it is
    new. -/
def userTarget (mapping : Mapping) (os : Os) (name : String) : ScimId × Bool :=
  match mapping.getUserByName name with
  | some (existingId, _) => (existingId, false)
  | none => (⟨os.uuid⟩, true)

def groupTarget (mapping : Mapping) (os : Os) (name : String) : GroupScimId × Bool :=
  match mapping.getGroupByName name with
  | some (existingId, _) => (existingId, false)
  | none => (⟨os.uuid⟩, true)

/-- What a section does to the store. -/
def body : (s : Section) → StoreM ScimError s.Result
  | listUsers => do
    return .new ((← get).mapping.users.map fun (id, r) => userRecordToScim id r)
  | getUser id => do
    return userRecordToScim id (← lookupUser id)
  | upsertUser newRecord => do
    let (scimId, created) := userTarget (← get).mapping (← read) newRecord.name
    let record ← (Mapping.setUser scimId newRecord).mapErr ScimError.fromIo
    return (userRecordToScim scimId record, created)
  | readUser id => lookupUser id
  | setUser id record => (Mapping.setUser id record).mapErr ScimError.fromIo
  | isInAnyGroup id => do
    return (← get).mapping.groups.any fun (_, g) => g.members.contains id
  | removeUserAndFromGroups id => (Mapping.removeUserAndFromGroups id).mapErr ScimError.fromIo
  | listGroups => do
    let mapping := (← get).mapping
    return .new (mapping.groups.map fun (id, r) => groupRecordToScim id.value r mapping)
  | getGroup id => do
    let record ← lookupGroup id
    return groupRecordToScim id.value record (← get).mapping
  | upsertGroup name body => do
    let (scimId, created) := groupTarget (← get).mapping (← read) name
    let stored ← (Mapping.setGroup scimId {
      name
      members := collectMemberIds body.members
      externalId := body.externalId.map .mk
      updatedAt := 0 }).mapErr ScimError.fromIo
    return (scimId, stored, created)
  | replaceGroup id newName body => do
    let oldName := (← lookupGroup id).name
    let mapping := (← get).mapping
    -- A group keeps its own name, even where another one has it too.
    if newName ≠ oldName then
      if let some (existingId, _) := mapping.getGroupByName newName then
        if existingId ≠ id then
          throw (.conflict ("group '" ++ newName ++ "' already exists"))
    (Mapping.setGroup id {
      name := newName
      members := collectMemberIds body.members
      externalId := body.externalId.map .mk
      updatedAt := (← read).now }).mapErr ScimError.fromIo
  | removeGroup id => do
    let _ ← lookupGroup id
    (Mapping.removeGroup id).mapErr ScimError.fromIo
  | describeGroup id stored => do
    return groupRecordToScim id.value stored (← get).mapping
  | desiredGroups config => do
    return Scim.desiredGroups config (← get).mapping

end Section

/-! ## Calls -/

/-- The calls of a request. -/
inductive Op
  | locked (s : Section)
  | lockPolicy
  | unlockPolicy
  | getPolicy
  | setPolicy (policy : PolicyText)
  | listNodes
  | expireNode (id : Nat)
  | listUsers
  | deleteUser (id : Nat)

def Op.Ans : Op → Type
  | locked s => Except ScimError s.Result
  | lockPolicy => Unit
  | unlockPolicy => Unit
  | getPolicy => Except Status PolicyText
  | setPolicy _ => Except Status Unit
  | listNodes => Except Status (List Node)
  | expireNode _ => Except Status Unit
  | listUsers => Except Status (List User)
  | deleteUser _ => Except Status Unit

def sig : Sig := ⟨Op, Op.Ans⟩

/-- A request, or a part of one. -/
abbrev M := Prog sig ScimError

def ScimError.ofStatus (s : Status) : ScimError := .internal s.message

/-- The value of a headscale call, its status made an error of the request. -/
def fromStatus {α : Type} (r : Except Status α) : M α := .ofExcept (r.mapError ScimError.ofStatus)

def locked (s : Section) : M s.Result := do
  let r ← Prog.op (σ := sig) (.locked s)
  .ofExcept r

namespace Locked

def listUsers : M (ScimListResponse ScimUser) := locked .listUsers
def getUser (id : ScimId) : M ScimUser := locked (.getUser id)
def upsertUser (record : UserRecord) : M (ScimUser × Bool) := locked (.upsertUser record)
def readUser (id : ScimId) : M UserRecord := locked (.readUser id)
def setUser (id : ScimId) (record : UserRecord) : M UserRecord := locked (.setUser id record)
def isInAnyGroup (id : ScimId) : M Bool := locked (.isInAnyGroup id)
def removeUserAndFromGroups (id : ScimId) : M Unit := locked (.removeUserAndFromGroups id)
def listGroups : M (ScimListResponse ScimGroup) := locked .listGroups
def getGroup (id : GroupScimId) : M ScimGroup := locked (.getGroup id)
def upsertGroup (name : String) (body : GroupBody) : M (GroupScimId × GroupRecord × Bool) :=
  locked (.upsertGroup name body)
def replaceGroup (id : GroupScimId) (name : String) (body : GroupBody) : M GroupRecord :=
  locked (.replaceGroup id name body)
def removeGroup (id : GroupScimId) : M Unit := locked (.removeGroup id)
def describeGroup (id : GroupScimId) (stored : GroupRecord) : M ScimGroup :=
  locked (.describeGroup id stored)
def desiredGroups (config : ScimConfig) : M (List (String × List PolicyMember)) :=
  locked (.desiredGroups config)

end Locked

def lockPolicy : M Unit := Prog.op (σ := sig) .lockPolicy
def unlockPolicy : M Unit := Prog.op (σ := sig) .unlockPolicy
def getPolicy : M (Except Status PolicyText) := Prog.op (σ := sig) .getPolicy
def setPolicy (policy : PolicyText) : M (Except Status Unit) := Prog.op (σ := sig) (.setPolicy policy)
def listNodes : M (Except Status (List Node)) := Prog.op (σ := sig) .listNodes
def expireNode (id : Nat) : M (Except Status Unit) := Prog.op (σ := sig) (.expireNode id)
def listUsers : M (Except Status (List User)) := Prog.op (σ := sig) .listUsers
def deleteUser (id : Nat) : M (Except Status Unit) := Prog.op (σ := sig) (.deleteUser id)

/-! ## The policy -/

/-- The live policy; empty when none was ever set. -/
def fetchPolicy : M PolicyEditor := do
  let policy ← match ← getPolicy with
    | .ok policy => pure policy
    | .error s => if s.policyNotFound then pure (.blank "") else throw (.ofStatus s)
  .ofExcept ((PolicyEditor.parse policy).mapError fun e => .internal e.toString)

/-- The policy with its groups replaced, and without the grant members that name
    a group it no longer has. -/
def withGroupMembership (current : PolicyEditor) (groups : List (String × List PolicyMember)) :
    PolicyEditor :=
  let newPolicy := current.setGroups groups
  let newGroups := newPolicy.knownGroups
  newPolicy.filterMapGrants (Policy.Grant.prune newGroups)

/-- What `setGroupMembership` does while it holds the policy lock. -/
def replaceGroups (groups : List (String × List PolicyMember)) : M Unit := do
  let current ← fetchPolicy
  let newPolicy := withGroupMembership current groups
  -- Only the text would change; what is live is left as it is.
  if Policy.policiesAreSemanticallyEqual current.toText newPolicy.toText then
    return
  fromStatus (← setPolicy newPolicy.toText)

/-- Replace the `groups` of the live policy, under the policy lock, which is
    released whichever way this ends. -/
def setGroupMembership (groups : List (String × List PolicyMember)) : M Unit := do
  lockPolicy
  let r ← (replaceGroups groups).attempt
  unlockPolicy
  .ofExcept r

/-- Rebuild the groups of the policy from the mapping. The mapping lock is
    released before any call to headscale. -/
def reconcileGroupsPolicy (config : ScimConfig) : M Unit := do
  let groups ← Locked.desiredGroups config
  setGroupMembership groups

/-! ## Accounts -/

/-- Every process runs, whether or not another failed; the first error is the
    outcome. -/
def tryJoinAll : List (M Unit) → M Unit
  | [] => return
  | p :: ps => do
    let r ← p.attempt
    let rs ← (tryJoinAll ps).attempt
    .ofExcept r
    .ofExcept rs

/-- A call whose target is already gone has nothing left to do. -/
def ignoreNotFound (r : Except Status Unit) : M Unit :=
  match r with
  | .ok _ => return
  | .error s => if s.code = .notFound then return else throw (.ofStatus s)

/-- The nodes owned by the user with the resolved key. -/
def ownedNodes (key : ResolvedKey) (nodes : List Node) : List Nat :=
  (nodes.filter fun n => n.user.any key.matches).map (·.id)

/-- Expire all nodes of the user of a record. -/
def expireHeadscaleUserNodes (config : ScimConfig) (record : UserRecord) : M Unit := do
  let some key := resolveKey config record | return
  let nodes ← fromStatus (← listNodes)
  tryJoinAll ((ownedNodes key nodes).map fun id => do ignoreNotFound (← expireNode id))

/-- Delete the headscale account of a record. -/
def deleteHeadscaleUser (config : ScimConfig) (record : UserRecord) : M Unit := do
  let some key := resolveKey config record | return
  let users ← fromStatus (← listUsers)
  if let some user := users.find? key.matches then
    ignoreNotFound (← deleteUser user.id)

/-! ## Requests -/

def userNameRequired : ScimError := .badRequest "userName is required"

def externalIdRequired : ScimError :=
  .badRequest "externalId is required when policyUserKey=external_id"

/-- The first email of a body. -/
def UserBody.email (body : UserBody) : Option String :=
  (body.emails.bind (·.head?)).map (·.value)

/-- The record of a body; storing it sets the time. -/
def UserBody.toRecord (body : UserBody) (name : String) (active : Bool) : UserRecord where
  active := active
  name := name
  displayName := body.displayName
  email := body.email
  externalId := body.externalId.map .mk
  updatedAt := 0

/-- Check that a body has the identifier the policy is keyed by. -/
def checkExternalId (config : ScimConfig) (body : UserBody) : M Unit :=
  if config.policyUserKey.isExternalId && body.externalId.isNone then throw externalIdRequired
  else return

/-- Create a user, or update the one with the same name. -/
def createUser (config : ScimConfig) (body : UserBody) : M (Bool × ScimUser) := do
  let some userName := body.userName.filter (· ≠ "") | throw userNameRequired
  checkExternalId config body
  let newRecord := body.toRecord userName (body.active.getD true)
  let (scimUser, created) ← Locked.upsertUser newRecord
  reconcileGroupsPolicy config
  return (created, scimUser)

/-- The identifier the policy is keyed by changes with the record; the issuer's
    never does. -/
def identifierChanged (config : ScimConfig) (oldRecord : UserRecord) (name : String)
    (email : Option String) : Bool :=
  match config.policyUserKey with
  | .email => email != oldRecord.email
  | .username => name != oldRecord.name
  | .externalId _ => false

/-- The expiries of `put_user`: always on deactivation, and when the configured
    identifier changes if the configuration asks for it. -/
def expireBeforePut (config : ScimConfig) (oldRecord : UserRecord) (active : Bool) (name : String)
    (email : Option String) : M Unit :=
  let shouldExpireOnChange :=
    config.expireNodesOnChange && active && identifierChanged config oldRecord name email
  if !active || shouldExpireOnChange then expireHeadscaleUserNodes config oldRecord else return

/-- The reconcile of `put_user`: skipped for an active user who is in no group. -/
def reconcileAfterPut (config : ScimConfig) (scimId : ScimId) (active : Bool) : M Unit := do
  let isInAnyGroup ← Locked.isInAnyGroup scimId
  if !active || isInAnyGroup then reconcileGroupsPolicy config else return

/-- Replace a user. The old record is read before any call to headscale, and the
    new one is stored only after the calls succeeded. -/
def putUser (config : ScimConfig) (id : String) (body : UserBody) : M ScimUser := do
  let scimId : ScimId := ⟨id⟩
  let some userName := body.userName | throw userNameRequired
  let some active := body.active
    | throw (.badRequest "active must be set explicitly in a PUT")
  checkExternalId config body
  let oldRecord ← Locked.readUser scimId
  expireBeforePut config oldRecord active userName body.email
  let stored ← Locked.setUser scimId (body.toRecord userName active)
  reconcileAfterPut config scimId active
  return userRecordToScim scimId stored

def deleteUserRequest (config : ScimConfig) (id : String) : M Unit := do
  let scimId : ScimId := ⟨id⟩
  let record ← Locked.readUser scimId
  deleteHeadscaleUser config record
  Locked.removeUserAndFromGroups scimId
  reconcileGroupsPolicy config

def requireDisplayName (body : GroupBody) : M String :=
  match body.displayName.filter (· ≠ "") with
  | some name => return name
  | none => throw (.badRequest "displayName is required")

/-- Create a group, or update the one with the same name. -/
def createGroup (config : ScimConfig) (body : GroupBody) : M (Bool × ScimGroup) := do
  let name ← requireDisplayName body
  let (scimId, stored, created) ← Locked.upsertGroup name body
  reconcileGroupsPolicy config
  return (created, ← Locked.describeGroup scimId stored)

def putGroup (config : ScimConfig) (id : String) (body : GroupBody) : M ScimGroup := do
  let newName ← requireDisplayName body
  let stored ← Locked.replaceGroup ⟨id⟩ newName body
  reconcileGroupsPolicy config
  Locked.describeGroup ⟨id⟩ stored

def deleteGroup (config : ScimConfig) (id : String) : M Unit := do
  Locked.removeGroup ⟨id⟩
  reconcileGroupsPolicy config

inductive Request
  | listUsers
  | getUser (id : String)
  | createUser (body : UserBody)
  | putUser (id : String) (body : UserBody)
  | deleteUser (id : String)
  | listGroups
  | getGroup (id : String)
  | createGroup (body : GroupBody)
  | putGroup (id : String) (body : GroupBody)
  | deleteGroup (id : String)
  /-- The operator's request to apply the groups again. -/
  | reconcile

inductive Response
  | users (users : ScimListResponse ScimUser)
  | user (user : ScimUser)
  | userCreated (created : Bool) (user : ScimUser)
  | groups (groups : ScimListResponse ScimGroup)
  | group (group : ScimGroup)
  | groupCreated (created : Bool) (group : ScimGroup)
  | noContent
  deriving DecidableEq

/-- The process that handles a request. -/
def handle (config : ScimConfig) : Request → M Response
  | .listUsers => do return .users (← Locked.listUsers)
  | .getUser id => do return .user (← Locked.getUser ⟨id⟩)
  | .createUser body => do
    let r ← createUser config body
    return .userCreated r.1 r.2
  | .putUser id body => do return .user (← putUser config id body)
  | .deleteUser id => do
    deleteUserRequest config id
    return .noContent
  | .listGroups => do return .groups (← Locked.listGroups)
  | .getGroup id => do return .group (← Locked.getGroup ⟨id⟩)
  | .createGroup body => do
    let r ← createGroup config body
    return .groupCreated r.1 r.2
  | .putGroup id body => do return .group (← putGroup config id body)
  | .deleteGroup id => do
    deleteGroup config id
    return .noContent
  | .reconcile => do
    reconcileGroupsPolicy config
    return .noContent

/-! ## The server and headscale -/

/-- A call that changes accounts, as it was sent. -/
inductive Sent
  | expireNode (id : Nat)
  | deleteUser (id : Nat)
  deriving DecidableEq

/-- What the requests share: the mapping store, the policy lock and headscale,
    with a record of the account changes sent to it. -/
structure World where
  store : Store
  headscale : Headscale := {}
  policyLocked : Bool := false
  sent : List Sent := []

/-- What is not up to the server during a call. -/
structure Fate where
  os : Os := {}
  outcome : Outcome := .served

instance : Inhabited Fate := ⟨{}⟩

/-- The call does not reach headscale. -/
def Fate.failing : Fate := { outcome := .failed ⟨⟨.other, "unavailable"⟩, by decide⟩ false }

def World.withStore (w : World) (store : Store) : World := { w with store }

/-- The world once the account changes `cs` were sent. -/
def World.sending (w : World) (cs : List Sent) : World := { w with sent := w.sent ++ cs }

/-- A call to headscale, which may fail on the way. -/
def World.serve {α : Type} (w : World) (f : Fate) (r : Except Status α × Headscale) :
    Except Status α × World :=
  let (answer, headscale) := f.outcome.answer w.headscale r
  (answer, { w with headscale })

def act (f : Fate) : (o : Op) → World → o.Ans × World
  | .locked s, w =>
    let (r, store) := s.body.exec f.os w.store
    (r, w.withStore store)
  | .lockPolicy, w => ((), { w with policyLocked := true })
  | .unlockPolicy, w => ((), { w with policyLocked := false })
  | .getPolicy, w => w.serve f w.headscale.getPolicy
  | .setPolicy policy, w => w.serve f (w.headscale.setPolicy policy)
  | .listNodes, w => w.serve f w.headscale.listNodes
  | .expireNode id, w =>
    (w.sending [.expireNode id]).serve f (w.headscale.expireNode id)
  | .listUsers, w => w.serve f w.headscale.listUsers
  | .deleteUser id, w =>
    (w.sending [.deleteUser id]).serve f (w.headscale.deleteUser id)

/-- The policy lock is free. -/
def ready (w : World) : Op → Bool
  | .lockPolicy => !w.policyLocked
  | _ => true

/-- The users and nodes of headscale, which come and go on their own. -/
structure Accounts where
  users : List User
  nodes : List Node

def machine : Machine sig World Fate Accounts where
  act := act
  ready := ready
  env a w := { w with headscale.users := a.users, headscale.nodes := a.nodes }

end Headmaster.Scim
