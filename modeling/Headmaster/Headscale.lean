import Mathlib.Data.List.Infix
import Headmaster.Policy.Editor

/-!
# Headscale

What the clients of headscale rely on: a store of the policy text last set, and
the users and nodes, which come and go on their own. The answers follow the
server the repository tests its clients against
(`src/headscale-client/src/fake.rs`); a call may also fail on the way, before
or after it had its effect (`Outcome`).
-/

namespace Headmaster

open Policy (PolicyText)

/-- The gRPC codes the clients tell apart, and the rest. -/
inductive Code
  | notFound
  | unknown
  | other
  deriving DecidableEq

structure Status where
  code : Code
  message : String
  deriving DecidableEq

structure User where
  id : Nat
  name : String
  email : String
  providerId : String
  deriving DecidableEq

structure Node where
  id : Nat
  user : Option User
  deriving DecidableEq

/-- The state of a headscale server; without a policy until one is set. -/
structure Headscale where
  policy : Option PolicyText := none
  users : List User := []
  nodes : List Node := []

/-- Whether the message of a status says that no policy was ever set. -/
def Status.policyNotFound (s : Status) : Bool :=
  decide ("policy not found".toList <:+: s.message.toList)

/-- The status of a call that fails on the way: only headscale itself can say
    that no policy was ever set. -/
structure Failure where
  status : Status
  elsewhere : status.policyNotFound = false

/-- How a call goes: headscale answers it, or it fails on the way, possibly after
    it had its effect. -/
inductive Outcome
  | served
  | failed (failure : Failure) (effect : Bool)

instance : Inhabited Outcome := ⟨.served⟩

/-- The answer to a call and the state after it, from those of headscale. -/
def Outcome.answer {α : Type} (h : Headscale) :
    Outcome → Except Status α × Headscale → Except Status α × Headscale
  | served, r => r
  | failed failure effect, r => (.error failure.status, if effect then r.2 else h)

namespace Headscale

variable (h : Headscale)

def getPolicy : Except Status PolicyText × Headscale :=
  match h.policy with
  | some t => (.ok t, h)
  | none => (.error ⟨.unknown, "loading ACL from database: acl policy not found"⟩, h)

def setPolicy (policy : PolicyText) : Except Status Unit × Headscale :=
  (.ok (), { h with policy := some policy })

def listUsers : Except Status (List User) × Headscale := (.ok h.users, h)

def listNodes : Except Status (List Node) × Headscale := (.ok h.nodes, h)

/-- The expiry of a node is not part of the state. -/
def expireNode (id : Nat) : Except Status Unit × Headscale :=
  if h.nodes.any (·.id = id) then (.ok (), h) else (.error ⟨.notFound, "node not found"⟩, h)

def deleteUser (id : Nat) : Except Status Unit × Headscale :=
  if h.users.any (·.id = id) then
    (.ok (), { h with users := h.users.filter (·.id != id) })
  else
    (.error ⟨.notFound, "user not found"⟩, h)

end Headscale

end Headmaster
