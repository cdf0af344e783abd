import Std.Data.ExtTreeMap.Lemmas
import Mathlib.Data.List.Basic

/-!
# SCIM types

The identifiers and wire types of the SCIM server, and its errors
(`src/scim/src/types.rs`). Identifiers are strings under a type of their own,
ordered as strings, so that the maps they key list their entries in the order
of the source's `BTreeMap`.
-/

namespace Headmaster.Scim

/-- Nanoseconds since the epoch; the default is the epoch itself. -/
abbrev Timestamp := Int

/-- Stable UUID exposed to SCIM clients for users. -/
@[ext]
structure ScimId where
  value : String
  deriving DecidableEq

/-- Stable UUID exposed to SCIM clients for groups. -/
@[ext]
structure GroupScimId where
  value : String
  deriving DecidableEq

/-- Opaque identifier assigned by the identity provider. -/
structure ExternalId where
  value : String
  deriving DecidableEq

/-! ## The order of identifiers -/

section Order

/-- The order of a type that is a string under another name. -/
abbrev ordOn {α : Type} (f : α → String) : Ord α := ⟨fun a b => compare (f a) (f b)⟩

theorem ordOn_transOrd {α : Type} (f : α → String) : letI := ordOn f; Std.TransOrd α :=
  letI := ordOn f
  { eq_swap := Std.OrientedOrd.eq_swap (α := String)
    isLE_trans := Std.TransOrd.isLE_trans (α := String) }

theorem ordOn_lawfulEqOrd {α : Type} (f : α → String) (hf : Function.Injective f) :
    letI := ordOn f; Std.LawfulEqOrd α :=
  letI := ordOn f
  { compare_self := Std.ReflOrd.compare_self (α := String)
    eq_of_compare := fun h => hf (Std.LawfulEqOrd.eq_of_compare h) }

instance : Ord ScimId := ordOn ScimId.value
instance : Std.TransOrd ScimId := ordOn_transOrd _
instance : Std.LawfulEqOrd ScimId := ordOn_lawfulEqOrd _ fun _ _ h => ScimId.ext h

instance : Ord GroupScimId := ordOn GroupScimId.value
instance : Std.TransOrd GroupScimId := ordOn_transOrd _
instance : Std.LawfulEqOrd GroupScimId := ordOn_lawfulEqOrd _ fun _ _ h => GroupScimId.ext h

end Order

/-! ## Wire types -/

def schemaUser : String := "urn:ietf:params:scim:schemas:core:2.0:User"
def schemaGroup : String := "urn:ietf:params:scim:schemas:core:2.0:Group"
def schemaListResponse : String := "urn:ietf:params:scim:api:messages:2.0:ListResponse"

structure ScimEmail where
  value : String
  primary : Bool
  deriving DecidableEq

structure ScimMeta where
  resourceType : String
  location : String
  lastModified : Option Timestamp
  deriving DecidableEq

structure ScimUser where
  schemas : List String
  id : String
  externalId : Option String
  userName : String
  displayName : Option String
  emails : List ScimEmail
  active : Bool
  scimMeta : ScimMeta
  deriving DecidableEq

structure ScimMember where
  value : String
  display : Option String
  deriving DecidableEq

structure ScimGroup where
  schemas : List String
  id : String
  externalId : Option String
  displayName : String
  members : List ScimMember
  scimMeta : ScimMeta
  deriving DecidableEq

structure ScimListResponse (α : Type) where
  schemas : List String
  totalResults : Nat
  startIndex : Nat
  itemsPerPage : Nat
  resources : List α
  deriving DecidableEq

def ScimListResponse.new {α : Type} (resources : List α) : ScimListResponse α where
  schemas := [schemaListResponse]
  totalResults := resources.length
  startIndex := 1
  itemsPerPage := resources.length
  resources := resources

/-! ## Errors -/

/-- The HTTP statuses the services answer an error with. -/
inductive StatusCode
  | notFound
  | conflict
  | badRequest
  | internalServerError
  deriving DecidableEq

structure ScimError where
  status : StatusCode
  detail : String
  deriving DecidableEq

namespace ScimError

def notFound (detail : String) : ScimError := ⟨.notFound, detail⟩
def conflict (detail : String) : ScimError := ⟨.conflict, detail⟩
def badRequest (detail : String) : ScimError := ⟨.badRequest, detail⟩
def internal (detail : String) : ScimError := ⟨.internalServerError, detail⟩

end ScimError

end Headmaster.Scim
