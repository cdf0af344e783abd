import Mathlib.Algebra.Ring.Nat
import Std.Data.ExtTreeMap
import Headmaster.Json

/-!
# The config annotation

The annotation that configures an Ingress or a Service
(`src/operator/src/types/ingress_annotations.rs`), a JSON text. The reader of
the text is a parameter (`Reader`): what it makes of a text is the tree of the
`Json` document, repeated names included, from which the configuration is
deserialised field by field (`IngressAnnotations.deserialize`).

Two fields are also read without the rest (`headscaleRefOf`,
`headscaleNamespaceOf`); where the whole configuration parses, they agree with
it (`headscaleRef_eq_of_parse`).
-/

namespace Headmaster.Operator

open Props (last)

/-- What a reader of JSON makes of a text: its tree, unless it is not JSON. Numbers
    are given as they are printed. -/
abbrev Reader := String → Option Json

/-! ## Deserialising -/

section Deserialize

variable {α : Type}

def deserializeString : Json → Option String
  | .string s => some s
  | _ => none

def deserializeBool : Json → Option Bool
  | .bool b => some b
  | _ => none

def deserializeU64 : Json → Option Nat
  | .number n => n.toNat?.filter (· < 2 ^ 64)
  | _ => none

def deserializeOption (f : Json → Option α) : Json → Option (Option α)
  | .null => some none
  | j => (f j).map some

def deserializeVec (f : Json → Option α) : Json → Option (List α)
  | .array es => es.mapM f
  | _ => none

/-- Of several entries with one key, the last. -/
def deserializeMap (f : Json → Option α) : Json → Option (Std.ExtTreeMap String α)
  | .object ps => (ps.mapM fun p : String × Json => (f p.2).map fun a => (p.1, a)).map fun entries =>
      Std.ExtTreeMap.ofList entries
  | _ => none

/-- What a struct is deserialised from: an object with its fields by name, or an
    array with its fields in order. -/
inductive Fields
  | map (ps : List (String × Json))
  | seq (es : List Json)

/-- The fields of a struct that denies unknown fields. A field cannot be given
    twice. -/
def structFields (names : List String) : Json → Option Fields
  | .object ps =>
    if (ps.map Prod.fst).Nodup ∧ ∀ k ∈ ps.map Prod.fst, k ∈ names then some (.map ps) else none
  | .array es => if es.length ≤ names.length then some (.seq es) else none
  | _ => none

namespace Fields

variable (fields : Fields) (i : Nat) (name : String) (f : Json → Option α)

def get : Option Json :=
  match fields with
  | map ps => ps.lookup name
  | seq es => es[i]?

def required : Option α := (fields.get i name).bind f

/-- A field with `#[serde(default)]`. -/
def withDefault (default : α) : Option α :=
  match fields.get i name with
  | some j => f j
  | none => some default

/-- An `Option` field without `#[serde(default)]`: only an object may leave it out. -/
def optional : Option (Option α) :=
  match fields, fields.get i name with
  | _, some j => deserializeOption f j
  | map _, none => some none
  | seq _, none => none

end Fields

end Deserialize

/-! ## The configuration -/

/-- One entry of the `access` list. -/
structure IngressAccessGrant where
  /-- The `from` list: `group:*`, `tag:*`, `autogroup:*`, `*`, or a user email. -/
  principals : List String
  /-- Capability name to argument list. -/
  capabilities : Option (Std.ExtTreeMap String (List Json)) := none

def IngressAccessGrant.deserialize (j : Json) : Option IngressAccessGrant := do
  let fields ← structFields ["from", "capabilities"] j
  return {
    principals := ← fields.required 0 "from" (deserializeVec deserializeString)
    capabilities := ← fields.withDefault 1 "capabilities"
      (deserializeOption (deserializeMap (deserializeVec some))) none }

/-- The proxy's packet path. -/
inductive ProxyMode
  | tsnet
  | tun
  deriving DecidableEq

namespace ProxyMode

def ofVariant : String → Option ProxyMode
  | "tsnet" => some tsnet
  | "tun" => some tun
  | _ => none

/-- A variant by its name, or as the only key of an object with a null value. -/
def deserialize : Json → Option ProxyMode
  | .string s => ofVariant s
  | .object [(s, .null)] => ofVariant s
  | _ => none

end ProxyMode

/-- One entry of the `consumers` list of an egress Service. -/
structure EgressConsumer where
  namespaceName : String
  pods : Option (Std.ExtTreeMap String String) := none
  deriving DecidableEq

def EgressConsumer.deserialize (j : Json) : Option EgressConsumer := do
  let fields ← structFields ["namespace", "pods"] j
  return {
    namespaceName := ← fields.required 0 "namespace" deserializeString
    pods := ← fields.withDefault 1 "pods"
      (deserializeOption (deserializeMap deserializeString)) none }

def defaultAuthKeyExpirySecs : Nat := 1800

structure IngressAnnotations where
  headscaleRef : String
  /-- The deployment the object targets; the default one when there is none. -/
  headscaleNamespace : Option String := none
  user : Option String := none
  managedKeyTags : List String := []
  hostname : String := ""
  authKeyExpirySecs : Nat := defaultAuthKeyExpirySecs
  authKeyReusable : Bool := false
  hostNetwork : Bool := false
  /-- Egress Services only. -/
  tailnetFqdn : Option String := none
  /-- Egress Services only. -/
  consumers : List EgressConsumer := []
  access : List IngressAccessGrant := []
  mode : ProxyMode := .tsnet

inductive AnnotationError
  | missing (key : String)
  /-- With the message of the reader left out. -/
  | invalid (key : String)
  | invalidAnnotations (message : String)
  deriving DecidableEq

def annotationConfig : String := "headmaster.potatonode.github.io/config"

/-- What the functions here read of an object. -/
structure ObjectMeta where
  name : String
  namespaceName : Option String := none
  annotations : List (String × String) := []
  finalizers : List String := []
  /-- The object has a deletion timestamp. -/
  deleting : Bool := false

/-- `namespace().unwrap_or_default()`. -/
def ObjectMeta.ns (m : ObjectMeta) : String := m.namespaceName.getD ""

namespace IngressAnnotations

/-- The fields, in the order of their declaration. -/
def fieldNames : List String :=
  ["headscale-ref", "headscale-namespace", "user", "managed-key-tags", "hostname",
    "auth-key-expiry-secs", "auth-key-reusable", "host-network", "tailnet-fqdn", "consumers",
    "access", "mode"]

def deserialize (j : Json) : Option IngressAnnotations := do
  let fields ← structFields fieldNames j
  return {
    headscaleRef := ← fields.required 0 "headscale-ref" deserializeString
    headscaleNamespace := ← fields.withDefault 1 "headscale-namespace"
      (deserializeOption deserializeString) none
    user := ← fields.optional 2 "user" deserializeString
    managedKeyTags := ← fields.withDefault 3 "managed-key-tags" (deserializeVec deserializeString) []
    hostname := ← fields.withDefault 4 "hostname" deserializeString ""
    authKeyExpirySecs := ← fields.withDefault 5 "auth-key-expiry-secs" deserializeU64
      defaultAuthKeyExpirySecs
    authKeyReusable := ← fields.withDefault 6 "auth-key-reusable" deserializeBool false
    hostNetwork := ← fields.withDefault 7 "host-network" deserializeBool false
    tailnetFqdn := ← fields.withDefault 8 "tailnet-fqdn" (deserializeOption deserializeString) none
    consumers := ← fields.withDefault 9 "consumers" (deserializeVec EgressConsumer.deserialize) []
    access := ← fields.withDefault 10 "access" (deserializeVec IngressAccessGrant.deserialize) []
    mode := ← fields.withDefault 11 "mode" ProxyMode.deserialize .tsnet }

/-- The configuration with a hostname: that of the object when it has none. -/
def orNamed (a : IngressAnnotations) (name : String) : IngressAnnotations :=
  if a.hostname = "" then { a with hostname := name } else a

variable (read : Reader) (obj : ObjectMeta)

def parse : Except AnnotationError IngressAnnotations := do
  let some json := obj.annotations.lookup annotationConfig | throw (.missing annotationConfig)
  let some parsed := (read json).bind deserialize | throw (.invalid annotationConfig)
  if parsed.user.isNone && parsed.managedKeyTags.isEmpty then
    throw (.invalidAnnotations "at least one of 'user' or 'managed-key-tags' must be set")
  else
    return parsed.orNamed obj.name

/-- A field of the annotation that is a string, without full validation. -/
def peek (field : String) : Option String := do
  let json ← obj.annotations.lookup annotationConfig
  match ← read json with
  | .object ps => (last ps field).bind deserializeString
  | _ => none

def headscaleRefOf : Option String := peek read obj "headscale-ref"

def headscaleNamespaceOf : Option String := peek read obj "headscale-namespace"

variable {read obj}

/-- A configuration that parses is one that is deserialised from the annotation, but
    for the hostname. -/
theorem exists_of_parse {a : IngressAnnotations} (h : parse read obj = .ok a) :
    ∃ json j parsed, obj.annotations.lookup annotationConfig = some json ∧ read json = some j ∧
      deserialize j = some parsed ∧ a.headscaleRef = parsed.headscaleRef := by
  rw [parse] at h
  split at h
  · rename_i json hjson
    split at h
    · rename_i parsed hparsed
      obtain ⟨j, hj, hparsed⟩ := Option.bind_eq_some_iff.1 hparsed
      refine ⟨json, j, parsed, hjson, hj, hparsed, ?_⟩
      split at h
      · cases h
      · obtain rfl : parsed.orNamed obj.name = a := Except.ok.inj h
        rw [orNamed]
        split <;> rfl
    · cases h
  · cases h

/-- The fields of a struct that is deserialised from an object are its last ones. -/
theorem structFields_object {names : List String} {ps : List (String × Json)} {fields : Fields}
    (h : structFields names (.object ps) = some fields) (i : Nat) (k : String) :
    fields.get i k = last ps k := by
  rw [structFields] at h
  split at h
  · rename_i hps
    cases h
    exact Props.lookup_eq_last (Props.once_of_nodup hps.1 k)
  · cases h

theorem headscaleRef_of_deserialize {ps : List (String × Json)} {parsed : IngressAnnotations}
    (h : deserialize (.object ps) = some parsed) :
    (last ps "headscale-ref").bind deserializeString = some parsed.headscaleRef := by
  rw [deserialize] at h
  obtain ⟨fields, hfields, h⟩ := Option.bind_eq_some_iff.1 h
  obtain ⟨ref, href, h⟩ := Option.bind_eq_some_iff.1 h
  rw [Fields.required, structFields_object hfields] at href
  rw [href]
  -- the other eleven fields
  iterate 11 obtain ⟨_, _, h⟩ := Option.bind_eq_some_iff.1 h
  cases h
  rfl

/-- Where the configuration parses, the reference read without the rest is its own. -/
theorem headscaleRef_eq_of_parse {a : IngressAnnotations} {ref : String}
    (h : parse read obj = .ok a) (href : headscaleRefOf read obj = some ref) :
    a.headscaleRef = ref := by
  obtain ⟨json, j, parsed, hjson, hj, hparsed, hsame⟩ := exists_of_parse h
  rw [headscaleRefOf, peek, hjson] at href
  simp only [Option.bind_eq_bind, Option.bind_some, hj] at href
  match j, hparsed, href with
  | .object ps, hparsed, href =>
    rw [hsame]
    exact Option.some.inj ((headscaleRef_of_deserialize hparsed).symm.trans href)

end IngressAnnotations

end Headmaster.Operator
