import Mathlib.Data.List.DropRight
import Headmaster.Scim.Services

/-!
# The start of the SCIM server

What the server takes from its environment (`Config.fromEnv`), and which requests
it lets in (`requireBearer`): those with its token, and no other ones
(`requireBearer_bearerAuth`).
-/

namespace Headmaster.Scim

/-! ## The environment -/

/-- The variables of a process. -/
abbrev Env := String → Option String

namespace Env

variable (env : Env)

def require (key : String) : Except String String :=
  match env key with
  | some value => .ok value
  | none => .error ("missing required env var " ++ key)

/-- The slashes at its end do not belong to an issuer. -/
def policyUserKey : Except String PolicyUserKey :=
  let policyUserKeyStr := (env "POLICY_USER_KEY").getD "email"
  if policyUserKeyStr = "email" then .ok .email
  else if policyUserKeyStr = "username" then .ok .username
  else if policyUserKeyStr = "external_id" then do
    let oidcIssuer ← env.require "OIDC_ISSUER"
    return .externalId (String.ofList (oidcIssuer.toList.rdropWhile (· == '/')))
  else
    .error ("invalid POLICY_USER_KEY '" ++ policyUserKeyStr ++
      "'; expected 'email', 'username', or 'external_id'")

def expireNodesOnChange : Except String Bool :=
  let value := (env "EXPIRE_NODES_ON_CHANGE").getD "false"
  if value = "true" then .ok true
  else if value = "false" then .ok false
  else .error "invalid EXPIRE_NODES_ON_CHANGE; expected 'true' or 'false'"

end Env

structure Config where
  headscaleUrl : String
  headscaleApiKey : String
  scimToken : String
  externalIdFile : String
  listenAddr : String
  scimConfig : ScimConfig
  deriving DecidableEq

/-- The first that is wrong is reported, and the server does not start. -/
def Config.fromEnv (env : Env) : Except String Config := do
  let policyUserKey ← env.policyUserKey
  let expireNodesOnChange ← env.expireNodesOnChange
  let headscaleUrl ← env.require "HEADSCALE_URL"
  let headscaleApiKey ← env.require "HEADSCALE_API_KEY"
  let scimToken ← env.require "SCIM_BEARER_TOKEN"
  return {
    headscaleUrl
    headscaleApiKey
    scimToken
    externalIdFile := (env "SCIM_EXTERNAL_ID_FILE").getD "/data/external-id-map.json"
    listenAddr := (env "SCIM_LISTEN_ADDR").getD "0.0.0.0:8081"
    scimConfig := { policyUserKey, expireNodesOnChange } }

/-! ## The token -/

/-- The value of a header: text, or bytes that are not. -/
inductive HeaderValue
  | text (s : String)
  | binary
  deriving DecidableEq

def isVisible (c : Char) : Bool := 32 ≤ c.toNat && c.toNat < 127 || c == '\t'

/-- `to_str`: only what is visible is text. -/
def HeaderValue.toStr : HeaderValue → Option String
  | text s => if s.toList.all isVisible then some s else none
  | binary => none

/-- What comes after a word, if a string begins with it. -/
def stripPrefix (word s : String) : Option String :=
  if word.toList.isPrefixOf s.toList then some (String.ofList (s.toList.drop word.toList.length))
  else none

/-- A request passes with the token, and is answered by 401 without it. -/
def requireBearer (scimToken : String) (authorization : Option HeaderValue) : Bool :=
  (authorization.bind HeaderValue.toStr).bind (stripPrefix "Bearer ") == some scimToken

/-- `bearer_auth` of a client, which does not send what cannot be in a header. -/
def bearerAuth (token : String) : Option HeaderValue :=
  let value := "Bearer " ++ token
  if value.toList.all fun c => (32 ≤ c.toNat && c.toNat ≠ 127) || c == '\t' then some (.text value)
  else none

theorem stripPrefix_append (word s : String) : stripPrefix word (word ++ s) = some s := by
  rw [stripPrefix, String.toList_append, if_pos (List.isPrefixOf_iff_prefix.2 (List.prefix_append ..)),
    List.drop_left, String.ofList_toList]

/-- The server lets a client in with its own token only. -/
theorem requireBearer_bearerAuth {token scimToken : String} (h : token.toList.all isVisible = true) :
    requireBearer scimToken (bearerAuth token) = true ↔ token = scimToken := by
  have hprefix : "Bearer ".toList.all isVisible = true := by decide
  have hall : ("Bearer " ++ token).toList.all isVisible = true := by
    rw [String.toList_append, List.all_append, hprefix, h]
    rfl
  have hsent : bearerAuth token = some (.text ("Bearer " ++ token)) := by
    refine if_pos (List.all_eq_true.2 fun c hc => ?_)
    have hvisible := List.all_eq_true.1 hall c hc
    simp only [isVisible, Bool.or_eq_true, Bool.and_eq_true, decide_eq_true_eq] at hvisible ⊢
    exact hvisible.imp_left fun h => ⟨h.1, by omega⟩
  rw [requireBearer, hsent, Option.bind_some, HeaderValue.toStr, if_pos hall, Option.bind_some,
    stripPrefix_append, beq_iff_eq, Option.some.injEq]

end Headmaster.Scim
