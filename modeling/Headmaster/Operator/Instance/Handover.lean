import Headmaster.Operator.Instance.InPlace
import Headmaster.Operator.Instance.Secrets
import Headmaster.Operator.Labels
import Headmaster.Scim.Startup

/-!
# From the operator to the SCIM server

The operator passes what the spec says, and two Secrets, to the SCIM server in the
variables of its pod; the server reads its configuration from them
(`Scim.Config.fromEnv`). Once an instance is ready the configuration is that of the
spec, or the server says what is wrong with the spec; it finds headscale, and lets
in the operator, which notifies it of changes of the policy
(`handed_over_of_ready`).
-/

namespace Headmaster.Operator.Instance

open Process (Pool calledBy)
open Process.Machine (OwnTurns)
open Proxy (Action)
open Scim (Config Env HeaderValue PolicyUserKey bearerAuth requireBearer)

/-! ## The pod -/

/-- What is in a Secret. -/
def Cluster.secret (w : Cluster) (name : String) : Option Labels :=
  (w.objects .secret name).map fun o => o.resource.stringData

/-- The variables of a container: its own, and then those of the Secrets, the last one first. -/
def Container.variables (secrets : String → Option Labels) (container : Container) : Env := fun key =>
  (container.env.lookup key).or <|
    container.envFrom.reverse.findSome? fun secret => (secrets secret).bind fun data => data.lookup key

/-- Which identifier the spec asks for. -/
def ScimSpec.userKey (scim : ScimSpec) : Except String PolicyUserKey :=
  let key := scim.policyUserKey.getD "email"
  if key = "email" then .ok .email
  else if key = "username" then .ok .username
  else if key = "external_id" then
    match scim.oidcIssuer with
    | some oidcIssuer => .ok (.externalId (String.ofList (oidcIssuer.toList.rdropWhile (· == '/'))))
    | none => .error "missing required env var OIDC_ISSUER"
  else .error ("invalid POLICY_USER_KEY '" ++ key ++
    "'; expected 'email', 'username', or 'external_id'")

/-! ## Notifications -/

def readScimToken (secrets : String → Option Labels) (inst : String) : Option String :=
  (secrets (scimTokenSecretName inst)).bind fun data => data.lookup "SCIM_BEARER_TOKEN"

/-- The request that `notify_scim` sends, with its header, once it has the token. -/
def notifyScimRequest (secrets : String → Option Labels) (ns inst : String) :
    Option (String × Option HeaderValue) :=
  (readScimToken secrets inst).map fun token =>
    ("http://headscale-scim-" ++ inst ++ "." ++ ns ++ ".svc:" ++ toString portScim ++
      "/internal/reconcile", bearerAuth token)

def serviceAddress (name ns : String) (port : Int) : String :=
  name ++ "." ++ ns ++ ".svc:" ++ toString port

/-- The address of a Service, from where requests go to a port of the container of the StatefulSet
    that is called as it is. -/
def Cluster.Leads (w : Cluster) (addr name : String) (port : Int) : Prop :=
  ∃ metadata service metadata' spec p target,
    w.objects .service name = some ⟨metadata, .service service⟩ ∧
    w.objects .statefulSet name = some ⟨metadata', .statefulSet spec⟩ ∧
    p ∈ service.ports ∧ addr = serviceAddress name metadata.ns p.port ∧
    p.targetPort = some (.string target) ∧ ⟨target, port⟩ ∈ spec.template.container.ports ∧
    Selects service.selector spec.template.labels

theorem leads_of_has {w : Cluster} {child : ChildApplier} {c : Component} {name target : String}
    {port : Int} {service : ServiceSpec} {spec : StatefulSetSpec} {p : Proxy.ServicePort}
    (hservice : w.Has (child.service c.label name service))
    (hset : w.Has (child.statefulSet c.label name spec)) (hselector : service.selector = [])
    (hlabels : spec.template.labels = []) (hp : p ∈ service.ports)
    (htarget : p.targetPort = some (.string target))
    (hport : ⟨target, port⟩ ∈ spec.template.container.ports) :
    w.Leads (serviceAddress name child.ns p.port) name port := by
  refine ⟨_, _, _, _, p, target, hservice, hset, hp, rfl, htarget, hport, ?_⟩
  change Selects (Props.extend service.selector _) (Props.extend spec.template.labels _)
  rw [hselector, hlabels]
  exact @Component.selects_selectorLabels c child.instanceName

/-! ## The environment of the server -/

section Environment

variable {dep : Deployment} {name ns apiKey token : String} {scim : ScimSpec}
  {secrets : String → Option Labels}

/-- A variable that is set only with a value. -/
theorem lookup_optional (name : String) (value : Option String) (key : String) :
    ((value.map fun v => (name, v)).toList).lookup key = if name = key then value else none := by
  cases value with
  | none => exact (ite_self none).symm
  | some v => rw [Option.map_some, Option.toList_some, Props.lookup_cons, List.lookup_nil]

/-- What the spec says, and no more. -/
theorem lookup_scimEnv (key : String) : (scimEnv name ns scim).lookup key =
    if "HEADSCALE_URL" = key then
      some ("http://headscale-server-" ++ name ++ "." ++ ns ++ ".svc:50443")
    else ((if "POLICY_USER_KEY" = key then scim.policyUserKey else none).or
      (if "OIDC_ISSUER" = key then scim.oidcIssuer else none)).or
        (if "EXPIRE_NODES_ON_CHANGE" = key then
          if scim.expireNodesOnChange then some "true" else none
        else none) := by
  have hexpire : (if scim.expireNodesOnChange then [("EXPIRE_NODES_ON_CHANGE", "true")] else []) =
      ((if scim.expireNodesOnChange then some "true" else none).map
        fun v => ("EXPIRE_NODES_ON_CHANGE", v)).toList := by
    cases scim.expireNodesOnChange <;> rfl
  rw [scimEnv, hexpire, List.cons_append, List.cons_append, Props.lookup_cons, List.lookup_append,
    List.lookup_append, lookup_optional, lookup_optional, lookup_optional]

variable (hkey : secrets (apiKeySecretName name) = some [("HEADSCALE_API_KEY", apiKey)])
  (htoken : secrets (scimTokenSecretName name) = some [("SCIM_BEARER_TOKEN", token)])

include hkey htoken

theorem variables_scim (key : String) :
    (scimStatefulset dep name ns scim).template.container.variables secrets key =
      ((scimEnv name ns scim).lookup key).or
        (if key = "SCIM_BEARER_TOKEN" then some token
        else if key = "HEADSCALE_API_KEY" then some apiKey else none) := by
  rw [Container.variables]
  congr 1
  change List.findSome? _ [scimTokenSecretName name, apiKeySecretName name] = _
  simp only [List.findSome?_cons, List.findSome?_nil, htoken, hkey, Option.bind_some, List.lookup_cons,
    List.lookup_nil]
  -- Each Secret has one key, so that the later one does not hide the earlier one.
  by_cases h : key = "SCIM_BEARER_TOKEN"
  · subst h
    rfl
  · by_cases h' : key = "HEADSCALE_API_KEY"
    · subst h'
      rfl
    · rw [beq_eq_false_iff_ne.2 h, beq_eq_false_iff_ne.2 h', if_neg h, if_neg h']

/-- The server is configured as the spec says, or reports what is wrong with it. -/
theorem fromEnv_scim :
    Config.fromEnv ((scimStatefulset dep name ns scim).template.container.variables secrets) =
      scim.userKey.map fun policyUserKey => {
        headscaleUrl := "http://headscale-server-" ++ name ++ "." ++ ns ++ ".svc:50443"
        headscaleApiKey := apiKey
        scimToken := token
        externalIdFile := "/data/external-id-map.json"
        listenAddr := "0.0.0.0:8081"
        scimConfig := { policyUserKey, expireNodesOnChange := scim.expireNodesOnChange } } := by
  have henv (key : String) := @variables_scim dep name ns apiKey token scim secrets hkey htoken key
  simp only [lookup_scimEnv] at henv
  -- From here on, what the variables are is all that counts.
  generalize (scimStatefulset dep name ns scim).template.container.variables secrets = env at henv
  have hissuer : env.require "OIDC_ISSUER" = match scim.oidcIssuer with
      | some oidcIssuer => .ok oidcIssuer
      | none => .error "missing required env var OIDC_ISSUER" := by
    rw [Env.require, henv]
    cases scim.oidcIssuer <;> rfl
  have huserKey : env.policyUserKey = scim.userKey := by
    have hread : env "POLICY_USER_KEY" = scim.policyUserKey := by
      rw [henv]
      cases scim.policyUserKey <;> rfl
    rw [Env.policyUserKey, ScimSpec.userKey, hread, hissuer]
    cases scim.oidcIssuer <;> rfl
  have hexpire : env.expireNodesOnChange = .ok scim.expireNodesOnChange := by
    rw [Env.expireNodesOnChange, henv]
    cases scim.expireNodesOnChange <;> rfl
  rw [Config.fromEnv, huserKey, hexpire, Env.require, Env.require, Env.require, henv, henv, henv, henv,
    henv]
  cases scim.userKey <;> rfl

end Environment

/-! ## What is in the Secrets -/

/-- The Secrets are as the operator writes them, once they are there. -/
def Fact.written (name : String) : Fact name :=
  (apiKey name fun o => ∀ object ∈ o, ∃ key,
    object.resource = .secret [("HEADSCALE_API_KEY", key)]).and
  (token name fun o => ∀ object ∈ o, ∃ token,
    object.resource = .secret [("SCIM_BEARER_TOKEN", token)])

section Written

variable {dep : Deployment} {obj : CustomResource} {child : ChildApplier} {name : String}

theorem written_put {object : Object} {w : Cluster} (hw : Fact.written name w)
    (hne : object.resource.kind ≠ .secret) : Fact.written name (w.put object) :=
  ⟨put_of_ne hw.1 fun h => hne h.1.symm, put_of_ne hw.2 fun h => hne h.1.symm⟩

theorem objects_remove (w : Cluster) (kind kind' : Kind) (n n' : String) :
    (w.remove kind n).objects kind' n' = w.objects kind' n' ∨
      (w.remove kind n).objects kind' n' = none := by
  by_cases h : kind' = kind ∧ n' = n
  · obtain ⟨rfl, rfl⟩ := h
    cases kind' with
    | persistentVolumeClaim => exact .inl rfl
    | _ => exact .inr (if_pos ⟨rfl, rfl⟩)
  · exact .inl (Cluster.objects_remove_of_ne h)

theorem written_remove {kind : Kind} {n : String} {w : Cluster} (hw : Fact.written name w) :
    Fact.written name (w.remove kind n) := by
  have hkeep {n' : String} {p : Object → Prop} (h : ∀ object ∈ w.objects .secret n', p object) :
      ∀ object ∈ (w.remove kind n).objects .secret n', p object := by
    rcases objects_remove w kind .secret n n' with hsame | hnone
    · rwa [hsame]
    · rw [hnone]
      nofun
  exact ⟨hkeep hw.1, hkeep hw.2⟩

theorem has_object_put {w : Cluster} {n : String} {data : Labels} (component : String) :
    (w.put (child.object component n (.secret data))).objects .secret n =
      some (child.object component n (.secret data)) := Cluster.has_put

theorem step_whenReady_written (hobj : obj.name = name) (hchild : child.instanceName = name) :
    (Fact.written name).Step (.written name) (whenReady dep obj child)
      fun _ => Fact.written name := by
  subst hchild
  let I := Fact.written child.instanceName
  have hboth {P : Prop} (h : P) : P ∧ P := ⟨h, h⟩
  refine step_whenReady (K := I) (D := I) (fun _ h => h) ?_ (fun scim _ => ?_) fun _ => ?_
  · refine step_ensureApiKey rfl (fun _ h => h) (fun _ h _ => h) fun w key hw _ => hboth ?_
    refine ⟨fun object ho => ⟨key, ?_⟩, put_of_ne hw.2 fun h =>
      apiKeySecretName_ne_scimTokenSecretName _ _ h.2.symm⟩
    obtain rfl := Option.some.inj ((has_object_put "headscale").symm.trans ho)
    rfl
  · refine step_ensureScim (T := I) (U := I) (fun _ h => h) (fun _ h => h) ?_
      (fun w hw => hboth (written_put hw ?_)) fun w hw => hboth (written_put hw ?_)
    · refine step_ensureScimToken rfl (fun _ h => h) (fun _ h _ => h) fun w token hw _ => hboth ?_
      refine ⟨put_of_ne hw.1 fun h => apiKeySecretName_ne_scimTokenSecretName _ _ h.2,
        fun object ho => ⟨token, ?_⟩⟩
      obtain rfl := Option.some.inj ((has_object_put "scim").symm.trans ho)
      rfl
    all_goals
      intro h
      cases h
  · rw [hobj]
    exact step_deleteScimIfExists (T := I) (U := I) (V := I) (fun _ h => h) (fun _ h => h)
      (fun _ h => h) (fun _ h => h) (fun _ => written_remove) (fun _ => written_remove)
      (fun _ => written_remove) fun _ h => h

end Written

/-! ## The handover -/

/-- A SCIM server that is started as this container. -/
structure HandedOver (w : Cluster) (name ns : String) (scim : ScimSpec) (container : Container)
    (apiKey token : String) : Prop where
  /-- The Secrets that it needs are there. -/
  secrets : ∀ secret ∈ container.envFrom, (w.secret secret).isSome = true
  /-- It is configured as the spec says, or reports what is wrong with that. -/
  config : Config.fromEnv (container.variables w.secret) = scim.userKey.map fun policyUserKey => {
    headscaleUrl := "http://" ++ serviceAddress (serverName name) ns portGrpc
    headscaleApiKey := apiKey
    scimToken := token
    externalIdFile := "/data/external-id-map.json"
    listenAddr := "0.0.0.0:" ++ toString portScim
    scimConfig := { policyUserKey, expireNodesOnChange := scim.expireNodesOnChange } }
  headscale : w.Leads (serviceAddress (serverName name) ns portGrpc) (serverName name) portGrpc
  server : w.Leads (serviceAddress (scimName name) ns portScim) (scimName name) portScim
  /-- The operator notifies it, with its token. -/
  notified : notifyScimRequest w.secret ns name =
    some ("http://" ++ serviceAddress (scimName name) ns portScim ++ "/internal/reconcile",
      bearerAuth token)

section Handover

variable {dep : Deployment} {obj : CustomResource} {child : ChildApplier} {scim : ScimSpec}
  {w : Cluster}

theorem urls (name ns : String) :
    "http://headscale-server-" ++ name ++ "." ++ ns ++ ".svc:50443" =
        "http://" ++ serviceAddress (serverName name) ns portGrpc ∧
      "http://headscale-scim-" ++ name ++ "." ++ ns ++ ".svc:" ++ toString portScim =
        "http://" ++ serviceAddress (scimName name) ns portScim := by
  have hserver : "http://headscale-server-" = "http://" ++ "headscale-server-" := by decide
  have hscim : "http://headscale-scim-" = "http://" ++ "headscale-scim-" := by decide
  have hport : ".svc:50443" = ".svc:" ++ toString portGrpc := by decide
  constructor
  · rw [hserver, hport]
    change _ = "http://" ++ ("headscale-server-" ++ name ++ "." ++ ns ++ ".svc:" ++ toString portGrpc)
    simp only [String.append_assoc]
  · rw [hscim]
    change _ = "http://" ++ ("headscale-scim-" ++ name ++ "." ++ ns ++ ".svc:" ++ toString portScim)
    simp only [String.append_assoc]

/-- What is in place is handed over. -/
theorem handed_over_of_inPlace (hplace : InPlace dep obj child w) (hscim : obj.spec.scim = some scim)
    (hwritten : Fact.written child.instanceName w) :
    ∃ metadata spec apiKey token,
      w.objects .statefulSet (scimName child.instanceName) = some ⟨metadata, .statefulSet spec⟩ ∧
      HandedOver w child.instanceName child.ns scim spec.template.container apiKey token := by
  obtain ⟨hsecret, hall⟩ := (scimInPlace_some hscim).1 hplace.scim
  obtain ⟨data, hash, -, hserver⟩ := hplace.server
  obtain ⟨o, ho⟩ := Option.isSome_iff_exists.1 hplace.apiKey
  obtain ⟨apiKey, hapiKey⟩ := hwritten.1 o ho
  obtain ⟨o', ho'⟩ := Option.isSome_iff_exists.1 hsecret
  obtain ⟨token, htoken⟩ := hwritten.2 o' ho'
  have hkey : w.secret (apiKeySecretName child.instanceName) = some [("HEADSCALE_API_KEY", apiKey)] := by
    rw [Cluster.secret, ho, Option.map_some, hapiKey, Resource.stringData]
  have htoken' : w.secret (scimTokenSecretName child.instanceName) =
      some [("SCIM_BEARER_TOKEN", token)] := by
    rw [Cluster.secret, ho', Option.map_some, htoken, Resource.stringData]
  have hset := hall _ List.mem_cons_self
  have hservice := hall _ (List.mem_cons_of_mem _ List.mem_cons_self)
  refine ⟨_, _, apiKey, token, hset, ?_, ?_, ?_, ?_, ?_⟩
  · intro secret hmem
    rcases List.mem_pair.1 hmem with rfl | rfl
    · rw [hkey]
      rfl
    · rw [htoken']
      rfl
  · refine (fromEnv_scim hkey htoken').trans ?_
    rw [(urls child.instanceName child.ns).1]
    rfl
  · have hlast {α : Type} {x y z : α} : z ∈ [x, y, z] :=
      List.mem_cons_of_mem _ (List.mem_cons_of_mem _ List.mem_cons_self)
    exact leads_of_has (c := .headscale) (p := tcpPort "grpc" portGrpc)
      (hserver _ (List.mem_cons_of_mem _ List.mem_cons_self)) (hserver _ hlast) rfl rfl hlast rfl hlast
  · exact leads_of_has (c := .scim) (p := tcpPort "scim" portScim) hservice hset rfl rfl
      List.mem_cons_self rfl List.mem_cons_self
  · rw [notifyScimRequest, readScimToken, htoken', Option.bind_some, (urls child.instanceName child.ns).2]
    rfl

end Handover

/-! ## Executions -/

variable {dep : Deployment} {versions : List CustomResource} {name ns uid : String} {w : Cluster}
  {events : List (Process.Event Fate (Cluster → Cluster))} {s : Pool sig Error Action Cluster}
  {obj : CustomResource} {scim : ScimSpec}

/-- Once an instance is ready, its SCIM server can start, with the configuration of the spec; it finds
    headscale, and lets in the operator, but nobody else. -/
theorem handed_over_of_ready (hstart : Fact.written name w)
    (hturns : cluster.Along (cluster.OwnTurns (isOf versions name) (Cluster.SameFor name))
      (reconciles dep versions w) events)
    (hexec : cluster.exec (reconciles dep versions w) events = some s) {i : ℕ}
    (hobj : versions[i]? = some obj) (hname : obj.name = name)
    (hns : obj.metadata.namespaceName = some ns) (huid : obj.uid = some uid)
    (hmanaged : obj.spec.external.isNone = true) (hscim : obj.spec.scim = some scim)
    (hend : EndedLast versions name s i (.ok (.requeue 60))) :
    ∃ metadata spec apiKey token,
      s.world.objects .statefulSet (scimName name) = some ⟨metadata, .statefulSet spec⟩ ∧
      HandedOver s.world name ns scim spec.template.container apiKey token ∧
      (token.toList.all Scim.isVisible = true →
        requireBearer token (bearerAuth token) = true) ∧
      ∀ other, other.toList.all Scim.isVisible = true → other ≠ token →
        requireBearer token (bearerAuth other) = false := by
  -- The last reconcile has left the objects in place; every one has kept the Secrets well formed.
  have hplace := ((exec_steps (I := .any) (Fact.placed dep) trivial (fun obj _ hobj => by
    subst hobj
    exact step_reconcile_placed) hturns hexec).2.2 i obj _ hobj hname hend).2 rfl hmanaged
  have hwritten := (exec_kept hstart (fun obj child hchild => step_ensureHeadscale_of_put hchild
    fun w object hw hkind _ => written_put hw hkind) (fun obj _ hobj _ child hchild =>
      step_whenReady_written hobj hchild) hturns hexec).1
  subst hname
  obtain ⟨metadata, spec, apiKey, token, hset, hover⟩ :=
    handed_over_of_inPlace (hplace ns uid hns huid) hscim hwritten
  refine ⟨metadata, spec, apiKey, token, hset, hover, fun htoken => ?_, fun other hother hne => ?_⟩
  · exact (Scim.requireBearer_bearerAuth htoken).2 rfl
  · exact Bool.eq_false_iff.2 fun h => hne ((Scim.requireBearer_bearerAuth hother).1 h)

namespace Office

/-- The SCIM server names users by their identifier at an issuer. -/
def keyed : ScimSpec where
  policyUserKey := some "external_id"
  oidcIssuer := some "https://id.example.com/"
  expireNodesOnChange := true

end Office

open Office in
/-- The SCIM server of a new instance. -/
theorem handed_over_of_ready_main : ∃ s metadata spec apiKey token,
    cluster.exec (reconciles deployment [served "main" (some keyed)] fresh) (succeeds 0 19) = some s ∧
    s.world.objects .statefulSet (scimName "main") = some ⟨metadata, .statefulSet spec⟩ ∧
    HandedOver s.world "main" "headmaster" keyed spec.template.container apiKey token := by
  have hturns : cluster.Along (cluster.OwnTurns (isOf [served "main" (some keyed)] "main")
      fun _ _ => False) (reconciles deployment [served "main" (some keyed)] fresh)
        (succeeds 0 19) := by
    decide +kernel
  have hrun : (cluster.exec (reconciles deployment [served "main" (some keyed)] fresh)
      (succeeds 0 19)).any (fun s => s.threads[0]?.any (endedWith (.requeue 60)) &&
        (calledBy (isOf [served "main" (some keyed)] "main") s.history).head?.map (·.thread) ==
          some 0) = true := by
    decide +kernel
  obtain ⟨s, hs, hcheck⟩ := Option.any_eq_true _ _ |>.1 hrun
  have hstart : Fact.written "main" fresh := ⟨fun _ ho => (by cases ho), fun _ ho => (by cases ho)⟩
  obtain ⟨metadata, spec, apiKey, token, hset, hover, -⟩ := handed_over_of_ready hstart
    (hturns.mono (OwnTurns.mono fun _ _ h => h.elim)) hs rfl rfl rfl rfl rfl rfl
    (EndedLast.of_check hcheck)
  exact ⟨s, metadata, spec, apiKey, token, hs, hset, hover⟩

end Headmaster.Operator.Instance
