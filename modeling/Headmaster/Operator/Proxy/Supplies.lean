import Headmaster.Process.Ledger
import Headmaster.Operator.Proxy.Pods
import Headmaster.Operator.Proxy.Runs

/-!
# What a proxy starts with

The pods of a proxy start, and can register, only when all that they refer to is
there: the Secret with their key, the serve configuration, their account with
access to the state Secret, which they may write but not create, and the Service
in front of them (`Supplied`). A reconcile puts these in place, or finds them,
before it applies the StatefulSet, and keeps them until it does
(`supplied_of_applied`).
-/

namespace Headmaster.Operator.Proxy

open Process (Made Entry Ledger Machine Pool trace)
open Process.Prog (Safe Uses)

/-! ## Facts -/

/-- What the pods of a proxy may rely on. -/
inductive Fact
  | service (name : String)
  | configMap (name entry : String)
  | secret (name : String)
  | secretKey (name key : String)
  | serviceAccount (name : String)
  | role (role : Role)
  | roleBinding (binding : RoleBinding)

/-- What a resource is good for once it is applied. -/
def Child.Gives : Child → Fact → Prop
  | .service name _, .service n => n = name
  | .configMap name _, .configMap n entry => n = name ∧ entry = "serve.json"
  | .secret name _, .secret n => n = name
  | .secret name data, .secretKey n key => n = name ∧ key ∈ data.map Prod.fst
  | .serviceAccount name, .serviceAccount n => n = name
  | .role name stateSecretName, .role r => r = proxyRole name stateSecretName
  | .roleBinding name, .roleBinding b => b = proxyRoleBinding name
  | _, _ => False

/-- What is no longer as it was once the resource is applied, or that was tried. -/
def Child.Takes : Child → Fact → Prop
  | .secret name data, .secretKey n key => n = name ∧ key ∉ data.map Prod.fst
  | .role name _, .role r => r.name = name
  | .roleBinding name, .roleBinding b => b.name = name
  | _, _ => False

/-- What is gone with an object. -/
def Kind.Takes (name : String) : Kind → Fact → Prop
  | .service, .service n => n = name
  | .configMap, .configMap n _ => n = name
  | .secret _, .secret n => n = name
  | .secret _, .secretKey n _ => n = name
  | .serviceAccount, .serviceAccount n => n = name
  | .role, .role r => r.name = name
  | .roleBinding, .roleBinding b => b.name = name
  | _, _ => False

/-- A Secret that is read is there, with the keys that are in it. -/
def ledger : Ledger sig Fact where
  gives c n :=
    match c with
    | ⟨.apply _ resource, .ok ()⟩ => resource.Gives n
    | ⟨.getSecret name, .ok secret⟩ =>
      match n with
      | .secret n => n = name
      | .secretKey n key => n = name ∧ (secret.data.lookup key).isSome = true
      | _ => False
    | _ => False
  takes o n :=
    match o with
    | .apply _ resource => resource.Takes n
    | .delete kind name => kind.Takes name n
    | _ => False

/-- A fact stands after the calls of a reconcile. -/
abbrev Stands (tr : List (Made sig)) (n : Fact) : Prop := ledger.Standing n tr

/-! ## What pods rely on -/

/-- An account may read and write a Secret that is there. -/
structure Writable (tr : List (Made sig)) (account secret : String) : Prop where
  found : Stands tr (.secret secret)
  bound : ∃ role binding, Stands tr (.role role) ∧ Stands tr (.roleBinding binding) ∧
    binding.roleRef = role.name ∧ account ∈ binding.serviceAccounts ∧
    ∀ verb ∈ ["get", "update", "patch"], role.allows "" "secrets" secret verb = true

/-- What a variable of a container refers to is there. -/
structure EnvSupplied (tr : List (Made sig)) (spec : PodSpec) (container : PodContainer)
    (v : EnvVar) : Prop where
  key : ∀ secret key, v.source = .secretKeyRef secret key → Stands tr (.secretKey secret key)
  state : ∀ secret, v = .value "TS_KUBE_SECRET" secret →
    Writable tr spec.serviceAccountName secret
  serve : ∀ path, v = .value "TS_SERVE_CONFIG" path → ∃ configMap entry,
    spec.configMapEntry? container path = some (configMap, entry) ∧
      Stands tr (.configMap configMap entry)

/-- What the pods of a StatefulSet refer to is there. -/
structure Supplied (tr : List (Made sig)) (s : StatefulSetSpec) : Prop where
  service : Stands tr (.service s.serviceName)
  account : Stands tr (.serviceAccount s.podSpec.serviceAccountName)
  volumes : ∀ name configMap, .configMap name configMap ∈ s.podSpec.volumes →
    ∃ entry, Stands tr (.configMap configMap entry)
  env : ∀ container ∈ s.podSpec.containers, ∀ v ∈ container.env,
    EnvSupplied tr s.podSpec container v

section Supplied

variable {tr : List (Made sig)} {spec : PodSpec} {container : PodContainer} {names : ProxyNames}
  {name value : String}

/-- A variable that refers to nothing. -/
theorem envSupplied_value (hstate : name ≠ "TS_KUBE_SECRET") (hserve : name ≠ "TS_SERVE_CONFIG") :
    EnvSupplied tr spec container (.value name value) where
  key _ _ h := by cases h
  state _ h := absurd (congrArg EnvVar.name h) hstate
  serve _ h := absurd (congrArg EnvVar.name h) hserve

theorem envSupplied_fieldRef : EnvSupplied tr spec container ⟨name, .fieldRef value⟩ where
  key _ _ h := by cases h
  state _ h := by cases h
  serve _ h := by cases h

theorem envSupplied_secretKeyRef {secret key : String} (h : Stands tr (.secretKey secret key)) :
    EnvSupplied tr spec container (.secretKeyRef name secret key) where
  key _ _ heq := by
    cases heq
    exact h
  state _ h := by cases h
  serve _ h := by cases h

theorem envSupplied_state (h : Writable tr spec.serviceAccountName value) :
    EnvSupplied tr spec container (.value "TS_KUBE_SECRET" value) where
  key _ _ h := by cases h
  state _ heq := by
    cases heq
    exact h
  serve _ heq := absurd (congrArg EnvVar.name heq) (show "TS_KUBE_SECRET" ≠ "TS_SERVE_CONFIG" by decide)

theorem envSupplied_serve {configMap entry : String}
    (hentry : spec.configMapEntry? container value = some (configMap, entry))
    (h : Stands tr (.configMap configMap entry)) :
    EnvSupplied tr spec container (.value "TS_SERVE_CONFIG" value) where
  key _ _ h := by cases h
  state _ heq := absurd (congrArg EnvVar.name heq) (show "TS_SERVE_CONFIG" ≠ "TS_KUBE_SECRET" by decide)
  serve _ heq := by
    cases heq
    exact ⟨configMap, entry, hentry, h⟩

theorem envSupplied_pretendEndpoint {nodePort : Int} :
    ∀ v ∈ pretendEndpoint nodePort, EnvSupplied tr spec container v := by
  intro v hv
  simp only [pretendEndpoint, List.mem_cons, List.not_mem_nil, or_false] at hv
  rcases hv with rfl | rfl | rfl
  · exact envSupplied_fieldRef
  · exact envSupplied_value (by decide) (by decide)
  · exact envSupplied_value (by decide) (by decide)

/-- What every proxy relies on. -/
structure Basics (tr : List (Made sig)) (names : ProxyNames) : Prop where
  service : Stands tr (.service names.wgServiceName)
  key : Stands tr (.secretKey names.configSecretName "key")
  secret : Stands tr (.secret names.stateSecretName)
  account : Stands tr (.serviceAccount names.proxyName)
  role : Stands tr (.role (proxyRole names.proxyName names.stateSecretName))
  binding : Stands tr (.roleBinding (proxyRoleBinding names.proxyName))

/-- The role of the proxy lets its account at the state Secret. -/
theorem Basics.writable (h : Basics tr names) :
    Writable tr names.proxyName names.stateSecretName where
  found := h.secret
  bound := by
    refine ⟨_, _, h.role, h.binding, rfl, List.mem_singleton_self _, fun verb hverb => ?_⟩
    exact proxyRole_allows_secrets.2 ⟨rfl, hverb⟩

/-! ### The three kinds -/

/-- The device is added to what the container has. -/
theorem grantTunDevice_extends (container : PodContainer) (access : TunDeviceAccess) :
    (grantTunDevice container access).1.env = container.env ∧
      (∃ mounts, (grantTunDevice container access).1.volumeMounts =
        container.volumeMounts ++ mounts) ∧
      ∀ v ∈ (grantTunDevice container access).2.1, ∃ name path type, v = .hostPath name path type := by
  cases access with
  | privileged => exact ⟨rfl, ⟨_, rfl⟩, fun v hv => ⟨_, _, _, List.mem_singleton.1 hv⟩⟩
  | devicePlugin resource => exact ⟨rfl, ⟨[], (List.append_nil _).symm⟩, nofun⟩

/-- The serve configuration is where tailscaled looks for it. -/
theorem configMapEntry?_serveConfig {container : PodContainer} {mounts : List Instance.VolumeMount}
    {volumes : List Volume} {n : String}
    (hmounts : container.volumeMounts =
      { mountPath := serveConfigMount, name := "serve-config", readOnly := true } :: mounts)
    (hvolumes : spec.volumes = .configMap "serve-config" n :: volumes) :
    spec.configMapEntry? container serveConfigPath = some (n, "serve.json") := by
  have hentry : Instance.VolumeMount.entry?
      { mountPath := serveConfigMount, name := "serve-config", readOnly := true } serveConfigPath =
        some "serve.json" := by decide
  rw [PodSpec.configMapEntry?, hmounts, List.findSome?_cons, hentry, hvolumes]
  simp

section Build

variable {proxyImage headscaleUrl hostname : String}

theorem envSupplied_serveEnv (h : Basics tr names)
    (hserve : Stands tr (.configMap names.serveConfigmapName "serve.json"))
    (haccount : spec.serviceAccountName = names.proxyName)
    (hentry : spec.configMapEntry? container serveConfigPath =
      some (names.serveConfigmapName, "serve.json"))
    {networking : ProxyNetworking} {tunDevice : Option TunDeviceAccess} :
    ∀ v ∈ serveEnv names headscaleUrl hostname networking tunDevice,
      EnvSupplied tr spec container v := by
  rw [serveEnv.eq_def]
  refine List.forall_mem_append.2 ⟨?_, ?_⟩
  · simp only [List.forall_mem_cons]
    refine ⟨envSupplied_secretKeyRef h.key, envSupplied_value (by decide) (by decide),
      envSupplied_value (by decide) (by decide), envSupplied_value (by decide) (by decide),
      envSupplied_serve hentry hserve, envSupplied_value (by decide) (by decide),
      envSupplied_state (haccount ▸ h.writable), envSupplied_fieldRef, envSupplied_fieldRef, ?_⟩
    simp
  · cases networking with
    | nodePort nodePort => exact envSupplied_pretendEndpoint
    | host => simp

theorem supplied_buildProxyStatefulset (h : Basics tr names)
    (hserve : Stands tr (.configMap names.serveConfigmapName "serve.json"))
    {networking : ProxyNetworking} {tunDevice : Option TunDeviceAccess} :
    Supplied tr (buildProxyStatefulset names proxyImage headscaleUrl hostname networking tunDevice)
    := by
  cases tunDevice with
  | none =>
    refine ⟨h.service, h.account, fun name configMap hvolume => ?_, fun container hc => ?_⟩
    · cases List.mem_singleton.1 hvolume
      exact ⟨_, hserve⟩
    · obtain rfl := List.mem_singleton.1 hc
      exact envSupplied_serveEnv h hserve rfl (configMapEntry?_serveConfig rfl rfl)
  | some access =>
    refine ⟨h.service, h.account, fun name configMap hvolume => ?_, fun container hc => ?_⟩
    · rcases List.mem_cons.1 hvolume with hvolume | hvolume
      · cases hvolume
        exact ⟨_, hserve⟩
      · obtain ⟨_, _, _, hhost⟩ := (grantTunDevice_extends _ access).2.2 _ hvolume
        cases hhost
    · obtain rfl := List.mem_singleton.1 hc
      -- The device adds mounts after that of the serve configuration, and no variable.
      have hextends := grantTunDevice_extends
        { name := "proxy", image := proxyImage
          env := serveEnv names headscaleUrl hostname networking (some access)
          volumeMounts := [{ mountPath := serveConfigMount, name := "serve-config", readOnly := true }] }
        access
      obtain ⟨henv, ⟨mounts, hmounts⟩, -⟩ := hextends
      have hall : ∀ v ∈ serveEnv names headscaleUrl hostname networking (some access), EnvSupplied tr
          (buildProxyStatefulset names proxyImage headscaleUrl hostname networking
            (some access)).podSpec _ v :=
        envSupplied_serveEnv h hserve rfl (configMapEntry?_serveConfig hmounts rfl)
      intro v hv
      change v ∈ (grantTunDevice _ access).1.env at hv
      rw [henv] at hv
      exact hall v hv

theorem supplied_buildTunStatefulset (h : Basics tr names) {destIp : String} {nodePort : Int}
    {tunDevice : TunDeviceAccess} :
    Supplied tr (buildTunStatefulset names proxyImage headscaleUrl hostname destIp nodePort tunDevice)
    := by
  refine ⟨h.service, h.account, fun name configMap hvolume => ?_, fun container hc => ?_⟩
  · obtain ⟨_, _, _, hhost⟩ := (grantTunDevice_extends _ tunDevice).2.2 _ hvolume
    cases hhost
  · obtain rfl := List.mem_singleton.1 hc
    have hall : ∀ v ∈ tunEnv names headscaleUrl hostname destIp nodePort, EnvSupplied tr
        (buildTunStatefulset names proxyImage headscaleUrl hostname destIp nodePort
          tunDevice).podSpec
        (grantTunDevice { name := "proxy", image := proxyImage
                          env := tunEnv names headscaleUrl hostname destIp nodePort } tunDevice).1 v := by
      refine List.forall_mem_append.2 ⟨?_, envSupplied_pretendEndpoint⟩
      simp only [List.forall_mem_cons]
      refine ⟨envSupplied_secretKeyRef h.key, envSupplied_value (by decide) (by decide),
        envSupplied_value (by decide) (by decide), envSupplied_value (by decide) (by decide),
        envSupplied_value (by decide) (by decide), envSupplied_value (by decide) (by decide),
        envSupplied_state h.writable, envSupplied_fieldRef, envSupplied_fieldRef, ?_⟩
      simp
    intro v hv
    change v ∈ (grantTunDevice _ tunDevice).1.env at hv
    rw [(grantTunDevice_extends _ tunDevice).1] at hv
    exact hall v hv

theorem supplied_buildEgressStatefulset (h : Basics tr names) {socatImage tailnetFqdn : String}
    {forwards : List (Int × Int)} :
    Supplied tr (buildEgressStatefulset names proxyImage headscaleUrl hostname socatImage tailnetFqdn
      forwards) := by
  refine ⟨h.service, h.account, nofun, fun container hc => ?_⟩
  rcases List.mem_cons.1 hc with rfl | hc
  · simp only [List.forall_mem_cons]
    refine ⟨envSupplied_secretKeyRef h.key, envSupplied_value (by decide) (by decide),
      envSupplied_value (by decide) (by decide), envSupplied_value (by decide) (by decide),
      envSupplied_value (by decide) (by decide), envSupplied_value (by decide) (by decide),
      envSupplied_state h.writable, envSupplied_fieldRef, envSupplied_fieldRef, ?_⟩
    simp
  · obtain rfl := List.mem_singleton.1 hc
    exact nofun

end Build

end Supplied

/-! ## What the functions provide -/

/-- The StatefulSet that is applied is that of the proxy, and what its pods refer to is there. -/
def Furnished (names : ProxyNames) (tr : List (Made sig)) : Op → Prop
  | .apply _ (.statefulSet name spec) => name = names.proxyName ∧ Supplied tr (spec.build names)
  | _ => True

/-- The facts `Q` stand after a part of a reconcile, if the facts `P` did before it. -/
abbrev Provides (names : ProxyNames) {α : Type} (P : Set Fact) (p : M α) (Q : α → Set Fact) : Prop :=
  ledger.Triple (Furnished names) P p Q

/-- The areas of the requests that take a fact; access has none. -/
def Fact.At : Fact → Area → Prop
  | service _, a => a = .service
  | configMap _ _, a => a = .configMap
  | secret _, a => a = .removal ∨ a = .rotation
  | secretKey name _, a => a = .removal ∨ a = .rotation ∨ a = .secret name
  | serviceAccount _, _ | role _, _ | roleBinding _, _ => False

def Fact.isAccess : Fact → Bool
  | serviceAccount _ | role _ | roleBinding _ => true
  | _ => false

/-- No request in those areas takes the fact. -/
structure Fact.Spared (S : Area → Prop) (n : Fact) : Prop where
  notAccess : n.isAccess = false
  notAt : ∀ a, n.At a → ¬S a

theorem Fact.spared_iff {S : Area → Prop} {n : Fact} :
    n.Spared S ↔ n.isAccess = false ∧ ∀ a, n.At a → ¬S a :=
  ⟨fun h => ⟨h.notAccess, h.notAt⟩, fun h => ⟨h.1, h.2⟩⟩

theorem Child.area_of_takes {resource : Child} {n : Fact} (h : resource.Takes n)
    (hn : n.isAccess = false) : ∃ a, resource.area = some a ∧ n.At a := by
  cases resource with
  | secret name data =>
    cases n with
    | secretKey n key => exact ⟨_, rfl, .inr (.inr (congrArg Area.secret h.1.symm))⟩
    | _ => exact h.elim
  | role name stateSecretName =>
    cases n with
    | role r => cases hn
    | _ => exact h.elim
  | roleBinding name =>
    cases n with
    | roleBinding b => cases hn
    | _ => exact h.elim
  | _ => exact h.elim

theorem Kind.area_of_takes {kind : Kind} {name : String} {n : Fact} (h : kind.Takes name n)
    (hn : n.isAccess = false) : ∃ a, kind.area = some a ∧ n.At a := by
  have hsecret (why : Deleter) : (Kind.secret why).area = some .removal ∨
      (Kind.secret why).area = some .rotation := by cases why <;> first | exact .inl rfl | exact .inr rfl
  cases n with
  | service n =>
    cases kind with
    | service => exact ⟨_, rfl, rfl⟩
    | _ => exact h.elim
  | configMap n entry =>
    cases kind with
    | configMap => exact ⟨_, rfl, rfl⟩
    | _ => exact h.elim
  | secret n =>
    cases kind with
    | secret why => exact (hsecret why).elim (⟨_, ·, .inl rfl⟩) (⟨_, ·, .inr rfl⟩)
    | _ => exact h.elim
  | secretKey n key =>
    cases kind with
    | secret why => exact (hsecret why).elim (⟨_, ·, .inl rfl⟩) (⟨_, ·, .inr (.inl rfl)⟩)
    | _ => exact h.elim
  | _ => cases hn

/-- What takes a fact is in one of its areas. -/
theorem area_of_takes {o : Op} {n : Fact} (h : ledger.takes o n) (hn : n.isAccess = false) :
    ∃ a, o.area = some a ∧ n.At a := by
  cases o with
  | apply child resource => exact Child.area_of_takes h hn
  | delete kind name => exact Kind.area_of_takes h hn
  | _ => exact h.elim

section Provides

variable {names : ProxyNames} {S : Area → Prop} {P Q : Set Fact} {α : Type} {tr : List (Made sig)}
  {child : ChildApplier}

theorem furnished_of_within {o : Op} (h : Within S o) (hS : ¬S .statefulSet) :
    Furnished names tr o := by
  cases o with
  | apply child resource =>
    cases resource with
    | statefulSet name spec => exact absurd (h .statefulSet rfl) hS
    | _ => trivial
  | _ => trivial

theorem Fact.Spared.not_takes {o : Op} {n : Fact} (hn : n.Spared S) (h : Within S o) :
    ¬ledger.takes o n := by
  intro htakes
  obtain ⟨a, ha, hat⟩ := area_of_takes htakes hn.notAccess
  exact hn.notAt a hat (h a ha)

/-- What a function spares is still there after it. -/
theorem provides_within {p : M α} (hp : p.Uses (Within S)) (hsts : ¬S .statefulSet)
    (hP : ∀ n ∈ P, n.Spared S) : Provides names P p fun _ => P :=
  .of_uses hp (fun _ _ ho => furnished_of_within ho hsts) fun _ ho n hn => (hP n hn).not_takes ho

/-- The rest of a reconcile, without its StatefulSet. -/
theorem provides_rest {p : M α} (hp : p.Uses (Within S)) (hsts : ¬S .statefulSet) :
    Provides names P p fun _ => ∅ :=
  (provides_within (P := ∅) hp hsts nofun).mono (Set.empty_subset P) fun _ => subset_rfl

/-- A request that only reads takes nothing. -/
theorem provides_read {o : Op} (hA : ∀ tr, Furnished names tr o) (ho : ∀ n, ¬ledger.takes o n) :
    Provides names P (call o) fun _ => P :=
  .op (fun tr _ => hA tr) fun _ n hn => .inr ⟨hn, ho n⟩

/-- A resource that is applied is there, with what it does not take. -/
theorem provides_apply {resource : Child} {n : Fact} (hgives : resource.Gives n)
    (hA : ∀ tr, ledger.Holds P tr → Furnished names tr (.apply child resource))
    (hP : ∀ m ∈ P, ¬resource.Takes m) :
    Provides names P (apply child resource) fun _ => insert n P := by
  refine .bind (Q := fun a => {m | a = .ok () ∧ m ∈ insert n P}) (.op hA fun a m hm => ?_) fun a => ?_
  · obtain ⟨rfl, rfl | hm⟩ := hm
    · exact .inl hgives
    · exact .inr ⟨hm, hP m hm⟩
  · refine .ret fun u hu m hm => ⟨?_, hm⟩
    rcases a with e | _
    · cases hu
    · rfl

/-- A Secret that is applied takes nothing but its own keys. -/
theorem provides_applySecret {name : String} {data : List (String × Bytes)} {n : Fact}
    (hgives : (Child.secret name data).Gives n) (hP : ∀ n ∈ P, n.Spared (· = .secret name)) :
    Provides names P (apply child (.secret name data)) fun _ => insert n P := by
  have hwithin : Within (· = .secret name) (.apply child (.secret name data)) := within_some rfl rfl
  exact provides_apply hgives (fun _ _ => trivial) fun m hm => (hP m hm).not_takes hwithin

theorem Fact.Spared.mono {S' : Area → Prop} {n : Fact} (h : n.Spared S) (hS : ∀ a, S' a → S a) :
    n.Spared S' :=
  ⟨h.notAccess, fun a hat ha => h.notAt a hat (hS a ha)⟩

/-! ### Secrets -/

theorem provides_existingAuthKey {configSecretName : String} :
    Provides names P (existingAuthKey configSecretName) fun key =>
      {n | n ∈ P ∨ key.isSome = true ∧ n = .secretKey configSecretName "key"} := by
  refine .bind (Q := fun a => {n | n ∈ P ∨ ∃ secret, a = .ok secret ∧
    (extractAuthKey secret).isSome = true ∧ n = .secretKey configSecretName "key"})
    (.op (fun _ _ => trivial) fun a n hn => ?_) fun a => ?_
  · rcases hn with hn | ⟨secret, rfl, hkey, rfl⟩
    · exact .inr ⟨hn, id⟩
    · refine .inl ⟨rfl, ?_⟩
      obtain ⟨key, hkey⟩ := Option.isSome_iff_exists.1 hkey
      obtain ⟨hread, -⟩ := Option.filter_eq_some_iff.1 hkey
      obtain ⟨bytes, hbytes, -⟩ := Option.bind_eq_some_iff.1 hread
      exact Option.isSome_iff_exists.2 ⟨bytes, hbytes⟩
  · match a with
    -- No answer: the reconcile fails, and nothing is claimed.
    | .error .other => exact .ret fun _ h => by cases h
    | .error .notFound =>
      refine .ret fun key hkey n hn => ?_
      obtain rfl := Except.ok.inj hkey
      exact hn.imp_right fun h => by cases h.1
    | .ok secret =>
      refine .ret fun key hkey n hn => ?_
      obtain rfl := Except.ok.inj hkey
      exact hn.imp_right fun h => ⟨secret, rfl, h⟩

/-- The config Secret has a key once it is saved, and the proxy fails if it is not. -/
theorem provides_mintAuthKey {headscale : AuthenticatedClient} {request : CreatePreAuthKeyRequest}
    (hP : ∀ n ∈ P, n.Spared fun a => a = .key ∨ a = .secret names.configSecretName) :
    Provides names P (mintAuthKey headscale child names request) fun _ =>
      insert (.secretKey names.configSecretName "key") P := by
  refine .bind (provides_within (within_call (within_some rfl (.inl rfl))) (by simp) hP) fun r => ?_
  refine .bind (provides_within (within_fromStatus r) (by simp) hP) fun minted => ?_
  cases minted with
  | none => exact .ret fun _ h => by cases h
  | some preAuthKey =>
    have hsave : Provides names P (applyConfigSecret child names preAuthKey.key) fun _ =>
        insert (.secretKey names.configSecretName "key") P :=
      provides_applySecret ⟨rfl, List.mem_singleton_self _⟩ fun n hn => (hP n hn).mono fun a => .inr
    -- The key that could not be saved is deleted again, and the reconcile fails.
    refine .attempt_bind hsave (fun _ => .ret fun _ _ => subset_rfl) fun e => ?_
    exact .bind (provides_rest (within_call (within_some rfl rfl)) (by simp)) fun _ =>
      .ret fun _ h => by cases h

theorem provides_ensureAuthKey {parent : ObjectReference} {headscale : AuthenticatedClient}
    {user : Option String} {managedKeyTags : List String} {autoTag : Option String}
    {expirySecs : Nat} {reusable ephemeral : Bool}
    (hP : ∀ n ∈ P, n.Spared fun a => a = .key ∨ a = .secret names.configSecretName) :
    Provides names P
      (ensureAuthKey parent headscale child names user managedKeyTags autoTag expirySecs reusable
        ephemeral)
      fun status => {n | status = .ready ∧ n ∈ insert (Fact.secretKey names.configSecretName "key") P} := by
  refine .bind provides_existingAuthKey fun key => ?_
  split
  · -- A key that is there is used on.
    rename_i hkey
    exact .ret fun _ _ n hn => hn.2.symm.imp_right fun h => ⟨hkey, h⟩
  · refine .mono (P := P) ?_ (fun n => Or.inl) fun _ => subset_rfl
    refine .bind (provides_within (within_quiet rfl) (by simp) hP) fun now => ?_
    refine .bind (provides_within within_userIdOf (by simp) hP) fun userId => ?_
    cases userId with
    | none => exact .ret fun status h n hn => by cases h; cases hn.1
    | some userId =>
      exact .bind (provides_mintAuthKey hP) fun _ => .ret fun _ _ n hn => hn.2

theorem provides_ensureStateSecret {headscaleRef : String}
    (hP : ∀ n ∈ P, n.Spared fun a => a = .secret names.stateSecretName) :
    Provides names P (ensureStateSecret child names headscaleRef) fun _ =>
      insert (.secret names.stateSecretName) P := by
  have happlied : Provides names P
      (apply child (.secret names.stateSecretName [("headscale_ref", .utf8 headscaleRef)])) fun _ =>
        insert (.secret names.stateSecretName) P :=
    provides_applySecret rfl hP
  exact .bind happlied fun _ => .bind (provides_read (fun _ => trivial) fun _ => id) fun _ =>
    .ret fun _ _ => subset_rfl

/-! ### Services and access -/

theorem provides_applyWireguardService {hostNetwork : Bool}
    (hP : ∀ n ∈ P, n.Spared (· = .service)) :
    Provides names P (applyWireguardService child names hostNetwork) fun _ =>
      insert (.service names.wgServiceName) P := by
  have happlied (spec : ServiceSpec) : Provides names P
      (apply child (.service names.wgServiceName spec)) fun _ =>
        insert (.service names.wgServiceName) P :=
    provides_apply rfl (fun _ _ => trivial) fun _ _ => id
  refine .bind (provides_within (within_ensureServiceShape (S := (· = .service)) rfl) (by simp) hP)
    fun _ => ?_
  split
  · exact .bind (happlied _) fun _ => .ret fun _ _ => subset_rfl
  · refine .bind (happlied _) fun _ => .bind (provides_read (fun _ => trivial) fun _ => id) fun a => ?_
    have hread : Provides names (insert (.service names.wgServiceName) P)
        (fromKube a : M PortedService) fun _ => insert (.service names.wgServiceName) P :=
      .ret fun _ _ => subset_rfl
    refine .bind hread fun svc => ?_
    split
    · exact .ret fun _ _ => subset_rfl
    · exact .ret fun _ h => by cases h

theorem provides_applyServeConfigmap {serveJson : Json} :
    Provides names P (applyServeConfigmap child names serveJson) fun _ =>
      insert (.configMap names.serveConfigmapName "serve.json") P :=
  provides_apply ⟨rfl, rfl⟩ (fun _ _ => trivial) fun _ _ => id

/-- What every proxy relies on, with other facts. -/
def basics (names : ProxyNames) (P : Set Fact) : Set Fact :=
  insert (.roleBinding (proxyRoleBinding names.proxyName))
    (insert (.role (proxyRole names.proxyName names.stateSecretName))
      (insert (.serviceAccount names.proxyName) P))

theorem provides_applyProxyRbac (hP : ∀ n ∈ P, n.isAccess = false) :
    Provides names P (applyProxyRbac child names) fun _ => basics names P := by
  have haccount : Provides names P (apply child (.serviceAccount names.proxyName)) fun _ =>
      insert (.serviceAccount names.proxyName) P :=
    provides_apply rfl (fun _ _ => trivial) fun _ _ => id
  have hrole : Provides names (insert (.serviceAccount names.proxyName) P)
      (apply child (.role names.proxyName names.stateSecretName)) fun _ =>
        insert (.role (proxyRole names.proxyName names.stateSecretName))
          (insert (.serviceAccount names.proxyName) P) := by
    -- Applying a role takes nothing but roles, of which there are none yet.
    refine provides_apply rfl (fun _ _ => trivial) (Set.forall_mem_insert.2 ⟨id, fun m hm => ?_⟩)
    cases m with
    | role r => cases hP _ hm
    | _ => exact id
  refine .bind haccount fun _ => .bind hrole fun _ => provides_apply rfl (fun _ _ => trivial) ?_
  refine Set.forall_mem_insert.2 ⟨id, Set.forall_mem_insert.2 ⟨id, fun m hm => ?_⟩⟩
  cases m with
  | roleBinding b => cases hP _ hm
  | _ => exact id

theorem provides_statefulSet {spec : ProxyStatefulSet}
    (h : ∀ tr, ledger.Holds P tr → Supplied tr (spec.build names)) :
    Provides names P (apply child (.statefulSet names.proxyName spec)) fun _ => ∅ :=
  .bind (.op (Q := fun _ => ∅) (fun tr hP => ⟨rfl, h tr hP⟩) nofun) fun _ => .ret fun _ _ => subset_rfl

theorem basics_of_holds (h : ledger.Holds (basics names P) tr)
    (hservice : .service names.wgServiceName ∈ P)
    (hkey : .secretKey names.configSecretName "key" ∈ P)
    (hsecret : .secret names.stateSecretName ∈ P) : Basics tr names where
  service := h _ (.inr (.inr (.inr hservice)))
  key := h _ (.inr (.inr (.inr hkey)))
  secret := h _ (.inr (.inr (.inr hsecret)))
  account := h _ (.inr (.inr (.inl rfl)))
  role := h _ (.inr (.inl rfl))
  binding := h _ (.inl rfl)

end Provides

/-! ## Whole reconciles -/

variable {read : Reader} {digest : Digest} {dep : Deployment} {t : Turn}
  {annotations : IngressAnnotations} {inst : Instance}

theorem Turn.configSecretName_ne (digest : Digest) (t : Turn) :
    (t.names digest).configSecretName ≠ (t.names digest).stateSecretName := by
  rw [t.names_eq]
  exact t.parent.configSecretName_ne digest

namespace RoutedIngress

variable {ing : RoutedIngress}

theorem provides_provision {hostNetwork : Bool} {routes : List ProxyRoute} :
    Provides (ing.names digest) ∅
      (ing.provision read digest dep annotations inst hostNetwork routes) fun _ => ∅ := by
  have hne : (ing.names digest).configSecretName ≠ (ing.names digest).stateSecretName :=
    Turn.configSecretName_ne digest (.ingress ing)
  refine .bind (provides_within (S := fun _ => False) (.mapError (within_headscaleConnect _ _)) id nofun)
    fun headscale => ?_
  refine .bind (provides_applyWireguardService nofun) fun networking => ?_
  -- Moving the proxy away removes Secrets, but none of them is claimed so far.
  refine .bind (provides_within (S := fun a => a = .node ∨ a = .removal)
    (within_resetIfRetargeted (.inl rfl) (.inr rfl)) (by simp)
    (by simp [Fact.spared_iff, Fact.isAccess, Fact.At])) fun _ => ?_
  refine .bind (provides_within (S := fun a => a = .node ∨ a = .rotation)
    (within_rotateStaleAuthKey (.inl rfl) (.inr rfl)) (by simp)
    (by simp [Fact.spared_iff, Fact.isAccess, Fact.At])) fun _ => ?_
  refine .bind (provides_ensureAuthKey (by simp [Fact.spared_iff, Fact.isAccess, Fact.At]))
    fun status => ?_
  cases status with
  | waitingForUser => exact .ret fun _ _ => Set.empty_subset _
  | ready =>
    refine .mono (P := insert (.secretKey (ing.names digest).configSecretName "key")
      (insert (.service (ing.names digest).wgServiceName) ∅)) ?_ (fun n hn => ⟨rfl, hn⟩)
        fun _ => subset_rfl
    refine .bind (provides_ensureStateSecret (by simpa [Fact.spared_iff, Fact.isAccess, Fact.At]
      using hne)) fun stateSecret => ?_
    refine .bind provides_applyServeConfigmap fun _ => ?_
    refine .bind (provides_applyProxyRbac (by simp [Fact.isAccess])) fun _ => ?_
    refine .bind (provides_statefulSet fun tr h => ?_) fun _ => ?_
    · exact supplied_buildProxyStatefulset (basics_of_holds h (by simp) (by simp) (by simp))
        (h _ (by simp [basics]))
    · refine provides_rest (S := fun a => a = .node ∨ a = .claim) ?_ (by simp)
      exact .bind (within_syncTags (.inl rfl)) fun tagged => .bind within_report fun _ =>
        .bind (within_claim (.inr rfl)) fun _ => within_pure _

end RoutedIngress

namespace PortedService

variable {svc : PortedService}

theorem provides_provisionEgress {tailnetFqdn : String} {forwards : List (Int × Int)} :
    Provides (svc.names digest) ∅
      (svc.provisionEgress read digest dep annotations tailnetFqdn forwards inst) fun _ => ∅ := by
  have hne : (svc.names digest).configSecretName ≠ (svc.names digest).stateSecretName :=
    Turn.configSecretName_ne digest (.service svc)
  refine .bind (provides_within (S := fun _ => False) (.mapError (within_headscaleConnect _ _)) id nofun)
    fun headscale => ?_
  refine .bind (provides_within (S := fun a => a = .node ∨ a = .removal)
    (within_resetIfRetargeted (.inl rfl) (.inr rfl)) (by simp) nofun) fun _ => ?_
  refine .bind (provides_within (S := fun a => a = .node ∨ a = .rotation)
    (within_rotateStaleAuthKey (.inl rfl) (.inr rfl)) (by simp) nofun) fun _ => ?_
  refine .bind (provides_ensureAuthKey nofun) fun status => ?_
  cases status with
  | waitingForUser => exact .ret fun _ _ => Set.empty_subset _
  | ready =>
    refine .mono (P := insert (.secretKey (svc.names digest).configSecretName "key") ∅) ?_
      (fun n hn => ⟨rfl, hn⟩) fun _ => subset_rfl
    refine .bind (provides_ensureStateSecret (by simpa [Fact.spared_iff, Fact.isAccess, Fact.At]
      using hne)) fun stateSecret => ?_
    have hservice : (Child.service (svc.names digest).wgServiceName
        { ports := forwardPorts forwards }).Gives (.service (svc.names digest).wgServiceName) := rfl
    refine .bind (provides_apply hservice (fun _ _ => trivial) fun _ _ => id) fun _ => ?_
    refine .bind (provides_applyProxyRbac (by simp [Fact.isAccess])) fun _ => ?_
    refine .bind (provides_statefulSet fun tr h => ?_) fun _ => ?_
    · exact supplied_buildEgressStatefulset (basics_of_holds h (by simp) (by simp) (by simp))
    · refine provides_rest (S := fun a => a = .policy ∨ a = .claim ∨ a = .node ∨ a = .dns) ?_ (by simp)
      refine .bind (within_applyConsumerPolicy (.inl rfl)) fun _ =>
        .bind (within_claim (.inr (.inl rfl))) fun _ => ?_
      refine .bind (within_syncTags (.inr (.inr (.inl rfl)))) fun tagged =>
        .bind within_report fun _ => ?_
      exact .bind (within_syncEgressDns (.inr (.inr (.inr rfl)))) fun _ => within_pure _

theorem provides_provisionExpose {hostNetwork : Bool} {ports : List Int} {clusterIp : Option String} :
    Provides (svc.names digest) ∅
      (svc.provisionExpose read digest dep annotations hostNetwork ports clusterIp inst)
        fun _ => ∅ := by
  have hne : (svc.names digest).configSecretName ≠ (svc.names digest).stateSecretName :=
    Turn.configSecretName_ne digest (.service svc)
  refine .bind (provides_within (S := fun _ => False) (.mapError (within_headscaleConnect _ _)) id nofun)
    fun headscale => ?_
  refine .bind (provides_within (S := fun a => a = .node ∨ a = .removal)
    (within_resetIfRetargeted (.inl rfl) (.inr rfl)) (by simp) nofun) fun _ => ?_
  refine .bind (provides_within (S := fun a => a = .node ∨ a = .rotation)
    (within_rotateStaleAuthKey (.inl rfl) (.inr rfl)) (by simp) nofun) fun _ => ?_
  refine .bind (provides_ensureAuthKey nofun) fun status => ?_
  cases status with
  | waitingForUser => exact .ret fun _ _ => Set.empty_subset _
  | ready =>
    refine .mono (P := insert (.secretKey (svc.names digest).configSecretName "key") ∅) ?_
      (fun n hn => ⟨rfl, hn⟩) fun _ => subset_rfl
    refine .bind (provides_ensureStateSecret (by simpa [Fact.spared_iff, Fact.isAccess, Fact.At]
      using hne)) fun stateSecret => ?_
    refine .bind (provides_applyWireguardService
      (by simp [Fact.spared_iff, Fact.isAccess, Fact.At])) fun networking => ?_
    refine .bind (provides_applyProxyRbac (by simp [Fact.isAccess])) fun _ => ?_
    refine .bind (Q := fun _ => ∅) ?_ fun _ => ?_
    · rw [applyExposeProxy.eq_def]
      dsimp only
      split
      · refine .bind provides_applyServeConfigmap fun _ => provides_statefulSet fun tr h => ?_
        have hbasics : ledger.Holds (basics (svc.names digest) _) tr := fun n hn => h n (.inr hn)
        rw [ProxyStatefulSet.build]
        exact supplied_buildProxyStatefulset (basics_of_holds hbasics (by simp) (by simp) (by simp))
          (h _ (.inl rfl))
      · split
        · exact .ret fun _ h => by cases h
        · exact .ret fun _ h => by cases h
        · refine .bind (provides_statefulSet fun tr h => ?_) fun _ => ?_
          · exact supplied_buildTunStatefulset (basics_of_holds h (by simp) (by simp) (by simp))
          · exact provides_rest (S := (· = .configMap)) (within_deleteIgnoring404 rfl rfl) (by simp)
    · refine provides_rest (S := fun a => a = .policy ∨ a = .claim ∨ a = .node) ?_ (by simp)
      refine .bind (within_deleteIgnoring404 rfl (.inl rfl)) fun _ =>
        .bind (within_claim (.inr (.inl rfl))) fun _ => ?_
      exact .bind (within_syncTags (.inr (.inr rfl))) fun tagged => .bind within_report fun _ =>
        within_pure _

end PortedService

theorem furnished_of_uses {α : Type} {S : Area → Prop} {p : M α} (hp : p.Uses (Within S))
    (hS : ¬S .statefulSet) : p.Safe (Furnished (t.names digest)) :=
  hp.safe fun _ _ ho => furnished_of_within ho hS

theorem furnished_leaving {p : M Unit} (h : Leaving read digest dep t p) :
    p.Safe (Furnished (t.names digest)) :=
  furnished_of_uses (S := (· ≠ .statefulSet)) (h.within nofun nofun nofun nofun nofun)
    fun hne => hne rfl

theorem furnished_walk : Walk read digest dep t (fun p => p.Safe (Furnished (t.names digest)))
    (fun p => p.Safe (Furnished (t.names digest))) where
  quiet hp := furnished_of_uses hp id
  last hp := hp
  bind := Safe.bind
  andThen hp hf := hp.bind fun a => furnished_of_uses (hf a) id
  leave hp _ := furnished_leaving hp
  leaveInSync hp _ hq hr := (furnished_leaving hp).bind fun _ => (furnished_of_uses hq id).bind fun _ =>
    (furnished_of_uses (within_syncEgressDns (S := (· = .dns)) rfl) (by simp)).bind fun _ =>
      furnished_of_uses hr id
  ingress ht _ := by
    subst ht
    exact RoutedIngress.provides_provision.safe
  egress ht _ _ _ := by
    subst ht
    exact PortedService.provides_provisionEgress.safe
  expose ht _ _ _ := by
    subst ht
    exact PortedService.provides_provisionExpose.safe

/-! ## Executions -/

variable {turns : List Turn} {w : Cluster} {events : List (Process.Event Fate (Cluster → Cluster))}
  {s : Pool sig Error Action Cluster}

/-- When a reconcile applies a StatefulSet, it is that of its proxy, and all that its pods refer to
    was put in place by the reconcile, or found by it, and not deleted since. -/
theorem supplied_of_applied
    (hexec : cluster.exec (reconciles read digest dep turns w) events = some s)
    {e : Entry sig Cluster} {hist : List (Entry sig Cluster)} (he : e :: hist <:+ s.history)
    {t : Turn} (ht : turns[e.thread]? = some t) {child : ChildApplier} {name : String}
    {spec : ProxyStatefulSet} (hop : e.op = .apply child (.statefulSet name spec)) :
    name = (t.names digest).proxyName ∧
      Supplied (trace e.thread hist) (spec.build (t.names digest)) := by
  have hfurnished := calls_of_safe (A := fun t => Furnished (t.names digest))
    (fun t => (furnished_walk (t := t)).reconcile) hexec he ht
  rw [hop] at hfurnished
  exact hfurnished

/-- The request applies a StatefulSet. -/
def appliesStatefulSet : Op → Bool
  | .apply _ (.statefulSet _ _) => true
  | _ => false

theorem exists_of_appliesStatefulSet {o : Op} (h : appliesStatefulSet o = true) :
    ∃ child name spec, o = .apply child (.statefulSet name spec) := by
  unfold appliesStatefulSet at h
  split at h
  · exact ⟨_, _, _, rfl⟩
  · cases h

open Orphans (sha256 deployment) in
/-- The proxy of a Service on a new cluster has all it needs before it starts. -/
theorem supplied_of_applied_external : ∃ (s : Pool sig Error Action Cluster) (e : Entry sig Cluster)
    (hist : List (Entry sig Cluster)) (child : ChildApplier) (name : String)
    (spec : ProxyStatefulSet),
    cluster.exec (reconciles Shop.reader sha256 deployment [.service (Shop.external Shop.main)]
      Shop.fresh) (Shop.succeeds 0 22) = some s ∧
    e :: hist <:+ s.history ∧ e.op = .apply child (.statefulSet name spec) ∧
    Supplied (trace 0 hist) (spec.build ((Shop.external Shop.main).names sha256)) := by
  have hrun : (cluster.exec (reconciles Shop.reader sha256 deployment
      [.service (Shop.external Shop.main)] Shop.fresh) (Shop.succeeds 0 22)).any (fun s =>
        s.history.tails.any fun h => h.head?.any fun e =>
          e.thread == 0 && appliesStatefulSet e.op) = true := by
    decide +kernel
  obtain ⟨s, hs, hcheck⟩ := Option.any_eq_true _ _ |>.1 hrun
  obtain ⟨h, htail, hhead⟩ := List.any_eq_true.1 hcheck
  obtain ⟨e, he, happlies⟩ := Option.any_eq_true _ _ |>.1 hhead
  obtain ⟨hist, rfl⟩ := List.head?_eq_some_iff.1 he
  obtain ⟨hthread, happlies⟩ := Bool.and_eq_true_iff.1 happlies
  obtain ⟨child, name, spec, hop⟩ := exists_of_appliesStatefulSet happlies
  have hthread : e.thread = 0 := beq_iff_eq.1 hthread
  have hsuffix := (List.mem_tails _ _).1 htail
  refine ⟨s, e, hist, child, name, spec, hs, hsuffix, hop, ?_⟩
  have ht : [Turn.service (Shop.external Shop.main)][e.thread]? =
      some (.service (Shop.external Shop.main)) := by rw [hthread]; rfl
  exact hthread ▸ (supplied_of_applied hs hsuffix ht hop).2

end Headmaster.Operator.Proxy
