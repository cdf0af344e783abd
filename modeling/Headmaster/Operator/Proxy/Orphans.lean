import Headmaster.Operator.Proxy.Walk

/-!
# Nodes that are left behind

A reconcile that deletes the state Secret of a proxy deletes what is known of
its node. Before that the node must have been deleted from the headscale it is
recorded with, or there must be no way to it (`Deregistered`).

* `deregistered_of_orderly`: it has been, or there is none, when the Secret
  names a node and its headscale as the reconcile has read them, and the object
  is not released without a word on its headscale (`Orderly`);
* `orphaned_without_config`: a Service whose configuration is removed is, and
  its node is left behind.
-/

namespace Headmaster.Operator.Proxy

open Process (Made Machine Entry Pool trace Contract)
open Process.Prog (Safe Uses safe_ret wp_bind wp_attempt wp_mapError wp_mono wp_bind_op
  wp_of_allowed)

/-! ## What must come before -/

/-- A request that was made, with its answer. -/
def made (o : Op) (a : o.Ans) : Made sig := ⟨o, a⟩

variable {opNs : String} {tr tr' : List (Made sig)} {ref : String} {id : Nat}

/-- How the headscale of an instance is reached, as it was looked up. -/
inductive HeadscaleOf (opNs : String) (tr : List (Made sig)) (ref : String) :
    AuthenticatedClient → Prop
  | found (inst : Instance) (secret : Secret) (apiKey : Bytes)
      (hinst : made (.getInstance ref) (.ok inst) ∈ tr)
      (hkey : made (.getSecret (inst.apiKeySecretName ref)) (.ok secret) ∈ tr)
      (hlookup : secret.data.lookup "HEADSCALE_API_KEY" = some apiKey) :
      HeadscaleOf opNs tr ref ⟨ref, inst.grpcEndpoint opNs ref, apiKey.lossy⟩

/-- There is no instance, or no Secret with its API key. -/
inductive Gone (tr : List (Made sig)) (ref : String) : Prop
  | noInstance (hinst : made (.getInstance ref) (.error .notFound) ∈ tr)
  | noApiKey (inst : Instance) (hinst : made (.getInstance ref) (.ok inst) ∈ tr)
      (hkey : made (.getSecret (inst.apiKeySecretName ref)) (.error .notFound) ∈ tr)

/-- Connecting to the headscale of an instance was tried, and failed. -/
inductive ConnectFailed (opNs : String) (tr : List (Made sig)) (ref : String) : Prop
  | noInstance (e : KubeError) (hinst : made (.getInstance ref) (.error e) ∈ tr)
  | noApiKey (e : KubeError) (inst : Instance) (hinst : made (.getInstance ref) (.ok inst) ∈ tr)
      (hkey : made (.getSecret (inst.apiKeySecretName ref)) (.error e) ∈ tr)
  | emptyApiKey (inst : Instance) (secret : Secret)
      (hinst : made (.getInstance ref) (.ok inst) ∈ tr)
      (hkey : made (.getSecret (inst.apiKeySecretName ref)) (.ok secret) ∈ tr)
      (hlookup : secret.data.lookup "HEADSCALE_API_KEY" = none)
  | refused (headscale : AuthenticatedClient) (hof : HeadscaleOf opNs tr ref headscale)
      (hconnect : made (.connect headscale) false ∈ tr)

/-- A node was deleted from the headscale of an instance, or was not there; or there was no
    connection, and an event with the error was sent or the instance is gone. -/
inductive Deregistered (dep : Deployment) (parent : ObjectReference) (tr : List (Made sig))
    (ref : String) (id : Nat) : Prop
  | deleted (headscale : AuthenticatedClient) (hof : HeadscaleOf dep.operatorNamespace tr ref headscale)
      (hdelete : made (.deleteNode headscale id) (.ok ()) ∈ tr)
  | notFound (headscale : AuthenticatedClient)
      (hof : HeadscaleOf dep.operatorNamespace tr ref headscale) (s : Status) (hs : s.code = .notFound)
      (hdelete : made (.deleteNode headscale id) (.error s) ∈ tr)
  | orphaned (hconnect : ConnectFailed dep.operatorNamespace tr ref) (e : KubeError)
      (a : Except KubeError Unit)
      (hpublish : made (.publish parent
        (.warning "NodeOrphaned" (orphanedNote id (dep.displayKube e)))) a ∈ tr)
  | gone (hconnect : ConnectFailed dep.operatorNamespace tr ref) (hgone : Gone tr ref)

/-! ### Later -/

theorem HeadscaleOf.mono (h : tr ⊆ tr') {headscale : AuthenticatedClient} :
    HeadscaleOf opNs tr ref headscale → HeadscaleOf opNs tr' ref headscale
  | .found inst secret apiKey hinst hkey hlookup =>
    .found inst secret apiKey (h hinst) (h hkey) hlookup

theorem Gone.mono (h : tr ⊆ tr') : Gone tr ref → Gone tr' ref
  | .noInstance hinst => .noInstance (h hinst)
  | .noApiKey inst hinst hkey => .noApiKey inst (h hinst) (h hkey)

theorem ConnectFailed.mono (h : tr ⊆ tr') : ConnectFailed opNs tr ref → ConnectFailed opNs tr' ref
  | .noInstance e hinst => .noInstance e (h hinst)
  | .noApiKey e inst hinst hkey => .noApiKey e inst (h hinst) (h hkey)
  | .emptyApiKey inst secret hinst hkey hlookup =>
    .emptyApiKey inst secret (h hinst) (h hkey) hlookup
  | .refused headscale hof hconnect => .refused headscale (hof.mono h) (h hconnect)

theorem Deregistered.mono {dep : Deployment} {parent : ObjectReference} (h : tr ⊆ tr') :
    Deregistered dep parent tr ref id → Deregistered dep parent tr' ref id
  | .deleted headscale hof hdelete => .deleted headscale (hof.mono h) (h hdelete)
  | .notFound headscale hof s hs hdelete => .notFound headscale (hof.mono h) s hs (h hdelete)
  | .orphaned hconnect e a hpublish => .orphaned (hconnect.mono h) e a (h hpublish)
  | .gone hconnect hgone => .gone (hconnect.mono h) (hgone.mono h)

/-! ## What a reconcile may do -/

section Allowed

variable (read : Reader) (digest : Digest) (dep : Deployment)

/-- The node of a proxy is taken care of as its state Secret was read, or the object is released
    blindly. -/
inductive Justified (t : Turn) (tr : List (Made sig)) : Prop
  | blindly (h : t.releasedBlindly read dep = true)
  | absent (h : made (.getSecret (t.names digest).stateSecretName) (.error .notFound) ∈ tr)
  | read (secret : Secret)
      (h : made (.getSecret (t.names digest).stateSecretName) (.ok secret) ∈ tr)
      (hnode : ∀ id, deviceId secret = some id → ∀ ref, t.recordedRef read secret = some ref →
        Deregistered dep t.parent tr ref id)

/-- Secrets are deleted only then, but for a new key. -/
def Allowed (t : Turn) (tr : List (Made sig)) (o : Op) : Prop :=
  Within (· ≠ .removal) o ∨ Justified read digest dep t tr

end Allowed

variable {read : Reader} {digest : Digest} {dep : Deployment} {t : Turn}

theorem Justified.mono (h : tr ⊆ tr') :
    Justified read digest dep t tr → Justified read digest dep t tr'
  | .blindly hblind => .blindly hblind
  | .absent habsent => .absent (h habsent)
  | .read secret hread hnode =>
    .read secret (h hread) fun id hid ref href => (hnode id hid ref href).mono h

/-- A reconcile does only what it may. -/
abbrev Proper (read : Reader) (digest : Digest) (dep : Deployment) (t : Turn) {α : Type}
    (p : M α) : Prop := p.Safe (Allowed read digest dep t)

theorem proper_of_within {α : Type} {p : M α} (h : p.Uses (Within (· ≠ .removal))) :
    Proper read digest dep t p :=
  h.safe fun _ _ => .inl

/-- Once it is justified, the rest may delete Secrets. -/
theorem wp_of_justified {α : Type} (p : M α) (h : Justified read digest dep t tr) :
    p.wp (.tracing (Allowed read digest dep t)) (fun _ _ => True) tr :=
  wp_of_allowed p fun _ hsub _ => .inr (h.mono hsub)

/-! ### Deregistering -/

theorem wp_headscaleConnect {Q : Except KubeError AuthenticatedClient → List (Made sig) → Prop}
    (hok : ∀ tr' headscale, tr ⊆ tr' → HeadscaleOf dep.operatorNamespace tr' ref headscale →
      Q (.ok headscale) tr')
    (herror : ∀ tr' e, tr ⊆ tr' → ConnectFailed dep.operatorNamespace tr' ref →
      (e = .notFound → Gone tr' ref) → Q (.error e) tr') :
    (headscaleConnect dep.operatorNamespace ref).wp (.tracing (Allowed read digest dep t)) Q tr := by
  refine wp_bind_op.2 ⟨.inl (within_none rfl), fun r => ?_⟩
  match r with
  | .error e =>
    refine herror _ e (List.subset_cons_self _ _) (.noInstance e List.mem_cons_self) ?_
    rintro rfl
    exact .noInstance List.mem_cons_self
  | .ok inst =>
    refine wp_bind_op.2 ⟨.inl (within_none rfl), fun r => ?_⟩
    have hinst {a} : made (.getInstance ref) (.ok inst) ∈
        made (.getSecret (inst.apiKeySecretName ref)) a :: made (.getInstance ref) (.ok inst) :: tr :=
      List.mem_cons_of_mem _ List.mem_cons_self
    have hsub {a} : tr ⊆
        made (.getSecret (inst.apiKeySecretName ref)) a :: made (.getInstance ref) (.ok inst) :: tr :=
      List.subset_cons_of_subset _ (List.subset_cons_self _ _)
    match r with
    | .error e =>
      refine herror _ e hsub (.noApiKey e inst hinst List.mem_cons_self) ?_
      rintro rfl
      exact .noApiKey inst hinst List.mem_cons_self
    | .ok secret =>
      dsimp only
      split
      · rename_i hlookup
        exact herror _ .other hsub (.emptyApiKey inst secret hinst List.mem_cons_self hlookup) nofun
      · rename_i apiKey hlookup
        refine wp_bind_op.2 ⟨.inl (within_none rfl), fun connected => ?_⟩
        have hof := (@HeadscaleOf.found dep.operatorNamespace _ _ inst secret apiKey hinst
          List.mem_cons_self hlookup).mono (List.subset_cons_self
            (made (.connect ⟨ref, inst.grpcEndpoint dep.operatorNamespace ref, apiKey.lossy⟩) connected) _)
        match connected with
        | true => exact hok _ _ (List.subset_cons_of_subset _ hsub) hof
        | false =>
          exact herror _ .other (List.subset_cons_of_subset _ hsub)
            (.refused _ hof List.mem_cons_self) nofun

theorem wp_deletedOrGone {Q : Except Error Unit → List (Made sig) → Prop}
    {headscale : AuthenticatedClient} (hof : HeadscaleOf dep.operatorNamespace tr ref headscale)
    {r : Except Status Unit} (htr : tr' = made (.deleteNode headscale id) r :: tr)
    (hok : Deregistered dep t.parent tr' ref id → Q (.ok ()) tr')
    (herror : ∀ e, Q (.error e) tr') :
    (deletedOrGone r).wp (.tracing (Allowed read digest dep t)) Q tr' := by
  subst htr
  have hof' := hof.mono (List.subset_cons_self (made (.deleteNode headscale id) r) _)
  match r with
  | .ok () => exact hok (.deleted headscale hof' List.mem_cons_self)
  | .error s =>
    rw [deletedOrGone]
    split
    · rename_i hs
      exact hok (.notFound headscale hof' s hs List.mem_cons_self)
    · exact herror _

theorem wp_deregister {Q : Except Error Unit → List (Made sig) → Prop}
    (hok : ∀ tr', tr ⊆ tr' → Deregistered dep t.parent tr' ref id → Q (.ok ()) tr')
    (herror : ∀ e tr', Q (.error e) tr') :
    (deregister dep t.parent ref id).wp (.tracing (Allowed read digest dep t)) Q
      tr := by
  refine wp_bind.2 (wp_attempt.2 (wp_headscaleConnect ?_ ?_))
  · intro tr' headscale hsub hof
    refine wp_bind_op.2 ⟨.inl (within_some rfl nofun), fun r => wp_bind.2 ?_⟩
    refine wp_deletedOrGone hof rfl (fun hder => ?_) fun e => herror e _
    refine wp_bind_op.2 ⟨.inl (within_none rfl), fun a => ?_⟩
    exact hok _ (List.subset_cons_of_subset _ (List.subset_cons_of_subset _ hsub))
      (hder.mono (List.subset_cons_self _ _))
  · intro tr' e hsub hfailed _
    refine wp_bind_op.2 ⟨.inl (within_none rfl), fun a => ?_⟩
    exact hok _ (List.subset_cons_of_subset _ hsub)
      (.orphaned (hfailed.mono (List.subset_cons_self _ _)) e a List.mem_cons_self)

theorem proper_deregisterAndCleanup {headscaleRefFallback : String}
    (hfallback : ∀ ref, IngressAnnotations.headscaleRefOf read t.metadata = some ref →
      headscaleRefFallback = ref) :
    Proper read digest dep t
      (deregisterAndCleanup dep (t.names digest) t.parent headscaleRefFallback) := by
  intro tr
  refine wp_bind_op.2 ⟨.inl (within_none rfl), fun a => ?_⟩
  match a with
  | .error .other => trivial
  | .error .notFound => exact wp_of_justified _ (.absent List.mem_cons_self)
  | .ok secret =>
    change Process.Prog.wp _ _ (ifFound (.ok secret) >>= _) _
    rw [ifFound_ok_bind, Option.bind_some]
    split
    · rename_i id hid
      refine wp_bind.2 (wp_deregister (fun tr' hsub hder => ?_) fun _ _ => trivial)
      refine wp_of_justified _ (.read secret (hsub List.mem_cons_self) fun id' hid' ref href => ?_)
      obtain rfl : id = id' := Option.some.inj (hid.symm.trans hid')
      -- the headscale it was deregistered from is the one it is recorded with
      have hsame : (headscaleRef secret).getD headscaleRefFallback = ref := by
        rw [Turn.recordedRef] at href
        cases hown : headscaleRef secret with
        | some own =>
          rw [hown] at href
          exact Option.some.inj href
        | none =>
          rw [hown] at href
          exact hfallback ref href
      exact hsame ▸ hder
    · rename_i hid
      refine wp_of_justified _ (.read secret List.mem_cons_self fun id hid' => ?_)
      rw [hid] at hid'
      cases hid'

theorem wp_deregisterOld {Q : Except Error Unit → List (Made sig) → Prop}
    (hok : ∀ tr', tr ⊆ tr' → Deregistered dep t.parent tr' ref id → Q (.ok ()) tr')
    (herror : ∀ e tr', Q (.error e) tr') :
    (deregisterOld dep.operatorNamespace ref id).wp (.tracing (Allowed read digest dep t)) Q tr := by
  refine wp_bind.2 (wp_attempt.2 (wp_headscaleConnect ?_ ?_))
  · intro tr' headscale hsub hof
    refine wp_bind_op.2 ⟨.inl (within_some rfl nofun), fun r => ?_⟩
    exact wp_deletedOrGone hof rfl (hok _ (List.subset_cons_of_subset _ hsub)) fun e => herror e _
  · intro tr' e hsub hfailed hgone
    match e with
    | .notFound => exact hok _ hsub (.gone hfailed (hgone rfl))
    | .other => exact herror _ _

theorem proper_resetIfRetargeted {newHeadscaleRef : String} :
    Proper read digest dep t
      (resetIfRetargeted dep.operatorNamespace (t.names digest) newHeadscaleRef) := by
  intro tr
  refine wp_bind_op.2 ⟨.inl (within_none rfl), fun a => ?_⟩
  match a with
  | .error .other | .error .notFound => trivial
  | .ok secret =>
    change Process.Prog.wp _ _ (ifFound (.ok secret) >>= _) _
    rw [ifFound_ok_bind, Option.bind_some]
    split
    · trivial
    · rename_i oldRef oldNodeId hretarget
      obtain ⟨own, hown, heq⟩ := Option.map_eq_some_iff.1 hretarget
      obtain ⟨rfl, rfl⟩ := Prod.mk.inj heq
      have hrecorded : t.recordedRef read secret = some own := by
        rw [Turn.recordedRef, (Option.filter_eq_some_iff.1 hown).1]
        rfl
      dsimp only
      split
      · rename_i id hid
        refine wp_bind.2 (wp_deregisterOld (fun tr' hsub hder => ?_) fun _ _ => trivial)
        refine wp_of_justified _ (.read secret (hsub List.mem_cons_self) fun id' hid' ref href => ?_)
        obtain rfl : id = id' := Option.some.inj (hid.symm.trans hid')
        obtain rfl : own = ref := Option.some.inj (hrecorded.symm.trans href)
        exact hder
      · rename_i hid
        refine wp_of_justified _ (.read secret List.mem_cons_self fun id hid' => ?_)
        rw [hid] at hid'
        cases hid'

/-! ### Whole reconciles -/

theorem proper_leaving {p : M Unit} (h : Leaving read digest dep t p) :
    Proper read digest dep t p := by
  cases h with
  | deregister _ hfallback => exact proper_deregisterAndCleanup hfallback
  | blindly hreleased hnone =>
    refine fun tr => wp_of_justified _ (.blindly ?_)
    rw [Turn.releasedBlindly, hreleased, hnone]
    rfl

variable {annotations : IngressAnnotations} {inst : Instance}

namespace RoutedIngress

variable {ing : RoutedIngress}

theorem proper_provision {hostNetwork : Bool} {routes : List ProxyRoute} :
    Proper read digest dep (.ingress ing)
      (ing.provision read digest dep annotations inst hostNetwork routes) := by
  refine .bind (proper_of_within (.mapError (within_headscaleConnect _ _))) fun headscale => ?_
  refine .bind (proper_of_within (within_applyWireguardService nofun)) fun networking => ?_
  refine .bind (proper_resetIfRetargeted (t := .ingress ing)) fun _ => ?_
  refine proper_of_within (.bind (within_rotateStaleAuthKey nofun nofun) fun _ =>
    .bind (within_ensureAuthKey nofun nofun) fun status => ?_)
  cases status with
  | waitingForUser => exact within_pure _
  | ready =>
    refine .bind (within_ensureStateSecret nofun) fun stateSecret =>
      .bind (within_apply rfl nofun) fun _ => ?_
    refine .bind within_applyProxyRbac fun _ => .bind (within_apply rfl nofun) fun _ => ?_
    refine .bind (within_syncTags nofun) fun tagged => .bind within_report fun _ => ?_
    exact .bind (within_claim nofun) fun _ => within_pure _

end RoutedIngress

namespace PortedService

variable {svc : PortedService}

theorem proper_provisionEgress {tailnetFqdn : String} {forwards : List (Int × Int)} :
    Proper read digest dep (.service svc)
      (svc.provisionEgress read digest dep annotations tailnetFqdn forwards inst) := by
  refine .bind (proper_of_within (.mapError (within_headscaleConnect _ _))) fun headscale => ?_
  refine .bind (proper_resetIfRetargeted (t := .service svc)) fun _ => ?_
  refine proper_of_within (.bind (within_rotateStaleAuthKey nofun nofun) fun _ =>
    .bind (within_ensureAuthKey nofun nofun) fun status => ?_)
  cases status with
  | waitingForUser => exact within_pure _
  | ready =>
    refine .bind (within_ensureStateSecret nofun) fun stateSecret =>
      .bind (within_apply rfl nofun) fun _ => ?_
    refine .bind within_applyProxyRbac fun _ => .bind (within_apply rfl nofun) fun _ => ?_
    refine .bind (within_applyConsumerPolicy nofun) fun _ => .bind (within_claim nofun) fun _ => ?_
    refine .bind (within_syncTags nofun) fun tagged => .bind within_report fun _ => ?_
    exact .bind (within_syncEgressDns nofun) fun _ => within_pure _

theorem proper_provisionExpose {hostNetwork : Bool} {ports : List Int} {clusterIp : Option String} :
    Proper read digest dep (.service svc)
      (svc.provisionExpose read digest dep annotations hostNetwork ports clusterIp inst) := by
  refine .bind (proper_of_within (.mapError (within_headscaleConnect _ _))) fun headscale => ?_
  refine .bind (proper_resetIfRetargeted (t := .service svc)) fun _ => ?_
  refine proper_of_within (.bind (within_rotateStaleAuthKey nofun nofun) fun _ =>
    .bind (within_ensureAuthKey nofun nofun) fun status => ?_)
  cases status with
  | waitingForUser => exact within_pure _
  | ready =>
    refine .bind (within_ensureStateSecret nofun) fun stateSecret => ?_
    refine .bind (within_applyWireguardService nofun) fun networking =>
      .bind within_applyProxyRbac fun _ => ?_
    refine .bind (within_applyExposeProxy nofun nofun) fun _ =>
      .bind (within_deleteIgnoring404 rfl nofun) fun _ => ?_
    refine .bind (within_claim nofun) fun _ => .bind (within_syncTags nofun) fun tagged => ?_
    exact .bind within_report fun _ => within_pure _

end PortedService

theorem proper_walk : Walk read digest dep t (Proper read digest dep t) (Proper read digest dep t) where
  quiet hp := proper_of_within hp.within
  last hp := hp
  bind := Safe.bind
  andThen hp hf := hp.bind fun a => proper_of_within (hf a).within
  leave hp _ := proper_leaving hp
  leaveInSync hp _ hq hr := (proper_leaving hp).bind fun _ => proper_of_within
    (.bind hq.within fun _ => .bind (within_syncEgressDns nofun) fun _ => hr.within)
  ingress ht _ := ht ▸ RoutedIngress.proper_provision
  egress ht _ _ _ := ht ▸ PortedService.proper_provisionEgress
  expose ht _ _ _ := ht ▸ PortedService.proper_provisionExpose

/-! ## Executions -/

section Executions

variable (read : Reader) (digest : Digest) (dep : Deployment) (turns : List Turn)

/-- The request deletes that Secret, and not for a new key. -/
def deletesSecret (name : String) : Op → Bool
  | .delete (.secret .cleanup) n | .delete (.secret .retarget) n => n == name
  | _ => false

def readsSecret (name : String) : Op → Bool
  | .getSecret n => n == name
  | _ => false

/-- A request deletes the state Secret of a proxy, and that holds a node. -/
structure DeletesNode (t : Turn) (e : Entry sig Cluster) (secret : Secret) : Prop where
  deletes : deletesSecret (t.names digest).stateSecretName e.op = true
  held : e.before.secrets (t.names digest).stateSecretName = some secret
  registered : (secret.data.lookup "device_id").isSome = true

/-- Whenever that happens, the node has been deregistered. -/
def NeverOrphans (h : List (Entry sig Cluster)) : Prop :=
  ∀ e hist, e :: hist <:+ h → ∀ t, turns[e.thread]? = some t → ∀ secret, DeletesNode digest t e secret →
    ∃ id ref, deviceId secret = some id ∧ t.recordedRef read secret = some ref ∧
      Deregistered dep t.parent (hist.map Entry.made) ref id

/-- The Secret that is deleted names a node and its headscale, as it did whenever the reconcile
    read it, and the object is not released blindly. -/
structure Careful (t : Turn) (e : Entry sig Cluster) (hist : List (Entry sig Cluster))
    (secret : Secret) : Prop where
  told : t.releasedBlindly read dep = false
  numbered : (deviceId secret).isSome = true
  recorded : (t.recordedRef read secret).isSome = true
  unchanged : ∀ e' ∈ hist, e'.thread = e.thread →
    readsSecret (t.names digest).stateSecretName e'.op = true →
      (e'.before.secrets (t.names digest).stateSecretName).map (fun s => (deviceId s, headscaleRef s)) =
        some (deviceId secret, headscaleRef secret)

def Orderly (h : List (Entry sig Cluster)) : Prop :=
  ∀ e hist, e :: hist <:+ h → ∀ t, turns[e.thread]? = some t → ∀ secret, DeletesNode digest t e secret →
    Careful read digest dep t e hist secret

instance (t : Turn) (e : Entry sig Cluster) (secret : Secret) :
    Decidable (DeletesNode digest t e secret) :=
  decidable_of_iff (deletesSecret (t.names digest).stateSecretName e.op = true ∧
      e.before.secrets (t.names digest).stateSecretName = some secret ∧
      (secret.data.lookup "device_id").isSome = true)
    ⟨fun ⟨hd, hh, hr⟩ => ⟨hd, hh, hr⟩, fun h => ⟨h.deletes, h.held, h.registered⟩⟩

instance (t : Turn) (e : Entry sig Cluster) (hist : List (Entry sig Cluster)) (secret : Secret) :
    Decidable (Careful read digest dep t e hist secret) :=
  decidable_of_iff (t.releasedBlindly read dep = false ∧ (deviceId secret).isSome = true ∧
      (t.recordedRef read secret).isSome = true ∧ ∀ e' ∈ hist, e'.thread = e.thread →
        readsSecret (t.names digest).stateSecretName e'.op = true →
          (e'.before.secrets (t.names digest).stateSecretName).map
            (fun s => (deviceId s, headscaleRef s)) = some (deviceId secret, headscaleRef secret))
    ⟨fun ⟨ht, hn, hr, hu⟩ => ⟨ht, hn, hr, hu⟩,
      fun h => ⟨h.told, h.numbered, h.recorded, h.unchanged⟩⟩

/-- Whether a request, after those before it, is a deletion that is careful, or none. -/
def carefulAt (e : Entry sig Cluster) (hist : List (Entry sig Cluster)) : Bool :=
  turns[e.thread]?.all fun t => (e.before.secrets (t.names digest).stateSecretName).all fun secret =>
    decide (DeletesNode digest t e secret → Careful read digest dep t e hist secret)

variable {read digest dep turns} in
theorem orderly_of_tails {h : List (Entry sig Cluster)} (hall : h.tails.all (fun
    | [] => true
    | e :: hist => carefulAt read digest dep turns e hist) = true) :
    Orderly read digest dep turns h := by
  intro e hist he t ht secret hdelete
  have hcheck := List.all_eq_true.1 hall _ ((List.mem_tails _ _).2 he)
  change carefulAt read digest dep turns e hist = true at hcheck
  simp only [carefulAt, ht, hdelete.held, Option.all_some] at hcheck
  exact of_decide_eq_true hcheck hdelete

end Executions

variable {turns : List Turn} {w : Cluster} {events : List (Process.Event Fate (Cluster → Cluster))}
  {s : Pool sig Error Action Cluster}

/-- Every request is one its reconcile may make, and is answered by the cluster. -/
theorem allowed_of_exec (hexec : cluster.exec (reconciles read digest dep turns w) events = some s)
    {e : Entry sig Cluster} {hist : List (Entry sig Cluster)} (he : e :: hist <:+ s.history) :
    (∀ t, turns[e.thread]? = some t → Allowed read digest dep t (trace e.thread hist) e.op) ∧
      ∃ f, (cluster.act f e.op e.before).1 = e.ans := by
  refine Machine.exec_tracing (A := fun i tr o => ∀ t, turns[i]? = some t →
    Allowed read digest dep t tr o) rfl ?_ hexec he
  intro i p hp
  rw [reconciles, List.getElem?_map, Option.map_eq_some_iff] at hp
  obtain ⟨t, ht, rfl⟩ := hp
  refine (proper_walk (t := t)).reconcile.mono fun tr o hallowed t' ht' => ?_
  obtain rfl : t = t' := Option.some.inj (ht.symm.trans ht')
  exact hallowed

/-- A Secret that a reconcile has read was so on the cluster. -/
theorem read_of_trace (hexec : cluster.exec (reconciles read digest dep turns w) events = some s)
    {hist : List (Entry sig Cluster)} (hhist : hist <:+ s.history) {i : ℕ} {name : String}
    {a : Except KubeError Secret} (ha : made (.getSecret name) a ∈ trace i hist) :
    ∃ e ∈ hist, e.thread = i ∧ e.op = .getSecret name ∧
      ∃ f, (cluster.act f (.getSecret name) e.before).1 = a := by
  obtain ⟨e, he, hi, hmade⟩ := Process.mem_trace.1 ha
  obtain ⟨later, earlier, rfl⟩ := List.append_of_mem he
  obtain ⟨_, f, hf⟩ := allowed_of_exec hexec ((List.suffix_append later _).trans hhist)
  refine ⟨e, he, hi, ?_⟩
  obtain ⟨thread, op, ans, before⟩ := e
  cases hmade
  exact ⟨rfl, f, hf⟩

/-- No node is left behind by deletions that are careful. -/
theorem deregistered_of_orderly
    (hexec : cluster.exec (reconciles read digest dep turns w) events = some s)
    (horderly : Orderly read digest dep turns s.history) :
    NeverOrphans read digest dep turns s.history := by
  intro e hist he t ht secret hdelete
  have hcareful := horderly e hist he t ht secret hdelete
  obtain ⟨id, hid⟩ := Option.isSome_iff_exists.1 hcareful.numbered
  obtain ⟨ref, href⟩ := Option.isSome_iff_exists.1 hcareful.recorded
  have hhist : hist <:+ s.history := (List.suffix_cons e hist).trans he
  refine ⟨id, ref, hid, href, ?_⟩
  rcases (allowed_of_exec hexec he).1 t ht with hkeep | hblind | habsent | ⟨secret', hread, hnode⟩
  · have hdeletes := hdelete.deletes
    match e.op, hkeep, hdeletes with
    | .delete (.secret .cleanup) _, hkeep, _ | .delete (.secret .retarget) _, hkeep, _ =>
      exact absurd rfl (hkeep .removal rfl)
  · rw [hcareful.told] at hblind
    cases hblind
  · obtain ⟨e', he', hthread, hop, f, hf⟩ := read_of_trace hexec hhist habsent
    have hsame := hcareful.unchanged e' he' hthread (by rw [hop]; exact beq_self_eq_true _)
    rw [no_secret_of_getSecret hf] at hsame
    cases hsame
  · obtain ⟨e', he', hthread, hop, f, hf⟩ := read_of_trace hexec hhist hread
    have hsame := hcareful.unchanged e' he' hthread (by rw [hop]; exact beq_self_eq_true _)
    rw [secret_of_getSecret hf] at hsame
    obtain ⟨hsameId, hsameRef⟩ := Prod.mk.inj (Option.some.inj hsame)
    have hrecorded : t.recordedRef read secret' = some ref := by
      rw [Turn.recordedRef, hsameRef]
      exact href
    exact (hnode id (hsameId.trans hid) ref hrecorded).mono (Process.trace_subset _ _)

namespace Orphans

/-! ### A Service with a node -/

def config : String := "\x7b\"headscale-ref\":\"main\",\"user\":\"alice\"\x7d"

def reader : Reader := fun s =>
  if s = config then
    some (.object [("headscale-ref", .string "main"), ("user", .string "alice")])
  else none

/-- The digest for the names of the Service. -/
def sha256 : Digest := fun _ => "9a31d31072ee98cb23be4baa4e920c60205649ff1ad1c1bc156c1e357bd983ae"

def deployment : Deployment where
  operatorNamespace := "headmaster"
  claimDefault := true
  displayKube _ := "ApiError"

/-- A Service that was adopted. -/
def db (annotations : List (String × String)) (deleting : Bool) : PortedService where
  metadata := {
    name := "db"
    namespaceName := some "shop"
    annotations
    finalizers := [finalizer "headmaster"]
    deleting }

/-- Its proxy is registered with the headscale `main`, as node 7. -/
def registered : Cluster where
  secrets name :=
    if name = ((db [] false).names sha256).stateSecretName then
      some { data := [("headscale_ref", .utf8 "main"), ("device_id", .utf8 "7")] }
    else if name = "headscale-api-key-main" then
      some { data := [("HEADSCALE_API_KEY", .utf8 "secret")] }
    else none

/-- The next request of the only reconcile succeeds. -/
def next : Process.Event Fate (Cluster → Cluster) := .act 0 { answer := answerOf { name := "main" } }

def isDeletion : Op → Bool
  | .delete _ _ | .join _ => true
  | _ => false

end Orphans

open Orphans (reader sha256 deployment db registered next config) in
/-- When the Service is deleted, its node is deleted first. -/
theorem deregistered_of_orderly_deleted : ∃ s,
    cluster.exec (reconciles reader sha256 deployment
      [.service (db [(annotationConfig, config)] true)] registered) (List.replicate 11 next) = some s ∧
    NeverOrphans reader sha256 deployment [.service (db [(annotationConfig, config)] true)]
      s.history := by
  have hrun : (cluster.exec (reconciles reader sha256 deployment
      [.service (db [(annotationConfig, config)] true)] registered) (List.replicate 11 next)).any
        (fun s => s.history.tails.all fun
          | [] => true
          | e :: hist => carefulAt reader sha256 deployment
              [.service (db [(annotationConfig, config)] true)] e hist) = true := by
    decide +kernel
  obtain ⟨s, hs, hcheck⟩ := Option.any_eq_true _ _ |>.1 hrun
  exact ⟨s, hs, deregistered_of_orderly hs (orderly_of_tails hcheck)⟩

open Orphans (reader sha256 deployment db registered next isDeletion) in
/-- When its configuration is removed, its state Secret is deleted, and nothing is said to
    headscale. -/
theorem orphaned_without_config : ∃ s,
    cluster.exec (reconciles reader sha256 deployment [.service (db [] false)] registered)
      (List.replicate 5 next) = some s ∧
    ¬NeverOrphans reader sha256 deployment [.service (db [] false)] s.history := by
  have hrun : (cluster.exec (reconciles reader sha256 deployment [.service (db [] false)] registered)
      (List.replicate 5 next)).any (fun s =>
        match s.history with
        | [] => false
        | e :: hist => e.thread == 0 && decide (DeletesNode sha256 (.service (db [] false)) e
            { data := [("headscale_ref", .utf8 "main"), ("device_id", .utf8 "7")] }) &&
          hist.all fun e' => isDeletion e'.op) = true := by
    decide +kernel
  obtain ⟨s, hs, hcheck⟩ := Option.any_eq_true _ _ |>.1 hrun
  refine ⟨s, hs, fun h => ?_⟩
  split at hcheck
  · cases hcheck
  · rename_i e hist heq
    simp only [Bool.and_eq_true, beq_iff_eq, decide_eq_true_eq] at hcheck
    obtain ⟨⟨hthread, hdeletes⟩, hquiet⟩ := hcheck
    obtain ⟨id, ref, _, _, hder⟩ := h e hist (heq ▸ List.suffix_rfl) _ (by rw [hthread]; rfl) _ hdeletes
    -- all that came before are deletions
    have hno {o : Op} {a : o.Ans} (hmem : made o a ∈ hist.map Entry.made) :
        isDeletion o = true := by
      obtain ⟨e', he', hmade⟩ := List.mem_map.1 hmem
      obtain rfl : e'.op = o := congrArg Made.op hmade
      exact List.all_eq_true.1 hquiet e' he'
    cases hder with
    | deleted _ _ hdelete => cases hno hdelete
    | notFound _ _ _ _ hdelete => cases hno hdelete
    | orphaned _ _ _ hpublish => cases hno hpublish
    | gone _ hgone =>
      cases hgone with
      | noInstance hinst => cases hno hinst
      | noApiKey _ hinst _ => cases hno hinst

end Headmaster.Operator.Proxy
