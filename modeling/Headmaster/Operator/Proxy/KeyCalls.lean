import Headmaster.Operator.Proxy.Runs

/-!
# What is called about keys

Of a reconcile, only `ensureAuthKey` mints keys, saves and deletes them. These
calls take one of few courses, whatever the answers (`Handling`), and where it
ends with an error, the key that it has got was told to go (`ensureAuthKey_ends`).

A reconcile comes to a key in one way (`KeyWalk`), and goes on from it by writing
the state Secret (`keyWalk_savesRefWithKey`).
-/

namespace Headmaster.Operator.Proxy

open Process (Made Prog)
open Process.Prog (Uses wp_bind wp_bind_op)

/-! ## Calls about keys -/

/-- A key is saved. -/
def Op.savesKey : Op → Bool
  | .apply _ (.secret _ data) => data.any fun item => item.1 == "key"
  | _ => false

/-- A key is minted, saved or deleted. -/
def Op.isKeyCall : Op → Bool
  | .createPreAuthKey _ _ | .deletePreAuthKey _ _ => true
  | o => o.savesKey

/-- What a proxy is registered with is written. -/
def Op.savesRef : Op → Bool
  | .apply _ (.secret _ data) => data.any fun item => item.1 == "headscale_ref"
  | _ => false

/-- The calls about keys. -/
def keyCalls (tr : List (Made sig)) : List (Made sig) := tr.filter fun c => Op.isKeyCall c.op

theorem keyCalls_cons_of_not {c : Made sig} (h : Op.isKeyCall c.op = false) (tr : List (Made sig)) :
    keyCalls (c :: tr) = keyCalls tr := by
  refine List.filter_cons_of_neg ?_
  rw [h]
  exact Bool.false_ne_true

theorem keyCalls_cons {c : Made sig} (h : Op.isKeyCall c.op = true) (tr : List (Made sig)) :
    keyCalls (c :: tr) = c :: keyCalls tr := List.filter_cons_of_pos h

theorem mem_keyCalls {c : Made sig} (h : Op.isKeyCall c.op = true) {tr : List (Made sig)} :
    c ∈ keyCalls tr ↔ c ∈ tr := by
  rw [keyCalls, List.mem_filter]
  exact and_iff_left h

/-- Headscale has returned a key. -/
def keyCreated (headscale : AuthenticatedClient) (request : CreatePreAuthKeyRequest)
    (key : PreAuthKey) : Made sig := ⟨.createPreAuthKey headscale request, .ok (some key)⟩

/-- A key was to be saved. -/
def keySaved (child : ChildApplier) (name : String) (key : PreAuthKey) (r : Except KubeError Unit) :
    Made sig := ⟨.apply child (.secret name [("key", .utf8 key.key)]), r⟩

/-- A key was to be deleted. -/
def keyDeleted (headscale : AuthenticatedClient) (key : PreAuthKey) (r : Except Status Unit) :
    Made sig := ⟨.deletePreAuthKey headscale key.id, r⟩

/-- The calls about keys that a reconcile may have made, the latest first. -/
inductive Handling : List (Made sig) → Prop
  | none : Handling []
  | refused (headscale : AuthenticatedClient) (request : CreatePreAuthKeyRequest)
    (r : Except Status (Option PreAuthKey)) (hr : ∀ key, r ≠ .ok (some key)) :
    Handling [⟨.createPreAuthKey headscale request, r⟩]
  | created (headscale : AuthenticatedClient) (request : CreatePreAuthKeyRequest)
    (key : PreAuthKey) : Handling [keyCreated headscale request key]
  | saved (headscale : AuthenticatedClient) (request : CreatePreAuthKeyRequest) (key : PreAuthKey)
    (child : ChildApplier) (name : String) (r : Except KubeError Unit) :
    Handling [keySaved child name key r, keyCreated headscale request key]
  /-- Only a key that is said not to be saved is deleted. -/
  | deleted (headscale : AuthenticatedClient) (request : CreatePreAuthKeyRequest) (key : PreAuthKey)
    (child : ChildApplier) (name : String) (e : KubeError) (r : Except Status Unit) :
    Handling [keyDeleted headscale key r, keySaved child name key (.error e),
      keyCreated headscale request key]

/-- A call that is not about keys, or that takes them on their course. -/
def KeepsCourse (tr : List (Made sig)) (o : Op) : Prop := ∀ a, Handling (keyCalls (⟨o, a⟩ :: tr))

/-- Whatever key was created has been told to go. -/
def KeysDropped (tr : List (Made sig)) : Prop := ∀ headscale request key,
  keyCreated headscale request key ∈ tr → ∃ r, keyDeleted headscale key r ∈ tr

section Steps

variable {tr : List (Made sig)} {α β : Type} {parent : ObjectReference}
  {headscale : AuthenticatedClient} {child : ChildApplier} {names : ProxyNames}

/-- Only calls that are not about keys. -/
abbrev NoKeys (p : M α) : Prop := p.Uses fun o => Op.isKeyCall o = false

/-- Nothing is done to keys, and no Secret is written. -/
def Keyless (a : Area) : Prop := a ≠ .key ∧ ∀ name, a ≠ .secret name

theorem not_key_of_keyless {o : Op} (ho : Within Keyless o) :
    Op.isKeyCall o = false ∧ Op.savesRef o = false := by
  match o, ho with
  | .createPreAuthKey _ _, ho | .deletePreAuthKey _ _, ho => exact absurd rfl (ho _ rfl).1
  | .apply _ (.secret name _), ho => exact absurd rfl ((ho _ rfl).2 name)
  | .apply _ (.service _ _), _ | .apply _ (.configMap _ _), _ | .apply _ (.serviceAccount _), _
  | .apply _ (.role _ _), _ | .apply _ (.roleBinding _), _ | .apply _ (.statefulSet _ _), _
  | .apply _ (.networkPolicy _), _ | .getSecret _, _ | .getInstance _, _ | .getService _ _, _
  | .listServices, _ | .getWgService _, _ | .getNamespace _, _ | .getPod _, _ | .getParent _, _
  | .delete _ _, _ | .patchParent _ _, _ | .applyOverride _, _ | .publish _ _, _ | .connect _, _
  | .getNode _ _, _ | .deleteNode _ _, _ | .setTags _ _ _, _ | .listUsers _ _, _ | .now, _
  | .join _, _ => exact ⟨rfl, rfl⟩

theorem noKeys_of_keyless {p : M α} (hp : p.Uses (Within Keyless)) : NoKeys p :=
  hp.mono fun _ ho => (not_key_of_keyless ho).1

/-- Without calls about keys, nothing changes about them. -/
theorem NoKeys.wp {p : M α} (hp : NoKeys p) (h : Handling (keyCalls tr)) :
    p.wp (.tracing KeepsCourse) (fun _ tr' => keyCalls tr' = keyCalls tr) tr := by
  induction p generalizing tr with
  | ret r => rfl
  | call o k ih =>
    have hsame (a : sig.Ans o) : keyCalls (⟨o, a⟩ :: tr) = keyCalls tr :=
      keyCalls_cons_of_not (c := ⟨o, a⟩) hp.1 tr
    refine ⟨fun a => (hsame a).symm ▸ h, fun a tr' htr => ?_⟩
    obtain rfl : tr' = ⟨o, a⟩ :: tr := htr
    exact hsame a ▸ ih a (hp.2 a) ((hsame a).symm ▸ h)

/-- What is guaranteed of the calls about keys of a process that ends with `r`. -/
def Ends (r : Except Error α) (tr : List (Made sig)) : Prop :=
  Handling (keyCalls tr) ∧ ∀ e, r = .error e → KeysDropped (keyCalls tr)

theorem handling_create (headscale : AuthenticatedClient) (request : CreatePreAuthKeyRequest)
    (r : Except Status (Option PreAuthKey)) :
    Handling [⟨.createPreAuthKey headscale request, r⟩] := by
  match r with
  | .ok (some key) => exact .created headscale request key
  | .ok none | .error _ => exact .refused headscale request _ nofun

/-- Where no key was created, there is nothing to drop. -/
theorem dropped_refused {request : CreatePreAuthKeyRequest} {r : Except Status (Option PreAuthKey)}
    (hr : ∀ key, r ≠ .ok (some key)) : KeysDropped [⟨.createPreAuthKey headscale request, r⟩] := by
  intro headscale' request' key hmem
  have heq := List.mem_singleton.1 hmem
  cases heq
  exact absurd rfl (hr key)

theorem ends_of_eq {r : Except Error α} {l : List (Made sig)} (h : keyCalls tr = l)
    (hl : Handling l) (hdropped : ∀ e, r = .error e → KeysDropped l) : Ends r tr := by
  subst h
  exact ⟨hl, hdropped⟩

theorem mintAuthKey_ends {request : CreatePreAuthKeyRequest} (h : keyCalls tr = []) :
    (mintAuthKey headscale child names request).wp (.tracing KeepsCourse) Ends tr := by
  have hcreate (r : Except Status (Option PreAuthKey)) :
      keyCalls (⟨.createPreAuthKey headscale request, r⟩ :: tr) =
        [⟨.createPreAuthKey headscale request, r⟩] := by
    rw [keyCalls_cons rfl, h]
  refine wp_bind_op.2 ⟨fun r => (hcreate r).symm ▸ handling_create headscale request r, fun r => ?_⟩
  -- Without a key the reconcile fails, with nothing to drop.
  have hrefused (e : Error) (hr : ∀ key, r ≠ .ok (some key)) :
      Ends (.error e : Except Error Unit) (⟨.createPreAuthKey headscale request, r⟩ :: tr) :=
    ends_of_eq (hcreate r) (.refused headscale request r hr) fun _ _ => dropped_refused hr
  match r with
  | .error s => exact hrefused _ nofun
  | .ok none => exact hrefused _ nofun
  | .ok (some key) =>
    have hsave (r : Except KubeError Unit) :
        keyCalls (keySaved child names.configSecretName key r ::
          keyCreated headscale request key :: tr) =
            [keySaved child names.configSecretName key r, keyCreated headscale request key] := by
      rw [keyCalls_cons rfl]
      exact congrArg _ (hcreate _)
    refine wp_bind.2 ?_
    simp only [fromStatus, Except.mapError, Prog.wp_ofExcept, Process.Post.andThen_ok]
    refine wp_bind.2 (Prog.wp_attempt.2 (wp_bind_op.2 ⟨fun r => ?_, fun r => ?_⟩))
    · exact (hsave r).symm ▸ .saved headscale request key child names.configSecretName r
    · match r with
      | .ok () =>
        exact ends_of_eq (hsave (.ok ()))
          (.saved headscale request key child names.configSecretName (.ok ())) nofun
      | .error e =>
        -- the key goes again
        have hdelete (r : Except Status Unit) :
            keyCalls (keyDeleted headscale key r ::
              keySaved child names.configSecretName key (.error e) ::
                keyCreated headscale request key :: tr) =
              [keyDeleted headscale key r, keySaved child names.configSecretName key (.error e),
                keyCreated headscale request key] := by
          rw [keyCalls_cons rfl]
          exact congrArg _ (hsave _)
        have hhandling (r : Except Status Unit) :=
          Handling.deleted headscale request key child names.configSecretName e r
        refine wp_bind_op.2 ⟨fun r => (hdelete r).symm ▸ hhandling r, fun r => ?_⟩
        refine ends_of_eq (hdelete r) (hhandling r) fun _ _ headscale' request' key' hmem => ⟨r, ?_⟩
        simp only [List.mem_cons, List.not_mem_nil, or_false] at hmem
        rcases hmem with heq | heq | heq
        · cases heq
        · cases heq
        · cases heq
          exact List.mem_cons_self

/-- Without calls about keys, no key is left. -/
theorem NoKeys.ends {p : M α} (hp : NoKeys p) (h : keyCalls tr = []) :
    p.wp (.tracing KeepsCourse) (fun _ tr' => keyCalls tr' = []) tr := by
  rw [← h]
  exact hp.wp (h ▸ .none)

theorem ends_of_nil {r : Except Error α} (h : keyCalls tr = []) : Ends r tr :=
  ends_of_eq h .none fun _ _ _ _ _ hmem => nomatch hmem

/-- What comes before the calls about keys. -/
theorem NoKeys.bind_ends {p : M α} {f : α → M β} (hp : NoKeys p)
    (hf : ∀ a tr, keyCalls tr = [] → (f a).wp (.tracing KeepsCourse) Ends tr)
    (h : keyCalls tr = []) : (p >>= f).wp (.tracing KeepsCourse) Ends tr := by
  refine wp_bind.2 (Prog.wp_mono (fun r tr' htr => ?_) (hp.ends h))
  match r with
  | .ok a => exact hf a tr' htr
  | .error e => exact ends_of_nil htr

variable {user : Option String} {managedKeyTags : List String} {autoTag : Option String}
  {expirySecs : Nat} {reusable ephemeral : Bool}

/-- A key is only minted when there is none, and it goes when it is said not to be saved. -/
theorem ensureAuthKey_ends (h : keyCalls tr = []) :
    (ensureAuthKey parent headscale child names user managedKeyTags autoTag expirySecs reusable
      ephemeral).wp (.tracing KeepsCourse) Ends tr := by
  -- Everything before the mint leaves the calls about keys empty.
  refine NoKeys.bind_ends (noKeys_of_keyless within_existingAuthKey) (fun key tr h => ?_) h
  split
  · exact ends_of_nil h
  · refine NoKeys.bind_ends (noKeys_of_keyless (within_quiet rfl)) (fun now tr h => ?_) h
    refine NoKeys.bind_ends (noKeys_of_keyless within_userIdOf) (fun userId tr h => ?_) h
    cases userId with
    | none => exact ends_of_nil h
    | some userId =>
      refine wp_bind.2 (Prog.wp_mono (fun r tr' hends => ?_) (mintAuthKey_ends h))
      match r with
      | .ok () => exact ⟨hends.1, nofun⟩
      | .error e => exact ⟨hends.1, fun _ _ => hends.2 e rfl⟩

/-! ### Whole reconciles -/

/-- What holds of a reconcile by how it comes to a key. -/
structure KeyWalk (names : ProxyNames) (P : {α : Type} → M α → Prop) : Prop where
  last : ∀ {α : Type} {p : M α}, p.Uses (Within Keyless) → P p
  bind : ∀ {α β : Type} {p : M α} {f : α → M β}, p.Uses (Within Keyless) → (∀ a, P (f a)) →
    P (p >>= f)
  andThen : ∀ {α β : Type} {p : M α} {f : α → M β}, P p → (∀ a, (f a).Uses (Within Keyless)) →
    P (p >>= f)
  /-- With a key, the state Secret is written next. -/
  ensure : ∀ {parent : ObjectReference} {headscale : AuthenticatedClient} {child : ChildApplier}
    {user : Option String} {managedKeyTags : List String} {autoTag : Option String}
    {expirySecs : Nat} {reusable ephemeral : Bool} {α : Type} {f : AuthKeyStatus → M α}
    {child' : ChildApplier} {ref : String} {g : Secret → M α},
    (f .waitingForUser).Uses (Within Keyless) →
    f .ready = ensureStateSecret child' names ref >>= g →
    (∀ stateSecret, (g stateSecret).Uses (Within Keyless)) →
    P (ensureAuthKey parent headscale child names user managedKeyTags autoTag expirySecs reusable
      ephemeral >>= f)

namespace KeyWalk

variable {read : Reader} {digest : Digest} {dep : Deployment} {P : {α : Type} → M α → Prop}
  {annotations : IngressAnnotations} {inst : Instance} {hostNetwork : Bool}

/-- Up to the key: the instance is connected to, and what is stale goes. -/
theorem connect {opNs ref : String} {p : AuthenticatedClient → M α} (h : KeyWalk names P)
    (hp : ∀ headscale, P (p headscale)) :
    P ((headscaleConnect opNs ref).mapError .kube >>= p) :=
  h.bind (.mapError (within_headscaleConnect opNs ref)) hp

theorem renew {opNs ref : String} {expirySecs : Nat} {p : M α} (h : KeyWalk names P) (hp : P p) :
    P (resetIfRetargeted opNs names ref >>= fun _ =>
      rotateStaleAuthKey parent headscale names expirySecs >>= fun _ => p) :=
  h.bind (within_resetIfRetargeted ⟨nofun, fun _ => nofun⟩ ⟨nofun, fun _ => nofun⟩) fun _ =>
    h.bind (within_rotateStaleAuthKey ⟨nofun, fun _ => nofun⟩ ⟨nofun, fun _ => nofun⟩) fun _ => hp

theorem provision {ing : RoutedIngress} {routes : List ProxyRoute}
    (h : KeyWalk (ing.names digest) P) :
    P (ing.provision read digest dep annotations inst hostNetwork routes) := by
  refine h.connect fun headscale => ?_
  refine h.bind (within_applyWireguardService ⟨nofun, fun _ => nofun⟩) fun networking => ?_
  refine h.renew (h.ensure (within_pure _) rfl fun stateSecret => ?_)
  exact .bind (within_apply rfl ⟨nofun, fun _ => nofun⟩) fun _ =>
    .bind within_applyProxyRbac fun _ => .bind (within_apply rfl ⟨nofun, fun _ => nofun⟩) fun _ =>
      .bind (within_syncTags ⟨nofun, fun _ => nofun⟩) fun _ =>
        .bind RoutedIngress.within_report fun _ =>
          .bind (within_claim ⟨nofun, fun _ => nofun⟩) fun _ => within_pure _

theorem provisionEgress {svc : PortedService} {tailnetFqdn : String} {forwards : List (Int × Int)}
    (h : KeyWalk (svc.names digest) P) :
    P (svc.provisionEgress read digest dep annotations tailnetFqdn forwards inst) := by
  refine h.connect fun headscale => ?_
  refine h.renew (h.ensure (within_pure _) rfl fun stateSecret => ?_)
  exact .bind (within_apply rfl ⟨nofun, fun _ => nofun⟩) fun _ =>
    .bind within_applyProxyRbac fun _ => .bind (within_apply rfl ⟨nofun, fun _ => nofun⟩) fun _ =>
      .bind (within_applyConsumerPolicy ⟨nofun, fun _ => nofun⟩) fun _ =>
        .bind (within_claim ⟨nofun, fun _ => nofun⟩) fun _ =>
          .bind (within_syncTags ⟨nofun, fun _ => nofun⟩) fun _ =>
            .bind PortedService.within_report fun _ =>
              .bind (within_syncEgressDns ⟨nofun, fun _ => nofun⟩) fun _ => within_pure _

theorem provisionExpose {svc : PortedService} {ports : List Int} {clusterIp : Option String}
    (h : KeyWalk (svc.names digest) P) :
    P (svc.provisionExpose read digest dep annotations hostNetwork ports clusterIp inst) := by
  refine h.connect fun headscale => ?_
  refine h.renew (h.ensure (within_pure _) rfl fun stateSecret => ?_)
  exact .bind (within_applyWireguardService ⟨nofun, fun _ => nofun⟩) fun _ =>
    .bind within_applyProxyRbac fun _ =>
      .bind (PortedService.within_applyExposeProxy ⟨nofun, fun _ => nofun⟩ ⟨nofun, fun _ => nofun⟩)
        fun _ => .bind (within_deleteIgnoring404 rfl ⟨nofun, fun _ => nofun⟩) fun _ =>
          .bind (within_claim ⟨nofun, fun _ => nofun⟩) fun _ =>
            .bind (within_syncTags ⟨nofun, fun _ => nofun⟩) fun _ =>
              .bind PortedService.within_report fun _ => within_pure _

/-- What holds by how it comes to a key holds of a reconcile. -/
theorem reconcile {t : Turn} (h : KeyWalk (t.names digest) P) :
    P (t.reconcile read digest dep) := by
  have hquiet {α : Type} {p : M α} (hp : Quiet p) : p.Uses (Within Keyless) :=
    hp.mono fun _ ho => ho.mono fun _ ha => ha.elim
  have hleaving {p : M Unit} (hp : Leaving read digest dep t p) : p.Uses (Within Keyless) :=
    hp.within ⟨nofun, fun _ => nofun⟩ ⟨nofun, fun _ => nofun⟩ ⟨nofun, fun _ => nofun⟩
      ⟨nofun, fun _ => nofun⟩ ⟨nofun, fun _ => nofun⟩
  have hwalk : Walk read digest dep t (fun p => p.Uses (Within Keyless)) P := {
    quiet := hquiet
    last := h.last
    bind := h.bind
    andThen := fun hp hf => h.andThen hp fun a => hquiet (hf a)
    leave := fun hp _ => h.last (hleaving hp)
    leaveInSync := fun hp _ hq hr => h.last (.bind (hleaving hp) fun _ => .bind (hquiet hq) fun _ =>
      .bind (within_syncEgressDns ⟨nofun, fun _ => nofun⟩) fun _ => hquiet hr)
    ingress := fun ht _ => by
      subst ht
      exact provision h
    egress := fun ht _ _ _ => by
      subst ht
      exact provisionEgress h
    expose := fun ht _ _ _ => by
      subst ht
      exact provisionExpose h }
  exact hwalk.reconcile

end KeyWalk

/-! ### The course of a key -/

/-- From no calls about keys, all of them are on course. -/
def OnCourse (p : M α) : Prop := ∀ tr, keyCalls tr = [] →
  p.wp (.tracing KeepsCourse) (fun _ tr' => Handling (keyCalls tr')) tr

theorem handling_of_nil (h : keyCalls tr = []) : Handling (keyCalls tr) := by
  rw [h]
  exact .none

theorem OnCourse.andThen {p : M α} {f : α → M β} (hp : OnCourse p) (hf : ∀ a, NoKeys (f a)) :
    OnCourse (p >>= f) := by
  refine fun tr h => wp_bind.2 (Prog.wp_mono (fun r tr' htr => ?_) (hp tr h))
  match r with
  | .ok a =>
    refine Prog.wp_mono (fun _ tr'' hsame => ?_) ((hf a).wp htr)
    exact hsame ▸ htr
  | .error e => exact htr

theorem NoKeys.bind_onCourse {p : M α} {f : α → M β} (hp : NoKeys p) (hf : ∀ a, OnCourse (f a)) :
    OnCourse (p >>= f) := by
  refine fun tr h => wp_bind.2 (Prog.wp_mono (fun r tr' htr => ?_) (hp.ends h))
  match r with
  | .ok a => exact hf a tr' htr
  | .error e => exact handling_of_nil htr

theorem NoKeys.onCourse {p : M α} (hp : NoKeys p) : OnCourse p :=
  fun _ h => Prog.wp_mono (fun _ _ htr => handling_of_nil htr) (hp.ends h)

theorem noKeys_ensureStateSecret {ref : String} : NoKeys (ensureStateSecret child names ref) :=
  .bind (.bind (Prog.uses_op rfl) fun _ => trivial) fun _ =>
    .bind (Prog.uses_op rfl) fun _ => trivial

theorem keyWalk_onCourse : KeyWalk names fun p => OnCourse p where
  last hp := (noKeys_of_keyless hp).onCourse
  bind hp hf := (noKeys_of_keyless hp).bind_onCourse hf
  andThen hp hf := hp.andThen fun a => noKeys_of_keyless (hf a)
  ensure hwaiting hready hrest := by
    refine OnCourse.andThen (fun tr h => ?_) fun status => ?_
    · exact Prog.wp_mono (fun _ _ hends => hends.1) (ensureAuthKey_ends h)
    · cases status with
      | waitingForUser => exact noKeys_of_keyless hwaiting
      | ready =>
        rw [hready]
        exact .bind noKeys_ensureStateSecret fun stateSecret =>
          noKeys_of_keyless (hrest stateSecret)

/-! ### With a key -/

/-- In a reconcile, `ensureAuthKey` has just returned, after the calls `mid`. -/
def EnsureReturned (names : ProxyNames) (p : M α) (tr mid : List (Made sig))
    (r : Except Error AuthKeyStatus) : Prop :=
  ∃ parent headscale child user managedKeyTags autoTag expirySecs reusable ephemeral,
    p.Returned tr (ensureAuthKey parent headscale child names user managedKeyTags autoTag expirySecs
      reusable ephemeral) mid r

theorem EnsureReturned.left {p : M α} {f : α → M β} {mid : List (Made sig)}
    {r : Except Error AuthKeyStatus} (h : EnsureReturned names p tr mid r) :
    EnsureReturned names (p >>= f) tr mid r := by
  obtain ⟨parent, headscale, child, user, tags, autoTag, secs, reusable, ephemeral, h⟩ := h
  exact ⟨parent, headscale, child, user, tags, autoTag, secs, reusable, ephemeral, h.left⟩

theorem EnsureReturned.right {p : M α} {f : α → M β} {a : α} {tr' mid : List (Made sig)}
    {r : Except Error AuthKeyStatus} (h : EnsureReturned names (f a) tr' mid r)
    (hp : p.Leads tr (.ret (.ok a))) : EnsureReturned names (p >>= f) (tr' ++ tr) mid r := by
  obtain ⟨parent, headscale, child, user, tags, autoTag, secs, reusable, ephemeral, h⟩ := h
  exact ⟨parent, headscale, child, user, tags, autoTag, secs, reusable, ephemeral, h.right hp⟩

/-- A state Secret is only written when a key has been got, or found. -/
def SavesRefWithKey (names : ProxyNames) (p : M α) : Prop :=
  ∀ tr o k, p.Leads tr (.call o k) → Op.savesRef o = true →
    ∃ mid, EnsureReturned names p tr mid (.ok .ready)

theorem not_savesRef_ensureAuthKey {user : Option String} {managedKeyTags : List String}
    {autoTag : Option String} {expirySecs : Nat} {reusable ephemeral : Bool} :
    (ensureAuthKey parent headscale child names user managedKeyTags autoTag expirySecs reusable
      ephemeral).Uses fun o => Op.savesRef o = false := by
  have hkeyless {α : Type} {p : M α} (hp : p.Uses (Within Keyless)) :
      p.Uses fun o => Op.savesRef o = false := hp.mono fun _ ho => (not_key_of_keyless ho).2
  refine .bind (hkeyless within_existingAuthKey) fun key => ?_
  split
  · exact trivial
  · refine .bind (hkeyless (within_quiet rfl)) fun now => ?_
    refine .bind (hkeyless within_userIdOf) fun userId => ?_
    match userId with
    | none => exact trivial
    | some userId =>
      refine .bind (.bind (Prog.uses_op rfl) fun _ => .bind trivial fun preAuthKey => ?_)
        fun _ => trivial
      match preAuthKey with
      | none => exact trivial
      | some preAuthKey =>
        refine .bind (.attempt (.bind (Prog.uses_op rfl) fun _ => trivial)) fun saved => ?_
        match saved with
        | .ok () => exact trivial
        | .error e => exact .bind (Prog.uses_op rfl) fun _ => trivial

theorem firstOnly_ensureStateSecret {ref : String} :
    (ensureStateSecret child names ref).FirstOnly fun o => Op.savesRef o = false :=
  .bind (.bind (Prog.firstOnly_op _) fun _ => trivial) fun _ =>
    .bind (Prog.uses_op rfl) fun _ => trivial

theorem not_savesRef_of_leads {p : M α} {o : Op} {k : o.Ans → M α} (hp : p.Uses (Within Keyless))
    (h : p.Leads tr (.call o k)) : ¬Op.savesRef o = true := by
  rw [(not_key_of_keyless (h.uses hp).1).2]
  exact Bool.false_ne_true

/-- It is what comes next. -/
theorem keyWalk_savesRefWithKey : KeyWalk names fun p => SavesRefWithKey names p where
  last hp _ _ _ h ho := absurd ho (not_savesRef_of_leads hp h)
  bind hp hf tr o k h ho := by
    rcases h.of_bind with ⟨k', hk'⟩ | ⟨a, tr₁, tr₂, rfl, hend, hnext⟩
    · exact absurd ho (not_savesRef_of_leads hp hk')
    · obtain ⟨mid, hready⟩ := hf a tr₂ o k hnext ho
      exact ⟨mid, hready.right hend⟩
  andThen hp hf tr o k h ho := by
    rcases h.of_bind with ⟨k', hk'⟩ | ⟨a, tr₁, tr₂, _, _, hnext⟩
    · exact (hp tr o k' hk' ho).imp fun mid hready => hready.left
    · exact absurd ho (not_savesRef_of_leads (hf a) hnext)
  ensure hwaiting hready hrest tr o k h ho := by
    rcases h.of_bind with ⟨k', hk'⟩ | ⟨status, tr₁, tr₂, rfl, hend, hnext⟩
    · have hnot := (hk'.uses not_savesRef_ensureAuthKey).1
      exact absurd ho (hnot ▸ Bool.false_ne_true)
    · cases status with
      | waitingForUser => exact absurd ho (not_savesRef_of_leads hwaiting hnext)
      | ready =>
        rw [hready] at hnext
        obtain rfl : tr₂ = [] := by
          refine Prog.FirstOnly.bind firstOnly_ensureStateSecret (fun stateSecret => ?_) tr₂ o k
            hnext ?_
          · exact (hrest stateSecret).mono fun _ ho => (not_key_of_keyless ho).2
          · exact Bool.not_eq_false _ ▸ ho
        exact ⟨tr₁, _, _, _, _, _, _, _, _, _, .here hend⟩

end Steps

end Headmaster.Operator.Proxy
