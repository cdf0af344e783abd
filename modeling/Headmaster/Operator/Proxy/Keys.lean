import Headmaster.Operator.Proxy.Runs

/-!
# Whose key a proxy logs in with

The key of a proxy is in one Secret, and the instance it was minted by is told
by another one, the state Secret, which is written later. An object that moves
to another instance in between is not found to have moved.

* `ownKey_of_settled`: a proxy logs in with a key of the instance that it logs
  in to, if no key of another one is left without a state Secret (`settled`);
* `foreignKey_on_failure`: when the state Secret could not be written and the
  object then moves, its proxy gets the key of the old instance.
-/

namespace Headmaster.Operator.Proxy

open Process (Made Pool Setting)
open Process.Machine (ActsInTurn InTurn Triple)

/-! ## Keys -/

namespace Cluster

variable (w : Cluster) (names : ProxyNames)

/-- The key that a proxy would use. -/
def authKey : Option String := (w.secrets names.configSecretName).bind extractAuthKey

/-- The headscale of an instance has minted the key for the proxy. -/
def mintedBy (key ref : String) : Bool :=
  (w.minted names.configSecretName).any fun m => m.key == key && m.instanceName == ref

/-- The instance that a proxy is for, as its state Secret says, if there is one. -/
def stateRef : Option (Option String) := (w.secrets names.stateSecretName).map headscaleRef

/-- The key, if there is one, is of that instance. -/
def OwnKey (ref : String) : Prop := ∀ key ∈ w.authKey names, w.mintedBy names key ref = true

/-- A state Secret says who has minted the key. -/
def Told : Prop := ∀ r ∈ w.stateRef names, ∃ ref, r = some ref ∧ w.OwnKey names ref

/-- The proxy is for that instance alone. -/
def For (ref : String) : Prop := w.OwnKey names ref ∧ ∀ r ∈ w.stateRef names, r = some ref

end Cluster

/-- Nobody turns to another instance than the key's while there is no state Secret. -/
def settled (names : ProxyNames) (w : Cluster) : Op → Bool
  | .connect headscale => (w.stateRef names).isSome ||
    (w.authKey names).all fun key => w.mintedBy names key headscale.instanceName
  | _ => true

/-- Others leave the key alone, and write of the state Secret what the pod does; headscale may mint
    keys for others. -/
def keepingKey (names : ProxyNames) : Setting Cluster where
  others v w := w.secrets names.configSecretName = v.secrets names.configSecretName ∧
    w.stateRef names = v.stateRef names ∧
    v.minted names.configSecretName ⊆ w.minted names.configSecretName
  refl _ := ⟨rfl, rfl, List.Subset.refl _⟩
  trans h h' := ⟨h'.1.trans h.1, h'.2.1.trans h.2.1, List.Subset.trans h.2.2 h'.2.2⟩
  inv w := w.Told names
  stable v w hv h := by
    intro r hr
    obtain ⟨ref, hrefl, hown⟩ := hv r (h.2.1 ▸ hr)
    refine ⟨ref, hrefl, fun key hkey => ?_⟩
    rw [Cluster.authKey, h.1] at hkey
    obtain ⟨m, hm, hmint⟩ := List.any_eq_true.1 (hown key hkey)
    exact List.any_eq_true.2 ⟨m, h.2.2 hm, hmint⟩

/-- A proxy starts with a key of the instance that it logs in to. -/
def logsInOwn (read : Reader) (digest : Digest) (dep : Deployment) (t : Turn) (w : Cluster) :
    Op → Prop
  | .apply _ (.statefulSet _ spec) => ∃ annotations inst key,
    IngressAnnotations.parse read t.metadata = .ok annotations ∧
    spec.headscaleUrl = Instance.loginUrl inst dep.operatorNamespace annotations.headscaleRef ∧
    w.authKey (t.names digest) = some key ∧
    w.mintedBy (t.names digest) key annotations.headscaleRef = true
  | _ => True

section Steps

variable {read : Reader} {digest : Digest} {dep : Deployment} {t : Turn} {v w : Cluster}
  {ref opNs : String} {α : Type} {p : M α} {P : Cluster → Prop}

/-! ### What is kept -/

theorem mintedBy_mono {names : ProxyNames} {key : String} (h : (keepingKey names).others v w)
    (hkey : v.mintedBy names key ref = true) : w.mintedBy names key ref = true := by
  obtain ⟨m, hm, hmint⟩ := List.any_eq_true.1 hkey
  exact List.any_eq_true.2 ⟨m, h.2.2 hm, hmint⟩

theorem authKey_eq {names : ProxyNames} (h : (keepingKey names).others v w) :
    w.authKey names = v.authKey names := by rw [Cluster.authKey, Cluster.authKey, h.1]

theorem ownKey_stable {names : ProxyNames} : (keepingKey names).Stable fun w => w.OwnKey names ref :=
  fun _ _ hv h key hkey => mintedBy_mono h (hv key (authKey_eq h ▸ hkey))

theorem for_stable {names : ProxyNames} : (keepingKey names).Stable fun w => w.For names ref :=
  fun _ _ hv h => ⟨ownKey_stable hv.1 h, fun r hr => hv.2 r (h.2.1 ▸ hr)⟩

theorem told_of_for {names : ProxyNames} (h : w.For names ref) : w.Told names :=
  fun r hr => ⟨ref, h.2 r hr, h.1⟩

/-- What is not about keys and nodes changes nothing that others do not. -/
theorem keepingKey_of_changes {names : ProxyNames} {a : Area} (ha : a.isKnowledge = false)
    (h : v.Changes a w) : (keepingKey names).others v w := by
  have hsecrets : w.secrets = v.secrets :=
    h.secrets_eq (fun he => nomatch he ▸ ha) (fun he => nomatch he ▸ ha) fun _ he => nomatch he ▸ ha
  have hminted : w.minted = v.minted := h.minted_eq fun he => nomatch he ▸ ha
  refine ⟨congrFun hsecrets _, ?_, hminted ▸ List.Subset.refl _⟩
  rw [Cluster.stateRef, hsecrets]
  rfl

/-- Deleting Secrets leaves no other key, and tells nothing else. -/
theorem keys_of_changes (names : ProxyNames) {a : Area} (h : v.Changes a w)
    (hsecret : ∀ name, a ≠ .secret name) (hkey : a ≠ .key) :
    (w.authKey names = v.authKey names ∨ w.authKey names = none) ∧
      (w.stateRef names = v.stateRef names ∨ w.stateRef names = none) ∧ w.minted = v.minted := by
  refine ⟨?_, ?_, h.minted_eq hkey⟩
  · rcases h.secrets_apply (hsecret names.configSecretName) with hs | hs
    · exact .inl (by rw [Cluster.authKey, hs]; rfl)
    · exact .inr (by rw [Cluster.authKey, hs]; rfl)
  · rcases h.secrets_apply (hsecret names.stateSecretName) with hs | hs
    · exact .inl (by rw [Cluster.stateRef, hs]; rfl)
    · exact .inr (by rw [Cluster.stateRef, hs]; rfl)

theorem ownKey_of_changes {names : ProxyNames} {a : Area} (h : v.Changes a w)
    (hsecret : ∀ name, a ≠ .secret name) (hkey : a ≠ .key) (hv : v.OwnKey names ref) :
    w.OwnKey names ref := by
  obtain ⟨hauth, -, hminted⟩ := keys_of_changes names h hsecret hkey
  intro key hmem
  rw [Cluster.mintedBy, hminted]
  rcases hauth with hs | hs
  · exact hv key (hs ▸ hmem)
  · rw [hs] at hmem
    cases hmem

theorem told_of_changes {names : ProxyNames} {a : Area} (h : v.Changes a w)
    (hsecret : ∀ name, a ≠ .secret name) (hkey : a ≠ .key) (hv : v.Told names) : w.Told names := by
  obtain ⟨-, hstate, -⟩ := keys_of_changes names h hsecret hkey
  intro r hr
  rcases hstate with hs | hs
  · obtain ⟨ref, hrefl, hown⟩ := hv r (hs ▸ hr)
    exact ⟨ref, hrefl, ownKey_of_changes h hsecret hkey hown⟩
  · rw [hs] at hr
    cases hr

theorem for_of_changes {names : ProxyNames} {a : Area} (h : v.Changes a w)
    (hsecret : ∀ name, a ≠ .secret name) (hkey : a ≠ .key) (hv : v.For names ref) : w.For names ref := by
  obtain ⟨-, hstate, -⟩ := keys_of_changes names h hsecret hkey
  refine ⟨ownKey_of_changes h hsecret hkey hv.1, fun r hr => ?_⟩
  rcases hstate with hs | hs
  · exact hv.2 r (hs ▸ hr)
  · rw [hs] at hr
    cases hr

/-! ### Parts of a reconcile -/

/-- From a cluster with `P`, a part of a reconcile that ends with a value leaves one with `R`. -/
abbrev KeysTriple (read : Reader) (digest : Digest) (dep : Deployment) (t : Turn) (P : Cluster → Prop)
    (p : M α) (R : α → Cluster → Prop) : Prop :=
  cluster.Triple (keepingKey (t.names digest)) (fun v o => settled (t.names digest) v o)
    (fun _ => logsInOwn read digest dep t) P p R

theorem logsInOwn_of_within {Areas : Area → Prop} (hsts : ¬Areas .statefulSet) {o : Op}
    (ho : Within Areas o) : logsInOwn read digest dep t v o := by
  match o, ho with
  | .apply _ (.statefulSet _ _), ho => exact absurd (ho _ rfl) hsts
  | .apply _ (.secret _ _), _ | .apply _ (.service _ _), _ | .apply _ (.configMap _ _), _
  | .apply _ (.serviceAccount _), _ | .apply _ (.role _ _), _ | .apply _ (.roleBinding _), _
  | .apply _ (.networkPolicy _), _ | .getSecret _, _ | .getInstance _, _ | .getService _ _, _
  | .listServices, _ | .getWgService _, _ | .getNamespace _, _ | .getPod _, _ | .getParent _, _
  | .delete _ _, _ | .patchParent _ _, _ | .applyOverride _, _ | .publish _ _, _ | .connect _, _
  | .getNode _ _, _ | .deleteNode _ _, _ | .setTags _ _ _, _ | .listUsers _ _, _
  | .createPreAuthKey _ _, _ | .deletePreAuthKey _ _, _ | .now, _ | .join _, _ => exact trivial

/-- What is not about keys and nodes keeps what others keep. -/
theorem keys_within (hp : p.Uses (Within fun a => a.isKnowledge = false ∧ a ≠ .statefulSet))
    (hstable : (keepingKey (t.names digest)).Stable P) (hinv : ∀ w, P w → w.Told (t.names digest)) :
    KeysTriple read digest dep t P p fun _ => P :=
  triple_of_others hp hstable hinv
    (fun _ _ _ ho _ _ => logsInOwn_of_within (fun hsts => hsts.2 rfl) ho)
    fun _ _ _ ha hchange => keepingKey_of_changes ha.1 hchange

/-- Neither does a part that only deletes Secrets lose what is kept without them. -/
theorem keys_deleting (hp : p.Uses (Within fun a => (∀ name, a ≠ .secret name) ∧ a ≠ .key ∧
      a ≠ .statefulSet))
    (hstable : (keepingKey (t.names digest)).Stable P) (hinv : ∀ w, P w → w.Told (t.names digest))
    (hP : ∀ a v v', v.Changes a v' → (∀ name, a ≠ .secret name) → a ≠ .key → P v → P v') :
    KeysTriple read digest dep t P p fun _ => P :=
  triple_of_within hp hstable hinv
    (fun _ _ _ ho _ _ => logsInOwn_of_within (fun hsts => hsts.2.2 rfl) ho)
    fun a v v' ha hchange => hP a v v' hchange ha.1 ha.2.1

theorem keys_steady (hp : p.Uses (Within fun a => (∀ name, a ≠ .secret name) ∧ a ≠ .key ∧
      a ≠ .statefulSet)) :
    KeysTriple read digest dep t (fun w => w.Told (t.names digest)) p
      fun _ w => w.Told (t.names digest) :=
  keys_deleting hp (keepingKey _).stable (fun _ hw => hw) fun _ _ _ => told_of_changes

/-- Whoever has connected to an instance finds its key, or a state Secret. -/
def Reached (names : ProxyNames) (ref : String) (w : Cluster) : Prop :=
  w.Told names ∧ (w.stateRef names = none → w.OwnKey names ref)

theorem reached_stable {names : ProxyNames} : (keepingKey names).Stable (Reached names ref) :=
  fun _ _ hv h => ⟨(keepingKey names).stable hv.1 h, fun hnone =>
    ownKey_stable (hv.2 (h.2.1.symm.trans hnone)) h⟩

theorem keys_headscaleConnect :
    KeysTriple read digest dep t (fun w => w.Told (t.names digest))
      ((headscaleConnect opNs ref).mapError .kube)
      fun headscale w => headscale.instanceName = ref ∧ Reached (t.names digest) ref w := by
  refine Triple.mapError (triple_headscaleConnect (keepingKey (t.names digest)).stable
    (fun _ hw => hw) (fun _ _ _ ho _ _ => logsInOwn_of_within id ho) fun v headscale href hv hB => ?_)
  refine ⟨hv, fun hnone => ?_⟩
  -- there is no state Secret, so the key is of the instance
  change ((v.stateRef (t.names digest)).isSome || _) = true at hB
  rw [hnone, Option.isSome_none, Bool.false_or, href] at hB
  exact (Option.all_eq_true _ _).1 hB

/-- A Secret that is told to go is gone after, with all the rest as it was. -/
theorem keys_deleteSecret {d : Deleter} {name : String} {R : Cluster → Prop}
    (hstable : (keepingKey (t.names digest)).Stable P) (hinv : ∀ w, P w → w.Told (t.names digest))
    (hR : ∀ v, P v → R (v.setSecret name none)) :
    KeysTriple read digest dep t P (deleteIgnoring404 (.secret d) name) fun _ => R := by
  refine triple_deleteIgnoring404 hstable fun _ v hv _ => ⟨trivial, fun f => ⟨?_, fun hok => ?_⟩⟩
  · have hwithin : Within (fun a => a = .removal ∨ a = .rotation) (.delete (.secret d) name) := by
      cases d <;> exact within_some rfl (by decide)
    refine hwithin.keeps (fun a v' ha hchange => told_of_changes hchange ?_ ?_ (hinv v hv)) (hinv v hv)
    · rcases ha with rfl | rfl <;> exact nofun
    · rcases ha with rfl | rfl <;> exact nofun
  · exact Fate.serve_of_ignoring404 hok ▸ hR v hv

theorem keys_resetIfRetargeted :
    KeysTriple read digest dep t (Reached (t.names digest) ref)
      (resetIfRetargeted opNs (t.names digest) ref) fun _ w => w.For (t.names digest) ref := by
  refine triple_getSecret (R := fun o w => Reached (t.names digest) ref w ∧
    w.stateRef (t.names digest) = o.map headscaleRef) reached_stable (fun _ hw => hw.1)
    (fun _ _ _ _ => trivial) (fun v hv => ⟨hv, rfl⟩) fun stateSecret => ?_
  cases hretarget : stateSecret.bind (retargetOf ref) with
  | none =>
    refine Triple.pure fun w hw => ?_
    obtain ⟨hreached, hstate⟩ := hw
    match stateSecret with
    | none =>
      refine ⟨hreached.2 hstate, fun r hr => ?_⟩
      rw [hstate] at hr
      cases hr
    | some secret =>
      -- it is recorded with the instance it is for
      obtain ⟨own, hown, hkey⟩ := hreached.1 (headscaleRef secret) hstate
      have hsame : own = ref := by
        by_contra hne
        simp [retargetOf, hown, hne] at hretarget
      refine ⟨hsame ▸ hkey, fun r hr => ?_⟩
      obtain rfl : headscaleRef secret = r := Option.some.inj (hstate.symm.trans hr)
      rw [hown, hsame]
  | some old =>
    -- The config Secret goes first: a crash in between leaves no key for another instance.
    have hdeletes (u : Unit) : KeysTriple read digest dep t (fun w => w.Told (t.names digest)) (do
        deleteIgnoring404 (.secret .retarget) (t.names digest).configSecretName
        deleteIgnoring404 (.secret .retarget) (t.names digest).stateSecretName)
        fun _ w => w.For (t.names digest) ref := by
      refine Triple.bind (R := fun _ w => w.Told (t.names digest) ∧
        w.authKey (t.names digest) = none) ?_ fun _ => ?_
      · refine keys_deleteSecret (keepingKey _).stable (fun _ hw => hw) fun v hv => ⟨?_, ?_⟩
        · exact told_of_changes (.removed _) (fun _ => nofun) nofun hv
        · rw [Cluster.authKey, Cluster.secrets_setSecret]
          rfl
      · refine keys_deleteSecret (fun v w hv h => ⟨(keepingKey _).stable hv.1 h, ?_⟩)
          (fun _ hw => hw.1) fun v hv => ⟨fun key hkey => ?_, fun r hr => ?_⟩
        · exact (authKey_eq h).trans hv.2
        · rcases (keys_of_changes _ (.removed _) (fun _ => nofun) nofun).1 with hs | hs
          · rw [hs, hv.2] at hkey
            cases hkey
          · rw [hs] at hkey
            cases hkey
        · rw [Cluster.stateRef, Cluster.secrets_setSecret] at hr
          cases hr
    dsimp only
    split
    · refine Triple.mono ?_ (fun w hw => hw.1.1) fun _ _ hw => hw
      refine Triple.bind (keys_steady (within_deregisterOld ⟨nofun, nofun, nofun⟩)) hdeletes
    · exact (hdeletes ()).mono (fun w hw => hw.1.1) fun _ _ hw => hw

/-! ### A new key -/

/-- A key that is applied is the one that is there. -/
theorem authKey_setSecret {names : ProxyNames} {key : String} (hkey : key ≠ "") :
    (w.setSecret names.configSecretName
      (some (w.appliedSecret names.configSecretName [("key", .utf8 key)]))).authKey names =
        some key := by
  rw [Cluster.authKey, Cluster.secrets_setSecret, Option.bind_some, extractAuthKey,
    readSecretString_appliedSecret]
  simp [hkey]

/-- The state Secret says what is applied to it. -/
theorem stateRef_setSecret {names : ProxyNames} :
    (w.setSecret names.stateSecretName
      (some (w.appliedSecret names.stateSecretName [("headscale_ref", .utf8 ref)]))).stateRef names =
        some (some ref) := by
  rw [Cluster.stateRef, Cluster.secrets_setSecret, Option.map_some, headscaleRef,
    readSecretString_appliedSecret]

/-- The proxy is for that instance, and has its key. -/
def Keyed (names : ProxyNames) (ref : String) (w : Cluster) : Prop :=
  w.For names ref ∧ (w.authKey names).isSome = true

theorem keyed_stable {names : ProxyNames} : (keepingKey names).Stable (Keyed names ref) :=
  fun _ _ hv h => ⟨for_stable hv.1 h, authKey_eq h ▸ hv.2⟩

variable {headscale : AuthenticatedClient} {child : ChildApplier}

theorem told_of_keyed {names : ProxyNames} (h : Keyed names ref w) : w.Told names := told_of_for h.1

/-- The key that headscale mints is of its instance. -/
theorem keys_createPreAuthKey {request : CreatePreAuthKeyRequest}
    (hfor : request.configSecretName = (t.names digest).configSecretName) :
    KeysTriple read digest dep t (fun w => w.For (t.names digest) headscale.instanceName)
      (call (.createPreAuthKey headscale request)) fun r w =>
        w.For (t.names digest) headscale.instanceName ∧ ∀ key, r = .ok (some key) → key.key ≠ "" ∧
          w.mintedBy (t.names digest) key.key headscale.instanceName = true := by
  refine Triple.op for_stable fun _ v hv _ => ⟨trivial, fun f => ?_⟩
  have hmore (m : Mint) : (keepingKey (t.names digest)).others v
      (v.recordMint request.configSecretName m) := by
    refine ⟨rfl, rfl, ?_⟩
    rw [hfor, Cluster.minted_recordMint]
    exact List.subset_cons_self _ _
  have hmint (r : Except Status (Option PreAuthKey)) :
      (v.mint headscale request r).2.For (t.names digest) headscale.instanceName := by
    rw [Cluster.mint.eq_def]
    split
    · exact hv
    · split
      · exact hv
      · exact for_stable hv (hmore _)
  have hminted := hmint (f.answer (.createPreAuthKey headscale request))
  refine ⟨told_of_for hminted, hminted, fun key hkey => ?_⟩
  obtain ⟨hempty, hafter⟩ := mint_ok hkey
  refine ⟨hempty, ?_⟩
  change (v.mint headscale request _).2.mintedBy _ _ _ = true
  rw [hafter, Cluster.mintedBy, hfor, Cluster.minted_recordMint]
  simp

theorem keys_applyConfigSecret {key : String} (hkey : key ≠ "") :
    KeysTriple read digest dep t
      (fun w => w.For (t.names digest) ref ∧ w.mintedBy (t.names digest) key ref = true)
      (applyConfigSecret child (t.names digest) key) fun _ => Keyed (t.names digest) ref := by
  have hstable : (keepingKey (t.names digest)).Stable
      fun w => w.For (t.names digest) ref ∧ w.mintedBy (t.names digest) key ref = true :=
    fun _ _ hv h => ⟨for_stable hv.1 h, mintedBy_mono h hv.2⟩
  refine triple_apply hstable fun _ v hv _ => ⟨trivial, fun f => ?_⟩
  have hset : Keyed (t.names digest) ref (v.setSecret (t.names digest).configSecretName
      (some (v.appliedSecret (t.names digest).configSecretName [("key", .utf8 key)]))) := by
    refine ⟨⟨fun key' hkey' => ?_, fun r hr => ?_⟩, ?_⟩
    · rw [authKey_setSecret hkey] at hkey'
      obtain rfl : key = key' := Option.some.inj hkey'
      exact hv.2
    · -- The state Secret is another one, and says what it has said.
      rw [Cluster.stateRef, Cluster.secrets_setSecret_of_ne] at hr
      · exact hv.1.2 r hr
      · rw [t.names_eq]
        exact (t.parent.configSecretName_ne digest).symm
    · rw [authKey_setSecret hkey]
      rfl
  refine ⟨?_, fun hok => (Fate.serve_ok hok).2 ▸ hset⟩
  rcases Fate.serve_snd with hs | hs
  · exact hs ▸ told_of_for hv.1
  · exact hs ▸ told_of_keyed hset

theorem keys_mintAuthKey {request : CreatePreAuthKeyRequest}
    (hfor : request.configSecretName = (t.names digest).configSecretName) :
    KeysTriple read digest dep t (fun w => w.For (t.names digest) headscale.instanceName)
      (mintAuthKey headscale child (t.names digest) request)
      fun _ => Keyed (t.names digest) headscale.instanceName := by
  refine Triple.bind (keys_createPreAuthKey hfor) fun r => ?_
  match r with
  | .error e => exact Triple.throw fun w hw => told_of_for hw.1
  | .ok none => exact Triple.throw fun w hw => told_of_for hw.1
  | .ok (some key) =>
    intro w tr hw
    obtain ⟨hkey, hminted⟩ := hw.2 key rfl
    refine Triple.bind (Triple.attempt (keys_applyConfigSecret hkey)) (fun saved => ?_) w tr
      ⟨hw.1, hminted⟩
    match saved with
    | .ok () => exact Triple.pure fun _ hw => hw
    | .error e =>
      refine Triple.bind (R := fun _ w => w.Told (t.names digest)) ?_ fun _ =>
        Triple.throw fun _ hw => hw
      exact Triple.op (keepingKey _).stable fun _ v hv _ => ⟨trivial, fun _ => ⟨hv, hv⟩⟩

theorem keys_ensureAuthKey {parent : ObjectReference} {user : Option String}
    {managedKeyTags : List String} {autoTag : Option String} {expirySecs : Nat}
    {reusable ephemeral : Bool} :
    KeysTriple read digest dep t (fun w => w.For (t.names digest) headscale.instanceName)
      (ensureAuthKey parent headscale child (t.names digest) user managedKeyTags autoTag expirySecs
        reusable ephemeral)
      fun status w => match status with
        | .waitingForUser => w.Told (t.names digest)
        | .ready => Keyed (t.names digest) headscale.instanceName w := by
  refine Triple.bind (R := fun key w => w.For (t.names digest) headscale.instanceName ∧
    (key.isSome = true → Keyed (t.names digest) headscale.instanceName w)) ?_ fun key => ?_
  · refine triple_getSecret (R := fun o w => w.For (t.names digest) headscale.instanceName ∧
      w.authKey (t.names digest) = o.bind extractAuthKey) for_stable (fun _ => told_of_for)
      (fun _ _ _ _ => trivial) (fun v hv => ⟨hv, rfl⟩) fun o => Triple.pure fun w hw => ?_
    exact ⟨hw.1, fun hsome => ⟨hw.1, hw.2 ▸ hsome⟩⟩
  · split
    · rename_i hsome
      exact Triple.pure fun w hw => hw.2 hsome
    · refine Triple.mono ?_ (fun w hw => hw.1) fun _ _ hw => hw
      refine .bind (keys_within (within_quiet rfl) for_stable fun _ => told_of_for) fun now => ?_
      refine .bind (keys_within within_userIdOf for_stable fun _ => told_of_for) fun userId => ?_
      cases userId with
      | none => exact Triple.pure fun w hw => told_of_for hw
      | some userId => exact .bind (keys_mintAuthKey rfl) fun _ => Triple.pure fun _ hw => hw

theorem keys_ensureStateSecret :
    KeysTriple read digest dep t (Keyed (t.names digest) ref)
      (ensureStateSecret child (t.names digest) ref) fun _ => Keyed (t.names digest) ref := by
  refine Triple.bind (R := fun _ => Keyed (t.names digest) ref) ?_ fun _ => ?_
  · refine triple_apply keyed_stable fun _ v hv _ => ⟨trivial, fun f => ?_⟩
    have hset : Keyed (t.names digest) ref (v.setSecret (t.names digest).stateSecretName
        (some (v.appliedSecret (t.names digest).stateSecretName [("headscale_ref", .utf8 ref)]))) := by
      -- Nothing is written to the config Secret.
      have hauth : (v.setSecret (t.names digest).stateSecretName (some (v.appliedSecret
          (t.names digest).stateSecretName [("headscale_ref", .utf8 ref)]))).authKey (t.names digest) =
            v.authKey (t.names digest) := by
        rw [Cluster.authKey, Cluster.secrets_setSecret_of_ne]
        · rfl
        · rw [t.names_eq]
          exact t.parent.configSecretName_ne digest
      refine ⟨⟨fun key hkey => hv.1.1 key (hauth ▸ hkey), fun r hr => ?_⟩, hauth ▸ hv.2⟩
      rw [stateRef_setSecret] at hr
      exact (Option.some.inj hr).symm
    refine ⟨?_, fun hok => (Fate.serve_ok hok).2 ▸ hset⟩
    rcases Fate.serve_snd with hs | hs
    · exact hs ▸ told_of_keyed hv
    · exact hs ▸ told_of_keyed hset
  · exact keys_within (.bind (within_quiet rfl) fun _ => within_fromKube _) keyed_stable
      fun _ => told_of_keyed

/-! ### Whole reconciles -/

variable {annotations : IngressAnnotations} {inst : Instance}

theorem keys_applyStatefulSet {spec : ProxyStatefulSet} {name : String}
    (hparse : IngressAnnotations.parse read t.metadata = .ok annotations)
    (hurl : spec.headscaleUrl = inst.loginUrl dep.operatorNamespace annotations.headscaleRef) :
    KeysTriple read digest dep t (Keyed (t.names digest) annotations.headscaleRef)
      (apply child (.statefulSet name spec))
      fun _ => Keyed (t.names digest) annotations.headscaleRef := by
  refine triple_apply keyed_stable fun _ v hv _ => ⟨?_, fun f => ?_⟩
  · obtain ⟨key, hkey⟩ := Option.isSome_iff_exists.1 hv.2
    exact ⟨annotations, inst, key, hparse, hurl, hkey, hv.1.1 key hkey⟩
  · have hwithin : Within (fun a => a.isKnowledge = false) (.apply child (.statefulSet name spec)) :=
      within_some rfl rfl
    have hkeyed := hwithin.keeps (f := f)
      (fun _ _ ha hchange => keyed_stable hv (keepingKey_of_changes ha hchange)) hv
    exact ⟨told_of_keyed hkeyed, fun _ => hkeyed⟩

theorem keys_applyExposeProxy {svc : PortedService} {ports : List Int} {clusterIp : Option String}
    {networking : ProxyNetworking}
    (hparse : IngressAnnotations.parse read svc.metadata = .ok annotations) :
    KeysTriple read digest dep (.service svc) (Keyed (svc.names digest) annotations.headscaleRef)
      (svc.applyExposeProxy digest dep annotations ports clusterIp inst child networking)
      fun _ => Keyed (svc.names digest) annotations.headscaleRef := by
  rw [PortedService.applyExposeProxy.eq_def]
  dsimp only
  split
  · exact .bind (keys_within (within_apply rfl ⟨rfl, by decide⟩) keyed_stable fun _ => told_of_keyed)
      fun _ => keys_applyStatefulSet (t := .service svc) hparse rfl
  · split
    · exact Triple.throw fun _ => told_of_keyed
    · exact Triple.throw fun _ => told_of_keyed
    · exact .bind (keys_applyStatefulSet (t := .service svc) hparse rfl) fun _ =>
        keys_within (within_deleteIgnoring404 rfl ⟨rfl, by decide⟩) keyed_stable fun _ => told_of_keyed

/-- The steps that lead to a key. -/
theorem keys_of_keyed {α : Type} {p : AuthenticatedClient → M α}
    (hp : ∀ headscale, headscale.instanceName = ref → KeysTriple read digest dep t
      (Reached (t.names digest) ref) (p headscale) fun _ w => w.Told (t.names digest)) :
    KeysTriple read digest dep t (fun w => w.Told (t.names digest))
      ((headscaleConnect opNs ref).mapError .kube >>= p) fun _ w => w.Told (t.names digest) :=
  .bind keys_headscaleConnect fun headscale w tr hw => hp headscale hw.1 w tr hw.2

theorem keys_ends : SteadyEnds read digest dep (keepingKey (t.names digest))
    (fun v o => settled (t.names digest) v o) (fun _ => logsInOwn read digest dep t) t where
  quiet _ _ _ ho _ _ := logsInOwn_of_within id ho
  dns := keys_steady (within_syncEgressDns ⟨fun _ => nofun, nofun, nofun⟩)
  leave _ hp := keys_steady (hp.within ⟨fun _ => nofun, nofun, nofun⟩ ⟨fun _ => nofun, nofun, nofun⟩
    ⟨fun _ => nofun, nofun, nofun⟩ ⟨fun _ => nofun, nofun, nofun⟩ ⟨fun _ => nofun, nofun, nofun⟩)
  ingress ing annotations inst hostNetwork routes ht hparse := by
    subst ht
    refine keys_of_keyed fun headscale hheadscale => ?_
    refine .bind (keys_within (within_applyWireguardService ⟨rfl, nofun⟩) reached_stable
      fun _ hw => hw.1) fun networking => ?_
    refine .bind (keys_resetIfRetargeted (t := .ingress ing)) fun _ => ?_
    refine .bind (keys_deleting (within_rotateStaleAuthKey ⟨fun _ => nofun, nofun, nofun⟩
      ⟨fun _ => nofun, nofun, nofun⟩) for_stable (fun _ => told_of_for)
      fun _ _ _ => for_of_changes) fun _ => ?_
    refine .bind (hheadscale ▸ keys_ensureAuthKey (t := .ingress ing)) fun status => ?_
    cases status with
    | waitingForUser => exact Triple.pure fun _ hw => hw
    | ready =>
      refine .bind (keys_ensureStateSecret (t := .ingress ing)) fun stateSecret => ?_
      refine .bind (keys_within (within_apply rfl ⟨rfl, nofun⟩) keyed_stable
        fun _ => told_of_keyed) fun _ => ?_
      refine .bind (keys_within within_applyProxyRbac keyed_stable fun _ => told_of_keyed) fun _ => ?_
      refine .bind (keys_applyStatefulSet hparse rfl) fun _ => ?_
      refine Triple.mono (keys_within (.bind (within_syncTags ⟨rfl, nofun⟩) fun _ =>
        .bind RoutedIngress.within_report fun _ => .bind (within_claim ⟨rfl, nofun⟩) fun _ =>
          within_pure _) keyed_stable fun _ => told_of_keyed) (fun _ hw => hw) fun _ _ => told_of_keyed
  egress svc annotations tailnetFqdn inst ht hparse := by
    subst ht
    refine keys_of_keyed fun headscale hheadscale => ?_
    refine .bind (keys_resetIfRetargeted (t := .service svc)) fun _ => ?_
    refine .bind (keys_deleting (within_rotateStaleAuthKey ⟨fun _ => nofun, nofun, nofun⟩
      ⟨fun _ => nofun, nofun, nofun⟩) for_stable (fun _ => told_of_for)
      fun _ _ _ => for_of_changes) fun _ => ?_
    refine .bind (hheadscale ▸ keys_ensureAuthKey (t := .service svc)) fun status => ?_
    cases status with
    | waitingForUser => exact Triple.pure fun _ hw => hw
    | ready =>
      refine .bind (keys_ensureStateSecret (t := .service svc)) fun stateSecret => ?_
      refine .bind (keys_within (within_apply rfl ⟨rfl, nofun⟩) keyed_stable
        fun _ => told_of_keyed) fun _ => ?_
      refine .bind (keys_within within_applyProxyRbac keyed_stable fun _ => told_of_keyed) fun _ => ?_
      refine .bind (keys_applyStatefulSet hparse rfl) fun _ => ?_
      refine Triple.mono (keys_within (.bind (within_applyConsumerPolicy ⟨rfl, nofun⟩) fun _ =>
        .bind (within_claim ⟨rfl, nofun⟩) fun _ => .bind (within_syncTags ⟨rfl, nofun⟩) fun _ =>
          .bind PortedService.within_report fun _ => .bind (within_syncEgressDns ⟨rfl, nofun⟩) fun _ =>
            within_pure _) keyed_stable fun _ => told_of_keyed) (fun _ hw => hw)
        fun _ _ => told_of_keyed
  expose svc annotations ports clusterIp inst ht hparse := by
    subst ht
    refine keys_of_keyed fun headscale hheadscale => ?_
    refine .bind (keys_resetIfRetargeted (t := .service svc)) fun _ => ?_
    refine .bind (keys_deleting (within_rotateStaleAuthKey ⟨fun _ => nofun, nofun, nofun⟩
      ⟨fun _ => nofun, nofun, nofun⟩) for_stable (fun _ => told_of_for)
      fun _ _ _ => for_of_changes) fun _ => ?_
    refine .bind (hheadscale ▸ keys_ensureAuthKey (t := .service svc)) fun status => ?_
    cases status with
    | waitingForUser => exact Triple.pure fun _ hw => hw
    | ready =>
      refine .bind (keys_ensureStateSecret (t := .service svc)) fun stateSecret => ?_
      refine .bind (keys_within (within_applyWireguardService ⟨rfl, nofun⟩) keyed_stable
        fun _ => told_of_keyed) fun networking => ?_
      refine .bind (keys_within within_applyProxyRbac keyed_stable fun _ => told_of_keyed) fun _ => ?_
      refine .bind (keys_applyExposeProxy hparse) fun _ => ?_
      refine Triple.mono (keys_within (.bind (within_deleteIgnoring404 rfl ⟨rfl, nofun⟩) fun _ =>
        .bind (within_claim ⟨rfl, nofun⟩) fun _ => .bind (within_syncTags ⟨rfl, nofun⟩) fun _ =>
          .bind PortedService.within_report fun _ => within_pure _) keyed_stable
        fun _ => told_of_keyed) (fun _ hw => hw) fun _ _ => told_of_keyed

end Steps

/-! ## Runs -/

section Runs

variable {read : Reader} {digest : Digest} {dep : Deployment} {parent : ObjectReference}
  {turns : List Turn} {w : Cluster} {events : List (Process.Event Fate (Cluster → Cluster))}
  {s : Pool sig Error Action Cluster}

/-- Whenever a proxy is applied, it has a key of the instance that it logs in to, as long as nobody
    turns to another one without a state Secret. -/
theorem ownKey_of_settled (hone : VersionsOf parent turns) (hstart : w.Told (parent.names digest))
    (hturns : cluster.Along (cluster.InTurn (keepingKey (parent.names digest)) fun _ v o =>
      settled (parent.names digest) v o) (reconciles read digest dep turns w) events)
    (hexec : cluster.exec (reconciles read digest dep turns w) events = some s) :
    ∀ e ∈ s.history, ∀ t ∈ turns[e.thread]?, logsInOwn read digest dep t e.before e.op := by
  have hends : ∀ t ∈ turns, SteadyEnds read digest dep (keepingKey (parent.names digest))
      (fun v o => settled (parent.names digest) v o) (fun _ => logsInOwn read digest dep t) t := by
    intro t ht
    rw [← hone t ht, ← t.names_eq]
    exact keys_ends
  have hcalls := exec_steadyTurns (B := fun _ v o => settled (parent.names digest) v o)
    (A := fun t _ => logsInOwn read digest dep t) hstart hends
    (hturns.mono (InTurn.mono fun _ _ _ hB _ _ => hB)) hexec
  intro e he t ht
  obtain ⟨later, earlier, heq⟩ := List.append_of_mem he
  obtain ⟨t', _, ht', hown⟩ := hcalls.2 e earlier (heq ▸ List.suffix_append later _)
  obtain rfl : t = t' := Option.some.inj (ht.symm.trans ht')
  exact hown

end Runs

namespace Keys

/-! ### A Service that moves to another instance -/

def startsProxy : Op → Bool
  | .apply _ (.statefulSet _ _) => true
  | _ => false

end Keys

open Orphans (sha256 deployment) in
open Shop (reader main) in
open Keys (startsProxy) in
/-- A new Service gets a proxy with a key of its instance. -/
theorem ownKey_of_settled_new : ∃ s,
    cluster.exec (reconciles reader sha256 deployment [.service (Shop.external main)] Shop.fresh)
      (Shop.succeeds 0 20) = some s ∧
    (s.history.any fun e => startsProxy e.op) = true ∧
    ∀ e ∈ s.history, ∀ t ∈ [Turn.service (Shop.external main)][e.thread]?,
      logsInOwn reader sha256 deployment t e.before e.op := by
  have hturns : cluster.Along (Process.Machine.ActsInTurn fun _ v o =>
      settled ((Shop.external main).parent.names sha256) v o)
      (reconciles reader sha256 deployment [.service (Shop.external main)] Shop.fresh)
      (Shop.succeeds 0 20) := by
    decide +kernel
  have hrun : (cluster.exec (reconciles reader sha256 deployment
      [.service (Shop.external main)] Shop.fresh) (Shop.succeeds 0 20)).any
        (fun s => s.history.any fun e => startsProxy e.op) = true := by
    decide +kernel
  obtain ⟨s, hs, hcheck⟩ := Option.any_eq_true _ _ |>.1 hrun
  refine ⟨s, hs, hcheck, ownKey_of_settled (List.forall_mem_singleton.2 rfl) ?_
    (hturns.mono ActsInTurn.inTurn) hs⟩
  exact fun _ hr => nomatch hr

open Orphans (sha256 deployment) in
open Shop (reader main backup) in
open Keys (startsProxy) in
/-- The state Secret cannot be written, and the Service moves: its proxy logs in to the new instance
    with the key of the old one. -/
theorem foreignKey_on_failure : ∃ s,
    cluster.exec (reconciles reader sha256 deployment
      [.service (Shop.external main), .service (Shop.external backup)] Shop.fresh)
      (Shop.succeeds 0 12 ++ Shop.fails 0 :: Shop.succeeds 1 17) = some s ∧
    ¬∀ e ∈ s.history, ∀ t ∈ [Turn.service (Shop.external main),
      .service (Shop.external backup)][e.thread]?,
        logsInOwn reader sha256 deployment t e.before e.op := by
  have hrun : (cluster.exec (reconciles reader sha256 deployment
      [.service (Shop.external main), .service (Shop.external backup)] Shop.fresh)
      (Shop.succeeds 0 12 ++ Shop.fails 0 :: Shop.succeeds 1 17)).any (fun s =>
        s.history.any fun e => e.thread == 1 && startsProxy e.op &&
          (e.before.authKey ((Shop.external backup).names sha256)).all fun key =>
            !e.before.mintedBy ((Shop.external backup).names sha256) key "backup") = true := by
    decide +kernel
  obtain ⟨s, hs, hcheck⟩ := Option.any_eq_true _ _ |>.1 hrun
  refine ⟨s, hs, fun hall => ?_⟩
  obtain ⟨e, he, hcheck⟩ := List.any_eq_true.1 hcheck
  simp only [Bool.and_eq_true, beq_iff_eq] at hcheck
  obtain ⟨⟨hthread, hstarts⟩, hforeign⟩ := hcheck
  have hown := hall e he (.service (Shop.external backup)) (by rw [hthread]; rfl)
  match hop : e.op, hstarts with
  | .apply _ (.statefulSet _ _), _ =>
    rw [hop] at hown
    obtain ⟨annotations, _, key, hparse, _, hkey, hminted⟩ := hown
    have href : (IngressAnnotations.parse reader (Shop.external backup).metadata).toOption.map
        (·.headscaleRef) = some "backup" := by decide +kernel
    rw [show IngressAnnotations.parse reader (Shop.external backup).metadata = .ok annotations from
      hparse] at href
    have hbackup : annotations.headscaleRef = "backup" := Option.some.inj href
    have hnot := (Option.all_eq_true _ _).1 hforeign key hkey
    rw [hbackup] at hminted
    change (!e.before.mintedBy ((Shop.external backup).names sha256) key "backup") = true at hnot
    rw [show e.before.mintedBy ((Shop.external backup).names sha256) key "backup" = true from
      hminted] at hnot
    cases hnot

end Headmaster.Operator.Proxy
