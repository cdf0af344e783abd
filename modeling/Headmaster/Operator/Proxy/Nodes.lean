import Headmaster.Operator.Proxy.Runs

/-!
# Which headscale a node is of

The state Secret pairs the id of a node, which the pod of a proxy writes, with
the name of an instance, which the operator writes. When the object moves to
another instance, the Secret is replaced while the old pod still runs.

* `ownNode_of_honest`: a node is only asked for, tagged and deleted at the
  instance that has issued its id, as long as the pod writes no id of another
  instance than the Secret names;
* `foreignNode_after_move`: the old pod writes its id into the new Secret, and
  the node with that id at the new instance is given the tags.
-/

namespace Headmaster.Operator.Proxy

open Process (Made Pool Setting)
open Process.Machine (ActsInTurn InTurn Triple)
open Process.Prog (Uses)

/-- The ids in a state Secret are of the instance that it names. -/
def Issued (names : ProxyNames) (w : Cluster) : Prop :=
  ∀ secret ∈ w.secrets names.stateSecretName, ∃ ref, headscaleRef secret = some ref ∧
    ∀ id ∈ deviceId secret, (ref, id) ∈ w.issued names.proxyName

/-- A node that was issued to the proxy by the instance it is asked for at. -/
def ownNode (names : ProxyNames) (w : Cluster) : Op → Prop
  | .getNode headscale id | .deleteNode headscale id | .setTags headscale id _ =>
    (headscale.instanceName, id) ∈ w.issued names.proxyName
  | _ => True

/-- What others, the pod among them, make of a state Secret: it may go; its instance stays, and an
    id that is written is of that instance. -/
def HonestWrite (names : ProxyNames) (w : Cluster) (old new : Option Secret) : Prop :=
  ∀ secret ∈ new, ∃ secret' ∈ old, headscaleRef secret = headscaleRef secret' ∧
    (deviceId secret = deviceId secret' ∨ ∀ id ∈ deviceId secret, ∀ ref ∈ headscaleRef secret,
      (ref, id) ∈ w.issued names.proxyName)

/-- Others write honestly, and nodes register. -/
def writingHonestly (names : ProxyNames) : Setting Cluster where
  others v w := v.issued names.proxyName ⊆ w.issued names.proxyName ∧
    HonestWrite names w (v.secrets names.stateSecretName) (w.secrets names.stateSecretName)
  refl _ := ⟨List.Subset.refl _, fun secret h => ⟨secret, h, rfl, .inl rfl⟩⟩
  trans h h' := by
    refine ⟨List.Subset.trans h.1 h'.1, fun secret hsecret => ?_⟩
    obtain ⟨secret₁, h₁, href, hid⟩ := h'.2 secret hsecret
    obtain ⟨secret₀, h₀, href₀, hid₀⟩ := h.2 secret₁ h₁
    refine ⟨secret₀, h₀, href.trans href₀, ?_⟩
    rcases hid with hid | hid
    · rcases hid₀ with hid₀ | hid₀
      · exact .inl (hid.trans hid₀)
      · refine .inr fun id hmem ref hmem' => h'.1 (hid₀ id (hid ▸ hmem) ref (href ▸ hmem'))
    · exact .inr hid
  inv := Issued names
  stable v w hv h := by
    intro secret hsecret
    obtain ⟨secret', h', href, hid⟩ := h.2 secret hsecret
    obtain ⟨ref, href', hids⟩ := hv secret' h'
    refine ⟨ref, href.trans href', fun id hmem => ?_⟩
    rcases hid with hid | hid
    · exact h.1 (hids id (hid ▸ hmem))
    · exact hid id hmem ref (href.trans href')

section Steps

variable {read : Reader} {digest : Digest} {dep : Deployment} {t : Turn} {names : ProxyNames}
  {v w : Cluster} {ref opNs : String} {α : Type} {p : M α} {P : Cluster → Prop}

/-! ### What is kept -/

/-- Only a reconcile that writes the state Secret changes what others do not. -/
theorem writingHonestly_of_changes {a : Area} (h : v.Changes a w)
    (ha : a ≠ .secret names.stateSecretName) : (writingHonestly names).others v w := by
  refine ⟨h.issued_eq ▸ List.Subset.refl _, fun secret hsecret => ?_⟩
  rcases h.secrets_apply ha with hs | hs
  · exact ⟨secret, hs ▸ hsecret, rfl, .inl rfl⟩
  · rw [hs] at hsecret
    cases hsecret

theorem ownNode_of_within {Areas : Area → Prop} (hnode : ¬Areas .node) {o : Op}
    (ho : Within Areas o) : ownNode names v o := by
  match o, ho with
  | .getNode _ _, ho | .deleteNode _ _, ho | .setTags _ _ _, ho => exact absurd (ho _ rfl) hnode
  | .apply _ _, _ | .getSecret _, _ | .getInstance _, _ | .getService _ _, _ | .listServices, _
  | .getWgService _, _ | .getNamespace _, _ | .getPod _, _ | .getParent _, _ | .delete _ _, _
  | .patchParent _ _, _ | .applyOverride _, _ | .publish _ _, _ | .connect _, _ | .listUsers _ _, _
  | .createPreAuthKey _ _, _ | .deletePreAuthKey _ _, _ | .now, _ | .join _, _ => exact trivial

/-- The proxy is for that instance, as far as its state Secret says. -/
def StateFor (names : ProxyNames) (ref : String) (w : Cluster) : Prop :=
  Issued names w ∧ ∀ secret ∈ w.secrets names.stateSecretName, headscaleRef secret = some ref

theorem stateFor_stable : (writingHonestly names).Stable (StateFor names ref) := by
  refine fun v w hv h => ⟨(writingHonestly names).stable hv.1 h, fun secret hsecret => ?_⟩
  obtain ⟨secret', h', href, -⟩ := h.2 secret hsecret
  exact href.trans (hv.2 secret' h')

/-- The nodes of a Secret that was read are of that instance. -/
def Of (names : ProxyNames) (ref : String) (secret : Secret) (w : Cluster) : Prop :=
  ∀ id ∈ deviceId secret, (ref, id) ∈ w.issued names.proxyName

theorem issuedOf_stable {secret : Secret} : (writingHonestly names).Stable
    fun w => Issued names w ∧ Of names ref secret w :=
  fun _ _ hv h => ⟨(writingHonestly names).stable hv.1 h, fun id hid => h.1 (hv.2 id hid)⟩

/-- No node is applied to a Secret. -/
theorem deviceId_appliedSecret {name : String} {id : Nat}
    (h : id ∈ deviceId (w.appliedSecret name [("headscale_ref", .utf8 ref)])) :
    ∃ old ∈ w.secrets name, id ∈ deviceId old := by
  rw [deviceId, readSecretString, Cluster.appliedSecret] at h
  split at h
  · rename_i old hold
    refine ⟨old, hold, ?_⟩
    rw [Props.lookup_extend] at h
    exact h
  · cases h

/-! ### Parts of a reconcile -/

/-- From a cluster with `P`, a part of a reconcile that ends with a value leaves one with `R`. -/
abbrev NodesTriple (names : ProxyNames) (P : Cluster → Prop) (p : M α) (R : α → Cluster → Prop) :
    Prop :=
  cluster.Triple (writingHonestly names) (fun _ _ => True) (fun _ => ownNode names) P p R

/-- What others keep is kept without the state Secret and nodes. -/
theorem nodes_within (hp : p.Uses (Within fun a => a ≠ .secret names.stateSecretName ∧ a ≠ .node))
    (hstable : (writingHonestly names).Stable P) (hinv : ∀ w, P w → Issued names w) :
    NodesTriple names P p fun _ => P :=
  triple_of_others hp hstable hinv
    (fun _ _ _ ho _ _ => ownNode_of_within (fun hnode => hnode.2 rfl) ho)
    fun _ _ _ ha hchange => writingHonestly_of_changes hchange ha.1

/-- A request about a node of the instance. -/
theorem nodes_call {o : Op} (hstable : (writingHonestly names).Stable P)
    (hinv : ∀ w, P w → Issued names w) (harea : o.area = some .node)
    (hown : ∀ v, P v → ownNode names v o) : NodesTriple names P (call o) fun _ => P :=
  Triple.of_uses (C := fun o' => o' = o) (Process.Prog.uses_op rfl) hstable hinv
    fun o' _ v ho hv _ => by
      subst ho
      refine ⟨hown v hv, fun f => ?_⟩
      exact (within_some (S := fun a => a = .node) harea rfl).keeps (fun a v' ha hchange => by
        subst ha
        exact hstable hv (writingHonestly_of_changes hchange nofun)) hv

theorem nodes_headscaleConnect (hstable : (writingHonestly names).Stable P)
    (hinv : ∀ w, P w → Issued names w) :
    cluster.Triple (writingHonestly names) (fun _ _ => True) (fun _ => ownNode names) P
      (headscaleConnect opNs ref) fun headscale w => headscale.instanceName = ref ∧ P w :=
  triple_headscaleConnect hstable hinv (fun _ _ _ ho _ _ => ownNode_of_within id ho)
    fun _ _ _ hv _ => hv

/-- What is known from the state Secret, or from there being none. -/
def StateRead (names : ProxyNames) (P : Cluster → Prop) : Option Secret → Cluster → Prop
  | none, w => w.secrets names.stateSecretName = none
  | some secret, w => ∃ ref, headscaleRef secret = some ref ∧
    (∃ v, P v ∧ v.secrets names.stateSecretName = some secret) ∧ StateFor names ref w ∧
      Of names ref secret w

/-- The state Secret is read, with what is issued to it. -/
theorem nodes_getSecret {k : Option Secret → M α} {R : α → Cluster → Prop}
    (hstable : (writingHonestly names).Stable P) (hinv : ∀ w, P w → Issued names w)
    (hnone : NodesTriple names (fun w => P w ∧ w.secrets names.stateSecretName = none) (k none) R)
    (hsome : ∀ secret ref, headscaleRef secret = some ref →
      (∃ v, P v ∧ v.secrets names.stateSecretName = some secret) → NodesTriple names
        (fun w => P w ∧ StateFor names ref w ∧ Of names ref secret w) (k (some secret)) R) :
    NodesTriple names P
      (call (.getSecret names.stateSecretName) >>= fun r : Except KubeError Secret =>
        ifFound r >>= k) R := by
  refine triple_getSecret (R := fun o w => P w ∧ StateRead names P o w) hstable hinv
    (fun _ _ _ _ => trivial) (fun v hv => ⟨hv, ?_⟩) fun o => ?_
  · cases hsecret : v.secrets names.stateSecretName with
    | none => exact hsecret
    | some secret =>
      obtain ⟨ref, href, hids⟩ := hinv v hv secret hsecret
      refine ⟨ref, href, ⟨v, hv, hsecret⟩, ⟨hinv v hv, fun secret' hsecret' => ?_⟩, hids⟩
      obtain rfl : secret = secret' := Option.some.inj (hsecret.symm.trans hsecret')
      exact href
  · cases o with
    | none => exact hnone
    | some secret =>
      rintro w tr ⟨hw, ref, href, hread, hstate⟩
      exact hsome secret ref href hread w tr ⟨hw, hstate⟩

/-- A node is deleted where it was issued. -/
theorem nodes_deregister {parent : ObjectReference} {secret : Secret} {id : Nat}
    (hid : deviceId secret = some id) :
    NodesTriple names (fun w => Issued names w ∧ Of names ref secret w)
      (deregister dep parent ref id) fun _ => Issued names := by
  refine Triple.bind (Triple.attempt (nodes_headscaleConnect issuedOf_stable fun _ hw => hw.1))
    fun headscale => ?_
  match headscale with
  | .error e => exact nodes_within within_publishWarning (writingHonestly names).stable fun _ hw => hw
  | .ok headscale =>
    rintro w tr ⟨href, hw⟩
    refine Triple.bind (nodes_call issuedOf_stable (fun _ hw => hw.1) rfl fun v hv => ?_)
      (fun r => ?_) w tr hw
    · change (headscale.instanceName, id) ∈ v.issued names.proxyName
      exact href ▸ hv.2 id hid
    · exact Triple.mono (nodes_within (.bind (within_deletedOrGone _) fun _ => within_publish)
        (writingHonestly names).stable fun _ hw => hw) (fun _ hw => hw.1) fun _ _ hw => hw

theorem nodes_deregisterOld {secret : Secret} {id : Nat} (hid : deviceId secret = some id) :
    NodesTriple names (fun w => Issued names w ∧ Of names ref secret w)
      (deregisterOld opNs ref id) fun _ => Issued names := by
  refine Triple.bind (Triple.attempt (nodes_headscaleConnect issuedOf_stable fun _ hw => hw.1))
    fun headscale => ?_
  match headscale with
  | .error .notFound => exact Triple.pure fun _ hw => hw
  | .error .other => exact Triple.throw fun _ hw => hw
  | .ok headscale =>
    rintro w tr ⟨href, hw⟩
    refine Triple.bind (nodes_call issuedOf_stable (fun _ hw => hw.1) rfl fun v hv => ?_)
      (fun r => ?_) w tr hw
    · change (headscale.instanceName, id) ∈ v.issued names.proxyName
      exact href ▸ hv.2 id hid
    · exact Triple.mono (nodes_within (within_deletedOrGone _) (writingHonestly names).stable
        fun _ hw => hw) (fun _ hw => hw.1) fun _ _ hw => hw

theorem nodes_leaving {p : M Unit} (h : Leaving read digest dep t p) :
    NodesTriple (t.names digest) (Issued (t.names digest)) p fun _ => Issued (t.names digest) := by
  have hcleanup : NodesTriple (t.names digest) (Issued (t.names digest))
      (cleanupProxyResources (t.names digest)) fun _ => Issued (t.names digest) :=
    nodes_within (within_cleanupProxyResources ⟨nofun, nofun⟩ ⟨nofun, nofun⟩ ⟨nofun, nofun⟩
      ⟨nofun, nofun⟩) (writingHonestly _).stable fun _ hw => hw
  cases h with
  | blindly _ _ => exact hcleanup
  | deregister fallback _ =>
    refine nodes_getSecret (writingHonestly _).stable (fun _ hw => hw) ?_ fun secret ref href _ => ?_
    · exact hcleanup.mono (fun _ hw => hw.1) fun _ _ hw => hw
    · dsimp only [Option.bind_some]
      split
      · rename_i id hid
        rw [href]
        exact Triple.bind ((nodes_deregister hid).mono (fun _ hw => ⟨hw.1, hw.2.2⟩) fun _ _ hw => hw)
          fun _ => hcleanup
      · exact hcleanup.mono (fun _ hw => hw.1) fun _ _ hw => hw

theorem nodes_resetIfRetargeted :
    NodesTriple names (Issued names) (resetIfRetargeted opNs names ref) fun _ => StateFor names ref := by
  have hremoval : Area.removal ≠ .secret names.stateSecretName ∧ Area.removal ≠ .node :=
    ⟨nofun, nofun⟩
  refine nodes_getSecret (writingHonestly names).stable (fun _ hw => hw) ?_ fun secret own hown _ => ?_
  · refine Triple.pure fun w hw => ⟨hw.1, fun secret hsecret => ?_⟩
    rw [hw.2] at hsecret
    cases hsecret
  · dsimp only [Option.bind_some]
    cases hretarget : retargetOf ref secret with
    | none =>
      -- it is recorded with the instance it is for
      have hsame : own = ref := by
        by_contra hne
        simp [retargetOf, hown, hne] at hretarget
      exact Triple.pure fun w hw => hsame ▸ hw.2.1
    | some old =>
      obtain ⟨old', hold, heq⟩ := Option.map_eq_some_iff.1 hretarget
      obtain rfl : own = old' :=
        Option.some.inj (hown.symm.trans (Option.filter_eq_some_iff.1 hold).1)
      subst heq
      have hdeletes (u : Unit) : NodesTriple names (Issued names) (do
          deleteIgnoring404 (.secret .retarget) names.configSecretName
          deleteIgnoring404 (.secret .retarget) names.stateSecretName)
          fun _ => StateFor names ref := by
        refine Triple.bind (nodes_within (within_deleteIgnoring404 rfl hremoval)
          (writingHonestly names).stable fun _ hw => hw) fun _ => ?_
        refine triple_deleteIgnoring404 (writingHonestly names).stable fun _ v hv _ =>
          ⟨trivial, fun f => ?_⟩
        have hset : StateFor names ref (v.setSecret names.stateSecretName none) := by
          have hgone : (v.setSecret names.stateSecretName none).secrets names.stateSecretName = none :=
            v.secrets_setSecret _ none
          refine ⟨fun secret hsecret => ?_, fun secret hsecret => ?_⟩ <;>
          · rw [hgone] at hsecret
            cases hsecret
        refine ⟨?_, fun hok => Fate.serve_of_ignoring404 hok ▸ hset⟩
        rcases Fate.serve_snd with hs | hs
        · exact hs ▸ hv
        · exact hs ▸ hset.1
      dsimp only
      split
      · rename_i id hid
        exact Triple.bind ((nodes_deregisterOld hid).mono (fun _ hw => ⟨hw.1, hw.2.2⟩)
          fun _ _ hw => hw) hdeletes
      · exact (hdeletes ()).mono (fun _ hw => hw.1) fun _ _ hw => hw

variable {headscale : AuthenticatedClient} {child : ChildApplier}

/-- The node is asked for at the instance that it is of. -/
theorem nodes_rotateStaleAuthKey {parent : ObjectReference} {expirySecs : Nat} :
    NodesTriple names (StateFor names headscale.instanceName)
      (rotateStaleAuthKey parent headscale names expirySecs)
      fun _ => StateFor names headscale.instanceName := by
  have hrotation : Area.rotation ≠ .secret names.stateSecretName ∧ Area.rotation ≠ .node :=
    ⟨nofun, nofun⟩
  have hinv : ∀ w, StateFor names headscale.instanceName w → Issued names w := fun _ hw => hw.1
  have hunregistered : NodesTriple names (StateFor names headscale.instanceName)
      (rotateUnregistered parent names expirySecs) fun _ => StateFor names headscale.instanceName :=
    nodes_within (within_rotateUnregistered hrotation) stateFor_stable hinv
  refine nodes_getSecret stateFor_stable hinv ?_ fun secret ref href hread => ?_
  · exact hunregistered.mono (fun _ hw => hw.1) fun _ _ hw => hw
  · obtain ⟨v, hv, hsecret⟩ := hread
    obtain rfl : ref = headscale.instanceName :=
      Option.some.inj (href.symm.trans (hv.2 secret hsecret))
    dsimp only [Option.bind_some]
    split
    · rename_i id hid
      have hstable : (writingHonestly names).Stable fun w => StateFor names headscale.instanceName w ∧
          Of names headscale.instanceName secret w :=
        fun _ _ hv h => ⟨stateFor_stable hv.1 h, fun id hid => h.1 (hv.2 id hid)⟩
      refine Triple.bind (R := fun _ => StateFor names headscale.instanceName) ?_ fun standing => ?_
      · refine Triple.bind ((nodes_within (within_quiet rfl) hstable fun _ hw => hw.1.1).mono
          (fun _ hw => hw.2) fun _ _ hw => hw) fun now => ?_
        refine Triple.bind (nodes_call hstable (fun _ hw => hw.1.1) rfl fun v hv => hv.2 id hid)
          fun node => ?_
        cases node with
        | ok node => cases node <;> exact Triple.pure fun _ hw => hw.1
        | error s =>
          dsimp only
          split
          · exact Triple.pure fun _ hw => hw.1
          · exact Triple.throw fun _ hw => hw.1.1
      · obtain ⟨lost, online⟩ := standing
        dsimp only
        refine nodes_within ?_ stateFor_stable hinv
        split
        · exact .bind within_publishWarning fun _ => within_resetIdentity hrotation rfl
        · refine .bind ?_ fun refusal => ?_
          · split
            · exact within_pure _
            · exact within_registrationRefused
          · cases refusal with
            | none => exact within_pure _
            | retryWithNewKey =>
              exact .bind within_publishWarning fun _ => within_deleteIgnoring404 rfl hrotation
            | resetIdentity =>
              exact .bind within_publishWarning fun _ => within_resetIdentity hrotation rfl
    · exact hunregistered.mono (fun _ hw => hw.1) fun _ _ hw => hw

/-- The node is read from the Secret that now names the instance. -/
theorem nodes_ensureStateSecret :
    NodesTriple names (StateFor names ref) (ensureStateSecret child names ref)
      fun secret w => Issued names w ∧ Of names ref secret w := by
  refine Triple.bind (R := fun _ => StateFor names ref) ?_ fun _ => ?_
  · refine triple_apply stateFor_stable fun _ v hv _ => ⟨trivial, fun f => ?_⟩
    have hset : StateFor names ref (v.setSecret names.stateSecretName
        (some (v.appliedSecret names.stateSecretName [("headscale_ref", .utf8 ref)]))) := by
      have hnew : (v.setSecret names.stateSecretName (some (v.appliedSecret names.stateSecretName
          [("headscale_ref", .utf8 ref)]))).secrets names.stateSecretName =
            some (v.appliedSecret names.stateSecretName [("headscale_ref", .utf8 ref)]) :=
        v.secrets_setSecret _ _
      have href : headscaleRef (v.appliedSecret names.stateSecretName [("headscale_ref", .utf8 ref)]) =
          some ref := readSecretString_appliedSecret _ _
      refine ⟨fun secret hsecret => ?_, fun secret hsecret => ?_⟩
      · obtain rfl := Option.some.inj (hnew.symm.trans hsecret)
        refine ⟨ref, href, fun id hid => ?_⟩
        -- the node, if any, is the one that was there
        obtain ⟨old, hold, hsame⟩ := deviceId_appliedSecret hid
        obtain ⟨own, hown, hids⟩ := hv.1 old hold
        obtain rfl : own = ref := Option.some.inj (hown.symm.trans (hv.2 old hold))
        exact hids id hsame
      · obtain rfl := Option.some.inj (hnew.symm.trans hsecret)
        exact href
    refine ⟨?_, fun hok => (Fate.serve_ok hok).2 ▸ hset⟩
    rcases Fate.serve_snd with hs | hs
    · exact hs ▸ hv.1
    · exact hs ▸ hset.1
  · refine triple_fromKube (o := .getSecret names.stateSecretName) (g := id) stateFor_stable
      fun _ v hv _ => ⟨trivial, fun f => ?_⟩
    have hsame : (cluster.act f (.getSecret names.stateSecretName) v).2 = v := Fate.serve_same
    rw [hsame]
    refine ⟨hv.1, fun secret hsecret => ⟨hv.1, ?_⟩⟩
    have hread := secret_of_getSecret hsecret
    obtain ⟨own, hown, hids⟩ := hv.1 secret hread
    obtain rfl : own = ref := Option.some.inj (hown.symm.trans (hv.2 secret hread))
    exact hids

/-- The node is tagged at the instance that it is of. -/
theorem nodes_syncTags {secret : Secret} {tags : List String} :
    NodesTriple names (fun w => Issued names w ∧ Of names headscale.instanceName secret w)
      (syncTags headscale secret tags) fun _ => Issued names := by
  rw [syncTags]
  split
  · exact Triple.pure fun _ hw => hw.1
  · rename_i id hid
    split
    · exact Triple.pure fun _ hw => hw.1
    · exact Triple.bind (nodes_call issuedOf_stable (fun _ hw => hw.1) rfl fun v hv => hv.2 id hid)
        fun _ => Triple.pure fun _ hw => hw.1

/-! ### Whole reconciles -/

variable {user : Option String} {managedKeyTags : List String} {autoTag : Option String}
  {parent : ObjectReference} {expirySecs : Nat} {reusable ephemeral : Bool}

/-- The config Secret is not the one that names the node. -/
theorem nodes_ensureAuthKey :
    NodesTriple (t.names digest) (StateFor (t.names digest) ref)
      (ensureAuthKey parent headscale child (t.names digest) user managedKeyTags autoTag expirySecs
        reusable ephemeral) fun _ => StateFor (t.names digest) ref := by
  refine nodes_within (within_ensureAuthKey ⟨nofun, nofun⟩ ⟨fun h => ?_, nofun⟩) stateFor_stable
    fun _ hw => hw.1
  refine t.parent.configSecretName_ne digest ?_
  rw [← t.names_eq]
  exact Area.secret.inj h

theorem nodes_ends : SteadyEnds read digest dep (writingHonestly (t.names digest)) (fun _ _ => True)
    (fun _ => ownNode (t.names digest)) t where
  quiet _ _ _ ho _ _ := ownNode_of_within id ho
  dns := nodes_within (within_syncEgressDns ⟨nofun, nofun⟩) (writingHonestly _).stable fun _ hw => hw
  leave _ hp := nodes_leaving hp
  ingress ing annotations inst hostNetwork routes ht hparse := by
    subst ht
    refine .bind (nodes_headscaleConnect (writingHonestly _).stable fun _ hw => hw).mapError
      fun headscale w tr ⟨href, hw⟩ => ?_
    refine Triple.bind (nodes_within (within_applyWireguardService ⟨nofun, nofun⟩)
      (writingHonestly _).stable fun _ hw => hw) (fun networking => ?_) w tr hw
    refine .bind nodes_resetIfRetargeted fun _ => ?_
    -- From here on the state Secret is for the instance of the connection, or is not there.
    rw [← href]
    refine .bind nodes_rotateStaleAuthKey fun _ => ?_
    refine .bind (nodes_ensureAuthKey (t := .ingress ing)) fun status => ?_
    cases status with
    | waitingForUser => exact Triple.pure fun _ hw => hw.1
    | ready =>
      refine .bind nodes_ensureStateSecret fun stateSecret => ?_
      refine .bind (nodes_within (within_apply rfl ⟨nofun, nofun⟩) issuedOf_stable
        fun _ hw => hw.1) fun _ => ?_
      refine .bind (nodes_within within_applyProxyRbac issuedOf_stable fun _ hw => hw.1) fun _ => ?_
      refine .bind (nodes_within (within_apply rfl ⟨nofun, nofun⟩) issuedOf_stable
        fun _ hw => hw.1) fun _ => ?_
      refine .bind nodes_syncTags fun tagged => ?_
      exact nodes_within (.bind RoutedIngress.within_report fun _ =>
        .bind (within_claim ⟨nofun, nofun⟩) fun _ => within_pure _) (writingHonestly _).stable
        fun _ hw => hw
  egress svc annotations tailnetFqdn inst ht hparse := by
    subst ht
    refine .bind (nodes_headscaleConnect (writingHonestly _).stable fun _ hw => hw).mapError
      fun headscale w tr ⟨href, hw⟩ => ?_
    refine Triple.bind nodes_resetIfRetargeted (fun _ => ?_) w tr hw
    rw [← href]
    refine .bind nodes_rotateStaleAuthKey fun _ => ?_
    refine .bind (nodes_ensureAuthKey (t := .service svc)) fun status => ?_
    cases status with
    | waitingForUser => exact Triple.pure fun _ hw => hw.1
    | ready =>
      refine .bind nodes_ensureStateSecret fun stateSecret => ?_
      refine .bind (nodes_within (within_apply rfl ⟨nofun, nofun⟩) issuedOf_stable
        fun _ hw => hw.1) fun _ => ?_
      refine .bind (nodes_within within_applyProxyRbac issuedOf_stable fun _ hw => hw.1) fun _ => ?_
      refine .bind (nodes_within (within_apply rfl ⟨nofun, nofun⟩) issuedOf_stable
        fun _ hw => hw.1) fun _ => ?_
      refine .bind (nodes_within (within_applyConsumerPolicy ⟨nofun, nofun⟩) issuedOf_stable
        fun _ hw => hw.1) fun _ => ?_
      refine .bind (nodes_within (within_claim ⟨nofun, nofun⟩) issuedOf_stable
        fun _ hw => hw.1) fun _ => ?_
      refine .bind nodes_syncTags fun tagged => ?_
      exact nodes_within (.bind PortedService.within_report fun _ =>
        .bind (within_syncEgressDns ⟨nofun, nofun⟩) fun _ => within_pure _) (writingHonestly _).stable
        fun _ hw => hw
  expose svc annotations ports clusterIp inst ht hparse := by
    subst ht
    refine .bind (nodes_headscaleConnect (writingHonestly _).stable fun _ hw => hw).mapError
      fun headscale w tr ⟨href, hw⟩ => ?_
    refine Triple.bind nodes_resetIfRetargeted (fun _ => ?_) w tr hw
    rw [← href]
    refine .bind nodes_rotateStaleAuthKey fun _ => ?_
    refine .bind (nodes_ensureAuthKey (t := .service svc)) fun status => ?_
    cases status with
    | waitingForUser => exact Triple.pure fun _ hw => hw.1
    | ready =>
      refine .bind nodes_ensureStateSecret fun stateSecret => ?_
      refine .bind (nodes_within (within_applyWireguardService ⟨nofun, nofun⟩) issuedOf_stable
        fun _ hw => hw.1) fun networking => ?_
      refine .bind (nodes_within within_applyProxyRbac issuedOf_stable fun _ hw => hw.1) fun _ => ?_
      refine .bind (nodes_within (PortedService.within_applyExposeProxy ⟨nofun, nofun⟩ ⟨nofun, nofun⟩)
        issuedOf_stable fun _ hw => hw.1) fun _ => ?_
      refine .bind (nodes_within (within_deleteIgnoring404 rfl ⟨nofun, nofun⟩) issuedOf_stable
        fun _ hw => hw.1) fun _ => ?_
      refine .bind (nodes_within (within_claim ⟨nofun, nofun⟩) issuedOf_stable
        fun _ hw => hw.1) fun _ => ?_
      refine .bind nodes_syncTags fun tagged => ?_
      exact nodes_within (.bind PortedService.within_report fun _ => within_pure _)
        (writingHonestly _).stable fun _ hw => hw

end Steps

/-! ## Runs -/

section Runs

variable {read : Reader} {digest : Digest} {dep : Deployment} {parent : ObjectReference}
  {turns : List Turn} {w : Cluster} {events : List (Process.Event Fate (Cluster → Cluster))}
  {s : Pool sig Error Action Cluster}

/-- A node is only named to the headscale that has issued it, as long as the pod writes no node of
    another instance than the state Secret is for. -/
theorem ownNode_of_honest (hone : VersionsOf parent turns) (hstart : Issued (parent.names digest) w)
    (hturns : cluster.Along (cluster.InTurn (writingHonestly (parent.names digest)) fun _ _ _ => True)
      (reconciles read digest dep turns w) events)
    (hexec : cluster.exec (reconciles read digest dep turns w) events = some s) :
    ∀ e ∈ s.history, ownNode (parent.names digest) e.before e.op := by
  have hends : ∀ t ∈ turns, SteadyEnds read digest dep (writingHonestly (parent.names digest))
      (fun _ _ => True) (fun _ => ownNode (parent.names digest)) t := by
    intro t ht
    rw [← hone t ht, ← t.names_eq]
    exact nodes_ends
  have hcalls := exec_steadyTurns (B := fun _ _ _ => True)
    (A := fun _ _ => ownNode (parent.names digest)) hstart hends
    (hturns.mono (InTurn.mono fun _ _ _ _ _ _ => trivial)) hexec
  intro e he
  obtain ⟨later, earlier, heq⟩ := List.append_of_mem he
  obtain ⟨_, _, _, hown⟩ := hcalls.2 e earlier (heq ▸ List.suffix_append later _)
  exact hown

end Runs

namespace Nodes

/-! ### A Service that moves while its pod runs -/

open Orphans (sha256)

def names : ProxyNames := (Shop.external Shop.main).names sha256

/-- The proxy is registered with the headscale `main`, as node 7. -/
def registered : Cluster :=
  { Shop.fresh with
    secrets := Function.update Shop.fresh.secrets names.stateSecretName
      (some { data := [("headscale_ref", .utf8 "main"), ("device_id", .utf8 "7")] })
    issued := fun _ => [("main", 7)] }

/-- The pod writes its node into the state Secret, if there is one. -/
def podWrites (w : Cluster) : Cluster :=
  match w.secrets names.stateSecretName with
  | some secret => w.setSecret names.stateSecretName
      (some { secret with data := Props.extend secret.data [("device_id", .utf8 "7")] })
  | none => w

def tags : Op → Option (String × Nat)
  | .setTags headscale id _ => some (headscale.instanceName, id)
  | _ => none

end Nodes

open Orphans (sha256 deployment) in
open Shop (reader main) in
open Nodes (registered tags) in
/-- The node of a proxy that stays is tagged at its instance. -/
theorem ownNode_of_honest_stays : ∃ s,
    cluster.exec (reconciles reader sha256 deployment [.service (Shop.external main)] registered)
      (Shop.succeeds 0 24) = some s ∧
    (s.history.filterMap fun e => tags e.op) = [("main", 7)] ∧
    ∀ e ∈ s.history, ownNode ((Shop.external main).parent.names sha256) e.before e.op := by
  have hturns : cluster.Along (Process.Machine.ActsInTurn fun _ _ _ => True)
      (reconciles reader sha256 deployment [.service (Shop.external main)] registered)
      (Shop.succeeds 0 24) := by
    decide +kernel
  have hrun : (cluster.exec (reconciles reader sha256 deployment
      [.service (Shop.external main)] registered) (Shop.succeeds 0 24)).any
        (fun s => (s.history.filterMap fun e => tags e.op) == [("main", 7)]) = true := by
    decide +kernel
  obtain ⟨s, hs, hcheck⟩ := Option.any_eq_true _ _ |>.1 hrun
  refine ⟨s, hs, beq_iff_eq.1 hcheck, ownNode_of_honest (List.forall_mem_singleton.2 rfl) ?_
    (hturns.mono ActsInTurn.inTurn) hs⟩
  intro secret hsecret
  have hread : registered.secrets ((Shop.external main).parent.names sha256).stateSecretName =
      some { data := [("headscale_ref", .utf8 "main"), ("device_id", .utf8 "7")] } := by
    decide +kernel
  obtain rfl := Option.some.inj (hread.symm.trans hsecret)
  refine ⟨"main", rfl, fun id hid => ?_⟩
  have hseven : deviceId { data := [("headscale_ref", .utf8 "main"), ("device_id", .utf8 "7")] } =
      some 7 := by
    decide +kernel
  obtain rfl : 7 = id := Option.some.inj (hseven.symm.trans hid)
  exact List.mem_singleton.2 rfl

open Orphans (sha256 deployment) in
open Shop (reader backup) in
open Nodes (registered podWrites tags) in
/-- The Service moves to the instance `backup`, and the pod writes the node of `main` into the new
    state Secret: node 7 of `backup` is given the tags. -/
theorem foreignNode_after_move : ∃ s,
    cluster.exec (reconciles reader sha256 deployment [.service (Shop.external backup)] registered)
      (Shop.succeeds 0 19 ++ .env podWrites :: Shop.succeeds 0 9) = some s ∧
    ¬∀ e ∈ s.history, ownNode ((Shop.external backup).parent.names sha256) e.before e.op := by
  have hrun : (cluster.exec (reconciles reader sha256 deployment
      [.service (Shop.external backup)] registered)
      (Shop.succeeds 0 19 ++ .env podWrites :: Shop.succeeds 0 9)).any (fun s =>
        s.history.any fun e => tags e.op == some ("backup", 7) &&
          e.before.issued ((Shop.external backup).parent.names sha256).proxyName == [("main", 7)]) =
      true := by
    decide +kernel
  obtain ⟨s, hs, hcheck⟩ := Option.any_eq_true _ _ |>.1 hrun
  refine ⟨s, hs, fun hall => ?_⟩
  obtain ⟨e, he, hcheck⟩ := List.any_eq_true.1 hcheck
  simp only [Bool.and_eq_true, beq_iff_eq] at hcheck
  obtain ⟨htags, hissued⟩ := hcheck
  have hown := hall e he
  match hop : e.op, htags with
  | .setTags headscale id _, htags =>
    rw [hop] at hown
    obtain ⟨hname, hid⟩ := Prod.mk.inj (Option.some.inj htags)
    change (headscale.instanceName, id) ∈ e.before.issued _ at hown
    rw [hissued, hname, hid] at hown
    simp at hown

end Headmaster.Operator.Proxy
