import Headmaster.Operator.Proxy.Runs

/-!
# The age of a key

The key of a proxy is in its config Secret, which is created when the key was
minted (`Cluster.Dated`): its creation is the only clock that the operator has
for the key. What the rotation of a key makes sure of, whatever it is, the rest
of a reconcile keeps (`Rotation`, `rotation_ends`).
-/

namespace Headmaster.Operator.Proxy

open Process (Made Pool Setting)
open Process.Machine (Triple TripleAt)

/-! ## Keys by the clock -/

/-- The window of a key has passed by the clock. -/
def windowElapsed (since : Int) (expirySecs now : Nat) : Bool :=
  min (since + min (expirySecs : Int) i64Max) i64Max < (now : Int)

theorem windowElapsed_mono {since : Int} {expirySecs now later : Nat} (hle : now ≤ later)
    (h : windowElapsed since expirySecs now = true) : windowElapsed since expirySecs later = true := by
  rw [windowElapsed, decide_eq_true_eq] at h ⊢
  omega

/-- The mint of the key in a config Secret, by the expiry that headscale was asked for. -/
structure Mint.Dates (m : Mint) (secret : Secret) (since : Int) : Prop where
  key : extractAuthKey secret = some m.key
  created : secret.created = some since
  minted_le : m.time ≤ since
  expiration_le : m.expiration ≤ m.time + m.lifetime
  expiration_le_max : m.expiration ≤ i64Max

namespace Cluster

variable (w : Cluster) (names : ProxyNames)

/-- The last mint for a proxy. -/
def lastMint : Option Mint := (w.minted names.configSecretName).head?

/-- The key that is there is the one that was minted last, not after its Secret was created. -/
def Dated : Prop := ∀ secret ∈ w.secrets names.configSecretName,
  ∃ m ∈ w.lastMint names, ∃ since, m.Dates secret since

end Cluster

/-- Others leave the keys of a proxy alone, and time goes on; the rest is as in another setting. -/
def dating (names : ProxyNames) (S : Setting Cluster) : Setting Cluster where
  others v w := w.secrets names.configSecretName = v.secrets names.configSecretName ∧
    w.minted names.configSecretName = v.minted names.configSecretName ∧ v.now ≤ w.now ∧ S.others v w
  refl w := ⟨rfl, rfl, le_rfl, S.refl w⟩
  trans h h' := ⟨h'.1.trans h.1, h'.2.1.trans h.2.1, h.2.2.1.trans h'.2.2.1,
    S.trans h.2.2.2 h'.2.2.2⟩
  inv w := w.Dated names ∧ S.inv w
  stable v w hv h := by
    refine ⟨fun secret hsecret => ?_, S.stable hv.2 h.2.2.2⟩
    rw [Cluster.lastMint, h.2.1]
    exact hv.1 secret (h.1 ▸ hsecret)

section Steps

variable {names : ProxyNames} {v w : Cluster} {a : Area}

/-- A key that goes leaves nothing to be dated. -/
theorem dated_of_changes (h : v.Changes a w) (hsecret : a ≠ .secret names.configSecretName)
    (hkey : a ≠ .key) (hv : v.Dated names) : w.Dated names := by
  intro secret hmem
  rw [Cluster.lastMint, h.minted_eq hkey]
  rcases h.secrets_apply hsecret with hs | hs
  · exact hv secret (hs ▸ hmem)
  · rw [hs] at hmem
    cases hmem

theorem dated_of_none (h : w.secrets names.configSecretName = none) : w.Dated names := by
  intro secret hmem
  rw [h] at hmem
  cases hmem

/-- A new Secret for the key that was minted last. -/
theorem dated_setSecret {key : String} {m : Mint} (hnone : w.secrets names.configSecretName = none)
    (hm : m ∈ w.lastMint names) (hkey : m.key = key) (hempty : key ≠ "") (htime : m.time ≤ w.now)
    (hexp : m.expiration ≤ m.time + m.lifetime) (hmax : m.expiration ≤ i64Max) :
    (w.setSecret names.configSecretName
      (some (w.appliedSecret names.configSecretName [("key", .utf8 key)]))).Dated names := by
  intro secret hmem
  rw [Cluster.secrets_setSecret] at hmem
  obtain rfl := Option.some.inj hmem
  refine ⟨m, hm, w.now, ⟨?_, ?_, Int.ofNat_le.2 htime, hexp, hmax⟩⟩
  · rw [extractAuthKey, readSecretString_appliedSecret]
    simp [hkey, hempty]
  · rw [Cluster.appliedSecret, hnone]

end Steps

/-! ## Requests -/

section Requests

variable {S : Setting Cluster} {B : Cluster → Op → Prop}
  {A : List (Made sig) → Cluster → Op → Prop} {P R : List (Made sig) → Cluster → Prop}

/-- The clock is read, unless a Secret has no date. -/
theorem tripleAt_keyWindowElapsed {secret : Secret} {since : Int} {expirySecs : Nat}
    {R : Bool → List (Made sig) → Cluster → Prop} (hcreated : secret.created = some since)
    (hstable : ∀ tr, S.Stable (P tr)) (hinv : ∀ tr w, P tr w → S.inv w)
    (hA : ∀ tr v, P tr v → B v .now → A tr v .now)
    (hR : ∀ tr v, P tr v → B v .now →
      R (windowElapsed since expirySecs v.now) (⟨.now, v.now⟩ :: tr) v) :
    cluster.TripleAt S B A (fun _ => S.inv) P (keyWindowElapsed secret expirySecs) R := by
  rw [keyWindowElapsed, hcreated]
  refine TripleAt.bind (R := fun now => R (windowElapsed since expirySecs now)) ?_ fun now =>
    TripleAt.pure fun _ _ hw => hw
  exact TripleAt.op hstable fun tr v hv hB => ⟨hA tr v hv hB, fun _ => ⟨hinv tr v hv, hR tr v hv hB⟩⟩

/-- A Secret is told to go, and may have gone. -/
theorem tripleAt_deleteSecret {why : Deleter} {name : String} (hstable : ∀ tr, S.Stable (P tr))
    (hA : ∀ tr v, P tr v → B v (.delete (.secret why) name) → A tr v (.delete (.secret why) name))
    (hR : ∀ tr v w r, P tr v → w = v ∨ w = v.setSecret name none →
      S.inv w ∧ R (⟨.delete (.secret why) name, r⟩ :: tr) w) :
    cluster.TripleAt S B A (fun _ => S.inv) P (deleteIgnoring404 (.secret why) name) fun _ => R := by
  refine TripleAt.bind (R := fun _ tr w => S.inv w ∧ R tr w) (TripleAt.op hstable fun tr v hv hB =>
    ⟨hA tr v hv hB, fun f => ?_⟩) fun r w tr hw => ?_
  · obtain ⟨hinv, hnext⟩ := hR tr v _ (cluster.act f (.delete (.secret why) name) v).1 hv
      Fate.serve_snd
    exact ⟨hinv, hinv, hnext⟩
  · cases ignoring404 r with
    | error e => exact hw.1
    | ok a => exact hw.2

end Requests

/-! ## Reconciles -/

/-- A rotation of the key that leaves `T` of the calls so far, in a setting where only Secrets that
    are written, and those that go for a new key, are to be looked at. -/
structure Rotation (read : Reader) (t : Turn) (names : ProxyNames) (S : Setting Cluster)
    (B : Cluster → Op → Prop) (A : List (Made sig) → Cluster → Op → Prop)
    (T : List (Made sig) → Cluster → Prop) : Prop where
  keeps : ∀ a v v', v.Changes a v' → S.inv v → S.inv v'
  calm : ∀ o tr v, Within (fun a => a ≠ .rotation ∧ ∀ name, a ≠ .secret name) o → A tr v o
  saved : ∀ child name data tr v, T tr v → A tr v (.apply child (.secret name data))
  known : ∀ c tr v, T tr v → T (c :: tr) v
  stable : ∀ tr, (dating names S).Stable (T tr)
  missing : ∀ tr v, (⟨.getSecret names.configSecretName, find none⟩ : Made sig) ∈ tr → T tr v
  rotate : ∀ headscale annotations, IngressAnnotations.parse read t.metadata = .ok annotations →
    cluster.TripleAt (dating names S) B A (fun _ => (dating names S).inv)
      (fun _ => (dating names S).inv)
      (rotateStaleAuthKey t.parent headscale names annotations.authKeyExpirySecs)
      fun _ tr w => (dating names S).inv w ∧ T tr w

namespace Rotation

variable {read : Reader} {t : Turn} {names : ProxyNames} {S : Setting Cluster}
  {B : Cluster → Op → Prop} {A : List (Made sig) → Cluster → Op → Prop}
  {T : List (Made sig) → Cluster → Prop} {α : Type} {p : M α}

/-- There is no key, as the proxy has found out. -/
def Bare (names : ProxyNames) (S : Setting Cluster) (tr : List (Made sig)) (w : Cluster) : Prop :=
  S.inv w ∧ w.secrets names.configSecretName = none ∧
    (⟨.getSecret names.configSecretName, find none⟩ : Made sig) ∈ tr

theorem bare_stable (tr : List (Made sig)) : (dating names S).Stable (Bare names S tr) :=
  fun _ _ hv h => ⟨S.stable hv.1 h.2.2.2, h.1.trans hv.2.1, hv.2.2⟩

theorem Bare.inv {tr : List (Made sig)} {w : Cluster} (h : Bare names S tr w) :
    (dating names S).inv w := ⟨dated_of_none h.2.1, h.1⟩

/-- There is none, and this one was minted for the proxy. -/
def Minted (names : ProxyNames) (S : Setting Cluster) (key : String) (tr : List (Made sig))
    (w : Cluster) : Prop :=
  Bare names S tr w ∧ ∃ m ∈ w.lastMint names, m.key = key ∧ m.time ≤ w.now ∧
    m.expiration ≤ m.time + m.lifetime ∧ m.expiration ≤ i64Max

variable (h : Rotation read t names S B A T)

include h

/-- What neither writes a key nor mints one. -/
theorem triple_within (hp : p.Uses (Within fun a => (a ≠ .rotation ∧ ∀ name, a ≠ .secret name) ∧
      a ≠ .key)) :
    cluster.Steady (dating names S) B A p :=
  triple_of_within hp (dating names S).stable (fun _ hw => hw)
    (fun o tr _ ho _ _ => h.calm o tr _ (ho.mono fun _ ha => ha.1))
    fun a v v' ha hchange hv => ⟨dated_of_changes hchange (ha.1.2 _) ha.2 hv.1,
      h.keeps a v v' hchange hv.2⟩

theorem tripleAt_bare (hp : Quiet p) {n : Nat} :
    cluster.TripleAt (dating names S) B A (fun _ => (dating names S).inv)
      (fun tr w => Bare names S tr w ∧ n ≤ w.now) p fun _ tr w => Bare names S tr w ∧ n ≤ w.now :=
  tripleAt_quiet hp (fun tr _ _ hv h => ⟨bare_stable tr hv.1 h, hv.2.trans h.2.2.1⟩)
    (fun _ _ hw => hw.1.inv)
    (fun _ _ _ hv => ⟨⟨hv.1.1, hv.1.2.1, List.mem_cons_of_mem _ hv.1.2.2⟩, hv.2⟩)
    fun o tr _ ho _ _ => h.calm o tr _ (ho.mono fun _ ha => ha.elim)

variable {headscale : AuthenticatedClient} {child : ChildApplier}
  {request : CreatePreAuthKeyRequest} {n : Nat}

/-- A key is minted, with the expiry that is asked for. -/
theorem tripleAt_createPreAuthKey (hfor : request.configSecretName = names.configSecretName)
    (hexp : request.expiration ≤ n + request.lifetime) (hmax : request.expiration ≤ i64Max) :
    cluster.TripleAt (dating names S) B A (fun _ => (dating names S).inv)
      (fun tr w => Bare names S tr w ∧ n ≤ w.now) (call (.createPreAuthKey headscale request))
      fun r tr w => Bare names S tr w ∧
        ∀ key, r = .ok (some key) → key.key ≠ "" ∧ Minted names S key.key tr w := by
  refine TripleAt.op (fun tr _ _ hv h => ⟨bare_stable tr hv.1 h, hv.2.trans h.2.2.1⟩)
    fun tr v hv _ => ⟨h.calm _ _ _ (within_some rfl ⟨nofun, fun _ => nofun⟩), fun f => ?_⟩
  -- Whether or not a key was minted, there is no Secret for it yet.
  have hbare : Bare names S (⟨.createPreAuthKey headscale request,
      (cluster.act f (.createPreAuthKey headscale request) v).1⟩ :: tr)
      (cluster.act f (.createPreAuthKey headscale request) v).2 := by
    have hkey : Within (fun a => a = .key) (.createPreAuthKey headscale request) :=
      within_some rfl rfl
    refine hkey.keeps (fun a v' ha hchange => ?_)
      ⟨hv.1.1, hv.1.2.1, List.mem_cons_of_mem _ hv.1.2.2⟩
    subst ha
    refine ⟨h.keeps _ _ _ hchange hv.1.1, ?_, List.mem_cons_of_mem _ hv.1.2.2⟩
    rw [hchange.secrets_eq nofun nofun fun _ => nofun]
    exact hv.1.2.1
  refine ⟨hbare.inv, hbare, fun key hkey => ?_⟩
  obtain ⟨hempty, hminted⟩ := mint_ok hkey
  refine ⟨hempty, hbare, ?_⟩
  have hafter : (cluster.act f (.createPreAuthKey headscale request) v).2 =
      v.recordMint request.configSecretName
        ⟨headscale.instanceName, key.key, v.now, request.expiration, request.lifetime⟩ := hminted
  rw [hafter]
  refine ⟨⟨headscale.instanceName, key.key, v.now, request.expiration, request.lifetime⟩, ?_, rfl,
    le_rfl, ?_, hmax⟩
  · rw [Cluster.lastMint, hfor, Cluster.minted_recordMint]
    rfl
  · have hnow := hv.2
    dsimp only
    omega

theorem tripleAt_applyConfigSecret {key : String} (hempty : key ≠ "") :
    cluster.TripleAt (dating names S) B A (fun _ => (dating names S).inv)
      (Minted names S key) (applyConfigSecret child names key) fun _ tr w =>
        (dating names S).inv w ∧ T tr w := by
  refine TripleAt.bind (R := fun _ tr w => (dating names S).inv w ∧ T tr w) ?_ fun r => ?_
  · refine TripleAt.op (fun tr _ _ hv h => ⟨bare_stable tr hv.1 h, ?_⟩) fun tr v hv _ =>
      ⟨h.saved _ _ _ tr v (h.missing tr v hv.1.2.2), fun f => ?_⟩
    · -- Nobody else mints for this Secret, and the clock only goes on.
      obtain ⟨m, hm, hkey, htime, hexp⟩ := hv.2
      refine ⟨m, ?_, hkey, htime.trans h.2.2.1, hexp⟩
      rwa [Cluster.lastMint, h.2.1]
    · have hwithin : Within (fun a => a = .secret names.configSecretName)
          (.apply child (.secret names.configSecretName [("key", .utf8 key)])) :=
        within_some rfl rfl
      obtain ⟨m, hm, hkey, htime, hexp, hmax⟩ := hv.2
      have hset : (v.setSecret names.configSecretName (some (v.appliedSecret
          names.configSecretName [("key", .utf8 key)]))).Dated names :=
        dated_setSecret hv.1.2.1 hm hkey hempty htime hexp hmax
      have hinv : (dating names S).inv (cluster.act f (.apply child (.secret names.configSecretName
          [("key", .utf8 key)])) v).2 := by
        refine ⟨?_, hwithin.keeps (fun a v' _ hchange => h.keeps a v v' hchange hv.1.1) hv.1.1⟩
        rcases Fate.serve_snd with hs | hs
        · exact hs ▸ dated_of_none hv.1.2.1
        · exact hs ▸ hset
      exact ⟨hinv, hinv, h.missing _ _ (List.mem_cons_of_mem _ hv.1.2.2)⟩
  · cases r with
    | error e => exact TripleAt.throw fun _ _ hw => hw.1
    | ok a => exact TripleAt.pure fun _ _ hw => hw

theorem tripleAt_mintAuthKey (hfor : request.configSecretName = names.configSecretName)
    (hexp : request.expiration ≤ n + request.lifetime) (hmax : request.expiration ≤ i64Max) :
    cluster.TripleAt (dating names S) B A (fun _ => (dating names S).inv)
      (fun tr w => Bare names S tr w ∧ n ≤ w.now) (mintAuthKey headscale child names request)
      fun _ tr w => (dating names S).inv w ∧ T tr w := by
  refine TripleAt.bind (h.tripleAt_createPreAuthKey hfor hexp hmax) fun r => ?_
  match r with
  | .error e => exact TripleAt.throw fun _ _ hw => hw.1.inv
  | .ok none => exact TripleAt.throw fun _ _ hw => hw.1.inv
  | .ok (some key) =>
    refine TripleAt.mono (TripleAt.of_and (P := Minted names S key.key) fun hempty => ?_)
      (fun tr w hw => hw.2 key rfl) fun _ _ _ hw => hw
    refine TripleAt.bind (p := (applyConfigSecret child names key.key).attempt)
      (h.tripleAt_applyConfigSecret hempty).attempt fun saved => ?_
    match saved with
    | .ok () => exact TripleAt.pure fun _ _ hw => hw
    | .error e =>
      -- The key is deleted again, although the Secret may have been written.
      refine TripleAt.bind (R := fun _ _ => (dating names S).inv) ?_ fun _ =>
        TripleAt.throw fun _ _ hw => hw
      exact TripleAt.op (fun _ => (dating names S).stable) fun _ _ hv _ =>
        ⟨h.calm _ _ _ (within_some rfl ⟨nofun, fun _ => nofun⟩), fun _ => ⟨hv, hv⟩⟩

/-- There is a key after, and it is dated. -/
theorem tripleAt_ensureAuthKey {parent : ObjectReference} {user : Option String}
    {managedKeyTags : List String} {autoTag : Option String} {expirySecs : Nat}
    {reusable ephemeral : Bool} :
    cluster.TripleAt (dating names S) B A (fun _ => (dating names S).inv)
      (fun tr w => (dating names S).inv w ∧ T tr w)
      (ensureAuthKey parent headscale child names user managedKeyTags autoTag expirySecs reusable
        ephemeral) fun _ tr w => (dating names S).inv w ∧ T tr w := by
  refine TripleAt.bind (R := fun key tr w =>
    if key.isSome then (dating names S).inv w ∧ T tr w else Bare names S tr w) ?_ fun key => ?_
  · refine tripleAt_getSecret (R := fun secret tr w =>
      if secret.isSome then (dating names S).inv w ∧ T tr w ∧ secret = w.secrets names.configSecretName
      else Bare names S tr w) (fun tr _ _ hv hvw => ⟨(dating names S).stable hv.1 hvw,
        h.stable tr hv.2 hvw⟩) (fun _ _ hw => hw.1)
      (fun tr v _ _ => h.calm _ tr v (within_none rfl)) (fun tr v hv _ => ?_) fun secret => ?_
    · cases hsecret : v.secrets names.configSecretName with
      | none => exact ⟨hv.1.2, hsecret, List.mem_cons_self⟩
      | some secret => exact ⟨hv.1, h.known _ _ _ hv.2, rfl⟩
    · refine TripleAt.pure fun tr w hw => ?_
      match secret with
      | none => exact hw
      | some secret =>
        obtain ⟨hinv, hT, hsecret⟩ := hw
        -- no key is written but one that can be read
        obtain ⟨m, -, _, hdates⟩ := hinv.1 secret hsecret.symm
        rw [Option.bind_some, hdates.key]
        exact ⟨hinv, hT⟩
  · split
    · rename_i hsome
      exact TripleAt.pure fun _ _ hw => by simpa [hsome] using hw
    · rename_i hnone
      refine TripleAt.mono (P := Bare names S) ?_ (fun _ _ hw => by simpa [hnone] using hw)
        fun _ _ _ hw => hw
      refine TripleAt.bind (R := fun (now : Nat) tr w => Bare names S tr w ∧ now ≤ w.now) ?_
        fun now => ?_
      · refine TripleAt.op bare_stable fun tr v hv _ =>
          ⟨h.calm _ _ _ (within_none rfl), fun f => ?_⟩
        exact ⟨hv.inv, ⟨hv.1, hv.2.1, List.mem_cons_of_mem _ hv.2.2⟩, le_rfl⟩
      refine TripleAt.bind (h.tripleAt_bare within_userIdOf) fun userId => ?_
      cases userId with
      | none => exact TripleAt.pure fun tr w hw => ⟨hw.1.inv, h.missing tr w hw.1.2.2⟩
      | some userId =>
        refine TripleAt.bind (h.tripleAt_mintAuthKey rfl ?_ ?_) fun _ => TripleAt.pure fun _ _ hw => hw
        · dsimp only
          split <;> omega
        · dsimp only
          split <;> omega

theorem triple_ensureStateSecret {headscaleRef : String}
    (hne : names.configSecretName ≠ names.stateSecretName) :
    cluster.TripleAt (dating names S) B A (fun _ => (dating names S).inv)
      (fun tr w => (dating names S).inv w ∧ T tr w) (ensureStateSecret child names headscaleRef)
      fun _ _ => (dating names S).inv := by
  refine TripleAt.bind (R := fun _ _ => (dating names S).inv) ?_ fun _ =>
    h.triple_within (.bind (within_quiet rfl) fun _ => within_fromKube _)
  refine TripleAt.bind (R := fun _ _ => (dating names S).inv) ?_ fun _ =>
    h.triple_within (within_fromKube _)
  refine TripleAt.op (fun tr _ _ hv hvw => ⟨(dating names S).stable hv.1 hvw,
    h.stable tr hv.2 hvw⟩) fun tr v hv _ => ⟨h.saved _ _ _ tr v hv.2, fun f => ?_⟩
  have hwithin : Within (fun a => a = .secret names.stateSecretName)
      (.apply child (.secret names.stateSecretName [("headscale_ref", .utf8 headscaleRef)])) :=
    within_some rfl rfl
  have hinv := hwithin.keeps (f := f) (P := (dating names S).inv) (fun a v' ha hchange =>
    ⟨dated_of_changes hchange (by rw [ha]; exact fun he => hne (Area.secret.inj he).symm)
      (by rw [ha]; nofun) hv.1.1, h.keeps a v v' hchange hv.1.2⟩) hv.1
  exact ⟨hinv, hinv⟩

/-- The steps that lead to a Secret for the node, and the rest. -/
theorem steady_provision {headscaleRef opNs : String} {headscale : AuthenticatedClient}
    {annotations : IngressAnnotations} {autoTag : Option String} {ephemeral : Bool}
    {waiting : M Action} {ready : Secret → M Action}
    (hne : names.configSecretName ≠ names.stateSecretName)
    (hparse : IngressAnnotations.parse read t.metadata = .ok annotations)
    (hwaiting : Quiet waiting) (hready : ∀ secret, cluster.Steady (dating names S) B A (ready secret)) :
    cluster.Steady (dating names S) B A (do
      resetIfRetargeted opNs names headscaleRef
      rotateStaleAuthKey t.parent headscale names annotations.authKeyExpirySecs
      match ← ensureAuthKey t.parent headscale child names annotations.user annotations.managedKeyTags
          autoTag annotations.authKeyExpirySecs annotations.authKeyReusable ephemeral with
      | .waitingForUser => waiting
      | .ready => ensureStateSecret child names headscaleRef >>= ready) := by
  refine .bind (h.triple_within (within_resetIfRetargeted ⟨⟨nofun, fun _ => nofun⟩, nofun⟩
    ⟨⟨nofun, fun _ => nofun⟩, nofun⟩)) fun _ => ?_
  refine TripleAt.bind (h.rotate headscale annotations hparse) fun _ => ?_
  refine TripleAt.bind h.tripleAt_ensureAuthKey fun status => ?_
  cases status with
  | waitingForUser =>
    refine TripleAt.mono (h.triple_within (.mono hwaiting fun _ ho => ho.mono fun _ => False.elim))
      (fun _ _ hw => hw.1) fun _ _ _ hw => hw
  | ready => exact TripleAt.bind (h.triple_ensureStateSecret hne) hready

end Rotation

/-- Nothing but the rotation of a key is to be looked at. -/
theorem rotation_ends {read : Reader} {digest : Digest} {dep : Deployment} {t : Turn}
    {S : Setting Cluster} {B : Cluster → Op → Prop} {A : List (Made sig) → Cluster → Op → Prop}
    {T : List (Made sig) → Cluster → Prop} (h : Rotation read t (t.names digest) S B A T) :
    SteadyEnds read digest dep (dating (t.names digest) S) B A t := by
  have hne : (t.names digest).configSecretName ≠ (t.names digest).stateSecretName := by
    rw [t.names_eq]
    exact t.parent.configSecretName_ne digest
  have hconnect {ref opNs : String} : cluster.Steady (dating (t.names digest) S) B A
      ((headscaleConnect opNs ref).mapError Error.kube) :=
    h.triple_within (.mapError (within_headscaleConnect _ _))
  refine ⟨fun o tr _ ho _ _ => h.calm o tr _ (ho.mono fun _ => False.elim),
    h.triple_within (within_syncEgressDns ⟨⟨nofun, fun _ => nofun⟩, nofun⟩), fun p hp => ?_,
    fun ing annotations inst hostNetwork routes ht hparse => ?_,
    fun svc annotations tailnetFqdn inst ht hparse => ?_,
    fun svc annotations ports clusterIp inst ht hparse => ?_⟩
  · exact h.triple_within (hp.within ⟨⟨nofun, fun _ => nofun⟩, nofun⟩
      ⟨⟨nofun, fun _ => nofun⟩, nofun⟩ ⟨⟨nofun, fun _ => nofun⟩, nofun⟩
      ⟨⟨nofun, fun _ => nofun⟩, nofun⟩ ⟨⟨nofun, fun _ => nofun⟩, nofun⟩)
  · subst ht
    refine .bind hconnect fun headscale => ?_
    refine .bind (h.triple_within (within_applyWireguardService ⟨⟨nofun, fun _ => nofun⟩, nofun⟩))
      fun networking => ?_
    refine h.steady_provision (t := .ingress ing) hne hparse (within_pure _) fun secret => ?_
    exact h.triple_within (.bind (within_apply rfl ⟨⟨nofun, fun _ => nofun⟩, nofun⟩) fun _ =>
      .bind within_applyProxyRbac fun _ =>
      .bind (within_apply rfl ⟨⟨nofun, fun _ => nofun⟩, nofun⟩) fun _ =>
      .bind (within_syncTags ⟨⟨nofun, fun _ => nofun⟩, nofun⟩) fun _ =>
      .bind RoutedIngress.within_report fun _ =>
      .bind (within_claim ⟨⟨nofun, fun _ => nofun⟩, nofun⟩) fun _ => within_pure _)
  · subst ht
    refine .bind hconnect fun headscale => ?_
    refine h.steady_provision (t := .service svc) hne hparse (within_pure _) fun secret => ?_
    exact h.triple_within (.bind (within_apply rfl ⟨⟨nofun, fun _ => nofun⟩, nofun⟩) fun _ =>
      .bind within_applyProxyRbac fun _ =>
      .bind (within_apply rfl ⟨⟨nofun, fun _ => nofun⟩, nofun⟩) fun _ =>
      .bind (within_applyConsumerPolicy ⟨⟨nofun, fun _ => nofun⟩, nofun⟩) fun _ =>
      .bind (within_claim ⟨⟨nofun, fun _ => nofun⟩, nofun⟩) fun _ =>
      .bind (within_syncTags ⟨⟨nofun, fun _ => nofun⟩, nofun⟩) fun _ =>
      .bind PortedService.within_report fun _ =>
      .bind (within_syncEgressDns ⟨⟨nofun, fun _ => nofun⟩, nofun⟩) fun _ => within_pure _)
  · subst ht
    refine .bind hconnect fun headscale => ?_
    refine h.steady_provision (t := .service svc) hne hparse (within_pure _) fun secret => ?_
    exact h.triple_within (
      .bind (within_applyWireguardService ⟨⟨nofun, fun _ => nofun⟩, nofun⟩) fun _ =>
      .bind within_applyProxyRbac fun _ =>
      .bind (PortedService.within_applyExposeProxy ⟨⟨nofun, fun _ => nofun⟩, nofun⟩
        ⟨⟨nofun, fun _ => nofun⟩, nofun⟩) fun _ =>
      .bind (within_deleteIgnoring404 rfl ⟨⟨nofun, fun _ => nofun⟩, nofun⟩) fun _ =>
      .bind (within_claim ⟨⟨nofun, fun _ => nofun⟩, nofun⟩) fun _ =>
      .bind (within_syncTags ⟨⟨nofun, fun _ => nofun⟩, nofun⟩) fun _ =>
      .bind PortedService.within_report fun _ => within_pure _)

namespace Shop

/-! ### The Service with a key -/

def names : ProxyNames := (external main).names Orphans.sha256

/-- The proxy has a key, minted when time began, and that much time has passed since. -/
def keyed (lifetime age : Nat) : Cluster :=
  { fresh with
    now := age
    secrets := Function.update fresh.secrets names.configSecretName
      (some { data := [("key", .utf8 "key")], created := some 0 })
    minted := fun _ => [⟨"main", "key", 0, lifetime, lifetime⟩] }

theorem dated_keyed (lifetime age : Nat) (hmax : (lifetime : Int) ≤ i64Max) :
    (keyed lifetime age).Dated names := by
  intro secret hsecret
  have hread : (keyed lifetime age).secrets names.configSecretName =
      some { data := [("key", .utf8 "key")], created := some 0 } := by
    simp [keyed]
  obtain rfl := Option.some.inj (hread.symm.trans hsecret)
  have hkey : extractAuthKey { data := [("key", .utf8 "key")], created := some 0 } = some "key" := by
    decide +kernel
  exact ⟨_, rfl, 0, ⟨hkey, rfl, le_rfl, by simp, hmax⟩⟩

end Shop

end Headmaster.Operator.Proxy
