import Headmaster.Operator.Proxy.Mints

/-!
# When the identity of a proxy is reset

A proxy that headscale does not let back gets a new key first, and gives up its
node only once it has died on that key. Whether it has is told from when a
container last exited, any container, and however long it had run.

* `tried_of_triesFirst`: the identity is reset only after the container that
  logs in has run with the key, if the exits that count are of such runs
  (`triesFirst`);
* `untried_on_forwarder`: when the other container of an egress proxy exits
  after the key was minted, the identity is reset though the key was never
  tried.
-/

namespace Headmaster.Operator.Proxy

open Process (Made Pool Setting)
open Process.Machine (ActsInTurn InTurn Triple TripleAt)

/-! ## Runs of containers -/

/-- The container that logs in is the only one, or the one beside the forwarder. -/
def isTailscaled (container : String) : Bool := container == "proxy" || container == "tailscale"

def podName (names : ProxyNames) : String := names.proxyName ++ "-0"

namespace Cluster

variable (w : Cluster) (names : ProxyNames)

/-- What the pod says of its containers is what they ran. -/
def Recorded : Prop := ∀ containers ∈ w.pods (podName names), ∀ c ∈ containers, ∀ run ∈ c.last,
  run ∈ w.runs (podName names) ∧ run.container = c.name

/-- The proxy has tried to log in with the last key, and has ended. -/
def Tried : Prop := ∃ m ∈ w.lastMint names, ∃ run ∈ w.runs (podName names),
  isTailscaled run.container = true ∧ (m.time : Int) < run.started

end Cluster

/-- The pod runs its containers, and others leave the record alone. -/
def recording (names : ProxyNames) : Setting Cluster where
  others v w := v.runs (podName names) ⊆ w.runs (podName names) ∧ (v.Recorded names → w.Recorded names)
  refl _ := ⟨List.Subset.refl _, id⟩
  trans h h' := ⟨List.Subset.trans h.1 h'.1, h'.2 ∘ h.2⟩
  inv w := w.Recorded names
  stable _ _ hv h := h.2 hv

/-- Some container died on a key of that age, as far as the operator can tell. -/
def ProxyCrashState.diedSince (crash : ProxyCrashState) (minted : Int) : Bool :=
  crash.crashLooping && crash.lastExit.any (minted < ·)

/-- The last run of the container that logs in began with a key of that age. -/
def triedSince (containers : List Container) (minted : Int) : Bool :=
  containers.any fun c => isTailscaled c.name && c.last.any (minted < ·.started)

/-- When a pod is found to have died on the key, it is by a container that has tried it. -/
def triesFirst (read : Reader) (t : Turn) (names : ProxyNames) (w : Cluster) : Op → Bool
  | .getPod _ => decide (∀ containers ∈ w.pods (podName names),
    ∀ since ∈ (w.secrets names.configSecretName).bind (·.created), ∀ m ∈ w.lastMint names,
    ∀ annotations ∈ (IngressAnnotations.parse read t.metadata).toOption,
      (crashStateOf (containers.map Container.status)).diedSince since = true →
      windowElapsed since annotations.authKeyExpirySecs w.now = false →
      triedSince containers m.time = true)
  | _ => true

/-- The identity is reset only after the key was tried. -/
def resetsTried (names : ProxyNames) (w : Cluster) : Op → Prop
  | .delete (.secret .rejectedIdentity) _ => w.Tried names
  | _ => True

section Steps

variable {read : Reader} {t : Turn} {names : ProxyNames} {v w : Cluster}

theorem tried_mono (hminted : w.minted names.configSecretName = v.minted names.configSecretName)
    (hruns : v.runs (podName names) ⊆ w.runs (podName names)) (h : v.Tried names) : w.Tried names := by
  obtain ⟨m, hm, run, hrun, hcontainer, hstarted⟩ := h
  refine ⟨m, ?_, run, hruns hrun, hcontainer, hstarted⟩
  rwa [Cluster.lastMint, hminted]

theorem recorded_of_changes {a : Area} (h : v.Changes a w) (hv : v.Recorded names) :
    w.Recorded names := by
  intro containers hpod
  rw [h.pods_eq.2]
  exact hv containers (h.pods_eq.1 ▸ hpod)

/-- A run of a container that logs in is in the record. -/
theorem tried_of_triedSince {containers : List Container} {m : Mint} (hw : w.Recorded names)
    (hpod : w.pods (podName names) = some containers) (hm : m ∈ w.lastMint names)
    (h : triedSince containers m.time = true) : w.Tried names := by
  obtain ⟨c, hc, htried⟩ := List.any_eq_true.1 h
  obtain ⟨hname, hstarted⟩ := Bool.and_eq_true_iff.1 htried
  obtain ⟨run, hlast, hstarted⟩ := (Option.any_eq_true _ _).1 hstarted
  obtain ⟨hrun, hcontainer⟩ := hw containers hpod c hc run hlast
  exact ⟨m, hm, run, hrun, hcontainer ▸ hname, of_decide_eq_true hstarted⟩

/-- From a cluster with `P`, a part of a reconcile that ends with a value leaves one with `R`. -/
abbrev TriedTriple {α : Type} (read : Reader) (t : Turn) (names : ProxyNames) (P : Cluster → Prop)
    (p : M α) (R : α → Cluster → Prop) : Prop :=
  cluster.Triple (dating names (recording names)) (fun v o => triesFirst read t names v o)
    (fun _ => resetsTried names) P p R

theorem resetsTried_of_within {o : Op}
    (ho : Within (fun a => a ≠ .rotation) o) : resetsTried names v o := by
  match o, ho with
  | .delete (.secret .rejectedIdentity) _, ho => exact absurd rfl (ho _ rfl)
  | .delete (.secret .cleanup) _, _ | .delete (.secret .retarget) _, _ | .delete (.secret .lost) _, _
  | .delete (.secret .rejectedKey) _, _ | .delete (.secret .expired) _, _ | .delete .statefulSet _, _
  | .delete .service _, _ | .delete .configMap _, _ | .delete .networkPolicy _, _
  | .delete .roleBinding _, _ | .delete .role _, _ | .delete .serviceAccount _, _ | .apply _ _, _
  | .getSecret _, _ | .getInstance _, _ | .getService _ _, _ | .listServices, _ | .getWgService _, _
  | .getNamespace _, _ | .getPod _, _ | .getParent _, _ | .patchParent _ _, _ | .applyOverride _, _
  | .publish _ _, _ | .connect _, _ | .getNode _ _, _ | .deleteNode _ _, _ | .setTags _ _ _, _
  | .listUsers _ _, _ | .createPreAuthKey _ _, _ | .deletePreAuthKey _ _, _ | .now, _
  | .join _, _ => exact trivial

/-! ### Parts of the rotation -/

/-- What is only read or reported. -/
theorem tried_quiet {α : Type} {p : M α} {P : Cluster → Prop} (hp : Quiet p)
    (hstable : (dating names (recording names)).Stable P)
    (hinv : ∀ w, P w → (dating names (recording names)).inv w) :
    TriedTriple read t names P p fun _ => P :=
  triple_of_within hp hstable hinv
    (fun _ _ _ ho _ _ => resetsTried_of_within (ho.mono fun _ => False.elim)) nofun

/-- What is known of the pod, with a Secret of that age: if it has died on the key, the key was
    tried, or is too old. -/
def Judged (names : ProxyNames) (expirySecs : Nat) (since : Int) (crash : ProxyCrashState)
    (w : Cluster) : Prop :=
  (dating names (recording names)).inv w ∧ (crash.diedSince since = true →
    windowElapsed since expirySecs w.now = false → w.Tried names)

theorem judged_stable {expirySecs : Nat} {since : Int} {crash : ProxyCrashState} :
    (dating names (recording names)).Stable (Judged names expirySecs since crash) := by
  intro v w hv h
  refine ⟨(dating _ _).stable hv.1 h, fun hdied helapsed => ?_⟩
  refine tried_mono h.2.1 h.2.2.2.1 (hv.2 hdied (Bool.eq_false_iff.2 fun hearlier => ?_))
  rw [windowElapsed_mono h.2.2.1 hearlier] at helapsed
  cases helapsed

theorem tried_proxyCrashState {annotations : IngressAnnotations} {since : Int}
    (hparse : IngressAnnotations.parse read t.metadata = .ok annotations) :
    TriedTriple read t names
      (fun w => (dating names (recording names)).inv w ∧
        ∃ secret ∈ w.secrets names.configSecretName, secret.created = some since)
      (proxyCrashState names)
      fun crash w => Judged names annotations.authKeyExpirySecs since crash w := by
  refine Triple.bind (R := fun r w => (dating names (recording names)).inv w ∧
    ∀ statuses, r = .ok statuses →
      Judged names annotations.authKeyExpirySecs since (crashStateOf statuses) w) ?_ fun r => ?_
  · refine Triple.op (fun v w hv h => ⟨(dating _ _).stable hv.1 h, h.1 ▸ hv.2⟩) fun _ v hv hB =>
      ⟨trivial, fun f => ?_⟩
    have hsame : (cluster.act f (.getPod (names.proxyName ++ "-0")) v).2 = v := Fate.serve_same
    rw [hsame]
    obtain ⟨hinv, secret, hsecret, hcreated⟩ := hv
    refine ⟨hinv, hinv, fun statuses hr => ⟨hinv, fun hdied helapsed => ?_⟩⟩
    obtain ⟨containers, hpod, rfl⟩ := Option.map_eq_some_iff.1 (find_ok (Fate.serve_ok hr).1)
    obtain ⟨m, hm, _, -⟩ := hinv.1 secret hsecret
    have htried := of_decide_eq_true hB containers hpod since
      (by rw [Option.mem_def.1 hsecret]; exact hcreated) m hm annotations (by rw [hparse]; rfl)
      hdied helapsed
    exact tried_of_triedSince hinv.2 hpod hm htried
  · match r with
    | .ok statuses => exact Triple.pure fun w hw => hw.2 statuses rfl
    | .error .notFound => exact Triple.pure fun w hw => ⟨hw.1, nofun⟩
    | .error .other => exact Triple.throw fun _ hw => hw.1

theorem tried_registrationRefused {annotations : IngressAnnotations}
    (hparse : IngressAnnotations.parse read t.metadata = .ok annotations) :
    TriedTriple read t names (dating names (recording names)).inv
      (registrationRefused names annotations.authKeyExpirySecs) fun refusal w =>
        (dating names (recording names)).inv w ∧ (refusal = .resetIdentity → w.Tried names) := by
  refine triple_getSecret (R := fun secret w => (dating names (recording names)).inv w ∧
    w.secrets names.configSecretName = secret) (dating _ _).stable (fun _ hw => hw)
    (fun _ _ _ _ => trivial) (fun v hv => ⟨hv, rfl⟩) fun secret => ?_
  cases secret with
  | none => exact Triple.pure fun _ hw => ⟨hw.1, nofun⟩
  | some secret =>
    -- a Secret that is there has a date
    cases hcreated : secret.created with
    | none =>
      intro w tr hw
      obtain ⟨_, _, _, hdates⟩ := hw.1.1 secret hw.2
      rw [hdates.created] at hcreated
      cases hcreated
    | some since =>
      refine Triple.bind (R := Judged names annotations.authKeyExpirySecs since)
        (Triple.mono (tried_proxyCrashState hparse) (fun _ hw => ⟨hw.1, secret, hw.2, hcreated⟩)
          fun _ _ hw => hw) fun crash => ?_
      split
      · exact Triple.pure fun _ hw => ⟨hw.1, nofun⟩
      · rename_i hlooping
        have hlooping : crash.crashLooping = true := by simpa using hlooping
        refine TripleAt.bind (R := fun elapsed _ w => (dating names (recording names)).inv w ∧
          (elapsed = false → crash.diedSince since = true → w.Tried names))
          (tripleAt_keyWindowElapsed hcreated (fun _ => judged_stable) (fun _ _ hw => hw.1)
            (fun _ _ _ _ => trivial) fun _ _ hv _ => ⟨hv.1, fun helapsed hdied =>
              hv.2 hdied helapsed⟩) fun elapsed => ?_
        split
        · exact Triple.pure fun _ hw => ⟨hw.1, nofun⟩
        · rename_i helapsed
          rw [hcreated]
          cases hexit : crash.lastExit with
          | none => exact Triple.pure fun _ hw => ⟨hw.1, nofun⟩
          | some exit =>
            refine Triple.pure fun w hw => ⟨hw.1, fun hreset => ?_⟩
            refine hw.2 (Bool.eq_false_iff.2 helapsed) ?_
            have hdied : exit > since := by
              by_contra hnot
              simp [hnot] at hreset
            rw [ProxyCrashState.diedSince, hlooping, hexit]
            exact decide_eq_true hdied

theorem inv_of_changes {a : Area} (h : v.Changes a w) (hsecret : a ≠ .secret names.configSecretName)
    (hkey : a ≠ .key) (hv : (dating names (recording names)).inv v) :
    (dating names (recording names)).inv w :=
  ⟨dated_of_changes h hsecret hkey hv.1, recorded_of_changes h hv.2⟩

/-- Deleting a Secret keeps what is known of the runs, and is allowed for a reason. -/
theorem tried_deleteSecret {P : Cluster → Prop} {why : Deleter} {name : String}
    (hstable : (dating names (recording names)).Stable P)
    (hinv : ∀ w, P w → (dating names (recording names)).inv w)
    (hP : ∀ v, P v → P (v.setSecret name none))
    (hwhy : ∀ v, P v → resetsTried names v (.delete (.secret why) name)) :
    TriedTriple read t names P (deleteIgnoring404 (.secret why) name) fun _ => P := by
  refine tripleAt_deleteSecret (fun _ => hstable) (fun _ v hv _ => hwhy v hv) fun _ v w _ hv hw => ?_
  rcases hw with rfl | rfl
  · exact ⟨hinv w hv, hv⟩
  · exact ⟨hinv _ (hP v hv), hP v hv⟩

theorem tried_deleteOther {why : Deleter} {name : String} (hwhy : why ≠ .rejectedIdentity) :
    TriedTriple read t names (dating names (recording names)).inv
      (deleteIgnoring404 (.secret why) name) fun _ => (dating names (recording names)).inv := by
  refine tried_deleteSecret (dating _ _).stable (fun _ hw => hw)
    (fun v => inv_of_changes (.rotated name) nofun nofun) fun v _ => ?_
  cases why with
  | rejectedIdentity => exact absurd rfl hwhy
  | _ => trivial

theorem tried_resetIdentity :
    TriedTriple read t names
      (fun w => (dating names (recording names)).inv w ∧ w.Tried names)
      (resetIdentity .rejectedIdentity names) fun _ => (dating names (recording names)).inv := by
  have hdelete (name : String) : TriedTriple read t names
      (fun w => (dating names (recording names)).inv w ∧ w.Tried names)
      (deleteIgnoring404 (.secret .rejectedIdentity) name)
      fun _ w => (dating names (recording names)).inv w ∧ w.Tried names :=
    tried_deleteSecret
      (fun _ _ hv h => ⟨(dating _ _).stable hv.1 h, tried_mono h.2.1 h.2.2.2.1 hv.2⟩)
      (fun _ hw => hw.1) (fun v hv => ⟨inv_of_changes (.rotated name) nofun nofun hv.1, hv.2⟩)
      fun _ hv => hv.2
  exact .bind (hdelete _) fun _ => (hdelete _).mono (fun _ hw => hw) fun _ _ hw => hw.1

theorem tried_rotateRegistered {annotations : IngressAnnotations} {parent : ObjectReference}
    {headscale : AuthenticatedClient} {nodeId : Nat}
    (hparse : IngressAnnotations.parse read t.metadata = .ok annotations) :
    TriedTriple read t names (dating names (recording names)).inv
      (rotateRegistered parent headscale names annotations.authKeyExpirySecs nodeId)
      fun _ => (dating names (recording names)).inv := by
  have hwarn {P : Cluster → Prop} {reason note : String}
      (hstable : (dating names (recording names)).Stable P)
      (hinv : ∀ w, P w → (dating names (recording names)).inv w) :
      TriedTriple read t names P (publishWarning parent reason note) fun _ => P :=
    tried_quiet within_publishWarning hstable hinv
  refine .bind (triple_of_within (within_nodeStanding (S := (· = .node)) rfl) (dating _ _).stable
    (fun _ hw => hw) (fun _ _ _ ho _ _ => resetsTried_of_within (ho.mono fun _ ha => ha ▸ nofun))
    fun a v v' ha hchange hv => ?_) fun (lost, online) => ?_
  · exact inv_of_changes hchange (ha ▸ nofun) (ha ▸ nofun) hv
  dsimp only
  split
  · exact .bind (hwarn (dating _ _).stable fun _ hw => hw) fun _ =>
      .bind (tried_deleteOther (by decide)) fun _ => tried_deleteOther (by decide)
  · refine Triple.bind (R := fun refusal w => (dating names (recording names)).inv w ∧
      (refusal = .resetIdentity → w.Tried names)) ?_ fun refusal => ?_
    · split
      · exact Triple.pure fun _ hw => ⟨hw, nofun⟩
      · exact tried_registrationRefused hparse
    · cases refusal with
      | none => exact Triple.pure fun _ hw => hw.1
      | retryWithNewKey =>
        refine Triple.mono ?_ (fun _ hw => hw.1) fun _ _ hw => hw
        exact .bind (hwarn (dating _ _).stable fun _ hw => hw) fun _ => tried_deleteOther (by decide)
      | resetIdentity =>
        refine Triple.mono (P := fun w => (dating names (recording names)).inv w ∧ w.Tried names) ?_
          (fun _ hw => ⟨hw.1, hw.2 rfl⟩) fun _ _ hw => hw
        refine .bind (hwarn (fun _ _ hv h => ?_) fun _ hw => hw.1) fun _ => tried_resetIdentity
        exact ⟨(dating _ _).stable hv.1 h, tried_mono h.2.1 h.2.2.2.1 hv.2⟩

theorem tried_rotateUnregistered {parent : ObjectReference} {expirySecs : Nat} :
    TriedTriple read t names (dating names (recording names)).inv
      (rotateUnregistered parent names expirySecs) fun _ => (dating names (recording names)).inv := by
  refine triple_getSecret (R := fun _ => (dating names (recording names)).inv) (dating _ _).stable
    (fun _ hw => hw) (fun _ _ _ _ => trivial) (fun _ hv => hv) fun secret => ?_
  cases secret with
  | none => exact Triple.pure fun _ hw => hw
  | some secret =>
    refine .bind (tried_quiet (within_keyWindowElapsed _ _) (dating _ _).stable fun _ hw => hw)
      fun elapsed => ?_
    split
    · exact .bind (tried_quiet within_publishWarning (dating _ _).stable fun _ hw => hw) fun _ =>
        tried_deleteOther (by decide)
    · exact Triple.pure fun _ hw => hw

theorem tried_rotation :
    Rotation read t names (recording names) (fun v o => triesFirst read t names v o)
      (fun _ => resetsTried names) fun _ _ => True where
  keeps _ _ _ := recorded_of_changes
  calm _ _ _ ho := resetsTried_of_within (ho.mono fun _ ha => ha.1)
  saved _ _ _ _ _ _ := trivial
  known _ _ _ _ := trivial
  stable _ _ _ _ _ := trivial
  missing _ _ _ := trivial
  rotate headscale annotations hparse := by
    have hrotate : TriedTriple read t names (dating names (recording names)).inv
        (rotateStaleAuthKey t.parent headscale names annotations.authKeyExpirySecs)
        fun _ => (dating names (recording names)).inv := by
      refine triple_getSecret (R := fun _ => (dating names (recording names)).inv)
        (dating _ _).stable (fun _ hw => hw) (fun _ _ _ _ => trivial) (fun _ hv => hv) fun secret => ?_
      split
      · exact tried_rotateRegistered hparse
      · exact tried_rotateUnregistered
    exact TripleAt.mono hrotate (fun _ _ hw => hw) fun _ _ _ hw => ⟨hw, trivial⟩

end Steps

/-! ## Runs -/

section Runs

variable {read : Reader} {digest : Digest} {dep : Deployment} {parent : ObjectReference}
  {turns : List Turn} {w : Cluster} {events : List (Process.Event Fate (Cluster → Cluster))}
  {s : Pool sig Error Action Cluster}

/-- The identity of a proxy is reset only after its key was tried, as long as the exits that count
    are of runs that began with it. -/
theorem tried_of_triesFirst (hone : VersionsOf parent turns)
    (hstart : w.Dated (parent.names digest) ∧ w.Recorded (parent.names digest))
    (hturns : cluster.Along (cluster.InTurn
      (dating (parent.names digest) (recording (parent.names digest)))
      fun i v o => ∀ t ∈ turns[i]?, triesFirst read t (parent.names digest) v o = true)
      (reconciles read digest dep turns w) events)
    (hexec : cluster.exec (reconciles read digest dep turns w) events = some s) :
    ∀ e ∈ s.history, resetsTried (parent.names digest) e.before e.op := by
  have hends : ∀ t ∈ turns, SteadyEnds read digest dep
      (dating (parent.names digest) (recording (parent.names digest)))
      (fun v o => triesFirst read t (parent.names digest) v o)
      (fun _ => resetsTried (parent.names digest)) t := by
    intro t ht
    rw [← hone t ht, ← t.names_eq]
    exact rotation_ends tried_rotation
  have hcalls := exec_steadyTurns
    (B := fun t v o => triesFirst read t (parent.names digest) v o)
    (A := fun _ _ => resetsTried (parent.names digest)) hstart hends hturns hexec
  intro e he
  obtain ⟨later, earlier, heq⟩ := List.append_of_mem he
  obtain ⟨_, _, _, htried⟩ := hcalls.2 e earlier (heq ▸ List.suffix_append later _)
  exact htried

end Runs

namespace Identity

/-! ### A Service whose pod crashes -/

open Shop (names)

/-- The pod with the two containers, of which one is crashing, after a run that began later than
    the key. -/
def crashing (container : String) : List Container :=
  ["tailscale", "forwarder"].map fun name =>
    { name
      waitingReason := if name = container then some "CrashLoopBackOff" else none
      last := if name = container then some ⟨name, 10, 20⟩ else none }

/-- The proxy has registered as node 7, and now it crashes. -/
def crashes (container : String) (w : Cluster) : Cluster :=
  { w with
    now := 100
    secrets := Function.update w.secrets names.stateSecretName
      (some { data := [("headscale_ref", .utf8 "main"), ("device_id", .utf8 "7")] })
    pods := fun _ => some (crashing container)
    runs := fun _ => [⟨container, 10, 20⟩] }

def resets : Op → Bool
  | .delete (.secret .rejectedIdentity) _ => true
  | _ => false

end Identity

open Orphans (sha256 deployment) in
open Shop (reader main names keyed) in
open Identity (crashes resets) in
/-- The container that logs in has crashed with the key: the identity is reset. -/
theorem tried_of_triesFirst_crashed : ∃ s,
    cluster.exec (reconciles reader sha256 deployment [.service (Shop.external main)]
      (crashes "tailscale" (keyed 600 100))) (Shop.succeeds 0 24) = some s ∧
    (s.history.any fun e => resets e.op) = true ∧
    ∀ e ∈ s.history, resetsTried ((Shop.external main).parent.names sha256) e.before e.op := by
  have hturns : cluster.Along (Process.Machine.ActsInTurn fun i v o =>
      ∀ t ∈ [Turn.service (Shop.external main)][i]?, triesFirst reader t names v o = true)
      (reconciles reader sha256 deployment [.service (Shop.external main)]
        (crashes "tailscale" (keyed 600 100))) (Shop.succeeds 0 24) := by
    decide +kernel
  have hrun : (cluster.exec (reconciles reader sha256 deployment [.service (Shop.external main)]
      (crashes "tailscale" (keyed 600 100))) (Shop.succeeds 0 24)).any
        (fun s => s.history.any fun e => resets e.op) = true := by
    decide +kernel
  obtain ⟨s, hs, hcheck⟩ := Option.any_eq_true _ _ |>.1 hrun
  refine ⟨s, hs, hcheck, tried_of_triesFirst (List.forall_mem_singleton.2 rfl) ⟨?_, ?_⟩
    (hturns.mono ActsInTurn.inTurn) hs⟩
  · have hother : names.configSecretName ≠ names.stateSecretName := by decide +kernel
    have hsame : (crashes "tailscale" (keyed 600 100)).secrets names.configSecretName =
        (keyed 600 100).secrets names.configSecretName := by
      simp [crashes, Function.update_of_ne hother]
    exact fun secret hsecret => Shop.dated_keyed 600 100 (by decide) secret (hsame.symm.trans hsecret)
  · intro containers hpod
    obtain rfl := Option.some.inj hpod
    decide +kernel

open Orphans (sha256 deployment) in
open Shop (reader main names) in
open Identity (crashes resets) in
/-- The proxy registers with its first key, and its forwarder crashes: the identity is reset, and
    the container that logs in has not ended once. -/
theorem untried_on_forwarder : ∃ s,
    cluster.exec (reconciles reader sha256 deployment
      [.service (Shop.external main), .service (Shop.external main)] Shop.fresh)
      (Shop.succeeds 0 20 ++ .env (crashes "forwarder") :: Shop.succeeds 1 20) = some s ∧
    ¬∀ e ∈ s.history, resetsTried names e.before e.op := by
  have hrun : (cluster.exec (reconciles reader sha256 deployment
      [.service (Shop.external main), .service (Shop.external main)] Shop.fresh)
      (Shop.succeeds 0 20 ++ .env (crashes "forwarder") :: Shop.succeeds 1 20)).any (fun s =>
        s.history.any fun e => resets e.op &&
          (e.before.runs (podName names)).all fun run => !isTailscaled run.container) = true := by
    decide +kernel
  obtain ⟨s, hs, hcheck⟩ := Option.any_eq_true _ _ |>.1 hrun
  refine ⟨s, hs, fun hall => ?_⟩
  obtain ⟨e, he, hcheck⟩ := List.any_eq_true.1 hcheck
  obtain ⟨hresets, hruns⟩ := Bool.and_eq_true_iff.1 hcheck
  have htried := hall e he
  match hop : e.op, hresets with
  | .delete (.secret .rejectedIdentity) _, _ =>
    rw [hop] at htried
    obtain ⟨_, _, run, hrun, hcontainer, _⟩ := htried
    have hnot := List.all_eq_true.1 hruns run hrun
    rw [hcontainer] at hnot
    cases hnot

end Headmaster.Operator.Proxy
