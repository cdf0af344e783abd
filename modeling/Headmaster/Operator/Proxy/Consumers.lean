import Headmaster.Operator.Proxy.Runs

/-!
# The consumers of an egress proxy

An egress proxy whose configuration declares consumers is to be reached by those
only. Its StatefulSet is applied before the NetworkPolicy that says so, and when
the proxy is taken down, the policy may go first; either step may be the last
one that succeeds.

* `closed_of_seamless`: the proxy is closed to others as long as its policy is
  there before it, and not deleted under it (`seamless`);
* `open_on_failure`: the first reconcile of a Service with consumers leaves the
  proxy open when the policy cannot be applied.
-/

namespace Headmaster.Operator.Proxy

open Process (Made Pool Setting)
open Process.Machine (ActsInTurn InTurn Triple)

/-- The policy that a proxy must be behind. -/
def requiredPolicy (names : ProxyNames) : ProxyStatefulSet → Option NetworkPolicy
  | .egress _ _ _ _ _ forwards consumers =>
    if consumers.isEmpty then none else some (buildConsumerPolicy names consumers forwards)
  | _ => none

/-- A proxy with consumers admits those only. -/
def Closed (names : ProxyNames) (w : Cluster) : Prop :=
  ∀ policy ∈ (w.statefulSets names.proxyName).bind (requiredPolicy names),
    w.policies names.proxyName = some policy

/-- The policy is in place before its proxy, and is not deleted before it. -/
def seamless (names : ProxyNames) (w : Cluster) : Op → Bool
  | .apply _ (.statefulSet _ spec) =>
    (requiredPolicy names spec).all fun policy => w.policies names.proxyName = some policy
  | .delete .networkPolicy _ =>
    ((w.statefulSets names.proxyName).bind (requiredPolicy names)).isNone
  | _ => true

/-- Others leave the proxy and its policy alone. -/
def keepingProxy (names : ProxyNames) : Setting Cluster where
  others v w := w.statefulSets names.proxyName = v.statefulSets names.proxyName ∧
    w.policies names.proxyName = v.policies names.proxyName
  refl _ := ⟨rfl, rfl⟩
  trans h h' := ⟨h'.1.trans h.1, h'.2.trans h.2⟩
  inv := Closed names
  stable _ _ h h' := by rwa [Closed, h'.1, h'.2]

section Steps

variable {read : Reader} {digest : Digest} {dep : Deployment} {names : ProxyNames} {t : Turn}
  {v w : Cluster} {α : Type} {p : M α}

/-- In other areas nothing is opened. -/
theorem closed_of_changes {a : Area} (hsts : a ≠ .statefulSet) (hpolicy : a ≠ .policy)
    (h : v.Changes a w) (hv : Closed names v) : Closed names w := by
  cases h with
  | stopped name =>
    intro policy hmem
    by_cases hname : names.proxyName = name
    · simp [Cluster.setStatefulSet, hname] at hmem
    · simp only [Cluster.setStatefulSet, Function.update_of_ne hname] at hmem
      exact hv policy hmem
  | statefulSet => exact absurd rfl hsts
  | policy => exact absurd rfl hpolicy
  | _ => exact hv

/-- What is guaranteed at a call: nothing. -/
abbrev Unguarded (_ : List (Made sig)) (_ : Cluster) (_ : Op) : Prop := True

theorem closed_within (hp : p.Uses (Within fun a => a ≠ .statefulSet ∧ a ≠ .policy)) :
    cluster.Steady (keepingProxy names) (fun v o => seamless names v o) Unguarded p :=
  triple_of_within hp (keepingProxy names).stable (fun _ hw => hw) (fun _ _ _ _ _ _ => trivial)
    fun _ _ _ ha hchange hv => closed_of_changes ha.1 ha.2 hchange hv

/-- An egress proxy is only applied behind its policy. -/
theorem closed_applyStatefulSet {child : ChildApplier} {spec : ProxyStatefulSet} :
    cluster.Triple (keepingProxy names) (fun v o => seamless names v o) Unguarded (Closed names)
      (apply child (.statefulSet names.proxyName spec))
      fun _ v => Closed names v ∧ v.statefulSets names.proxyName = some spec := by
  refine triple_apply (keepingProxy names).stable fun _ v hv hseamless => ⟨trivial, fun f => ?_⟩
  have hclosed : Closed names (v.setStatefulSet names.proxyName (some spec)) := by
    intro policy hmem
    simp only [Cluster.setStatefulSet, Function.update_self, Option.bind_some] at hmem
    have hall := (Option.all_eq_true _ _).1 hseamless policy hmem
    exact of_decide_eq_true hall
  refine ⟨?_, fun hok => ?_⟩
  · rcases Fate.serve_snd with hs | hs
    · exact hs ▸ hv
    · exact hs ▸ hclosed
  · obtain ⟨-, hs⟩ := Fate.serve_ok hok
    exact hs ▸ ⟨hclosed, Function.update_self ..⟩

/-- No policy is deleted before its proxy. -/
theorem closed_deletePolicy (hv : Closed names v) {name : String} (f : Fate)
    (hseamless : seamless names v (.delete .networkPolicy name) = true) :
    Closed names (cluster.act f (.delete .networkPolicy name) v).2 := by
  rcases Fate.serve_snd with hs | hs
  · exact hs ▸ hv
  · refine hs ▸ fun policy hmem => ?_
    change policy ∈ (v.statefulSets names.proxyName).bind (requiredPolicy names) at hmem
    rw [Option.isNone_iff_eq_none.1 hseamless] at hmem
    cases hmem

theorem closed_deleteNetworkPolicy {name : String} :
    cluster.Steady (keepingProxy names) (fun v o => seamless names v o) Unguarded
      (deleteIgnoring404 .networkPolicy name) := by
  refine triple_deleteIgnoring404 (keepingProxy names).stable fun _ v hv hseamless => ?_
  exact ⟨trivial, fun f => ⟨closed_deletePolicy hv f hseamless,
    fun _ => closed_deletePolicy hv f hseamless⟩⟩

/-- The policy for the consumers closes the proxy that is there for them. -/
theorem closed_applyConsumerPolicy {child : ChildApplier} {consumers : List EgressConsumer}
    {forwards : List (Int × Int)} {spec : ProxyStatefulSet}
    (hspec : requiredPolicy names spec =
      if consumers.isEmpty then none else some (buildConsumerPolicy names consumers forwards)) :
    cluster.Triple (keepingProxy names) (fun v o => seamless names v o) Unguarded
      (fun v => Closed names v ∧ v.statefulSets names.proxyName = some spec)
      (applyConsumerPolicy child names consumers forwards) fun _ => Closed names := by
  have hstable : (keepingProxy names).Stable
      fun v => Closed names v ∧ v.statefulSets names.proxyName = some spec :=
    fun v w hv hvw => ⟨(keepingProxy names).stable hv.1 hvw, hvw.1.trans hv.2⟩
  rw [applyConsumerPolicy]
  split
  · exact closed_deleteNetworkPolicy.mono (fun v hv => hv.1) fun _ _ hv => hv
  · rename_i hsome
    refine Triple.bind (R := fun _ v => Closed names v ∧ v.statefulSets names.proxyName = some spec)
      ?_ fun _ => ?_
    · have hchecks : (consumers.forM (checkConsumer child.parent)).Uses (Within fun _ => False) :=
        .forM fun _ _ => within_checkConsumer
      exact triple_of_within hchecks hstable (fun v hv => hv.1) (fun _ _ _ _ _ _ => trivial)
        fun _ _ _ h => h.elim
    · refine triple_apply hstable fun _ v hv _ => ⟨trivial, fun f => ?_⟩
      have hclosed : Closed names (v.setPolicy names.proxyName
          (some (buildConsumerPolicy names consumers forwards))) := by
        intro policy hmem
        change policy ∈ (v.statefulSets names.proxyName).bind (requiredPolicy names) at hmem
        rw [hv.2, Option.bind_some, hspec, if_neg hsome] at hmem
        obtain rfl := Option.some.inj hmem
        exact Function.update_self ..
      refine ⟨?_, fun hok => (Fate.serve_ok hok).2 ▸ hclosed⟩
      rcases Fate.serve_snd with hs | hs
      · exact hs ▸ hv.1
      · exact hs ▸ hclosed

/-! ### Whole reconciles -/

theorem closed_applyExposeProxy {svc : PortedService} {annotations : IngressAnnotations}
    {ports : List Int} {clusterIp : Option String} {inst : Instance} {child : ChildApplier}
    {networking : ProxyNetworking} :
    cluster.Steady (keepingProxy (svc.names digest)) (fun v o => seamless (svc.names digest) v o)
      Unguarded
      (svc.applyExposeProxy digest dep annotations ports clusterIp inst child networking) := by
  rw [PortedService.applyExposeProxy.eq_def]
  dsimp only
  split
  · exact .bind (closed_within (within_apply rfl (by decide))) fun _ =>
      closed_applyStatefulSet.mono (fun _ hv => hv) fun _ _ hv => hv.1
  · split
    · exact closed_within (within_throw _)
    · exact closed_within (within_throw _)
    · exact .bind (closed_applyStatefulSet.mono (fun _ hv => hv) fun _ _ hv => hv.1) fun _ =>
        closed_within (within_deleteIgnoring404 rfl (by decide))

theorem closed_leaving {p : M Unit} (h : Leaving read digest dep t p) :
    cluster.Steady (keepingProxy names) (fun v o => seamless names v o) Unguarded p := by
  have hcleanup : (cleanupProxyResources (t.names digest)).Uses fun o : Op =>
      Within (fun a => a ≠ .statefulSet ∧ a ≠ .policy) o ∨ ∃ name, o = .delete .networkPolicy name := by
    refine uses_cleanupProxyResources (.inl (within_none rfl)) fun kind name _ => ?_
    cases kind with
    | networkPolicy => exact .inr ⟨name, rfl⟩
    | statefulSet | service | configMap => exact .inl (within_some rfl ⟨nofun, nofun⟩)
    | secret deleter => cases deleter <;> exact .inl (within_some rfl ⟨nofun, nofun⟩)
    | roleBinding | role | serviceAccount => exact .inl (within_none rfl)
  refine Triple.of_uses (h.uses (fun _ ho => .inl (ho.mono ?_)) hcleanup) (keepingProxy names).stable
    (fun _ hw => hw) ?_
  · rintro o tr v (ho | ⟨name, rfl⟩) hv hseamless
    · exact ⟨trivial, fun _ => ho.keeps (fun a v' ha hchange =>
        closed_of_changes ha.1 ha.2 hchange hv) hv⟩
    · exact ⟨trivial, fun f => closed_deletePolicy hv f hseamless⟩
  · rintro _ rfl
    exact ⟨nofun, nofun⟩

theorem closed_ends (hnames : t.names digest = names) :
    SteadyEnds read digest dep (keepingProxy names) (fun v o => seamless names v o) Unguarded t where
  quiet _ _ _ _ _ _ := trivial
  dns := closed_within (within_syncEgressDns ⟨nofun, nofun⟩)
  leave _ hp := closed_leaving hp
  ingress ing annotations inst hostNetwork routes ht _ := by
    subst ht hnames
    refine .bind (closed_within (.mapError (within_headscaleConnect _ _))) fun headscale => ?_
    refine .bind (closed_within (within_applyWireguardService ⟨nofun, nofun⟩)) fun networking => ?_
    refine .bind (closed_within (within_resetIfRetargeted ⟨nofun, nofun⟩ ⟨nofun, nofun⟩)) fun _ => ?_
    refine .bind (closed_within (within_rotateStaleAuthKey ⟨nofun, nofun⟩ ⟨nofun, nofun⟩)) fun _ => ?_
    refine .bind (closed_within (within_ensureAuthKey ⟨nofun, nofun⟩ ⟨nofun, nofun⟩)) fun status => ?_
    cases status with
    | waitingForUser => exact closed_within (within_pure _)
    | ready =>
      refine .bind (closed_within (within_ensureStateSecret ⟨nofun, nofun⟩)) fun stateSecret => ?_
      refine .bind (closed_within (within_apply rfl ⟨nofun, nofun⟩)) fun _ => ?_
      refine .bind (closed_within within_applyProxyRbac) fun _ => ?_
      refine .bind (closed_applyStatefulSet.mono (fun _ hv => hv) fun _ _ hv => hv.1) fun _ => ?_
      refine .bind (closed_within (within_syncTags ⟨nofun, nofun⟩)) fun tagged => ?_
      exact closed_within (.bind RoutedIngress.within_report fun _ =>
        .bind (within_claim ⟨nofun, nofun⟩) fun _ => within_pure _)
  egress svc annotations tailnetFqdn inst ht _ := by
    subst ht hnames
    refine .bind (closed_within (.mapError (within_headscaleConnect _ _))) fun headscale => ?_
    refine .bind (closed_within (within_resetIfRetargeted ⟨nofun, nofun⟩ ⟨nofun, nofun⟩)) fun _ => ?_
    refine .bind (closed_within (within_rotateStaleAuthKey ⟨nofun, nofun⟩ ⟨nofun, nofun⟩)) fun _ => ?_
    refine .bind (closed_within (within_ensureAuthKey ⟨nofun, nofun⟩ ⟨nofun, nofun⟩)) fun status => ?_
    cases status with
    | waitingForUser => exact closed_within (within_pure _)
    | ready =>
      refine .bind (closed_within (within_ensureStateSecret ⟨nofun, nofun⟩)) fun stateSecret => ?_
      refine .bind (closed_within (within_apply rfl ⟨nofun, nofun⟩)) fun _ => ?_
      refine .bind (closed_within within_applyProxyRbac) fun _ => ?_
      refine .bind closed_applyStatefulSet fun _ => ?_
      refine .bind (closed_applyConsumerPolicy rfl) fun _ => ?_
      refine .bind (closed_within (within_claim ⟨nofun, nofun⟩)) fun _ => ?_
      refine .bind (closed_within (within_syncTags ⟨nofun, nofun⟩)) fun tagged => ?_
      exact closed_within (.bind PortedService.within_report fun _ =>
        .bind (within_syncEgressDns ⟨nofun, nofun⟩) fun _ => within_pure _)
  expose svc annotations ports clusterIp inst ht _ := by
    subst ht hnames
    refine .bind (closed_within (.mapError (within_headscaleConnect _ _))) fun headscale => ?_
    refine .bind (closed_within (within_resetIfRetargeted ⟨nofun, nofun⟩ ⟨nofun, nofun⟩)) fun _ => ?_
    refine .bind (closed_within (within_rotateStaleAuthKey ⟨nofun, nofun⟩ ⟨nofun, nofun⟩)) fun _ => ?_
    refine .bind (closed_within (within_ensureAuthKey ⟨nofun, nofun⟩ ⟨nofun, nofun⟩)) fun status => ?_
    cases status with
    | waitingForUser => exact closed_within (within_pure _)
    | ready =>
      refine .bind (closed_within (within_ensureStateSecret ⟨nofun, nofun⟩)) fun stateSecret => ?_
      refine .bind (closed_within (within_applyWireguardService ⟨nofun, nofun⟩)) fun networking => ?_
      refine .bind (closed_within within_applyProxyRbac) fun _ => ?_
      refine .bind closed_applyExposeProxy fun _ => ?_
      refine .bind closed_deleteNetworkPolicy fun _ => ?_
      refine .bind (closed_within (within_claim ⟨nofun, nofun⟩)) fun _ => ?_
      refine .bind (closed_within (within_syncTags ⟨nofun, nofun⟩)) fun tagged => ?_
      exact closed_within (.bind PortedService.within_report fun _ => within_pure _)

end Steps

/-! ## Runs -/

variable {read : Reader} {digest : Digest} {dep : Deployment} {parent : ObjectReference}
  {turns : List Turn} {w : Cluster} {events : List (Process.Event Fate (Cluster → Cluster))}
  {s : Pool sig Error Action Cluster}

/-- A proxy is closed to others wherever its reconciles stop, as long as they leave no gap. -/
theorem closed_of_seamless (hone : VersionsOf parent turns) (hstart : Closed (parent.names digest) w)
    (hturns : cluster.Along (cluster.InTurn (keepingProxy (parent.names digest)) fun _ v o =>
      seamless (parent.names digest) v o) (reconciles read digest dep turns w) events)
    (hexec : cluster.exec (reconciles read digest dep turns w) events = some s) :
    Closed (parent.names digest) s.world := by
  refine (exec_steadyTurns (B := fun _ v o => seamless (parent.names digest) v o) hstart
    (fun t ht => closed_ends ?_) (hturns.mono (InTurn.mono fun _ _ _ hB _ _ => hB)) hexec).1
  rw [t.names_eq, hone t ht]

namespace Consumers

/-! ### A Service for one namespace -/

def config : String :=
  "\x7b\"headscale-ref\":\"main\",\"managed-key-tags\":[\"tag:db\"],\"tailnet-fqdn\":\"db.ts.net\"," ++
    "\"consumers\":[\x7b\"namespace\":\"web\"\x7d]\x7d"

def reader : Reader := fun s =>
  if s = config then
    some (.object [("headscale-ref", .string "main"),
      ("managed-key-tags", .array [.string "tag:db"]), ("tailnet-fqdn", .string "db.ts.net"),
      ("consumers", .array [.object [("namespace", .string "web")]])])
  else none

def db : PortedService := Shop.external config

/-- The policy is there already. -/
def guarded : Cluster :=
  Shop.fresh.setPolicy (db.names Orphans.sha256).proxyName
    (some (buildConsumerPolicy (db.names Orphans.sha256) [⟨"web", none⟩] [(5432, 5432)]))

end Consumers

open Orphans (sha256 deployment) in
open Consumers (reader db guarded) in
/-- The proxy starts behind the policy, and is behind it at the end. -/
theorem closed_of_seamless_guarded : ∃ s,
    cluster.exec (reconciles reader sha256 deployment [.service db] guarded)
      (Shop.succeeds 0 21) = some s ∧
    (s.world.statefulSets (db.names sha256).proxyName).isSome = true ∧
    Closed (db.parent.names sha256) s.world := by
  have hturns : cluster.Along (Process.Machine.ActsInTurn fun _ v o =>
      seamless (db.parent.names sha256) v o)
      (reconciles reader sha256 deployment [.service db] guarded) (Shop.succeeds 0 21) := by
    decide +kernel
  have hrun : (cluster.exec (reconciles reader sha256 deployment [.service db] guarded)
      (Shop.succeeds 0 21)).any
        (fun s => (s.world.statefulSets (db.names sha256).proxyName).isSome) = true := by
    decide +kernel
  obtain ⟨s, hs, hcheck⟩ := Option.any_eq_true _ _ |>.1 hrun
  refine ⟨s, hs, hcheck, closed_of_seamless ?_ ?_ (hturns.mono ActsInTurn.inTurn) hs⟩
  · exact List.forall_mem_singleton.2 rfl
  · exact fun _ hmem => nomatch hmem

open Orphans (sha256 deployment) in
open Consumers (reader db) in
/-- When the policy cannot be applied, the proxy is there without it. -/
theorem open_on_failure : ∃ s,
    cluster.exec (reconciles reader sha256 deployment [.service db] Shop.fresh)
      (Shop.succeeds 0 20 ++ [Shop.fails 0]) = some s ∧
    (s.threads.map fun p => p.result?.isSome) = [true] ∧
    ¬Closed (db.parent.names sha256) s.world := by
  have hrun : (cluster.exec (reconciles reader sha256 deployment [.service db] Shop.fresh)
      (Shop.succeeds 0 20 ++ [Shop.fails 0])).any (fun s =>
        ((s.threads.map fun p => p.result?.isSome) == [true]) &&
        ((s.world.statefulSets (db.parent.names sha256).proxyName).bind
          (requiredPolicy (db.parent.names sha256))).isSome &&
        (s.world.policies (db.parent.names sha256).proxyName).isNone) = true := by
    decide +kernel
  obtain ⟨s, hs, hcheck⟩ := Option.any_eq_true _ _ |>.1 hrun
  simp only [Bool.and_eq_true, beq_iff_eq] at hcheck
  obtain ⟨⟨hended, hrequired⟩, hnone⟩ := hcheck
  obtain ⟨policy, hpolicy⟩ := Option.isSome_iff_exists.1 hrequired
  refine ⟨s, hs, hended, fun hclosed => ?_⟩
  rw [Closed, Option.isNone_iff_eq_none.1 hnone] at hclosed
  cases hclosed policy hpolicy

end Headmaster.Operator.Proxy
