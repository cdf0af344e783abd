import Headmaster.Operator.Proxy.Runs

/-!
# The children of a Service that changes

A Service is exposed in userspace, in the kernel or on the network of its host,
or is an egress, and may be edited from any of these to any other. Each has
other children, some of which cannot be patched into what they are to be.

* `shape_of_prepared`: after a reconcile that got as far as the claim of the
  Service there are the children of its shape, if an egress does not find those
  of an exposed Service (`prepared`);
* `headless_on_egress`: an egress keeps the headless Service, and the serve
  configuration, of the exposed Service that it was.
-/

namespace Headmaster.Operator.Proxy

open Process (Made Pool Setting trace)
open Process.Machine (ActsInTurn Amid InTurn TripleAt)

/-! ## Shapes -/

def ServiceSpec.isHeadless (spec : ServiceSpec) : Bool := spec.clusterIp == some "None"

/-- Which children there are, and of what kind the Service in front of the proxy is. -/
structure Shape where
  serveConfig : Bool
  policy : Bool
  headless : Bool
  deriving DecidableEq

/-- What a Service is to have, by its type and configuration. -/
def PortedService.shape (svc : PortedService) (annotations : IngressAnnotations) : Shape :=
  if svc.isExternalName then ⟨false, !annotations.consumers.isEmpty, false⟩
  else ⟨annotations.mode == .tsnet, false, usesHostNetwork annotations⟩

/-- What a proxy has, if it has a Service. -/
def Cluster.shape (w : Cluster) (names : ProxyNames) : Option Shape :=
  (w.children names.wgServiceName).map fun spec =>
    ⟨(w.configMaps names.serveConfigmapName).isSome, (w.policies names.proxyName).isSome,
      spec.isHeadless⟩

/-- The children are those of the Service, as it is. -/
def Shaped (read : Reader) (names : ProxyNames) (t : Turn) (w : Cluster) : Prop :=
  ∀ svc annotations, t = .service svc → IngressAnnotations.parse read svc.metadata = .ok annotations →
    w.shape names = some (svc.shape annotations)

/-- Others leave the children of a proxy alone. -/
def keepingShape (names : ProxyNames) : Setting Cluster where
  others v w := w.children names.wgServiceName = v.children names.wgServiceName ∧
    w.configMaps names.serveConfigmapName = v.configMaps names.serveConfigmapName ∧
    w.policies names.proxyName = v.policies names.proxyName
  refl _ := ⟨rfl, rfl, rfl⟩
  trans h h' := ⟨h'.1.trans h.1, h'.2.1.trans h.2.1, h'.2.2.trans h.2.2⟩
  inv _ := True
  stable _ _ _ _ := trivial

/-- When the Service of an egress is applied, there is no serve configuration, and no headless
    Service. -/
def prepared (names : ProxyNames) (t : Turn) (w : Cluster) : Op → Bool
  | .apply _ (.service _ _) => match t with
    | .ingress _ => true
    | .service svc => !svc.isExternalName || ((w.configMaps names.serveConfigmapName).isNone &&
        (w.children names.wgServiceName).all fun spec => !spec.isHeadless)
  | _ => true

def isClaim : Op → Bool
  | .patchParent _ (.claim _ _) => true
  | _ => false

/-- The object was claimed. -/
def claimed (tr : List (Made sig)) : Bool := tr.any fun c => isClaim c.op

section Steps

variable {read : Reader} {digest : Digest} {dep : Deployment} {t : Turn} {names : ProxyNames}
  {v w : Cluster} {α : Type} {p : M α}

theorem shape_eq (h : (keepingShape names).others v w) : w.shape names = v.shape names := by
  rw [Cluster.shape, Cluster.shape, h.1, h.2.1, h.2.2]

theorem shaped_stable : (keepingShape names).Stable (Shaped read names t) :=
  fun _ _ hv h svc annotations ht hparse => (shape_eq h).trans (hv svc annotations ht hparse)

/-- What is no child of these kinds. -/
theorem keepingShape_of_changes {a : Area} (h : v.Changes a w) (hservice : a ≠ .service)
    (hconfigMap : a ≠ .configMap) (hpolicy : a ≠ .policy) : (keepingShape names).others v w :=
  ⟨congrFun (h.children_eq hservice) _, congrFun (h.configMaps_eq hconfigMap) _,
    congrFun (h.policies_eq hpolicy) _⟩

/-- From calls and a cluster with `P`, a part of a reconcile that ends with a value leaves some with
    `R`. -/
abbrev ShapeTriple (names : ProxyNames) (t : Turn) (P : List (Made sig) → Cluster → Prop) (p : M α)
    (R : α → List (Made sig) → Cluster → Prop) : Prop :=
  cluster.TripleAt (keepingShape names) (fun v o => prepared names t v o = true)
    (fun _ _ _ => True) (fun _ _ => True) P p R

/-- Before the claim, the cluster has `F`. -/
def Before (F : Cluster → Prop) (tr : List (Made sig)) (w : Cluster) : Prop :=
  claimed tr = false ∧ F w

theorem claimed_cons {tr : List (Made sig)} {o : Op} {a : o.Ans} (ho : isClaim o = false) :
    claimed (⟨o, a⟩ :: tr) = claimed tr := by
  rw [claimed, List.any_cons, ho, Bool.false_or]
  rfl

theorem before_cons {F G : Cluster → Prop} {tr : List (Made sig)} {o : Op} {a : o.Ans}
    (ho : isClaim o = false) (h : Before F tr v) (hG : G w) : Before G (⟨o, a⟩ :: tr) w :=
  ⟨(claimed_cons ho).trans h.1, hG⟩

theorem isClaim_of_within {Areas : Area → Prop} (hclaim : ¬Areas .claim) {o : Op}
    (ho : Within Areas o) : isClaim o = false := by
  match o, ho with
  | .patchParent _ (.claim _ _), ho => exact absurd (ho _ rfl) hclaim
  | .patchParent _ (.addFinalizer _), _ | .patchParent _ (.removeFinalizer _), _
  | .patchParent _ .clearStatus, _ | .patchParent _ (.loadBalancer _), _
  | .patchParent _ (.release _ _), _ | .apply _ _, _ | .getSecret _, _ | .getInstance _, _
  | .getService _ _, _ | .listServices, _ | .getWgService _, _ | .getNamespace _, _ | .getPod _, _
  | .getParent _, _ | .delete _ _, _ | .applyOverride _, _ | .publish _ _, _ | .connect _, _
  | .getNode _ _, _ | .deleteNode _ _, _ | .setTags _ _ _, _ | .listUsers _ _, _
  | .createPreAuthKey _ _, _ | .deletePreAuthKey _ _, _ | .now, _ | .join _, _ => rfl

/-- What keeps the children before the claim. -/
theorem shape_within {Areas : Area → Prop} {F : Cluster → Prop} (hp : p.Uses (Within Areas))
    (hclaim : ¬Areas .claim) (hF : (keepingShape names).Stable F)
    (hkeeps : ∀ a v v', Areas a → v.Changes a v' → F v → F v') :
    ShapeTriple names t (Before F) p fun _ => Before F :=
  tripleAt_of_within (S := keepingShape names) hp (fun _ _ _ hv h => ⟨hv.1, hF hv.2 h⟩)
    (fun _ _ _ => trivial) (fun _ _ _ _ ho hv => before_cons (isClaim_of_within hclaim ho) hv hv.2)
    (fun _ _ _ _ _ _ => trivial) fun a _ v v' ha hchange hv => ⟨hv.1, hkeeps a v v' ha hchange hv.2⟩

/-- What has nothing to do with these children. -/
theorem shape_apart {F : Cluster → Prop} (hp : p.Uses (Within fun a => a ≠ .service ∧
      a ≠ .configMap ∧ a ≠ .policy ∧ a ≠ .claim)) (hF : (keepingShape names).Stable F) :
    ShapeTriple names t (Before F) p fun _ => Before F :=
  shape_within hp (fun hclaim => hclaim.2.2.2 rfl) hF fun _ _ _ ha hchange hv =>
    hF hv (keepingShape_of_changes hchange ha.1 ha.2.1 ha.2.2.1)

/-- What comes after the claim keeps the children that are there. -/
theorem shape_after (hp : p.Uses (Within fun a => a ≠ .service ∧ a ≠ .configMap ∧ a ≠ .policy)) :
    ShapeTriple names t (fun _ => Shaped read names t) p fun _ _ => Shaped read names t :=
  tripleAt_of_within (S := keepingShape names) hp (fun _ => shaped_stable) (fun _ _ _ => trivial)
    (fun _ _ _ _ _ hv => hv) (fun _ _ _ _ _ _ => trivial) fun _ _ _ _ ha hchange hv =>
      shaped_stable hv (keepingShape_of_changes hchange ha.1 ha.2.1 ha.2.2)

/-- A request whose failure ends the reconcile. -/
theorem shape_fromKube {o : Op} {g : o.Ans → Except KubeError α} {F : Cluster → Prop}
    {G : α → Cluster → Prop} (ho : isClaim o = false) (hF : (keepingShape names).Stable F)
    (h : ∀ v, F v → prepared names t v o = true → ∀ f a, g (cluster.act f o v).1 = .ok a →
      G a (cluster.act f o v).2) :
    ShapeTriple names t (Before F) (call o >>= fun r => fromKube (g r)) fun a => Before (G a) := by
  refine TripleAt.bind (R := fun r tr w => ∀ a, g r = .ok a → Before (G a) tr w) ?_ fun r w tr hw => ?_
  · refine TripleAt.op (fun _ _ _ hv hvw => ⟨hv.1, hF hv.2 hvw⟩) fun tr v hv hB =>
      ⟨trivial, fun f => ⟨trivial, fun a ha => ?_⟩⟩
    exact before_cons ho hv (h v hv.2 hB f a ha)
  · cases hr : g r with
    | error e => trivial
    | ok a => exact hw a hr

/-! ### The Service in front of a proxy -/

/-- It is there, and headless or not. -/
def Fronted (names : ProxyNames) (headless : Bool) (w : Cluster) : Prop :=
  (w.children names.wgServiceName).map ServiceSpec.isHeadless = some headless

theorem fronted_stable {headless : Bool} : (keepingShape names).Stable (Fronted names headless) := by
  intro v w hv h
  rw [Fronted, h.1]
  exact hv

/-- A Service is headless as it was, or else as it is applied. -/
theorem fronted_applyService {spec : ServiceSpec} {headless : Bool}
    (hspec : spec.isHeadless = headless)
    (hold : ∀ old ∈ w.children names.wgServiceName, old.isHeadless = headless)
    (hok : (w.applyService names.wgServiceName spec).1 = .ok ()) :
    Fronted names headless (w.applyService names.wgServiceName spec).2 := by
  rw [Cluster.applyService] at hok ⊢
  cases hchild : w.children names.wgServiceName with
  | none => simp [Fronted, Cluster.setChild, hspec]
  | some old =>
    rw [hchild] at hok
    dsimp only at hok ⊢
    split at hok
    · cases hok
    · rename_i hkept
      rw [if_neg hkept]
      simp [Fronted, Cluster.setChild, ServiceSpec.isHeadless, ← hold old hchild]

theorem applyService_apart {spec : ServiceSpec} {name : String} :
    (w.applyService name spec).2.configMaps = w.configMaps ∧
      (w.applyService name spec).2.policies = w.policies := by
  rcases w.changes_applyService name spec with hsame | hchanges
  · rw [hsame]
    exact ⟨rfl, rfl⟩
  · exact ⟨hchanges.configMaps_eq nofun, hchanges.policies_eq nofun⟩

/-- A Service that is there is of the kind that is wanted, or goes. -/
theorem shape_ensureServiceShape {headless : Bool} :
    ShapeTriple names t (Before fun _ => True) (ensureServiceShape names headless) fun _ =>
      Before fun w => ∀ old ∈ w.children names.wgServiceName, old.isHeadless = headless := by
  have hstable : (keepingShape names).Stable fun w =>
      ∀ old ∈ w.children names.wgServiceName, old.isHeadless = headless :=
    fun _ _ hv h old hold => hv old (h.1 ▸ hold)
  refine TripleAt.bind (R := fun r tr w => claimed tr = false ∧
    (∀ svc, r = .ok svc → ∃ spec ∈ w.children names.wgServiceName, svc.clusterIp = spec.clusterIp) ∧
    (r = .error .notFound → w.children names.wgServiceName = none)) ?_ fun r => ?_
  · refine TripleAt.op (fun _ _ _ hv _ => ⟨hv.1, trivial⟩) fun tr v hv _ =>
      ⟨trivial, fun f => ⟨trivial, (claimed_cons rfl).trans hv.1, ?_, ?_⟩⟩
    · intro svc hr
      have hsame : (cluster.act f (.getWgService names.wgServiceName) v).2 = v := Fate.serve_same
      obtain ⟨spec, hspec, rfl⟩ := Option.map_eq_some_iff.1 (find_ok (Fate.serve_ok hr).1)
      rw [hsame]
      exact ⟨spec, hspec, rfl⟩
    · intro hr
      have hsame : (cluster.act f (.getWgService names.wgServiceName) v).2 = v := Fate.serve_same
      rw [hsame]
      exact Option.map_eq_none_iff.1 (find_notFound (Fate.serve_notFound hr))
  · match r with
    | .error .other => exact TripleAt.throw fun _ _ _ => trivial
    | .error .notFound =>
      refine TripleAt.pure fun tr w hw => ⟨hw.1, fun old hold => ?_⟩
      rw [hw.2.2 rfl] at hold
      cases hold
    | .ok svc =>
      -- What is of the other kind cannot be patched, and is deleted first.
      by_cases hshape : (svc.clusterIp == some "None") = headless
      · have hkeep : ShapeTriple names t (fun tr w => claimed tr = false ∧
            ∃ spec ∈ w.children names.wgServiceName, svc.clusterIp = spec.clusterIp)
            (pure () : M Unit) fun _ => Before fun w =>
              ∀ old ∈ w.children names.wgServiceName, old.isHeadless = headless := by
          refine TripleAt.pure fun tr w hw => ⟨hw.1, fun old hold => ?_⟩
          obtain ⟨spec, hspec, hip⟩ := hw.2
          obtain rfl := Option.some.inj (hspec.symm.trans hold)
          rw [ServiceSpec.isHeadless, ← hip, hshape]
        refine TripleAt.mono (P := fun tr w => claimed tr = false ∧
          ∃ spec ∈ w.children names.wgServiceName, svc.clusterIp = spec.clusterIp) ?_
          (fun _ _ hw => ⟨hw.1, hw.2.1 svc rfl⟩) fun _ _ _ hw => hw
        simpa [ifFound, hshape] using hkeep
      · have hdelete : ShapeTriple names t (Before fun _ => True)
            (deleteIgnoring404 .service names.wgServiceName) fun _ => Before fun w =>
              ∀ old ∈ w.children names.wgServiceName, old.isHeadless = headless := by
          refine shape_fromKube (o := .delete .service names.wgServiceName) (g := ignoring404) rfl
            (fun _ _ _ _ => trivial) fun v _ _ f _ hok old hold => ?_
          have hgone : (cluster.act f (.delete .service names.wgServiceName) v).2 =
              v.setChild names.wgServiceName none := Fate.serve_of_ignoring404 hok
          rw [hgone] at hold
          simp [Cluster.setChild] at hold
        refine TripleAt.mono (P := Before fun _ => True) ?_ (fun _ _ hw => ⟨hw.1, trivial⟩)
          fun _ _ _ hw => hw
        simpa [ifFound, hshape] using hdelete

theorem shape_applyWireguardService {child : ChildApplier} {hostNetwork : Bool} :
    ShapeTriple names t (Before fun _ => True) (applyWireguardService child names hostNetwork)
      fun _ => Before (Fronted names hostNetwork) := by
  have happly {spec : ServiceSpec} (hspec : spec.isHeadless = hostNetwork) :
      ShapeTriple names t (Before fun w =>
          ∀ old ∈ w.children names.wgServiceName, old.isHeadless = hostNetwork)
        (apply child (.service names.wgServiceName spec))
        fun _ => Before (Fronted names hostNetwork) := by
    refine shape_fromKube (o := .apply child (.service names.wgServiceName spec)) (g := id) rfl
      (fun _ _ hv h old hold => hv old (h.1 ▸ hold)) fun v hv _ f _ hok => ?_
    obtain ⟨happlied, hafter⟩ := Fate.serve_ok hok
    exact hafter ▸ fronted_applyService hspec hv happlied
  refine TripleAt.bind shape_ensureServiceShape fun _ => ?_
  split
  · rename_i hhost
    exact TripleAt.bind (happly (by rw [hhost]; rfl)) fun _ => TripleAt.pure fun _ _ hw => hw
  · rename_i hhost
    refine TripleAt.bind (happly (by rw [Bool.not_eq_true] at hhost; rw [hhost]; rfl)) fun _ => ?_
    refine shape_apart (.bind (within_quiet rfl) fun _ => .bind (within_fromKube _) fun svc => ?_)
      fronted_stable
    split <;> exact trivial

/-! ### The other children -/

theorem shape_applyStatefulSet {child : ChildApplier} {spec : ProxyStatefulSet}
    {F : Cluster → Prop} (hF : (keepingShape names).Stable F) :
    ShapeTriple names t (Before F) (apply child (.statefulSet names.proxyName spec))
      fun _ => Before F :=
  shape_apart (within_apply rfl ⟨nofun, nofun, nofun, nofun⟩) hF

/-- The proxy has a Service, and has a serve configuration, or not. -/
def Served (names : ProxyNames) (headless serveConfig : Bool) (w : Cluster) : Prop :=
  Fronted names headless w ∧ (w.configMaps names.serveConfigmapName).isSome = serveConfig

theorem served_stable {headless serveConfig : Bool} :
    (keepingShape names).Stable (Served names headless serveConfig) :=
  fun _ _ hv h => ⟨fronted_stable hv.1 h, h.2.1 ▸ hv.2⟩

theorem shape_applyServeConfigmap {child : ChildApplier} {serveJson : Json} {headless : Bool} :
    ShapeTriple names t (Before (Fronted names headless)) (applyServeConfigmap child names serveJson)
      fun _ => Before (Served names headless true) := by
  refine shape_fromKube (o := .apply child (.configMap names.serveConfigmapName serveJson)) (g := id)
    rfl fronted_stable fun v hv _ f _ hok => ?_
  have hafter : (cluster.act f (.apply child (.configMap names.serveConfigmapName serveJson)) v).2 =
      v.setConfigMap names.serveConfigmapName (some serveJson) := (Fate.serve_ok hok).2
  rw [hafter]
  exact ⟨hv, by simp [Cluster.setConfigMap]⟩

theorem shape_deleteConfigMap {headless : Bool} :
    ShapeTriple names t (Before (Fronted names headless))
      (deleteIgnoring404 .configMap names.serveConfigmapName)
      fun _ => Before (Served names headless false) := by
  refine shape_fromKube (o := .delete .configMap names.serveConfigmapName) (g := ignoring404) rfl
    fronted_stable fun v hv _ f _ hok => ?_
  have hafter : (cluster.act f (.delete .configMap names.serveConfigmapName) v).2 =
      v.setConfigMap names.serveConfigmapName none := Fate.serve_of_ignoring404 hok
  rw [hafter]
  exact ⟨hv, by simp [Cluster.setConfigMap]⟩

theorem shape_applyExposeProxy {svc : PortedService} {annotations : IngressAnnotations}
    {ports : List Int} {clusterIp : Option String} {inst : Instance} {child : ChildApplier}
    {networking : ProxyNetworking} {headless : Bool} :
    ShapeTriple (svc.names digest) t (Before (Fronted (svc.names digest) headless))
      (svc.applyExposeProxy digest dep annotations ports clusterIp inst child networking)
      fun _ => Before (Served (svc.names digest) headless (annotations.mode == .tsnet)) := by
  rw [PortedService.applyExposeProxy.eq_def]
  dsimp only
  cases annotations.mode with
  | tsnet => exact TripleAt.bind shape_applyServeConfigmap fun _ => shape_applyStatefulSet served_stable
  | tun =>
    dsimp only
    split
    · exact TripleAt.throw fun _ _ _ => trivial
    · exact TripleAt.throw fun _ _ _ => trivial
    · -- A serve configuration may be left from userspace, and goes.
      exact TripleAt.bind (shape_applyStatefulSet fronted_stable) fun _ => shape_deleteConfigMap

/-- The policy goes, and all children are those of a shape without one. -/
theorem shape_deletePolicy {headless serveConfig : Bool} :
    ShapeTriple names t (Before (Served names headless serveConfig))
      (deleteIgnoring404 .networkPolicy names.proxyName)
      fun _ => Before fun w => w.shape names = some ⟨serveConfig, false, headless⟩ := by
  refine shape_fromKube (o := .delete .networkPolicy names.proxyName) (g := ignoring404) rfl
    served_stable fun v hv _ f _ hok => ?_
  have hafter : (cluster.act f (.delete .networkPolicy names.proxyName) v).2 =
      v.setPolicy names.proxyName none := Fate.serve_of_ignoring404 hok
  rw [hafter]
  obtain ⟨spec, hspec, hheadless⟩ := Option.map_eq_some_iff.1 hv.1
  have hspec' : (v.setPolicy names.proxyName none).children names.wgServiceName = some spec := hspec
  rw [Cluster.shape, hspec', Option.map_some, hheadless]
  simpa [Cluster.setPolicy] using hv.2

theorem shape_applyConsumerPolicy {child : ChildApplier} {consumers : List EgressConsumer}
    {forwards : List (Int × Int)} {headless serveConfig : Bool} :
    ShapeTriple names t (Before (Served names headless serveConfig))
      (applyConsumerPolicy child names consumers forwards)
      fun _ => Before fun w =>
        w.shape names = some ⟨serveConfig, !consumers.isEmpty, headless⟩ := by
  rw [applyConsumerPolicy]
  split
  · rename_i hempty
    rw [hempty]
    exact shape_deletePolicy
  · rename_i hconsumers
    rw [Bool.not_eq_true] at hconsumers
    rw [hconsumers]
    refine TripleAt.bind (shape_apart (.forM fun _ _ => within_checkConsumer) served_stable) fun _ => ?_
    refine shape_fromKube
      (o := .apply child (.networkPolicy (buildConsumerPolicy names consumers forwards)))
      (g := id) rfl served_stable fun v hv _ f _ hok => ?_
    have hafter : (cluster.act f
        (.apply child (.networkPolicy (buildConsumerPolicy names consumers forwards))) v).2 =
          v.setPolicy names.proxyName (some (buildConsumerPolicy names consumers forwards)) :=
      (Fate.serve_ok hok).2
    rw [hafter]
    obtain ⟨spec, hspec, hheadless⟩ := Option.map_eq_some_iff.1 hv.1
    have hspec' : (v.setPolicy names.proxyName (some (buildConsumerPolicy names consumers
      forwards))).children names.wgServiceName = some spec := hspec
    rw [Cluster.shape, hspec', Option.map_some, hheadless]
    simpa [Cluster.setPolicy] using hv.2

/-! ### Whole reconciles -/

/-- At an end with a value, an object that was claimed has the children that it is to have. -/
abbrev ShapeEnd (read : Reader) (names : ProxyNames) (t : Turn) (p : M α) : Prop :=
  ShapeTriple names t (Before fun _ => True) p fun _ tr w =>
    claimed tr = true → Shaped read names t w

theorem shape_unclaimed (hp : ShapeTriple names t (Before fun _ => True) p fun _ =>
      Before fun _ => True) :
    ShapeEnd read names t p := by
  refine TripleAt.mono hp (fun _ _ hw => hw) fun _ tr _ hw hclaimed => ?_
  rw [hw.1] at hclaimed
  cases hclaimed

/-- From the claim on, the children stay. -/
theorem shape_claim {svc : PortedService} {annotations : IngressAnnotations}
    (hparse : IngressAnnotations.parse read svc.metadata = .ok annotations)
    (hp : p.Uses (Within fun a => a ≠ .service ∧ a ≠ .configMap ∧ a ≠ .policy)) :
    ShapeTriple names (.service svc) (Before fun w => w.shape names = some (svc.shape annotations)) p
      fun _ tr w => claimed tr = true → Shaped read names (.service svc) w := by
  have hafter : ShapeTriple names (.service svc) (fun _ => Shaped read names (.service svc)) p
      fun _ _ => Shaped read names (.service svc) := shape_after hp
  refine TripleAt.mono hafter (fun tr w hw => ?_) fun _ _ _ hw _ => hw
  intro svc' annotations' ht hparse'
  obtain rfl : svc = svc' := Turn.service.inj ht
  obtain rfl : annotations = annotations' := Except.ok.inj (hparse.symm.trans hparse')
  exact hw.2

/-- The Service of an egress does not become headless, if it was not. -/
theorem shape_applyEgressService {svc : PortedService} {child : ChildApplier}
    {ports : List ServicePort} (hexternal : svc.isExternalName = true) :
    ShapeTriple names (.service svc) (Before fun _ => True)
      (apply child (.service names.wgServiceName { ports }))
      fun _ => Before (Served names false false) := by
  refine shape_fromKube (o := .apply child (.service names.wgServiceName { ports })) (g := id) rfl
    (fun _ _ _ _ => trivial) fun v _ hB f _ hok => ?_
  obtain ⟨happlied, hafter⟩ := Fate.serve_ok hok
  rw [prepared, hexternal, Bool.not_true, Bool.false_or, Bool.and_eq_true] at hB
  -- An egress does not look at what is there, so that `prepared` has to say it.
  have hold : ∀ old ∈ v.children names.wgServiceName, old.isHeadless = false := fun old hmem => by
    simpa using (Option.all_eq_true _ _).1 hB.2 old hmem
  refine ⟨hafter ▸ fronted_applyService rfl hold happlied, ?_⟩
  have hnone : (v.configMaps names.serveConfigmapName).isSome = false := by
    simpa using hB.1
  have hsame : (cluster.act f (.apply child (.service names.wgServiceName { ports })) v).2.configMaps =
      v.configMaps := Fate.serve_keeps applyService_apart.1
  rw [hsame, hnone]

theorem shape_provisionEgress {svc : PortedService} {annotations : IngressAnnotations}
    {tailnetFqdn : String} {inst : Instance} (hexternal : svc.isExternalName = true)
    (hparse : IngressAnnotations.parse read svc.metadata = .ok annotations) :
    ShapeEnd read (svc.names digest) (.service svc) (svc.provisionEgress read digest dep annotations
      tailnetFqdn (collectTcpForwards svc) inst) := by
  have hfree : (keepingShape (svc.names digest)).Stable fun _ => True := fun _ _ _ _ => trivial
  refine TripleAt.bind (shape_apart (.mapError (within_headscaleConnect _ _)) hfree) fun headscale => ?_
  refine TripleAt.bind (shape_apart (within_resetIfRetargeted ⟨nofun, nofun, nofun, nofun⟩
    ⟨nofun, nofun, nofun, nofun⟩) hfree) fun _ => ?_
  refine TripleAt.bind (shape_apart (within_rotateStaleAuthKey ⟨nofun, nofun, nofun, nofun⟩
    ⟨nofun, nofun, nofun, nofun⟩) hfree) fun _ => ?_
  refine TripleAt.bind (shape_apart (within_ensureAuthKey ⟨nofun, nofun, nofun, nofun⟩
    ⟨nofun, nofun, nofun, nofun⟩) hfree) fun status => ?_
  cases status with
  | waitingForUser => exact shape_unclaimed (TripleAt.pure fun _ _ hw => hw)
  | ready =>
    refine TripleAt.bind (shape_apart (within_ensureStateSecret ⟨nofun, nofun, nofun, nofun⟩) hfree)
      fun stateSecret => ?_
    refine TripleAt.bind (shape_applyEgressService hexternal) fun _ => ?_
    refine TripleAt.bind (shape_apart within_applyProxyRbac served_stable) fun _ => ?_
    refine TripleAt.bind (shape_applyStatefulSet served_stable) fun _ => ?_
    refine TripleAt.bind shape_applyConsumerPolicy fun _ => ?_
    have hshape : svc.shape annotations = ⟨false, !annotations.consumers.isEmpty, false⟩ := by
      rw [PortedService.shape, if_pos hexternal]
    rw [← hshape]
    exact shape_claim hparse (.bind (within_claim ⟨nofun, nofun, nofun⟩) fun _ =>
      .bind (within_syncTags ⟨nofun, nofun, nofun⟩) fun _ => .bind PortedService.within_report fun _ =>
        .bind (within_syncEgressDns ⟨nofun, nofun, nofun⟩) fun _ => within_pure _)

theorem shape_provisionExpose {svc : PortedService} {annotations : IngressAnnotations}
    {ports : List Int} {clusterIp : Option String} {inst : Instance}
    (hexternal : svc.isExternalName = false)
    (hparse : IngressAnnotations.parse read svc.metadata = .ok annotations) :
    ShapeEnd read (svc.names digest) (.service svc) (svc.provisionExpose read digest dep annotations
      (usesHostNetwork annotations) ports clusterIp inst) := by
  have hfree : (keepingShape (svc.names digest)).Stable fun _ => True := fun _ _ _ _ => trivial
  refine TripleAt.bind (shape_apart (.mapError (within_headscaleConnect _ _)) hfree) fun headscale => ?_
  refine TripleAt.bind (shape_apart (within_resetIfRetargeted ⟨nofun, nofun, nofun, nofun⟩
    ⟨nofun, nofun, nofun, nofun⟩) hfree) fun _ => ?_
  refine TripleAt.bind (shape_apart (within_rotateStaleAuthKey ⟨nofun, nofun, nofun, nofun⟩
    ⟨nofun, nofun, nofun, nofun⟩) hfree) fun _ => ?_
  refine TripleAt.bind (shape_apart (within_ensureAuthKey ⟨nofun, nofun, nofun, nofun⟩
    ⟨nofun, nofun, nofun, nofun⟩) hfree) fun status => ?_
  cases status with
  | waitingForUser => exact shape_unclaimed (TripleAt.pure fun _ _ hw => hw)
  | ready =>
    refine TripleAt.bind (shape_apart (within_ensureStateSecret ⟨nofun, nofun, nofun, nofun⟩) hfree)
      fun stateSecret => ?_
    refine TripleAt.bind shape_applyWireguardService fun networking => ?_
    refine TripleAt.bind (shape_apart within_applyProxyRbac fronted_stable) fun _ => ?_
    refine TripleAt.bind shape_applyExposeProxy fun _ => ?_
    refine TripleAt.bind shape_deletePolicy fun _ => ?_
    have hshape : svc.shape annotations =
        ⟨annotations.mode == .tsnet, false, usesHostNetwork annotations⟩ := by
      rw [PortedService.shape, if_neg (by rw [hexternal]; exact Bool.false_ne_true)]
    rw [← hshape]
    exact shape_claim hparse (.bind (within_claim ⟨nofun, nofun, nofun⟩) fun _ =>
      .bind (within_syncTags ⟨nofun, nofun, nofun⟩) fun _ => .bind PortedService.within_report fun _ =>
        within_pure _)

theorem shape_walk {svc : PortedService} :
    Walk read digest dep (.service svc)
      (fun {_} p => ShapeTriple (svc.names digest) (.service svc) (Before fun _ => True) p
        fun _ => Before fun _ => True)
      (fun {_} p => ShapeEnd read (svc.names digest) (.service svc) p) where
  quiet hp := shape_within hp id (fun _ _ _ _ => trivial) fun _ _ _ _ _ _ => trivial
  last := shape_unclaimed
  bind := TripleAt.bind
  andThen hp hf := by
    refine TripleAt.bind hp fun a => ?_
    exact tripleAt_of_within (S := keepingShape (svc.names digest)) (hf a)
      (fun _ _ _ hv h hclaimed => shaped_stable (hv hclaimed) h) (fun _ _ _ => trivial)
      (fun _ _ _ _ ho hv hclaimed => hv ((claimed_cons (isClaim_of_within id ho)).symm.trans hclaimed))
      (fun _ _ _ _ _ _ => trivial) fun _ _ _ _ ha => ha.elim
  leave hp _ := shape_unclaimed (shape_within
    (hp.within (S := fun a => a ≠ .claim) nofun nofun nofun nofun nofun) (fun h => h rfl)
    (fun _ _ _ _ => trivial) fun _ _ _ _ _ _ => trivial)
  leaveInSync hp _ hq hr := by
    have hfree {α : Type} {p : M α} (hp : p.Uses (Within fun a => a ≠ .claim)) :
        ShapeTriple (svc.names digest) (.service svc) (Before fun _ => True) p
          fun _ => Before fun _ => True :=
      shape_within hp (fun h => h rfl) (fun _ _ _ _ => trivial) fun _ _ _ _ _ _ => trivial
    refine shape_unclaimed (hfree (.bind (hp.within nofun nofun nofun nofun nofun) fun _ => ?_))
    refine .bind (.mono hq fun _ ho => ho.mono fun _ => False.elim) fun _ => ?_
    exact .bind (within_syncEgressDns nofun) fun _ => .mono hr fun _ ho => ho.mono fun _ => False.elim
  ingress ht := nomatch ht
  egress ht _ hexternal hparse := by
    cases ht
    exact shape_provisionEgress hexternal hparse
  expose ht _ hexternal hparse := by
    cases ht
    exact shape_provisionExpose hexternal hparse

end Steps

/-! ## Runs -/

section Runs

variable {read : Reader} {digest : Digest} {dep : Deployment} {parent : ObjectReference}
  {turns : List Turn} {w : Cluster} {events : List (Process.Event Fate (Cluster → Cluster))}
  {s : Pool sig Error Action Cluster}

/-- After a reconcile that has claimed the Service and come to its end, there are the children of the
    Service as it was by then, as long as an egress does not find those of an exposed Service. -/
theorem shape_of_prepared (hone : VersionsOf parent turns) (hkind : parent.kind = .service)
    (hturns : cluster.Along (cluster.InTurn (keepingShape (parent.names digest))
      fun i v o => ∀ t ∈ turns[i]?, prepared (parent.names digest) t v o = true)
      (reconciles read digest dep turns w) events)
    (hexec : cluster.exec (reconciles read digest dep turns w) events = some s)
    {i : ℕ} {svc : PortedService} {annotations : IngressAnnotations} {a : Action}
    (hturn : s.turn? = some i) (hsvc : turns[i]? = some (.service svc))
    (hparse : IngressAnnotations.parse read svc.metadata = .ok annotations)
    (hend : s.threads[i]? = some (.ret (.ok a))) (hclaimed : claimed (trace i s.history) = true) :
    s.world.shape (parent.names digest) = some (svc.shape annotations) := by
  have hamid : Amid cluster (keepingShape (parent.names digest))
      (fun i v o => ∀ t ∈ turns[i]?, prepared (parent.names digest) t v o = true)
      (fun i _ _ _ => ∀ t ∈ turns[i]?, True)
      (fun i r s => ∀ t ∈ turns[i]?, ∀ a, r = .ok a → claimed s.2 = true →
        Shaped read (parent.names digest) t s.1) s := by
    refine exec_turns (S := keepingShape (parent.names digest))
      (B := fun t v o => prepared (parent.names digest) t v o = true) (A := fun _ _ _ _ => True)
      (Q := fun t r s => ∀ a, r = .ok a → claimed s.2 = true →
        Shaped read (parent.names digest) t s.1) trivial (fun t ht v _ => ?_) hturns hexec
    rw [← hone t ht, ← t.names_eq]
    match t with
    | .ingress ing =>
      -- No version of a Service is an Ingress.
      have hingress : ParentKind.ingress = parent.kind := congrArg ObjectReference.kind (hone _ ht)
      rw [hkind] at hingress
      cases hingress
    | .service svc =>
      refine Process.Prog.wp_mono ?_ (shape_walk.reconcile v [] ⟨rfl, trivial⟩)
      rintro (e | a) s hs
      · exact fun _ ha => nomatch ha
      · exact fun _ _ hclaimed => hs hclaimed
  -- Since the reconcile has ended, only others have acted, and they leave the children alone.
  obtain ⟨v, hothers, hQ⟩ := hamid.running i _ hend hturn
  exact shaped_stable (hQ _ hsvc a rfl hclaimed) hothers svc annotations rfl hparse

end Runs

namespace Shapes

/-! ### A Service that is an egress, or on the network of its host -/

open Orphans (sha256)

def hosted : String :=
  "\x7b\"headscale-ref\":\"main\",\"managed-key-tags\":[\"tag:db\"],\"host-network\":true\x7d"

def reader : Reader := fun s =>
  if s = hosted then
    some (.object [("headscale-ref", .string "main"), ("managed-key-tags", .array [.string "tag:db"]),
      ("host-network", .bool true)])
  else Shop.reader s

def names : ProxyNames := (Shop.external Shop.main).names sha256

/-- What a reconcile has ended with. -/
def ended (i : ℕ) (s : Pool sig Error Action Cluster) : Option Action :=
  match s.threads[i]? with
  | some (.ret (.ok a)) => some a
  | _ => none

theorem ended_some {i : ℕ} {s : Pool sig Error Action Cluster} {a : Action} (h : ended i s = some a) :
    s.threads[i]? = some (.ret (.ok a)) := by
  rw [ended] at h
  split at h
  · rename_i hi
    rw [hi, Option.some.inj h]
  · cases h

theorem exists_annotations {svc : PortedService} {shape : Shape}
    (h : (IngressAnnotations.parse reader svc.metadata).toOption.map svc.shape = some shape) :
    ∃ annotations, IngressAnnotations.parse reader svc.metadata = .ok annotations ∧
      svc.shape annotations = shape := by
  obtain ⟨annotations, hparse, hshape⟩ := Option.map_eq_some_iff.1 h
  cases hresult : IngressAnnotations.parse reader svc.metadata with
  | error e =>
    rw [hresult] at hparse
    cases hparse
  | ok annotations' =>
    rw [hresult] at hparse
    exact ⟨annotations', rfl, Option.some.inj hparse ▸ hshape⟩

end Shapes

open Orphans (sha256 deployment) in
open Shapes (hosted reader names ended ended_some exists_annotations) in
/-- An egress that comes to be exposed on the network of its host has a headless Service, and a serve
    configuration. -/
theorem shape_of_prepared_hosted : ∃ s,
    cluster.exec (reconciles reader sha256 deployment
      [.service (Shop.external Shop.main), .service (Shop.internal hosted)] Shop.fresh)
      (Shop.succeeds 0 22 ++ Shop.succeeds 1 23) = some s ∧
    s.world.shape names = some ⟨true, false, true⟩ := by
  have hturns : cluster.Along (ActsInTurn fun i v o =>
      ∀ t ∈ [Turn.service (Shop.external Shop.main), .service (Shop.internal hosted)][i]?,
        prepared names t v o = true)
      (reconciles reader sha256 deployment
        [.service (Shop.external Shop.main), .service (Shop.internal hosted)] Shop.fresh)
      (Shop.succeeds 0 22 ++ Shop.succeeds 1 23) := by
    decide +kernel
  have hrun : (cluster.exec (reconciles reader sha256 deployment
      [.service (Shop.external Shop.main), .service (Shop.internal hosted)] Shop.fresh)
      (Shop.succeeds 0 22 ++ Shop.succeeds 1 23)).any (fun s =>
        s.turn? == some 1 && (ended 1 s).isSome && claimed (trace 1 s.history)) = true := by
    decide +kernel
  obtain ⟨s, hs, hcheck⟩ := Option.any_eq_true _ _ |>.1 hrun
  simp only [Bool.and_eq_true, beq_iff_eq] at hcheck
  obtain ⟨⟨hturn, hended⟩, hclaimed⟩ := hcheck
  obtain ⟨a, hended⟩ := Option.isSome_iff_exists.1 hended
  have hread : ∃ annotations, IngressAnnotations.parse reader (Shop.internal hosted).metadata =
      .ok annotations ∧ (Shop.internal hosted).shape annotations = ⟨true, false, true⟩ :=
    exists_annotations (by decide +kernel)
  obtain ⟨annotations, hparse, hshape⟩ := hread
  have hone : VersionsOf (Shop.external Shop.main).parent
      [.service (Shop.external Shop.main), .service (Shop.internal hosted)] := by
    decide +kernel
  exact ⟨s, hs, hshape ▸ shape_of_prepared hone rfl (hturns.mono ActsInTurn.inTurn) hs hturn rfl
    hparse (ended_some hended) hclaimed⟩

open Orphans (sha256 deployment) in
open Shapes (hosted reader names ended ended_some exists_annotations) in
/-- A Service that was exposed on the network of its host comes to be an egress: its Service stays
    headless, and the serve configuration stays. -/
theorem headless_on_egress : ∃ s annotations a,
    cluster.exec (reconciles reader sha256 deployment
      [.service (Shop.internal hosted), .service (Shop.external Shop.main)] Shop.fresh)
      (Shop.succeeds 0 24 ++ Shop.succeeds 1 20) = some s ∧
    s.turn? = some 1 ∧ s.threads[1]? = some (.ret (.ok a)) ∧ claimed (trace 1 s.history) = true ∧
    IngressAnnotations.parse reader (Shop.external Shop.main).metadata = .ok annotations ∧
    s.world.shape names ≠ some ((Shop.external Shop.main).shape annotations) := by
  have hrun : (cluster.exec (reconciles reader sha256 deployment
      [.service (Shop.internal hosted), .service (Shop.external Shop.main)] Shop.fresh)
      (Shop.succeeds 0 24 ++ Shop.succeeds 1 20)).any (fun s =>
        s.turn? == some 1 && (ended 1 s).isSome && claimed (trace 1 s.history) &&
          s.world.shape names == some ⟨true, false, true⟩) = true := by
    decide +kernel
  obtain ⟨s, hs, hcheck⟩ := Option.any_eq_true _ _ |>.1 hrun
  simp only [Bool.and_eq_true, beq_iff_eq] at hcheck
  obtain ⟨⟨⟨hturn, hended⟩, hclaimed⟩, hleft⟩ := hcheck
  obtain ⟨a, hended⟩ := Option.isSome_iff_exists.1 hended
  have hread : ∃ annotations, IngressAnnotations.parse reader (Shop.external Shop.main).metadata =
      .ok annotations ∧ (Shop.external Shop.main).shape annotations = ⟨false, false, false⟩ :=
    exists_annotations (by decide +kernel)
  obtain ⟨annotations, hparse, hshape⟩ := hread
  refine ⟨s, annotations, a, hs, hturn, ended_some hended, hclaimed, hparse, ?_⟩
  rw [hleft, hshape]
  decide

end Headmaster.Operator.Proxy
