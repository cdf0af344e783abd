import Headmaster.Operator.Proxy.Cluster
import Headmaster.Operator.Proxy.Footprint

/-!
# Walks through a reconcile

A reconcile reads and reports until it comes to one of a few ends: the proxy is
taken down (`Leaving`), or it is provisioned. What holds of these ends, and of
all that comes before and after them, holds of the reconcile (`Walk.reconcile`).
-/

namespace Headmaster.Operator.Proxy

open Process.Prog (Uses)

/-- The calls that touch nothing. -/
abbrev Quiet {α : Type} (p : M α) : Prop := p.Uses (Within fun _ => False)

theorem Quiet.within {α : Type} {p : M α} (hp : Quiet p) {S : Area → Prop} : p.Uses (Within S) :=
  Uses.mono hp fun _ ho => ho.mono fun _ h => h.elim

/-- The kernel keeps a proxy on the network of its pod. -/
def usesHostNetwork (annotations : IngressAnnotations) : Bool :=
  annotations.hostNetwork && annotations.mode != .tun

namespace Turn

/-- When its proxy is gone, the names of the tailnet are computed anew. -/
def syncs : Turn → Bool
  | ingress _ => false
  | service svc => svc.metadata.deleting || !svc.hasConfig

end Turn

variable (read : Reader) (digest : Digest) (dep : Deployment)

/-- How the proxy of an object is taken down: as its node is recorded, or without a word on it. -/
inductive Leaving (t : Turn) : M Unit → Prop
  | deregister (headscaleRefFallback : String)
      (hfallback : ∀ ref, IngressAnnotations.headscaleRefOf read t.metadata = some ref →
        headscaleRefFallback = ref) :
      Leaving t (deregisterAndCleanup dep (t.names digest) t.parent
        headscaleRefFallback)
  | blindly (hreleased : t.released read dep = true)
      (hnone : IngressAnnotations.headscaleRefOf read t.metadata = none) :
      Leaving t (cleanupProxyResources (t.names digest))

/-- What holds of a reconcile until its end (`P₀`), and of its ends (`P`). -/
structure Walk (t : Turn) (P₀ P : {α : Type} → M α → Prop) : Prop where
  quiet : ∀ {α : Type} {p : M α}, Quiet p → P₀ p
  last : ∀ {α : Type} {p : M α}, P₀ p → P p
  bind : ∀ {α β : Type} {p : M α} {f : α → M β}, P₀ p → (∀ a, P (f a)) → P (p >>= f)
  andThen : ∀ {α β : Type} {p : M α} {f : α → M β}, P p → (∀ a, Quiet (f a)) → P (p >>= f)
  leave : ∀ {p : M Unit}, Leaving read digest dep t p → t.syncs = false → P p
  leaveInSync : ∀ {p q : M Unit} {r : M Action}, Leaving read digest dep t p → t.syncs = true →
    Quiet q → Quiet r → P (p >>= fun _ => q >>= fun _ => syncEgressDns read digest dep >>= fun _ => r)
  ingress : ∀ {ing : RoutedIngress} {annotations : IngressAnnotations} {inst : Instance}
    {hostNetwork : Bool} {routes : List ProxyRoute}, t = .ingress ing →
    IngressAnnotations.parse read ing.metadata = .ok annotations →
    P (ing.provision read digest dep annotations inst hostNetwork routes)
  egress : ∀ {svc : PortedService} {annotations : IngressAnnotations} {tailnetFqdn : String}
    {inst : Instance}, t = .service svc → t.syncs = false → svc.isExternalName = true →
    IngressAnnotations.parse read svc.metadata = .ok annotations →
    P (svc.provisionEgress read digest dep annotations tailnetFqdn (collectTcpForwards svc) inst)
  expose : ∀ {svc : PortedService} {annotations : IngressAnnotations} {ports : List Int}
    {clusterIp : Option String} {inst : Instance}, t = .service svc → t.syncs = false →
    svc.isExternalName = false → IngressAnnotations.parse read svc.metadata = .ok annotations →
    P (svc.provisionExpose read digest dep annotations (usesHostNetwork annotations) ports clusterIp
      inst)

variable {read digest dep}

/-- A proxy that goes deletes its node, or does not, and then all its resources. -/
theorem Leaving.uses {t : Turn} {p : M Unit} (h : Leaving read digest dep t p) {C : Op → Prop}
    (hnode : ∀ o, Within (· = .node) o → C o)
    (hcleanup : (cleanupProxyResources (t.names digest)).Uses C) : p.Uses C := by
  cases h with
  | deregister ref _ => exact uses_deregisterAndCleanup hnode hcleanup
  | blindly _ _ => exact hcleanup

theorem Leaving.within {t : Turn} {p : M Unit} (h : Leaving read digest dep t p) {S : Area → Prop}
    (hnode : S .node) (hservice : S .service) (hremoval : S .removal) (hconfigMap : S .configMap)
    (hpolicy : S .policy) : p.Uses (Within S) :=
  h.uses (fun _ ho => ho.mono fun _ ha => ha ▸ hnode)
    (within_cleanupProxyResources hservice hremoval hconfigMap hpolicy)

namespace Walk

variable {t : Turn} {P₀ P : {α : Type} → M α → Prop} (h : Walk read digest dep t P₀ P)
  {annotations : IngressAnnotations}

include h

theorem pure {α : Type} (a : α) : P (pure a : M α) := h.last (h.quiet (within_pure a))

theorem throw {α : Type} (e : Error) : P (throw e : M α) := h.last (h.quiet (within_throw e))

theorem of_quiet {α : Type} {p : M α} (hp : Quiet p) : P p := h.last (h.quiet hp)

/-- What is only reported or read comes first. -/
theorem quiet_bind {α β : Type} {p : M α} {f : α → M β} (hp : Quiet p) (hf : ∀ a, P (f a)) :
    P (p >>= f) := h.bind (h.quiet hp) hf

/-- The proxy goes, and then its finalizer. -/
theorem leave_andThen {p : M Unit} {q : M Action} (hp : Leaving read digest dep t p)
    (hsyncs : t.syncs = false) (hq : Quiet q) : P (p >>= fun _ => q) :=
  h.andThen (h.leave hp hsyncs) fun _ => hq

/-! ## What both controllers do -/

/-- The object is only applied while it lives. -/
theorem withFinalizer {parent : ObjectReference} {obj : ObjectMeta} {ourFinalizer : String}
    {apply cleanup : M Action} (happly : obj.deleting = false → P apply)
    (hcleanup : obj.deleting = true → P cleanup) :
    P (withFinalizer parent obj ourFinalizer apply cleanup) := by
  rw [Proxy.withFinalizer]
  split
  · exact happly ‹_›
  · exact h.andThen (hcleanup ‹_›) fun _ => .bind (within_patchParent rfl) fun _ => within_pure _
  · exact h.of_quiet (.bind (within_patchParent rfl) fun _ => within_pure _)
  · exact h.pure _

theorem reconcileObject {isOurKind : Bool} {kind : ParentKind} {obj : ObjectMeta}
    {apply cleanup : M Action} (happly : obj.deleting = false → P apply)
    (hcleanup : obj.deleting = true → P cleanup) :
    P (reconcileObject read dep isOurKind kind obj apply cleanup) := by
  rw [reconcileObject.eq_def]
  dsimp only
  split
  · exact h.pure _
  · split
    · exact h.throw _
    · split
      · exact h.pure _
      · refine h.quiet_bind ?_ fun adopted => ?_
        · split
          · exact within_pure _
          · exact within_mayAdopt
        · split
          · exact h.withFinalizer happly hcleanup
          · exact h.pure _

omit h in
theorem leaving_takeDown (hreleased : t.released read dep = true) :
    Leaving read digest dep t (takeDown read dep (t.names digest) t.parent t.metadata) := by
  rw [takeDown]
  split
  · rename_i own hown
    exact .deregister own fun ref href => Option.some.inj (hown.symm.trans href)
  · exact .blindly hreleased ‹_›

omit h in
theorem leaving_cleanupObject :
    Leaving read digest dep t (cleanupObject read dep (t.names digest) t.parent t.metadata) := by
  refine .deregister _ fun ref href => ?_
  rw [href]
  rfl

omit h in
/-- The headscale that the configuration names is the one to fall back to. -/
theorem leaving_configured (hparse : IngressAnnotations.parse read t.metadata = .ok annotations) :
    Leaving read digest dep t (deregisterAndCleanup dep (t.names digest) t.parent
      annotations.headscaleRef) :=
  .deregister _ fun _ href => IngressAnnotations.headscaleRef_eq_of_parse hparse href

/-- Which network the proxy is on is known before it is asked. -/
theorem hostNetworkOf_bind {α : Type} {parent : ObjectReference} {f : Bool → M α}
    (hf : P (f (usesHostNetwork annotations))) : P (hostNetworkOf parent annotations >>= f) := by
  rw [hostNetworkOf]
  split
  · rename_i htun
    rw [bind_assoc]
    refine h.quiet_bind within_publishWarning fun _ => ?_
    have hnone : usesHostNetwork annotations = false := by
      simp [usesHostNetwork, htun.1]
    rwa [hnone] at hf
  · rename_i htun
    have hsame : usesHostNetwork annotations = annotations.hostNetwork := by
      cases hhost : annotations.hostNetwork <;> simp_all [usesHostNetwork]
    rwa [hsame] at hf

end Walk

/-! ## Ingresses -/

namespace RoutedIngress

variable {ing : RoutedIngress} {P₀ P : {α : Type} → M α → Prop}
  (h : Walk read digest dep (.ingress ing) P₀ P) {annotations : IngressAnnotations}

include h

theorem walk_applyReady {inst : Instance} {hostNetwork : Bool}
    (hparse : IngressAnnotations.parse read ing.metadata = .ok annotations) :
    P (ing.applyReady read digest dep annotations inst hostNetwork) := by
  rw [applyReady]
  split
  · exact h.of_quiet (.bind within_publishWarning fun _ => within_pure _)
  · refine h.quiet_bind within_collectIngressRoutes fun routes => ?_
    split
    · refine h.quiet_bind within_publishWarning fun _ => ?_
      exact h.leave_andThen (Walk.leaving_configured (t := .ingress ing) hparse) rfl (within_pure _)
    · exact h.of_quiet (.bind within_publishWarning fun _ => within_pure _)
    · exact h.ingress rfl hparse

theorem walk_applyConfigured
    (hparse : IngressAnnotations.parse read ing.metadata = .ok annotations) :
    P (ing.applyConfigured read digest dep annotations) := by
  rw [applyConfigured]
  split
  · exact h.of_quiet (.bind within_publishWarning fun _ => within_pure _)
  · refine h.quiet_bind within_hostNetworkOf fun hostNetwork => ?_
    refine h.quiet_bind (within_namespaceIsDeleting _) fun deleting => ?_
    split
    · exact h.pure _
    · refine h.quiet_bind within_instanceFor fun inst => ?_
      cases inst with
      | none => exact h.pure _
      | some inst =>
        dsimp only
        split
        · -- the instance excludes the namespace
          refine h.quiet_bind within_publishWarning fun _ => ?_
          exact h.leave_andThen (Walk.leaving_configured (t := .ingress ing) hparse) rfl
            (.bind within_release fun _ => within_pure _)
        · split
          · exact h.of_quiet (.bind within_publishWarning fun _ => within_pure _)
          · exact walk_applyReady h hparse

theorem walk_apply (hlive : ing.metadata.deleting = false) : P (ing.apply read digest dep) := by
  rw [apply]
  split
  · rename_i hreleased
    refine h.leave_andThen (Walk.leaving_takeDown (t := .ingress ing) ?_) rfl
      (.bind within_release fun _ => within_pure _)
    rw [Turn.released, Turn.metadata, hlive, Bool.not_false, Bool.true_and, Bool.or_comm]
    exact hreleased
  · split
    · exact h.throw _
    · exact walk_applyConfigured h ‹_›

theorem walk_reconcile : P (ing.reconcile read digest dep) :=
  h.reconcileObject (walk_apply h) fun _ =>
    h.leave_andThen (Walk.leaving_cleanupObject (t := .ingress ing)) rfl (within_pure _)

end RoutedIngress

/-! ## Services -/

namespace PortedService

variable {svc : PortedService} {P₀ P : {α : Type} → M α → Prop}
  (h : Walk read digest dep (.service svc) P₀ P) {annotations : IngressAnnotations}

include h

theorem walk_applyTo {provision : Instance → M Action}
    (hparse : IngressAnnotations.parse read svc.metadata = .ok annotations)
    (hsyncs : (Turn.service svc).syncs = false) (hprovision : ∀ inst, P (provision inst)) :
    P (svc.applyTo digest dep annotations provision) := by
  rw [applyTo]
  refine h.quiet_bind (within_namespaceIsDeleting _) fun deleting => ?_
  split
  · exact h.pure _
  · refine h.quiet_bind within_instanceFor fun inst => ?_
    cases inst with
    | none => exact h.pure _
    | some inst =>
      dsimp only
      split
      · refine h.quiet_bind within_publishWarning fun _ => ?_
        exact h.leave_andThen (Walk.leaving_configured (t := .service svc) hparse) hsyncs
          (.bind within_releaseFinalizer fun _ => within_pure _)
      · split
        · exact h.of_quiet (.bind within_publishWarning fun _ => within_pure _)
        · exact hprovision inst

theorem walk_applyEgress (hexternal : svc.isExternalName = true)
    (hparse : IngressAnnotations.parse read svc.metadata = .ok annotations)
    (hsyncs : (Turn.service svc).syncs = false) :
    P (svc.applyEgress read digest dep annotations) := by
  rw [applyEgress]
  split
  · exact h.of_quiet (.bind within_publishWarning fun _ => within_pure _)
  · refine h.quiet_bind within_warnIgnored fun _ => ?_
    dsimp only
    split
    · exact h.of_quiet (.bind within_publishWarning fun _ => within_pure _)
    · exact walk_applyTo h hparse hsyncs fun inst => h.egress rfl hsyncs hexternal hparse

theorem walk_applyExpose (hexternal : svc.isExternalName = false)
    (hparse : IngressAnnotations.parse read svc.metadata = .ok annotations)
    (hsyncs : (Turn.service svc).syncs = false) :
    P (svc.applyExpose read digest dep annotations) := by
  rw [applyExpose]
  split
  · exact h.of_quiet (.bind within_publishWarning fun _ => within_pure _)
  · have hrest (u : PUnit) : P (do
        let hostNetwork ← hostNetworkOf svc.parent annotations
        let ports := collectExposeTcpPorts svc
        let clusterIp := svc.clusterIp.filter fun ip => ip ≠ "None" ∧ ip ≠ ""
        if annotations.mode = .tsnet ∧ ports.isEmpty then
          publishWarning svc.parent "InvalidConfig"
            ("exposed Service declares no TCP ports; add spec.ports so the tsnet proxy knows what to " ++
              "forward")
          return .awaitChange
        else if annotations.mode = .tun ∧ clusterIp.isNone then
          publishWarning svc.parent "InvalidConfig"
            ("tun mode requires a ClusterIP to DNAT to; headless Services can only be exposed in tsnet " ++
              "mode")
          return .awaitChange
        else
          svc.applyTo digest dep annotations
            (svc.provisionExpose read digest dep annotations hostNetwork ports clusterIp)) := by
      refine h.hostNetworkOf_bind ?_
      dsimp only
      split
      · exact h.of_quiet (.bind within_publishWarning fun _ => within_pure _)
      · split
        · exact h.of_quiet (.bind within_publishWarning fun _ => within_pure _)
        · exact walk_applyTo h hparse hsyncs fun inst => h.expose rfl hsyncs hexternal hparse
    split
    · exact h.quiet_bind within_publishWarning hrest
    · exact hrest ()

theorem walk_apply (hlive : svc.metadata.deleting = false) : P (svc.apply read digest dep) := by
  rw [apply]
  split
  · rename_i hconfig
    have hleaving : Leaving read digest dep (.service svc)
        (takeDown read dep (svc.names digest) svc.parent svc.metadata) := by
      refine Walk.leaving_takeDown (t := .service svc) ?_
      rw [Turn.released, Turn.metadata, hlive]
      simp [hconfig]
    have hsyncs : (Turn.service svc).syncs = true := by simp [Turn.syncs, hconfig]
    exact h.leaveInSync hleaving hsyncs within_releaseFinalizer (within_pure _)
  · rename_i hconfig
    have hsyncs : (Turn.service svc).syncs = false := by simpa [Turn.syncs, hlive] using hconfig
    split
    · rename_i hours
      refine h.leave_andThen (Walk.leaving_takeDown (t := .service svc) ?_) hsyncs
        (.bind within_releaseFinalizer fun _ => within_pure _)
      rw [Turn.released, Turn.metadata, hlive]
      simp [hours]
    · split
      · exact h.throw _
      · rename_i hparse
        split
        · exact walk_applyEgress h ‹_› hparse hsyncs
        · exact walk_applyExpose h (Bool.eq_false_iff.2 ‹_›) hparse hsyncs

theorem walk_reconcile : P (svc.reconcile read digest dep) := by
  refine h.reconcileObject (walk_apply h) fun hdeleting => ?_
  have hsyncs : (Turn.service svc).syncs = true := by simp [Turn.syncs, hdeleting]
  exact h.leaveInSync (Walk.leaving_cleanupObject (t := .service svc)) hsyncs (within_pure ())
    (within_pure _)

end PortedService

/-- What holds of the ends of a reconcile holds of it. -/
theorem Walk.reconcile {t : Turn} {P₀ P : {α : Type} → M α → Prop}
    (h : Walk read digest dep t P₀ P) : P (t.reconcile read digest dep) := by
  cases t with
  | ingress ing => exact RoutedIngress.walk_reconcile h
  | service svc => exact PortedService.walk_reconcile h

/-! ## Executions -/

section Executions

open Process (Entry Machine Made Pool trace)

variable {turns : List Turn} {w : Cluster} {events : List (Process.Event Fate (Cluster → Cluster))}
  {s : Pool sig Error Action Cluster} {e : Entry sig Cluster} {t : Turn}

/-- What the reconciles of every object only call after some calls, they do in any execution. -/
theorem calls_of_safe {A : Turn → List (Made sig) → Op → Prop}
    (hsafe : ∀ t : Turn, (t.reconcile read digest dep).Safe (A t))
    (hexec : cluster.exec (reconciles read digest dep turns w) events = some s)
    {hist : List (Entry sig Cluster)} (he : e :: hist <:+ s.history)
    (ht : turns[e.thread]? = some t) : A t (trace e.thread hist) e.op := by
  refine (Machine.exec_tracing (A := fun i tr o => ∀ t, turns[i]? = some t → A t tr o) rfl
    (fun i p hp => ?_) hexec he).1 t ht
  obtain ⟨t', ht', rfl⟩ := Option.map_eq_some_iff.1 ((List.getElem?_map ..).symm.trans hp)
  refine (hsafe t').mono fun tr o ho t'' ht'' => ?_
  obtain rfl := Option.some.inj (ht'.symm.trans ht'')
  exact ho

/-- And what they only call at all. -/
theorem calls_of_uses {C : Turn → Op → Prop}
    (huses : ∀ t : Turn, (t.reconcile read digest dep).Uses (C t))
    (hexec : cluster.exec (reconciles read digest dep turns w) events = some s)
    (he : e ∈ s.history) (ht : turns[e.thread]? = some t) : C t e.op := by
  obtain ⟨later, hist, hhistory⟩ := List.append_of_mem he
  exact calls_of_safe (A := fun t _ => C t) (fun t => (huses t).safe fun _ _ ho => ho) hexec
    (hhistory ▸ List.suffix_append later _) ht

theorem call_of_uses {C : Op → Prop} {t : Turn} (huses : (t.reconcile read digest dep).Uses C)
    (hexec : cluster.exec (reconciles read digest dep turns w) events = some s)
    (he : e ∈ s.history) (ht : turns[e.thread]? = some t) : C e.op := by
  refine calls_of_uses (C := fun t' o => t' = t → C o) (fun t' => ?_) hexec he ht rfl
  by_cases h : t' = t
  · subst h
    exact huses.mono fun _ ho _ => ho
  · exact Process.Prog.uses_of_forall (fun _ heq => absurd heq h) _

end Executions

end Headmaster.Operator.Proxy
