import Headmaster.Operator.Instance.Calls

/-!
# What a reconcile announces

The events that a reconcile of an instance publishes about it
(`publish_transitions` in `src/operator/src/controllers/recorder.rs`). Unlike its
status, nobody corrects an event later: one that ends has published those of the
transition that the status it wrote has made, once each, after the status was
written, and one that fails has published none (`announced_of_ended`). Warnings
about the Ingresses of the instance it may have published either way.
-/

namespace Headmaster.Operator.Instance

open Process (Made Pool Prog trace)
open Process.Machine (exec_leads)
open Process.Prog (wp_bind wp_bind_op wp_attempt)
open Proxy (Action)

variable {dep : Deployment} {obj : CustomResource} {child : ChildApplier}
  {A : List (Made sig) → Op → Prop} {tr : List (Made sig)}

/-! ## Events -/

/-- The event that is published about an object. -/
def Op.eventOf? (ref : ObjectRef) : Op → Option KubeEvent
  | publish ref' event => if ref' = ref then some event else none
  | sync _ (.publishWarning ing reason note) =>
    if ingressRef ing = ref then some (warningEvent reason note) else none
  | _ => none

/-- The events that were published about an object, the latest first. -/
def announcements (ref : ObjectRef) (tr : List (Made sig)) : List KubeEvent :=
  tr.filterMap fun c => c.op.eventOf? ref

theorem announcements_append (ref : ObjectRef) (tr tr' : List (Made sig)) :
    announcements ref (tr ++ tr') = announcements ref tr ++ announcements ref tr' :=
  List.filterMap_append

theorem ingressRef_ne_objectRef (ing : Ingress) (obj : CustomResource) :
    ingressRef ing ≠ obj.objectRef := by
  intro h
  have hkind : some "Ingress" = some "HeadscaleInstance" := congrArg ObjectRef.kind h
  exact absurd hkind (by decide)

/-- What puts the objects and the policy in place is no event of the instance. -/
theorem eventOf?_of_readies {o : Op} {name : String} (h : o.Readies name) :
    o.eventOf? obj.objectRef = none := by
  cases o with
  | publish =>
    rcases h with h | ⟨so, h⟩
    · exact h.2.elim
    · cases h
  | sync n so =>
    cases so with
    | publishWarning ing reason note =>
      rw [Op.eventOf?, if_neg (ingressRef_ne_objectRef ing obj)]
    | _ => rfl
  | _ => rfl

/-- Nothing was written or announced about the instance. -/
structure Silent (obj : CustomResource) (tr : List (Made sig)) : Prop where
  status : statusWrites tr = []
  events : announcements obj.objectRef tr = []

/-- The status was written, and then the events of its transition were published, once each. -/
inductive Announcing (obj : CustomResource) : List (Made sig) → Prop
  | settled (status : HeadscaleInstanceStatus) (later earlier : List (Made sig))
      (hearlier : Silent obj earlier) (hstatus : statusWrites later = [])
      (hevents : announcements obj.objectRef later =
        (transitionEvents obj.objectRef (obj.status.getD {}) status).reverse) :
      Announcing obj (later ++ ⟨.patchStatus obj.name status, Except.ok ()⟩ :: earlier)

/-- What a reconcile that has ended has announced about its instance. -/
def Announced (obj : CustomResource) (tr : List (Made sig)) : Except Error Action → Prop
  | .ok (.requeue _) => Announcing obj tr
  | .ok .awaitChange => False
  | .error _ => announcements obj.objectRef tr = []

theorem Silent.readying {l : List (Made sig)} {name : String} (h : Silent obj tr)
    (hl : ∀ c ∈ l, c.op.Readies name) : Silent obj (l ++ tr) := by
  refine ⟨statusWrites_readying h.status hl, ?_⟩
  rw [announcements_append, h.events, List.append_nil]
  exact List.filterMap_eq_nil_iff.2 fun c hc => eventOf?_of_readies (hl c hc)

theorem Silent.cons {c : Made sig} (h : Silent obj tr) (hstatus : c.op.status? = none)
    (hevent : c.op.eventOf? obj.objectRef = none) : Silent obj (c :: tr) :=
  ⟨(List.filterMap_cons_none (f := fun c : Made sig => c.op.status?) hstatus).trans h.status,
    (List.filterMap_cons_none (f := fun c : Made sig => c.op.eventOf? obj.objectRef) hevent).trans
      h.events⟩

/-! ## The parts of a reconcile -/

/-- Events are published in order, whether or not that fails. -/
theorem wp_announce {ref : ObjectRef} {es : List KubeEvent}
    {Q : Except Error PUnit → List (Made sig) → Prop} (hA : ∀ tr o, A tr o)
    (h : ∀ l, statusWrites l = [] → announcements ref l = es.reverse → Q (.ok ()) (l ++ tr)) :
    (es.forM (publish ref)).wp (.tracing A) Q tr := by
  induction es generalizing tr with
  | nil => exact h [] rfl rfl
  | cons event es ih =>
    refine wp_bind.2 (wp_bind_op.2 ⟨hA _ _, fun a => ih fun l hstatus hevents => ?_⟩)
    have hq := h (l ++ [⟨.publish ref event, a⟩]) ?_ ?_
    · rwa [List.append_assoc] at hq
    · rw [statusWrites_append, hstatus]
      rfl
    · have hlast : announcements ref [⟨.publish ref event, a⟩] = [event] := by
        simp [announcements, Op.eventOf?]
      rw [announcements_append, hevents, List.reverse_cons, hlast]

section Parts

variable (hA : ∀ tr o, A tr o) (hsilent : Silent obj tr)
include hA hsilent

theorem announced_failWith {reason message : String} {e : Error} :
    (failWith obj reason message e : M Action).wp (.tracing A) (fun r tr => Announced obj tr r)
      tr :=
  wp_failWith hA fun _ _ => hsilent.events

theorem announced_settle {isReady : Bool} {reason message : String} {secs : Nat} :
    (settle obj isReady reason message secs).wp (.tracing A) (fun r tr => Announced obj tr r)
      tr := by
  refine wp_bind.2 (wp_bind_op.2 ⟨hA _ _, fun time => ?_⟩)
  refine wp_bind.2 (wp_bind_op.2 ⟨hA _ _, fun a => ?_⟩)
  rcases a with ke | u
  · -- The status was not written: its transition is left to the next reconcile.
    exact hsilent.events
  · refine wp_bind.2 (wp_announce hA fun l hstatus hevents => ?_)
    exact .settled _ l (⟨.now, time⟩ :: tr) (hsilent.cons rfl rfl) hstatus hevents

theorem announced_applyManaged (hchild : child.instanceName = obj.name) :
    (applyManaged dep obj child).wp (.tracing A) (fun r tr => Announced obj tr r) tr := by
  refine wp_bind.2 (wp_attempt.2 (wp_uses (serves_ensureHeadscale hchild) (fun tr o _ => hA tr o)
    fun r l hl => ?_))
  have hserved := hsilent.readying fun c hc => .inl (hl c hc)
  rcases r with e | u
  · -- An object was refused: a status is written, but nothing is announced.
    exact announced_failWith hA hserved
  refine wp_bind_op.2 ⟨hA _ _, fun a => ?_⟩
  rcases a with ke | replicas
  · exact hserved.events
  have hread : Silent obj (⟨.getStatefulSet (serverName obj.name), Except.ok replicas⟩ :: (l ++ tr)) :=
    hserved.cons rfl rfl
  change Prog.wp _ _ (ite (replicas.getD 0 > 0) _ _) _
  split
  · refine wp_bind.2 (wp_attempt.2 (wp_uses (readies_whenReady hchild) (fun tr o _ => hA tr o)
      fun r l' hl' => ?_))
    have hdone := hread.readying hl'
    rcases r with e | u
    · exact announced_failWith hA hdone
    · exact announced_settle hA hdone
  · exact announced_settle hA hread

theorem announced_applyExternal :
    (applyExternal dep obj).wp (.tracing A) (fun r tr => Announced obj tr r) tr := by
  rw [applyExternal]
  split
  · exact announced_failWith hA hsilent
  · refine wp_bind.2 (wp_bind_op.2 ⟨hA _ _, fun connected => ?_⟩)
    have hconnected : Silent obj (⟨.sync obj.name .connect, connected⟩ :: tr) := hsilent.cons rfl rfl
    rcases connected with ke | u
    · change Prog.wp _ _ (settle obj false _ _ 15) _
      exact announced_settle hA hconnected
    · refine wp_bind_op.2 ⟨hA _ _, fun users => ?_⟩
      have hlisted : Silent obj (⟨.listUsers obj.name, users⟩ :: _ :: tr) := hconnected.cons rfl rfl
      rcases users with status | u
      · change Prog.wp _ _ (settle obj false _ _ 15) _
        exact announced_settle hA hlisted
      · change Prog.wp _ _ (settle obj true _ _ 60) _
        exact announced_settle hA hlisted

end Parts

/-! ## Executions -/

variable {versions : List CustomResource} {w : Cluster}
  {events : List (Process.Event Fate (Cluster → Cluster))} {s : Pool sig Error Action Cluster}

/-- A reconcile of an instance that lives, and has the finalizer, has announced about it what its
    status has changed, and nothing if it failed. -/
theorem announced_of_ended {i : ℕ} {r : Except Error Action}
    (hexec : cluster.exec (reconciles dep versions w) events = some s)
    (hobj : versions[i]? = some obj)
    (hfinalizer : finalizer dep.operatorNamespace ∈ obj.metadata.finalizers)
    (hlives : obj.metadata.deleting = false) (hend : s.threads[i]? = some (.ret r)) :
    Announced obj (trace i s.history) r := by
  have hstart : (reconciles dep versions w).threads[i]? = some (reconcile dep obj) := by
    rw [reconciles, List.getElem?_map, hobj]
    rfl
  obtain ⟨q, hq, hleads⟩ := exec_leads rfl hexec hstart
  obtain rfl := Option.some.inj (hq.symm.trans hend)
  have hannounced : (reconcile dep obj).wp (.tracing fun _ _ => True)
      (fun r tr => Announced obj tr r) [] := by
    rw [reconcile]
    cases hns : obj.metadata.namespaceName with
    | none => exact rfl
    | some ns =>
      dsimp only
      rw [withFinalizer, List.contains_iff_mem.2 hfinalizer, hlives]
      dsimp only
      rw [applyInstance, hns]
      dsimp only
      split
      · exact announced_applyExternal (fun _ _ => trivial) ⟨rfl, rfl⟩
      · cases obj.uid with
        | none => exact rfl
        | some uid => exact announced_applyManaged (fun _ _ => trivial) ⟨rfl, rfl⟩ rfl
  have hends := hleads.wp hannounced
  rwa [List.append_nil] at hends

namespace Office

def requeued : M Action → Bool
  | .ret (.ok (.requeue secs)) => secs == 60
  | _ => false

theorem eq_of_requeued {p : M Action} (h : requeued p = true) : p = .ret (.ok (.requeue 60)) := by
  cases p with
  | ret r =>
    rcases r with e | a
    · cases h
    · cases a with
      | requeue secs =>
        have hsecs : secs = 60 := eq_of_beq h
        rw [hsecs]
      | awaitChange => cases h
  | call => cases h

end Office

open Office in
/-- An instance that becomes ready is announced, although an Ingress of it is warned before. -/
theorem announced_of_ended_ready : ∃ s,
    cluster.exec (reconciles opened [governed] fresh) (.replicate 20 (.act 0 commented)) = some s ∧
      (announcements (ingressRef site) (trace 0 s.history)).length = 1 ∧
      Announcing governed (trace 0 s.history) := by
  have hrun : (cluster.exec (reconciles opened [governed] fresh)
      (.replicate 20 (.act 0 commented))).any (fun s => s.threads[0]?.any requeued &&
        (announcements (ingressRef site) (trace 0 s.history)).length == 1) = true := by
    decide +kernel
  obtain ⟨s, hs, hcheck⟩ := Option.any_eq_true _ _ |>.1 hrun
  rw [Bool.and_eq_true, beq_iff_eq] at hcheck
  obtain ⟨hthread, hwarned⟩ := hcheck
  obtain ⟨p, hp, hrequeued⟩ := Option.any_eq_true _ _ |>.1 hthread
  obtain rfl := eq_of_requeued hrequeued
  exact ⟨s, hs, hwarned, announced_of_ended hs rfl List.mem_cons_self rfl hp⟩

end Headmaster.Operator.Instance
