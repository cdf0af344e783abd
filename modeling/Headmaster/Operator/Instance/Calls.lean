import Headmaster.Operator.Instance.Walk

/-!
# What a reconcile calls

Read off the calls of a reconcile and their answers, the latest first, whatever
the answers are and whatever happens between the calls:

* it writes the status at most once, and one that fails has said so there with
  its error; the exceptions are a StatefulSet that cannot be read and a status
  that cannot be written (`told_of_ended`);
* the finalizer of an instance goes only once every Ingress that references it
  was told, and both claims are gone (`cleaned_before_finalizer`);
* the policy that it sets is the one for the live policy and the Ingresses that
  it has read, of an instance whose policy is the operator's (`synced_of_set`).
-/

namespace Headmaster.Operator.Instance

open Process (Made Contract Pool Prog trace)
open Process.Machine (exec_leads exec_tracing)
open Process.Prog (Leads Safe Uses uses_op wp_bind wp_bind_op wp_attempt wp_mono)
open Proxy (Action ignoring404)
open Policy (PolicyText)

variable {dep : Deployment} {obj : CustomResource} {child : ChildApplier} {α : Type}
  {A : List (Made sig) → Op → Prop} {tr : List (Made sig)}

/-! ## Statuses -/

def Op.status? : Op → Option HeadscaleInstanceStatus
  | patchStatus _ status => some status
  | _ => none

/-- The statuses that were written, the latest first. -/
def statusWrites (tr : List (Made sig)) : List HeadscaleInstanceStatus :=
  tr.filterMap fun c => c.op.status?

theorem statusWrites_append (tr tr' : List (Made sig)) :
    statusWrites (tr ++ tr') = statusWrites tr ++ statusWrites tr' := List.filterMap_append

theorem statusWrites_eq_nil (h : ∀ c ∈ tr, c.op.status? = none) : statusWrites tr = [] :=
  List.filterMap_eq_nil_iff.2 h

/-- What a failed reconcile has told: its error is the message of a status that says that the
    instance is not ready, or it is that of a request without which there is none. -/
inductive ToldError (dep : Deployment) (obj : CustomResource) (tr : List (Made sig)) (e : Error) :
    Prop
  | written (status : HeadscaleInstanceStatus) (before : String)
      (h : statusWrites tr = [status]) (hready : status.isReady = false)
      (hgeneration : status.observedGeneration = obj.generation.getD 0)
      (hmessage : status.readyCondition.map (·.message) = some (before ++ e.text dep))
  | unwritten (status : HeadscaleInstanceStatus) (ke : KubeError) (h : statusWrites tr = [status])
      (hlast : tr.head? = some ⟨.patchStatus obj.name status, Except.error ke⟩) (he : e = .kube ke)
  | unread (ke : KubeError) (h : statusWrites tr = [])
      (hlast : tr.head? = some ⟨.getStatefulSet (serverName obj.name), Except.error ke⟩)
      (he : e = .kube ke)

/-- What a reconcile that has ended has told. -/
def Told (dep : Deployment) (obj : CustomResource) (tr : List (Made sig)) :
    Except Error Action → Prop
  | .error e => ToldError dep obj tr e
  | .ok .awaitChange => False
  | .ok (.requeue secs) => ∃ status, statusWrites tr = [status] ∧
    ⟨.patchStatus obj.name status, Except.ok ()⟩ ∈ tr ∧ status.isReady = (secs == 60) ∧
    status.observedGeneration = obj.generation.getD 0

theorem status?_of_readies {o : Op} {name : String} (h : o.Readies name) : o.status? = none := by
  cases o with
  | patchStatus =>
    rcases h with h | ⟨so, h⟩
    · exact h.2.elim
    · cases h
  | _ => rfl

theorem wp_uses {p : M α} {C : Op → Prop} (hp : p.Uses C) (hA : ∀ tr o, C o → A tr o)
    {Q : Except Error α → List (Made sig) → Prop}
    (h : ∀ r l, (∀ c ∈ l, C c.op) → Q r (l ++ tr)) : p.wp (.tracing A) Q tr := by
  refine wp_mono (fun r tr' htr => ?_) (hp.wp_tracing hA tr)
  obtain ⟨l, rfl, hl⟩ := htr
  exact h r l hl

/-- The status that a reconcile writes. -/
def statusOf (obj : CustomResource) (isReady : Bool) (reason message : String) (time : Int) :
    HeadscaleInstanceStatus :=
  (obj.status.getD {}).updateReadyAt isReady reason message (obj.generation.getD 0) time

theorem wp_failWith {reason message : String} {e : Error}
    {Q : Except Error α → List (Made sig) → Prop} (hA : ∀ tr o, A tr o)
    (h : ∀ time a, Q (.error e) (⟨.patchStatus obj.name (statusOf obj false reason message time), a⟩ ::
      ⟨.now, time⟩ :: tr)) : (failWith obj reason message e : M α).wp (.tracing A) Q tr :=
  wp_bind.2 (wp_bind_op.2 ⟨hA _ _, fun time => wp_bind_op.2 ⟨hA _ _, h time⟩⟩)

/-- Whether events are published makes no difference. -/
theorem wp_publishes {ref : ObjectRef} {es : List KubeEvent}
    {Q : Except Error PUnit → List (Made sig) → Prop} (hA : ∀ tr o, A tr o)
    (h : ∀ l, (∀ c ∈ l, c.op.status? = none) → Q (.ok ()) (l ++ tr)) :
    (es.forM (publish ref)).wp (.tracing A) Q tr := by
  induction es generalizing tr with
  | nil => exact h [] nofun
  | cons event es ih =>
    refine wp_bind.2 (wp_bind_op.2 ⟨hA _ _, fun a => ih fun l hl => ?_⟩)
    have hq := h (l ++ [⟨.publish ref event, a⟩]) fun c hc => ?_
    · rwa [List.append_assoc] at hq
    · rcases List.mem_append.1 hc with hc | hc
      · exact hl c hc
      · rw [List.mem_singleton.1 hc]
        rfl

theorem wp_settle {isReady : Bool} {reason message : String} {secs : Nat}
    {Q : Except Error Action → List (Made sig) → Prop} (hA : ∀ tr o, A tr o)
    (herror : ∀ time ke, Q (.error (.kube ke))
      (⟨.patchStatus obj.name (statusOf obj isReady reason message time), Except.error ke⟩ ::
        ⟨.now, time⟩ :: tr))
    (hok : ∀ time l, (∀ c ∈ l, c.op.status? = none) → Q (.ok (.requeue secs))
      (l ++ ⟨.patchStatus obj.name (statusOf obj isReady reason message time), Except.ok ()⟩ ::
        ⟨.now, time⟩ :: tr)) :
    (settle obj isReady reason message secs).wp (.tracing A) Q tr := by
  refine wp_bind.2 (wp_bind_op.2 ⟨hA _ _, fun time => ?_⟩)
  refine wp_bind.2 (wp_bind_op.2 ⟨hA _ _, fun a => ?_⟩)
  rcases a with ke | u
  · exact herror time ke
  · exact wp_bind.2 (wp_publishes hA fun l hl => hok time l hl)

theorem statusWrites_patch {status : HeadscaleInstanceStatus} {a : Except KubeError Unit}
    {time : Int} (htr : statusWrites tr = []) :
    statusWrites (⟨.patchStatus obj.name status, a⟩ :: ⟨.now, time⟩ :: tr) = [status] :=
  congrArg (status :: ·) htr

theorem statusWrites_readying {l : List (Made sig)} {name : String} (htr : statusWrites tr = [])
    (hl : ∀ c ∈ l, c.op.Readies name) : statusWrites (l ++ tr) = [] := by
  rw [statusWrites_append, htr, List.append_nil]
  exact statusWrites_eq_nil fun c hc => status?_of_readies (hl c hc)

section Told

variable (hA : ∀ tr o, A tr o) (htr : statusWrites tr = [])
include hA htr

theorem told_failWith {reason message before : String} {e : Error}
    (hmessage : message = before ++ e.text dep) :
    (failWith obj reason message e : M Action).wp (.tracing A) (fun r tr => Told dep obj tr r)
      tr := by
  subst hmessage
  refine wp_failWith hA fun time a => ?_
  refine .written (statusOf obj false reason (before ++ e.text dep) time) before
    (statusWrites_patch htr) HeadscaleInstanceStatus.isReady_updateReadyAt rfl ?_
  rw [statusOf, HeadscaleInstanceStatus.readyCondition_updateReadyAt]
  rfl

theorem told_settle {isReady : Bool} {reason message : String} {secs : Nat}
    (hready : isReady = (secs == 60)) : (settle obj isReady reason message secs).wp (.tracing A)
      (fun r tr => Told dep obj tr r) tr := by
  subst hready
  refine wp_settle hA (fun time ke => ?_) fun time l hl => ?_
  · -- The error that the reconcile ends with is that of the write itself.
    exact .unwritten _ ke (statusWrites_patch htr) rfl rfl
  · refine ⟨statusOf obj (secs == 60) reason message time, ?_, ?_,
      HeadscaleInstanceStatus.isReady_updateReadyAt, rfl⟩
    · rw [statusWrites_append, statusWrites_eq_nil hl, statusWrites_patch htr]
      rfl
    · exact List.mem_append_right _ List.mem_cons_self

theorem told_applyManaged (hchild : child.instanceName = obj.name) :
    (applyManaged dep obj child).wp (.tracing A) (fun r tr => Told dep obj tr r) tr := by
  refine wp_bind.2 (wp_attempt.2 (wp_uses (serves_ensureHeadscale hchild) (fun tr o _ => hA tr o)
    fun r l hl => ?_))
  have hserved := statusWrites_readying htr fun c hc => .inl (hl c hc)
  rcases r with e | u
  · exact told_failWith hA hserved rfl
  refine wp_bind_op.2 ⟨hA _ _, fun a => ?_⟩
  rcases a with ke | replicas
  · exact .unread ke hserved rfl rfl
  have hread : statusWrites (⟨.getStatefulSet (serverName obj.name), Except.ok replicas⟩ ::
    (l ++ tr)) = [] := hserved
  change Prog.wp _ _ (ite (replicas.getD 0 > 0) _ _) _
  split
  · refine wp_bind.2 (wp_attempt.2 (wp_uses (readies_whenReady hchild) (fun tr o _ => hA tr o)
      fun r l' hl' => ?_))
    have hdone := statusWrites_readying hread hl'
    rcases r with e | u
    · exact told_failWith hA hdone (String.empty_append).symm
    · exact told_settle hA hdone rfl
  · exact told_settle hA hread rfl

theorem told_applyExternal :
    (applyExternal dep obj).wp (.tracing A) (fun r tr => Told dep obj tr r) tr := by
  rw [applyExternal]
  split
  · exact told_failWith hA htr (String.empty_append).symm
  · refine wp_bind.2 (wp_bind_op.2 ⟨hA _ _, fun connected => ?_⟩)
    rcases connected with ke | u
    · change Prog.wp _ _ (settle obj false _ _ 15) _
      exact told_settle hA (by exact htr) (by rfl)
    · refine wp_bind_op.2 ⟨hA _ _, fun users => ?_⟩
      rcases users with status | u
      · change Prog.wp _ _ (settle obj false _ _ 15) _
        exact told_settle hA (by exact htr) (by rfl)
      · change Prog.wp _ _ (settle obj true _ _ 60) _
        exact told_settle hA (by exact htr) (by rfl)

end Told

section Executions

variable {versions : List CustomResource} {w : Cluster}
  {events : List (Process.Event Fate (Cluster → Cluster))} {s : Pool sig Error Action Cluster}

/-- A reconcile of an instance that lives, and has the finalizer, tells how it ended. -/
theorem told_of_ended {i : ℕ} {r : Except Error Action} {ns uid : String}
    (hexec : cluster.exec (reconciles dep versions w) events = some s)
    (hobj : versions[i]? = some obj) (hns : obj.metadata.namespaceName = some ns)
    (huid : obj.uid = some uid) (hfinalizer : finalizer dep.operatorNamespace ∈ obj.metadata.finalizers)
    (hlives : obj.metadata.deleting = false) (hend : s.threads[i]? = some (.ret r)) :
    Told dep obj (trace i s.history) r := by
  have hstart : (reconciles dep versions w).threads[i]? = some (reconcile dep obj) := by
    rw [reconciles, List.getElem?_map, hobj]
    rfl
  obtain ⟨q, hq, hleads⟩ := exec_leads rfl hexec hstart
  obtain rfl := Option.some.inj (hq.symm.trans hend)
  have htold : (reconcile dep obj).wp (.tracing fun _ _ => True) (fun r tr => Told dep obj tr r)
      [] := by
    rw [reconcile, hns]
    dsimp only
    rw [withFinalizer, List.contains_iff_mem.2 hfinalizer, hlives]
    dsimp only
    rw [applyInstance, hns, huid]
    dsimp only
    split
    · exact told_applyExternal (fun _ _ => trivial) rfl
    · exact told_applyManaged (fun _ _ => trivial) rfl rfl
  have hends := hleads.wp htold
  rwa [List.append_nil] at hends

namespace Office

def failed : M Action → Bool
  | .ret (.error (.kube .other)) => true
  | _ => false

theorem eq_of_failed {p : M Action} (h : failed p = true) : p = .ret (.error (.kube .other)) := by
  cases p with
  | ret r =>
    rcases r with e | a
    · cases e with
      | kube ke =>
        cases ke with
        | other => rfl
        | notFound => cases h
      | _ => cases h
    · cases h
  | call => cases h

/-- The Service is refused, after the ConfigMap was applied. -/
def refused : List (Process.Event Fate (Cluster → Cluster)) :=
  succeeds 0 1 ++ .act 0 ⟨some false, answer⟩ :: succeeds 0 2

end Office

open Office in
/-- The status of a reconcile whose Service is refused says so. -/
theorem told_of_ended_refused : ∃ s,
    cluster.exec (reconciles deployment [served "main" none] fresh) refused = some s ∧
      Told deployment (served "main" none) (trace 0 s.history) (.error (.kube .other)) := by
  have hrun : (cluster.exec (reconciles deployment [served "main" none] fresh) refused).any
      (fun s => s.threads[0]?.any failed) = true := by
    decide +kernel
  obtain ⟨s, hs, hthread⟩ := Option.any_eq_true _ _ |>.1 hrun
  obtain ⟨p, hp, hfailed⟩ := Option.any_eq_true _ _ |>.1 hthread
  obtain rfl := eq_of_failed hfailed
  exact ⟨s, hs, told_of_ended hs rfl rfl rfl List.mem_cons_self rfl hp⟩

end Executions

/-! ## The finalizer -/

/-- The event of an Ingress whose instance is deleted. -/
def orphanEvent (name : String) : KubeEvent :=
  warningEvent "InstanceDeleted" <| "HeadscaleInstance '" ++ name ++
    "' was deleted; this Ingress is now orphaned and will stop functioning"

/-- Every Ingress that references the instance was told, and lost its address. -/
def Orphaned (dep : Deployment) (name : String) (tr : List (Made sig)) : Prop :=
  ∃ ings, ⟨.listIngresses, Except.ok ings⟩ ∈ tr ∧
    ∀ ing ∈ listContributingIngresses dep.read name ["*"] ings,
      (∃ a, ⟨.publish (ingressRef ing) (orphanEvent name), a⟩ ∈ tr) ∧
      ∃ a, ⟨.clearIngressStatus ing.ns ing.metadata.name, a⟩ ∈ tr

/-- A claim is gone. -/
def Deleted (n : String) (tr : List (Made sig)) : Prop :=
  ∃ a, ⟨.delete .persistentVolumeClaim n, a⟩ ∈ tr ∧ ignoring404 a = .ok ()

/-- What has to be done before the claim of headscale is deleted, and before the finalizer goes; both
    are the instance's own. -/
def CleanedBefore (dep : Deployment) (obj : CustomResource) (tr : List (Made sig)) : Op → Prop
  | .delete .persistentVolumeClaim n => n ∈ childNames .persistentVolumeClaim obj.name ∧
    (n = serverClaimName obj.name → obj.metadata.deleting = true ∧ Orphaned dep obj.name tr)
  | .removeFinalizer name ourFinalizer =>
    name = obj.name ∧ ourFinalizer = finalizer dep.operatorNamespace ∧
    obj.metadata.deleting = true ∧ Orphaned dep obj.name tr ∧
    Deleted (serverClaimName obj.name) tr ∧ Deleted (scimClaimName obj.name) tr
  | _ => True

theorem Orphaned.mono {name : String} {tr' : List (Made sig)} (h : Orphaned dep name tr)
    (hsub : tr ⊆ tr') : Orphaned dep name tr' := by
  obtain ⟨ings, hings, h⟩ := h
  refine ⟨ings, hsub hings, fun ing hing => ?_⟩
  exact (h ing hing).imp (Exists.imp fun _ h => hsub h) (Exists.imp fun _ h => hsub h)

theorem serverClaimName_ne {name n : String}
    (hn : n ∈ [scimName name, scimTokenSecretName name, scimClaimName name]) :
    n ≠ serverClaimName name := by
  rintro rfl
  rw [List.mem_cons, List.mem_pair] at hn
  unfold serverClaimName scimName scimTokenSecretName scimClaimName at hn
  rcases hn with h | h | h
  all_goals
    have hlist := congrArg String.toList h
    simp at hlist

theorem cleanedBefore_of_applies {o : Op} (h : o.Applies obj.name) :
    CleanedBefore dep obj tr o := by
  cases o with
  | delete kind n =>
    rcases h with (h | ⟨so, h⟩) | h
    · cases kind with
      | persistentVolumeClaim => exact ⟨h.1, fun hclaim => absurd hclaim (serverClaimName_ne h.2)⟩
      | _ => trivial
    · cases h
    · exact h.elim
  | removeFinalizer =>
    rcases h with (h | ⟨so, h⟩) | h
    · exact h.2.elim
    · cases h
    · exact h.elim
  | _ => trivial

theorem wp_fetchContributingIngresses {name : String} {watchedNamespaces : List String}
    {Q : Except Error (List Ingress) → List (Made sig) → Prop} (hA : A tr .listIngresses)
    (hok : ∀ ings, Q (.ok (listContributingIngresses dep.read name watchedNamespaces ings))
      (⟨.listIngresses, Except.ok ings⟩ :: tr)) (herror : ∀ e tr', Q (.error e) tr') :
    (fetchContributingIngresses dep name watchedNamespaces).wp (.tracing A) Q tr := by
  refine wp_bind_op.2 ⟨hA, fun listed => ?_⟩
  rcases listed with e | ings
  · exact herror _ _
  · exact hok ings

/-- An Ingress is told and loses its address, and nothing else is done to it. -/
theorem wp_orphanIngresses {ings : List Ingress} {Q : Except Error PUnit → List (Made sig) → Prop}
    (h : ∀ tr', tr ⊆ tr' → (∀ ing ∈ ings,
      (∃ a, ⟨.publish (ingressRef ing) (orphanEvent obj.name), a⟩ ∈ tr') ∧
        ∃ a, ⟨.clearIngressStatus ing.ns ing.metadata.name, a⟩ ∈ tr') → Q (.ok ()) tr') :
    (ings.forM (orphanIngress obj.name)).wp (.tracing (CleanedBefore dep obj)) Q tr := by
  induction ings generalizing tr with
  | nil => exact h tr (List.Subset.refl _) nofun
  | cons ing ings ih =>
    refine wp_bind.2 (wp_bind.2 (wp_bind_op.2 ⟨trivial, fun a => wp_bind_op.2 ⟨trivial, fun b => ?_⟩⟩))
    refine ih fun tr' hsub htold => h tr' (fun c hc => hsub ?_) (List.forall_mem_cons.2 ⟨⟨?_, ?_⟩, htold⟩)
    · exact List.mem_cons_of_mem _ (List.mem_cons_of_mem _ hc)
    · exact ⟨a, hsub (List.mem_cons_of_mem _ List.mem_cons_self)⟩
    · exact ⟨b, hsub List.mem_cons_self⟩

theorem wp_deleteClaim {n : String} {Q : Except Error Unit → List (Made sig) → Prop}
    (hA : CleanedBefore dep obj tr (.delete .persistentVolumeClaim n))
    (hok : ∀ tr', tr ⊆ tr' → Deleted n tr' → Q (.ok ()) tr') (herror : ∀ e tr', Q (.error e) tr') :
    (deleteIgnoring404 .persistentVolumeClaim n).wp (.tracing (CleanedBefore dep obj)) Q tr := by
  refine wp_bind_op.2 ⟨hA, fun a => ?_⟩
  cases h : ignoring404 a with
  | error e => exact herror _ _
  | ok u => exact hok _ (List.subset_cons_self _ _) ⟨a, List.mem_cons_self, h⟩

theorem Deleted.mono {n : String} {tr' : List (Made sig)} (h : Deleted n tr) (hsub : tr ⊆ tr') :
    Deleted n tr' := h.imp fun _ h => h.imp_left fun h => hsub h

theorem wp_cleanup {Q : Except Error Action → List (Made sig) → Prop}
    (hdeleting : obj.metadata.deleting = true)
    (hok : ∀ tr', Orphaned dep obj.name tr' → Deleted (serverClaimName obj.name) tr' →
      Deleted (scimClaimName obj.name) tr' → ∀ a, Q (.ok a) tr')
    (herror : ∀ e tr', Q (.error e) tr') :
    (cleanup dep obj).wp (.tracing (CleanedBefore dep obj)) Q tr := by
  refine wp_bind.2 (wp_fetchContributingIngresses trivial (fun ings => ?_) herror)
  refine wp_bind.2 (wp_orphanIngresses fun tr₁ hsub₁ htold => ?_)
  have horphaned : Orphaned dep obj.name tr₁ := ⟨ings, hsub₁ List.mem_cons_self, htold⟩
  cases obj.metadata.namespaceName with
  | none => exact herror _ _
  | some ns =>
    -- The claims go only now: every Ingress was told, on a trace that later calls extend.
    refine wp_bind.2 (wp_deleteClaim ⟨List.mem_cons_self, fun _ => ⟨hdeleting, horphaned⟩⟩
      (fun tr₂ hsub₂ hserver => ?_) herror)
    have hscimClaim : scimClaimName obj.name ∈ childNames .persistentVolumeClaim obj.name :=
      List.mem_cons_of_mem _ List.mem_cons_self
    refine wp_bind.2 (wp_deleteClaim ⟨hscimClaim, fun _ => ⟨hdeleting, horphaned.mono hsub₂⟩⟩
      (fun tr₃ hsub₃ hscim => ?_) herror)
    refine wp_bind.2 (wp_bind_op.2 ⟨trivial, fun a => ?_⟩)
    have hsub := List.subset_cons_self
      (⟨.publish obj.objectRef (deletedEvent obj.objectRef), a⟩ : Made sig) tr₃
    have hsub₂₃ := List.Subset.trans hsub₃ hsub
    exact hok _ (horphaned.mono (List.Subset.trans hsub₂ hsub₂₃)) (hserver.mono hsub₂₃)
      (hscim.mono hsub) _

/-- The finalizer is removed only after all of the cleanup. -/
theorem safe_cleanedBefore : (reconcile dep obj).Safe (CleanedBefore dep obj) := by
  have happly : (applyInstance dep obj).Safe (CleanedBefore dep obj) :=
    applies_applyInstance.safe fun tr o ho => cleanedBefore_of_applies ho
  rw [reconcile]
  cases hns : obj.metadata.namespaceName with
  | none => exact Prog.safe_ret _
  | some ns =>
    dsimp only
    rw [withFinalizer]
    split
    · exact happly
    · rename_i hdeleting
      refine fun tr => wp_bind.2 (wp_cleanup hdeleting (fun tr' htold hserver hscim a => ?_)
        fun _ _ => trivial)
      refine wp_bind_op.2 ⟨⟨rfl, rfl, hdeleting, htold, hserver, hscim⟩, fun removed => ?_⟩
      cases removed <;> trivial
    · refine .bind (fun tr => Prog.wp_op_tracing.2 ⟨trivial, fun _ => trivial⟩) fun r => ?_
      exact .bind (fun _ => trivial) fun _ => Prog.safe_ret _
    · exact Prog.safe_ret _

/-! ## The policy -/

/-- The live policy, as a reconcile has read it. -/
def Live (name : String) (tr : List (Made sig)) (live : PolicyText) : Prop :=
  ⟨.sync name .getPolicy, Except.ok live⟩ ∈ tr ∨ ∃ status : Status,
    ⟨.sync name .getPolicy, Except.error status⟩ ∈ tr ∧ status.policyNotFound = true ∧
      live = .blank ""

theorem Live.mono {name : String} {tr' : List (Made sig)} {live : PolicyText}
    (h : Live name tr live) (hsub : tr ⊆ tr') : Live name tr' live :=
  h.imp (fun h => hsub h) (Exists.imp fun _ h => h.imp_left fun h => hsub h)

/-- A policy that is set is that of the instance, which is the operator's to set, and the one for what
    was read. -/
def Synced (dep : Deployment) (obj : CustomResource) (tr : List (Made sig)) : Op → Prop
  | .sync name (.setPolicy policy) => name = obj.name ∧
    obj.spec.external = none ∧ obj.spec.scimConflict = false ∧
    (∃ replicas : Int, ⟨.getStatefulSet (serverName obj.name), Except.ok (some replicas)⟩ ∈ tr ∧
      replicas > 0) ∧
    ∃ ings live, ⟨.listIngresses, Except.ok ings⟩ ∈ tr ∧ Live obj.name tr live ∧
      syncWrite dep.read dep.digest obj.spec.policy obj.spec.scim.isSome
        (listContributingIngresses dep.read obj.name obj.spec.watchedNamespaces ings) live =
          some policy
  | _ => True

/-- The calls of a sync, among those of the reconcile. -/
def syncing (A : List (Made sig) → Op → Prop) (name : String) : Contract syncSig (List (Made sig)) where
  allows tr so := A tr (.sync name so)
  next tr so a tr' := tr' = ⟨.sync name so, a⟩ :: tr

theorem wp_syncOp {name : String} {so : SyncOp} {β : Type} {k : so.Ans → SyncM β}
    {Q : Except SyncError β → List (Made sig) → Prop} (hA : A tr (.sync name so))
    (h : ∀ a, (k a).wp (syncing A name) Q (⟨.sync name so, a⟩ :: tr)) :
    (Prog.op (σ := syncSig) so >>= k).wp (syncing A name) Q tr := by
  refine wp_bind.2 ⟨hA, fun a tr' htr => ?_⟩
  rw [show tr' = ⟨.sync name so, a⟩ :: tr from htr]
  exact h a

theorem wp_fetchLive {name : String} {Q : Except SyncError PolicyText → List (Made sig) → Prop}
    (hA : A tr (.sync name .getPolicy))
    (hok : ∀ tr' live, tr ⊆ tr' → Live name tr' live → Q (.ok live) tr')
    (herror : ∀ e tr', Q (.error e) tr') : fetchCurrent.wp (syncing A name) Q tr := by
  refine wp_syncOp hA fun a => ?_
  have hsub := List.subset_cons_self (⟨.sync name .getPolicy, a⟩ : Made sig) tr
  rcases a with status | live
  · dsimp only
    split
    · -- A headscale without a policy is one with a blank policy.
      rename_i hnone
      exact hok _ _ hsub (.inr ⟨status, List.mem_cons_self, hnone, rfl⟩)
    · exact herror _ _
  · exact hok _ _ hsub (.inl List.mem_cons_self)

/-- A sync sets the policy that is to be written over the one that it has read. -/
theorem wp_syncPolicyOf {name : String} {spec : Spec} {ingresses : List Ingress}
    (hother : ∀ tr so, (∀ policy, so ≠ .setPolicy policy) → A tr (.sync name so))
    (hset : ∀ tr' live policy, tr ⊆ tr' → Live name tr' live →
      syncWrite dep.read dep.digest spec.policy spec.scim.isSome ingresses live = some policy →
        A tr' (.sync name (.setPolicy policy))) :
    (syncPolicyOf dep name spec ingresses).wp (.tracing A) (fun _ _ => True) tr := by
  have hconnect (policy : PolicyText) : SyncOp.connect ≠ .setPolicy policy := by
    intro h
    cases h
  have hget (policy : PolicyText) : SyncOp.getPolicy ≠ .setPolicy policy := by
    intro h
    cases h
  have hwarn (ing : Ingress) (reason note : String) (policy : PolicyText) :
      SyncOp.publishWarning ing reason note ≠ .setPolicy policy := by
    intro h
    cases h
  have hnotify (policy : PolicyText) : SyncOp.notifyScim ≠ .setPolicy policy := by
    intro h
    cases h
  refine Prog.wp_mapError.2 (Prog.wp_lift (c := syncing A name) (fun _ _ h => h)
    (fun _ _ _ _ _ h => h) ?_)
  refine wp_bind.2 (wp_syncOp (hother _ _ hconnect) fun connected => ?_)
  have hsub := List.subset_cons_self (⟨.sync name .connect, connected⟩ : Made sig) tr
  rcases connected with e | u
  · trivial
  refine wp_bind.2 (wp_fetchLive (hother _ _ hget) (fun tr' live hsub' hlive => ?_)
    fun _ _ => trivial)
  -- Either way of writing sets what `syncWrite` gives, so both need only this.
  have hwrite (p : PolicyText)
      (hp : syncWrite dep.read dep.digest spec.policy spec.scim.isSome ingresses live = some p)
      {tr'' : List (Made sig)} (hlater : tr' ⊆ tr'') :
      (setPolicy p).wp (syncing A name) (fun _ _ => True) tr'' := by
    have hearlier := List.Subset.trans (List.Subset.trans hsub hsub') hlater
    refine wp_syncOp (hset tr'' live p hearlier (hlive.mono hlater) hp) fun a => ?_
    cases a <;> trivial
  rw [Process.Post.andThen_ok]
  unfold syncWrite at hwrite
  cases hpolicy : spec.policy with
  | none =>
    rw [hpolicy] at hwrite
    dsimp only at hwrite ⊢
    split
    · rename_i hempty
      exact hwrite _ (if_pos hempty) (List.Subset.refl _)
    · trivial
  | some inline =>
    rw [hpolicy] at hwrite
    dsimp only at hwrite
    refine wp_bind.2 ?_
    rw [Prog.wp_ofExcept]
    cases hparse : Policy.PolicyEditor.parse inline with
    | error e => trivial
    | ok editor =>
      rw [hparse] at hwrite
      dsimp only [Except.mapError, Process.Post.andThen_ok] at hwrite ⊢
      refine wp_bind.2 (wp_mergeIngressGrants (I := (tr' ⊆ ·)) ?_ (List.Subset.refl _) ?_)
      · intro s ing reason note hlater
        refine ⟨hother _ _ (hwarn ing reason note), fun a s' hs' => ?_⟩
        rw [show s' = ⟨.sync name (.publishWarning ing reason note), a⟩ :: s from hs']
        exact List.subset_cons_of_subset _ hlater
      intro s hlater
      rw [Process.Post.andThen_ok]
      split
      · trivial
      · rename_i hequal
        refine wp_bind.2 (wp_mono (fun r tr'' _ => ?_) (hwrite _ (if_neg hequal) hlater))
        rcases r with e | u
        · trivial
        · rw [Process.Post.andThen_ok]
          split
          · exact ⟨hother _ _ hnotify, fun _ _ _ => trivial⟩
          · trivial

theorem synced_of_serves {o : Op} (h : o.Serves obj.name) : Synced dep obj tr o := by
  cases o with
  | sync => exact h.2.elim
  | _ => trivial

theorem synced_of_reports {o : Op} (h : o.Reports obj.name) : Synced dep obj tr o := by
  cases o with
  | sync => exact h.elim
  | _ => trivial

theorem synced_of_cleans {o : Op} (h : o.Cleans obj.name) : Synced dep obj tr o := by
  cases o with
  | sync => exact h.elim
  | _ => trivial

theorem wp_synced_whenReady {replicas : Int} (hchild : child.instanceName = obj.name)
    (hexternal : obj.spec.external = none) (hpositive : replicas > 0)
    (hread : ⟨.getStatefulSet (serverName obj.name), Except.ok (some replicas)⟩ ∈ tr) :
    (whenReady dep obj child).wp (.tracing (Synced dep obj)) (fun _ _ => True) tr := by
  refine wp_bind.2 (wp_uses (serves_ensureApiKey hchild) (fun _ _ => synced_of_serves)
    fun r l _ => ?_)
  have hread' := List.mem_append_right l hread
  rcases r with e | u
  · trivial
  rw [Process.Post.andThen_ok]
  split
  · trivial
  · rename_i hconflict
    refine wp_bind.2 (wp_fetchContributingIngresses trivial (fun ings => ?_) fun _ _ => trivial)
    refine wp_bind.2 (wp_mono (fun r tr' _ => ?_) (wp_syncPolicyOf (fun tr' so hso => ?_)
      fun tr' live policy hsub hlive hwrite => ?_))
    · rcases r with e | u
      · trivial
      · rw [Process.Post.andThen_ok]
        cases obj.spec.scim with
        | none => exact (serves_deleteScimIfExists.safe fun _ _ => synced_of_serves) tr'
        | some scim => exact ((serves_ensureScim hchild).safe fun _ _ => synced_of_serves) tr'
    · cases so with
      | setPolicy policy => exact absurd rfl (hso policy)
      | _ => trivial
    · refine ⟨rfl, hexternal, Bool.eq_false_iff.2 hconflict, ⟨replicas, ?_, hpositive⟩, ings, live,
        ?_, hlive, hwrite⟩
      · exact hsub (List.mem_cons_of_mem _ hread')
      · exact hsub List.mem_cons_self

theorem safe_synced_applyManaged (hchild : child.instanceName = obj.name)
    (hexternal : obj.spec.external = none) : (applyManaged dep obj child).Safe (Synced dep obj) := by
  have hreports {p : M Action} (hp : p.Uses (Op.Reports obj.name)) : p.Safe (Synced dep obj) :=
    hp.safe fun _ _ => synced_of_reports
  refine fun tr => wp_bind.2 (wp_attempt.2 (wp_uses (serves_ensureHeadscale hchild)
    (fun _ _ => synced_of_serves) fun r l _ => ?_))
  rcases r with e | u
  · exact hreports reports_failWith _
  refine wp_bind_op.2 ⟨trivial, fun a => ?_⟩
  rcases a with ke | replicas
  · trivial
  refine wp_bind.2 ?_
  change Prog.wp _ _ (ite (replicas.getD 0 > 0) _ _) _
  split
  · rename_i hpositive
    cases replicas with
    | none => exact absurd hpositive (lt_irrefl 0)
    | some replicas =>
      refine wp_bind.2 (wp_attempt.2 (wp_mono (fun r tr' _ => ?_)
        (wp_synced_whenReady hchild hexternal hpositive List.mem_cons_self)))
      rcases r with e | u
      · exact hreports reports_failWith tr'
      · exact hreports reports_settle tr'
  · exact hreports reports_settle _

/-- A reconcile sets no other policy. -/
theorem safe_synced : (reconcile dep obj).Safe (Synced dep obj) := by
  have hpatch {o : Op} (ho : ∀ tr, Synced dep obj tr o) : (call o).Safe (Synced dep obj) :=
    fun tr => Prog.wp_op_tracing.2 ⟨ho tr, fun _ => trivial⟩
  have hrest {r : Except KubeError Unit} {a : Action} :
      (fromKube r >>= fun _ => pure a).Safe (Synced dep obj) :=
    .bind (fun _ => trivial) fun _ => Prog.safe_ret _
  rw [reconcile]
  cases hns : obj.metadata.namespaceName with
  | none => exact Prog.safe_ret _
  | some ns =>
    dsimp only
    rw [withFinalizer]
    split
    · rw [applyInstance, hns]
      dsimp only
      split
      · refine probes_applyExternal.safe fun tr o ho => ?_
        rcases ho with ho | rfl
        · exact synced_of_reports ho
        · trivial
      · rename_i hexternal
        cases obj.uid with
        | none => exact Prog.safe_ret _
        | some uid => exact safe_synced_applyManaged rfl (by simpa using hexternal)
    · exact .bind (cleans_cleanup.safe fun _ _ => synced_of_cleans) fun a =>
        .bind (hpatch fun _ => trivial) fun r => hrest
    · exact .bind (hpatch fun _ => trivial) fun r => hrest
    · exact Prog.safe_ret _

/-! ## In executions -/

section Executions

variable {versions : List CustomResource} {w : Cluster}
  {events : List (Process.Event Fate (Cluster → Cluster))} {s : Pool sig Error Action Cluster}
  {e : Process.Entry sig Cluster} {hist : List (Process.Entry sig Cluster)}

/-- What the reconciles of every instance only call after some calls, they do in any execution. -/
theorem calls_of_safe {A : CustomResource → List (Made sig) → Op → Prop}
    (hsafe : ∀ obj, (reconcile dep obj).Safe (A obj))
    (hexec : cluster.exec (reconciles dep versions w) events = some s)
    (he : e :: hist <:+ s.history) (hobj : versions[e.thread]? = some obj) :
    A obj (trace e.thread hist) e.op := by
  refine (exec_tracing (A := fun i tr o => ∀ obj, versions[i]? = some obj → A obj tr o) rfl
    (fun i p hp => ?_) hexec he).1 obj hobj
  obtain ⟨obj', hobj', rfl⟩ := Option.map_eq_some_iff.1 ((List.getElem?_map ..).symm.trans hp)
  refine (hsafe obj').mono fun tr o ho obj'' hobj'' => ?_
  obtain rfl := Option.some.inj (hobj'.symm.trans hobj'')
  exact ho

/-- The claim of headscale is deleted, and the finalizer removed, only of an instance that is being
    deleted, and only after its Ingresses were told. -/
theorem cleaned_before_finalizer
    (hexec : cluster.exec (reconciles dep versions w) events = some s)
    (he : e :: hist <:+ s.history) (hobj : versions[e.thread]? = some obj) :
    CleanedBefore dep obj (trace e.thread hist) e.op :=
  calls_of_safe (fun _ => safe_cleanedBefore) hexec he hobj

namespace Office

/-- The instance is referenced by an Ingress. -/
def referencing : Deployment :=
  { deployment with
    read := fun s => if s = "main" then some (.object [("headscale-ref", .string "main")]) else none }

def ingress : Ingress where
  metadata := {
    name := "web"
    namespaceName := some "apps"
    annotations := [(annotationConfig, "main")] }
  className := some ingressClassName

def listing : Fate where
  answer
    | .listIngresses => .ok [ingress]
    | o => answer o

def deleted : CustomResource :=
  { served "main" none with
    metadata := { (served "main" none).metadata with deleting := true } }

/-- What a reconcile has called last. -/
def latest (check : Op → Bool) (i : ℕ) (s : Pool sig Error Action Cluster) : Bool :=
  s.history.head?.any fun e => e.thread == i && check e.op

def removesFinalizer : Op → Bool
  | .removeFinalizer _ _ => true
  | _ => false

theorem exists_of_latest {check : Op → Bool} {i : ℕ} (h : latest check i s = true) :
    ∃ e hist, e :: hist <:+ s.history ∧ e.thread = i ∧ check e.op = true := by
  obtain ⟨e, he, hlatest⟩ := Option.any_eq_true _ _ |>.1 h
  obtain ⟨hist, hhist⟩ := List.head?_eq_some_iff.1 he
  rw [Bool.and_eq_true, beq_iff_eq] at hlatest
  exact ⟨e, hist, by rw [hhist], hlatest⟩

end Office

open Office in
/-- An instance is deleted that an Ingress references. -/
theorem cleaned_before_finalizer_referenced : ∃ s,
    cluster.exec (reconciles referencing [deleted] { fresh with claims := fun _ => true })
      (.replicate 7 (.act 0 listing)) = some s ∧ ∃ e hist, e :: hist <:+ s.history ∧
      removesFinalizer e.op = true ∧ CleanedBefore referencing deleted (trace 0 hist) e.op := by
  have hrun : (cluster.exec (reconciles referencing [deleted]
      { fresh with claims := fun _ => true }) (.replicate 7 (.act 0 listing))).any
        (latest removesFinalizer 0) = true := by
    decide +kernel
  obtain ⟨s, hs, hlatest⟩ := Option.any_eq_true _ _ |>.1 hrun
  obtain ⟨e, hist, he, hthread, hremoves⟩ := exists_of_latest hlatest
  refine ⟨s, hs, e, hist, he, hremoves, ?_⟩
  have hcleaned : CleanedBefore referencing deleted (trace e.thread hist) e.op :=
    cleaned_before_finalizer hs he (by rw [hthread]; rfl)
  rwa [hthread] at hcleaned

/-- A policy is set only over the live policy that was read, for the Ingresses that were listed, of
    an instance that is ready, and whose policy nobody else owns. -/
theorem synced_of_set (hexec : cluster.exec (reconciles dep versions w) events = some s)
    (he : e :: hist <:+ s.history) (hobj : versions[e.thread]? = some obj) :
    Synced dep obj (trace e.thread hist) e.op :=
  calls_of_safe (fun _ => safe_synced) hexec he hobj

namespace Office

def accessConfig : String :=
  "\x7b\"headscale-ref\":\"main\",\"user\":\"alice\"," ++
    "\"access\":[\x7b\"from\":[\"*\"]\x7d,\x7b\"from\":[\"group:eng\"]\x7d]\x7d"

/-- The instance is referenced by an Ingress for everyone, and for a group. -/
def opened : Deployment :=
  { deployment with
    read := fun s =>
      if s = accessConfig then
        some (.object [("headscale-ref", .string "main"), ("user", .string "alice"),
          ("access", .array [.object [("from", .array [.string "*"])],
            .object [("from", .array [.string "group:eng"])]])])
      else none }

def site : Ingress :=
  { ingress with metadata := { ingress.metadata with annotations := [(annotationConfig, accessConfig)] } }

/-- The instance has a policy, without groups. -/
def governed : CustomResource :=
  { served "main" none with
    spec := { (served "main" none).spec with policy := some (.document (.object [])) } }

/-- The live policy is of comments only. -/
def commented : Fate where
  answer
    | .listIngresses => .ok [site]
    | .sync _ .getPolicy => .ok (.comments "// none")
    | o => answer o

/-- A policy is set that has one grant. -/
def setsGrant : Op → Bool
  | .sync _ (.setPolicy policy) =>
    (Policy.PolicyEditor.parse policy).toOption.any fun editor => editor.grantElements.length == 1
  | _ => false

end Office

open Office in
/-- The policy of an instance is set with the grant for everyone, while the one for the group
    waits. -/
theorem synced_of_set_opened : ∃ s,
    cluster.exec (reconciles opened [governed] fresh) (.replicate 12 (.act 0 commented)) = some s ∧
      ∃ e hist, e :: hist <:+ s.history ∧ setsGrant e.op = true ∧
      Synced opened governed (trace 0 hist) e.op := by
  have hrun : (cluster.exec (reconciles opened [governed] fresh)
      (.replicate 12 (.act 0 commented))).any (latest setsGrant 0) = true := by
    decide +kernel
  obtain ⟨s, hs, hlatest⟩ := Option.any_eq_true _ _ |>.1 hrun
  obtain ⟨e, hist, he, hthread, hsets⟩ := exists_of_latest hlatest
  refine ⟨s, hs, e, hist, he, hsets, ?_⟩
  have hsynced : Synced opened governed (trace e.thread hist) e.op :=
    synced_of_set hs he (by rw [hthread]; rfl)
  rwa [hthread] at hsynced

end Executions

end Headmaster.Operator.Instance
