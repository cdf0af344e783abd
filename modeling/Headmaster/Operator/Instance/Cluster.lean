import Headmaster.Process.Among
import Headmaster.Process.Faults
import Headmaster.Operator.Instance.Reconcile
import Headmaster.Operator.Proxy.Cluster

/-!
# Reconciles of instances on a cluster

The reconciles of instances as threads on the API server (`reconciles`). Of the
server the objects of instances, their statuses and their finalizers are kept
(`Cluster`); what is in another place, and what headscale says, is answered in
any way.

A reconcile reads and changes what is its own instance's only
(`reconcile_within`), and no two instances share any (`eq_of_mem_childNames`).
So of several instances, each is among others that keep what it has
(`exec_instance`).
-/

namespace Headmaster.Operator.Instance

open Process (Machine Made Pool serve serve_keeps serve_ok serve_same)
open Process.Machine (Among OwnTurns exec_among)
open Process.Prog (Uses uses_op)
open Proxy (Action find find_ok find_notFound)

/-! ## The cluster -/

structure Cluster where
  /-- The objects in the namespace of the operator. -/
  objects : Kind → String → Option Object := fun _ _ => none
  /-- The claims of pods that are not being deleted. -/
  claims : String → Bool := fun _ => false
  /-- What the StatefulSets report. -/
  readyReplicas : String → Option Int := fun _ => none
  statuses : String → Option HeadscaleInstanceStatus := fun _ => none
  finalizers : String → List String := fun _ => []

/-- How a request goes: whether it fails, possibly after it had its effect, and the answers to
    everything that is not kept here. -/
structure Fate where
  failure : Option Bool := none
  answer : (o : Op) → o.Ans

def Resource.stringData : Resource → Labels
  | secret data => data
  | _ => []

/-- Of a StatefulSet some fields are never changed. -/
def Resource.updates : Resource → Resource → Bool
  | statefulSet old, statefulSet new =>
    old.serviceName == new.serviceName && old.matchLabels == new.matchLabels &&
      old.volumeClaimTemplates == new.volumeClaimTemplates
  | _, _ => true

namespace Cluster

variable (w : Cluster)

def setObject (kind : Kind) (name : String) (object : Option Object) : Cluster :=
  { w with objects := fun k n => if k = kind ∧ n = name then object else w.objects k n }

def setClaim (name : String) (claim : Bool) : Cluster :=
  { w with claims := Function.update w.claims name claim }

def setStatus (name : String) (status : HeadscaleInstanceStatus) : Cluster :=
  { w with statuses := Function.update w.statuses name (some status) }

def setFinalizers (name : String) (finalizers : List String) : Cluster :=
  { w with finalizers := Function.update w.finalizers name finalizers }

/-- An object that is as it is applied. -/
def Has (object : Object) : Prop :=
  w.objects object.resource.kind object.metadata.name = some object

def present (kind : Kind) (name : String) : Bool :=
  match kind with
  | .persistentVolumeClaim => w.claims name
  | kind => (w.objects kind name).isSome

def apply (object : Object) : Except KubeError Unit × Cluster :=
  if (w.objects object.resource.kind object.metadata.name).all
      (fun old => old.resource.updates object.resource) then
    (.ok (), w.setObject object.resource.kind object.metadata.name (some object))
  else (.error .other, w)

def remove (kind : Kind) (name : String) : Cluster :=
  match kind with
  | .persistentVolumeClaim => w.setClaim name false
  | kind => w.setObject kind name none

end Cluster

def act (f : Fate) : (o : Op) → Cluster → o.Ans × Cluster
  | .getSecret name, w =>
    serve .other f.failure w w (find ((w.objects .secret name).map fun o => o.resource.stringData))
  | .getStatefulSet name, w =>
    serve .other f.failure w w
      (find ((w.objects .statefulSet name).map fun _ => w.readyReplicas name))
  | .apply object, w => serve .other f.failure w (w.apply object).2 (w.apply object).1
  | .delete kind name, w =>
    serve .other f.failure w (w.remove kind name)
      (if w.present kind name then .ok () else .error .notFound)
  | .patchStatus name status, w => serve .other f.failure w (w.setStatus name status) (.ok ())
  | .addFinalizer name finalizer, w =>
    serve .other f.failure w (w.setFinalizers name (w.finalizers name ++ [finalizer])) (.ok ())
  | .removeFinalizer name finalizer, w =>
    serve .other f.failure w (w.setFinalizers name ((w.finalizers name).erase finalizer)) (.ok ())
  | o, w => (f.answer o, w)

/-- Between two requests others may change the cluster. -/
def cluster : Machine sig Cluster Fate (Cluster → Cluster) where
  act := act
  ready _ _ := true
  env g := g

/-- Reconciles of instances, each as it is read then, in any order. -/
def reconciles (dep : Deployment) (versions : List CustomResource) (w : Cluster) :
    Pool sig Error Action Cluster :=
  { world := w, threads := versions.map (reconcile dep) }

/-! ## What is an instance's own -/

/-- The names of the objects of an instance, of a kind. -/
def childNames (kind : Kind) (name : String) : List String :=
  match kind with
  | .configMap => [serverName name]
  | .service | .statefulSet => [serverName name, scimName name]
  | .secret => [apiKeySecretName name, scimTokenSecretName name]
  | .persistentVolumeClaim => [serverClaimName name, scimClaimName name]

section Names

variable {a b n : String} {kind : Kind}

theorem eq_of_mem_pair {f g : String → String} (hf : f.Injective) (hg : g.Injective)
    (hne : ∀ a b, f a ≠ g b) (ha : n ∈ [f a, g a]) (hb : n ∈ [f b, g b]) : a = b := by
  rw [List.mem_pair] at ha hb
  rcases ha with rfl | rfl
  · rcases hb with hb | hb
    · exact hf hb
    · exact absurd hb (hne a b)
  · rcases hb with hb | hb
    · exact absurd hb.symm (hne b a)
    · exact hg hb

theorem serverName_injective : serverName.Injective := by
  intro a b h
  unfold serverName at h
  exact (String.append_right_inj _).1 h

theorem scimName_injective : scimName.Injective := by
  intro a b h
  unfold scimName at h
  exact (String.append_right_inj _).1 h

theorem serverName_ne_scimName (a b : String) : serverName a ≠ scimName b := by
  intro h
  unfold serverName scimName at h
  have hlist := congrArg String.toList h
  simp at hlist

theorem apiKeySecretName_ne_scimTokenSecretName (a b : String) :
    apiKeySecretName a ≠ scimTokenSecretName b := by
  intro h
  unfold apiKeySecretName scimTokenSecretName at h
  have hlist := congrArg String.toList h
  simp at hlist

theorem serverClaimName_ne_scimClaimName (a b : String) : serverClaimName a ≠ scimClaimName b := by
  intro h
  unfold serverClaimName scimClaimName at h
  have hlist := congrArg String.toList h
  simp at hlist

theorem secretNames_injective :
    apiKeySecretName.Injective ∧ scimTokenSecretName.Injective := by
  constructor <;> intro a b h
  · unfold apiKeySecretName at h
    exact (String.append_right_inj _).1 h
  · unfold scimTokenSecretName at h
    exact (String.append_right_inj _).1 h

theorem claimNames_injective : serverClaimName.Injective ∧ scimClaimName.Injective := by
  constructor <;> intro a b h
  · unfold serverClaimName at h
    exact (String.append_right_inj _).1 ((String.append_left_inj _).1 h)
  · unfold scimClaimName at h
    exact (String.append_right_inj _).1 ((String.append_left_inj _).1 h)

/-- What an object is called says whose it is. -/
theorem eq_of_mem_childNames (ha : n ∈ childNames kind a) (hb : n ∈ childNames kind b) : a = b := by
  cases kind with
  | configMap =>
    exact serverName_injective ((List.mem_singleton.1 ha).symm.trans (List.mem_singleton.1 hb))
  | service | statefulSet =>
    exact eq_of_mem_pair serverName_injective scimName_injective serverName_ne_scimName ha hb
  | secret =>
    exact eq_of_mem_pair secretNames_injective.1 secretNames_injective.2
      apiKeySecretName_ne_scimTokenSecretName ha hb
  | persistentVolumeClaim =>
    exact eq_of_mem_pair claimNames_injective.1 claimNames_injective.2
      serverClaimName_ne_scimClaimName ha hb

end Names

/-- The requests that are about an instance only. -/
def Op.Within (name : String) : Op → Prop
  | getSecret n => n ∈ childNames .secret name
  | getStatefulSet n => n ∈ childNames .statefulSet name
  | exec podName _ _ => podName = serverPodName name
  | apply object => object.metadata.name ∈ childNames object.resource.kind name
  | delete kind n => n ∈ childNames kind name
  | patchStatus n _ | addFinalizer n _ | removeFinalizer n _ | sync n _ | listUsers n => n = name
  | randomBytes | listIngresses | clearIngressStatus _ _ | publish _ _ | now => True

/-- The requests that put the objects of an instance in place; of these only the ones of the SCIM
    server are deleted. -/
def Op.Serving (name : String) : Op → Prop
  | delete _ n => n ∈ [scimName name, scimTokenSecretName name, scimClaimName name]
  | getSecret _ | exec _ _ _ | randomBytes | apply _ | listIngresses => True
  | _ => False

def Op.Serves (name : String) (o : Op) : Prop := o.Within name ∧ o.Serving name

/-- Those, and the ones that put its policy in place. -/
def Op.Readies (name : String) (o : Op) : Prop := o.Serves name ∨ ∃ so, o = .sync name so

theorem Op.Readies.within {name : String} {o : Op} (h : o.Readies name) : o.Within name := by
  rcases h with h | ⟨so, rfl⟩
  · exact h.1
  · exact rfl

/-- The requests that look at an instance, and report on it. -/
def Op.Reports (name : String) : Op → Prop
  | getStatefulSet n => n ∈ childNames .statefulSet name
  | patchStatus n _ | listUsers n => n = name
  | publish _ _ | now => True
  | _ => False

/-- The requests for an external headscale. -/
def Op.Probes (name : String) (o : Op) : Prop := o.Reports name ∨ o = .sync name .connect

/-- The requests for an instance that is not being deleted. -/
def Op.Applies (name : String) (o : Op) : Prop := o.Readies name ∨ o.Reports name

theorem Op.Probes.applies {name : String} {o : Op} (h : o.Probes name) : o.Applies name := by
  rcases h with h | rfl
  · exact .inr h
  · exact .inl (.inr ⟨_, rfl⟩)

/-- The requests for an instance that is being deleted. -/
def Op.Cleans (name : String) : Op → Prop
  | delete kind n => kind = .persistentVolumeClaim ∧ n ∈ childNames .persistentVolumeClaim name
  | listIngresses | clearIngressStatus _ _ | publish _ _ => True
  | _ => False

theorem Op.Cleans.within {name : String} {o : Op} (h : o.Cleans name) : o.Within name := by
  cases o with
  | delete kind n =>
    obtain ⟨rfl, hn⟩ := h
    exact hn
  | listIngresses | clearIngressStatus | publish => trivial
  | _ => exact h.elim

theorem Op.Applies.within {name : String} {o : Op} (h : o.Applies name) : o.Within name := by
  rcases h with h | h
  · exact h.within
  · cases o with
    | getStatefulSet | patchStatus | listUsers => exact h
    | publish | now => trivial
    | _ => exact h.elim

/-- What an instance has stays: its objects, and its status. -/
structure Cluster.SameFor (name : String) (v w : Cluster) : Prop where
  objects : ∀ kind, ∀ n ∈ childNames kind name, w.objects kind n = v.objects kind n
  status : w.statuses name = v.statuses name

namespace Cluster.SameFor

variable {name other : String} {u v w : Cluster}

theorem refl (w : Cluster) : w.SameFor name w := ⟨fun _ _ _ => rfl, rfl⟩

theorem trans (h : u.SameFor name v) (h' : v.SameFor name w) : u.SameFor name w :=
  ⟨fun kind n hn => (h'.objects kind n hn).trans (h.objects kind n hn), h'.status.trans h.status⟩

theorem setObject (hne : other ≠ name) {kind : Kind} {n : String} (hn : n ∈ childNames kind other)
    (object : Option Object) : w.SameFor name (w.setObject kind n object) := by
  refine ⟨fun kind' n' hn' => if_neg ?_, rfl⟩
  rintro ⟨rfl, rfl⟩
  exact hne (eq_of_mem_childNames hn hn')

theorem apply (hne : other ≠ name) {object : Object}
    (hn : object.metadata.name ∈ childNames object.resource.kind other) :
    w.SameFor name (w.apply object).2 := by
  rw [Cluster.apply]
  split
  · exact setObject hne hn _
  · exact refl w

theorem remove (hne : other ≠ name) {kind : Kind} {n : String} (hn : n ∈ childNames kind other) :
    w.SameFor name (w.remove kind n) := by
  cases kind with
  | persistentVolumeClaim => exact ⟨fun _ _ _ => rfl, rfl⟩
  | _ => exact setObject hne hn none

/-- The reconciles of another instance leave what an instance has. -/
theorem act (hne : other ≠ name) {o : Op} (ho : o.Within other) (f : Fate) (w : Cluster) :
    w.SameFor name (cluster.act f o w).2 := by
  cases o with
  | getSecret n | getStatefulSet n => exact serve_keeps (refl w) (refl w)
  | apply object => exact serve_keeps (refl w) (apply hne ho)
  | delete kind n => exact serve_keeps (refl w) (remove hne ho)
  | patchStatus n status =>
    obtain rfl : n = other := ho
    exact serve_keeps (refl w) ⟨fun _ _ _ => rfl, Function.update_of_ne hne.symm ..⟩
  | addFinalizer n finalizer | removeFinalizer n finalizer =>
    exact serve_keeps (refl w) ⟨fun _ _ _ => rfl, rfl⟩
  | exec | randomBytes | listIngresses | clearIngressStatus | publish | sync | listUsers | now =>
    exact refl w

end Cluster.SameFor

/-! ## Reconciles -/

section Within

variable {dep : Deployment} {obj : CustomResource} {child : ChildApplier} {name : String} {α : Type}

theorem serves_call {o : Op} (h : o.Serves name) : (call o).Uses (Op.Serves name) := uses_op h

theorem serves_fromKube (r : Except KubeError α) : (fromKube r).Uses (Op.Serves name) := trivial

theorem serves_ofExcept (r : Except Error α) : (.ofExcept r : M α).Uses (Op.Serves name) := trivial

theorem serves_apply {object : Object}
    (h : object.metadata.name ∈ childNames object.resource.kind name) :
    (apply object).Uses (Op.Serves name) := .bind (serves_call ⟨h, trivial⟩) serves_fromKube

theorem serves_deleteIgnoring404 {kind : Kind} {n : String} (h : n ∈ childNames kind name)
    (hscim : n ∈ [scimName name, scimTokenSecretName name, scimClaimName name]) :
    (deleteIgnoring404 kind n).Uses (Op.Serves name) :=
  .bind (serves_call ⟨h, hscim⟩) fun _ => serves_fromKube _

theorem serves_secretExists {n : String} (h : n ∈ childNames .secret name) :
    (secretExists n).Uses (Op.Serves name) := by
  refine .bind (serves_call ⟨h, trivial⟩) fun r => ?_
  rcases r with (_ | _) | _ <;> trivial

theorem serves_ensureHeadscale (hchild : child.instanceName = name) :
    (ensureHeadscale dep child obj).Uses (Op.Serves name) := by
  subst hchild
  refine .bind (serves_ofExcept _) fun config => ?_
  refine .bind (serves_apply List.mem_cons_self) fun _ => ?_
  refine .bind (serves_apply List.mem_cons_self) fun _ => ?_
  exact serves_apply List.mem_cons_self

theorem serves_ensureApiKey (hchild : child.instanceName = name) :
    (ensureApiKey dep child).Uses (Op.Serves name) := by
  subst hchild
  refine .bind (serves_secretExists List.mem_cons_self) fun found => ?_
  cases found with
  | true => trivial
  | false =>
    refine .bind (serves_call ⟨rfl, trivial⟩) fun r => ?_
    refine .bind (serves_ofExcept _) fun output => ?_
    exact .bind (serves_ofExcept _) fun key => serves_apply List.mem_cons_self

theorem serves_ensureScim {scim : ScimSpec} (hchild : child.instanceName = name) :
    (ensureScim dep child scim).Uses (Op.Serves name) := by
  subst hchild
  have hlast {f g : String → String} : g child.instanceName ∈ [f child.instanceName,
      g child.instanceName] := List.mem_cons_of_mem _ List.mem_cons_self
  refine .bind (.bind (serves_secretExists hlast) fun found => ?_) fun _ => ?_
  · cases found with
    | true => trivial
    | false => exact .bind (serves_call ⟨trivial, trivial⟩) fun token => serves_apply hlast
  · exact .bind (serves_apply hlast) fun _ => serves_apply hlast

theorem serves_deleteScimIfExists : (deleteScimIfExists name).Uses (Op.Serves name) := by
  have hlast {f g : String → String} : g name ∈ [f name, g name] :=
    List.mem_cons_of_mem _ List.mem_cons_self
  refine .bind (serves_deleteIgnoring404 hlast List.mem_cons_self) fun _ => ?_
  refine .bind (serves_deleteIgnoring404 hlast List.mem_cons_self) fun _ => ?_
  refine .bind (serves_deleteIgnoring404 hlast ?_) fun _ => serves_deleteIgnoring404 hlast ?_
  · exact List.mem_cons_of_mem _ List.mem_cons_self
  · exact List.mem_cons_of_mem _ (List.mem_cons_of_mem _ List.mem_cons_self)

theorem serves_fetchContributingIngresses {watchedNamespaces : List String} {n : String} :
    (fetchContributingIngresses dep n watchedNamespaces).Uses (Op.Serves name) :=
  .bind (serves_call ⟨trivial, trivial⟩) fun r => .bind (serves_fromKube r) fun _ => trivial

theorem readies_syncPolicyOf {spec : Spec} {ingresses : List Ingress} :
    (syncPolicyOf dep name spec ingresses).Uses (Op.Readies name) :=
  .mapError (.lift (Process.Prog.uses_of_forall (fun so => .inr ⟨so, rfl⟩) _))

theorem readies_whenReady (hchild : child.instanceName = obj.name) :
    (whenReady dep obj child).Uses (Op.Readies obj.name) := by
  refine .bind ((serves_ensureApiKey hchild).mono fun _ => .inl) fun _ => ?_
  cases obj.spec.scimConflict with
  | true => trivial
  | false =>
    refine .bind (serves_fetchContributingIngresses.mono fun _ => .inl) fun ingresses => ?_
    refine .bind readies_syncPolicyOf fun _ => ?_
    cases obj.spec.scim with
    | none => exact serves_deleteScimIfExists.mono fun _ => .inl
    | some scim => exact (serves_ensureScim hchild).mono fun _ => .inl

theorem reports_updateReady {status : HeadscaleInstanceStatus} {isReady : Bool}
    {reason message : String} {generation : Int} :
    (updateReady status isReady reason message generation).Uses (Op.Reports name) :=
  .bind (uses_op trivial) fun _ => trivial

theorem reports_failWith {reason message : String} {e : Error} :
    (failWith obj reason message e : M α).Uses (Op.Reports obj.name) :=
  .bind reports_updateReady fun _ => .bind (uses_op rfl) fun _ => trivial

theorem reports_settle {isReady : Bool} {reason message : String} {requeueSecs : Nat} :
    (settle obj isReady reason message requeueSecs).Uses (Op.Reports obj.name) := by
  refine .bind reports_updateReady fun status => ?_
  refine .bind (.bind (uses_op rfl) fun r => by cases r <;> trivial) fun _ => ?_
  exact .bind (.forM fun _ _ => .bind (uses_op trivial) fun _ => trivial) fun _ => trivial

theorem applies_applyManaged (hchild : child.instanceName = obj.name) :
    (applyManaged dep obj child).Uses (Op.Applies obj.name) := by
  have hserver := (@serves_ensureHeadscale dep obj child obj.name hchild).mono
    (B := Op.Applies obj.name) fun _ h => .inl (.inl h)
  have hready := (@readies_whenReady dep obj child hchild).mono (B := Op.Applies obj.name)
    fun _ => .inl
  have hreports {β : Type} {p : M β} (hp : p.Uses (Op.Reports obj.name)) :
      p.Uses (Op.Applies obj.name) := hp.mono fun _ => .inr
  refine .bind (.attempt hserver) fun applied => ?_
  cases applied with
  | error e => exact hreports reports_failWith
  | ok _ =>
    refine .bind (uses_op (.inr List.mem_cons_self)) fun r => ?_
    refine .bind (by cases r <;> trivial) fun replicas => ?_
    split
    · refine .bind (.attempt hready) fun done => ?_
      cases done with
      | error e => exact hreports reports_failWith
      | ok _ => exact hreports reports_settle
    · exact hreports reports_settle

theorem probes_applyExternal : (applyExternal dep obj).Uses (Op.Probes obj.name) := by
  rw [applyExternal]
  split
  · exact reports_failWith.mono fun _ => .inl
  · refine .bind (.bind (uses_op (.inr rfl)) fun connected => ?_) fun probed => ?_
    · cases connected with
      | error e => trivial
      | ok _ => exact .bind (uses_op (.inl rfl)) fun users => by cases users <;> trivial
    · cases probed <;> exact reports_settle.mono fun _ => .inl

theorem applies_applyInstance : (applyInstance dep obj).Uses (Op.Applies obj.name) := by
  rw [applyInstance]
  split
  · trivial
  · split
    · exact probes_applyExternal.mono fun _ => Op.Probes.applies
    · split
      · trivial
      · exact applies_applyManaged rfl

theorem cleans_cleanup : (cleanup dep obj).Uses (Op.Cleans obj.name) := by
  have hpublish {ref : ObjectRef} {event : KubeEvent} :
      (publish ref event).Uses (Op.Cleans obj.name) := .bind (uses_op trivial) fun _ => trivial
  refine .bind (.bind (uses_op trivial) fun listed => by cases listed <;> trivial) fun ings => ?_
  refine .bind (.forM fun ing _ => .bind hpublish fun _ => .bind (uses_op trivial) fun _ => trivial)
    fun _ => ?_
  cases obj.metadata.namespaceName with
  | none => trivial
  | some ns =>
    refine .bind (.bind (uses_op ⟨rfl, List.mem_cons_self⟩) fun r => trivial) fun _ => ?_
    refine .bind (.bind (uses_op ⟨rfl, List.mem_cons_of_mem _ List.mem_cons_self⟩)
      fun r => trivial) fun _ => ?_
    exact .bind hpublish fun _ => trivial

/-- A reconcile reads and changes what is its own instance's only. -/
theorem reconcile_within : (reconcile dep obj).Uses (Op.Within obj.name) := by
  rw [reconcile]
  cases obj.metadata.namespaceName with
  | none => trivial
  | some ns =>
    dsimp only
    rw [withFinalizer]
    split
    · exact applies_applyInstance.mono fun _ => Op.Applies.within
    · exact .bind (cleans_cleanup.mono fun _ => Op.Cleans.within) fun _ =>
        .bind (uses_op rfl) fun r => .bind (by cases r <;> trivial) fun _ => trivial
    · exact .bind (uses_op rfl) fun r => .bind (by cases r <;> trivial) fun _ => trivial
    · trivial

end Within

/-- A reconcile is one of an instance. -/
def isOf (versions : List CustomResource) (name : String) (i : ℕ) : Bool :=
  versions[i]?.any fun obj => obj.name == name

/-- What is known of the objects of an instance. -/
structure Fact (name : String) where
  holds : Cluster → Prop
  of_same : ∀ ⦃v w : Cluster⦄, holds v →
    (∀ kind, ∀ n ∈ childNames kind name, w.objects kind n = v.objects kind n) → holds w

/-- Others keep what an instance has; of its objects something holds at any time. -/
def among {name : String} (I : Fact name) : Process.Setting Cluster where
  others := Cluster.SameFor name
  refl := .refl
  trans := .trans
  inv := I.holds
  stable _ _ hv h := I.of_same hv h.objects

section Executions

variable {dep : Deployment} {versions : List CustomResource} {name : String} {I : Fact name}
  {A : CustomResource → List (Made sig) → Cluster → Op → Prop}
  {Q : CustomResource → Except Error Action → Cluster × List (Made sig) → Prop} {w : Cluster}
  {events : List (Process.Event Fate (Cluster → Cluster))} {s : Pool sig Error Action Cluster}

theorem isOf_eq_true {i : ℕ} (h : isOf versions name i = true) :
    ∃ obj, versions[i]? = some obj ∧ obj.name = name := by
  rw [isOf, Option.any_eq_true] at h
  exact h.imp fun obj hobj => hobj.imp_right beq_iff_eq.1

/-- What the reconciles of an instance guarantee alone, they do among those of other instances, if
    they take turns. -/
theorem exec_instance (hw : I.holds w)
    (hown : ∀ obj ∈ versions, obj.name = name → ∀ w, I.holds w → (reconcile dep obj).wp
      (cluster.amid (among I) (fun _ _ => True) (A obj)) (Q obj) (w, []))
    (hturns : cluster.Along (cluster.OwnTurns (isOf versions name) (Cluster.SameFor name))
      (reconciles dep versions w) events)
    (hexec : cluster.exec (reconciles dep versions w) events = some s) :
    cluster.Among (among I) (isOf versions name)
      (fun i tr w o => ∀ obj, versions[i]? = some obj → A obj tr w o)
      (fun i r x => ∀ obj, versions[i]? = some obj → Q obj r x) s := by
  have hthread {i : ℕ} {p : M Action} (hp : (reconciles dep versions w).threads[i]? = some p) :
      ∃ obj, versions[i]? = some obj ∧ reconcile dep obj = p :=
    Option.map_eq_some_iff.1 ((List.getElem?_map ..).symm.trans hp)
  refine exec_among (S := among I) (s := reconciles dep versions w)
    (C := fun o : Op => ∃ other, other ≠ name ∧ o.Within other) rfl hw ?_ ?_ ?_ hturns hexec
  · intro i p hi hp
    obtain ⟨obj, hobj, rfl⟩ := hthread hp
    refine reconcile_within.mono fun o ho => ⟨obj.name, fun heq => ?_, ho⟩
    rw [isOf, hobj] at hi
    exact Bool.false_ne_true (hi.symm.trans (beq_iff_eq.2 heq))
  · rintro o f v ⟨other, hne, ho⟩
    exact Cluster.SameFor.act hne ho f v
  · intro i p hi hp v hv
    obtain ⟨obj, hobj, rfl⟩ := hthread hp
    obtain ⟨obj', hobj', hname⟩ := isOf_eq_true hi
    obtain rfl := Option.some.inj (hobj.symm.trans hobj')
    simpa only [hobj, Option.some.injEq, forall_eq'] using
      hown obj (List.mem_of_getElem? hobj) hname v hv

end Executions

end Headmaster.Operator.Instance
