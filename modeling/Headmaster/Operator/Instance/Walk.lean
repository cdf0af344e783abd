import Headmaster.Operator.Instance.Cluster

/-!
# What the steps of a reconcile do

What each step of a reconcile leaves of the objects of its instance, among
reconciles of other instances, whichever of its requests fail. Where the steps
of a reconcile lead from one to the next, the reconcile does (`triple_reconcile`).
-/

namespace Headmaster.Operator.Instance

open Process (Pool calledBy serve_keeps serve_ok serve_error serve_same)
open Process.Machine (Triple TripleAt)
open Process.Prog (Uses uses_op)
open Proxy (Action find find_ok find_notFound ignoring404)

/-! ## What is known of the objects of an instance -/

namespace Fact

variable {name : String}

instance : CoeFun (Fact name) fun _ => Cluster → Prop := ⟨Fact.holds⟩

def and (P R : Fact name) : Fact name where
  holds w := P w ∧ R w
  of_same _ _ hv h := ⟨P.of_same hv.1 h, R.of_same hv.2 h⟩

/-- Of one object. -/
def object (kind : Kind) (n : String) (hn : n ∈ childNames kind name) (p : Option Object → Prop) :
    Fact name where
  holds w := p (w.objects kind n)
  of_same v w hv h := by rwa [h kind n hn]

/-- What holds of any cluster. -/
def any : Fact name where
  holds _ := True
  of_same _ _ _ _ := trivial

/-- There is no Secret of a name, yet. -/
def without (P : Fact name) {n : String} (hn : n ∈ childNames .secret name) : Fact name :=
  P.and (.object .secret n hn (· = none))

theorem stable (P : Fact name) {I : Fact name} : (among I).Stable P :=
  fun _ _ hv h => P.of_same hv h.objects

end Fact

/-- Applied, or in place already. -/
def Cluster.put (w : Cluster) (object : Object) : Cluster :=
  w.setObject object.resource.kind object.metadata.name (some object)

namespace Cluster

variable {w : Cluster} {object : Object} {kind kind' : Kind} {n n' : String}

@[simp]
theorem objects_setObject (o : Option Object) : (w.setObject kind n o).objects kind n = o :=
  if_pos ⟨rfl, rfl⟩

theorem objects_setObject_of_ne (o : Option Object) (h : ¬(kind' = kind ∧ n' = n)) :
    (w.setObject kind n o).objects kind' n' = w.objects kind' n' := if_neg h

theorem has_put : (w.put object).Has object := objects_setObject _

theorem Has.put {object' : Object} (h : w.Has object')
    (hne : ¬(object'.resource.kind = object.resource.kind ∧
      object'.metadata.name = object.metadata.name)) : (w.put object).Has object' :=
  (objects_setObject_of_ne _ hne).trans h

/-- What is put where it is changes nothing. -/
theorem objects_put_of_has (h : w.Has object) (kind : Kind) (n : String) :
    (w.put object).objects kind n = w.objects kind n := by
  by_cases heq : kind = object.resource.kind ∧ n = object.metadata.name
  · rw [heq.1, heq.2, h]
    exact has_put
  · exact objects_setObject_of_ne _ heq

/-- What is there is not gone once an object is put. -/
theorem isSome_put {kind : Kind} {n : String} (h : (w.objects kind n).isSome = true) :
    ((w.put object).objects kind n).isSome = true := by
  by_cases heq : kind = object.resource.kind ∧ n = object.metadata.name
  · rw [heq.1, heq.2, has_put]
    rfl
  · rw [put, objects_setObject_of_ne _ heq]
    exact h

theorem objects_remove_of_none (h : w.objects kind n = none) (kind' : Kind) (n' : String) :
    (w.remove kind n).objects kind' n' = w.objects kind' n' := by
  have hset : (w.setObject kind n none).objects kind' n' = w.objects kind' n' := by
    by_cases heq : kind' = kind ∧ n' = n
    · rw [heq.1, heq.2, h]
      exact objects_setObject _
    · exact objects_setObject_of_ne _ heq
  cases kind with
  | persistentVolumeClaim => rfl
  | _ => exact hset

theorem objects_remove_of_ne (h : ¬(kind' = kind ∧ n' = n)) :
    (w.remove kind n).objects kind' n' = w.objects kind' n' := by
  cases kind with
  | persistentVolumeClaim => rfl
  | _ => exact objects_setObject_of_ne _ h

end Cluster

/-- The requests that neither change an object nor mint a key. -/
def Op.Quiet : Op → Prop
  | apply _ | delete _ _ | exec _ _ _ => False
  | _ => True

theorem objects_act {o : Op} (ho : o.Quiet) (f : Fate) (w : Cluster) :
    (cluster.act f o w).2.objects = w.objects := by
  cases o with
  | apply | delete | exec => exact ho.elim
  | getSecret | getStatefulSet | patchStatus | addFinalizer | removeFinalizer =>
    exact serve_keeps (P := fun v : Cluster => v.objects = w.objects) rfl rfl
  | _ => rfl

/-! ## Steps -/

/-- A key is minted, and a Secret is written, only where there is none. -/
def Op.FirstTime (name : String) (v : Cluster) : Op → Prop
  | exec _ _ _ => v.objects .secret (apiKeySecretName name) = none
  | apply object =>
    object.resource.kind = .secret → v.objects .secret object.metadata.name = none
  | _ => True

/-- While `I` holds at any time, from where `P` does, a step leaves `R` if it ends with a value. -/
abbrev Fact.Step {name : String} (I P : Fact name) {α : Type} (p : M α) (R : α → Cluster → Prop) :
    Prop :=
  cluster.Triple (among I) (fun _ _ => True) (fun _ v o => o.FirstTime name v) P p R

section Steps

variable {dep : Deployment} {obj : CustomResource} {child : ChildApplier} {name : String}
  {I P : Fact name} {α : Type}

theorem firstTime_of_quiet {o : Op} (ho : o.Quiet) (v : Cluster) : o.FirstTime name v := by
  cases o with
  | apply | exec => exact ho.elim
  | _ => trivial

/-- What is known of objects is kept by what does not change any. -/
theorem step_of_quiet {p : M α} (hp : p.Uses Op.Quiet) (hinv : ∀ w, P w → I w) :
    I.Step P p fun _ => P :=
  Triple.of_uses hp P.stable hinv fun o _ v ho hv _ =>
    ⟨firstTime_of_quiet ho v, fun f => P.of_same hv fun kind n _ => by rw [objects_act ho f v]⟩

theorem step_ofExcept {r : Except Error α} (hinv : ∀ w, P w → I w) :
    I.Step P (.ofExcept r : M α) fun _ => P := step_of_quiet trivial hinv

theorem step_fromKube {o : Op} {β : Type} {g : o.Ans → Except KubeError β} {R : β → Cluster → Prop}
    (hA : ∀ v, P v → o.FirstTime name v)
    (h : ∀ f v, P v → I (cluster.act f o v).2 ∧
      ∀ b, g (cluster.act f o v).1 = .ok b → R b (cluster.act f o v).2) :
    I.Step P (call o >>= fun a => fromKube (g a)) R := by
  refine Triple.bind (R := fun a w => I w ∧ ∀ b, g a = .ok b → R b w)
    (Triple.op P.stable fun _ v hv _ => ⟨hA v hv, fun f => ⟨(h f v hv).1, h f v hv⟩⟩) fun a => ?_
  rw [fromKube]
  cases hg : g a with
  | error e => exact Triple.throw fun w hw => hw.1
  | ok b => exact Triple.pure fun w hw => hw.2 b rfl

/-- An object is in place once it is applied. -/
theorem step_apply {object : Object} {R : Cluster → Prop}
    (hnew : ∀ v, P v → object.resource.kind = .secret →
      v.objects .secret object.metadata.name = none)
    (hinv : ∀ w, P w → I w) (hput : ∀ w, P w → I (w.put object) ∧ R (w.put object)) :
    I.Step P (apply object) fun _ => R := by
  refine step_fromKube (o := .apply object) (g := id) hnew fun f v hv => ?_
  have heffect : (v.apply object).2 = v ∨ (v.apply object).2 = v.put object := by
    rw [Cluster.apply]
    split
    · exact .inr rfl
    · exact .inl rfl
  refine ⟨serve_keeps (hinv v hv) ?_, fun _ hok => ?_⟩
  · rcases heffect with h | h <;> rw [h]
    · exact hinv v hv
    · exact (hput v hv).1
  · have hserved := serve_ok hok
    have happlied : (v.apply object).2 = v.put object := by
      have hanswer := hserved.1
      rw [Cluster.apply] at hanswer ⊢
      split at hanswer
      · rename_i hupdates
        rw [if_pos hupdates]
        rfl
      · cases hanswer
    rw [show (cluster.act f (.apply object) v).2 = (v.apply object).2 from hserved.2, happlied]
    exact (hput v hv).2

/-- An object is gone once it was deleted, or was not there. -/
theorem step_deleteIgnoring404 {kind : Kind} {n : String} {R : Cluster → Prop}
    (hinv : ∀ w, P w → I w) (hremove : ∀ w, P w → I (w.remove kind n) ∧ R (w.remove kind n)) :
    I.Step P (deleteIgnoring404 kind n) fun _ => R := by
  refine step_fromKube (o := .delete kind n) (g := ignoring404) (fun _ _ => trivial) fun f v hv => ?_
  refine ⟨serve_keeps (hinv v hv) (hremove v hv).1, fun _ hok => ?_⟩
  -- an answer that there is none comes from a server that has none
  have heffect : (cluster.act f (.delete kind n) v).2 = v.remove kind n := by
    cases hanswer : (cluster.act f (.delete kind n) v).1 with
    | ok u => exact (serve_ok hanswer).2
    | error e =>
      rw [hanswer] at hok
      cases e with
      | notFound => exact (serve_error (by decide) hanswer).2
      | other => cases hok
  exact heffect ▸ (hremove v hv).2

theorem step_secretExists {n : String} {R : Bool → Cluster → Prop} (hinv : ∀ w, P w → I w)
    (hR : ∀ w, P w → R (w.objects .secret n).isSome w) : I.Step P (secretExists n) R := by
  refine Triple.bind (R := fun r w => I w ∧ (∀ data, r = .ok data → R true w) ∧
    (r = .error .notFound → R false w)) (Triple.op P.stable fun _ v hv _ =>
      ⟨trivial, fun f => ?_⟩) fun r => ?_
  · have hsame : (cluster.act f (.getSecret n) v).2 = v := serve_same
    have hread := hR v hv
    rw [hsame]
    refine ⟨hinv v hv, hinv v hv, fun data hdata => ?_, fun hnone => ?_⟩
    · obtain ⟨o, ho, -⟩ := Option.map_eq_some_iff.1 (find_ok (serve_ok hdata).1)
      rwa [ho] at hread
    · have hnone := find_notFound (serve_error (by decide) hnone).1
      rwa [Option.map_eq_none_iff.1 hnone] at hread
  · rcases r with (_ | _) | data
    · exact Triple.pure fun w hw => hw.2.2 rfl
    · exact Triple.throw fun w hw => hw.1
    · exact Triple.pure fun w hw => hw.2.1 data rfl

/-! ## What a reconcile consists of -/

theorem step_ensureHeadscale {T U : Labels → String → Fact name} {R : Cluster → Prop}
    (hinv : ∀ w, P w → I w) (hinv₁ : ∀ data hash w, T data hash w → I w)
    (hinv₂ : ∀ data hash w, U data hash w → I w)
    (h : ∀ data hash, buildConfigmap dep obj.spec.serverUrl obj.spec.dnsBaseDomain
        obj.spec.extraConfig = .ok (data, hash) →
      let n := serverName child.instanceName
      (∀ w, P w → I (w.put (child.object "headscale" n (.configMap data))) ∧
        T data hash (w.put (child.object "headscale" n (.configMap data)))) ∧
      (∀ w, T data hash w → I (w.put (child.service "headscale" n headscaleService)) ∧
        U data hash (w.put (child.service "headscale" n headscaleService))) ∧
      ∀ w, U data hash w → I (w.put (child.statefulSet "headscale" n
          (desiredStatefulset dep n obj.spec.storage obj.spec.resources hash))) ∧
        R (w.put (child.statefulSet "headscale" n
          (desiredStatefulset dep n obj.spec.storage obj.spec.resources hash)))) :
    I.Step P (ensureHeadscale dep child obj) fun _ => R := by
  cases hconfig : buildConfigmap dep obj.spec.serverUrl obj.spec.dnsBaseDomain
    obj.spec.extraConfig with
  | error e =>
    rw [ensureHeadscale, hconfig]
    exact Triple.throw hinv
  | ok config =>
    obtain ⟨data, hash⟩ := config
    obtain ⟨h₁, h₂, h₃⟩ := h data hash hconfig
    rw [ensureHeadscale, hconfig]
    refine Triple.bind (R := fun config w => config = (data, hash) ∧ P w)
      (Triple.pure fun w hw => ⟨rfl, hw⟩) fun config => TripleAt.of_and fun heq => ?_
    subst heq
    refine Triple.bind (step_apply (R := T data hash) (fun _ _ hkind => ?_) hinv h₁) fun _ => ?_
    · cases hkind
    refine Triple.bind (step_apply (R := U data hash) (fun _ _ hkind => ?_) (hinv₁ data hash) h₂) fun _ => ?_
    · cases hkind
    refine step_apply (fun _ _ hkind => ?_) (hinv₂ data hash) h₃
    cases hkind

/-- A Secret that is there is left, and one that is not is created. -/
theorem step_unlessSecret {n : String} {create : M Unit} {R : Cluster → Prop}
    (hn : n ∈ childNames .secret name) (hinv : ∀ w, P w → I w)
    (hfound : ∀ w, P w → (w.objects .secret n).isSome = true → R w)
    (hcreate : I.Step (P.without hn) create fun _ => R) :
    I.Step P (do if ← secretExists n then return else create) fun _ => R := by
  refine Triple.bind (R := fun found w => if found then R w else P.without hn w)
    (step_secretExists hinv fun w hw => ?_) fun found => ?_
  · cases hsecret : w.objects .secret n with
    | none => exact ⟨hw, hsecret⟩
    | some o => exact hfound w hw (hsecret ▸ rfl)
  · cases found with
    | true => exact Triple.pure fun w hw => hw
    | false => exact hcreate

theorem step_ensureApiKey {R : Cluster → Prop} (hchild : child.instanceName = name)
    (hinv : ∀ w, P w → I w)
    (hfound : ∀ w, P w → (w.objects .secret (apiKeySecretName name)).isSome = true → R w)
    (hput : ∀ w key, P w → w.objects .secret (apiKeySecretName name) = none →
      let object := child.object "headscale" (apiKeySecretName name)
        (.secret [("HEADSCALE_API_KEY", key)])
      I (w.put object) ∧ R (w.put object)) :
    I.Step P (ensureApiKey dep child) fun _ => R := by
  subst hchild
  have hn : apiKeySecretName child.instanceName ∈ childNames .secret child.instanceName :=
    List.mem_cons_self
  have hinv' : ∀ w, P.without hn w → I w := fun w hw => hinv w hw.1
  refine step_unlessSecret hn hinv hfound ?_
  refine Triple.bind (R := fun _ => P.without hn) (Triple.op (Fact.stable _) fun _ v hv _ =>
    ⟨hv.2, fun _ => ⟨hinv' v hv, hv⟩⟩) fun r => ?_
  refine Triple.bind (step_ofExcept hinv') fun output => ?_
  refine Triple.bind (step_ofExcept hinv') fun key => ?_
  -- The Secret is still missing, as nobody else writes it.
  exact step_apply (fun v hv _ => hv.2) hinv' fun w hw => hput w key hw.1 hw.2

theorem step_ensureScimToken {R : Cluster → Prop} (hchild : child.instanceName = name)
    (hinv : ∀ w, P w → I w)
    (hfound : ∀ w, P w → (w.objects .secret (scimTokenSecretName name)).isSome = true → R w)
    (hput : ∀ w token, P w → w.objects .secret (scimTokenSecretName name) = none →
      let object := child.object "scim" (scimTokenSecretName name)
        (.secret [("SCIM_BEARER_TOKEN", token)])
      I (w.put object) ∧ R (w.put object)) :
    I.Step P (ensureScimToken child) fun _ => R := by
  subst hchild
  refine step_unlessSecret (List.mem_cons_of_mem _ List.mem_cons_self) hinv hfound ?_
  refine Triple.bind (step_of_quiet (p := call .randomBytes) (uses_op trivial) fun w hw =>
    hinv w hw.1) fun token => ?_
  exact step_apply (fun v hv _ => hv.2) (fun w hw => hinv w hw.1)
    fun w hw => hput w token hw.1 hw.2

theorem step_ensureScim {T U : Fact name} {R : Cluster → Prop} {scim : ScimSpec}
    (hinv₁ : ∀ w, T w → I w) (hinv₂ : ∀ w, U w → I w)
    (htoken : I.Step P (ensureScimToken child) fun _ => T)
    (hstatefulSet : ∀ w, T w →
      let object := child.statefulSet "scim" (scimName child.instanceName)
        (scimStatefulset dep child.instanceName child.ns scim)
      I (w.put object) ∧ U (w.put object))
    (hservice : ∀ w, U w →
      let object := child.service "scim" (scimName child.instanceName) scimService
      I (w.put object) ∧ R (w.put object)) :
    I.Step P (ensureScim dep child scim) fun _ => R := by
  refine Triple.bind htoken fun _ => ?_
  refine Triple.bind (step_apply (R := U) (fun _ _ hkind => ?_) hinv₁ hstatefulSet) fun _ => ?_
  · cases hkind
  · refine step_apply (fun _ _ hkind => ?_) hinv₂ hservice
    cases hkind

theorem step_deleteScimIfExists {T U V : Fact name} {R : Cluster → Prop}
    (hinv : ∀ w, P w → I w) (hinv₁ : ∀ w, T w → I w) (hinv₂ : ∀ w, U w → I w)
    (hinv₃ : ∀ w, V w → I w)
    (hstatefulSet : ∀ w, P w → T (w.remove .statefulSet (scimName name)))
    (hservice : ∀ w, T w → U (w.remove .service (scimName name)))
    (hsecret : ∀ w, U w → V (w.remove .secret (scimTokenSecretName name)))
    (hclaim : ∀ w, V w → R w) : I.Step P (deleteScimIfExists name) fun _ => R := by
  refine Triple.bind (step_deleteIgnoring404 (R := T) hinv fun w hw =>
    ⟨hinv₁ _ (hstatefulSet w hw), hstatefulSet w hw⟩) fun _ => ?_
  refine Triple.bind (step_deleteIgnoring404 (R := U) hinv₁ fun w hw =>
    ⟨hinv₂ _ (hservice w hw), hservice w hw⟩) fun _ => ?_
  refine Triple.bind (step_deleteIgnoring404 (R := V) hinv₂ fun w hw =>
    ⟨hinv₃ _ (hsecret w hw), hsecret w hw⟩) fun _ => ?_
  refine Triple.mono (step_deleteIgnoring404 (R := V) hinv₃ fun w hw => ?_) (fun _ h => h)
    fun _ => hclaim
  -- The claim is none of the objects.
  exact ⟨I.of_same (hinv₃ w hw) fun _ _ _ => rfl, V.of_same hw fun _ _ _ => rfl⟩

theorem step_fetchContributingIngresses {n : String} {watchedNamespaces : List String}
    (hinv : ∀ w, P w → I w) :
    I.Step P (fetchContributingIngresses dep n watchedNamespaces) fun _ => P :=
  step_of_quiet (.bind (uses_op trivial) fun r => .bind (by cases r <;> trivial) fun _ => trivial)
    hinv

theorem step_syncPolicyOf {n : String} {spec : Spec} {ingresses : List Ingress}
    (hinv : ∀ w, P w → I w) : I.Step P (syncPolicyOf dep n spec ingresses) fun _ => P :=
  step_of_quiet (.mapError (.lift (Process.Prog.uses_of_forall (fun _ => trivial) _))) hinv

/-- What is done once headscale is ready. -/
theorem step_whenReady {K D : Fact name}
    (hinv : ∀ w, K w → I w)
    (hkey : I.Step P (ensureApiKey dep child) fun _ => K)
    (hscim : ∀ scim, obj.spec.scim = some scim → I.Step K (ensureScim dep child scim) fun _ => D)
    (hnone : obj.spec.scim = none → I.Step K (deleteScimIfExists obj.name) fun _ => D) :
    I.Step P (whenReady dep obj child) fun _ => D := by
  refine Triple.bind hkey fun _ => ?_
  split
  · exact Triple.throw hinv
  · refine Triple.bind (step_fetchContributingIngresses hinv) fun ingresses => ?_
    refine Triple.bind (step_syncPolicyOf hinv) fun _ => ?_
    cases h : obj.spec.scim with
    | some scim => exact hscim scim h
    | none => exact hnone h

end Steps

/-! ## The reconcile -/

/-- The status says whether the instance is ready, as of the generation that is read. -/
def Reported (obj : CustomResource) (isReady : Bool) (w : Cluster) : Prop :=
  ∃ status, w.statuses obj.name = some status ∧ status.isReady = isReady ∧
    status.observedGeneration = obj.generation.getD 0

/-- What a reconcile that ends well leaves: if it is to come back in a minute the instance is
    reported as ready, and what the operator runs for it is as it should be. -/
def Ended (obj : CustomResource) (Done : Cluster → Prop) : Action → Cluster → Prop
  | .awaitChange, _ => True
  | .requeue secs, w => Reported obj (secs == 60) w ∧
    (secs = 60 → obj.spec.external.isNone = true → Done w)

section Reconcile

variable {dep : Deployment} {obj : CustomResource} {child : ChildApplier}
  {I P D : Fact obj.name} {α : Type}

/-- Statuses are not objects. -/
theorem step_failWith {reason message : String} {e : Error} {R : α → Cluster → Prop}
    (hinv : ∀ w, P w → I w) : I.Step P (failWith obj reason message e : M α) R := by
  refine Triple.bind (step_of_quiet (.bind (uses_op trivial) fun _ => trivial) hinv) fun status => ?_
  refine Triple.bind (step_of_quiet (uses_op trivial) hinv) fun _ => ?_
  exact Triple.throw hinv

theorem step_settle {isReady : Bool} {reason message : String} {secs : Nat}
    (hinv : ∀ w, P w → I w) (hready : isReady = (secs == 60))
    (hdone : secs = 60 → obj.spec.external.isNone = true → ∀ w, P w → D w) :
    I.Step P (settle obj isReady reason message secs) fun a w => I w ∧ Ended obj D a w := by
  have hcall : (call .now).Uses Op.Quiet := uses_op trivial
  refine Triple.bind (R := fun status w => (status.isReady = isReady ∧
    status.observedGeneration = obj.generation.getD 0) ∧ P w) ?_ fun status => ?_
  · refine Triple.bind (step_of_quiet hcall hinv) fun time => Triple.pure fun w hw => ?_
    exact ⟨⟨HeadscaleInstanceStatus.isReady_updateReadyAt, rfl⟩, hw⟩
  refine TripleAt.of_and fun hstatus => ?_
  -- From here on the status is as it was written, whether or not its events are published.
  let Written (w : Cluster) : Prop := P w ∧ w.statuses obj.name = some status
  have hwritten : (among I).Stable Written := fun v w hv h =>
    ⟨P.of_same hv.1 h.objects, h.status.trans hv.2⟩
  refine Triple.bind (R := fun _ => Written) ?_ fun _ => ?_
  · refine step_fromKube (o := .patchStatus obj.name status) (g := id) (fun _ _ => trivial)
      fun f v hv => ?_
    have hobjects := objects_act (o := .patchStatus obj.name status) trivial f v
    refine ⟨I.of_same (hinv v hv) fun kind n _ => by rw [hobjects], fun _ hok => ⟨?_, ?_⟩⟩
    · exact P.of_same hv fun kind n _ => by rw [hobjects]
    · rw [show (cluster.act f (.patchStatus obj.name status) v).2 = v.setStatus obj.name status from
        (serve_ok hok).2]
      exact Function.update_self ..
  refine Triple.bind (R := fun _ => Written) ?_ fun _ => Triple.pure fun w hw => ?_
  · refine Triple.of_uses (C := fun o => ∃ ref event, o = .publish ref event)
      (.forM fun event _ => .bind (uses_op ⟨_, _, rfl⟩) fun _ => trivial) hwritten
      (fun w hw => hinv w hw.1) ?_
    rintro _ _ v ⟨ref, event, rfl⟩ hv -
    exact ⟨trivial, fun _ => hv⟩
  · exact ⟨hinv w hw.1, ⟨status, hw.2, hstatus.1.trans hready, hstatus.2⟩,
      fun hsecs hexternal => hdone hsecs hexternal w hw.1⟩

theorem step_applyManaged {Served : Fact obj.name} (hserved : ∀ w, Served w → I w)
    (hdone : ∀ w, D w → I w)
    (hserver : I.Step I (ensureHeadscale dep child obj) fun _ => Served)
    (hready : I.Step Served (whenReady dep obj child) fun _ => D) :
    I.Step I (applyManaged dep obj child) fun a w => I w ∧ Ended obj D a w := by
  refine Triple.bind (Triple.attempt hserver) fun applied => ?_
  cases applied with
  | error e => exact step_failWith fun _ h => h
  | ok u =>
    refine Triple.bind (step_of_quiet (uses_op trivial) hserved) fun r => ?_
    refine Triple.bind (step_of_quiet (p := fromKube r) trivial hserved) fun replicas => ?_
    split
    · refine Triple.bind (Triple.attempt hready) fun done => ?_
      cases done with
      | error e => exact step_failWith fun _ h => h
      | ok u => exact step_settle hdone rfl fun _ _ _ hw => hw
    · exact step_settle hserved rfl fun h => by cases h

theorem step_applyExternal (hexternal : obj.spec.external.isSome = true) :
    I.Step I (applyExternal dep obj) fun a w => I w ∧ Ended obj D a w := by
  have hnot : obj.spec.external.isNone ≠ true := by
    rw [← Option.not_isSome, hexternal]
    exact Bool.false_ne_true
  rw [applyExternal]
  split
  · exact step_failWith fun _ h => h
  · refine Triple.bind (step_of_quiet ?_ fun _ h => h) fun probed => ?_
    · refine .bind (uses_op trivial) fun connected => ?_
      rcases connected with e | u
      · trivial
      · exact .bind (uses_op trivial) fun users => by cases users <;> trivial
    · cases probed with
      | ok u => exact step_settle (fun _ h => h) rfl fun _ h => absurd h hnot
      | error e => exact step_settle (fun _ h => h) rfl fun h => by cases h

/-- Claims are not objects, either. -/
theorem step_cleanup : I.Step I (cleanup dep obj) fun a w => a = .awaitChange ∧ I w := by
  have hclaim (n : String) :
      I.Step I (deleteIgnoring404 .persistentVolumeClaim n) fun _ => I :=
    step_deleteIgnoring404 (fun _ h => h) fun w hw => ⟨I.of_same hw fun _ _ _ => rfl,
      I.of_same hw fun _ _ _ => rfl⟩
  refine Triple.bind (step_fetchContributingIngresses fun _ h => h) fun ingresses => ?_
  refine Triple.bind (step_of_quiet (.forM fun ing _ => ?_) fun _ h => h) fun _ => ?_
  · exact .bind (.bind (uses_op trivial) fun _ => trivial) fun _ =>
      .bind (uses_op trivial) fun _ => trivial
  · cases obj.metadata.namespaceName with
    | none => exact Triple.throw fun _ h => h
    | some ns =>
      refine Triple.bind (hclaim _) fun _ => Triple.bind (hclaim _) fun _ => ?_
      refine Triple.bind (step_of_quiet (.bind (uses_op trivial) fun _ => trivial) fun _ h => h)
        fun _ => Triple.pure fun w hw => ⟨rfl, hw⟩

/-- What the steps of a reconcile lead to, it leaves. -/
theorem step_reconcile
    (hmanaged : ∀ ns uid, obj.metadata.namespaceName = some ns → obj.uid = some uid →
      obj.spec.external.isNone = true →
      I.Step I (applyManaged dep obj (childApplierOf obj ns uid)) fun a w => I w ∧ Ended obj D a w) :
    I.Step I (reconcile dep obj) fun a w => I w ∧ Ended obj D a w := by
  rw [reconcile]
  cases hns : obj.metadata.namespaceName with
  | none => exact Triple.throw fun _ h => h
  | some ns =>
    have happly : I.Step I (applyInstance dep obj) fun a w => I w ∧ Ended obj D a w := by
      rw [applyInstance, hns]
      dsimp only
      split
      · rename_i hexternal
        exact step_applyExternal hexternal
      · rename_i hexternal
        cases huid : obj.uid with
        | none => exact Triple.throw fun _ h => h
        | some uid => exact hmanaged ns uid hns huid (by simpa using hexternal)
    have hquiet {p : M Unit} (hp : p.Uses Op.Quiet) : I.Step I p fun _ => I :=
      step_of_quiet hp fun _ h => h
    dsimp only
    rw [withFinalizer]
    split
    · exact happly
    · refine Triple.bind step_cleanup fun action => TripleAt.of_and fun haction => ?_
      refine Triple.bind (step_of_quiet (uses_op trivial) fun _ h => h) fun r => ?_
      refine Triple.bind (hquiet (p := fromKube r) trivial) fun _ => Triple.pure fun w hw => ?_
      exact ⟨hw, haction ▸ trivial⟩
    · refine Triple.bind (step_of_quiet (uses_op trivial) fun _ h => h) fun r => ?_
      exact Triple.bind (hquiet (p := fromKube r) trivial) fun _ =>
        Triple.pure fun w hw => ⟨hw, trivial⟩
    · exact Triple.pure fun w hw => ⟨hw, trivial⟩

end Reconcile

/-! ## Executions -/

section Executions

variable {dep : Deployment} {versions : List CustomResource} {name : String} {w : Cluster}
  {events : List (Process.Event Fate (Cluster → Cluster))} {s : Pool sig Error Action Cluster}

/-- The latest of the reconciles of an instance to do anything is one that has ended. -/
def EndedLast (versions : List CustomResource) (name : String) (s : Pool sig Error Action Cluster)
    (i : ℕ) (r : Except Error Action) : Prop :=
  s.threads[i]? = some (.ret r) ∧
    (calledBy (isOf versions name) s.history).head?.map (·.thread) = some i

/-- A reconcile has ended well. -/
def endedWith (a : Action) : M Action → Bool
  | .ret (.ok a') => a' == a
  | _ => false

theorem EndedLast.of_check {i : ℕ} {a : Action}
    (h : (s.threads[i]?.any (endedWith a) &&
      (calledBy (isOf versions name) s.history).head?.map (·.thread) == some i) = true) :
    EndedLast versions name s i (.ok a) := by
  rw [Bool.and_eq_true, Option.any_eq_true] at h
  obtain ⟨⟨p, hp, hends⟩, hlast⟩ := h
  refine ⟨hp.trans ?_, beq_iff_eq.1 hlast⟩
  rcases p with (e | a') | _
  · cases hends
  · rw [← beq_iff_eq.1 hends]
  · cases hends

theorem Ended.of_same {obj : CustomResource} {Done : Fact obj.name} {a : Action} {v w : Cluster}
    (h : Ended obj Done a v) (hsame : v.SameFor obj.name w) : Ended obj Done a w := by
  cases a with
  | awaitChange => trivial
  | requeue secs =>
    refine ⟨?_, fun hsecs hexternal => Done.of_same (h.2 hsecs hexternal) hsame.objects⟩
    exact h.1.imp fun status hstatus => ⟨hsame.status.trans hstatus.1, hstatus.2⟩

/-- What holds after each step of a reconcile does throughout an execution, and what a reconcile
    leaves is there as long as no other one of the instance has begun. -/
theorem exec_steps {I : Fact name} (Done : ∀ obj : CustomResource, Fact obj.name) (hw : I w)
    (hstep : ∀ obj ∈ versions, obj.name = name →
      I.Step I (reconcile dep obj) fun a v => I v ∧ Ended obj (Done obj) a v)
    (hturns : cluster.Along (cluster.OwnTurns (isOf versions name) (Cluster.SameFor name))
      (reconciles dep versions w) events)
    (hexec : cluster.exec (reconciles dep versions w) events = some s) :
    I s.world ∧
      (∀ e hist, e :: hist <:+ s.history → isOf versions name e.thread = true →
        e.op.FirstTime name e.before) ∧
      ∀ i obj a, versions[i]? = some obj → obj.name = name → EndedLast versions name s i (.ok a) →
        Ended obj (Done obj) a s.world := by
  have hamong := exec_instance (A := fun _ _ v o => o.FirstTime name v)
    (Q := fun obj => Process.Post.andThen (fun _ x => I x.1) fun a x =>
      I x.1 ∧ Ended obj (Done obj) a x.1) hw (fun obj hobj hname v hv => hstep obj hobj hname v [] hv)
    hturns hexec
  refine ⟨hamong.inv, fun e hist he hours => ?_, fun i obj a hobj hname hend => ?_⟩
  · obtain ⟨obj, hobj, -⟩ := isOf_eq_true hours
    exact hamong.calls e hist he hours obj hobj
  · obtain ⟨v, hsame, hv⟩ := hamong.ended i _ hend.1 hend.2
    subst hname
    exact (hv obj hobj).2.of_same hsame

/-- What is kept by the steps of the reconciles of an instance is kept throughout. -/
theorem exec_kept {I : Fact name} (hw : I w)
    (hserver : ∀ obj child, child.instanceName = name →
      I.Step I (ensureHeadscale dep child obj) fun _ => I)
    (hready : ∀ obj ∈ versions, obj.name = name → obj.spec.external.isNone = true →
      ∀ child, child.instanceName = name → I.Step I (whenReady dep obj child) fun _ => I)
    (hturns : cluster.Along (cluster.OwnTurns (isOf versions name) (Cluster.SameFor name))
      (reconciles dep versions w) events)
    (hexec : cluster.exec (reconciles dep versions w) events = some s) :
    I s.world ∧ ∀ e hist, e :: hist <:+ s.history → isOf versions name e.thread = true →
      e.op.FirstTime name e.before := by
  refine (exec_steps (fun _ => .any) hw (fun obj hobj hname => ?_) hturns hexec).imp_right And.left
  subst hname
  have hstep := step_reconcile (I := I) (D := I) fun ns uid _ _ hexternal =>
    step_applyManaged (fun _ h => h) (fun _ h => h) (hserver obj (childApplierOf obj ns uid) rfl)
      (hready obj hobj rfl hexternal (childApplierOf obj ns uid) rfl)
  refine hstep.mono (fun _ h => h) fun a v hv => hv.imp_right fun hend => ?_
  cases a with
  | awaitChange => trivial
  | requeue secs => exact ⟨hend.1, fun _ _ => trivial⟩

end Executions

namespace Office

/-! ### Two instances -/

def deployment : Deployment where
  operatorNamespace := "headmaster"
  claimDefault := true
  headscaleImage := "headscale/headscale:0.26"
  operatorImage := "headmaster:1.0"
  read _ := none
  digest _ := "5f70bf18a086007016e948b04aed3b82103a36bea41755b6cddfaf10ace3c6ef"
  toYaml _ := .ok "server_url: https://vpn.example.com"
  parseString s := if s = "\"hskey\"" then .ok "hskey" else .error "expected value"
  displayKube _ := "ApiError"
  displayStatus _ := "status"

def served (name : String) (scim : Option ScimSpec) : CustomResource where
  metadata := {
    name
    namespaceName := some "headmaster"
    finalizers := [finalizer "headmaster"] }
  uid := some name
  generation := some 1
  spec := { serverUrl := "https://vpn.example.com", scim }

/-- Both report that they are ready. -/
def fresh : Cluster := { readyReplicas := fun _ => some 1 }

/-- What is not kept is answered as by servers that work. -/
def answer : (o : Op) → o.Ans
  | .getSecret _ => .error .notFound
  | .getStatefulSet _ => .error .notFound
  | .exec _ _ _ => .ok "\"hskey\"\n"
  | .randomBytes => "a5"
  | .apply _ | .delete _ _ | .clearIngressStatus _ _ | .patchStatus _ _ | .addFinalizer _ _
  | .removeFinalizer _ _ | .publish _ _ => .ok ()
  | .listIngresses => .ok []
  | .sync _ .connect => .ok ()
  | .sync _ .getPolicy => .ok (.blank "")
  | .sync _ (.publishWarning _ _ _) => .ok ()
  | .sync _ (.setPolicy _) => .ok ()
  | .sync _ .notifyScim => ()
  | .listUsers _ => .ok ()
  | .now => (0 : Int)

/-- Some requests of a thread, all of them answered. -/
def succeeds (i n : ℕ) : List (Process.Event Fate (Cluster → Cluster)) :=
  .replicate n (.act i { answer })

def mints : Op → Bool
  | .exec _ _ _ => true
  | _ => false

end Office

end Headmaster.Operator.Instance
