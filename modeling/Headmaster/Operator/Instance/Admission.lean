import Headmaster.Process.Ends
import Headmaster.Operator.Instance.Calls
import Headmaster.Operator.Webhook.Configtest

/-!
# The webhook and the controller

Both check a spec: the webhook before it is stored, and the controller whenever
it reconciles, as a webhook may be switched off. In what both look at they agree
(`Spec.Passes`); at the reserved keys only the webhook looks, and it has the
configuration tested.

* `no_conflict_of_allowed`: no reconcile of a spec that was admitted fails for
  what both look at;
* `passes_of_ready`: no reconcile says that an instance is ready whose spec the
  webhook would refuse for that.
-/

namespace Headmaster.Operator.Instance

open Process (Made Pool Prog trace)
open Process.Machine (exec_ends exec_tracing)
open Process.Prog (Ends Raises Uses ends_of_forall raises_attempt_bind raises_bind raises_error
  raises_ok raises_op uses_op)

variable {dep : Deployment} {obj : CustomResource} {child : ChildApplier}

/-! ## Specs -/

/-- What both ask of a spec. The webhook asks more: that it sets no reserved key, and that headscale
    accepts the configuration. -/
structure Spec.Passes (dep : Deployment) (spec : Spec) : Prop where
  external : spec.external.isSome = true → spec.externalConflict = false
  scim : spec.external.isSome = false → spec.scimConflict = false
  config : spec.external.isSome = false → ∃ configYaml,
    dep.toYaml (buildConfig spec.serverUrl spec.dnsBaseDomain spec.extraConfig) = .ok configYaml

/-- What is admitted has passed, whatever the test has found. -/
theorem ends_validate {request : Webhook.AdmissionRequest} {spec : Spec}
    (hspec : request.object = some spec) :
    (Webhook.validate dep request).Ends fun r => r = .ok .allowed → spec.Passes dep := by
  have hdenied {message : String} :
      (.ok (.denied message) : Except String Webhook.Verdict) = .ok .allowed → spec.Passes dep := by
    intro h
    cases h
  rw [Webhook.validate, hspec]
  dsimp only
  split
  · rename_i hexternal
    split
    · exact hdenied
    · rename_i hconflict
      refine fun _ => ⟨fun _ => Bool.eq_false_iff.2 hconflict, fun hmanaged => ?_, fun hmanaged => ?_⟩
      all_goals cases hexternal.symm.trans hmanaged
  · rename_i hmanaged
    split
    · exact hdenied
    rename_i hconflict
    cases checkReservedKeys spec.extraConfig with
    | error message => exact hdenied
    | ok u =>
      cases hyaml : dep.toYaml (buildConfig spec.serverUrl spec.dnsBaseDomain spec.extraConfig) with
      | error e => exact hdenied
      | ok configYaml =>
        have hpasses : spec.Passes dep := ⟨fun hexternal => absurd hexternal hmanaged,
          fun _ => Bool.eq_false_iff.2 hconflict, fun _ => ⟨configYaml, hyaml⟩⟩
        exact ends_of_forall (fun _ _ => hpasses) _

/-- Both use the same words. -/
theorem externalMessage_eq : Webhook.externalMessage = Error.externalSpecConflict.text dep := rfl

theorem scimMessage_eq : Webhook.scimMessage = Error.scimPolicyConflict.text dep := rfl

/-! ## Errors -/

/-- What both look for. -/
def Error.isConflict : Error → Bool
  | scimPolicyConflict | externalSpecConflict | configSerialization _ => true
  | _ => false

/-- The error is another one. -/
abbrev Error.Other (e : Error) : Prop := e.isConflict = false

theorem raises_fromKube {α : Type} (r : Except KubeError α) : (fromKube r).Raises Error.Other := by
  cases r with
  | error e => exact raises_error rfl
  | ok a => exact raises_ok a

theorem raises_apply (object : Object) : (apply object).Raises Error.Other :=
  raises_bind (raises_op _) raises_fromKube

theorem raises_deleteIgnoring404 (kind : Kind) (name : String) :
    (deleteIgnoring404 kind name).Raises Error.Other :=
  raises_bind (raises_op _) fun _ => raises_fromKube _

theorem raises_secretExists (name : String) : (secretExists name).Raises Error.Other := by
  refine raises_bind (raises_op _) fun r => ?_
  rcases r with e | data
  · cases e with
    | notFound => exact raises_ok _
    | other => exact raises_error rfl
  · exact raises_ok _

theorem raises_ensureHeadscale {configYaml : String}
    (h : dep.toYaml (buildConfig obj.spec.serverUrl obj.spec.dnsBaseDomain obj.spec.extraConfig) =
      .ok configYaml) : (ensureHeadscale dep child obj).Raises Error.Other := by
  rw [ensureHeadscale, buildConfigmap, h]
  refine raises_bind (raises_ok _) fun _ => ?_
  exact raises_bind (raises_apply _) fun _ => raises_bind (raises_apply _) fun _ => raises_apply _

theorem raises_ensureApiKey : (ensureApiKey dep child).Raises Error.Other := by
  refine raises_bind (raises_secretExists _) fun found => ?_
  cases found with
  | true => exact raises_ok _
  | false =>
    refine raises_bind (raises_op _) fun r => raises_bind ?_ fun output => raises_bind ?_ fun key =>
      raises_apply _
    · rcases r with (_ | _ | _) | output
      · exact raises_error rfl
      · exact raises_error rfl
      · exact raises_error rfl
      · exact raises_ok output
    · rw [apiKeyOf]
      cases dep.parseString (String.ofList (Text.trim output.toList)) with
      | error e => exact raises_error rfl
      | ok key => exact raises_ok key

theorem raises_ensureScim (scim : ScimSpec) : (ensureScim dep child scim).Raises Error.Other := by
  refine raises_bind (raises_bind (raises_secretExists _) fun found => ?_) fun _ =>
    raises_bind (raises_apply _) fun _ => raises_apply _
  cases found with
  | true => exact raises_ok _
  | false => exact raises_bind (raises_op _) fun _ => raises_apply _

theorem raises_deleteScimIfExists (name : String) :
    (deleteScimIfExists name).Raises Error.Other :=
  raises_bind (raises_deleteIgnoring404 _ _) fun _ =>
    raises_bind (raises_deleteIgnoring404 _ _) fun _ =>
      raises_bind (raises_deleteIgnoring404 _ _) fun _ => raises_deleteIgnoring404 _ _

theorem raises_fetchContributingIngresses {name : String} {watchedNamespaces : List String} :
    (fetchContributingIngresses dep name watchedNamespaces).Raises Error.Other :=
  raises_bind (raises_op _) fun _ => raises_bind (raises_fromKube _) fun _ => raises_ok _

theorem raises_syncPolicyOf {name : String} {spec : Spec} {ingresses : List Ingress} :
    (syncPolicyOf dep name spec ingresses).Raises Error.Other := by
  refine (Ends.mapError (ends_of_forall (R := fun _ => True) (fun _ => trivial) _)).mono ?_
  rintro r ⟨r', rfl, -⟩ e he
  rcases r' with e' | u
  · obtain rfl := Except.error.inj he
    cases e' <;> rfl
  · cases he

theorem raises_whenReady (h : obj.spec.scimConflict = false) :
    (whenReady dep obj child).Raises Error.Other := by
  refine raises_bind raises_ensureApiKey fun _ => ?_
  rw [h]
  refine raises_bind raises_fetchContributingIngresses fun ings =>
    raises_bind raises_syncPolicyOf fun _ => ?_
  cases obj.spec.scim with
  | some scim => exact raises_ensureScim scim
  | none => exact raises_deleteScimIfExists _

theorem raises_failWith {α : Type} {reason message : String} {e : Error} (h : e.Other) :
    (failWith obj reason message e : M α).Raises Error.Other :=
  raises_bind (raises_bind (raises_op _) fun _ => raises_ok _) fun _ =>
    raises_bind (raises_op _) fun _ => raises_error h

theorem raises_forM {ref : ObjectRef} (es : List KubeEvent) :
    (es.forM (publish ref)).Raises Error.Other := by
  induction es with
  | nil => exact raises_ok _
  | cons event es ih =>
    exact raises_bind (raises_bind (raises_op _) fun _ => raises_ok _) fun _ => ih

theorem raises_settle {isReady : Bool} {reason message : String} {secs : Nat} :
    (settle obj isReady reason message secs).Raises Error.Other :=
  raises_bind (raises_bind (raises_op _) fun _ => raises_ok _) fun _ =>
    raises_bind (raises_bind (raises_op _) raises_fromKube) fun _ =>
      raises_bind (raises_forM _) fun _ => raises_ok _

theorem raises_applyManaged {configYaml : String}
    (hyaml : dep.toYaml (buildConfig obj.spec.serverUrl obj.spec.dnsBaseDomain
      obj.spec.extraConfig) = .ok configYaml) (hscim : obj.spec.scimConflict = false) :
    (applyManaged dep obj child).Raises Error.Other := by
  refine raises_attempt_bind (raises_ensureHeadscale hyaml) (fun _ => ?_) fun e he =>
    raises_failWith he
  refine raises_bind (raises_op _) fun r => raises_bind (raises_fromKube _) fun replicas => ?_
  split
  · exact raises_attempt_bind (raises_whenReady hscim) (fun _ => raises_settle) fun e he =>
      raises_failWith he
  · exact raises_settle

theorem raises_applyExternal (h : obj.spec.externalConflict = false) :
    (applyExternal dep obj).Raises Error.Other := by
  rw [applyExternal, h]
  refine raises_bind (raises_bind (raises_op _) fun connected => ?_) fun probed => ?_
  · rcases connected with e | u
    · exact raises_ok _
    · refine raises_bind (raises_op _) fun users => ?_
      cases users <;> exact raises_ok _
  · cases probed <;> exact raises_settle

theorem raises_cleanup : (cleanup dep obj).Raises Error.Other := by
  refine raises_bind raises_fetchContributingIngresses fun ings => raises_bind ?_ fun _ => ?_
  · induction ings with
    | nil => exact raises_ok _
    | cons ing ings ih =>
      refine raises_bind (raises_bind (raises_bind (raises_op _) fun _ => raises_ok _) fun _ =>
        raises_bind (raises_op _) fun _ => raises_ok _) fun _ => ih
  · cases obj.metadata.namespaceName with
    | none => exact raises_error rfl
    | some ns =>
      exact raises_bind (raises_deleteIgnoring404 _ _) fun _ =>
        raises_bind (raises_deleteIgnoring404 _ _) fun _ =>
          raises_bind (raises_bind (raises_op _) fun _ => raises_ok _) fun _ => raises_ok _

theorem raises_reconcile (h : obj.spec.Passes dep) : (reconcile dep obj).Raises Error.Other := by
  have hrest {r : Except KubeError Unit} {a : Proxy.Action} :
      (fromKube r >>= fun _ => pure a).Raises Error.Other :=
    raises_bind (raises_fromKube r) fun _ => raises_ok a
  rw [reconcile]
  cases hns : obj.metadata.namespaceName with
  | none => exact raises_error rfl
  | some ns =>
    dsimp only
    rw [withFinalizer]
    split
    · rw [applyInstance, hns]
      dsimp only
      split
      · rename_i hexternal
        exact raises_applyExternal (h.external hexternal)
      · rename_i hmanaged
        cases obj.uid with
        | none => exact raises_error rfl
        | some uid =>
          obtain ⟨configYaml, hyaml⟩ := h.config (Bool.eq_false_iff.2 hmanaged)
          exact raises_applyManaged hyaml (h.scim (Bool.eq_false_iff.2 hmanaged))
    · exact raises_bind raises_cleanup fun _ => raises_bind (raises_op _) fun _ => hrest
    · exact raises_bind (raises_op _) fun _ => hrest
    · exact raises_ok _

/-! ## Statuses -/

/-- No status is written that says that the instance is ready. -/
def Op.Unready (o : Op) : Prop :=
  ∀ name status, o = .patchStatus name status → status.isReady = false

theorem unready_of_readies {o : Op} {name : String} (h : o.Readies name) : o.Unready := by
  rintro n status rfl
  rcases h with h | ⟨so, h⟩
  · exact h.2.elim
  · cases h

theorem unready_call {o : Op} (h : ∀ name status, o ≠ .patchStatus name status) :
    (call o).Uses Op.Unready :=
  uses_op fun name status ho => absurd ho (h name status)

/-- A status is as ready as it is made. -/
theorem ends_updateReady {status : HeadscaleInstanceStatus} {isReady : Bool}
    {reason message : String} {generation : Int} :
    (updateReady status isReady reason message generation).Ends fun r =>
      ∀ status, r = .ok status → status.isReady = isReady := by
  intro time status h
  rw [← Except.ok.inj h]
  exact HeadscaleInstanceStatus.isReady_updateReadyAt

theorem unready_updateReady {status : HeadscaleInstanceStatus} {isReady : Bool}
    {reason message : String} {generation : Int} :
    (updateReady status isReady reason message generation).Uses Op.Unready :=
  .bind (unready_call fun _ _ h => by cases h) fun _ => trivial

theorem unready_patch {name : String} {status : HeadscaleInstanceStatus}
    (h : status.isReady = false) : (call (.patchStatus name status)).Uses Op.Unready := by
  refine uses_op fun name' status' ho => ?_
  rw [← (Op.patchStatus.inj ho).2]
  exact h

theorem unready_fromKube {α : Type} (r : Except KubeError α) : (fromKube r).Uses Op.Unready := by
  cases r <;> trivial

theorem unready_failWith {α : Type} {reason message : String} {e : Error} :
    (failWith obj reason message e : M α).Uses Op.Unready :=
  unready_updateReady.bind_ends ends_updateReady fun _ h =>
    .bind (unready_patch (h _ rfl)) fun _ => trivial

theorem unready_publish {ref : ObjectRef} (es : List KubeEvent) :
    (es.forM (publish ref)).Uses Op.Unready :=
  .forM fun _ _ => .bind (unready_call fun _ _ h => by cases h) fun _ => trivial

theorem unready_settle {reason message : String} {secs : Nat} :
    (settle obj false reason message secs).Uses Op.Unready :=
  unready_updateReady.bind_ends ends_updateReady fun _ h =>
    .bind (.bind (unready_patch (h _ rfl)) unready_fromKube) fun _ =>
      .bind (unready_publish _) fun _ => trivial

/-- No configuration, no objects. -/
theorem ends_ensureHeadscale {e : String}
    (h : dep.toYaml (buildConfig obj.spec.serverUrl obj.spec.dnsBaseDomain obj.spec.extraConfig) =
      .error e) : (ensureHeadscale dep child obj).Ends fun r => ∃ e, r = .error e := by
  rw [ensureHeadscale, buildConfigmap, h]
  exact ⟨_, rfl⟩

theorem ends_whenReady (h : obj.spec.scimConflict = true) :
    (whenReady dep obj child).Ends fun r => ∃ e, r = .error e := by
  refine (ends_of_forall (fun _ => trivial) (ensureApiKey dep child)).bind
    (R := fun _ => True) (fun _ _ => ?_) fun e _ => ⟨e, rfl⟩
  rw [h]
  exact ⟨_, rfl⟩

theorem unready_applyManaged (hchild : child.instanceName = obj.name)
    (h : obj.spec.scimConflict = true ∨ ∃ e, dep.toYaml (buildConfig obj.spec.serverUrl
      obj.spec.dnsBaseDomain obj.spec.extraConfig) = .error e) :
    (applyManaged dep obj child).Uses Op.Unready := by
  have hserves : (ensureHeadscale dep child obj).Uses Op.Unready :=
    (serves_ensureHeadscale hchild).mono fun _ ho => unready_of_readies (.inl ho)
  rcases h with hscim | ⟨e, hyaml⟩
  · refine .bind hserves.attempt fun r => ?_
    rcases r with e | u
    · exact unready_failWith
    -- A conflict is found only once headscale is ready; before, the status says that it is not.
    refine .bind (unready_call fun _ _ h => by cases h) fun r => .bind (unready_fromKube r)
      fun replicas => ?_
    split
    · refine .bind_ends ((readies_whenReady hchild).mono fun _ => unready_of_readies).attempt
        (ends_whenReady hscim).attempt fun r hr => ?_
      obtain ⟨r', hr', e, rfl⟩ := hr
      obtain rfl := Except.ok.inj hr'
      exact unready_failWith
    · exact unready_settle
  · -- Without a configuration the first part fails, and with it the reconcile.
    refine .bind_ends hserves.attempt (ends_ensureHeadscale hyaml).attempt fun r hr => ?_
    obtain ⟨r', hr', e, rfl⟩ := hr
    obtain rfl := Except.ok.inj hr'
    exact unready_failWith

theorem unready_cleans {o : Op} (h : o.Cleans obj.name) : o.Unready := by
  rintro n status rfl
  exact h.elim

theorem unready_reconcile (h : ¬obj.spec.Passes dep) : (reconcile dep obj).Uses Op.Unready := by
  have hlast {o : Op} (ho : ∀ name status, o ≠ .patchStatus name status)
      (r : o.Ans → Except KubeError Unit) {a : Proxy.Action} :
      (call o >>= fun b => fromKube (r b) >>= fun _ => pure a).Uses Op.Unready :=
    .bind (unready_call ho) fun b => .bind (unready_fromKube _) fun _ => trivial
  rw [reconcile]
  cases hns : obj.metadata.namespaceName with
  | none => trivial
  | some ns =>
    dsimp only
    rw [withFinalizer]
    split
    · rw [applyInstance, hns]
      dsimp only
      split
      · rename_i hexternal
        rw [applyExternal]
        split
        · exact unready_failWith
        · rename_i hconflict
          refine absurd ⟨fun _ => Bool.eq_false_iff.2 hconflict, fun hmanaged => ?_,
            fun hmanaged => ?_⟩ h
          all_goals cases hexternal.symm.trans hmanaged
      · rename_i hmanaged
        cases obj.uid with
        | none => trivial
        | some uid =>
          refine unready_applyManaged rfl ?_
          by_contra hnone
          obtain ⟨hscim, hyaml⟩ := not_or.1 hnone
          refine h ⟨fun hexternal => absurd hexternal hmanaged, fun _ => Bool.eq_false_iff.2 hscim,
            fun _ => ?_⟩
          cases hresult : dep.toYaml (buildConfig obj.spec.serverUrl obj.spec.dnsBaseDomain
              obj.spec.extraConfig) with
          | error e => exact absurd ⟨e, hresult⟩ hyaml
          | ok configYaml => exact ⟨configYaml, rfl⟩
    · exact .bind (cleans_cleanup.mono fun _ => unready_cleans) fun _ =>
        hlast (o := .removeFinalizer _ _) (fun _ _ h => by cases h) fun b => b
    · exact hlast (o := .addFinalizer _ _) (fun _ _ h => by cases h) fun b => b
    · trivial

/-! ## Executions -/

section Executions

variable {accepts : Webhook.Configtest} {requests : List Webhook.AdmissionRequest}
  {request : Webhook.AdmissionRequest} {v : Webhook.Cluster}
  {changes : List (Process.Event Webhook.Fate Webhook.Change)}
  {t : Pool Webhook.sig String Webhook.Verdict Webhook.Cluster}
  {versions : List CustomResource} {w : Cluster}
  {events : List (Process.Event Fate (Cluster → Cluster))} {s : Pool sig Error Proxy.Action Cluster}

/-- A spec that was admitted never makes a reconcile fail for a conflict, or for a configuration
    that cannot be written. -/
theorem no_conflict_of_allowed
    (hvalidated : (Webhook.cluster accepts).exec (Webhook.validations dep requests v) changes =
      some t) {i : ℕ} (hi : requests[i]? = some request)
    (hallowed : t.threads[i]? = some (.ret (.ok .allowed)))
    (hexec : cluster.exec (reconciles dep versions w) events = some s) {j : ℕ}
    (hj : versions[j]? = some obj) (hspec : request.object = some obj.spec) {e : Error}
    (hend : s.threads[j]? = some (.ret (.error e))) : e.isConflict = false := by
  have hvalidates : (Webhook.validations dep requests v).threads[i]? =
      some (Webhook.validate dep request) := by
    rw [Webhook.threads_validations, hi]
    rfl
  have hpasses := exec_ends rfl hvalidated hvalidates (ends_validate hspec) hallowed rfl
  have hthread : (reconciles dep versions w).threads[j]? = some (reconcile dep obj) := by
    rw [reconciles, List.getElem?_map, hj]
    rfl
  exact exec_ends rfl hexec hthread (raises_reconcile hpasses) hend e rfl

open Office Webhook.Office in
/-- A reconcile of what was admitted fails for another reason. -/
theorem no_conflict_of_allowed_refused : ∃ t s e,
    (Webhook.cluster secure).exec (Webhook.validations Webhook.Office.deployment creations {})
        tests = some t ∧
      cluster.exec (reconciles Webhook.Office.deployment [Office.served "main" none] fresh)
        refused = some s ∧ s.threads[0]? = some (.ret (.error e)) ∧ e.isConflict = false := by
  have hvalidated : ((Webhook.cluster secure).exec (Webhook.validations Webhook.Office.deployment
      creations {}) tests).any (fun t => t.threads[0]?.any (Webhook.Office.endedWith .allowed)) =
        true := by
    decide +kernel
  have hrun : (cluster.exec (reconciles Webhook.Office.deployment [Office.served "main" none] fresh)
      refused).any (fun s => s.threads[0]?.any failed) = true := by
    decide +kernel
  obtain ⟨t, ht, hends⟩ := Option.any_eq_true _ _ |>.1 hvalidated
  obtain ⟨p, hp, hallowed⟩ := Option.any_eq_true _ _ |>.1 hends
  obtain rfl := Webhook.Office.eq_of_endedWith hallowed
  obtain ⟨s, hs, hthread⟩ := Option.any_eq_true _ _ |>.1 hrun
  obtain ⟨q, hq, hfailed⟩ := Option.any_eq_true _ _ |>.1 hthread
  obtain rfl := eq_of_failed hfailed
  exact ⟨t, s, _, ht, hs, hq,
    no_conflict_of_allowed ht rfl hp hs rfl rfl hq⟩

/-- An instance is said to be ready only with a spec that passes what both look at. -/
theorem passes_of_ready (hexec : cluster.exec (reconciles dep versions w) events = some s)
    {e : Process.Entry sig Cluster} {hist : List (Process.Entry sig Cluster)}
    (he : e :: hist <:+ s.history) (hobj : versions[e.thread]? = some obj) {name : String}
    {status : HeadscaleInstanceStatus} (hop : e.op = .patchStatus name status)
    (hready : status.isReady = true) : obj.spec.Passes dep := by
  refine calls_of_safe (A := fun obj _ o => ∀ name status, o = .patchStatus name status →
    status.isReady = true → obj.spec.Passes dep) (fun obj => ?_) hexec he hobj name status hop hready
  by_cases h : obj.spec.Passes dep
  · -- Then there is nothing to show of its requests.
    exact fun tr => Prog.wp_of_allowed _ fun _ _ _ _ _ _ _ => h
  · refine (unready_reconcile h).safe fun tr o ho name status heq hready => ?_
    cases (ho name status heq).symm.trans hready

namespace Office

def saysReady : Op → Bool
  | .patchStatus _ status => status.isReady
  | _ => false

theorem exists_of_saysReady {o : Op} (h : saysReady o = true) :
    ∃ name status, o = .patchStatus name status ∧ status.isReady = true := by
  cases o with
  | patchStatus name status => exact ⟨name, status, rfl, h⟩
  | _ => cases h

end Office

open Office in
/-- The spec of an instance that becomes ready. -/
theorem passes_of_ready_main : ∃ s,
    cluster.exec (reconciles deployment [served "main" none] fresh) (succeeds 0 16) = some s ∧
      latest saysReady 0 s = true ∧ (served "main" none).spec.Passes deployment := by
  have hrun : (cluster.exec (reconciles deployment [served "main" none] fresh)
      (succeeds 0 16)).any (latest saysReady 0) = true := by
    decide +kernel
  obtain ⟨s, hs, hlatest⟩ := Option.any_eq_true _ _ |>.1 hrun
  obtain ⟨e, hist, he, hthread, hsays⟩ := exists_of_latest hlatest
  obtain ⟨name, status, hop, hready⟩ := exists_of_saysReady hsays
  exact ⟨s, hs, hlatest, passes_of_ready hs he (by rw [hthread]; rfl) hop hready⟩

end Executions

end Headmaster.Operator.Instance
