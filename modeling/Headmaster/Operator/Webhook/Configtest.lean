import Headmaster.Process.Among
import Headmaster.Operator.Webhook

/-!
# Requests for admission

Any number of requests at the same time, while Jobs finish and expire
(`validations`). By the name of a request others create nothing (`Later`), so
that it finds its objects as it has left them, but for what the Job does
(`Testing`):

* `verdict_of_ended`: a spec is admitted only once headscale has accepted its
  configuration, and refused only with the guard, the failed request or the
  failed Job that is to blame (`Justified`);
* `cleaned_of_ended`: a request leaves nothing behind that it was told it has
  created, unless that could not be deleted, and no other request touches it.
-/

namespace Headmaster.Operator.Webhook

open Instance (Spec Object PodTemplate)
open Process (Made Pool Prog serve trace)

variable {dep : Instance.Deployment} {accepts : Configtest}

/-! ## What others do -/

section Later

variable {n : String} {u v w : Cluster}

/-- By the name of a request others create nothing. A Job by it may be done, but it succeeds only on
    a configuration that is accepted, or be gone. -/
structure Later (accepts : Configtest) (n : String) (v w : Cluster) : Prop where
  configMap : w.configMaps n = v.configMaps n
  job : ∀ job, w.jobs n = some job → ∃ old, v.jobs n = some old ∧ job.spec = old.spec ∧
    (job.status.hasSucceeded = true → old.status.hasSucceeded = true ∨
      ∃ configMaps, configMaps n = v.configMaps n ∧ old.passes accepts configMaps = true)

theorem passes_congr {job job' : Job} (h : job.spec = job'.spec)
    (configMaps : String → Option Object) :
    job.passes accepts configMaps = job'.passes accepts configMaps := by
  rw [Job.passes, Job.passes, h]

theorem later_of_same (hconfigMap : w.configMaps n = v.configMaps n) (hjob : w.jobs n = v.jobs n) :
    Later accepts n v w :=
  ⟨hconfigMap, fun job h => ⟨job, hjob ▸ h, rfl, .inl⟩⟩

theorem Later.trans (h : Later accepts n u v) (h' : Later accepts n v w) : Later accepts n u w := by
  refine ⟨h'.configMap.trans h.configMap, fun job hjob => ?_⟩
  obtain ⟨mid, hmid, hspec', hsucceeded'⟩ := h'.job job hjob
  obtain ⟨old, hold, hspec, hsucceeded⟩ := h.job mid hmid
  refine ⟨old, hold, hspec'.trans hspec, fun hjob => ?_⟩
  rcases hsucceeded' hjob with hmid | ⟨configMaps, hsame, hpasses⟩
  · exact hsucceeded hmid
  · exact .inr ⟨configMaps, hsame.trans h.configMap, passes_congr hspec configMaps ▸ hpasses⟩

/-- Around the objects of a request. -/
def around (accepts : Configtest) (n : String) : Process.Setting Cluster where
  others := Later accepts n
  refl _ := later_of_same rfl rfl
  trans := Later.trans
  inv _ := True
  stable _ _ _ _ := trivial

theorem later_setConfigMap {name : String} {object : Option Object} (h : name ≠ n) :
    Later accepts n w (w.setConfigMap name object) :=
  later_of_same (Function.update_of_ne h.symm _ _) rfl

theorem later_setJob {name : String} {job : Option Job} (h : name ≠ n) :
    Later accepts n w (w.setJob name job) :=
  later_of_same rfl (Function.update_of_ne h.symm _ _)

theorem jobs_setJob {job : Option Job} : (w.setJob n job).jobs n = job :=
  Function.update_self ..

theorem later_finish {name : String} {succeeds : Bool} :
    Later accepts n w (Change.apply accepts (.finish name succeeds) w) := by
  rw [Change.apply]
  rcases eq_or_ne name n with rfl | hne
  · refine ⟨rfl, fun job hjob => ?_⟩
    obtain ⟨old, hold, rfl⟩ := Option.map_eq_some_iff.1 (jobs_setJob.symm.trans hjob)
    refine ⟨old, hold, ?_, ?_⟩
    · rw [Job.finish]
      split
      · rfl
      · split
        · split <;> rfl
        · rfl
    · rw [Job.finish]
      split
      · exact .inl
      · split
        · split
          · rename_i hpasses
            exact fun _ => .inr ⟨w.configMaps, rfl, hpasses⟩
          · exact .inl
        · intro h
          cases h
  · exact later_setJob hne

theorem later_expire {name : String} : Later accepts n w (Change.apply accepts (.expire name) w) := by
  rw [Change.apply]
  rcases eq_or_ne name n with rfl | hne
  · exact ⟨rfl, fun job hjob => by cases jobs_setJob.symm.trans hjob⟩
  · exact later_setJob hne

/-- The name of the object that a request creates or deletes. -/
def Op.target? : Op → Option String
  | createConfigMap object => some object.metadata.name
  | createJob job => some job.metadata.name
  | deleteConfigMap name | deleteJob name => some name
  | _ => none

/-- What is created or deleted has another name. -/
def Op.Spares (n : String) (o : Op) : Prop := ∀ name ∈ o.target?, name ≠ n

theorem later_act {o : Op} (f : Fate) (ho : o.Spares n) :
    Later accepts n w (act f o w).2 := by
  have hrefl : Later accepts n w w := later_of_same rfl rfl
  have hserve {w' : Cluster} {r : Except KubeError Unit} (h : Later accepts n w w') :
      Later accepts n w (serve .other f.failure w w' r).2 := Process.serve_keeps hrefl h
  have hcreates {taken : Bool} {w' : Cluster} (h : Later accepts n w w') :
      Later accepts n w (w.creates taken w').2 := by
    cases taken
    · exact h
    · exact hrefl
  have hdeletes {found : Bool} {w' : Cluster} (h : Later accepts n w w') :
      Later accepts n w (w.deletes found w').2 := by
    cases found
    · exact hrefl
    · exact h
  cases o with
  | createConfigMap object => exact hserve (hcreates (later_setConfigMap (ho _ rfl)))
  | createJob job => exact hserve (hcreates (later_setJob (ho _ rfl)))
  | deleteConfigMap name => exact hserve (hdeletes (later_setConfigMap (ho _ rfl)))
  | deleteJob name => exact hserve (hdeletes (later_setJob (ho _ rfl)))
  | awaitDone name => exact hrefl
  | awaitTerminated podName => exact hrefl
  | listPods labels =>
    rw [act, Process.serve_same]
    exact hrefl
  | logs podName container =>
    rw [act, Process.serve_same]
    exact hrefl

end Later

/-! ## What a request finds -/

section Requests

variable {n instanceName configYaml : String} {v w : Cluster} {tr : List (Made sig)}

/-- The pod of a Job reads the configuration of its ConfigMap. -/
theorem file?_configtestJob {ns image : String} {configMaps : String → Option Object}
    (h : configMaps n = some (configtestConfigMap ns n instanceName configYaml)) :
    (configtestJob ns image n instanceName).spec.template.file? configMaps
      "/etc/headscale/config.yaml" = some configYaml := by
  have hentry : Instance.VolumeMount.entry? { mountPath := "/etc/headscale", name := "config", readOnly := true }
    "/etc/headscale/config.yaml" = some "config.yaml" := by decide
  have hdata : Instance.Volume.data? configMaps "config" (.configMap "config" n) =
      some [("config.yaml", configYaml)] := by
    rw [Instance.Volume.data?, if_pos rfl, h]
    rfl
  rw [PodTemplate.file?, configtestJob, List.findSome?_singleton]
  dsimp only
  rw [hentry, List.findSome?_singleton, hdata]
  rfl

/-- The objects of a request are there, but the Job may be gone; it succeeds only on a configuration
    that is accepted. -/
structure Testing (dep : Instance.Deployment) (accepts : Configtest)
    (n instanceName configYaml : String) (w : Cluster) : Prop where
  configMap : w.configMaps n =
    some (configtestConfigMap dep.operatorNamespace n instanceName configYaml)
  job : ∀ job, w.jobs n = some job →
    job.spec = (configtestJob dep.operatorNamespace dep.headscaleImage n instanceName).spec ∧
      (job.status.hasSucceeded = true → accepts dep.headscaleImage configYaml = true)

theorem Testing.later (h : Testing dep accepts n instanceName configYaml v)
    (hlater : Later accepts n v w) : Testing dep accepts n instanceName configYaml w := by
  refine ⟨hlater.configMap.trans h.configMap, fun job hjob => ?_⟩
  obtain ⟨old, hold, hspec, hsucceeded⟩ := hlater.job job hjob
  obtain ⟨hown, hold⟩ := h.job old hold
  refine ⟨hspec.trans hown, fun hjob => (hsucceeded hjob).elim hold ?_⟩
  -- It has finished in between, on the ConfigMap its pod found: the one of the request.
  rintro ⟨configMaps, hsame, hpasses⟩
  have hfile : (configtestJob dep.operatorNamespace dep.headscaleImage n
      instanceName).spec.template.file? configMaps "/etc/headscale/config.yaml" =
        some configYaml :=
    file?_configtestJob (hsame.trans h.configMap)
  rw [Job.passes, hown] at hpasses
  change Option.any (accepts dep.headscaleImage) (PodTemplate.file? configMaps _ _) = true at hpasses
  rwa [hfile] at hpasses

theorem created_configMap {f : Fate} {object : Object}
    (h : (act f (.createConfigMap object) w).1 = .ok ()) :
    (act f (.createConfigMap object) w).2.configMaps object.metadata.name = some object := by
  obtain ⟨hcreated, heffect⟩ := Process.serve_ok h
  rw [act, heffect]
  revert hcreated
  cases (w.configMaps object.metadata.name).isSome with
  | true =>
    intro hcreated
    cases hcreated
  | false => exact fun _ => Function.update_self ..

theorem created_job {f : Fate} {job : Job} (h : (act f (.createJob job) w).1 = .ok ()) :
    (act f (.createJob job) w).2.jobs job.metadata.name = some job := by
  obtain ⟨hcreated, heffect⟩ := Process.serve_ok h
  rw [act, heffect]
  revert hcreated
  cases (w.jobs job.metadata.name).isSome with
  | true =>
    intro hcreated
    cases hcreated
  | false => exact fun _ => Function.update_self ..

/-- A deletion leaves nothing, or has failed. -/
theorem deleted_configMap {f : Fate} (h : (act f (.deleteConfigMap n) w).1 ≠ .error .other) :
    (act f (.deleteConfigMap n) w).2.configMaps n = none := by
  obtain ⟨failure, unseen, pods, logs⟩ := f
  cases failure with
  | none =>
    rw [act, Process.serve]
    cases hfound : w.configMaps n with
    | none => exact hfound
    | some object => exact Function.update_self ..
  | some effect => exact absurd rfl h

theorem deleted_job {f : Fate} (h : (act f (.deleteJob n) w).1 ≠ .error .other) :
    (act f (.deleteJob n) w).2.jobs n = none := by
  obtain ⟨failure, unseen, pods, logs⟩ := f
  cases failure with
  | none =>
    rw [act, Process.serve]
    cases hfound : w.jobs n with
    | none => exact hfound
    | some job => exact Function.update_self ..
  | some effect => exact absurd rfl h

/-- A Job that a wait has seen was done. -/
theorem awaited {f : Fate} {status : JobStatus} (h : (act f (.awaitDone n) w).1 = .ok status) :
    ∃ job, w.jobs n = some job ∧ job.status = status ∧ status.isDone = true := by
  obtain ⟨failure, unseen, pods, logs⟩ := f
  change Fate.sees _ (w.jobs n) = _ at h
  cases failure with
  | some effect => cases h
  | none =>
    cases hjob : w.jobs n with
    | none =>
      rw [hjob] at h
      cases h
    | some job =>
      rw [hjob] at h
      dsimp only [Fate.sees] at h
      split at h
      · rename_i hdone
        obtain rfl := Except.ok.inj h
        exact ⟨job, rfl, rfl, hdone⟩
      · cases h

/-! ## What a request does -/

/-- What a denial after a test is to blame on. -/
inductive Refused (dep : Instance.Deployment) (n : String) (tr : List (Made sig)) : String → Prop
  | configMap (object : Object) (e : KubeError)
      (h : ⟨.createConfigMap object, Except.error e⟩ ∈ tr) :
      Refused dep n tr ("failed to create validation ConfigMap: " ++ dep.displayKube e)
  | job (job : Job) (e : KubeError) (h : ⟨.createJob job, Except.error e⟩ ∈ tr) :
      Refused dep n tr ("failed to create validation Job: " ++ dep.displayKube e)
  | unseen (unseen : Unseen) (h : ⟨.awaitDone n, Except.error unseen⟩ ∈ tr) :
      Refused dep n tr unseen.text
  | failed (status : JobStatus) (message : String) (h : ⟨.awaitDone n, Except.ok status⟩ ∈ tr)
      (hfailed : status.failed.getD 0 > 0)
      (hmessage : message = "headscale configtest failed" ∨ ∃ podName logs,
        ⟨.logs podName "configtest", Except.ok logs⟩ ∈ tr ∧
          message = String.ofList (Text.trim logs.toList)) : Refused dep n tr message

theorem Refused.mono {tr' : List (Made sig)} {message : String} (h : Refused dep n tr message)
    (hsub : tr ⊆ tr') : Refused dep n tr' message := by
  cases h with
  | configMap object e h => exact .configMap object e (hsub h)
  | job job e h => exact .job job e (hsub h)
  | unseen unseen h => exact .unseen unseen (hsub h)
  | failed status _ h hfailed hmessage =>
    exact .failed status _ (hsub h) hfailed <| hmessage.imp_right fun ⟨podName, logs, h, hm⟩ =>
      ⟨podName, logs, hsub h, hm⟩

/-- What a test has found. -/
def Outcome (dep : Instance.Deployment) (accepts : Configtest) (n configYaml : String)
    (tr : List (Made sig)) : Except String Unit → Prop
  | .ok () => accepts dep.headscaleImage configYaml = true
  | .error message => Refused dep n tr message

theorem Outcome.mono {tr' : List (Made sig)} {r : Except String Unit}
    (h : Outcome dep accepts n configYaml tr r) (hsub : tr ⊆ tr') :
    Outcome dep accepts n configYaml tr' r := by
  cases r with
  | ok u => exact h
  | error message => exact Refused.mono h hsub

/-- A request among all others. -/
abbrev alone (accepts : Configtest) (n : String) : Process.Contract sig (Cluster × List (Made sig)) :=
  (cluster accepts).amid (around accepts n) (fun _ _ => True) fun _ _ _ => True

theorem wp_call {α : Type} {o : Op} {k : o.Ans → M α} {Q : Except String α → Cluster × List (Made sig) → Prop}
    (h : ∀ v, Later accepts n w v → ∀ f, (k (act f o v).1).wp (alone accepts n) Q
      ((act f o v).2, ⟨o, (act f o v).1⟩ :: tr)) : (call o >>= k).wp (alone accepts n) Q (w, tr) :=
  Process.Machine.wp_bind_amid fun v hv _ => ⟨trivial, fun f => ⟨trivial, h v hv f⟩⟩

theorem wp_fetchPodLogs : (fetchPodLogs dep n).wp (alone accepts n) (fun r s =>
    tr ⊆ s.2 ∧ ∀ message, r = .ok message → ∃ podName logs,
      ⟨.logs podName "configtest", Except.ok logs⟩ ∈ s.2 ∧
        message = String.ofList (Text.trim logs.toList)) (w, tr) := by
  refine wp_call fun v hv f => ?_
  cases (act f (.listPods ("job-name=" ++ n)) v).1 with
  | error e => exact ⟨List.subset_cons_self _ _, fun message h => by cases h⟩
  | ok pods =>
    rcases pods with _ | ⟨_ | podName, pods⟩
    · exact ⟨List.subset_cons_self _ _, fun message h => by cases h⟩
    · exact ⟨List.subset_cons_self _ _, fun message h => by cases h⟩
    refine wp_call fun v₁ hv₁ f₁ => wp_call fun v₂ hv₂ f₂ => ?_
    have hsub (c c' c'' : Made sig) : tr ⊆ c :: c' :: c'' :: tr :=
      List.subset_append_right [c, c', c''] tr
    cases (act f₂ (.logs podName "configtest") v₂).1 with
    | error e => exact ⟨hsub _ _ _, fun message h => by cases h⟩
    | ok logs =>
      refine Prog.wp_bind.2 ?_
      change Prog.wp _ _ (ite ((Text.trim logs.toList).isEmpty = true) _ _) _
      split
      · exact ⟨hsub _ _ _, fun message h => by cases h⟩
      · refine ⟨hsub _ _ _, fun message h => ?_⟩
        exact ⟨podName, logs, List.mem_cons_self, (Except.ok.inj h).symm⟩

/-- A Job that is seen to have succeeded was for a configuration that is accepted. -/
theorem wp_awaitConfigtest (hw : Testing dep accepts n instanceName configYaml w) :
    (awaitConfigtest dep n).wp (alone accepts n)
      (fun r s => Outcome dep accepts n configYaml s.2 r) (w, tr) := by
  refine wp_call fun v hv f => ?_
  cases hwait : (act f (.awaitDone n) v).1 with
  | error unseen => exact .unseen unseen List.mem_cons_self
  | ok status =>
    obtain ⟨job, hjob, rfl, hdone⟩ := awaited hwait
    change Prog.wp _ _ (ite (job.status.hasSucceeded = true) _ _) _
    split
    · -- The Job that was seen may have finished only now, but it is still that of the request.
      rename_i hsucceeded
      exact ((hw.later hv).job job hjob).2 hsucceeded
    · rename_i hsucceeded
      rw [JobStatus.isDone, Bool.eq_false_iff.2 hsucceeded, Bool.false_or, decide_eq_true_eq] at hdone
      refine Prog.wp_bind.2 (Prog.wp_attempt.2 (Prog.wp_mono (fun r s hs => ?_) wp_fetchPodLogs))
      have hmem := hs.1 List.mem_cons_self
      cases r with
      | error e => exact .failed job.status _ hmem hdone (.inl rfl)
      | ok logs => exact .failed job.status _ hmem hdone (.inr (hs.2 logs rfl))

theorem configMaps_createJob {f : Fate} {job : Job} :
    (act f (.createJob job) w).2.configMaps = w.configMaps := by
  refine Process.serve_keeps (P := fun w' : Cluster => w'.configMaps = w.configMaps) rfl ?_
  cases (w.jobs job.metadata.name).isSome <;> rfl

theorem configMaps_deleteJob {f : Fate} : (act f (.deleteJob n) w).2.configMaps = w.configMaps := by
  refine Process.serve_keeps (P := fun w' : Cluster => w'.configMaps = w.configMaps) rfl ?_
  cases (w.jobs n).isSome <;> rfl

/-- Whatever a request was told that it has created is gone again, unless that could not be
    deleted. -/
structure Cleaned (n : String) (w : Cluster) (tr : List (Made sig)) : Prop where
  configMap : ∀ object, ⟨.createConfigMap object, Except.ok ()⟩ ∈ tr → (w.configMaps n).isSome = true →
    ⟨.deleteConfigMap n, Except.error KubeError.other⟩ ∈ tr
  job : ∀ job, ⟨.createJob job, Except.ok ()⟩ ∈ tr → (w.jobs n).isSome = true →
    ⟨.deleteJob n, Except.error KubeError.other⟩ ∈ tr

theorem Cleaned.later (h : Cleaned n v tr) (hlater : Later accepts n v w) : Cleaned n w tr := by
  refine ⟨fun object hcreated hsome => h.configMap object hcreated (hlater.configMap ▸ hsome),
    fun job hcreated hsome => h.job job hcreated ?_⟩
  obtain ⟨job, hjob⟩ := Option.isSome_iff_exists.1 hsome
  obtain ⟨old, hold, -⟩ := hlater.job job hjob
  rw [hold]
  rfl

theorem wp_runConfigtest {uid : String} (hn : n = testName instanceName uid) :
    (runConfigtest dep configYaml instanceName uid).wp (alone accepts n) (fun r s =>
      Outcome dep accepts n configYaml s.2 r ∧ Cleaned n s.1 s.2) (w, []) := by
  subst hn
  refine wp_call fun v hv f => ?_
  cases hconfigMap : (act f (.createConfigMap _) v).1 with
  | error e =>
    refine ⟨.configMap _ e List.mem_cons_self, fun object hmem => ?_, fun job hmem => ?_⟩
    · cases List.mem_singleton.1 hmem
    · cases List.mem_singleton.1 hmem
  | ok u =>
    have hcreated := created_configMap hconfigMap
    -- From here on the ConfigMap is there, and has to go on each path.
    refine wp_call fun v₁ hv₁ f₁ => ?_
    cases hjob : (act f₁ (.createJob _) v₁).1 with
    | error e =>
      refine wp_call fun v₂ hv₂ f₂ => ?_
      refine ⟨.job _ e (List.mem_cons_of_mem _ List.mem_cons_self), ?_⟩
      refine ⟨fun object _ hsome => ?_, fun job hmem => ?_⟩
      · by_contra hdeleted
        rw [deleted_configMap fun h => hdeleted (h ▸ List.mem_cons_self)] at hsome
        cases hsome
      · rcases List.mem_cons.1 hmem with h | h
        · cases h
        · rcases List.mem_pair.1 h with h | h <;> cases h
    | ok u =>
      have hjobs := created_job hjob
      have htesting : Testing dep accepts (testName instanceName uid) instanceName configYaml
          (act f₁ (.createJob (configtestJob dep.operatorNamespace dep.headscaleImage
            (testName instanceName uid) instanceName)) v₁).2 := by
        refine ⟨?_, fun job h => ?_⟩
        · rw [configMaps_createJob, hv₁.configMap]
          exact hcreated
        · obtain rfl := Option.some.inj (hjobs.symm.trans h)
          refine ⟨rfl, fun h => ?_⟩
          cases h
      refine Prog.wp_bind.2 (Prog.wp_attempt.2 (Prog.wp_mono (fun r s hs => ?_)
        (wp_awaitConfigtest htesting)))
      obtain ⟨w₂, tr₂⟩ := s
      refine wp_call fun v₃ hv₃ f₃ => wp_call fun v₄ hv₄ f₄ => ?_
      refine ⟨hs.mono (List.subset_append_right [_, _] tr₂), ?_⟩
      refine ⟨fun object _ hsome => ?_, fun job _ hsome => ?_⟩
      · by_contra hdeleted
        rw [configMaps_deleteJob, hv₄.configMap, deleted_configMap fun h =>
          hdeleted (h ▸ List.mem_cons_of_mem _ List.mem_cons_self)] at hsome
        cases hsome
      · by_contra hdeleted
        rw [deleted_job fun h => hdeleted (h ▸ List.mem_cons_self)] at hsome
        cases hsome

/-- A verdict, and what it is based on. -/
inductive Justified (dep : Instance.Deployment) (accepts : Configtest) (request : AdmissionRequest)
    (tr : List (Made sig)) : Verdict → Prop
  | deletion (h : request.object = none) : Justified dep accepts request tr .allowed
  | external (spec : Spec) (h : request.object = some spec) (hexternal : spec.external.isSome = true)
      (hconflict : spec.externalConflict = false) : Justified dep accepts request tr .allowed
  | tested (spec : Spec) (configYaml : String) (h : request.object = some spec)
      (hexternal : spec.external.isSome = false) (hconflict : spec.scimConflict = false)
      (hreserved : checkReservedKeys spec.extraConfig = .ok ())
      (hyaml : dep.toYaml (buildConfig spec.serverUrl spec.dnsBaseDomain spec.extraConfig) =
        .ok configYaml)
      (haccepted : accepts dep.headscaleImage configYaml = true) :
      Justified dep accepts request tr .allowed
  | externalConflict (spec : Spec) (h : request.object = some spec)
      (hexternal : spec.external.isSome = true) (hconflict : spec.externalConflict = true) :
      Justified dep accepts request tr (.denied externalMessage)
  | scimConflict (spec : Spec) (h : request.object = some spec)
      (hexternal : spec.external.isSome = false) (hconflict : spec.scimConflict = true) :
      Justified dep accepts request tr (.denied scimMessage)
  | reserved (spec : Spec) (message : String) (h : request.object = some spec)
      (hreserved : checkReservedKeys spec.extraConfig = .error message) :
      Justified dep accepts request tr (.denied message)
  | serialization (spec : Spec) (e : String) (h : request.object = some spec)
      (hyaml : dep.toYaml (buildConfig spec.serverUrl spec.dnsBaseDomain spec.extraConfig) =
        .error e) : Justified dep accepts request tr (.denied ("failed to generate config: " ++ e))
  | refused (message : String) (h : Refused dep (testName request.name request.uid) tr message) :
      Justified dep accepts request tr (.denied message)

theorem wp_validate {request : AdmissionRequest} :
    (validate dep request).wp (alone accepts (testName request.name request.uid)) (fun r s =>
      (∃ verdict, r = .ok verdict ∧ Justified dep accepts request s.2 verdict) ∧
        Cleaned (testName request.name request.uid) s.1 s.2) (w, []) := by
  have hnone : Cleaned (testName request.name request.uid) w [] :=
    ⟨fun object h => absurd h List.not_mem_nil, fun job h => absurd h List.not_mem_nil⟩
  rw [validate]
  cases hobject : request.object with
  | none => exact ⟨⟨_, rfl, .deletion hobject⟩, hnone⟩
  | some spec =>
    dsimp only
    split
    · rename_i hexternal
      split
      · rename_i hconflict
        exact ⟨⟨_, rfl, .externalConflict spec hobject hexternal hconflict⟩, hnone⟩
      · rename_i hconflict
        exact ⟨⟨_, rfl, .external spec hobject hexternal (Bool.eq_false_iff.2 hconflict)⟩, hnone⟩
    rename_i hexternal
    split
    · rename_i hconflict
      exact ⟨⟨_, rfl, .scimConflict spec hobject (Bool.eq_false_iff.2 hexternal) hconflict⟩, hnone⟩
    rename_i hconflict
    cases hreserved : checkReservedKeys spec.extraConfig with
    | error message => exact ⟨⟨_, rfl, .reserved spec message hobject hreserved⟩, hnone⟩
    | ok u =>
      cases hyaml : dep.toYaml (buildConfig spec.serverUrl spec.dnsBaseDomain spec.extraConfig) with
      | error e => exact ⟨⟨_, rfl, .serialization spec e hobject hyaml⟩, hnone⟩
      | ok configYaml =>
        refine Prog.wp_bind.2 (Prog.wp_attempt.2 (Prog.wp_mono (fun r s hs => ?_)
          (wp_runConfigtest rfl)))
        rcases r with message | u
        · exact ⟨⟨_, rfl, .refused message hs.1⟩, hs.2⟩
        · exact ⟨⟨_, rfl, .tested spec configYaml hobject (Bool.eq_false_iff.2 hexternal)
            (Bool.eq_false_iff.2 hconflict) hreserved hyaml hs.1⟩, hs.2⟩

/-- What is created or deleted has the name. -/
def Op.Within (n : String) (o : Op) : Prop := ∀ name ∈ o.target?, name = n

theorem uses_quiet {o : Op} (h : o.target? = none) : (call o).Uses (Op.Within n) := by
  refine Prog.uses_op fun name hname => ?_
  rw [h] at hname
  cases hname

theorem uses_own {o : Op} (h : o.target? = some n) : (call o).Uses (Op.Within n) := by
  refine Prog.uses_op fun name hname => ?_
  rw [h] at hname
  exact (Option.some.inj hname).symm

theorem uses_fetchPodLogs : (fetchPodLogs dep n).Uses (Op.Within n) := by
  refine .bind (uses_quiet rfl) fun pods => .bind trivial fun pods => ?_
  rcases pods with _ | ⟨_ | podName, pods⟩
  · trivial
  · trivial
  refine .bind (uses_quiet rfl) fun _ => .bind (uses_quiet rfl) fun logs => .bind trivial fun logs => ?_
  dsimp only
  split <;> trivial

theorem uses_awaitConfigtest : (awaitConfigtest dep n).Uses (Op.Within n) := by
  refine .bind (uses_quiet rfl) fun wait => ?_
  rcases wait with unseen | status
  · trivial
  dsimp only
  split
  · trivial
  · refine .bind uses_fetchPodLogs.attempt fun r => ?_
    cases r <;> trivial

/-- A request creates and deletes what is its own. -/
theorem uses_validate {request : AdmissionRequest} :
    (validate dep request).Uses (Op.Within (testName request.name request.uid)) := by
  rw [validate]
  cases request.object with
  | none => trivial
  | some spec =>
    dsimp only
    split
    · split <;> trivial
    split
    · trivial
    split
    · trivial
    split
    · trivial
    refine .bind (.attempt (.bind (uses_own rfl) fun created => ?_)) fun r => by cases r <;> trivial
    rcases created with e | u
    · trivial
    refine .bind (uses_own rfl) fun created => ?_
    rcases created with e | u
    · exact .bind (uses_own rfl) fun _ => trivial
    · exact .bind uses_awaitConfigtest.attempt fun _ => .bind (uses_own rfl) fun _ =>
        .bind (uses_own rfl) fun _ => trivial

end Requests

/-! ## Requests at the same time -/

section Executions

variable {requests : List AdmissionRequest} {w : Cluster}
  {events : List (Process.Event Fate Change)} {s : Pool sig String Verdict Cluster}
  {request : AdmissionRequest} {i : ℕ}

/-- What the environment does beyond Jobs leaves the objects of the requests alone. -/
def Spared (requests : List AdmissionRequest) (s : Pool sig String Verdict Cluster) :
    Process.Event Fate Change → Prop
  | .env (.others g) => ∀ request ∈ requests,
    (g s.world).configMaps (testName request.name request.uid) =
        s.world.configMaps (testName request.name request.uid) ∧
      (g s.world).jobs (testName request.name request.uid) =
        s.world.jobs (testName request.name request.uid)
  | _ => True

instance (s : Pool sig String Verdict Cluster) :
    ∀ e : Process.Event Fate Change, Decidable (Spared requests s e)
  | .act _ _ | .env (.finish _ _) | .env (.expire _) => .isTrue trivial
  | .env (.others g) => inferInstanceAs (Decidable (∀ request ∈ requests,
    (g s.world).configMaps (testName request.name request.uid) =
        s.world.configMaps (testName request.name request.uid) ∧
      (g s.world).jobs (testName request.name request.uid) =
        s.world.jobs (testName request.name request.uid)))

/-- The uids of requests, each of which is there once. -/
structure Distinct (requests : List AdmissionRequest) : Prop where
  isUid : ∀ request ∈ requests, IsUid request.uid
  nodup : (requests.map (·.uid)).Nodup

theorem spared_undisturbed (hmem : request ∈ requests) (s : Pool sig String Verdict Cluster)
    (e : Process.Event Fate Change) (h : Spared requests s e) :
    (cluster accepts).Undisturbed (Later accepts (testName request.name request.uid)) s e := by
  cases e with
  | act j f => trivial
  | env g =>
    cases g with
    | finish name succeeds => exact later_finish
    | expire name => exact later_expire
    | others g => exact later_of_same (h request hmem).1 (h request hmem).2

/-- The other requests have other uids. -/
theorem spares_others (hdistinct : Distinct requests) (hi : requests[i]? = some request) {j : ℕ}
    {other : AdmissionRequest} (hj : requests[j]? = some other) (hne : j ≠ i) :
    (validate dep other).Uses (Op.Spares (testName request.name request.uid)) := by
  refine uses_validate.mono fun o ho name hname heq => hne ?_
  have huids (k : ℕ) {r : AdmissionRequest} (hk : requests[k]? = some r) :
      (requests.map (·.uid))[k]? = some r.uid := by
    rw [List.getElem?_map, hk]
    rfl
  have huid : other.uid = request.uid := by
    refine testName_injective ?_ ((ho name hname).symm.trans heq)
    exact (hdistinct.isUid other (List.mem_of_getElem? hj)).1.trans
      (hdistinct.isUid request (List.mem_of_getElem? hi)).1.symm
  -- A name has the uid at its end, so the same name is of the same request.
  refine (List.getElem?_inj (List.getElem?_eq_some_iff.1 (huids j hj)).1 hdistinct.nodup).1 ?_
  rw [huids j hj, huids i hi, huid]

theorem threads_validations (j : ℕ) :
    (validations dep requests w).threads[j]? = requests[j]?.map (validate dep) :=
  List.getElem?_map ..

/-- What is known of a request that has ended, whatever happens at the same time. -/
theorem ended_request (hdistinct : Distinct requests)
    (hturns : (cluster accepts).Along (Spared requests) (validations dep requests w) events)
    (hexec : (cluster accepts).exec (validations dep requests w) events = some s)
    (hi : requests[i]? = some request) {r : Except String Verdict}
    (hend : s.threads[i]? = some (.ret r)) :
    (∃ verdict, r = .ok verdict ∧ Justified dep accepts request (trace i s.history) verdict) ∧
      Cleaned (testName request.name request.uid) s.world (trace i s.history) := by
  -- The uid in a name keeps the others away from the objects of this request.
  have hothers (o : Op) (f : Fate) (v : Cluster)
      (ho : o.Spares (testName request.name request.uid)) :
      Later accepts (testName request.name request.uid) v ((cluster accepts).act f o v).2 :=
    later_act f ho
  have huses (j : ℕ) (q : M Verdict) (hne : j ≠ i)
      (hq : (validations dep requests w).threads[j]? = some q) :
      q.Uses (Op.Spares (testName request.name request.uid)) := by
    obtain ⟨other, hother, rfl⟩ :=
      Option.map_eq_some_iff.1 ((threads_validations j).symm.trans hq)
    exact spares_others hdistinct hi hother hne
  obtain ⟨w', hlater, hends⟩ := (Process.Machine.exec_own
    (S := around accepts (testName request.name request.uid)) rfl trivial
    ((threads_validations i).trans (by rw [hi]; rfl)) huses hothers (fun w _ => wp_validate)
    (hturns.mono (spared_undisturbed (List.mem_of_getElem? hi))) hexec).2 r hend
  exact ⟨hends.1, hends.2.later hlater⟩

/-- No other request creates or deletes an object by the name of this one. -/
theorem spares_of_called (hdistinct : Distinct requests)
    (hexec : (cluster accepts).exec (validations dep requests w) events = some s)
    (hi : requests[i]? = some request) {e : Process.Entry sig Cluster} (he : e ∈ s.history)
    (hne : e.thread ≠ i) : e.op.Spares (testName request.name request.uid) := by
  obtain ⟨later, hist, hsplit⟩ := List.append_of_mem he
  refine (Process.Machine.exec_tracing
    (A := fun j _ (o : Op) => j ≠ i → o.Spares (testName request.name request.uid)) rfl
    (fun j p hp => ?_) hexec ⟨later, hsplit.symm⟩).1 hne
  obtain ⟨other, hother, rfl⟩ := Option.map_eq_some_iff.1 ((threads_validations j).symm.trans hp)
  rcases eq_or_ne j i with rfl | hj
  · exact (Prog.uses_of_forall (fun _ => trivial) _).safe fun _ _ _ h => absurd rfl h
  · exact (spares_others hdistinct hi hother hj).safe fun _ _ ho _ => ho

/-- A request always ends with a verdict, and never with one that nothing speaks for: an instance
    whose headscale the operator runs is admitted only with a configuration that headscale itself,
    in the image that will run, has accepted. -/
theorem verdict_of_ended (hdistinct : Distinct requests)
    (hturns : (cluster accepts).Along (Spared requests) (validations dep requests w) events)
    (hexec : (cluster accepts).exec (validations dep requests w) events = some s)
    (hi : requests[i]? = some request) {r : Except String Verdict}
    (hend : s.threads[i]? = some (.ret r)) :
    ∃ verdict, r = .ok verdict ∧ Justified dep accepts request (trace i s.history) verdict :=
  (ended_request hdistinct hturns hexec hi hend).1

namespace Office

/-! ### Two requests -/

def deployment : Instance.Deployment where
  operatorNamespace := "headmaster"
  claimDefault := true
  headscaleImage := "headscale/headscale:0.26"
  read _ := none
  digest _ := "5f70bf18a086007016e948b04aed3b82103a36bea41755b6cddfaf10ace3c6ef"
  toYaml ps :=
    match ps.lookup "server_url" with
    | some (.string url) => .ok ("server_url: " ++ url)
    | _ => .error "not a string"
  parseString _ := .error "expected value"
  displayKube _ := "ApiError"
  displayStatus _ := "status"

def secure : Configtest := fun _ config => config == "server_url: https://vpn.example.com"

def creation (uid serverUrl : String) : AdmissionRequest where
  uid := uid
  name := "main"
  object := some { serverUrl }

/-- The same instance is created with two configurations. -/
def creations : List AdmissionRequest :=
  [creation "550e8400-e29b-41d4-a716-446655440000" "https://vpn.example.com",
    creation "650e8400-e29b-41d4-a716-446655440000" "ftp://vpn.example.com"]

def served (i : ℕ) : Process.Event Fate Change :=
  .act i { pods := [some "configtest"], logs := "bad server_url\n" }

/-- Both Jobs are done when they are seen. -/
def tests : List (Process.Event Fate Change) :=
  [served 0, served 1, served 1, served 0,
    .env (.finish "configtest-main-650e8400-e29b-41d4-a716-446655440000" false),
    .env (.finish "configtest-main-550e8400-e29b-41d4-a716-446655440000" true),
    served 0, served 1, served 1, served 0, served 1, served 1, served 0, served 1, served 1]

def endedWith (verdict : Verdict) : M Verdict → Bool
  | .ret (.ok v) => v == verdict
  | _ => false

theorem eq_of_endedWith {verdict : Verdict} {p : M Verdict} (h : endedWith verdict p = true) :
    p = .ret (.ok verdict) := by
  rcases p with (e | v) | _
  · cases h
  · rw [beq_iff_eq.1 h]
  · cases h

theorem distinct_creations : Distinct creations := by
  refine ⟨fun request hrequest => ?_, by decide⟩
  rcases List.mem_pair.1 hrequest with rfl | rfl <;> exact ⟨by decide, by decide⟩

theorem spared_tests : (cluster secure).Along (Spared creations)
    (validations deployment creations {}) tests := by
  decide +kernel

end Office

open Office in
/-- One of them is admitted, and the other one refused with what headscale has logged. -/
theorem verdict_of_ended_creations : ∃ s,
    (cluster secure).exec (validations deployment creations {}) tests = some s ∧
      Justified deployment secure (creation "550e8400-e29b-41d4-a716-446655440000"
        "https://vpn.example.com") (trace 0 s.history) .allowed ∧
      Justified deployment secure (creation "650e8400-e29b-41d4-a716-446655440000"
        "ftp://vpn.example.com") (trace 1 s.history) (.denied "bad server_url") := by
  have hrun : ((cluster secure).exec (validations deployment creations {}) tests).any (fun s =>
      s.threads[0]?.any (endedWith .allowed) &&
        s.threads[1]?.any (endedWith (.denied "bad server_url"))) = true := by
    decide +kernel
  obtain ⟨s, hs, hends⟩ := Option.any_eq_true _ _ |>.1 hrun
  rw [Bool.and_eq_true, Option.any_eq_true, Option.any_eq_true] at hends
  obtain ⟨⟨p, hp, hallowed⟩, q, hq, hdenied⟩ := hends
  obtain rfl := eq_of_endedWith hallowed
  obtain rfl := eq_of_endedWith hdenied
  refine ⟨s, hs, ?_, ?_⟩
  · obtain ⟨_, hverdict, h⟩ := verdict_of_ended distinct_creations spared_tests hs rfl hp
    cases hverdict
    exact h
  · obtain ⟨_, hverdict, h⟩ := verdict_of_ended distinct_creations spared_tests hs rfl hq
    cases hverdict
    exact h

/-- A request that has ended leaves nothing behind that it was told it has created, unless it was
    told too that the deletion has failed; no other one creates or deletes an object by its name. -/
theorem cleaned_of_ended (hdistinct : Distinct requests)
    (hturns : (cluster accepts).Along (Spared requests) (validations dep requests w) events)
    (hexec : (cluster accepts).exec (validations dep requests w) events = some s)
    (hi : requests[i]? = some request) {r : Except String Verdict}
    (hend : s.threads[i]? = some (.ret r)) :
    Cleaned (testName request.name request.uid) s.world (trace i s.history) ∧
      ∀ e ∈ s.history, e.thread ≠ i → e.op.Spares (testName request.name request.uid) :=
  ⟨(ended_request hdistinct hturns hexec hi hend).2,
    fun _ he hne => spares_of_called hdistinct hexec hi he hne⟩

open Office in
/-- The one that is admitted, while the other one is tested. -/
theorem cleaned_of_ended_creations : ∃ s,
    (cluster secure).exec (validations deployment creations {}) tests = some s ∧
      Cleaned (testName "main" "550e8400-e29b-41d4-a716-446655440000") s.world
        (trace 0 s.history) ∧
      ∀ e ∈ s.history, e.thread ≠ 0 →
        e.op.Spares (testName "main" "550e8400-e29b-41d4-a716-446655440000") := by
  have hrun : ((cluster secure).exec (validations deployment creations {}) tests).any
      (fun s => s.threads[0]?.any (endedWith .allowed)) = true := by
    decide +kernel
  obtain ⟨s, hs, hends⟩ := Option.any_eq_true _ _ |>.1 hrun
  obtain ⟨p, hp, hallowed⟩ := Option.any_eq_true _ _ |>.1 hends
  obtain rfl := eq_of_endedWith hallowed
  have hcleaned := cleaned_of_ended distinct_creations spared_tests hs rfl hp
  exact ⟨s, hs, hcleaned⟩

end Executions

end Headmaster.Operator.Webhook
