import Headmaster.Process.Faults
import Headmaster.Process.Pool
import Headmaster.Operator.Instance.Objects
import Headmaster.Kubernetes

/-!
# The webhook

The admission of HeadscaleInstances (`validate` in
`src/operator/src/server/webhook.rs`). A spec that passes the guards has its
configuration tested: a Job runs the `configtest` of headscale on it, from a
ConfigMap (`runConfigtest`).

Requests are processes on a cluster on which Jobs finish and expire at any time
(`Cluster`). The objects of a request have its uid in their name, which is one
that they can have (`isDns1123Label_testName`), and no other request's
(`testName_injective`).
-/

namespace Headmaster.Operator.Webhook

open Instance (Spec Labels Metadata Object PodTemplate)
open Process (Machine Pool Prog Sig serve)

/-! ## Jobs -/

structure JobSpec where
  backoffLimit : Int
  ttlSecondsAfterFinished : Int
  restartPolicy : String
  template : PodTemplate
  deriving DecidableEq

/-- How many of the pods have ended, and how. -/
structure JobStatus where
  succeeded : Option Int := none
  failed : Option Int := none
  deriving DecidableEq

structure Job where
  metadata : Metadata
  spec : JobSpec
  status : JobStatus := {}
  deriving DecidableEq

def JobStatus.hasSucceeded (status : JobStatus) : Bool := status.succeeded.getD 0 > 0

def JobStatus.isDone (status : JobStatus) : Bool :=
  status.hasSucceeded || status.failed.getD 0 > 0

/-- How the wait for a Job ends that is not seen to be done. -/
inductive Unseen
  | timeout
  | watch (e : String)
  | gone

def Unseen.text : Unseen → String
  | timeout => "config validation timed out"
  | watch e => "configtest watch error: " ++ e
  | gone => "configtest job disappeared"

/-! ## Requests -/

inductive Op
  | createConfigMap (object : Object)
  | createJob (job : Job)
  /-- Until the Job is done, for some time. -/
  | awaitDone (name : String)
  /-- The names of the pods with a label. -/
  | listPods (labels : String)
  /-- Until the container has ended, for some time; nothing depends on the answer. -/
  | awaitTerminated (podName : String)
  | logs (podName container : String)
  | deleteConfigMap (name : String)
  | deleteJob (name : String)

def Op.Ans : Op → Type
  | createConfigMap _ => Except KubeError Unit
  | createJob _ => Except KubeError Unit
  | awaitDone _ => Except Unseen JobStatus
  | listPods _ => Except KubeError (List (Option String))
  | awaitTerminated _ => Unit
  | logs _ _ => Except KubeError String
  | deleteConfigMap _ => Except KubeError Unit
  | deleteJob _ => Except KubeError Unit

abbrev sig : Sig := ⟨Op, Op.Ans⟩

/-- An error is the message of a denial. -/
abbrev M := Prog sig String

def call (o : Op) : M o.Ans := Prog.op (σ := sig) o

/-! ## The configtest -/

/-- 11 bytes, up to 15 of the name, 1, and the 36 of a uid make 63. -/
def testName (instanceName uid : String) : String :=
  "configtest-" ++ String.ofList (floorCharBoundary 15 instanceName.toList) ++ "-" ++ uid

def configtestLabels (instanceName : String) : Labels :=
  [(Proxy.appName, "headscale"), (Proxy.appInstance, instanceName),
    (Proxy.appManagedBy, Proxy.managedByValue)]

def configtestConfigMap (ns name instanceName configYaml : String) : Object where
  metadata := { name, ns, labels := configtestLabels instanceName }
  resource := .configMap [("config.yaml", configYaml)]

def configtestJob (ns image name instanceName : String) : Job where
  metadata := { name, ns, labels := configtestLabels instanceName }
  spec := {
    backoffLimit := 0
    ttlSecondsAfterFinished := 60
    restartPolicy := "Never"
    template := {
      container := {
        name := "configtest"
        image := image
        args := ["--config", "/etc/headscale/config.yaml", "configtest"]
        volumeMounts := [{ mountPath := "/etc/headscale", name := "config", readOnly := true }] }
      volumes := [.configMap "config" name] } }

variable (dep : Instance.Deployment)

def fetchPodLogs (jobName : String) : M String := do
  let pods ← .ofExcept (Except.mapError dep.displayKube
    (← call (.listPods ("job-name=" ++ jobName))))
  match pods with
  | [] => throw "no pod found for job"
  | none :: _ => throw "pod has no name"
  | some podName :: _ =>
    let _ ← call (.awaitTerminated podName)
    let logs ← .ofExcept (Except.mapError dep.displayKube (← call (.logs podName "configtest")))
    let trimmed := Text.trim logs.toList
    if trimmed.isEmpty then throw "logs unavailable" else return String.ofList trimmed

/-- What has become of the Job. -/
def awaitConfigtest (name : String) : M Unit := do
  match ← call (.awaitDone name) with
  | .error unseen => throw unseen.text
  | .ok status =>
    if status.hasSucceeded then
      return
    else
      match ← (fetchPodLogs dep name).attempt with
      | .ok logs => throw logs
      | .error _ => throw "headscale configtest failed"

def runConfigtest (configYaml instanceName uid : String) : M Unit := do
  let name := testName instanceName uid
  match ← call (.createConfigMap
      (configtestConfigMap dep.operatorNamespace name instanceName configYaml)) with
  | .error e => throw ("failed to create validation ConfigMap: " ++ dep.displayKube e)
  | .ok () =>
    match ← call (.createJob
        (configtestJob dep.operatorNamespace dep.headscaleImage name instanceName)) with
    | .error e =>
      let _ ← call (.deleteConfigMap name)
      throw ("failed to create validation Job: " ++ dep.displayKube e)
    | .ok () =>
      let result ← (awaitConfigtest dep name).attempt
      let _ ← call (.deleteConfigMap name)
      let _ ← call (.deleteJob name)
      .ofExcept result

/-! ## Admission -/

/-- A request, as far as it is looked at. -/
structure AdmissionRequest where
  uid : String
  name : String
  /-- The spec of the object; a deletion has none. -/
  object : Option Spec

inductive Verdict
  | allowed
  | denied (message : String)
  deriving DecidableEq

def externalMessage : String :=
  "spec.external is mutually exclusive with spec.policy, spec.scim, and spec.extraConfig; the " ++
    "external headscale's configuration and policy are managed outside the operator"

def scimMessage : String :=
  "spec.policy.inline contains groups with members while spec.scim is set; SCIM owns the " ++
    "groups section — remove member entries from 'groups' in spec.policy.inline"

def validate (request : AdmissionRequest) : M Verdict :=
  match request.object with
  | none => return .allowed
  | some spec =>
    if spec.external.isSome then
      if spec.externalConflict then return .denied externalMessage else return .allowed
    else if spec.scimConflict then return .denied scimMessage
    else
      match checkReservedKeys spec.extraConfig with
      | .error message => return .denied message
      | .ok () =>
        match dep.toYaml (buildConfig spec.serverUrl spec.dnsBaseDomain spec.extraConfig) with
        | .error e => return .denied ("failed to generate config: " ++ e)
        | .ok configYaml => do
          match ← (runConfigtest dep configYaml request.name request.uid).attempt with
          | .ok () => return .allowed
          | .error message => return .denied message

/-! ## The cluster -/

structure Cluster where
  configMaps : String → Option Object := fun _ => none
  jobs : String → Option Job := fun _ => none

/-- How a request goes: whether it fails, possibly after it had its effect, how a wait ends that
    does not see the Job done, and the answers to everything that is not kept. -/
structure Fate where
  failure : Option Bool := none
  unseen : Unseen := .timeout
  pods : List (Option String) := []
  logs : String := ""

namespace Cluster

variable (w : Cluster)

def setConfigMap (name : String) (object : Option Object) : Cluster :=
  { w with configMaps := Function.update w.configMaps name object }

def setJob (name : String) (job : Option Job) : Cluster :=
  { w with jobs := Function.update w.jobs name job }

/-- The answer about a name that is there or not, and what becomes of the cluster. -/
def creates (taken : Bool) (w' : Cluster) : Except KubeError Unit × Cluster :=
  if taken then (.error .other, w) else (.ok (), w')

def deletes (found : Bool) (w' : Cluster) : Except KubeError Unit × Cluster :=
  if found then (.ok (), w') else (.error .notFound, w)

end Cluster

/-- A wait that sees a Job done, or none. -/
def Fate.sees (f : Fate) (job : Option Job) : Except Unseen JobStatus :=
  match f.failure, job with
  | none, some job => if job.status.isDone then .ok job.status else .error f.unseen
  | _, _ => .error f.unseen

def act (f : Fate) : (o : Op) → Cluster → o.Ans × Cluster
  | .createConfigMap object, w =>
    let created := w.creates (w.configMaps object.metadata.name).isSome
      (w.setConfigMap object.metadata.name (some object))
    serve .other f.failure w created.2 created.1
  | .createJob job, w =>
    let created := w.creates (w.jobs job.metadata.name).isSome
      (w.setJob job.metadata.name (some job))
    serve .other f.failure w created.2 created.1
  | .awaitDone name, w => (f.sees (w.jobs name), w)
  | .listPods _, w => serve .other f.failure w w (.ok f.pods)
  | .awaitTerminated _, w => ((), w)
  | .logs _ _, w => serve .other f.failure w w (.ok f.logs)
  | .deleteConfigMap name, w =>
    let deleted := w.deletes (w.configMaps name).isSome (w.setConfigMap name none)
    serve .other f.failure w deleted.2 deleted.1
  | .deleteJob name, w =>
    let deleted := w.deletes (w.jobs name).isSome (w.setJob name none)
    serve .other f.failure w deleted.2 deleted.1

/-- What happens on the cluster besides the requests. -/
inductive Change
  /-- The pod of a Job ends. -/
  | finish (name : String) (succeeds : Bool)
  /-- A Job is deleted. -/
  | expire (name : String)
  | others (g : Cluster → Cluster)

/-- Whether an image of headscale accepts a configuration. -/
abbrev Configtest := String → String → Bool

variable (accepts : Configtest)

/-- Whether the pod of a Job succeeds, as far as that is up to headscale. -/
def Job.passes (configMaps : String → Option Object) (job : Job) : Bool :=
  match job.spec.template.container.args with
  | ["--config", path, "configtest"] =>
    (job.spec.template.file? configMaps path).any (accepts job.spec.template.container.image)
  | _ => false

/-- A pod ends once, and a test does not succeed on a configuration that is not accepted. -/
def Job.finish (configMaps : String → Option Object) (succeeds : Bool) (job : Job) : Job :=
  if job.status.isDone then job
  else if succeeds then
    if job.passes accepts configMaps then { job with status := { succeeded := some 1 } } else job
  else { job with status := { failed := some 1 } }

def Change.apply : Change → Cluster → Cluster
  | finish name succeeds, w =>
    w.setJob name ((w.jobs name).map (Job.finish accepts w.configMaps succeeds))
  | expire name, w => w.setJob name none
  | others g, w => g w

def cluster : Machine sig Cluster Fate Change where
  act := act
  ready _ _ := true
  env := Change.apply accepts

/-- Requests at the same time. -/
def validations (requests : List AdmissionRequest) (w : Cluster) :
    Pool sig String Verdict Cluster :=
  { world := w, threads := requests.map (validate dep) }

/-! ## Names -/

/-- The uid of a request. -/
def IsUid (uid : String) : Prop :=
  uid.length = 36 ∧ Kubernetes.framed Kubernetes.isLowerAlnum Kubernetes.isLabelChar
    Kubernetes.isLowerAlnum uid.toList = true

theorem toList_testName (instanceName uid : String) : (testName instanceName uid).toList =
    "configtest-".toList ++ floorCharBoundary 15 instanceName.toList ++ '-' :: uid.toList := by
  have hshown : (String.ofList (floorCharBoundary 15 instanceName.toList)).toList =
    floorCharBoundary 15 instanceName.toList := String.toList_ofList
  rw [testName, String.toList_append, String.toList_append, String.toList_append, hshown,
    List.append_assoc _ _ uid.toList]
  rfl

/-- Requests do not share names, whatever their instances are called. -/
theorem testName_injective {name name' uid uid' : String} (hlength : uid.length = uid'.length)
    (h : testName name uid = testName name' uid') : uid = uid' := by
  have hlist := congrArg String.toList h
  rw [toList_testName, toList_testName] at hlist
  have htail := (List.append_inj' hlist (congrArg (· + 1) hlength)).2
  exact String.toList_injective (List.cons.inj htail).2

/-- The name of an instance that can have a Service makes a name that a Job can have. -/
theorem isDns1123Label_testName {name uid : String} (hname : Kubernetes.isDns1123Label name = true)
    (huid : IsUid uid) : Kubernetes.isDns1123Label (testName name uid) = true := by
  have hchars := Kubernetes.chars_of_isDns1123Label hname
  have htake : floorCharBoundary 15 name.toList = name.toList.take 15 :=
    Proxy.floorCharBoundary_eq_take (fun c hc => Kubernetes.utf8Size_of_isLabelChar (hchars c hc)) 15
  have hlength : (testName name uid).length ≤ 63 := by
    rw [← String.length_toList, toList_testName, htake, List.length_append, List.length_append,
      List.length_take, List.length_cons, uid.length_toList, huid.1]
    have hprefix : "configtest-".toList.length = 11 := rfl
    omega
  obtain ⟨-, hall, hlast⟩ := Kubernetes.framed_iff.1 huid.2
  rw [Kubernetes.isDns1123Label, Bool.and_eq_true]
  refine ⟨decide_eq_true hlength, ?_⟩
  rw [toList_testName, htake, List.append_assoc]
  refine Kubernetes.framed_append ⟨'c', rfl, by decide⟩ (fun c hc => ?_) ?_
  · rcases List.mem_append.1 hc with hc | hc
    · have hprefix : "configtest-".toList.all Kubernetes.isLabelChar = true := by decide
      exact List.all_eq_true.1 hprefix c hc
    rcases List.mem_append.1 hc with hc | hc
    · exact hchars c (List.mem_of_mem_take hc)
    · rcases List.mem_cons.1 hc with rfl | hc
      · decide
      · exact hall c hc
  · obtain ⟨c, hc, hlast⟩ := hlast
    refine ⟨c, ?_, hlast⟩
    rw [List.getLast?_append, List.getLast?_cons, Option.mem_def.1 hc]
    rfl

end Headmaster.Operator.Webhook
