import Headmaster.Process.Ends
import Headmaster.Operator.Proxy.Supplies

/-!
# What the pods of a proxy are granted

A proxy forwards in userspace, without any privilege, or in the kernel, for which
its container is given the TUN device in the way the operator is deployed with.
On the network of its host the device would be that of the node, so a pod never
has both. What a StatefulSet grants follows from the configuration of the object
that it is for (`ProxyStatefulSet.Suits`), in every execution
(`granted_of_applied`).
-/

namespace Headmaster.Operator.Proxy

open Process (Entry Machine Pool)
open Process.Prog (Ends Uses)

/-! ## Privileges -/

/-- What a pod is given: to each of its containers, to its volumes, and to its network. -/
structure PodGrant where
  securityContext : SecurityContext
  resourceLimits : List (String × String) := []
  volumes : List Volume := []
  volumeMounts : List Instance.VolumeMount := []
  sysctls : List Sysctl := []

/-- No privileges, and none to be gained. -/
def PodGrant.userspace : PodGrant where
  securityContext := restricted

/-- What comes with the TUN device. -/
def TunDeviceAccess.grant : TunDeviceAccess → PodGrant
  | .privileged => {
      securityContext := { privileged := some true }
      volumes := [.hostPath "dev-net-tun" "/dev/net/tun" "CharDevice"]
      volumeMounts := [{ mountPath := "/dev/net/tun", name := "dev-net-tun" }] }
  | .devicePlugin resource => {
      securityContext := {
        allowPrivilegeEscalation := some false
        drop := ["ALL"]
        add := ["NET_ADMIN"] }
      resourceLimits := [(resource, "1")]
      sysctls := [⟨"net.ipv4.ip_forward", "1"⟩, ⟨"net.ipv6.conf.all.forwarding", "1"⟩] }

/-- A container has what is given. It mounts nothing else but ConfigMaps. -/
structure PodContainer.Has (grant : PodGrant) (volumes : List Volume) (container : PodContainer) :
    Prop where
  securityContext : container.securityContext = grant.securityContext
  resourceLimits : container.resourceLimits = grant.resourceLimits
  volumeMounts : ∃ mounts, container.volumeMounts = mounts ++ grant.volumeMounts ∧
    ∀ mount ∈ mounts, ∃ configMap, .configMap mount.name configMap ∈ volumes

/-- A pod has what it is given, and no more: all other volumes are ConfigMaps. -/
structure PodSpec.Has (grant : PodGrant) (spec : PodSpec) : Prop where
  containers : ∀ container ∈ spec.containers, container.Has grant spec.volumes
  volumes : ∃ own, spec.volumes = own ++ grant.volumes ∧
    ∀ volume ∈ own, ∃ name configMap, volume = .configMap name configMap
  sysctls : spec.sysctls = grant.sysctls

/-- The containers of a pod cannot gain privileges, and see nothing of the host. -/
abbrev PodSpec.Confined (spec : PodSpec) : Prop := spec.Has .userspace

/-- Its tailscaled does without a network stack of its own. -/
def PodSpec.InKernel (spec : PodSpec) : Prop :=
  ∃ container ∈ spec.containers, .value "TS_USERSPACE" "false" ∈ container.env

/-- A pod is in the kernel with the device, for its only container, and on a network of its own, or
    it is confined. -/
inductive PodSpec.Granted (access : TunDeviceAccess) (spec : PodSpec) : Prop
  | confined (h : spec.Confined) (huser : ¬spec.InKernel)
  | device (hkernel : spec.InKernel) (hnetwork : spec.hostNetwork = false)
      (halone : spec.containers.length = 1) (h : spec.Has access.grant)

variable (dep : Deployment) (annotations : IngressAnnotations)

/-- What a StatefulSet is built from agrees with the configuration. -/
def ProxyStatefulSet.Suits : ProxyStatefulSet → Prop
  | serve _ _ _ networking tunDevice =>
    (networking = .host → usesHostNetwork annotations = true) ∧
      tunDevice = if annotations.mode = .tun then some dep.tunDevice else none
  | tun _ _ _ _ _ tunDevice => annotations.mode = .tun ∧ tunDevice = dep.tunDevice
  | egress .. => True

section Build

variable {dep annotations} {names : ProxyNames} {proxyImage headscaleUrl hostname : String}

/-- A container that is given the device has nothing but the device. -/
theorem PodContainer.has_grantTunDevice {container : PodContainer} {access : TunDeviceAccess}
    {volumes : List Volume} (hcontext : container.securityContext = {})
    (hlimits : container.resourceLimits = [])
    (hmounts : ∀ mount ∈ container.volumeMounts, ∃ configMap,
      .configMap mount.name configMap ∈ volumes) :
    (grantTunDevice container access).1.Has access.grant volumes where
  securityContext := by
    cases access <;> simp [grantTunDevice, TunDeviceAccess.grant, hcontext]
  resourceLimits := by
    cases access <;> simp [grantTunDevice, TunDeviceAccess.grant, hlimits]
  volumeMounts := by
    refine ⟨container.volumeMounts, ?_, hmounts⟩
    cases access <;> simp [grantTunDevice, TunDeviceAccess.grant]

/-- The rest of what comes with the device is for the pod. -/
theorem grantTunDevice_snd (container : PodContainer) (access : TunDeviceAccess) :
    (grantTunDevice container access).2 = (access.grant.volumes, access.grant.sysctls) := by
  cases access <;> rfl

/-- Without a device tailscaled is told to stay in userspace. -/
theorem userspace_serveEnv {networking : ProxyNetworking} :
    .value "TS_USERSPACE" "false" ∉ serveEnv names headscaleUrl hostname networking none := by
  cases networking <;>
    simp [serveEnv, pretendEndpoint, EnvVar.value, EnvVar.secretKeyRef, EnvVar.metadataName,
      EnvVar.metadataNamespace, EnvVar.statusHostIp]

theorem kernel_serveEnv {networking : ProxyNetworking} {access : TunDeviceAccess} :
    .value "TS_USERSPACE" "false" ∈
      serveEnv names headscaleUrl hostname networking (some access) := by
  simp [serveEnv]

/-- A proxy with a serve configuration mounts that configuration. -/
theorem configMap_of_serveMount {mount : Instance.VolumeMount} {volumes : List Volume}
    (h : mount ∈ ([{ mountPath := serveConfigMount, name := "serve-config", readOnly := true }] :
      List Instance.VolumeMount)) :
    ∃ configMap, .configMap mount.name configMap ∈
      .configMap "serve-config" names.serveConfigmapName :: volumes := by
  obtain rfl := List.mem_singleton.1 h
  exact ⟨_, List.mem_cons_self⟩

theorem confined_buildProxyStatefulset {networking : ProxyNetworking} :
    (buildProxyStatefulset names proxyImage headscaleUrl hostname networking none).podSpec.Confined ∧
      ¬(buildProxyStatefulset names proxyImage headscaleUrl hostname networking none).podSpec.InKernel
    := by
  constructor
  · refine { containers := fun container hc => ?_, volumes := ?_, sysctls := rfl }
    · obtain rfl := List.mem_singleton.1 hc
      exact ⟨rfl, rfl, _, (List.append_nil _).symm, fun _ => configMap_of_serveMount⟩
    · exact ⟨_, (List.append_nil _).symm, fun volume hv => ⟨_, _, List.mem_singleton.1 hv⟩⟩
  · rintro ⟨container, hc, hkernel⟩
    obtain rfl := List.mem_singleton.1 hc
    exact userspace_serveEnv hkernel

theorem confined_buildEgressStatefulset {socatImage tailnetFqdn : String}
    {forwards : List (Int × Int)} :
    (buildEgressStatefulset names proxyImage headscaleUrl hostname socatImage tailnetFqdn
      forwards).podSpec.Confined ∧
      ¬(buildEgressStatefulset names proxyImage headscaleUrl hostname socatImage tailnetFqdn
        forwards).podSpec.InKernel := by
  constructor
  · refine { containers := fun container hc => ?_, volumes := ⟨[], rfl, by simp⟩, sysctls := rfl }
    rcases List.mem_cons.1 hc with rfl | hc
    · exact ⟨rfl, rfl, [], rfl, by simp⟩
    · obtain rfl := List.mem_singleton.1 hc
      exact ⟨rfl, rfl, [], rfl, by simp⟩
  · rintro ⟨container, hc, hkernel⟩
    rcases List.mem_cons.1 hc with rfl | hc
    · simp [EnvVar.value, EnvVar.secretKeyRef, EnvVar.metadataName, EnvVar.metadataNamespace]
        at hkernel
    · obtain rfl := List.mem_singleton.1 hc
      cases hkernel

/-- With the device, a proxy is on a network of its own. -/
theorem device_buildProxyStatefulset {networking : ProxyNetworking} {access : TunDeviceAccess}
    (hnetwork : networking ≠ .host) :
    (buildProxyStatefulset names proxyImage headscaleUrl hostname networking
      (some access)).podSpec.Granted access := by
  refine .device ⟨_, List.mem_singleton_self _, ?_⟩ (beq_eq_false_iff_ne.2 hnetwork) rfl
    { containers := fun container hc => ?_, volumes := ?_, sysctls := ?_ }
  · change _ ∈ (grantTunDevice _ access).1.env
    rw [(grantTunDevice_extends _ access).1]
    exact kernel_serveEnv
  · obtain rfl := List.mem_singleton.1 hc
    exact PodContainer.has_grantTunDevice rfl rfl fun _ => configMap_of_serveMount
  · refine ⟨[.configMap "serve-config" names.serveConfigmapName], ?_,
      fun volume hv => ⟨_, _, List.mem_singleton.1 hv⟩⟩
    change _ :: (grantTunDevice _ access).2.1 = _
    rw [grantTunDevice_snd]
    rfl
  · change (grantTunDevice _ access).2.2 = _
    rw [grantTunDevice_snd]

theorem device_buildTunStatefulset {destIp : String} {nodePort : Int} {access : TunDeviceAccess} :
    (buildTunStatefulset names proxyImage headscaleUrl hostname destIp nodePort
      access).podSpec.Granted access := by
  refine .device ⟨_, List.mem_singleton_self _, ?_⟩ rfl rfl
    { containers := fun container hc => ?_, volumes := ⟨[], ?_, by simp⟩, sysctls := ?_ }
  · change _ ∈ (grantTunDevice _ access).1.env
    rw [(grantTunDevice_extends _ access).1]
    simp [tunEnv]
  · obtain rfl := List.mem_singleton.1 hc
    exact PodContainer.has_grantTunDevice rfl rfl (by simp)
  · change (grantTunDevice _ access).2.1 = _
    rw [grantTunDevice_snd]
    rfl
  · change (grantTunDevice _ access).2.2 = _
    rw [grantTunDevice_snd]

/-- What the configuration says is what the pod is granted. -/
theorem granted_of_suits {spec : ProxyStatefulSet} (h : spec.Suits dep annotations) :
    (spec.build names).podSpec.Granted dep.tunDevice ∧
      ((spec.build names).podSpec.hostNetwork = true → usesHostNetwork annotations = true) ∧
      ((spec.build names).podSpec.InKernel → annotations.mode = .tun) := by
  cases spec with
  | serve proxyImage headscaleUrl hostname networking tunDevice =>
    obtain ⟨hhost, rfl⟩ := h
    refine ⟨?_, fun hnetwork => hhost (beq_iff_eq.1 hnetwork), fun hkernel => ?_⟩
    · split
      · rename_i hmode
        refine device_buildProxyStatefulset fun hnetwork => ?_
        have huses := hhost hnetwork
        rw [usesHostNetwork, hmode] at huses
        simp at huses
      · exact .confined confined_buildProxyStatefulset.1 confined_buildProxyStatefulset.2
    · by_contra hmode
      rw [if_neg hmode] at hkernel
      exact confined_buildProxyStatefulset.2 hkernel
  | tun proxyImage headscaleUrl hostname destIp nodePort tunDevice =>
    obtain ⟨hmode, rfl⟩ := h
    refine ⟨device_buildTunStatefulset, fun hnetwork => ?_, fun _ => hmode⟩
    cases hnetwork
  | egress proxyImage socatImage headscaleUrl hostname tailnetFqdn forwards consumers =>
    have hconfined := @confined_buildEgressStatefulset names proxyImage headscaleUrl hostname
      socatImage tailnetFqdn forwards
    refine ⟨.confined hconfined.1 hconfined.2, fun hnetwork => ?_,
      fun hkernel => absurd hkernel hconfined.2⟩
    cases hnetwork

end Build

/-! ## What a reconcile applies -/

/-- A StatefulSet that is applied agrees with the configuration of the object. -/
def Suited (read : Reader) (dep : Deployment) (t : Turn) : Op → Prop
  | .apply _ (.statefulSet _ spec) => ∃ annotations,
    IngressAnnotations.parse read t.metadata = .ok annotations ∧ spec.Suits dep annotations
  | _ => True

section Uses

variable {read : Reader} {digest : Digest} {dep : Deployment} {t : Turn} {α : Type}
  {annotations : IngressAnnotations} {inst : Instance} {names : ProxyNames} {child : ChildApplier}

theorem suited_of_uses {p : M α} (hp : p.Uses (Within (· ≠ .statefulSet))) :
    p.Uses (Suited read dep t) := by
  refine hp.mono fun o ho => ?_
  cases o with
  | apply child resource =>
    cases resource with
    | statefulSet name spec => exact absurd rfl (ho .statefulSet rfl)
    | _ => trivial
  | _ => trivial

theorem suited_apply {name : String} {spec : ProxyStatefulSet}
    (hparse : IngressAnnotations.parse read t.metadata = .ok annotations)
    (hsuits : spec.Suits dep annotations) :
    (apply child (.statefulSet name spec)).Uses (Suited read dep t) :=
  .bind (Process.Prog.uses_op ⟨annotations, hparse, hsuits⟩) fun _ => trivial

/-- A proxy is on the network of its host only when that was asked for. -/
theorem ends_applyWireguardService {hostNetwork : Bool} :
    (applyWireguardService child names hostNetwork).Ends fun r =>
      ∀ networking, r = .ok networking → networking = .host → hostNetwork = true := by
  have hany {β : Type} (p : M β) : p.Ends fun _ => True :=
    Process.Prog.ends_of_forall (fun _ => trivial) p
  refine (hany _).bind (fun _ _ => ?_) fun e _ networking h => by cases h
  split
  · exact (hany _).bind (fun _ _ networking _ _ => ‹_›) fun e _ networking h => by cases h
  · refine (hany _).bind (fun _ _ => ?_) fun e _ networking h => by cases h
    refine (hany _).bind (fun _ _ => ?_) fun e _ networking h => by cases h
    refine (hany _).bind (fun svc _ => ?_) fun e _ networking h => by cases h
    split
    · intro networking h hhost
      cases h
      cases hhost
    · intro networking h
      cases h

theorem ends_hostNetworkOf {parent : ObjectReference} :
    (hostNetworkOf parent annotations).Ends fun r =>
      ∀ hostNetwork, r = .ok hostNetwork → hostNetwork = usesHostNetwork annotations := by
  rw [hostNetworkOf]
  split
  · rename_i htun
    refine Ends.bind (Process.Prog.ends_of_forall (fun _ => trivial) _) (fun _ (_ : True) => ?_)
      fun e _ hostNetwork h => by cases h
    intro hostNetwork h
    obtain rfl := Except.ok.inj h
    simp [usesHostNetwork, htun.1]
  · rename_i htun
    intro hostNetwork h
    obtain rfl := Except.ok.inj h
    cases hhost : annotations.hostNetwork with
    | false => simp [usesHostNetwork, hhost]
    | true => simpa [usesHostNetwork, hhost] using htun

/-! ### Services -/

namespace PortedService

variable {svc : PortedService}

theorem suited_provisionEgress (hparse : IngressAnnotations.parse read svc.metadata = .ok annotations)
    {tailnetFqdn : String} {forwards : List (Int × Int)} :
    (svc.provisionEgress read digest dep annotations tailnetFqdn forwards inst).Uses
      (Suited read dep (.service svc)) := by
  refine .bind (suited_of_uses (.mapError (within_headscaleConnect _ _))) fun headscale => ?_
  refine .bind (suited_of_uses (within_resetIfRetargeted nofun nofun)) fun _ => ?_
  refine .bind (suited_of_uses (within_rotateStaleAuthKey nofun nofun)) fun _ => ?_
  refine .bind (suited_of_uses (within_ensureAuthKey nofun nofun)) fun status => ?_
  cases status with
  | waitingForUser => trivial
  | ready =>
    refine .bind (suited_of_uses (within_ensureStateSecret nofun)) fun stateSecret => ?_
    refine .bind (suited_of_uses (within_apply rfl nofun)) fun _ => ?_
    refine .bind (suited_of_uses within_applyProxyRbac) fun _ => ?_
    refine .bind (suited_apply (t := .service svc) hparse trivial) fun _ => suited_of_uses ?_
    refine .bind (within_applyConsumerPolicy nofun) fun _ => .bind (within_claim nofun) fun _ => ?_
    refine .bind (within_syncTags nofun) fun tagged => .bind within_report fun _ => ?_
    exact .bind (within_syncEgressDns nofun) fun _ => within_pure _

theorem suited_applyExposeProxy (hparse : IngressAnnotations.parse read svc.metadata = .ok annotations)
    {ports : List Int} {clusterIp : Option String} {networking : ProxyNetworking}
    (hnetworking : networking = .host → usesHostNetwork annotations = true) :
    (svc.applyExposeProxy digest dep annotations ports clusterIp inst child networking).Uses
      (Suited read dep (.service svc)) := by
  rw [applyExposeProxy.eq_def]
  dsimp only
  split
  · rename_i hmode
    refine .bind (suited_of_uses (within_apply rfl (by decide))) fun _ => ?_
    refine suited_apply (t := .service svc) hparse ⟨hnetworking, ?_⟩
    rw [hmode]
    rfl
  · rename_i hmode
    split
    · trivial
    · trivial
    · exact .bind (suited_apply (t := .service svc) hparse ⟨hmode, rfl⟩) fun _ =>
        suited_of_uses (within_deleteIgnoring404 rfl (by decide))

theorem suited_provisionExpose (hparse : IngressAnnotations.parse read svc.metadata = .ok annotations)
    {ports : List Int} {clusterIp : Option String} :
    (svc.provisionExpose read digest dep annotations (usesHostNetwork annotations) ports clusterIp
      inst).Uses (Suited read dep (.service svc)) := by
  refine .bind (suited_of_uses (.mapError (within_headscaleConnect _ _))) fun headscale => ?_
  refine .bind (suited_of_uses (within_resetIfRetargeted nofun nofun)) fun _ => ?_
  refine .bind (suited_of_uses (within_rotateStaleAuthKey nofun nofun)) fun _ => ?_
  refine .bind (suited_of_uses (within_ensureAuthKey nofun nofun)) fun status => ?_
  cases status with
  | waitingForUser => trivial
  | ready =>
    refine .bind (suited_of_uses (within_ensureStateSecret nofun)) fun stateSecret => ?_
    refine Uses.bind_ends (suited_of_uses (within_applyWireguardService nofun))
      ends_applyWireguardService fun networking hnetworking => ?_
    refine .bind (suited_of_uses within_applyProxyRbac) fun _ => ?_
    refine .bind (suited_applyExposeProxy hparse (hnetworking networking rfl)) fun _ =>
      suited_of_uses ?_
    refine .bind (within_deleteIgnoring404 rfl nofun) fun _ => .bind (within_claim nofun) fun _ => ?_
    exact .bind (within_syncTags nofun) fun tagged => .bind within_report fun _ => within_pure _

end PortedService

theorem suited_leaving {p : M Unit} (h : Leaving read digest dep t p) :
    p.Uses (Suited read dep t) :=
  suited_of_uses (h.within nofun nofun nofun nofun nofun)

theorem suited_service {svc : PortedService} :
    (svc.reconcile read digest dep).Uses (Suited read dep (.service svc)) := by
  -- What exposes a Service is on the network that its configuration says, as the walk has it.
  have hwalk : Walk read digest dep (.service svc) (fun p => p.Uses (Suited read dep (.service svc)))
      (fun p => p.Uses (Suited read dep (.service svc))) := {
    quiet := fun hp => suited_of_uses hp.within
    last := fun hp => hp
    bind := Uses.bind
    andThen := fun hp hf => hp.bind fun a => suited_of_uses (hf a).within
    leave := fun hp _ => suited_leaving hp
    leaveInSync := fun hp _ hq hr => (suited_leaving hp).bind fun _ => suited_of_uses
      (.bind hq.within fun _ => .bind (within_syncEgressDns nofun) fun _ => hr.within)
    ingress := fun ht => by cases ht
    egress := fun ht _ _ hparse => by
      cases ht
      exact PortedService.suited_provisionEgress hparse
    expose := fun ht _ _ hparse => by
      cases ht
      exact PortedService.suited_provisionExpose hparse }
  exact hwalk.reconcile

/-! ### Ingresses -/

namespace RoutedIngress

variable {ing : RoutedIngress}

theorem suited_provision (hparse : IngressAnnotations.parse read ing.metadata = .ok annotations)
    {routes : List ProxyRoute} :
    (ing.provision read digest dep annotations inst (usesHostNetwork annotations) routes).Uses
      (Suited read dep (.ingress ing)) := by
  refine .bind (suited_of_uses (.mapError (within_headscaleConnect _ _))) fun headscale => ?_
  refine Uses.bind_ends (suited_of_uses (within_applyWireguardService nofun))
    ends_applyWireguardService fun networking hnetworking => ?_
  refine .bind (suited_of_uses (within_resetIfRetargeted nofun nofun)) fun _ => ?_
  refine .bind (suited_of_uses (within_rotateStaleAuthKey nofun nofun)) fun _ => ?_
  refine .bind (suited_of_uses (within_ensureAuthKey nofun nofun)) fun status => ?_
  cases status with
  | waitingForUser => trivial
  | ready =>
    refine .bind (suited_of_uses (within_ensureStateSecret nofun)) fun stateSecret => ?_
    refine .bind (suited_of_uses (within_apply rfl nofun)) fun _ => ?_
    refine .bind (suited_of_uses within_applyProxyRbac) fun _ => ?_
    refine .bind (suited_apply (t := .ingress ing) hparse ⟨hnetworking networking rfl, rfl⟩)
      fun _ => suited_of_uses ?_
    exact .bind (within_syncTags nofun) fun tagged => .bind within_report fun _ =>
      .bind (within_claim nofun) fun _ => within_pure _

theorem suited_applyReady (hparse : IngressAnnotations.parse read ing.metadata = .ok annotations) :
    (ing.applyReady read digest dep annotations inst (usesHostNetwork annotations)).Uses
      (Suited read dep (.ingress ing)) := by
  rw [applyReady]
  split
  · exact suited_of_uses (.bind within_publishWarning fun _ => within_pure _)
  · refine .bind (suited_of_uses within_collectIngressRoutes) fun routes => ?_
    split
    · refine .bind (suited_of_uses within_publishWarning) fun _ => ?_
      exact .bind (suited_leaving (Walk.leaving_configured (t := .ingress ing) hparse)) fun _ => trivial
    · exact suited_of_uses (.bind within_publishWarning fun _ => within_pure _)
    · exact suited_provision hparse

/-- Which network the proxy is on is settled before anything is provisioned. -/
theorem suited_applyConfigured
    (hparse : IngressAnnotations.parse read ing.metadata = .ok annotations) :
    (ing.applyConfigured read digest dep annotations).Uses (Suited read dep (.ingress ing)) := by
  rw [applyConfigured]
  split
  · exact suited_of_uses (.bind within_publishWarning fun _ => within_pure _)
  · refine Uses.bind_ends (suited_of_uses within_hostNetworkOf) ends_hostNetworkOf
      fun hostNetwork hhost => ?_
    obtain rfl := hhost hostNetwork rfl
    refine .bind (suited_of_uses (within_namespaceIsDeleting _)) fun deleting => ?_
    split
    · trivial
    · refine .bind (suited_of_uses within_instanceFor) fun inst => ?_
      cases inst with
      | none => trivial
      | some inst =>
        dsimp only
        split
        · refine .bind (suited_of_uses within_publishWarning) fun _ => ?_
          refine .bind (suited_leaving (Walk.leaving_configured (t := .ingress ing) hparse)) fun _ => ?_
          exact suited_of_uses (.bind within_release fun _ => within_pure _)
        · split
          · exact suited_of_uses (.bind within_publishWarning fun _ => within_pure _)
          · exact suited_applyReady hparse

theorem suited_apply (hlive : ing.metadata.deleting = false) :
    (ing.apply read digest dep).Uses (Suited read dep (.ingress ing)) := by
  rw [apply]
  split
  · rename_i hreleased
    -- An Ingress that is not the operator's any more is taken down.
    have hreleased : (Turn.ingress ing).released read dep = true := by
      rw [Turn.released, Turn.metadata, hlive, Bool.not_false, Bool.true_and, Bool.or_comm]
      exact hreleased
    exact .bind (suited_leaving (Walk.leaving_takeDown hreleased)) fun _ =>
      suited_of_uses (.bind within_release fun _ => within_pure _)
  · split
    · trivial
    · exact suited_applyConfigured ‹_›

end RoutedIngress

theorem suited_ingress {ing : RoutedIngress} :
    (ing.reconcile read digest dep).Uses (Suited read dep (.ingress ing)) := by
  rw [RoutedIngress.reconcile, reconcileObject.eq_def]
  dsimp only
  split
  · trivial
  · split
    · trivial
    · split
      · trivial
      · refine .bind ?_ fun adopted => ?_
        · split
          · trivial
          · exact suited_of_uses within_mayAdopt
        · split
          · rw [withFinalizer]
            split
            · exact RoutedIngress.suited_apply ‹_›
            · refine .bind (.bind (suited_leaving (Walk.leaving_cleanupObject (t := .ingress ing)))
                fun _ => trivial) fun _ => ?_
              exact suited_of_uses (.bind (within_patchParent rfl) fun _ => within_pure _)
            · exact suited_of_uses (.bind (within_patchParent rfl) fun _ => within_pure _)
            · trivial
          · trivial

theorem suited_reconcile (t : Turn) : (t.reconcile read digest dep).Uses (Suited read dep t) := by
  cases t with
  | ingress ing => exact suited_ingress
  | service svc => exact suited_service

end Uses

/-! ## Executions -/

variable {read : Reader} {digest : Digest} {dep : Deployment} {turns : List Turn} {w : Cluster}
  {events : List (Process.Event Fate (Cluster → Cluster))} {s : Pool sig Error Action Cluster}

/-- What the pods are granted of a StatefulSet that a reconcile applies follows from the
    configuration of its object: the TUN device only in the kernel and on a network of their own,
    and the network of the host only where it is asked for and there is no device. -/
theorem granted_of_applied
    (hexec : cluster.exec (reconciles read digest dep turns w) events = some s)
    {e : Entry sig Cluster} (he : e ∈ s.history) {t : Turn} (ht : turns[e.thread]? = some t)
    {child : ChildApplier} {name : String} {spec : ProxyStatefulSet}
    (hop : e.op = .apply child (.statefulSet name spec)) :
    ∃ annotations, IngressAnnotations.parse read t.metadata = .ok annotations ∧
      let pod := (spec.build (t.names digest)).podSpec
      pod.Granted dep.tunDevice ∧
        (pod.hostNetwork = true → annotations.hostNetwork = true ∧ pod.Confined) ∧
        (pod.InKernel → annotations.mode = .tun) := by
  have hsuited := calls_of_uses suited_reconcile hexec he ht
  rw [hop] at hsuited
  obtain ⟨annotations, hparse, hsuits⟩ := hsuited
  obtain ⟨hgranted, hhost, hkernel⟩ := @granted_of_suits dep annotations (t.names digest) spec hsuits
  refine ⟨annotations, hparse, hgranted, fun hnetwork => ⟨?_, ?_⟩, hkernel⟩
  · -- That network is used only where it is asked for, and not in the kernel.
    exact (Bool.and_eq_true_iff.1 (hhost hnetwork)).1
  · cases hgranted with
    | confined h _ => exact h
    | device _ hown =>
      rw [hnetwork] at hown
      cases hown

namespace Kernel

/-! ### A Service in the kernel -/

/-- Both are asked for. -/
def config : String :=
  "\x7b\"headscale-ref\":\"main\",\"managed-key-tags\":[\"tag:db\"],\"mode\":\"tun\"," ++
    "\"host-network\":true\x7d"

def reader : Reader := fun s =>
  if s = config then
    some (.object [("headscale-ref", .string "main"), ("managed-key-tags", .array [.string "tag:db"]),
      ("mode", .string "tun"), ("host-network", .bool true)])
  else none

/-- The device is from a plugin. -/
def plugged : Deployment := { Orphans.deployment with tunDevice := .devicePlugin "squat.ai/tun" }

/-- The request applies a StatefulSet whose pods are in the kernel. -/
def appliesInKernel (names : ProxyNames) : Op → Bool
  | .apply _ (.statefulSet _ spec) => (spec.build names).podSpec.containers.any fun container =>
      container.env.contains (.value "TS_USERSPACE" "false")
  | _ => false

theorem inKernel_of_applies {names : ProxyNames} {o : Op} (h : appliesInKernel names o = true) :
    ∃ child name spec, o = .apply child (.statefulSet name spec) ∧
      (spec.build names).podSpec.InKernel := by
  unfold appliesInKernel at h
  split at h
  · obtain ⟨container, hc, henv⟩ := List.any_eq_true.1 h
    exact ⟨_, _, _, rfl, container, hc, List.contains_iff_mem.1 henv⟩
  · cases h

end Kernel

open Orphans (sha256) in
open Kernel (config reader plugged) in
/-- A Service that asks for the kernel and for the network of the host gets the device, and a network
    of its own. -/
theorem granted_of_applied_kernel : ∃ (s : Pool sig Error Action Cluster) (e : Entry sig Cluster)
    (child : ChildApplier) (name : String) (spec : ProxyStatefulSet),
    cluster.exec (reconciles reader sha256 plugged [.service (Shop.internal config)] Shop.fresh)
      (Shop.succeeds 0 22) = some s ∧
    e ∈ s.history ∧ e.op = .apply child (.statefulSet name spec) ∧
    let pod := (spec.build ((Shop.internal config).names sha256)).podSpec
    pod.hostNetwork = false ∧ pod.Has (TunDeviceAccess.grant (.devicePlugin "squat.ai/tun")) := by
  have hrun : (cluster.exec (reconciles reader sha256 plugged
      [.service (Shop.internal config)] Shop.fresh) (Shop.succeeds 0 22)).any (fun s =>
        s.history.any fun e => e.thread == 0 &&
          Kernel.appliesInKernel ((Shop.internal config).names sha256) e.op) = true := by
    decide +kernel
  obtain ⟨s, hs, hcheck⟩ := Option.any_eq_true _ _ |>.1 hrun
  obtain ⟨e, he, happlies⟩ := List.any_eq_true.1 hcheck
  obtain ⟨hthread, happlies⟩ := Bool.and_eq_true_iff.1 happlies
  obtain ⟨child, name, spec, hop, hkernel⟩ := Kernel.inKernel_of_applies happlies
  have ht : [Turn.service (Shop.internal config)][e.thread]? =
      some (.service (Shop.internal config)) := by
    rw [beq_iff_eq.1 hthread]
    rfl
  obtain ⟨annotations, -, hgranted, -⟩ := granted_of_applied hs he ht hop
  cases hgranted with
  | confined _ huser => exact absurd hkernel huser
  | device _ hnetwork _ h => exact ⟨s, e, child, name, spec, hs, he, hop, hnetwork, h⟩

end Headmaster.Operator.Proxy
