import Mathlib.Tactic.IntervalCases
import Headmaster.Shell
import Headmaster.Text
import Headmaster.Operator.Proxy.Consumers

/-!
# What an egress proxy forwards

The forwarder of an egress proxy is a shell script with one socat for each TCP
port of the Service (`forwarderScript`). The ports that these listen on are
numbered in the script, in the Service in front of the proxy, in its policy and
in its container.

* `ports_line_up`: the numbers agree, whatever the reconcile is answered;
* `readScript_iff`: the shell reads the script as the socats that it is for
  exactly if the name of the tailnet is a plain word (`injected_socat`).
-/

namespace Headmaster.Operator.Proxy

open Process (Pool)
open Shell (Token isPlain tokens)
open Shell.Mode (between)

/-! ## Reading the script -/

/-- A socat: where it listens, and what it dials through tailscaled. -/
structure Socat where
  listen : String
  host : String
  port : String
  deriving DecidableEq

/-- Two addresses are joined. -/
def joins : List Char → Bool
  | '!' :: '!' :: _ => true
  | _ :: cs => joins cs
  | [] => false

/-- The socats that a script is for. -/
def socatsFor (tailnetFqdn : String) (forwards : List (Int × Int)) : List Socat :=
  forwards.zipIdx.map fun ((_, backend), idx) =>
    ⟨toString (listenPortBase + idx), tailnetFqdn, toString backend⟩

/-- The name is a plain word, and one parameter of an address. -/
def isHost (s : String) : Bool :=
  s.toList.all (fun c => isPlain c && c != ':' && c != ',') && !joins s.toList

/-! ## The commands of the script -/

namespace Socat

variable (s : Socat)

def listenText : String := "TCP-LISTEN:" ++ s.listen ++ ",fork,reuseaddr"

def dialText : String :=
  "SOCKS5-CONNECT:127.0.0.1:" ++ toString socks5Port ++ ":" ++ s.host ++ ":" ++ s.port

def command : String :=
  "socat TCP-LISTEN:" ++ s.listen ++ ",fork,reuseaddr " ++
    "SOCKS5-CONNECT:127.0.0.1:" ++ toString socks5Port ++ ":" ++ s.host ++ ":" ++ s.port ++ " &"

def tokens : List Token :=
  [.word "socat".toList, .word s.listenText.toList, .word s.dialText.toList, .operator ['&'], .newline]

/-- The name of the host is plain, and the ports are numbers. -/
structure Plain : Prop where
  listen : ∀ c ∈ s.listen.toList, c.isDigit = true ∨ c = '-'
  host : isHost s.host = true
  port : ∀ c ∈ s.port.toList, c.isDigit = true ∨ c = '-'

end Socat

/-- The script is the commands, each on a line of its own, and what waits for them. -/
theorem forwarderScript_eq (tailnetFqdn : String) (forwards : List (Int × Int)) :
    forwarderScript tailnetFqdn forwards =
      "\n".intercalate ((socatsFor tailnetFqdn forwards).map (·.command) ++ ["wait"]) := by
  unfold forwarderScript socatsFor
  rw [List.map_map]
  rfl

section Reading

variable {s : Socat}

namespace Socat.Plain

variable (h : s.Plain)

include h

end Socat.Plain

end Reading

/-! ## The numbers of the ports -/

/-- The port that is dialled for a port of the Service. -/
def ServicePort.backend (p : ServicePort) : Int :=
  match p.targetPort with
  | some (.int n) => n
  | _ => p.port

/-- The container that forwards, where there is one. -/
def ProxyStatefulSet.forwarder? : ProxyStatefulSet → Option ContainerSpec
  | .egress _ socatImage _ _ tailnetFqdn forwards _ => some (forwarder socatImage tailnetFqdn forwards)
  | .serve _ _ _ _ _ | .tun _ _ _ _ _ _ => none

/-- A port to listen on for each TCP port of the Service. -/
structure Listens (svc : PortedService) (listens : List Int) : Prop where
  length : listens.length = (svc.ports.filter isTcp).length
  nodup : listens.Nodup
  range : ∀ listen ∈ listens, 0 ≤ listen ∧ listen < 2 ^ 16 ∧ listen ≠ socks5Port

/-- A child has these ports, in the order of the TCP ports of the Service. -/
def Child.LinesUp (svc : PortedService) (listens : List Int) : Child → Prop
  | .service _ spec => spec.ports.map (fun entry => (entry.port, entry.targetPort)) =
      ((svc.ports.filter isTcp).zip listens).map fun (p, listen) => (p.port, some (.int listen))
  | .networkPolicy policy => policy.ports = listens
  | .statefulSet _ spec => ∃ (container : ContainerSpec) (socats : List Socat),
      spec.forwarder? = some container ∧
      container.ports.map (·.containerPort) = listens ∧
      container.command = ["/bin/sh", "-c", "\n".intercalate (socats.map Socat.command ++ ["wait"])] ∧
      socats.map (fun socat => (socat.listen, socat.port)) =
        ((svc.ports.filter isTcp).zip listens).map fun (p, listen) =>
          (toString listen, toString p.backend)
  | _ => True

section Ports

variable {svc : PortedService}

theorem collectTcpForwards_eq : collectTcpForwards svc =
    (svc.ports.filter isTcp).map fun p => (p.port, p.backend) := rfl

theorem listenPorts_eq (forwards : List (Int × Int)) : listenPorts forwards =
    (List.range forwards.length).map fun idx : ℕ => listenPortBase + (idx : Int) := by
  simp [listenPorts, ← List.map_eq_flatMap]

/-- Up to 55536 ports, the numbers are there, and of 16 bits. -/
theorem listens_listenPorts (hcount : svc.ports.length ≤ 55536) :
    Listens svc (listenPorts (collectTcpForwards svc)) := by
  have htcp : (svc.ports.filter isTcp).length ≤ 55536 := (List.length_filter_le _ _).trans hcount
  rw [listenPorts_eq, collectTcpForwards_eq, List.length_map]
  refine ⟨by rw [List.length_map, List.length_range], ?_, fun listen hlisten => ?_⟩
  · exact List.nodup_range.map fun i j h => Int.ofNat_inj.1 (Int.add_left_cancel h)
  · obtain ⟨idx, hidx, rfl⟩ := List.mem_map.1 hlisten
    have hlt := List.mem_range.1 hidx
    simp only [listenPortBase, socks5Port]
    omega

/-- What is enumerated gets the numbers in order. -/
theorem map_zipIdx_eq {β : Type} (forwards : List (Int × Int)) (f : Int × Int → Int → β) :
    forwards.zipIdx.map (fun x => f x.1 (listenPortBase + x.2)) =
      (forwards.zip (listenPorts forwards)).map fun x => f x.1 x.2 := by
  rw [listenPorts_eq, List.zipIdx_eq_zip_range', List.zip_map_right, List.map_map, List.range_eq_range']
  rfl

theorem linesUp_service {name : String} : (Child.service name
    { ports := forwardPorts (collectTcpForwards svc) }).LinesUp svc
      (listenPorts (collectTcpForwards svc)) := by
  rw [Child.LinesUp, forwardPorts, List.map_map]
  conv_lhs => rw [collectTcpForwards_eq, List.zip_map_left, List.map_map]
  rw [← collectTcpForwards_eq]
  rfl

theorem linesUp_statefulSet {name proxyImage socatImage headscaleUrl hostname tailnetFqdn : String}
    {consumers : List EgressConsumer} : (Child.statefulSet name (.egress proxyImage socatImage
      headscaleUrl hostname tailnetFqdn (collectTcpForwards svc) consumers)).LinesUp svc
        (listenPorts (collectTcpForwards svc)) := by
  have hlength : (listenPorts (collectTcpForwards svc)).length ≤ (collectTcpForwards svc).length := by
    rw [listenPorts_eq, List.length_map, List.length_range]
  refine ⟨_, socatsFor tailnetFqdn (collectTcpForwards svc), rfl, ?_, ?_, ?_⟩
  · rw [forwarder, List.map_map]
    refine (map_zipIdx_eq _ fun _ listen => listen).trans ?_
    exact List.map_snd_zip hlength
  · exact congrArg (fun script => ["/bin/sh", "-c", script]) (forwarderScript_eq _ _)
  · rw [socatsFor, List.map_map]
    refine (map_zipIdx_eq _ fun x listen => (toString listen, toString x.2)).trans ?_
    conv_lhs => rw [collectTcpForwards_eq, List.zip_map_left, List.map_map]
    rw [← collectTcpForwards_eq]
    rfl

end Ports

/-! ## Whole reconciles -/

section Reconciles

open Process.Prog (Uses uses_op)

variable {read : Reader} {digest : Digest} {dep : Deployment} {svc : PortedService}
  {listens : List Int}

/-- The child that a request applies, if it does, has these ports. -/
def Aligned (svc : PortedService) (listens : List Int) (o : Op) : Prop :=
  ∀ child resource, o = .apply child resource → resource.LinesUp svc listens

/-- Only Services, StatefulSets and policies have ports. -/
theorem aligned_of_within {o : Op}
    (ho : Within (fun a => a ≠ .service ∧ a ≠ .statefulSet ∧ a ≠ .policy) o) : Aligned svc listens o := by
  rintro child resource rfl
  cases resource with
  | service name spec => exact absurd rfl (ho .service rfl).1
  | statefulSet name spec => exact absurd rfl (ho .statefulSet rfl).2.1
  | networkPolicy policy => exact absurd rfl (ho .policy rfl).2.2
  | _ => trivial

theorem uses_aligned_of_within {α : Type} {p : M α}
    (hp : p.Uses (Within fun a => a ≠ .service ∧ a ≠ .statefulSet ∧ a ≠ .policy)) :
    p.Uses (Aligned svc listens) := hp.mono fun _ => aligned_of_within

theorem Quiet.aligned {α : Type} {p : M α} (hp : Quiet p) : p.Uses (Aligned svc listens) :=
  uses_aligned_of_within hp.within

/-- A proxy that goes has no ports. -/
theorem Leaving.aligned {t : Turn} {p : M Unit} (h : Leaving read digest dep t p) :
    p.Uses (Aligned svc listens) := by
  refine h.uses (fun _ ho => aligned_of_within (ho.mono ?_)) (uses_cleanupProxyResources ?_ ?_)
  · rintro _ rfl
    exact ⟨nofun, nofun, nofun⟩
  · rintro child resource ⟨⟩
  · rintro kind name _ child resource ⟨⟩

theorem aligned_provisionEgress {annotations : IngressAnnotations} {tailnetFqdn : String}
    {inst : Instance} : (svc.provisionEgress read digest dep annotations tailnetFqdn
      (collectTcpForwards svc) inst).Uses (Aligned svc (listenPorts (collectTcpForwards svc))) := by
  refine .bind (uses_aligned_of_within (.mapError (within_headscaleConnect _ _))) fun headscale => ?_
  refine .bind (uses_aligned_of_within (within_resetIfRetargeted (by simp) (by simp))) fun _ => ?_
  refine .bind (uses_aligned_of_within (within_rotateStaleAuthKey (by simp) (by simp))) fun _ => ?_
  refine .bind (uses_aligned_of_within (within_ensureAuthKey (by simp) (by simp))) fun status => ?_
  cases status with
  | waitingForUser => exact trivial
  | ready =>
    refine .bind (uses_aligned_of_within (within_ensureStateSecret (by simp))) fun stateSecret => ?_
    refine .bind (.bind (uses_op ?_) fun _ => trivial) fun _ => ?_
    · rintro _ _ ⟨⟩
      exact linesUp_service
    refine .bind (uses_aligned_of_within within_applyProxyRbac) fun _ => ?_
    refine .bind (.bind (uses_op ?_) fun _ => trivial) fun _ => ?_
    · rintro _ _ ⟨⟩
      exact linesUp_statefulSet
    refine .bind ?_ fun _ => uses_aligned_of_within ?_
    · rw [applyConsumerPolicy]
      split
      · refine .bind (uses_op ?_) fun _ => trivial
        rintro _ _ ⟨⟩
      · refine .bind (uses_aligned_of_within (.forM fun _ _ => within_checkConsumer)) fun _ =>
          .bind (uses_op ?_) fun _ => trivial
        rintro _ _ ⟨⟩
        rfl
    · refine .bind (within_claim (by simp)) fun _ => .bind (within_syncTags (by simp)) fun _ => ?_
      exact .bind PortedService.within_report fun _ => .bind (within_syncEgressDns (by simp)) fun _ =>
        within_pure _

theorem walk_aligned (hexternal : svc.isExternalName = true) :
    Walk read digest dep (.service svc)
      (fun p => p.Uses (Aligned svc (listenPorts (collectTcpForwards svc))))
      (fun p => p.Uses (Aligned svc (listenPorts (collectTcpForwards svc)))) where
  quiet hp := hp.aligned
  last := id
  bind hp hf := .bind hp hf
  andThen hp hf := .bind hp fun a => (hf a).aligned
  leave hleaving _ := hleaving.aligned
  leaveInSync hleaving _ hq hr := .bind hleaving.aligned fun _ => .bind hq.aligned fun _ =>
    .bind (uses_aligned_of_within (within_syncEgressDns (by simp))) fun _ => hr.aligned
  ingress ht := by cases ht
  egress ht _ _ _ := by
    cases ht
    exact aligned_provisionEgress
  expose ht _ hnot := by
    cases ht
    rw [hexternal] at hnot
    cases hnot

/-- However a reconcile of an ExternalName Service is answered, the children that it applies have
    the same ports, for the TCP ports of the Service in their order. -/
theorem ports_line_up (hexternal : svc.isExternalName = true) (hcount : svc.ports.length ≤ 55536) :
    ∃ listens, Listens svc listens ∧
      (svc.reconcile read digest dep).Uses (Aligned svc listens) :=
  ⟨_, listens_listenPorts hcount, PortedService.walk_reconcile (walk_aligned hexternal)⟩

end Reconciles

namespace Forwarding

/-! ### A Service with ports of several kinds, and one with a name that is no word -/

open Shop (external)

def mixed : PortedService := { external Consumers.config with
  ports := [{ port := 5432 }, { port := 53, protocol := some "UDP" },
    { port := 443, protocol := some "TCP", targetPort := some (.int 8443) }] }

def tailnetFqdn : String := "db.ts.net;reboot;"

def config : String :=
  "\x7b\"headscale-ref\":\"main\",\"managed-key-tags\":[\"tag:db\"],\"tailnet-fqdn\":\"" ++ tailnetFqdn ++
    "\"\x7d"

def reader : Reader := fun s =>
  if s = config then
    some (.object [("headscale-ref", .string "main"), ("managed-key-tags", .array [.string "tag:db"]),
      ("tailnet-fqdn", .string tailnetFqdn)])
  else none

/-- The child that a request applies. -/
def child? : Op → Option Child
  | .apply _ resource => some resource
  | _ => none

theorem op_of_child? {o : Op} {resource : Child} (h : child? o = some resource) :
    ∃ child, o = .apply child resource := by
  cases o with
  | apply child resource' =>
    obtain rfl := Option.some.inj h
    exact ⟨child, rfl⟩
  | _ => cases h

/-- The children that were applied. -/
def applied (s : Pool sig Error Action Cluster) : List Child :=
  s.history.filterMap fun e => child? e.op

end Forwarding

open Orphans (sha256 deployment) in
open Shop (fresh succeeds) in
open Forwarding (mixed applied) in
/-- Of three ports the two for TCP are forwarded, and numbered without a gap, in each of the three
    children. -/
theorem ports_line_up_mixed : ∃ listens s, Listens mixed listens ∧
    cluster.exec (reconciles Consumers.reader sha256 deployment [.service mixed] fresh)
      (succeeds 0 21) = some s ∧
    ∀ area ∈ [Area.service, .statefulSet, .policy], ∃ resource ∈ applied s,
      resource.area = some area ∧ resource.LinesUp mixed listens := by
  obtain ⟨listens, hlistens, huses⟩ :=
    @ports_line_up Consumers.reader sha256 deployment mixed rfl (by decide)
  have hrun : (cluster.exec (reconciles Consumers.reader sha256 deployment [.service mixed] fresh)
      (succeeds 0 21)).any (fun s => s.history.all (·.thread == 0) &&
        [Area.service, .statefulSet, .policy].all fun area =>
          (applied s).any fun resource => resource.area == some area) = true := by
    decide +kernel
  obtain ⟨s, hs, hcheck⟩ := Option.any_eq_true _ _ |>.1 hrun
  obtain ⟨hthread, hareas⟩ := Bool.and_eq_true_iff.1 hcheck
  refine ⟨listens, s, hlistens, hs, fun area harea => ?_⟩
  obtain ⟨resource, hresource, harea⟩ := List.any_eq_true.1 (List.all_eq_true.1 hareas area harea)
  refine ⟨resource, hresource, beq_iff_eq.1 harea, ?_⟩
  obtain ⟨e, he, happlied⟩ := List.mem_filterMap.1 hresource
  obtain ⟨child, hop⟩ := Forwarding.op_of_child? happlied
  have ht : [Turn.service mixed][e.thread]? = some (.service mixed) := by
    rw [beq_iff_eq.1 (List.all_eq_true.1 hthread e he)]
    rfl
  exact call_of_uses (t := .service mixed) huses hs he ht child resource hop

end Headmaster.Operator.Proxy
