import Headmaster.Process.Turns
import Headmaster.Operator.Proxy.Effects
import Headmaster.Operator.Proxy.Orphans

/-!
# Runs of the reconciles of one object

The reconciles of one object come one after the other, each on the object as it
is by then; one that crashes ends early. Meanwhile others, the reconciles of
other objects among them, change the rest of the cluster. What every end of a
reconcile keeps (`SteadyEnds`), its whole run keeps (`steady_reconcile`).
-/

namespace Headmaster.Operator.Proxy

open Process (Entry Made Pool Setting trace)
open Process.Machine (Amid Steady Triple TripleAt exec_amid)
open Process.Prog (Uses)

/-- The names of what the proxy of an object consists of. -/
def ObjectReference.names (digest : Digest) (parent : ObjectReference) : ProxyNames :=
  match parent.kind with
  | .ingress => .new digest parent.ns parent.name
  | .service => .forService digest parent.ns parent.name

theorem Turn.names_eq (digest : Digest) (t : Turn) : t.names digest = t.parent.names digest := by
  cases t <;> rfl

/-- The object as it is at each of its reconciles. -/
def VersionsOf (parent : ObjectReference) (turns : List Turn) : Prop :=
  ∀ t ∈ turns, t.parent = parent

instance (parent : ObjectReference) (turns : List Turn) : Decidable (VersionsOf parent turns) :=
  inferInstanceAs (Decidable (∀ t ∈ turns, t.parent = parent))

/-- What a Secret is called says what it is for. -/
theorem ObjectReference.configSecretName_ne (digest : Digest) (parent : ObjectReference) :
    (parent.names digest).configSecretName ≠ (parent.names digest).stateSecretName := by
  intro h
  have hnames : ∃ b, (parent.names digest).configSecretName = "proxy-authkey-" ++ b ∧
      (parent.names digest).stateSecretName = "proxy-state-" ++ b := by
    cases hkind : parent.kind <;> exact ⟨_, by rw [names, hkind]; exact ⟨rfl, rfl⟩⟩
  obtain ⟨b, hconfig, hstate⟩ := hnames
  rw [hconfig, hstate] at h
  have hlist := congrArg String.toList h
  simp at hlist

section Triples

variable {S : Setting Cluster} {B : Cluster → Op → Prop}
  {A : List (Made sig) → Cluster → Op → Prop} {P : Cluster → Prop}

/-- What no change in some areas affects is kept by a process within them. -/
theorem triple_of_within {Areas : Area → Prop} {α : Type} {p : M α}
    (hp : p.Uses (Within Areas)) (hstable : S.Stable P) (hinv : ∀ w, P w → S.inv w)
    (hA : ∀ o tr v, Within Areas o → P v → B v o → A tr v o)
    (hP : ∀ a v v', Areas a → v.Changes a v' → P v → P v') :
    cluster.Triple S B A P p fun _ => P :=
  Triple.of_uses hp hstable hinv fun o tr v ho hv hB =>
    ⟨hA o tr v ho hv hB, fun _ => ho.keeps (fun a v' ha hchange => hP a v v' ha hchange hv) hv⟩

/-- What the others may do at any time, a reconcile may, too. -/
theorem triple_of_others {Areas : Area → Prop} {α : Type} {p : M α}
    (hp : p.Uses (Within Areas)) (hstable : S.Stable P) (hinv : ∀ w, P w → S.inv w)
    (hA : ∀ o tr v, Within Areas o → P v → B v o → A tr v o)
    (hothers : ∀ a v v', Areas a → v.Changes a v' → S.others v v') :
    cluster.Triple S B A P p fun _ => P :=
  triple_of_within hp hstable hinv hA fun a v v' ha hchange hv => hstable hv (hothers a v v' ha hchange)

section Traced

variable {P : List (Made sig) → Cluster → Prop} {α : Type}

/-- A Secret is read, and the answer is known. -/
theorem tripleAt_getSecret {name : String} {k : Option Secret → M α}
    {R : Option Secret → List (Made sig) → Cluster → Prop} {R' : α → List (Made sig) → Cluster → Prop}
    (hstable : ∀ tr, S.Stable (P tr)) (hinv : ∀ tr w, P tr w → S.inv w)
    (hA : ∀ tr v, P tr v → B v (.getSecret name) → A tr v (.getSecret name))
    (hR : ∀ tr v, P tr v → B v (.getSecret name) →
      R (v.secrets name) (⟨.getSecret name, find (v.secrets name)⟩ :: tr) v)
    (hk : ∀ o, cluster.TripleAt S B A (fun _ => S.inv) (R o) (k o) R') :
    cluster.TripleAt S B A (fun _ => S.inv) P
      (call (.getSecret name) >>= fun r : Except KubeError Secret => ifFound r >>= k) R' := by
  refine TripleAt.bind (R := fun r tr v => S.inv v ∧ (∀ s, r = .ok s → R (some s) tr v) ∧
    (r = .error .notFound → R none tr v)) ?_ fun r => TripleAt.bind (R := R) ?_ hk
  · refine TripleAt.op hstable fun tr v hv hB => ⟨hA tr v hv hB, fun f => ?_⟩
    have hsame : (cluster.act f (.getSecret name) v).2 = v := Fate.serve_same
    have hread := hR tr v hv hB
    rw [hsame]
    refine ⟨hinv tr v hv, hinv tr v hv, fun s hs => ?_, fun hnone => ?_⟩
    · rw [secret_of_getSecret hs] at hread
      rwa [hs]
    · rw [no_secret_of_getSecret hnone] at hread
      rwa [hnone]
  · match r with
    | .ok s => exact TripleAt.pure fun tr v hv => hv.2.1 s rfl
    | .error .notFound => exact TripleAt.pure fun tr v hv => hv.2.2 rfl
    | .error .other => exact TripleAt.throw fun tr v hv => hv.1

/-- Calls in some areas add to what is known, if no change in the areas affects it. -/
theorem tripleAt_of_within {Areas : Area → Prop} {p : M α} (hp : p.Uses (Within Areas))
    (hstable : ∀ tr, S.Stable (P tr)) (hinv : ∀ tr w, P tr w → S.inv w)
    (hknown : ∀ o a tr v, Within Areas o → P tr v → P (⟨o, a⟩ :: tr) v)
    (hA : ∀ o tr v, Within Areas o → P tr v → B v o → A tr v o)
    (hP : ∀ a tr v v', Areas a → v.Changes a v' → P tr v → P tr v') :
    cluster.TripleAt S B A (fun _ => S.inv) P p fun _ => P := by
  refine TripleAt.of_uses hp hstable hinv fun o tr v ho hv hB => ⟨hA o tr v ho hv hB, fun f => ?_⟩
  have hkept : P tr (cluster.act f o v).2 :=
    ho.keeps (fun a v' ha hchange => hP a tr v v' ha hchange hv) hv
  exact ⟨hinv tr _ hkept, hknown o _ tr _ ho hkept⟩

/-- What is only read or reported adds to what is known. -/
theorem tripleAt_quiet {p : M α} (hp : Quiet p) (hstable : ∀ tr, S.Stable (P tr))
    (hinv : ∀ tr w, P tr w → S.inv w) (hknown : ∀ c tr v, P tr v → P (c :: tr) v)
    (hA : ∀ o tr v, Within (fun _ => False) o → P tr v → B v o → A tr v o) :
    cluster.TripleAt S B A (fun _ => S.inv) P p fun _ => P :=
  tripleAt_of_within hp hstable hinv (fun _ _ tr v _ => hknown _ tr v) hA fun _ _ _ _ ha => ha.elim

end Traced

/-- A Secret is read; what is known of it after, others keep. -/
theorem triple_getSecret {name : String} {α : Type} {k : Option Secret → M α}
    {R : Option Secret → Cluster → Prop} {R' : α → Cluster → Prop}
    (hstable : S.Stable P) (hinv : ∀ w, P w → S.inv w)
    (hA : ∀ tr v, P v → B v (.getSecret name) → A tr v (.getSecret name))
    (hR : ∀ v, P v → R (v.secrets name) v)
    (hk : ∀ o, cluster.Triple S B A (R o) (k o) R') :
    cluster.Triple S B A P
      (call (.getSecret name) >>= fun r : Except KubeError Secret => ifFound r >>= k) R' :=
  tripleAt_getSecret (fun _ => hstable) (fun _ => hinv) hA (fun _ v hv _ => hR v hv) hk

/-- What is known once an instance is connected to. -/
theorem triple_headscaleConnect {opNs name : String} {R : Cluster → Prop} (hstable : S.Stable P)
    (hinv : ∀ w, P w → S.inv w)
    (hA : ∀ o tr v, Within (fun _ => False) o → P v → B v o → A tr v o)
    (hR : ∀ v headscale, headscale.instanceName = name → P v → B v (.connect headscale) → R v) :
    cluster.Triple S B A P (headscaleConnect opNs name)
      fun headscale w => headscale.instanceName = name ∧ R w := by
  refine Triple.bind (R := fun _ => P) (Triple.op hstable fun tr v hv hB =>
    ⟨hA _ tr v (within_none rfl) hv hB, fun f => ⟨hinv v hv, hv⟩⟩) fun r => ?_
  match r with
  | .error e => exact Triple.throw hinv
  | .ok inst =>
    refine Triple.bind (R := fun _ => P) (Triple.op hstable fun tr v hv hB =>
      ⟨hA _ tr v (within_none rfl) hv hB, fun f => ?_⟩) fun r => ?_
    · have hsame : (cluster.act f (.getSecret (inst.apiKeySecretName name)) v).2 = v :=
        Fate.serve_same
      rw [hsame]
      exact ⟨hinv v hv, hv⟩
    · match r with
      | .error e => exact Triple.throw hinv
      | .ok secret =>
        dsimp only
        split
        · exact Triple.throw hinv
        · refine Triple.bind (R := fun _ w => S.inv w ∧ R w) (Triple.op hstable fun tr v hv hB =>
            ⟨hA _ tr v (within_none rfl) hv hB, fun f => ?_⟩) fun b => ?_
          · exact ⟨hinv v hv, hinv v hv, hR v _ rfl hv hB⟩
          · match b with
            | true => exact Triple.pure fun _ hw => ⟨rfl, hw.2⟩
            | false => exact Triple.throw fun _ hw => hw.1

/-- A request whose failure ends the reconcile. -/
theorem triple_fromKube {o : Op} {α : Type} {g : o.Ans → Except KubeError α} {R : α → Cluster → Prop}
    (hstable : S.Stable P) (h : ∀ tr v, P v → B v o → A tr v o ∧ ∀ f, S.inv (cluster.act f o v).2 ∧
      ∀ a, g (cluster.act f o v).1 = .ok a → R a (cluster.act f o v).2) :
    cluster.Triple S B A P (call o >>= fun r => fromKube (g r)) R := by
  refine Triple.bind (R := fun r v => S.inv v ∧ ∀ a, g r = .ok a → R a v)
    (Triple.op hstable fun tr v hv hB => ?_) fun r v tr hv => ?_
  · obtain ⟨hA, hnext⟩ := h tr v hv hB
    exact ⟨hA, fun f => ⟨(hnext f).1, hnext f⟩⟩
  cases hr : g r with
  | error e => exact hv.1
  | ok a => exact hv.2 a hr

/-- An object of the proxy is applied, or the reconcile ends. -/
theorem triple_apply {child : ChildApplier} {resource : Child} {R : Cluster → Prop}
    (hstable : S.Stable P)
    (h : ∀ tr v, P v → B v (.apply child resource) → A tr v (.apply child resource) ∧
      ∀ f, S.inv (cluster.act f (.apply child resource) v).2 ∧
        ((cluster.act f (.apply child resource) v).1 = .ok () →
          R (cluster.act f (.apply child resource) v).2)) :
    cluster.Triple S B A P (apply child resource) fun _ => R :=
  triple_fromKube (o := .apply child resource) (g := id) hstable fun tr v hv hB =>
    (h tr v hv hB).imp_right fun hnext f => (hnext f).imp_right fun hR _ => hR

/-- An object goes, or the reconcile ends. -/
theorem triple_deleteIgnoring404 {kind : Kind} {name : String} {R : Cluster → Prop}
    (hstable : S.Stable P)
    (h : ∀ tr v, P v → B v (.delete kind name) → A tr v (.delete kind name) ∧
      ∀ f, S.inv (cluster.act f (.delete kind name) v).2 ∧
        (ignoring404 (cluster.act f (.delete kind name) v).1 = .ok () →
          R (cluster.act f (.delete kind name) v).2)) :
    cluster.Triple S B A P (deleteIgnoring404 kind name) fun _ => R :=
  triple_fromKube (o := .delete kind name) (g := ignoring404) hstable fun tr v hv hB =>
    (h tr v hv hB).imp_right fun hnext f => (hnext f).imp_right fun hR _ => hR

variable (read : Reader) (digest : Digest) (dep : Deployment)

/-- What is to be shown of the ends of a reconcile. -/
structure SteadyEnds (S : Setting Cluster) (B : Cluster → Op → Prop)
    (A : List (Made sig) → Cluster → Op → Prop) (t : Turn) : Prop where
  quiet : ∀ o tr v, Within (fun _ => False) o → S.inv v → B v o → A tr v o
  dns : cluster.Steady S B A (syncEgressDns read digest dep)
  leave : ∀ p, Leaving read digest dep t p → cluster.Steady S B A p
  ingress : ∀ ing annotations inst hostNetwork routes, t = .ingress ing →
    IngressAnnotations.parse read ing.metadata = .ok annotations →
    cluster.Steady S B A (ing.provision read digest dep annotations inst hostNetwork routes)
  egress : ∀ svc annotations tailnetFqdn inst, t = .service svc →
    IngressAnnotations.parse read svc.metadata = .ok annotations →
    cluster.Steady S B A (svc.provisionEgress read digest dep annotations tailnetFqdn
      (collectTcpForwards svc) inst)
  expose : ∀ svc annotations ports clusterIp inst, t = .service svc →
    IngressAnnotations.parse read svc.metadata = .ok annotations →
    cluster.Steady S B A (svc.provisionExpose read digest dep annotations
      (usesHostNetwork annotations) ports clusterIp inst)

variable {read digest dep}

theorem SteadyEnds.of_quiet {t : Turn} (h : SteadyEnds read digest dep S B A t) {α : Type} {p : M α}
    (hp : Quiet p) : cluster.Steady S B A p :=
  triple_of_within hp S.stable (fun _ hw => hw) h.quiet nofun

theorem SteadyEnds.walk {t : Turn} (h : SteadyEnds read digest dep S B A t) :
    Walk read digest dep t (cluster.Steady S B A) (cluster.Steady S B A) where
  quiet := h.of_quiet
  last hp := hp
  bind := Triple.bind
  andThen hp hf := hp.bind fun a => h.of_quiet (hf a)
  leave hp _ := h.leave _ hp
  leaveInSync hp _ hq hr := (h.leave _ hp).bind fun _ => (h.of_quiet hq).bind fun _ =>
    h.dns.bind fun _ => h.of_quiet hr
  ingress ht hparse := h.ingress _ _ _ _ _ ht hparse
  egress ht _ _ hparse := h.egress _ _ _ _ ht hparse
  expose ht _ _ hparse := h.expose _ _ _ _ _ ht hparse

theorem steady_reconcile {t : Turn} (h : SteadyEnds read digest dep S B A t) :
    cluster.Steady S B A (t.reconcile read digest dep) := h.walk.reconcile

end Triples

/-! ## Executions -/

section Executions

variable {read : Reader} {digest : Digest} {dep : Deployment} {turns : List Turn} {w : Cluster}
  {S : Setting Cluster} {B : Turn → Cluster → Op → Prop}
  {A : Turn → List (Made sig) → Cluster → Op → Prop}
  {Q : Turn → Except Error Action → Cluster × List (Made sig) → Prop}
  {events : List (Process.Event Fate (Cluster → Cluster))} {s : Pool sig Error Action Cluster}

/-- What holds of every reconcile holds of a run of them. -/
theorem exec_turns (hstart : S.inv w)
    (hturn : ∀ t ∈ turns, ∀ v, S.inv v →
      (t.reconcile read digest dep).wp (cluster.amid S (B t) (A t)) (Q t) (v, []))
    (hturns : cluster.Along (cluster.InTurn S fun i v o => ∀ t ∈ turns[i]?, B t v o)
      (reconciles read digest dep turns w) events)
    (hexec : cluster.exec (reconciles read digest dep turns w) events = some s) :
    Amid cluster S (fun i v o => ∀ t ∈ turns[i]?, B t v o)
      (fun i tr v o => ∀ t ∈ turns[i]?, A t tr v o) (fun i r v => ∀ t ∈ turns[i]?, Q t r v) s := by
  refine exec_amid rfl hstart (fun i p hi v hv => ?_) hturns hexec
  rw [reconciles, List.getElem?_map, Option.map_eq_some_iff] at hi
  obtain ⟨t, ht, rfl⟩ := hi
  simp only [ht, Option.mem_some_iff, forall_eq']
  exact hturn t (List.mem_of_getElem? ht) v hv

/-- Every request is made by a reconcile. -/
theorem exists_turn (hexec : cluster.exec (reconciles read digest dep turns w) events = some s)
    {e : Entry sig Cluster} (he : e ∈ s.history) : ∃ t ∈ turns, turns[e.thread]? = some t := by
  have hlt := Process.Machine.exec_thread_lt rfl hexec e he
  rw [Process.Machine.exec_length hexec, reconciles, List.length_map] at hlt
  exact ⟨_, List.getElem_mem hlt, List.getElem?_eq_getElem hlt⟩

/-- What every reconcile keeps is kept in a run of them, and so is what it guarantees of its
    requests. -/
theorem exec_steadyTurns (hstart : S.inv w)
    (hends : ∀ t ∈ turns, SteadyEnds read digest dep S (B t) (A t) t)
    (hturns : cluster.Along (cluster.InTurn S fun i v o => ∀ t ∈ turns[i]?, B t v o)
      (reconciles read digest dep turns w) events)
    (hexec : cluster.exec (reconciles read digest dep turns w) events = some s) :
    S.inv s.world ∧ ∀ e hist, e :: hist <:+ s.history → ∃ t ∈ turns, turns[e.thread]? = some t ∧
      A t (trace e.thread hist) e.before e.op := by
  have hamid : Amid cluster S (fun i v o => ∀ t ∈ turns[i]?, B t v o)
      (fun i tr v o => ∀ t ∈ turns[i]?, A t tr v o) (fun i _ v => ∀ t ∈ turns[i]?, S.inv v.1) s := by
    refine exec_turns hstart (fun t ht v hv => ?_) hturns hexec
    refine Process.Prog.wp_mono ?_ (steady_reconcile (hends t ht) v [] hv)
    rintro (e | a) s hs <;> exact hs
  refine ⟨hamid.inv, fun e hist he => ?_⟩
  obtain ⟨t, ht, hget⟩ := exists_turn hexec (he.subset List.mem_cons_self)
  exact ⟨t, ht, hget, hamid.calls e hist he t hget⟩

end Executions

namespace Shop

/-! ### A Service on a new cluster -/

open Orphans (db)

/-! Its configurations, for two instances. -/

def main : String :=
  "\x7b\"headscale-ref\":\"main\",\"managed-key-tags\":[\"tag:db\"],\"tailnet-fqdn\":\"db.ts.net\"\x7d"

def backup : String :=
  "\x7b\"headscale-ref\":\"backup\",\"managed-key-tags\":[\"tag:db\"],\"tailnet-fqdn\":\"db.ts.net\"\x7d"

def reader : Reader := fun s =>
  let config (ref : String) : Json := .object [("headscale-ref", .string ref),
    ("managed-key-tags", .array [.string "tag:db"]), ("tailnet-fqdn", .string "db.ts.net")]
  if s = main then some (config "main") else if s = backup then some (config "backup") else none

/-- The Service out of the cluster, with a configuration. -/
def external (config : String) : PortedService :=
  { db [(annotationConfig, config)] false with
    type := some externalNameType
    ports := [{ port := 5432 }] }

/-- The Service in the cluster, with a configuration. -/
def internal (config : String) : PortedService :=
  { db [(annotationConfig, config)] false with
    ports := [{ port := 5432 }]
    clusterIp := some "10.0.0.7" }

/-- There are the Secrets with the API keys of two headscales. -/
def fresh : Cluster where
  secrets name :=
    if name = "headscale-api-key-main" ∨ name = "headscale-api-key-backup" then
      some { data := [("HEADSCALE_API_KEY", .utf8 "secret")] }
    else none

def working : Fate := { answer := answerOf { name := "main", ready := true } }

/-- The next requests of a reconcile succeed. -/
def succeeds (i n : ℕ) : List (Process.Event Fate (Cluster → Cluster)) :=
  List.replicate n (.act i working)

/-- The next request of a reconcile fails without an effect. -/
def fails (i : ℕ) : Process.Event Fate (Cluster → Cluster) :=
  .act i { working with failure := some false }

end Shop

end Headmaster.Operator.Proxy
