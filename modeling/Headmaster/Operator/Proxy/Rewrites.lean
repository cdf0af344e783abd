import Headmaster.Operator.Proxy.Shapes

/-!
# Names of proxies that are gone

The override of the cluster DNS is computed anew by the reconciles that provision
an egress, and by those that give a Service up as it is deleted or loses its
configuration. A reconcile that takes the proxy of an egress down for another
reason, or makes it one into the tailnet, leaves the override alone.

* `clean_of_dropped`: after such a reconcile no name is rewritten to the proxy,
  if it computed the override anew, or another reconcile did, or nothing was
  rewritten to the proxy before, as long as each override is of Services that
  drop it (`DroppedBy`);
* `dangling_on_release`: with the deployment that a Service names, its proxy
  goes, and its rewrite stays.
-/

namespace Headmaster.Operator.Proxy

open Process (Made Machine Pool Entry trace)
open Process.Prog (Safe Uses wp_bind wp_bind_op wp_mono wp_of_allowed)

/-- The proxy of an egress goes, or becomes one into the tailnet. -/
def retires : Op → Bool
  | .delete .statefulSet _ => true
  | .apply _ (.statefulSet _ (.serve _ _ _ _ _)) => true
  | .apply _ (.statefulSet _ (.tun _ _ _ _ _ _)) => true
  | _ => false

def writesOverride : Op → Bool
  | .applyOverride _ => true
  | _ => false

/-- The override was applied, and the server has said so. -/
def renews : Made sig → Bool
  | ⟨.applyOverride _, .ok ()⟩ => true
  | _ => false

/-- A proxy was retired, and the override was not applied since. -/
def unsynced : List (Made sig) → Bool
  | [] => false
  | c :: tr => !renews c && (retires c.op || unsynced tr)

section Traces

variable {tr l later earlier : List (Made sig)} {c : Made sig} {o : Op}

theorem exists_of_writesOverride (h : writesOverride o = true) :
    ∃ rewrites, o = .applyOverride rewrites := by
  cases o with
  | applyOverride rewrites => exact ⟨rewrites, rfl⟩
  | _ => cases h

theorem writesOverride_of_renews (h : renews c = true) : writesOverride c.op = true := by
  obtain ⟨o, a⟩ := c
  cases o with
  | applyOverride rewrites => rfl
  | _ => cases h

/-- Only requests that apply or delete an object retire a proxy. -/
theorem not_retires_of_writesOverride (h : writesOverride o = true) : retires o = false := by
  obtain ⟨rewrites, rfl⟩ := exists_of_writesOverride h
  rfl

theorem unsynced_append (hl : ∀ c ∈ l, retires c.op = false) (htr : unsynced tr = false) :
    unsynced (l ++ tr) = false := by
  induction l with
  | nil => exact htr
  | cons c l ih =>
    rw [List.cons_append, unsynced, hl c List.mem_cons_self,
      ih fun d hd => hl d (List.mem_cons_of_mem _ hd), Bool.or_self, Bool.and_false]

/-- Once all is in sync, the override was applied after what was retired. -/
theorem exists_renews (h : unsynced (later ++ c :: earlier) = false) (hc : retires c.op = true) :
    ∃ d ∈ later, renews d = true := by
  induction later with
  | nil =>
    have hnot : renews c = false := Bool.eq_false_iff.2 fun hrenews => by
      rw [not_retires_of_writesOverride (writesOverride_of_renews hrenews)] at hc
      cases hc
    rw [List.nil_append, unsynced, hc, hnot] at h
    cases h
  | cons d later ih =>
    match hd : renews d with
    | true => exact ⟨d, List.mem_cons_self, hd⟩
    | false =>
      rw [List.cons_append, unsynced, hd, Bool.not_false, Bool.true_and, Bool.or_eq_false_iff] at h
      obtain ⟨d', hd', hrenews⟩ := ih h.2
      exact ⟨d', List.mem_cons_of_mem _ hd', hrenews⟩

theorem not_retires_of_within (ho : Within (fun _ => False) o) : retires o = false := by
  by_contra hretires
  match o, Bool.eq_true_of_not_eq_false hretires with
  | .delete .statefulSet _, _ | .apply _ (.statefulSet _ (.serve _ _ _ _ _)), _
  | .apply _ (.statefulSet _ (.tun _ _ _ _ _ _)), _ => exact ho _ rfl

end Traces

/-! ## What the override is computed from -/

section Informed

variable (read : Reader) (digest : Digest) (dep : Deployment)

/-- An override is of the Services that were read. -/
def Informed (tr : List (Made sig)) (o : Op) : Prop :=
  ∀ rewrites, o = .applyOverride rewrites → ∃ services, ⟨.listServices, .ok services⟩ ∈ tr ∧
    rewrites = (collectRewrites read digest dep.toContext services).1

variable {read digest dep} {α : Type} {p : M α} {annotations : IngressAnnotations} {inst : Instance}
  {t : Turn}

theorem informed_of_within {tr : List (Made sig)} {o : Op} (ho : Within (· ≠ .dns) o) :
    Informed read digest dep tr o := by
  rintro rewrites rfl
  exact absurd rfl (ho .dns rfl)

theorem informed_of_uses (hp : p.Uses (Within (· ≠ .dns))) : p.Safe (Informed read digest dep) :=
  hp.safe fun _ _ => informed_of_within

theorem informed_syncEgressDns : (syncEgressDns read digest dep).Safe (Informed read digest dep) := by
  rw [syncEgressDns]
  split
  · exact informed_of_uses (within_pure _)
  · refine fun tr => wp_bind_op.2 ⟨by rintro _ ⟨⟩, fun a => ?_⟩
    cases a with
    | error e => trivial
    | ok services =>
      change Process.Prog.wp _ _ ((collectRewrites read digest dep.toContext services).2.forM
        publishDuplicate >>= _) _
      have hpublish : ((collectRewrites read digest dep.toContext services).2.forM
          publishDuplicate).Uses (Within (· ≠ .dns)) :=
        .forM fun _ _ => within_publishWarning
      refine wp_bind.2 (wp_mono ?_ (hpublish.wp_tracing (fun _ _ => informed_of_within) _))
      rintro (e | _) _ ⟨l, rfl, _⟩
      · trivial
      · refine wp_bind_op.2 ⟨?_, fun a => ?_⟩
        · rintro _ ⟨⟩
          exact ⟨services, List.mem_append_right _ List.mem_cons_self, rfl⟩
        · cases a <;> trivial

theorem RoutedIngress.informed_provision {ing : RoutedIngress} {hostNetwork : Bool}
    {routes : List ProxyRoute} :
    (ing.provision read digest dep annotations inst hostNetwork routes).Safe
      (Informed read digest dep) := by
  refine informed_of_uses (.bind (.mapError (within_headscaleConnect _ _)) fun headscale => ?_)
  refine .bind (within_applyWireguardService nofun) fun networking => ?_
  refine .bind (within_resetIfRetargeted nofun nofun) fun _ => ?_
  refine .bind (within_rotateStaleAuthKey nofun nofun) fun _ => ?_
  refine .bind (within_ensureAuthKey nofun nofun) fun status => ?_
  cases status with
  | waitingForUser => exact within_pure _
  | ready =>
    refine .bind (within_ensureStateSecret nofun) fun stateSecret => ?_
    refine .bind (within_apply rfl nofun) fun _ => .bind within_applyProxyRbac fun _ => ?_
    refine .bind (within_apply rfl nofun) fun _ => .bind (within_syncTags nofun) fun tagged => ?_
    exact .bind within_report fun _ => .bind (within_claim nofun) fun _ => within_pure _

namespace PortedService

variable {svc : PortedService}

theorem informed_provisionEgress {tailnetFqdn : String} {forwards : List (Int × Int)} :
    (svc.provisionEgress read digest dep annotations tailnetFqdn forwards inst).Safe
      (Informed read digest dep) := by
  refine .bind (informed_of_uses (.mapError (within_headscaleConnect _ _))) fun headscale => ?_
  refine .bind (informed_of_uses (within_resetIfRetargeted nofun nofun)) fun _ => ?_
  refine .bind (informed_of_uses (within_rotateStaleAuthKey nofun nofun)) fun _ => ?_
  refine .bind (informed_of_uses (within_ensureAuthKey nofun nofun)) fun status => ?_
  cases status with
  | waitingForUser => exact informed_of_uses (within_pure _)
  | ready =>
    refine .bind (informed_of_uses (within_ensureStateSecret nofun)) fun stateSecret => ?_
    refine .bind (informed_of_uses (within_apply rfl nofun)) fun _ => ?_
    refine .bind (informed_of_uses within_applyProxyRbac) fun _ => ?_
    refine .bind (informed_of_uses (within_apply rfl nofun)) fun _ => ?_
    refine .bind (informed_of_uses (within_applyConsumerPolicy nofun)) fun _ => ?_
    refine .bind (informed_of_uses (within_claim nofun)) fun _ => ?_
    refine .bind (informed_of_uses (within_syncTags nofun)) fun tagged => ?_
    refine .bind (informed_of_uses within_report) fun _ => ?_
    exact .bind informed_syncEgressDns fun _ => informed_of_uses (within_pure _)

theorem informed_provisionExpose {hostNetwork : Bool} {ports : List Int}
    {clusterIp : Option String} :
    (svc.provisionExpose read digest dep annotations hostNetwork ports clusterIp inst).Safe
      (Informed read digest dep) := by
  refine informed_of_uses (.bind (.mapError (within_headscaleConnect _ _)) fun headscale => ?_)
  refine .bind (within_resetIfRetargeted nofun nofun) fun _ => ?_
  refine .bind (within_rotateStaleAuthKey nofun nofun) fun _ => ?_
  refine .bind (within_ensureAuthKey nofun nofun) fun status => ?_
  cases status with
  | waitingForUser => exact within_pure _
  | ready =>
    refine .bind (within_ensureStateSecret nofun) fun stateSecret => ?_
    refine .bind (within_applyWireguardService nofun) fun networking => ?_
    refine .bind within_applyProxyRbac fun _ => .bind (within_applyExposeProxy nofun nofun) fun _ => ?_
    refine .bind (within_deleteIgnoring404 rfl nofun) fun _ => .bind (within_claim nofun) fun _ => ?_
    exact .bind (within_syncTags nofun) fun tagged => .bind within_report fun _ => within_pure _

end PortedService

/-- Every reconcile computes the override from what it has read. -/
theorem informed_walk : Walk read digest dep t (fun {_} p => p.Safe (Informed read digest dep))
    (fun {_} p => p.Safe (Informed read digest dep)) where
  quiet hp := informed_of_uses hp.within
  last hp := hp
  bind := Safe.bind
  andThen hp hf := hp.bind fun a => informed_of_uses (hf a).within
  leave hp _ := informed_of_uses (hp.within nofun nofun nofun nofun nofun)
  leaveInSync hp _ hq hr := by
    refine .bind (informed_of_uses (hp.within nofun nofun nofun nofun nofun)) fun _ => ?_
    refine .bind (informed_of_uses hq.within) fun _ => ?_
    exact .bind informed_syncEgressDns fun _ => informed_of_uses hr.within
  ingress _ _ := RoutedIngress.informed_provision
  egress _ _ _ _ := PortedService.informed_provisionEgress
  expose _ _ _ _ := PortedService.informed_provisionExpose

end Informed

/-! ## Who computes it anew -/

section Synced

variable {read : Reader} {digest : Digest} {dep : Deployment} {α : Type} {t : Turn}

/-- Calls that retire nothing leave all in sync. -/
theorem synced_quiet {p : M α} (hp : Quiet p) {tr : List (Made sig)} (htr : unsynced tr = false) :
    p.wp (.tracing fun _ _ => True) (fun _ tr' => unsynced tr' = false) tr := by
  refine wp_mono ?_ (hp.wp_tracing (fun _ _ _ => trivial) tr)
  rintro _ _ ⟨l, rfl, hl⟩
  exact unsynced_append (fun c hc => not_retires_of_within (hl c hc)) htr

theorem synced_syncEgressDns (hdns : dep.egressDnsCorednsCustom = true) (tr : List (Made sig)) :
    (syncEgressDns read digest dep).wp (.tracing fun _ _ => True)
      (fun r tr' => r = .ok () → unsynced tr' = false) tr := by
  rw [syncEgressDns, hdns, Bool.not_true, if_neg Bool.false_ne_true]
  refine wp_bind_op.2 ⟨trivial, fun a => ?_⟩
  cases a with
  | error e => rintro ⟨⟩
  | ok services =>
    change Process.Prog.wp _ _ ((collectRewrites read digest dep.toContext services).2.forM
      publishDuplicate >>= _) _
    refine wp_bind.2 (wp_mono ?_ (wp_of_allowed _ fun _ _ _ => trivial))
    rintro (e | _) tr' _
    · rintro ⟨⟩
    · refine wp_bind_op.2 ⟨trivial, fun a => ?_⟩
      cases a with
      | error e => rintro ⟨⟩
      | ok _ => exact fun _ => rfl

/-- A reconcile that gives a Service up as it is deleted, or has lost its configuration, computes the
    override anew. -/
theorem synced_walk (hdns : dep.egressDnsCorednsCustom = true) (hsyncs : t.syncs = true) :
    Walk read digest dep t
      (fun {_} p => ∀ tr, unsynced tr = false →
        p.wp (.tracing fun _ _ => True) (fun _ tr' => unsynced tr' = false) tr)
      (fun {_} p => ∀ tr, unsynced tr = false →
        p.wp (.tracing fun _ _ => True) (fun r tr' => ∀ a, r = .ok a → unsynced tr' = false) tr) where
  quiet hp _ htr := synced_quiet hp htr
  last hp tr htr := wp_mono (fun _ _ h _ _ => h) (hp tr htr)
  bind hp hf tr htr := by
    refine wp_bind.2 (wp_mono ?_ (hp tr htr))
    rintro (e | a) tr' htr'
    · exact nofun
    · exact hf a tr' htr'
  andThen hp hf tr htr := by
    refine wp_bind.2 (wp_mono ?_ (hp tr htr))
    rintro (e | a) tr' htr'
    · exact nofun
    · exact wp_mono (fun _ _ h _ _ => h) (synced_quiet (hf a) (htr' a rfl))
  leave _ hnot := by
    rw [hsyncs] at hnot
    cases hnot
  leaveInSync _ _ _ hr tr _ := by
    refine wp_bind.2 (wp_mono ?_ (wp_of_allowed _ fun _ _ _ => trivial))
    rintro (e | _) tr' _
    · exact nofun
    refine wp_bind.2 (wp_mono ?_ (wp_of_allowed _ fun _ _ _ => trivial))
    rintro (e | _) tr' _
    · exact nofun
    refine wp_bind.2 (wp_mono ?_ (synced_syncEgressDns hdns tr'))
    rintro (e | _) tr' htr'
    · exact nofun
    · exact wp_mono (fun _ _ h _ _ => h) (synced_quiet hr (htr' rfl))
  ingress ht _ := by
    rw [ht] at hsyncs
    cases hsyncs
  egress _ hnot _ _ := by
    rw [hsyncs] at hnot
    cases hnot
  expose _ hnot _ _ := by
    rw [hsyncs] at hnot
    cases hnot

end Synced

/-! ## Runs -/

section Runs

variable (read : Reader) (digest : Digest) (dep : Deployment)

/-- Who applies one of the later overrides has read Services that drop the target. -/
def DroppedBy (target : String) (later h : List (Entry sig Cluster)) : Prop :=
  ∀ d ∈ later, writesOverride d.op = true → ∀ l ∈ h, l.thread = d.thread → l.op = .listServices →
    Dropped read digest dep.toContext target l.before.services

/-- Nobody else changes the override. -/
def LeavesOverride (s : Pool sig Error Action Cluster) :
    Process.Event Fate (Cluster → Cluster) → Prop
  | .act _ _ => True
  | .env g => (g s.world).override = s.world.override

instance (s : Pool sig Error Action Cluster) :
    ∀ ev, Decidable (LeavesOverride s ev)
  | .act _ _ => .isTrue trivial
  | .env g => inferInstanceAs (Decidable ((g s.world).override = s.world.override))

variable {read digest dep} {turns : List Turn} {w : Cluster}
  {events : List (Process.Event Fate (Cluster → Cluster))} {s : Pool sig Error Action Cluster}

/-- What has to do with the cluster DNS lists the Services or applies the override. -/
theorem eq_of_area_dns {o : Op} (h : o.area = some .dns) :
    o = .listServices ∨ writesOverride o = true := by
  cases o with
  | listServices => exact .inl rfl
  | applyOverride rewrites => exact .inr rfl
  | apply child resource => cases resource <;> cases h
  | delete kind name =>
    cases kind with
    | secret deleter => cases deleter <;> cases h
    | _ => cases h
  | patchParent parent patch => cases patch <;> cases h
  | _ => cases h

theorem override_eq_of_not_writes {f : Fate} {o : Op} {w : Cluster} (h : writesOverride o = false) :
    (cluster.act f o w).2.override = w.override := by
  by_cases hdns : o.area = some .dns
  · rcases eq_of_area_dns hdns with rfl | hwrites
    · exact congrArg Cluster.override Fate.serve_same
    · rw [hwrites] at h
      cases h
  · rcases changes_act f o w with hsame | ⟨a, ha, hchanges⟩
    · exact congrArg Cluster.override hsame
    · exact hchanges.override_eq fun heq => hdns (heq ▸ ha)

/-- A request leaves the override as it is, or is the one that applies it. -/
theorem override_act (f : Fate) (o : Op) (w : Cluster) :
    ((cluster.act f o w).2.override = w.override ∧ renews ⟨o, (cluster.act f o w).1⟩ = false) ∨
      ∃ rewrites, o = .applyOverride rewrites ∧ (cluster.act f o w).2.override = rewrites := by
  cases hwrites : writesOverride o with
  | true =>
    obtain ⟨rewrites, rfl⟩ := exists_of_writesOverride hwrites
    rcases f with ⟨_ | _ | _, nodePort, answer⟩
    · exact .inr ⟨rewrites, rfl, rfl⟩
    · exact .inl ⟨rfl, rfl⟩
    · exact .inr ⟨rewrites, rfl, rfl⟩
  | false =>
    refine .inl ⟨override_eq_of_not_writes hwrites, Bool.eq_false_iff.2 fun hrenews => ?_⟩
    rw [writesOverride_of_renews hrenews] at hwrites
    cases hwrites

/-- After a proxy was retired nothing is rewritten to a target, if nothing was before or the override
    is applied later, as long as it is not rewritten to again. -/
theorem clean_of_exec {target : String} {s₀ : Pool sig Error Action Cluster}
    (henv : cluster.Along LeavesOverride s₀ events) (hs : s₀.history = [])
    (hexec : cluster.exec s₀ events = some s) {later earlier : List (Entry sig Cluster)}
    {e : Entry sig Cluster} (hhistory : s.history = later ++ e :: earlier)
    (hretires : retires e.op = true)
    (hlater : ∀ d ∈ later, ∀ rewrites, d.op = .applyOverride rewrites → Clean target rewrites)
    (hclean : Clean target e.before.override ∨ ∃ d ∈ later, renews d.made = true) :
    Clean target s.world.override := by
  have hinv := Machine.exec_induction_along (M := cluster)
    (P := fun t : Pool sig Error Action Cluster => ∀ later e earlier,
      t.history = later ++ e :: earlier → retires e.op = true →
      (∀ d ∈ later, ∀ rewrites, d.op = .applyOverride rewrites → Clean target rewrites) →
      (Clean target e.before.override ∨ ∃ d ∈ later, renews d.made = true) →
      Clean target t.world.override) ?_ ?_ henv hexec
  · exact hinv later e earlier hhistory hretires hlater hclean
  · intro t ev t' ht hev hst later e earlier hhistory hretires hlater hclean
    rcases Machine.step_cases hst with ⟨i, f, o, k, _, _, _, rfl⟩ | ⟨g, rfl, rfl⟩
    · change Clean target (cluster.act f o t.world).2.override
      cases later with
      | nil =>
        -- what retires a proxy leaves the override alone
        obtain ⟨rfl, rfl⟩ := List.cons.inj hhistory
        rcases override_act f o t.world with ⟨hsame, _⟩ | ⟨rewrites, rfl, _⟩
        · rw [hsame]
          exact hclean.resolve_right fun ⟨d, hd, _⟩ => List.not_mem_nil hd
        · cases hretires
      | cons d later =>
        obtain ⟨rfl, hbefore⟩ := List.cons.inj hhistory
        rcases override_act f o t.world with ⟨hsame, hnot⟩ | ⟨rewrites, rfl, happlied⟩
        · rw [hsame]
          refine ht later e earlier hbefore hretires
            (fun d hd => hlater d (List.mem_cons_of_mem _ hd)) (hclean.imp_right ?_)
          rintro ⟨d, hd, hrenews⟩
          rcases List.mem_cons.1 hd with rfl | hd
          · exact absurd hrenews (Bool.eq_false_iff.1 hnot)
          · exact ⟨d, hd, hrenews⟩
        · rw [happlied]
          exact hlater _ List.mem_cons_self rewrites rfl
    · have hsame : (g t.world).override = t.world.override := hev
      change Clean target (g t.world).override
      rw [hsame]
      exact ht later e earlier hhistory hretires hlater hclean
  · intro later e earlier hhistory
    rw [hs] at hhistory
    exact absurd hhistory.symm (List.append_ne_nil_of_right_ne_nil _ (List.cons_ne_nil _ _))

/-- The Services that an override was computed from were those on the cluster as they were read. -/
theorem override_of_exec (hexec : cluster.exec (reconciles read digest dep turns w) events = some s)
    {d : Entry sig Cluster} (hd : d ∈ s.history) {rewrites : List (String × String)}
    (hop : d.op = .applyOverride rewrites) :
    ∃ l ∈ s.history, l.thread = d.thread ∧ l.op = .listServices ∧
      rewrites = (collectRewrites read digest dep.toContext l.before.services).1 := by
  obtain ⟨later, earlier, heq⟩ := List.append_of_mem hd
  have hsafe : ∀ (i : ℕ) p, (reconciles read digest dep turns w).threads[i]? = some p →
      p.Safe (Informed read digest dep) := by
    intro i p hp
    rw [reconciles, List.getElem?_map, Option.map_eq_some_iff] at hp
    obtain ⟨t, _, rfl⟩ := hp
    exact informed_walk.reconcile
  obtain ⟨services, hlist, hrewrites⟩ := (Machine.exec_tracing (A := fun _ => Informed read digest dep)
    rfl hsafe hexec (heq ▸ List.suffix_append later _)).1 rewrites hop
  obtain ⟨l, hl, hthread, hmade⟩ := Process.mem_trace.1 hlist
  have hmem : l ∈ s.history := heq ▸ List.mem_append_right _ (List.mem_cons_of_mem _ hl)
  obtain ⟨f, hanswer⟩ := Machine.exec_answered rfl hexec l hmem
  obtain ⟨thread, op, ans, before⟩ := l
  cases hmade
  obtain rfl : before.services = services := Except.ok.inj (Fate.serve_ok hanswer).1
  exact ⟨_, hmem, hthread, rfl, hrewrites⟩

/-- After a reconcile has retired the proxy of a Service, nothing is rewritten to it, if the
    reconcile has computed the override anew, or another has, or nothing was rewritten to it before,
    as long as who computes it has read Services that drop it. -/
theorem clean_of_dropped (hdns : dep.egressDnsCorednsCustom = true)
    (henv : cluster.Along LeavesOverride (reconciles read digest dep turns w) events)
    (hexec : cluster.exec (reconciles read digest dep turns w) events = some s)
    {i : ℕ} {svc : PortedService} {a : Action} {later earlier : List (Entry sig Cluster)}
    {e : Entry sig Cluster} (hsvc : turns[i]? = some (.service svc))
    (hend : s.threads[i]? = some (.ret (.ok a))) (hhistory : s.history = later ++ e :: earlier)
    (hthread : e.thread = i) (hretires : retires e.op = true)
    (hdropped : DroppedBy read digest dep (rewriteTarget digest dep.toContext svc.toService) later
      s.history)
    (hclean : (Turn.service svc).syncs = true ∨
      Clean (rewriteTarget digest dep.toContext svc.toService) e.before.override ∨
      ∃ d ∈ later, d.thread ≠ i ∧ renews d.made = true) :
    Clean (rewriteTarget digest dep.toContext svc.toService) s.world.override := by
  refine clean_of_exec henv rfl hexec hhistory hretires (fun d hd rewrites hop => ?_) ?_
  · have hmem : d ∈ s.history := hhistory ▸ List.mem_append_left _ hd
    obtain ⟨l, hl, hsame, hlist, rfl⟩ := override_of_exec hexec hmem hop
    refine clean_collectRewrites_iff.2 (hdropped d hd ?_ l hl hsame hlist)
    rw [hop]
    rfl
  · rcases hclean with hsyncs | hclean | ⟨d, hd, _, hrenews⟩
    · have hkeeps := Machine.exec_keeps (A := fun _ _ => True)
        (Q := fun r tr => ∀ a : Action, r = .ok a → unsynced tr = false) (i := i) ?_ hexec
      · have hsynced := hkeeps _ hend a rfl
        rw [hhistory, Process.trace_append, ← hthread, Process.trace_cons_self] at hsynced
        obtain ⟨c, hc, hrenews⟩ := exists_renews hsynced hretires
        obtain ⟨d, hd, _, rfl⟩ := Process.mem_trace.1 hc
        exact .inr ⟨d, hd, hrenews⟩
      · intro p hp
        rw [reconciles, List.getElem?_map, hsvc] at hp
        obtain rfl := Option.some.inj hp
        exact (synced_walk hdns hsyncs).reconcile [] rfl
    · exact .inl hclean
    · exact .inr ⟨d, hd, hrenews⟩

end Runs

namespace Rewrites

/-! ### A Service with a name of the tailnet -/

open Orphans (sha256 db)

def elsewhere : String :=
  "\x7b\"headscale-ref\":\"main\",\"headscale-namespace\":\"other\",\"tailnet-fqdn\":\"db.ts.net\"\x7d"

def reader : Reader := fun s =>
  if s = elsewhere then
    some (.object [("headscale-ref", .string "main"), ("headscale-namespace", .string "other"),
      ("tailnet-fqdn", .string "db.ts.net")])
  else Shop.reader s

def deployment : Deployment := { Orphans.deployment with egressDnsCorednsCustom := true }

/-- The Service has lost its configuration. -/
def unconfigured : PortedService := { db [] false with type := some externalNameType }

/-- It is the only Service of the cluster. -/
def listed (svc : PortedService) (w : Cluster) : Cluster := { w with services := [svc.toService] }

def target : String := rewriteTarget sha256 deployment.toContext unconfigured.toService

end Rewrites

open Orphans (sha256) in
open Shop (external main fresh succeeds) in
open Shapes (ended ended_some) in
open Rewrites (reader deployment unconfigured listed target) in
/-- The Service loses its configuration: its proxy goes, and its rewrite. -/
theorem clean_of_dropped_unconfigured : ∃ s,
    cluster.exec (reconciles reader sha256 deployment
      [.service (external main), .service unconfigured] (listed (external main) fresh))
      (succeeds 0 24 ++ .env (listed unconfigured) :: succeeds 1 14) = some s ∧
    (∃ e ∈ s.history, e.thread = 1 ∧ retires e.op = true ∧ ¬Clean target e.before.override) ∧
    Clean target s.world.override := by
  have henv : cluster.Along LeavesOverride (reconciles reader sha256 deployment
      [.service (external main), .service unconfigured] (listed (external main) fresh))
      (succeeds 0 24 ++ .env (listed unconfigured) :: succeeds 1 14) := by
    decide +kernel
  have hrun : (cluster.exec (reconciles reader sha256 deployment
      [.service (external main), .service unconfigured] (listed (external main) fresh))
      (succeeds 0 24 ++ .env (listed unconfigured) :: succeeds 1 14)).any (fun s =>
        (ended 1 s).isSome &&
        (s.history.any fun e =>
          e.thread == 1 && retires e.op && !decide (Clean target e.before.override)) &&
        decide (s.history.Pairwise fun d e => e.thread = 1 → d.thread = 1) &&
        s.history.all fun l => l.thread != 1 ||
          l.before.services.all fun svc => svc.metadata.deleting || !svc.hasConfig) = true := by
    decide +kernel
  obtain ⟨s, hs, hcheck⟩ := Option.any_eq_true _ _ |>.1 hrun
  simp only [Bool.and_eq_true, List.any_eq_true, beq_iff_eq, Bool.not_eq_true',
    decide_eq_false_iff_not, decide_eq_true_eq] at hcheck
  obtain ⟨⟨⟨hended, e, he, ⟨hthread, hretires⟩, hdirty⟩, hordered⟩, hlists⟩ := hcheck
  obtain ⟨a, hended⟩ := Option.isSome_iff_exists.1 hended
  obtain ⟨later, earlier, hhistory⟩ := List.append_of_mem he
  refine ⟨s, hs, ⟨e, he, hthread, hretires, hdirty⟩, ?_⟩
  have hturn : [Turn.service (external main), .service unconfigured][1]? =
    some (.service unconfigured) := rfl
  refine clean_of_dropped rfl henv hs hturn (ended_some hended) hhistory hthread hretires
    (fun d hd _ l hl hsame _ svc hsvc _ fqdn hwants => ?_) (.inl rfl)
  -- all that comes after is of the second reconcile
  rw [hhistory, List.pairwise_append] at hordered
  have hsecond : d.thread = 1 := hordered.2.2 d hd e List.mem_cons_self hthread
  have hgone := List.all_eq_true.1 hlists l hl
  rw [hsame, hsecond, bne_self_eq_false, Bool.false_or] at hgone
  exact absurd hwants (not_wants_of_given_up (List.all_eq_true.1 hgone svc hsvc))

open Orphans (sha256) in
open Shop (external main fresh succeeds) in
open Shapes (ended ended_some) in
open Rewrites (reader deployment elsewhere listed target) in
/-- The Service names another deployment: its proxy goes, and its rewrite stays. -/
theorem dangling_on_release : ∃ s a,
    cluster.exec (reconciles reader sha256 deployment
      [.service (external main), .service (external elsewhere)] (listed (external main) fresh))
      (succeeds 0 24 ++ .env (listed (external elsewhere)) :: succeeds 1 13) = some s ∧
    s.threads[1]? = some (.ret (.ok a)) ∧ (∃ e ∈ s.history, e.thread = 1 ∧ retires e.op = true) ∧
    ¬Clean target s.world.override := by
  have hrun : (cluster.exec (reconciles reader sha256 deployment
      [.service (external main), .service (external elsewhere)] (listed (external main) fresh))
      (succeeds 0 24 ++ .env (listed (external elsewhere)) :: succeeds 1 13)).any (fun s =>
        (ended 1 s).isSome && (s.history.any fun e => e.thread == 1 && retires e.op) &&
          !decide (Clean target s.world.override)) = true := by
    decide +kernel
  obtain ⟨s, hs, hcheck⟩ := Option.any_eq_true _ _ |>.1 hrun
  simp only [Bool.and_eq_true, List.any_eq_true, beq_iff_eq, Bool.not_eq_true',
    decide_eq_false_iff_not] at hcheck
  obtain ⟨⟨hended, hretired⟩, hdirty⟩ := hcheck
  obtain ⟨a, hended⟩ := Option.isSome_iff_exists.1 hended
  exact ⟨s, a, hs, ended_some hended, hretired, hdirty⟩

end Headmaster.Operator.Proxy
