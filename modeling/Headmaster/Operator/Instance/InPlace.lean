import Headmaster.Operator.Instance.Walk

/-!
# Instances that are in place

What the operator runs for an instance is *in place* when it is as the spec says
(`InPlace`). Among reconciles of other instances, and whichever requests fail:

* an instance that is reported as ready at the end of a reconcile is in place
  then (`in_place_of_ready`);
* from then on, reconciles of the same spec change none of its objects
  (`objects_of_in_place`).
-/

namespace Headmaster.Operator.Instance

open Process (Made Pool calledBy)
open Process.Machine (OwnTurns Triple TripleAt)
open Proxy (Action)

/-! ## In place -/

namespace Cluster

variable {w : Cluster} {objects : List Object} {object : Object}

/-- All of some objects are as they are applied. -/
def HasAll (w : Cluster) (objects : List Object) : Prop := ∀ o ∈ objects, w.Has o

instance (w : Cluster) (o : Object) : Decidable (w.Has o) :=
  inferInstanceAs (Decidable (w.objects o.resource.kind o.metadata.name = some o))

instance (w : Cluster) (objects : List Object) : Decidable (w.HasAll objects) :=
  inferInstanceAs (Decidable (∀ o ∈ objects, w.Has o))

theorem hasAll_nil : w.HasAll [] := nofun

/-- The kind and the name tell two objects apart. -/
def Apart (o o' : Object) : Prop :=
  ¬(o.resource.kind = o'.resource.kind ∧ o.metadata.name = o'.metadata.name)

theorem HasAll.put (h : w.HasAll objects) (hapart : ∀ o ∈ objects, Apart o object) :
    (w.put object).HasAll (objects ++ [object]) := by
  intro o ho
  rcases List.mem_append.1 ho with ho | ho
  · exact (h o ho).put (hapart o ho)
  · exact List.mem_singleton.1 ho ▸ has_put

end Cluster

section InPlace

variable (dep : Deployment) (obj : CustomResource) (child : ChildApplier)

/-- What headscale consists of, but for the Secret. -/
def serverObjects (data : Labels) (hash : String) : List Object :=
  let n := serverName child.instanceName
  [child.object "headscale" n (.configMap data), child.service "headscale" n headscaleService,
    child.statefulSet "headscale" n
      (desiredStatefulset dep n obj.spec.storage obj.spec.resources hash)]

/-- What the SCIM server consists of, but for the Secret. -/
def scimObjects (scim : ScimSpec) : List Object :=
  let n := scimName child.instanceName
  [child.statefulSet "scim" n (scimStatefulset dep child.instanceName child.ns scim),
    child.service "scim" n scimService]

/-- The SCIM server of an instance runs as its spec says, or there is none. -/
def ScimInPlace (w : Cluster) : Prop :=
  match obj.spec.scim with
  | some scim => (w.objects .secret (scimTokenSecretName child.instanceName)).isSome = true ∧
    w.HasAll (scimObjects dep child scim)
  | none => w.objects .statefulSet (scimName child.instanceName) = none ∧
    w.objects .service (scimName child.instanceName) = none ∧
    w.objects .secret (scimTokenSecretName child.instanceName) = none

structure InPlace (w : Cluster) : Prop where
  server : ∃ data hash, buildConfigmap dep obj.spec.serverUrl obj.spec.dnsBaseDomain
    obj.spec.extraConfig = .ok (data, hash) ∧ w.HasAll (serverObjects dep obj child data hash)
  apiKey : (w.objects .secret (apiKeySecretName child.instanceName)).isSome = true
  scim : ScimInPlace dep obj child w

end InPlace

/-! ## As facts -/

namespace Fact

variable {name : String}

def hasAll (objects : List Object)
    (h : ∀ o ∈ objects, o.metadata.name ∈ childNames o.resource.kind name) : Fact name where
  holds w := w.HasAll objects
  of_same _ _ hv hsame o ho := (hsame _ _ (h o ho)).trans (hv o ho)

end Fact

section Facts

variable {dep : Deployment} {obj : CustomResource} {child : ChildApplier} {data : Labels}
  {hash : String} {scim : ScimSpec}

theorem mem_childNames_of_mem_serverObjects :
    ∀ o ∈ serverObjects dep obj child data hash,
      o.metadata.name ∈ childNames o.resource.kind child.instanceName := by
  rw [serverObjects]
  refine List.forall_mem_cons.2 ⟨List.mem_cons_self, List.forall_mem_cons.2
    ⟨List.mem_cons_self, List.forall_mem_singleton.2 List.mem_cons_self⟩⟩

theorem mem_childNames_of_mem_scimObjects :
    ∀ o ∈ scimObjects dep child scim,
      o.metadata.name ∈ childNames o.resource.kind child.instanceName := by
  have hlast {f : String → String} : scimName child.instanceName ∈ [f child.instanceName,
      scimName child.instanceName] := List.mem_cons_of_mem _ List.mem_cons_self
  exact List.forall_mem_cons.2 ⟨hlast, List.forall_mem_singleton.2 hlast⟩

/-- Nothing of headscale is of the SCIM server, and neither is a Secret. -/
theorem ne_of_mem_serverObjects {o : Object} {kind : Kind} {n : String}
    (ho : o ∈ serverObjects dep obj child data hash)
    (h : kind = .secret ∨ n = scimName child.instanceName) :
    ¬(o.resource.kind = kind ∧ o.metadata.name = n) := by
  have hserver : o.resource.kind ≠ .secret ∧ o.metadata.name = serverName child.instanceName := by
    rw [serverObjects, List.mem_cons, List.mem_cons, List.mem_singleton] at ho
    rcases ho with rfl | rfl | rfl <;> exact ⟨(by intro h; cases h), rfl⟩
  rintro ⟨rfl, rfl⟩
  rcases h with h | h
  · exact hserver.1 h
  · exact serverName_ne_scimName _ _ (hserver.2.symm.trans h)

theorem scimInPlace_some {w : Cluster} (h : obj.spec.scim = some scim) :
    ScimInPlace dep obj child w ↔
      (w.objects .secret (scimTokenSecretName child.instanceName)).isSome = true ∧
        w.HasAll (scimObjects dep child scim) := by rw [ScimInPlace, h]

theorem scimInPlace_none {w : Cluster} (h : obj.spec.scim = none) :
    ScimInPlace dep obj child w ↔
      w.objects .statefulSet (scimName child.instanceName) = none ∧
        w.objects .service (scimName child.instanceName) = none ∧
        w.objects .secret (scimTokenSecretName child.instanceName) = none := by
  rw [ScimInPlace, h]

/-- Headscale runs as the spec says. -/
def Fact.served (dep : Deployment) (obj : CustomResource) (child : ChildApplier) :
    Fact child.instanceName where
  holds w := ∃ data hash, buildConfigmap dep obj.spec.serverUrl obj.spec.dnsBaseDomain
    obj.spec.extraConfig = .ok (data, hash) ∧ w.HasAll (serverObjects dep obj child data hash)
  of_same := by
    rintro v w ⟨data, hash, hconfig, hv⟩ hsame
    exact ⟨data, hash, hconfig, (hasAll _ mem_childNames_of_mem_serverObjects).of_same hv hsame⟩

/-- With its Secret. -/
def Fact.keyed (dep : Deployment) (obj : CustomResource) (child : ChildApplier) :
    Fact child.instanceName :=
  (served dep obj child).and
    (.object .secret (apiKeySecretName child.instanceName) List.mem_cons_self fun o => o.isSome = true)

def Fact.inPlace (dep : Deployment) (obj : CustomResource) (child : ChildApplier) :
    Fact child.instanceName where
  holds := InPlace dep obj child
  of_same := by
    intro v w hv hsame
    have hlast {f g : String → String} : g child.instanceName ∈ [f child.instanceName,
      g child.instanceName] := List.mem_cons_of_mem _ List.mem_cons_self
    have hkeyed := (keyed dep obj child).of_same ⟨hv.server, hv.apiKey⟩ hsame
    refine ⟨hkeyed.1, hkeyed.2, ?_⟩
    have hscim := hv.scim
    cases h : obj.spec.scim with
    | some scim =>
      rw [scimInPlace_some h] at hscim ⊢
      rw [hsame .secret _ hlast]
      exact ⟨hscim.1, (hasAll _ mem_childNames_of_mem_scimObjects).of_same hscim.2 hsame⟩
    | none =>
      rw [scimInPlace_none h] at hscim ⊢
      rwa [hsame .statefulSet _ hlast, hsame .service _ hlast, hsame .secret _ hlast]

/-! ## Towards it -/

variable {I : Fact child.instanceName}

theorem step_served (hI : ∀ w, I w) :
    I.Step I (ensureHeadscale dep child obj) fun _ => Fact.served dep obj child := by
  have htake (n : ℕ) (data : Labels) (hash : String) :
      ∀ o ∈ (serverObjects dep obj child data hash).take n,
        o.metadata.name ∈ childNames o.resource.kind child.instanceName :=
    fun o ho => mem_childNames_of_mem_serverObjects o (List.mem_of_mem_take ho)
  -- With each request, one more of the objects is in place.
  refine step_ensureHeadscale (T := fun data hash => .hasAll _ (htake 1 data hash))
    (U := fun data hash => .hasAll _ (htake 2 data hash)) (fun w _ => hI w)
    (fun _ _ w _ => hI w) (fun _ _ w _ => hI w) fun data hash hconfig => ?_
  refine ⟨fun w _ => ⟨hI _, ?_⟩, fun w hw => ⟨hI _, ?_⟩, fun w hw => ⟨hI _, data, hash, hconfig, ?_⟩⟩
  · exact Cluster.HasAll.put Cluster.hasAll_nil nofun
  · refine Cluster.HasAll.put hw fun o ho h => ?_
    obtain rfl := List.mem_singleton.1 ho
    cases h.1
  · refine Cluster.HasAll.put hw fun o ho h => ?_
    rcases List.mem_pair.1 ho with rfl | rfl <;> cases h.1

theorem step_keyed (hI : ∀ w, I w) :
    I.Step (Fact.served dep obj child) (ensureApiKey dep child) fun _ =>
      Fact.keyed dep obj child := by
  refine step_ensureApiKey rfl (fun w _ => hI w) (fun w hw hfound => ⟨hw, hfound⟩)
    fun w key hw _ => ⟨hI _, ?_, ?_⟩
  · obtain ⟨data, hash, hconfig, hw⟩ := hw
    refine ⟨data, hash, hconfig, fun o ho => (hw o ho).put ?_⟩
    exact ne_of_mem_serverObjects ho (.inl rfl)
  · exact congrArg Option.isSome Cluster.has_put

/-- What is known of headscale stays while the SCIM server is put in place. -/
theorem keyed_put {object : Object} {w : Cluster} (hw : Fact.keyed dep obj child w)
    (hobject : object.resource.kind = .secret ∨
      object.metadata.name = scimName child.instanceName) :
    Fact.keyed dep obj child (w.put object) := by
  obtain ⟨⟨data, hash, hconfig, hw⟩, hkey⟩ := hw
  refine ⟨⟨data, hash, hconfig, fun o ho => (hw o ho).put ?_⟩, Cluster.isSome_put hkey⟩
  exact ne_of_mem_serverObjects ho hobject

theorem step_scimInPlace (hI : ∀ w, I w) (hscim : obj.spec.scim = some scim) :
    I.Step (Fact.keyed dep obj child) (ensureScim dep child scim) fun _ =>
      Fact.inPlace dep obj child := by
  have hlast {f : String → String} : scimTokenSecretName child.instanceName ∈
      [f child.instanceName, scimTokenSecretName child.instanceName] :=
    List.mem_cons_of_mem _ List.mem_cons_self
  have htake : ∀ o ∈ (scimObjects dep child scim).take 1,
      o.metadata.name ∈ childNames o.resource.kind child.instanceName :=
    fun o ho => mem_childNames_of_mem_scimObjects o (List.mem_of_mem_take ho)
  let Token : Fact child.instanceName := (Fact.keyed dep obj child).and
    (.object .secret (scimTokenSecretName child.instanceName) hlast fun o => o.isSome = true)
  refine step_ensureScim (T := Token) (U := Token.and (.hasAll _ htake)) (fun w _ => hI w)
    (fun w _ => hI w) ?_ (fun w hw => ⟨hI _, ⟨keyed_put hw.1 (.inr rfl), ?_⟩, ?_⟩) fun w hw =>
      ⟨hI _, ?_⟩
  · refine step_ensureScimToken rfl (fun w _ => hI w) (fun w hw hfound => ⟨hw, hfound⟩)
      fun w token hw _ => ⟨hI _, keyed_put hw (.inl rfl), ?_⟩
    exact congrArg Option.isSome Cluster.has_put
  · exact Cluster.isSome_put hw.2
  · exact Cluster.HasAll.put Cluster.hasAll_nil nofun
  · obtain ⟨⟨hkeyed, htoken⟩, hall⟩ := hw
    have hkeyed' : Fact.keyed dep obj child (w.put (child.service "scim" _ scimService)) :=
      keyed_put hkeyed (.inr rfl)
    refine ⟨hkeyed'.1, hkeyed'.2, (scimInPlace_some hscim).2 ⟨Cluster.isSome_put htoken, ?_⟩⟩
    refine Cluster.HasAll.put hall fun o ho h => ?_
    obtain rfl := List.mem_singleton.1 ho
    cases h.1

/-- What is known of headscale stays while there is to be no SCIM server. -/
theorem keyed_remove {kind : Kind} {n : String} {w : Cluster} (hw : Fact.keyed dep obj child w)
    (hn : kind ≠ .secret ∧ n = scimName child.instanceName ∨
      kind = .secret ∧ n = scimTokenSecretName child.instanceName) :
    Fact.keyed dep obj child (w.remove kind n) := by
  obtain ⟨⟨data, hash, hconfig, hw⟩, hkey⟩ := hw
  refine ⟨⟨data, hash, hconfig, fun o ho => ?_⟩, ?_⟩
  · refine (Cluster.objects_remove_of_ne (ne_of_mem_serverObjects ho ?_)).trans (hw o ho)
    exact hn.symm.imp And.left And.right
  · refine (congrArg Option.isSome (Cluster.objects_remove_of_ne ?_)).trans hkey
    rintro ⟨rfl, rfl⟩
    rcases hn with hn | hn
    · exact hn.1 rfl
    · exact apiKeySecretName_ne_scimTokenSecretName _ _ hn.2

theorem step_noScimInPlace (hI : ∀ w, I w) (hscim : obj.spec.scim = none) :
    I.Step (Fact.keyed dep obj child) (deleteScimIfExists child.instanceName) fun _ =>
      Fact.inPlace dep obj child := by
  have hlast {f g : String → String} : g child.instanceName ∈ [f child.instanceName,
    g child.instanceName] := List.mem_cons_of_mem _ List.mem_cons_self
  -- Each deletion adds its object to those that are gone.
  let T : Fact child.instanceName := (Fact.keyed dep obj child).and
    (.object .statefulSet (scimName child.instanceName) hlast (· = none))
  let U : Fact child.instanceName := T.and
    (.object .service (scimName child.instanceName) hlast (· = none))
  let V : Fact child.instanceName := U.and
    (.object .secret (scimTokenSecretName child.instanceName) hlast (· = none))
  have hgone {kind kind' : Kind} {n n' : String} {w : Cluster} (hne : kind' ≠ kind)
      (h : w.objects kind' n' = none) : (w.remove kind n).objects kind' n' = none :=
    (Cluster.objects_remove_of_ne fun heq => hne heq.1).trans h
  refine step_deleteScimIfExists (T := T) (U := U) (V := V) (fun w _ => hI w)
    (fun w _ => hI w) (fun w _ => hI w) (fun w _ => hI w) (fun w hw => ?_) (fun w hw => ?_)
    (fun w hw => ?_) fun w hw => ?_
  · exact ⟨keyed_remove hw (.inl ⟨by decide, rfl⟩), Cluster.objects_setObject _⟩
  · exact ⟨⟨keyed_remove hw.1 (.inl ⟨by decide, rfl⟩), hgone (by decide) hw.2⟩,
      Cluster.objects_setObject _⟩
  · exact ⟨⟨⟨keyed_remove hw.1.1 (.inr ⟨rfl, rfl⟩), hgone (by decide) hw.1.2⟩,
      hgone (by decide) hw.2⟩, Cluster.objects_setObject _⟩
  · exact ⟨hw.1.1.1.1, hw.1.1.1.2, (scimInPlace_none hscim).2 ⟨hw.1.1.2, hw.1.2, hw.2⟩⟩

/-! ## In place already -/

/-- The objects of an instance are those of `v`. -/
def Fact.as (name : String) (v : Cluster) : Fact name where
  holds w := ∀ kind, ∀ n ∈ childNames kind name, w.objects kind n = v.objects kind n
  of_same _ _ hv hsame kind n hn := (hsame kind n hn).trans (hv kind n hn)

variable {w : Cluster}

/-- An object that is there is applied as it is. -/
theorem as_put {o : Object} (hn : o.metadata.name ∈ childNames o.resource.kind child.instanceName)
    (ho : w.Has o) {v : Cluster} (hv : Fact.as child.instanceName w v) :
    Fact.as child.instanceName w (v.put o) ∧ Fact.as child.instanceName w (v.put o) := by
  have hhas : v.Has o := (hv _ _ hn).trans ho
  exact and_self_iff.2 fun kind n hn =>
    (Cluster.objects_put_of_has hhas kind n).trans (hv kind n hn)

theorem step_served_again (hplace : InPlace dep obj child w) :
    (Fact.as child.instanceName w).Step (.as child.instanceName w) (ensureHeadscale dep child obj)
      fun _ => Fact.as child.instanceName w := by
  obtain ⟨data, hash, hconfig, hall⟩ := hplace.server
  have hput (o : Object) (ho : o ∈ serverObjects dep obj child data hash) (v : Cluster)
      (hv : Fact.as child.instanceName w v) :=
    as_put (mem_childNames_of_mem_serverObjects o ho) (hall o ho) hv
  refine step_ensureHeadscale (T := fun _ _ => .as child.instanceName w)
    (U := fun _ _ => .as child.instanceName w) (fun _ h => h) (fun _ _ _ h => h)
    (fun _ _ _ h => h) fun data' hash' hconfig' => ?_
  obtain ⟨rfl, rfl⟩ := Prod.mk.inj (Except.ok.inj (hconfig.symm.trans hconfig'))
  exact ⟨hput _ List.mem_cons_self, hput _ (List.mem_cons_of_mem _ List.mem_cons_self),
    hput _ (List.mem_cons_of_mem _ (List.mem_cons_of_mem _ List.mem_cons_self))⟩

theorem step_keyed_again (hplace : InPlace dep obj child w) :
    (Fact.as child.instanceName w).Step (.as child.instanceName w) (ensureApiKey dep child)
      fun _ => Fact.as child.instanceName w := by
  -- The Secret is there, so that no key is minted.
  refine step_ensureApiKey rfl (fun _ h => h) (fun _ h _ => h) fun v key hv hnone => ?_
  have hkey := hplace.apiKey
  rw [← hv .secret _ List.mem_cons_self, hnone] at hkey
  cases hkey

theorem step_scim_again (hplace : InPlace dep obj child w) (hscim : obj.spec.scim = some scim) :
    (Fact.as child.instanceName w).Step (.as child.instanceName w) (ensureScim dep child scim)
      fun _ => Fact.as child.instanceName w := by
  obtain ⟨htoken, hall⟩ := (scimInPlace_some hscim).1 hplace.scim
  have hput (o : Object) (ho : o ∈ scimObjects dep child scim) (v : Cluster)
      (hv : Fact.as child.instanceName w v) :=
    as_put (mem_childNames_of_mem_scimObjects o ho) (hall o ho) hv
  refine step_ensureScim (T := .as child.instanceName w) (U := .as child.instanceName w)
    (fun _ h => h) (fun _ h => h) ?_ (hput _ List.mem_cons_self)
    (hput _ (List.mem_cons_of_mem _ List.mem_cons_self))
  refine step_ensureScimToken rfl (fun _ h => h) (fun _ h _ => h) fun v token hv hnone => ?_
  rw [← hv .secret _ (List.mem_cons_of_mem _ List.mem_cons_self), hnone] at htoken
  cases htoken

theorem step_noScim_again (hplace : InPlace dep obj child w) (hscim : obj.spec.scim = none) :
    (Fact.as child.instanceName w).Step (.as child.instanceName w)
      (deleteScimIfExists child.instanceName) fun _ => Fact.as child.instanceName w := by
  obtain ⟨hstatefulSet, hservice, htoken⟩ := (scimInPlace_none hscim).1 hplace.scim
  have hlast {f g : String → String} : g child.instanceName ∈ [f child.instanceName,
    g child.instanceName] := List.mem_cons_of_mem _ List.mem_cons_self
  have hremove {kind : Kind} {n : String} (hn : n ∈ childNames kind child.instanceName)
      (hnone : w.objects kind n = none) (v : Cluster) (hv : Fact.as child.instanceName w v) :
      Fact.as child.instanceName w (v.remove kind n) := fun kind' n' hn' =>
    (Cluster.objects_remove_of_none ((hv kind n hn).trans hnone) kind' n').trans (hv kind' n' hn')
  exact step_deleteScimIfExists (T := .as child.instanceName w) (U := .as child.instanceName w)
    (V := .as child.instanceName w) (fun _ h => h) (fun _ h => h) (fun _ h => h) (fun _ h => h)
    (hremove hlast hstatefulSet) (hremove hlast hservice) (hremove hlast htoken) fun _ h => h

end Facts

/-! ## Executions -/

section Executions

variable {dep : Deployment} {versions : List CustomResource} {name : String} {w : Cluster}
  {events : List (Process.Event Fate (Cluster → Cluster))} {s : Pool sig Error Action Cluster}
  {obj : CustomResource} {ns uid : String}

/-- What the operator runs for an instance is in place. -/
def Fact.placed (dep : Deployment) (obj : CustomResource) : Fact obj.name where
  holds w := ∀ ns uid, obj.metadata.namespaceName = some ns → obj.uid = some uid →
    InPlace dep obj (childApplierOf obj ns uid) w
  of_same _ _ hv hsame ns uid hns huid := (inPlace dep obj _).of_same (hv ns uid hns huid) hsame

/-- What a reconcile that is to come back in a minute leaves in place. -/
theorem step_reconcile_placed : (.any : Fact obj.name).Step .any (reconcile dep obj)
    fun a w => (.any : Fact obj.name) w ∧ Ended obj (Fact.placed dep obj) a w := by
  refine step_reconcile fun ns uid hns huid _ => ?_
  have hany : ∀ w, (Fact.any : Fact obj.name) w := fun _ => trivial
  have hplaced (w : Cluster) (hw : InPlace dep obj (childApplierOf obj ns uid) w) :
      Fact.placed dep obj w := by
    intro ns' uid' hns' huid'
    obtain rfl := Option.some.inj (hns.symm.trans hns')
    obtain rfl := Option.some.inj (huid.symm.trans huid')
    exact hw
  have hserver := @step_served dep obj (childApplierOf obj ns uid) .any hany
  have hkey := @step_keyed dep obj (childApplierOf obj ns uid) .any hany
  refine step_applyManaged (fun w _ => hany w) (fun w _ => hany w) hserver ?_
  refine step_whenReady (fun w _ => hany w) hkey (fun scim hscim => ?_) fun hscim => ?_
  · exact Triple.mono (@step_scimInPlace dep obj (childApplierOf obj ns uid) scim .any hany hscim)
      (fun _ h => h) fun _ => hplaced
  · exact Triple.mono (@step_noScimInPlace dep obj (childApplierOf obj ns uid) .any hany hscim)
      (fun _ h => h) fun _ => hplaced

/-- A reconcile that asks to come back leaves a status that says whether the instance is ready; and
    only one that left all that the operator runs for it in place says so. -/
theorem in_place_of_ready
    (hturns : cluster.Along (cluster.OwnTurns (isOf versions name) (Cluster.SameFor name))
      (reconciles dep versions w) events)
    (hexec : cluster.exec (reconciles dep versions w) events = some s) {i : ℕ} {secs : ℕ}
    (hobj : versions[i]? = some obj) (hname : obj.name = name)
    (hns : obj.metadata.namespaceName = some ns) (huid : obj.uid = some uid)
    (hend : EndedLast versions name s i (.ok (.requeue secs))) :
    Reported obj (secs == 60) s.world ∧ (secs = 60 → obj.spec.external.isNone = true →
      InPlace dep obj (childApplierOf obj ns uid) s.world) := by
  have hends := (exec_steps (I := .any) (Fact.placed dep) trivial (fun obj _ hobj => ?_) hturns
    hexec).2.2 i obj _ hobj hname hend
  · exact hends.imp_right fun hdone hsecs hexternal => hdone hsecs hexternal ns uid hns huid
  · subst hobj
    exact step_reconcile_placed

open Office in
/-- One of two instances is in place, while the reconcile of the other one goes on. -/
theorem in_place_of_ready_main : ∃ s,
    cluster.exec (reconciles deployment [served "main" none, served "side" (some {})] fresh)
      (succeeds 1 2 ++ succeeds 0 18) = some s ∧ Reported (served "main" none) true s.world ∧
      InPlace deployment (served "main" none)
        (childApplierOf (served "main" none) "headmaster" "main") s.world := by
  have hturns : cluster.Along (cluster.OwnTurns
      (isOf [served "main" none, served "side" (some {})] "main") fun _ _ => False)
      (reconciles deployment [served "main" none, served "side" (some {})] fresh)
      (succeeds 1 2 ++ succeeds 0 18) := by
    decide +kernel
  have hrun : (cluster.exec (reconciles deployment [served "main" none, served "side" (some {})]
      fresh) (succeeds 1 2 ++ succeeds 0 18)).any (fun s =>
        s.threads[0]?.any (endedWith (.requeue 60)) &&
          (calledBy (isOf [served "main" none, served "side" (some {})] "main")
            s.history).head?.map (·.thread) == some 0) = true := by
    decide +kernel
  obtain ⟨s, hs, hcheck⟩ := Option.any_eq_true _ _ |>.1 hrun
  have hplace := in_place_of_ready (hturns.mono (OwnTurns.mono fun _ _ h => h.elim)) hs rfl rfl
    rfl rfl (EndedLast.of_check hcheck)
  exact ⟨s, hs, hplace.1, hplace.2 rfl rfl⟩

theorem inPlace_congr {obj' : CustomResource} (hname : obj'.name = obj.name)
    (hspec : obj'.spec = obj.spec) : InPlace dep obj' (childApplierOf obj' ns uid) w ↔
      InPlace dep obj (childApplierOf obj ns uid) w := by
  have hchild : childApplierOf obj' ns uid = childApplierOf obj ns uid := by
    rw [childApplierOf, hname, hspec]
    rfl
  have hserver (data : Labels) (hash : String) (child : ChildApplier) :
      serverObjects dep obj' child data hash = serverObjects dep obj child data hash := by
    rw [serverObjects, hspec]
    rfl
  have hscim (child : ChildApplier) :
      ScimInPlace dep obj' child w ↔ ScimInPlace dep obj child w := by
    rw [ScimInPlace, hspec]
    rfl
  rw [hchild]
  constructor
  · rintro ⟨⟨data, hash, hconfig, hall⟩, hkey, h⟩
    exact ⟨⟨data, hash, hspec ▸ hconfig, hserver _ _ _ ▸ hall⟩, hkey, (hscim _).1 h⟩
  · rintro ⟨⟨data, hash, hconfig, hall⟩, hkey, h⟩
    exact ⟨⟨data, hash, hspec ▸ hconfig, (hserver _ _ _).symm ▸ hall⟩, hkey, (hscim _).2 h⟩

/-- Reconciles of the spec that is in place change no object of the instance, whether they are
    through, fail or are cut short. -/
theorem objects_of_in_place (hplace : InPlace dep obj (childApplierOf obj ns uid) w)
    (hsame : ∀ obj' ∈ versions, obj'.name = obj.name → obj'.spec = obj.spec ∧
      obj'.metadata.namespaceName = some ns ∧ obj'.uid = some uid)
    (hturns : cluster.Along (cluster.OwnTurns (isOf versions obj.name) (Cluster.SameFor obj.name))
      (reconciles dep versions w) events)
    (hexec : cluster.exec (reconciles dep versions w) events = some s) :
    ∀ kind, ∀ n ∈ childNames kind obj.name, s.world.objects kind n = w.objects kind n := by
  -- The invariant holds after each request, so that it does not matter where a reconcile ends.
  refine (exec_steps (I := .as obj.name w) (fun obj' => Fact.as obj'.name w) (fun _ _ _ => rfl)
    (fun obj' hobj' hname => ?_) hturns hexec).1
  obtain ⟨hspec, hns, huid⟩ := hsame obj' hobj' hname
  rw [← hname]
  refine step_reconcile fun ns' uid' hns' huid' _ => ?_
  obtain rfl := Option.some.inj (hns.symm.trans hns')
  obtain rfl := Option.some.inj (huid.symm.trans huid')
  have hplace' := (inPlace_congr hname hspec).2 hplace
  refine step_applyManaged (fun _ h => h) (fun _ h => h) (step_served_again hplace') ?_
  refine step_whenReady (fun _ h => h) (step_keyed_again hplace') (fun scim hscim => ?_)
    fun hscim => ?_
  · exact step_scim_again hplace' hscim
  · exact step_noScim_again hplace' hscim

end Executions

namespace Office

/-- The instance `main` is in place. -/
def placed : Cluster :=
  let child := childApplierOf (served "main" none) "headmaster" "main"
  (serverObjects deployment (served "main" none) child
      [("config.yaml", "server_url: https://vpn.example.com")]
      (deployment.digest "server_url: https://vpn.example.com") ++
    [child.object "headscale" (apiKeySecretName "main")
      (.secret [("HEADSCALE_API_KEY", "hskey")])]).foldl Cluster.put fresh

end Office

open Office in
/-- One reconcile fails after its first requests, and the next one is through. -/
theorem objects_of_in_place_failed : ∃ s,
    cluster.exec (reconciles deployment [served "main" none, served "main" none] placed)
      (succeeds 0 2 ++ .act 0 ⟨some true, answer⟩ :: succeeds 1 15) = some s ∧
    s.world.objects .statefulSet "headscale-server-main" =
      placed.objects .statefulSet "headscale-server-main" := by
  have hplace : InPlace deployment (served "main" none)
      (childApplierOf (served "main" none) "headmaster" "main") placed :=
    ⟨⟨_, _, rfl, by decide +kernel⟩, by decide +kernel, by decide +kernel, by decide +kernel,
      by decide +kernel⟩
  have hturns : cluster.Along (cluster.OwnTurns
      (isOf [served "main" none, served "main" none] "main") fun _ _ => False)
      (reconciles deployment [served "main" none, served "main" none] placed)
      (succeeds 0 2 ++ .act 0 ⟨some true, answer⟩ :: succeeds 1 15) := by
    decide +kernel
  have hrun : (cluster.exec (reconciles deployment [served "main" none, served "main" none] placed)
      (succeeds 0 2 ++ .act 0 ⟨some true, answer⟩ :: succeeds 1 15)).isSome = true := by
    decide +kernel
  obtain ⟨s, hs⟩ := Option.isSome_iff_exists.1 hrun
  refine ⟨s, hs, objects_of_in_place hplace ?_ (hturns.mono (OwnTurns.mono fun _ _ h => h.elim)) hs
    .statefulSet _ List.mem_cons_self⟩
  intro obj hobj _
  rcases List.mem_pair.1 hobj with rfl | rfl <;> exact ⟨rfl, rfl, rfl⟩

end Headmaster.Operator.Instance
