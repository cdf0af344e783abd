import Headmaster.Operator.Instance.Walk

/-!
# The Secrets of an instance

The API key of an instance is minted in its pod and kept in a Secret, and so is
the token of its SCIM server. Over any run of the reconciles of the instance,
each on another version of its spec, with requests that fail and reconciles cut
short:

* there is no SCIM server without its two Secrets, from which its pod takes
  variables (`secrets_before_scim`);
* a key is minted only while there is no Secret for it, and neither Secret is
  written again; that of the key stays, and that of the token as long as the
  spec has a SCIM server (`secrets_once`).
-/

namespace Headmaster.Operator.Instance

open Process (Pool)
open Process.Machine (OwnTurns Triple)
open Proxy (Action)

/-! ## Facts about Secrets -/

namespace Fact

variable (name : String)

/-- The Secrets are there before the SCIM server is. -/
def secretsFirst : Fact name where
  holds w := (w.objects .statefulSet (scimName name)).isSome = true →
    (w.objects .secret (apiKeySecretName name)).isSome = true ∧
      (w.objects .secret (scimTokenSecretName name)).isSome = true
  of_same v w hv hsame := by
    have hlast {f g : String → String} : g name ∈ [f name, g name] :=
      List.mem_cons_of_mem _ List.mem_cons_self
    rwa [hsame .statefulSet _ hlast, hsame .secret _ List.mem_cons_self, hsame .secret _ hlast]

def apiKey (p : Option Object → Prop) : Fact name :=
  .object .secret (apiKeySecretName name) List.mem_cons_self p

def token (p : Option Object → Prop) : Fact name :=
  .object .secret (scimTokenSecretName name) (List.mem_cons_of_mem _ List.mem_cons_self) p

end Fact

variable {dep : Deployment} {obj : CustomResource} {child : ChildApplier} {name : String}

/-- What no object of headscale has to do with, its steps keep. -/
theorem step_ensureHeadscale_of_put {I : Fact name} (hchild : child.instanceName = name)
    (hput : ∀ w object, I w → object.resource.kind ≠ .secret →
      object.metadata.name = serverName name → I (w.put object)) :
    I.Step I (ensureHeadscale dep child obj) fun _ => I := by
  subst hchild
  have hput (object : Object) (hkind : object.resource.kind ≠ .secret)
      (hname : object.metadata.name = serverName child.instanceName) (w : Cluster) (hw : I w) :
      I (w.put object) ∧ I (w.put object) := and_self_iff.2 (hput w object hw hkind hname)
  refine step_ensureHeadscale (T := fun _ _ => I) (U := fun _ _ => I) (fun _ h => h)
    (fun _ _ _ h => h) (fun _ _ _ h => h) fun data hash _ => ⟨hput _ ?_ rfl, hput _ ?_ rfl,
      hput _ ?_ rfl⟩
  all_goals
    intro h
    cases h

theorem put_of_ne {kind : Kind} {n : String} {hn : n ∈ childNames kind name}
    {p : Option Object → Prop} {object : Object} {w : Cluster}
    (hw : Fact.object kind n hn p w)
    (hne : ¬(kind = object.resource.kind ∧ n = object.metadata.name)) :
    Fact.object kind n hn p (w.put object) :=
  (congrArg p (Cluster.objects_setObject_of_ne (some object) hne)).mpr hw

theorem remove_of_ne {kind kind' : Kind} {n n' : String} {hn : n ∈ childNames kind name}
    {p : Option Object → Prop} {w : Cluster} (hw : Fact.object kind n hn p w)
    (hne : ¬(kind = kind' ∧ n = n')) : Fact.object kind n hn p (w.remove kind' n') :=
  (congrArg p (Cluster.objects_remove_of_ne hne)).mpr hw

/-! ## The Secrets come first -/

theorem secretsFirst_put {object : Object} {w : Cluster} (hw : Fact.secretsFirst name w)
    (hne : ¬(Kind.statefulSet = object.resource.kind ∧ scimName name = object.metadata.name)) :
    Fact.secretsFirst name (w.put object) := by
  intro hscim
  rw [Cluster.put, Cluster.objects_setObject_of_ne _ hne] at hscim
  exact (hw hscim).imp Cluster.isSome_put Cluster.isSome_put

theorem secretsFirst_of_secrets {w : Cluster}
    (hkey : Fact.apiKey name (fun o => o.isSome = true) w)
    (htoken : Fact.token name (fun o => o.isSome = true) w) : Fact.secretsFirst name w :=
  fun _ => ⟨hkey, htoken⟩

theorem step_whenReady_secretsFirst (hobj : obj.name = name) (hchild : child.instanceName = name) :
    (Fact.secretsFirst name).Step (.secretsFirst name) (whenReady dep obj child)
      fun _ => Fact.secretsFirst name := by
  subst hchild
  let I := Fact.secretsFirst child.instanceName
  let Keyed := I.and (.apiKey child.instanceName fun o => o.isSome = true)
  let Both := Keyed.and (.token child.instanceName fun o => o.isSome = true)
  refine step_whenReady (K := Keyed) (D := I) (fun w hw => hw.1) ?_ (fun scim hscim => ?_)
    fun hscim => ?_
  · refine step_ensureApiKey rfl (fun _ h => h) (fun w hw hfound => ⟨hw, hfound⟩)
      fun w key hw _ => ?_
    have hput : I (w.put (child.object "headscale" (apiKeySecretName child.instanceName)
        (.secret [("HEADSCALE_API_KEY", key)]))) := secretsFirst_put hw fun h => by cases h.1
    exact ⟨hput, hput, congrArg Option.isSome Cluster.has_put⟩
  · refine step_ensureScim (T := Both) (U := I) (fun w hw => hw.1.1) (fun _ h => h) ?_
      (fun w hw => ?_) fun w hw => ?_
    · refine step_ensureScimToken rfl (fun w hw => hw.1) (fun w hw hfound => ⟨hw, hfound⟩)
        fun w token hw _ => ?_
      let o := child.object "scim" (scimTokenSecretName child.instanceName)
        (.secret [("SCIM_BEARER_TOKEN", token)])
      have hkey : Fact.apiKey child.instanceName (fun o => o.isSome = true) (w.put o) :=
        Cluster.isSome_put hw.2
      have htoken : Fact.token child.instanceName (fun o => o.isSome = true) (w.put o) :=
        congrArg Option.isSome Cluster.has_put
      have hboth := secretsFirst_of_secrets hkey htoken
      exact ⟨hboth, ⟨hboth, hkey⟩, htoken⟩
    · exact and_self_iff.2 (secretsFirst_of_secrets (Cluster.isSome_put hw.1.2)
        (Cluster.isSome_put hw.2))
    · exact and_self_iff.2 (secretsFirst_put hw fun h => by cases h.1)
  · -- the StatefulSet is gone first
    have hlast {f g : String → String} : g child.instanceName ∈ [f child.instanceName,
      g child.instanceName] := List.mem_cons_of_mem _ List.mem_cons_self
    let Gone : Fact child.instanceName :=
      .object .statefulSet (scimName child.instanceName) hlast (· = none)
    have hgone (w : Cluster) (hw : Gone w) : I w := by
      intro hscim
      rw [show w.objects .statefulSet (scimName child.instanceName) = none from hw] at hscim
      cases hscim
    rw [hobj]
    refine step_deleteScimIfExists (T := Gone) (U := Gone) (V := Gone) (fun w hw => hw.1)
      hgone hgone hgone (fun w _ => ?_) (fun w hw => ?_) (fun w hw => ?_) hgone
    · exact Cluster.objects_setObject _
    · exact remove_of_ne hw fun h => by cases h.1
    · exact remove_of_ne hw fun h => by cases h.1

/-! ## The key -/

theorem step_whenReady_any (hobj : obj.name = name) (hchild : child.instanceName = name) :
    (.any : Fact name).Step .any (whenReady dep obj child) fun _ => (.any : Fact name) := by
  have htrivial (w : Cluster) (_ : (.any : Fact name) w) : (.any : Fact name) w := trivial
  have hboth (w : Cluster) (_ : (.any : Fact name) w) :
      (.any : Fact name) w ∧ (.any : Fact name) w := ⟨trivial, trivial⟩
  refine step_whenReady (K := .any) htrivial ?_ (fun scim _ => ?_) fun _ => ?_
  · exact step_ensureApiKey hchild htrivial (fun w hw _ => hw) fun w _ hw _ => hboth _ hw
  · refine step_ensureScim (T := .any) (U := .any) htrivial htrivial ?_ (fun w hw => hboth _ hw)
      fun w hw => hboth _ hw
    exact step_ensureScimToken hchild htrivial (fun w hw _ => hw) fun w _ hw _ => hboth _ hw
  · rw [hobj]
    exact step_deleteScimIfExists (T := .any) (U := .any) (V := .any) htrivial htrivial htrivial
      htrivial htrivial htrivial htrivial htrivial

/-- A Secret that is there stays as it is. -/
theorem step_whenReady_apiKey {o : Object} (hobj : obj.name = name)
    (hchild : child.instanceName = name) :
    (Fact.apiKey name (· = some o)).Step (.apiKey name (· = some o)) (whenReady dep obj child)
      fun _ => Fact.apiKey name (· = some o) := by
  subst hchild
  let I := Fact.apiKey child.instanceName (· = some o)
  have hput (object : Object) (w : Cluster) (hw : I w)
      (hne : object.resource.kind ≠ .secret ∨
        object.metadata.name = scimTokenSecretName child.instanceName) :
      I (w.put object) ∧ I (w.put object) := by
    refine and_self_iff.2 (put_of_ne hw fun h => ?_)
    rcases hne with hne | hne
    · exact hne h.1.symm
    · exact apiKeySecretName_ne_scimTokenSecretName _ _ (h.2.trans hne)
  have hscimKind {scim : ScimSpec} : (child.statefulSet "scim" (scimName child.instanceName)
      (scimStatefulset dep child.instanceName child.ns scim)).resource.kind ≠ .secret := by
    intro h
    cases h
  refine step_whenReady (K := I) (D := I) (fun _ h => h) ?_ (fun scim _ => ?_) fun _ => ?_
  · refine step_ensureApiKey rfl (fun _ h => h) (fun _ h _ => h) fun w key hw hnone => ?_
    cases hnone.symm.trans hw
  · refine step_ensureScim (T := I) (U := I) (fun _ h => h) (fun _ h => h) ?_
      (fun w hw => hput _ w hw (.inl hscimKind)) fun w hw => hput _ w hw (.inl ?_)
    · exact step_ensureScimToken rfl (fun _ h => h) (fun _ h _ => h)
        fun w token hw _ => hput _ w hw (.inr rfl)
    · intro h
      cases h
  · rw [hobj]
    refine step_deleteScimIfExists (T := I) (U := I) (V := I) (fun _ h => h) (fun _ h => h)
      (fun _ h => h) (fun _ h => h) (fun w hw => ?_) (fun w hw => ?_) (fun w hw => ?_) fun _ h => h
    · exact remove_of_ne hw fun h => by cases h.1
    · exact remove_of_ne hw fun h => by cases h.1
    · exact remove_of_ne hw fun h => apiKeySecretName_ne_scimTokenSecretName _ _ h.2

/-! ## The token -/

/-- With a SCIM server, so does its Secret. -/
theorem step_whenReady_token {o : Object} (hchild : child.instanceName = name)
    (hscim : obj.spec.scim.isSome = true) :
    (Fact.token name (· = some o)).Step (.token name (· = some o)) (whenReady dep obj child)
      fun _ => Fact.token name (· = some o) := by
  subst hchild
  let I := Fact.token child.instanceName (· = some o)
  have hput (object : Object) (w : Cluster) (hw : I w)
      (hne : object.resource.kind ≠ .secret ∨
        object.metadata.name = apiKeySecretName child.instanceName) :
      I (w.put object) ∧ I (w.put object) := by
    refine and_self_iff.2 (put_of_ne hw fun h => ?_)
    rcases hne with hne | hne
    · exact hne h.1.symm
    · exact apiKeySecretName_ne_scimTokenSecretName _ _ (hne.symm.trans h.2.symm)
  refine step_whenReady (K := I) (D := I) (fun _ h => h) ?_ (fun scim _ => ?_) fun hnone => ?_
  · exact step_ensureApiKey rfl (fun _ h => h) (fun _ h _ => h)
      fun w key hw _ => hput _ w hw (.inr rfl)
  · refine step_ensureScim (T := I) (U := I) (fun _ h => h) (fun _ h => h) ?_
      (fun w hw => hput _ w hw (.inl ?_)) fun w hw => hput _ w hw (.inl ?_)
    · refine step_ensureScimToken rfl (fun _ h => h) (fun _ h _ => h) fun w token hw hnone => ?_
      cases hnone.symm.trans hw
    all_goals
      intro h
      cases h
  · rw [hnone] at hscim
    cases hscim

/-! ## Runs -/

section Runs

variable {versions : List CustomResource} {w : Cluster}
  {events : List (Process.Event Fate (Cluster → Cluster))} {s : Pool sig Error Action Cluster}

/-- There is no SCIM server without its Secrets, whatever becomes of the spec. -/
theorem secrets_before_scim (hstart : Fact.secretsFirst name w)
    (hturns : cluster.Along (cluster.OwnTurns (isOf versions name) (Cluster.SameFor name))
      (reconciles dep versions w) events)
    (hexec : cluster.exec (reconciles dep versions w) events = some s) :
    Fact.secretsFirst name s.world := by
  refine (exec_kept hstart (fun obj child hchild => ?_) (fun obj _ hobj _ child hchild =>
    step_whenReady_secretsFirst hobj hchild) hturns hexec).1
  refine step_ensureHeadscale_of_put hchild fun w object hw _ hname => secretsFirst_put hw fun h => ?_
  exact serverName_ne_scimName _ _ (hname.symm.trans h.2.symm)

open Office in
/-- The SCIM server of an instance is put in place, and deleted in part. -/
theorem secrets_before_scim_main : ∃ s,
    cluster.exec (reconciles deployment [served "main" (some {}), served "main" none] fresh)
      (succeeds 0 19 ++ succeeds 1 9) = some s ∧ Fact.secretsFirst "main" s.world := by
  have hturns : cluster.Along (cluster.OwnTurns
      (isOf [served "main" (some {}), served "main" none] "main") fun _ _ => False)
      (reconciles deployment [served "main" (some {}), served "main" none] fresh)
      (succeeds 0 19 ++ succeeds 1 9) := by
    decide +kernel
  have hrun : (cluster.exec (reconciles deployment [served "main" (some {}), served "main" none]
      fresh) (succeeds 0 19 ++ succeeds 1 9)).isSome = true := by
    decide +kernel
  obtain ⟨s, hs⟩ := Option.isSome_iff_exists.1 hrun
  exact ⟨s, hs, secrets_before_scim (fun h => absurd h (by decide))
    (hturns.mono (OwnTurns.mono fun _ _ h => h.elim)) hs⟩

/-- A key is minted, and a Secret written, only while there is no such Secret. The one with the key
    is never deleted, and the one with the token is not while the spec has a SCIM server. -/
theorem secrets_once
    (hturns : cluster.Along (cluster.OwnTurns (isOf versions name) (Cluster.SameFor name))
      (reconciles dep versions w) events)
    (hexec : cluster.exec (reconciles dep versions w) events = some s) :
    (∀ e hist, e :: hist <:+ s.history → isOf versions name e.thread = true →
      e.op.FirstTime name e.before) ∧
    (∀ o, w.objects .secret (apiKeySecretName name) = some o →
      s.world.objects .secret (apiKeySecretName name) = some o) ∧
    ((∀ obj ∈ versions, obj.name = name → obj.spec.external.isNone = true →
        obj.spec.scim.isSome = true) →
      ∀ o, w.objects .secret (scimTokenSecretName name) = some o →
        s.world.objects .secret (scimTokenSecretName name) = some o) := by
  have hserver {n : String} {hn : n ∈ childNames .secret name} {p : Option Object → Prop}
      (obj : CustomResource) (child : ChildApplier) (hchild : child.instanceName = name) :
      (Fact.object .secret n hn p).Step (.object .secret n hn p) (ensureHeadscale dep child obj)
        fun _ => Fact.object .secret n hn p :=
    step_ensureHeadscale_of_put hchild fun w object hw hkind _ => put_of_ne hw fun h => hkind h.1.symm
  refine ⟨?_, fun o ho => ?_, fun hscim o ho => ?_⟩
  · exact (exec_kept (I := .any) trivial (fun obj child hchild => step_ensureHeadscale_of_put hchild
      fun _ _ _ _ _ => trivial) (fun obj _ hobj _ child hchild => step_whenReady_any hobj hchild)
      hturns hexec).2
  · exact (exec_kept (I := .apiKey name (· = some o)) ho hserver (fun obj _ hobj _ child hchild =>
      step_whenReady_apiKey hobj hchild) hturns hexec).1
  · exact (exec_kept (I := .token name (· = some o)) ho hserver (fun obj hmem hobj hexternal child
      hchild => step_whenReady_token hchild (hscim obj hmem hobj hexternal)) hturns hexec).1

open Office in
/-- A key is minted for an instance that has none. -/
theorem secrets_once_main : ∃ s,
    cluster.exec (reconciles deployment [served "main" (some {}), served "main" none] fresh)
      (succeeds 0 19 ++ succeeds 1 9) = some s ∧ (s.history.any fun e => mints e.op) = true ∧
    ∀ e hist, e :: hist <:+ s.history →
      isOf [served "main" (some {}), served "main" none] "main" e.thread = true →
      e.op.FirstTime "main" e.before := by
  have hturns : cluster.Along (cluster.OwnTurns
      (isOf [served "main" (some {}), served "main" none] "main") fun _ _ => False)
      (reconciles deployment [served "main" (some {}), served "main" none] fresh)
      (succeeds 0 19 ++ succeeds 1 9) := by
    decide +kernel
  have hrun : (cluster.exec (reconciles deployment [served "main" (some {}), served "main" none]
      fresh) (succeeds 0 19 ++ succeeds 1 9)).any (fun s => s.history.any fun e => mints e.op) =
        true := by
    decide +kernel
  obtain ⟨s, hs, hmints⟩ := Option.any_eq_true _ _ |>.1 hrun
  exact ⟨s, hs, hmints, (secrets_once (hturns.mono (OwnTurns.mono fun _ _ h => h.elim)) hs).1⟩

end Runs

end Headmaster.Operator.Instance
