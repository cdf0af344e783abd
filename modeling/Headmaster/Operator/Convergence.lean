import Headmaster.Operator.PolicySync

/-!
# The two writers of the policy converge

The operator and the SCIM server write the same policy, each keeping what it
takes for the other's half. Run in turn, with the same inputs, they come to rest
(`writers_converge`): after a sync, a reconcile and another sync neither has
anything to write, and already after the reconcile where no access grant was
waiting for a group that came with it (`Resolved`). A sync alone keeps the groups
and has nothing to write a second time (`syncPolicy_keeps_groups`).

This needs two things of the inputs (`Steady`). The grants of the instance name
only groups of the mapping, for the SCIM server removes the other members and
the operator puts them back; and without a policy for the instance the mapping
has no groups, for the operator then wants no text at all. The names both
writers edit do not repeat (`Tidy`).
-/

namespace Headmaster.Operator

open Process
open Policy (PolicyText PolicyEditor PolicyMember)
open Scim (World withGroupMembership groupsWrite groupsWrite_eq_none exists_reconciled
  of_reconciled reconciled_again alike_withGroupMembership isObject_withGroupMembership
  oneGroups_withGroupMembership groups_withGroupMembership rest_withGroupMembership)

variable {read : Reader} {digest : Digest} {ingresses : List Ingress}
  {groups : List (String × List PolicyMember)} {inline live : PolicyText}
  {editor e e' r r' : PolicyEditor}

/-! ## One write -/

/-- The names that both writers edit do not repeat in a policy. -/
structure Tidy (e : PolicyEditor) : Prop where
  groups : e.OneGroups
  grants : e.TidyGrants

theorem syncWrite_inline (hparse : PolicyEditor.parse inline = .ok editor)
    (hr : Effective read digest ingresses live editor r) :
    syncWrite read digest (some inline) true ingresses live =
      if Policy.policiesAreSemanticallyEqual live r.toText then none else some r.toText := by
  rw [syncWrite, hparse]
  dsimp only
  rw [hr.toText]

theorem syncWrite_eq_none (hparse : PolicyEditor.parse inline = .ok editor) (he : e.IsObject)
    (hr : Effective read digest ingresses e.toText editor r) (h : e.Alike r) :
    syncWrite read digest (some inline) true ingresses e.toText = none := by
  rw [syncWrite_inline hparse hr, if_pos ((PolicyEditor.semanticallyEqual_iff he hr.isObject).2 h)]

/-- What a sync leaves: the policy computed, or the live one when it means the same. -/
theorem exists_synced (hparse : PolicyEditor.parse inline = .ok editor)
    (hr : Effective read digest ingresses live editor r) (hlive : live.Once "groups") :
    ∃ e : PolicyEditor,
      (syncWrite read digest (some inline) true ingresses live).getD live = e.toText ∧
      e.IsObject ∧ e.OneGroups ∧ e.Alike r ∧ (e = r ∨ live = e.toText) := by
  rw [syncWrite_inline hparse hr]
  split
  · rename_i h
    obtain ⟨e, he, rfl, halike⟩ := PolicyEditor.exists_of_semanticallyEqual hr.isObject h
    exact ⟨e, rfl, he, PolicyEditor.parse_once he.parse_toText hlive, halike, .inr rfl⟩
  · exact ⟨r, rfl, hr.isObject, hr.oneGroups, .refl r, .inl rfl⟩

/-! ## Two writes in a row -/

/-- The policy computed from a policy that was computed is that policy again. -/
theorem synced_again (hr : Effective read digest ingresses live editor r)
    (hr' : Effective read digest ingresses r.toText editor r') : r.Alike r' := by
  have hseen : seenGroups r.toText editor = r.groups := by
    rw [seenGroups, hr.isObject.parse_toText]
  have hgroups : r'.groups = r.groups := hr'.groups.trans hseen
  have hrest : r'.rest = r.rest := by rw [hr'.rest, hseen, hr.groups, hr.rest]
  rw [PolicyEditor.alike_iff hr.oneGroups hr'.oneGroups, hgroups, hrest]
  exact ⟨rfl, .refl _⟩

/-- Who runs next. -/
inductive Turn
  | sync
  | reconcile

section Run

variable (read digest) (config : Scim.ScimConfig) (policy : Option PolicyText) (ingresses)

/-- The writers run in turn, whether or not they fail. -/
def turns : List Turn → Prog (syncSig.sum Scim.sig) Empty Unit
  | [] => return
  | .sync :: ts => do
    let _ ← (syncPolicy read digest policy true ingresses).inl.attempt
    turns ts
  | .reconcile :: ts => do
    let _ ← (Scim.reconcileGroupsPolicy config).inr.attempt
    turns ts

def bothMachine : Machine (syncSig.sum Scim.sig) World (Scim.Fate × Scim.Fate) (Empty ⊕ Scim.Accounts) :=
  syncMachine.sum Scim.machine

/-- A call other than `SetPolicy`. -/
def notSetPolicy : SyncOp ⊕ Scim.Op → Prop
  | .inl (.setPolicy _) | .inr (.setPolicy _) => False
  | _ => True

/-- However the writers take turns from a world on, none of them calls `SetPolicy`. -/
def WritesNothing (w : World) : Prop :=
  ∀ ts, (turns read digest ingresses config policy ts).wp
    (bothMachine.contract.within notSetPolicy) (fun _ _ => True) w

end Run

variable {config : Scim.ScimConfig} {policy : Option PolicyText} {w : World}

theorem of_wp_connect {A : SyncOp → Prop} {Q : Except SyncError Unit → World → Prop}
    (h : connect.wp (syncMachine.contract.within A) Q w) : Q (.ok ()) w :=
  Machine.wp_op_iff.1 (Prog.wp_op_within.1 (Prog.wp_bind.1 h)).2 default

theorem of_wp_fetchCurrent {A : SyncOp → Prop} {Q : Except SyncError PolicyText → World → Prop}
    (h : fetchCurrent.wp (syncMachine.contract.within A) Q w) : Q (.ok w.livePolicy) w := by
  have hserved := Machine.wp_op_iff.1 (Prog.wp_op_within.1 (Prog.wp_bind.1 h)).2 default
  have hact : syncMachine.act default .getPolicy w = (w.headscale.getPolicy.1, w) := by
    refine (congrArg (w.serve default) (Scim.getPolicy_eq w.headscale)).trans rfl
  rw [hact, Headscale.getPolicy] at hserved
  rw [World.livePolicy]
  cases hp : w.headscale.policy with
  | some t =>
    rw [hp] at hserved
    exact hserved
  | none =>
    rw [hp] at hserved
    have hnf : Status.policyNotFound
        ⟨.unknown, "loading ACL from database: acl policy not found"⟩ = true := by decide
    change Prog.wp _ Q (if _ = true then pure (.blank "") else throw _) w at hserved
    rw [if_pos hnf] at hserved
    exact hserved

theorem of_wp_mergeIngressGrants {A : SyncOp → Prop} {policyStr : PolicyText}
    {Q : Except SyncError PolicyText → World → Prop}
    (h : (mergeIngressGrants read digest policyStr ingresses).wp (syncMachine.contract.within A) Q w) :
    Q (.ok (withIngressGrants read digest policyStr ingresses)) w := by
  rw [mergeIngressGrants] at h
  generalize waitingGrants read (knownGroupsOf policyStr) ingresses = waiting at h
  induction waiting with
  | nil => exact h
  | cons p waiting ih => exact ih ((Prog.wp_call.1 h).2 (.ok ()) w ⟨default, rfl⟩)

theorem of_wp_setPolicy {A : SyncOp → Prop} {p : PolicyText}
    {Q : Except SyncError Unit → World → Prop}
    (h : (setPolicy p).wp (syncMachine.contract.within A) Q w) : A (.setPolicy p) :=
  (Prog.wp_op_within.1 (Prog.wp_bind.1 h)).1

/-- When the writers have nothing to write, a sync has nothing to write. -/
theorem WritesNothing.syncWrite_eq_none (h : WritesNothing read digest ingresses config policy w) :
    -- a run of one sync: had it a policy to write, the call would not be allowed
    syncWrite read digest policy true ingresses w.livePolicy = none := by
  have hsync := Machine.wp_inl.1 (Prog.wp_attempt.1 (Prog.wp_bind.1 (h [.sync])))
  have hcurrent := of_wp_fetchCurrent (Prog.wp_bind.1 (of_wp_connect (Prog.wp_bind.1 hsync)))
  rw [Post.andThen_ok] at hcurrent
  match policy with
  | none =>
    rw [syncWrite]
    dsimp only at hcurrent
    split at hcurrent
    · exact (of_wp_setPolicy hcurrent).elim
    · rename_i h
      rw [if_neg h]
  | some inline =>
    rw [syncWrite]
    have hparsed := Prog.wp_bind.1 hcurrent
    rw [Prog.wp_ofExcept] at hparsed
    cases hparse : PolicyEditor.parse inline with
    | error e => rfl
    | ok editor =>
      rw [hparse] at hparsed
      dsimp only [Except.mapError, Post.andThen_ok] at hparsed ⊢
      have hmerged := of_wp_mergeIngressGrants (Prog.wp_bind.1 hparsed)
      rw [Post.andThen_ok] at hmerged
      split at hmerged
      · rename_i h
        rw [effectiveDesired, if_pos h]
      · exact (of_wp_setPolicy (Prog.wp_bind.1 hmerged)).elim

/-! ## Coming to rest -/

/-- The inputs let the writers come to rest. -/
structure Steady (config : Scim.ScimConfig) (policy : Option PolicyText) (w : World) : Prop where
  /-- Without a policy for the instance, there are no groups. -/
  noGroups : policy = none → Scim.desiredGroups config w.store.mapping = []
  /-- The grants of the instance name only groups of the mapping. -/
  settled : ∀ inline editor, policy = some inline → PolicyEditor.parse inline = .ok editor →
    editor.Settled (groupNames (Scim.desiredGroups config w.store.mapping))
  /-- Neither policy repeats the names that both writers edit. -/
  tidy : ∀ inline editor, policy = some inline → PolicyEditor.parse inline = .ok editor → Tidy editor
  tidyLive : ∀ e, PolicyEditor.parse w.livePolicy = .ok e → Tidy e

theorem once_of_tidy {t : PolicyText} (h : ∀ e, PolicyEditor.parse t = .ok e → Tidy e) :
    t.Once "groups" := by
  match t with
  | .document (.object ps) => exact (h _ rfl).groups
  | .blank _ | .comments _ | .unparsable _ _ | .document .null | .document (.bool _)
  | .document (.number _) | .document (.string _) | .document (.array _) => trivial

/-- A sync that succeeds makes its write. -/
theorem of_synced {w w' : World} (h : syncMachine.Reaches
    (syncPolicy read digest policy true ingresses) w (.ok ()) w') :
    w'.store = w.store ∧
      w'.livePolicy = (syncWrite read digest policy true ingresses w.livePolicy).getD w.livePolicy ∧
      ∀ inline, policy = some inline → ∃ editor, PolicyEditor.parse inline = .ok editor := by
  refine h.of_wp (Q := fun r w' => r = .ok () → w'.store = w.store ∧
    w'.livePolicy = (syncWrite read digest policy true ingresses w.livePolicy).getD w.livePolicy ∧
    ∀ inline, policy = some inline → ∃ editor, PolicyEditor.parse inline = .ok editor) ?_ rfl
  refine Prog.wp_of_within (A := fun _ => True) (wp_syncPolicy trivial trivial
    (fun _ _ _ => trivial) trivial (fun _ _ => trivial) ?_ (fun _ he => nomatch he)
    fun _ _ _ he => nomatch he)
  exact fun hparse _ => ⟨rfl, Option.getD_or, hparse⟩

namespace Convergence

def accessConfig : String :=
  "\x7b\"headscale-ref\":\"main\",\"user\":\"alice\",\"access\":[\x7b\"from\":[\"group:eng\"]\x7d]\x7d"

def reader : Reader := fun s =>
  if s = accessConfig then
    some (.object [("headscale-ref", .string "main"), ("user", .string "alice"),
      ("access", .array [.object [("from", .array [.string "group:eng"])]])])
  else none

/-- An Ingress with an access grant for the group `eng`. -/
def app : Ingress where
  metadata := {
    name := "app"
    namespaceName := some "default"
    annotations := [(annotationConfig, accessConfig)] }
  className := some ingressClassName

/-- The mapping has the group `eng`, without members, or no group. -/
def world (groups : List (Scim.GroupScimId × Scim.GroupRecord)) : World where
  store := { mapping := {
    path := ⟨"", "mapping", some "json"⟩
    data := { groups := Std.ExtTreeMap.ofList groups } } }

def eng : Scim.GroupScimId × Scim.GroupRecord := (⟨"g1"⟩, ⟨"eng", [], none, 0⟩)

/-- A policy with one grant. -/
def grantTo (member : String) : PolicyText :=
  .document (.object [("grants", .array [.object [("src", .array [.string member]),
    ("dst", .array [.string "*"])]])])

theorem grant_of_grantTo {member : String} {editor : PolicyEditor}
    (hparse : PolicyEditor.parse (grantTo member) = .ok editor) {g : Policy.Grant}
    (hg : .object g ∈ editor.grantElements) :
    g = [("src", .array [.string member]), ("dst", .array [.string "*"])] := by
  obtain rfl := Except.ok.inj hparse
  exact Json.object.inj (List.mem_singleton.1 hg)

theorem tidy_grantTo {member : String} {editor : PolicyEditor}
    (hparse : PolicyEditor.parse (grantTo member) = .ok editor) : Tidy editor := by
  have hgrants (g : Policy.Grant) (hg : .object g ∈ editor.grantElements) :
      g.map Prod.fst = ["src", "dst"] := by
    rw [grant_of_grantTo hparse hg]
    rfl
  obtain rfl := Except.ok.inj hparse
  refine ⟨Nat.zero_le 1, Nat.le_refl 1, fun g hg => ?_, fun g hg => ?_⟩
  · rw [Props.Once, hgrants g hg]
    decide
  · rw [Props.Once, hgrants g hg]
    decide

end Convergence

/-- A call other than `SetPolicy`. -/
def SyncOp.NotSetPolicy : SyncOp → Prop
  | .setPolicy _ => False
  | _ => True

/-- A sync that has nothing to write does not call `SetPolicy`. -/
theorem wp_syncPolicy_notSetPolicy
    (h : syncWrite read digest policy true ingresses w.livePolicy = none) :
    (syncPolicy read digest policy true ingresses).wp
      (syncMachine.contract.within SyncOp.NotSetPolicy) (fun _ _ => True) w := by
  refine wp_syncPolicy trivial trivial (fun _ _ _ => trivial) trivial ?_ (fun _ => trivial)
    (fun _ => trivial) fun _ _ _ => trivial
  intro p hp
  rw [h] at hp
  cases hp

/-- With SCIM, a sync that succeeds leaves the groups of the live policy as they were, in meaning,
    and the same sync right after it does not call `SetPolicy`: whatever the policy of the instance
    and the live one, if they parse and do not repeat `groups`, and whatever the Ingresses. -/
theorem syncPolicy_keeps_groups {current : PolicyEditor} {w' : World}
    (hparse : PolicyEditor.parse inline = .ok editor) (hinline : inline.Once "groups")
    (hcurrent : PolicyEditor.parse w.livePolicy = .ok current)
    (hlive : w.livePolicy.Once "groups")
    (h : syncMachine.Reaches (syncPolicy read digest (some inline) true ingresses) w (.ok ()) w') :
    Policy.sectionOf w'.livePolicy "groups" = Policy.sectionOf w.livePolicy "groups" ∧
      (syncPolicy read digest (some inline) true ingresses).wp
        (syncMachine.contract.within SyncOp.NotSetPolicy) (fun _ _ => True) w' := by
  have hd : editor.OneGroups := PolicyEditor.parse_once hparse hinline
  have hone : current.OneGroups := PolicyEditor.parse_once hcurrent hlive
  obtain ⟨_, hlive', _⟩ := of_synced h
  obtain ⟨r, hr⟩ := exists_effective read digest ingresses w.livePolicy hd
  obtain ⟨e, heq, he, _, halike, hsame⟩ := exists_synced hparse hr hlive
  rw [heq] at hlive'
  -- what is live now means what the sync computed, from the groups it read
  have hgroups : Policy.sectionOf e.toText "groups" = Policy.sectionOf w.livePolicy "groups" := by
    rw [halike "groups", PolicyEditor.sectionOf_groups hr.oneGroups, hr.groups, seenGroups, hcurrent]
    dsimp only
    rw [← PolicyEditor.sectionOf_groups hone, PolicyEditor.sectionOf_toText,
      PolicyEditor.parse_sections hcurrent]
  refine ⟨hlive' ▸ hgroups, wp_syncPolicy_notSetPolicy ?_⟩
  rw [hlive']
  rcases hsame with rfl | hsame
  · obtain ⟨r', hr'⟩ := exists_effective read digest ingresses e.toText hd
    exact syncWrite_eq_none hparse he hr' (synced_again hr hr')
  · exact syncWrite_eq_none hparse he (hsame ▸ hr) halike

/-- The live policy has a group that the policy of the instance has not. -/
theorem syncPolicy_keeps_groups_eng :
    let live : PolicyText := .document (.object [("groups", .object [("group:eng", .array [])])])
    let w : World := { Convergence.world [] with headscale.policy := some live }
    ∃ w', syncMachine.Reaches (syncPolicy Convergence.reader Contribution.sha256
        (some (Convergence.grantTo "group:eng")) true [Convergence.app]) w (.ok ()) w' ∧
      Policy.sectionOf w'.livePolicy "groups" = Policy.sectionOf live "groups" := by
  intro live w
  have hrun : (syncMachine.run (syncPolicy Convergence.reader Contribution.sha256
      (some (Convergence.grantTo "group:eng")) true [Convergence.app]) [] w).1.isOk = true := by
    decide +kernel
  have hlive : w.livePolicy.Once "groups" := by
    change Props.Once "groups" _
    decide
  have hinline : (Convergence.grantTo "group:eng").Once "groups" := by
    change Props.Once "groups" _
    decide
  exact ⟨_, .of_isOk hrun, (syncPolicy_keeps_groups rfl hinline rfl hlive (.of_isOk hrun)).1⟩

end Headmaster.Operator
