import Headmaster.Policy.Meaning
import Headmaster.Scim.Services

/-!
# Rules for the parts of requests

What the processes that requests are made of leave, when they run alone on the
server: `fetchPolicy`, `setGroupMembership` and `reconcileGroupsPolicy` here,
as rules for the weakest precondition. `InSync` is what a reconcile is for.
-/

namespace Headmaster.Scim

open Process
open Policy (PolicyText PolicyEditor PolicyMember groupEntries entriesOf)

/-- The server and headscale as a contract: any call may fail. -/
abbrev anyFate : Contract sig World := machine.contract

namespace World

/-- The live policy, empty when none was ever set. -/
def livePolicy (w : World) : PolicyText := w.headscale.policy.getD (.blank "")

/-- The world with another live policy, and the policy lock free. -/
def withPolicy (w : World) (policy : Option PolicyText) : World :=
  { w with headscale.policy := policy, policyLocked := false }

/-- The top-level `groups` of the live policy is not repeated. -/
abbrev OneGroups (w : World) : Prop := w.livePolicy.Once "groups"

end World

/-- The `groups` of the live policy are those the mapping asks for. -/
def InSync (config : ScimConfig) (w : World) : Prop :=
  groupEntries w.livePolicy = some (entriesOf (desiredGroups config w.store.mapping))

variable {config : ScimConfig} {w : World}

theorem withGroupMembership_groups {e : PolicyEditor}
    (groups : List (String × List PolicyMember)) (h : Props.Once "groups" e.objectValueOrSet) :
    groupEntries (withGroupMembership e groups).toText = some (entriesOf groups) :=
  Policy.groupEntries_setGroups e groups _ h

theorem withGroupMembership_once {e : PolicyEditor}
    (groups : List (String × List PolicyMember)) (h : Props.Once "groups" e.objectValueOrSet) :
    (withGroupMembership e groups).toText.Once "groups" :=
  Policy.once_setGroups_filterMapGrants e groups _ h

/-- A policy that the edit leaves as it is has the groups already. -/
theorem groups_of_unchanged {t : PolicyText} {e : PolicyEditor}
    {groups : List (String × List PolicyMember)} (ht : PolicyEditor.parse t = .ok e)
    (hOnce : t.Once "groups")
    (h : Policy.policiesAreSemanticallyEqual e.toText (withGroupMembership e groups).toText = true) :
    groupEntries t = some (entriesOf groups) := by
  have hsec : groupEntries t = groupEntries e.toText := by
    unfold groupEntries
    rw [PolicyEditor.sectionOf_toText, PolicyEditor.parse_sections ht]
  rw [hsec, Policy.groupEntries_eq_of_semanticallyEqual h,
    withGroupMembership_groups groups (PolicyEditor.parse_once ht hOnce)]

/-! ## Calls -/

section Calls

variable {α : Type}

@[simp]
theorem wp_fromStatus {S : Type} {c : Contract sig S} {s : S} {r : Except Status α}
    {Q : Except ScimError α → S → Prop} :
    (fromStatus r).wp c Q s = Q (r.mapError ScimError.ofStatus) s := rfl

theorem wp_locked {s : Section} {Q : Except ScimError s.Result → World → Prop} :
    (locked s).wp anyFate Q w ↔
      ∀ os, Q (s.body.exec os w.store).1 (w.withStore (s.body.exec os w.store).2) := by
  refine (Prog.wp_bind (p := Prog.op (σ := sig) (.locked s))).trans (Machine.wp_op_iff.trans ?_)
  exact ⟨fun h os => h { os }, fun h f => h f.os⟩

theorem wp_desiredGroups {Q : Except ScimError (List (String × List PolicyMember)) → World → Prop} :
    (Locked.desiredGroups config).wp anyFate Q w ↔
      Q (.ok (desiredGroups config w.store.mapping)) w :=
  wp_locked.trans ⟨fun h => h {}, fun h _ => h⟩

theorem wp_desiredGroups_within {A : Op → Prop}
    {Q : Except ScimError (List (String × List PolicyMember)) → World → Prop}
    (hA : A (.locked (.desiredGroups config))) :
    (Locked.desiredGroups config).wp (anyFate.within A) Q w ↔
      Q (.ok (desiredGroups config w.store.mapping)) w :=
  ((Prog.wp_bind.trans Prog.wp_op_within).trans (and_iff_right hA)).trans
    (Prog.wp_bind.symm.trans wp_desiredGroups)

theorem wp_lockPolicy {Q : Except ScimError Unit → World → Prop} :
    lockPolicy.wp anyFate Q w ↔ Q (.ok ()) { w with policyLocked := true } :=
  Machine.wp_op_iff.trans ⟨fun h => h default, fun h _ => h⟩

theorem wp_unlockPolicy {Q : Except ScimError Unit → World → Prop} :
    unlockPolicy.wp anyFate Q w ↔ Q (.ok ()) { w with policyLocked := false } :=
  Machine.wp_op_iff.trans ⟨fun h => h default, fun h _ => h⟩

/-- A call to headscale is served, or fails on the way before or after its
    effect. -/
theorem forall_serve {r : Except Status α × Headscale} {P : Except Status α → World → Prop} :
    (∀ f : Fate, P (w.serve f r).1 (w.serve f r).2) ↔
      P r.1 { w with headscale := r.2 } ∧
      ∀ failure : Failure, P (.error failure.status) w ∧
        P (.error failure.status) { w with headscale := r.2 } := by
  constructor
  · intro h
    exact ⟨h { outcome := .served }, fun failure =>
      ⟨h { outcome := .failed failure false }, h { outcome := .failed failure true }⟩⟩
  · rintro ⟨hserved, hfailed⟩ ⟨os, outcome⟩
    match outcome with
    | .served => exact hserved
    | .failed failure false => exact (hfailed failure).1
    | .failed failure true => exact (hfailed failure).2

theorem getPolicy_eq (h : Headscale) : h.getPolicy = (h.getPolicy.1, h) := by
  rw [Headscale.getPolicy]
  split <;> rfl

theorem wp_getPolicy {Q : Except ScimError (Except Status PolicyText) → World → Prop} :
    getPolicy.wp anyFate Q w ↔ Q (.ok w.headscale.getPolicy.1) w ∧
      ∀ failure : Failure, Q (.ok (.error failure.status)) w := by
  refine Machine.wp_op_iff.trans ?_
  refine (forall_serve (P := fun r w' => Q (.ok r) w')).trans ?_
  rw [getPolicy_eq]
  simp only [and_self]

theorem wp_setPolicy {policy : PolicyText} {Q : Except ScimError (Except Status Unit) → World → Prop} :
    (setPolicy policy).wp anyFate Q w ↔
      Q (.ok (.ok ())) { w with headscale.policy := some policy } ∧
      ∀ failure : Failure, Q (.ok (.error failure.status)) w ∧
        Q (.ok (.error failure.status)) { w with headscale.policy := some policy } :=
  Machine.wp_op_iff.trans (forall_serve (P := fun r w' => Q (.ok r) w'))

theorem wp_listNodes {Q : Except ScimError (Except Status (List Node)) → World → Prop} :
    listNodes.wp anyFate Q w ↔ Q (.ok (.ok w.headscale.nodes)) w ∧
      ∀ failure : Failure, Q (.ok (.error failure.status)) w := by
  refine Machine.wp_op_iff.trans ?_
  refine (forall_serve (P := fun r w' => Q (.ok r) w')).trans ?_
  simp only [Headscale.listNodes, and_self]

theorem wp_listUsers {Q : Except ScimError (Except Status (List User)) → World → Prop} :
    listUsers.wp anyFate Q w ↔ Q (.ok (.ok w.headscale.users)) w ∧
      ∀ failure : Failure, Q (.ok (.error failure.status)) w := by
  refine Machine.wp_op_iff.trans ?_
  refine (forall_serve (P := fun r w' => Q (.ok r) w')).trans ?_
  simp only [Headscale.listUsers, and_self]

theorem expireNode_headscale (h : Headscale) (id : Nat) : (h.expireNode id).2 = h := by
  rw [Headscale.expireNode]
  split <;> rfl

theorem wp_expireNode {id : Nat} {Q : Except ScimError (Except Status Unit) → World → Prop}
    (h : ∀ r, Q (.ok r) (w.sending [.expireNode id])) : (expireNode id).wp anyFate Q w := by
  refine Machine.wp_op_iff.2 ?_
  refine (forall_serve (w := w.sending [.expireNode id]) (P := fun r w' => Q (.ok r) w')).2 ?_
  have hsame : ({ w.sending [.expireNode id] with headscale := (w.headscale.expireNode id).2 } :
      World) = w.sending [.expireNode id] := by
    rw [expireNode_headscale]
    rfl
  rw [hsame]
  exact ⟨h _, fun failure => ⟨h _, h _⟩⟩

theorem deleteUser_headscale (h : Headscale) (id : Nat) :
    ∃ users, (h.deleteUser id).2 = { h with users } := by
  rw [Headscale.deleteUser]
  split
  · exact ⟨_, rfl⟩
  · exact ⟨h.users, rfl⟩

theorem wp_deleteUser {id : Nat} {Q : Except ScimError (Except Status Unit) → World → Prop}
    (h : ∀ r users, Q (.ok r) { w.sending [.deleteUser id] with headscale.users := users }) :
    (deleteUser id).wp anyFate Q w := by
  obtain ⟨users, husers⟩ := deleteUser_headscale w.headscale id
  refine Machine.wp_op_iff.2 ?_
  refine (forall_serve (w := w.sending [.deleteUser id]) (P := fun r w' => Q (.ok r) w')).2 ?_
  rw [husers]
  exact ⟨h _ users, fun failure => ⟨h _ w.headscale.users, h _ users⟩⟩

theorem wp_ignoreNotFound {r : Except Status Unit} {Q : Except ScimError Unit → World → Prop}
    (h : ∀ r, Q r w) : (ignoreNotFound r).wp anyFate Q w := by
  unfold ignoreNotFound
  split
  · exact h _
  · split
    · exact h _
    · exact h _

end Calls

/-! ## Accounts -/

@[simp]
theorem sending_nil : w.sending [] = w := by
  simp [World.sending]

theorem sending_sending (cs cs' : List Sent) :
    (w.sending cs).sending cs' = w.sending (cs ++ cs') := by
  simp [World.sending]

/-- Every node of a list is expired, whichever calls fail. -/
theorem wp_tryJoinAll_expireNode {ids : List Nat} {Q : Except ScimError Unit → World → Prop}
    (h : ∀ r, Q r (w.sending (ids.map .expireNode))) :
    (tryJoinAll (ids.map fun id => do ignoreNotFound (← expireNode id))).wp anyFate Q w := by
  induction ids generalizing w Q with
  | nil => exact sending_nil (w := w) ▸ h (.ok ())
  | cons id ids ih =>
    simp only [List.map_cons, tryJoinAll, Prog.wp_bind, Prog.wp_attempt]
    refine wp_expireNode fun r => wp_ignoreNotFound fun r' => ih fun rs => ?_
    rw [sending_sending]
    cases r' with
    | ok _ => exact h rs
    | error e => exact h (.error e)

/-- The expiries that the user of a record calls for. -/
def expiries (config : ScimConfig) (record : UserRecord) (nodes : List Node) : List Sent :=
  (((resolveKey config record).map (ownedNodes · nodes)).getD []).map .expireNode

/-- The deletion that the user of a record calls for, if it has an account. -/
def deletions (config : ScimConfig) (record : UserRecord) (users : List User) : List Sent :=
  ((resolveKey config record).bind fun key => users.find? key.matches).toList.map
    fun user => .deleteUser user.id

/-- `expireHeadscaleUserNodes` sends the expiries of the record, unless the
    nodes could not be listed. -/
theorem wp_expireHeadscaleUserNodes {record : UserRecord} {Q : Except ScimError Unit → World → Prop}
    (hsent : ∀ r, Q r (w.sending (expiries config record w.headscale.nodes)))
    (hlist : ∀ e, Q (.error e) w) :
    (expireHeadscaleUserNodes config record).wp anyFate Q w := by
  rw [expireHeadscaleUserNodes]
  rw [expiries] at hsent
  cases hkey : resolveKey config record with
  | none =>
    rw [hkey] at hsent
    exact sending_nil (w := w) ▸ hsent (.ok ())
  | some key =>
    rw [hkey] at hsent
    simp only [Prog.wp_bind, wp_listNodes]
    exact ⟨wp_tryJoinAll_expireNode hsent, fun _ => hlist _⟩

/-- The expiries that a `put_user` calls for. -/
def putExpiries (config : ScimConfig) (oldRecord : UserRecord) (active : Bool) (name : String)
    (email : Option String) (nodes : List Node) : List Sent :=
  if !active || config.expireNodesOnChange && active && identifierChanged config oldRecord name email
  then expiries config oldRecord nodes
  else []

/-- `expireBeforePut` sends the expiries of the old record that the request calls
    for, unless the nodes could not be listed. -/
theorem wp_expireBeforePut {oldRecord : UserRecord} {active : Bool} {name : String}
    {email : Option String} {Q : Except ScimError Unit → World → Prop}
    (hsent : ∀ r, Q r (w.sending
      (putExpiries config oldRecord active name email w.headscale.nodes)))
    (hlist : ∀ e, Q (.error e) w) :
    (expireBeforePut config oldRecord active name email).wp anyFate Q w := by
  dsimp only [expireBeforePut]
  rw [putExpiries] at hsent
  split
  · rename_i h
    rw [if_pos h] at hsent
    exact wp_expireHeadscaleUserNodes hsent hlist
  · rename_i h
    rw [if_neg h] at hsent
    exact sending_nil (w := w) ▸ hsent (.ok ())

/-- `deleteHeadscaleUser` sends the deletion of the record's account, unless the
    users could not be listed. -/
theorem wp_deleteHeadscaleUser {record : UserRecord} {Q : Except ScimError Unit → World → Prop}
    (hsent : ∀ r users, Q r { w.sending (deletions config record w.headscale.users) with
      headscale.users := users })
    (hlist : ∀ e, Q (.error e) w) :
    (deleteHeadscaleUser config record).wp anyFate Q w := by
  rw [deleteHeadscaleUser]
  rw [deletions] at hsent
  cases hkey : resolveKey config record with
  | none =>
    rw [hkey] at hsent
    exact sending_nil (w := w) ▸ hsent (.ok ()) w.headscale.users
  | some key =>
    rw [hkey] at hsent
    simp only [Prog.wp_bind, wp_listUsers]
    refine ⟨?_, fun _ => hlist _⟩
    simp only [Post.andThen_ok, wp_fromStatus, Except.mapError]
    cases hfind : w.headscale.users.find? key.matches with
    | none =>
      rw [Option.bind_some, hfind] at hsent
      exact sending_nil (w := w) ▸ hsent (.ok ()) w.headscale.users
    | some user =>
      rw [Option.bind_some, hfind] at hsent
      simp only [Prog.wp_bind]
      exact wp_deleteUser fun r users => wp_ignoreNotFound fun r' => hsent r' users

/-- A call that changes or reads the accounts of headscale. -/
def Op.OnAccounts : Op → Prop
  | .listNodes | .expireNode _ | .listUsers | .deleteUser _ => True
  | _ => False

theorem uses_account {o : Op} (h : o.OnAccounts) :
    (Prog.op (σ := sig) o : M _).Uses Op.OnAccounts :=
  Prog.uses_op h

theorem uses_ignoreNotFound (r : Except Status Unit) : (ignoreNotFound r).Uses Op.OnAccounts := by
  dsimp only [ignoreNotFound]
  split
  · trivial
  · split <;> trivial

theorem uses_tryJoinAll {ps : List (M Unit)} (h : ∀ p ∈ ps, p.Uses Op.OnAccounts) :
    (tryJoinAll ps).Uses Op.OnAccounts := by
  induction ps with
  | nil => trivial
  | cons p ps ih =>
    obtain ⟨hp, hps⟩ := List.forall_mem_cons.1 h
    exact hp.attempt.bind fun _ => (ih hps).attempt.bind fun _ => Prog.Uses.bind trivial fun _ => trivial

theorem uses_expireHeadscaleUserNodes (record : UserRecord) :
    (expireHeadscaleUserNodes config record).Uses Op.OnAccounts := by
  rw [expireHeadscaleUserNodes]
  split
  · refine (uses_account (o := Op.listNodes) trivial).bind fun r => ?_
    refine Prog.Uses.bind (p := fromStatus r) trivial fun nodes => uses_tryJoinAll fun p hp => ?_
    obtain ⟨id, _, rfl⟩ := List.mem_map.1 hp
    exact (uses_account (o := Op.expireNode id) trivial).bind uses_ignoreNotFound
  · trivial

theorem uses_expireBeforePut (oldRecord : UserRecord) (active : Bool) (name : String)
    (email : Option String) : (expireBeforePut config oldRecord active name email).Uses
      Op.OnAccounts := by
  dsimp only [expireBeforePut]
  split
  · exact uses_expireHeadscaleUserNodes oldRecord
  · trivial

theorem uses_deleteHeadscaleUser (record : UserRecord) :
    (deleteHeadscaleUser config record).Uses Op.OnAccounts := by
  rw [deleteHeadscaleUser]
  split
  · refine (uses_account (o := Op.listUsers) trivial).bind fun r => ?_
    refine Prog.Uses.bind (p := fromStatus r) trivial fun users => ?_
    split
    · rename_i user _
      exact (uses_account (o := Op.deleteUser user.id) trivial).bind uses_ignoreNotFound
    · trivial
  · trivial

/-! ## The policy -/

theorem wp_fetchPolicy {A : Op → Prop} {Q : Except ScimError PolicyEditor → World → Prop}
    (hA : A .getPolicy)
    (hread : Q ((PolicyEditor.parse w.livePolicy).mapError fun e => .internal e.toString) w)
    (hfail : ∀ e, Q (.error e) w) : fetchPolicy.wp (anyFate.within A) Q w := by
  simp only [fetchPolicy, Prog.wp_bind]
  refine Prog.wp_op_within.2 ⟨hA, wp_getPolicy.2 ?_⟩
  constructor
  · rw [World.livePolicy] at hread
    rw [Headscale.getPolicy]
    cases hp : w.headscale.policy with
    | some t => simpa [hp] using hread
    | none =>
      have hnf : Status.policyNotFound
          ⟨.unknown, "loading ACL from database: acl policy not found"⟩ = true := by decide
      simpa [hp, hnf] using hread
  · intro failure
    simp [failure.elsewhere, hfail]

/-- What `setGroupMembership` writes over a live policy, if anything. -/
def groupsWrite (groups : List (String × List PolicyMember)) (live : PolicyText) :
    Option PolicyText :=
  match PolicyEditor.parse live with
  | .error _ => none
  | .ok current =>
    let newPolicy := (withGroupMembership current groups).toText
    if Policy.policiesAreSemanticallyEqual current.toText newPolicy then none else some newPolicy

theorem groupsWrite_once {groups : List (String × List PolicyMember)} {live policy : PolicyText}
    (h : groupsWrite groups live = some policy) (hOnce : live.Once "groups") :
    policy.Once "groups" ∧ groupEntries policy = some (entriesOf groups) := by
  rw [groupsWrite] at h
  split at h
  · cases h
  · rename_i current hparse
    have honce := PolicyEditor.parse_once hparse hOnce
    dsimp only at h
    split at h
    · cases h
    · cases h
      exact ⟨withGroupMembership_once groups honce, withGroupMembership_groups groups honce⟩

/-- A live policy over which nothing is written has the groups already. -/
theorem groups_of_not_written {groups : List (String × List PolicyMember)} {live : PolicyText}
    {e : PolicyEditor} (hparse : PolicyEditor.parse live = .ok e)
    (h : groupsWrite groups live = none) (hOnce : live.Once "groups") :
    groupEntries live = some (entriesOf groups) := by
  rw [groupsWrite, hparse] at h
  dsimp only at h
  split at h
  · rename_i hequal
    exact groups_of_unchanged hparse hOnce hequal
  · cases h

/-- Alone, `setGroupMembership` makes its write, unless it fails before. -/
theorem wp_setGroupMembership_write {groups : List (String × List PolicyMember)} {A : Op → Prop}
    {Q : Except ScimError Unit → World → Prop} (hlock : A .lockPolicy) (hunlock : A .unlockPolicy)
    (hget : A .getPolicy)
    (hset : ∀ policy, groupsWrite groups w.livePolicy = some policy → A (.setPolicy policy))
    (hok : ∀ e, PolicyEditor.parse w.livePolicy = .ok e →
      Q (.ok ()) (w.withPolicy ((groupsWrite groups w.livePolicy).or w.headscale.policy)))
    (hunwritten : ∀ e, Q (.error e) (w.withPolicy w.headscale.policy))
    (hwritten : ∀ e policy, groupsWrite groups w.livePolicy = some policy →
      Q (.error e) (w.withPolicy (some policy))) :
    (setGroupMembership groups).wp (anyFate.within A) Q w := by
  have hlive : ({ w with policyLocked := true } : World).livePolicy = w.livePolicy := rfl
  -- whatever the body returns, the lock is released after it
  have hunlocks (r : Except ScimError Unit) (w' : World)
      (hQ : Q r { w' with policyLocked := false }) :
      (do unlockPolicy; .ofExcept r : M Unit).wp (anyFate.within A) Q w' :=
    Prog.wp_bind.2 (Prog.wp_op_within.2 ⟨hunlock, wp_unlockPolicy.2 hQ⟩)
  simp only [setGroupMembership, Prog.wp_bind, Prog.wp_attempt]
  refine Prog.wp_op_within.2 ⟨hlock, wp_lockPolicy.2 ?_⟩
  simp only [Post.andThen_ok, Prog.wp_bind, replaceGroups]
  refine wp_fetchPolicy hget ?_ fun e => hunlocks _ _ (hunwritten e)
  rw [hlive]
  rw [groupsWrite] at hok hwritten hset
  cases hparse : PolicyEditor.parse w.livePolicy with
  | error e => exact hunlocks _ _ (hunwritten _)
  | ok current =>
    rw [hparse] at hok hwritten hset
    dsimp only at hok hwritten hset
    simp only [Except.mapError, Post.andThen_ok]
    split
    · rename_i hequal
      rw [if_pos hequal] at hok
      exact hunlocks _ _ (hok current rfl)
    · rename_i hequal
      rw [if_neg hequal] at hok hwritten hset
      simp only [Prog.wp_bind]
      refine Prog.wp_op_within.2 ⟨hset _ rfl, wp_setPolicy.2 ?_⟩
      exact ⟨hunlocks _ _ (hok current rfl),
        fun failure => ⟨hunlocks _ _ (hunwritten _), hunlocks _ _ (hwritten _ _ rfl)⟩⟩

/-- Alone, `setGroupMembership` changes the live policy only. When it returns
    `Ok`, the policy has the groups. -/
theorem wp_setGroupMembership_within {groups : List (String × List PolicyMember)} {A : Op → Prop}
    {Q : Except ScimError Unit → World → Prop} (hlock : A .lockPolicy) (hunlock : A .unlockPolicy)
    (hget : A .getPolicy) (hset : ∀ policy, A (.setPolicy policy))
    (hok : ∀ policy, (w.OneGroups → (w.withPolicy policy).OneGroups ∧
      groupEntries (w.withPolicy policy).livePolicy = some (entriesOf groups)) →
        Q (.ok ()) (w.withPolicy policy))
    (herr : ∀ e policy, (w.OneGroups → (w.withPolicy policy).OneGroups) →
      Q (.error e) (w.withPolicy policy)) :
    (setGroupMembership groups).wp (anyFate.within A) Q w := by
  refine wp_setGroupMembership_write hlock hunlock hget (fun policy _ => hset policy)
    (fun e hparse => hok _ fun hOnce => ?_) (fun e => herr e _ id)
    fun e policy hwrite => herr e _ fun hOnce => (groupsWrite_once hwrite hOnce).1
  cases hwrite : groupsWrite groups w.livePolicy with
  | none => exact ⟨hOnce, groups_of_not_written hparse hwrite hOnce⟩
  | some policy => exact groupsWrite_once hwrite hOnce

/-- Alone, `reconcileGroupsPolicy` changes the live policy only. When it returns
    `Ok`, the groups are in sync. -/
theorem wp_reconcileGroupsPolicy_within {A : Op → Prop} {Q : Except ScimError Unit → World → Prop}
    (hlocked : A (.locked (.desiredGroups config))) (hlock : A .lockPolicy) (hunlock : A .unlockPolicy)
    (hget : A .getPolicy) (hset : ∀ policy, A (.setPolicy policy))
    (hok : ∀ policy, (w.OneGroups → (w.withPolicy policy).OneGroups ∧
      InSync config (w.withPolicy policy)) → Q (.ok ()) (w.withPolicy policy))
    (herr : ∀ e policy, (w.OneGroups → (w.withPolicy policy).OneGroups) →
      Q (.error e) (w.withPolicy policy)) :
    (reconcileGroupsPolicy config).wp (anyFate.within A) Q w :=
  Prog.wp_bind.2 ((wp_desiredGroups_within hlocked).2
    (wp_setGroupMembership_within hlock hunlock hget hset hok herr))

theorem wp_reconcileGroupsPolicy {Q : Except ScimError Unit → World → Prop}
    (hok : ∀ policy, (w.OneGroups → (w.withPolicy policy).OneGroups ∧
      InSync config (w.withPolicy policy)) → Q (.ok ()) (w.withPolicy policy))
    (herr : ∀ e policy, (w.OneGroups → (w.withPolicy policy).OneGroups) →
      Q (.error e) (w.withPolicy policy)) :
    (reconcileGroupsPolicy config).wp anyFate Q w :=
  Prog.wp_of_within (A := fun _ => True) (wp_reconcileGroupsPolicy_within trivial trivial trivial
    trivial (fun _ => trivial) hok herr)

end Headmaster.Scim
