import Headmaster.Scim.Session

/-!
# The protocol of a request

How far a request has got in applying the groups (`Phase`), and what it may call
next (`protocol`): it changes the mapping, takes a snapshot of the groups under
the mapping lock, and writes it under the policy lock, where it reads the live
policy first. Every request follows the protocol (`handle_follows`).
-/

namespace Headmaster.Scim

open Process
open Policy (PolicyText PolicyEditor PolicyMember)

abbrev Groups := List (String × List PolicyMember)

/-! ## How far a request has got -/

inductive Phase
  /-- Nothing to apply. -/
  | idle
  /-- A record was stored; whether the user is in a group is not known yet. -/
  | touched (id : ScimId)
  /-- The mapping was changed, and no snapshot taken since. -/
  | dirty
  | snapped (groups : Groups)
  | holding (groups : Groups)
  | fetched (groups : Groups) (current : PolicyEditor)
  | applied (groups : Groups)
  /-- The policy lock is released. -/
  | done
  /-- Something failed, and the request will too. -/
  | failed

namespace Phase

/-- What a section moves the request to. -/
def afterSection (p : Phase) : (s : Section) → Except ScimError s.Result → Phase
  | _, .error _ => .failed
  | .desiredGroups _, .ok groups => .snapped groups
  | .setUser id _, .ok _ => .touched id
  | .isInAnyGroup _, .ok inGroup => if (show Bool from inGroup) then .dirty else .idle
  | s, .ok _ => if s.readOnly then p else .dirty

def afterLock : Phase → Phase
  | .snapped groups => .holding groups
  | p => p

/-- The live policy that an answer gives, if it can be edited. -/
def policyRead : Except Status PolicyText → Option PolicyEditor
  | .ok policy => (PolicyEditor.parse policy).toOption
  | .error s => if s.policyNotFound then (PolicyEditor.parse (.blank "")).toOption else none

def afterGet (r : Except Status PolicyText) : Phase → Phase
  | .holding groups => match policyRead r with
    | some current => .fetched groups current
    | none => .failed
  | p => p

theorem afterGet_holding (groups : Groups) (r : Except Status PolicyText) :
    afterGet r (.holding groups) = ((policyRead r).map (fetched groups)).getD .failed := by
  rw [afterGet]
  cases policyRead r <;> rfl

def afterSet (r : Except Status Unit) : Phase → Phase
  | .fetched groups _ => match r with
    | .ok _ => .applied groups
    | .error _ => .failed
  | p => p

/-- What the answer to a call moves the request to. A failed request stays so. -/
def after : Phase → (o : Op) → o.Ans → Phase
  | .failed, _, _ => .failed
  | p, .locked s, r => p.afterSection s r
  | p, .lockPolicy, _ => p.afterLock
  | _, .unlockPolicy, _ => .done
  | p, .getPolicy, r => p.afterGet r
  | p, .setPolicy _, r => p.afterSet r
  | p, _, _ => p

/-- What a request may call. -/
def allows (config : ScimConfig) : Phase → Op → Prop
  | .failed, _ => True
  | .idle, .locked (.desiredGroups c) => c = config
  | .idle, .locked (.isInAnyGroup _) => False
  | .idle, .locked _ => True
  | .idle, .listNodes | .idle, .expireNode _ | .idle, .listUsers | .idle, .deleteUser _ => True
  | .touched id, .locked (.isInAnyGroup id') => id' = id
  | .dirty, .locked (.desiredGroups c) => c = config
  | .snapped _, .lockPolicy => True
  | .holding _, .getPolicy => True
  | .fetched groups current, .setPolicy new => new = (withGroupMembership current groups).toText
  | .fetched groups current, .unlockPolicy => Policy.policiesAreSemanticallyEqual
      current.toText (withGroupMembership current groups).toText = true
  | .applied _, .unlockPolicy => True
  | .done, .locked (.describeGroup _ _) => True
  | _, _ => False

end Phase

/-- What requests do to apply the groups. -/
def protocol (config : ScimConfig) : Contract sig Phase where
  allows := Phase.allows config
  next p o a p' := p' = p.after o a

/-! ## Requests follow the protocol -/

variable {config : ScimConfig} {p : Phase} {α : Type}

/-- A part of a request that is left with nothing to apply when it returns `Ok`. -/
def Settled (r : Except ScimError α) (p : Phase) : Prop := ∀ a, r = .ok a → p = .idle ∨ p = .done

theorem settled_error (e : ScimError) (p : Phase) : Settled (.error e : Except ScimError α) p :=
  fun _ he => nomatch he

theorem settled_done (r : Except ScimError α) : Settled r .done := fun _ _ => .inr rfl

theorem settled_idle (r : Except ScimError α) : Settled r .idle := fun _ _ => .inl rfl

/-- A section that is allowed; the request fails when the section does. -/
theorem follows_locked {s : Section} {Q : Except ScimError s.Result → Phase → Prop}
    (hallow : p.allows config (.locked s)) (hok : ∀ a, Q (.ok a) (p.after (.locked s) (.ok a)))
    (herr : ∀ e p', Q (.error e) p') : (locked s).wp (protocol config) Q p := by
  refine Prog.wp_bind.2 ⟨hallow, fun r p' _ => ?_⟩
  rcases r with e | a
  · exact herr e p'
  · rename_i hp'
    rw [hp']
    exact hok a

theorem follows_getPolicy {groups : Groups}
    {Q : Except ScimError (Except Status PolicyText) → Phase → Prop} :
    getPolicy.wp (protocol config) Q (.holding groups) ↔
      ∀ r, Q (.ok r) ((Phase.holding groups).afterGet r) :=
  ⟨fun h r => h.2 r _ rfl, fun h => ⟨trivial, fun r _ hp' => hp' ▸ h r⟩⟩

/-- The policy that was read is the one the request edits. -/
theorem follows_fetchPolicy {groups : Groups} {Q : Except ScimError PolicyEditor → Phase → Prop}
    (hok : ∀ current, Q (.ok current) (.fetched groups current))
    (herr : ∀ e, Q (.error e) .failed) :
    fetchPolicy.wp (protocol config) Q (.holding groups) := by
  have parsed : ∀ policy, Q ((PolicyEditor.parse policy).mapError fun e => .internal e.toString)
      ((Phase.holding groups).afterGet (.ok policy)) := by
    intro policy
    rw [Phase.afterGet, Phase.policyRead]
    cases PolicyEditor.parse policy with
    | ok current => exact hok current
    | error e => exact herr _
  simp only [fetchPolicy, Prog.wp_bind, follows_getPolicy, Post.andThen_ok]
  rintro (s | policy)
  · cases hs : s.policyNotFound with
    | true => simpa [Phase.afterGet, Phase.policyRead, hs] using parsed (.blank "")
    | false => simpa [Phase.afterGet, Phase.policyRead, hs] using herr _
  · simpa using parsed policy

theorem follows_replaceGroups {groups : Groups} {Q : Except ScimError Unit → Phase → Prop}
    (hok : ∀ p', p'.allows config .unlockPolicy → p'.after .unlockPolicy () = .done → Q (.ok ()) p')
    (herr : ∀ e, Q (.error e) .failed) :
    (replaceGroups groups).wp (protocol config) Q (.holding groups) := by
  refine Prog.wp_bind.2 (follows_fetchPolicy (fun current => ?_) herr)
  dsimp only [Post.andThen_ok]
  split
  · rename_i hequal
    exact hok _ hequal rfl
  · refine Prog.wp_bind.2 ⟨rfl, ?_⟩
    rintro (s | _) p' rfl
    · exact herr _
    · exact hok _ trivial rfl

/-- Once the groups are known they are written, under the policy lock. -/
theorem follows_setGroupMembership {groups : Groups} {Q : Except ScimError Unit → Phase → Prop}
    (hok : Q (.ok ()) .done) (herr : ∀ e p', Q (.error e) p') :
    (setGroupMembership groups).wp (protocol config) Q (.snapped groups) := by
  refine Prog.wp_bind.2 ⟨trivial, ?_⟩
  rintro _ p' rfl
  refine Prog.wp_bind.2 (Prog.wp_attempt.2 (follows_replaceGroups ?_ ?_))
  · intro p' hallow hdone
    refine Prog.wp_bind.2 ⟨hallow, ?_⟩
    rintro _ p'' rfl
    exact hdone ▸ hok
  · intro e
    refine Prog.wp_bind.2 ⟨trivial, ?_⟩
    rintro _ p'' rfl
    exact herr e _

/-- A reconcile takes a snapshot and writes it. -/
theorem follows_reconcile {Q : Except ScimError Unit → Phase → Prop} (hp : p = .idle ∨ p = .dirty)
    (hok : Q (.ok ()) .done) (herr : ∀ e p', Q (.error e) p') :
    (reconcileGroupsPolicy config).wp (protocol config) Q p := by
  refine Prog.wp_bind.2 (follows_locked ?_ ?_ herr)
  · rcases hp with rfl | rfl <;> rfl
  · intro groups
    rcases hp with rfl | rfl <;> exact follows_setGroupMembership hok herr

theorem follows_onAccounts {q : M α} {Q : Except ScimError α → Phase → Prop}
    (hq : q.Uses Op.OnAccounts) (hQ : ∀ r, Q r .idle) : q.wp (protocol config) Q .idle := by
  refine hq.wp (fun o ho => ?_) hQ
  match o, ho with
  | .listNodes, _ | .expireNode _, _ | .listUsers, _ | .deleteUser _, _ =>
    exact ⟨trivial, fun _ _ hp' => hp'⟩

theorem follows_checkExternalId (body : UserBody) {Q : Except ScimError Unit → Phase → Prop}
    (hQ : ∀ r, Q r p) : (checkExternalId config body).wp (protocol config) Q p := by
  rw [checkExternalId]
  split
  · exact hQ _
  · exact hQ _

theorem follows_requireDisplayName (body : GroupBody) {Q : Except ScimError String → Phase → Prop}
    (hQ : ∀ r, Q r p) : (requireDisplayName body).wp (protocol config) Q p := by
  rw [requireDisplayName]
  split
  · exact hQ _
  · exact hQ _

theorem follows_createUser (body : UserBody) :
    (createUser config body).wp (protocol config) Settled .idle := by
  rw [createUser]
  split
  · refine Prog.wp_bind.2 (follows_checkExternalId body fun r => ?_)
    rcases r with e | _
    · exact settled_error e _
    refine Prog.wp_bind.2 (follows_locked trivial (fun _ => ?_) settled_error)
    exact Prog.wp_bind.2 (follows_reconcile (.inr rfl) (settled_done _) settled_error)
  · exact settled_error _ _

theorem follows_isInAnyGroup {id : ScimId} {Q : Except ScimError Bool → Phase → Prop}
    (htrue : Q (.ok true) .dirty) (hfalse : Q (.ok false) .idle) (herr : ∀ e p', Q (.error e) p') :
    (Locked.isInAnyGroup id).wp (protocol config) Q (.touched id) := by
  refine follows_locked rfl (fun inGroup => ?_) herr
  match inGroup with
  | true => exact htrue
  | false => exact hfalse

/-- A stored record is applied if the user is in a group. -/
theorem follows_reconcileAfterPut {id : ScimId} {active : Bool}
    {Q : Except ScimError Unit → Phase → Prop} (hdone : Q (.ok ()) .done) (hidle : Q (.ok ()) .idle)
    (herr : ∀ e p', Q (.error e) p') :
    (reconcileAfterPut config id active).wp (protocol config) Q (.touched id) := by
  refine Prog.wp_bind.2 (follows_isInAnyGroup ?_ ?_ herr)
  · rw [Post.andThen_ok, Bool.or_true, if_pos rfl]
    exact follows_reconcile (.inr rfl) hdone herr
  · dsimp only [Post.andThen_ok]
    split
    · exact follows_reconcile (.inl rfl) hdone herr
    · exact hidle

theorem follows_putUser (id : String) (body : UserBody) :
    (putUser config id body).wp (protocol config) Settled .idle := by
  rw [putUser]
  split
  · split
    · refine Prog.wp_bind.2 (follows_checkExternalId body fun r => ?_)
      rcases r with e | _
      · exact settled_error e _
      refine Prog.wp_bind.2 (follows_locked trivial (fun oldRecord => ?_) settled_error)
      refine Prog.wp_bind.2 (follows_onAccounts
        (uses_expireBeforePut oldRecord _ _ body.email) fun r => ?_)
      rcases r with e | _
      · exact settled_error e _
      refine Prog.wp_bind.2 (follows_locked trivial (fun stored => ?_) settled_error)
      exact Prog.wp_bind.2
        (follows_reconcileAfterPut (settled_done _) (settled_idle _) settled_error)
    · exact settled_error _ _
  · exact settled_error _ _

theorem follows_deleteUserRequest (id : String) :
    (deleteUserRequest config id).wp (protocol config) Settled .idle := by
  refine Prog.wp_bind.2 (follows_locked trivial (fun record => ?_) settled_error)
  refine Prog.wp_bind.2 (follows_onAccounts (uses_deleteHeadscaleUser record) fun r => ?_)
  rcases r with e | _
  · exact settled_error e _
  refine Prog.wp_bind.2 (follows_locked trivial (fun _ => ?_) settled_error)
  exact follows_reconcile (.inr rfl) (settled_done _) settled_error

theorem follows_createGroup (body : GroupBody) :
    (createGroup config body).wp (protocol config) Settled .idle := by
  refine Prog.wp_bind.2 (follows_requireDisplayName body fun r => ?_)
  rcases r with e | name
  · exact settled_error e _
  refine Prog.wp_bind.2 (follows_locked trivial (fun _ => ?_) settled_error)
  refine Prog.wp_bind.2 (follows_reconcile (.inr rfl) ?_ settled_error)
  exact Prog.wp_bind.2 (follows_locked trivial (fun _ => settled_done _) settled_error)

theorem follows_putGroup (id : String) (body : GroupBody) :
    (putGroup config id body).wp (protocol config) Settled .idle := by
  refine Prog.wp_bind.2 (follows_requireDisplayName body fun r => ?_)
  rcases r with e | newName
  · exact settled_error e _
  refine Prog.wp_bind.2 (follows_locked trivial (fun _ => ?_) settled_error)
  refine Prog.wp_bind.2 (follows_reconcile (.inr rfl) ?_ settled_error)
  exact follows_locked trivial (fun _ => settled_done _) settled_error

theorem follows_deleteGroup (id : String) :
    (deleteGroup config id).wp (protocol config) Settled .idle := by
  refine Prog.wp_bind.2 (follows_locked trivial (fun _ => ?_) settled_error)
  exact follows_reconcile (.inr rfl) (settled_done _) settled_error

/-- Every request follows the protocol, and has nothing left to apply when it
    returns `Ok`. -/
theorem handle_follows (config : ScimConfig) (r : Request) :
    (handle config r).wp (protocol config) Settled .idle := by
  have answer : ∀ {β : Type} {q : M β} {f : β → Response}, q.wp (protocol config) Settled .idle →
      (do return f (← q) : M Response).wp (protocol config) Settled .idle := fun hq =>
    Prog.wp_bind.2 <| Prog.wp_mono (fun r p' h => by
      rcases r with e | b
      · exact settled_error e p'
      · exact fun _ _ => h b rfl) hq
  cases r with
  | listUsers | getUser _ | listGroups | getGroup _ =>
    exact answer (follows_locked trivial (fun _ => settled_idle _) settled_error)
  | createUser body => exact answer (follows_createUser body)
  | putUser id body => exact answer (follows_putUser id body)
  | deleteUser id => exact answer (follows_deleteUserRequest id)
  | createGroup body => exact answer (follows_createGroup body)
  | putGroup id body => exact answer (follows_putGroup id body)
  | deleteGroup id => exact answer (follows_deleteGroup id)
  | reconcile => exact answer (follows_reconcile (.inl rfl) (settled_done _) settled_error)

end Headmaster.Scim
