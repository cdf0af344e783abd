import Headmaster.Process.Pool
import Headmaster.Scim.Session

/-!
# The requests on users, alone and at their place

A request takes effect at the section that writes the mapping, or, when it
writes nothing, at the section that read it (`Placed`). What it answers may
depend on what other requests do in between, but it is an answer the request
may give alone at its place, with some headscale (`placed_handle`).
-/

namespace Headmaster.Scim

open Process
open Policy (PolicyText PolicyEditor PolicyMember)

variable {config : ScimConfig} {α β : Type}

/-! ## Requests alone -/

/-- A world with an empty headscale but for its policy. -/
def World.of (store : Store) (policy : Option PolicyText) : World :=
  { store, headscale := { policy } }

/-- Alone, with some live policy and no accounts, `p` may end with `r`, and takes the
    store from `s` to `s'`. -/
def Ends (p : M α) (r : Except ScimError α) (s s' : Store) : Prop :=
  ∃ policy policy', machine.Reaches p (.of s policy) r (.of s' policy')

/-- Alone, the request may answer `r`, and takes the store from `s` to `s'`. -/
def Alone (config : ScimConfig) (request : Request) (r : Except ScimError Response)
    (s s' : Store) : Prop :=
  ∃ headscale w', machine.Reaches (handle config request) { store := s, headscale } r w' ∧
    w'.store = s'

/-- With no accounts, `p` may end with `r` whatever the live policy, which it leaves,
    and takes the store from `s` to `s'`. -/
def Passes (p : M α) (r : Except ScimError α) (s s' : Store) : Prop :=
  ∀ policy, machine.Reaches p (.of s policy) r (.of s' policy)

section Reaches

variable {p : M α} {q : α → M β} {a : α} {e : ScimError} {r : Except ScimError β} {s s' s'' : Store}

theorem Passes.ends {r : Except ScimError α} (h : Passes p r s s') : Ends p r s s' :=
  ⟨none, none, h none⟩

theorem passes_pure (a : α) (s : Store) : Passes (pure a : M α) (.ok a) s s := fun _ => .pure a _

theorem passes_throw (e : ScimError) (s : Store) : Passes (throw e : M α) (.error e) s s :=
  fun _ => .ret _ _

theorem Passes.bind (hp : Passes p (.ok a) s s') (hq : Passes (q a) r s' s'') :
    Passes (p >>= q) r s s'' :=
  fun policy => (hp policy).bind (hq policy)

theorem Passes.bind_error (hp : Passes p (.error e) s s') :
    Passes (p >>= q) (.error e) s s' :=
  fun policy => (hp policy).bind_error

theorem Passes.bind_ends (hp : Passes p (.ok a) s s') (hq : Ends (q a) r s' s'') :
    Ends (p >>= q) r s s'' := by
  obtain ⟨policy, policy', hq⟩ := hq
  exact ⟨policy, policy', (hp policy).bind hq⟩

theorem Ends.bind (hp : Ends p (.ok a) s s') (hq : Passes (q a) r s' s'') :
    Ends (p >>= q) r s s'' := by
  obtain ⟨policy, policy', hp⟩ := hp
  exact ⟨policy, policy', hp.bind (hq policy')⟩

theorem Ends.bind_error (hp : Ends p (.error e) s s') : Ends (p >>= q) (.error e) s s' := by
  obtain ⟨policy, policy', hp⟩ := hp
  exact ⟨policy, policy', hp.bind_error⟩

theorem passes_locked (sec : Section) (os : Os) (s : Store) :
    Passes (locked sec) (sec.body.exec os s).1 s (sec.body.exec os s).2 :=
  fun _ => Machine.Reaches.bind (Machine.Reaches.op (M := machine) { os } (.locked sec) _)
    (.ret _ _)

theorem passes_readOnly (sec : Section) (h : sec.readOnly = true) (os : Os) (s : Store) :
    Passes (locked sec) (sec.body.exec os s).1 s s := by
  have := passes_locked sec os s
  rwa [Section.exec_of_readOnly os s h] at this

theorem Alone.of_ends {request : Request} {r : Except ScimError Response}
    (h : Ends (handle config request) r s s') : Alone config request r s s' := by
  obtain ⟨policy, policy', h⟩ := h
  exact ⟨{ policy }, _, h, rfl⟩

end Reaches

/-! ## What the parts of a request may do -/

/-- A status that does not say that no policy was ever set, made an error. -/
def Unavailable (e : ScimError) : Prop :=
  ∃ s : Status, s.policyNotFound = false ∧ e = .ofStatus s

/-- The outcomes of a reconcile. -/
def ReconcileOutcome : Except ScimError Unit → Prop
  | .ok _ => True
  | .error e => Unavailable e ∨
      ∃ policy pe, PolicyEditor.parse policy = .error pe ∧ e = .internal pe.toString

/-- `fetchPolicy` may be answered, and may fail with any status but that no policy was
    ever set. -/
theorem reaches_fetchPolicy (w : World) : machine.Reaches fetchPolicy w
    ((PolicyEditor.parse w.livePolicy).mapError fun e => .internal e.toString) w := by
  have hget : machine.Reaches getPolicy w (.ok w.headscale.getPolicy.1) w := by
    have := Machine.Reaches.op (ε := ScimError) (M := machine) default .getPolicy w
    rwa [show (machine.act default .getPolicy w).2 = w from congrArg
      (fun headscale => { w with headscale }) (congrArg Prod.snd (getPolicy_eq w.headscale))] at this
  refine hget.bind ?_
  rw [Headscale.getPolicy, World.livePolicy]
  cases w.headscale.policy with
  | some policy => exact .ret _ _
  | none =>
    have hnotFound : Status.policyNotFound
        ⟨.unknown, "loading ACL from database: acl policy not found"⟩ = true := by decide
    simp only [hnotFound, if_true]
    exact .ret _ _

/-- The call fails on the way. -/
def Fate.failed (status : Status) (h : status.policyNotFound = false) : Fate :=
  { outcome := .failed ⟨status, h⟩ false }

theorem reaches_fetchPolicy_failed {status : Status} (h : status.policyNotFound = false) (w : World) :
    machine.Reaches fetchPolicy w (.error (.ofStatus status)) w := by
  have hget : machine.Reaches getPolicy w (.ok (.error status)) w :=
    Machine.Reaches.op (M := machine) (Fate.failed status h) .getPolicy w
  refine hget.bind ?_
  simp only [h, Bool.false_eq_true, if_false]
  exact .ret _ _

/-- The policy lock is taken and released around the replacement. -/
theorem reaches_setGroupMembership {groups : List (String × List PolicyMember)} {s : Store}
    {policy policy' : Option PolicyText} {r : Except ScimError Unit}
    (h : machine.Reaches (replaceGroups groups) { World.of s policy with policyLocked := true } r
      { World.of s policy' with policyLocked := true }) :
    machine.Reaches (setGroupMembership groups) (.of s policy) r (.of s policy') := by
  refine (Machine.Reaches.op (M := machine) default .lockPolicy _).bind (h.attempt.bind ?_)
  exact (Machine.Reaches.op (M := machine) default .unlockPolicy _).bind (.ret _ _)

/-- With no live policy the groups are set. -/
theorem ends_setGroupMembership (groups : List (String × List PolicyMember)) (s : Store) :
    Ends (setGroupMembership groups) (.ok ()) s s := by
  have hfetch : machine.Reaches fetchPolicy { World.of s none with policyLocked := true }
      (.ok (.value (.object []))) { World.of s none with policyLocked := true } :=
    reaches_fetchPolicy _
  -- Whether or not the groups make a difference, the store stays as it is.
  by_cases hequal : Policy.policiesAreSemanticallyEqual (PolicyEditor.value (.object [])).toText
      (withGroupMembership (.value (.object [])) groups).toText = true
  · refine ⟨none, none, reaches_setGroupMembership (hfetch.bind ?_)⟩
    rw [if_pos hequal]
    exact .ret _ _
  · refine ⟨none, some (withGroupMembership (.value (.object [])) groups).toText,
      reaches_setGroupMembership (hfetch.bind ?_)⟩
    rw [if_neg hequal]
    exact (Machine.Reaches.op (M := machine) default (.setPolicy _) _).bind (.ret _ _)

/-- Every outcome of a reconcile is possible alone. -/
theorem ends_reconcile {r : Except ScimError Unit} (hr : ReconcileOutcome r) (s : Store) :
    Ends (reconcileGroupsPolicy config) r s s := by
  refine (passes_readOnly (.desiredGroups config) rfl {} s).bind_ends ?_
  -- An error is had alone too: from a call that fails, or from a live policy that does not parse.
  rcases r with e | _
  · rcases hr with ⟨status, hstatus, rfl⟩ | ⟨policy, pe, hparse, rfl⟩
    · refine ⟨none, none, reaches_setGroupMembership ?_⟩
      exact (reaches_fetchPolicy_failed hstatus _).bind_error
    · refine ⟨some policy, some policy, reaches_setGroupMembership ?_⟩
      have hfetch := reaches_fetchPolicy { World.of s (some policy) with policyLocked := true }
      rw [show World.livePolicy _ = policy from rfl, hparse] at hfetch
      exact hfetch.bind_error
  · exact ends_setGroupMembership _ s

/-- The outcomes of the account calls of a request. -/
def AccountsOutcome : Except ScimError Unit → Prop
  | .ok _ => True
  | .error e => Unavailable e

section Accounts

variable {record : UserRecord} {key : ResolvedKey}

/-- With no accounts there is nothing to expire; listing the nodes may fail. -/
theorem passes_expireHeadscaleUserNodes (hkey : resolveKey config record = some key)
    {r : Except ScimError Unit} (hr : AccountsOutcome r) (s : Store) :
    Passes (expireHeadscaleUserNodes config record) r s s := by
  intro policy
  rw [expireHeadscaleUserNodes, hkey]
  rcases r with e | _
  · obtain ⟨status, hstatus, rfl⟩ := hr
    exact (Machine.Reaches.op (M := machine) (Fate.failed status hstatus) .listNodes _).bind
      (.ret _ _)
  · exact (Machine.Reaches.op (M := machine) default .listNodes _).bind (.ret _ _)

/-- With no accounts there is nothing to delete; listing the users may fail. -/
theorem passes_deleteHeadscaleUser (hkey : resolveKey config record = some key)
    {r : Except ScimError Unit} (hr : AccountsOutcome r) (s : Store) :
    Passes (deleteHeadscaleUser config record) r s s := by
  intro policy
  rw [deleteHeadscaleUser, hkey]
  rcases r with e | _
  · obtain ⟨status, hstatus, rfl⟩ := hr
    exact (Machine.Reaches.op (M := machine) (Fate.failed status hstatus) .listUsers _).bind
      (.ret _ _)
  · exact (Machine.Reaches.op (M := machine) default .listUsers _).bind (.ret _ _)

/-- With no accounts, the account calls of a request need not fail. -/
theorem passes_expireHeadscaleUserNodes_ok (record : UserRecord) (s : Store) :
    Passes (expireHeadscaleUserNodes config record) (.ok ()) s s := by
  cases hkey : resolveKey config record with
  | some key => exact passes_expireHeadscaleUserNodes (r := .ok ()) hkey trivial s
  | none =>
    rw [expireHeadscaleUserNodes, hkey]
    exact passes_pure () s

theorem passes_expireBeforePut (oldRecord : UserRecord) (active : Bool) (name : String)
    (email : Option String) (s : Store) :
    Passes (expireBeforePut config oldRecord active name email) (.ok ()) s s := by
  dsimp only [expireBeforePut]
  split
  · exact passes_expireHeadscaleUserNodes_ok oldRecord s
  · exact passes_pure () s

theorem passes_deleteHeadscaleUser_ok (config : ScimConfig) (record : UserRecord) (s : Store) :
    Passes (deleteHeadscaleUser config record) (.ok ()) s s := by
  cases hkey : resolveKey config record with
  | some key => exact passes_deleteHeadscaleUser (r := .ok ()) hkey trivial s
  | none =>
    rw [deleteHeadscaleUser, hkey]
    exact passes_pure () s

end Accounts

/-! ## Where a request takes effect -/

/-- The user is in some group. -/
def Store.inAnyGroup (s : Store) (id : ScimId) : Bool :=
  s.mapping.groups.any fun (_, g) => g.members.contains id

/-- Whoever is in a group of `s'` was in one of `s`. -/
def Shrunk (s s' : Store) : Prop := ∀ id, s'.inAnyGroup id = true → s.inAnyGroup id = true

/-- The user whose record a section writes, having been read before. -/
def Section.target? : Section → Option ScimId
  | .setUser id _ | .removeUserAndFromGroups id => some id
  | _ => none

/-- How far a request is from taking effect. -/
inductive Placed
  | start
  /-- It has read `s`, and takes effect there unless it writes. -/
  | tentative (s : Store)
  /-- It has written, and taken effect. -/
  | fixed (s s' : Store)

/-- Only `getPolicy` says that no policy was ever set. -/
def Op.Honest : (o : Op) → o.Ans → Prop
  | .setPolicy _, r | .listNodes, r | .expireNode _, r | .listUsers, r | .deleteUser _, r =>
    ∀ status, r = .error status → status.policyNotFound = false
  | _, _ => True

/-- The calls of a reconcile outside the mapping lock. -/
def Op.OnPolicy : Op → Prop
  | .lockPolicy | .unlockPolicy | .getPolicy | .setPolicy _ => True
  | _ => False

/-- What a call does to the place of a request. -/
inductive Moves : Placed → (o : Op) → o.Ans → Placed → Prop
  | read {sec : Section} (h : sec.readOnly = true) (os : Os) (s : Store) :
      Moves .start (.locked sec) (sec.body.exec os s).1 (.tentative s)
  | upsert (record : UserRecord) (os : Os) (s : Store) :
      Moves .start (.locked (.upsertUser record)) ((Section.upsertUser record).body.exec os s).1
        (.fixed s ((Section.upsertUser record).body.exec os s).2)
  | account {o : Op} (h : o.OnAccounts) (s : Store) {a : o.Ans} (ha : o.Honest a) :
      Moves (.tentative s) o a (.tentative s)
  | write {sec : Section} {id : ScimId} (h : sec.target? = some id) (os : Os) (s₀ : Store)
      {s : Store} (hid : (s.mapping.getUser id).isSome = true) :
      Moves (.tentative s₀) (.locked sec) (sec.body.exec os s).1 (.fixed s (sec.body.exec os s).2)
  | look {sec : Section} (h : sec.readOnly = true) (os : Os) (s : Store) {s' s'' : Store}
      (hs : Shrunk s' s'') : Moves (.fixed s s') (.locked sec) (sec.body.exec os s'').1 (.fixed s s')
  | policy {o : Op} (h : o.OnPolicy) (s s' : Store) {a : o.Ans} (ha : o.Honest a) :
      Moves (.fixed s s') o a (.fixed s s')

/-- What a request on users may call. -/
def Placed.allows : Placed → Op → Prop
  | .start, .locked (.upsertUser _) => True
  | .start, .locked sec => sec.readOnly = true
  | .start, _ => False
  | .tentative _, .locked sec => sec.target?.isSome = true
  | .tentative _, o => o.OnAccounts
  | .fixed _ _, .locked sec => sec.readOnly = true
  | .fixed _ _, o => o.OnPolicy

def placing : Contract sig Placed where
  allows := Placed.allows
  next := Moves

/-- What the request answers, it may answer alone at its place. -/
def AtPlace (p : M α) (r : Except ScimError α) : Placed → Prop
  | .start => ∀ s, Ends p r s s
  | .tentative s => Ends p r s s
  | .fixed s s' => Ends p r s s'

section Rules

variable {s s' : Store}

theorem placed_read (sec : Section) (h : sec.readOnly = true)
    {Q : Except ScimError sec.Result → Placed → Prop}
    (hQ : ∀ os s, Q (sec.body.exec os s).1 (.tentative s)) : (locked sec).wp placing Q .start := by
  have hallow : Placed.allows .start (.locked sec) := by
    cases sec <;> first | exact h | trivial
  refine Prog.wp_bind.2 ⟨hallow, fun a p' hmoves => ?_⟩
  cases hmoves with
  | read _ os s => exact hQ os s
  | upsert => cases h

theorem placed_upsert {record : UserRecord} {Q : Except ScimError (ScimUser × Bool) → Placed → Prop}
    (hQ : ∀ os s, Q ((Section.upsertUser record).body.exec os s).1
      (.fixed s ((Section.upsertUser record).body.exec os s).2)) :
    (Locked.upsertUser record).wp placing Q .start := by
  refine Prog.wp_bind.2 ⟨trivial, fun a p' hmoves => ?_⟩
  cases hmoves with
  | read h => cases h
  | upsert _ os s => exact hQ os s

theorem placed_write (sec : Section) {id : ScimId} (h : sec.target? = some id)
    {Q : Except ScimError sec.Result → Placed → Prop}
    (hQ : ∀ os s', (s'.mapping.getUser id).isSome = true →
      Q (sec.body.exec os s').1 (.fixed s' (sec.body.exec os s').2)) :
    (locked sec).wp placing Q (.tentative s) := by
  refine Prog.wp_bind.2 ⟨Option.isSome_of_eq_some h, fun a p' hmoves => ?_⟩
  cases hmoves with
  | account ho => exact ho.elim
  | write hsec os _ hid =>
    obtain rfl : id = _ := Option.some.inj (h.symm.trans hsec)
    exact hQ os _ hid

theorem placed_look (sec : Section) (h : sec.readOnly = true)
    {Q : Except ScimError sec.Result → Placed → Prop}
    (hQ : ∀ os s'', Shrunk s' s'' → Q (sec.body.exec os s'').1 (.fixed s s')) :
    (locked sec).wp placing Q (.fixed s s') := by
  refine Prog.wp_bind.2 ⟨h, fun a p' hmoves => ?_⟩
  cases hmoves with
  | look _ os _ hs => exact hQ os _ hs
  | policy ho => exact ho.elim

/-- A call on the accounts leaves the request where it is. -/
theorem placed_account {o : Op} (ho : o.OnAccounts) {Q : Except ScimError o.Ans → Placed → Prop}
    (hQ : ∀ a, o.Honest a → Q (.ok a) (.tentative s)) :
    (Prog.op (σ := sig) o).wp placing Q (.tentative s) := by
  match o, ho with
  | .listNodes, _ | .expireNode _, _ | .listUsers, _ | .deleteUser _, _ =>
    refine ⟨trivial, fun a p' hmoves => ?_⟩
    cases hmoves with
    | account _ _ ha => exact hQ a ha

theorem placed_policy {o : Op} (ho : o.OnPolicy) {Q : Except ScimError o.Ans → Placed → Prop}
    (hQ : ∀ a, o.Honest a → Q (.ok a) (.fixed s s')) :
    (Prog.op (σ := sig) o).wp placing Q (.fixed s s') := by
  match o, ho with
  | .lockPolicy, _ | .unlockPolicy, _ | .getPolicy, _ | .setPolicy _, _ =>
    refine ⟨trivial, fun a p' hmoves => ?_⟩
    cases hmoves with
    | policy _ _ _ ha => exact hQ a ha

theorem placed_ignoreNotFound {r : Except Status Unit} {p : Placed}
    (hr : ∀ status, r = .error status → status.policyNotFound = false)
    {Q : Except ScimError Unit → Placed → Prop} (hQ : ∀ r, AccountsOutcome r → Q r p) :
    (ignoreNotFound r).wp placing Q p := by
  rcases r with status | _
  · rw [ignoreNotFound]
    split
    · exact hQ (.ok ()) trivial
    · exact hQ (.error _) ⟨status, hr status rfl, rfl⟩
  · exact hQ (.ok ()) trivial

theorem placed_expireNode (id : Nat) {Q : Except ScimError Unit → Placed → Prop}
    (hQ : ∀ r, AccountsOutcome r → Q r (.tentative s)) :
    (do ignoreNotFound (← expireNode id) : M Unit).wp placing Q (.tentative s) := by
  refine Prog.wp_bind.2 (placed_account (o := .expireNode id) trivial fun a ha => ?_)
  exact placed_ignoreNotFound ha hQ

/-- Whichever expiries fail, the outcome is one of the account calls. -/
theorem placed_tryJoinAll {ids : List Nat} {Q : Except ScimError Unit → Placed → Prop}
    (hQ : ∀ r, AccountsOutcome r → Q r (.tentative s)) :
    (tryJoinAll (ids.map fun id => do ignoreNotFound (← expireNode id))).wp placing Q
      (.tentative s) := by
  induction ids generalizing Q with
  | nil => exact hQ (.ok ()) trivial
  | cons id ids ih =>
    refine Prog.wp_bind.2 (Prog.wp_attempt.2 (placed_expireNode id fun r hr => ?_))
    refine Prog.wp_bind.2 (Prog.wp_attempt.2 (ih fun rs hrs => ?_))
    rcases r with e | _
    · exact hQ (.error e) hr
    · exact hQ rs hrs

theorem placed_expireHeadscaleUserNodes (record : UserRecord)
    {Q : Except ScimError Unit → Placed → Prop}
    (hQ : ∀ r, (∀ s', Passes (expireHeadscaleUserNodes config record) r s' s') →
      Q r (.tentative s)) :
    (expireHeadscaleUserNodes config record).wp placing Q (.tentative s) := by
  cases hkey : resolveKey config record with
  | none =>
    have hpure : expireHeadscaleUserNodes config record = pure () := by
      rw [expireHeadscaleUserNodes, hkey]
    rw [hpure] at hQ ⊢
    exact hQ (.ok ()) (passes_pure ())
  | some key =>
    have hQ' := fun r (hr : AccountsOutcome r) => hQ r (passes_expireHeadscaleUserNodes hkey hr)
    rw [expireHeadscaleUserNodes, hkey]
    refine Prog.wp_bind.2 (placed_account (o := .listNodes) trivial fun a ha => ?_)
    rcases a with status | nodes
    · exact hQ' (.error _) ⟨status, ha status rfl, rfl⟩
    · exact placed_tryJoinAll hQ'

theorem placed_expireBeforePut (oldRecord : UserRecord) (active : Bool) (name : String)
    (email : Option String) {Q : Except ScimError Unit → Placed → Prop}
    (hQ : ∀ r, (∀ s', Passes (expireBeforePut config oldRecord active name email) r s' s') →
      Q r (.tentative s)) :
    (expireBeforePut config oldRecord active name email).wp placing Q (.tentative s) := by
  have hcases : expireBeforePut config oldRecord active name email =
      expireHeadscaleUserNodes config oldRecord ∨
        expireBeforePut config oldRecord active name email = pure () := by
    dsimp only [expireBeforePut]
    split
    · exact .inl rfl
    · exact .inr rfl
  rcases hcases with heq | heq
  · rw [heq] at hQ ⊢
    exact placed_expireHeadscaleUserNodes oldRecord hQ
  · rw [heq] at hQ ⊢
    exact hQ (.ok ()) (passes_pure ())

theorem placed_listUsers {Q : Except ScimError (Except Status (List User)) → Placed → Prop}
    (hok : ∀ users, Q (.ok (.ok users)) (.tentative s))
    (herr : ∀ status, status.policyNotFound = false → Q (.ok (.error status)) (.tentative s)) :
    listUsers.wp placing Q (.tentative s) := by
  refine placed_account (o := .listUsers) trivial fun a ha => ?_
  rcases a with status | users
  · exact herr status (ha status rfl)
  · exact hok users

theorem placed_deleteHeadscaleUser (record : UserRecord)
    {Q : Except ScimError Unit → Placed → Prop}
    (hQ : ∀ r, (∀ s', Passes (deleteHeadscaleUser config record) r s' s') →
      Q r (.tentative s)) :
    (deleteHeadscaleUser config record).wp placing Q (.tentative s) := by
  cases hkey : resolveKey config record with
  | none =>
    have hpure : deleteHeadscaleUser config record = pure () := by
      rw [deleteHeadscaleUser, hkey]
    rw [hpure] at hQ ⊢
    exact hQ (.ok ()) (passes_pure ())
  | some key =>
    have hQ' := fun r (hr : AccountsOutcome r) => hQ r (passes_deleteHeadscaleUser hkey hr)
    rw [deleteHeadscaleUser, hkey]
    refine Prog.wp_bind.2 (placed_listUsers (fun users => ?_)
      fun status hs => hQ' (.error _) ⟨status, hs, rfl⟩)
    · simp only [Post.andThen_ok, Prog.wp_bind, wp_fromStatus, Except.mapError]
      split
      · rename_i user _
        refine Prog.wp_bind.2 (placed_account (o := .deleteUser user.id) trivial fun a ha => ?_)
        exact placed_ignoreNotFound ha hQ'
      · exact hQ' (.ok ()) trivial

theorem placed_getPolicy {Q : Except ScimError (Except Status PolicyText) → Placed → Prop}
    (hQ : ∀ a, Q (.ok a) (.fixed s s')) : getPolicy.wp placing Q (.fixed s s') :=
  placed_policy (o := .getPolicy) trivial fun a _ => hQ a

theorem placed_fetchPolicy {Q : Except ScimError PolicyEditor → Placed → Prop}
    (hok : ∀ current, Q (.ok current) (.fixed s s'))
    (herr : ∀ e, ReconcileOutcome (.error e) → Q (.error e) (.fixed s s')) :
    fetchPolicy.wp placing Q (.fixed s s') := by
  have parsed : ∀ policy, Q ((PolicyEditor.parse policy).mapError fun e => .internal e.toString)
      (.fixed s s') := by
    intro policy
    cases hparse : PolicyEditor.parse policy with
    | ok current => exact hok current
    | error pe => exact herr _ (.inr ⟨policy, pe, hparse, rfl⟩)
  simp only [fetchPolicy, Prog.wp_bind]
  refine placed_getPolicy fun a => ?_
  rcases a with status | policy
  · cases hs : status.policyNotFound with
    | true => simpa [hs] using parsed (.blank "")
    | false => simpa [hs] using herr _ (.inl ⟨status, hs, rfl⟩)
  · simpa using parsed policy

/-- What a reconcile answers is an outcome of a reconcile. -/
theorem placed_reconcile {Q : Except ScimError Unit → Placed → Prop}
    (hQ : ∀ r, ReconcileOutcome r → Q r (.fixed s s')) :
    (reconcileGroupsPolicy config).wp placing Q (.fixed s s') := by
  refine Prog.wp_bind.2 (placed_look (.desiredGroups config) rfl fun os s'' _ => ?_)
  refine Prog.wp_bind.2 (placed_policy (o := .lockPolicy) trivial fun _ _ => ?_)
  refine Prog.wp_bind.2 (Prog.wp_attempt.2 ?_)
  -- The lock is released whichever way the replacement ends.
  have released : ∀ r, ReconcileOutcome r → Post.andThen Q (fun r' p' =>
      (do unlockPolicy; .ofExcept r' : M Unit).wp placing Q p') (.ok r) (.fixed s s') := fun r hr =>
    Prog.wp_bind.2 (placed_policy (o := .unlockPolicy) trivial fun _ _ => hQ r hr)
  refine Prog.wp_bind.2 (placed_fetchPolicy (fun current => ?_) fun e he => released _ he)
  dsimp only [Post.andThen_ok]
  split
  · exact released (.ok ()) trivial
  · refine Prog.wp_bind.2 (placed_policy (o := .setPolicy _) trivial fun a ha => ?_)
    rcases a with status | _
    · exact released (.error _) (.inl ⟨status, ha status rfl, rfl⟩)
    · exact released (.ok ()) trivial

end Rules

/-! ## Every request at its place -/

theorem placed_throw (e : ScimError) :
    (throw e : M α).wp placing (AtPlace (throw e : M α)) .start :=
  fun s => (passes_throw e s).ends

theorem placed_readOnly {sec : Section} (h : sec.readOnly = true) :
    (locked sec).wp placing (AtPlace (locked sec)) .start :=
  placed_read sec h fun os s => (passes_readOnly sec h os s).ends

theorem placed_map {p : M α} {f : α → β} (hp : p.wp placing (AtPlace p) .start) :
    (do return f (← p) : M β).wp placing (AtPlace (do return f (← p) : M β)) .start := by
  refine Prog.wp_bind.2 (Prog.wp_mono (fun r p' hr => ?_) hp)
  rcases r with e | a
  · match p' with
    | .start => exact fun s => (hr s).bind_error
    | .tentative _ | .fixed _ _ => exact Ends.bind_error hr
  · match p' with
    | .start => exact fun s => (hr s).bind (passes_pure _ s)
    | .tentative _ | .fixed _ _ => exact Ends.bind hr (passes_pure _ _)

theorem checkExternalId_cases (config : ScimConfig) (body : UserBody) :
    checkExternalId config body = throw externalIdRequired ∨ checkExternalId config body = pure () := by
  rw [checkExternalId]
  split
  · exact .inl rfl
  · exact .inr rfl

theorem placed_createUser (body : UserBody) :
    (createUser config body).wp placing (AtPlace (createUser config body)) .start := by
  rw [createUser]
  split
  · rename_i userName _
    rcases checkExternalId_cases config body with hcheck | hcheck
    · rw [hcheck]
      exact fun s => (passes_throw _ s).bind_error.ends
    · rw [hcheck, Prog.pure_bind]
      refine Prog.wp_bind.2 (placed_upsert fun os s => ?_)
      have hsec := passes_locked (.upsertUser (body.toRecord userName (body.active.getD true))) os s
      rcases hr : ((Section.upsertUser (body.toRecord userName (body.active.getD true))).body.exec
        os s).1 with e | ⟨scimUser, created⟩
      · rw [hr] at hsec
        exact hsec.bind_error.ends
      · rw [hr] at hsec
        -- The write was the place of the request; what follows it may end in the same way alone.
        refine Prog.wp_bind.2 (placed_reconcile fun r hr' => ?_)
        rcases r with e | _
        · exact hsec.bind_ends (ends_reconcile hr' _).bind_error
        · exact hsec.bind_ends ((ends_reconcile hr' _).bind (passes_pure _ _))
  · exact placed_throw _

theorem passes_isInAnyGroup (id : ScimId) (s : Store) :
    Passes (Locked.isInAnyGroup id) (.ok (s.inAnyGroup id)) s s :=
  passes_readOnly (.isInAnyGroup id) rfl {} s

theorem ends_reconcileAfterPut {id : ScimId} {active : Bool} {s : Store} {r : Except ScimError Unit}
    (hr : ReconcileOutcome r) (h : (!active || s.inAnyGroup id) = true) :
    Ends (reconcileAfterPut config id active) r s s := by
  refine (passes_isInAnyGroup id s).bind_ends ?_
  rw [if_pos h]
  exact ends_reconcile hr s

theorem ends_reconcileAfterPut_ok (config : ScimConfig) (id : ScimId) (active : Bool) (s : Store) :
    Ends (reconcileAfterPut config id active) (.ok ()) s s := by
  by_cases h : (!active || s.inAnyGroup id) = true
  · exact ends_reconcileAfterPut trivial h
  · refine (passes_isInAnyGroup id s).bind_ends ?_
    rw [if_neg h]
    exact (passes_pure () s).ends

/-- A `put_user` that reconciles later, the user being in a group, may do so at its
    place, where the user was in a group too. -/
theorem placed_reconcileAfterPut {s s' : Store} {id : ScimId} {active : Bool}
    {Q : Except ScimError Unit → Placed → Prop}
    (hQ : ∀ r, Ends (reconcileAfterPut config id active) r s' s' → Q r (.fixed s s')) :
    (reconcileAfterPut config id active).wp placing Q (.fixed s s') := by
  refine Prog.wp_bind.2 (placed_look (.isInAnyGroup id) rfl fun os s'' hshrunk => ?_)
  change Prog.wp placing Q (if (!active || s''.inAnyGroup id) = true then _ else _) _
  split
  · rename_i h
    have h' : (!active || s'.inAnyGroup id) = true := by
      rw [Bool.or_eq_true] at h ⊢
      exact h.imp_right (hshrunk id)
    exact placed_reconcile fun r hr => hQ r (ends_reconcileAfterPut hr h')
  · exact hQ (.ok ()) (ends_reconcileAfterPut_ok config id active s')

/-- A user who is there is read. -/
theorem passes_readUser {id : ScimId} {s : Store} (h : (s.mapping.getUser id).isSome = true) :
    ∃ record, Passes (Locked.readUser id) (.ok record) s s := by
  obtain ⟨record, hrecord⟩ := Option.isSome_iff_exists.1 h
  refine ⟨record, ?_⟩
  have hread := passes_readOnly (.readUser id) rfl {} s
  rw [Section.exec_readUser, show s.data.users[id]? = some record from hrecord] at hread
  exact hread

theorem placed_putUser (id : String) (body : UserBody) :
    (putUser config id body).wp placing (AtPlace (putUser config id body)) .start := by
  rw [putUser]
  split
  · rename_i userName _
    split
    · rename_i active _
      rcases checkExternalId_cases config body with hcheck | hcheck
      · rw [hcheck]
        exact fun s => (passes_throw _ s).bind_error.ends
      · rw [hcheck, Prog.pure_bind]
        refine Prog.wp_bind.2 (placed_read (.readUser ⟨id⟩) rfl fun os s => ?_)
        have hread := passes_readOnly (.readUser ⟨id⟩) rfl os s
        rcases hr : ((Section.readUser ⟨id⟩).body.exec os s).1 with e | oldRecord
        · rw [hr] at hread
          exact hread.bind_error.ends
        rw [hr] at hread
        refine Prog.wp_bind.2 (placed_expireBeforePut oldRecord active userName body.email
          fun r hexpire => ?_)
        rcases r with e | _
        · exact (hread.bind (hexpire s).bind_error).ends
        refine Prog.wp_bind.2 (placed_write (.setUser ⟨id⟩ (body.toRecord userName active)) rfl
          fun os s' hid => ?_)
        -- alone, the request finds the user there, and has nothing to expire
        obtain ⟨oldRecord', hread'⟩ := passes_readUser hid
        have hexpire' : Passes (expireBeforePut config oldRecord' active userName body.email)
            (.ok ()) s' s' := passes_expireBeforePut oldRecord' active userName body.email s'
        have hset := passes_locked (.setUser ⟨id⟩ (body.toRecord userName active)) os s'
        rcases hr' : ((Section.setUser ⟨id⟩ (body.toRecord userName active)).body.exec os s').1
          with e | stored
        · rw [hr'] at hset
          exact (hread'.bind (hexpire'.bind hset.bind_error)).ends
        rw [hr'] at hset
        refine Prog.wp_bind.2 (placed_reconcileAfterPut fun r hafter => ?_)
        rcases r with e | _
        · exact hread'.bind_ends (hexpire'.bind_ends (hset.bind_ends hafter.bind_error))
        · exact hread'.bind_ends
            (hexpire'.bind_ends (hset.bind_ends (hafter.bind (passes_pure _ _))))
    · exact placed_throw _
  · exact placed_throw _

theorem placed_deleteUserRequest (id : String) :
    (deleteUserRequest config id).wp placing (AtPlace (deleteUserRequest config id)) .start := by
  refine Prog.wp_bind.2 (placed_read (.readUser ⟨id⟩) rfl fun os s => ?_)
  have hread := passes_readOnly (.readUser ⟨id⟩) rfl os s
  rcases hr : ((Section.readUser ⟨id⟩).body.exec os s).1 with e | record
  · rw [hr] at hread
    exact hread.bind_error.ends
  rw [hr] at hread
  refine Prog.wp_bind.2 (placed_deleteHeadscaleUser record fun r hdelete => ?_)
  rcases r with e | _
  · exact (hread.bind (hdelete s).bind_error).ends
  refine Prog.wp_bind.2 (placed_write (.removeUserAndFromGroups ⟨id⟩) rfl
    fun os s' hid => ?_)
  -- Alone, the request finds the user there, and has no account to delete.
  obtain ⟨record', hread'⟩ := passes_readUser hid
  have hdelete' := passes_deleteHeadscaleUser_ok config record' s'
  have hremove := passes_locked (.removeUserAndFromGroups ⟨id⟩) os s'
  rcases hr' : ((Section.removeUserAndFromGroups ⟨id⟩).body.exec os s').1 with e | _
  · rw [hr'] at hremove
    exact (hread'.bind (hdelete'.bind hremove.bind_error)).ends
  rw [hr'] at hremove
  refine placed_reconcile fun r hr' => ?_
  exact hread'.bind_ends (hdelete'.bind_ends (hremove.bind_ends (ends_reconcile hr' _)))

/-- What a request on users answers, it may answer alone at its place. -/
def Request.onUsers : Request → Bool
  | .listUsers | .getUser _ | .createUser _ | .putUser _ _ | .deleteUser _ => true
  | _ => false

theorem placed_handle {request : Request} (h : request.onUsers = true) :
    (handle config request).wp placing (AtPlace (handle config request)) .start := by
  cases request with
  | listUsers => exact placed_map (placed_readOnly rfl)
  | getUser id => exact placed_map (placed_readOnly rfl)
  | createUser body => exact placed_map (placed_createUser body)
  | putUser id body => exact placed_map (placed_putUser id body)
  | deleteUser id => exact placed_map (placed_deleteUserRequest id)
  | _ => cases h

end Headmaster.Scim
