import Headmaster.Process.Trace
import Headmaster.Scim.Session
import Headmaster.Scim.Projection

/-!
# The deletion of a user

What `delete_user` is for: no headscale account with the identifier of the
record is left, and neither the mapping nor the policy has the user
(`UserDeleted`). The accounts are searched for the first one only, so all are
gone exactly when there is at most one (`userDeleted_iff`).
-/

namespace Headmaster.Scim

open Process
open Policy (PolicyText groupEntries entriesOf)

variable {config : ScimConfig} {id : ScimId} {record : UserRecord} {w w' : World}
  {tr : List (Made sig)}

/-- Headscale has deleted the account, or has said that there is none. -/
def AccountGone (tr : List (Made sig)) (uid : Nat) : Prop :=
  ∃ a : Except Status Unit, (⟨.deleteUser uid, a⟩ : Made sig) ∈ tr ∧
    (a = .ok () ∨ ∃ s : Status, a = .error s ∧ s.code = .notFound)

/-- The user is nowhere any more: not among the accounts that headscale had, not in the mapping, and
    every token in a group of the policy is somebody else's. -/
structure UserDeleted (config : ScimConfig) (id : ScimId) (record : UserRecord) (users : List User)
    (w' : World) (tr : List (Made sig)) : Prop where
  accounts : ∀ key, resolveKey config record = some key → ∀ u ∈ users, key.matches u = true →
    AccountGone tr u.id
  record : w'.store.mapping.getUser id = none
  members : ∀ g r, w'.store.mapping.getGroup g = some r → id ∉ r.members
  policy : ∃ get, groupEntries w'.livePolicy = some get ∧ ∀ k v, get k = some v →
    ∃ tokens : List String, v = .array (tokens.map .string) ∧ ∀ t ∈ tokens, ∃ id' user, id' ≠ id ∧
      w'.store.mapping.getUser id' = some user ∧ token config.policyUserKey user = some t

/-- At most one of the accounts has the identifier of the record. -/
def OneAccount (config : ScimConfig) (record : UserRecord) (users : List User) : Prop :=
  ∀ key, resolveKey config record = some key → ∀ u ∈ users, ∀ v ∈ users,
    key.matches u = true → key.matches v = true → u.id = v.id

/-- The account that is found, if any. -/
def accountOf (config : ScimConfig) (record : UserRecord) (users : List User) : Option User :=
  (resolveKey config record).bind fun key => users.find? key.matches

theorem wp_ignoreNotFound_of {S : Type} {c : Contract sig S} {r : Except Status Unit} {s : S}
    {Q : Except ScimError Unit → S → Prop}
    (hok : (r = .ok () ∨ ∃ status : Status, r = .error status ∧ status.code = .notFound) →
      Q (.ok ()) s)
    (herr : ∀ e, Q (.error e) s) : (ignoreNotFound r).wp c Q s := by
  rcases r with status | ⟨⟩
  · dsimp only [ignoreNotFound]
    split
    · rename_i hcode
      exact hok (.inr ⟨status, rfl, hcode⟩)
    · exact herr _
  · exact hok (.inl rfl)

/-- When the search succeeds, the account found is gone, and no other is asked to be deleted. -/
theorem wp_deleteHeadscaleUser_recorded {Q : Except ScimError Unit → World × List (Made sig) → Prop}
    (hok : ∀ (w' : World) (l : List (Made sig)), w'.store = w.store →
      w'.livePolicy = w.livePolicy →
      (∀ u, accountOf config record w.headscale.users = some u → AccountGone (l ++ tr) u.id) →
      (∀ c ∈ l, ∀ uid, c.op = .deleteUser uid →
        ∃ u, accountOf config record w.headscale.users = some u ∧ u.id = uid) →
      Q (.ok ()) (w', l ++ tr))
    (herr : ∀ e s, Q (.error e) s) :
    (deleteHeadscaleUser config record).wp machine.recording.contract Q (w, tr) := by
  have hlisted : ∀ uid, Op.listUsers ≠ .deleteUser uid := fun _ => nofun
  rw [deleteHeadscaleUser]
  rw [accountOf] at hok
  cases hkey : resolveKey config record with
  | none =>
    rw [hkey] at hok
    refine Prog.wp_pure.mpr (hok w [] rfl rfl ?_ fun c hc => absurd hc List.not_mem_nil)
    rintro u ⟨⟩
  | some key =>
    rw [hkey, Option.bind_some] at hok
    refine Machine.wp_bind_recording.2 (wp_listUsers.2 ⟨?_, ?_⟩)
    · intro users husers
      obtain rfl := Except.ok.inj husers
      rw [Prog.wp_bind, wp_fromStatus, Except.mapError, Post.andThen_ok]
      cases hfind : w.headscale.users.find? key.matches with
      | none =>
        rw [hfind] at hok
        refine hok w [⟨.listUsers, .ok w.headscale.users⟩] rfl rfl ?_ ?_
        · rintro u ⟨⟩
        · rintro c hc uid hop
          obtain rfl := List.mem_singleton.1 hc
          exact (hlisted uid hop).elim
      | some user =>
        rw [hfind] at hok
        refine Machine.wp_bind_recording.2 (wp_deleteUser ?_)
        intro r users a ha
        obtain rfl := Except.ok.inj ha
        refine wp_ignoreNotFound_of (fun hgone => ?_) fun e => herr e _
        refine hok _ [⟨.deleteUser user.id, r⟩, ⟨.listUsers, .ok w.headscale.users⟩] rfl rfl ?_ ?_
        · rintro u hu
          obtain rfl := Option.some.inj hu
          exact ⟨r, List.mem_cons_self, hgone⟩
        · rintro c hc uid hop
          rcases List.mem_cons.1 hc with rfl | hc
          · exact ⟨user, rfl, Op.deleteUser.inj hop⟩
          · obtain rfl := List.mem_singleton.1 hc
            exact (hlisted uid hop).elim
    · intro failure a ha
      obtain rfl := Except.ok.inj ha
      exact herr _ _

/-- Not a deletion of an account. -/
def Op.spares : Op → Prop
  | .deleteUser _ => False
  | _ => True

theorem not_mem_of_withoutUser {d : MappingFile} {g : GroupScimId} {r : GroupRecord}
    (hr : (Mapping.withoutUser d id).groups[g]? = some r) : id ∉ r.members := by
  rw [Mapping.withoutUser, Std.ExtTreeMap.getElem?_map, Option.map_eq_some_iff] at hr
  obtain ⟨r, _, rfl⟩ := hr
  simp [GroupRecord.withMembers]

/-- A policy that is in sync with a mapping has tokens of its users only. -/
theorem policy_of_inSync (hsync : InSync config w) (hnone : w.store.mapping.getUser id = none) :
    ∃ get, groupEntries w.livePolicy = some get ∧ ∀ k v, get k = some v →
      ∃ tokens : List String, v = .array (tokens.map .string) ∧ ∀ t ∈ tokens, ∃ id' user, id' ≠ id ∧
        w.store.mapping.getUser id' = some user ∧ token config.policyUserKey user = some t := by
  refine ⟨_, hsync, fun k v hv => ?_⟩
  obtain ⟨g, r, _, _, rfl⟩ := group_of_entriesOf hv
  refine ⟨_, rfl, fun t ht => ?_⟩
  obtain ⟨id', _, user, huser, htoken⟩ := mem_projection.1 ht
  refine ⟨id', user, ?_, huser, htoken⟩
  rintro rfl
  rw [hnone] at huser
  cases huser

/-- After the account: the mapping and the policy are rid of the user, and no account is touched. -/
theorem wp_forgetUser (hOnce : w.OneGroups) :
    (do Locked.removeUserAndFromGroups id; reconcileGroupsPolicy config : M Unit).wp
      (anyFate.within Op.spares)
      (fun r w' => r = .ok () → InSync config w' ∧
        w'.store.data = Mapping.withoutUser w.store.data id) w := by
  refine Prog.wp_bind.2 (wp_removeUserAndFromGroups_within trivial (fun files => ?_) ?_)
  · exact wp_reconcileGroupsPolicy_within trivial trivial trivial trivial (fun _ => trivial)
      (fun policy h _ => ⟨(h hOnce).2, rfl⟩) fun _ _ _ he => nomatch he
  · exact fun _ _ he => nomatch he

/-- What a deletion that returns `Ok` leaves. -/
theorem of_deleteUserRequest {id : String} (hrecord : w.store.mapping.getUser ⟨id⟩ = some record)
    (hOnce : w.OneGroups)
    (hok : machine.recording.Reaches (deleteUserRequest config id) (w, []) (.ok ()) (w', tr)) :
    InSync config w' ∧ w'.store.data = Mapping.withoutUser w.store.data ⟨id⟩ ∧
      (∀ u, accountOf config record w.headscale.users = some u → AccountGone tr u.id) ∧
      ∀ c ∈ tr, ∀ uid, c.op = .deleteUser uid →
        ∃ u, accountOf config record w.headscale.users = some u ∧ u.id = uid := by
  refine hok.of_wp (Q := fun r s => r = .ok () → InSync config s.1 ∧
    s.1.store.data = Mapping.withoutUser w.store.data ⟨id⟩ ∧
    (∀ u, accountOf config record w.headscale.users = some u → AccountGone s.2 u.id) ∧
    ∀ c ∈ s.2, ∀ uid, c.op = .deleteUser uid →
      ∃ u, accountOf config record w.headscale.users = some u ∧ u.id = uid) ?_ rfl
  have hread : (Locked.readUser ⟨id⟩).wp (anyFate.within Op.spares)
      (fun r w' => w' = w ∧ ∀ a, r = .ok a → a = record) w := by
    refine Prog.wp_bind.2 (Prog.wp_op_within.2 ⟨trivial, Prog.wp_bind.1 (wp_readUser ?_ ?_)⟩)
    · rintro record' hrecord'
      obtain rfl := Option.some.inj (hrecord.symm.trans hrecord')
      exact ⟨rfl, fun a ha => (Except.ok.inj ha).symm⟩
    · exact fun _ => ⟨rfl, fun a ha => nomatch ha⟩
  refine Prog.wp_bind.2 (Prog.wp_mono ?_ (Machine.wp_recording hread))
  rintro (e | record') ⟨w₁, tr₁⟩ ⟨⟨rfl, hrecord'⟩, l₁, rfl, hl₁⟩
  · exact fun he => nomatch he
  obtain rfl := hrecord' _ rfl
  refine Prog.wp_bind.2 (wp_deleteHeadscaleUser_recorded ?_ fun e s he => nomatch he)
  intro w₂ l₂ hstore hpolicy hgone honly
  refine Prog.wp_mono ?_ (Machine.wp_recording (@wp_forgetUser config ⟨id⟩ w₂ ?_))
  · rintro r ⟨w₃, tr₃⟩ ⟨hforget, l₃, rfl, hl₃⟩ hr
    obtain ⟨hsync, hdata⟩ := hforget hr
    refine ⟨hsync, hstore ▸ hdata, fun u hu => ?_, fun c hc uid hop => ?_⟩
    · obtain ⟨a, ha, hend⟩ := hgone u hu
      exact ⟨a, List.mem_append_right _ ha, hend⟩
    · have hkeeps : ∀ l : List (Made sig), (∀ c ∈ l, Op.spares c.op) → c ∉ l := by
        intro l hl hcl
        have := hl c hcl
        rw [hop] at this
        exact this
      rcases List.mem_append.1 hc with hc | hc
      · exact (hkeeps l₃ hl₃ hc).elim
      rcases List.mem_append.1 hc with hc | hc
      · exact honly c hc uid hop
      · exact (hkeeps _ hl₁ (List.append_nil l₁ ▸ hc)).elim
  · rw [World.OneGroups, hpolicy]
    exact hOnce

/-- A deletion that returns `Ok` has deleted the user exactly when there was one account at most. -/
theorem userDeleted_iff {id : String} (hrecord : w.store.mapping.getUser ⟨id⟩ = some record)
    (hOnce : w.OneGroups)
    (hok : machine.recording.Reaches (deleteUserRequest config id) (w, []) (.ok ()) (w', tr)) :
    UserDeleted config ⟨id⟩ record w.headscale.users w' tr ↔
      OneAccount config record w.headscale.users := by
  obtain ⟨hsync, hdata, hgone, honly⟩ := of_deleteUserRequest hrecord hOnce hok
  have hnone : w'.store.mapping.getUser ⟨id⟩ = none := by
    change w'.store.data.users[_]? = none
    rw [hdata]
    exact Std.ExtTreeMap.getElem?_erase_self
  constructor
  · rintro ⟨haccounts, -, -, -⟩ key hkey u hu v hv hmatchu hmatchv
    obtain ⟨a, ha, _⟩ := haccounts key hkey u hu hmatchu
    obtain ⟨b, hb, _⟩ := haccounts key hkey v hv hmatchv
    obtain ⟨x, hx, hxu⟩ := honly _ ha u.id rfl
    obtain ⟨y, hy, hyv⟩ := honly _ hb v.id rfl
    obtain rfl := Option.some.inj (hx.symm.trans hy)
    exact hxu.symm.trans hyv
  · intro hone
    refine ⟨fun key hkey u hu hmatch => ?_, hnone, fun g r hr => ?_, policy_of_inSync hsync hnone⟩
    · cases hfind : w.headscale.users.find? key.matches with
      | none => exact absurd hmatch (List.find?_eq_none.1 hfind u hu)
      | some found =>
        have hfound : accountOf config record w.headscale.users = some found := by
          rw [accountOf, hkey, Option.bind_some, hfind]
        rw [hone key hkey u hu found (List.mem_of_find?_eq_some hfind) hmatch
          (List.find?_some (p := fun u => key.matches u) hfind)]
        exact hgone found hfound
    · refine not_mem_of_withoutUser (d := w.store.data) (g := g) ?_
      rw [← hdata]
      exact hr

/-- The user of `engWorld`, and accounts of headscale that share the user's email. -/
def accountsWorld (ids : List Nat) : World :=
  { engWorld none with headscale.users := ids.map fun id => ⟨id, "alice", "alice@example.com", ""⟩ }

theorem userDeleted_iff_one :
    ∃ record w' tr, (accountsWorld [1]).store.mapping.getUser ⟨"u1"⟩ = some record ∧
      machine.recording.Reaches (deleteUserRequest {} "u1") (accountsWorld [1], []) (.ok ()) (w', tr) ∧
      UserDeleted {} ⟨"u1"⟩ record (accountsWorld [1]).headscale.users w' tr := by
  have hrecord : (accountsWorld [1]).store.mapping.getUser ⟨"u1"⟩ = some _ :=
    Std.ExtTreeMap.getElem?_insert_self
  have hok : (machine.recording.run (deleteUserRequest {} "u1") [] (accountsWorld [1], [])).1.isOk =
    true := by decide +kernel
  have hreaches := Machine.Reaches.of_isOk hok
  refine ⟨_, _, _, hrecord, hreaches, (userDeleted_iff hrecord trivial hreaches).2 ?_⟩
  intro key _ u hu v hv _ _
  rw [List.mem_singleton.1 hu, List.mem_singleton.1 hv]

/-- Of two accounts with the email the second is left. -/
theorem not_userDeleted_shared :
    ∃ record w' tr, (accountsWorld [1, 2]).store.mapping.getUser ⟨"u1"⟩ = some record ∧
      machine.recording.Reaches (deleteUserRequest {} "u1") (accountsWorld [1, 2], []) (.ok ())
        (w', tr) ∧
      ¬UserDeleted {} ⟨"u1"⟩ record (accountsWorld [1, 2]).headscale.users w' tr := by
  have hrecord : (accountsWorld [1, 2]).store.mapping.getUser ⟨"u1"⟩ = some _ :=
    Std.ExtTreeMap.getElem?_insert_self
  have hok : (machine.recording.run (deleteUserRequest {} "u1") [] (accountsWorld [1, 2], [])).1.isOk =
    true := by decide +kernel
  have hreaches := Machine.Reaches.of_isOk hok
  refine ⟨_, _, _, hrecord, hreaches, fun hdeleted => ?_⟩
  obtain ⟨-, -, -, honly⟩ := of_deleteUserRequest hrecord trivial hreaches
  obtain ⟨a, ha, -⟩ := hdeleted.accounts (.email "alice@example.com") rfl
    ⟨2, "alice", "alice@example.com", ""⟩ (by decide) (by decide)
  obtain ⟨u, hu, hid⟩ := honly _ ha 2 rfl
  have hfirst : accountOf {} ⟨true, "alice", none, some "alice@example.com", none, 0⟩
      (accountsWorld [1, 2]).headscale.users = some ⟨1, "alice", "alice@example.com", ""⟩ := by
    decide
  obtain rfl := Option.some.inj (hfirst.symm.trans hu)
  cases hid

end Headmaster.Scim
