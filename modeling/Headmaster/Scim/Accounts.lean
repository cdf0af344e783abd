import Headmaster.Scim.Session

/-!
# Expired and deleted accounts

Which headscale nodes and users the requests on a user reach.

* A request that deactivates a user, or changes the identifier when the
  configuration asks for it, must expire the nodes of the user it replaces
  (`Revokes`). `put_user` does, by the identifier stored before; the upsert of
  `create_user` never expires anything (`revokes_iff`).
* A request must reach the accounts of its own user only (`Spares`). The accounts
  are found by comparing identifiers, so a stored identifier that is the empty
  string finds the accounts that have none (`spares`).
-/

namespace Headmaster.Scim

open Process

variable {config : ScimConfig} {w : World}

/-- The account is the one the record resolves to. -/
def Owns (config : ScimConfig) (record : UserRecord) (u : User) : Prop :=
  ∃ key, resolveKey config record = some key ∧ key.matches u = true

/-- The node is owned by the account the record resolves to. -/
def OwnsNode (config : ScimConfig) (record : UserRecord) (n : Node) : Prop :=
  ∃ u, n.user = some u ∧ Owns config record u

/-- The account changes sent while the request was handled. -/
def Turn.sent (config : ScimConfig) (t : Turn) (w : World) : List Sent :=
  (t.run config w).2.sent.drop w.sent.length

theorem mem_expiries {record : UserRecord} {nodes : List Node} {c : Sent} :
    c ∈ expiries config record nodes ↔
      ∃ n ∈ nodes, OwnsNode config record n ∧ c = .expireNode n.id := by
  unfold expiries OwnsNode Owns ownedNodes
  cases resolveKey config record with
  | none => simp
  | some key =>
    simp only [Option.map_some, Option.getD_some, List.mem_map, List.mem_filter, Option.any_eq_true]
    constructor
    · rintro ⟨_, ⟨n, ⟨hn, u, hu, hkey⟩, rfl⟩, rfl⟩
      exact ⟨n, hn, ⟨u, hu, key, rfl, hkey⟩, rfl⟩
    · rintro ⟨n, hn, ⟨u, hu, key', hkey', hkey⟩, rfl⟩
      cases hkey'
      exact ⟨n.id, ⟨n, ⟨hn, u, hu, hkey⟩, rfl⟩, rfl⟩

theorem mem_deletions {record : UserRecord} {users : List User} {c : Sent}
    (h : c ∈ deletions config record users) :
    ∃ u ∈ users, Owns config record u ∧ c = .deleteUser u.id := by
  rw [deletions] at h
  cases hkey : resolveKey config record with
  | none => simp [hkey] at h
  | some key =>
    simp only [hkey, Option.bind_some, List.mem_map, Option.mem_toList] at h
    obtain ⟨u, hu, rfl⟩ := h
    exact ⟨u, List.mem_of_find?_eq_some hu, ⟨key, hkey, by simpa using List.find?_some hu⟩, rfl⟩

/-! ## Revocation -/

/-- The request replaces the record `old` of the user `id`. -/
def World.Replaces (w : World) (id : ScimId) (old : UserRecord) : Request → Prop
  | .createUser body => ∃ name, body.userName = some name ∧ name ≠ "" ∧
      w.store.mapping.getUserByName name = some (id, old)
  | .putUser id' _ => id = ⟨id'⟩ ∧ w.store.mapping.getUser id = some old
  | _ => False

/-- Replacing `old` by `new` must end the sessions of the user. -/
def EndsSessions (config : ScimConfig) (old new : UserRecord) : Prop :=
  new.active = false ∨
    config.expireNodesOnChange = true ∧ identifierChanged config old new.name new.email = true

/-- The request has sent an expiry for every node of the user, if it ended the
    sessions. -/
def Revokes (config : ScimConfig) (w : World) (t : Turn) (id : ScimId) (old : UserRecord) : Prop :=
  ∀ new, (t.run config w).2.store.mapping.getUser id = some new → EndsSessions config old new →
    ∀ n ∈ t.accounts.nodes, OwnsNode config old n → .expireNode n.id ∈ t.sent config w

/-- An upsert that ends the sessions of a user finds no node of the user. -/
def NothingToExpire (config : ScimConfig) (t : Turn) (old : UserRecord) : Prop :=
  match t.request with
  | .createUser body =>
    EndsSessions config old (body.toRecord (body.userName.getD "") (body.active.getD true)) →
      ∀ n ∈ t.accounts.nodes, ¬OwnsNode config old n
  | _ => True

/-- Alone, `create_user` on a name that is taken stores the new record over the
    old one, and touches no account. -/
theorem wp_createUser {body : UserBody} {name : String} (hname : body.userName = some name) :
    (createUser config body).wp anyFate (fun r w' => ∀ a, r = .ok a →
      w'.sent = w.sent ∧ ∃ os files, w'.store = w.store.putUser
        (Section.userTarget w.store.mapping os name).1
        (Section.stamped os (body.toRecord name (body.active.getD true))) files) w := by
  rw [createUser]
  split
  · rename_i userName hfilter
    obtain rfl : userName = name := by
      have := Option.eq_some_of_filter_eq_some hfilter
      rw [hname] at this
      exact (Option.some.inj this).symm
    rw [checkExternalId]
    split
    · exact fun _ he => nomatch he
    · refine Prog.wp_bind.2 (Prog.wp_bind.2 (wp_upsertUser fun r os files => ?_))
      rcases r with e | ⟨scimUser, created⟩
      · exact fun _ he => nomatch he
      · refine Prog.wp_bind.2 (wp_reconcileGroupsPolicy (fun policy _ => ?_) fun e policy _ => ?_)
        · exact fun _ _ => ⟨rfl, os, files, rfl⟩
        · exact fun _ he => nomatch he
  · exact fun _ he => nomatch he

/-- Alone, the reconcile of `put_user` changes the live policy, if anything. -/
theorem wp_reconcileAfterPut_policy {id : ScimId} {active : Bool}
    {Q : Except ScimError Unit → World → Prop} (hrec : ∀ r policy, Q r (w.withPolicy policy))
    (hskip : Q (.ok ()) w) : (reconcileAfterPut config id active).wp anyFate Q w := by
  refine Prog.wp_bind.2 (wp_isInAnyGroup.2 ?_)
  simp only [Post.andThen_ok]
  split
  · exact wp_reconcileGroupsPolicy (fun policy _ => hrec _ policy) fun _ policy _ => hrec _ policy
  · exact hskip

/-- Alone, `put_user` sends no other account changes than the expiries it calls
    for. When it returns `Ok`, it has sent them all, and stored the new record
    over the old one. -/
theorem wp_putUser_sent {id : String} {body : UserBody} {old : UserRecord}
    (hold : w.store.mapping.getUser ⟨id⟩ = some old) :
    (putUser config id body).wp anyFate (fun r w' =>
      (∃ cs, w'.sent = w.sent ++ cs ∧ ∀ c ∈ cs, ∃ name active, body.userName = some name ∧
        body.active = some active ∧
        c ∈ putExpiries config old active name body.email w.headscale.nodes) ∧
      ∀ a, r = .ok a → ∃ name active os files, body.userName = some name ∧
        body.active = some active ∧
        w'.sent = w.sent ++ putExpiries config old active name body.email w.headscale.nodes ∧
        w'.store = w.store.putUser ⟨id⟩ (Section.stamped os (body.toRecord name active)) files) w := by
  have hnothing : ∃ cs, w.sent = w.sent ++ cs ∧ ∀ c ∈ cs, ∃ name active, body.userName = some name ∧
      body.active = some active ∧
      c ∈ putExpiries config old active name body.email w.headscale.nodes :=
    ⟨[], (List.append_nil _).symm, fun _ hc => nomatch hc⟩
  -- a failure before the expiries sends nothing, one after them has sent some of them
  rw [putUser]
  split
  · split
    · rename_i name hname _ active hactive
      have hexpiries : ∃ cs,
          w.sent ++ putExpiries config old active name body.email w.headscale.nodes = w.sent ++ cs ∧
          ∀ c ∈ cs, ∃ name active, body.userName = some name ∧ body.active = some active ∧
            c ∈ putExpiries config old active name body.email w.headscale.nodes :=
        ⟨_, rfl, fun c hc => ⟨name, active, hname, hactive, hc⟩⟩
      rw [checkExternalId]
      split
      · exact ⟨hnothing, fun _ he => nomatch he⟩
      · refine Prog.wp_bind.2 (Prog.wp_bind.2 (wp_readUser (fun record hrecord => ?_) fun hnone => ?_))
        · obtain rfl : record = old := Option.some.inj (hrecord.symm.trans hold)
          refine Prog.wp_bind.2 (wp_expireBeforePut (fun r => ?_)
            fun _ => ⟨hnothing, fun _ he => nomatch he⟩)
          rcases r with e | _
          · exact ⟨hexpiries, fun _ he => nomatch he⟩
          refine Prog.wp_bind.2 (wp_setUser fun r os files => ?_)
          rcases r with e | _
          · exact ⟨hexpiries, fun _ he => nomatch he⟩
          refine Prog.wp_bind.2 (wp_reconcileAfterPut_policy (fun r policy => ?_) ?_)
          · rcases r with e | _
            · exact ⟨hexpiries, fun _ he => nomatch he⟩
            · exact ⟨hexpiries, fun _ _ => ⟨name, active, os, files, hname, hactive, rfl, rfl⟩⟩
          · exact ⟨hexpiries, fun _ _ => ⟨name, active, os, files, hname, hactive, rfl, rfl⟩⟩
        · exact ⟨hnothing, fun _ he => nomatch he⟩
    · exact ⟨hnothing, fun _ he => nomatch he⟩
  · exact ⟨hnothing, fun _ he => nomatch he⟩

/-- Alone, `delete_user` sends no other account change than the deletion it calls
    for. -/
theorem wp_deleteUserRequest_sent {id : String} {record : UserRecord}
    (hrecord : w.store.mapping.getUser ⟨id⟩ = some record) :
    (deleteUserRequest config id).wp anyFate (fun _ w' => ∃ cs, w'.sent = w.sent ++ cs ∧
      ∀ c ∈ cs, c ∈ deletions config record w.headscale.users) w := by
  have hnothing : ∃ cs, w.sent = w.sent ++ cs ∧
      ∀ c ∈ cs, c ∈ deletions config record w.headscale.users :=
    ⟨[], (List.append_nil _).symm, fun _ hc => nomatch hc⟩
  have hdeletions : ∃ cs, w.sent ++ deletions config record w.headscale.users = w.sent ++ cs ∧
      ∀ c ∈ cs, c ∈ deletions config record w.headscale.users := ⟨_, rfl, fun _ hc => hc⟩
  refine Prog.wp_bind.2 (wp_readUser (fun record' hrecord' => ?_) fun _ => hnothing)
  obtain rfl : record' = record := Option.some.inj (hrecord'.symm.trans hrecord)
  refine Prog.wp_bind.2 (wp_deleteHeadscaleUser (fun r users => ?_) fun _ => hnothing)
  rcases r with e | _
  · exact hdeletions
  refine Prog.wp_bind.2 (wp_removeUserAndFromGroups (fun files => ?_) fun _ _ => hdeletions)
  exact wp_reconcileGroupsPolicy (fun _ _ => hdeletions) fun _ _ _ => hdeletions

/-- The expiries a `put_user` calls for are all when it ends the sessions. -/
theorem putExpiries_of_endsSessions {old : UserRecord} {body : UserBody} {name : String}
    {active : Bool} {os : Os} (nodes : List Node)
    (h : EndsSessions config old (Section.stamped os (body.toRecord name active))) :
    putExpiries config old active name body.email nodes = expiries config old nodes := by
  rw [putExpiries]
  rw [if_pos]
  rcases h with h | ⟨hflag, hchanged⟩
  · have hactive : active = false := h
    simp [hactive]
  · have hid : identifierChanged config old name body.email = true := hchanged
    cases active <;> simp [hflag, hid]

/-- A `put_user` calls for no expiries but when it ends the sessions. -/
theorem endsSessions_of_mem_putExpiries {old : UserRecord} {body : UserBody} {name : String}
    {active : Bool} {nodes : List Node} {c : Sent}
    (h : c ∈ putExpiries config old active name body.email nodes) :
    EndsSessions config old (body.toRecord name active) ∧ c ∈ expiries config old nodes := by
  rw [putExpiries] at h
  split at h
  · rename_i hcond
    refine ⟨?_, h⟩
    simp only [Bool.or_eq_true, Bool.not_eq_true', Bool.and_eq_true] at hcond
    exact hcond.imp_right fun hchanged => ⟨hchanged.1.1, hchanged.2⟩
  · cases h

/-- A call that replaces a record and returns `Ok` revokes the sessions it ends,
    unless it is an upsert and the user has nodes. -/
theorem revokes_iff {t : Turn} {id : ScimId} {old : UserRecord} {a : Response}
    (hold : w.Replaces id old t.request) (hok : (t.run config w).1 = .ok a) :
    Revokes config w t id old ↔ NothingToExpire config t old := by
  obtain ⟨request, accounts, fates⟩ := t
  cases request with
  -- a create over an existing name overwrites the record but never asks headscale for its nodes
  | createUser body =>
    obtain ⟨name, hname, _, hfound⟩ := hold
    obtain ⟨hsent, os, files, hstore⟩ := Turn.run_of_wp_ok config rfl (wp_createUser hname) hok
    have htarget : (Section.userTarget (machine.env accounts w).store.mapping os name).1 = id := by
      have : w.store.mapping.getUserByName name = some (id, old) := hfound
      simp only [Section.userTarget, machine, this]
    rw [htarget] at hstore
    have hnone : Turn.sent config ⟨.createUser body, accounts, fates⟩ w = [] := by
      rw [Turn.sent]
      rw [hsent]
      exact List.drop_length
    rw [Revokes, NothingToExpire]
    rw [hnone, hstore, Store.getUser_putUser]
    dsimp only
    rw [hname]
    constructor
    · intro h hends n hn howns
      exact absurd (h _ rfl hends n hn howns) List.not_mem_nil
    · rintro h new hnew hends n hn howns
      cases hnew
      exact absurd howns (h hends n hn)
  | putUser id' body =>
    obtain ⟨rfl, hold⟩ := hold
    obtain ⟨name, active, os, files, hname, hactive, hsent, hstore⟩ :=
      Turn.run_of_wp_ok config rfl (Prog.wp_mono (fun _ _ h => h.2) (wp_putUser_sent hold)) hok
    -- a put sends the expiries itself, whatever the condition says
    refine iff_of_true ?_ trivial
    intro new hnew hends n hn howns
    rw [hstore, Store.getUser_putUser] at hnew
    cases hnew
    rw [Turn.sent, hsent, putExpiries_of_endsSessions _ hends]
    change _ ∈ (w.sent ++ expiries config old accounts.nodes).drop w.sent.length
    rw [List.drop_left]
    exact mem_expiries.2 ⟨n, hn, howns, rfl⟩
  | _ => exact hold.elim

/-- Deactivating Alice through `put_user` expires her node. -/
theorem putUser_revokes :
    let alice : UserRecord := ⟨true, "alice", none, some "alice@example.com", none, 0⟩
    Revokes {} (mappingOf "u1" alice)
      ⟨.putUser "u1" { userName := some "alice", active := some false },
        ⟨[], [⟨7, some ⟨1, "alice", "alice@example.com", ""⟩⟩]⟩, []⟩ ⟨"u1"⟩ alice := by
  intro alice
  have hok : (Turn.run {} ⟨.putUser "u1" { userName := some "alice", active := some false },
      ⟨[], [⟨7, some ⟨1, "alice", "alice@example.com", ""⟩⟩]⟩, []⟩ (mappingOf "u1" alice)).1 =
      .ok (.user (userRecordToScim ⟨"u1"⟩ ⟨false, "alice", none, none, none, 0⟩)) := by
    decide +kernel
  have hold : (mappingOf "u1" alice).Replaces ⟨"u1"⟩ alice
      (.putUser "u1" { userName := some "alice", active := some false }) :=
    ⟨rfl, by decide +kernel⟩
  exact (revokes_iff hold hok).2 trivial

/-- Deactivating Alice through the upsert of `create_user` leaves her node
    connected. -/
theorem createUser_not_revokes :
    let alice : UserRecord := ⟨true, "alice", none, some "alice@example.com", none, 0⟩
    ¬Revokes {} (mappingOf "u1" alice)
      ⟨.createUser { userName := some "alice", active := some false },
        ⟨[], [⟨7, some ⟨1, "alice", "alice@example.com", ""⟩⟩]⟩, []⟩ ⟨"u1"⟩ alice := by
  intro alice h
  have hsent := h ⟨false, "alice", none, none, none, 0⟩ (by decide +kernel) (.inl rfl)
    ⟨7, some ⟨1, "alice", "alice@example.com", ""⟩⟩ List.mem_cons_self
    ⟨_, rfl, .email "alice@example.com", rfl, by decide⟩
  revert hsent
  decide +kernel

/-! ## Collateral -/

/-- The field of a record the configured identifier comes from. -/
def storedIdentifier (config : ScimConfig) (record : UserRecord) : Option String :=
  match config.policyUserKey with
  | .email => record.email
  | .username => some record.name
  | .externalId _ => record.externalId.map (·.value)

/-- The record has an identifier that is not the empty string. -/
def Identified (config : ScimConfig) (record : UserRecord) : Prop :=
  ∃ s, storedIdentifier config record = some s ∧ s ≠ ""

/-- The request is a `put_user` or a `delete_user` on the user with the record. -/
def World.Handles (w : World) (record : UserRecord) : Request → Prop
  | .putUser id _ => w.store.mapping.getUser ⟨id⟩ = some record
  | .deleteUser id => w.store.mapping.getUser ⟨id⟩ = some record
  | _ => False

/-- The account change is one for the user of the record, by an identifier that
    is not the empty string. -/
def Targets (config : ScimConfig) (accounts : Accounts) (record : UserRecord) : Sent → Prop
  | .expireNode id => ∃ n ∈ accounts.nodes, n.id = id ∧ Identified config record ∧
      OwnsNode config record n
  | .deleteUser id => ∃ u ∈ accounts.users, u.id = id ∧ Identified config record ∧
      Owns config record u

/-- The `put_user` and `delete_user` requests of a session reach the accounts of
    their own user only. -/
def Spares (config : ScimConfig) (w : World) (turns : List Turn) : Prop :=
  ∀ before t record, TakenAfter turns before t →
    (afterTurns config w before).Handles record t.request →
      ∀ c ∈ t.sent config (afterTurns config w before), Targets config t.accounts record c

/-- A record without an identifier that is not empty finds no account, or the
    request does not look for one. -/
def NothingToMistake (config : ScimConfig) (accounts : Accounts) (record : UserRecord) :
    Request → Prop
  | .putUser _ body =>
    (∀ name active, body.userName = some name → body.active = some active →
      ¬EndsSessions config record (body.toRecord name active)) ∨
    ∀ n ∈ accounts.nodes, ¬OwnsNode config record n
  | .deleteUser _ => ∀ u ∈ accounts.users, ¬Owns config record u
  | _ => True

/-- In a session where every `put_user` and `delete_user` is on a user whose
    identifier is not empty, or finds no account by it, the requests reach the
    accounts of their own user only. -/
theorem spares {turns : List Turn}
    (h : ∀ before t record, TakenAfter turns before t →
      (afterTurns config w before).Handles record t.request →
        Identified config record ∨ NothingToMistake config t.accounts record t.request) :
    Spares config w turns := by
  intro before t record htaken hhandles c hc
  have hcond := h before t record htaken hhandles
  generalize afterTurns config w before = w₁ at hhandles hc
  obtain ⟨request, accounts, fates⟩ := t
  cases request with
  -- what a put sends names nodes of the record it replaces
  | putUser id body =>
    obtain ⟨cs, hsent, hcs⟩ := Turn.run_of_wp_any config
      (t := ⟨.putUser id body, accounts, fates⟩) rfl
      (Prog.wp_mono (fun _ _ h => h.1) (wp_putUser_sent hhandles))
    rw [Turn.sent, hsent] at hc
    change c ∈ (w₁.sent ++ cs).drop w₁.sent.length at hc
    rw [List.drop_left] at hc
    obtain ⟨name, active, hname, hactive, hmem⟩ := hcs c hc
    obtain ⟨hends, hmem⟩ := endsSessions_of_mem_putExpiries hmem
    obtain ⟨n, hn, howns, rfl⟩ := mem_expiries.1 hmem
    rcases hcond with hid | hkeeps | hnone
    · exact ⟨n, hn, rfl, hid, howns⟩
    · exact absurd hends (hkeeps name active hname hactive)
    · exact absurd howns (hnone n hn)
  -- what a delete sends names accounts that the record's account search returned
  | deleteUser id =>
    obtain ⟨cs, hsent, hcs⟩ := Turn.run_of_wp_any config
      (t := ⟨.deleteUser id, accounts, fates⟩) rfl (wp_deleteUserRequest_sent hhandles)
    rw [Turn.sent, hsent] at hc
    change c ∈ (w₁.sent ++ cs).drop w₁.sent.length at hc
    rw [List.drop_left] at hc
    obtain ⟨u, hu, howns, rfl⟩ := mem_deletions (hcs c hc)
    rcases hcond with hid | hnone
    · exact ⟨u, hu, rfl, hid, howns⟩
    · exact absurd howns (hnone u hu)
  | _ => exact hhandles.elim

/-- Deleting Alice, whose email is known, while a user without an email is there. -/
theorem spares_alice :
    let alice : UserRecord := ⟨true, "alice", none, some "alice@example.com", none, 0⟩
    Spares {} (mappingOf "u1" alice)
      [⟨.deleteUser "u1", ⟨[⟨7, "bob", "", ""⟩, ⟨8, "alice", "alice@example.com", ""⟩], []⟩, []⟩] := by
  intro alice
  refine spares fun before t record htaken hhandles => .inl ?_
  obtain rfl : before = [] := by
    have := htaken.length_le
    simpa using this
  obtain ⟨rfl, _⟩ := List.cons_prefix_cons.1 htaken
  have hrecord : (mappingOf "u1" alice).store.mapping.getUser ⟨"u1"⟩ = some alice := by
    decide +kernel
  obtain rfl : alice = record := Option.some.inj (hrecord.symm.trans hhandles)
  exact ⟨"alice@example.com", rfl, by decide⟩

/-- Deleting a user whose stored email is empty deletes another user, who has
    none. -/
theorem deleteUser_not_spares :
    let alice : UserRecord := ⟨true, "alice", none, some "", none, 0⟩
    ¬Spares {} (mappingOf "u1" alice)
      [⟨.deleteUser "u1", ⟨[⟨7, "bob", "", ""⟩], []⟩, []⟩] := by
  intro alice h
  have hrecord : (mappingOf "u1" alice).store.mapping.getUser ⟨"u1"⟩ = some alice := by
    decide +kernel
  obtain ⟨_, _, _, ⟨s, hs, hne⟩, _⟩ := h [] _ alice List.prefix_rfl hrecord
    (.deleteUser 7) (by decide +kernel)
  exact hne (Option.some.inj hs).symm

end Headmaster.Scim
