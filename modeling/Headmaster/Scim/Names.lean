import Headmaster.Scim.Membership
import Headmaster.Scim.Serial

/-!
# Names

The names of users and groups, while requests of any kind run at the same time
and any write of the mapping may fail.

* Group names stay distinct: `create_group` and `put_group` look for the name
  and store the group in one section under the mapping lock
  (`distinct_groups_exec`). So the groups a reconcile asks for have distinct
  names, and so have the properties it renders (`groupNames_distinct`).
* User names need not: `put_user` stores the record without looking whether
  another user has its name. They stay distinct as long as none has
  (`userNames_distinct`).
-/

namespace Headmaster.Scim

open Process
open Policy (PolicyEditor PolicyMember)

/-! ## Maps whose entries have distinct names -/

section Maps

variable {α β : Type} [Ord α] [Std.TransOrd α] [Std.LawfulEqOrd α] {name : β → String}
  {t : Std.ExtTreeMap α β} {k : α} {v : β}

/-- Only the entry at `k`, if any, has the name `n`. -/
def OnlyAt (name : β → String) (t : Std.ExtTreeMap α β) (n : String) (k : α) : Prop :=
  ∀ k' v', t[k']? = some v' → name v' = n → k' = k

/-- No two entries of the map have the same name. -/
def DistinctNames (name : β → String) (t : Std.ExtTreeMap α β) : Prop :=
  ∀ k v, t[k]? = some v → OnlyAt name t (name v) k

omit [Std.LawfulEqOrd α] in
theorem distinctNames_empty : DistinctNames name (∅ : Std.ExtTreeMap α β) := by
  intro k v h
  rw [Std.ExtTreeMap.getElem?_empty] at h
  cases h

/-- An entry whose name no other one has may be put. -/
theorem DistinctNames.insert (h : DistinctNames name t) (hfree : OnlyAt name t (name v) k) :
    DistinctNames name (t.insert k v) := by
  have hget : ∀ (k' : α) (v' : β), (t.insert k v)[k']? = some v' →
      (k' = k ∧ v' = v) ∨ t[k']? = some v' := by
    intro k' v' hk'
    rw [Std.ExtTreeMap.getElem?_insert] at hk'
    split at hk'
    · rename_i hk
      exact .inl ⟨(Std.LawfulEqOrd.eq_of_compare hk).symm, (Option.some.inj hk').symm⟩
    · exact .inr hk'
  intro k₁ v₁ h₁ k₂ v₂ h₂ hname
  rcases hget k₁ v₁ h₁ with ⟨hk₁, hv₁⟩ | h₁
  · rcases hget k₂ v₂ h₂ with ⟨hk₂, _⟩ | h₂
    · rw [hk₁, hk₂]
    · rw [hk₁]
      exact hfree k₂ v₂ h₂ (hv₁ ▸ hname)
  · rcases hget k₂ v₂ h₂ with ⟨hk₂, hv₂⟩ | h₂
    · rw [hk₂]
      exact (hfree k₁ v₁ h₁ (hv₂ ▸ hname.symm)).symm
    · exact h k₁ v₁ h₁ k₂ v₂ h₂ hname

/-- An entry whose name another one has may not. -/
theorem DistinctNames.onlyAt_of_insert (h : DistinctNames name (t.insert k v)) :
    OnlyAt name t (name v) k := by
  intro k' v' hk' hname
  by_contra hne
  refine hne (h k v Std.ExtTreeMap.getElem?_insert_self k' v' ?_ hname)
  rw [Std.ExtTreeMap.getElem?_insert, if_neg, hk']
  exact fun hk => hne (Std.LawfulEqOrd.eq_of_compare hk).symm

omit [Std.LawfulEqOrd α] in
theorem DistinctNames.erase (h : DistinctNames name t) (k : α) : DistinctNames name (t.erase k) := by
  have hget : ∀ (k' : α) (v' : β), (t.erase k)[k']? = some v' → t[k']? = some v' := by
    intro k' v' hk'
    rw [Std.ExtTreeMap.getElem?_erase] at hk'
    split at hk'
    · cases hk'
    · exact hk'
  exact fun k₁ v₁ h₁ k₂ v₂ h₂ => h k₁ v₁ (hget _ _ h₁) k₂ v₂ (hget _ _ h₂)

theorem DistinctNames.map (h : DistinctNames name t) {f : α → β → β}
    (hf : ∀ k v, name (f k v) = name v) : DistinctNames name (t.map f) := by
  intro k₁ v₁ h₁ k₂ v₂ h₂ hname
  rw [Std.ExtTreeMap.getElem?_map, Option.map_eq_some_iff] at h₁ h₂
  obtain ⟨r₁, h₁, rfl⟩ := h₁
  obtain ⟨r₂, h₂, rfl⟩ := h₂
  rw [hf, hf] at hname
  exact h k₁ r₁ h₁ k₂ r₂ h₂ hname

/-- The first entry found by name is the only one, if the names are distinct. -/
theorem DistinctNames.onlyAt_of_find? (h : DistinctNames name t) {n : String} {r : α × β}
    (hfind : t.toList.find? (fun p => name p.2 = n) = some r) : OnlyAt name t n r.1 := by
  have hget := Std.ExtTreeMap.mem_toList_iff_getElem?_eq_some.1 (List.mem_of_find?_eq_some hfind)
  have hname : name r.2 = n := by simpa using List.find?_some hfind
  exact hname ▸ h r.1 r.2 hget

theorem onlyAt_of_find?_eq_none {n : String}
    (hfind : t.toList.find? (fun p => name p.2 = n) = none) (k : α) : OnlyAt name t n k := by
  intro k' v' hk' hname
  have := List.find?_eq_none.1 hfind (k', v') (Std.ExtTreeMap.mem_toList_iff_getElem?_eq_some.2 hk')
  exact absurd hname (by simpa using this)

theorem DistinctNames.nodup (h : DistinctNames name t) :
    (t.toList.map fun p => name p.2).Nodup := by
  refine List.pairwise_map.2 (Std.ExtTreeMap.distinct_keys_toList.imp_of_mem ?_)
  intro p q hp hq hne hname
  have hp' := Std.ExtTreeMap.mem_toList_iff_getElem?_eq_some.1 hp
  have hq' := Std.ExtTreeMap.mem_toList_iff_getElem?_eq_some.1 hq
  rw [h p.1 p.2 hp' q.1 q.2 hq' hname.symm] at hne
  exact hne Std.ReflOrd.compare_self

end Maps

/-! ## Groups -/

namespace Section

variable (os : Os) (s : Store)

/-- `setGroup` puts the group into memory, whether or not it is written. -/
theorem data_setGroup (id : GroupScimId) (record : GroupRecord) :
    (((Mapping.setGroup id record).mapErr ScimError.fromIo).exec os s).2.data =
      { s.data with groups := s.data.groups.insert id record } := by
  obtain ⟨files, hex, _⟩ := Mapping.setGroup_writes os s id record
  rw [StoreM.exec_mapErr, hex]
  cases os.flushError s.path <;> rfl

theorem data_upsertGroup (name : String) (body : GroupBody) :
    ∃ record : GroupRecord, record.name = name ∧ ((upsertGroup name body).body.exec os s).2.data =
      { s.data with groups := s.data.groups.insert (groupTarget s.mapping os name).1 record } := by
  let record : GroupRecord := ⟨name, collectMemberIds body.members, body.externalId.map .mk, 0⟩
  refine ⟨record, rfl, ?_⟩
  have hset := data_setGroup os s (groupTarget s.mapping os name).1 record
  rw [Section.body]
  dsimp only [Result]
  simp only [StoreM.exec_bind, StoreM.exec_get, StoreM.exec_read]
  rw [← hset]
  rcases ((Mapping.setGroup (groupTarget s.mapping os name).1 record).mapErr
    ScimError.fromIo).exec os s with ⟨_ | _, _⟩
  all_goals rfl

/-- `replaceGroup` leaves the groups as they are, or puts one under a name that
    no other group has, if the names were distinct. -/
theorem data_replaceGroup (id : GroupScimId) (name : String) (body : GroupBody) :
    ((replaceGroup id name body).body.exec os s).2.data = s.data ∨
    ∃ record : GroupRecord, record.name = name ∧
      (DistinctNames GroupRecord.name s.data.groups →
        OnlyAt GroupRecord.name s.data.groups name id) ∧
      ((replaceGroup id name body).body.exec os s).2.data =
        { s.data with groups := s.data.groups.insert id record } := by
  let record : GroupRecord :=
    ⟨name, collectMemberIds body.members, body.externalId.map .mk, os.now⟩
  have hset := data_setGroup os s id record
  rw [Section.body]
  dsimp only [Result]
  simp only [StoreM.exec_bind, exec_lookupGroup]
  cases hold : s.data.groups[id]? with
  | none => exact .inl rfl
  | some old =>
    -- what is left once the name is known to be free
    have hput : ((do
          let now ← read
          (Mapping.setGroup id { record with updatedAt := now.now }).mapErr ScimError.fromIo :
        StoreM ScimError GroupRecord).exec os s).2.data =
        { s.data with groups := s.data.groups.insert id record } := by
      rw [StoreM.exec_bind, StoreM.exec_read]
      exact hset
    simp only [StoreM.exec_get]
    by_cases hsame : name = old.name
    · rw [if_neg (not_not_intro hsame)]
      exact .inr ⟨record, rfl, fun h => hsame ▸ h id old hold, hput⟩
    rw [if_pos hsame]
    split
    · rename_i existingId existing hfind
      split
      · exact .inl rfl
      · rename_i hid
        refine .inr ⟨record, rfl, fun h => ?_, hput⟩
        rw [← not_not.1 hid]
        exact h.onlyAt_of_find? hfind
    · rename_i hfind
      refine .inr ⟨record, rfl, fun _ => ?_, hput⟩
      cases hname : s.mapping.getGroupByName name with
      | none => exact onlyAt_of_find?_eq_none hname id
      | some found => exact absurd hname (hfind found.1 found.2)

theorem data_removeGroup (id : GroupScimId) :
    ((removeGroup id).body.exec os s).2.data = s.data ∨
      ((removeGroup id).body.exec os s).2.data =
        { s.data with groups := s.data.groups.erase id } := by
  rw [body]
  simp only [StoreM.exec_bind, exec_lookupGroup]
  cases hold : s.data.groups[id]? with
  | none => exact .inl rfl
  | some old =>
    obtain ⟨files, hex, _⟩ := Mapping.removeGroup_writes os s id old hold
    have hmap := StoreM.exec_mapErr ScimError.fromIo (Mapping.removeGroup id) os s
    rw [hex] at hmap
    have hdata := congrArg (fun r : Except ScimError Unit × Store => r.2.data) hmap
    cases hfail : os.flushError s.path with
    | none =>
      rw [hfail] at hdata
      exact .inr hdata
    | some e =>
      rw [hfail] at hdata
      exact .inl hdata

theorem groupTarget_free (mapping : Mapping) (name : String)
    (h : DistinctNames GroupRecord.name mapping.data.groups) :
    OnlyAt GroupRecord.name mapping.data.groups name (groupTarget mapping os name).1 := by
  rw [groupTarget]
  cases hfind : mapping.getGroupByName name with
  | none => exact onlyAt_of_find?_eq_none hfind _
  | some found => exact h.onlyAt_of_find? hfind

theorem userTarget_free (mapping : Mapping) (name : String)
    (h : DistinctNames UserRecord.name mapping.data.users) :
    OnlyAt UserRecord.name mapping.data.users name (userTarget mapping os name).1 := by
  rw [userTarget]
  cases hfind : mapping.getUserByName name with
  | none => exact onlyAt_of_find?_eq_none hfind _
  | some found => exact h.onlyAt_of_find? hfind

/-- Every section keeps the names of the groups distinct. -/
theorem distinct_groups_exec (sec : Section) (h : DistinctNames GroupRecord.name s.data.groups) :
    DistinctNames GroupRecord.name (sec.body.exec os s).2.data.groups := by
  cases sec with
  -- the upsert looks the name up first and reuses the id it finds
  | upsertGroup name body =>
    obtain ⟨record, hname, hdata⟩ := data_upsertGroup os s name body
    rw [hdata]
    exact h.insert (hname ▸ groupTarget_free os s.mapping name h)
  -- the rename is refused when another id already has the name
  | replaceGroup id name body =>
    rcases data_replaceGroup os s id name body with hdata | ⟨record, hname, hfree, hdata⟩
    · rwa [hdata]
    · rw [hdata]
      exact h.insert (hname ▸ hfree h)
  | removeGroup id =>
    rcases data_removeGroup os s id with hdata | hdata
    · rwa [hdata]
    · rw [hdata]
      exact h.erase id
  -- members change, names stay
  | removeUserAndFromGroups id =>
    obtain ⟨files, hex⟩ := exec_removeUserAndFromGroups os s id
    rw [hex]
    cases os.flushError s.path with
    | none => exact h.map fun _ _ => rfl
    | some e => exact h
  | setUser id record =>
    obtain ⟨files, hex⟩ := exec_setUser os s id record
    rw [hex]
    exact h
  | upsertUser record =>
    obtain ⟨files, hex⟩ := exec_upsertUser os s record
    rw [hex]
    exact h
  | listUsers | getUser _ | readUser _ | isInAnyGroup _ | listGroups | getGroup _
  | describeGroup _ _ | desiredGroups _ =>
    rw [exec_of_readOnly os s rfl]
    exact h

end Section

/-- A call that is not made under the mapping lock leaves the store alone. -/
theorem act_store_of_ne {o : Op} (h : ∀ sec, o ≠ .locked sec) (f : Fate) (w : World) :
    (act f o w).2.store = w.store := by
  match o, h with
  | .locked sec, h => exact absurd rfl (h sec)
  | .lockPolicy, _ | .unlockPolicy, _ | .getPolicy, _ | .setPolicy _, _ =>
    exact act_store (.inr (by trivial)) f w
  | .listNodes, _ | .expireNode _, _ | .listUsers, _ | .deleteUser _, _ =>
    exact act_store (.inl (by trivial)) f w

theorem names_desiredGroups (config : ScimConfig) (mapping : Mapping) :
    (desiredGroups config mapping).map Prod.fst = mapping.groups.map fun p => p.2.name := by
  rw [desiredGroups, groupTokensWith, List.map_map]
  rfl

/-- The names of the groups stay distinct whatever requests run at the same time, and so do those
    of the groups that a reconcile passes on and renders. -/
theorem groupNames_distinct {config : ScimConfig} {requests : List Request} {w₀ : World}
    (hempty : w₀.store.data = {}) {events : List (Event Fate Headscale)}
    {s : Pool sig ScimError Response World}
    (hexec : unsteady.exec (concurrently config requests w₀) events = some s) :
    DistinctNames GroupRecord.name s.world.store.data.groups ∧
    ((desiredGroups config s.world.store.mapping).map Prod.fst).Nodup ∧
    ((PolicyEditor.groupProps (desiredGroups config s.world.store.mapping)).map Prod.fst).Nodup ∧
    ∀ e : PolicyEditor, e.OneGroups → ((Policy.propsOf (withGroupMembership e
      (desiredGroups config s.world.store.mapping)).groups).map Prod.fst).Nodup := by
  -- by induction on the run: only a section of the store changes the groups
  have hdistinct : DistinctNames GroupRecord.name s.world.store.data.groups := by
    refine Machine.exec_induction (P := fun t : Pool sig ScimError Response World =>
      DistinctNames GroupRecord.name t.world.store.data.groups) ?_ ?_ hexec
    · intro t e t' ht hstep
      rcases Machine.step_cases hstep with ⟨i, f, o, k, _, _, _, rfl⟩ | ⟨g, _, rfl⟩
      · by_cases ho : ∃ sec, o = .locked sec
        · obtain ⟨sec, rfl⟩ := ho
          exact Section.distinct_groups_exec f.os t.world.store sec ht
        · have hstore := act_store_of_ne (fun sec he => ho ⟨sec, he⟩) f t.world
          exact hstore ▸ ht
      · exact ht
    · change DistinctNames GroupRecord.name w₀.store.data.groups
      rw [hempty]
      exact distinctNames_empty
  have hnames : ((desiredGroups config s.world.store.mapping).map Prod.fst).Nodup := by
    rw [names_desiredGroups]
    exact hdistinct.nodup
  have hkeys := nodup_keysOf hnames
  rw [← names_groupsOf_eq] at hkeys
  refine ⟨hdistinct, hnames, PolicyEditor.names_groupsOf _ ▸ hkeys, fun e he => ?_⟩
  rw [groups_withGroupMembership he]
  exact hkeys

/-! ## Users -/

/-- The call stores no user under a name that another user has. -/
def NameFree (w : World) : Op → Bool
  | .locked (.setUser id record) =>
    w.store.mapping.users.all fun (id', r) => r.name ≠ record.name || id' = id
  | _ => true

theorem nameFree_iff {w : World} {id : ScimId} {record : UserRecord} :
    NameFree w (.locked (.setUser id record)) = true ↔
      OnlyAt UserRecord.name w.store.data.users record.name id := by
  rw [NameFree, List.all_eq_true]
  constructor
  · intro h id' r hid' hname
    have := h (id', r) (Std.ExtTreeMap.mem_toList_iff_getElem?_eq_some.2 hid')
    simpa [hname] using this
  · rintro h ⟨id', r⟩ hmem
    have hid' := Std.ExtTreeMap.mem_toList_iff_getElem?_eq_some.1 hmem
    by_cases hname : r.name = record.name
    · simp [h id' r hid' hname]
    · simp [hname]

/-- Storing a user under a name that another user has makes the names repeat. -/
theorem not_distinct_of_taken {w : World} {id : ScimId} {record : UserRecord}
    (h : NameFree w (.locked (.setUser id record)) = false) (os : Os) :
    ¬DistinctNames UserRecord.name
      ((Section.setUser id record).body.exec os w.store).2.data.users := by
  obtain ⟨files, hex⟩ := Section.exec_setUser os w.store id record
  rw [hex]
  intro hdistinct
  have hfree : OnlyAt UserRecord.name w.store.data.users record.name id :=
    hdistinct.onlyAt_of_insert
  rw [nameFree_iff.2 hfree] at h
  cases h

/-- Every section that stores no user under a taken name keeps the names of the users distinct. -/
theorem distinct_users_exec {w : World} (os : Os) (sec : Section)
    (hfree : NameFree w (.locked sec) = true)
    (h : DistinctNames UserRecord.name w.store.data.users) :
    DistinctNames UserRecord.name (sec.body.exec os w.store).2.data.users := by
  cases sec with
  -- the put's handler does not look the new name up: freedom of the name is the hypothesis
  | setUser id record =>
    obtain ⟨files, hex⟩ := Section.exec_setUser os w.store id record
    rw [hex]
    exact h.insert (nameFree_iff.1 hfree)
  | upsertUser record =>
    obtain ⟨files, hex⟩ := Section.exec_upsertUser os w.store record
    rw [hex]
    exact h.insert (Section.userTarget_free os w.store.mapping record.name h)
  | removeUserAndFromGroups id =>
    obtain ⟨files, hex⟩ := Section.exec_removeUserAndFromGroups os w.store id
    rw [hex]
    cases os.flushError w.store.path with
    | none => exact h.erase id
    | some e => exact h
  | upsertGroup name body =>
    obtain ⟨record, _, hdata⟩ := Section.data_upsertGroup os w.store name body
    rw [hdata]
    exact h
  | replaceGroup id name body =>
    rcases Section.data_replaceGroup os w.store id name body with hdata | ⟨record, _, _, hdata⟩
    · rwa [hdata]
    · rwa [hdata]
  | removeGroup id =>
    rcases Section.data_removeGroup os w.store id with hdata | hdata
    · rwa [hdata]
    · rwa [hdata]
  | listUsers | getUser _ | readUser _ | isInAnyGroup _ | listGroups | getGroup _
  | describeGroup _ _ | desiredGroups _ =>
    rw [Section.exec_of_readOnly os w.store rfl]
    exact h

/-- The names of the users stay distinct whatever requests run at the same time, as long as every
    `put_user` stores its record while no other user has the name. -/
theorem userNames_distinct {config : ScimConfig} {requests : List Request} {w₀ : World}
    (hempty : w₀.store.data = {}) {events : List (Event Fate Headscale)}
    {s : Pool sig ScimError Response World}
    (hexec : unsteady.exec (concurrently config requests w₀) events = some s)
    (hfree : ∀ e ∈ s.history, NameFree e.before e.op = true) :
    DistinctNames UserRecord.name s.world.store.data.users := by
  refine Machine.exec_induction (P := fun t : Pool sig ScimError Response World =>
    DistinctNames UserRecord.name t.world.store.data.users) ?_ ?_
    (Machine.exec_restrict hexec hfree)
  · intro t e t' ht hstep
    rcases Machine.step_cases hstep with ⟨i, f, o, k, _, _, hready, rfl⟩ | ⟨g, _, rfl⟩
    · by_cases ho : ∃ sec, o = .locked sec
      · obtain ⟨sec, rfl⟩ := ho
        have hready' : (ready t.world (.locked sec) &&
            NameFree t.world (.locked sec)) = true := hready
        exact distinct_users_exec f.os sec (Bool.and_eq_true_iff.1 hready').2 ht
      · have hstore := act_store_of_ne (fun sec he => ho ⟨sec, he⟩) f t.world
        exact hstore ▸ ht
    · exact ht
  · change DistinctNames UserRecord.name w₀.store.data.users
    rw [hempty]
    exact distinctNames_empty

/-- A mapping without users and groups. -/
def emptyWorld : World where
  store := { mapping := { path := ⟨"", "mapping", some "json"⟩ } }

/-- The next call of a request, which draws a UUID. -/
abbrev drawing (uuid : String) (i : ℕ) : Event Fate Headscale := .act i { os := { uuid } }

/-- Two groups are created at the same time. -/
theorem groupNames_distinct_racing :
    let requests : List Request :=
      [.createGroup { displayName := some "eng" }, .createGroup { displayName := some "eng" }]
    ∃ s, unsteady.exec (concurrently {} requests emptyWorld) [drawing "g1" 0, drawing "g2" 1] = some s ∧
      DistinctNames GroupRecord.name s.world.store.data.groups := by
  intro requests
  have hrun : (unsteady.exec (concurrently {} requests emptyWorld)
      [drawing "g1" 0, drawing "g2" 1]).isSome = true := by decide +kernel
  obtain ⟨s, hs⟩ := Option.isSome_iff_exists.1 hrun
  exact ⟨s, hs, (groupNames_distinct rfl hs).1⟩

/-- Bob is renamed while no other user has his new name. -/
theorem userNames_distinct_renamed :
    let requests : List Request := [.createUser { userName := some "alice" },
      .createUser { userName := some "bob" },
      .putUser "u2" { userName := some "robert", active := some true }]
    ∃ s, unsteady.exec (concurrently {} requests emptyWorld)
        [drawing "u1" 0, drawing "u2" 1, next 2, next 2] = some s ∧
      DistinctNames UserRecord.name s.world.store.data.users := by
  intro requests
  have hrun : (unsteady.exec (concurrently {} requests emptyWorld)
      [drawing "u1" 0, drawing "u2" 1, next 2, next 2]).any
        (fun s => s.history.all fun e => NameFree e.before e.op) = true := by decide +kernel
  obtain ⟨s, hs, hfree⟩ := Option.any_eq_true _ _ |>.1 hrun
  exact ⟨s, hs, userNames_distinct rfl hs (List.all_eq_true.1 hfree)⟩

/-- Bob is renamed to Alice. -/
theorem not_userNames_distinct_put :
    let requests : List Request := [.createUser { userName := some "alice" },
      .createUser { userName := some "bob" },
      .putUser "u2" { userName := some "alice", active := some true }]
    ∃ s, unsteady.exec (concurrently {} requests emptyWorld)
        [drawing "u1" 0, drawing "u2" 1, next 2, next 2] = some s ∧
      ¬DistinctNames UserRecord.name s.world.store.data.users := by
  intro requests
  have hrun : (unsteady.exec (concurrently {} requests emptyWorld)
      [drawing "u1" 0, drawing "u2" 1, next 2, next 2]).any (fun s =>
        s.world.store.data.users[(⟨"u1"⟩ : ScimId)]?.any (·.name = "alice") &&
        s.world.store.data.users[(⟨"u2"⟩ : ScimId)]?.any (·.name = "alice")) = true := by
    decide +kernel
  obtain ⟨s, hs, hboth⟩ := Option.any_eq_true _ _ |>.1 hrun
  refine ⟨s, hs, fun hdistinct => ?_⟩
  rw [Bool.and_eq_true, Option.any_eq_true, Option.any_eq_true] at hboth
  obtain ⟨⟨r₁, h₁, hname₁⟩, r₂, h₂, hname₂⟩ := hboth
  have hname : r₂.name = r₁.name := by
    rw [of_decide_eq_true hname₁, of_decide_eq_true hname₂]
  exact absurd (hdistinct _ r₁ h₁ _ r₂ h₂ hname) (by decide)

end Headmaster.Scim
