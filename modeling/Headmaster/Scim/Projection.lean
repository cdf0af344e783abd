import Headmaster.Scim.Names

/-!
# The groups are the projection of the mapping

What the groups of the policy are for: the group of a stored group holds, in the
order of its members, the tokens of the members who are known and active and
carry the identifier the policy is keyed by (`projection`). A reconcile that
succeeds leaves exactly these groups, whichever they were before, and whether or
not it wrote (`groups_projected`).

The live policy must not repeat its `groups`: only the first of them is
replaced (`not_projected_repeated`).
-/

namespace Headmaster.Scim

open Process
open Policy (PolicyText PolicyEditor PolicyMember groupEntries entriesOf)

/-- The token of a user in the policy: that of an active one who carries the identifier. -/
def token (key : PolicyUserKey) (user : UserRecord) : Option String :=
  if user.active then
    match key with
    | .email => user.email
    | .username => some (user.name ++ "@")
    | .externalId oidcIssuer => user.externalId.map fun id => oidcIssuer ++ "/" ++ id.value ++ "@"
  else none

/-- The tokens of the members who have one, in order. -/
def projection (key : PolicyUserKey) (getUser : ScimId → Option UserRecord) (members : List ScimId) :
    List String :=
  members.filterMap fun id => (getUser id).bind (token key)

variable {config : ScimConfig}

/-- Every token is that of a known, active member, and of nobody else. -/
theorem mem_projection {key : PolicyUserKey} {getUser : ScimId → Option UserRecord}
    {members : List ScimId} {t : String} : t ∈ projection key getUser members ↔
      ∃ id ∈ members, ∃ user, getUser id = some user ∧ token key user = some t := by
  simp only [projection, List.mem_filterMap, Option.bind_eq_some_iff]

theorem token_policyMember (user : UserRecord) :
    (policyMember config user).map (·.token) = token config.policyUserKey user := by
  rw [policyMember, token.eq_def, resolveKey]
  cases user.active
  · rfl
  · match config.policyUserKey with
    | .email => cases user.email <;> rfl
    | .username => rfl
    | .externalId oidcIssuer => cases user.externalId <;> rfl

/-- The entry asked for a group holds its projection. -/
theorem groupValue_members (mapping : Mapping) (members : List ScimId) :
    (PolicyEditor.groupValue (members.filterMap fun sid => do
      policyMember config (← mapping.getUser sid))).meaning =
    .array ((projection config.policyUserKey mapping.getUser members).map .string) := by
  have htokens : (members.filterMap fun sid => do
      policyMember config (← mapping.getUser sid)).map (·.token) =
        projection config.policyUserKey mapping.getUser members := by
    rw [List.map_filterMap, projection]
    refine List.filterMap_congr fun sid _ => ?_
    cases mapping.getUser sid with
    | none => rfl
    | some user => exact token_policyMember user
  rw [PolicyEditor.groupValue, Json.meaning_array, List.map_map, ← htokens, List.map_map]
  refine congrArg Val.array (List.map_congr_left fun m _ => ?_)
  rw [Function.comp_apply, Json.meaning, Function.comp_apply]

/-- Every group asked for is one of the mapping, with its projection. -/
theorem group_of_entriesOf {mapping : Mapping} {k : String} {v : Val}
    (hv : entriesOf (desiredGroups config mapping) k = some v) :
    ∃ id r, mapping.getGroup id = some r ∧ k = "group:" ++ r.name ∧
      v = .array ((projection config.policyUserKey mapping.getUser r.members).map .string) := by
  obtain ⟨j, hj, rfl⟩ := Option.map_eq_some_iff.1 hv
  obtain ⟨g, hg, heq⟩ := List.mem_map.1 (Props.mem_of_last hj)
  obtain ⟨⟨id, r⟩, hr, rfl⟩ := List.mem_map.1 hg
  obtain ⟨rfl, rfl⟩ := Prod.mk.inj heq
  exact ⟨id, r, Std.ExtTreeMap.mem_toList_iff_getElem?_eq_some.1 hr, rfl, groupValue_members _ _⟩

/-- The groups asked for are those of the mapping, each with its projection. -/
theorem entriesOf_desiredGroups {mapping : Mapping}
    (hdistinct : DistinctNames GroupRecord.name mapping.data.groups) :
    (∀ id r, mapping.getGroup id = some r →
      entriesOf (desiredGroups config mapping) ("group:" ++ r.name) =
        some (.array ((projection config.policyUserKey mapping.getUser r.members).map .string))) ∧
    ∀ k v, entriesOf (desiredGroups config mapping) k = some v →
      ∃ id r, mapping.getGroup id = some r ∧ k = "group:" ++ r.name := by
  have hkeys : ((PolicyEditor.groupProps (desiredGroups config mapping)).map Prod.fst).Nodup := by
    rw [← PolicyEditor.names_groupsOf, names_groupsOf_eq]
    exact nodup_keysOf (names_desiredGroups config mapping ▸ hdistinct.nodup)
  constructor
  · intro id r hr
    have hmem : ("group:" ++ r.name, PolicyEditor.groupValue (r.members.filterMap fun sid => do
        policyMember config (← mapping.getUser sid))) ∈
        PolicyEditor.groupProps (desiredGroups config mapping) :=
      List.mem_map.2 ⟨_, List.mem_map.2
        ⟨(id, r), Std.ExtTreeMap.mem_toList_iff_getElem?_eq_some.2 hr, rfl⟩, rfl⟩
    rw [entriesOf, Props.last_of_mem hkeys hmem, Option.map_some, groupValue_members]
  · intro k v hv
    obtain ⟨id, r, hr, hk, _⟩ := group_of_entriesOf hv
    exact ⟨id, r, hr, hk⟩

/-- A reconcile that succeeds leaves, for each group of the mapping and nothing else, a group in the
    policy that holds its projection. -/
theorem groups_projected {w w' : World}
    (hdistinct : DistinctNames GroupRecord.name w.store.data.groups) (hOnce : w.OneGroups)
    (hok : machine.Reaches (reconcileGroupsPolicy config) w (.ok ()) w') :
    ∃ get, groupEntries w'.livePolicy = some get ∧
      (∀ id r, w.store.mapping.getGroup id = some r → get ("group:" ++ r.name) = some (.array
        ((projection config.policyUserKey w.store.mapping.getUser r.members).map .string))) ∧
      ∀ k v, get k = some v → ∃ id r, w.store.mapping.getGroup id = some r ∧ k = "group:" ++ r.name := by
  have hsync : groupEntries w'.livePolicy =
      some (entriesOf (desiredGroups config w.store.mapping)) := by
    refine hok.of_wp (Q := fun r w' => r = .ok () → groupEntries w'.livePolicy =
      some (entriesOf (desiredGroups config w.store.mapping))) ?_ rfl
    exact wp_reconcileGroupsPolicy (fun policy h _ => (h hOnce).2) fun _ _ _ he => nomatch he
  exact ⟨_, hsync, entriesOf_desiredGroups hdistinct⟩

/-- The mapping of one user and one group, and a live policy. -/
def engWorld (policy : Option PolicyText) : World where
  store := { mapping := {
    path := ⟨"", "mapping", some "json"⟩
    data := {
      users := Std.ExtTreeMap.empty.insert ⟨"u1"⟩ ⟨true, "alice", none, some "alice@example.com", none, 0⟩
      groups := Std.ExtTreeMap.empty.insert ⟨"g1"⟩ ⟨"eng", [⟨"u1"⟩, ⟨"u2"⟩], none, 0⟩ } } }
  headscale := { policy }

/-- A group with an unknown member, where no policy was ever set. -/
theorem groups_projected_eng :
    ∃ w' get, machine.Reaches (reconcileGroupsPolicy {}) (engWorld none) (.ok ()) w' ∧
      groupEntries w'.livePolicy = some get ∧
      get "group:eng" = some (.array [.string "alice@example.com"]) := by
  have hok : (machine.run (reconcileGroupsPolicy {}) [] (engWorld none)).1.isOk = true := by
    decide +kernel
  have hreaches := Machine.Reaches.of_isOk hok
  have hdistinct : DistinctNames GroupRecord.name (engWorld none).store.data.groups :=
    distinctNames_empty.insert fun k v h => by
      rw [Std.ExtTreeMap.getElem?_empty] at h
      cases h
  obtain ⟨get, hget, hgroups, _⟩ := groups_projected hdistinct trivial hreaches
  exact ⟨_, get, hreaches, hget, hgroups ⟨"g1"⟩ _ Std.ExtTreeMap.getElem?_insert_self⟩

/-- Of a repeated `groups` only the first is removed: the second stays, with a group that the empty
    mapping does not have. -/
theorem not_projected_repeated :
    let live : PolicyText := .document (.object [("groups", .object []),
      ("groups", .object [("group:old", .array [.string "bob@"])])])
    let w : World := { emptyWorld with headscale := { policy := some live } }
    ∃ w', machine.Reaches (reconcileGroupsPolicy {}) w (.ok ()) w' ∧
      ¬∃ get, groupEntries w'.livePolicy = some get ∧
        ∀ k v, get k = some v → ∃ id r, w.store.mapping.getGroup id = some r ∧ k = "group:" ++ r.name := by
  intro live w
  have hok : (machine.run (reconcileGroupsPolicy {}) [] w).1.isOk = true := by decide +kernel
  have hreaches := Machine.Reaches.of_isOk hok
  refine ⟨_, hreaches, ?_⟩
  rintro ⟨get, hget, hgroups⟩
  have hunwritten : (groupsWrite (desiredGroups {} w.store.mapping) w.livePolicy).isNone = true := by
    decide +kernel
  rw [(of_reconciled hreaches).2, Option.isNone_iff_eq_none.1 hunwritten, Option.getD_none] at hget
  obtain rfl := Option.some.inj hget
  obtain ⟨id, r, hr, _⟩ := hgroups "group:old" _ rfl
  rw [Mapping.getGroup] at hr
  cases hr

end Headmaster.Scim
