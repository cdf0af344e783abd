import Headmaster.Policy.Exact
import Headmaster.Scim.Rules

/-!
# What replacing the groups leaves

`set_group_membership` (`src/scim/src/policy.rs`) replaces the groups of the
live policy and takes the grant members away that name another group. The two
halves of the policy it computes are characterised first
(`groups_withGroupMembership`, `rest_withGroupMembership`).

For a policy whose objects do not repeat a name this is exact
(`setGroupMembership_exact`): the groups are those given, a grant loses its
stale members and nothing else (`cleaned`), it goes exactly when that takes all
the members of a side, everything else is there as before, in order
(`Replaced`), and doing it again writes nothing.
-/

namespace Headmaster.Scim

open Process
open Policy (PolicyText PolicyEditor PolicyMember Grant isStale propsOf)
open Props (last others alter Once)

variable {groups : List (String × List PolicyMember)} {e e' : PolicyEditor}

/-! ## The halves of the policy computed -/

theorem isObject_withGroupMembership : (withGroupMembership e groups).IsObject :=
  PolicyEditor.isObject_filterMapGrants _ (PolicyEditor.isObject_setGroups groups)

theorem oneGroups_withGroupMembership (h : e.OneGroups) :
    (withGroupMembership e groups).OneGroups :=
  PolicyEditor.oneGroups_filterMapGrants _ (PolicyEditor.once_setGroups e groups h)

theorem groups_withGroupMembership (h : e.OneGroups) :
    (withGroupMembership e groups).groups = PolicyEditor.groupsOf groups := by
  rw [withGroupMembership, PolicyEditor.groups_filterMapGrants, PolicyEditor.groups_setGroups _ h]

theorem rest_withGroupMembership (h : e.OneGroups) : (withGroupMembership e groups).rest =
    e.rest.filterMapGrants (Grant.prune ((propsOf (PolicyEditor.groupsOf groups)).map Prod.fst)) := by
  rw [withGroupMembership, PolicyEditor.rest_filterMapGrants, PolicyEditor.rest_setGroups,
    PolicyEditor.knownGroups_eq, PolicyEditor.groups_setGroups _ h]

/-- The edit changes a policy in nothing once it has the groups and no stale grant. -/
theorem alike_withGroupMembership (h : e.OneGroups)
    (hgroups : e.groups.map Json.meaning = (PolicyEditor.groupsOf groups).map Json.meaning)
    (hsettled : e.Settled ((propsOf (PolicyEditor.groupsOf groups)).map Prod.fst)) :
    e.Alike (withGroupMembership e groups) := by
  rw [PolicyEditor.alike_iff h (oneGroups_withGroupMembership h), groups_withGroupMembership h,
    rest_withGroupMembership h, PolicyEditor.filterMapGrants_prune_of_settled]
  · exact ⟨hgroups, .refl _⟩
  · rwa [PolicyEditor.Settled, PolicyEditor.grantElements_rest]

theorem groupsWrite_eq_none (he : e.IsObject) (h : e.Alike (withGroupMembership e groups)) :
    groupsWrite groups e.toText = none := by
  rw [groupsWrite, he.parse_toText]
  exact if_pos ((PolicyEditor.semanticallyEqual_iff he isObject_withGroupMembership).2 h)

/-- What a reconcile leaves of a policy that is an object. -/
theorem exists_reconciled (groups : List (String × List PolicyMember)) (he : e.IsObject)
    (hone : e.OneGroups) : ∃ e' : PolicyEditor,
    (groupsWrite groups e.toText).getD e.toText = e'.toText ∧ e'.IsObject ∧ e'.OneGroups ∧
      e'.Alike (withGroupMembership e groups) ∧ (e' = withGroupMembership e groups ∨ e' = e) := by
  rw [groupsWrite, he.parse_toText]
  dsimp only
  split
  · rename_i h
    have halike := (PolicyEditor.semanticallyEqual_iff he isObject_withGroupMembership).1 h
    exact ⟨e, rfl, he, hone, halike, .inr rfl⟩
  · exact ⟨_, rfl, isObject_withGroupMembership, oneGroups_withGroupMembership hone, .refl _, .inl rfl⟩

/-- A reconcile of a reconciled policy changes nothing. -/
theorem reconciled_again (h : e.OneGroups) : (withGroupMembership e groups).Alike
    (withGroupMembership (withGroupMembership e groups) groups) := by
  refine alike_withGroupMembership (oneGroups_withGroupMembership h)
    (congrArg _ (groups_withGroupMembership h)) ?_
  rw [PolicyEditor.Settled, ← PolicyEditor.grantElements_rest, rest_withGroupMembership h]
  exact PolicyEditor.settled_filterMapGrants_prune

/-! ## What a call leaves -/

section Call

variable {config : ScimConfig} {w w' : World}

/-- A call that succeeds makes its write. -/
theorem of_setGroupMembership (h : machine.Reaches (setGroupMembership groups) w (.ok ()) w') :
    w'.store = w.store ∧ w'.livePolicy = (groupsWrite groups w.livePolicy).getD w.livePolicy := by
  refine h.of_wp (Q := fun r w' => r = .ok () → w'.store = w.store ∧
    w'.livePolicy = (groupsWrite groups w.livePolicy).getD w.livePolicy) ?_ rfl
  refine Prog.wp_of_within (A := fun _ => True) ?_
  refine wp_setGroupMembership_write trivial trivial trivial (fun _ _ => trivial) ?_
    (fun _ he => nomatch he) fun _ _ _ he => nomatch he
  exact fun _ _ _ => ⟨rfl, Option.getD_or⟩

/-- A reconcile that succeeds makes its write. -/
theorem of_reconciled (h : machine.Reaches (reconcileGroupsPolicy config) w (.ok ()) w') :
    w'.store = w.store ∧ w'.livePolicy =
      (groupsWrite (desiredGroups config w.store.mapping) w.livePolicy).getD w.livePolicy := by
  refine h.of_wp (Q := fun r w' => r = .ok () → w'.store = w.store ∧ w'.livePolicy =
    (groupsWrite (desiredGroups config w.store.mapping) w.livePolicy).getD w.livePolicy) ?_ rfl
  refine Prog.wp_of_within (A := fun _ => True) ?_
  refine Prog.wp_bind.2 ((wp_desiredGroups_within trivial).2 ?_)
  refine wp_setGroupMembership_write trivial trivial trivial (fun _ _ => trivial) ?_
    (fun _ he => nomatch he) fun _ _ _ he => nomatch he
  exact fun _ _ _ => ⟨rfl, Option.getD_or⟩

/-- The call is not `SetPolicy`. -/
def Op.notSetPolicy : Op → Prop
  | .setPolicy _ => False
  | _ => True

/-- Where there is nothing to write, a call writes nothing, whichever calls fail. -/
theorem notSetPolicy_of_groupsWrite (h : groupsWrite groups w.livePolicy = none) :
    (setGroupMembership groups).wp (anyFate.within Op.notSetPolicy) (fun _ _ => True) w := by
  refine wp_setGroupMembership_write trivial trivial trivial ?_ (fun _ _ => trivial)
    (fun _ => trivial) fun _ _ _ => trivial
  intro policy hpolicy
  rw [h] at hpolicy
  cases hpolicy

end Call

/-! ## Exactly -/

/-- The names of some groups, as they stand under `groups`. -/
def keysOf (groups : List (String × List PolicyMember)) : List String :=
  groups.map fun (name, _) => "group:" ++ name

/-- A `groups` section is there exactly if there are groups, and holds just them. -/
def Holds (groups : List (String × List PolicyMember)) (v : Option Json) : Prop :=
  (groups = [] ∧ v = none) ∨
    (groups ≠ [] ∧ ∃ ps, v = some (.object ps) ∧ ps.Perm (PolicyEditor.groupProps groups))

/-- The groups of a policy are replaced: it has those given in its one `groups` section, its grants
    have lost their stale members, and everything else is as before, in order. -/
structure Replaced (groups : List (String × List PolicyMember)) (before after : List (String × Json)) :
    Prop where
  once : Once "groups" after
  holds : Holds groups (after.lookup "groups")
  rest : others "groups" after = (others "groups" before).map fun (k, v) =>
    (k, if k = "grants" then Policy.keptGrants (keysOf groups) v else v)

theorem names_groupsOf_eq :
    (propsOf (PolicyEditor.groupsOf groups)).map Prod.fst = keysOf groups := by
  rw [PolicyEditor.names_groupsOf, PolicyEditor.groupProps, List.map_map]
  rfl

theorem nodup_keysOf (h : (groups.map Prod.fst).Nodup) : (keysOf groups).Nodup := by
  have hkeys : keysOf groups = (groups.map Prod.fst).map ("group:" ++ ·) := by
    rw [keysOf, List.map_map]
    rfl
  rw [hkeys]
  exact h.map fun a b hab => by simpa using hab

theorem eq_string_of_meaning {j : Json} {s : String} (h : j.meaning = .string s) :
    j = .string s := by
  cases j <;> simp [Json.meaning] at h
  rw [h]

theorem eq_strings_of_meanings {es : List Json} {ss : List String}
    (h : es.map Json.meaning = ss.map .string) : es = ss.map .string := by
  induction es generalizing ss with
  | nil => rw [List.map_eq_nil_iff.1 h.symm, List.map_nil]
  | cons e es ih =>
    match ss, h with
    | s :: ss, h =>
      rw [List.map_cons, List.map_cons, List.cons.injEq] at h
      rw [List.map_cons, eq_string_of_meaning h.1, ih h.2]

/-- Only the entry itself means what the entry of a group means. -/
theorem eq_groupValue {v : Json} {members : List PolicyMember}
    (h : v.meaning = (PolicyEditor.groupValue members).meaning) :
    v = PolicyEditor.groupValue members := by
  rw [PolicyEditor.groupValue, Json.meaning_array, List.map_map] at h
  match v, h with
  | .array es, h =>
    rw [Json.meaning_array, Val.array.injEq] at h
    have hes : es = (members.map (·.token)).map .string := by
      refine eq_strings_of_meanings (h.trans ?_)
      rw [List.map_map]
      refine List.map_congr_left fun m _ => ?_
      rw [Function.comp_apply, Json.meaning, Function.comp_apply]
    rw [hes, PolicyEditor.groupValue, List.map_map]
    rfl
  | .null, h | .bool _, h | .number _, h | .string _, h | .object _, h => simp [Json.meaning] at h

/-- Properties that do not repeat a name hold the groups they mean. -/
theorem holds_of_meaning (hnames : (groups.map Prod.fst).Nodup) {v : Option Json}
    (hdistinct : ∀ j, v = some j → j.Distinct)
    (h : v.map Json.meaning = (PolicyEditor.groupsOf groups).map Json.meaning) : Holds groups v := by
  match groups, v, h with
  | [], none, _ => exact .inl ⟨rfl, rfl⟩
  | g :: gs, some (.object ps), h =>
    refine .inr ⟨nofun, ps, rfl, ?_⟩
    have hps : (ps.map Prod.fst).Nodup := by
      cases hdistinct _ rfl with
      | object hn _ => exact hn
    have hkeys : ((PolicyEditor.groupProps (g :: gs)).map Prod.fst).Nodup := by
      have := nodup_keysOf hnames
      rwa [← names_groupsOf_eq, PolicyEditor.names_groupsOf] at this
    have hlast := Json.meaning_object_inj.1 (Option.some.inj h)
    -- both lists have distinct names, so equal membership makes them permutations
    refine (List.perm_ext_iff_of_nodup (.of_map _ hps) (.of_map _ hkeys)).2 fun p => ?_
    obtain ⟨k, v⟩ := p
    constructor
    · intro hp
      have hk := hlast k
      rw [Props.last_of_mem hps hp] at hk
      obtain ⟨v', hv', hmeaning⟩ := Option.map_eq_some_iff.1 hk.symm
      have hmem := Props.mem_of_last hv'
      obtain ⟨⟨name, members⟩, _, heq⟩ := List.mem_map.1 hmem
      obtain ⟨rfl, rfl⟩ := Prod.mk.inj heq
      rwa [eq_groupValue hmeaning.symm]
    · intro hp
      have hk := hlast k
      rw [Props.last_of_mem hkeys hp] at hk
      obtain ⟨v', hv', hmeaning⟩ := Option.map_eq_some_iff.1 hk
      obtain ⟨⟨name, members⟩, _, heq⟩ := List.mem_map.1 hp
      obtain ⟨rfl, rfl⟩ := Prod.mk.inj heq
      rw [← eq_groupValue hmeaning]
      exact Props.mem_of_last hv'
  | [], some _, h => cases h
  | _ :: _, none, h => cases h
  | _ :: _, some .null, h | _ :: _, some (.bool _), h | _ :: _, some (.number _), h
  | _ :: _, some (.string _), h | _ :: _, some (.array _), h =>
    simp [PolicyEditor.groupsOf, Json.meaning] at h

/-- `setGroupMembership` is exact: from a live policy whose objects do not repeat a name, a call
    that succeeds leaves one with the groups replaced, and a second call with the same groups does
    not call `SetPolicy`. -/
theorem setGroupMembership_exact {w w' : World} {ps : List (String × Json)}
    (hnames : (groups.map Prod.fst).Nodup)
    (hlive : PolicyEditor.parse w.livePolicy = .ok (.value (.object ps)))
    (hdistinct : (Json.object ps).Distinct)
    (hok : machine.Reaches (setGroupMembership groups) w (.ok ()) w') :
    (∃ qs, PolicyEditor.parse w'.livePolicy = .ok (.value (.object qs)) ∧ Replaced groups ps qs) ∧
    (setGroupMembership groups).wp (anyFate.within Op.notSetPolicy) (fun _ _ => True) w' := by
  let e : PolicyEditor := .value (.object ps)
  have hOnce : e.OneGroups := hdistinct.once _
  have htidy : e.rest.TidyGrants :=
    PolicyEditor.tidyGrants_rest.2 (PolicyEditor.tidyGrants_of_distinct hdistinct)
  have hrest : (withGroupMembership e groups).rest = _ := rest_withGroupMembership hOnce
  rw [names_groupsOf_eq] at hrest
  have hmap : (e.rest.filterMapGrants (Grant.prune (keysOf groups))).objectValueOrSet =
      (others "groups" ps).map fun p =>
        (p.1, if p.1 = "grants" then Policy.keptGrants (keysOf groups) p.2 else p.2) :=
    PolicyEditor.filterMapGrants_prune_eq_map htidy
  have hwrites : groupsWrite groups w.livePolicy =
      if Policy.policiesAreSemanticallyEqual e.toText (withGroupMembership e groups).toText then none
      else some (withGroupMembership e groups).toText := by
    rw [groupsWrite, hlive]
  obtain ⟨_, hlive'⟩ := of_setGroupMembership hok
  by_cases hequal : Policy.policiesAreSemanticallyEqual e.toText
      (withGroupMembership e groups).toText = true
  · -- nothing is written: the policy means the same as the one computed
    rw [if_pos hequal] at hwrites
    rw [hwrites, Option.getD_none] at hlive'
    have halike := (PolicyEditor.semanticallyEqual_iff ⟨ps, rfl⟩ isObject_withGroupMembership).1 hequal
    have hgroups := halike.groups hOnce (oneGroups_withGroupMembership hOnce)
    have hsame := halike.rest hOnce (oneGroups_withGroupMembership hOnce)
    rw [hrest] at hsame
    rw [PolicyEditor.filterMapGrants_prune_of_alike htidy hsame] at hmap
    refine ⟨⟨ps, hlive' ▸ hlive, hOnce, ?_, hmap⟩, notSetPolicy_of_groupsWrite (hlive' ▸ hwrites)⟩
    rw [groups_withGroupMembership hOnce] at hgroups
    exact holds_of_meaning hnames (fun j hj => hdistinct.of_lookup hj) hgroups
  · rw [if_neg hequal] at hwrites
    rw [hwrites, Option.getD_some] at hlive'
    refine ⟨⟨(withGroupMembership e groups).objectValueOrSet, ?_,
      oneGroups_withGroupMembership hOnce, ?_, ?_⟩, ?_⟩
    · rw [hlive', isObject_withGroupMembership.parse_toText]
      exact congrArg _ isObject_withGroupMembership.eq
    · have hgroups : (withGroupMembership e groups).groups = _ := groups_withGroupMembership hOnce
      rw [PolicyEditor.groups] at hgroups
      rw [hgroups]
      cases groups with
      | nil => exact .inl ⟨rfl, rfl⟩
      | cons => exact .inr ⟨List.cons_ne_nil _ _, _, rfl, .refl _⟩
    · refine Eq.trans ?_ hmap
      rw [← hrest, PolicyEditor.objectValueOrSet_rest]
    · refine notSetPolicy_of_groupsWrite ?_
      rw [hlive']
      exact groupsWrite_eq_none isObject_withGroupMembership (reconciled_again hOnce)

/-- A grant loses a group that is gone. -/
theorem setGroupMembership_exact_eng :
    let groups : List (String × List PolicyMember) := [("eng", [⟨"alice@example.com", none⟩])]
    let grant : Grant := [("src", .array [.string "group:old", .string "bob@"]),
      ("dst", .array [.string "*"])]
    let w : World := {
      store := { mapping := { path := ⟨"", "mapping", some "json"⟩ } }
      headscale := { policy := some (.document (.object [("grants", .array [.object grant])])) } }
    ∃ w' qs, machine.Reaches (setGroupMembership groups) w (.ok ()) w' ∧
      PolicyEditor.parse w'.livePolicy = .ok (.value (.object qs)) ∧
      Replaced groups [("grants", .array [.object grant])] qs := by
  intro groups grant w
  have hgrant : (Json.object grant).Distinct := by
    refine .object (by decide) fun p hp => ?_
    rcases List.mem_pair.1 hp with rfl | rfl
    · refine .array fun e he => ?_
      rcases List.mem_pair.1 he with rfl | rfl <;> exact .string _
    · exact .array fun e he => List.mem_singleton.1 he ▸ .string _
  have hdistinct : (Json.object [("grants", .array [.object grant])]).Distinct := by
    refine .object (by decide) fun p hp => ?_
    rw [List.mem_singleton.1 hp]
    exact .array fun e he => List.mem_singleton.1 he ▸ hgrant
  have hok : (machine.run (setGroupMembership groups) [] w).1.isOk = true := by decide +kernel
  have hreaches := Machine.Reaches.of_isOk hok
  obtain ⟨⟨qs, hparse, hreplaced⟩, _⟩ :=
    setGroupMembership_exact (by decide) rfl hdistinct hreaches
  exact ⟨_, qs, hreaches, hparse, hreplaced⟩

end Headmaster.Scim
