import Headmaster.Scim.Protocol

/-!
# Lost updates

Requests that run at the same time, every call to headscale served, while
nothing else writes the policy (`reliable`). A request takes a snapshot of the
groups under the mapping lock and writes it under the policy lock, so the
snapshot written last need not be the one taken last.

* `PolicyInv` relates the live policy to the holder of the policy lock, and
  `MappingInv` the mapping to the last snapshot; every call keeps both
  (`tracked_act`).
* `inSync_iff_fresh`: once all requests have returned `Ok`, the groups are in
  sync exactly when the last request to take the policy lock wrote the groups of
  the last snapshot.
-/

namespace Headmaster.Scim

open Process
open Policy (PolicyText PolicyEditor PolicyMember groupEntries entriesOf)

/-- The server, with every call to headscale served. -/
def reliable : Machine sig World Os Accounts where
  act os := act { os }
  ready := ready
  env := machine.env

variable {config : ScimConfig} {p : Phase}

/-! ## The live policy and the holder of the policy lock -/

namespace Phase

/-- The request is in its critical section. -/
def Holds : Phase → Prop
  | .holding _ | .fetched _ _ | .applied _ => True
  | _ => False

/-- What the phase of request `i` says, when the live policy is `policy`, the
    policy lock was last taken by `holder`, and `snapshot` are the groups each
    request has seen. -/
def Matches (policy : PolicyText) (locked : Bool) (holder : Option ℕ)
    (snapshot : ℕ → Option Groups) (i : ℕ) : Phase → Prop
  | .idle | .touched _ | .dirty => holder ≠ some i
  | .snapped groups => holder ≠ some i ∧ snapshot i = some groups
  | .holding groups => locked = true ∧ holder = some i ∧ snapshot i = some groups
  | .fetched groups current => locked = true ∧ holder = some i ∧ snapshot i = some groups ∧
      PolicyEditor.parse policy = .ok current
  | .applied groups => locked = true ∧ holder = some i ∧ snapshot i = some groups ∧
      groupEntries policy = some (entriesOf groups)
  | .done => True
  | .failed => False

variable {policy policy' : PolicyText} {locked locked' : Bool} {holder holder' : Option ℕ}
  {snapshot snapshot' : ℕ → Option Groups} {i : ℕ}

theorem Matches.holder_of_holds (h : p.Matches policy locked holder snapshot i) (hp : p.Holds) :
    locked = true ∧ holder = some i := by
  match p, hp with
  | .holding _, _ | .fetched _ _, _ | .applied _, _ => exact ⟨h.1, h.2.1⟩

/-- Outside its critical section a request does not look at the live policy. -/
theorem Matches.of_not_holds (h : p.Matches policy locked holder snapshot i) (hp : ¬p.Holds)
    (hholder : holder' = some i → holder = some i) (hsnapshot : snapshot' i = snapshot i) :
    p.Matches policy' locked' holder' snapshot' i := by
  match p with
  | .idle | .touched _ | .dirty => exact fun hi => h (hholder hi)
  | .snapped _ => exact ⟨fun hi => h.1 (hholder hi), hsnapshot.trans h.2⟩
  | .holding _ | .fetched _ _ | .applied _ => exact absurd trivial hp
  | .done => trivial

/-- In its critical section a request knows its own snapshot only. -/
theorem Matches.of_snapshot (h : p.Matches policy locked holder snapshot i)
    (hsnapshot : snapshot' i = snapshot i) : p.Matches policy locked holder snapshot' i := by
  match p with
  | .idle | .touched _ | .dirty | .done => exact h
  | .snapped _ => exact ⟨h.1, hsnapshot.trans h.2⟩
  | .holding _ => exact ⟨h.1, h.2.1, hsnapshot.trans h.2.2⟩
  | .fetched _ _ | .applied _ => exact ⟨h.1, h.2.1, hsnapshot.trans h.2.2.1, h.2.2.2⟩

end Phase

/-- The entries that were written last: those of the snapshot of the last holder
    of the policy lock, or those at the start when nobody held it. -/
def written (start : Option (String → Option Val)) (holder : Option ℕ)
    (snapshot : ℕ → Option Groups) : Option (String → Option Val) :=
  match holder with
  | some i => (snapshot i).map entriesOf
  | none => start

/-- The live policy is what the phases say, and when no request is in its critical
    section it has the entries that were written last. -/
structure PolicyInv (start : Option (String → Option Val)) (policy : PolicyText) (locked : Bool)
    (holder : Option ℕ) (snapshot : ℕ → Option Groups) (ph : ℕ → Phase) : Prop where
  once : policy.Once "groups"
  phases : ∀ i, (ph i).Matches policy locked holder snapshot i
  free : (∀ i, ¬(ph i).Holds) → groupEntries policy = written start holder snapshot

namespace PolicyInv

variable {start : Option (String → Option Val)} {policy : PolicyText} {locked : Bool}
  {holder : Option ℕ} {snapshot : ℕ → Option Groups} {ph : ℕ → Phase} {i : ℕ} {groups : Groups}
  {current : PolicyEditor} {p' : Phase}

/-- Only the last holder can be in its critical section. -/
theorem not_holds_of_ne (h : PolicyInv start policy locked holder snapshot ph)
    (hi : (ph i).Holds) {j : ℕ} (hj : j ≠ i) : ¬(ph j).Holds := fun hj' =>
  hj (Option.some.inj (((h.phases j).holder_of_holds hj').2.symm.trans
    ((h.phases i).holder_of_holds hi).2))

/-- A request that neither was nor is in its critical section moves on. -/
theorem move (h : PolicyInv start policy locked holder snapshot ph) (hi : ¬(ph i).Holds)
    (hp' : p'.Matches policy locked holder snapshot i) :
    PolicyInv start policy locked holder snapshot (Function.update ph i p') where
  once := h.once
  phases := (Function.forall_update_iff ph _).2 ⟨hp', fun j _ => h.phases j⟩
  free hfree := h.free fun j => by
    rcases eq_or_ne j i with rfl | hj
    · exact hi
    · simpa [Function.update_of_ne hj] using hfree j

/-- A snapshot is taken. -/
theorem snap (h : PolicyInv start policy locked holder snapshot ph) (hi : holder ≠ some i)
    (hnot : ¬(ph i).Holds) : PolicyInv start policy locked holder
      (Function.update snapshot i (some groups)) (Function.update ph i (.snapped groups)) where
  once := h.once
  phases := (Function.forall_update_iff ph _).2 ⟨⟨hi, Function.update_self ..⟩, fun j hj =>
    (h.phases j).of_snapshot (Function.update_of_ne hj ..)⟩
  free hfree := by
    have hall : ∀ j, ¬(ph j).Holds := fun j => by
      rcases eq_or_ne j i with rfl | hj
      · exact hnot
      · simpa [Function.update_of_ne hj] using hfree j
    rw [h.free hall]
    cases holder with
    | none => rfl
    | some k =>
      have hk : k ≠ i := fun e => hi (congrArg some e)
      rw [written, written, Function.update_of_ne hk]

/-- The policy lock is taken, when it is free. -/
theorem lock (h : PolicyInv start policy false holder snapshot ph)
    (hi : ph i = .snapped groups) : PolicyInv start policy true (some i) snapshot
      (Function.update ph i (.holding groups)) where
  once := h.once
  phases := by
    refine (Function.forall_update_iff ph _).2 ⟨⟨rfl, rfl, ?_⟩, fun j hj => ?_⟩
    · have := h.phases i
      rw [hi] at this
      exact this.2
    · refine (h.phases j).of_not_holds (fun hj' => ?_) (fun e => absurd (Option.some.inj e).symm hj) rfl
      exact Bool.false_ne_true ((h.phases j).holder_of_holds hj').1
  free hfree := absurd trivial (by simpa [Phase.Holds] using hfree i)

/-- The holder moves on in its critical section, and may write the policy. -/
theorem critical (h : PolicyInv start policy locked holder snapshot ph) (hi : (ph i).Holds)
    {policy' : PolicyText} (honce : policy'.Once "groups") (hp : p'.Holds)
    (hp' : p'.Matches policy' locked holder snapshot i) :
    PolicyInv start policy' locked holder snapshot (Function.update ph i p') where
  once := honce
  phases := (Function.forall_update_iff ph _).2 ⟨hp', fun j hj =>
    (h.phases j).of_not_holds (h.not_holds_of_ne hi hj) id rfl⟩
  free hfree := absurd hp (by simpa using hfree i)

/-- The policy is read. -/
theorem fetch (h : PolicyInv start policy locked holder snapshot ph)
    (hi : ph i = .holding groups) (hparse : PolicyEditor.parse policy = .ok current) :
    PolicyInv start policy locked holder snapshot
      (Function.update ph i (.fetched groups current)) := by
  obtain ⟨hlocked, hholder, hsnap⟩ : (Phase.holding groups).Matches .. := hi ▸ h.phases i
  exact h.critical (hi ▸ trivial) h.once trivial ⟨hlocked, hholder, hsnap, hparse⟩

/-- The groups are written. -/
theorem set (h : PolicyInv start policy locked holder snapshot ph)
    (hi : ph i = .fetched groups current) :
    PolicyInv start (withGroupMembership current groups).toText locked holder snapshot
      (Function.update ph i (.applied groups)) := by
  obtain ⟨hlocked, hholder, hsnap, hparse⟩ : (Phase.fetched groups current).Matches .. :=
    hi ▸ h.phases i
  have honce := PolicyEditor.parse_once hparse h.once
  exact h.critical (hi ▸ trivial) (withGroupMembership_once groups honce) trivial
    ⟨hlocked, hholder, hsnap, withGroupMembership_groups groups honce⟩

/-- The policy lock is released, when the live policy has the groups. -/
theorem unlock (h : PolicyInv start policy locked holder snapshot ph) (hi : (ph i).Holds)
    (hsnap : snapshot i = some groups) (hgroups : groupEntries policy = some (entriesOf groups)) :
    PolicyInv start policy false holder snapshot (Function.update ph i .done) where
  once := h.once
  phases := (Function.forall_update_iff ph _).2 ⟨trivial, fun j hj =>
    (h.phases j).of_not_holds (h.not_holds_of_ne hi hj) id rfl⟩
  free _ := by
    rw [((h.phases i).holder_of_holds hi).2, written, hsnap, hgroups, Option.map_some]

end PolicyInv

/-! ## The mapping and the last snapshot -/

/-- Some request has yet to take a snapshot of what it changed, or the groups of
    the last snapshot are those of the mapping, but for the users whose record was
    stored and who may be in no group. -/
def MappingInv (config : ScimConfig) (wanted : Groups) (mapping : Mapping) (ph : ℕ → Phase) :
    Prop :=
  (∃ i, ph i = .dirty) ∨ ∃ getUser : ScimId → Option UserRecord,
    (∀ id, (∀ i, ph i ≠ .touched id) → getUser id = mapping.getUser id) ∧
    groupTokensWith config getUser mapping.groups = wanted

namespace MappingInv

variable {wanted : Groups} {mapping : Mapping} {ph : ℕ → Phase} {i : ℕ} {p' : Phase} {id : ScimId}

theorem still_dirty (hi : ph i ≠ .dirty) (h : ∃ j, ph j = .dirty) :
    ∃ j, Function.update ph i p' j = .dirty := by
  obtain ⟨j, hj⟩ := h
  refine ⟨j, ?_⟩
  rw [Function.update_of_ne (show j ≠ i from fun e => hi (e ▸ hj)), hj]

/-- A request with nothing to snapshot moves on. -/
theorem move (h : MappingInv config wanted mapping ph) (hdirty : ph i ≠ .dirty)
    (htouched : ∀ id, ph i ≠ .touched id) :
    MappingInv config wanted mapping (Function.update ph i p') := by
  refine h.imp (still_dirty hdirty) fun ⟨getUser, hget, heq⟩ => ⟨getUser, fun id hid => ?_, heq⟩
  refine hget id fun j => ?_
  rcases eq_or_ne j i with rfl | hj
  · exact htouched id
  · simpa [Function.update_of_ne hj] using hid j

theorem change (mapping : Mapping) : MappingInv config wanted mapping (Function.update ph i .dirty) :=
  .inl ⟨i, Function.update_self ..⟩

/-- A record is stored. -/
theorem store (h : MappingInv config wanted mapping ph) (hi : ph i = .idle) (record : UserRecord) :
    MappingInv config wanted
      { mapping with data.users := mapping.data.users.insert id record }
      (Function.update ph i (.touched id)) := by
  refine h.imp (still_dirty (by simp [hi])) fun ⟨getUser, hget, heq⟩ =>
    ⟨getUser, fun id' hid' => ?_, heq⟩
  have hne : id ≠ id' := by
    rintro rfl
    exact hid' i (Function.update_self ..)
  rw [hget id' fun j => ?_]
  · simp only [Mapping.getUser]
    rw [Std.ExtTreeMap.getElem?_insert, if_neg fun e => hne (Std.LawfulEqOrd.eq_of_compare e)]
  · rcases eq_or_ne j i with rfl | hj
    · simp [hi]
    · simpa [Function.update_of_ne hj] using hid' j

/-- The user whose record was stored turns out to be in no group. -/
theorem look (h : MappingInv config wanted mapping ph) (hi : ph i = .touched id)
    (hnone : (mapping.groups.any fun (_, g) => g.members.contains id) = false) :
    MappingInv config wanted mapping (Function.update ph i .idle) := by
  refine h.imp (still_dirty (by simp [hi])) fun ⟨getUser, hget, heq⟩ =>
    ⟨Function.update getUser id (mapping.getUser id), fun id' hid' => ?_, ?_⟩
  · rcases eq_or_ne id' id with rfl | hne
    · exact Function.update_self ..
    · rw [Function.update_of_ne hne]
      refine hget id' fun j => ?_
      rcases eq_or_ne j i with rfl | hj
      · rw [hi]
        exact fun e => hne (Phase.touched.inj e).symm
      · simpa [Function.update_of_ne hj] using hid' j
  · rw [← heq]
    refine groupTokensWith_congr fun g hg sid hsid => Function.update_of_ne ?_ ..
    rintro rfl
    simp only [List.any_eq_false, List.contains_iff_mem] at hnone
    exact hnone g hg hsid

/-- A snapshot is taken. -/
theorem snap (mapping : Mapping) (ph : ℕ → Phase) :
    MappingInv config (desiredGroups config mapping) mapping ph :=
  .inr ⟨mapping.getUser, fun _ _ => rfl, rfl⟩

end MappingInv

/-! ## Executions -/

def Op.takesLock : Op → Bool
  | .lockPolicy => true
  | _ => false

def Op.takesSnapshot : Op → Bool
  | .locked (.desiredGroups _) => true
  | _ => false

variable (config) in
/-- The groups the mapping asked for when a call was made. -/
def groupsBefore (e : Entry sig World) : Groups := desiredGroups config e.before.store.mapping

/-- The request that took the policy lock last. -/
def lastHolder (h : History) : Option ℕ := (h.find? fun e => Op.takesLock e.op).map (·.thread)

variable (config) in
/-- The groups of the last snapshot. -/
def lastSnapshot (h : History) : Option Groups :=
  (h.find? fun e => Op.takesSnapshot e.op).map (groupsBefore config)

variable (config) in
/-- The groups of the last snapshot of a request. -/
def snapshotOf (h : History) (i : ℕ) : Option Groups :=
  (h.find? fun e => e.thread = i && Op.takesSnapshot e.op).map (groupsBefore config)

section History

variable {h : History} {e : Entry sig World}

theorem lastHolder_cons_of_not (he : Op.takesLock e.op = false) :
    lastHolder (e :: h) = lastHolder h := by
  rw [lastHolder, List.find?_cons_of_neg (by simp [he]), lastHolder]

theorem lastSnapshot_cons_of_not (he : Op.takesSnapshot e.op = false) :
    lastSnapshot config (e :: h) = lastSnapshot config h := by
  rw [lastSnapshot, List.find?_cons_of_neg (by simp [he]), lastSnapshot]

theorem snapshotOf_cons_of_not (he : Op.takesSnapshot e.op = false) :
    snapshotOf config (e :: h) = snapshotOf config h := by
  funext i
  rw [snapshotOf, List.find?_cons_of_neg (by simp [he]), snapshotOf]

theorem snapshotOf_snapshot (i : ℕ) (he : Op.takesSnapshot e.op = true) (hi : e.thread = i) :
    snapshotOf config (e :: h) =
      Function.update (snapshotOf config h) i (some (groupsBefore config e)) := by
  funext j
  rcases eq_or_ne j i with rfl | hj
  · rw [Function.update_self, snapshotOf, List.find?_cons_of_pos (by simp [he, hi])]
    rfl
  · rw [Function.update_of_ne hj, snapshotOf,
      List.find?_cons_of_neg (by simp [hi, Ne.symm hj]), snapshotOf]

end History

variable (config) in
/-- The entries written last in an execution from `w₀`. -/
def writtenEntries (w₀ : World) (h : History) : Option (String → Option Val) :=
  written (groupEntries w₀.livePolicy) (lastHolder h) (snapshotOf config h)

variable (config) in
/-- The groups of the last snapshot of an execution from `w₀`, those of the mapping
    of `w₀` when there was none. -/
def wantedGroups (w₀ : World) (h : History) : Groups :=
  (lastSnapshot config h).getD (desiredGroups config w₀.store.mapping)

theorem wantedGroups_cons_of_not {w₀ : World} {h : History} {e : Entry sig World}
    (he : Op.takesSnapshot e.op = false) :
    wantedGroups config w₀ (e :: h) = wantedGroups config w₀ h := by
  rw [wantedGroups, lastSnapshot_cons_of_not he, wantedGroups]

/-- What holds throughout an execution, unless a request is going to fail. -/
def Tracked (config : ScimConfig) (w₀ : World) (w : World) (h : History) (ph : ℕ → Phase) : Prop :=
  (∃ i, ph i = .failed) ∨
    PolicyInv (groupEntries w₀.livePolicy) w.livePolicy w.policyLocked (lastHolder h)
      (snapshotOf config h) ph ∧
    MappingInv config (wantedGroups config w₀ h) w.store.mapping ph

/-! ### One call -/

/-- What a section that is allowed is, and where it moves the request. -/
inductive Phase.Allows (config : ScimConfig) : Phase → Section → Prop
  | failed (s : Section) : Allows config .failed s
  | snapshot {p : Phase} (h : p = .idle ∨ p = .dirty) : Allows config p (.desiredGroups config)
  | look (id : ScimId) : Allows config (.touched id) (.isInAnyGroup id)
  | store (id : ScimId) (record : UserRecord) : Allows config .idle (.setUser id record)
  | change {s : Section} (hsnap : Op.takesSnapshot (.locked s) = false)
      (hafter : ∀ a, Phase.idle.after (.locked s) (.ok a) = .dirty) : Allows config .idle s
  | read {p : Phase} {s : Section} (hp : p = .idle ∨ p = .done) (hs : s.readOnly = true)
      (hsnap : Op.takesSnapshot (.locked s) = false)
      (hafter : ∀ a, p.after (.locked s) (.ok a) = p) : Allows config p s

theorem Phase.allows_locked {s : Section} (h : p.allows config (.locked s)) : p.Allows config s := by
  cases p with
  | failed => exact .failed s
  | idle =>
    cases s with
    | desiredGroups c => exact h ▸ .snapshot (.inl rfl)
    | isInAnyGroup _ => exact h.elim
    | setUser id record => exact .store id record
    | upsertUser _ | removeUserAndFromGroups _ | upsertGroup _ _ | replaceGroup _ _ _
    | removeGroup _ => exact .change rfl fun _ => rfl
    | listUsers | getUser _ | readUser _ | listGroups | getGroup _ | describeGroup _ _ =>
      exact .read (.inl rfl) rfl rfl fun _ => rfl
  | touched id =>
    cases s with
    | isInAnyGroup id' =>
      obtain rfl : id' = id := h
      exact .look id'
    | _ => exact h.elim
  | dirty =>
    cases s with
    | desiredGroups c => exact h ▸ .snapshot (.inr rfl)
    | _ => exact h.elim
  | done =>
    cases s with
    | describeGroup _ _ => exact .read (.inr rfl) rfl rfl fun _ => rfl
    | _ => exact h.elim
  | _ => exact h.elim

variable {w₀ w : World} {h : History} {ph : ℕ → Phase} {i : ℕ}

/-- What is left to show after a call that is no snapshot. -/
theorem Tracked.intro {w' : World} {e : Entry sig World} {holder : Option ℕ}
    (hsnap : Op.takesSnapshot e.op = false) (hholder : lastHolder (e :: h) = holder)
    (hpol : PolicyInv (groupEntries w₀.livePolicy) w'.livePolicy w'.policyLocked holder
      (snapshotOf config h) ph)
    (hmap : MappingInv config (wantedGroups config w₀ h) w'.store.mapping ph) :
    Tracked config w₀ w' (e :: h) ph := by
  refine .inr ⟨?_, ?_⟩
  · rw [hholder, snapshotOf_cons_of_not hsnap]
    exact hpol
  · rw [wantedGroups_cons_of_not hsnap]
    exact hmap

theorem Tracked.of_failed {ph : ℕ → Phase} : Tracked config w₀ w h (Function.update ph i .failed) :=
  .inl ⟨i, Function.update_self ..⟩

theorem tracked_locked {s : Section} {os : Os}
    (hpol : PolicyInv (groupEntries w₀.livePolicy) w.livePolicy w.policyLocked (lastHolder h)
      (snapshotOf config h) ph)
    (hmap : MappingInv config (wantedGroups config w₀ h) w.store.mapping ph)
    (hallow : (ph i).Allows config s) :
    Tracked config w₀ (w.withStore (s.body.exec os w.store).2)
      (⟨i, Op.locked s, (s.body.exec os w.store).1, w⟩ :: h)
      (Function.update ph i ((ph i).after (.locked s) (s.body.exec os w.store).1)) := by
  cases hr : (s.body.exec os w.store).1 with
  -- an error ends the handler: the run is no longer one whose requests all succeed
  | error e =>
    have hfail : (ph i).after (.locked s) (.error e) = .failed := by
      cases ph i <;> rfl
    rw [hfail]
    exact .of_failed
  | ok a =>
    have hidle := hpol.phases i
    generalize hp : ph i = p at hallow hidle ⊢
    cases hallow with
    | failed => exact hidle.elim
    -- the snapshot fixes what the reconcile will write; what later handlers change stays out of it
    | snapshot hp' =>
      obtain rfl : desiredGroups config w.store.mapping = a := Except.ok.inj hr
      have hnot : ¬(ph i).Holds ∧ lastHolder h ≠ some i := by
        rcases hp' with rfl | rfl <;> exact ⟨hp ▸ not_false, hidle⟩
      have hafter : p.after (.locked (.desiredGroups config))
          (.ok (desiredGroups config w.store.mapping)) =
            .snapped (desiredGroups config w.store.mapping) := by
        rcases hp' with rfl | rfl <;> rfl
      rw [hafter]
      refine .inr ⟨?_, MappingInv.snap ..⟩
      rw [lastHolder_cons_of_not rfl, snapshotOf_snapshot i rfl rfl]
      exact hpol.snap hnot.2 hnot.1
    | look id =>
      have hb : w.store.mapping.groups.any (fun (_, g) => g.members.contains id) = a :=
        Except.ok.inj hr
      -- a member of some group leads to a reconcile, anyone else is left out of every policy
      match a with
      | true => exact .intro rfl rfl (hpol.move (hp ▸ not_false) hidle) (.change _)
      | false => exact .intro rfl rfl (hpol.move (hp ▸ not_false) hidle) (hmap.look hp hb)
    | store id record =>
      obtain ⟨files, hex⟩ := Section.exec_setUser os w.store id record
      rw [hex]
      exact .intro rfl rfl (hpol.move (hp ▸ not_false) hidle) (hmap.store hp _)
    | change hsnap hafter =>
      rw [hafter]
      exact .intro hsnap rfl (hpol.move (hp ▸ not_false) hidle) (.change _)
    -- a section that only reads moves nobody
    | read hp' hs hsnap hafter =>
      rw [hafter, Section.exec_of_readOnly os w.store hs, ← hp, Function.update_eq_self]
      exact .intro hsnap rfl hpol hmap

/-- A call on the accounts leaves the policy, its lock and the mapping. -/
theorem act_onAccounts {o : Op} (ho : o.OnAccounts) (f : Fate) (w : World) :
    (act f o w).2.headscale.policy = w.headscale.policy ∧
      (act f o w).2.policyLocked = w.policyLocked ∧ (act f o w).2.store = w.store := by
  obtain ⟨os, outcome⟩ := f
  have served : ∀ {α : Type} {w : World} {r : Except Status α × Headscale},
      r.2.policy = w.headscale.policy →
      (w.serve ⟨os, outcome⟩ r).2.headscale.policy = w.headscale.policy ∧
        (w.serve ⟨os, outcome⟩ r).2.policyLocked = w.policyLocked ∧
        (w.serve ⟨os, outcome⟩ r).2.store = w.store := by
    intro α w r hr
    match outcome with
    | .served | .failed _ true => exact ⟨hr, rfl, rfl⟩
    | .failed _ false => exact ⟨rfl, rfl, rfl⟩
  match o, ho with
  | .listNodes, _ => exact served rfl
  | .listUsers, _ => exact served rfl
  | .expireNode id, _ =>
    exact served (w := w.sending _) (congrArg Headscale.policy (expireNode_headscale w.headscale id))
  | .deleteUser id, _ =>
    obtain ⟨users, husers⟩ := deleteUser_headscale w.headscale id
    refine served (w := w.sending _) ?_
    rw [husers]
    rfl

/-- What the live policy is read as. -/
theorem parse_livePolicy {current : PolicyEditor}
    (hread : Phase.policyRead w.headscale.getPolicy.1 = some current) :
    PolicyEditor.parse w.livePolicy = .ok current := by
  have parsed : ∀ policy, (PolicyEditor.parse policy).toOption = some current →
      PolicyEditor.parse policy = .ok current := by
    intro policy hpolicy
    cases hparse : PolicyEditor.parse policy with
    | ok c =>
      rw [hparse] at hpolicy
      exact congrArg _ (Option.some.inj hpolicy)
    | error e =>
      rw [hparse] at hpolicy
      cases hpolicy
  rw [World.livePolicy]
  rw [Headscale.getPolicy] at hread
  cases hp : w.headscale.policy with
  | some policy =>
    rw [hp] at hread
    exact parsed policy hread
  | none =>
    -- no policy yet: the server's NotFound message is read as the empty policy
    rw [hp] at hread
    have hnotFound : Status.policyNotFound
        ⟨.unknown, "loading ACL from database: acl policy not found"⟩ = true := by decide
    rw [Phase.policyRead, if_pos hnotFound] at hread
    exact parsed _ hread

theorem tracked_onAccounts {o : Op} {os : Os} (ho : o.OnAccounts)
    (hpol : PolicyInv (groupEntries w₀.livePolicy) w.livePolicy w.policyLocked (lastHolder h)
      (snapshotOf config h) ph)
    (hmap : MappingInv config (wantedGroups config w₀ h) w.store.mapping ph)
    (hafter : ∀ r, (ph i).after o r = ph i) :
    Tracked config w₀ (act { os } o w).2 (⟨i, o, (act { os } o w).1, w⟩ :: h)
      (Function.update ph i ((ph i).after o (act { os } o w).1)) := by
  obtain ⟨hpolicy, hlocked, hstore⟩ := act_onAccounts ho { os } w
  have hlive : (act { os } o w).2.livePolicy = w.livePolicy := congrArg (·.getD (.blank "")) hpolicy
  have hkind : Op.takesLock o = false ∧ Op.takesSnapshot o = false := by
    match o, ho with
    | .listNodes, _ | .expireNode _, _ | .listUsers, _ | .deleteUser _, _ => exact ⟨rfl, rfl⟩
  rw [hafter, Function.update_eq_self]
  refine .intro hkind.2 (lastHolder_cons_of_not hkind.1) ?_ ?_
  · rw [hlive, hlocked]
    exact hpol
  · rw [hstore]
    exact hmap

/-- A call that the protocol allows keeps what holds throughout an execution. -/
theorem tracked_act {o : Op} {os : Os} (ht : Tracked config w₀ w h ph)
    (hallow : (ph i).allows config o) (hready : ready w o = true) :
    Tracked config w₀ (reliable.act os o w).2 (⟨i, o, (reliable.act os o w).1, w⟩ :: h)
      (Function.update ph i ((ph i).after o (reliable.act os o w).1)) := by
  -- once one handler has failed nothing is tracked any more
  rcases ht with ⟨j, hj⟩ | ⟨hpol, hmap⟩
  · left
    rcases eq_or_ne j i with rfl | hji
    · exact ⟨j, by rw [Function.update_self, hj]; rfl⟩
    · exact ⟨j, by rw [Function.update_of_ne hji, hj]⟩
  have hmatch := hpol.phases i
  cases o with
  | locked s => exact tracked_locked hpol hmap (Phase.allows_locked hallow)
  | lockPolicy =>
    generalize hp : ph i = p at hallow hmatch ⊢
    cases p with
    | failed => exact hmatch.elim
    | snapped groups =>
      have hfree : w.policyLocked = false := by simpa [ready] using hready
      rw [hfree] at hpol
      exact .intro rfl rfl (hpol.lock hp) (hmap.move (by simp [hp]) (by simp [hp]))
    | idle | touched _ | dirty | holding _ | fetched _ _ | applied _ | done => exact hallow.elim
  | unlockPolicy =>
    generalize hp : ph i = p at hallow hmatch ⊢
    cases p with
    | failed => exact hmatch.elim
    -- the policy in force already says what the snapshot wants, so nothing is written
    | fetched groups current =>
      obtain ⟨_, _, hsnap, hparse⟩ := hmatch
      exact .intro rfl rfl
        (hpol.unlock (hp ▸ trivial) hsnap (groups_of_unchanged hparse hpol.once hallow))
        (hmap.move (by simp [hp]) (by simp [hp]))
    | applied groups =>
      obtain ⟨_, _, hsnap, hgroups⟩ := hmatch
      exact .intro rfl rfl (hpol.unlock (hp ▸ trivial) hsnap hgroups)
        (hmap.move (by simp [hp]) (by simp [hp]))
    | idle | touched _ | dirty | snapped _ | holding _ | done => exact hallow.elim
  | getPolicy =>
    generalize hp : ph i = p at hallow hmatch ⊢
    cases p with
    | failed => exact hmatch.elim
    | holding groups =>
      have hafter : (Phase.holding groups).after .getPolicy (reliable.act os .getPolicy w).1 =
          Phase.afterGet w.headscale.getPolicy.1 (.holding groups) := rfl
      have hsame : (reliable.act os .getPolicy w).2 = w :=
        congrArg (fun headscale => { w with headscale }) (congrArg Prod.snd (getPolicy_eq w.headscale))
      rw [hafter, hsame, Phase.afterGet_holding]
      cases hread : Phase.policyRead w.headscale.getPolicy.1 with
      | none => exact .of_failed
      | some current =>
        exact .intro rfl rfl (hpol.fetch hp (parse_livePolicy hread))
          (hmap.move (by simp [hp]) (by simp [hp]))
    | idle | touched _ | dirty | snapped _ | fetched _ _ | applied _ | done => exact hallow.elim
  | setPolicy policy =>
    generalize hp : ph i = p at hallow hmatch ⊢
    cases p with
    | failed => exact hmatch.elim
    | fetched groups current =>
      obtain rfl : policy = (withGroupMembership current groups).toText := hallow
      exact .intro rfl rfl (hpol.set hp) (hmap.move (by simp [hp]) (by simp [hp]))
    | idle | touched _ | dirty | snapped _ | holding _ | applied _ | done => exact hallow.elim
  -- the calls about accounts touch neither the mapping nor the policy
  | listNodes | expireNode _ | listUsers | deleteUser _ =>
    refine tracked_onAccounts trivial hpol hmap fun r => ?_
    generalize ph i = p at hallow hmatch ⊢
    cases p with
    | failed | idle => rfl
    | touched _ | dirty | snapped _ | holding _ | fetched _ _ | applied _ | done => exact hallow.elim

/-! ### All calls -/

/-- All requests have returned `Ok`. -/
def AllOk (s : Pool sig ScimError Response World) : Prop :=
  ∀ p ∈ s.threads, p.returnedOk = true

variable (config) in
/-- The last request to take the policy lock wrote the groups of the last
    snapshot. -/
def Fresh (w₀ : World) (h : History) : Prop :=
  writtenEntries config w₀ h = some (entriesOf (wantedGroups config w₀ h))

/-- Once all requests have returned `Ok`, the groups of the live policy are those
    the mapping asks for exactly when the last request to take the policy lock
    wrote the groups of the last snapshot. -/
theorem inSync_iff_fresh {requests : List Request} {w₀ : World} (hOnce : w₀.OneGroups)
    {events : List (Event Os Accounts)} {s : Pool sig ScimError Response World}
    (hexec : reliable.exec (concurrently config requests w₀) events = some s) (hok : AllOk s) :
    InSync config s.world ↔ Fresh config w₀ s.history := by
  have hstart : Machine.Follows (protocol config) (fun _ => Settled)
      (concurrently config requests w₀).threads fun _ => .idle := by
    intro i p hp
    obtain ⟨r, _, rfl⟩ := List.mem_map.1 (List.mem_of_getElem? hp)
    exact handle_follows config r
  obtain ⟨ph, hfollows, htracked, hout⟩ := Machine.exec_phases (protocol config) (fun _ => Settled)
    (Tracked config w₀) (fun w h ph i o os ht hallow hready => ⟨_, rfl, tracked_act ht hallow hready⟩)
    (fun w h ph a ht => ht) hstart
    (.inr ⟨⟨hOnce, fun _ => nofun, fun _ => rfl⟩, MappingInv.snap _ _⟩) hexec
  -- every request returned 200, so no thread is left in the middle of a reconcile
  have hend : ∀ i, ph i = .idle ∨ ph i = .done := by
    intro i
    rcases lt_or_ge i s.threads.length with hi | hi
    · obtain ⟨a, ha⟩ := Prog.returnedOk_iff.1 (hok _ (List.getElem_mem hi))
      exact hfollows.of_result ((List.getElem?_eq_getElem hi).trans (congrArg some ha)) a rfl
    · exact .inl (hout i (by rwa [← Machine.exec_length hexec]))
  have hnot : ∀ {i p}, ph i = p → p = .idle ∨ p = .done := fun {i p} hp => hp ▸ hend i
  rcases htracked with ⟨i, hi⟩ | ⟨hpol, hmap⟩
  · simpa using hnot hi
  have hwanted : desiredGroups config s.world.store.mapping = wantedGroups config w₀ s.history := by
    rcases hmap with ⟨i, hi⟩ | ⟨getUser, hget, heq⟩
    · simpa using hnot hi
    · obtain rfl : getUser = s.world.store.mapping.getUser :=
        funext fun id => hget id fun i hi => by simpa using hnot hi
      exact heq
  have hwritten : groupEntries s.world.livePolicy = writtenEntries config w₀ s.history :=
    hpol.free fun i hi => by
      rcases hend i with h | h <;> rw [h] at hi <;> exact hi
  rw [InSync, Fresh, hwanted, hwritten]

/-- No group is there yet. -/
abbrev noGroups : World := { store := { mapping := { path := ⟨"", "m", none⟩ } } }

/-- The next call of a request, when the next identifier drawn is `uuid`. -/
abbrev call (i : ℕ) (uuid : String) : Event Os Accounts := .act i { uuid }

/-- Two groups are created one after the other. -/
theorem inSync_iff_fresh_sequential : ∃ s,
    reliable.exec (concurrently {} [.createGroup { displayName := some "a" },
      .createGroup { displayName := some "b" }] noGroups)
      (List.replicate 7 (call 0 "g0") ++ List.replicate 7 (call 1 "g1")) = some s ∧
    (InSync {} s.world ↔ Fresh {} noGroups s.history) := by
  have hrun : (reliable.exec (concurrently {} [.createGroup { displayName := some "a" },
      .createGroup { displayName := some "b" }] noGroups)
      (List.replicate 7 (call 0 "g0") ++ List.replicate 7 (call 1 "g1"))).any
        (fun s => s.threads.all (·.returnedOk)) = true := by decide +kernel
  obtain ⟨s, hs, hok⟩ := Option.any_eq_true _ _ |>.1 hrun
  have hOnce : noGroups.OneGroups := trivial
  exact ⟨s, hs, inSync_iff_fresh hOnce hs (List.all_eq_true.1 hok)⟩

/-- Two groups are created at the same time: the snapshot without the second is
    taken first and written last. -/
theorem lostUpdate_of_stale_snapshot : ∃ s,
    reliable.exec (concurrently {} [.createGroup { displayName := some "a" },
      .createGroup { displayName := some "b" }] noGroups)
      (List.replicate 2 (call 0 "g0") ++ List.replicate 7 (call 1 "g1") ++
        List.replicate 5 (call 0 "g0")) = some s ∧
    AllOk s ∧ ¬InSync {} s.world := by
  have hrun : (reliable.exec (concurrently {} [.createGroup { displayName := some "a" },
      .createGroup { displayName := some "b" }] noGroups)
      (List.replicate 2 (call 0 "g0") ++ List.replicate 7 (call 1 "g1") ++
        List.replicate 5 (call 0 "g0"))).any
        (fun s => s.threads.all (·.returnedOk) &&
          ((groupEntries s.world.livePolicy).bind (· "group:b")).isNone &&
          (entriesOf (desiredGroups {} s.world.store.mapping) "group:b").isSome) = true := by
    decide +kernel
  obtain ⟨s, hs, hcheck⟩ := Option.any_eq_true _ _ |>.1 hrun
  simp only [Bool.and_eq_true, Option.isNone_iff_eq_none] at hcheck
  obtain ⟨⟨hok, hnone⟩, hsome⟩ := hcheck
  refine ⟨s, hs, List.all_eq_true.1 hok, fun hsync => ?_⟩
  rw [hsync, Option.bind_some] at hnone
  rw [hnone] at hsome
  cases hsome

end Headmaster.Scim
