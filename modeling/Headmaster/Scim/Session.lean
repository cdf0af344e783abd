import Headmaster.Process.Pool
import Headmaster.Scim.Rules

/-!
# Sessions

What the sections under the mapping lock leave in the store, and requests
handled one after the other (`Turn`), while the accounts of headscale change in
between and any call may fail, or at the same time (`concurrently`).
-/

namespace Headmaster.Scim

open Process
open Policy (PolicyText PolicyMember)

variable {config : ScimConfig}

/-! ## Sections -/

/-- The store with the record of a user put in memory, and some files. -/
def Store.putUser (s : Store) (id : ScimId) (record : UserRecord) (files : Files) : Store :=
  { s.withData { s.data with users := s.data.users.insert id record } with files }

theorem Store.getUser_putUser (s : Store) (id : ScimId) (record : UserRecord) (files : Files) :
    (s.putUser id record files).mapping.getUser id = some record :=
  Std.ExtTreeMap.getElem?_insert_self

namespace Section

/-- The section only reads the mapping. -/
def readOnly : Section → Bool
  | listUsers | getUser _ | readUser _ | isInAnyGroup _ | listGroups | getGroup _
  | describeGroup _ _ | desiredGroups _ => true
  | _ => false

variable (os : Os) (s : Store)

theorem exec_lookupUser (id : ScimId) : (lookupUser id).exec os s =
    (match s.data.users[id]? with | some r => .ok r | none => .error (userNotFound id), s) := by
  simp only [lookupUser, StoreM.exec_bind, StoreM.exec_get, Mapping.getUser]
  cases s.data.users[id]? <;> rfl

theorem exec_lookupGroup (id : GroupScimId) : (lookupGroup id).exec os s =
    (match s.data.groups[id]? with | some r => .ok r | none => .error (groupNotFound id), s) := by
  simp only [lookupGroup, StoreM.exec_bind, StoreM.exec_get, Mapping.getGroup]
  cases s.data.groups[id]? <;> rfl

theorem exec_readUser (id : ScimId) : (readUser id).body.exec os s =
    (match s.data.users[id]? with | some r => .ok r | none => .error (userNotFound id), s) :=
  exec_lookupUser os s id

theorem exec_of_readOnly {sec : Section} (h : sec.readOnly = true) :
    (sec.body.exec os s).2 = s := by
  cases sec with
  | getUser id =>
    refine (congrArg Prod.snd (StoreM.exec_bind (lookupUser id) _ os s)).trans ?_
    rw [exec_lookupUser]
    cases s.data.users[id]? <;> rfl
  | readUser id => rw [exec_readUser]
  | getGroup id =>
    refine (congrArg Prod.snd (StoreM.exec_bind (lookupGroup id) _ os s)).trans ?_
    rw [exec_lookupGroup]
    cases s.data.groups[id]? <;> rfl
  | listUsers | isInAnyGroup _ | listGroups | describeGroup _ _ | desiredGroups _ => rfl
  | _ => cases h

/-- The record that `setUser` stores. -/
def stamped (record : UserRecord) : UserRecord := { record with updatedAt := os.now }

/-- `setUser` stores the record in memory, whether or not it is written. -/
theorem exec_setUser (id : ScimId) (record : UserRecord) :
    ∃ files, (setUser id record).body.exec os s =
      (match os.flushError s.path with
        | none => .ok (stamped os record)
        | some e => .error (ScimError.fromIo e),
      s.putUser id (stamped os record) files) := by
  obtain ⟨files, hex, _⟩ := Mapping.setUser_writes os s id record
  refine ⟨files, (StoreM.exec_mapErr ScimError.fromIo (Mapping.setUser id record) os s).trans ?_⟩
  rw [hex]
  cases os.flushError s.path <;> rfl

/-- `upsertUser` stores the record in memory under the identifier it found or
    drew, whether or not it is written. -/
theorem exec_upsertUser (record : UserRecord) :
    ∃ files, (upsertUser record).body.exec os s =
      (match os.flushError s.path with
        | none => .ok (userRecordToScim (userTarget s.mapping os record.name).1 (stamped os record),
          (userTarget s.mapping os record.name).2)
        | some e => .error (ScimError.fromIo e),
      s.putUser (userTarget s.mapping os record.name).1 (stamped os record) files) := by
  obtain ⟨files, hex, _⟩ :=
    Mapping.setUser_writes os s (userTarget s.mapping os record.name).1 record
  refine ⟨files, (StoreM.exec_bind _ _ os s).trans ?_⟩
  rw [StoreM.exec_get]
  refine (StoreM.exec_bind _ _ os s).trans ?_
  rw [StoreM.exec_read]
  refine (StoreM.exec_bind _ _ os s).trans ?_
  rw [← userTarget, StoreM.exec_mapErr, hex]
  cases os.flushError s.path <;> rfl

/-- `removeUserAndFromGroups` leaves the mapping without the user, or as it was. -/
theorem exec_removeUserAndFromGroups (id : ScimId) :
    ∃ files, (removeUserAndFromGroups id).body.exec os s =
      match os.flushError s.path with
      | none => (.ok (), { s.withData (Mapping.withoutUser s.data id) with files })
      | some e => (.error (ScimError.fromIo e), { s with files }) := by
  obtain ⟨files, hex, _⟩ := Mapping.removeUserAndFromGroups_writes os s id
  refine ⟨files, (StoreM.exec_mapErr ScimError.fromIo (Mapping.removeUserAndFromGroups id) os
    s).trans ?_⟩
  rw [hex]
  cases os.flushError s.path <;> rfl

end Section

section Rules

variable {w : World}

theorem wp_readUser {id : ScimId} {Q : Except ScimError UserRecord → World → Prop}
    (hsome : ∀ record, w.store.mapping.getUser id = some record → Q (.ok record) w)
    (hnone : w.store.mapping.getUser id = none → Q (.error (userNotFound id)) w) :
    (Locked.readUser id).wp anyFate Q w := by
  refine wp_locked.2 fun os => ?_
  rw [Section.exec_readUser]
  cases hid : w.store.data.users[id]? with
  | some record => exact hsome record hid
  | none => exact hnone hid

/-- `removeUserAndFromGroups` leaves the mapping without the user when it returns
    `Ok`, and as it was otherwise. -/
theorem wp_removeUserAndFromGroups {id : ScimId} {Q : Except ScimError Unit → World → Prop}
    (hok : ∀ files, Q (.ok ()) (w.withStore
      { w.store.withData (Mapping.withoutUser w.store.data id) with files }))
    (herr : ∀ e files, Q (.error e) (w.withStore { w.store with files })) :
    (Locked.removeUserAndFromGroups id).wp anyFate Q w := by
  refine wp_locked.2 fun os => ?_
  obtain ⟨files, hex⟩ := Section.exec_removeUserAndFromGroups os w.store id
  rw [hex]
  cases os.flushError w.store.path with
  | none => exact hok files
  | some e => exact herr _ files

theorem wp_removeUserAndFromGroups_within {id : ScimId} {A : Op → Prop}
    {Q : Except ScimError Unit → World → Prop} (hA : A (.locked (.removeUserAndFromGroups id)))
    (hok : ∀ files, Q (.ok ()) (w.withStore
      { w.store.withData (Mapping.withoutUser w.store.data id) with files }))
    (herr : ∀ e files, Q (.error e) (w.withStore { w.store with files })) :
    (Locked.removeUserAndFromGroups id).wp (anyFate.within A) Q w :=
  Prog.wp_bind.2 (Prog.wp_op_within.2
    ⟨hA, Prog.wp_bind.1 (wp_removeUserAndFromGroups hok herr)⟩)

theorem wp_isInAnyGroup {id : ScimId} {Q : Except ScimError Bool → World → Prop} :
    (Locked.isInAnyGroup id).wp anyFate Q w ↔
      Q (.ok (w.store.mapping.groups.any fun (_, g) => g.members.contains id)) w :=
  wp_locked.trans ⟨fun h => h {}, fun h _ => h⟩

/-- `setUser` stores the record, at some time, in memory. -/
theorem wp_setUser {id : ScimId} {record : UserRecord} {Q : Except ScimError UserRecord → World → Prop}
    (h : ∀ r os files, Q r (w.withStore (w.store.putUser id (Section.stamped os record) files))) :
    (Locked.setUser id record).wp anyFate Q w := by
  refine wp_locked.2 fun os => ?_
  obtain ⟨files, hex⟩ := Section.exec_setUser os w.store id record
  rw [hex]
  exact h _ os files

/-- `upsertUser` stores the record, at some time, in memory. -/
theorem wp_upsertUser {record : UserRecord} {Q : Except ScimError (ScimUser × Bool) → World → Prop}
    (h : ∀ r os files, Q r (w.withStore (w.store.putUser
      (Section.userTarget w.store.mapping os record.name).1 (Section.stamped os record) files))) :
    (Locked.upsertUser record).wp anyFate Q w := by
  refine wp_locked.2 fun os => ?_
  obtain ⟨files, hex⟩ := Section.exec_upsertUser os w.store record
  rw [hex]
  exact h _ os files

end Rules

/-- The tokens of groups depend on the records of their members only. -/
theorem groupTokensWith_congr {getUser getUser' : ScimId → Option UserRecord}
    {groups : List (GroupScimId × GroupRecord)}
    (h : ∀ g ∈ groups, ∀ sid ∈ g.2.members, getUser sid = getUser' sid) :
    groupTokensWith config getUser groups = groupTokensWith config getUser' groups := by
  refine List.map_congr_left fun g hg => ?_
  refine congrArg _ (List.filterMap_congr fun sid hsid => ?_)
  rw [h g hg sid hsid]

/-- The groups the policy is to have do not depend on the record of a user who is
    in no group. -/
theorem desiredGroups_insert (config : ScimConfig) {mapping : Mapping} {id : ScimId}
    {record : UserRecord} (h : ∀ g ∈ mapping.groups, id ∉ g.2.members) :
    desiredGroups config
      { mapping with data.users := mapping.data.users.insert id record } =
      desiredGroups config mapping := by
  refine groupTokensWith_congr fun g hg sid hsid => ?_
  have hne : id ≠ sid := fun e => h g hg (e ▸ hsid)
  simp only [Mapping.getUser]
  rw [Std.ExtTreeMap.getElem?_insert, if_neg fun e => hne (Std.LawfulEqOrd.eq_of_compare e)]

/-! ## Turns -/

/-- A request as it is handled: what headscale's accounts are when it comes, and
    the fates of its calls. -/
structure Turn where
  request : Request
  accounts : Accounts
  fates : List Fate

namespace Turn

variable (config : ScimConfig)

/-- The answer to the request, and the world it leaves. -/
def run (t : Turn) (w : World) : Except ScimError Response × World :=
  machine.run (handle config t.request) t.fates (machine.env t.accounts w)

/-- What the request guarantees from the world it finds, its run guarantees. -/
theorem run_of_wp {t : Turn} {w : World} {Q : Except ScimError Response → World → Prop}
    (h : (handle config t.request).wp anyFate Q (machine.env t.accounts w)) :
    Q (t.run config w).1 (t.run config w).2 :=
  Machine.wp_iff_run.1 h t.fates

/-- What a process guarantees when it returns `Ok`, a request that answers with its
    value does. -/
theorem run_of_wp_ok {α : Type} {t : Turn} {w : World} {p : M α} {f : α → Response}
    (hp : handle config t.request = do return f (← p)) {P : World → Prop}
    (h : p.wp anyFate (fun r w' => ∀ a, r = .ok a → P w') (machine.env t.accounts w))
    {a : Response} (hok : (t.run config w).1 = .ok a) : P (t.run config w).2 := by
  refine t.run_of_wp config (Q := fun r w' => ∀ a, r = .ok a → P w') ?_ a hok
  rw [hp]
  refine Prog.wp_bind.2 (Prog.wp_mono ?_ h)
  rintro (e | b) w' h'
  · exact fun _ he => nomatch he
  · exact fun _ _ => h' b rfl

/-- What a process guarantees however it ends, a request that answers with its value
    does. -/
theorem run_of_wp_any {α : Type} {t : Turn} {w : World} {p : M α} {f : α → Response}
    (hp : handle config t.request = do return f (← p)) {P : World → Prop}
    (h : p.wp anyFate (fun _ w' => P w') (machine.env t.accounts w)) : P (t.run config w).2 := by
  refine t.run_of_wp config (Q := fun _ w' => P w') ?_
  rw [hp]
  refine Prog.wp_bind.2 (Prog.wp_mono ?_ h)
  rintro (e | b) w' h'
  · exact h'
  · exact h'

end Turn

/-- The world after requests handled one after the other. -/
def afterTurns (config : ScimConfig) (w : World) (turns : List Turn) : World :=
  turns.foldl (fun w t => (t.run config w).2) w

/-- The turn `t` is taken in the session, after the turns `before`. -/
def TakenAfter (turns before : List Turn) (t : Turn) : Prop := before ++ [t] <+: turns

theorem afterTurns_concat (config : ScimConfig) (w : World) (turns : List Turn) (t : Turn) :
    afterTurns config w (turns ++ [t]) = (t.run config (afterTurns config w turns)).2 := by
  simp [afterTurns]

/-- What every turn preserves holds throughout a session. -/
theorem afterTurns_induction {config : ScimConfig} {P : World → Prop}
    (hstep : ∀ w t, P w → P (Turn.run config t w).2) {w : World} (hw : P w) (turns : List Turn) :
    P (afterTurns config w turns) := by
  induction turns generalizing w with
  | nil => exact hw
  | cons t turns ih => exact ih (hstep w t hw)

/-- A mapping with one user. -/
def mappingOf (id : String) (record : UserRecord) : World where
  store := { mapping := {
    path := ⟨"", "mapping", some "json"⟩
    data := { users := Std.ExtTreeMap.empty.insert ⟨id⟩ record } } }

/-! ## Requests at the same time -/

/-- The calls made, the latest first. -/
abbrev History := List (Entry sig World)

/-- Requests that are about to be handled at the same time. -/
def concurrently (config : ScimConfig) (requests : List Request) (w : World) :
    Pool sig ScimError Response World where
  world := w
  threads := requests.map (handle config)

end Headmaster.Scim
