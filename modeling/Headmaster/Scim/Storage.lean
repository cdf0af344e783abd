import Headmaster.Scim.Types

/-!
# The mapping store

The users and groups the identity provider has pushed, held in memory and
written to a file on every change (`src/scim/src/storage.rs`).

What is not up to the code is the *operating system* (`Os`): which steps of
writing the file fail, what the clock shows, which UUID is drawn. An operation
runs under one such `Os`, on the mapping and the files (`StoreM`), and one
lemma per operation says what it leaves (`flush_run`, `setUser_run`, …).
-/

namespace Headmaster.Scim

/-! ## Records -/

structure UserRecord where
  /-- Whether the identity provider considers this user active. -/
  active : Bool
  name : String
  displayName : Option String
  email : Option String
  externalId : Option ExternalId
  /-- Set by `setUser` on every write. -/
  updatedAt : Timestamp
  deriving DecidableEq

structure GroupRecord where
  name : String
  /-- Ordered SCIM user UUIDs, resolved when the policy is reconciled. -/
  members : List ScimId
  externalId : Option ExternalId
  /-- Set by the callers; `setGroup` preserves it. -/
  updatedAt : Timestamp
  deriving DecidableEq

/-- The record with `record.members = members`. -/
def GroupRecord.withMembers (r : GroupRecord) (members : List ScimId) : GroupRecord :=
  { r with members }

@[ext]
structure MappingFile where
  users : Std.ExtTreeMap ScimId UserRecord := ∅
  groups : Std.ExtTreeMap GroupScimId GroupRecord := ∅

/-- A path to a file: the directory (empty for a bare file name), and the name
    with its extension split off. -/
structure Path where
  dir : String
  stem : String
  extension : Option String
  deriving DecidableEq

namespace Path

/-- The directory of a file, unless it is empty. -/
def parent (p : Path) : Option String := if p.dir = "" then none else some p.dir

def withExtension (p : Path) (ext : String) : Path := { p with extension := some ext }

end Path

structure Mapping where
  path : Path
  data : MappingFile := {}

namespace Mapping

variable (m : Mapping)

def getUser (id : ScimId) : Option UserRecord := m.data.users[id]?

def users : List (ScimId × UserRecord) := m.data.users.toList

def getUserByName (name : String) : Option (ScimId × UserRecord) :=
  m.users.find? fun (_, r) => r.name = name

def getGroup (id : GroupScimId) : Option GroupRecord := m.data.groups[id]?

def groups : List (GroupScimId × GroupRecord) := m.data.groups.toList

def getGroupByName (name : String) : Option (GroupScimId × GroupRecord) :=
  m.groups.find? fun (_, r) => r.name = name

end Mapping

/-! ## The operating system -/

abbrev IoError := String

/-- The steps of `flush`, each of which may fail. -/
inductive FlushStep
  | createDirAll
  | create
  | writeAll
  | syncData
  | rename
  | openParent
  | syncAll
  deriving DecidableEq

/-- What the operating system does during one operation. -/
structure Os where
  /-- The error of a step of `flush`, if it fails. -/
  fault : FlushStep → Option IoError := fun _ => none
  /-- What the clock shows. -/
  now : Timestamp := 0
  /-- The next UUID drawn. -/
  uuid : String := ""

/-- What a file holds: nothing, part of a text, or the whole text that encodes
    a mapping. -/
inductive Content
  | empty
  | torn
  | whole (data : MappingFile)

/-- The file system: what each file holds, if it exists. -/
abbrev Files := Path → Option Content

namespace Files

def write (files : Files) (p : Path) (c : Content) : Files := Function.update files p (some c)

/-- `p` takes the name `q`, replacing what had it. -/
def rename (files : Files) (p q : Path) : Files :=
  if p = q then files else Function.update (Function.update files q (files p)) p none

@[simp]
theorem write_self (files : Files) (p : Path) (c : Content) : files.write p c p = some c := by
  simp [write]

theorem rename_dst (files : Files) (p q : Path) : files.rename p q q = files p := by
  rw [rename]
  split
  · subst p; rfl
  · rename_i h
    rw [Function.update_of_ne (Ne.symm h), Function.update_self]

end Files

/-- The mapping in memory, and the files. -/
structure Store where
  mapping : Mapping
  files : Files := fun _ => none

namespace Store

abbrev data (s : Store) : MappingFile := s.mapping.data
abbrev path (s : Store) : Path := s.mapping.path

/-- The store with `d` in memory. -/
def withData (s : Store) (d : MappingFile) : Store := { s with mapping.data := d }

@[simp] theorem withData_data (s : Store) (d : MappingFile) : (s.withData d).data = d := rfl
@[simp] theorem withData_path (s : Store) (d : MappingFile) : (s.withData d).path = s.path := rfl
@[simp] theorem withData_files (s : Store) (d : MappingFile) : (s.withData d).files = s.files := rfl
@[simp] theorem withData_withData (s : Store) (d d' : MappingFile) :
    (s.withData d).withData d' = s.withData d' := rfl

end Store

/-- An operation on the store, under an operating system, which may fail. The
    store is what the operation has made of it either way. -/
abbrev StoreM (ε α : Type) := ReaderT Os (ExceptT ε (StateM Store)) α

namespace StoreM

variable {ε ε' α β : Type}

/-- The outcome of an operation, and the store it leaves. -/
def exec (p : StoreM ε α) (os : Os) (s : Store) : Except ε α × Store := ((p.run os).run).run s

/-- The operation with its error made another, as `Result::map_err`. -/
def mapErr (f : ε → ε') (p : StoreM ε α) : StoreM ε' α := fun os => (p os).adapt f

@[simp]
theorem exec_pure (a : α) (os : Os) (s : Store) : (pure a : StoreM ε α).exec os s = (.ok a, s) := rfl

@[simp]
theorem exec_throw (e : ε) (os : Os) (s : Store) :
    (throw e : StoreM ε α).exec os s = (.error e, s) := rfl

@[simp]
theorem exec_get (os : Os) (s : Store) : (get : StoreM ε Store).exec os s = (.ok s, s) := rfl

@[simp]
theorem exec_read (os : Os) (s : Store) : (read : StoreM ε Os).exec os s = (.ok os, s) := rfl

theorem exec_bind (p : StoreM ε α) (f : α → StoreM ε β) (os : Os) (s : Store) :
    (p >>= f).exec os s = match p.exec os s with
      | (.ok a, s') => (f a).exec os s'
      | (.error e, s') => (.error e, s') := by
  simp only [exec, ReaderT.run_bind, ExceptT.run_bind, StateT.run_bind]
  rcases (StateT.run (ExceptT.run (ReaderT.run p os)) s) with ⟨_ | _, _⟩ <;> rfl

theorem exec_tryCatch (p : StoreM ε α) (f : ε → StoreM ε α) (os : Os) (s : Store) :
    (tryCatch p f).exec os s = match p.exec os s with
      | (.ok a, s') => (.ok a, s')
      | (.error e, s') => (f e).exec os s' := by
  simp only [exec, tryCatch, tryCatchThe, MonadExceptOf.tryCatch, ReaderT.run, ExceptT.run,
    ExceptT.tryCatch, ExceptT.mk, StateT.run, bind, StateT.bind]
  rcases p os s with ⟨_ | _, _⟩ <;> rfl

theorem exec_mapErr (f : ε → ε') (p : StoreM ε α) (os : Os) (s : Store) :
    (p.mapErr f).exec os s = ((p.exec os s).1.mapError f, (p.exec os s).2) := by
  rfl

end StoreM

/-! ## Operations -/

namespace Mapping

/-- A step of `flush`: it changes the files, or fails and may leave a trace. -/
def step (st : FlushStep) (done failed : Files → Files) : StoreM IoError Unit := do
  match (← read).fault st with
  | none => modify fun s => { s with files := done s.files }
  | some e =>
    modify fun s => { s with files := failed s.files }
    throw e

/-- Write the mapping to its file: to a temporary file first, which then takes
    the name of the file. -/
def flush : StoreM IoError Unit := do
  let { path, data } := (← get).mapping
  if path.parent.isSome then
    step .createDirAll id id
  let tmp := path.withExtension "tmp"
  step .create (·.write tmp .empty) id
  step .writeAll (·.write tmp (.whole data)) (·.write tmp .torn)
  step .syncData id (·.write tmp .torn)
  step .rename (·.rename tmp path) id
  if path.parent.isSome then
    step .openParent id id
    step .syncAll id id

/-- Assign `self.data`. -/
def setData (d : MappingFile) : StoreM IoError Unit := modify (·.withData d)

def setUser (id : ScimId) (record : UserRecord) : StoreM IoError UserRecord := do
  let record := { record with updatedAt := (← read).now }
  let { data, .. } := (← get).mapping
  setData { data with users := data.users.insert id record }
  flush
  return record

def removeUser (id : ScimId) : StoreM IoError Unit := do
  let { data, .. } := (← get).mapping
  let some removed := data.users[id]? | return
  setData { data with users := data.users.erase id }
  try flush catch e =>
    let { data, .. } := (← get).mapping
    setData { data with users := data.users.insert id removed }
    throw e

/-- Remove the user record and strip the user from all member lists, in a
    single flush. -/
def removeUserAndFromGroups (id : ScimId) : StoreM IoError Unit := do
  let { data, .. } := (← get).mapping
  let removedUser := data.users[id]?
  let rollbackGroups := (data.groups.toList.filter fun (_, r) => r.members.contains id).map
    fun (gid, r) => (gid, r.members)
  setData {
    users := data.users.erase id
    groups := data.groups.map fun _ r => r.withMembers (r.members.filter (· != id)) }
  try flush catch e =>
    let { data, .. } := (← get).mapping
    let users := match removedUser with
      | some user => data.users.insert id user
      | none => data.users
    let groups := rollbackGroups.foldl
      (fun groups (gid, members) => groups.modify gid (·.withMembers members)) data.groups
    setData { users, groups }
    throw e

def setGroup (id : GroupScimId) (record : GroupRecord) : StoreM IoError GroupRecord := do
  let { data, .. } := (← get).mapping
  setData { data with groups := data.groups.insert id record }
  flush
  return record

def removeGroup (id : GroupScimId) : StoreM IoError Unit := do
  let { data, .. } := (← get).mapping
  let some removed := data.groups[id]? | return
  setData { data with groups := data.groups.erase id }
  try flush catch e =>
    let { data, .. } := (← get).mapping
    setData { data with groups := data.groups.insert id removed }
    throw e

end Mapping

/-! ## What a flush leaves -/

/-- The steps of a flush to `p`, in order. -/
def flushSteps (p : Path) : List FlushStep :=
  if p.parent.isSome then
    [.createDirAll, .create, .writeAll, .syncData, .rename, .openParent, .syncAll]
  else
    [.create, .writeAll, .syncData, .rename]

/-- The error a flush to `p` meets: that of the first step that fails. -/
def Os.flushError (os : Os) (p : Path) : Option IoError := (flushSteps p).findSome? os.fault

namespace Mapping

variable (os : Os) (s : Store)

@[simp]
theorem exec_step (st : FlushStep) (done failed : Files → Files) :
    (step st done failed).exec os s = match os.fault st with
      | none => (.ok (), { s with files := done s.files })
      | some e => (.error e, { s with files := failed s.files }) := by
  simp only [step, StoreM.exec_bind, StoreM.exec_read]
  cases os.fault st <;> rfl

@[simp]
theorem exec_setData (d : MappingFile) : (setData d).exec os s = (.ok (), s.withData d) := rfl

/-- A flush fails when one of its steps does, and leaves the mapping as it was;
    when none does, the file holds the mapping. -/
theorem exec_flush : ∃ files, flush.exec os s =
      (match os.flushError s.path with | none => .ok () | some e => .error e, { s with files }) ∧
    (os.flushError s.path = none → files s.path = some (.whole s.data)) := by
  rw [flush, Os.flushError, flushSteps]
  by_cases hp : s.path.parent.isSome
  · rcases h₁ : os.fault .createDirAll with _ | e
    rcases h₂ : os.fault .create with _ | e
    rcases h₃ : os.fault .writeAll with _ | e
    rcases h₄ : os.fault .syncData with _ | e
    rcases h₅ : os.fault .rename with _ | e
    rcases h₆ : os.fault .openParent with _ | e
    rcases h₇ : os.fault .syncAll with _ | e
    all_goals
      simp [StoreM.exec_bind, *, Files.rename_dst]
  · rcases h₂ : os.fault .create with _ | e
    rcases h₃ : os.fault .writeAll with _ | e
    rcases h₄ : os.fault .syncData with _ | e
    rcases h₅ : os.fault .rename with _ | e
    all_goals
      simp [StoreM.exec_bind, *, Files.rename_dst]

/-- The operation ends as its flush does: with `a`, leaving `d` in memory and in
    the file, or else with the error of the flush, leaving `kept` in memory. -/
def Writes {α : Type} (p : StoreM IoError α) (os : Os) (s : Store) (a : α)
    (d kept : MappingFile) : Prop :=
  ∃ files, p.exec os s = (match os.flushError s.path with
      | none => (.ok a, { s.withData d with files })
      | some e => (.error e, { s.withData kept with files })) ∧
    (os.flushError s.path = none → files s.path = some (.whole d))

theorem setUser_writes (id : ScimId) (record : UserRecord) :
    Writes (setUser id record) os s { record with updatedAt := os.now }
      { s.data with users := s.data.users.insert id { record with updatedAt := os.now } }
      { s.data with users := s.data.users.insert id { record with updatedAt := os.now } } := by
  obtain ⟨files, hfl, hwhole⟩ := exec_flush os (s.withData
    { s.data with users := s.data.users.insert id { record with updatedAt := os.now } })
  refine ⟨files, ?_, hwhole⟩
  simp only [setUser, StoreM.exec_bind, StoreM.exec_read, StoreM.exec_get, exec_setData, hfl]
  simp only [Store.withData_path]
  cases os.flushError s.path <;> rfl

theorem setGroup_writes (id : GroupScimId) (record : GroupRecord) :
    Writes (setGroup id record) os s record
      { s.data with groups := s.data.groups.insert id record }
      { s.data with groups := s.data.groups.insert id record } := by
  obtain ⟨files, hfl, hwhole⟩ := exec_flush os
    (s.withData { s.data with groups := s.data.groups.insert id record })
  refine ⟨files, ?_, hwhole⟩
  simp only [setGroup, StoreM.exec_bind, StoreM.exec_get, exec_setData, hfl]
  simp only [Store.withData_path]
  cases os.flushError s.path <;> rfl

/-- Putting back what was removed gives the map there was. -/
theorem insert_erase {α β : Type} [Ord α] [Std.TransOrd α] [Std.LawfulEqOrd α]
    {t : Std.ExtTreeMap α β} {k : α} {v : β} (h : t[k]? = some v) : (t.erase k).insert k v = t := by
  refine Std.ExtTreeMap.ext_getElem? fun k' => ?_
  rw [Std.ExtTreeMap.getElem?_insert, Std.ExtTreeMap.getElem?_erase]
  split
  · rename_i hk
    rw [← Std.LawfulEqOrd.eq_of_compare hk, h]
  · rfl

theorem erase_absent {α β : Type} [Ord α] [Std.TransOrd α] [Std.LawfulEqOrd α]
    {t : Std.ExtTreeMap α β} {k : α} (h : t[k]? = none) : t.erase k = t := by
  refine Std.ExtTreeMap.ext_getElem? fun k' => ?_
  rw [Std.ExtTreeMap.getElem?_erase]
  split
  · rename_i hk
    rw [← Std.LawfulEqOrd.eq_of_compare hk, h]
  · rfl

theorem insert_present {α β : Type} [Ord α] [Std.TransOrd α] [Std.LawfulEqOrd α]
    {t : Std.ExtTreeMap α β} {k : α} {v : β} (h : t[k]? = some v) : t.insert k v = t := by
  refine Std.ExtTreeMap.ext_getElem? fun k' => ?_
  rw [Std.ExtTreeMap.getElem?_insert]
  split
  · rename_i hk
    rw [← Std.LawfulEqOrd.eq_of_compare hk, h]
  · rfl

theorem removeUser_absent (id : ScimId) (h : s.data.users[id]? = none) :
    (removeUser id).exec os s = (.ok (), s) := by
  simp only [removeUser, StoreM.exec_bind, StoreM.exec_get]
  rw [h]
  rfl

theorem removeUser_writes (id : ScimId) (removed : UserRecord)
    (h : s.data.users[id]? = some removed) :
    Writes (removeUser id) os s () { s.data with users := s.data.users.erase id } s.data := by
  obtain ⟨files, hfl, hwhole⟩ := exec_flush os
    (s.withData { s.data with users := s.data.users.erase id })
  refine ⟨files, ?_, hwhole⟩
  simp only [removeUser, StoreM.exec_bind, StoreM.exec_get]
  rw [h]
  simp only [StoreM.exec_bind, exec_setData, StoreM.exec_tryCatch, StoreM.exec_get, hfl,
    StoreM.exec_throw, Store.withData_path]
  cases os.flushError s.path with
  | none => rfl
  | some e =>
    simp only [Store.withData, insert_erase h]

theorem removeGroup_absent (id : GroupScimId) (h : s.data.groups[id]? = none) :
    (removeGroup id).exec os s = (.ok (), s) := by
  simp only [removeGroup, StoreM.exec_bind, StoreM.exec_get]
  rw [h]
  rfl

theorem removeGroup_writes (id : GroupScimId) (removed : GroupRecord)
    (h : s.data.groups[id]? = some removed) :
    Writes (removeGroup id) os s () { s.data with groups := s.data.groups.erase id } s.data := by
  obtain ⟨files, hfl, hwhole⟩ := exec_flush os
    (s.withData { s.data with groups := s.data.groups.erase id })
  refine ⟨files, ?_, hwhole⟩
  simp only [removeGroup, StoreM.exec_bind, StoreM.exec_get]
  rw [h]
  simp only [StoreM.exec_bind, exec_setData, StoreM.exec_tryCatch, StoreM.exec_get, hfl,
    StoreM.exec_throw, Store.withData_path]
  cases os.flushError s.path with
  | none => rfl
  | some e =>
    simp only [Store.withData, insert_erase h]

/-- The mapping without the user `id`, as a record or as a member. -/
def withoutUser (d : MappingFile) (id : ScimId) : MappingFile where
  users := d.users.erase id
  groups := d.groups.map fun _ r => r.withMembers (r.members.filter (· != id))

/-- Giving the members back, one group at a time, to groups `u` that differ from
    `t` in the members only. -/
theorem foldl_modify_members {t : Std.ExtTreeMap GroupScimId GroupRecord}
    (l : List (GroupScimId × List ScimId))
    (hl : ∀ p ∈ l, t[p.1]?.map GroupRecord.members = some p.2)
    (u : Std.ExtTreeMap GroupScimId GroupRecord)
    (hu : ∀ k : GroupScimId, ∃ f : GroupRecord → List ScimId,
      u[k]? = t[k]?.map fun r : GroupRecord => r.withMembers (f r)) (k : GroupScimId) :
    (l.foldl (fun groups p => groups.modify p.1 (·.withMembers p.2)) u)[k]? =
      if k ∈ l.map Prod.fst then t[k]? else u[k]? := by
  induction l generalizing u with
  | nil => rfl
  | cons p l ih =>
    have hget : ∀ k' : GroupScimId, (u.modify p.1 (·.withMembers p.2))[k']? =
        if k' = p.1 then t[k']? else u[k']? := by
      intro k'
      rw [Std.ExtTreeMap.getElem?_modify]
      split
      · rename_i hk
        obtain rfl := Std.LawfulEqOrd.eq_of_compare hk
        rw [if_pos rfl]
        obtain ⟨f, hf⟩ := hu p.1
        have hms := hl p List.mem_cons_self
        rw [hf]
        -- The members, taken from `t`, are the only difference.
        cases ht : t[p.1]? with
        | none => rfl
        | some r =>
          rw [ht] at hms
          simp only [Option.map_some, Option.some.injEq] at hms ⊢
          rw [← hms]
          rfl
      · rename_i hk
        rw [if_neg]
        rintro rfl
        exact hk Std.ReflOrd.compare_self
    rw [List.foldl_cons, ih (fun p hp => hl p (List.mem_cons_of_mem _ hp)), hget]
    · by_cases hk : k = p.1
      · simp [hk]
      · simp only [List.map_cons, List.mem_cons, hk, false_or, if_false]
    · intro k'
      rw [hget]
      split
      · exact ⟨GroupRecord.members, by cases t[k']? <;> rfl⟩
      · exact hu k'

/-- The rollback of `removeUserAndFromGroups` gives the groups there were. -/
theorem rollback_groups (t : Std.ExtTreeMap GroupScimId GroupRecord) (id : ScimId) :
    ((t.toList.filter fun (_, r) => r.members.contains id).map fun (gid, r) => (gid, r.members)).foldl
      (fun groups p => groups.modify p.1 (·.withMembers p.2))
      (t.map fun _ r => r.withMembers (r.members.filter (· != id))) = t := by
  refine Std.ExtTreeMap.ext_getElem? fun k => ?_
  rw [foldl_modify_members (t := t)]
  · split
    · rfl
    · rename_i hk
      rw [Std.ExtTreeMap.getElem?_map]
      cases hr : t[k]? with
      | none => rfl
      | some r =>
        -- A group that was not recorded did not have the user as a member.
        have hid : id ∉ r.members := fun hmem => hk <| by
          refine List.mem_map.2 ⟨(k, r.members), List.mem_map.2 ⟨(k, r), ?_, rfl⟩, rfl⟩
          refine List.mem_filter.2 ⟨Std.ExtTreeMap.mem_toList_iff_getElem?_eq_some.2 hr, ?_⟩
          simpa using hmem
        have hfilter : r.members.filter (· != id) = r.members :=
          List.filter_eq_self.2 fun m hm => by
            simpa using fun h : m = id => hid (h ▸ hm)
        rw [Option.map_some, hfilter]
        rfl
  · intro p hp
    obtain ⟨⟨gid, r⟩, hmem, rfl⟩ := List.mem_map.1 hp
    have := Std.ExtTreeMap.mem_toList_iff_getElem?_eq_some.1 (List.mem_filter.1 hmem).1
    simp [this]
  · exact fun k => ⟨_, Std.ExtTreeMap.getElem?_map⟩

theorem removeUserAndFromGroups_writes (id : ScimId) :
    Writes (removeUserAndFromGroups id) os s () (withoutUser s.data id) s.data := by
  obtain ⟨files, hfl, hwhole⟩ := exec_flush os (s.withData (withoutUser s.data id))
  refine ⟨files, ?_, hwhole⟩
  simp only [removeUserAndFromGroups, StoreM.exec_bind, StoreM.exec_get, exec_setData,
    StoreM.exec_tryCatch]
  rw [← withoutUser, hfl]
  simp only [Store.withData_path, StoreM.exec_throw]
  cases os.flushError s.path with
  | none => rfl
  | some e =>
    have hgroups := rollback_groups s.data.groups id
    simp only [Store.withData, withoutUser, hgroups]
    cases hu : s.data.users[id]? with
    | some user => simp [insert_erase hu]
    | none => simp [erase_absent hu]

end Mapping

end Headmaster.Scim
