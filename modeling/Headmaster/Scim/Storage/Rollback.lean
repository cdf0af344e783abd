import Headmaster.Scim.Storage

/-!
# Failed writes

The five operations that change the mapping, called one after the other, each
under an operating system that may fail any step of its flush. A call that
fails should leave no trace: neither in memory (`RollsBack`) nor in the file a
later call writes (`Forgets`).

The removals roll back. `setUser` and `setGroup` do not: they leave the record
they could not write in memory, and the next flush writes it. A session is
atomic exactly when no such call fails on a record that was not already there
(`atomic_iff`).
-/

namespace Headmaster.Scim

/-- A call of one of the operations that change the mapping. -/
inductive Call
  | setUser (id : ScimId) (record : UserRecord)
  | removeUser (id : ScimId)
  | removeUserAndFromGroups (id : ScimId)
  | setGroup (id : GroupScimId) (record : GroupRecord)
  | removeGroup (id : GroupScimId)

namespace Call

/-- The operation called, its value left out. -/
def body : Call → StoreM IoError Unit
  | setUser id record => do let _ ← Mapping.setUser id record
  | removeUser id => Mapping.removeUser id
  | removeUserAndFromGroups id => Mapping.removeUserAndFromGroups id
  | setGroup id record => do let _ ← Mapping.setGroup id record
  | removeGroup id => Mapping.removeGroup id

/-- The mapping the call is to leave. -/
def target (os : Os) (d : MappingFile) : Call → MappingFile
  | setUser id record => { d with users := d.users.insert id { record with updatedAt := os.now } }
  | removeUser id => { d with users := d.users.erase id }
  | removeUserAndFromGroups id => Mapping.withoutUser d id
  | setGroup id record => { d with groups := d.groups.insert id record }
  | removeGroup id => { d with groups := d.groups.erase id }

/-- The mapping the call leaves in memory when its flush fails. -/
def kept (os : Os) (d : MappingFile) : Call → MappingFile
  | c@(setUser _ _) => c.target os d
  | c@(setGroup _ _) => c.target os d
  | _ => d

/-- The call flushes the mapping: a removal of what is not there does not. -/
def Flushes (d : MappingFile) : Call → Prop
  | removeUser id => d.users[id]?.isSome
  | removeGroup id => d.groups[id]?.isSome
  | _ => True

instance (d : MappingFile) (c : Call) : Decidable (c.Flushes d) := by
  cases c <;> unfold Flushes <;> infer_instance

/-- The call removes, or stores the very record that is already there. -/
def Undone (os : Os) (d : MappingFile) : Call → Prop
  | setUser id record => d.users[id]? = some { record with updatedAt := os.now }
  | setGroup id record => d.groups[id]? = some record
  | _ => True

variable (c : Call) (os : Os) (s : Store)

/-- The mapping a call leaves, as its flush goes. -/
def effect (p : Path) (d : MappingFile) : MappingFile :=
  if os.flushError p = none then c.target os d else c.kept os d

theorem body_writes (h : c.Flushes s.data) :
    Mapping.Writes c.body os s () (c.target os s.data) (c.kept os s.data) := by
  cases c with
  | setUser id record =>
    obtain ⟨files, hex, hwhole⟩ := Mapping.setUser_writes os s id record
    refine ⟨files, ?_, hwhole⟩
    simp only [body, StoreM.exec_bind, hex]
    cases os.flushError s.path <;> rfl
  | removeUser id =>
    obtain ⟨removed, hr⟩ := Option.isSome_iff_exists.1 h
    exact Mapping.removeUser_writes os s id removed hr
  | removeUserAndFromGroups id => exact Mapping.removeUserAndFromGroups_writes os s id
  | setGroup id record =>
    obtain ⟨files, hex, hwhole⟩ := Mapping.setGroup_writes os s id record
    refine ⟨files, ?_, hwhole⟩
    simp only [body, StoreM.exec_bind, hex]
    cases os.flushError s.path <;> rfl
  | removeGroup id =>
    obtain ⟨removed, hr⟩ := Option.isSome_iff_exists.1 h
    exact Mapping.removeGroup_writes os s id removed hr

/-- A call with nothing to flush leaves the store as it is. -/
theorem body_unflushed (h : ¬c.Flushes s.data) : c.body.exec os s = (.ok (), s) := by
  cases c with
  | removeUser id => exact Mapping.removeUser_absent os s id (by simpa [Flushes] using h)
  | removeGroup id => exact Mapping.removeGroup_absent os s id (by simpa [Flushes] using h)
  | _ => exact absurd trivial h

theorem effect_unflushed (p : Path) {d : MappingFile} (h : ¬c.Flushes d) :
    c.effect os p d = d := by
  have hkept : c.kept os d = d := by
    cases c with
    | setUser _ _ => exact absurd trivial h
    | setGroup _ _ => exact absurd trivial h
    | _ => rfl
  have htarget : c.target os d = d := by
    cases c with
    | removeUser id =>
      have hid : d.users[id]? = none := by simpa [Flushes] using h
      exact MappingFile.ext (Mapping.erase_absent hid) rfl
    | removeGroup id =>
      have hid : d.groups[id]? = none := by simpa [Flushes] using h
      exact MappingFile.ext rfl (Mapping.erase_absent hid)
    | _ => exact absurd trivial h
  rw [effect]
  split
  · exact htarget
  · exact hkept

/-- A call that fails leaves the mapping as it was exactly when it removes or
    stores what was already there. -/
theorem kept_eq_iff (d : MappingFile) : c.kept os d = d ↔ c.Undone os d := by
  cases c with
  | setUser id record =>
    constructor
    · intro h
      have := congrArg (fun d : MappingFile => d.users[id]?) h
      simpa [kept, target, Undone, eq_comm] using this
    · intro h
      exact MappingFile.ext (Mapping.insert_present h) rfl
  | setGroup id record =>
    constructor
    · intro h
      have := congrArg (fun d : MappingFile => d.groups[id]?) h
      simpa [kept, target, Undone, eq_comm] using this
    · intro h
      exact MappingFile.ext rfl (Mapping.insert_present h)
  | _ => exact ⟨fun _ => trivial, fun _ => rfl⟩

/-- What a call leaves in memory. -/
theorem exec_body_store : (c.body.exec os s).2.data = c.effect os s.path s.data ∧
    (c.body.exec os s).2.path = s.path := by
  by_cases h : c.Flushes s.data
  · obtain ⟨files, hex, _⟩ := c.body_writes os s h
    rw [hex, effect]
    cases os.flushError s.path <;> exact ⟨rfl, rfl⟩
  · rw [c.body_unflushed os s h, c.effect_unflushed os _ h]
    exact ⟨rfl, rfl⟩

/-- A call fails exactly when it flushes and a step of the flush fails. -/
theorem exec_body_error : (∃ e, (c.body.exec os s).1 = .error e) ↔
    c.Flushes s.data ∧ os.flushError s.path ≠ none := by
  by_cases h : c.Flushes s.data
  · obtain ⟨files, hex, _⟩ := c.body_writes os s h
    rw [hex]
    cases os.flushError s.path <;> simp [h]
  · rw [c.body_unflushed os s h]
    simp [h]

end Call

/-! ## Sessions -/

/-- The store after calls made one after the other. -/
def finalStore (s : Store) (calls : List (Call × Os)) : Store :=
  calls.foldl (fun s (c, os) => (c.body.exec os s).2) s

/-- The calls that return `Ok`. -/
def succeeding : Store → List (Call × Os) → List (Call × Os)
  | _, [] => []
  | s, (c, os) :: calls =>
    match c.body.exec os s with
    | (.ok _, s') => (c, os) :: succeeding s' calls
    | (.error _, s') => succeeding s' calls

/-- `(c, os)` is made in the session, after the calls `before`. -/
def MadeAfter (calls before : List (Call × Os)) (c : Call) (os : Os) : Prop :=
  before ++ [(c, os)] <+: calls

/-- A call that returns `Err` leaves the mapping in memory as before the call. -/
def RollsBack (s : Store) (calls : List (Call × Os)) : Prop :=
  ∀ before c os, MadeAfter calls before c os → ∀ e,
    (c.body.exec os (finalStore s before)).1 = .error e →
      (c.body.exec os (finalStore s before)).2.data = (finalStore s before).data

/-- A call that returns `Ok` and flushes leaves in the file the mapping that the
    calls which returned `Ok`, alone, leave. -/
def Forgets (s : Store) (calls : List (Call × Os)) : Prop :=
  ∀ before c os, MadeAfter calls before c os →
    (c.body.exec os (finalStore s before)).1 = .ok () → c.Flushes (finalStore s before).data →
      (c.body.exec os (finalStore s before)).2.files s.path =
        some (.whole (finalStore s (succeeding s (before ++ [(c, os)]))).data)

/-- The effect of a call that fails is nowhere to be seen. -/
def Atomic (s : Store) (calls : List (Call × Os)) : Prop := RollsBack s calls ∧ Forgets s calls

/-- No call whose flush fails stores a new record. -/
def FailsUndone (s : Store) (calls : List (Call × Os)) : Prop :=
  ∀ before c os, MadeAfter calls before c os → os.flushError s.path ≠ none →
    c.Undone os (finalStore s before).data

@[simp]
theorem finalStore_cons (s : Store) (c : Call) (os : Os) (calls : List (Call × Os)) :
    finalStore s ((c, os) :: calls) = finalStore (c.body.exec os s).2 calls := rfl

theorem finalStore_concat (s : Store) (calls : List (Call × Os)) (c : Call) (os : Os) :
    finalStore s (calls ++ [(c, os)]) = (c.body.exec os (finalStore s calls)).2 := by
  simp [finalStore]

theorem finalStore_path (s : Store) (calls : List (Call × Os)) :
    (finalStore s calls).path = s.path := by
  induction calls generalizing s with
  | nil => rfl
  | cons x calls ih => exact (ih _).trans (x.1.exec_body_store x.2 s).2

theorem FailsUndone.head {s : Store} {c : Call} {os : Os} {calls : List (Call × Os)}
    (h : FailsUndone s ((c, os) :: calls)) (hfail : os.flushError s.path ≠ none) :
    c.Undone os s.data :=
  h [] c os (List.prefix_append _ _) hfail

theorem FailsUndone.tail {s : Store} {c : Call} {os : Os} {calls : List (Call × Os)}
    (h : FailsUndone s ((c, os) :: calls)) : FailsUndone (c.body.exec os s).2 calls := by
  intro before c' os' hmade hfail
  rw [(c.exec_body_store os s).2] at hfail
  exact h ((c, os) :: before) c' os' (List.cons_prefix_cons.2 ⟨rfl, hmade⟩) hfail

theorem FailsUndone.of_made {s : Store} {calls calls' : List (Call × Os)}
    (h : FailsUndone s calls) (hpre : calls' <+: calls) : FailsUndone s calls' :=
  fun before c os hmade hfail => h before c os (hmade.trans hpre) hfail

/-- Where no failing call stores a new record, the calls that return `Ok` leave,
    alone, the same mapping. -/
theorem finalStore_succeeding {s t : Store} {calls : List (Call × Os)} (h : FailsUndone s calls)
    (hdata : s.data = t.data) (hpath : s.path = t.path) :
    (finalStore s calls).data = (finalStore t (succeeding s calls)).data := by
  induction calls generalizing s t with
  | nil => exact hdata
  | cons x calls ih =>
    obtain ⟨c, os⟩ := x
    obtain ⟨hd, hp⟩ := c.exec_body_store os s
    obtain ⟨hd', hp'⟩ := c.exec_body_store os t
    rw [finalStore_cons]
    rcases hex : c.body.exec os s with ⟨_ | _, s'⟩
    · -- The call fails, so the mapping is as before it.
      rename_i e
      obtain ⟨_, hfail⟩ := (c.exec_body_error os s).1 ⟨e, by rw [hex]⟩
      have hkept := (c.kept_eq_iff os s.data).2 (h.head hfail)
      simp only [succeeding, hex]
      have htail := h.tail
      rw [hex] at hd hp htail
      rw [Call.effect, if_neg hfail, hkept] at hd
      exact ih htail (hd.trans hdata) (hp.trans hpath)
    · simp only [succeeding, hex, finalStore_cons]
      have htail := h.tail
      rw [hex] at hd hp htail
      refine ih htail ?_ (hp.trans (hpath.trans hp'.symm))
      rw [hd, hd', hdata, hpath]

/-- A session is atomic exactly when no call whose flush fails stores a new
    record. -/
theorem atomic_iff (s : Store) (calls : List (Call × Os)) :
    Atomic s calls ↔ FailsUndone s calls := by
  constructor
  · rintro ⟨hroll, _⟩ before c os hmade hfail
    rw [← finalStore_path s before] at hfail
    obtain ⟨hd, _⟩ := c.exec_body_store os (finalStore s before)
    -- a failed call leaves the data as they were, so what it kept is what was there
    have heffect : c.effect os (finalStore s before).path (finalStore s before).data =
        (finalStore s before).data := by
      by_cases hfl : c.Flushes (finalStore s before).data
      · obtain ⟨e, he⟩ := (c.exec_body_error os _).2 ⟨hfl, hfail⟩
        rw [← hd]
        exact hroll before c os hmade e he
      · exact c.effect_unflushed os _ hfl
    rw [Call.effect, if_neg hfail] at heffect
    exact (c.kept_eq_iff os _).1 heffect
  · intro h
    constructor
    · intro before c os hmade e he
      obtain ⟨_, hfail⟩ := (c.exec_body_error os _).1 ⟨e, he⟩
      have hundone := h before c os hmade (by rwa [finalStore_path] at hfail)
      rw [(c.exec_body_store os _).1, Call.effect, if_neg hfail]
      exact (c.kept_eq_iff os _).2 hundone
    · intro before c os hmade hok hfl
      have hfail : os.flushError (finalStore s before).path = none := by
        by_contra hne
        obtain ⟨e, he⟩ := (c.exec_body_error os _).2 ⟨hfl, hne⟩
        rw [hok] at he
        cases he
      -- the last flush wrote the data of the calls that succeeded, the undone ones being invisible
      obtain ⟨files, hex, hwhole⟩ := c.body_writes os _ hfl
      rw [← finalStore_succeeding (h.of_made hmade) rfl rfl, finalStore_concat,
        (c.exec_body_store os _).1, Call.effect, if_pos hfail, hex, hfail,
        ← finalStore_path s before]
      exact hwhole hfail

/-- An empty mapping, on a volume that is full during one call: the user it
    could not write stays in memory, and the next call writes it. -/
theorem setUser_persisted_after_failure :
    let s : Store := { mapping := { path := ⟨"/data", "mapping", some "json"⟩ } }
    let full : Os := { fault := fun st => if st = .writeAll then some "no space left" else none }
    let alice : UserRecord := ⟨true, "alice", none, some "alice@example.com", none, 0⟩
    let eng : GroupRecord := ⟨"eng", [⟨"u1"⟩], none, 0⟩
    ¬RollsBack s [(.setUser ⟨"u1"⟩ alice, full), (.setGroup ⟨"g1"⟩ eng, {})] ∧
      ¬Forgets s [(.setUser ⟨"u1"⟩ alice, full), (.setGroup ⟨"g1"⟩ eng, {})] := by
  constructor
  · intro h
    have hdata := h [] _ _ (List.prefix_append _ _) "no space left" rfl
    have : (some _ : Option UserRecord) = none :=
      congrArg (fun d : MappingFile => d.users[(⟨"u1"⟩ : ScimId)]?) hdata
    cases this
  · intro h
    have hfile : some (Content.whole _) = some (.whole _) :=
      h [_] _ _ List.prefix_rfl rfl trivial
    have hdata := Content.whole.inj (Option.some.inj hfile)
    have : (some _ : Option UserRecord) = none :=
      congrArg (fun d : MappingFile => d.users[(⟨"u1"⟩ : ScimId)]?) hdata
    cases this

end Headmaster.Scim
