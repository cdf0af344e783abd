import Headmaster.Scim.Session

/-!
# Healing after a failed reconcile

The mapping is persisted before the policy is written, so a failed write leaves
the groups of the policy behind the mapping until another request writes them.

Every request that changes the mapping reconciles before it returns `Ok`
(`Settles`), with one exception: `put_user` on a user who is to be active and is
in no group. That request leaves the groups as far behind as they were
(`wp_putUser`). So every change of the mapping that returns `Ok` leaves the
groups in sync in the sessions where such a `put_user` only comes when they are
in sync (`inSync_after_ok`).
-/

namespace Headmaster.Scim

open Process
open Policy (PolicyText)

variable {α β : Type} {config : ScimConfig}

/-! ## Parts that keep, reach and preserve -/

/-- The part keeps the live policy well formed. -/
def Keeps (p : M α) : Prop :=
  ∀ w, w.OneGroups → p.wp anyFate (fun _ w' => w'.OneGroups) w

/-- The part keeps the groups in sync. -/
def KeepsSync (config : ScimConfig) (p : M α) : Prop :=
  ∀ w, w.OneGroups → InSync config w →
    p.wp anyFate (fun _ w' => w'.OneGroups ∧ InSync config w') w

/-- The part leaves the groups in sync when it returns `Ok`. -/
def Settles (config : ScimConfig) (p : M α) : Prop :=
  ∀ w, w.OneGroups →
    p.wp anyFate (fun r w' => w'.OneGroups ∧ ∀ a, r = .ok a → InSync config w') w

theorem keeps_locked (s : Section) : Keeps (locked s) :=
  fun _ h => wp_locked.2 fun _ => h

theorem keeps_deleteHeadscaleUser (record : UserRecord) :
    Keeps (deleteHeadscaleUser config record) :=
  fun _ h => wp_deleteHeadscaleUser (fun _ _ => h) fun _ => h

theorem keepsSync_pure (a : α) : KeepsSync config (pure a) := fun _ h hsync => ⟨h, hsync⟩

theorem keepsSync_locked {s : Section} (hs : s.readOnly = true) : KeepsSync config (locked s) := by
  intro w h hsync
  refine wp_locked.2 fun os => ?_
  rw [Section.exec_of_readOnly os w.store hs]
  exact ⟨h, hsync⟩

theorem settles_throw (e : ScimError) : Settles config (throw e : M α) :=
  fun _ h => ⟨h, fun _ he => nomatch he⟩

theorem settles_reconcile : Settles config (reconcileGroupsPolicy config) :=
  fun _ h => wp_reconcileGroupsPolicy (fun _ hpolicy => ⟨(hpolicy h).1, fun _ _ => (hpolicy h).2⟩)
    fun _ _ hpolicy => ⟨hpolicy h, fun _ he => nomatch he⟩

/-- What comes before a reconcile does not matter. -/
theorem Settles.after {p : M α} {f : α → M β} (hp : Keeps p) (hf : ∀ a, Settles config (f a)) :
    Settles config (p >>= f) := by
  intro w h
  refine Prog.wp_bind.2 (Prog.wp_mono ?_ (hp w h))
  rintro (e | a) w' h'
  · exact ⟨h', fun _ he => nomatch he⟩
  · exact hf a w' h'

/-- What comes after a reconcile may only read. -/
theorem Settles.andThen {p : M α} {f : α → M β} (hp : Settles config p)
    (hf : ∀ a, KeepsSync config (f a)) : Settles config (p >>= f) := by
  intro w h
  refine Prog.wp_bind.2 (Prog.wp_mono ?_ (hp w h))
  rintro (e | a) w' ⟨h', hsync⟩
  · exact ⟨h', fun _ he => nomatch he⟩
  · exact Prog.wp_mono (fun r w'' h'' => ⟨h''.1, fun _ _ => h''.2⟩) (hf a w' h' (hsync a rfl))

/-! ## Requests that reconcile -/

theorem settles_createUser (body : UserBody) : Settles config (createUser config body) := by
  rw [createUser]
  split
  · rw [checkExternalId]
    split
    · exact settles_throw _
    · exact .after (fun w h => h) fun _ => .after (keeps_locked _) fun (_, _) =>
        settles_reconcile.andThen fun _ => keepsSync_pure _
  · exact settles_throw _

theorem settles_deleteUserRequest (id : String) : Settles config (deleteUserRequest config id) :=
  .after (keeps_locked _) fun _ => .after (keeps_deleteHeadscaleUser _) fun _ =>
    .after (keeps_locked _) fun _ => settles_reconcile

theorem keeps_requireDisplayName (body : GroupBody) : Keeps (requireDisplayName body) := by
  intro w h
  rw [requireDisplayName]
  split <;> exact h

theorem settles_createGroup (body : GroupBody) : Settles config (createGroup config body) :=
  .after (keeps_requireDisplayName body) fun _ => .after (keeps_locked _) fun (_, _, _) =>
    settles_reconcile.andThen fun _ w h hsync =>
      Prog.wp_bind.2 <| Prog.wp_mono
        (fun r w' h' => by cases r <;> exact h') (keepsSync_locked rfl w h hsync)

theorem settles_putGroup (id : String) (body : GroupBody) :
    Settles config (putGroup config id body) :=
  .after (keeps_requireDisplayName body) fun _ => .after (keeps_locked _) fun _ =>
    settles_reconcile.andThen fun _ => keepsSync_locked rfl

theorem settles_deleteGroup (id : String) : Settles config (deleteGroup config id) :=
  .after (keeps_locked _) fun _ => settles_reconcile

/-! ## Replacing a user -/

/-- The user is in no group. -/
def World.Ungrouped (w : World) (id : ScimId) : Prop := ∀ g ∈ w.store.mapping.groups, id ∉ g.2.members

/-- Storing the record of a user who is in no group keeps the groups as far in
    sync as they were. -/
theorem inSync_setUser_iff {w : World} {id : ScimId} {record : UserRecord} {files : Files}
    (hid : w.Ungrouped id) :
    InSync config (w.withStore (w.store.putUser id record files)) ↔ InSync config w := by
  rw [InSync]
  simp only [World.withStore, Store.putUser, Store.withData, desiredGroups_insert config hid]
  rfl

/-- Alone, the reconcile of `put_user` is skipped for an active user who is in no
    group, and otherwise leaves the groups in sync when it returns `Ok`. -/
theorem wp_reconcileAfterPut {w : World} (id : ScimId) (active : Bool) (h : w.OneGroups) :
    (reconcileAfterPut config id active).wp anyFate (fun r w' => w'.OneGroups ∧ ∀ a, r = .ok a →
      (active = true ∧ w.Ungrouped id → w' = w) ∧
        (¬(active = true ∧ w.Ungrouped id) → InSync config w')) w := by
  have hskip : (!active || w.store.mapping.groups.any fun g => g.2.members.contains id) = false ↔
      active = true ∧ w.Ungrouped id := by
    simp [World.Ungrouped]
  refine Prog.wp_bind.2 (wp_isInAnyGroup.2 ?_)
  simp only [Post.andThen_ok]
  split
  · rename_i hrec
    refine Prog.wp_mono (fun r w' h' => ⟨h'.1, fun a ha => ⟨fun hs => ?_, fun _ => h'.2 a ha⟩⟩)
      (settles_reconcile w h)
    rw [hskip.2 hs] at hrec
    cases hrec
  · rename_i hrec
    exact ⟨h, fun _ _ => ⟨fun _ => rfl, fun hs => absurd (hskip.1 (Bool.eq_false_iff.2 hrec)) hs⟩⟩

/-- Alone, `put_user` leaves the groups as far in sync as they were when the user
    is to be active and is in no group, and otherwise in sync when it returns
    `Ok`. -/
theorem wp_putUser {w : World} (id : String) (body : UserBody) (h : w.OneGroups) :
    (putUser config id body).wp anyFate (fun r w' => w'.OneGroups ∧ ∀ a, r = .ok a →
      (body.active = some true ∧ w.Ungrouped ⟨id⟩ → (InSync config w' ↔ InSync config w)) ∧
        (¬(body.active = some true ∧ w.Ungrouped ⟨id⟩) → InSync config w')) w := by
  have herr : ∀ (e : ScimError) (w' : World), w'.OneGroups → w'.OneGroups ∧
      ∀ a, (.error e : Except ScimError ScimUser) = .ok a →
        (body.active = some true ∧ w.Ungrouped ⟨id⟩ → (InSync config w' ↔ InSync config w)) ∧
          (¬(body.active = some true ∧ w.Ungrouped ⟨id⟩) → InSync config w') :=
    fun e w' h' => ⟨h', fun _ he => nomatch he⟩
  -- a put that stops before its reconcile returns an error, of which nothing is claimed
  rw [putUser]
  split
  · split
    · rename_i userName _ _ active hactive
      refine Prog.wp_bind.2 ?_
      rw [checkExternalId]
      split
      · exact herr _ _ h
      · refine Prog.wp_bind.2 (wp_readUser (fun oldRecord _ => ?_) fun _ => herr _ w h)
        refine Prog.wp_bind.2 (wp_expireBeforePut (fun r => ?_) fun e => herr e w h)
        rcases r with e | _
        · exact herr e _ h
        refine Prog.wp_bind.2 (wp_setUser fun r os files => ?_)
        rcases r with e | stored
        · exact herr e _ h
        refine Prog.wp_bind.2 (Prog.wp_mono ?_ (wp_reconcileAfterPut ⟨id⟩ active h))
        rintro (e | _) w' ⟨h', hrec⟩
        · exact herr e w' h'
        obtain ⟨hskip, hsettle⟩ := hrec () rfl
        rw [hactive, Option.some.injEq]
        -- an active user in no group needs no reconcile: the groups the policy should hold are the same
        refine ⟨h', fun _ _ => ⟨fun hs => ?_, hsettle⟩⟩
        rw [hskip hs]
        exact inSync_setUser_iff hs.2
    · exact herr _ _ h
  · exact herr _ _ h

/-! ## Sessions -/

/-- The request may change the mapping. -/
def Request.mutates : Request → Bool
  | createUser _ | putUser _ _ | deleteUser _ | createGroup _ | putGroup _ _ | deleteGroup _ => true
  | _ => false

/-- The request is a `put_user` on a user who is to be active and is in no
    group, so it does not reconcile. -/
def World.Skips (w : World) : Request → Prop
  | .putUser id body => body.active = some true ∧ w.Ungrouped ⟨id⟩
  | _ => False

/-- Alone, a request that may change the mapping leaves the groups as far in sync
    as they were when it skips the reconcile, and otherwise in sync when it
    returns `Ok`. -/
theorem wp_handle {w : World} {r : Request} (hr : r.mutates = true) (h : w.OneGroups) :
    (handle config r).wp anyFate (fun res w' => w'.OneGroups ∧ ∀ a, res = .ok a →
      (w.Skips r → (InSync config w' ↔ InSync config w)) ∧
        (¬w.Skips r → InSync config w')) w := by
  have settled : ∀ {p : M Response}, ¬w.Skips r → Settles config p → p.wp anyFate
      (fun res w' => w'.OneGroups ∧ ∀ a, res = .ok a →
        (w.Skips r → (InSync config w' ↔ InSync config w)) ∧
          (¬w.Skips r → InSync config w')) w :=
    fun hs hp => Prog.wp_mono
      (fun _ _ h' => ⟨h'.1, fun a ha => ⟨fun hs' => absurd hs' hs, fun _ => h'.2 a ha⟩⟩) (hp w h)
  cases r with
  | createUser body => exact settled id ((settles_createUser body).andThen fun _ => keepsSync_pure _)
  | putUser id body =>
    refine Prog.wp_bind.2 (Prog.wp_mono ?_ (wp_putUser id body h))
    rintro (e | user) w' ⟨h', hsync⟩
    · exact ⟨h', fun _ he => nomatch he⟩
    · exact ⟨h', fun _ _ => hsync user rfl⟩
  | deleteUser _ =>
    exact settled id ((settles_deleteUserRequest _).andThen fun _ => keepsSync_pure _)
  | createGroup body =>
    exact settled id ((settles_createGroup body).andThen fun _ => keepsSync_pure _)
  | putGroup _ body =>
    exact settled id ((settles_putGroup _ body).andThen fun _ => keepsSync_pure _)
  | deleteGroup _ => exact settled id ((settles_deleteGroup _).andThen fun _ => keepsSync_pure _)
  | _ => cases hr

theorem keeps_handle (r : Request) : Keeps (handle config r) := by
  intro w h
  by_cases hr : r.mutates = true
  · exact Prog.wp_mono (fun _ _ h' => h'.1) (wp_handle hr h)
  · have read : ∀ {γ : Type} {p : M γ} {f : γ → Response}, Keeps p →
        (do return f (← p) : M Response).wp anyFate (fun _ w' => w'.OneGroups) w := fun hp =>
      Prog.wp_bind.2 <| Prog.wp_mono (fun r w' h' => by cases r <;> exact h') (hp w h)
    cases r with
    | listUsers => exact read (keeps_locked _)
    | getUser id => exact read (keeps_locked _)
    | listGroups => exact read (keeps_locked _)
    | getGroup id => exact read (keeps_locked _)
    | reconcile =>
      exact Prog.wp_mono (fun _ _ h' => h'.1)
        ((settles_reconcile.andThen fun _ => keepsSync_pure _) w h)
    | _ => exact absurd rfl hr

theorem oneGroups_afterTurns {w : World} (h : w.OneGroups) (turns : List Turn) :
    (afterTurns config w turns).OneGroups :=
  afterTurns_induction (P := World.OneGroups)
    (fun w' t h' => t.run_of_wp config (keeps_handle t.request (machine.env t.accounts w') h'))
    h turns

/-- Every request that may change the mapping and returns `Ok` leaves the groups
    of the live policy as the mapping asks. -/
def SelfHeals (config : ScimConfig) (w : World) (turns : List Turn) : Prop :=
  ∀ before t a, TakenAfter turns before t → t.request.mutates = true →
    (t.run config (afterTurns config w before)).1 = .ok a →
      InSync config (afterTurns config w (before ++ [t]))

/-- What a turn that may change the mapping leaves, when it returns `Ok`. -/
theorem inSync_run {w : World} {t : Turn} {a : Response} (h : w.OneGroups)
    (hmut : t.request.mutates = true) (hok : (t.run config w).1 = .ok a) :
    (w.Skips t.request → (InSync config (t.run config w).2 ↔ InSync config w)) ∧
      (¬w.Skips t.request → InSync config (t.run config w).2) := by
  have hskips : (machine.env t.accounts w).Skips t.request ↔ w.Skips t.request := by
    cases t.request <;> exact Iff.rfl
  have hpost := (t.run_of_wp config (wp_handle (w := machine.env t.accounts w) hmut h)).2 a hok
  rw [hskips] at hpost
  exact hpost

/-- A session heals itself when every `put_user` on a user who is to be active and
    is in no group comes while the groups are in sync. -/
theorem selfHeals {w : World} {turns : List Turn} (h : w.OneGroups)
    (hskip : ∀ before t, TakenAfter turns before t →
      (afterTurns config w before).Skips t.request → InSync config (afterTurns config w before)) :
    SelfHeals config w turns := by
  intro before t a htaken hmut hok
  obtain ⟨hiff, hsettle⟩ := inSync_run (oneGroups_afterTurns h before) hmut hok
  rw [afterTurns_concat]
  by_cases hs : (afterTurns config w before).Skips t.request
  · exact (hiff hs).2 (hskip before t htaken hs)
  · exact hsettle hs

/-- Alice is created, and replaced while she is in no group. -/
theorem selfHeals_replaced : SelfHeals {} { store := { mapping := { path := ⟨"", "m", none⟩ } } }
    [⟨.createUser { userName := some "alice" }, ⟨[], []⟩, [{ os := { uuid := "u1" } }]⟩,
      ⟨.putUser "u1" { userName := some "alice", active := some true }, ⟨[], []⟩, []⟩] := by
  refine selfHeals trivial fun before t htaken hskips => ?_
  match before, htaken with
  | [], htaken =>
    obtain ⟨rfl, _⟩ := List.cons_prefix_cons.1 htaken
    exact hskips.elim
  | [t₁], htaken =>
    obtain ⟨rfl, _⟩ := List.cons_prefix_cons.1 htaken
    have hok : (Turn.run {} ⟨.createUser { userName := some "alice" }, ⟨[], []⟩,
        [{ os := { uuid := "u1" } }]⟩ { store := { mapping := { path := ⟨"", "m", none⟩ } } }).1 =
          .ok (.userCreated true (userRecordToScim ⟨"u1"⟩ ⟨true, "alice", none, none, none, 0⟩)) := by
      decide +kernel
    exact (inSync_run (by exact trivial) rfl hok).2 id
  | t₁ :: t₂ :: before, htaken =>
    have := htaken.length_le
    simp at this

/-- A group is emptied, but the policy is not written; then the user it had is
    replaced, and keeps access. -/
theorem not_selfHeals_after_failed_write :
    ¬SelfHeals {} { store := { mapping := { path := ⟨"", "m", none⟩ } } }
      [⟨.createUser { userName := some "alice", emails := some [⟨"alice@example.com", true⟩] },
          ⟨[], []⟩, [{ os := { uuid := "u1" } }]⟩,
        ⟨.createGroup { displayName := some "eng", members := some [⟨"u1", none⟩] }, ⟨[], []⟩,
          [{ os := { uuid := "g1" } }]⟩,
        ⟨.putGroup "g1" { displayName := some "eng", members := some [] }, ⟨[], []⟩,
          [{}, {}, {}, {}, .failing]⟩,
        ⟨.putUser "u1"
          { userName := some "alice", active := some true, emails := some [⟨"alice@example.com", true⟩] },
          ⟨[], []⟩, []⟩] := by
  intro h
  have hsync := h [_, _, _] _
    (.user (userRecordToScim ⟨"u1"⟩ ⟨true, "alice", none, some "alice@example.com", none, 0⟩))
    List.prefix_rfl rfl (by decide +kernel)
  have hgroups := congrArg (Policy.groupTokens "group:eng") hsync
  revert hgroups
  decide +kernel

/-- A session that heals itself makes every `put_user` that skips the reconcile,
    and returns `Ok`, while the groups are in sync. -/
theorem SelfHeals.inSync_before_skip {w : World} {turns : List Turn} (h : w.OneGroups)
    (hheals : SelfHeals config w turns) {before : List Turn} {t : Turn} {a : Response}
    (htaken : TakenAfter turns before t) (hskips : (afterTurns config w before).Skips t.request)
    (hok : (t.run config (afterTurns config w before)).1 = .ok a) :
    InSync config (afterTurns config w before) := by
  have hmut : t.request.mutates = true := by
    cases hr : t.request <;> rw [hr] at hskips <;> first | rfl | exact hskips.elim
  have hsync := hheals before t a htaken hmut hok
  rw [afterTurns_concat] at hsync
  exact ((inSync_run (oneGroups_afterTurns h before) hmut hok).1 hskips).1 hsync

end Headmaster.Scim
