import Mathlib.Data.List.Permutation
import Headmaster.Process.Serial
import Headmaster.Scim.Alone

/-!
# Serial orders of the requests on users

Requests on users that run at the same time, while calls to headscale may fail
and its accounts and policy change. `put_user` and `delete_user` read the record
in one section and write in another, where they do not look again whether the
user is still there.

* `PlacedInv` relates the store to the places of the requests; every call that
  writes only a record that is still there keeps it (`placed_act`).
* `serializable`: requests whose `put_user` and `delete_user` write only while
  the user is still there have a serial order.
-/

namespace Headmaster.Scim

open Process
open Policy (PolicyText)

variable {config : ScimConfig} {α : Type}

/-! ## The places of requests at the same time -/

/-- Where a request is among the points taken so far. -/
def Placed.At (points : List (Point ℕ Store)) (store : Store) (i : ℕ) : Placed → Prop
  | .start => ∀ p ∈ points, p.who ≠ i
  | .tentative s => ⟨i, s, s⟩ ∈ points
  | .fixed s s' => ⟨i, s, s'⟩ ∈ points ∧ Shrunk s' store

/-- The points taken so far lead to the store, one for each request that has read
    or written. -/
structure PlacedInv (s₀ store : Store) (ph : ℕ → Placed) (points : List (Point ℕ Store)) :
    Prop where
  linked : Linked s₀ points store
  nodup : (points.map (·.who)).Nodup
  placed : ∀ i, (ph i).At points store i

namespace PlacedInv

variable {s₀ store : Store} {ph : ℕ → Placed} {points : List (Point ℕ Store)} {i : ℕ}

theorem eq_of_mem (h : PlacedInv s₀ store ph points) {p q : Point ℕ Store} (hp : p ∈ points)
    (hq : q ∈ points) (hwho : p.who = q.who) : p = q :=
  List.inj_on_of_nodup_map h.nodup hp hq hwho

/-- A request takes effect. -/
theorem add (h : PlacedInv s₀ store ph points) (hi : ph i = .start) {store' : Store} {p' : Placed}
    (hshrunk : Shrunk store store')
    (hp' : ∀ points', p'.At (⟨i, store, store'⟩ :: points') store' i) :
    PlacedInv s₀ store' (Function.update ph i p') (⟨i, store, store'⟩ :: points) where
  linked := ⟨rfl, h.linked⟩
  nodup := by
    have hnew : (Placed.start).At points store i := hi ▸ h.placed i
    refine List.nodup_cons.2 ⟨fun hmem => ?_, h.nodup⟩
    obtain ⟨p, hp, hwho⟩ := List.mem_map.1 hmem
    exact hnew p hp hwho
  placed := by
    refine (Function.forall_update_iff ph _).2 ⟨hp' points, fun j hj => ?_⟩
    have hold := h.placed j
    match hphase : ph j, hold with
    | .start, hold => exact List.forall_mem_cons.2 ⟨hj.symm, hold⟩
    | .tentative _, hold => exact List.mem_cons_of_mem _ hold
    | .fixed _ _, hold =>
      exact ⟨List.mem_cons_of_mem _ hold.1, fun id hid => hold.2 id (hshrunk id hid)⟩

/-- A request that has only read has not taken effect for good. -/
theorem withdraw (h : PlacedInv s₀ store ph points) {s : Store} (hi : ph i = .tentative s) :
    PlacedInv s₀ store (Function.update ph i .start) (points.filter (·.who ≠ i)) where
  linked := by
    have hpoint : (Placed.tentative s).At points store i := hi ▸ h.placed i
    refine h.linked.withdraw fun p hp hwho => ?_
    rw [h.eq_of_mem hp hpoint hwho]
  nodup := h.nodup.sublist ((List.filter_sublist).map _)
  placed := by
    refine (Function.forall_update_iff ph _).2 ⟨fun p hp => ?_, fun j hj => ?_⟩
    · simpa using (List.mem_filter.1 hp).2
    · have hold := h.placed j
      match hphase : ph j, hold with
      | .start, hold => exact fun p hp => hold p (List.mem_filter.1 hp).1
      | .tentative _, hold => exact List.mem_filter.2 ⟨hold, by simpa using hj⟩
      | .fixed _ _, hold => exact ⟨List.mem_filter.2 ⟨hold.1, by simpa using hj⟩, hold.2⟩

end PlacedInv

/-! ### One call -/

theorem inAnyGroup_withoutUser {s s' : Store} {id : ScimId}
    (h : s'.data.groups = (Mapping.withoutUser s.data id).groups) : Shrunk s s' := by
  intro id' hid'
  simp only [Store.inAnyGroup, Mapping.groups, List.any_eq_true] at hid' ⊢
  obtain ⟨⟨gid, r'⟩, hmem, hcontains⟩ := hid'
  rw [Std.ExtTreeMap.mem_toList_iff_getElem?_eq_some, h, Mapping.withoutUser,
    Std.ExtTreeMap.getElem?_map, Option.map_eq_some_iff] at hmem
  obtain ⟨r, hr, rfl⟩ := hmem
  refine ⟨(gid, r), Std.ExtTreeMap.mem_toList_iff_getElem?_eq_some.2 hr, ?_⟩
  rw [List.contains_iff_mem] at hcontains ⊢
  exact (List.mem_filter.1 hcontains).1

/-- The sections of requests on users put nobody into a group. -/
theorem shrunk_exec {sec : Section} (h : sec.target?.isSome = true ∨ ∃ r, sec = .upsertUser r)
    (os : Os) (s : Store) : Shrunk s (sec.body.exec os s).2 := by
  rcases h with h | ⟨record, rfl⟩
  · cases sec with
    | setUser id record =>
      obtain ⟨files, hex⟩ := Section.exec_setUser os s id record
      rw [hex]
      exact fun _ hid => hid
    | removeUserAndFromGroups id =>
      obtain ⟨files, hex⟩ := Section.exec_removeUserAndFromGroups os s id
      rw [hex]
      cases os.flushError s.path with
      | none => exact inAnyGroup_withoutUser rfl
      | some e => exact fun _ hid => hid
    | _ => cases h
  · obtain ⟨files, hex⟩ := Section.exec_upsertUser os s record
    rw [hex]
    exact fun _ hid => hid

theorem act_store {o : Op} (ho : o.OnAccounts ∨ o.OnPolicy) (f : Fate) (w : World) :
    (act f o w).2.store = w.store := by
  match o, ho with
  | .lockPolicy, _ | .unlockPolicy, _ => rfl
  | .getPolicy, _ | .setPolicy _, _ | .listNodes, _ | .expireNode _, _ | .listUsers, _
  | .deleteUser _, _ => rfl

theorem serve_honest {w : World} {f : Fate} {r : Except Status α × Headscale}
    (hr : ∀ status, r.1 = .error status → status.policyNotFound = false) :
    ∀ status, (w.serve f r).1 = .error status → status.policyNotFound = false := by
  obtain ⟨os, outcome⟩ := f
  match outcome with
  | .served => exact hr
  | .failed failure _ =>
    rintro status hstatus
    rw [← Except.error.inj hstatus]
    exact failure.elsewhere

theorem act_honest (f : Fate) (o : Op) (w : World) : o.Honest (act f o w).1 := by
  match o with
  | .setPolicy _ | .listNodes | .listUsers =>
    exact serve_honest fun _ h => nomatch h
  | .expireNode id =>
    refine serve_honest fun status h => ?_
    rw [Headscale.expireNode] at h
    split at h
    · cases h
    · rw [← Except.error.inj h]
      decide
  | .deleteUser id =>
    refine serve_honest fun status h => ?_
    rw [Headscale.deleteUser] at h
    split at h
    · cases h
    · rw [← Except.error.inj h]
      decide
  | .locked _ | .lockPolicy | .unlockPolicy | .getPolicy => trivial

/-- The call writes the record of a user who was read before only while the user
    is still there. -/
def StillThere (w : World) : Op → Bool
  | .locked sec => sec.target?.all fun id => (w.store.mapping.getUser id).isSome
  | _ => true

variable {w : World} {s₀ : Store} {ph : ℕ → Placed} {points : List (Point ℕ Store)} {i : ℕ}

theorem placed_act_locked {sec : Section} {os : Os} (h : PlacedInv s₀ w.store ph points)
    (hallow : (ph i).allows (.locked sec)) (hthere : StillThere w (.locked sec) = true) :
    ∃ p', Moves (ph i) (.locked sec) (sec.body.exec os w.store).1 p' ∧
      ∃ points', PlacedInv s₀ (sec.body.exec os w.store).2 (Function.update ph i p') points' := by
  have hplace := h.placed i
  cases hi : ph i with
  | start =>
    rw [hi] at hallow
    -- only the upsert writes at once; every other section seen first is a read
    by_cases hwrites : ∃ record, sec = .upsertUser record
    · obtain ⟨record, rfl⟩ := hwrites
      exact ⟨_, .upsert record os w.store, _, h.add hi (shrunk_exec (.inr ⟨record, rfl⟩) os w.store)
        fun _ => ⟨List.mem_cons_self, fun _ hid => hid⟩⟩
    · have hread : sec.readOnly = true := by
        cases sec <;> first | exact hallow | exact absurd ⟨_, rfl⟩ hwrites
      refine ⟨_, .read hread os w.store, (⟨i, w.store, w.store⟩ : Point ℕ Store) :: points, ?_⟩
      rw [Section.exec_of_readOnly os w.store hread]
      exact h.add hi (fun _ hid => hid) fun _ => List.mem_cons_self
  | tentative s =>
    rw [hi] at hallow
    obtain ⟨id, hid⟩ := Option.isSome_iff_exists.1 hallow
    rw [StillThere, hid] at hthere
    -- the point at the read gives way to one at the write
    have hfixed : ∀ points', (Placed.fixed w.store (sec.body.exec os w.store).2).At
        (⟨i, w.store, (sec.body.exec os w.store).2⟩ :: points') (sec.body.exec os w.store).2 i :=
      fun _ => ⟨List.mem_cons_self, fun _ hid => hid⟩
    have hadd := (h.withdraw hi).add (Function.update_self ..)
      (shrunk_exec (.inl hallow) os w.store) hfixed
    rw [Function.update_idem] at hadd
    exact ⟨_, .write hid os s hthere, _, hadd⟩
  | fixed s s' =>
    rw [hi] at hallow hplace
    refine ⟨_, .look hallow os s hplace.2, points, ?_⟩
    rw [Section.exec_of_readOnly os w.store hallow, ← hi, Function.update_eq_self]
    exact h

/-- A call that is allowed keeps the requests at their places. -/
theorem placed_act {o : Op} {f : Fate} (h : PlacedInv s₀ w.store ph points)
    (hallow : (ph i).allows o) (hthere : StillThere w o = true) :
    ∃ p', Moves (ph i) o (act f o w).1 p' ∧
      ∃ points', PlacedInv s₀ (act f o w).2.store (Function.update ph i p') points' := by
  have stays : o.OnAccounts ∨ o.OnPolicy → Moves (ph i) o (act f o w).1 (ph i) →
      ∃ p', Moves (ph i) o (act f o w).1 p' ∧
        ∃ points', PlacedInv s₀ (act f o w).2.store (Function.update ph i p') points' := by
    intro ho hmoves
    refine ⟨_, hmoves, points, ?_⟩
    rw [act_store ho, Function.update_eq_self]
    exact h
  have hhonest := act_honest f o w
  cases o with
  | locked sec => exact placed_act_locked h hallow hthere
  | lockPolicy | unlockPolicy | getPolicy | setPolicy policy =>
    refine stays (.inr trivial) ?_
    generalize ph i = p at hallow ⊢
    match p, hallow with
    | .fixed s s', _ =>
      refine .policy ?_ s s' hhonest
      trivial
  | listNodes | expireNode id | listUsers | deleteUser id =>
    refine stays (.inl trivial) ?_
    generalize ph i = p at hallow ⊢
    match p, hallow with
    | .tentative s, _ =>
      refine .account ?_ s hhonest
      trivial

/-! ## Serial orders -/

/-- The server, while the accounts and the policy of headscale change in any way. -/
def unsteady : Machine sig World Fate Headscale where
  act := act
  ready := ready
  env headscale w := { w with headscale }

/-- Some order of the requests, one after the other, gives the same answers and takes
    the store from `s` to `s'`. -/
def Serializable (config : ScimConfig) (requests : List Request)
    (answers : List (Except ScimError Response)) (s s' : Store) : Prop :=
  ∃ order : List ℕ, order.Perm (List.range requests.length) ∧
    Chain (fun i s s' => ∃ request r, requests[i]? = some request ∧ answers[i]? = some r ∧
      Alone config request r s s') s order s'

/-- Requests on users whose `put_user` and `delete_user` write only while the user is
    still there have a serial order. -/
theorem serializable {requests : List Request} (husers : ∀ r ∈ requests, r.onUsers = true)
    {w₀ : World} {events : List (Event Fate Headscale)} {s : Pool sig ScimError Response World}
    (hexec : unsteady.exec (concurrently config requests w₀) events = some s)
    (hthere : ∀ e ∈ s.history, StillThere e.before e.op = true)
    {answers : List (Except ScimError Response)} (hended : s.threads = answers.map .ret) :
    Serializable config requests answers w₀.store s.world.store := by
  have hstart : Machine.Follows placing (fun i r p => ∀ request, requests[i]? = some request →
      AtPlace (handle config request) r p) (concurrently config requests w₀).threads
        fun _ => .start := by
    intro i p hp
    obtain ⟨request, hrequest, rfl⟩ := List.getElem?_map .. ▸ hp |> Option.map_eq_some_iff.1
    refine Prog.wp_mono (fun r p' h request' hrequest' => ?_)
      (placed_handle (husers request (List.mem_of_getElem? hrequest)))
    rw [← Option.some.inj (hrequest.symm.trans hrequest')]
    exact h
  obtain ⟨ph, hfollows, ⟨points, hinv⟩, hout⟩ := Machine.exec_phases
    (M := unsteady.restrict StillThere) placing _
    (fun w _ ph => ∃ points, PlacedInv w₀.store w.store ph points)
    (fun w _ ph i o f ⟨points, h⟩ hallow hready =>
      placed_act h hallow (Bool.and_eq_true_iff.1 hready).2)
    (fun _ _ _ _ h => h) hstart ⟨[], rfl, List.nodup_nil, fun _ => nofun⟩
    (Machine.exec_restrict hexec hthere)
  have hlen : answers.length = requests.length := by
    have := Machine.exec_length hexec
    simpa [hended, concurrently] using this
  -- what each request answered, it may answer alone at its place
  have hanswer : ∀ i, i < requests.length → ∃ request r, requests[i]? = some request ∧
      answers[i]? = some r ∧ AtPlace (handle config request) r (ph i) := by
    intro i hi
    have hrequest := List.getElem?_eq_getElem hi
    have hr := List.getElem?_eq_getElem (hlen.symm ▸ hi : i < answers.length)
    refine ⟨_, _, hrequest, hr, hfollows.of_result (i := i) ?_ _ hrequest⟩
    rw [hended, List.getElem?_map, hr, Option.map_some]
  have hwho : ∀ p ∈ points, p.who < requests.length := by
    intro p hp
    by_contra hge
    have hplace := hinv.placed p.who
    rw [hout p.who (by simpa [concurrently] using hge)] at hplace
    exact hplace p hp rfl
  refine ⟨points.reverse.map (·.who) ++ (List.range requests.length).filter
    (fun i => i ∉ points.map (·.who)), ?_, ?_⟩
  · refine (List.perm_ext_iff_of_nodup ?_ List.nodup_range).2 fun i => ?_
    · refine List.Nodup.append ?_ (List.nodup_range.filter _) fun i hi hi' => ?_
      · rw [List.map_reverse, List.nodup_reverse]
        exact hinv.nodup
      · rw [List.map_reverse, List.mem_reverse] at hi
        simpa [hi] using (List.mem_filter.1 hi').2
    · rw [List.mem_append, List.map_reverse, List.mem_reverse, List.mem_filter, List.mem_range,
        decide_eq_true_iff]
      constructor
      · rintro (hi | hi)
        · obtain ⟨p, hp, rfl⟩ := List.mem_map.1 hi
          exact hwho p hp
        · exact hi.1
      · exact fun hi => (em _).imp_right fun hnot => ⟨hi, hnot⟩
  · refine (hinv.linked.chain fun p hp => ?_).append fun i hi => ?_
    · obtain ⟨request, r, hrequest, hr, hat⟩ := hanswer p.who (hwho p hp)
      refine ⟨request, r, hrequest, hr, .of_ends ?_⟩
      have hplace := hinv.placed p.who
      match hphase : ph p.who, hplace, hat with
      | .start, hplace, _ => exact absurd rfl (hplace p hp)
      | .tentative s, hplace, hat =>
        rw [hinv.eq_of_mem hp hplace rfl]
        exact hat
      | .fixed s s', hplace, hat =>
        rw [hinv.eq_of_mem hp hplace.1 rfl]
        exact hat
    · obtain ⟨hi, hnot⟩ := List.mem_filter.1 hi
      obtain ⟨request, r, hrequest, hr, hat⟩ := hanswer i (List.mem_range.1 hi)
      refine ⟨request, r, hrequest, hr, .of_ends ?_⟩
      have hplace := hinv.placed i
      have hnot : i ∉ points.map (·.who) := by simpa using hnot
      match hphase : ph i, hplace, hat with
      | .start, _, hat => exact hat _
      | .tentative s, hplace, _ => exact absurd (List.mem_map.2 ⟨_, hplace, rfl⟩) hnot
      | .fixed s s', hplace, _ => exact absurd (List.mem_map.2 ⟨_, hplace.1, rfl⟩) hnot

/-- The next call of a request. -/
abbrev next (i : ℕ) : Event Fate Headscale := .act i {}

/-- Alice is replaced and then deleted. -/
theorem serializable_put_delete :
    let alice : UserRecord := ⟨true, "alice", none, none, none, 0⟩
    let requests : List Request :=
      [.putUser "u1" { userName := some "alice", active := some true }, .deleteUser "u1"]
    ∃ s answers, unsteady.exec (concurrently {} requests (mappingOf "u1" alice))
      (List.replicate 3 (next 0) ++ List.replicate 6 (next 1)) = some s ∧
    Serializable {} requests answers (mappingOf "u1" alice).store s.world.store := by
  intro alice requests
  have hrun : (unsteady.exec (concurrently {} requests (mappingOf "u1" alice))
      (List.replicate 3 (next 0) ++ List.replicate 6 (next 1))).any
        (fun s => s.threads.all (·.result?.isSome) &&
          s.history.all fun e => StillThere e.before e.op) = true := by decide +kernel
  obtain ⟨s, hs, hcheck⟩ := Option.any_eq_true _ _ |>.1 hrun
  obtain ⟨hended, hthere⟩ := Bool.and_eq_true_iff.1 hcheck
  exact ⟨s, _, hs, serializable (by decide) hs (List.all_eq_true.1 hthere)
    (Prog.eq_map_ret hended)⟩

/-- Alone, a `delete_user` that returns `Ok` leaves no such user. -/
theorem alone_deleteUser {id : String} {a : Response} {s s' : Store}
    (h : Alone config (.deleteUser id) (.ok a) s s') : s'.mapping.getUser ⟨id⟩ = none := by
  obtain ⟨headscale, w', hreaches, rfl⟩ := h
  refine hreaches.of_wp (Q := fun r w' => ∀ a, r = .ok a →
    w'.store.mapping.getUser ⟨id⟩ = none) ?_ a rfl
  refine Prog.wp_bind.2 (Prog.wp_bind.2
    (wp_readUser (fun record _ => ?_) fun _ _ he => nomatch he))
  refine Prog.wp_bind.2 (wp_deleteHeadscaleUser (fun r users => ?_) fun _ _ he => nomatch he)
  rcases r with e | _
  · exact fun _ he => nomatch he
  refine Prog.wp_bind.2
    (wp_removeUserAndFromGroups (fun files => ?_) fun _ _ _ he => nomatch he)
  exact wp_reconcileGroupsPolicy (fun _ _ _ _ => Std.ExtTreeMap.getElem?_erase_self)
    fun _ _ _ _ he => nomatch he

/-- Alone, a `put_user` that returns `Ok` has found the user. -/
theorem alone_putUser {id : String} {body : UserBody} {a : Response} {s s' : Store}
    (h : Alone config (.putUser id body) (.ok a) s s') : s.mapping.getUser ⟨id⟩ ≠ none := by
  have herr (e : ScimError) : ∀ a : Response, Except.error e ≠ .ok a := fun _ => nofun
  obtain ⟨headscale, w', hreaches, rfl⟩ := h
  intro hnone
  refine hreaches.of_wp (Q := fun r _ => ∀ a, r ≠ .ok a) ?_ a rfl
  refine Prog.wp_bind.2 ?_
  rw [putUser]
  split
  · split
    · rcases checkExternalId_cases config body with hcheck | hcheck
      · rw [hcheck]
        exact herr _
      · rw [hcheck, Prog.pure_bind]
        refine Prog.wp_bind.2 (wp_readUser (fun record hrecord => ?_) fun _ => herr _)
        rw [hnone] at hrecord
        cases hrecord
    · exact herr _
  · exact herr _

/-- Alice is read by a `put_user`, deleted, and then stored again. -/
theorem not_serializable_put_after_delete :
    let alice : UserRecord := ⟨true, "alice", none, none, none, 0⟩
    let requests : List Request :=
      [.putUser "u1" { userName := some "alice", active := some true }, .deleteUser "u1"]
    ∃ s answers, unsteady.exec (concurrently {} requests (mappingOf "u1" alice))
      (next 0 :: List.replicate 6 (next 1) ++ List.replicate 2 (next 0)) = some s ∧
    s.threads = answers.map .ret ∧
    ¬Serializable {} requests answers (mappingOf "u1" alice).store s.world.store := by
  intro alice requests
  have hrun : (unsteady.exec (concurrently {} requests (mappingOf "u1" alice))
      (next 0 :: List.replicate 6 (next 1) ++ List.replicate 2 (next 0))).any
        (fun s => s.threads.all (·.returnedOk) &&
          (s.world.store.mapping.getUser ⟨"u1"⟩).isSome) = true := by decide +kernel
  obtain ⟨s, hs, hcheck⟩ := Option.any_eq_true _ _ |>.1 hrun
  obtain ⟨hok, hsome⟩ := Bool.and_eq_true_iff.1 hcheck
  obtain ⟨p, q, hthreads⟩ := List.length_eq_two.1 (Machine.exec_length hs)
  rw [hthreads, List.all_cons, List.all_cons, Bool.and_eq_true, Bool.and_eq_true] at hok
  obtain ⟨a, rfl⟩ := Prog.returnedOk_iff.1 hok.1
  obtain ⟨b, rfl⟩ := Prog.returnedOk_iff.1 hok.2.1
  refine ⟨s, [.ok a, .ok b], hs, hthreads, ?_⟩
  rintro ⟨order, hperm, hchain⟩
  have horder : order = [0, 1] ∨ order = [1, 0] := by
    have hmem : order ∈ [[0, 1], [1, 0]] := List.mem_permutations'.2 hperm
    simpa using hmem
  rcases horder with rfl | rfl
  · -- the deletion would come last, and leave no Alice
    obtain ⟨s₁, _, request, r, hrequest, hr, hlast⟩ := Chain.of_concat [0] 1 hchain
    cases hrequest
    cases hr
    rw [alone_deleteUser hlast] at hsome
    cases hsome
  · -- the replacement would come after the deletion, and not find Alice
    obtain ⟨s₁, hfirst, request, r, hrequest, hr, hlast⟩ :=
      Chain.of_concat [1] 0 hchain
    obtain ⟨_, _, request', r', hrequest', hr', hdelete⟩ :=
      Chain.of_concat [] 1 hfirst
    cases hrequest
    cases hr
    cases hrequest'
    cases hr'
    exact alone_putUser hlast (alone_deleteUser hdelete)

end Headmaster.Scim
