import Std.Data.String.ToNat
import Headmaster.Process.Trace
import Headmaster.Operator.Proxy.Cluster

/-!
# The release of an object

A deployment that gives an object up takes its finalizer off, and leaves those
of others. It sets the whole list, computed from a read, under the condition
that the object is still of the version read (`releaseFinalizer`). Releases of
any objects, by any deployments, run as threads on a server where everybody
else may write, too (`releasing`). What each takes off is its own finalizer from
the list as it is at that moment; when the object was written since the read,
nothing (`release_keeps_finalizers`).
-/

namespace Headmaster.Operator.Proxy

open Process (Machine Pool Made Entry trace)
open Process.Prog (wp_bind_op wp_op_tracing)

/-! ## The server -/

/-- An object, as far as its finalizers go. -/
structure Owned where
  finalizers : List String
  deleting : Bool := false

/-- One that is being deleted is gone with its last finalizer. -/
def Owned.settle (o : Owned) : Option Owned :=
  if o.deleting && o.finalizers.isEmpty then none else some o

/-- An object, unless it does not exist, and how often it was written. -/
structure Written where
  object : Option Owned := none
  writes : Nat := 0

namespace Written

variable (x : Written)

def finalizers : List String := (x.object.map (·.finalizers)).getD []

def write (object : Option Owned) : Written := ⟨object, x.writes + 1⟩

/-- The name of the version it is in; no two versions have the same. -/
def resourceVersion : String := x.writes.repr

def get : Except KubeError LiveObject :=
  match x.object with
  | none => .error .notFound
  | some o => .ok ⟨o.finalizers, some x.resourceVersion⟩

/-- A patch that leaves the status as it is writes nothing. -/
def clearStatus (unchanged : Bool) : Except KubeError Unit × Written :=
  match x.object with
  | none => (.error .notFound, x)
  | some o => (.ok (), if unchanged then x else x.write (some o))

/-- A patch of another version than the current one is a conflict. -/
def release (resourceVersion : String) (finalizers : List String) :
    Except KubeError Unit × Written :=
  match x.object with
  | none => (.error .notFound, x)
  | some o =>
    if resourceVersion = x.resourceVersion then
      (.ok (), x.write ({ o with finalizers } : Owned).settle)
    else
      (.error .other, x)

end Written

abbrev Objects := ObjectReference → Written

/-- How a request goes: it may fail, possibly after it had its effect; whether the status is as the
    patch wants it; and the answers to all other requests. -/
structure ServerFate where
  failure : Option Bool := none
  unchanged : Bool := false
  answer : (o : Op) → o.Ans

def ServerFate.serve {α : Type} (f : ServerFate) (w : Objects) (parent : ObjectReference)
    (r : Except KubeError α × Written) : Except KubeError α × Objects :=
  match f.failure with
  | none => (r.1, Function.update w parent r.2)
  | some effect => (.error .other, if effect then Function.update w parent r.2 else w)

def serveObject (f : ServerFate) : (o : Op) → Objects → o.Ans × Objects
  | .getParent parent, w => f.serve w parent ((w parent).get, w parent)
  | .patchParent parent .clearStatus, w => f.serve w parent ((w parent).clearStatus f.unchanged)
  | .patchParent parent (.release resourceVersion finalizers), w =>
    f.serve w parent ((w parent).release resourceVersion finalizers)
  | o, w => (f.answer o, w)

/-- Others may write any object. -/
def objectServer : Machine sig Objects ServerFate (ObjectReference × Option Owned) where
  act := serveObject
  ready _ _ := true
  env g w := Function.update w g.1 ((w g.1).write g.2)

/-! ## Releases -/

/-- The release of an object by a deployment. -/
inductive Release
  | ingress (dep : Deployment) (ing : RoutedIngress)
  | service (dep : Deployment) (svc : PortedService)

namespace Release

def parent : Release → ObjectReference
  | ingress _ ing => ing.parent
  | service _ svc => svc.parent

def ourFinalizer : Release → String
  | ingress dep _ | service dep _ => finalizer dep.operatorNamespace

def process : Release → M Unit
  | ingress dep ing => ing.release dep
  | service dep svc => releaseFinalizer dep svc.parent

end Release

/-- Releases that are about to be made at the same time. -/
def releasing (releases : List Release) (w : Objects) : Pool sig Error Unit Objects where
  world := w
  threads := releases.map Release.process

/-- What a release may call: after its read, the patch that follows from it, as the last call. -/
def Release.allows (r : Release) (tr : List (Made sig)) : Op → Prop
  | .getParent parent => parent = r.parent ∧ ∀ c ∈ tr, c.op ≠ .getParent r.parent
  | .patchParent parent .clearStatus => parent = r.parent ∧ tr = []
  | .patchParent parent (.release resourceVersion finalizers) => parent = r.parent ∧
    ∃ live tr', tr = ⟨.getParent r.parent, .ok live⟩ :: tr' ∧
      (∀ c ∈ tr', c.op ≠ .getParent r.parent) ∧ resourceVersion = live.resourceVersion.getD "" ∧
      finalizers = live.finalizers.filter (· ≠ r.ourFinalizer)
  | _ => False

/-- It returns `Ok` when its last call, the patch, was answered so. -/
def Release.returns (r : Release) (res : Except Error Unit) (tr : List (Made sig)) : Prop :=
  res = .ok () → ∃ resourceVersion finalizers tr',
    tr = ⟨.patchParent r.parent (.release resourceVersion finalizers), .ok ()⟩ :: tr'

theorem wp_releaseFinalizer {r : Release} {dep : Deployment} (hdep : finalizer dep.operatorNamespace =
    r.ourFinalizer) {tr : List (Made sig)} (htr : ∀ c ∈ tr, c.op ≠ .getParent r.parent) :
    (releaseFinalizer dep r.parent).wp (.tracing r.allows) r.returns tr := by
  refine wp_bind_op.2 ⟨⟨rfl, htr⟩, fun live => ?_⟩
  match live with
  | .error e => exact fun h => nomatch h
  | .ok live =>
    refine wp_bind_op.2 ⟨⟨rfl, live, tr, rfl, htr, rfl, hdep ▸ rfl⟩, fun a => ?_⟩
    match a with
    | .error e => exact fun h => nomatch h
    | .ok () => exact fun _ => ⟨_, _, _, rfl⟩

theorem wp_process (r : Release) : r.process.wp (.tracing r.allows) r.returns [] := by
  match r with
  | .service dep svc => exact wp_releaseFinalizer (r := .service dep svc) rfl (List.forall_mem_nil _)
  | .ingress dep ing =>
    refine wp_bind_op.2 ⟨⟨rfl, rfl⟩, fun cleared => ?_⟩
    match cleared with
    | .error e => exact fun h => nomatch h
    | .ok () =>
      refine wp_releaseFinalizer (r := .ingress dep ing) rfl fun c hc => ?_
      obtain rfl := List.mem_singleton.1 hc
      exact nofun

/-! ## Versions -/

/-- An object was written since, or is as it was. -/
def Written.Since (x y : Written) : Prop := x.writes < y.writes ∨ y = x

namespace Written

variable {x y z : Written}

theorem Since.trans (h : x.Since y) (h' : y.Since z) : x.Since z := by
  rcases h with hlt | rfl
  · rcases h' with hlt' | rfl
    · exact .inl (hlt.trans hlt')
    · exact .inl hlt
  · exact h'

theorem since_write (object : Option Owned) : x.Since (x.write object) := .inl (Nat.lt_succ_self _)

theorem since_clearStatus (unchanged : Bool) : x.Since (x.clearStatus unchanged).2 := by
  rw [clearStatus]
  cases x.object with
  | none => exact .inr rfl
  | some o =>
    cases unchanged
    · exact since_write _
    · exact .inr rfl

theorem since_release (resourceVersion : String) (finalizers : List String) :
    x.Since (x.release resourceVersion finalizers).2 := by
  rw [release]
  cases x.object with
  | none => exact .inr rfl
  | some o =>
    dsimp only
    split
    · exact since_write _
    · exact .inr rfl

end Written

section Server

variable {f : ServerFate} {w : Objects} {parent : ObjectReference}

theorem since_update {y : Written} (h : (w parent).Since y) (other : ObjectReference) :
    (w other).Since (Function.update w parent y other) := by
  by_cases hother : other = parent
  · subst hother
    rw [Function.update_self]
    exact h
  · rw [Function.update_of_ne hother]
    exact .inr rfl

theorem since_serve {α : Type} {r : Except KubeError α × Written} (h : (w parent).Since r.2)
    (other : ObjectReference) : (w other).Since ((f.serve w parent r).2 other) := by
  rw [ServerFate.serve]
  split
  · exact since_update h other
  · split
    · exact since_update h other
    · exact .inr rfl

theorem since_act (o : Op) (other : ObjectReference) :
    (w other).Since ((objectServer.act f o w).2 other) := by
  change (w other).Since ((serveObject f o w).2 other)
  match o with
  | .getParent _ => exact since_serve (.inr rfl) other
  | .patchParent _ .clearStatus => exact since_serve (Written.since_clearStatus _) other
  | .patchParent _ (.release _ _) => exact since_serve (Written.since_release _ _) other
  | .patchParent _ (.addFinalizer _) | .patchParent _ (.removeFinalizer _)
  | .patchParent _ (.loadBalancer _) | .patchParent _ (.claim _ _) => exact .inr rfl
  | .getSecret _ | .getInstance _ | .getService _ _ | .listServices | .getWgService _
  | .getNamespace _ | .getPod _ | .apply _ _ | .delete _ _ | .applyOverride _ | .publish _ _
  | .connect _ | .getNode _ _ | .deleteNode _ _ | .setTags _ _ _ | .listUsers _ _
  | .createPreAuthKey _ _ | .deletePreAuthKey _ _ | .now | .join _ => exact .inr rfl

end Server

/-- Since any call, its object was written, or is as the call found it. -/
theorem exec_since {s s' : Pool sig Error Unit Objects}
    {es : List (Process.Event ServerFate (ObjectReference × Option Owned))} (hs : s.history = [])
    (h : objectServer.exec s es = some s') :
    ∀ e ∈ s'.history, ∀ parent, (e.before parent).Since (s'.world parent) := by
  refine Machine.exec_induction (P := fun t : Pool sig Error Unit Objects =>
    ∀ e ∈ t.history, ∀ parent, (e.before parent).Since (t.world parent)) ?_ ?_ h
  · intro t ev t' ht hst
    rcases Machine.step_cases hst with ⟨i, f, o, k, _, _, _, rfl⟩ | ⟨g, _, rfl⟩
    · exact List.forall_mem_cons.2 ⟨since_act o, fun e he parent =>
        (ht e he parent).trans (since_act o parent)⟩
    · exact fun e he parent => (ht e he parent).trans (since_update (Written.since_write _) parent)
  · rw [hs]
    exact List.forall_mem_nil _

/-! ## Nothing is lost -/

namespace Written

variable {x : Written} {fs : List String}

theorem get_ok {live : LiveObject} (h : x.get = .ok live) :
    live.resourceVersion = some x.resourceVersion ∧ live.finalizers = x.finalizers := by
  rw [get] at h
  rw [finalizers]
  cases hx : x.object with
  | none =>
    rw [hx] at h
    cases h
  | some o =>
    rw [hx] at h
    cases h
    exact ⟨rfl, rfl⟩

theorem finalizers_settle (o : Owned) (writes : Nat) :
    (⟨o.settle, writes⟩ : Written).finalizers = o.finalizers := by
  rw [Owned.settle]
  split
  · rename_i hgone
    rw [Bool.and_eq_true] at hgone
    exact (List.isEmpty_iff.1 hgone.2).symm
  · rfl

/-- A release that is served sets the list. -/
theorem finalizers_release {resourceVersion : String} (h : (x.release resourceVersion fs).1 = .ok ()) :
    (x.release resourceVersion fs).2.finalizers = fs ∧ resourceVersion = x.resourceVersion := by
  rw [release] at h ⊢
  cases hx : x.object with
  | none =>
    rw [hx] at h
    cases h
  | some o =>
    rw [hx] at h
    dsimp only at h ⊢
    split at h
    · rename_i hversion
      rw [if_pos hversion]
      exact ⟨finalizers_settle _ _, hversion⟩
    · cases h

/-- A release of an older version is a conflict. -/
theorem release_of_lt {y : Written} (h : y.writes < x.writes) :
    ∃ e, x.release y.resourceVersion fs = (.error e, x) := by
  rw [release]
  cases x.object with
  | none => exact ⟨_, rfl⟩
  | some o =>
    have hversion : y.resourceVersion ≠ x.resourceVersion := fun he =>
      h.ne (Nat.repr_injective he)
    exact ⟨_, if_neg hversion⟩

end Written

/-- The last call of the thread `i` is the patch of its release, made on the world `w`. -/
def PatchedBy (r : Release) (i : ℕ) (w : Objects) (h : List (Entry sig Objects)) : Prop :=
  ∃ resourceVersion finalizers a hist,
    h = ⟨i, .patchParent r.parent (.release resourceVersion finalizers), a, w⟩ :: hist

/-- The object was written since the thread `i` read it. -/
def WrittenSinceRead (r : Release) (i : ℕ) (s : Pool sig Error Unit Objects) : Prop :=
  ∃ read ∈ s.history, read.thread = i ∧ read.op = .getParent r.parent ∧
    (read.before r.parent).writes < (s.world r.parent).writes

/-- The patch is the last call. -/
theorem Release.not_allows_of_patched {r : Release} {tr : List (Made sig)} {c : Made sig}
    (hread : ∃ c ∈ tr, c.op = .getParent r.parent)
    (hc : ∃ resourceVersion finalizers,
      c.op = .patchParent r.parent (.release resourceVersion finalizers)) (o : Op) :
    ¬r.allows (c :: tr) o := by
  obtain ⟨v, fs, hc⟩ := hc
  obtain ⟨read, hread, hop⟩ := hread
  intro h
  unfold allows at h
  split at h
  · exact h.2 read (List.mem_cons_of_mem _ hread) hop
  · exact List.cons_ne_nil _ _ h.2
  · obtain ⟨-, live, tr', heq, -⟩ := h
    obtain ⟨rfl, -⟩ := List.cons.inj heq
    cases hc
  · exact h

section Pool

variable {releases : List Release} {w : Objects}
  {es : List (Process.Event ServerFate (ObjectReference × Option Owned))}
  {s s' : Pool sig Error Unit Objects} {i : ℕ} {f : ServerFate} {r : Release}

theorem keeps_of_exec (h : objectServer.exec (releasing releases w) es = some s)
    {p : M Unit} (hr : releases[i]? = some r) (hp : s.threads[i]? = some p) :
    p.wp (.tracing r.allows) r.returns (trace i s.history) := by
  refine Machine.exec_keeps (fun p hp => ?_) h p hp
  have hprocess : some r.process = some p := by
    rw [← hp, releasing, List.getElem?_map, hr]
    rfl
  obtain rfl := Option.some.inj hprocess
  exact wp_process r

theorem get_of_getParent {parent : ObjectReference} {live : LiveObject}
    (h : (objectServer.act f (.getParent parent) w).1 = .ok live) : (w parent).get = .ok live := by
  change (f.serve w parent ((w parent).get, w parent)).1 = _ at h
  rw [ServerFate.serve] at h
  split at h
  · exact h
  · cases h

/-- What a release is about to patch is what it has read. -/
theorem read_of_patch (h : objectServer.exec (releasing releases w) es = some s)
    (hr : releases[i]? = some r) {parent : ObjectReference} {resourceVersion : String}
    {finalizers : List String} {k : Except KubeError Unit → M Unit}
    (hi : s.threads[i]? = some (.call (.patchParent parent (.release resourceVersion finalizers)) k)) :
    parent = r.parent ∧ ∃ read ∈ s.history, read.thread = i ∧
      (∀ e ∈ s.history, e.thread = i → e.op = .getParent r.parent → e = read) ∧
      resourceVersion = (read.before parent).resourceVersion ∧
      finalizers = (read.before parent).finalizers.filter (· ≠ r.ourFinalizer) := by
  obtain ⟨rfl, live, tr', htr, hbefore, rfl, rfl⟩ := (keeps_of_exec h hr hi).1
  refine ⟨rfl, ?_⟩
  obtain ⟨read, rest, hfilter, hmade, hrest⟩ := List.map_eq_cons_iff.1 htr
  have hread : read ∈ s.history ∧ read.thread = i := by
    have : read ∈ s.history.filter fun e => e.thread == i := hfilter ▸ List.mem_cons_self
    simpa using this
  have hlive : (read.before r.parent).get = .ok live := by
    obtain ⟨f, hf⟩ := Machine.exec_answered rfl h read hread.1
    rcases read with ⟨thread, op, ans, before⟩
    obtain ⟨rfl, hans⟩ := Made.mk.inj hmade
    obtain rfl := eq_of_heq hans
    exact get_of_getParent hf
  obtain ⟨hversion, hfinalizers⟩ := Written.get_ok hlive
  refine ⟨read, hread.1, hread.2, fun e he hthread hop => ?_, ?_, ?_⟩
  · have hmem : e ∈ read :: rest := hfilter ▸ List.mem_filter.2 ⟨he, by simpa using hthread⟩
    rcases List.mem_cons.1 hmem with rfl | hmem
    · rfl
    · exact absurd hop (hbefore e.made (hrest ▸ List.mem_map_of_mem hmem))
  · rw [hversion]
    rfl
  · rw [hfinalizers]

end Pool

theorem finalizers_of_released {f : ServerFate} {w : Objects} {parent : ObjectReference}
    {resourceVersion : String} {finalizers : List String}
    (h : (objectServer.act f (.patchParent parent (.release resourceVersion finalizers)) w).1 =
      .ok ()) :
    ((objectServer.act f (.patchParent parent (.release resourceVersion finalizers)) w).2
      parent).finalizers = finalizers ∧ resourceVersion = (w parent).resourceVersion := by
  change (f.serve w parent ((w parent).release resourceVersion finalizers)).1 = _ at h
  change ((f.serve w parent ((w parent).release resourceVersion finalizers)).2 parent).finalizers =
    _ ∧ _
  rw [ServerFate.serve] at h ⊢
  split at h
  · dsimp only
    rw [Function.update_self]
    exact Written.finalizers_release h
  · cases h

theorem conflict_of_lt {f : ServerFate} {w : Objects} {parent : ObjectReference} {x : Written}
    (hlt : x.writes < (w parent).writes) (finalizers : List String) :
    ∃ e, objectServer.act f (.patchParent parent (.release x.resourceVersion finalizers)) w =
      (.error e, w) := by
  change ∃ e, f.serve w parent ((w parent).release x.resourceVersion finalizers) = _
  obtain ⟨e, he⟩ : ∃ e, (w parent).release x.resourceVersion finalizers = (.error e, w parent) :=
    Written.release_of_lt hlt
  rw [he, ServerFate.serve]
  simp only [Function.update_eq_self, ite_self]
  split
  · exact ⟨_, rfl⟩
  · exact ⟨_, rfl⟩

/-- A release that has returned `Ok` has patched its object; as it returns `Ok`, it takes its
    finalizer off the list of that moment. One that patches an object written since its read fails,
    and leaves everything as it is. -/
theorem release_keeps_finalizers {releases : List Release} {w : Objects}
    {es : List (Process.Event ServerFate (ObjectReference × Option Owned))}
    {s : Pool sig Error Unit Objects} {i : ℕ} {r : Release}
    (hr : releases[i]? = some r) (h : objectServer.exec (releasing releases w) es = some s) :
    (s.threads[i]? = some (.ret (.ok ())) → ∃ resourceVersion finalizers tr, trace i s.history =
      ⟨.patchParent r.parent (.release resourceVersion finalizers), .ok ()⟩ :: tr) ∧
    ∀ f s', objectServer.step s (.act i f) = some s' →
      (s'.threads[i]? = some (.ret (.ok ())) → PatchedBy r i s.world s'.history ∧
        (s'.world r.parent).finalizers =
          (s.world r.parent).finalizers.filter (· ≠ r.ourFinalizer)) ∧
      (PatchedBy r i s.world s'.history → WrittenSinceRead r i s →
        (∃ e, s'.threads[i]? = some (.ret (.error e))) ∧ s'.world = s.world) := by
  refine ⟨fun hret => keeps_of_exec h hr hret rfl, fun f s' hstep => ?_⟩
  rcases Machine.step_cases hstep with ⟨i', f', o, k, heq, hi, -, rfl⟩ | ⟨g, heq, rfl⟩
  · obtain ⟨rfl, rfl⟩ := Process.Event.act.inj heq
    have hthread : (objectServer.advance s i f o k).threads[i]? =
        some (k (objectServer.act f o s.world).1) :=
      List.getElem?_set_self (List.getElem?_eq_some_iff.1 hi).1
    have hcall := keeps_of_exec h hr hi
    have hnext := hcall.2 (objectServer.act f o s.world).1 _ rfl
    constructor
    · intro hret
      -- it has returned, so the call was the patch, and it was served
      rw [Option.some.inj (hthread.symm.trans hret)] at hnext
      obtain ⟨resourceVersion, finalizers, tr', htr⟩ := hnext rfl
      obtain ⟨hmade, -⟩ := List.cons.inj htr
      obtain ⟨rfl, hans⟩ := Made.mk.inj hmade
      refine ⟨⟨_, _, _, _, rfl⟩, ?_⟩
      obtain ⟨-, read, hread, -, -, rfl, rfl⟩ := read_of_patch h hr hi
      obtain ⟨hset, hsame⟩ := finalizers_of_released (eq_of_heq hans)
      refine hset.trans ?_
      rcases exec_since rfl h read hread r.parent with hlt | hunwritten
      · exact absurd (Nat.repr_injective hsame) hlt.ne
      · rw [hunwritten]
    · rintro ⟨resourceVersion, finalizers, a, hist, hpatch⟩ ⟨read, hread, hreader, hop, hlt⟩
      obtain ⟨hentry, -⟩ := List.cons.inj hpatch
      obtain ⟨-, rfl, hans, -⟩ := Entry.mk.inj hentry
      obtain ⟨-, read', hread', -, honly, rfl, rfl⟩ := read_of_patch h hr hi
      obtain rfl := honly read hread hreader hop
      obtain ⟨e, hconflict⟩ := conflict_of_lt (f := f) hlt
        ((read.before r.parent).finalizers.filter (· ≠ r.ourFinalizer))
      refine ⟨?_, congrArg Prod.snd hconflict⟩
      rw [hthread]
      rw [congrArg Prod.fst hconflict] at hnext ⊢
      -- nothing is called after the patch, and what returns `Ok` had it served
      match hk : k (.error e), hnext with
      | .ret (.error e), _ => exact ⟨e, rfl⟩
      | .ret (.ok ()), hnext =>
        obtain ⟨_, _, _, htr⟩ := hnext rfl
        cases htr
      | .call o k', hnext =>
        refine absurd hnext.1 (r.not_allows_of_patched ⟨read.made, ?_, hop⟩ ⟨_, _, rfl⟩ o)
        exact Process.mem_trace.2 ⟨read, hread, hreader, rfl⟩
  · cases heq

namespace Releases

/-- A Service, under our finalizer and that of a backup. -/
def db : PortedService where
  metadata := { name := "db", namespaceName := some "shop" }

def deployment : Deployment where
  operatorNamespace := "headmaster"
  claimDefault := true
  displayKube _ := "ApiError"

def release : Release := .service deployment db

def backup : String := "example.com/backup"

def held : Objects := fun _ => { object := some { finalizers := [backup, release.ourFinalizer] } }

/-- A request that succeeds. -/
def fate : ServerFate := { answer := answerOf { name := "main" } }

end Releases

open Releases (release backup held fate) in
/-- Undisturbed, the release leaves the finalizer of the backup. -/
theorem release_keeps_finalizers_backup :
    ∃ s s', objectServer.exec (releasing [release] held) [.act 0 fate] = some s ∧
      objectServer.step s (.act 0 fate) = some s' ∧
      s'.threads[0]? = some (.ret (.ok ())) ∧ (s'.world release.parent).finalizers = [backup] := by
  have hrun : (objectServer.exec (releasing [release] held) [.act 0 fate]).any (fun s =>
      (objectServer.step s (.act 0 fate)).any fun s' =>
        s'.threads[0]?.any (·.returnedOk) &&
          (s.world release.parent).finalizers == [backup, release.ourFinalizer]) = true := by
    decide +kernel
  obtain ⟨s, hs, hrun⟩ := (Option.any_eq_true _ _).1 hrun
  obtain ⟨s', hs', hrun⟩ := (Option.any_eq_true _ _).1 hrun
  rw [Bool.and_eq_true, Option.any_eq_true, beq_iff_eq] at hrun
  obtain ⟨⟨p, hp, hok⟩, hbefore⟩ := hrun
  obtain ⟨⟨⟩, rfl⟩ := Process.Prog.returnedOk_iff.1 hok
  obtain ⟨-, hafter⟩ := ((release_keeps_finalizers (r := release) rfl hs).2 fate s' hs').1 hp
  refine ⟨s, s', hs, hs', hp, hafter.trans ?_⟩
  rw [hbefore]
  decide

end Headmaster.Operator.Proxy
