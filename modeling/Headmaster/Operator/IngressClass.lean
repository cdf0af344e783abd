import Headmaster.Process.Trace
import Headmaster.Operator.Objects

/-!
# The claim to the default

On startup a deployment may claim the objects that name no deployment
(`ensure_ingress_class` in
`src/operator/src/controllers/ingress/reconcile.rs`, called by `main.rs`): it
applies an annotation to the IngressClass that all deployments share, with force
or without, and takes the answer for as long as it runs.

Startups of any deployments run at the same time, and may stop at any time
(`starting`). While no request takes the annotation away from a deployment that
runs and has claimed the default (`Spares`), at most one has
(`oneDefault_of_orderly`); an application with force does take it away
(`two_defaults`), as nobody tells the deployment.
-/

namespace Headmaster.Operator.IngressClass

open Process (Sig Prog Machine Pool Made Event trace)

/-! ## Requests -/

/-- What is applied to the IngressClass. -/
structure Manifest where
  controller : Option String := none
  /-- The annotation `default-namespace`. -/
  defaultNamespace : Option String := none
  deriving DecidableEq

inductive PatchError
  /-- The answer is 409. -/
  | conflict
  | other
  deriving DecidableEq

inductive Op
  /-- A server-side apply. -/
  | patch (fieldManager : String) (force : Bool) (manifest : Manifest)

def Op.Ans : Op → Type
  | patch _ _ _ => Except PatchError Unit

def sig : Sig := ⟨Op, Op.Ans⟩

inductive StartError
  | kube (e : PatchError)
  /-- The value of `CLAIM_DEFAULT` is none of the two. -/
  | claimDefault (value : String)

abbrev M := Prog sig StartError

def patch (fieldManager : String) (force : Bool) (manifest : Manifest) : M (Except PatchError Unit) :=
  Prog.op (σ := sig) (.patch fieldManager force manifest)

def fromKube (r : Except PatchError Unit) : M Unit := .ofExcept (r.mapError .kube)

/-! ## The startup -/

section Startup

variable (operatorNamespace : String)

def fieldManager : String := "headmaster-" ++ operatorNamespace

def claimManager : String := fieldManager operatorNamespace ++ "-claim-default"

def controllerName : String := "headmaster.potatonode.github.io/ingress-controller"

def claimAnnotationManifest : Manifest := { defaultNamespace := some operatorNamespace }

/-- Whether the claim is held after the call. -/
def ensureIngressClass (claim : Option Bool) : M Bool := do
  fromKube (← patch (fieldManager operatorNamespace) true { controller := some controllerName })
  match claim with
  | none =>
    match ← patch (claimManager operatorNamespace) false (claimAnnotationManifest operatorNamespace) with
    | .ok () => return true
    -- someone else holds it
    | .error .conflict => return false
    | .error .other => throw (.kube .other)
  | some false => return false
  | some true =>
    fromKube (← patch (claimManager operatorNamespace) true
      (claimAnnotationManifest operatorNamespace))
    return true

end Startup

/-- The settings that `main` reads for the claim. -/
structure Startup where
  operatorNamespace : String
  ingressEnabled : Bool := true
  /-- The variable `CLAIM_DEFAULT`. -/
  claimDefault : Option String := none

namespace Startup

def claimDefaultConfig : Option String → Except StartError (Option Bool)
  | none => .ok none
  | some "force" => .ok (some true)
  | some "false" => .ok (some false)
  | some other => .error (.claimDefault other)

/-- The startup of a deployment, up to its context: what `claim_default` is in it. -/
def main (u : Startup) : M Bool := do
  let config ← .ofExcept (claimDefaultConfig u.claimDefault)
  if u.ingressEnabled then ensureIngressClass u.operatorNamespace config else return false

end Startup

/-! ## The cluster -/

/-- The annotation, and the managers that have applied the value it has. -/
structure Claim where
  value : String
  managers : List String

/-- What a manager no longer applies goes, unless others apply it. -/
def Claim.without (claim : Claim) (manager : String) : Option Claim :=
  if claim.managers.contains manager then
    match claim.managers.filter (· ≠ manager) with
    | [] => none
    | others => some { claim with managers := others }
  else
    some claim

/-- The annotation after a server-side apply. A value that others manage is only changed with
    force. -/
def applyClaim (manager : String) (force : Bool) :
    Option String → Option Claim → Except PatchError (Option Claim)
  | none, claim => .ok (claim.bind (·.without manager))
  | some value, none => .ok (some ⟨value, [manager]⟩)
  | some value, some claim =>
    if claim.value = value then
      .ok (some ⟨value, manager :: claim.managers.filter (· ≠ manager)⟩)
    else if force || claim.managers.all (· == manager) then
      .ok (some ⟨value, [manager]⟩)
    else
      .error .conflict

structure World where
  /-- The annotation of the IngressClass. -/
  claim : Option Claim := none
  /-- The startups whose deployments have stopped. -/
  stopped : List ℕ := []

/-- A request may fail, possibly after it had its effect. -/
abbrev Fate := Option Bool

def act (f : Fate) : (o : Op) → World → o.Ans × World
  | .patch manager force manifest, w =>
    match applyClaim manager force manifest.defaultNamespace w.claim with
    | .error e => (.error e, w)
    | .ok claim =>
      match f with
      | none => (.ok (), { w with claim })
      | some effect => (.error .other, if effect then { w with claim } else w)

/-- The deployment of a startup may stop. -/
def cluster : Machine sig World Fate ℕ where
  act := act
  ready _ _ := true
  env i w := { w with stopped := i :: w.stopped }

/-! ## Deployments that run -/

/-- Deployments that are about to start, once or again. -/
def starting (startups : List Startup) (w : World) : Pool sig StartError Bool World where
  world := w
  threads := startups.map Startup.main

/-- The context of a deployment that has started. -/
def contextOf (u : Startup) : M Bool → Option Context
  | .ret (.ok claimDefault) => some { operatorNamespace := u.operatorNamespace, claimDefault }
  | _ => none

variable (startups : List Startup) (s : Pool sig StartError Bool World)

/-- The contexts of the deployments that run. -/
def contexts : List Context :=
  startups.zipIdx.filterMap fun (u, i) =>
    if s.world.stopped.contains i then none else s.threads[i]?.bind (contextOf u)

/-- At most one deployment claims the default, and no object is for two. -/
structure OneDefault : Prop where
  claim : ∀ c ∈ contexts startups s, ∀ c' ∈ contexts startups s,
    c.claimDefault = true → c'.claimDefault = true → c.operatorNamespace = c'.operatorNamespace
  owner : ∀ (read : Reader) (obj : ObjectMeta), ∀ c ∈ contexts startups s,
    ∀ c' ∈ contexts startups s, isOurs read c obj = true → isOurs read c' obj = true →
      c.operatorNamespace = c'.operatorNamespace

/-- A request does not take the annotation away from a deployment: it has another value only without
    force, and no value only under another manager. -/
def Op.Spares (operatorNamespace : String) : Op → Prop
  | .patch manager force manifest => match manifest.defaultNamespace with
    | none => manager ≠ claimManager operatorNamespace
    | some value => force = true → value = operatorNamespace

instance instDecidableSpares (operatorNamespace : String) :
    DecidablePred (Op.Spares operatorNamespace)
  | .patch manager _ ⟨_, none⟩ => inferInstanceAs (Decidable (manager ≠ claimManager _))
  | .patch _ force ⟨_, some value⟩ => inferInstanceAs (Decidable (force = true → value = _))

/-- The next request, if any, spares all deployments that run and have claimed the default. -/
def Orderly : Event Fate ℕ → Prop
  | .act i _ => ∀ o ∈ s.threads[i]?.bind Prog.next?, ∀ c ∈ contexts startups s,
    c.claimDefault = true → Op.Spares c.operatorNamespace o
  | .env _ => True

instance : DecidablePred (Orderly startups s)
  | .act i _ =>
    match h : s.threads[i]?.bind Prog.next? with
    | none => .isTrue fun o ho => by
      rw [h] at ho
      cases ho
    | some o =>
      haveI : ∀ ns, Decidable (Op.Spares ns o) := fun ns => instDecidableSpares ns o
      decidable_of_iff (∀ c ∈ contexts startups s, c.claimDefault = true →
        Op.Spares c.operatorNamespace o)
        ⟨fun hc o' ho' => by
          obtain rfl := Option.some.inj (h.symm.trans ho')
          exact hc, fun ho => ho o h⟩
  | .env _ => .isTrue trivial

/-! ## What a startup calls -/

namespace Startup

variable (u : Startup)

/-- First the class itself, then the claim. -/
def allows (_ : List (Made sig)) (o : Op) : Prop :=
  o = .patch (fieldManager u.operatorNamespace) true { controller := some controllerName } ∨
  ∃ force, o = .patch (claimManager u.operatorNamespace) force
    (claimAnnotationManifest u.operatorNamespace)

/-- The default is claimed when the last call, the claim, was answered so. -/
def returns (res : Except StartError Bool) (tr : List (Made sig)) : Prop :=
  res = .ok true → ∃ force tr', tr = ⟨.patch (claimManager u.operatorNamespace) force
    (claimAnnotationManifest u.operatorNamespace), .ok ()⟩ :: tr'

theorem wp_ensureIngressClass (claim : Option Bool) (tr : List (Made sig)) :
    (ensureIngressClass u.operatorNamespace claim).wp (.tracing u.allows) u.returns tr := by
  refine Process.Prog.wp_bind_op.2 ⟨.inl rfl, fun applied => ?_⟩
  match applied with
  | .error _ => exact fun h => nomatch h
  | .ok () =>
    match claim with
    | none =>
      refine Process.Prog.wp_bind_op.2 ⟨.inr ⟨false, rfl⟩, fun claimed => ?_⟩
      match claimed with
      | .ok () => exact fun _ => ⟨_, _, rfl⟩
      | .error .conflict => exact fun h => nomatch h
      | .error .other => exact fun h => nomatch h
    | some false => exact fun h => nomatch h
    | some true =>
      refine Process.Prog.wp_bind_op.2 ⟨.inr ⟨true, rfl⟩, fun claimed => ?_⟩
      match claimed with
      | .ok () => exact fun _ => ⟨_, _, rfl⟩
      | .error _ => exact fun h => nomatch h

theorem wp_main (tr : List (Made sig)) : u.main.wp (.tracing u.allows) u.returns tr := by
  refine Process.Prog.wp_bind.2 ?_
  cases claimDefaultConfig u.claimDefault with
  | error e => exact fun h => nomatch h
  | ok config =>
    change Process.Prog.wp _ _ (if _ then _ else _) _
    split
    · exact u.wp_ensureIngressClass config tr
    · exact fun h => nomatch h

end Startup

/-! ## What the requests do -/

/-- The annotation is that of a deployment. -/
def HeldBy (operatorNamespace : String) (claim : Option Claim) : Prop :=
  ∃ c, claim = some c ∧ c.value = operatorNamespace ∧ claimManager operatorNamespace ∈ c.managers

theorem claimManager_injective {m n : String} (h : claimManager m = claimManager n) : m = n :=
  (String.append_right_inj _).1 ((String.append_left_inj _).1 h)

section Requests

variable {u : Startup} {ns : String} {claim claim' : Option Claim}
  {manager : String} {force : Bool} {manifest : Manifest}

theorem Claim.without_keeps {c : Claim} {m : String} (hm : m ∈ c.managers) (hne : manager ≠ m) :
    ∃ c', c.without manager = some c' ∧ c'.value = c.value ∧ m ∈ c'.managers := by
  have hrest : m ∈ c.managers.filter (· ≠ manager) := List.mem_filter.2 ⟨hm, by simpa using hne.symm⟩
  rw [without]
  split
  · cases hothers : c.managers.filter (· ≠ manager) with
    | nil =>
      rw [hothers] at hrest
      cases hrest
    | cons other others => exact ⟨_, rfl, rfl, hothers ▸ hrest⟩
  · exact ⟨c, rfl, rfl, hm⟩

/-- A request of a startup leaves the annotation with a deployment that it spares. -/
theorem heldBy_applyClaim (hallow : u.allows [] (.patch manager force manifest))
    (hspares : Op.Spares ns (.patch manager force manifest)) (hheld : HeldBy ns claim)
    (h : applyClaim manager force manifest.defaultNamespace claim = .ok claim') :
    HeldBy ns claim' := by
  obtain ⟨c, rfl, hvalue, hmanager⟩ := hheld
  rcases hallow with heq | ⟨force', heq⟩
  · obtain ⟨rfl, rfl, rfl⟩ := Op.patch.inj heq
    obtain ⟨c', hc', hvalue', hmanager'⟩ := c.without_keeps hmanager hspares
    cases h
    exact ⟨c', hc', hvalue'.trans hvalue, hmanager'⟩
  · obtain ⟨rfl, rfl, rfl⟩ := Op.patch.inj heq
    change applyClaim _ _ (some u.operatorNamespace) _ = _ at h
    rw [applyClaim] at h
    split at h
    · -- the same deployment claims again
      rename_i hsame
      cases h
      obtain rfl : u.operatorNamespace = ns := hsame.symm.trans hvalue
      exact ⟨_, rfl, rfl, List.mem_cons_self⟩
    · rename_i hother
      have hforce : force ≠ true := fun hforce => hother (hvalue.trans (hspares hforce).symm)
      have hmanaged : c.managers.all (· == claimManager u.operatorNamespace) ≠ true := by
        intro hall
        have hsame := List.all_eq_true.1 hall _ hmanager
        exact hother (hvalue.trans (claimManager_injective (beq_iff_eq.1 hsame)))
      rw [if_neg (by simp [hforce, hmanaged])] at h
      cases h

/-- The annotation after a claim that did not conflict is that of its deployment. -/
theorem heldBy_of_applyClaim (h : applyClaim (claimManager ns) force (some ns) claim = .ok claim') :
    HeldBy ns claim' := by
  match claim with
  | none =>
    cases h
    exact ⟨_, rfl, rfl, List.mem_cons_self⟩
  | some c =>
    rw [applyClaim] at h
    split at h
    · cases h
      exact ⟨_, rfl, rfl, List.mem_cons_self⟩
    · split at h
      · cases h
        exact ⟨_, rfl, rfl, List.mem_cons_self⟩
      · cases h

/-- A request stops no deployment. -/
theorem act_stopped (f : Fate) (o : Op) (w : World) : (cluster.act f o w).2.stopped = w.stopped := by
  match o with
  | .patch manager force manifest =>
    change (act f (.patch manager force manifest) w).2.stopped = _
    rw [act]
    split
    · rfl
    · match f with
      | none | some true | some false => rfl

/-- A request fails and changes nothing, or the annotation is as applied. -/
theorem act_cases (f : Fate) (w : World) :
    (∃ e, cluster.act f (.patch manager force manifest) w = (.error e, w)) ∨
    ∃ a claim, applyClaim manager force manifest.defaultNamespace w.claim = .ok claim ∧
      cluster.act f (.patch manager force manifest) w = (a, { w with claim }) := by
  have hact : cluster.act f (.patch manager force manifest) w =
    act f (.patch manager force manifest) w := rfl
  rw [act] at hact
  split at hact
  · exact .inl ⟨_, hact⟩
  · rename_i claim hclaim
    match f with
    | none | some true => exact .inr ⟨_, claim, hclaim, hact⟩
    | some false => exact .inl ⟨_, hact⟩

/-- The annotation of a claim that was answered is that of its deployment. -/
theorem heldBy_of_claimed {f : Fate} {w : World}
    (h : (cluster.act f (.patch (claimManager ns) force (claimAnnotationManifest ns)) w).1 = .ok ()) :
    HeldBy ns
      (cluster.act f (.patch (claimManager ns) force (claimAnnotationManifest ns)) w).2.claim := by
  rcases act_cases f w with ⟨e, hfailed⟩ | ⟨a, claim, happly, hserved⟩
  · rw [hfailed] at h
    cases h
  · rw [hserved]
    exact heldBy_of_applyClaim happly

end Requests

/-! ## One default -/

section Pool

variable {startups : List Startup} {s s' : Pool sig StartError Bool World}

theorem mem_contexts {c : Context} : c ∈ contexts startups s ↔ ∃ (i : ℕ) (u : Startup) (p : M Bool),
    startups[i]? = some u ∧ i ∉ s.world.stopped ∧ s.threads[i]? = some p ∧
      contextOf u p = some c := by
  simp only [contexts, List.mem_filterMap, Prod.exists, List.mem_zipIdx_iff_getElem?,
    Option.ite_none_left_eq_some, List.contains_iff_mem, Option.bind_eq_some_iff]
  constructor
  · rintro ⟨u, i, hu, hrunning, p, hp, hc⟩
    exact ⟨i, u, p, hu, hrunning, hp, hc⟩
  · rintro ⟨i, u, p, hu, hrunning, hp, hc⟩
    exact ⟨u, i, hu, hrunning, p, hp, hc⟩

theorem contextOf_eq_some {u : Startup} {p : M Bool} {c : Context} (h : contextOf u p = some c) :
    c.operatorNamespace = u.operatorNamespace ∧ p = .ret (.ok c.claimDefault) := by
  match p, h with
  | .ret (.ok b), h =>
    cases h
    exact ⟨rfl, rfl⟩

/-- The annotation is that of every deployment that runs and has claimed the default. -/
def Held (startups : List Startup) (s : Pool sig StartError Bool World) : Prop :=
  ∀ c ∈ contexts startups s, c.claimDefault = true → HeldBy c.operatorNamespace s.world.claim

/-- The threads are the startups, on their way. -/
structure Started (startups : List Startup) (s : Pool sig StartError Bool World) : Prop where
  length : s.threads.length = startups.length
  keeps : ∀ (i : ℕ) u, startups[i]? = some u → Machine.Keeps u.allows u.returns i s

theorem Started.startup (h : Started startups s) {i : ℕ} {p : M Bool} (hi : s.threads[i]? = some p) :
    ∃ u, startups[i]? = some u := by
  have hlt := (List.getElem?_eq_some_iff.1 hi).1
  exact ⟨_, List.getElem?_eq_getElem (h.length ▸ hlt)⟩

theorem started_starting (w : World) : Started startups (starting startups w) where
  length := List.length_map _
  keeps i u hu p hp := by
    rw [starting, List.getElem?_map, hu] at hp
    obtain rfl := Option.some.inj hp
    exact u.wp_main _

theorem Started.step (h : Started startups s) {e : Event Fate ℕ} (hstep : cluster.step s e = some s') :
    Started startups s' := by
  have hexec : cluster.exec s [e] = some s' := by rw [Machine.exec_cons, hstep]; rfl
  exact ⟨(Machine.exec_length hexec).trans h.length,
    fun i u hu => Machine.exec_keeps (h.keeps i u hu) hexec⟩

theorem held_of_step (hstarted : Started startups s) (hheld : Held startups s) {e : Event Fate ℕ}
    (horderly : Orderly startups s e) (h : cluster.step s e = some s') : Held startups s' := by
  intro c hc hclaim
  obtain ⟨j, v, p, hv, hrunning, hp, hctx⟩ := mem_contexts.1 hc
  rcases Machine.step_cases h with ⟨i, f, o, k, rfl, hi, -, rfl⟩ | ⟨g, rfl, rfl⟩
  · obtain ⟨u, hu⟩ := hstarted.startup hi
    obtain ⟨hallow, hnext⟩ := hstarted.keeps i u hu _ hi
    rcases eq_or_ne i j with rfl | hne
    · -- the deployment has just claimed the default
      obtain rfl := Option.some.inj (hu.symm.trans hv)
      obtain ⟨hns, rfl⟩ := contextOf_eq_some hctx
      have hret : k (cluster.act f o s.world).1 = .ret (.ok true) := by
        refine Option.some.inj ((List.getElem?_set_self ?_).symm.trans (hclaim ▸ hp))
        exact (List.getElem?_eq_some_iff.1 hi).1
      have hreturns := hnext (cluster.act f o s.world).1 _ rfl
      rw [hret] at hreturns
      obtain ⟨force, tr', htr⟩ := hreturns rfl
      obtain ⟨rfl, hans⟩ := Made.mk.inj (List.cons.inj htr).1
      have hclaimed := heldBy_of_claimed (eq_of_heq hans)
      rw [hns]
      exact hclaimed
    · have hbefore : c ∈ contexts startups s := by
        refine mem_contexts.2 ⟨j, v, p, hv, ?_, ?_, hctx⟩
        · exact act_stopped f o s.world ▸ hrunning
        · exact (List.getElem?_set_ne hne).symm.trans hp
      have hheld' := hheld c hbefore hclaim
      have hspares : Op.Spares c.operatorNamespace o := by
        refine horderly o ?_ c hbefore hclaim
        rw [hi]
        rfl
      match o with
      | .patch manager force manifest =>
        change HeldBy _ (cluster.act f (.patch manager force manifest) s.world).2.claim
        rcases act_cases f s.world with ⟨e, hfailed⟩ | ⟨a, claim, happly, hserved⟩
        · rw [hfailed]
          exact hheld'
        · rw [hserved]
          exact heldBy_applyClaim hallow hspares hheld' happly
  · refine hheld c (mem_contexts.2 ⟨j, v, p, hv, ?_, hp, hctx⟩) hclaim
    exact fun hstopped => hrunning (List.mem_cons_of_mem _ hstopped)

/-- No deployment has claimed the default before its first request. -/
theorem held_starting (w : World) : Held startups (starting startups w) := by
  intro c hc hclaim
  obtain ⟨j, v, p, hv, -, hp, hctx⟩ := mem_contexts.1 hc
  obtain ⟨-, rfl⟩ := contextOf_eq_some hctx
  rw [starting, List.getElem?_map, hv] at hp
  have hmain := v.wp_main []
  rw [Option.some.inj hp, hclaim] at hmain
  obtain ⟨_, _, htr⟩ := hmain rfl
  cases htr

theorem oneDefault_of_held (h : Held startups s) : OneDefault startups s := by
  have hclaim : ∀ c ∈ contexts startups s, ∀ c' ∈ contexts startups s, c.claimDefault = true →
      c'.claimDefault = true → c.operatorNamespace = c'.operatorNamespace := by
    intro c hc c' hc' hcc hcc'
    obtain ⟨claim, heq, hvalue, -⟩ := h c hc hcc
    obtain ⟨claim', heq', hvalue', -⟩ := h c' hc' hcc'
    obtain rfl := Option.some.inj (heq.symm.trans heq')
    exact hvalue.symm.trans hvalue'
  refine ⟨hclaim, fun read obj c hc c' hc' hours hours' => ?_⟩
  rw [isOurs] at hours hours'
  split at hours
  · rename_i named hnamed
    rw [hnamed] at hours'
    exact (beq_iff_eq.1 hours).symm.trans (beq_iff_eq.1 hours')
  · rename_i hnone
    rw [hnone] at hours'
    exact hclaim c hc c' hc' hours hours'

/-- While every request spares the deployments that run and have claimed the default, at most one
    has. -/
theorem oneDefault_of_orderly {w : World} {es : List (Event Fate ℕ)}
    (horderly : cluster.Along (Orderly startups) (starting startups w) es)
    (hexec : cluster.exec (starting startups w) es = some s) : OneDefault startups s := by
  have hheld := Machine.exec_induction_along (P := fun t => Started startups t ∧ Held startups t) ?_
    ⟨started_starting w, held_starting w⟩ horderly hexec
  · exact oneDefault_of_held hheld.2
  · rintro t e t' ⟨hstarted, hheld⟩ he hstep
    exact ⟨hstarted.step hstep, held_of_step hstarted hheld he hstep⟩

end Pool

/-- A deployment that starts without force, and one that migrates the default to itself. -/
def migration : List Startup := [⟨"blue", true, none⟩, ⟨"green", true, some "force"⟩]

/-- When the first has stopped before the second starts, the default has moved. -/
theorem oneDefault_of_orderly_migration : ∃ s,
    cluster.exec (starting migration {})
      [.act 0 none, .act 0 none, .env 0, .act 1 none, .act 1 none] = some s ∧
    OneDefault migration s := by
  have hrun : (cluster.exec (starting migration {})
      [.act 0 none, .act 0 none, .env 0, .act 1 none, .act 1 none]).isSome = true := by
    decide +kernel
  obtain ⟨s, hs⟩ := Option.isSome_iff_exists.1 hrun
  exact ⟨s, hs, oneDefault_of_orderly (by decide +kernel) hs⟩

/-- When the first still runs, both claim the default. -/
theorem two_defaults : ∃ s,
    cluster.exec (starting migration {}) [.act 0 none, .act 0 none, .act 1 none, .act 1 none] = some s ∧
    ¬OneDefault migration s := by
  have hrun : (cluster.exec (starting migration {})
      [.act 0 none, .act 0 none, .act 1 none, .act 1 none]).any (fun s =>
        (contexts migration s).map (fun c => (c.operatorNamespace, c.claimDefault)) ==
          [("blue", true), ("green", true)]) = true := by
    decide +kernel
  obtain ⟨s, hs, hcontexts⟩ := (Option.any_eq_true _ _).1 hrun
  refine ⟨s, hs, fun h => ?_⟩
  rw [beq_iff_eq] at hcontexts
  have hmem {n : String} (hn : (n, true) ∈ [("blue", true), ("green", true)]) :
      ∃ c ∈ contexts migration s, c.operatorNamespace = n ∧ c.claimDefault = true := by
    rw [← hcontexts, List.mem_map] at hn
    obtain ⟨c, hc, heq⟩ := hn
    obtain ⟨hns, hclaim⟩ := Prod.mk.inj heq
    exact ⟨c, hc, hns, hclaim⟩
  obtain ⟨c, hc, hblue, hclaim⟩ := hmem (n := "blue") (by decide)
  obtain ⟨c', hc', hgreen, hclaim'⟩ := hmem (n := "green") (by decide)
  have hsame := h.claim c hc c' hc' hclaim hclaim'
  rw [hblue, hgreen] at hsame
  revert hsame
  decide

end Headmaster.Operator.IngressClass
