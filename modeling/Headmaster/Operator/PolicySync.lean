import Headmaster.Operator.Contribution
import Headmaster.Process.Sum
import Headmaster.Scim.Membership

/-!
# The sync of the policy

`sync_policy` (`src/operator/src/controllers/headscale_instance/policy.rs`): the
operator reads the live policy, computes the one the instance is to have, and
sets it when they differ. With SCIM, the groups of the live policy are copied
into the new one, as they were when it was read.

* `wp_syncPolicy`: what a sync that nothing interrupts leaves (`syncWrite`);
* `effective_halves`: the policy it computes has the groups that it read
  (`seenGroups`), and a rest that depends on their names only (`merged`).
-/

namespace Headmaster.Operator

open Process
open Policy (PolicyText PolicyEditor PolicyMember PolicyParseError isStale)
open Scim (World Fate)

inductive SyncError
  | kube (e : KubeError)
  | invalidPolicy (e : PolicyParseError)
  | headscaleApi (s : Status)

/-! ## Calls -/

/-- The calls of a sync. -/
inductive SyncOp
  /-- Connect to headscale with the API key of the instance. -/
  | connect
  | getPolicy
  /-- Publish a warning about an Ingress; nothing depends on the answer. -/
  | publishWarning (ing : Ingress) (reason note : String)
  | setPolicy (policy : PolicyText)
  /-- Ask the SCIM server to reconcile; nothing depends on the answer. -/
  | notifyScim

def SyncOp.Ans : SyncOp → Type
  | connect => Except KubeError Unit
  | getPolicy => Except Status PolicyText
  | publishWarning _ _ _ => Except KubeError Unit
  | setPolicy _ => Except Status Unit
  | notifyScim => Unit

def syncSig : Sig := ⟨SyncOp, SyncOp.Ans⟩

abbrev SyncM := Prog syncSig SyncError

def connect : SyncM Unit := do
  let r ← Prog.op (σ := syncSig) .connect
  .ofExcept (Except.mapError .kube r)

def getPolicy : SyncM (Except Status PolicyText) := Prog.op (σ := syncSig) .getPolicy

def publishWarning (ing : Ingress) (reason note : String) : SyncM Unit := do
  let _ ← Prog.op (σ := syncSig) (.publishWarning ing reason note)

def setPolicy (policy : PolicyText) : SyncM Unit := do
  let r ← Prog.op (σ := syncSig) (.setPolicy policy)
  .ofExcept (Except.mapError .headscaleApi r)

def notifyScim : SyncM Unit := Prog.op (σ := syncSig) .notifyScim

/-! ## The sync -/

variable (read : Reader) (digest : Digest) (policy : Option PolicyText) (scimEnabled : Bool)
  (ingresses : List Ingress)

/-- The policy of the instance with the groups of the live one, if SCIM is enabled and
    the live one parses. -/
def policyBeforeGrants (current : PolicyText) (editor : PolicyEditor) : PolicyText :=
  let editor :=
    if scimEnabled then
      match PolicyEditor.parse current with
      | .ok currentEditor => editor.copyGroupsFrom currentEditor
      | .error _ => editor
    else editor
  (editor.setTagOwner headmasterTag []).toText

/-- The policy that a sync is to leave. -/
def effectiveDesired (current : PolicyText) (editor : PolicyEditor) : PolicyText :=
  withIngressGrants read digest (policyBeforeGrants scimEnabled current editor) ingresses

/-- An Ingress is warned of each of its grants that waits for a group, and the others are
    appended. -/
def mergeIngressGrants (policyStr : PolicyText) (ingresses : List Ingress) : SyncM PolicyText := do
  (waitingGrants read (knownGroupsOf policyStr) ingresses).forM fun (ing, missingGroups) =>
    publishWarning ing "WaitingForGroup" (waitingNote missingGroups)
  return withIngressGrants read digest policyStr ingresses

/-- The text of the live policy; the empty text when none was ever set. -/
def fetchCurrent : SyncM PolicyText := do
  match ← getPolicy with
  | .ok policy => return policy
  | .error s => if s.policyNotFound then return .blank "" else throw (.headscaleApi s)

/-- The policy is that of the instance; without one, everything is allowed. -/
def syncPolicy : SyncM Unit := do
  connect
  let current ← fetchCurrent
  match policy with
  | none =>
    if !current.isEmpty then
      setPolicy (.blank "")
  | some inline =>
    let editor ← .ofExcept ((PolicyEditor.parse inline).mapError .invalidPolicy)
    let effectiveDesired ← mergeIngressGrants read digest
      (policyBeforeGrants scimEnabled current editor) ingresses
    if Policy.policiesAreSemanticallyEqual current effectiveDesired then
      return
    setPolicy effectiveDesired
    if scimEnabled then
      notifyScim

/-! ## On the world of the SCIM server -/

/-- The calls to headscale are served as those of the SCIM server are. -/
def syncAct (f : Fate) : (o : SyncOp) → World → o.Ans × World
  | .connect, w =>
    (match f.outcome with
      | .served => .ok ()
      | .failed _ _ => .error .other, w)
  | .getPolicy, w => w.serve f w.headscale.getPolicy
  | .publishWarning _ _ _, w =>
    (match f.outcome with
      | .served => .ok ()
      | .failed _ _ => .error .other, w)
  | .setPolicy policy, w => w.serve f (w.headscale.setPolicy policy)
  | .notifyScim, w => ((), w)

def syncMachine : Machine syncSig World Fate Empty where
  act := syncAct
  ready _ _ := true
  env := nofun

/-- What a sync writes over a live policy, if anything. -/
def syncWrite (live : PolicyText) : Option PolicyText :=
  match policy with
  | none => if !live.isEmpty then some (.blank "") else none
  | some inline =>
    match PolicyEditor.parse inline with
    | .error _ => none
    | .ok editor =>
      let effectiveDesired := effectiveDesired read digest scimEnabled ingresses live editor
      if Policy.policiesAreSemanticallyEqual live effectiveDesired then none
      else some effectiveDesired

section Rules

variable {read digest policy scimEnabled ingresses} {A : SyncOp → Prop} {w : World}

/-- Whatever holds where warnings may be published, and is kept by that, holds after the merge, which
    does not fail. -/
theorem wp_mergeIngressGrants {S : Type} {c : Contract syncSig S} {I : S → Prop} {s : S}
    {policyStr : PolicyText} {Q : Except SyncError PolicyText → S → Prop}
    (hI : ∀ s ing reason note, I s → c.allows s (.publishWarning ing reason note) ∧
      ∀ a s', c.next s (.publishWarning ing reason note) a s' → I s')
    (hs : I s) (h : ∀ s, I s → Q (.ok (withIngressGrants read digest policyStr ingresses)) s) :
    (mergeIngressGrants read digest policyStr ingresses).wp c Q s := by
  rw [mergeIngressGrants]
  generalize waitingGrants read (knownGroupsOf policyStr) ingresses = waiting
  -- by induction on the warnings
  induction waiting generalizing s with
  | nil => exact h s hs
  | cons p waiting ih =>
    obtain ⟨hallow, hnext⟩ := hI s p.1 "WaitingForGroup" (waitingNote p.2) hs
    exact Prog.wp_call.2 ⟨hallow, fun a s' hs' => ih (hnext a s' hs')⟩

theorem wp_connect {Q : Except SyncError Unit → World → Prop} (hA : A .connect)
    (hok : Q (.ok ()) w) (herr : ∀ e, Q (.error e) w) :
    connect.wp (syncMachine.contract.within A) Q w := by
  refine Prog.wp_bind.2 (Prog.wp_op_within.2 ⟨hA, Machine.wp_op_iff.2 fun f => ?_⟩)
  obtain ⟨os, outcome⟩ := f
  match outcome with
  | .served => exact hok
  | .failed _ _ => exact herr _

theorem wp_getPolicy {Q : Except SyncError (Except Status PolicyText) → World → Prop}
    (hA : A .getPolicy) (hserved : Q (.ok w.headscale.getPolicy.1) w)
    (hfailed : ∀ failure : Failure, Q (.ok (.error failure.status)) w) :
    getPolicy.wp (syncMachine.contract.within A) Q w := by
  refine Prog.wp_op_within.2 ⟨hA, Machine.wp_op_iff.2 ?_⟩
  refine (Scim.forall_serve (P := fun r w' => Q (.ok r) w')).2 ?_
  rw [Scim.getPolicy_eq]
  exact ⟨hserved, fun failure => ⟨hfailed failure, hfailed failure⟩⟩

theorem wp_fetchCurrent {Q : Except SyncError PolicyText → World → Prop} (hA : A .getPolicy)
    (hok : Q (.ok w.livePolicy) w) (herr : ∀ e, Q (.error e) w) :
    fetchCurrent.wp (syncMachine.contract.within A) Q w := by
  refine Prog.wp_bind.2 (wp_getPolicy hA ?_ fun failure => ?_)
  · rw [World.livePolicy] at hok
    rw [Headscale.getPolicy]
    cases hp : w.headscale.policy with
    | some t => simpa [hp] using hok
    | none =>
      have hnf : Status.policyNotFound
          ⟨.unknown, "loading ACL from database: acl policy not found"⟩ = true := by decide
      simpa [hp, hnf] using hok
  · simp [failure.elsewhere, herr]

theorem wp_setPolicy {policy : PolicyText} {Q : Except SyncError Unit → World → Prop}
    (hA : A (.setPolicy policy)) (hok : Q (.ok ()) { w with headscale.policy := some policy })
    (hunwritten : ∀ e, Q (.error e) w)
    (hwritten : ∀ e, Q (.error e) { w with headscale.policy := some policy }) :
    (setPolicy policy).wp (syncMachine.contract.within A) Q w := by
  refine Prog.wp_bind.2 (Prog.wp_op_within.2 ⟨hA, Machine.wp_op_iff.2 ?_⟩)
  refine (Scim.forall_serve (r := w.headscale.setPolicy policy)
    (P := fun r w' => Q (r.mapError .headscaleApi) w')).2 ?_
  exact ⟨hok, fun failure => ⟨hunwritten _, hwritten _⟩⟩

theorem wp_notifyScim {Q : Except SyncError Unit → World → Prop} (hA : A .notifyScim)
    (h : Q (.ok ()) w) : notifyScim.wp (syncMachine.contract.within A) Q w :=
  Prog.wp_op_within.2 ⟨hA, Machine.wp_op_iff.2 fun _ => h⟩

/-- A sync alone makes its write, unless it fails before. -/
theorem wp_syncPolicy {Q : Except SyncError Unit → World → Prop} (hconnect : A .connect)
    (hget : A .getPolicy) (hwarn : ∀ ing reason note, A (.publishWarning ing reason note))
    (hnotify : A .notifyScim)
    (hset : ∀ p, syncWrite read digest policy scimEnabled ingresses w.livePolicy = some p →
      A (.setPolicy p))
    (hok : (∀ inline, policy = some inline → ∃ editor, PolicyEditor.parse inline = .ok editor) →
      Q (.ok ()) { w with headscale.policy :=
        (syncWrite read digest policy scimEnabled ingresses w.livePolicy).or w.headscale.policy })
    (hunwritten : ∀ e, Q (.error e) w)
    (hwritten : ∀ e p, syncWrite read digest policy scimEnabled ingresses w.livePolicy = some p →
      Q (.error e) { w with headscale.policy := some p }) :
    (syncPolicy read digest policy scimEnabled ingresses).wp (syncMachine.contract.within A) Q w := by
  refine Prog.wp_bind.2 (wp_connect hconnect ?_ hunwritten)
  refine Prog.wp_bind.2 (wp_fetchCurrent hget ?_ hunwritten)
  rw [Post.andThen_ok]
  -- without an inline policy the sync only clears a policy that is there
  match policy with
  | none =>
    rw [syncWrite] at hset hok hwritten
    dsimp only
    split
    · rename_i hlive
      rw [if_pos hlive] at hset hok hwritten
      exact wp_setPolicy (hset _ rfl) (hok nofun) hunwritten fun e => hwritten e _ rfl
    · rename_i hlive
      rw [if_neg hlive] at hok
      exact hok nofun
  | some inline =>
    rw [syncWrite] at hset hok hwritten
    refine Prog.wp_bind.2 ?_
    rw [Prog.wp_ofExcept]
    cases hparse : PolicyEditor.parse inline with
    | error e => exact hunwritten _
    | ok editor =>
      rw [hparse] at hset hok hwritten
      dsimp only [Except.mapError, Post.andThen_ok] at hset hok hwritten ⊢
      have hparses : ∀ inline', some inline = some inline' →
          ∃ editor, PolicyEditor.parse inline' = .ok editor := by
        intro _ h
        exact ⟨editor, Option.some.inj h ▸ hparse⟩
      refine Prog.wp_bind.2 (wp_mergeIngressGrants (I := (· = w)) ?_ rfl ?_)
      · rintro _ ing reason note rfl
        refine ⟨⟨hwarn ing reason note, trivial⟩, ?_⟩
        rintro _ _ ⟨f, hf⟩
        exact (Prod.mk.inj hf).2.symm
      rintro _ rfl
      rw [Post.andThen_ok]
      split
      · rename_i hequal
        rw [effectiveDesired, if_pos hequal] at hok
        exact hok hparses
      · rename_i hequal
        rw [effectiveDesired, if_neg hequal] at hset hok hwritten
        refine Prog.wp_bind.2 (wp_setPolicy (hset _ rfl) ?_ hunwritten fun e => hwritten e _ rfl)
        rw [Post.andThen_ok]
        split
        · exact wp_notifyScim hnotify (hok hparses)
        · exact hok hparses

end Rules

/-! ## The halves of the policy computed -/

section AppendIngressGrants

variable {e : PolicyEditor} (grants : List (Json × String))

theorem isObject_appendIngressGrants (h : e.IsObject) :
    (grants.foldl appendIngressGrant e).IsObject := by
  induction grants generalizing e with
  | nil => exact h
  | cons g grants ih => exact ih (PolicyEditor.isObject_appendGrants _)

theorem groups_appendIngressGrants : (grants.foldl appendIngressGrant e).groups = e.groups := by
  induction grants generalizing e with
  | nil => rfl
  | cons g grants ih =>
    rw [List.foldl_cons, ih, appendIngressGrant, PolicyEditor.groups_appendGrants,
      PolicyEditor.groups_setTagOwner]

theorem rest_appendIngressGrants : (grants.foldl appendIngressGrant e).rest =
    if grants.isEmpty then e.rest else grants.foldl appendIngressGrant e.rest := by
  induction grants generalizing e with
  | nil => rfl
  | cons g grants ih =>
    rw [List.foldl_cons, ih, appendIngressGrant, PolicyEditor.rest_appendGrants,
      PolicyEditor.rest_setTagOwner]
    cases grants <;> rfl

theorem once_appendIngressGrants {k : String} (h : Props.Once k e.objectValueOrSet) :
    Props.Once k (grants.foldl appendIngressGrant e).objectValueOrSet := by
  induction grants generalizing e with
  | nil => exact h
  | cons g grants ih => exact ih ((h.alter _).alter _)

theorem grantElements_appendIngressGrants :
    (grants.foldl appendIngressGrant e).grantElements = e.grantElements ++ grants.map Prod.fst := by
  induction grants generalizing e with
  | nil => exact (List.append_nil _).symm
  | cons g grants ih =>
    rw [List.foldl_cons, ih, appendIngressGrant, PolicyEditor.grantElements_appendGrants,
      PolicyEditor.grantElements_setTagOwner, List.map_cons, List.append_assoc]
    rfl

end AppendIngressGrants

/-- A policy with the tag of the operator, and the grants for some known groups. -/
def merged (knownGroups : List String) (e : PolicyEditor) : PolicyEditor :=
  (ingressGrants read digest knownGroups ingresses).foldl appendIngressGrant
    (e.setTagOwner headmasterTag [])

/-- The groups that a sync puts into the policy: those it read, or, when what it read does not
    parse, those of the instance. -/
def seenGroups (live : PolicyText) (editor : PolicyEditor) : Option Json :=
  match PolicyEditor.parse live with
  | .ok current => current.groups
  | .error _ => editor.groups

/-- The names under some groups. -/
def namesOf (groups : Option Json) : List String := (Policy.propsOf groups).map Prod.fst

variable {read digest ingresses} {live : PolicyText} {editor : PolicyEditor}

theorem withIngressGrants_toText {e : PolicyEditor} (h : e.IsObject) :
    withIngressGrants read digest e.toText ingresses =
      ((ingressGrants read digest (namesOf e.groups) ingresses).foldl appendIngressGrant e).toText := by
  have hknown : knownGroupsOf e.toText = namesOf e.groups := by
    rw [knownGroupsOf, h.parse_toText]
    rfl
  rw [withIngressGrants, hknown, h.parse_toText]
  dsimp only
  cases ingressGrants read digest (namesOf e.groups) ingresses <;> rfl

/-- The policy computed from a live one, with SCIM: the groups that were read, and a rest that
    depends on their names only. -/
structure Effective (read : Reader) (digest : Digest) (ingresses : List Ingress)
    (live : PolicyText) (editor r : PolicyEditor) : Prop where
  toText : effectiveDesired read digest true ingresses live editor = r.toText
  isObject : r.IsObject
  oneGroups : r.OneGroups
  groups : r.groups = seenGroups live editor
  rest : r.rest = merged read digest ingresses (namesOf (seenGroups live editor)) editor.rest

theorem exists_effective (read : Reader) (digest : Digest) (ingresses : List Ingress)
    (live : PolicyText) (h : editor.OneGroups) :
    ∃ r, Effective read digest ingresses live editor r := by
  -- the groups are copied if the live policy parses, and nothing else is touched by that
  obtain ⟨e, he, hone, hgroups, hrest⟩ : ∃ e : PolicyEditor,
      policyBeforeGrants true live editor = (e.setTagOwner headmasterTag []).toText ∧
      e.OneGroups ∧ e.groups = seenGroups live editor ∧ e.rest = editor.rest := by
    rw [policyBeforeGrants, seenGroups]
    cases PolicyEditor.parse live with
    | error e => exact ⟨editor, rfl, h, rfl, rfl⟩
    | ok current =>
      exact ⟨_, rfl, PolicyEditor.oneGroups_copyGroupsFrom _ h,
        PolicyEditor.groups_copyGroupsFrom _ h, PolicyEditor.rest_copyGroupsFrom _⟩
  have hgroups' : (e.setTagOwner headmasterTag []).groups = seenGroups live editor := by
    rw [PolicyEditor.groups_setTagOwner, hgroups]
  refine ⟨(ingressGrants read digest (namesOf (seenGroups live editor)) ingresses).foldl
      appendIngressGrant (e.setTagOwner headmasterTag []), ?_,
    isObject_appendIngressGrants _ (PolicyEditor.isObject_setTagOwner _ _),
    once_appendIngressGrants _ (PolicyEditor.oneGroups_setTagOwner _ _ hone), ?_, ?_⟩
  · rw [effectiveDesired, he, withIngressGrants_toText (PolicyEditor.isObject_setTagOwner _ _),
      hgroups']
  · rw [groups_appendIngressGrants, hgroups']
  · rw [rest_appendIngressGrants, PolicyEditor.rest_setTagOwner, hrest, merged]
    cases ingressGrants read digest (namesOf (seenGroups live editor)) ingresses <;> rfl

/-- The grants of the policy computed: those of the instance, and those of the Ingresses. -/
theorem grantElements_merged (knownGroups : List String) (e : PolicyEditor) :
    (merged read digest ingresses knownGroups e).grantElements =
      e.grantElements ++ (ingressGrants read digest knownGroups ingresses).map Prod.fst := by
  rw [merged, grantElements_appendIngressGrants, PolicyEditor.grantElements_setTagOwner]

theorem exists_of_mem_ingressGrants {knownGroups : List String} {j : Json}
    (h : j ∈ (ingressGrants read digest knownGroups ingresses).map Prod.fst) :
    ∃ (ing : Ingress) (grant : IngressAccessGrant),
      j = grantValue (ingressAutoTag digest ing.ns ing.metadata.name) grant ∧
        missingGroups knownGroups grant = [] := by
  obtain ⟨⟨_, tag⟩, hmem, rfl⟩ := List.mem_map.1 h
  obtain ⟨ing, _, hmem⟩ := mem_ingressGrants.1 hmem
  rw [grantsOf] at hmem
  split at hmem
  · cases hmem
  · obtain ⟨grant, hgrant, heq⟩ := List.mem_map.1 hmem
    obtain ⟨rfl, rfl⟩ := Prod.mk.inj heq
    exact ⟨ing, grant, rfl, List.isEmpty_iff.1 (List.mem_filter.1 hgrant).2⟩

theorem tidyGrants_merged {knownGroups : List String} {e : PolicyEditor} (h : e.TidyGrants) :
    (merged read digest ingresses knownGroups e).TidyGrants := by
  have hnames : ∀ g, .object g ∈ (merged read digest ingresses knownGroups e).grantElements →
      .object g ∈ e.grantElements ∨ ∃ k, g.map Prod.fst = ["src", "dst", k] ∧ k ∈ ["app", "ip"] := by
    intro g hg
    rw [grantElements_merged, List.mem_append] at hg
    refine hg.imp_right fun hg => ?_
    obtain ⟨ing, grant, heq, _⟩ := exists_of_mem_ingressGrants hg
    obtain rfl := Json.object.inj heq
    cases grant.capabilities with
    | none => exact ⟨"ip", rfl, by decide⟩
    | some caps => exact ⟨"app", rfl, by decide⟩
  refine ⟨once_appendIngressGrants _ (h.grants.alter _), fun g hg => ?_, fun g hg => ?_⟩
  · rcases hnames g hg with hg | ⟨k, hk, hmem⟩
    · exact h.src g hg
    · rw [Props.Once, hk]
      rcases List.mem_pair.1 hmem with rfl | rfl <;> decide
  · rcases hnames g hg with hg | ⟨k, hk, hmem⟩
    · exact h.dst g hg
    · rw [Props.Once, hk]
      rcases List.mem_pair.1 hmem with rfl | rfl <;> decide

/-- The names of some groups, as they stand under `groups`. -/
def groupNames (groups : List (String × List PolicyMember)) : List String :=
  namesOf (PolicyEditor.groupsOf groups)

end Headmaster.Operator
