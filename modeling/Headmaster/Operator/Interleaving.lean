import Headmaster.Operator.Convergence
import Headmaster.Scim.LostUpdate

/-!
# A sync among reconciles

A sync of the operator reads the policy, computes the whole of a new one and
sets it; any number of SCIM reconciles do the same under the policy lock, which
the operator does not take. The sync keeps the groups it read and the reconciles
the rest they read, so each half may be lost to the other writer. The groups come
back with the next reconcile; the rest does not.

* `Phase` says where a thread stands, and `Shared` what that says about the live
  policy: once the operator is through with it, its rest is that of the operator's
  policy up to pruning (`Kept`). Every call keeps this (`shared_act`);
* `bothHalves_of_orderly`: once all have returned and another reconcile has run,
  both halves are right, in the executions where every reconcile that writes after
  the operator is `Careful`: it has not read the policy before the operator set it,
  and knows those groups of the final mapping that the operator's grants name;
* `bothHalves_lost`: where a reconcile has read before, the rest is that of before.
-/

namespace Headmaster.Operator

open Process
open Policy (PolicyText PolicyEditor PolicyMember Grant)
open Scim (World ScimError groupsWrite withGroupMembership setGroupMembership exists_reconciled
  oneGroups_withGroupMembership rest_withGroupMembership)

/-- The calls of both writers. -/
abbrev bothSig : Sig := syncSig.sum Scim.sig

abbrev Groups := List (String × List PolicyMember)

/-- Both writers, with every call to headscale served. -/
def reliable : Machine bothSig World (Unit × Scim.Os) (Empty ⊕ Scim.Accounts) :=
  Machine.sum { act := fun _ => syncAct {}, ready := fun _ _ => true, env := nofun } Scim.reliable

abbrev BothPool := Pool bothSig (SyncError ⊕ ScimError) Unit World

/-- A sync of an inline policy with SCIM, and reconciles for some groups. -/
def together (read : Reader) (digest : Digest) (inline : PolicyText) (ingresses : List Ingress)
    (reconciles : List Groups) (w : World) : BothPool where
  world := w
  threads :=
    (syncPolicy read digest (some inline) true ingresses).inl.mapError .inl ::
      reconciles.map fun groups => (setGroupMembership groups).inr.mapError .inr

/-! ## Where the threads stand -/

/-- Where a thread stands: the operator (up to `syncWritten`), or a reconcile. -/
inductive Phase
  | fresh
  | connected
  /-- The operator has read the live policy. -/
  | syncRead (live : PolicyText)
  | syncWritten (live : PolicyText)
  | waiting (groups : Groups)
  | locked (groups : Groups)
  /-- The reconcile has read the live policy. -/
  | fetched (groups : Groups) (live : PolicyText)
  | written
  | released

/-- The policy a client takes from an answer: the empty text when none was ever set. -/
def textOf : Except Status PolicyText → PolicyText
  | .ok policy => policy
  | .error _ => .blank ""

section Follows

variable (read : Reader) (digest : Digest) (inline : PolicyText) (ingresses : List Ingress)

namespace Phase

/-- What the answer to a call moves a thread to. -/
def after : Phase → (o : SyncOp ⊕ Scim.Op) → bothSig.Ans o → Phase
  | fresh, .inl .connect, _ => connected
  | connected, .inl .getPolicy, a => syncRead (textOf a)
  | syncRead live, .inl (.setPolicy _), _ => syncWritten live
  | waiting groups, .inr .lockPolicy, _ => locked groups
  | locked groups, .inr .getPolicy, a => fetched groups (textOf a)
  | fetched _ _, .inr (.setPolicy _), _ => written
  | locked _, .inr .unlockPolicy, _ => released
  | fetched _ _, .inr .unlockPolicy, _ => released
  | written, .inr .unlockPolicy, _ => released
  | ph, _, _ => ph

/-- The reconcile holds the policy lock. -/
def Holds : Phase → Prop
  | locked _ | fetched _ _ | written => True
  | _ => False

/-- What a thread may call. -/
def allows (ph : Phase) : SyncOp ⊕ Scim.Op → Prop
  | .inl .connect => ph = fresh
  | .inl .getPolicy => ph = connected
  | .inl (.publishWarning _ _ _) => ∃ live, ph = syncRead live
  | .inl (.setPolicy p) => ∃ live, ph = syncRead live ∧
      syncWrite read digest (some inline) true ingresses live = some p
  | .inl .notifyScim => ∃ live, ph = syncWritten live
  | .inr .lockPolicy => ∃ groups, ph = waiting groups
  | .inr .getPolicy => ∃ groups, ph = locked groups
  | .inr (.setPolicy p) => ∃ groups live, ph = fetched groups live ∧ groupsWrite groups live = some p
  | .inr .unlockPolicy => ph.Holds
  | _ => False

/-- The operator is through with the live policy: it has set it, or found nothing to write over
    what it read. -/
def Settled (live : PolicyText) : Phase → Prop
  | syncRead live' => live' = live ∧ syncWrite read digest (some inline) true ingresses live = none
  | syncWritten live' => live' = live
  | _ => False

end Phase

/-- The phases as a contract on the calls of both writers. -/
def phases : Contract bothSig Phase where
  allows := Phase.allows read digest inline ingresses
  next ph o a ph' := ph' = ph.after o a

/-- The same for the calls of the operator. -/
def syncPhases : Contract syncSig Phase where
  allows ph o := ph.allows read digest inline ingresses (.inl o)
  next ph o a ph' := ph' = ph.after (.inl o) a

def scimPhases : Contract Scim.sig Phase where
  allows ph o := ph.allows read digest inline ingresses (.inr o)
  next ph o a ph' := ph' = ph.after (.inr o) a

variable {read digest inline ingresses}

theorem sync_follows : (syncPolicy read digest (some inline) true ingresses).wp
    (syncPhases read digest inline ingresses)
    (fun r ph => r = .ok () → ∃ live, ph.Settled read digest inline ingresses live) .fresh := by
  refine Prog.wp_bind.2 (Prog.wp_bind.2 ⟨rfl, ?_⟩)
  rintro (e | _) _ rfl
  · rintro ⟨⟩
  refine Prog.wp_bind.2 (Prog.wp_bind.2 ⟨rfl, ?_⟩)
  rintro a _ rfl
  -- what was read, as in the phase
  have hread (live : PolicyText) : (do
      let editor ← Prog.ofExcept ((PolicyEditor.parse inline).mapError SyncError.invalidPolicy)
      let effectiveDesired ← mergeIngressGrants read digest (policyBeforeGrants true live editor)
        ingresses
      if Policy.policiesAreSemanticallyEqual live effectiveDesired then
        return
      setPolicy effectiveDesired
      if true then
        notifyScim : SyncM Unit).wp (syncPhases read digest inline ingresses)
      (fun r ph => r = .ok () → ∃ live, ph.Settled read digest inline ingresses live)
      (.syncRead live) := by
    refine Prog.wp_bind.2 ?_
    rw [Prog.wp_ofExcept]
    cases hparse : PolicyEditor.parse inline with
    | error e => rintro ⟨⟩
    | ok editor =>
      dsimp only [Except.mapError, Post.andThen_ok]
      -- the warnings before the policy is set leave the phase as it is
      refine Prog.wp_bind.2 (wp_mergeIngressGrants (I := (· = .syncRead live)) ?_ rfl ?_)
      · rintro _ ing reason note rfl
        exact ⟨⟨live, rfl⟩, fun _ _ h => h⟩
      rintro _ rfl
      rw [Post.andThen_ok]
      split
      · rename_i hequal
        exact fun _ => ⟨live, rfl, by rw [syncWrite, hparse]; exact if_pos hequal⟩
      · rename_i hequal
        have hwrite : syncWrite read digest (some inline) true ingresses live =
            some (effectiveDesired read digest true ingresses live editor) := by
          rw [syncWrite, hparse]
          exact if_neg hequal
        refine Prog.wp_bind.2 (Prog.wp_bind.2 ⟨⟨live, rfl, hwrite⟩, ?_⟩)
        rintro (e | _) _ rfl
        · rintro ⟨⟩
        · refine ⟨⟨live, rfl⟩, ?_⟩
          rintro _ _ rfl
          exact fun _ => ⟨live, rfl⟩
  -- without a policy, it goes on with the empty text
  cases a with
  | ok policy => exact hread policy
  | error s =>
    change Prog.wp (syncPhases read digest inline ingresses) _
      (if s.policyNotFound = true then pure (.blank "") else throw (.headscaleApi s) : SyncM PolicyText) _
    by_cases hs : s.policyNotFound = true
    · rw [if_pos hs]
      exact hread (.blank "")
    · rw [if_neg hs]
      rintro ⟨⟩

/-- A reconcile that replaces the groups holds the policy lock to its end. -/
theorem replaceGroups_follows {groups : Groups} {Q : Except ScimError Unit → Phase → Prop}
    (hQ : ∀ r ph, ph.Holds → Q r ph) :
    (Scim.replaceGroups groups).wp (scimPhases read digest inline ingresses) Q (.locked groups) := by
  refine Prog.wp_bind.2 (Prog.wp_bind.2 ⟨⟨groups, rfl⟩, ?_⟩)
  rintro a _ rfl
  have hparsed (live : PolicyText) :
      (Prog.ofExcept ((PolicyEditor.parse live).mapError fun e => ScimError.internal e.toString) :
        Scim.M PolicyEditor).wp (scimPhases read digest inline ingresses)
        (Post.andThen Q fun current ph => (do
          let newPolicy := withGroupMembership current groups
          if Policy.policiesAreSemanticallyEqual current.toText newPolicy.toText then
            return
          Scim.fromStatus (← Scim.setPolicy newPolicy.toText) : Scim.M Unit).wp
            (scimPhases read digest inline ingresses) Q ph)
        (.fetched groups live) := by
    rw [Prog.wp_ofExcept]
    cases hparse : PolicyEditor.parse live with
    | error e => exact hQ _ _ trivial
    | ok current =>
      dsimp only [Except.mapError, Post.andThen_ok]
      split
      · exact hQ _ _ trivial
      · rename_i hequal
        have hwrite : groupsWrite groups live = some (withGroupMembership current groups).toText := by
          rw [groupsWrite, hparse]
          exact if_neg hequal
        refine Prog.wp_bind.2 ⟨⟨groups, live, rfl, hwrite⟩, ?_⟩
        rintro (e | _) _ rfl
        · exact hQ _ _ trivial
        · exact hQ _ _ trivial
  -- the blank policy after NotFound takes the same way as one that was read
  cases a with
  | ok policy => exact hparsed policy
  | error s =>
    change Prog.wp (scimPhases read digest inline ingresses) _
      (if s.policyNotFound = true then pure (.blank "") >>= fun policy => Prog.ofExcept
          ((PolicyEditor.parse policy).mapError fun e => ScimError.internal e.toString)
        else throw (.ofStatus s) >>= fun policy : PolicyText => Prog.ofExcept
          ((PolicyEditor.parse policy).mapError fun e => ScimError.internal e.toString) :
        Scim.M PolicyEditor) _
    by_cases hs : s.policyNotFound = true
    · rw [if_pos hs]
      exact hparsed (.blank "")
    · rw [if_neg hs]
      exact hQ _ _ trivial

theorem reconcile_follows (groups : Groups) : (setGroupMembership groups).wp
    (scimPhases read digest inline ingresses) (fun _ _ => True) (.waiting groups) := by
  refine Prog.wp_bind.2 ⟨⟨groups, rfl⟩, ?_⟩
  rintro _ _ rfl
  refine Prog.wp_bind.2 (Prog.wp_attempt.2 (replaceGroups_follows fun r ph hheld => ?_))
  exact Prog.wp_bind.2 ⟨hheld, fun _ _ _ => trivial⟩

end Follows

/-! ## The condition -/

abbrev BothHistory := List (Entry bothSig World)

/-- The live policy that the operator has read. -/
def readBySync : BothHistory → Option PolicyText
  | [] => none
  | ⟨_, .inl .getPolicy, _, w⟩ :: _ => some w.livePolicy
  | _ :: h => readBySync h

/-- Since the operator set the policy, if it has, a reconcile has read it. -/
def upToDate (i : ℕ) : BothHistory → Bool
  | [] => true
  | ⟨_, .inl (.setPolicy _), _, _⟩ :: _ => false
  | ⟨j, .inr .getPolicy, _, _⟩ :: h => j == i || upToDate i h
  | _ :: h => upToDate i h

/-- The groups that a thread is to write; the operator has none. -/
def asked (reconciles : List Groups) : ℕ → Option Groups
  | 0 => none
  | i + 1 => reconciles[i]?

section Condition

variable (read : Reader) (digest : Digest) (editor : PolicyEditor) (ingresses : List Ingress)
  (reconciles : List Groups) (final : List String)

/-- A reconcile that is about to write has not read the policy before the operator set it, and
    takes no member away from the grants the operator wants but those that the final mapping
    has no group for. -/
structure Careful (i : ℕ) (h : BothHistory) : Prop where
  upToDate : upToDate i h = true
  spares : ∀ live r groups, readBySync h = some live →
    Effective read digest ingresses live editor r → asked reconciles i = some groups →
    r.Spares (groupNames groups) final

/-- The reconciles that write once the operator is through are careful. -/
def Orderly : BothHistory → Prop
  | [] => True
  | ⟨_, .inl .getPolicy, _, _⟩ :: _ | ⟨_, .inl (.setPolicy _), _, _⟩ :: _ => True
  | ⟨i, .inr (.setPolicy _), _, _⟩ :: h =>
    Careful read digest editor ingresses reconciles final i h ∧ Orderly h
  | _ :: h => Orderly h

end Condition

theorem upToDate_cons_of_ne {i : ℕ} {e : Entry bothSig World} {h : BothHistory} (hne : e.thread ≠ i)
    (hold : upToDate i h = false) : upToDate i (e :: h) = false := by
  match e with
  | ⟨_, .inl (.setPolicy _), _, _⟩ => rfl
  | ⟨j, .inr .getPolicy, _, _⟩ =>
    rw [upToDate, hold, Bool.or_false]
    exact beq_eq_false_iff_ne.2 hne
  | ⟨_, .inl .connect, _, _⟩ | ⟨_, .inl .getPolicy, _, _⟩ | ⟨_, .inl .notifyScim, _, _⟩
  | ⟨_, .inl (.publishWarning _ _ _), _, _⟩
  | ⟨_, .inr (.locked _), _, _⟩ | ⟨_, .inr .lockPolicy, _, _⟩ | ⟨_, .inr .unlockPolicy, _, _⟩
  | ⟨_, .inr (.setPolicy _), _, _⟩ | ⟨_, .inr .listNodes, _, _⟩ | ⟨_, .inr (.expireNode _), _, _⟩
  | ⟨_, .inr .listUsers, _, _⟩ | ⟨_, .inr (.deleteUser _), _, _⟩ => exact hold

/-! ## What is kept of the rest -/

section Kept

variable {read : Reader} {digest : Digest} {inline : PolicyText} {ingresses : List Ingress}
  {editor r : PolicyEditor} {final : List String} {live p : PolicyText} {groups : Groups}

/-- A policy has the rest of `r`, once both are pruned for the final mapping, and its grants
    have no other members. -/
structure Keeps (final : List String) (r e : PolicyEditor) : Prop where
  isObject : e.IsObject
  oneGroups : e.OneGroups
  rest : (e.rest.filterMapGrants (Grant.prune final)).Alike
    (r.rest.filterMapGrants (Grant.prune final))
  spares : ∀ names, r.Spares names final → e.Spares names final

/-- A live policy is an object that has the rest of `r`, up to pruning. -/
def Kept (final : List String) (r : PolicyEditor) (live : PolicyText) : Prop :=
  ∃ e, live = e.toText ∧ Keeps final r e

theorem Effective.tidyGrants (hr : Effective read digest ingresses live editor r)
    (hd : editor.TidyGrants) : r.TidyGrants := by
  rw [← PolicyEditor.tidyGrants_rest, hr.rest]
  exact tidyGrants_merged (PolicyEditor.tidyGrants_rest.2 hd)

/-- What the operator has computed, once it is set. -/
theorem kept_of_written (hr : Effective read digest ingresses live editor r) :
    Kept final r r.toText :=
  ⟨r, rfl, hr.isObject, hr.oneGroups, .refl _, fun _ h => h⟩

/-- A live policy over which the operator has nothing to write. -/
theorem kept_of_not_written (hparse : PolicyEditor.parse inline = .ok editor)
    (hd : editor.TidyGrants) (hlive : ∀ e, PolicyEditor.parse live = .ok e → Tidy e)
    (hr : Effective read digest ingresses live editor r)
    (hwrite : syncWrite read digest (some inline) true ingresses live = none) :
    Kept final r live := by
  obtain ⟨e, heq, he, hone, halike, _⟩ := exists_synced hparse hr (once_of_tidy hlive)
  rw [hwrite, Option.getD_none] at heq
  have htidy : e.TidyGrants := (hlive e (heq ▸ he.parse_toText)).grants
  have hrest : (e.rest.filterMapGrants (Grant.prune final)).Alike
      (r.rest.filterMapGrants (Grant.prune final)) :=
    (halike.rest hone hr.oneGroups).filterMapGrants_prune (PolicyEditor.tidyGrants_rest.2 htidy)
      (PolicyEditor.tidyGrants_rest.2 (hr.tidyGrants hd))
  exact ⟨e, heq, he, hone, hrest, fun _ h => halike.spares_members htidy (hr.tidyGrants hd) h⟩

theorem rest_reconciled {e : PolicyEditor} (h : e.OneGroups) : (withGroupMembership e groups).rest =
    e.rest.filterMapGrants (Grant.prune (groupNames groups)) := rest_withGroupMembership h

/-- A reconcile keeps the rest, if it takes no member that would be kept in the end. -/
theorem Keeps.reconciled {e : PolicyEditor} (h : Keeps final r e)
    (hspares : r.Spares (groupNames groups) final) :
    Keeps final r (withGroupMembership e groups) where
  isObject := Scim.isObject_withGroupMembership
  oneGroups := oneGroups_withGroupMembership h.oneGroups
  rest := by
    have he : e.rest.Spares (groupNames groups) final :=
      PolicyEditor.spares_rest.2 (h.spares _ hspares)
    rw [rest_reconciled h.oneGroups, PolicyEditor.filterMapGrants_prune_prune he]
    exact h.rest
  spares names hnames := by
    rw [← PolicyEditor.spares_rest, rest_reconciled h.oneGroups]
    exact (PolicyEditor.spares_rest.2 (h.spares names hnames)).filterMapGrants_prune

theorem Kept.reconciled (h : Kept final r live) (hspares : r.Spares (groupNames groups) final)
    (hwrite : groupsWrite groups live = some p) : Kept final r p := by
  obtain ⟨e, rfl, he⟩ := h
  rw [groupsWrite, he.isObject.parse_toText] at hwrite
  dsimp only at hwrite
  split at hwrite
  · cases hwrite
  · exact ⟨_, (Option.some.inj hwrite).symm, he.reconciled hspares⟩

/-- A reconcile with the final mapping leaves what is kept. -/
theorem Kept.sections (h : Kept (groupNames groups) r live) {k : String} (hk : k ≠ "groups") :
    Policy.sectionOf ((groupsWrite groups live).getD live) k =
      Policy.sectionOf (r.filterMapGrants (Grant.prune (groupNames groups))).toText k := by
  obtain ⟨e, rfl, he⟩ := h
  obtain ⟨e', heq, _, hone', halike, _⟩ := exists_reconciled groups he.isObject he.oneGroups
  rw [heq, halike k, ← PolicyEditor.sectionOf_rest hk, rest_reconciled he.oneGroups, he.rest k,
    ← PolicyEditor.rest_filterMapGrants, PolicyEditor.sectionOf_rest hk]

end Kept

/-! ## Executions -/

namespace Phase

/-- The live policy that the operator has read. -/
def seen? : Phase → Option PolicyText
  | syncRead live | syncWritten live => some live
  | _ => none

/-- The first thread is the operator, and the others are reconciles for the groups asked. -/
def Fits (reconciles : List Groups) (i : ℕ) : Phase → Prop
  | fresh | connected | syncRead _ | syncWritten _ => i = 0
  | waiting groups | locked groups | fetched groups _ => asked reconciles i = some groups
  | written | released => i ≠ 0

theorem Settled.seen {read : Reader} {digest : Digest} {inline live : PolicyText}
    {ingresses : List Ingress} {ph : Phase} (h : ph.Settled read digest inline ingresses live) :
    ph.seen? = some live := by
  match ph, h with
  | syncRead _, h => exact congrArg some h.1
  | syncWritten _, h => exact congrArg some h

theorem ne_zero_of_asked {reconciles : List Groups} {i : ℕ} {groups : Groups}
    (h : asked reconciles i = some groups) : i ≠ 0 := by
  rintro rfl
  cases h

theorem Fits.ne_zero {reconciles : List Groups} {i : ℕ} {ph : Phase} (h : ph.Fits reconciles i)
    (hheld : ph.Holds) : i ≠ 0 := by
  match ph, hheld with
  | locked _, _ | fetched _ _, _ => exact ne_zero_of_asked h
  | written, _ => exact h

end Phase

section Shared

variable (read : Reader) (digest : Digest) (inline : PolicyText) (editor : PolicyEditor)
  (ingresses : List Ingress) (reconciles : List Groups) (final : List String)

/-- What holds throughout an execution. -/
structure Shared (w : World) (h : BothHistory) (ph : ℕ → Phase) : Prop where
  tidy : ∀ e, PolicyEditor.parse w.livePolicy = .ok e → Tidy e
  fits : ∀ i, (ph i).Fits reconciles i
  alone : ∀ i, (ph i).Holds → w.policyLocked = true ∧ ∀ j, (ph j).Holds → j = i
  /-- What a reconcile has read is live, unless the operator has set another policy since. -/
  fetched : ∀ i groups live, ph i = .fetched groups live →
    (∀ e, PolicyEditor.parse live = .ok e → Tidy e) ∧ (live = w.livePolicy ∨ upToDate i h = false)
  seen : ∀ live, (ph 0).seen? = some live → readBySync h = some live
  kept : ∀ live r, (ph 0).Settled read digest inline ingresses live →
    Effective read digest ingresses live editor r →
    Orderly read digest editor ingresses reconciles final h → Kept final r w.livePolicy

variable {read digest inline editor ingresses reconciles final} {w w' : World} {h : BothHistory}
  {ph : ℕ → Phase} {i : ℕ} {p' : Phase} {live p : PolicyText} {groups : Groups}

theorem tidy_withGroupMembership {e : PolicyEditor} (h : Tidy e) :
    Tidy (withGroupMembership e groups) where
  groups := oneGroups_withGroupMembership h.groups
  grants := by
    rw [← PolicyEditor.tidyGrants_rest, rest_reconciled h.groups]
    exact PolicyEditor.tidyGrants_filterMapGrants_prune (PolicyEditor.tidyGrants_rest.2 h.grants)

namespace Shared

/-- A call that leaves the live policy and concerns neither reading nor writing it. -/
theorem quiet (hs : Shared read digest inline editor ingresses reconciles final w h ph)
    {e : Entry bothSig World} (hfits : p'.Fits reconciles i) (hlive : w'.livePolicy = w.livePolicy)
    (halone : ∀ j, (Function.update ph i p' j).Holds →
      w'.policyLocked = true ∧ ∀ k, (Function.update ph i p' k).Holds → k = j)
    (hseen : p'.seen? = none) (hfetched : ∀ groups live, p' ≠ .fetched groups live)
    (hread : readBySync (e :: h) = readBySync h) (hup : ∀ j, upToDate j (e :: h) = upToDate j h)
    (horderly : Orderly read digest editor ingresses reconciles final (e :: h) →
      Orderly read digest editor ingresses reconciles final h) :
    Shared read digest inline editor ingresses reconciles final w' (e :: h)
      (Function.update ph i p') where
  tidy := hlive ▸ hs.tidy
  fits := (Function.forall_update_iff ph _).2 ⟨hfits, fun j _ => hs.fits j⟩
  alone := halone
  fetched j groups live hj := by
    rw [hlive, hup]
    -- the one who moved has nothing fetched; the others' copies are as fresh as before
    rcases eq_or_ne j i with rfl | hne
    · rw [Function.update_self] at hj
      exact absurd hj (hfetched groups live)
    · rw [Function.update_of_ne hne] at hj
      exact hs.fetched j groups live hj
  seen live hl := by
    rw [hread]
    rcases eq_or_ne 0 i with rfl | hne
    · rw [Function.update_self, hseen] at hl
      cases hl
    · rw [Function.update_of_ne hne] at hl
      exact hs.seen live hl
  kept live r hsettled hr ho := by
    rw [hlive]
    rcases eq_or_ne 0 i with rfl | hne
    · rw [Function.update_self] at hsettled
      cases hseen.symm.trans hsettled.seen
    · rw [Function.update_of_ne hne] at hsettled
      exact hs.kept live r hsettled hr (horderly ho)

/-- The lock is with whom it was. -/
theorem alone_move (hs : Shared read digest inline editor ingresses reconciles final w h ph)
    (hheld : p'.Holds → (ph i).Holds) (hlocked : w'.policyLocked = w.policyLocked) (j : ℕ)
    (hj : (Function.update ph i p' j).Holds) :
    w'.policyLocked = true ∧ ∀ k, (Function.update ph i p' k).Holds → k = j := by
  have hbefore (k : ℕ) (hk : (Function.update ph i p' k).Holds) : (ph k).Holds := by
    rcases eq_or_ne k i with rfl | hne
    · rw [Function.update_self] at hk
      exact hheld hk
    · rwa [Function.update_of_ne hne] at hk
  obtain ⟨hw, hothers⟩ := hs.alone j (hbefore j hj)
  exact ⟨hlocked.trans hw, fun k hk => hothers k (hbefore k hk)⟩

/-- The operator reads the policy. -/
theorem sync_read (hs : Shared read digest inline editor ingresses reconciles final w h ph)
    (hparse : PolicyEditor.parse inline = .ok editor) (hd : editor.TidyGrants)
    (a : Except Status PolicyText) :
    Shared read digest inline editor ingresses reconciles final w (⟨0, .inl .getPolicy, a, w⟩ :: h)
      (Function.update ph 0 (.syncRead w.livePolicy)) where
  tidy := hs.tidy
  fits := (Function.forall_update_iff ph _).2 ⟨rfl, fun j _ => hs.fits j⟩
  alone := hs.alone_move False.elim rfl
  fetched j groups live hj := by
    rcases eq_or_ne j 0 with rfl | hne
    · rw [Function.update_self] at hj
      cases hj
    · rw [Function.update_of_ne hne] at hj
      exact hs.fetched j groups live hj
  seen live hl := by
    rw [Function.update_self] at hl
    exact hl
  kept live r hsettled hr _ := by
    rw [Function.update_self] at hsettled
    obtain ⟨rfl, hwrite⟩ := hsettled
    exact kept_of_not_written hparse hd hs.tidy hr hwrite

/-- The operator sets the policy it has computed. -/
theorem sync_set (hs : Shared read digest inline editor ingresses reconciles final w h ph)
    (hparse : PolicyEditor.parse inline = .ok editor) (hd : Tidy editor)
    (hph : ph 0 = .syncRead live)
    (hwrite : syncWrite read digest (some inline) true ingresses live = some p)
    (a : Except Status Unit) :
    Shared read digest inline editor ingresses reconciles final
      { w with headscale.policy := some p } (⟨0, .inl (.setPolicy p), a, w⟩ :: h)
      (Function.update ph 0 (.syncWritten live)) := by
  have htext {r : PolicyEditor} (hr : Effective read digest ingresses live editor r) :
      p = r.toText := by
    rw [syncWrite_inline hparse hr] at hwrite
    split at hwrite
    · cases hwrite
    · exact (Option.some.inj hwrite).symm
  constructor
  case tidy =>
    obtain ⟨r, hr⟩ := exists_effective read digest ingresses live hd.groups
    rintro e (he : PolicyEditor.parse p = .ok e)
    rw [htext hr, hr.isObject.parse_toText] at he
    obtain rfl := Except.ok.inj he
    exact ⟨hr.oneGroups, hr.tidyGrants hd.grants⟩
  case fits => exact (Function.forall_update_iff ph _).2 ⟨rfl, fun j _ => hs.fits j⟩
  case alone => exact hs.alone_move False.elim rfl
  case fetched =>
    intro j groups live hj
    rcases eq_or_ne j 0 with rfl | hne
    · rw [Function.update_self] at hj
      cases hj
    · -- whatever the reconcile has read, it has not since
      rw [Function.update_of_ne hne] at hj
      exact ⟨(hs.fetched j groups live hj).1, .inr rfl⟩
  case seen =>
    intro live' hl
    rw [Function.update_self] at hl
    exact hs.seen live' (hph ▸ hl)
  case kept =>
    intro live' r hsettled hr _
    rw [Function.update_self] at hsettled
    obtain rfl : live = live' := hsettled
    have hlive : World.livePolicy { w with headscale.policy := some p } = r.toText := htext hr
    rw [hlive]
    exact kept_of_written hr

/-- A reconcile reads the policy. -/
theorem fetch (hs : Shared read digest inline editor ingresses reconciles final w h ph)
    (hph : ph i = .locked groups) (a : Except Status PolicyText) :
    Shared read digest inline editor ingresses reconciles final w (⟨i, .inr .getPolicy, a, w⟩ :: h)
      (Function.update ph i (.fetched groups w.livePolicy)) := by
  have hasked : asked reconciles i = some groups := by
    have := hs.fits i
    rwa [hph] at this
  have hne : 0 ≠ i := (Phase.ne_zero_of_asked hasked).symm
  constructor
  case tidy => exact hs.tidy
  case fits => exact (Function.forall_update_iff ph _).2 ⟨hasked, fun j _ => hs.fits j⟩
  case alone => exact hs.alone_move (fun _ => hph ▸ trivial) rfl
  case fetched =>
    intro j groups' live hj
    rcases eq_or_ne j i with rfl | hji
    · rw [Function.update_self] at hj
      cases hj
      -- what was read just now is the policy in force
      exact ⟨hs.tidy, .inl rfl⟩
    · rw [Function.update_of_ne hji] at hj
      exact (hs.fetched j groups' live hj).imp_right (Or.imp_right (upToDate_cons_of_ne hji.symm))
  case seen =>
    intro live hl
    rw [Function.update_of_ne hne] at hl
    exact hs.seen live hl
  case kept =>
    intro live r hsettled hr ho
    rw [Function.update_of_ne hne] at hsettled
    exact hs.kept live r hsettled hr ho

/-- A reconcile sets the policy it has computed. -/
theorem set (hs : Shared read digest inline editor ingresses reconciles final w h ph)
    (hph : ph i = .fetched groups live) (hwrite : groupsWrite groups live = some p)
    (a : Except Status Unit) :
    Shared read digest inline editor ingresses reconciles final
      { w with headscale.policy := some p } (⟨i, .inr (.setPolicy p), a, w⟩ :: h)
      (Function.update ph i .written) := by
  have hasked : asked reconciles i = some groups := by
    have := hs.fits i
    rwa [hph] at this
  have hne : 0 ≠ i := (Phase.ne_zero_of_asked hasked).symm
  obtain ⟨htidy, hstale⟩ := hs.fetched i groups live hph
  constructor
  case tidy =>
    rintro e (he : PolicyEditor.parse p = .ok e)
    rw [groupsWrite] at hwrite
    split at hwrite
    · cases hwrite
    · rename_i current hparse
      dsimp only at hwrite
      split at hwrite
      · cases hwrite
      · rw [← Option.some.inj hwrite, Scim.isObject_withGroupMembership.parse_toText] at he
        obtain rfl := Except.ok.inj he
        exact tidy_withGroupMembership (htidy current hparse)
  case fits => exact (Function.forall_update_iff ph _).2 ⟨hne.symm, fun j _ => hs.fits j⟩
  case alone => exact hs.alone_move (fun _ => hph ▸ trivial) rfl
  case fetched =>
    intro j groups' live' hj
    rcases eq_or_ne j i with rfl | hji
    · rw [Function.update_self] at hj
      cases hj
    · -- it would hold the lock as well
      rw [Function.update_of_ne hji] at hj
      exact absurd ((hs.alone i (hph ▸ trivial)).2 j (hj ▸ trivial)) hji
  case seen =>
    intro live' hl
    rw [Function.update_of_ne hne] at hl
    exact hs.seen live' hl
  case kept =>
    intro live' r hsettled hr ho
    obtain ⟨hcareful, ho⟩ := ho
    rw [Function.update_of_ne hne] at hsettled
    obtain rfl : live = w.livePolicy := hstale.resolve_right (by simp [hcareful.upToDate])
    exact (hs.kept live' r hsettled hr ho).reconciled
      (hcareful.spares live' r groups (hs.seen live' hsettled.seen) hr hasked) hwrite

/-- A reconcile takes the policy lock, when it is free. -/
theorem lock (hs : Shared read digest inline editor ingresses reconciles final w h ph)
    (hfree : w.policyLocked = false) (hasked : asked reconciles i = some groups) (a : Unit) :
    Shared read digest inline editor ingresses reconciles final { w with policyLocked := true }
      (⟨i, .inr .lockPolicy, a, w⟩ :: h) (Function.update ph i (.locked groups)) := by
  have honly (k : ℕ) (hk : (Function.update ph i (.locked groups) k).Holds) : k = i := by
    by_contra hne
    rw [Function.update_of_ne hne] at hk
    exact Bool.false_ne_true (hfree.symm.trans (hs.alone k hk).1)
  refine hs.quiet hasked rfl (fun j hj => ?_) rfl nofun rfl (fun _ => rfl) id
  obtain rfl := honly j hj
  exact ⟨rfl, honly⟩

/-- A reconcile releases the policy lock. -/
theorem unlock (hs : Shared read digest inline editor ingresses reconciles final w h ph)
    (hheld : (ph i).Holds) (a : Unit) :
    Shared read digest inline editor ingresses reconciles final { w with policyLocked := false }
      (⟨i, .inr .unlockPolicy, a, w⟩ :: h) (Function.update ph i .released) := by
  refine hs.quiet ((hs.fits i).ne_zero hheld) rfl (fun j hj => ?_) rfl nofun rfl (fun _ => rfl) id
  rcases eq_or_ne j i with rfl | hne
  · rw [Function.update_self] at hj
    exact hj.elim
  · rw [Function.update_of_ne hne] at hj
    exact absurd ((hs.alone i hheld).2 j hj) hne

end Shared

theorem act_sync_getPolicy (f : Unit × Scim.Os) (w : World) :
    reliable.act f (.inl .getPolicy) w = (w.headscale.getPolicy.1, w) :=
  (congrArg (w.serve {}) (Scim.getPolicy_eq w.headscale)).trans rfl

theorem act_getPolicy (f : Unit × Scim.Os) (w : World) :
    reliable.act f (.inr .getPolicy) w = (w.headscale.getPolicy.1, w) :=
  (congrArg (w.serve { os := f.2 }) (Scim.getPolicy_eq w.headscale)).trans rfl

theorem textOf_getPolicy (w : World) : textOf w.headscale.getPolicy.1 = w.livePolicy := by
  rw [Headscale.getPolicy, World.livePolicy]
  cases w.headscale.policy with
  | some _ => rfl
  | none => rfl

/-- A call that the phases allow keeps what holds throughout an execution. -/
theorem shared_act (hparse : PolicyEditor.parse inline = .ok editor) (hd : Tidy editor)
    (hs : Shared read digest inline editor ingresses reconciles final w h ph) {o : SyncOp ⊕ Scim.Op}
    {f : Unit × Scim.Os} {a : bothSig.Ans o} (hallow : (ph i).allows read digest inline ingresses o)
    (hready : reliable.ready w o = true) (hact : reliable.act f o w = (a, w')) :
    Shared read digest inline editor ingresses reconciles final w' (⟨i, o, a, w⟩ :: h)
      (Function.update ph i ((ph i).after o a)) := by
  have hfits := hs.fits i
  -- by the operation: its guard leaves one phase, or those holding the lock
  generalize hp : ph i = p at hallow hfits ⊢
  match o, hallow with
  | .inl .connect, hallow =>
    obtain rfl : p = .fresh := hallow
    obtain ⟨_, rfl⟩ := Prod.mk.inj hact
    exact hs.quiet hfits rfl (hs.alone_move False.elim rfl) rfl nofun rfl (fun _ => rfl) id
  | .inl .getPolicy, hallow =>
    obtain rfl : p = .connected := hallow
    obtain rfl : i = 0 := hfits
    obtain ⟨rfl, rfl⟩ := Prod.mk.inj ((act_sync_getPolicy f w).symm.trans hact)
    have hread := hs.sync_read hparse hd.grants w.headscale.getPolicy.1
    rwa [← textOf_getPolicy] at hread
  | .inl (.setPolicy _), hallow =>
    obtain ⟨_, rfl, hwrite⟩ := hallow
    obtain rfl : i = 0 := hfits
    obtain ⟨_, rfl⟩ := Prod.mk.inj hact
    exact hs.sync_set hparse hd hp hwrite _
  | .inl (.publishWarning ing reason note), hallow =>
    obtain ⟨live, rfl⟩ := hallow
    obtain ⟨rfl, rfl⟩ := Prod.mk.inj hact
    have hsame : Function.update ph i
        (Phase.after (.syncRead live) (.inl (.publishWarning ing reason note)) (.ok ())) = ph :=
      Function.update_eq_self_iff.2 hp.symm
    rw [hsame]
    exact ⟨hs.tidy, hs.fits, hs.alone, hs.fetched, hs.seen, hs.kept⟩
  | .inl .notifyScim, hallow =>
    obtain ⟨live, rfl⟩ := hallow
    obtain ⟨rfl, rfl⟩ := Prod.mk.inj hact
    have hsame : Function.update ph i (Phase.after (.syncWritten live) (.inl .notifyScim) ()) = ph :=
      Function.update_eq_self_iff.2 hp.symm
    rw [hsame]
    exact ⟨hs.tidy, hs.fits, hs.alone, hs.fetched, hs.seen, hs.kept⟩
  | .inr .lockPolicy, hallow =>
    obtain ⟨_, rfl⟩ := hallow
    obtain ⟨_, rfl⟩ := Prod.mk.inj hact
    have hfree : w.policyLocked = false := Bool.not_eq_true' _ ▸ hready
    exact hs.lock hfree hfits _
  | .inr .getPolicy, hallow =>
    obtain ⟨_, rfl⟩ := hallow
    obtain ⟨rfl, rfl⟩ := Prod.mk.inj ((act_getPolicy f w).symm.trans hact)
    have hread := hs.fetch hp w.headscale.getPolicy.1
    rwa [← textOf_getPolicy] at hread
  | .inr (.setPolicy _), hallow =>
    obtain ⟨_, _, rfl, hwrite⟩ := hallow
    obtain ⟨_, rfl⟩ := Prod.mk.inj hact
    exact hs.set hp hwrite _
  | .inr .unlockPolicy, hheld =>
    obtain ⟨_, rfl⟩ := Prod.mk.inj hact
    have hafter : p.after (.inr .unlockPolicy) a = .released := by
      match p, hheld with
      | .locked _, _ | .fetched _ _, _ | .written, _ => rfl
    rw [hafter]
    exact hs.unlock (hp ▸ hheld) _

/-! ### All calls -/

variable (reconciles) in
/-- Where the threads stand at first. -/
def started : ℕ → Phase
  | 0 => .fresh
  | i + 1 => match reconciles[i]? with
    | some groups => .waiting groups
    | none => .released

theorem together_follows : Machine.Follows (phases read digest inline ingresses)
    (fun i r ph => i = 0 → r = .ok () → ∃ live, ph.Settled read digest inline ingresses live)
    (together read digest inline ingresses reconciles w).threads (started reconciles) := by
  intro i p hp
  match i with
  | 0 =>
    obtain rfl := Option.some.inj hp
    refine Prog.wp_mapError.2 (Prog.wp_lift (c := syncPhases read digest inline ingresses)
      (fun _ _ => id) (fun _ _ _ _ _ => id) (Prog.wp_mono ?_ sync_follows))
    rintro (e | _) ph hsettled _ hr
    · cases hr
    · exact hsettled rfl
  | i + 1 =>
    rw [together, List.getElem?_cons_succ, List.getElem?_map, Option.map_eq_some_iff] at hp
    obtain ⟨groups, hgroups, rfl⟩ := hp
    have hwaiting : started reconciles (i + 1) = .waiting groups := by rw [started, hgroups]
    rw [hwaiting]
    exact Prog.wp_mapError.2 (Prog.wp_lift (c := scimPhases read digest inline ingresses)
      (fun _ _ => id) (fun _ _ _ _ _ => id)
      (Prog.wp_mono (fun _ _ _ => nofun) (reconcile_follows groups)))

theorem shared_started (hlive : ∀ e, PolicyEditor.parse w.livePolicy = .ok e → Tidy e) :
    Shared read digest inline editor ingresses reconciles final w [] (started reconciles) := by
  -- thread 0 is the sync, the reconciles follow, and nobody is beyond them
  have hstart (i : ℕ) : started reconciles i = .fresh ∧ i = 0 ∨
      started reconciles i = .released ∧ i ≠ 0 ∨
      ∃ groups, started reconciles i = .waiting groups ∧ asked reconciles i = some groups := by
    match i with
    | 0 => exact .inl ⟨rfl, rfl⟩
    | i + 1 =>
      rw [started, asked]
      match reconciles[i]? with
      | some groups => exact .inr (.inr ⟨groups, rfl, rfl⟩)
      | none => exact .inr (.inl ⟨rfl, nofun⟩)
  constructor
  case tidy => exact hlive
  case fits =>
    intro i
    rcases hstart i with ⟨heq, hi⟩ | ⟨heq, hi⟩ | ⟨groups, heq, hi⟩ <;> rw [heq] <;> exact hi
  case alone =>
    intro i hi
    rcases hstart i with ⟨heq, _⟩ | ⟨heq, _⟩ | ⟨groups, heq, _⟩ <;> rw [heq] at hi <;> exact hi.elim
  case fetched =>
    intro i groups live hi
    rcases hstart i with ⟨heq, _⟩ | ⟨heq, _⟩ | ⟨groups, heq, _⟩ <;> cases heq.symm.trans hi
  case seen => exact nofun
  case kept => exact fun _ _ hsettled => hsettled.elim

variable (read digest editor ingresses) in
/-- Both halves are right: the groups are those of the mapping, and the rest is that of the policy
    the operator has computed from what it read, but for the members of groups that are not in the
    mapping. -/
def BothHalves (config : Scim.ScimConfig) (h : BothHistory) (w : World) : Prop :=
  (∃ live r, readBySync h = some live ∧ Effective read digest ingresses live editor r ∧
    ∀ k, k ≠ "groups" → Policy.sectionOf w.livePolicy k = Policy.sectionOf (r.filterMapGrants
      (Grant.prune (groupNames (Scim.desiredGroups config w.store.mapping)))).toText k) ∧
  Scim.InSync config w

/-- The accounts of headscale are not looked at. -/
theorem Shared.env (hs : Shared read digest inline editor ingresses reconciles final w h ph)
    (g : Empty ⊕ Scim.Accounts) :
    Shared read digest inline editor ingresses reconciles final (reliable.env g w) h ph := by
  match g with
  | .inr _ => exact ⟨hs.tidy, hs.fits, hs.alone, hs.fetched, hs.seen, hs.kept⟩

/-- Once all have returned `Ok` and a reconcile for the final mapping has succeeded, both halves are
    right, if the reconciles that wrote once the operator was through were careful. -/
theorem bothHalves_of_orderly (hparse : PolicyEditor.parse inline = .ok editor) (hd : Tidy editor)
    (hlive : ∀ e, PolicyEditor.parse w.livePolicy = .ok e → Tidy e)
    {events : List (Event (Unit × Scim.Os) (Empty ⊕ Scim.Accounts))} {s : BothPool}
    (hexec : reliable.exec (together read digest inline ingresses reconciles w) events = some s)
    (hok : ∀ p ∈ s.threads, p.returnedOk = true) {config : Scim.ScimConfig} {store : Scim.Store}
    (horderly : Orderly read digest editor ingresses reconciles
      (groupNames (Scim.desiredGroups config store.mapping)) s.history)
    (hreconcile : Scim.machine.Reaches (Scim.reconcileGroupsPolicy config)
      { s.world with store := store } (.ok ()) w') :
    BothHalves read digest editor ingresses config s.history w' := by
  obtain ⟨ph, hfollows, hshared, _⟩ := Machine.exec_phases (phases read digest inline ingresses)
    (fun i r ph => i = 0 → r = .ok () → ∃ live, ph.Settled read digest inline ingresses live)
    (Shared read digest inline editor ingresses reconciles
      (groupNames (Scim.desiredGroups config store.mapping)))
    (fun w h ph i o f hs hallow hready => ⟨_, rfl, shared_act hparse hd hs hallow hready rfl⟩)
    (fun w h ph g hs => hs.env g) together_follows (shared_started hlive) hexec
  -- the operator is through
  have hfirst : 0 < s.threads.length := by
    rw [Machine.exec_length hexec]
    exact Nat.succ_pos _
  obtain ⟨_, hdone⟩ := Prog.returnedOk_iff.1 (hok _ (List.getElem_mem hfirst))
  obtain ⟨live, hsettled⟩ := hfollows.of_result
    ((List.getElem?_eq_getElem hfirst).trans (congrArg some hdone)) rfl rfl
  obtain ⟨r, hr⟩ := exists_effective read digest ingresses live hd.groups
  have hkept := hshared.kept live r hsettled hr horderly
  obtain ⟨hstore, hpolicy⟩ := Scim.of_reconciled hreconcile
  have hmapping : w'.store.mapping = store.mapping := congrArg Scim.Store.mapping hstore
  refine ⟨⟨live, r, hshared.seen live hsettled.seen, hr, fun k hk => ?_⟩, ?_⟩
  · rw [hmapping, hpolicy]
    exact hkept.sections hk
  · refine hreconcile.of_wp (Q := fun r w' => r = .ok () → Scim.InSync config w') ?_ rfl
    refine Scim.wp_reconcileGroupsPolicy (fun policy hsync _ => (hsync ?_).2) fun _ _ _ he => nomatch he
    exact once_of_tidy hshared.tidy

end Shared

namespace Interleaving

/-- The group `eng`, as the SCIM server has it. -/
abbrev engineers : Groups := Scim.desiredGroups {} (Convergence.world [Convergence.eng]).store.mapping

/-- A policy is there, without anything in it. -/
def world : World :=
  { Convergence.world [Convergence.eng] with headscale.policy := some (.document (.object [])) }

/-- A grant for the group `eng`, and a reconcile that writes that group. -/
def pool : BothPool :=
  together Convergence.reader Contribution.sha256 (Convergence.grantTo "group:eng") [] [engineers] world

/-- The next call of a thread. -/
abbrev call (i : ℕ) : Event (Unit × Scim.Os) (Empty ⊕ Scim.Accounts) := .act i ((), {})

/-- The reconcile reads the policy and sets it after the operator has set it. -/
def setsLast : BothHistory → Bool
  | ⟨_, .inr .unlockPolicy, _, _⟩ :: ⟨1, .inr (.setPolicy _), _, _⟩ ::
    ⟨1, .inr .getPolicy, _, _⟩ :: ⟨_, .inr .lockPolicy, _, _⟩ ::
    ⟨_, .inl .notifyScim, _, _⟩ :: ⟨_, .inl (.setPolicy _), _, _⟩ :: _ => true
  | _ => false

end Interleaving

/-- The reconcile writes the group into the policy that the operator has set. -/
theorem bothHalves_of_orderly_eng : ∃ s w',
    reliable.exec Interleaving.pool (List.replicate 4 (Interleaving.call 0) ++
      List.replicate 4 (Interleaving.call 1)) = some s ∧
    ∀ editor, PolicyEditor.parse (Convergence.grantTo "group:eng") = .ok editor →
      BothHalves Convergence.reader Contribution.sha256 editor [] {} s.history w' := by
  have hrun : (reliable.exec Interleaving.pool (List.replicate 4 (Interleaving.call 0) ++
      List.replicate 4 (Interleaving.call 1))).any (fun s =>
        s.threads.all (·.returnedOk) &&
          (Scim.machine.run (Scim.reconcileGroupsPolicy {}) []
            { s.world with store := Interleaving.world.store }).1.isOk &&
          Interleaving.setsLast s.history) = true := by decide +kernel
  obtain ⟨s, hs, hcheck⟩ := Option.any_eq_true _ _ |>.1 hrun
  simp only [Bool.and_eq_true] at hcheck
  obtain ⟨⟨hok, hlast⟩, hhistory⟩ := hcheck
  have hreconcile : Scim.machine.Reaches (Scim.reconcileGroupsPolicy {})
      { s.world with store := Interleaving.world.store } (.ok ()) _ := .of_isOk hlast
  refine ⟨s, _, hs, fun editor hparse => bothHalves_of_orderly hparse
    (Convergence.tidy_grantTo hparse) ?_ hs (List.all_eq_true.1 hok) ?_ hreconcile⟩
  · intro e hparse
    obtain rfl := Except.ok.inj hparse
    exact ⟨by decide, by decide, fun _ hg => absurd hg List.not_mem_nil,
      fun _ hg => absurd hg List.not_mem_nil⟩
  · unfold Interleaving.setsLast at hhistory
    split at hhistory
    · rename_i heq
      rw [heq]
      refine ⟨⟨rfl, fun _ _ groups _ _ hasked => ?_⟩, trivial⟩
      obtain rfl := Option.some.inj hasked
      exact fun _ _ _ _ => id
    · cases hhistory

/-- The reconcile reads the policy, the operator sets another, and the reconcile writes over it. -/
theorem bothHalves_lost : ∃ s w',
    reliable.exec Interleaving.pool (List.replicate 2 (Interleaving.call 1) ++
      List.replicate 4 (Interleaving.call 0) ++ List.replicate 2 (Interleaving.call 1)) = some s ∧
    (∀ p ∈ s.threads, p.returnedOk = true) ∧
    Scim.machine.Reaches (Scim.reconcileGroupsPolicy {}) s.world (.ok ()) w' ∧
    ∀ editor, PolicyEditor.parse (Convergence.grantTo "group:eng") = .ok editor →
      ¬BothHalves Convergence.reader Contribution.sha256 editor [] {} s.history w' := by
  have hrun : (reliable.exec Interleaving.pool (List.replicate 2 (Interleaving.call 1) ++
      List.replicate 4 (Interleaving.call 0) ++ List.replicate 2 (Interleaving.call 1))).any (fun s =>
        let last := Scim.machine.run (Scim.reconcileGroupsPolicy {}) [] s.world
        s.threads.all (·.returnedOk) && last.1.isOk &&
          (Policy.sectionOf last.2.livePolicy "tagOwners").isNone) = true := by decide +kernel
  obtain ⟨s, hs, hcheck⟩ := Option.any_eq_true _ _ |>.1 hrun
  simp only [Bool.and_eq_true, Option.isNone_iff_eq_none] at hcheck
  obtain ⟨⟨hok, hlast⟩, hnone⟩ := hcheck
  refine ⟨s, _, hs, List.all_eq_true.1 hok, .of_isOk hlast, fun editor hparse hboth => ?_⟩
  obtain ⟨⟨live, r, _, hr, hsections⟩, _⟩ := hboth
  -- the operator owns its tag, whatever it has read
  have hwanted : (Policy.sectionOf r.toText "tagOwners").isSome = true := by
    obtain rfl := Except.ok.inj hparse
    rw [← PolicyEditor.sectionOf_rest (by decide), hr.rest, merged]
    rfl
  have hpruned (f : Grant → Option Grant) : Policy.sectionOf (r.filterMapGrants f).toText "tagOwners" =
      Policy.sectionOf r.toText "tagOwners" := by
    rw [PolicyEditor.sectionOf_toText, PolicyEditor.last_filterMapGrants_of_ne r f (by decide),
      PolicyEditor.sectionOf_toText]
  rw [← hpruned, ← hsections "tagOwners" (by decide), hnone] at hwanted
  cases hwanted

end Headmaster.Operator
