import Mathlib.Data.List.Basic

/-!
# Status conditions

The conditions in the status of an instance, and the events that are published
when they change (`src/operator/src/types/condition.rs`,
`src/operator/src/controllers/recorder.rs`).

The time of a condition is to be that of its last transition, however often it
was written since: over a whole history of updates it is (`readyCondition_history`), and
one event is published for each time the object becomes ready
(`count_ready_published`).
-/

namespace Headmaster.Operator

/-! ## Conditions -/

structure Condition where
  type : String
  status : String
  reason : String
  message : String
  observedGeneration : Option Int
  /-- In seconds. -/
  lastTransitionTime : Int
  deriving DecidableEq

namespace Condition

def statusStr (isReady : Bool) : String := if isReady then "True" else "False"

/-- A condition in place of another one: a status that stays has the time it had. -/
def replacing (new existing : Condition) : Condition :=
  { new with
    lastTransitionTime :=
      if existing.status = new.status then existing.lastTransitionTime else new.lastTransitionTime }

/-- The first condition of the type is replaced; a new type comes last. -/
def upsert (new : Condition) : List Condition → List Condition
  | [] => [new]
  | existing :: conditions =>
    if existing.type = new.type then new.replacing existing :: conditions
    else existing :: upsert new conditions

/-- The first condition of a type. -/
def ofType? (type : String) (conditions : List Condition) : Option Condition :=
  conditions.find? (·.type == type)

/-- All conditions but the first of a type. -/
def withoutType (type : String) (conditions : List Condition) : List Condition :=
  conditions.eraseP (·.type == type)

section Lists

variable {type : String} {c : Condition} (new : Condition) (conditions : List Condition)

theorem ofType?_cons (c : Condition) :
    ofType? type (c :: conditions) = if c.type = type then some c else ofType? type conditions := by
  rw [ofType?, List.find?_cons]
  by_cases h : c.type = type
  · rw [if_pos h, beq_iff_eq.2 h]
  · rw [if_neg h, beq_eq_false_iff_ne.2 h]
    rfl

theorem withoutType_cons (c : Condition) : withoutType type (c :: conditions) =
    if c.type = type then conditions else c :: withoutType type conditions := by
  rw [withoutType, List.eraseP_cons]
  by_cases h : c.type = type
  · rw [if_pos h, beq_iff_eq.2 h, cond_true]
  · rw [if_neg h, beq_eq_false_iff_ne.2 h, cond_false]
    rfl

theorem ofType?_upsert : ofType? new.type (upsert new conditions) =
    some (((ofType? new.type conditions).map new.replacing).getD new) := by
  induction conditions with
  | nil => exact (ofType?_cons _ new).trans (if_pos rfl)
  | cons existing conditions ih =>
    rw [upsert, ofType?_cons]
    by_cases h : existing.type = new.type
    · rw [if_pos h, if_pos h, ofType?_cons]
      exact if_pos rfl
    · rw [if_neg h, if_neg h, ofType?_cons, if_neg h, ih]

theorem withoutType_upsert :
    withoutType new.type (upsert new conditions) = withoutType new.type conditions := by
  induction conditions with
  | nil => exact (withoutType_cons _ new).trans (if_pos rfl)
  | cons existing conditions ih =>
    rw [upsert, withoutType_cons]
    by_cases h : existing.type = new.type
    · rw [if_pos h, if_pos h, withoutType_cons]
      exact if_pos rfl
    · rw [if_neg h, if_neg h, withoutType_cons, if_neg h, ih]

end Lists

end Condition

/-- `set_condition_at`. -/
def setConditionAt (conditions : List Condition) (type : String) (isReady : Bool)
    (reason message : String) (generation now : Int) : List Condition :=
  Condition.upsert
    { type, reason, message
      status := Condition.statusStr isReady
      observedGeneration := some generation
      lastTransitionTime := now }
    conditions

/-! ## Statuses -/

structure HeadscaleInstanceStatus where
  /-- Generation of the spec that the status was computed from. -/
  observedGeneration : Int := 0
  conditions : List Condition := []
  deriving DecidableEq

namespace HeadscaleInstanceStatus

variable (s : HeadscaleInstanceStatus)

/-- Nothing was written yet. -/
def isNew : Bool := s.conditions.isEmpty

def readyCondition : Option Condition := Condition.ofType? "Ready" s.conditions

def isReady : Bool := (s.readyCondition.map fun c => c.status == "True").getD false

def updateReadyAt (isReady : Bool) (reason message : String) (generation time : Int) :
    HeadscaleInstanceStatus where
  observedGeneration := generation
  conditions := setConditionAt s.conditions "Ready" isReady reason message generation time

variable {s} {isReady : Bool} {reason message : String} {generation time : Int}

theorem readyCondition_updateReadyAt : (s.updateReadyAt isReady reason message generation time).readyCondition =
    some { type := "Ready", status := Condition.statusStr isReady, reason, message
           observedGeneration := some generation
           lastTransitionTime := match s.readyCondition with
             | some c => if c.status = Condition.statusStr isReady then c.lastTransitionTime else time
             | none => time } := by
  refine (Condition.ofType?_upsert ⟨"Ready", Condition.statusStr isReady, reason, message,
    some generation, time⟩ s.conditions).trans ?_
  rw [readyCondition]
  cases Condition.ofType? "Ready" s.conditions <;> rfl

@[simp]
theorem isReady_updateReadyAt :
    (s.updateReadyAt isReady reason message generation time).isReady = isReady := by
  rw [HeadscaleInstanceStatus.isReady, readyCondition_updateReadyAt]
  cases isReady <;> rfl

end HeadscaleInstanceStatus

/-! ## Events -/

inductive EventType
  | normal
  | warning
  deriving DecidableEq

structure KubeEvent where
  type : EventType
  reason : String
  note : String
  action : String
  deriving DecidableEq

/-- What an event is about. -/
structure ObjectRef where
  kind : Option String := none
  name : Option String := none
  ns : Option String := none
  deriving DecidableEq

def lifecycleEvent (obj : ObjectRef) (reason verb : String) : KubeEvent where
  type := .normal
  reason := reason
  note := obj.kind.getD "resource" ++ " " ++ obj.name.getD "unknown" ++ " " ++ verb
  action := reason

def createdEvent (obj : ObjectRef) : KubeEvent := lifecycleEvent obj "Created" "created"

def readyEvent (obj : ObjectRef) : KubeEvent := lifecycleEvent obj "Ready" "is ready"

def deletedEvent (obj : ObjectRef) : KubeEvent := lifecycleEvent obj "Deleted" "deleted"

def warningEvent (reason note : String) : KubeEvent where
  type := .warning
  reason := reason
  note := note
  action := reason

/-- The events of `publish_transitions`, in order. -/
def transitionEvents (obj : ObjectRef) (oldStatus newStatus : HeadscaleInstanceStatus) :
    List KubeEvent :=
  (if oldStatus.isNew then [createdEvent obj] else []) ++
    if !oldStatus.isReady && newStatus.isReady then [readyEvent obj] else []

/-! ## Histories -/

/-- One update of the `Ready` condition, and when. -/
structure ReadyUpdate where
  isReady : Bool
  reason : String
  message : String
  generation : Int
  time : Int

/-- The condition that is written, but for its time. -/
def ReadyUpdate.conditionAt (u : ReadyUpdate) (time : Int) : Condition where
  type := "Ready"
  status := Condition.statusStr u.isReady
  reason := u.reason
  message := u.message
  observedGeneration := some u.generation
  lastTransitionTime := time

/-- How often something that was or was not the case came to be. -/
def rises : List Bool → Nat
  | b :: b' :: bs => (if !b && b' then 1 else 0) + rises (b' :: bs)
  | _ => 0

namespace HeadscaleInstanceStatus

def update (s : HeadscaleInstanceStatus) (u : ReadyUpdate) : HeadscaleInstanceStatus :=
  s.updateReadyAt u.isReady u.reason u.message u.generation u.time

/-- The status after some updates, each of what the one before it left. -/
def history (s : HeadscaleInstanceStatus) (us : List ReadyUpdate) : HeadscaleInstanceStatus :=
  us.foldl update s

/-- The events of the updates. -/
def published (obj : ObjectRef) (s : HeadscaleInstanceStatus) : List ReadyUpdate → List KubeEvent
  | [] => []
  | u :: us => transitionEvents obj s (s.update u) ++ published obj (s.update u) us

variable {s : HeadscaleInstanceStatus} {before same us : List ReadyUpdate} {u : ReadyUpdate}

theorem withoutType_history (s : HeadscaleInstanceStatus) (us : List ReadyUpdate) :
    Condition.withoutType "Ready" (s.history us).conditions =
      Condition.withoutType "Ready" s.conditions := by
  induction us generalizing s with
  | nil => rfl
  | cons u us ih =>
    exact (ih (s.update u)).trans (Condition.withoutType_upsert (u.conditionAt u.time) s.conditions)

/-- Updates that leave the status as it is leave the time. -/
theorem readyCondition_history_same {time : Int} (hs : s.readyCondition = some (u.conditionAt time))
    (hsame : ∀ v ∈ same, v.isReady = u.isReady) :
    (s.history same).readyCondition = some (((u :: same).getLast (List.cons_ne_nil _ _)).conditionAt time) := by
  induction same generalizing s u with
  | nil => exact hs
  | cons v same ih =>
    have hv := hsame v List.mem_cons_self
    rw [List.getLast_cons (List.cons_ne_nil _ _)]
    refine ih (s := s.update v) ?_ fun w hw => ?_
    · refine readyCondition_updateReadyAt.trans ?_
      rw [hs]
      dsimp only [ReadyUpdate.conditionAt]
      rw [hv, if_pos rfl]
    · rw [hsame w (List.mem_cons_of_mem _ hw), hv]

theorem status_history (s : HeadscaleInstanceStatus) (before : List ReadyUpdate) :
    (s.history before).readyCondition.map (·.status) =
      (before.getLast?.map fun v => Condition.statusStr v.isReady).or (s.readyCondition.map (·.status)) := by
  rcases List.eq_nil_or_concat before with rfl | ⟨before, v, rfl⟩
  · rfl
  · rw [List.concat_eq_append, history, List.foldl_concat, List.getLast?_concat, update,
      readyCondition_updateReadyAt]
    rfl

/-- Over any history of updates, the condition is the last one that was written, with the time of
    the last transition; all other conditions stay. -/
theorem readyCondition_history (hsame : ∀ v ∈ same, v.isReady = u.isReady)
    (hflip : (before.getLast?.map fun v => Condition.statusStr v.isReady).or
      (s.readyCondition.map (·.status)) ≠ some (Condition.statusStr u.isReady)) :
    (s.history (before ++ u :: same)).readyCondition =
        some (((u :: same).getLast (List.cons_ne_nil _ _)).conditionAt u.time) ∧
      Condition.withoutType "Ready" (s.history (before ++ u :: same)).conditions =
        Condition.withoutType "Ready" s.conditions := by
  refine ⟨?_, withoutType_history _ _⟩
  rw [history, List.foldl_append, List.foldl_cons]
  refine readyCondition_history_same (readyCondition_updateReadyAt.trans ?_) hsame
  -- the status before was another one, or there was none
  rw [← status_history] at hflip
  rw [← history]
  cases hready : (s.history before).readyCondition with
  | none => rfl
  | some c =>
    rw [hready] at hflip
    have hne : c.status ≠ Condition.statusStr u.isReady := fun h => hflip (congrArg some h)
    dsimp only
    rw [if_neg hne]
    rfl

/-- A failure between two successes, each of them reported twice. -/
theorem readyCondition_history_flip :
    let update (isReady : Bool) (time : Int) : ReadyUpdate := ⟨isReady, "", "", 1, time⟩
    (history {} ([update true 1, update true 2, update false 3] ++
        update true 4 :: [update true 5])).readyCondition = some ((update true 5).conditionAt 4) :=
  (readyCondition_history (by decide) (by decide)).1

theorem count_transitionEvents (obj : ObjectRef) (old new : HeadscaleInstanceStatus) :
    (transitionEvents obj old new).count (readyEvent obj) =
      if !old.isReady && new.isReady then 1 else 0 := by
  have hne : createdEvent obj ≠ readyEvent obj := by
    intro h
    have hreason : "Created" = "Ready" := congrArg KubeEvent.reason h
    revert hreason
    decide
  rw [transitionEvents, List.count_append]
  cases old.isNew <;> cases !old.isReady && new.isReady <;> simp [hne]

/-- One event for each time the object becomes ready. -/
theorem count_ready_published (obj : ObjectRef) (s : HeadscaleInstanceStatus)
    (us : List ReadyUpdate) :
    (published obj s us).count (readyEvent obj) = rises (s.isReady :: us.map (·.isReady)) := by
  induction us generalizing s with
  | nil => rfl
  | cons u us ih =>
    have hu : (s.update u).isReady = u.isReady := isReady_updateReadyAt
    rw [published, List.count_append, count_transitionEvents, ih, hu]
    rfl

end HeadscaleInstanceStatus

end Headmaster.Operator
