import Mathlib.Data.List.Basic

/-!
# Serial orders

Operations that take effect one after the other on a state (`Chain`). An order
is found by placing each operation at a *point* of an execution, the states
before and after it being known there (`Point`, `Linked`); the point of an
operation that changes nothing can still be withdrawn (`Linked.withdraw`).
-/

namespace Process

variable {ι S : Type}

/-- The operations of a list take `s` to `s'`, one after the other. -/
inductive Chain (step : ι → S → S → Prop) : S → List ι → S → Prop
  | nil (s : S) : Chain step s [] s
  | snoc {s s' s'' : S} {is : List ι} {i : ι} (h : Chain step s is s') (hi : step i s' s'') :
      Chain step s (is ++ [i]) s''

theorem Chain.of_concat {step : ι → S → S → Prop} {s s'' : S} (is : List ι) (i : ι)
    (h : Chain step s (is ++ [i]) s'') : ∃ s', Chain step s is s' ∧ step i s' s'' := by
  generalize hl : is ++ [i] = l at h
  cases h with
  | nil => simp at hl
  | snoc h hi =>
    obtain ⟨rfl, hi'⟩ := List.append_inj' hl rfl
    obtain rfl := List.singleton_inj.1 hi'
    exact ⟨_, h, hi⟩

/-- Where an operation takes effect. -/
structure Point (ι S : Type) where
  who : ι
  before : S
  after : S

/-- The points, the latest first, take `s₀` to `s` without a gap. -/
def Linked (s₀ : S) : List (Point ι S) → S → Prop
  | [], s => s = s₀
  | p :: ps, s => s = p.after ∧ Linked s₀ ps p.before

namespace Linked

variable {s₀ s : S} {points : List (Point ι S)}

/-- A point where nothing changes can be withdrawn. -/
theorem withdraw [DecidableEq ι] {i : ι} (h : Linked s₀ points s)
    (hi : ∀ p ∈ points, p.who = i → p.before = p.after) :
    Linked s₀ (points.filter (·.who ≠ i)) s := by
  induction points generalizing s with
  | nil => exact h
  | cons p ps ih =>
    obtain ⟨hp, hps⟩ := List.forall_mem_cons.1 hi
    obtain ⟨rfl, hlinked⟩ := h
    have hrest := ih hlinked hps
    by_cases hwho : p.who = i
    · rw [List.filter_cons_of_neg (by simp [hwho]), ← hp hwho]
      exact hrest
    · rw [List.filter_cons_of_pos (by simp [hwho])]
      exact ⟨rfl, hrest⟩

/-- Operations that take effect at their points do so in the order of the points. -/
theorem chain {step : ι → S → S → Prop} (h : Linked s₀ points s)
    (hstep : ∀ p ∈ points, step p.who p.before p.after) :
    Chain step s₀ (points.reverse.map (·.who)) s := by
  induction points generalizing s with
  | nil => exact h ▸ .nil _
  | cons p ps ih =>
    obtain ⟨hp, hps⟩ := List.forall_mem_cons.1 hstep
    obtain ⟨rfl, hlinked⟩ := h
    rw [List.reverse_cons, List.map_append]
    exact (ih hlinked hps).snoc hp

end Linked

/-- Operations that may take effect anywhere, without a change, can come last. -/
theorem Chain.append {step : ι → S → S → Prop} {s s' : S} {is js : List ι} (h : Chain step s is s')
    (hjs : ∀ j ∈ js, step j s' s') : Chain step s (is ++ js) s' := by
  induction js generalizing is with
  | nil => exact (List.append_nil is).symm ▸ h
  | cons j js ih =>
    obtain ⟨hj, hrest⟩ := List.forall_mem_cons.1 hjs
    have := ih (h.snoc hj) hrest
    rwa [List.append_assoc] at this

end Process
