import Mathlib.Data.List.Basic
import Mathlib.Logic.Function.Basic
import Headmaster.Process

/-!
# Interleavings

A *pool* is a world shared by processes, its *threads*, that take their calls
in any order: an event lets one thread make its next call, if the world is
ready for it, or lets the environment change the world (`Machine.step`). The
pool records the calls made, the latest first (`Pool.history`).

Two rules carry the proofs about whole executions:

* `exec_induction`: what every step preserves holds after every execution;
* `exec_phases`: when every thread follows a contract, each from its own state,
  its *phase*, an execution can be reasoned about with the phases in place of
  the processes: an invariant of the world, the history and the phases that
  every allowed call preserves holds after every execution.
-/

namespace Process

/-- A call made: by which thread, on which world, and the answer it got. -/
structure Entry (σ : Sig) (W : Type) where
  thread : ℕ
  op : σ.Op
  ans : σ.Ans op
  before : W

/-- Threads sharing a world, and the calls they have made so far, the latest first. -/
structure Pool (σ : Sig) (ε α W : Type) where
  world : W
  threads : List (Prog σ ε α)
  history : List (Entry σ W) := []

/-- What happens next: the next call of a thread, or a change of the environment. -/
inductive Event (F G : Type)
  | act (i : ℕ) (f : F)
  | env (g : G)

namespace Machine

variable {σ : Sig} {W F G ε α S : Type} (M : Machine σ W F G)

/-- The pool after the call `o` of the thread `i`, which goes on with `k`. -/
def advance (s : Pool σ ε α W) (i : ℕ) (f : F) (o : σ.Op) (k : σ.Ans o → Prog σ ε α) :
    Pool σ ε α W where
  world := (M.act f o s.world).2
  threads := s.threads.set i (k (M.act f o s.world).1)
  history := ⟨i, o, (M.act f o s.world).1, s.world⟩ :: s.history

/-- One step of a pool; none when the thread has ended or must wait. -/
def step (s : Pool σ ε α W) : Event F G → Option (Pool σ ε α W)
  | .act i f =>
    match s.threads[i]? with
    | some (.call o k) => if M.ready s.world o then some (M.advance s i f o k) else none
    | _ => none
  | .env g => some { s with world := M.env g s.world }

/-- The execution of a list of events. -/
def exec : Pool σ ε α W → List (Event F G) → Option (Pool σ ε α W)
  | s, [] => some s
  | s, e :: es => (M.step s e).bind fun s' => exec s' es

variable {M}

/-- What a step can be: the next call of a thread, or a change of the environment. -/
theorem step_cases {s s' : Pool σ ε α W} {e : Event F G} (h : M.step s e = some s') :
    (∃ i f o k, e = .act i f ∧ s.threads[i]? = some (.call o k) ∧ M.ready s.world o = true ∧
      s' = M.advance s i f o k) ∨
    (∃ g, e = .env g ∧ s' = { s with world := M.env g s.world }) := by
  cases e with
  | act i f =>
    simp only [step] at h
    split at h
    · rename_i o k hk
      split at h
      · rename_i hr
        exact .inl ⟨i, f, o, k, rfl, hk, hr, (Option.some.inj h).symm⟩
      · cases h
    · cases h
  | env g => exact .inr ⟨g, rfl, (Option.some.inj h).symm⟩

theorem exec_cons (s : Pool σ ε α W) (e : Event F G) (es : List (Event F G)) :
    M.exec s (e :: es) = (M.step s e).bind fun s' => M.exec s' es := rfl

/-- What every step preserves holds after every execution. -/
theorem exec_induction {P : Pool σ ε α W → Prop}
    (hstep : ∀ s e s', P s → M.step s e = some s' → P s') {s s' : Pool σ ε α W}
    {es : List (Event F G)} (hs : P s) (h : M.exec s es = some s') : P s' := by
  induction es generalizing s with
  | nil => cases h; exact hs
  | cons e es ih =>
    rw [exec_cons, Option.bind_eq_some_iff] at h
    obtain ⟨t, ht, h⟩ := h
    exact ih (hstep s e t hs ht) h

/-- The threads are never more or fewer. -/
theorem exec_length {s s' : Pool σ ε α W} {es : List (Event F G)} (h : M.exec s es = some s') :
    s'.threads.length = s.threads.length :=
  exec_induction (P := fun t => t.threads.length = s.threads.length)
    (fun t e t' ht hst => by
      rcases step_cases hst with ⟨i, f, o, k, _, _, _, rfl⟩ | ⟨g, _, rfl⟩
      · simpa [advance] using ht
      · exact ht) rfl h

/-- Every call was made by one of the threads. -/
theorem exec_thread_lt {s s' : Pool σ ε α W} {es : List (Event F G)} (hs : s.history = [])
    (h : M.exec s es = some s') : ∀ e ∈ s'.history, e.thread < s'.threads.length := by
  refine exec_induction (P := fun t : Pool σ ε α W => ∀ e ∈ t.history, e.thread < t.threads.length)
    (fun t ev t' ht hst => ?_) (hs ▸ List.forall_mem_nil _) h
  rcases step_cases hst with ⟨i, f, o, k, _, hi, _, rfl⟩ | ⟨g, _, rfl⟩
  · refine List.forall_mem_cons.2 ⟨?_, fun e he => ?_⟩
    · simpa [advance] using (List.getElem?_eq_some_iff.1 hi).1
    · simpa [advance] using ht e he
  · exact ht

/-- What was called stays in the history. -/
theorem exec_history {s s' : Pool σ ε α W} {es : List (Event F G)} (h : M.exec s es = some s') :
    s.history <:+ s'.history :=
  exec_induction (P := fun t => s.history <:+ t.history)
    (fun t e t' ht hst => by
      rcases step_cases hst with ⟨i, f, o, k, _, _, _, rfl⟩ | ⟨g, _, rfl⟩
      · exact ht.trans (List.suffix_cons _ _)
      · exact ht) List.suffix_rfl h

/-! ## Calls that meet a condition -/

/-- The machine that waits until `P` holds of its world and the next call. -/
def restrict (M : Machine σ W F G) (P : W → σ.Op → Bool) : Machine σ W F G where
  act := M.act
  ready w o := M.ready w o && P w o
  env := M.env

/-- An execution whose calls all meet a condition is one of the machine that waits
    for it. -/
theorem exec_restrict {P : W → σ.Op → Bool} {s s' : Pool σ ε α W} {es : List (Event F G)}
    (h : M.exec s es = some s') (hP : ∀ e ∈ s'.history, P e.before e.op = true) :
    (M.restrict P).exec s es = some s' := by
  induction es generalizing s with
  | nil => exact h
  | cons e es ih =>
    rw [exec_cons, Option.bind_eq_some_iff] at h
    obtain ⟨t, ht, h⟩ := h
    have hstep : (M.restrict P).step s e = some t := by
      rcases step_cases ht with ⟨i, f, o, k, rfl, hk, hr, rfl⟩ | ⟨g, rfl, rfl⟩
      · -- the call is in the history from then on
        have hcall := hP _ ((exec_history h).subset List.mem_cons_self)
        simp only [step, hk, restrict, hr, hcall, Bool.and_self, if_true]
        rfl
      · rfl
    rw [exec_cons, hstep]
    exact ih h

/-! ## Steps that meet a condition -/

/-- Every step of an execution meets a condition on the pool before it. -/
def Along (M : Machine σ W F G) (C : Pool σ ε α W → Event F G → Prop) :
    Pool σ ε α W → List (Event F G) → Prop
  | _, [] => True
  | s, e :: es => C s e ∧
    match M.step s e with
    | none => True
    | some s' => Along M C s' es

instance {C : Pool σ ε α W → Event F G → Prop} [hC : ∀ s e, Decidable (C s e)] :
    ∀ s es, Decidable (M.Along C s es)
  | _, [] => .isTrue trivial
  | s, e :: es =>
    haveI : Decidable (match M.step s e with
      | none => True
      | some s' => M.Along C s' es) :=
      match M.step s e with
      | none => .isTrue trivial
      | some s' => instDecidableAlong s' es
    inferInstanceAs (Decidable (C s e ∧ _))

theorem Along.mono {C C' : Pool σ ε α W → Event F G → Prop} (h : ∀ s e, C s e → C' s e) :
    ∀ {s : Pool σ ε α W} {es : List (Event F G)}, M.Along C s es → M.Along C' s es
  | _, [], _ => trivial
  | s, e :: es, ⟨he, hrest⟩ => by
    refine ⟨h s e he, ?_⟩
    cases hst : M.step s e with
    | none => trivial
    | some s' =>
      simp only [hst] at hrest
      exact Along.mono h hrest

theorem Along.and {C C' : Pool σ ε α W → Event F G → Prop} : ∀ {s : Pool σ ε α W}
    {es : List (Event F G)}, M.Along C s es → M.Along C' s es → M.Along (fun s e => C s e ∧ C' s e) s es
  | _, [], _, _ => trivial
  | s, e :: es, ⟨he, hrest⟩, ⟨he', hrest'⟩ => by
    refine ⟨⟨he, he'⟩, ?_⟩
    cases hst : M.step s e with
    | none => trivial
    | some s' =>
      simp only [hst] at hrest hrest'
      exact Along.and hrest hrest'

/-- What every step that meets a condition preserves holds after every execution whose steps do. -/
theorem exec_induction_along {C : Pool σ ε α W → Event F G → Prop} {P : Pool σ ε α W → Prop}
    (hstep : ∀ s e s', P s → C s e → M.step s e = some s' → P s') {s s' : Pool σ ε α W}
    {es : List (Event F G)} (hs : P s) (hC : M.Along C s es) (h : M.exec s es = some s') : P s' := by
  induction es generalizing s with
  | nil => cases h; exact hs
  | cons e es ih =>
    rw [exec_cons, Option.bind_eq_some_iff] at h
    obtain ⟨t, ht, h⟩ := h
    obtain ⟨he, hrest⟩ := hC
    rw [ht] at hrest
    exact ih (hstep s e t hs he ht) hrest h

/-! ## Threads that follow a contract -/

/-- Every thread follows the contract `c` from its phase, to its own postcondition. -/
def Follows (c : Contract σ S) (Q : ℕ → Except ε α → S → Prop) (threads : List (Prog σ ε α))
    (ph : ℕ → S) : Prop :=
  ∀ (i : ℕ) (p : Prog σ ε α), threads[i]? = some p → p.wp c (Q i) (ph i)

/-- A call of a thread, allowed in its phase, leaves every thread following the
    contract, the thread from a next phase. -/
theorem Follows.advance {c : Contract σ S} {Q : ℕ → Except ε α → S → Prop} {s : Pool σ ε α W}
    {ph : ℕ → S} (hf : Follows c Q s.threads ph) {i : ℕ} {f : F} {o : σ.Op}
    {k : σ.Ans o → Prog σ ε α} (hi : s.threads[i]? = some (.call o k)) {p' : S}
    (hp : c.next (ph i) o (M.act f o s.world).1 p') :
    Follows c Q (M.advance s i f o k).threads (Function.update ph i p') := by
  intro j p hj
  rcases eq_or_ne j i with rfl | hne
  · have hlt := (List.getElem?_eq_some_iff.1 hi).1
    simp only [Machine.advance, List.getElem?_set_self hlt, Option.some.injEq] at hj
    rw [Function.update_self, ← hj]
    exact (hf j _ hi).2 _ _ hp
  · rw [Function.update_of_ne hne]
    simp only [Machine.advance, List.getElem?_set_ne hne.symm] at hj
    exact hf j p hj

/-- The phases stand for the processes: an invariant that every allowed call
    and every change of the environment preserves holds after every execution. -/
theorem exec_phases (c : Contract σ S) (Q : ℕ → Except ε α → S → Prop)
    (Inv : W → List (Entry σ W) → (ℕ → S) → Prop)
    (hact : ∀ w hist ph i o f, Inv w hist ph → c.allows (ph i) o → M.ready w o = true →
      ∃ p', c.next (ph i) o (M.act f o w).1 p' ∧
        Inv (M.act f o w).2 (⟨i, o, (M.act f o w).1, w⟩ :: hist) (Function.update ph i p'))
    (henv : ∀ w hist ph g, Inv w hist ph → Inv (M.env g w) hist ph)
    {s s' : Pool σ ε α W} {es : List (Event F G)} {ph : ℕ → S}
    (hf : Follows c Q s.threads ph) (hinv : Inv s.world s.history ph)
    (h : M.exec s es = some s') :
    ∃ ph', Follows c Q s'.threads ph' ∧ Inv s'.world s'.history ph' ∧
      ∀ i, s.threads.length ≤ i → ph' i = ph i := by
  refine exec_induction (P := fun t => t.threads.length = s.threads.length ∧
      ∃ ph', Follows c Q t.threads ph' ∧ Inv t.world t.history ph' ∧
        ∀ i, s.threads.length ≤ i → ph' i = ph i) ?_ ⟨rfl, ph, hf, hinv, fun _ _ => rfl⟩ h |>.2
  rintro t e t' ⟨hlen, ph', hf', hinv', hout⟩ hst
  rcases step_cases hst with ⟨i, f, o, k, _, hi, hr, rfl⟩ | ⟨g, _, rfl⟩
  · obtain ⟨p', hp', hinv''⟩ := hact _ _ ph' i o f hinv' (hf' i _ hi).1 hr
    refine ⟨by simpa [advance] using hlen, _, hf'.advance hi hp', hinv'', fun j hj => ?_⟩
    have hlt := (List.getElem?_eq_some_iff.1 hi).1
    rw [Function.update_of_ne (by omega), hout j hj]
  · exact ⟨hlen, ph', hf', henv _ _ _ g hinv', hout⟩

/-- The phases of threads that have all ended satisfy the postcondition. -/
theorem Follows.of_result {c : Contract σ S} {Q : ℕ → Except ε α → S → Prop}
    {threads : List (Prog σ ε α)} {ph : ℕ → S} (hf : Follows c Q threads ph) {i : ℕ}
    {r : Except ε α} (hi : threads[i]? = some (.ret r)) : Q i r (ph i) :=
  hf i _ hi

end Machine

end Process
