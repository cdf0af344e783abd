import Headmaster.Process.Trace

/-!
# How a process ends

What is known of the value, or of the error, that a process ends with, however
its calls are answered (`Prog.Ends`). It carries over to the calls made after a
part of a process (`Uses.bind_ends`), and to every execution (`exec_ends`).
-/

namespace Process

namespace Prog

variable {σ : Sig} {ε ε' α β : Type}

/-- A process ends, if it does, as is said. -/
def Ends (R : Except ε α → Prop) : Prog σ ε α → Prop
  | .ret r => R r
  | .call _ k => ∀ a, (k a).Ends R

/-- All errors that a process ends with are of a kind. -/
abbrev Raises (E : ε → Prop) (p : Prog σ ε α) : Prop := p.Ends fun r => ∀ e, r = .error e → E e

variable {R : Except ε α → Prop} {E : ε → Prop}

theorem Ends.mono {R' : Except ε α → Prop} {p : Prog σ ε α} (hp : p.Ends R)
    (h : ∀ r, R r → R' r) : p.Ends R' := by
  induction p with
  | ret r => exact h r hp
  | call o k ih => exact fun a => ih a (hp a)

theorem Ends.bind {R' : Except ε β → Prop} {p : Prog σ ε α} {f : α → Prog σ ε β} (hp : p.Ends R)
    (hf : ∀ a, R (.ok a) → (f a).Ends R') (he : ∀ e, R (.error e) → R' (.error e)) :
    (p >>= f).Ends R' := by
  induction p with
  | ret r =>
    rcases r with e | a
    · exact he e hp
    · exact hf a hp
  | call o k ih => exact fun a => ih a (hp a)

theorem Ends.attempt {p : Prog σ ε α} (hp : p.Ends R) :
    (p.attempt : Prog σ ε' _).Ends fun r => ∃ r', r = .ok r' ∧ R r' := by
  induction p with
  | ret r => exact ⟨r, rfl, hp⟩
  | call o k ih => exact fun a => ih a (hp a)

theorem Ends.mapError {f : ε → ε'} {p : Prog σ ε α} (hp : p.Ends R) :
    (p.mapError f).Ends fun r => ∃ r', r = r'.mapError f ∧ R r' := by
  induction p with
  | ret r => exact ⟨r, rfl, hp⟩
  | call o k ih => exact fun a => ih a (hp a)

/-- A process may end in any way. -/
theorem ends_of_forall (h : ∀ r, R r) (p : Prog σ ε α) : p.Ends R := by
  induction p with
  | ret r => exact h r
  | call o k ih => exact ih

/-- What follows a process makes its calls after some values only. -/
theorem Uses.bind_ends {C : σ.Op → Prop} {p : Prog σ ε α} {f : α → Prog σ ε β} (hp : p.Uses C)
    (hends : p.Ends R) (hf : ∀ a, R (.ok a) → (f a).Uses C) : (p >>= f).Uses C := by
  induction p with
  | ret r =>
    rcases r with e | a
    · trivial
    · exact hf a hends
  | call o k ih => exact ⟨hp.1, fun a => ih a (hp.2 a) (hends a)⟩

theorem Leads.ends {p q : Prog σ ε α} {tr : List (Made σ)} (h : p.Leads tr q) (hp : p.Ends R) :
    q.Ends R := by
  induction h with
  | refl => exact hp
  | call _ a ih => exact ih a

/-! ### Errors -/

theorem raises_bind {p : Prog σ ε α} {f : α → Prog σ ε β} (hp : p.Raises E)
    (hf : ∀ a, (f a).Raises E) : (p >>= f).Raises E :=
  hp.bind (fun a _ => hf a) fun _ he _ h => Except.error.inj h ▸ he _ rfl

theorem raises_op (o : σ.Op) : (op o : Prog σ ε _).Raises E := by
  intro a e h
  cases h

theorem raises_ok (a : α) : (.ret (.ok a) : Prog σ ε α).Raises E := by
  intro e h
  cases h

theorem raises_error {e : ε} (h : E e) : (.ret (.error e) : Prog σ ε α).Raises E := by
  intro e' he
  exact Except.error.inj he ▸ h

/-- Of an outcome that is handed on, an error is of the kind. -/
theorem raises_attempt_bind {E' : ε → Prop} {p : Prog σ ε α} {f : Except ε α → Prog σ ε' β}
    {E : ε' → Prop} (hp : p.Raises E') (hok : ∀ a, (f (.ok a)).Raises E)
    (herror : ∀ e, E' e → (f (.error e)).Raises E) : (p.attempt >>= f).Raises E := by
  refine (Ends.attempt hp).bind (fun r hr => ?_) fun e he => ?_
  · obtain ⟨r', hr', h⟩ := hr
    obtain rfl := Except.ok.inj hr'
    rcases r with e | a
    · exact herror e (h e rfl)
    · exact hok a
  · obtain ⟨r', hr', -⟩ := he
    cases hr'

end Prog

namespace Machine

variable {σ : Sig} {ε α W F G : Type} {M : Machine σ W F G} {R : Except ε α → Prop}

/-- However a thread ends in an execution, it is as is known of its process. -/
theorem exec_ends {s s' : Pool σ ε α W} {es : List (Event F G)} (hs : s.history = [])
    (h : M.exec s es = some s') {i : ℕ} {p : Prog σ ε α} {r : Except ε α}
    (hi : s.threads[i]? = some p) (hp : p.Ends R) (hend : s'.threads[i]? = some (.ret r)) : R r := by
  obtain ⟨q, hq, hleads⟩ := exec_leads hs h hi
  obtain rfl := Option.some.inj (hq.symm.trans hend)
  exact hleads.ends hp

end Machine

end Process
