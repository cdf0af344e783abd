import Mathlib.Data.Set.Insert
import Headmaster.Process.Trace

/-!
# What calls leave standing

A call, with its answer, may give facts, and other calls take them away again
(`Ledger`). A fact *stands* after some calls when one of them gave it and none of
those after it took it (`Ledger.Standing`).

Which facts stand when a process has ended well, if some did before, is a triple
(`Ledger.Triple`). Triples compose along the process (`Triple.bind`), and what no
call of a kind takes is framed (`Triple.of_uses`). What is to stand before a call
is asked by the contract of the triple (`Triple.op`, `Triple.safe`).
-/

namespace Process

variable {σ : Sig} {N ε ε' α β : Type}

/-- The facts that a call gives, once it is answered, and those that it takes. -/
structure Ledger (σ : Sig) (N : Type) where
  gives : Made σ → N → Prop
  takes : σ.Op → N → Prop

namespace Ledger

variable (L : Ledger σ N)

/-- A fact was given by one of the calls, the latest first, and not taken since. -/
inductive Standing (n : N) : List (Made σ) → Prop
  | given {c : Made σ} {tr : List (Made σ)} (h : L.gives c n) : Standing n (c :: tr)
  | kept {c : Made σ} {tr : List (Made σ)} (h : ¬L.takes c.op n) (hs : Standing n tr) :
    Standing n (c :: tr)

variable {L} {n : N} {tr : List (Made σ)}

theorem Standing.append {l : List (Made σ)} (h : L.Standing n tr)
    (hl : ∀ c ∈ l, ¬L.takes c.op n) : L.Standing n (l ++ tr) := by
  induction l with
  | nil => exact h
  | cons c l ih =>
    exact .kept (hl c List.mem_cons_self) (ih fun d hd => hl d (List.mem_cons_of_mem _ hd))

/-! ## Triples -/

variable {A : List (Made σ) → σ.Op → Prop} {P P' : Set N} {Q Q' : α → Set N} {R : β → Set N}

/-- All of some facts stand. -/
def Holds (L : Ledger σ N) (P : Set N) (tr : List (Made σ)) : Prop := ∀ n ∈ P, L.Standing n tr

/-- The process makes allowed calls only, if the facts `P` stand before it, and the facts `Q` stand
    when it has ended well. -/
def Triple (L : Ledger σ N) (A : List (Made σ) → σ.Op → Prop) (P : Set N) (p : Prog σ ε α)
    (Q : α → Set N) : Prop :=
  ∀ tr, L.Holds P tr →
    p.wp (.tracing A) (fun r tr' => ∀ a, r = .ok a → L.Holds (Q a) tr') tr

namespace Triple

theorem ret {r : Except ε α} (h : ∀ a, r = .ok a → Q a ⊆ P) :
    L.Triple A P (.ret r : Prog σ ε α) Q :=
  fun _ hP a ha n hn => hP n (h a ha hn)

theorem mono {p : Prog σ ε α} (hp : L.Triple A P p Q) (hP : P ⊆ P') (hQ : ∀ a, Q' a ⊆ Q a) :
    L.Triple A P' p Q' := by
  intro tr hstand
  refine Prog.wp_mono (fun r tr' h a ha n hn => h a ha n (hQ a hn)) (hp tr fun n hn => ?_)
  exact hstand n (hP hn)

theorem bind {p : Prog σ ε α} {f : α → Prog σ ε β} (hp : L.Triple A P p Q)
    (hf : ∀ a, L.Triple A (Q a) (f a) R) : L.Triple A P (p >>= f) R := by
  refine fun tr hP => Prog.wp_bind.2 (Prog.wp_mono (fun r tr' h => ?_) (hp tr hP))
  rcases r with e | a
  · intro b hb
    cases hb
  · exact hf a tr' (h a rfl)

/-- A call gives what it gives with its answer, and keeps the rest. -/
theorem op {o : σ.Op} {Q : σ.Ans o → Set N} (hA : ∀ tr, L.Holds P tr → A tr o)
    (hQ : ∀ a, ∀ n ∈ Q a, L.gives ⟨o, a⟩ n ∨ n ∈ P ∧ ¬L.takes o n) :
    L.Triple A P (Prog.op o : Prog σ ε _) Q := by
  refine fun tr hP => Prog.wp_op_tracing.2 ⟨hA tr hP, fun a b hb n hn => ?_⟩
  obtain rfl := Except.ok.inj hb
  rcases hQ a n hn with hgives | ⟨hmem, htakes⟩
  · exact .given hgives
  · exact .kept htakes (hP n hmem)

/-- Calls of a kind keep what none of them takes. -/
theorem of_uses {C : σ.Op → Prop} {p : Prog σ ε α} (hp : p.Uses C) (hA : ∀ tr o, C o → A tr o)
    (hP : ∀ o, C o → ∀ n ∈ P, ¬L.takes o n) : L.Triple A P p fun _ => P := by
  refine fun tr hstand => Prog.wp_mono ?_ (hp.wp_tracing hA tr)
  rintro r _ ⟨l, rfl, hl⟩ a _ n hn
  exact (hstand n hn).append fun c hc => hP c.op (hl c hc) n hn

/-- What follows an outcome that is handed on may begin where the process has failed, too. -/
theorem attempt_bind {p : Prog σ ε' α} {f : Except ε' α → Prog σ ε β} (hp : L.Triple A P p Q)
    (hok : ∀ a, L.Triple A (Q a) (f (.ok a)) R) (herror : ∀ e, L.Triple A ∅ (f (.error e)) R) :
    L.Triple A P (p.attempt >>= f) R := by
  refine fun tr hP => Prog.wp_bind.2 (Prog.wp_attempt.2 (Prog.wp_mono (fun r tr' h => ?_) (hp tr hP)))
  rcases r with e | a
  · exact herror e tr' fun n hn => absurd hn (Set.notMem_empty n)
  · exact hok a tr' (h a rfl)

/-- Where nothing need stand before it, a process is safe. -/
theorem safe {p : Prog σ ε α} (hp : L.Triple A ∅ p Q) : p.Safe A := by
  refine fun tr => Prog.wp_mono (fun _ _ _ => trivial) (hp tr fun n hn => ?_)
  exact absurd hn (Set.notMem_empty n)

end Triple

end Ledger

end Process
