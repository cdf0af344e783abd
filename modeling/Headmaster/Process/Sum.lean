import Headmaster.Process

/-!
# Two machines on one world

Processes that call the operations of different signatures can share a world:
each is a process over the sum of the signatures (`Prog.inl`, `Prog.inr`), whose
machine answers a call as the machine it belongs to does (`Machine.sum`).
-/

namespace Process

/-- The calls of both signatures. -/
def Sig.sum (σ τ : Sig) : Sig := ⟨σ.Op ⊕ τ.Op, Sum.elim σ.Ans τ.Ans⟩

variable {σ τ : Sig} {ε α : Type}

namespace Prog

def inl : Prog σ ε α → Prog (σ.sum τ) ε α := lift ⟨Sum.inl, fun _ a => a⟩

def inr : Prog τ ε α → Prog (σ.sum τ) ε α := lift ⟨Sum.inr, fun _ a => a⟩

end Prog

namespace Machine

variable {W F G F' G' : Type} (M : Machine σ W F G) (N : Machine τ W F' G')

def sum : Machine (σ.sum τ) W (F × F') (G ⊕ G') where
  act f
    | .inl o => M.act f.1 o
    | .inr o => N.act f.2 o
  ready w
    | .inl o => M.ready w o
    | .inr o => N.ready w o
  env
    | .inl g => M.env g
    | .inr g => N.env g

variable {M N} {A : σ.Op ⊕ τ.Op → Prop} {Q : Except ε α → W → Prop} {w : W}

/-- A process is on the sum what it is on its own machine. -/
theorem wp_inl [Inhabited F'] {p : Prog σ ε α} :
    (p.inl : Prog (σ.sum τ) ε α).wp ((M.sum N).contract.within A) Q w ↔
      p.wp (M.contract.within fun o => A (.inl o)) Q w := by
  constructor
  · intro h
    induction p generalizing w with
    | ret r => exact h
    | call o k ih =>
      refine ⟨h.1, ?_⟩
      rintro a w' ⟨f, hf⟩
      exact ih a (h.2 a w' ⟨(f, default), hf⟩)
  · refine Prog.wp_lift (fun _ _ => id) ?_
    rintro w o a w' _ ⟨f, hf⟩
    exact ⟨f.1, hf⟩

end Machine

end Process
