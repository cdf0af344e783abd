import Headmaster.Process

/-!
# Crashes

A process that runs alone may stop at any call: what it leaves then is one of
the worlds it passes through (`Machine.Visits`). That an invariant holds in all
of them is a matter of the contract: with the invariant demanded at each call
(`Contract.keeping`), the weakest precondition is about the worlds on the way,
too (`visits_of_wp`).
-/

namespace Process

variable {σ : Sig} {W F G S ε α β : Type}

/-- The contract that demands an invariant at each call. -/
def Contract.keeping (c : Contract σ S) (I : S → Prop) : Contract σ S where
  allows s o := I s ∧ c.allows s o
  next := c.next

/-- The process, from `w`, is at `w'` before one of its calls or at its end. -/
inductive Machine.Visits (M : Machine σ W F G) : Prog σ ε α → W → W → Prop
  | here (p : Prog σ ε α) (w : W) : Visits M p w w
  | call {o : σ.Op} {k : σ.Ans o → Prog σ ε α} {w w' : W} (f : F)
      (h : Visits M (k (M.act f o w).1) (M.act f o w).2 w') : Visits M (.call o k) w w'

variable {M : Machine σ W F G}

namespace Prog

theorem wp_of_keeping {I : S → Prop} {c : Contract σ S} {Q : Except ε α → S → Prop}
    {p : Prog σ ε α} {s : S}
    (hp : p.wp (c.keeping I) Q s) : p.wp c Q s := by
  induction p generalizing s with
  | ret r => exact hp
  | call o k ih => exact ⟨hp.1.2, fun a s' hs => ih a (hp.2 a s' hs)⟩

end Prog

namespace Machine

variable {I : W → Prop} {Q : Except ε α → W → Prop} {p : Prog σ ε α} {w w' : W}

/-- An invariant that is demanded at each call, and at the end, holds on the way. -/
theorem visits_of_wp (h : M.Visits p w w') (hp : p.wp (M.contract.keeping I) Q w)
    (hQ : ∀ r w, Q r w → I w) : I w' := by
  induction h with
  | here p w =>
    match p, hp with
    | .ret r, hp => exact hQ r w hp
    | .call _ _, hp => exact hp.1.1
  | call f _ ih => exact ih (hp.2 _ _ ⟨f, rfl⟩)

/-- One call, under an invariant. -/
theorem wp_op_keeping {o : σ.Op} {Q : Except ε (σ.Ans o) → W → Prop} :
    (Prog.op o : Prog σ ε _).wp (M.contract.keeping I) Q w ↔
      I w ∧ ∀ f, Q (.ok (M.act f o w).1) (M.act f o w).2 := by
  constructor
  · rintro ⟨⟨hI, _⟩, h⟩
    exact ⟨hI, fun f => h _ _ ⟨f, rfl⟩⟩
  · rintro ⟨hI, h⟩
    refine ⟨⟨hI, trivial⟩, ?_⟩
    rintro a w' ⟨f, hf⟩
    have hact := h f
    rwa [hf] at hact

end Machine

end Process
