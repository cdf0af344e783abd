import Headmaster.Process

/-!
# Requests that fail

A request to a server that fails may have had its effect all the same: the
answer is what got lost (`serve`). One that is answered had it.
-/

namespace Process

variable {ε α W : Type} (lost : ε) (failure : Option Bool) (w w' : W) (r : Except ε α)

/-- A request with the answer `r` and the effect `w'`; when it fails, with its effect or without. -/
def serve : Except ε α × W :=
  match failure with
  | none => (r, w')
  | some effect => (.error lost, if effect then w' else w)

variable {lost failure w w' r}

theorem serve_snd : (serve lost failure w w' r).2 = w ∨ (serve lost failure w w' r).2 = w' := by
  rcases failure with _ | _ | _
  · exact .inr rfl
  · exact .inl rfl
  · exact .inr rfl

theorem serve_ok {a : α} (h : (serve lost failure w w' r).1 = .ok a) :
    r = .ok a ∧ (serve lost failure w w' r).2 = w' := by
  cases failure with
  | none => exact ⟨h, rfl⟩
  | some effect => cases h

/-- An error that is not the one of failures is the answer of the server. -/
theorem serve_error {e : ε} (hne : e ≠ lost) (h : (serve lost failure w w' r).1 = .error e) :
    r = .error e ∧ (serve lost failure w w' r).2 = w' := by
  cases failure with
  | none => exact ⟨h, rfl⟩
  | some effect => exact absurd (Except.error.inj h).symm hne

/-- What holds before a request and after its effect holds after it. -/
theorem serve_keeps {P : W → Prop} (hw : P w) (hw' : P w') : P (serve lost failure w w' r).2 := by
  rcases @serve_snd _ _ _ lost failure w w' r with h | h
  · rwa [h]
  · rwa [h]

@[simp]
theorem serve_same : (serve lost failure w w r).2 = w := serve_keeps (P := (· = w)) rfl rfl

end Process
