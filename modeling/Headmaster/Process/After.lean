import Headmaster.Process.Trace

/-!
# Triples on traces

What a process may call can rest on what was called before it. Where some is
known of the calls before, a process makes allowed calls only, and where it has
ended well more is known of them (`Prog.After`). Such triples compose along the
process (`After.bind`), and what later calls do not undo is framed (`After.frame`).
-/

namespace Process.Prog

variable {σ : Sig} {ε ε' α β : Type} {A : List (Made σ) → σ.Op → Prop}
  {I I' K : List (Made σ) → Prop} {J J' : α → List (Made σ) → Prop}
  {L : β → List (Made σ) → Prop}

/-- After calls of which `I` holds, a process makes allowed calls only, and `J` holds of all calls
    when it has ended well. -/
def After (A : List (Made σ) → σ.Op → Prop) (I : List (Made σ) → Prop) (p : Prog σ ε α)
    (J : α → List (Made σ) → Prop) : Prop :=
  ∀ tr, I tr → p.wp (.tracing A) (fun r tr' => ∀ a, r = .ok a → J a tr') tr

/-- What holds after some calls holds after more of them. -/
def Stays (K : List (Made σ) → Prop) : Prop := ∀ tr tr', tr ⊆ tr' → K tr → K tr'

theorem stays_true : Stays fun _ : List (Made σ) => True := fun _ _ _ h => h

theorem stays_mem {c : Made σ} : Stays fun tr => c ∈ tr := fun _ _ hsub h => hsub h

theorem Stays.and (hI : Stays I) (hK : Stays K) : Stays fun tr => I tr ∧ K tr :=
  fun tr tr' hsub h => ⟨hI tr tr' hsub h.1, hK tr tr' hsub h.2⟩

/-- The calls of a process come on top of those before it. -/
theorem wp_subset {p : Prog σ ε α} {Q : Except ε α → List (Made σ) → Prop} {tr : List (Made σ)}
    (hp : p.wp (.tracing A) Q tr) : p.wp (.tracing A) (fun r tr' => Q r tr' ∧ tr ⊆ tr') tr := by
  induction p generalizing tr with
  | ret r => exact ⟨hp, List.Subset.refl _⟩
  | call o k ih =>
    refine ⟨hp.1, fun a tr' htr => wp_mono ?_ (ih a (hp.2 a tr' htr))⟩
    rintro r tr'' ⟨hQ, hsub⟩
    subst htr
    exact ⟨hQ, List.Subset.trans (List.subset_cons_self _ _) hsub⟩

namespace After

theorem ret {r : Except ε α} (h : ∀ a tr, r = .ok a → I tr → J a tr) :
    (.ret r : Prog σ ε α).After A I J :=
  fun tr hI a ha => h a tr ha hI

theorem error (e : ε) : (.ret (.error e) : Prog σ ε α).After A I J := ret nofun

theorem mono {p : Prog σ ε α} (hp : p.After A I J) (hI : ∀ tr, I' tr → I tr)
    (hJ : ∀ a tr, J a tr → J' a tr) : p.After A I' J' :=
  fun tr h => wp_mono (fun _ tr' hr a ha => hJ a tr' (hr a ha)) (hp tr (hI tr h))

theorem bind {p : Prog σ ε α} {f : α → Prog σ ε β} (hp : p.After A I J)
    (hf : ∀ a, (f a).After A (J a) L) : (p >>= f).After A I L := by
  refine fun tr hI => wp_bind.2 (wp_mono (fun r tr' hr => ?_) (hp tr hI))
  rcases r with e | a
  · exact nofun
  · exact hf a tr' (hr a rfl)

/-- A call that is allowed is known to be made, with its answer. -/
theorem op {o : σ.Op} (hI : Stays I) (ho : ∀ tr, I tr → A tr o) :
    (op o : Prog σ ε _).After A I fun a tr => I tr ∧ ⟨o, a⟩ ∈ tr := by
  refine fun tr h => wp_op_tracing.2 ⟨ho tr h, fun a b hb => ?_⟩
  obtain rfl := Except.ok.inj hb
  exact ⟨hI _ _ (List.subset_cons_self _ _) h, List.mem_cons_self⟩

theorem mapError {f : ε → ε'} {p : Prog σ ε α} (hp : p.After A I J) :
    (p.mapError f).After A I J := by
  refine fun tr h => wp_mapError.2 (wp_mono (fun r tr' hr a ha => ?_) (hp tr h))
  rcases r with e | b
  · cases ha
  · obtain rfl := Except.ok.inj (ha : (Except.ok b : Except ε' α) = .ok a)
    exact hr b rfl

theorem attempt {p : Prog σ ε α} (hp : p.After A I J) :
    (p.attempt : Prog σ ε' _).After A I fun r tr => ∀ a, r = .ok a → J a tr := by
  refine fun tr h => wp_attempt.2 (wp_mono (fun r tr' hr b hb => ?_) (hp tr h))
  obtain rfl := Except.ok.inj hb
  exact hr

/-- What stays is kept. -/
theorem frame {p : Prog σ ε α} (hK : Stays K) (hp : p.After A I J) :
    p.After A (fun tr => K tr ∧ I tr) fun a tr => K tr ∧ J a tr := by
  refine fun tr h => wp_mono ?_ (wp_subset (hp tr h.2))
  exact fun _ tr' hr a ha => ⟨hK _ _ hr.2 h.1, hr.1 a ha⟩

/-- Calls of a kind that is allowed while `I` holds. -/
theorem of_uses {B : σ.Op → Prop} {p : Prog σ ε α} (hI : Stays I) (hp : p.Uses B)
    (hB : ∀ tr o, I tr → B o → A tr o) : p.After A I fun _ => I := by
  induction p with
  | ret r => exact ret fun _ _ _ h => h
  | call o k ih =>
    refine fun tr h => ⟨hB tr o h hp.1, fun a tr' htr => ?_⟩
    subst htr
    exact ih a (hp.2 a) _ (hI _ _ (List.subset_cons_self _ _) h)

theorem safe {p : Prog σ ε α} (hp : p.After A (fun _ => True) J) : p.Safe A :=
  fun tr => wp_mono (fun _ _ _ => trivial) (hp tr trivial)

end After

end Process.Prog
