import Headmaster.Process.Turns

/-!
# Threads in turn among others

Of the threads of a pool, some are *ours*; the others are told from these by
what they call. Our threads take turns, while the others run at any time, with
any of their calls between two of ours. For our threads the calls of the others
are changes of the environment (`View`), so that what every one of them
guarantees alone (`Headmaster.Process.Turns`), it does among the others, too
(`exec_among`).
-/

namespace Process

variable {σ : Sig} {ε α W F G : Type}

/-- The calls of some threads in a history. -/
def calledBy (ours : ℕ → Bool) (h : List (Entry σ W)) : List (Entry σ W) :=
  h.filter fun e => ours e.thread

theorem mem_calledBy {ours : ℕ → Bool} {h : List (Entry σ W)} {e : Entry σ W} :
    e ∈ calledBy ours h ↔ e ∈ h ∧ ours e.thread = true := List.mem_filter

theorem calledBy_cons (ours : ℕ → Bool) (e : Entry σ W) (h : List (Entry σ W)) :
    calledBy ours (e :: h) = if ours e.thread = true then e :: calledBy ours h else calledBy ours h :=
  List.filter_cons

/-- The calls of one of them are all among these. -/
theorem trace_calledBy {ours : ℕ → Bool} {i : ℕ} (hi : ours i = true) (h : List (Entry σ W)) :
    trace i (calledBy ours h) = trace i h := by
  rw [trace, trace, calledBy, List.filter_filter]
  refine congrArg (List.map Entry.made) (List.filter_congr fun e _ => ?_)
  by_cases he : e.thread = i
  · rw [he, hi, Bool.and_true]
  · rw [beq_eq_false_iff_ne.2 he, Bool.false_and]

theorem Prog.Leads.eq_of_nil {p q : Prog σ ε α} (h : p.Leads [] q) : q = p := by
  cases h
  rfl

namespace Machine

variable (M : Machine σ W F G)

/-- The machine in an environment that may do anything. -/
def exposed : Machine σ W F (W → W) where
  act := M.act
  ready := M.ready
  env g w := g w

/-- One of our threads calls only when no later one of them has; the environment changes the world
    as it may. -/
def OwnTurns (ours : ℕ → Bool) (others : W → W → Prop) (s : Pool σ ε α W) : Event F G → Prop
  | .act i _ => ours i = true → ∀ e ∈ s.history, ours e.thread = true → e.thread ≤ i
  | .env g => others s.world (M.env g s.world)

instance {ours : ℕ → Bool} {others : W → W → Prop} [∀ v w, Decidable (others v w)]
    (s : Pool σ ε α W) : ∀ e : Event F G, Decidable (M.OwnTurns ours others s e)
  | .act i _ => inferInstanceAs (Decidable
      (ours i = true → ∀ e ∈ s.history, ours e.thread = true → e.thread ≤ i))
  | .env g => inferInstanceAs (Decidable (others s.world (M.env g s.world)))

variable {M}

theorem OwnTurns.mono {ours : ℕ → Bool} {others others' : W → W → Prop}
    (hothers : ∀ v w, others v w → others' v w) (s : Pool σ ε α W) (e : Event F G)
    (h : M.OwnTurns ours others s e) : M.OwnTurns ours others' s e := by
  cases e with
  | act i f => exact h
  | env g => exact hothers _ _ h

/-- What our threads see of a pool that began as `s₀`: the others have not begun. -/
structure View (ours : ℕ → Bool) (s₀ s v : Pool σ ε α W) : Prop where
  world : v.world = s.world
  own : ∀ i, ours i = true → v.threads[i]? = s.threads[i]?
  others : ∀ i, ours i = false → v.threads[i]? = s₀.threads[i]?
  history : v.history = calledBy ours s.history

section View

variable {S : Setting W} {ours : ℕ → Bool} {C : σ.Op → Prop} {s₀ s s' v : Pool σ ε α W}
  {e : Event F G}

/-- The others only make calls of a kind. -/
def OthersUse (ours : ℕ → Bool) (C : σ.Op → Prop) (s : Pool σ ε α W) : Prop :=
  ∀ (i : ℕ) p, ours i = false → s.threads[i]? = some p → p.Uses C

theorem View.of_empty (h : s.history = []) : View ours s s s := by
  refine ⟨rfl, fun _ _ => rfl, fun _ _ => rfl, ?_⟩
  rw [h]
  rfl

theorem OthersUse.step (h : OthersUse ours C s) (hst : M.step s e = some s') :
    OthersUse ours C s' := by
  rcases step_cases hst with ⟨i, f, o, k, -, hi, -, rfl⟩ | ⟨g, -, rfl⟩
  · intro j p hj hp
    rcases eq_or_ne i j with rfl | hne
    · have hlt := (List.getElem?_eq_some_iff.1 hi).1
      obtain rfl := Option.some.inj ((List.getElem?_set_self hlt).symm.trans hp)
      exact (h i _ hj hi).2 _
    · exact h j p hj ((List.getElem?_set_ne hne).symm.trans hp)
  · exact h

/-- A step of the pool is one of the view, where those of the others are the environment's. -/
theorem View.step (h : View ours s₀ s v) (hC : OthersUse ours C s)
    (hothers : ∀ o f w, C o → S.others w (M.act f o w).2) (he : M.OwnTurns ours S.others s e)
    (hst : M.step s e = some s') :
    ∃ e' v', M.exposed.step v e' = some v' ∧ View ours s₀ s' v' ∧
      InTurn M.exposed S (fun i _ _ => ours i = true) v e' := by
  rcases step_cases hst with ⟨i, f, o, k, rfl, hi, hready, rfl⟩ | ⟨g, rfl, rfl⟩
  · have hlt := (List.getElem?_eq_some_iff.1 hi).1
    cases hours : ours i with
    | true =>
      have hvi := (h.own i hours).trans hi
      have hvlt := (List.getElem?_eq_some_iff.1 hvi).1
      refine ⟨.act i f, M.exposed.advance v i f o k, ?_, ⟨?_, fun j hj => ?_, fun j hj => ?_, ?_⟩,
        fun e' he' => ?_, fun _ _ => hours⟩
      · have hvready : M.exposed.ready v.world o = true := h.world ▸ hready
        rw [Machine.step, hvi]
        exact if_pos hvready
      · exact congrArg (fun w => (M.act f o w).2) h.world
      · rcases eq_or_ne i j with rfl | hne
        · refine (List.getElem?_set_self hvlt).trans (Eq.trans ?_ (List.getElem?_set_self hlt).symm)
          exact congrArg (fun w => some (k (M.act f o w).1)) h.world
        · exact (List.getElem?_set_ne hne).trans
            ((h.own j hj).trans (List.getElem?_set_ne hne).symm)
      · refine (List.getElem?_set_ne fun heq => ?_).trans (h.others j hj)
        rw [heq, hj] at hours
        cases hours
      · rw [Machine.advance, Machine.advance, calledBy_cons, if_pos hours, ← h.history, ← h.world]
        rfl
      · rw [h.history, mem_calledBy] at he'
        exact he hours e' he'.1 he'.2
    | false =>
      refine ⟨.env fun _ => (M.act f o s.world).2, _, rfl, ⟨rfl, fun j hj => ?_, h.others, ?_⟩, ?_⟩
      · refine (h.own j hj).trans (List.getElem?_set_ne fun heq => ?_).symm
        rw [heq, hj] at hours
        cases hours
      · rw [Machine.advance, calledBy_cons, if_neg (ne_of_eq_of_ne hours Bool.false_ne_true)]
        exact h.history
      · rw [InTurn, h.world]
        exact hothers o f s.world (hC i _ hours hi).1
  · refine ⟨.env (M.env g), _, rfl, ⟨?_, h.own, h.others, h.history⟩, ?_⟩
    · exact congrArg (M.env g) h.world
    · rw [InTurn, h.world]
      exact he

/-- An execution is one of the view. -/
theorem View.exec {es : List (Event F G)} (h : View ours s₀ s v) (hC : OthersUse ours C s)
    (hothers : ∀ o f w, C o → S.others w (M.act f o w).2)
    (hturns : M.Along (M.OwnTurns ours S.others) s es) (hexec : M.exec s es = some s') :
    ∃ es' v', M.exposed.exec v es' = some v' ∧ View ours s₀ s' v' ∧
      M.exposed.Along (InTurn M.exposed S fun i _ _ => ours i = true) v es' := by
  induction es generalizing s v with
  | nil =>
    obtain rfl := Option.some.inj hexec
    exact ⟨[], v, rfl, h, trivial⟩
  | cons e es ih =>
    rw [exec_cons, Option.bind_eq_some_iff] at hexec
    obtain ⟨t, ht, hexec⟩ := hexec
    obtain ⟨he, hrest⟩ := hturns
    rw [ht] at hrest
    obtain ⟨e', u, hu, hview, hturn⟩ := h.step hC hothers he ht
    obtain ⟨es', v', hv', hview', hturns'⟩ := ih hview (hC.step ht) hrest hexec
    refine ⟨e' :: es', v', ?_, hview', hturn, ?_⟩
    · rw [exec_cons, hu]
      exact hv'
    · rw [hu]
      exact hturns'

end View

/-! ## Executions -/

/-- Among others whose calls are not looked at, nothing is asked of a process. -/
theorem wp_of_unseen {S : Setting W} {A : List (Made σ) → W → σ.Op → Prop} {B : W → σ.Op → Prop}
    {Q : Except ε α → W × List (Made σ) → Prop} {p : Prog σ ε α} {w : W × List (Made σ)}
    (hB : ∀ w o, ¬B w o) (hQ : ∀ r w, Q r w) : p.wp (M.amid S B A) Q w := by
  cases p with
  | ret r => exact hQ r w
  | call o k =>
    refine ⟨fun v _ hv => absurd hv (hB v o), ?_⟩
    rintro a w' ⟨v, f, -, hv, -⟩
    exact absurd hv (hB v o)

section Executions

variable {S : Setting W} {ours : ℕ → Bool} {C : σ.Op → Prop}
  {A : ℕ → List (Made σ) → W → σ.Op → Prop} {Q : ℕ → Except ε α → W × List (Made σ) → Prop}
  {s s' : Pool σ ε α W} {es : List (Event F G)}

/-- What is known of our threads once they ran among others. -/
structure Among (M : Machine σ W F G) (S : Setting W) (ours : ℕ → Bool)
    (A : ℕ → List (Made σ) → W → σ.Op → Prop) (Q : ℕ → Except ε α → W × List (Made σ) → Prop)
    (s : Pool σ ε α W) : Prop where
  inv : S.inv s.world
  calls : ∀ e hist, e :: hist <:+ s.history → ours e.thread = true →
    A e.thread (trace e.thread hist) e.before e.op
  /-- Of our threads, the one that has called last has ended as it should, unless it goes on. -/
  ended : ∀ (i : ℕ) r, s.threads[i]? = some (.ret r) →
    (calledBy ours s.history).head?.map (·.thread) = some i →
    ∃ w, S.others w s.world ∧ Q i r (w, trace i s.history)

/-- What each of our threads guarantees alone, it does in turn among the others. -/
theorem exec_among (hs : s.history = []) (hinv : S.inv s.world) (hC : OthersUse ours C s)
    (hothers : ∀ o f w, C o → S.others w (M.act f o w).2)
    (hown : ∀ (i : ℕ) p, ours i = true → s.threads[i]? = some p → ∀ w, S.inv w →
      p.wp (M.amid S (fun _ _ => True) (A i)) (Q i) (w, []))
    (hturns : M.Along (M.OwnTurns ours S.others) s es) (h : M.exec s es = some s') :
    Among M S ours A Q s' := by
  obtain ⟨es', v, hv, hview, hturns'⟩ :=
    (@View.of_empty σ ε α W ours s hs).exec hC hothers hturns h
  have hamid := exec_amid (M := M.exposed) (B := fun i _ _ => ours i = true)
    (A := A) (Q := fun i r w => ours i = true → Q i r w) hs hinv (fun i p hp w hw => ?_) hturns' hv
  · refine ⟨hview.world ▸ hamid.inv, fun e hist he hours => ?_, fun i r hi hlast => ?_⟩
    · -- the calls of the view are those of our threads
      have hsuffix : calledBy ours (e :: hist) <:+ v.history := by
        rw [hview.history]
        exact he.filter _
      rw [calledBy_cons, if_pos hours] at hsuffix
      exact trace_calledBy hours hist ▸ hamid.calls e _ hsuffix
    · have hours : ours i = true := by
        obtain ⟨e, he, rfl⟩ := Option.map_eq_some_iff.1 hlast
        exact (mem_calledBy.1 (List.mem_of_mem_head? he)).2
      have hturn : v.turn? = some i := by
        rw [Pool.turn?, hview.history]
        exact hlast
      obtain ⟨w, hw, hQ⟩ := hamid.running i (.ret r) ((hview.own i hours).trans hi) hturn
      exact ⟨w, hview.world ▸ hw, trace_calledBy hours s'.history ▸ hview.history ▸ hQ hours⟩
  · cases hours : ours i with
    | true =>
      refine Prog.wp_mono (fun r w hQ _ => hQ) ?_
      simp only [eq_self]
      exact hown i p hours hp w hw
    | false => exact wp_of_unseen (fun _ _ h => by cases h) fun _ _ h => by cases h

end Executions

/-! ## One thread -/

/-- A call, and what is done with its answer, among others. -/
theorem wp_bind_amid {β : Type} {S : Setting W} {B : W → σ.Op → Prop}
    {A : List (Made σ) → W → σ.Op → Prop} {Q : Except ε β → W × List (Made σ) → Prop} {o : σ.Op}
    {k : σ.Ans o → Prog σ ε β} {w : W} {tr : List (Made σ)}
    (h : ∀ v, S.others w v → B v o → A tr v o ∧ ∀ f, S.inv (M.act f o v).2 ∧
      (k (M.act f o v).1).wp (M.amid S B A) Q ((M.act f o v).2, ⟨o, (M.act f o v).1⟩ :: tr)) :
    (Prog.op o >>= k).wp (M.amid S B A) Q (w, tr) := wp_call_amid h

/-- The environment changes the world as it may. -/
def Undisturbed (M : Machine σ W F G) (others : W → W → Prop) (s : Pool σ ε α W) :
    Event F G → Prop
  | .act _ _ => True
  | .env g => others s.world (M.env g s.world)

section One

variable {S : Setting W} {C : σ.Op → Prop} {A : List (Made σ) → W → σ.Op → Prop}
  {Q : Except ε α → W × List (Made σ) → Prop} {s s' : Pool σ ε α W} {es : List (Event F G)} {i : ℕ}
  {p : Prog σ ε α}

/-- One thread is always in turn, so that it guarantees among others what it does alone. -/
theorem exec_own (hs : s.history = []) (hinv : S.inv s.world) (hi : s.threads[i]? = some p)
    (hC : ∀ (j : ℕ) q, j ≠ i → s.threads[j]? = some q → q.Uses C)
    (hothers : ∀ o f w, C o → S.others w (M.act f o w).2)
    (hp : ∀ w, S.inv w → p.wp (M.amid S (fun _ _ => True) A) Q (w, []))
    (hturns : M.Along (M.Undisturbed S.others) s es) (h : M.exec s es = some s') :
    (∀ e hist, e :: hist <:+ s'.history → e.thread = i → A (trace i hist) e.before e.op) ∧
      ∀ r, s'.threads[i]? = some (.ret r) →
        ∃ w, S.others w s'.world ∧ Q r (w, trace i s'.history) := by
  have hown : M.Along (M.OwnTurns (· == i) S.others) s es := by
    refine hturns.mono fun t e he => ?_
    cases e with
    | act j f =>
      intro hj e' _ he'
      exact Nat.le_of_eq ((beq_iff_eq.1 he').trans (beq_iff_eq.1 hj).symm)
    | env g => exact he
  have hamong := exec_among (A := fun _ => A) (Q := fun _ => Q) hs hinv
    (fun j q hj => hC j q (beq_eq_false_iff_ne.1 hj)) hothers (fun j q hj hq w hw => ?_) hown h
  · refine ⟨fun e hist he hthread => ?_, fun r hr => ?_⟩
    · exact hthread ▸ hamong.calls e hist he (beq_iff_eq.2 hthread)
    · cases hcalls : calledBy (· == i) s'.history with
      | cons e hist =>
        refine hamong.ended i r hr ?_
        have he : e ∈ calledBy (· == i) s'.history := hcalls ▸ List.mem_cons_self
        rw [hcalls]
        exact congrArg some (beq_iff_eq.1 (mem_calledBy.1 he).2)
      | nil =>
        -- it has called nothing, and so had ended at first
        have htrace : trace i s'.history = [] := by
          rw [← @trace_calledBy σ W (· == i) i (beq_self_eq_true i), hcalls]
          rfl
        obtain ⟨q, hq, hleads⟩ := exec_leads hs h hi
        obtain rfl := Option.some.inj (hq.symm.trans hr)
        rw [htrace] at hleads ⊢
        obtain rfl := hleads.eq_of_nil
        exact ⟨s'.world, S.refl _, hp s'.world hamong.inv⟩
  · obtain rfl := beq_iff_eq.1 hj
    obtain rfl := Option.some.inj (hi.symm.trans hq)
    exact hp w hw

end One

end Machine

end Process
