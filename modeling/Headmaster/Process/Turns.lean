import Headmaster.Process.Trace

/-!
# Threads in turn

Threads that run one after the other while others change the world: a thread
never calls again once a later one has called, so it may also stop before its
end. A *setting* says what the others may do, and what holds between any two
calls (`Setting`); the contract of a thread in it lets the others act before
each call, and asks for what is guaranteed of the call (`Machine.amid`). What
every thread guarantees alone, it does in an execution whose threads take turns
(`exec_amid`).
-/

namespace Process

variable {σ : Sig} {ε α β W F G : Type}

/-- What others may do to the world at any time, and what holds at any time. -/
structure Setting (W : Type) where
  others : W → W → Prop
  refl : ∀ w, others w w
  trans : ∀ {u v w}, others u v → others v w → others u w
  inv : W → Prop
  stable : ∀ ⦃v w⦄, inv v → others v w → inv w

/-- Others that may do anything. -/
def Setting.free : Setting W where
  others _ _ := True
  refl _ := trivial
  trans _ _ := trivial
  inv _ := True
  stable _ _ _ _ := trivial

/-- What the others keep. -/
def Setting.Stable (S : Setting W) (P : W → Prop) : Prop := ∀ ⦃v w⦄, P v → S.others v w → P w

/-- Whose turn it is; nobody's before the first call. -/
def Pool.turn? (s : Pool σ ε α W) : Option ℕ := s.history.head?.map (·.thread)

namespace Machine

variable (M : Machine σ W F G) (S : Setting W)

/-- A thread among others: of the worlds that they make, those in which `B` holds of a call are
    looked at; `A` is to hold there, after the calls made before, the latest first. -/
def amid (B : W → σ.Op → Prop) (A : List (Made σ) → W → σ.Op → Prop) :
    Contract σ (W × List (Made σ)) where
  allows s o := ∀ v, S.others s.1 v → B v o → A s.2 v o ∧ ∀ f, S.inv (M.act f o v).2
  next s o a s' := ∃ v f, S.others s.1 v ∧ B v o ∧ M.act f o v = (a, s'.1) ∧ s'.2 = ⟨o, a⟩ :: s.2

variable {M S} {B : W → σ.Op → Prop} {A : List (Made σ) → W → σ.Op → Prop}
  {Q : Except ε α → W × List (Made σ) → Prop} {w : W} {tr : List (Made σ)}

theorem wp_call_amid {o : σ.Op} {k : σ.Ans o → Prog σ ε α}
    (h : ∀ v, S.others w v → B v o → A tr v o ∧ ∀ f, S.inv (M.act f o v).2 ∧
      (k (M.act f o v).1).wp (M.amid S B A) Q ((M.act f o v).2, ⟨o, (M.act f o v).1⟩ :: tr)) :
    (Prog.call o k).wp (M.amid S B A) Q (w, tr) := by
  refine ⟨fun v hv hB => ⟨(h v hv hB).1, fun f => ((h v hv hB).2 f).1⟩, ?_⟩
  rintro a ⟨w', tr'⟩ ⟨v, f, hv, hB, hact, htr⟩
  have hnext := ((h v hv hB).2 f).2
  rw [hact] at hnext
  obtain rfl : tr' = ⟨o, a⟩ :: tr := htr
  exact hnext

/-! ## Triples -/

/-- Among others, from a world and calls with `P`, a process that ends with a value leaves some with
    `Q`, and one that ends with an error some with `E`. -/
def TripleAt (M : Machine σ W F G) (S : Setting W) (B : W → σ.Op → Prop)
    (A : List (Made σ) → W → σ.Op → Prop) (E P : List (Made σ) → W → Prop) (p : Prog σ ε α)
    (Q : α → List (Made σ) → W → Prop) : Prop :=
  ∀ w tr, P tr w → p.wp (M.amid S B A)
    (Post.andThen (fun (_ : Except ε α) s => E s.2 s.1) fun a s => Q a s.2 s.1) (w, tr)

/-- The same of worlds alone; an error leaves what holds at any time. -/
abbrev Triple (M : Machine σ W F G) (S : Setting W) (B : W → σ.Op → Prop)
    (A : List (Made σ) → W → σ.Op → Prop) (P : W → Prop) (p : Prog σ ε α) (Q : α → W → Prop) : Prop :=
  M.TripleAt S B A (fun _ => S.inv) (fun _ => P) p fun a _ => Q a

/-- Between any two calls, and wherever it ends, there is what holds at any time. -/
abbrev Steady (M : Machine σ W F G) (S : Setting W) (B : W → σ.Op → Prop)
    (A : List (Made σ) → W → σ.Op → Prop) (p : Prog σ ε α) : Prop :=
  M.Triple S B A S.inv p fun _ => S.inv

namespace TripleAt

variable {E P P' : List (Made σ) → W → Prop} {p : Prog σ ε α} {R : α → List (Made σ) → W → Prop}

theorem mono {R' : α → List (Made σ) → W → Prop} (hp : M.TripleAt S B A E P p R)
    (hP : ∀ tr w, P' tr w → P tr w) (hR : ∀ a tr w, R a tr w → R' a tr w) :
    M.TripleAt S B A E P' p R' := by
  refine fun w tr hw => Prog.wp_mono (fun r s hs => ?_) (hp w tr (hP tr w hw))
  match r with
  | .ok a => exact hR a s.2 s.1 hs
  | .error e => exact hs

theorem bind {R' : β → List (Made σ) → W → Prop} {f : α → Prog σ ε β}
    (hp : M.TripleAt S B A E P p R) (hf : ∀ a, M.TripleAt S B A E (R a) (f a) R') :
    M.TripleAt S B A E P (p >>= f) R' := by
  refine fun w tr hw => Prog.wp_bind.2 (Prog.wp_mono (fun r s hs => ?_) (hp w tr hw))
  match r with
  | .ok a => exact hf a s.1 s.2 hs
  | .error e => exact hs

theorem pure {a : α} (h : ∀ tr w, P tr w → R a tr w) :
    M.TripleAt S B A E P (pure a : Prog σ ε α) R := fun w tr hw => h tr w hw

theorem throw {e : ε} (h : ∀ tr w, P tr w → E tr w) :
    M.TripleAt S B A E P (throw e : Prog σ ε α) R := fun w tr hw => h tr w hw

/-- What is known once and for all. -/
theorem of_and {q : Prop} (hp : q → M.TripleAt S B A E P p R) :
    M.TripleAt S B A E (fun tr w => q ∧ P tr w) p R := fun w tr hw => hp hw.1 w tr hw.2

theorem op {o : σ.Op} {R : σ.Ans o → List (Made σ) → W → Prop} (hstable : ∀ tr, S.Stable (P tr))
    (h : ∀ tr v, P tr v → B v o → A tr v o ∧ ∀ f, S.inv (M.act f o v).2 ∧
      R (M.act f o v).1 (⟨o, (M.act f o v).1⟩ :: tr) (M.act f o v).2) :
    M.TripleAt S B A E P (Prog.op o : Prog σ ε _) R := by
  refine fun w tr hw => wp_call_amid fun v hv hB => ?_
  exact h tr v (hstable tr hw hv) hB

theorem mapError {ε' : Type} {f : ε → ε'} (hp : M.TripleAt S B A E P p R) :
    M.TripleAt S B A E P (p.mapError f) R := by
  refine fun w tr hw => Prog.wp_mapError.2 (Prog.wp_mono (fun r s hs => ?_) (hp w tr hw))
  match r with
  | .ok a => exact hs
  | .error e => exact hs

theorem attempt {ε' : Type} (hp : M.TripleAt S B A E P p R) :
    M.TripleAt S B A E P (p.attempt : Prog σ ε' _)
      fun r tr w => Post.andThen (fun (_ : Except ε α) s => E s.2 s.1) (fun a s => R a s.2 s.1) r
        (w, tr) := by
  refine fun w tr hw => Prog.wp_attempt.2 (Prog.wp_mono (fun r s hs => ?_) (hp w tr hw))
  match r with
  | .ok a => exact hs
  | .error e => exact hs

/-- Calls of a kind that keep something keep it throughout. -/
theorem of_uses {C : σ.Op → Prop} (hp : p.Uses C) (hstable : ∀ tr, S.Stable (P tr))
    (hE : ∀ tr w, P tr w → E tr w)
    (hact : ∀ o tr v, C o → P tr v → B v o → A tr v o ∧ ∀ f, S.inv (M.act f o v).2 ∧
      P (⟨o, (M.act f o v).1⟩ :: tr) (M.act f o v).2) :
    M.TripleAt S B A E P p fun _ => P := by
  intro w tr hw
  induction p generalizing w tr with
  | ret r =>
    match r with
    | .ok a => exact hw
    | .error e => exact hE tr w hw
  | call o k ih =>
    refine wp_call_amid fun v hv hB => ?_
    obtain ⟨hA, hnext⟩ := hact o tr v hp.1 (hstable tr hw hv) hB
    exact ⟨hA, fun f => ⟨(hnext f).1, ih _ (hp.2 _) _ _ (hnext f).2⟩⟩

end TripleAt

namespace Triple

variable {P P' : W → Prop} {p : Prog σ ε α} {R : α → W → Prop}

theorem mono {R' : α → W → Prop} (hp : M.Triple S B A P p R) (hP : ∀ w, P' w → P w)
    (hR : ∀ a w, R a w → R' a w) : M.Triple S B A P' p R' :=
  TripleAt.mono hp (fun _ => hP) fun a _ => hR a

theorem bind {R' : β → W → Prop} {f : α → Prog σ ε β} (hp : M.Triple S B A P p R)
    (hf : ∀ a, M.Triple S B A (R a) (f a) R') : M.Triple S B A P (p >>= f) R' :=
  TripleAt.bind hp hf

theorem pure {a : α} (h : ∀ w, P w → R a w) : M.Triple S B A P (pure a : Prog σ ε α) R :=
  TripleAt.pure fun _ => h

theorem throw {e : ε} (h : ∀ w, P w → S.inv w) : M.Triple S B A P (throw e : Prog σ ε α) R :=
  TripleAt.throw fun _ => h

theorem op {o : σ.Op} {R : σ.Ans o → W → Prop} (hstable : S.Stable P)
    (h : ∀ tr v, P v → B v o → A tr v o ∧ ∀ f, S.inv (M.act f o v).2 ∧
      R (M.act f o v).1 (M.act f o v).2) :
    M.Triple S B A P (Prog.op o : Prog σ ε _) R :=
  TripleAt.op (fun _ => hstable) h

theorem mapError {ε' : Type} {f : ε → ε'} (hp : M.Triple S B A P p R) :
    M.Triple S B A P (p.mapError f) R := TripleAt.mapError hp

/-- Of an outcome that is handed on, an error says only what holds at any time. -/
theorem attempt {ε' : Type} (hp : M.Triple S B A P p R) :
    M.Triple S B A P (p.attempt : Prog σ ε' _)
      (Post.andThen (fun (_ : Except ε α) w => S.inv w) R) :=
  (TripleAt.attempt hp).mono (fun _ _ hw => hw) fun r _ _ hr => match r, hr with
    | .ok _, hr => hr
    | .error _, hr => hr

theorem of_uses {C : σ.Op → Prop} (hp : p.Uses C) (hstable : S.Stable P) (hinv : ∀ w, P w → S.inv w)
    (hact : ∀ o tr v, C o → P v → B v o → A tr v o ∧ ∀ f, P (M.act f o v).2) :
    M.Triple S B A P p fun _ => P :=
  TripleAt.of_uses hp (fun _ => hstable) (fun _ => hinv) fun o tr v ho hv hB =>
    (hact o tr v ho hv hB).imp_right fun hnext f => ⟨hinv _ (hnext f), hnext f⟩

end Triple

/-! ## Executions -/

/-- The next step is a call of the thread whose turn it is, or of a later one, on a world as is
    assumed of the call, or a change that the others may make. -/
def InTurn (M : Machine σ W F G) (S : Setting W) (B : ℕ → W → σ.Op → Prop) (s : Pool σ ε α W) :
    Event F G → Prop
  | .act i _ => (∀ e ∈ s.history, e.thread ≤ i) ∧
    ∀ o ∈ s.threads[i]?.bind Prog.next?, B i s.world o
  | .env g => S.others s.world (M.env g s.world)

theorem InTurn.mono {B B' : ℕ → W → σ.Op → Prop} (hB : ∀ i w o, B i w o → B' i w o)
    (s : Pool σ ε α W) (e : Event F G) (h : InTurn M S B s e) : InTurn M S B' s e := by
  cases e with
  | act i f => exact ⟨h.1, fun o ho => hB i _ o (h.2 o ho)⟩
  | env g => exact h

/-- The same, while the others rest. -/
def ActsInTurn (B : ℕ → W → σ.Op → Prop) (s : Pool σ ε α W) : Event F G → Prop
  | .act i _ => (∀ e ∈ s.history, e.thread ≤ i) ∧
    ∀ o ∈ s.threads[i]?.bind Prog.next?, B i s.world o
  | .env _ => False

instance {B : ℕ → W → σ.Op → Prop} [∀ i w o, Decidable (B i w o)] (s : Pool σ ε α W) :
    ∀ e : Event F G, Decidable (ActsInTurn B s e)
  | .act i _ => inferInstanceAs (Decidable ((∀ e ∈ s.history, e.thread ≤ i) ∧
      ∀ o ∈ s.threads[i]?.bind Prog.next?, B i s.world o))
  | .env _ => .isFalse id

theorem ActsInTurn.inTurn {B : ℕ → W → σ.Op → Prop} (s : Pool σ ε α W) (e : Event F G)
    (h : ActsInTurn B s e) : InTurn M S B s e := by
  cases e with
  | act i f => exact h
  | env g => exact h.elim

section Executions

variable {B : ℕ → W → σ.Op → Prop} {A : ℕ → List (Made σ) → W → σ.Op → Prop}
  {Q : ℕ → Except ε α → W × List (Made σ) → Prop} {s s' : Pool σ ε α W} {es : List (Event F G)}

/-- What is known of a pool whose threads take turns. -/
structure Amid (M : Machine σ W F G) (S : Setting W) (B : ℕ → W → σ.Op → Prop)
    (A : ℕ → List (Made σ) → W → σ.Op → Prop) (Q : ℕ → Except ε α → W × List (Made σ) → Prop)
    (s : Pool σ ε α W) : Prop where
  inv : S.inv s.world
  calls : ∀ e hist, e :: hist <:+ s.history → A e.thread (trace e.thread hist) e.before e.op
  /-- No thread has called after a later one. -/
  sorted : ∀ e hist, e :: hist <:+ s.history → ∀ e' ∈ hist, e'.thread ≤ e.thread
  /-- The later threads have not begun. -/
  waiting : ∀ (i : ℕ) p, s.threads[i]? = some p → (∀ e ∈ s.history, e.thread < i) →
    ∀ w, S.inv w → p.wp (M.amid S (B i) (A i)) (Q i) (w, [])
  /-- The thread whose turn it is goes on from a world that the others have changed since. -/
  running : ∀ (i : ℕ) p, s.threads[i]? = some p → s.turn? = some i →
    ∃ w, S.others w s.world ∧ p.wp (M.amid S (B i) (A i)) (Q i) (w, trace i s.history)

/-- The thread that calls next goes on, or begins. -/
theorem Amid.goes_on (h : Amid M S B A Q s) {i : ℕ} {p : Prog σ ε α} (hi : s.threads[i]? = some p)
    (hturn : ∀ e ∈ s.history, e.thread ≤ i) :
    ∃ w, S.others w s.world ∧ p.wp (M.amid S (B i) (A i)) (Q i) (w, trace i s.history) := by
  by_cases hrunning : s.turn? = some i
  · exact h.running i p hi hrunning
  · have hlt : ∀ e ∈ s.history, e.thread < i := by
      intro e he
      refine Nat.lt_of_le_of_ne (hturn e he) fun heq => hrunning ?_
      rw [Pool.turn?]
      cases hhist : s.history with
      | nil =>
        rw [hhist] at he
        cases he
      | cons e₀ hist =>
        rw [hhist] at he
        rcases List.mem_cons.1 he with rfl | he
        · exact congrArg some heq
        · have hsorted := h.sorted e₀ hist (hhist ▸ List.suffix_rfl) e he
          have hle := hturn e₀ (hhist ▸ List.mem_cons_self)
          exact congrArg some (Nat.le_antisymm hle (heq ▸ hsorted))
    have hnone : trace i s.history = [] := by
      refine List.map_eq_nil_iff.2 (List.filter_eq_nil_iff.2 fun e he => ?_)
      exact fun hsame => Nat.ne_of_lt (hlt e he) (beq_iff_eq.1 hsame)
    exact ⟨s.world, S.refl _, hnone ▸ h.waiting i p hi hlt s.world h.inv⟩

theorem Amid.step (h : Amid M S B A Q s) {e : Event F G} (he : InTurn M S B s e)
    (hst : M.step s e = some s') : Amid M S B A Q s' := by
  rcases step_cases hst with ⟨i, f, o, k, rfl, hi, -, rfl⟩ | ⟨g, rfl, rfl⟩
  · obtain ⟨hturn, hB⟩ := he
    obtain ⟨w, hw, hwp⟩ := h.goes_on hi hturn
    have hBo : B i s.world o := hB o (by rw [hi]; rfl)
    obtain ⟨hA, hinv⟩ := hwp.1 s.world hw hBo
    have hlt := (List.getElem?_eq_some_iff.1 hi).1
    refine ⟨hinv f, ?_, ?_, ?_, ?_⟩
    · intro e hist he
      rcases List.suffix_cons_iff.1 he with heq | he
      · cases heq
        exact hA
      · exact h.calls e hist he
    · intro e hist he
      rcases List.suffix_cons_iff.1 he with heq | he
      · cases heq
        exact hturn
      · exact h.sorted e hist he
    · intro j p hj hbefore
      have hne : i ≠ j := Nat.ne_of_lt (List.forall_mem_cons.1 hbefore).1
      refine h.waiting j p ((List.getElem?_set_ne hne).symm.trans hj) ?_
      exact (List.forall_mem_cons.1 hbefore).2
    · intro j p hj hcurrent
      obtain rfl : i = j := Option.some.inj hcurrent
      obtain rfl := Option.some.inj ((List.getElem?_set_self hlt).symm.trans hj)
      refine ⟨_, S.refl _, hwp.2 _ _ ⟨s.world, f, hw, hBo, rfl, ?_⟩⟩
      exact trace_cons_self _ _
  · exact ⟨S.stable h.inv he, h.calls, h.sorted, h.waiting, fun i p hi hcurrent =>
      (h.running i p hi hcurrent).imp fun w hw => ⟨S.trans hw.1 he, hw.2⟩⟩

/-- What every thread guarantees alone, it does in turn. -/
theorem exec_amid (hs : s.history = []) (hinv : S.inv s.world)
    (hp : ∀ (i : ℕ) p, s.threads[i]? = some p → ∀ w, S.inv w →
      p.wp (M.amid S (B i) (A i)) (Q i) (w, []))
    (hturns : M.Along (M.InTurn S B) s es) (h : M.exec s es = some s') : Amid M S B A Q s' := by
  refine exec_induction_along (fun t e t' ht he hst => ht.step he hst) ?_ hturns h
  refine ⟨hinv, ?_, ?_, fun i p hi _ => hp i p hi, ?_⟩
  · intro e hist he
    rw [hs] at he
    cases List.eq_nil_of_suffix_nil he
  · intro e hist he
    rw [hs] at he
    cases List.eq_nil_of_suffix_nil he
  · intro i p _ hcurrent
    rw [Pool.turn?, hs] at hcurrent
    cases hcurrent

end Executions

end Machine

end Process
