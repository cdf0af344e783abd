import Headmaster.Process.Pool

/-!
# Traces

What a process may call can depend on everything it called before, and on the
answers. The state of such a contract is the trace of the process, its calls
with their answers, the latest first (`Contract.tracing`).

A process is *safe* when all it calls is allowed, whatever was called before
(`Prog.Safe`). Where its calls lead it (`Prog.Leads`), it may have just come back
from a part of it (`Prog.Returned`). In a pool each thread has its own trace in the
history (`trace`): what a safe thread calls was allowed after it (`exec_tracing`),
and it has come to where the trace leads (`exec_leads`).
-/

namespace Process

variable {σ : Sig} {ε ε' α β W F G : Type}

/-- A call that was made, with its answer. -/
structure Made (σ : Sig) where
  op : σ.Op
  ans : σ.Ans op

/-- The contract that allows a call after some calls made, the latest first. -/
def Contract.tracing (A : List (Made σ) → σ.Op → Prop) : Contract σ (List (Made σ)) where
  allows := A
  next tr o a tr' := tr' = ⟨o, a⟩ :: tr

namespace Prog

variable {A : List (Made σ) → σ.Op → Prop} {Q : Except ε α → List (Made σ) → Prop}
  {tr : List (Made σ)}

theorem wp_op_tracing {o : σ.Op} {Q : Except ε (σ.Ans o) → List (Made σ) → Prop} :
    (op o : Prog σ ε _).wp (.tracing A) Q tr ↔ A tr o ∧ ∀ a, Q (.ok a) (⟨o, a⟩ :: tr) := by
  refine and_congr Iff.rfl (forall_congr' fun a => ?_)
  exact ⟨fun h => h _ rfl, fun h tr' htr => htr ▸ h⟩

theorem wp_bind_op {o : σ.Op} {f : σ.Ans o → Prog σ ε α} :
    (op o >>= f).wp (.tracing A) Q tr ↔
      A tr o ∧ ∀ a, (f a).wp (.tracing A) Q (⟨o, a⟩ :: tr) :=
  wp_bind.trans wp_op_tracing

/-- The process makes allowed calls only, whatever was called before it. -/
def Safe (A : List (Made σ) → σ.Op → Prop) (p : Prog σ ε α) : Prop :=
  ∀ tr, p.wp (.tracing A) (fun _ _ => True) tr

theorem safe_ret (r : Except ε α) : (.ret r : Prog σ ε α).Safe A := fun _ => trivial

theorem Safe.bind {p : Prog σ ε α} {f : α → Prog σ ε β} (hp : p.Safe A) (hf : ∀ a, (f a).Safe A) :
    (p >>= f).Safe A := by
  refine fun tr => wp_bind.2 (wp_mono (fun r tr' _ => ?_) (hp tr))
  rcases r with e | a
  · trivial
  · exact hf a tr'

theorem Safe.mono {B : List (Made σ) → σ.Op → Prop} {p : Prog σ ε α} (hp : p.Safe A)
    (h : ∀ tr o, A tr o → B tr o) : p.Safe B := by
  have hmono (p : Prog σ ε α) (tr : List (Made σ)) (hp : p.wp (.tracing A) (fun _ _ => True) tr) :
      p.wp (.tracing B) (fun _ _ => True) tr := by
    induction p generalizing tr with
    | ret r => trivial
    | call o k ih => exact ⟨h tr o hp.1, fun a tr' htr => ih a tr' (hp.2 a tr' htr)⟩
  exact fun tr => hmono p tr (hp tr)

/-- A process makes calls that are all allowed. -/
theorem uses_of_forall {B : σ.Op → Prop} (h : ∀ o, B o) (p : Prog σ ε α) : p.Uses B := by
  induction p with
  | ret r => trivial
  | call o k ih => exact ⟨h o, ih⟩

theorem Uses.mapError {B : σ.Op → Prop} {p : Prog σ ε α} {f : ε → ε'} (hp : p.Uses B) :
    (p.mapError f).Uses B := by
  induction p with
  | ret r => trivial
  | call o k ih => exact ⟨hp.1, fun a => ih a (hp.2 a)⟩

theorem Uses.lift {τ : Sig} {i : Hom σ τ} {B : τ.Op → Prop} {p : Prog σ ε α}
    (hp : p.Uses fun o => B (i.op o)) : (p.lift i).Uses B := by
  induction p with
  | ret r => trivial
  | call o k ih => exact ⟨hp.1, fun a => ih _ (hp.2 _)⟩

theorem Uses.forM {B : σ.Op → Prop} {xs : List β} {f : β → Prog σ ε PUnit}
    (hf : ∀ x ∈ xs, (f x).Uses B) : (xs.forM f).Uses B := by
  induction xs with
  | nil => trivial
  | cons x xs ih =>
    exact .bind (hf x List.mem_cons_self) fun _ => ih fun y hy => hf y (List.mem_cons_of_mem _ hy)

theorem Uses.mapM {B : σ.Op → Prop} {xs : List β} {f : β → Prog σ ε α}
    (hf : ∀ x ∈ xs, (f x).Uses B) : (xs.mapM f).Uses B := by
  induction xs with
  | nil => trivial
  | cons x xs ih =>
    rw [List.mapM_cons]
    refine .bind (hf x List.mem_cons_self) fun _ => ?_
    exact .bind (ih fun y hy => hf y (List.mem_cons_of_mem _ hy)) fun _ => trivial

/-- Calls that are allowed whatever was called before them are added to those. -/
theorem Uses.wp_tracing {B : σ.Op → Prop} {p : Prog σ ε α} (hp : p.Uses B)
    (hB : ∀ tr o, B o → A tr o) (tr : List (Made σ)) :
    p.wp (.tracing A) (fun _ tr' => ∃ l, tr' = l ++ tr ∧ ∀ c ∈ l, B c.op) tr := by
  induction p generalizing tr with
  | ret r => exact ⟨[], rfl, nofun⟩
  | call o k ih =>
    refine ⟨hB tr o hp.1, fun a tr' htr => wp_mono ?_ (ih a (hp.2 a) tr')⟩
    rintro r _ ⟨l, rfl, hl⟩
    refine ⟨l ++ [⟨o, a⟩], by rw [htr, List.append_assoc]; rfl, fun c hc => ?_⟩
    rcases List.mem_append.1 hc with hc | hc
    · exact hl c hc
    · obtain rfl := List.mem_singleton.1 hc
      exact hp.1

theorem Uses.safe {B : σ.Op → Prop} {p : Prog σ ε α} (hp : p.Uses B) (hB : ∀ tr o, B o → A tr o) :
    p.Safe A := fun tr => wp_mono (fun _ _ _ => trivial) (hp.wp_tracing hB tr)

/-- From where every call is allowed, whatever else is called. -/
theorem wp_of_allowed (p : Prog σ ε α) (h : ∀ tr', tr ⊆ tr' → ∀ o, A tr' o) :
    p.wp (.tracing A) (fun _ _ => True) tr := by
  induction p generalizing tr with
  | ret r => trivial
  | call o k ih =>
    refine ⟨h tr (List.Subset.refl _) o, fun a tr' htr => ih a fun tr'' hsub => ?_⟩
    subst htr
    exact h tr'' (List.Subset.trans (List.subset_cons_self _ _) hsub)

end Prog

/-! ## What a process comes to -/

namespace Prog

/-- After some calls, the latest first, a process goes on as another one. -/
inductive Leads (p : Prog σ ε α) : List (Made σ) → Prog σ ε α → Prop
  | refl : Leads p [] p
  | call {tr : List (Made σ)} {o : σ.Op} {k : σ.Ans o → Prog σ ε α} (h : Leads p tr (.call o k))
      (a : σ.Ans o) : Leads p (⟨o, a⟩ :: tr) (k a)

/-- A process has just come back from a part of it, which has made the calls `mid` and ended
    with `r`. -/
def Returned (p : Prog σ ε α) (tr : List (Made σ)) (q : Prog σ ε β) (mid : List (Made σ))
    (r : Except ε β) : Prop :=
  ∃ (f : β → Prog σ ε α) (pre : List (Made σ)), tr = mid ++ pre ∧ p.Leads pre (q >>= f) ∧
    q.Leads mid (.ret r)

section Leads

variable {A : List (Made σ) → σ.Op → Prop} {C : σ.Op → Prop} {tr tr' : List (Made σ)}
  {p q q' : Prog σ ε α} {f : α → Prog σ ε β}

theorem Leads.trans (h : p.Leads tr q) (h' : q.Leads tr' q') : p.Leads (tr' ++ tr) q' := by
  induction h' with
  | refl => exact h
  | call _ a ih => exact .call ih a

theorem Leads.bind (h : p.Leads tr q) : (p >>= f).Leads tr (q >>= f) := by
  induction h with
  | refl => exact .refl
  | call _ a ih => exact .call ih a

/-- A process that goes on with another one is still in its first part, or has ended it. -/
theorem Leads.of_bind {o : σ.Op} {k : σ.Ans o → Prog σ ε β} (h : (p >>= f).Leads tr (.call o k)) :
    (∃ k', p.Leads tr (.call o k')) ∨ ∃ a tr₁ tr₂, tr = tr₂ ++ tr₁ ∧ p.Leads tr₁ (.ret (.ok a)) ∧
      (f a).Leads tr₂ (.call o k) := by
  -- By induction on the calls: the first part makes the next one, or has ended before it.
  have hsplit : ∀ q, (p >>= f).Leads tr q → (∃ p', p.Leads tr p' ∧ q = p' >>= f) ∨
      ∃ a tr₁ tr₂, tr = tr₂ ++ tr₁ ∧ p.Leads tr₁ (.ret (.ok a)) ∧ (f a).Leads tr₂ q := by
    intro q hq
    clear h
    induction hq with
    | refl => exact .inl ⟨p, .refl, rfl⟩
    | @call tr o k _ a ih =>
      rcases ih with ⟨p', hp', heq⟩ | ⟨b, tr₁, tr₂, rfl, hb, hf⟩
      · match p', hp', heq with
        | .ret (.ok b), hb, heq => exact .inr ⟨b, tr, [⟨o, a⟩], rfl, hb, .call (heq ▸ .refl) a⟩
        | .call o' k', hk', heq =>
          obtain ⟨rfl, hk⟩ := Prog.call.inj (heq : _ = Prog.call o' fun a => (k' a).bind f)
          obtain rfl := eq_of_heq hk
          exact .inl ⟨k' a, .call hk' a, rfl⟩
      · exact .inr ⟨b, tr₁, ⟨o, a⟩ :: tr₂, rfl, hb, .call hf a⟩
  rcases hsplit _ h with ⟨p', hp', heq⟩ | hright
  · match p', hp', heq with
    | .ret (.ok b), hb, heq => exact .inr ⟨b, tr, [], rfl, hb, heq ▸ .refl⟩
    | .call o' k', hk', heq =>
      obtain ⟨rfl, -⟩ := Prog.call.inj (heq : _ = Prog.call o' fun a => (k' a).bind f)
      exact .inl ⟨k', hk'⟩
  · exact .inr hright

/-- What a process guarantees, what is left of it does. -/
theorem Leads.wp {Q : Except ε α → List (Made σ) → Prop} (h : p.Leads tr' q)
    (hp : p.wp (.tracing A) Q tr) : q.wp (.tracing A) Q (tr' ++ tr) := by
  induction h with
  | refl => exact hp
  | call _ a ih => exact ih.2 a _ rfl

theorem Leads.uses (h : p.Leads tr q) (hp : p.Uses C) : q.Uses C := by
  induction h with
  | refl => exact hp
  | call _ a ih => exact ih.2 a

/-- Only the first call may be one that is not of a kind. -/
def FirstOnly (C : σ.Op → Prop) (p : Prog σ ε α) : Prop :=
  ∀ tr o k, p.Leads tr (.call o k) → ¬C o → tr = []

theorem Leads.of_op {o : σ.Op} {q : Prog σ ε (σ.Ans o)} (h : (op o : Prog σ ε _).Leads tr q) :
    (tr = [] ∧ q = op o) ∨ ∃ a, q = .ret (.ok a) := by
  induction h with
  | refl => exact .inl ⟨rfl, rfl⟩
  | call _ a ih =>
    rcases ih with ⟨-, hop⟩ | ⟨_, hret⟩
    · obtain ⟨rfl, hk⟩ := Prog.call.inj hop
      exact .inr ⟨a, congrFun (eq_of_heq hk) a⟩
    · cases hret

theorem firstOnly_op (o : σ.Op) : (op o : Prog σ ε _).FirstOnly C := by
  intro tr o' k h _
  rcases h.of_op with ⟨hnil, -⟩ | ⟨_, hret⟩
  · exact hnil
  · cases hret

theorem FirstOnly.bind (hp : p.FirstOnly C) (hf : ∀ a, (f a).Uses C) : (p >>= f).FirstOnly C := by
  intro tr o k h ho
  rcases h.of_bind with ⟨k', hk'⟩ | ⟨a, _, _, _, _, hq⟩
  · exact hp tr o k' hk' ho
  · exact absurd (hq.uses (hf a)).1 ho

/-! ### Parts -/

variable {β' : Type} {q : Prog σ ε β'} {mid : List (Made σ)} {r : Except ε β'}

theorem Returned.left (h : p.Returned tr q mid r) : (p >>= f).Returned tr q mid r := by
  obtain ⟨g, pre, htr, hp, hq⟩ := h
  exact ⟨fun b => g b >>= f, pre, htr, bind_assoc q g f ▸ hp.bind, hq⟩

theorem Returned.right {a : α} (hp : p.Leads tr (.ret (.ok a))) (h : (f a).Returned tr' q mid r) :
    (p >>= f).Returned (tr' ++ tr) q mid r := by
  obtain ⟨g, pre, rfl, hf, hq⟩ := h
  have hbind : (p >>= f).Leads tr (f a) := hp.bind
  exact ⟨g, pre ++ tr, List.append_assoc .., hbind.trans hf, hq⟩

theorem Returned.here {q : Prog σ ε α} {r : Except ε α} (h : q.Leads mid (.ret r)) :
    (q >>= f).Returned mid q mid r := ⟨f, [], (List.append_nil _).symm, .refl, h⟩

end Leads

end Prog

/-! ## Recorded -/

namespace Machine

/-- The machine that keeps the calls made, the latest first, with its world. -/
def recording (M : Machine σ W F G) : Machine σ (W × List (Made σ)) F G where
  act f o s := ((M.act f o s.1).1, (M.act f o s.1).2, ⟨o, (M.act f o s.1).1⟩ :: s.2)
  ready s := M.ready s.1
  env g s := (M.env g s.1, s.2)

/-- A call is answered as it is without the record, and recorded. -/
theorem wp_bind_recording {M : Machine σ W F G} {o : σ.Op} {f : σ.Ans o → Prog σ ε α}
    {Q : Except ε α → W × List (Made σ) → Prop} {w : W} {tr : List (Made σ)} :
    (Prog.op o >>= f).wp M.recording.contract Q (w, tr) ↔
      (Prog.op o : Prog σ ε _).wp M.contract
        (fun r w' => ∀ a, r = .ok a → (f a).wp M.recording.contract Q (w', ⟨o, a⟩ :: tr)) w := by
  refine Prog.wp_bind.trans (wp_op_iff.trans (Iff.trans ?_ wp_op_iff.symm))
  refine forall_congr' fun f => ⟨fun h a ha => ?_, fun h => h _ rfl⟩
  obtain rfl := Except.ok.inj ha
  exact h

/-- Calls of a kind are the only ones that are added to the record. -/
theorem wp_recording {M : Machine σ W F G} {A : σ.Op → Prop} {Q : Except ε α → W → Prop}
    {p : Prog σ ε α} {w : W} {tr : List (Made σ)} (hp : p.wp (M.contract.within A) Q w) :
    p.wp M.recording.contract (fun r s => Q r s.1 ∧ ∃ l, s.2 = l ++ tr ∧ ∀ c ∈ l, A c.op) (w, tr) := by
  induction p generalizing w tr with
  | ret r => exact ⟨hp, [], rfl, nofun⟩
  | call o k ih =>
    refine wp_call_iff.2 fun f => Prog.wp_mono ?_ (ih _ (hp.2 _ _ ⟨f, rfl⟩))
    rintro r s ⟨hQ, l, hl, hA⟩
    refine ⟨hQ, l ++ [⟨o, (M.act f o w).1⟩], ?_, fun c hc => ?_⟩
    · rw [hl, List.append_assoc]
      rfl
    · rcases List.mem_append.1 hc with hc | hc
      · exact hA c hc
      · obtain rfl := List.mem_singleton.1 hc
        exact hp.1.1

end Machine

/-! ## In a pool -/

def Entry.made (e : Entry σ W) : Made σ := ⟨e.op, e.ans⟩

/-- The calls of a thread in a history. -/
def trace (i : ℕ) (h : List (Entry σ W)) : List (Made σ) :=
  (h.filter fun e => e.thread == i).map Entry.made

theorem trace_subset (i : ℕ) (h : List (Entry σ W)) : trace i h ⊆ h.map Entry.made :=
  List.map_subset _ (List.filter_subset_self _)

theorem trace_cons_self (e : Entry σ W) (h : List (Entry σ W)) :
    trace e.thread (e :: h) = e.made :: trace e.thread h := by
  rw [trace, List.filter_cons, if_pos (beq_self_eq_true _)]
  rfl

theorem trace_cons_of_ne {e : Entry σ W} {i : ℕ} (hne : e.thread ≠ i) (h : List (Entry σ W)) :
    trace i (e :: h) = trace i h := by
  rw [trace, List.filter_cons, if_neg (by simpa using hne)]
  rfl

theorem trace_append (i : ℕ) (h h' : List (Entry σ W)) :
    trace i (h ++ h') = trace i h ++ trace i h' := by
  rw [trace, List.filter_append, List.map_append, trace, trace]

theorem mem_trace {i : ℕ} {h : List (Entry σ W)} {c : Made σ} :
    c ∈ trace i h ↔ ∃ e ∈ h, e.thread = i ∧ e.made = c := by
  simp [trace, and_assoc]

namespace Machine

variable {M : Machine σ W F G}

/-- A thread goes on as it must after its calls. -/
def Keeps (A : List (Made σ) → σ.Op → Prop) (Q : Except ε α → List (Made σ) → Prop) (i : ℕ)
    (s : Pool σ ε α W) : Prop :=
  ∀ p, s.threads[i]? = some p → p.wp (.tracing A) Q (trace i s.history)

section Keeps

variable {A : List (Made σ) → σ.Op → Prop} {Q : Except ε α → List (Made σ) → Prop} {i : ℕ}
  {s s' : Pool σ ε α W}

theorem Keeps.advance (hs : Keeps A Q i s) {j : ℕ} {f : F} {o : σ.Op} {k : σ.Ans o → Prog σ ε α}
    (hj : s.threads[j]? = some (.call o k)) : Keeps A Q i (M.advance s j f o k) := by
  intro p hi
  rcases eq_or_ne j i with rfl | hne
  · -- the thread goes on, with the call in its trace
    have hlt := (List.getElem?_eq_some_iff.1 hj).1
    simp only [Machine.advance, List.getElem?_set_self hlt, Option.some.injEq] at hi
    subst hi
    exact (hs _ hj).2 _ _ (trace_cons_self _ _)
  · simp only [Machine.advance, List.getElem?_set_ne hne] at hi
    have htrace := trace_cons_of_ne (e := ⟨j, o, (M.act f o s.world).1, s.world⟩) hne s.history
    exact htrace ▸ hs p hi

theorem exec_keeps {es : List (Event F G)} (hs : Keeps A Q i s) (h : M.exec s es = some s') :
    Keeps A Q i s' := by
  refine exec_induction (fun t ev t' ht hst => ?_) hs h
  rcases step_cases hst with ⟨i, f, o, k, _, hi, _, rfl⟩ | ⟨g, _, rfl⟩
  · exact ht.advance hi
  · exact ht

end Keeps

/-- Every thread has come to where its calls have led it. -/
theorem exec_leads {s s' : Pool σ ε α W} {es : List (Event F G)} (hs : s.history = [])
    (h : M.exec s es = some s') {i : ℕ} {p : Prog σ ε α} (hi : s.threads[i]? = some p) :
    ∃ q, s'.threads[i]? = some q ∧ p.Leads (trace i s'.history) q := by
  refine exec_induction (P := fun t : Pool σ ε α W =>
    ∃ q, t.threads[i]? = some q ∧ p.Leads (trace i t.history) q) ?_ ⟨p, hi, hs ▸ .refl⟩ h
  rintro t ev t' ⟨q, hq, hleads⟩ hst
  rcases step_cases hst with ⟨j, f, o, k, _, hj, _, rfl⟩ | ⟨g, _, rfl⟩
  · rcases eq_or_ne j i with rfl | hne
    · obtain rfl : q = .call o k := Option.some.inj (hq.symm.trans hj)
      have hlt := (List.getElem?_eq_some_iff.1 hj).1
      refine ⟨_, List.getElem?_set_self hlt, ?_⟩
      exact trace_cons_self (⟨j, o, (M.act f o t.world).1, t.world⟩ : Entry σ W) t.history ▸
        hleads.call _
    · refine ⟨q, (List.getElem?_set_ne hne).trans hq, ?_⟩
      exact trace_cons_of_ne (e := ⟨j, o, (M.act f o t.world).1, t.world⟩) hne t.history ▸ hleads
  · exact ⟨q, hq, hleads⟩

/-- Every call in the history was answered by the machine. -/
theorem exec_answered {s s' : Pool σ ε α W} {es : List (Event F G)} (hs : s.history = [])
    (h : M.exec s es = some s') : ∀ e ∈ s'.history, ∃ f, (M.act f e.op e.before).1 = e.ans := by
  refine exec_induction (P := fun t : Pool σ ε α W =>
    ∀ e ∈ t.history, ∃ f, (M.act f e.op e.before).1 = e.ans) ?_ ?_ h
  · intro t ev t' ht hst
    rcases step_cases hst with ⟨i, f, o, k, _, _, _, rfl⟩ | ⟨g, _, rfl⟩
    · exact List.forall_mem_cons.2 ⟨⟨f, rfl⟩, ht⟩
    · exact ht
  · rw [hs]
    exact nofun

/-- When every thread is safe, every call in the history was allowed after those of its thread,
    and was answered by the machine. -/
theorem exec_tracing {A : ℕ → List (Made σ) → σ.Op → Prop} {s s' : Pool σ ε α W}
    {es : List (Event F G)} (hs : s.history = [])
    (hp : ∀ (i : ℕ) p, s.threads[i]? = some p → p.Safe (A i))
    (h : M.exec s es = some s') {e : Entry σ W} {hist : List (Entry σ W)}
    (he : e :: hist <:+ s'.history) :
    A e.thread (trace e.thread hist) e.op ∧ ∃ f, (M.act f e.op e.before).1 = e.ans := by
  refine ⟨?_, exec_answered hs h e (he.subset List.mem_cons_self)⟩
  have hinv := exec_induction (M := M) (P := fun t : Pool σ ε α W =>
    (∀ i, Keeps (A i) (fun _ _ => True) i t) ∧ ∀ e hist, e :: hist <:+ t.history →
      A e.thread (trace e.thread hist) e.op) ?_ ?_ h
  · exact hinv.2 e hist he
  · rintro t ev t' ⟨hf, hcalls⟩ hst
    rcases step_cases hst with ⟨i, f, o, k, _, hi, _, rfl⟩ | ⟨g, _, rfl⟩
    · refine ⟨fun j => (hf j).advance hi, fun e hist he => ?_⟩
      rcases List.suffix_cons_iff.1 he with heq | he
      · cases heq
        exact (hf i _ hi).1
      · exact hcalls e hist he
    · exact ⟨hf, hcalls⟩
  · refine ⟨fun i p hi => hp i p hi _, fun e hist he => ?_⟩
    rw [hs] at he
    cases List.eq_nil_of_suffix_nil he

end Machine

end Process
