import Mathlib.Logic.Basic

/-!
# Processes

A *process* calls operations of a signature one after the other, each call
depending on the answers to the earlier ones, and ends with a value or an
error (`Prog`). It is a tree, so it says nothing about what the operations do;
that is given in two ways:

* a *machine* (`Machine`) answers the calls from a world it changes, a *fate*
  settling what is not up to the process (whether a call fails, what a clock
  shows). Running a process alone on a machine is `Machine.run`; several
  processes interleaved are in `Headmaster.Process.Pool`;
* a *contract* (`Contract`) says which calls are allowed in a state and how the
  state moves with the answers. The weakest precondition of a process under a
  contract (`Prog.wp`) is computed along the tree.

A machine is a contract on its worlds (`Machine.contract`), for which the
weakest precondition holds exactly when every run ends well (`wp_iff_run`).
-/

namespace Process

/-- The operations a process may call, and the answers to each. -/
structure Sig where
  Op : Type
  Ans : Op → Type

/-- A process: it ends with a value or an error, or calls an operation and goes
    on with the answer. -/
inductive Prog (σ : Sig) (ε α : Type) : Type
  | ret (r : Except ε α)
  | call (o : σ.Op) (k : σ.Ans o → Prog σ ε α)

/-- The calls of `σ` seen as calls of `τ`. -/
structure Hom (σ τ : Sig) where
  op : σ.Op → τ.Op
  ans : ∀ o, τ.Ans (op o) → σ.Ans o

namespace Prog

variable {σ τ : Sig} {ε ε' α β : Type}

/-- Go on with the value of a process; an error ends it. -/
def bind : Prog σ ε α → (α → Prog σ ε β) → Prog σ ε β
  | .ret (.ok a), f => f a
  | .ret (.error e), _ => .ret (.error e)
  | .call o k, f => .call o fun a => (k a).bind f

/-- Run a process and hand its outcome, an error included, to what follows. -/
def attempt : Prog σ ε α → Prog σ ε' (Except ε α)
  | .ret r => .ret (.ok r)
  | .call o k => .call o fun a => (k a).attempt

/-- The same calls through `i`. -/
def lift (i : Hom σ τ) : Prog σ ε α → Prog τ ε α
  | .ret r => .ret r
  | .call o k => .call (i.op o) fun a => (k (i.ans o a)).lift i

/-- The same calls, an error made another. -/
def mapError (f : ε → ε') : Prog σ ε α → Prog σ ε' α
  | .ret r => .ret (r.mapError f)
  | .call o k => .call o fun a => (k a).mapError f

/-- The process that calls `o` and returns the answer. -/
def op (o : σ.Op) : Prog σ ε (σ.Ans o) := .call o fun a => .ret (.ok a)

/-- The process that calls nothing and ends with `r`. -/
def ofExcept (r : Except ε α) : Prog σ ε α := .ret r

instance : Monad (Prog σ ε) where
  pure a := .ret (.ok a)
  bind := bind

instance : MonadExceptOf ε (Prog σ ε) where
  throw e := .ret (.error e)
  tryCatch p f := p.attempt.bind fun
    | .ok a => .ret (.ok a)
    | .error e => f e

theorem bind_assoc {γ : Type} (p : Prog σ ε α) (f : α → Prog σ ε β) (g : β → Prog σ ε γ) :
    p >>= f >>= g = p >>= fun a => f a >>= g := by
  induction p with
  | ret r => cases r <;> rfl
  | call o k ih => exact congrArg (call o) (funext ih)

theorem id_map (p : Prog σ ε α) : id <$> p = p := by
  induction p with
  | ret r => cases r <;> rfl
  | call o k ih => exact congrArg (call o) (funext ih)

instance : LawfulMonad (Prog σ ε) := .mk' _ id_map (fun _ _ => rfl) bind_assoc

/-- Whether a process has ended, and how. -/
def result? : Prog σ ε α → Option (Except ε α)
  | .ret r => some r
  | .call _ _ => none

/-- The next call of a process, if it has not ended. -/
def next? : Prog σ ε α → Option σ.Op
  | .ret _ => none
  | .call o _ => some o

/-- Processes that have all ended, by how they ended. -/
theorem eq_map_ret {ps : List (Prog σ ε α)} (h : ps.all (·.result?.isSome) = true) :
    ps = (ps.filterMap result?).map .ret := by
  induction ps with
  | nil => rfl
  | cons p ps ih =>
    rw [List.all_cons, Bool.and_eq_true] at h
    match p, h with
    | .ret r, h => exact congrArg (.ret r :: ·) (ih h.2)

/-- The process has ended with a value. -/
def returnedOk : Prog σ ε α → Bool
  | .ret (.ok _) => true
  | _ => false

theorem returnedOk_iff {p : Prog σ ε α} : p.returnedOk = true ↔ ∃ a, p = .ret (.ok a) := by
  match p with
  | .ret (.ok a) => exact ⟨fun _ => ⟨a, rfl⟩, fun _ => rfl⟩
  | .ret (.error _) | .call _ _ => exact ⟨nofun, nofun⟩

end Prog

/-! ## Contracts -/

/-- Which calls are allowed in a state, and the states an answer may lead to. -/
structure Contract (σ : Sig) (S : Type) where
  allows : S → σ.Op → Prop
  next : S → (o : σ.Op) → σ.Ans o → S → Prop

/-- The contract that allows only calls of a kind. -/
def Contract.within {σ : Sig} {S : Type} (c : Contract σ S) (A : σ.Op → Prop) : Contract σ S where
  allows s o := A o ∧ c.allows s o
  next := c.next

/-- What a process that goes on with `f` must reach before, for `Q` after. -/
def Post.andThen {S ε α β : Type} (Q : Except ε β → S → Prop) (f : α → S → Prop) :
    Except ε α → S → Prop
  | .ok a, s => f a s
  | .error e, s => Q (.error e) s

@[simp]
theorem Post.andThen_ok {S ε α β : Type} (Q : Except ε β → S → Prop) (f : α → S → Prop) (a : α)
    (s : S) : Post.andThen Q f (.ok a) s = f a s := rfl

@[simp]
theorem Post.andThen_error {S ε α β : Type} (Q : Except ε β → S → Prop) (f : α → S → Prop) (e : ε)
    (s : S) : Post.andThen Q f (.error e) s = Q (.error e) s := rfl

namespace Prog

variable {σ τ : Sig} {ε ε' α β S : Type} (c : Contract σ S)

/-- Under `c`, from `s`, the process only makes allowed calls, and where it
    ends `Q` holds. -/
def wp (Q : Except ε α → S → Prop) : Prog σ ε α → S → Prop
  | .ret r, s => Q r s
  | .call o k, s => c.allows s o ∧ ∀ a s', c.next s o a s' → (k a).wp Q s'

variable {c}

@[simp]
theorem wp_ret {Q : Except ε α → S → Prop} {r : Except ε α} {s : S} :
    (Prog.ret r : Prog σ ε α).wp c Q s = Q r s := rfl

theorem wp_call {Q : Except ε α → S → Prop} {o : σ.Op} {k : σ.Ans o → Prog σ ε α} {s : S} :
    (Prog.call o k).wp c Q s ↔ c.allows s o ∧ ∀ a s', c.next s o a s' → (k a).wp c Q s' := Iff.rfl

@[simp]
theorem wp_pure {Q : Except ε α → S → Prop} {a : α} {s : S} :
    (pure a : Prog σ ε α).wp c Q s = Q (.ok a) s := rfl

@[simp]
theorem wp_throw {Q : Except ε α → S → Prop} {e : ε} {s : S} :
    (throw e : Prog σ ε α).wp c Q s = Q (.error e) s := rfl

@[simp]
theorem wp_ofExcept {Q : Except ε α → S → Prop} {r : Except ε α} {s : S} :
    (ofExcept r : Prog σ ε α).wp c Q s = Q r s := rfl

/-- A weaker postcondition is easier to reach. -/
theorem wp_mono {Q Q' : Except ε α → S → Prop} (h : ∀ r s, Q r s → Q' r s) {p : Prog σ ε α} {s : S}
    (hp : p.wp c Q s) : p.wp c Q' s := by
  induction p generalizing s with
  | ret r => exact h r s hp
  | call o k ih => exact ⟨hp.1, fun a s' hs => ih a (hp.2 a s' hs)⟩

@[simp]
theorem wp_bind {Q : Except ε β → S → Prop} {p : Prog σ ε α} {f : α → Prog σ ε β} {s : S} :
    (p >>= f).wp c Q s ↔ p.wp c (Post.andThen Q fun a s' => (f a).wp c Q s') s := by
  induction p generalizing s with
  | ret r => cases r <;> rfl
  | call o k ih => exact and_congr Iff.rfl (forall₃_congr fun a _ _ => ih a)

@[simp]
theorem wp_attempt {Q : Except ε' (Except ε α) → S → Prop} {p : Prog σ ε α} {s : S} :
    (p.attempt : Prog σ ε' _).wp c Q s ↔ p.wp c (fun r s' => Q (.ok r) s') s := by
  induction p generalizing s with
  | ret r => rfl
  | call o k ih => exact and_congr Iff.rfl (forall₃_congr fun a _ _ => ih a)

@[simp]
theorem wp_mapError {f : ε → ε'} {Q : Except ε' α → S → Prop} {p : Prog σ ε α} {s : S} :
    (p.mapError f).wp c Q s ↔ p.wp c (fun r s' => Q (r.mapError f) s') s := by
  induction p generalizing s with
  | ret r => rfl
  | call o k ih => exact and_congr Iff.rfl (forall₃_congr fun a _ _ => ih a)

theorem wp_op_within {A : σ.Op → Prop} {o : σ.Op} {Q : Except ε (σ.Ans o) → S → Prop} {s : S} :
    (op o : Prog σ ε _).wp (c.within A) Q s ↔ A o ∧ (op o : Prog σ ε _).wp c Q s :=
  and_assoc

theorem wp_of_within {A : σ.Op → Prop} {Q : Except ε α → S → Prop} {p : Prog σ ε α} {s : S}
    (hp : p.wp (c.within A) Q s) : p.wp c Q s := by
  induction p generalizing s with
  | ret r => exact hp
  | call o k ih => exact ⟨hp.1.2, fun a s' hs => ih a (hp.2 a s' hs)⟩

/-- The calls made through `i` keep the contract `d` when each does, given `c`. -/
theorem wp_lift {i : Hom σ τ} {d : Contract τ S} {Q : Except ε α → S → Prop}
    (hallow : ∀ s o, c.allows s o → d.allows s (i.op o))
    (hnext : ∀ s o a s', c.allows s o → d.next s (i.op o) a s' → c.next s o (i.ans o a) s')
    {p : Prog σ ε α} {s : S} (hp : p.wp c Q s) : (p.lift i).wp d Q s := by
  induction p generalizing s with
  | ret r => exact hp
  | call o k ih =>
    exact ⟨hallow s o hp.1, fun a s' hs => ih _ (hp.2 _ _ (hnext s o a s' hp.1 hs))⟩

theorem pure_bind (a : α) (f : α → Prog σ ε β) : (pure a >>= f) = f a := rfl

/-! ### The calls of a process -/

/-- All calls of a process are of a kind. -/
def Uses (A : σ.Op → Prop) : Prog σ ε α → Prop
  | .ret _ => True
  | .call o k => A o ∧ ∀ a, (k a).Uses A

theorem uses_op {A : σ.Op → Prop} {o : σ.Op} (h : A o) : (op o : Prog σ ε _).Uses A :=
  ⟨h, fun _ => trivial⟩

theorem Uses.mono {A B : σ.Op → Prop} {p : Prog σ ε α} (hp : p.Uses A) (h : ∀ o, A o → B o) :
    p.Uses B := by
  induction p with
  | ret r => trivial
  | call o k ih => exact ⟨h o hp.1, fun a => ih a (hp.2 a)⟩

theorem Uses.bind {A : σ.Op → Prop} {p : Prog σ ε α} {f : α → Prog σ ε β} (hp : p.Uses A)
    (hf : ∀ a, (f a).Uses A) : (p >>= f).Uses A := by
  induction p with
  | ret r =>
    rcases r with e | a
    · trivial
    · exact hf a
  | call o k ih => exact ⟨hp.1, fun a => ih a (hp.2 a)⟩

theorem Uses.attempt {A : σ.Op → Prop} {p : Prog σ ε α} (hp : p.Uses A) :
    (p.attempt : Prog σ ε' _).Uses A := by
  induction p with
  | ret r => trivial
  | call o k ih => exact ⟨hp.1, fun a => ih a (hp.2 a)⟩

/-- Calls that are allowed in a state and never leave it end in it, with whatever
    outcome. -/
theorem Uses.wp {A : σ.Op → Prop} {p : Prog σ ε α} {s : S} {Q : Except ε α → S → Prop}
    (hp : p.Uses A) (hstay : ∀ o, A o → c.allows s o ∧ ∀ a s', c.next s o a s' → s' = s)
    (hQ : ∀ r, Q r s) : p.wp c Q s := by
  induction p with
  | ret r => exact hQ r
  | call o k ih =>
    obtain ⟨hallow, hnext⟩ := hstay o hp.1
    refine ⟨hallow, fun a s' hs => ?_⟩
    rw [hnext a s' hs]
    exact ih a (hp.2 a)

end Prog

/-! ## Machines -/

/-- A world that answers calls. A fate settles what is not up to the process;
    a call is made only when the world is ready for it; the environment may
    change the world between two calls. -/
structure Machine (σ : Sig) (W F G : Type) where
  act : F → (o : σ.Op) → W → σ.Ans o × W
  ready : W → σ.Op → Bool
  env : G → W → W

namespace Machine

variable {σ : Sig} {W F G ε α β : Type} (M : Machine σ W F G)

/-- A machine as a contract on its worlds: every fate is possible. -/
def contract : Contract σ W where
  allows _ _ := True
  next w o a w' := ∃ f, M.act f o w = (a, w')

/-- The run of a process alone, the fates taken in turn (and the default one
    when they run out). -/
def run [Inhabited F] : Prog σ ε α → List F → W → Except ε α × W
  | .ret r, _, w => (r, w)
  | .call o k, fs, w => run (k (M.act (fs.headD default) o w).1) fs.tail (M.act (fs.headD default) o w).2

variable {M}

@[simp]
theorem wp_call_iff {Q : Except ε α → W → Prop} {o : σ.Op} {k : σ.Ans o → Prog σ ε α} {w : W} :
    (Prog.call o k).wp M.contract Q w ↔
      ∀ f, (k (M.act f o w).1).wp M.contract Q (M.act f o w).2 := by
  constructor
  · exact fun h f => h.2 _ _ ⟨f, rfl⟩
  · rintro h
    refine ⟨trivial, ?_⟩
    rintro a w' ⟨f, hf⟩
    have := h f
    rwa [hf] at this

@[simp]
theorem wp_op_iff {o : σ.Op} {Q : Except ε (σ.Ans o) → W → Prop} {w : W} :
    (Prog.op o : Prog σ ε _).wp M.contract Q w ↔
      ∀ f, Q (.ok (M.act f o w).1) (M.act f o w).2 :=
  wp_call_iff

/-- The weakest precondition is about every run. -/
theorem wp_iff_run [Inhabited F] {Q : Except ε α → W → Prop} {p : Prog σ ε α} {w : W} :
    p.wp M.contract Q w ↔ ∀ fs, Q (M.run p fs w).1 (M.run p fs w).2 := by
  induction p generalizing w with
  | ret r => exact ⟨fun h _ => h, fun h => h []⟩
  | call o k ih =>
    rw [wp_call_iff]
    constructor
    · exact fun h fs => (ih _).1 (h (fs.headD default)) fs.tail
    · exact fun h f => (ih _).2 fun fs => h (f :: fs)

/-! ### What a process may do alone -/

/-- Alone, from `w`, the process may end with `r` and leave `w'`. -/
inductive Reaches (M : Machine σ W F G) : Prog σ ε α → W → Except ε α → W → Prop
  | ret (r : Except ε α) (w : W) : Reaches M (.ret r) w r w
  | call {o : σ.Op} {k : σ.Ans o → Prog σ ε α} {w w' : W} {r : Except ε α} (f : F)
      (h : Reaches M (k (M.act f o w).1) (M.act f o w).2 r w') : Reaches M (.call o k) w r w'

namespace Reaches

variable {p : Prog σ ε α} {w w' w'' : W} {r : Except ε α}

theorem run [Inhabited F] (h : M.Reaches p w r w') : ∃ fs, M.run p fs w = (r, w') := by
  induction h with
  | ret r w => exact ⟨[], rfl⟩
  | call f _ ih =>
    obtain ⟨fs, hfs⟩ := ih
    exact ⟨f :: fs, hfs⟩

theorem of_run [Inhabited F] (fs : List F) (p : Prog σ ε α) (w : W) :
    M.Reaches p w (M.run p fs w).1 (M.run p fs w).2 := by
  induction p generalizing fs w with
  | ret r => exact .ret r w
  | call o k ih => exact .call _ (ih _ _ _)

theorem of_isOk [Inhabited F] {p : Prog σ ε Unit} {fs : List F} {w : W}
    (h : (M.run p fs w).1.isOk = true) : M.Reaches p w (.ok ()) (M.run p fs w).2 := by
  have hrun := of_run (M := M) fs p w
  generalize (M.run p fs w).1 = r at h hrun
  match r, h with
  | .ok (), _ => exact hrun

/-- What a process may do keeps its guarantees. -/
theorem of_wp {Q : Except ε α → W → Prop} (h : M.Reaches p w r w') (hp : p.wp M.contract Q w) :
    Q r w' := by
  induction h with
  | ret r w => exact hp
  | call f _ ih => exact ih (wp_call_iff.1 hp f)

theorem op (f : F) (o : σ.Op) (w : W) :
    M.Reaches (Prog.op o : Prog σ ε _) w (.ok (M.act f o w).1) (M.act f o w).2 :=
  .call f (.ret _ _)

theorem pure (a : α) (w : W) : M.Reaches (pure a : Prog σ ε α) w (.ok a) w := .ret _ _

theorem bind {a : α} {q : α → Prog σ ε β} {r : Except ε β} (hp : M.Reaches p w (.ok a) w')
    (hq : M.Reaches (q a) w' r w'') : M.Reaches (p >>= q) w r w'' := by
  generalize hr : (Except.ok a : Except ε α) = r' at hp
  induction hp with
  | ret r w =>
    cases hr
    exact hq
  | call f _ ih => exact .call f (ih hq hr)

theorem bind_error {e : ε} {q : α → Prog σ ε β} (hp : M.Reaches p w (.error e) w') :
    M.Reaches (p >>= q) w (.error e) w' := by
  generalize hr : (Except.error e : Except ε α) = r' at hp
  induction hp with
  | ret r w =>
    cases hr
    exact .ret _ _
  | call f _ ih => exact .call f (ih hr)

theorem attempt {ε' : Type} (hp : M.Reaches p w r w') :
    M.Reaches (p.attempt : Prog σ ε' _) w (.ok r) w' := by
  induction hp with
  | ret r w => exact .ret _ _
  | call f _ ih => exact .call f ih

end Reaches

end Machine

end Process
