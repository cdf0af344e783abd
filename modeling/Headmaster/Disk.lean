import Mathlib.Logic.Function.Basic

/-!
# Disks

A file system that writes back late. A name stands for an *inode*, which holds
the data; both the names and the data are in memory first, and a crash may lose
what was not made durable (`Disk.Survives`):

* of the names, one of the directories since the last `syncDir` comes back;
* of an inode, the data if it was `sync`ed, and else anything.

A crash is what a process must be prepared for at any time, so what it relies on
is an invariant of all its calls: that whatever comes back under a name is good
(`Disk.Guards`). A file is replaced by writing another one and renaming it, and
each of these steps keeps the invariant (`guards_create`, …, `guards_rename`);
after `syncDir` only the new data can come back (`guards_syncDir`).
-/

/-- Names in `N`, and data in `C`. -/
structure Disk (N C : Type) where
  /-- The inode of each name. -/
  dir : N → Option Nat
  /-- The directories that were there since the last `syncDir`. -/
  past : List (N → Option Nat) := []
  data : Nat → C
  synced : Nat → Bool
  /-- The next inode. -/
  next : Nat := 0
  /-- The directory is itself in a directory that a crash gives back. -/
  kept : Bool := true

namespace Disk

variable {N C : Type}

/-- What is seen without a crash. -/
def files (d : Disk N C) : N → Option C := fun n => (d.dir n).map d.data

/-- The directories that a crash may give back. -/
def dirs (d : Disk N C) : List (N → Option Nat) := d.dir :: d.past

/-- A crash may give back `c` for an entry of a directory. -/
def Restores (d : Disk N C) : Option Nat → Option C → Prop
  | none, c => c = none
  | some i, c => ∃ c', c = some c' ∧ (d.synced i = true → c' = d.data i)

/-- A crash may leave `files`. -/
inductive Survives (d : Disk N C) (files : N → Option C) : Prop
  | back {dir : N → Option Nat} (hdir : dir ∈ d.dirs) (hfiles : ∀ n, d.Restores (dir n) (files n))
  | lost (hkept : d.kept = false) (hfiles : ∀ n, files n = none)

/-- Each directory may come back with all data. -/
theorem survives_of_mem {d : Disk N C} {dir : N → Option Nat} (h : dir ∈ d.dirs) :
    d.Survives fun n => (dir n).map d.data := by
  refine .back h fun n => ?_
  match dir n with
  | none => rfl
  | some i => exact ⟨_, rfl, fun _ => rfl⟩

/-- It may be that nothing is lost. -/
theorem survives_files (d : Disk N C) : d.Survives d.files := survives_of_mem List.mem_cons_self

/-! ## Calls -/

/-- Write to an inode, over what it held. -/
def write (d : Disk N C) (i : Nat) (c : C) : Disk N C :=
  { d with data := Function.update d.data i c, synced := Function.update d.synced i false }

/-- Make the data of an inode durable. -/
def sync (d : Disk N C) (i : Nat) : Disk N C :=
  { d with synced := Function.update d.synced i true }

/-- Make the directory durable. -/
def syncDir (d : Disk N C) : Disk N C := { d with past := [] }

/-- Enter a name for a new inode. -/
def enter [DecidableEq N] (d : Disk N C) (n : N) : Disk N C :=
  { d with dir := Function.update d.dir n (some d.next), past := d.dirs, next := d.next + 1 }

/-- Create a file, or truncate the one with the name. -/
def create [DecidableEq N] (d : Disk N C) (n : N) (c : C) : Nat × Disk N C :=
  match d.dir n with
  | some i => (i, d.write i c)
  | none => (d.next, (d.enter n).write d.next c)

/-- `n` takes the name `m`, replacing what had it. -/
def rename [DecidableEq N] (d : Disk N C) (n m : N) : Disk N C :=
  { d with dir := Function.update (Function.update d.dir m (d.dir n)) n none, past := d.dirs }

variable {d : Disk N C} {n m : N} {i : Nat} {c : C}

@[simp] theorem data_write : (d.write i c).data = Function.update d.data i c := rfl

@[simp] theorem synced_write : (d.write i c).synced = Function.update d.synced i false := rfl

@[simp] theorem synced_sync : (d.sync i).synced = Function.update d.synced i true := rfl

@[simp]
theorem dir_enter [DecidableEq N] : (d.enter n).dir = Function.update d.dir n (some d.next) := rfl

@[simp]
theorem dir_rename [DecidableEq N] :
    (d.rename n m).dir = Function.update (Function.update d.dir m (d.dir n)) n none := rfl

/-- The file is there once it is created. -/
theorem dir_create [DecidableEq N] : (d.create n c).2.dir n = some (d.create n c).1 := by
  rw [create]
  split
  · rename_i i h
    exact h
  · exact Function.update_self _ _ _

/-! ## What is seen -/

theorem map_update_of_ne {o : Option Nat} {f : Nat → C} (h : o ≠ some i) :
    o.map (Function.update f i c) = o.map f := by
  match o with
  | none => rfl
  | some j => exact congrArg some (Function.update_of_ne (fun hj => h (congrArg some hj)) _ _)

/-- Each name has an inode of its own. -/
structure Tidy (d : Disk N C) : Prop where
  inj : ∀ n m i, d.dir n = some i → d.dir m = some i → n = m
  old : ∀ n i, d.dir n = some i → i < d.next

namespace Tidy

theorem write (h : d.Tidy) : (d.write i c).Tidy := ⟨h.inj, h.old⟩

theorem enter [DecidableEq N] (h : d.Tidy) : (d.enter n).Tidy := by
  have hdir (m : N) : (d.enter n).dir m = if m = n then some d.next else d.dir m :=
    Function.update_apply _ _ _ _
  constructor
  · intro m m' i hm hm'
    rw [hdir] at hm hm'
    split at hm <;> split at hm'
    · rename_i h₁ h₂
      exact h₁.trans h₂.symm
    · exact absurd (h.old m' i hm') (by have := Option.some.inj hm; omega)
    · exact absurd (h.old m i hm) (by have := Option.some.inj hm'; omega)
    · exact h.inj m m' i hm hm'
  · intro m i hm
    rw [hdir] at hm
    split at hm
    · have := Option.some.inj hm
      change i < d.next + 1
      omega
    · exact Nat.lt_succ_of_lt (h.old m i hm)

theorem create [DecidableEq N] (h : d.Tidy) : (d.create n c).2.Tidy := by
  rw [Disk.create]
  split
  · exact h.write
  · exact h.enter.write

end Tidy

theorem files_write [DecidableEq N] (h : d.Tidy) (hn : d.dir n = some i) :
    (d.write i c).files = Function.update d.files n (some c) := by
  funext m
  rw [Function.update_apply]
  split
  · rename_i hm
    rw [hm, files, data_write, show (d.write i c).dir n = some i from hn, Option.map_some,
      Function.update_self]
  · rename_i hm
    exact map_update_of_ne fun hi => hm (h.inj m n i hi hn)

theorem files_create [DecidableEq N] (h : d.Tidy) :
    (d.create n c).2.files = Function.update d.files n (some c) := by
  rw [create]
  match hn : d.dir n with
  | some i => exact files_write h hn
  | none =>
    refine (files_write h.enter (Function.update_self _ _ _)).trans ?_
    funext m
    rw [Function.update_apply, Function.update_apply]
    split
    · rfl
    · rename_i hm
      exact congrArg (Option.map d.data) (Function.update_of_ne hm _ _)

theorem files_rename [DecidableEq N] : (d.rename n m).files =
    Function.update (Function.update d.files m (d.files n)) n none := by
  funext k
  rw [files, dir_rename, Function.update_apply, Function.update_apply, Function.update_apply,
    Function.update_apply]
  split
  · rfl
  · split <;> rfl

/-! ## What may come back -/

/-- Whatever comes back under `p` is in `G`, and the file `t` is apart from it. -/
structure Guards (d : Disk N C) (t p : N) (G : Option C → Prop) : Prop where
  kept : d.kept = true
  good : ∀ dir ∈ d.dirs, G ((dir p).map d.data)
  synced : ∀ dir ∈ d.dirs, ∀ i, dir p = some i → d.synced i = true
  old : ∀ dir ∈ d.dirs, ∀ i, dir p = some i → i < d.next
  apart : ∀ i, d.dir t = some i → i < d.next ∧ ∀ dir ∈ d.dirs, dir p ≠ some i

variable {t p : N} {G G' : Option C → Prop} {files : N → Option C}

namespace Guards

/-- What a crash gives back is good. -/
theorem of_survives (h : d.Guards t p G) (hfiles : d.Survives files) : G (files p) := by
  rcases hfiles with ⟨hdir, hfiles⟩ | ⟨hkept, _⟩
  · rename_i dir
    have hgood := h.good dir hdir
    have hback := hfiles p
    match hp : dir p with
    | none =>
      rw [hp] at hback hgood
      exact hback ▸ hgood
    | some i =>
      rw [hp] at hback hgood
      obtain ⟨c, hc, hdata⟩ := hback
      rw [hc, hdata (h.synced dir hdir i hp)]
      exact hgood
  · rw [h.kept] at hkept
    cases hkept

theorem mono (h : d.Guards t p G) (hG : ∀ c, G c → G' c) : d.Guards t p G' :=
  ⟨h.kept, fun dir hdir => hG _ (h.good dir hdir), h.synced, h.old, h.apart⟩

/-- The other file may be written. -/
theorem write (h : d.Guards t p G) (ht : d.dir t = some i) : (d.write i c).Guards t p G := by
  obtain ⟨_, hapart⟩ := h.apart i ht
  refine ⟨h.kept, fun dir hdir => ?_, fun dir hdir j hj => ?_, h.old, h.apart⟩
  · rw [data_write, map_update_of_ne (hapart dir hdir)]
    exact h.good dir hdir
  · have hne : j ≠ i := fun hji => hapart dir hdir (hji ▸ hj)
    rw [synced_write, Function.update_of_ne hne]
    exact h.synced dir hdir j hj

theorem sync (h : d.Guards t p G) : (d.sync i).Guards t p G := by
  refine ⟨h.kept, h.good, fun dir hdir j hj => ?_, h.old, h.apart⟩
  rw [synced_sync, Function.update_apply]
  split
  · rfl
  · exact h.synced dir hdir j hj

/-- The new inode is under no name that a crash could give back. -/
theorem enter [DecidableEq N] (h : d.Guards t p G) (hne : p ≠ t) : (d.enter t).Guards t p G := by
  -- the new directory has the same file under `p` as the one before
  have hsame : ∀ dir ∈ (d.enter t).dirs, ∃ dir' ∈ d.dirs, dir p = dir' p := by
    intro dir hdir
    rcases List.mem_cons.1 hdir with rfl | hdir
    · exact ⟨d.dir, List.mem_cons_self, Function.update_of_ne hne _ _⟩
    · exact ⟨dir, hdir, rfl⟩
  refine ⟨h.kept, fun dir hdir => ?_, fun dir hdir i hi => ?_, fun dir hdir i hi => ?_,
    fun i hi => ?_⟩
  · obtain ⟨dir', hdir', hp⟩ := hsame dir hdir
    exact hp ▸ h.good dir' hdir'
  · obtain ⟨dir', hdir', hp⟩ := hsame dir hdir
    exact h.synced dir' hdir' i (hp ▸ hi)
  · obtain ⟨dir', hdir', hp⟩ := hsame dir hdir
    exact Nat.lt_succ_of_lt (h.old dir' hdir' i (hp ▸ hi))
  · rw [dir_enter, Function.update_self] at hi
    obtain rfl : d.next = i := Option.some.inj hi
    refine ⟨Nat.lt_succ_self _, fun dir hdir hi' => ?_⟩
    obtain ⟨dir', hdir', hp⟩ := hsame dir hdir
    exact absurd (h.old dir' hdir' d.next (hp ▸ hi')) (Nat.lt_irrefl _)

theorem create [DecidableEq N] (h : d.Guards t p G) (hne : p ≠ t) : (d.create t c).2.Guards t p G := by
  rw [Disk.create]
  match ht : d.dir t with
  | some i => exact h.write ht
  | none => exact (h.enter hne).write (Function.update_self _ _ _)

/-- The other file takes the name once its data is durable. -/
theorem rename [DecidableEq N] (h : d.Guards t p G) (hne : p ≠ t) (ht : d.dir t = some i)
    (hsynced : d.synced i = true) (hG : G (some (d.data i))) : (d.rename t p).Guards t p G := by
  obtain ⟨hnext, _⟩ := h.apart i ht
  have hp : (d.rename t p).dir p = some i := by
    rw [dir_rename, Function.update_of_ne hne, Function.update_self, ht]
  have hnew {P : (N → Option Nat) → Prop} (hold : ∀ dir ∈ d.dirs, P dir)
      (hnew : P (d.rename t p).dir) : ∀ dir ∈ (d.rename t p).dirs, P dir := by
    intro dir hdir
    rcases List.mem_cons.1 hdir with rfl | hdir
    · exact hnew
    · exact hold dir hdir
  refine ⟨h.kept, hnew h.good ?_, hnew h.synced ?_, hnew h.old ?_, fun j hj => ?_⟩
  · rw [hp]
    exact hG
  · intro j hj
    obtain rfl : i = j := Option.some.inj (hp.symm.trans hj)
    exact hsynced
  · intro j hj
    obtain rfl : i = j := Option.some.inj (hp.symm.trans hj)
    exact hnext
  · rw [dir_rename, Function.update_self] at hj
    cases hj

/-- Once the directory is durable, only what is there now comes back. -/
theorem syncDir (h : d.Guards t p G) : d.syncDir.Guards t p fun c => c = d.files p := by
  refine ⟨h.kept, fun dir hdir => ?_, fun dir hdir => ?_, fun dir hdir => ?_, fun i hi => ?_⟩
  · rw [List.mem_singleton.1 hdir]
    rfl
  · exact h.synced dir (List.mem_cons.2 (.inl (List.mem_singleton.1 hdir)))
  · exact h.old dir (List.mem_cons.2 (.inl (List.mem_singleton.1 hdir)))
  · obtain ⟨hnext, hapart⟩ := h.apart i hi
    exact ⟨hnext, fun dir hdir => hapart dir (List.mem_cons.2 (.inl (List.mem_singleton.1 hdir)))⟩

end Guards

end Disk
