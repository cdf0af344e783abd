import Headmaster.Disk
import Headmaster.Process.Crash
import Headmaster.Scim.Storage.Rollback

/-!
# Crashes and late errors

The mapping file on a disk that writes back late, while operations on the
mapping flush it and calls to the operating system fail
(`src/scim/src/storage.rs`). A flush is here a process over those calls
(`Fs.flush`), so that a crash may come between any two. Where no error is late, it
does to the files what the flush of the store does (`flush_mirrors`), and a call
ends as it does on the store (`process_mirrors`).

* `load_after_crash`: where no write fails late, and the directory of the mapping
  file is there and named in its path, what is loaded after a crash was serialised
  by the last operation that returned `Ok` or by one attempted since;
* `load_eq_none_of_late`: `write_all` may answer `Ok` before the data is written.
  An error of that write is for a later write or flush of the file to report
  (`Io.lateWrite`), and there is none: the torn file takes the name of the mapping
  file;
* `exists_reverted`: where the path names no directory, none is synced, and a
  crash may undo a call that returned `Ok`.
-/

namespace Headmaster.Scim

open Process (Sig Prog Machine)
open Process.Prog (wp_bind wp_attempt wp_mono wp_pure wp_ret)

/-! ## Calls of a flush -/

/-- A file that is open, by its inode. -/
abbrev Handle := Nat

inductive FsOp
  | createDirAll (dir : String)
  | create (p : Path)
  | writeAll (file : Handle) (data : MappingFile)
  | syncData (file : Handle)
  | rename (p q : Path)
  /-- Open a directory. -/
  | openParent (dir : String)
  /-- Sync the open directory. -/
  | syncAll

namespace FsOp

def Val : FsOp → Type
  | create _ => Handle
  | _ => Unit

/-- The step of a flush that the call is. -/
def step : FsOp → FlushStep
  | createDirAll _ => .createDirAll
  | create _ => .create
  | writeAll _ _ => .writeAll
  | syncData _ => .syncData
  | rename _ _ => .rename
  | openParent _ => .openParent
  | syncAll => .syncAll

end FsOp

def fsSig : Sig where
  Op := FsOp
  Ans o := Except IoError o.Val

abbrev Fs := Prog fsSig IoError

namespace Fs

/-- A call whose error ends the process. -/
def call (o : FsOp) : Fs o.Val := do
  let r ← Prog.op (σ := fsSig) o
  .ofExcept r

def flush (m : Mapping) : Fs Unit := do
  if let some parent := m.path.parent then
    call (.createDirAll parent)
  let tmp := m.path.withExtension "tmp"
  let file ← call (.create tmp)
  call (.writeAll file m.data)
  call (.syncData file)
  call (.rename tmp m.path)
  if let some parent := m.path.parent then
    call (.openParent parent)
    call .syncAll

end Fs

/-! ## The operating system -/

/-- What the operating system does during one operation, errors that come late
    included. -/
structure Io extends Os where
  /-- The error of a write that goes on after `write_all` has answered `Ok`. A later write or flush
      of the file would report it. -/
  lateWrite : Option IoError := none

abbrev FsDisk := Disk Path Content

namespace FsOp

/-- What a call does that does not fail. -/
def done (io : Io) : (o : FsOp) → FsDisk → o.Val × FsDisk
  | createDirAll _, d => ((), d)
  | create p, d => d.create p .empty
  | writeAll file data, d =>
    ((), d.write file (match io.lateWrite with | none => .whole data | some _ => .torn))
  | syncData file, d => ((), d.sync file)
  | rename p q, d => ((), d.rename p q)
  | openParent _, d => ((), d)
  | syncAll, d => ((), d.syncDir)

/-- What a call may leave that fails. -/
def failed : FsOp → FsDisk → FsDisk
  | writeAll file _, d => d.write file .torn
  | syncData file, d => d.write file .torn
  | _, d => d

end FsOp

/-- The disk under an operating system. -/
def fs (io : Io) : Machine fsSig FsDisk Unit Unit where
  act _ o d :=
    match io.fault (FsOp.step o) with
    | none => (.ok (FsOp.done io o d).1, (FsOp.done io o d).2)
    | some e => (.error e, FsOp.failed o d)
  ready _ _ := true
  env _ d := d

/-- What is loaded from a file, if it parses. -/
def loadData : Option Content → Option MappingFile
  | none => some {}
  | some (.whole data) => some data
  | some _ => none

/-- `Mapping::load`, unless it fails. -/
def Mapping.load (files : Files) (path : Path) : Option Mapping :=
  (loadData (files path)).map fun data => { path, data }

/-! ## Sessions -/

/-- A call of an operation, as a process: its result, and the mapping it leaves in
    memory. -/
def Call.process (c : Call) (os : Os) (m : Mapping) :
    Prog fsSig Empty (Except IoError Unit × Mapping) :=
  if c.Flushes m.data then do
    match ← (Fs.flush { m with data := c.target os m.data }).attempt with
    | .ok () => return (.ok (), { m with data := c.target os m.data })
    | .error e => return (.error e, { m with data := c.kept os m.data })
  else return (.ok (), m)

/-- A server that has loaded the mapping and calls operations on it. -/
structure Session where
  mapping : Mapping
  disk : FsDisk
  /-- What was serialised by the last operation that returned `Ok` (at first, what was loaded), and
      by those attempted since. -/
  serialized : List MappingFile

namespace Session

variable (s : Session)

/-- What a call serialises. -/
def attempted (c : Call) (os : Os) : List MappingFile :=
  if c.Flushes s.mapping.data then [c.target os s.mapping.data] else []

/-- What may be found after a call has ended. -/
def serializedAfter (c : Call) (os : Os) : Except IoError Unit → List MappingFile
  | .ok () => if c.Flushes s.mapping.data then s.attempted c os else s.serialized
  | .error _ => s.serialized ++ s.attempted c os

def call (x : Call × Io) : Session :=
  match (fs x.2).run (x.1.process x.2.toOs s.mapping) [] s.disk with
  | (.ok (r, mapping), disk) => { mapping, disk, serialized := s.serializedAfter x.1 x.2.toOs r }

def after (calls : List (Call × Io)) : Session := calls.foldl call s

/-- The mapping was loaded from a disk with nothing to write back. -/
structure Started : Prop where
  loaded : Mapping.load s.disk.files s.mapping.path = some s.mapping
  serialized : s.serialized = [s.mapping.data]
  settled : s.disk.past = []
  synced : ∀ p i, s.disk.dir p = some i → s.disk.synced i = true
  tidy : s.disk.Tidy

end Session

/-- The steps of a flush up to the new file's taking the name. -/
def stepsToRename : List FlushStep := [.createDirAll, .create, .writeAll, .syncData, .rename]

/-- No write fails late, unless a step fails before the file takes the name. -/
def Io.Written (io : Io) : Prop := io.lateWrite = none ∨ ∃ st ∈ stepsToRename, io.fault st ≠ none

/-! ## What a flush keeps -/

/-- The temporary file of a flush. -/
def Path.tmp (p : Path) : Path := p.withExtension "tmp"

theorem Path.ne_tmp {p : Path} (hext : p.extension ≠ some "tmp") : p ≠ p.tmp :=
  fun h => hext (congrArg Path.extension h)

section Calls

variable {io : Io} {d : FsDisk} {t p : Path} {file : Handle} {data : MappingFile}
  {G : Option Content → Prop} {I : FsDisk → Prop}

theorem wp_call {o : FsOp} {Q : Except IoError o.Val → FsDisk → Prop} (hI : I d)
    (hdone : io.fault o.step = none → Q (.ok (o.done io d).1) (o.done io d).2)
    (hfailed : ∀ e, io.fault o.step = some e → Q (.error e) (o.failed d)) :
    (Fs.call o).wp ((fs io).contract.keeping I) Q d := by
  rw [Fs.call]
  refine wp_bind.2 (Machine.wp_op_keeping.2 ⟨hI, fun _ => ?_⟩)
  simp only [fs]
  match hfault : io.fault o.step with
  | none => exact hdone hfault
  | some e => exact hfailed e hfault

variable {Q : Except IoError Unit → FsDisk → Prop} (h : d.Guards t p G)

include h

theorem wp_create {Q : Except IoError Handle → FsDisk → Prop} (hne : p ≠ t)
    (hdone : io.fault .create = none → ∀ file d', d'.Guards t p G → d'.dir t = some file →
      Q (.ok file) d')
    (hfailed : ∀ e, Q (.error e) d) :
    (Fs.call (.create t)).wp ((fs io).contract.keeping fun d => d.Guards t p G) Q d :=
  wp_call h (fun hfault => hdone hfault _ _ (h.create hne) Disk.dir_create) fun e _ => hfailed e

/-- The data is written, unless an error comes late. -/
theorem wp_writeAll (ht : d.dir t = some file)
    (hdone : io.fault .writeAll = none → ∀ d', d'.Guards t p G → d'.dir t = some file →
      (io.lateWrite = none → d'.data file = .whole data) → Q (.ok ()) d')
    (hfailed : ∀ e d', d'.Guards t p G → Q (.error e) d') :
    (Fs.call (.writeAll file data)).wp ((fs io).contract.keeping fun d => d.Guards t p G) Q d := by
  refine wp_call h (fun hfault => ?_) fun e _ => hfailed e _ (h.write ht)
  refine hdone hfault _ (h.write ht) ht fun hlate => ?_
  rw [FsOp.done, hlate, Disk.data_write, Function.update_self]

theorem wp_syncData (ht : d.dir t = some file)
    (hdone : io.fault .syncData = none → Q (.ok ()) (d.sync file))
    (hfailed : ∀ e d', d'.Guards t p G → Q (.error e) d') :
    (Fs.call (.syncData file)).wp ((fs io).contract.keeping fun d => d.Guards t p G) Q d :=
  wp_call h hdone fun e _ => hfailed e _ (h.write ht)

end Calls

/-! ## The flush of the store -/

/-- On the disk, the process ends as the operation does on the store, and leaves the
    same files. -/
def Mirrors {α : Type} (io : Io) (m : Mapping) (d : FsDisk) (p : Fs α) (q : StoreM IoError Unit) :
    Prop :=
  p.wp ((fs io).contract.keeping fun _ => True) (fun r d' =>
    q.exec io.toOs { mapping := m, files := d.files } =
      (r.map fun _ => (), { mapping := m, files := d'.files })) d

section Mirrors

variable {io : Io} {m : Mapping} {d : FsDisk} {o : FsOp} {done failed : Files → Files}

/-- One call, which does to the files what a step does. -/
theorem mirrors_call (hdone : (o.done io d).2.files = done d.files)
    (hfailed : (o.failed d).files = failed d.files) :
    Mirrors io m d (Fs.call o) (Mapping.step o.step done failed) := by
  refine wp_call trivial (fun hfault => ?_) fun e hfault => ?_
  · rw [Mapping.exec_step, hfault, hdone]
    rfl
  · rw [Mapping.exec_step, hfault, hfailed]
    rfl

theorem Mirrors.bind {α : Type} {k : o.Val → Fs α} {q : StoreM IoError Unit}
    (hdone : (o.done io d).2.files = done d.files)
    (hfailed : (o.failed d).files = failed d.files)
    (hk : Mirrors io m (o.done io d).2 (k (o.done io d).1) q) :
    Mirrors io m d (Fs.call o >>= k) (Mapping.step o.step done failed >>= fun _ => q) := by
  refine wp_bind.2 (wp_call trivial (fun hfault => ?_) fun e hfault => ?_)
  · refine wp_mono (fun r d' h => ?_) hk
    rw [StoreM.exec_bind, Mapping.exec_step, hfault, ← h, hdone]
  · change StoreM.exec _ _ _ = _
    rw [StoreM.exec_bind, Mapping.exec_step, hfault, hfailed]
    rfl

theorem files_write_eq {p : Path} {file : Handle} (htidy : d.Tidy) (hfile : d.dir p = some file)
    (c : Content) : (d.write file c).files = Files.write d.files p c :=
  Disk.files_write htidy hfile

/-- The calls of a flush but for those on the directory. -/
theorem mirrors_replace {α : Type} {rest : Fs α} {q : StoreM IoError Unit} (htidy : d.Tidy)
    (hext : m.path.extension ≠ some "tmp") (hlate : io.lateWrite = none)
    (hrest : ∀ d, Mirrors io m d rest q) : Mirrors io m d (do
      let file ← Fs.call (.create m.path.tmp)
      Fs.call (.writeAll file m.data)
      Fs.call (.syncData file)
      Fs.call (.rename m.path.tmp m.path)
      rest) (do
      Mapping.step .create (·.write m.path.tmp .empty) id
      Mapping.step .writeAll (·.write m.path.tmp (.whole m.data)) (·.write m.path.tmp .torn)
      Mapping.step .syncData id (·.write m.path.tmp .torn)
      Mapping.step .rename (·.rename m.path.tmp m.path) id
      q) := by
  -- the temporary file is another name, so the rename is the first to touch the data file
  have hne := Path.ne_tmp hext
  have hfile : (d.create m.path.tmp .empty).2.dir m.path.tmp =
      some (d.create m.path.tmp .empty).1 := Disk.dir_create
  have hwritten (file : Handle) (d : FsDisk) :
      ((FsOp.writeAll file m.data).done io d).2 = d.write file (.whole m.data) := by
    rw [FsOp.done, hlate]
  have hrename (d : FsDisk) : (d.rename m.path.tmp m.path).files =
      Files.rename d.files m.path.tmp m.path := by
    rw [Disk.files_rename, Files.rename, if_neg hne.symm]
  refine .bind (Disk.files_create htidy) rfl ?_
  have htidy : (d.create m.path.tmp .empty).2.Tidy := htidy.create
  refine .bind ((congrArg Disk.files (hwritten _ _)).trans (files_write_eq htidy hfile _))
    (files_write_eq htidy hfile _) ?_
  refine .bind rfl (files_write_eq htidy.write hfile _) ?_
  exact .bind (hrename _) rfl (hrest _)

/-- Where no error is late, a flush does what the flush of the store does. -/
theorem flush_mirrors (htidy : d.Tidy) (hext : m.path.extension ≠ some "tmp")
    (hlate : io.lateWrite = none) : Mirrors io m d (Fs.flush m) Mapping.flush := by
  rw [Fs.flush]
  -- the flush of the store, with the mapping that it reads
  change Mirrors io m d _ (do
    if m.path.parent.isSome then
      Mapping.step .createDirAll id id
    _)
  match m.path.parent with
  | some parent =>
    have hrest (d : FsDisk) : Mirrors io m d (do
        Fs.call (.openParent parent)
        Fs.call .syncAll) (do
        Mapping.step .openParent id id
        Mapping.step .syncAll id id) := .bind rfl rfl (mirrors_call rfl rfl)
    have hflush : Mirrors io m d (Fs.call (.createDirAll parent) >>= fun _ => _)
        (Mapping.step .createDirAll id id >>= fun _ => _) :=
      .bind rfl rfl (mirrors_replace htidy hext hlate hrest)
    exact hflush
  | none =>
    have hrest (d : FsDisk) : Mirrors io m d (pure ()) (pure ()) := rfl
    exact mirrors_replace htidy hext hlate hrest

/-- So a call ends as it does on the store, with the same mapping in memory. -/
theorem process_mirrors (c : Call) (htidy : d.Tidy) (hext : m.path.extension ≠ some "tmp")
    (hlate : io.lateWrite = none) :
    (c.process io.toOs m).wp ((fs io).contract.keeping fun _ => True) (fun r _ =>
      r = .ok ((c.body.exec io.toOs { mapping := m, files := d.files }).1,
        (c.body.exec io.toOs { mapping := m, files := d.files }).2.mapping)) d := by
  rw [Call.process]
  split
  · rename_i hflushes
    let m' : Mapping := { m with data := c.target io.toOs m.data }
    obtain ⟨_, hbody, _⟩ := c.body_writes io.toOs { mapping := m, files := d.files } hflushes
    obtain ⟨_, hflush, _⟩ := Mapping.exec_flush io.toOs { mapping := m', files := d.files }
    -- both sides end in the same `match` on the flush, so it is enough that the flushes agree
    rw [hbody, wp_bind, wp_attempt]
    refine wp_mono (fun r d' h => ?_) (flush_mirrors (m := m') htidy hext hlate)
    rw [hflush] at h
    have hres : (match io.toOs.flushError m.path with
        | none => .ok ()
        | some e => .error e) = r.map fun _ => () := congrArg Prod.fst h
    change Prog.wp _ _ (match r with
      | .ok () => _
      | .error _ => _) _
    match hfault : io.toOs.flushError m.path, r with
    | none, .ok () => simp [Store.withData]
    | some e, .error e' =>
      rw [hfault] at hres
      obtain rfl : e = e' := Except.error.inj hres
      simp [Store.withData]
    | none, .error _ | some _, .ok _ =>
      rw [hfault] at hres
      cases hres
  · rename_i hflushes
    rw [c.body_unflushed io.toOs { mapping := m, files := d.files } hflushes]
    rfl

end Mirrors

section Flush

variable {io : Io} {d : FsDisk} {m : Mapping} {G : Option Content → Prop}

/-- What is known of the mapping file after a flush. -/
def Flushed (m : Mapping) (G : Option Content → Prop) : Except IoError Unit → FsDisk → Prop
  | .ok (), d => d.Guards m.path.tmp m.path fun c => c = some (.whole m.data)
  | .error _, d => d.Guards m.path.tmp m.path G

/-- A crash at any call of a flush gives back what could come back before, or the
    mapping that is flushed; after a flush that returned `Ok`, only the latter. -/
theorem wp_flush (hext : m.path.extension ≠ some "tmp") (hparent : m.path.parent ≠ none)
    (hwritten : io.Written) (h : d.Guards m.path.tmp m.path G) (hnew : G (some (.whole m.data))) :
    (Fs.flush m).wp ((fs io).contract.keeping fun d => d.Guards m.path.tmp m.path G)
      (Flushed m G) d := by
  obtain ⟨parent, hparent⟩ := Option.ne_none_iff_exists'.1 hparent
  have hne := Path.ne_tmp hext
  rw [Fs.flush, hparent]
  refine wp_bind.2 (wp_call h (fun hfault₁ => ?_) fun _ _ => h)
  refine wp_bind.2 (wp_create h hne (fun hfault₂ file d h htmp => ?_) fun _ => h)
  refine wp_bind.2 (wp_writeAll h htmp (fun hfault₃ d h htmp hdata => ?_) fun _ _ h => h)
  refine wp_bind.2 (wp_syncData h htmp (fun hfault₄ => ?_) fun _ _ h => h)
  refine wp_bind.2 (wp_call (h.sync) (fun hfault₅ => ?_) fun _ _ => h.sync)
  -- the file takes the name only with its data, which is durable
  have hwhole : d.data file = .whole m.data := by
    rcases hwritten with hlate | ⟨st, hst, hfault⟩
    · exact hdata hlate
    · simp only [stepsToRename, List.mem_cons, List.not_mem_nil, or_false] at hst
      rcases hst with rfl | rfl | rfl | rfl | rfl
      · exact absurd hfault₁ hfault
      · exact absurd hfault₂ hfault
      · exact absurd hfault₃ hfault
      · exact absurd hfault₄ hfault
      · exact absurd hfault₅ hfault
  have hsynced : (d.sync file).synced file = true := Function.update_self _ _ _
  have hrenamed : ((d.sync file).rename m.path.tmp m.path).Guards m.path.tmp m.path G :=
    h.sync.rename hne htmp hsynced (hwhole ▸ hnew)
  refine wp_bind.2 (wp_call hrenamed (fun _ => ?_) fun _ _ => hrenamed)
  refine wp_call hrenamed (fun _ => ?_) fun _ _ => hrenamed
  have hfiles : ((d.sync file).rename m.path.tmp m.path).files m.path = some (.whole m.data) := by
    rw [Disk.files_rename, Function.update_of_ne hne, Function.update_self]
    exact (congrArg (Option.map d.data) htmp).trans (congrArg some hwhole)
  have hdurable := hrenamed.syncDir
  rw [hfiles] at hdurable
  exact hdurable

end Flush

/-! ## What a session keeps -/

/-- Whatever a crash gives back was serialised, and a removal that finds nothing
    in memory would find nothing in it. -/
structure Session.Durable (s : Session) (path : Path) : Prop where
  path_eq : s.mapping.path = path
  guards : s.disk.Guards path.tmp path fun c => ∃ d ∈ s.serialized, loadData c = some d
  covers : ∀ c : Call, ∀ d ∈ s.serialized, c.Flushes d → c.Flushes s.mapping.data

namespace Call

variable (c : Call) (os : Os) (d : MappingFile)

/-- What could be removed can be after a call that failed. -/
theorem flushes_kept {c' : Call} (h : c'.Flushes d) : c'.Flushes (c.kept os d) := by
  match c, c' with
  | setUser id record, removeUser id' =>
    change (d.users.insert id _)[id']?.isSome = true
    rw [Std.ExtTreeMap.getElem?_insert]
    split
    · rfl
    · exact h
  | setGroup id record, removeGroup id' =>
    change (d.groups.insert id _)[id']?.isSome = true
    rw [Std.ExtTreeMap.getElem?_insert]
    split
    · rfl
    · exact h
  | setUser _ _, removeGroup _ | setGroup _ _, removeUser _ => exact h
  | removeUser _, _ | removeGroup _, _ | removeUserAndFromGroups _, _ => exact h
  | _, setUser _ _ | _, setGroup _ _ | _, removeUserAndFromGroups _ => trivial

/-- A call that failed removes nothing in memory that is in what it serialised. -/
theorem flushes_kept_of_target {c' : Call} (h : c'.Flushes (c.target os d)) :
    c'.Flushes (c.kept os d) := by
  have herase {α β : Type} [Ord α] [Std.TransOrd α] {t : Std.ExtTreeMap α β} {k k' : α}
      (h : (t.erase k)[k']?.isSome = true) : t[k']?.isSome = true := by
    rw [Std.ExtTreeMap.getElem?_erase] at h
    split at h
    · cases h
    · exact h
  match c, c' with
  | setUser _ _, _ | setGroup _ _, _ => exact h
  | removeUser _, removeUser _ | removeGroup _, removeGroup _ => exact herase h
  | removeUserAndFromGroups _, removeUser _ => exact herase h
  | removeUserAndFromGroups _, removeGroup id' =>
    change (d.groups.map _)[id']?.isSome = true at h
    rw [Std.ExtTreeMap.getElem?_map, Option.isSome_map] at h
    exact h
  | removeUser _, removeGroup _ | removeGroup _, removeUser _ => exact h
  | _, setUser _ _ | _, setGroup _ _ | _, removeUserAndFromGroups _ => trivial

end Call

namespace Session

variable {s : Session} {path : Path} {io : Io} {c : Call}

theorem Started.durable (h : s.Started) (hext : s.mapping.path.extension ≠ some "tmp")
    (hkept : s.disk.kept = true) : s.Durable s.mapping.path := by
  have hdirs : ∀ dir ∈ s.disk.dirs, dir = s.disk.dir := fun dir hdir => by
    rw [Disk.dirs, h.settled] at hdir
    exact List.mem_singleton.1 hdir
  obtain ⟨data, hdata, hloaded⟩ := Option.map_eq_some_iff.1 h.loaded
  refine ⟨rfl, ⟨hkept, fun dir hdir => ?_, fun dir hdir => ?_, fun dir hdir => ?_, fun i hi => ?_⟩, ?_⟩
  · rw [hdirs dir hdir, h.serialized]
    exact ⟨_, List.mem_singleton_self _, by rw [← hloaded, ← hdata, Disk.files]⟩
  · rw [hdirs dir hdir]
    exact h.synced s.mapping.path
  · rw [hdirs dir hdir]
    exact h.tidy.old s.mapping.path
  · refine ⟨h.tidy.old _ i hi, fun dir hdir hi' => Path.ne_tmp hext ?_⟩
    rw [hdirs dir hdir] at hi'
    exact h.tidy.inj _ _ i hi' hi
  · intro c d hd hflushes
    rw [h.serialized] at hd
    exact List.mem_singleton.1 hd ▸ hflushes

theorem wp_process (h : s.Durable path) (hext : path.extension ≠ some "tmp")
    (hparent : path.parent ≠ none) (hwritten : io.Written) :
    (c.process io.toOs s.mapping).wp ((fs io).contract.keeping fun disk =>
        disk.Guards path.tmp path fun f =>
          ∃ d ∈ s.serialized ++ s.attempted c io.toOs, loadData f = some d)
      (fun r disk => ∃ res mapping, r = .ok (res, mapping) ∧
        Durable ⟨mapping, disk, s.serializedAfter c io.toOs res⟩ path) s.disk := by
  obtain rfl := h.path_eq
  by_cases hflushes : c.Flushes s.mapping.data
  · have hattempted : s.attempted c io.toOs = [c.target io.toOs s.mapping.data] := if_pos hflushes
    rw [Call.process, if_pos hflushes, wp_bind, wp_attempt]
    refine wp_mono ?_ (wp_flush (m := { s.mapping with data := c.target io.toOs s.mapping.data })
      hext hparent hwritten ?_ ?_)
    · rintro (e | ⟨⟩) disk hflushed
      · -- after a failed flush the file holds older data or what this call tried to write
        refine ⟨.error e, _, rfl, rfl, hflushed, fun c' d hd hflushes' => ?_⟩
        rcases List.mem_append.1 hd with hd | hd
        · exact c.flushes_kept io.toOs _ (h.covers c' d hd hflushes')
        · rw [hattempted, List.mem_singleton] at hd
          exact c.flushes_kept_of_target io.toOs _ (hd ▸ hflushes')
      · -- after a flush only the data just serialized can be read back
        have hserialized : s.serializedAfter c io.toOs (.ok ()) = [c.target io.toOs s.mapping.data] :=
          (if_pos hflushes).trans hattempted
        refine ⟨.ok (), _, rfl, rfl, ?_, fun c' d hd hflushes' => ?_⟩
        · refine Disk.Guards.mono hflushed fun f hf => ?_
          rw [hserialized, hf]
          exact ⟨_, List.mem_singleton_self _, rfl⟩
        · rw [hserialized, List.mem_singleton] at hd
          exact hd ▸ hflushes'
    · exact h.guards.mono fun f ⟨d, hd, hf⟩ => ⟨d, List.mem_append_left _ hd, hf⟩
    · exact ⟨_, List.mem_append_right _ (hattempted ▸ List.mem_singleton_self _), rfl⟩
  · rw [Call.process, if_neg hflushes]
    refine ⟨.ok (), s.mapping, rfl, ?_⟩
    rw [serializedAfter, if_neg hflushes]
    exact h

/-- What the process of a call guarantees, the session has after the call. -/
theorem exists_of_wp {I : FsDisk → Prop}
    {Q : Except Empty (Except IoError Unit × Mapping) → FsDisk → Prop}
    (h : (c.process io.toOs s.mapping).wp ((fs io).contract.keeping I) Q s.disk) :
    ∃ res, Q (.ok (res, (s.call (c, io)).mapping)) (s.call (c, io)).disk ∧
      (s.call (c, io)).serialized = s.serializedAfter c io.toOs res := by
  have hrun := Machine.wp_iff_run.1 (Prog.wp_of_keeping h) []
  rw [Session.call]
  generalize (fs io).run (c.process io.toOs s.mapping) [] s.disk = r at hrun
  match r with
  | (.ok (res, _), _) => exact ⟨res, hrun, rfl⟩

/-- A crash during a call leaves the mapping file as it may be before the call, or
    as the call writes it. -/
theorem Durable.visits (h : s.Durable path) (hext : path.extension ≠ some "tmp")
    (hparent : path.parent ≠ none) (hwritten : io.Written) {disk : FsDisk}
    (hvisits : (fs io).Visits (c.process io.toOs s.mapping) s.disk disk) :
    disk.Guards path.tmp path fun f =>
      ∃ d ∈ s.serialized ++ s.attempted c io.toOs, loadData f = some d := by
  have hwp := wp_process (c := c) h hext hparent hwritten
  refine (Machine.visits_of_wp hvisits hwp ?_ :)
  rintro r disk ⟨res, mapping, rfl, hdurable⟩
  refine hdurable.guards.mono fun f ⟨d, hd, hf⟩ => ⟨d, ?_, hf⟩
  match res with
  | .error _ => exact hd
  | .ok () =>
    rw [serializedAfter] at hd
    split at hd
    · exact List.mem_append_right _ hd
    · exact List.mem_append_left _ hd

/-- One call keeps the session durable. -/
theorem Durable.call (h : s.Durable path) (hext : path.extension ≠ some "tmp")
    (hparent : path.parent ≠ none) (hwritten : io.Written) : (s.call (c, io)).Durable path := by
  obtain ⟨res, ⟨_, _, hres, hdurable⟩, hserialized⟩ :=
    exists_of_wp (wp_process (c := c) h hext hparent hwritten)
  obtain ⟨rfl, rfl⟩ := Prod.mk.inj (Except.ok.inj hres)
  rw [← hserialized] at hdurable
  exact hdurable

theorem Durable.after {calls : List (Call × Io)} (h : s.Durable path)
    (hext : path.extension ≠ some "tmp") (hparent : path.parent ≠ none)
    (hwritten : ∀ x ∈ calls, x.2.Written) : (s.after calls).Durable path := by
  induction calls generalizing s with
  | nil => exact h
  | cons x calls ih =>
    exact ih (h.call hext hparent (hwritten x List.mem_cons_self))
      fun y hy => hwritten y (List.mem_cons_of_mem _ hy)

end Session

theorem load_of_guards {disk : FsDisk} {path : Path} {ds : List MappingFile} {files : Files}
    (h : disk.Guards path.tmp path fun f => ∃ d ∈ ds, loadData f = some d)
    (hfiles : disk.Survives files) : ∃ d ∈ ds, Mapping.load files path = some { path, data := d } := by
  obtain ⟨d, hd, hload⟩ := h.of_survives hfiles
  exact ⟨d, hd, by rw [Mapping.load, hload, Option.map_some]⟩

/-- Where no write fails late, and the directory of the mapping file is named and there: after any
    calls, what a crash leaves loads, as what was serialised by the last operation that returned
    `Ok` or by one attempted since; so it does at any point within the next call, which may be the
    one that was serialised, too. A removal that returns `Ok` as it finds nothing holds for what is
    loaded. -/
theorem load_after_crash {s : Session} {calls : List (Call × Io)} (hstart : s.Started)
    (hext : s.mapping.path.extension ≠ some "tmp") (hparent : s.mapping.path.parent ≠ none)
    (hkept : s.disk.kept = true) (hwritten : ∀ x ∈ calls, x.2.Written) :
    (∀ files, (s.after calls).disk.Survives files →
      ∃ d ∈ (s.after calls).serialized,
        Mapping.load files s.mapping.path = some { path := s.mapping.path, data := d }) ∧
    (∀ c : Call, ∀ io : Io, io.Written → ∀ disk files,
      (fs io).Visits (c.process io.toOs (s.after calls).mapping) (s.after calls).disk disk →
      disk.Survives files →
        ∃ d ∈ (s.after calls).serialized ++ (s.after calls).attempted c io.toOs,
          Mapping.load files s.mapping.path = some { path := s.mapping.path, data := d }) ∧
    ∀ c : Call, ¬c.Flushes (s.after calls).mapping.data →
      ∀ d ∈ (s.after calls).serialized, ¬c.Flushes d := by
  have hdurable := (hstart.durable hext hkept).after hext hparent hwritten
  refine ⟨fun files hfiles => load_of_guards hdurable.guards hfiles, ?_, ?_⟩
  · intro c io hio disk files hvisits hfiles
    exact load_of_guards (hdurable.visits hext hparent hio hvisits) hfiles
  · exact fun c hunflushed d hd hflushes => hunflushed (hdurable.covers c d hd hflushes)

/-! ## A late error -/

/-- A call that does not fail. -/
theorem wp_call_done {io : Io} {d : FsDisk} {o : FsOp} {Q : Except IoError o.Val → FsDisk → Prop}
    (hfault : io.fault o.step = none) (hdone : Q (.ok (o.done io d).1) (o.done io d).2) :
    (Fs.call o).wp ((fs io).contract.keeping fun _ => True) Q d :=
  wp_call trivial (fun _ => hdone) fun _ he => nomatch hfault.symm.trans he

/-- A torn file takes the name of the mapping file where a write fails late. -/
theorem wp_flush_late {io : Io} {d : FsDisk} {m : Mapping} (hext : m.path.extension ≠ some "tmp")
    (hlate : ¬io.Written) :
    (Fs.flush m).wp ((fs io).contract.keeping fun _ => True)
      (fun _ d' => d'.files m.path = some .torn) d := by
  have hne := Path.ne_tmp hext
  obtain ⟨e, he⟩ := Option.ne_none_iff_exists'.1 fun h => hlate (.inl h)
  have hfault : ∀ st ∈ stepsToRename, io.fault st = none := fun st hst => by
    by_contra hfault
    exact hlate (.inr ⟨st, hst, hfault⟩)
  have hcreateDirAll : io.fault .createDirAll = none := hfault _ (by decide)
  have hcreate : io.fault .create = none := hfault _ (by decide)
  have hwriteAll : io.fault .writeAll = none := hfault _ (by decide)
  have hsyncData : io.fault .syncData = none := hfault _ (by decide)
  have hrename : io.fault .rename = none := hfault _ (by decide)
  let d' := (d.create m.path.tmp .empty).2
  let file := (d.create m.path.tmp .empty).1
  -- the close error goes unseen: the torn file is synced and renamed like a whole one
  have htorn : ((((FsOp.writeAll file m.data).done io d').2.sync file).rename
      m.path.tmp m.path).files m.path = some .torn := by
    have hwritten : ((FsOp.writeAll file m.data).done io d').2 = d'.write file .torn := by
      rw [FsOp.done, he]
    have hfile : d'.dir m.path.tmp = some file := Disk.dir_create
    rw [hwritten, Disk.files_rename, Function.update_of_ne hne, Function.update_self]
    exact (congrArg (Option.map _) hfile).trans (congrArg some (Function.update_self _ _ _))
  rw [Fs.flush]
  match m.path.parent with
  | some parent =>
    refine wp_bind.2 (wp_call_done hcreateDirAll ?_)
    refine wp_bind.2 (wp_call_done hcreate ?_)
    refine wp_bind.2 (wp_call_done hwriteAll ?_)
    refine wp_bind.2 (wp_call_done hsyncData ?_)
    refine wp_bind.2 (wp_call_done hrename ?_)
    refine wp_bind.2 (wp_call trivial (fun _ => ?_) fun _ _ => htorn)
    exact wp_call trivial (fun _ => htorn) fun _ _ => htorn
  | none =>
    refine wp_bind.2 (wp_call_done hcreate ?_)
    refine wp_bind.2 (wp_call_done hwriteAll ?_)
    refine wp_bind.2 (wp_call_done hsyncData ?_)
    exact wp_bind.2 (wp_call_done hrename htorn)

/-- After a call whose write fails late the mapping does not load. -/
theorem load_eq_none_of_late {s : Session} {c : Call} {io : Io}
    (hext : s.mapping.path.extension ≠ some "tmp") (hflushes : c.Flushes s.mapping.data)
    (hlate : ¬io.Written) : Mapping.load (s.call (c, io)).disk.files s.mapping.path = none := by
  have hwp : (c.process io.toOs s.mapping).wp ((fs io).contract.keeping fun _ => True)
      (fun _ d => d.files s.mapping.path = some .torn) s.disk := by
    rw [Call.process, if_pos hflushes, wp_bind, wp_attempt]
    refine wp_mono (fun r d h => ?_) (wp_flush_late
      (m := { s.mapping with data := c.target io.toOs s.mapping.data }) hext hlate)
    match r with
    | .ok () => exact h
    | .error _ => exact h
  obtain ⟨_, htorn, _⟩ := Session.exists_of_wp hwp
  rw [Mapping.load, htorn]
  rfl

/-! ## A directory that is not synced -/

/-- A crash may still bring back the file that `p` was in `d`. -/
structure Reverts (d : FsDisk) (p : Path) (d' : FsDisk) : Prop where
  dir : d.dir ∈ d'.dirs
  data : ∀ i, d.dir p = some i → d'.data i = d.data i

/-- Without a directory in the path of the mapping file, a flush syncs none. -/
theorem wp_flush_bare {io : Io} {d : FsDisk} {m : Mapping} (htidy : d.Tidy)
    (hext : m.path.extension ≠ some "tmp") (hparent : m.path.parent = none) :
    (Fs.flush m).wp ((fs io).contract.keeping fun _ => True)
      (fun _ d' => Reverts d m.path d') d := by
  -- the temporary file is another one
  have hcreate : (∀ i, d.dir m.path = some i → i ≠ (d.create m.path.tmp .empty).1) ∧
      Reverts d m.path (d.create m.path.tmp .empty).2 := by
    rw [Disk.create]
    cases htmp : d.dir m.path.tmp with
    | some j =>
      have hother : ∀ i, d.dir m.path = some i → i ≠ j := by
        rintro i hi rfl
        exact Path.ne_tmp hext (htidy.inj _ _ _ hi htmp)
      exact ⟨hother, List.mem_cons_self, fun i hi => Function.update_of_ne (hother i hi) _ _⟩
    | none =>
      have hother : ∀ i, d.dir m.path = some i → i ≠ d.next := fun i hi =>
        Nat.ne_of_lt (htidy.old _ i hi)
      exact ⟨hother, List.mem_cons_of_mem _ List.mem_cons_self,
        fun i hi => Function.update_of_ne (hother i hi) _ _⟩
  obtain ⟨hother, hcreate⟩ := hcreate
  have hwrite {d' : FsDisk} (h : Reverts d m.path d') (c : Content) :
      Reverts d m.path (d'.write (d.create m.path.tmp .empty).1 c) :=
    ⟨h.dir, fun i hi => (Function.update_of_ne (hother i hi) _ _).trans (h.data i hi)⟩
  have hrename {d' : FsDisk} (h : Reverts d m.path d') :
      Reverts d m.path (d'.rename m.path.tmp m.path) :=
    ⟨List.mem_cons_of_mem _ h.dir, h.data⟩
  rw [Fs.flush, hparent]
  refine wp_bind.2 (wp_call trivial (fun _ => ?_) fun _ _ => ⟨List.mem_cons_self, fun _ _ => rfl⟩)
  refine wp_bind.2 (wp_call trivial (fun _ => ?_) fun _ _ => hwrite hcreate _)
  refine wp_bind.2 (wp_call trivial (fun _ => ?_) fun _ _ => hwrite (hwrite hcreate _) _)
  have hsynced (c : Content) : Reverts d m.path
      (((d.create m.path.tmp .empty).2.write (d.create m.path.tmp .empty).1 c).sync
        (d.create m.path.tmp .empty).1) :=
    ⟨(hwrite hcreate c).dir, (hwrite hcreate c).data⟩
  exact wp_bind.2 (wp_call trivial (fun _ => hrename (hsynced _)) fun _ _ => hsynced _)

/-- So a crash after a call may bring back the file there was before it. -/
theorem exists_reverted {s : Session} {c : Call} {io : Io} (htidy : s.disk.Tidy)
    (hext : s.mapping.path.extension ≠ some "tmp") (hparent : s.mapping.path.parent = none) :
    ∃ files, (s.call (c, io)).disk.Survives files ∧
      files s.mapping.path = s.disk.files s.mapping.path := by
  have hwp : (c.process io.toOs s.mapping).wp ((fs io).contract.keeping fun _ => True)
      (fun _ d => Reverts s.disk s.mapping.path d) s.disk := by
    rw [Call.process]
    split
    · rw [wp_bind, wp_attempt]
      refine wp_mono (fun r d h => ?_) (wp_flush_bare
        (m := { s.mapping with data := c.target io.toOs s.mapping.data }) htidy hext hparent)
      cases r with
      | ok _ => exact h
      | error _ => exact h
    · exact ⟨List.mem_cons_self, fun _ _ => rfl⟩
  obtain ⟨_, hreverts, _⟩ := Session.exists_of_wp hwp
  refine ⟨_, Disk.survives_of_mem hreverts.dir, ?_⟩
  rw [Disk.files]
  cases hp : s.disk.dir s.mapping.path with
  | none => rfl
  | some i => exact congrArg some (hreverts.data i hp)

namespace Durability

/-! ### A full volume -/

/-- The mapping of a server that has not stored anything yet. -/
def fresh : Session where
  mapping := { path := ⟨"/data", "mapping", some "json"⟩ }
  disk := { dir := fun _ => none, data := fun _ => .empty, synced := fun _ => true }
  serialized := [{}]

theorem fresh_started : fresh.Started :=
  ⟨rfl, rfl, rfl, nofun, nofun, nofun⟩

def alice : UserRecord := ⟨true, "alice", none, some "alice@example.com", none, 0⟩

/-- The volume is full when the data is written, after `write_all` has answered. -/
def full : Io := { lateWrite := some "No space left on device (os error 28)" }

/-- The directory cannot be synced. -/
def unsynced : Io where
  fault st := if st = .syncAll then some "Input/output error (os error 5)" else none

end Durability

open Durability in
/-- A user is stored, and the mapping loads; it is not known to be durable, as the call failed. -/
theorem load_after_crash_unsynced :
    let s := fresh.after [(.setUser ⟨"u1"⟩ alice, unsynced)]
    ∃ d ∈ s.serialized, Mapping.load s.disk.files fresh.mapping.path =
      some { path := fresh.mapping.path, data := d } := by
  intro s
  have hwritten : ∀ x ∈ [((.setUser ⟨"u1"⟩ alice, unsynced) : Call × Io)], x.2.Written := by
    intro x hx
    rw [List.mem_singleton.1 hx]
    exact .inl rfl
  have h := load_after_crash fresh_started (by decide) (by decide) rfl hwritten
  exact h.1 _ s.disk.survives_files

open Durability in
/-- A user is stored with `Ok`, and the mapping does not load. -/
theorem not_loaded_late :
    let s := fresh.call (.setUser ⟨"u1"⟩ alice, full)
    fresh.Started ∧
      ((fs full).run ((Call.setUser ⟨"u1"⟩ alice).process full.toOs fresh.mapping) [] fresh.disk).1 =
        .ok (.ok (), s.mapping) ∧
      s.disk.Survives s.disk.files ∧ Mapping.load s.disk.files fresh.mapping.path = none := by
  refine ⟨fresh_started, rfl, Disk.survives_files _, load_eq_none_of_late (by decide) trivial ?_⟩
  rintro (h | ⟨st, _, h⟩)
  · cases h
  · exact h rfl

end Headmaster.Scim
