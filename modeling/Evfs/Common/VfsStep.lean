import Evfs.Common.Vfs
import Evfs.Lib.Run

/-!
# Steps of the virtual filesystem

The operations of `VirtualFS` as actions, and the steps of one `VirtualFS` object among the rest of
the process: an operation, a change of iteration orders, an `open` on another object, which takes a
number from the shared counter, and the registration and removal of devices.

`Effect` says once what an operation can do to the tables (`exec_effect`); the invariants follow
from it. The first is `Mounted`: every mount point is kept under its own root, holds an object of its
own and that object is mounted there.
-/

namespace Evfs
open Lib

/-- The operations of `VirtualFS`. -/
inductive Action where
  | registerFilesystem (type : FsType)
  | registerFactory (type : FsType) (factory : Option Factory)
  | unregisterFilesystem (type : FsType)
  | mountAll
  | mount (diskName root fstype : Str) (flags : Flags)
  | umountAll
  | umount (mountPoint : Str)
  | getRoots
  | statParts
  | statPartsOf (path : Str)
  | open (path : Str) (flags : Flags) (mode : Int)
  | file (op : FdOp) (fd : Int)
  | path (op : PathOp) (path : Str)
  | rename (oldname newname : Str)
  | diropen (path : Str)
  | dir (op : DirOp) (handle : DirectoryHandle)
  deriving DecidableEq

/-- The directory handle an operation is given. -/
def Action.dirHandle : Action → Option DirectoryHandle
  | .dir _ handle => some handle
  | _ => none

/-- What an operation came to: an error, or a value, which is the descriptor for `open` and `0`
otherwise. -/
abbrev Reply := Except ErrorCode Int

def reply (e : ErrorCode) : Reply := if e = 0 then .ok 0 else .error e

namespace Pimpl
variable {σ : Type} (B : Backend σ)

/-- The operation of `VirtualFS` on a descriptor. -/
def fileOp : (op : FdOp) → Int → Pimpl σ → Except Fault (op.Ret × Pimpl σ)
  | .close, fd, s => close B fd s
  | .write data, fd, s => write B fd data s
  | .read len, fd, s => read B fd len s
  | .fstat, fd, s => fstat B fd s
  | .isatty, fd, s => isatty B fd s
  | op, fd, s => invokeFopsFd B op fd s

/-- The operation of `VirtualFS` on a path. -/
def pathOp : (op : PathOp) → Str → Pimpl σ → op.Ret × Pimpl σ
  | .unlink, path, s => unlink B path s
  | op, path, s => invokeFopsPath B op path s

/-- The operation of `VirtualFS` on a directory. -/
def dirOp : (op : DirOp) → DirectoryHandle → Pimpl σ → Except Fault (op.Ret × Pimpl σ)
  | .dirclose, handle, s => dirclose B handle s
  | op, handle, s => invokeDirops B op handle s

/-- One operation. -/
def exec : Action → Pimpl σ → Except Fault (Reply × Pimpl σ)
  | .registerFilesystem type, s =>
    .ok (reply (registerFilesystem type (getFsFactory type) s).1,
      (registerFilesystem type (getFsFactory type) s).2)
  | .registerFactory type factory, s =>
    .ok (reply (registerFilesystem type factory s).1, (registerFilesystem type factory s).2)
  | .unregisterFilesystem type, s =>
    .ok (reply (unregisterFilesystem type s).1, (unregisterFilesystem type s).2)
  | .mountAll, s => (mountAll B s).map fun r => (reply r.1, r.2)
  | .mount diskName root fstype flags, s =>
    (mount B diskName root fstype flags s).map fun r => (reply r.1, r.2)
  | .umountAll, s => .ok (reply (umountAll B s).1, (umountAll B s).2)
  | .umount mountPoint, s => .ok (reply (umount B mountPoint s).1, (umount B mountPoint s).2)
  | .getRoots, s => .ok (.ok 0, s)
  | .statParts, s => .ok (.ok 0, (statParts B s).2)
  | .statPartsOf path, s =>
    .ok (reply (errorOf (statPartsOf B path s).1), (statPartsOf B path s).2)
  | .open path flags mode, s => .ok (Pimpl.open B path flags mode s)
  | .file op fd, s => (fileOp B op fd s).map fun r => (reply (op.code r.1), r.2)
  | .path op path, s => .ok (reply (op.code (pathOp B op path s).1), (pathOp B op path s).2)
  | .rename oldname newname, s =>
    .ok (reply (rename B oldname newname s).1, (rename B oldname newname s).2)
  | .diropen path, s => .ok (reply (errorOf (diropen B path s).1), (diropen B path s).2)
  | .dir op handle, s => (dirOp B op handle s).map fun r => (reply (op.code r.1), r.2)

/-- What happens in the process. -/
inductive Label where
  | op (a : Action) (r : Reply)
  | rehash
  | foreignOpen
  | registerDevice (name : Str)
  | unregisterDevice (name : Str)
  deriving DecidableEq

/-- An operation is used as its interface says: on a directory handle that was handed out and is
not closed. -/
def Allowed (s : Pimpl σ) (a : Action) : Prop := ∀ handle ∈ a.dirHandle, handle ∈ s.dirHandles

instance (s : Pimpl σ) (a : Action) : Decidable (Allowed s a) :=
  inferInstanceAs (Decidable (∀ handle ∈ a.dirHandle, handle ∈ s.dirHandles))

/-- One step of the process. -/
inductive Step : Pimpl σ → Label → Pimpl σ → Prop where
  | op {s a r s'} : Allowed s a → exec B a s = .ok (r, s') → Step s (.op a r) s'
  | rehash {s s'} : Rehash s s' → Step s .rehash s'
  | foreignOpen {s} : Step s .foreignOpen { s with idx := nextIdx s.idx }
  | registerDevice {s} {δ : Type} (dev : BlockDevice δ) (d : δ) :
    Step s (.registerDevice dev.getName)
      { s with diskMgr := (s.diskMgr.registerDevice dev d).1.2 }
  | unregisterDevice {s} (name : Str) :
    Step s (.unregisterDevice name) { s with diskMgr := (s.diskMgr.unregisterDevice name).2 }

/-- A `VirtualFS` object as its constructor leaves it. -/
structure Initial (s : Pimpl σ) : Prop where
  mounts : s.mounts = ∅
  fdContainer : s.fdContainer = {}
  dirHandles : s.dirHandles = []
  log : s.log = []

/-- The states of any run. -/
def Reachable (s : Pimpl σ) : Prop := ∃ s₀, Initial s₀ ∧ Runs (Step B) (fun _ _ => True) s₀ s

/-- The operations of a list one after the other; those that are not allowed or end in a fault are
left out. -/
def play : List Action → Pimpl σ → Pimpl σ
  | [], s => s
  | a :: as, s =>
    match exec B a s with
    | .ok (_, s') => play as (if Allowed s a then s' else s)
    | .error _ => play as s

/-- A disk with two Linux partitions. -/
def sampleDisk : Disk :=
  ⟨0, "sd".toList, [{ numSectors := 64, startSector := 64, type := 0x83 },
    { numSectors := 64, startSector := 128, type := 0x83, physicalNumber := 1 }]⟩

/-- A new object, a disk being there and `ext4` not registered yet. -/
def sample (w : σ) : Pimpl σ where
  diskMgr := { diskMap := (∅ : UnorderedMap Str Disk).insert "sd".toList sampleDisk, nextDisk := 1 }
  world := w

/-! ### What an operation does -/

/-- Only the world and the log changed, and no filesystem object has another root. -/
structure Quiet (s s' : Pimpl σ) : Prop where
  tables : ∃ w l, s' = { s with world := w, log := s.log ++ l }
  rootOf : ∀ fs, B.rootOf s'.world fs = B.rootOf s.world fs

namespace Quiet
variable {B} {s s' s'' : Pimpl σ}

/-- Doing nothing is quiet. -/
lemma refl : Quiet B s s := ⟨⟨s.world, [], by rw [List.append_nil]⟩, fun _ => rfl⟩

/-- One quiet stretch after the other is quiet. -/
lemma trans (q : Quiet B s s') (q' : Quiet B s' s'') : Quiet B s s'' := by
  obtain ⟨⟨w, l, rfl⟩, r⟩ := q
  obtain ⟨⟨w', l', rfl⟩, r'⟩ := q'
  exact ⟨⟨w', l ++ l', by rw [List.append_assoc]⟩, fun fs => (r' fs).trans (r fs)⟩

/-- The mount table is the same. -/
lemma mounts (q : Quiet B s s') : s'.mounts = s.mounts := by
  obtain ⟨⟨_, _, rfl⟩, _⟩ := q; rfl

/-- The same files are open. -/
lemma fdContainer (q : Quiet B s s') : s'.fdContainer = s.fdContainer := by
  obtain ⟨⟨_, _, rfl⟩, _⟩ := q; rfl

/-- The next descriptor is the same. -/
lemma idx (q : Quiet B s s') : s'.idx = s.idx := by
  obtain ⟨⟨_, _, rfl⟩, _⟩ := q; rfl

/-- The same directories are open. -/
lemma dirHandles (q : Quiet B s s') : s'.dirHandles = s.dirHandles := by
  obtain ⟨⟨_, _, rfl⟩, _⟩ := q; rfl

/-- No object was made. -/
lemma nextFs (q : Quiet B s s') : s'.nextFs = s.nextFs := by
  obtain ⟨⟨_, _, rfl⟩, _⟩ := q; rfl

/-- Locking is only logged. -/
lemma lock {mp : MountPoint} : Quiet B s (s.lock mp) := ⟨⟨_, _, rfl⟩, fun _ => rfl⟩

/-- Unlocking is only logged. -/
lemma unlock {mp : MountPoint} : Quiet B s (s.unlock mp) := ⟨⟨_, _, rfl⟩, fun _ => rfl⟩

/-- A method call changes the world alone, unless it mounts. -/
lemma callFs {fs : FsId} {c : Call} (h : ∀ r fl, c ≠ .mount r fl) :
    Quiet B s (callFs B fs c s).2 :=
  ⟨⟨_, _, rfl⟩, fun fs' => B.call_frame fs c s.world fs' h⟩

/-- A call under the lock of its mount point is quiet. -/
lemma lockedCall {mp : MountPoint} {c : Call} (h : ∀ r fl, c ≠ .mount r fl) :
    Quiet B s (lockedCall B mp c s).2 :=
  (lock.trans (callFs h)).trans unlock

/-- So is one on an open file. -/
lemma lockedFile {mp : MountPoint} {op : FdOp} {h : FileHandle} :
    Quiet B s (Pimpl.lockedCall B mp (.file op h) s).2 := by
  apply lockedCall
  intro r fl e
  cases e

/-- A standard stream has nothing to do with the tables. -/
lemma callStream {op : StreamOp} : Quiet B s (callStream B op s).2 :=
  ⟨⟨_, _, rfl⟩, B.stream_frame op s.world⟩

/-- `invoke_fops` on a descriptor is quiet. -/
lemma invokeFopsFd {op : FdOp} {fd : Int} {r : op.Ret}
    (e : invokeFopsFd B op fd s = .ok (r, s')) : Quiet B s s' := by
  unfold Pimpl.invokeFopsFd at e
  split at e
  · cases e; exact refl
  · split at e
    · cases e
    · cases e
      exact lockedFile

/-- `invoke_fops` on a path is quiet. -/
lemma invokeFopsPath {op : PathOp} {path : Str} : Quiet B s (invokeFopsPath B op path s).2 := by
  unfold Pimpl.invokeFopsPath
  split
  · exact refl
  · split
    · exact refl
    · split
      · exact refl
      · exact lockedCall nofun

/-- `invoke_dirops` is quiet. -/
lemma invokeDirops {op : DirOp} {handle : DirectoryHandle} {r : op.Ret}
    (e : invokeDirops B op handle s = .ok (r, s')) : Quiet B s s' := by
  unfold Pimpl.invokeDirops at e
  split at e
  · cases e
  · cases e
    exact lockedCall nofun

/-- `rename` is quiet, whether it is passed on or not. -/
lemma rename {path path2 : Str} : Quiet B s (rename B path path2 s).2 := by
  unfold Pimpl.rename
  split
  · exact refl
  · split
    · exact refl
    · split
      · exact refl
      · split
        · exact refl
        · split
          · exact refl
          · split
            · exact lock.trans unlock
            · exact lockedCall nofun

/-- Statistics only ask. -/
lemma getMountPointStats {mp : MountPoint} : Quiet B s (getMountPointStats B mp s).2 :=
  lockedCall nofun

/-- `stat_parts` asks every mount point in turn. -/
lemma statLoop {l : List (Σ _ : Str, MountPoint)} : Quiet B s (statLoop B l s).2 := by
  induction l generalizing s with
  | nil => exact refl
  | cons e l ih => exact getMountPointStats.trans ih

/-- `stat_parts_of` asks one. -/
lemma statPartsOf {path : Str} : Quiet B s (statPartsOf B path s).2 := by
  unfold Pimpl.statPartsOf
  split
  · exact refl
  · exact getMountPointStats

/-- The objects are unmounted one after the other; the table is cleared later. -/
lemma umountLoop {l : List (Σ _ : Str, MountPoint)} : Quiet B s (umountLoop B l s).2 := by
  induction l generalizing s with
  | nil => exact refl
  | cons e l ih =>
    have q : Quiet B s (Pimpl.callFs B e.2.fs .unmount ((s.lock e.2).unlock e.2)).2 :=
      (lock.trans unlock).trans (callFs nofun)
    rw [Pimpl.umountLoop]
    split
    rename_i h
    rw [h] at q
    split
    · exact q
    · exact q.trans ih

/-- Writing to a stream, or not, is quiet. -/
lemma invokeStdstreamOut {fd : Int} {data : List UInt8} :
    Quiet B s (invokeStdstreamOut B fd data s).2 := by
  unfold Pimpl.invokeStdstreamOut
  split
  · exact callStream
  · split
    · exact callStream
    · exact refl

/-- Reading from a stream, or not, is quiet. -/
lemma invokeStdstreamIn {fd : Int} {len : Nat} :
    Quiet B s (invokeStdstreamIn B fd len s).2 := by
  unfold Pimpl.invokeStdstreamIn
  split
  · exact callStream
  · exact refl

/-- `write` is quiet on a stream and on a file. -/
lemma write {fd : Int} {data : List UInt8} {r : Except ErrorCode Nat}
    (e : write B fd data s = .ok (r, s')) : Quiet B s s' := by
  have q : Quiet B s (Pimpl.invokeStdstreamOut B fd data s).2 := invokeStdstreamOut
  unfold Pimpl.write at e
  split at e
  · rename_i h
    cases e
    rwa [h] at q
  · rename_i h
    rw [h] at q
    exact q.trans (invokeFopsFd e)

/-- `read` is quiet on a stream and on a file. -/
lemma read {fd : Int} {len : Nat} {r : Except ErrorCode Nat × List UInt8}
    (e : read B fd len s = .ok (r, s')) : Quiet B s s' := by
  have q : Quiet B s (Pimpl.invokeStdstreamIn B fd len s).2 := invokeStdstreamIn
  unfold Pimpl.read at e
  split at e
  · rename_i h
    cases e
    rwa [h] at q
  · rename_i h
    rw [h] at q
    exact q.trans (invokeFopsFd e)

end Quiet

/-- What `mount` does: it creates at most one object, and the mount table gets at most one entry,
for that object mounted at a new root. -/
structure MountEffect (s s' : Pimpl σ) : Prop where
  rest : ∃ m v w l n, s' = { s with
    mounts := m, volumeIndex := v, world := w, log := s.log ++ l, nextFs := n }
  nextFs : s.nextFs ≤ s'.nextFs
  rootOf : ∀ fs, fs ≠ s.nextFs → B.rootOf s'.world fs = B.rootOf s.world fs
  mounts : s'.mounts = s.mounts ∨ ∃ mp, mp.root ∉ s.mounts ∧ mp.fs = s.nextFs ∧
    s.nextFs < s'.nextFs ∧ B.rootOf s'.world mp.fs = mp.root ∧
    s'.mounts = s.mounts.insert mp.root mp

/-- What an operation can do to the tables. -/
inductive Effect : Pimpl σ → Action → Pimpl σ → Prop where
  | quiet {s a s'} : Quiet B s s' → Effect s a s'
  | factories {s a f} : Effect s a { s with fsFactories := f }
  | mounted {s diskName root fstype flags s'} : MountEffect B s s' →
    Effect s (.mount diskName root fstype flags) s'
  | mountedAll {s s'} : Relation.ReflTransGen (MountEffect B) s s' → Effect s .mountAll s'
  | unmounted {s root mp s₁} : s.mounts.lookup root = some mp →
    (B.call mp.fs .unmount s.world).1 = 0 → Quiet B s s₁ →
    Effect s (.umount root) { s₁ with mounts := s₁.mounts.erase root }
  | unmountedAll {s s₁} : Quiet B s s₁ →
    Effect s .umountAll { s₁ with mounts := ∅, volumeIndex := 0 }
  | opened {s path flags mode abspath mp handle s₁} : absolutePath path = .ok abspath →
    findMountPoint s.mounts abspath = some mp → handle.owner = mp.fs →
    handle.root = B.rootOf s.world mp.fs → Quiet B s s₁ →
    Effect s (.open path flags mode)
      { s₁ with
        fdContainer := s₁.fdContainer.insert s₁.idx path handle
        idx := nextIdx s₁.idx }
  | closed {s fd s₁ s₂} : fd ∈ s.fdContainer.byId → Quiet B s s₁ →
    Quiet B { s₁ with fdContainer := (s₁.fdContainer.remove fd).2 } s₂ →
    Effect s (.file .close fd) s₂
  | marked {s path} : path ∈ s.fdContainer.byPath →
    Effect s (.path .unlink path) { s with fdContainer := s.fdContainer.markForUnlink path }
  | diropened {s path abspath mp handle s₁} : absolutePath path = .ok abspath →
    findMountPoint s.mounts abspath = some mp → handle.owner = mp.fs →
    handle.root = B.rootOf s.world mp.fs → Quiet B s s₁ →
    Effect s (.diropen path) { s₁ with dirHandles := handle :: s₁.dirHandles }
  | dirclosed {s handle s₁} : Quiet B s s₁ →
    Effect s (.dir .dirclose handle) { s₁ with dirHandles := s₁.dirHandles.erase handle }

section Effects
variable {B} {s s' : Pimpl σ}

/-- A factory that returns has made the next object, without a root so far. -/
lemma createFilesystem_ok {factory : Factory} {disk : PartRef} {fs : FsId}
    (e : createFilesystem B factory disk s = .ok (fs, s')) :
    fs = s.nextFs ∧ ∃ w l, s' = { s with nextFs := s.nextFs + 1, world := w, log := s.log ++ l } ∧
      ∀ fs', fs' ≠ s.nextFs → B.rootOf w fs' = B.rootOf s.world fs' := by
  unfold createFilesystem at e
  cases factory with
  | custom id =>
    cases e
    exact ⟨rfl, _, _, rfl, fun fs' h => B.create_frame _ _ _ _ fs' h⟩
  | lwext4 =>
    simp only at e
    split at e
    · cases e
    · rename_i h
      cases e
      refine ⟨rfl, _, _, rfl, fun fs' h' => ?_⟩
      rw [B.create_frame _ _ _ _ fs' h', ← B.sectorSize_frame disk s.world fs', h]

/-- Choosing a root may count on and asks the object for its label only. -/
lemma chooseRoot_effect (fs : FsId) (root : Str) :
    ∃ v w l, (chooseRoot B fs root s).2 =
        { s with volumeIndex := v, world := w, log := s.log ++ l } ∧
      ∀ fs', B.rootOf w fs' = B.rootOf s.world fs' := by
  have same : ∃ v w l, s = { s with volumeIndex := v, world := w, log := s.log ++ l } ∧
      ∀ fs', B.rootOf w fs' = B.rootOf s.world fs' :=
    ⟨s.volumeIndex, s.world, [], by rw [List.append_nil], fun _ => rfl⟩
  unfold chooseRoot
  split
  · obtain ⟨⟨w, l, e⟩, r⟩ : Quiet B s (callFs B fs .getLabel s).2 := Quiet.callFs nofun
    split <;> rename_i h <;> rw [h] at e r <;> cases e
    · exact ⟨_, _, _, rfl, r⟩
    · exact ⟨_, _, _, rfl, r⟩
  · exact same

/-- Mounting an object enters it under a root that was free, or leaves the table alone. -/
lemma mountFs_effect (n : FsId) (type : FsType) (disk : PartRef) (root : Str) (flags : Flags) :
    ∃ m v w l, (mountFs B n type disk root flags s).2 =
        { s with mounts := m, volumeIndex := v, world := w, log := s.log ++ l } ∧
      (∀ fs', fs' ≠ n → B.rootOf w fs' = B.rootOf s.world fs') ∧
      (m = s.mounts ∨ ∃ mp, mp.root ∉ s.mounts ∧ mp.fs = n ∧ mp.disk = disk ∧
        B.rootOf w n = mp.root ∧ m = s.mounts.insert mp.root mp) := by
  obtain ⟨v, w, l, e, r⟩ := chooseRoot_effect (B := B) (s := s) n root
  unfold mountFs
  rw [e]
  generalize (chooseRoot B n root s).1 = root'
  unfold mountAt
  split
  · exact ⟨_, _, _, _, rfl, fun fs' _ => r fs', .inl rfl⟩
  · rename_i hm
    split
    rename_i e' s₂ h'
    have he : e' = (callFs B n (.mount root' flags) _).1 := (congrArg Prod.fst h').symm
    have hs : s₂ = (callFs B n (.mount root' flags) _).2 := (congrArg Prod.snd h').symm
    subst hs
    split
    · refine ⟨_, _, _, l ++ [_], by rw [callFs, List.append_assoc], fun fs' h => ?_, .inl rfl⟩
      exact (B.mount_frame _ _ _ _ fs' h).trans (r fs')
    · rename_i h0
      refine ⟨s.mounts.insert root' ⟨n, disk, root', flags, type⟩, v, _, l ++ [_],
        by simp only [callFs, List.append_assoc]; rfl, fun fs' h => ?_,
        .inr ⟨⟨n, disk, root', flags, type⟩, hm, rfl, rfl, ?_, rfl⟩⟩
      · exact (B.mount_frame _ _ _ _ fs' h).trans (r fs')
      · apply B.mount_root
        exact not_not.mp (he ▸ h0)

/-- A mount may come to nothing. -/
lemma MountEffect.refl : MountEffect B s s where
  rest := ⟨s.mounts, s.volumeIndex, s.world, [], s.nextFs, by rw [List.append_nil]⟩
  nextFs := le_refl _
  rootOf _ _ := rfl
  mounts := .inl rfl

/-- What `mount` does, at whatever point it stops. -/
lemma mount_effect {diskName root fstype : Str} {flags : Flags} {e : ErrorCode}
    (h : mount B diskName root fstype flags s = .ok (e, s')) : MountEffect B s s' := by
  unfold mount at h
  split at h
  · cases h
  · cases h
    exact MountEffect.refl
  · rename_i type disk _
    split at h
    · rename_i factory _
      split at h
      · cases h
      · rename_i fs s₁ hc
        obtain ⟨rfl, w, l, rfl, r⟩ := createFilesystem_ok hc
        obtain ⟨m, v, w', l', e', r', hm⟩ := mountFs_effect (B := B) s.nextFs type disk root flags
          (s := { s with nextFs := s.nextFs + 1, world := w, log := s.log ++ l })
        have hs : _ = s' := congrArg Prod.snd (Except.ok.inj h)
        rw [e'] at hs
        subst hs
        refine ⟨⟨m, v, w', l ++ l', s.nextFs + 1, by rw [List.append_assoc]⟩, Nat.le_succ _, ?_, ?_⟩
        · exact fun fs h => (r' fs h).trans (r fs h)
        · rcases hm with hm | ⟨mp, hn, hf, -, hr, hm⟩
          · exact .inl hm
          · exact .inr ⟨mp, hn, hf, Nat.lt_succ_self _, hf ▸ hr, hm⟩
    · cases h

/-- `mount_all` mounts one partition after the other. -/
lemma mountLoop_effect {names : List Str} {ret e : ErrorCode}
    (h : mountLoop B names ret s = .ok (e, s')) : Relation.ReflTransGen (MountEffect B) s s' := by
  induction names generalizing ret s with
  | nil => cases h; exact .refl
  | cons name names ih =>
    rw [mountLoop] at h
    split at h
    · cases h
    · rename_i hm
      exact .head (mount_effect hm) (ih h)

/-- A result that was mapped comes from a result. -/
lemma map_ok {ε α β : Type} {f : α → β} {x : Except ε α} {b : β}
    (h : x.map f = .ok b) : ∃ a, x = .ok a ∧ f a = b := by
  cases x with
  | error e => cases h
  | ok a => exact ⟨a, rfl, Except.ok.inj h⟩

/-- A fault is not mapped. -/
lemma map_error {α β : Type} {g : α → β} {x : Except Fault α} {f : Fault}
    (h : x.map g = .error f) : x = .error f := by
  cases x with
  | error f' => exact congrArg Except.error (Except.error.inj h)
  | ok a => cases h

/-- `umount` drops its entry if the object was unmounted, and else leaves the table alone. -/
lemma umount_effect {root : Str} : Effect B s (.umount root) (umount B root s).2 := by
  unfold umount
  split
  · exact .quiet .refl
  · rename_i mp hm
    have q : Quiet B s (lockedCall B mp .unmount s).2 := Quiet.lockedCall nofun
    split
    rename_i e s₁ h
    have he : (B.call mp.fs .unmount s.world).1 = e := congrArg Prod.fst h
    rw [h] at q
    split
    · exact .quiet q
    · rename_i h0
      exact .unmounted hm (he.trans (not_not.mp h0)) q

/-- The state in which `close` has closed the file and removed the descriptor. -/
def afterRemove (B : Backend σ) (s : Pimpl σ) (fd : Int) (fil : FileHandle) (mp : MountPoint) :
    Pimpl σ :=
  { (lockedCall B mp (.file .close fil) s).2 with fdContainer := (s.fdContainer.remove fd).2 }

section Close
variable {fd : Int} {fil : FileHandle} {mp : MountPoint}

/-- The last `close` of a marked path goes on with the removal. -/
lemma close_unlinks {path : Str} (hf : s.fdContainer.byId.lookup fd = some fil)
    (hm : s.mounts.lookup fil.root = some mp) (hr : (s.fdContainer.remove fd).1 = some path) :
    close B fd s = .ok (invokeFopsPath B .unlink path (afterRemove B s fd fil mp)) := by
  have hi : invokeFopsFd B .close fd s = .ok (lockedCall B mp (.file .close fil) s) := by
    simp only [invokeFopsFd, hf, hm]
  have q : Quiet B s (lockedCall B mp (.file .close fil) s).2 := Quiet.lockedFile
  unfold close
  rw [if_pos (UnorderedMap.mem_of_lookup hf), hi]
  simp only [q.fdContainer, hr]
  rfl

/-- Any other `close` ends with what the filesystem said. -/
lemma close_keeps (hf : s.fdContainer.byId.lookup fd = some fil)
    (hm : s.mounts.lookup fil.root = some mp) (hr : (s.fdContainer.remove fd).1 = none) :
    close B fd s =
      .ok ((lockedCall B mp (.file .close fil) s).1, afterRemove B s fd fil mp) := by
  have hi : invokeFopsFd B .close fd s = .ok (lockedCall B mp (.file .close fil) s) := by
    simp only [invokeFopsFd, hf, hm]
  have q : Quiet B s (lockedCall B mp (.file .close fil) s).2 := Quiet.lockedFile
  unfold close
  rw [if_pos (UnorderedMap.mem_of_lookup hf), hi]
  simp only [q.fdContainer, hr]
  rfl

/-- A `close` that returns finds no such file, or closes it and removes the descriptor; what it
returns then is that of the deferred unlink where there is one. -/
lemma close_cases {e : ErrorCode} (h : close B fd s = .ok (e, s')) :
    (s.fdContainer.byId.lookup fd = none ∧ s' = s) ∨
      ∃ fil mp, s.fdContainer.byId.lookup fd = some fil ∧ s.mounts.lookup fil.root = some mp ∧
        ((s.fdContainer.remove fd).1 = none ∧ e = (lockedCall B mp (.file .close fil) s).1 ∧
            s' = afterRemove B s fd fil mp ∨
          ∃ path, (s.fdContainer.remove fd).1 = some path ∧
            (e, s') = invokeFopsPath B .unlink path (afterRemove B s fd fil mp)) := by
  cases hf : s.fdContainer.byId.lookup fd with
  | none =>
    unfold close at h
    rw [if_neg (AList.lookup_eq_none.mp hf)] at h
    cases h
    exact .inl ⟨rfl, rfl⟩
  | some fil =>
    cases hm : s.mounts.lookup fil.root with
    | none =>
      unfold close at h
      simp only [if_pos (UnorderedMap.mem_of_lookup hf), invokeFopsFd, hf, hm] at h
      cases h
    | some mp =>
      refine .inr ⟨fil, mp, rfl, hm, ?_⟩
      cases hr : (s.fdContainer.remove fd).1 with
      | none =>
        rw [close_keeps hf hm hr] at h
        cases h
        exact .inl ⟨rfl, rfl, rfl⟩
      | some path =>
        rw [close_unlinks hf hm hr] at h
        exact .inr ⟨path, rfl, (Except.ok.inj h).symm⟩

end Close

/-- An `open` is stopped before it calls anything, or it returns what the method does. -/
lemma open_cases {path : Str} {flags : Flags} {mode : Int} {r : Except ErrorCode Int}
    (h : Pimpl.open B path flags mode s = (r, s')) :
    ((∃ e, r = .error e) ∧ Quiet B s s' ∧ s'.world = s.world ∧ ∀ {abspath mp},
        absolutePath path = .ok abspath → findMountPoint s.mounts abspath = some mp →
        (wantsWrite flags && mp.flags.test MountFlags.readOnly) = true) ∨
      ∃ abspath mp, absolutePath path = .ok abspath ∧
        findMountPoint s.mounts abspath = some mp ∧
        ¬ (wantsWrite flags && mp.flags.test MountFlags.readOnly) = true ∧
        ((∃ e, (B.call mp.fs (.open abspath flags mode) s.world).1 = .error e ∧ r = .error e ∧
            s' = (lockedCall B mp (.open abspath flags mode) s).2) ∨
          ∃ handle, (B.call mp.fs (.open abspath flags mode) s.world).1 = .ok handle ∧
            r = .ok s.idx ∧
            s' = { (lockedCall B mp (.open abspath flags mode) s).2 with
              fdContainer := s.fdContainer.insert s.idx path handle
              idx := nextIdx s.idx }) := by
  unfold Pimpl.open at h
  split at h
  · -- the path is not absolute
    rename_i e ha
    cases h
    refine .inl ⟨⟨e, rfl⟩, .refl, rfl, fun ha' => ?_⟩
    rw [ha] at ha'
    cases ha'
  · rename_i abspath ha
    split at h
    · -- it is below no mount point
      rename_i hm
      cases h
      refine .inl ⟨⟨_, rfl⟩, .refl, rfl, fun ha' hm' => ?_⟩
      cases ha.symm.trans ha'
      rw [hm] at hm'
      cases hm'
    · rename_i mp hm
      split at h
      · -- it is to be written to, and the mount is read-only
        rename_i hr
        cases h
        refine .inl ⟨⟨_, rfl⟩, Quiet.lock.trans Quiet.unlock, rfl, fun ha' hm' => ?_⟩
        cases ha.symm.trans ha'
        cases hm.symm.trans hm'
        exact hr
      · rename_i hr
        refine .inr ⟨abspath, mp, ha, hm, hr, ?_⟩
        split at h
        · rename_i e s₁ hc
          cases h
          exact .inl ⟨e, congrArg Prod.fst hc, rfl, (congrArg Prod.snd hc).symm⟩
        · rename_i handle s₁ hc
          have e₂ : (lockedCall B mp (.open abspath flags mode) s).2 = s₁ := congrArg Prod.snd hc
          subst e₂
          cases h
          exact .inr ⟨handle, congrArg Prod.fst hc, rfl, rfl⟩

/-- `open` inserts one descriptor, or nothing. -/
lemma open_effect {path : Str} {flags : Flags} {mode : Int} :
    Effect B s (.open path flags mode) (Pimpl.open B path flags mode s).2 := by
  cases h : Pimpl.open B path flags mode s with
  | mk r s' =>
    rcases open_cases h with ⟨-, q, -⟩ | ⟨abspath, mp, ha, hm, -, ho⟩
    · exact .quiet q
    · have q : Quiet B s (lockedCall B mp (.open abspath flags mode) s).2 :=
        Quiet.lockedCall nofun
      rcases ho with ⟨e, -, -, rfl⟩ | ⟨handle, hc, -, rfl⟩
      · exact .quiet q
      · obtain ⟨hw, hr⟩ := B.open_stamp _ _ _ _ _ _ hc
        exact .opened ha hm hw hr q

/-- `diropen` hands out one handle, or none. -/
lemma diropen_effect {path : Str} : Effect B s (.diropen path) (diropen B path s).2 := by
  unfold diropen
  split
  · exact .quiet .refl
  · rename_i abspath ha
    split
    · exact .quiet .refl
    · rename_i mp hm
      have q : Quiet B s (lockedCall B mp (.diropen abspath) s).2 := Quiet.lockedCall nofun
      split
      · rename_i h
        rw [h] at q
        exact .quiet q
      · rename_i handle s₁ h
        rw [h] at q
        obtain ⟨ho, hr⟩ := B.diropen_stamp _ _ _ _ (congrArg Prod.fst h)
        exact .diropened ha hm ho hr q

/-- `close` removes its descriptor, unless there is no such file. -/
lemma close_effect {fd : Int} {e : ErrorCode} (h : close B fd s = .ok (e, s')) :
    Effect B s (.file .close fd) s' := by
  rcases close_cases h with ⟨-, rfl⟩ | ⟨fil, mp, hf, -, hr⟩
  · exact .quiet .refl
  · have hfd := UnorderedMap.mem_of_lookup hf
    have q : Quiet B s (lockedCall B mp (.file .close fil) s).2 := Quiet.lockedFile
    rcases hr with ⟨-, -, rfl⟩ | ⟨path, -, hs⟩
    · exact .closed hfd q .refl
    · obtain rfl := congrArg Prod.snd hs
      exact .closed hfd q Quiet.invokeFopsPath

/-- An operation on a descriptor is quiet, or a `close`. -/
lemma fileOp_effect {op : FdOp} {fd : Int} {r : op.Ret} (h : fileOp B op fd s = .ok (r, s')) :
    Effect B s (.file op fd) s' := by
  cases op with
  | close => exact close_effect h
  | write data => exact .quiet (Quiet.write h)
  | read len => exact .quiet (Quiet.read h)
  | fstat =>
    simp only [fileOp, fstat] at h
    split at h
    · cases h; exact .quiet .refl
    · exact .quiet (Quiet.invokeFopsFd h)
  | isatty =>
    simp only [fileOp, isatty] at h
    split at h
    · cases h; exact .quiet .refl
    · exact .quiet (Quiet.invokeFopsFd h)
  | lseek _ _ => exact .quiet (Quiet.invokeFopsFd h)
  | ftruncate _ => exact .quiet (Quiet.invokeFopsFd h)
  | fsync => exact .quiet (Quiet.invokeFopsFd h)
  | flock _ => exact .quiet (Quiet.invokeFopsFd h)
  | fchmod _ => exact .quiet (Quiet.invokeFopsFd h)

/-- An operation on a path is quiet, or an `unlink` that marks an open path. -/
lemma pathOp_effect {op : PathOp} {path : Str} :
    Effect B s (.path op path) (pathOp B op path s).2 := by
  cases op with
  | unlink =>
    show Effect B s _ (unlink B path s).2
    unfold unlink
    split
    · rename_i h
      exact .marked h
    · exact .quiet Quiet.invokeFopsPath
  | _ => exact .quiet Quiet.invokeFopsPath

/-- An operation on a directory handle is quiet, or a `dirclose`. -/
lemma dirOp_effect {op : DirOp} {handle : DirectoryHandle} {r : op.Ret}
    (h : dirOp B op handle s = .ok (r, s')) : Effect B s (.dir op handle) s' := by
  cases op with
  | dirclose =>
    simp only [dirOp, dirclose] at h
    split at h
    · cases h
    · rename_i hi
      cases h
      exact .dirclosed (Quiet.invokeDirops hi)
  | dirreset => exact .quiet (Quiet.invokeDirops h)
  | dirnext => exact .quiet (Quiet.invokeDirops h)

/-- Every operation that returns has one of the effects. -/
theorem exec_effect {a : Action} {r : Reply} (h : exec B a s = .ok (r, s')) : Effect B s a s' := by
  cases a with
  | registerFilesystem type =>
    cases h
    unfold registerFilesystem
    split
    · exact .quiet .refl
    · exact .factories
  | registerFactory type factory =>
    cases h
    unfold registerFilesystem
    split
    · exact .quiet .refl
    · exact .factories
  | unregisterFilesystem type =>
    cases h
    unfold unregisterFilesystem
    split
    · exact .factories
    · exact .quiet .refl
  | mountAll =>
    obtain ⟨⟨e, s₁⟩, h', e'⟩ := map_ok h
    cases e'
    unfold mountAll at h'
    split at h'
    · cases h'; exact .quiet .refl
    · exact .mountedAll (mountLoop_effect h')
  | mount diskName root fstype flags =>
    obtain ⟨⟨e, s₁⟩, h', e'⟩ := map_ok h
    cases e'
    exact .mounted (mount_effect h')
  | umountAll =>
    cases h
    exact .unmountedAll Quiet.umountLoop
  | umount root =>
    cases h
    exact umount_effect
  | getRoots => cases h; exact .quiet .refl
  | statParts => cases h; exact .quiet Quiet.statLoop
  | statPartsOf path => cases h; exact .quiet Quiet.statPartsOf
  | «open» path flags mode =>
    have e : Pimpl.open B path flags mode s = (r, s') := Except.ok.inj h
    have he : (Pimpl.open B path flags mode s).2 = s' := congrArg Prod.snd e
    exact he ▸ open_effect
  | file op fd =>
    obtain ⟨⟨r', s₁⟩, h', e'⟩ := map_ok h
    cases e'
    exact fileOp_effect h'
  | path op path => cases h; exact pathOp_effect
  | rename oldname newname => cases h; exact .quiet Quiet.rename
  | diropen path => cases h; exact diropen_effect
  | dir op handle =>
    obtain ⟨⟨r', s₁⟩, h', e'⟩ := map_ok h
    cases e'
    exact dirOp_effect h'

/-- What an operation makes of the counter and the table of the descriptors, which `open`, `close`
and `unlink` change and no other does. -/
inductive DescriptorEffect (s s' : Pimpl σ) : Action → Prop where
  | same {a} : s'.idx = s.idx → s'.fdContainer = s.fdContainer → DescriptorEffect s s' a
  | opened {path flags mode abspath handle} : absolutePath path = .ok abspath →
    s'.idx = nextIdx s.idx → s'.fdContainer = s.fdContainer.insert s.idx path handle →
    DescriptorEffect s s' (.open path flags mode)
  | closed {fd} : s'.idx = s.idx → s'.fdContainer = (s.fdContainer.remove fd).2 →
    DescriptorEffect s s' (.file .close fd)
  | marked {path} : s'.idx = s.idx → s'.fdContainer = s.fdContainer.markForUnlink path →
    DescriptorEffect s s' (.path .unlink path)

/-- The descriptor table changes by `open`, `close` and the mark of `unlink` only. -/
lemma Effect.descriptors {a : Action} (ef : Effect B s a s') : DescriptorEffect s s' a := by
  cases ef with
  | quiet q => exact .same q.idx q.fdContainer
  | factories => exact .same rfl rfl
  | mounted m =>
    obtain ⟨_, _, _, _, _, rfl⟩ := m.rest
    exact .same rfl rfl
  | mountedAll ms =>
    have h : s'.idx = s.idx ∧ s'.fdContainer = s.fdContainer := by
      induction ms with
      | refl => exact ⟨rfl, rfl⟩
      | tail _ m ih =>
        obtain ⟨_, _, _, _, _, rfl⟩ := m.rest
        exact ih
    exact .same h.1 h.2
  | unmounted _ _ q => exact .same q.idx q.fdContainer
  | unmountedAll q => exact .same q.idx q.fdContainer
  | @opened path flags mode abspath mp handle s₁ ha _ _ _ q =>
    have hc : s₁.fdContainer.insert s₁.idx path handle =
        s.fdContainer.insert s.idx path handle := by rw [q.fdContainer, q.idx]
    exact .opened ha (congrArg nextIdx q.idx) hc
  | closed _ q q' =>
    refine .closed (q'.idx.trans q.idx) ?_
    rw [← q.fdContainer]
    exact q'.fdContainer
  | marked => exact .marked rfl rfl
  | diropened _ _ _ _ q => exact .same q.idx q.fdContainer
  | dirclosed q => exact .same q.idx q.fdContainer

end Effects

/-! ### Invariants of every run -/

/-- Every mount point is kept under its own root, and its object was last mounted there. -/
structure MountsWf (s : Pimpl σ) : Prop where
  root {k mp} : s.mounts.lookup k = some mp → mp.root = k
  mounted {k mp} : s.mounts.lookup k = some mp → B.rootOf s.world mp.fs = k
  bound {k mp} : s.mounts.lookup k = some mp → mp.fs < s.nextFs

/-- The keys of the descriptor table are normal forms, and its entries are not empty. -/
structure PathsWf (s : Pimpl σ) : Prop where
  rooted {k} : k ∈ s.fdContainer.byPath → Path.hasRootPath k = true
  normal {k} : k ∈ s.fdContainer.byPath → Path.lexicallyNormal k = k
  nonempty {k d} : s.fdContainer.byPath.lookup k = some d → d.indexes ≠ []

section Invariants
variable {B} {s s' : Pimpl σ}

/-- The mount point for a path is one of the table, whose root occurs in the path. -/
lemma lookup_of_findMountPoint {mounts : UnorderedMap Str MountPoint} {path : Str}
    {mp : MountPoint} (e : findMountPoint mounts path = some mp) :
    ∃ k, mounts.lookup k = some mp ∧ k <:+: path := by
  obtain ⟨⟨k, mp'⟩, h, rfl⟩ := Option.map_eq_some_iff.mp e
  refine ⟨k, UnorderedMap.mem_entries_iff.mp (List.mem_of_find?_eq_some h), ?_⟩
  simpa using List.find?_some h

/-- An absolute path is put into normal form. -/
lemma absolutePath_ok {path abspath : Str} (e : absolutePath path = .ok abspath) :
    Path.hasRootPath path = true ∧ abspath = Path.lexicallyNormal path := by
  unfold absolutePath at e
  split at e
  · rename_i h
    exact ⟨h, (Except.ok.inj e).symm⟩
  · cases e

/-- Well-formed mounts stay so without changes to the table. -/
lemma MountsWf.quiet (wf : MountsWf B s) (q : Quiet B s s') : MountsWf B s' where
  root e := wf.root (q.mounts ▸ e)
  mounted e := (q.rootOf _).trans (wf.mounted (q.mounts ▸ e))
  bound e := q.nextFs ▸ wf.bound (q.mounts ▸ e)

/-- A mount adds an object that is mounted at its root. -/
lemma MountsWf.mount (wf : MountsWf B s) (m : MountEffect B s s') : MountsWf B s' := by
  have keep : ∀ {k mp}, s.mounts.lookup k = some mp → B.rootOf s'.world mp.fs = k := fun e =>
    (m.rootOf _ (wf.bound e).ne).trans (wf.mounted e)
  rcases m.mounts with hm | ⟨mp, hn, hf, lt, hr, hm⟩
  · constructor
    case root => exact fun e => wf.root (hm ▸ e)
    case mounted => exact fun e => keep (hm ▸ e)
    case bound => exact fun e => (wf.bound (hm ▸ e)).trans_le m.nextFs
  · have new : ∀ {k mp'}, s'.mounts.lookup k = some mp' →
        (k = mp.root ∧ mp' = mp) ∨ s.mounts.lookup k = some mp' := by
      intro k mp' e
      rw [hm] at e
      exact UnorderedMap.lookup_insert_elim e
    constructor
    case root =>
      intro k mp' e
      rcases new e with ⟨rfl, rfl⟩ | e
      · rfl
      · exact wf.root e
    case mounted =>
      intro k mp' e
      rcases new e with ⟨rfl, rfl⟩ | e
      · exact hr
      · exact keep e
    case bound =>
      intro k mp' e
      rcases new e with ⟨rfl, rfl⟩ | e
      · exact hf ▸ lt
      · exact (wf.bound e).trans_le m.nextFs

/-- Mount points may be dropped. -/
lemma MountsWf.restrict (wf : MountsWf B s)
    (h : ∀ {k mp}, s'.mounts.lookup k = some mp → s.mounts.lookup k = some mp)
    (hw : s'.world = s.world) (hn : s'.nextFs = s.nextFs) : MountsWf B s' where
  root e := wf.root (h e)
  mounted e := hw ▸ wf.mounted (h e)
  bound e := hn ▸ wf.bound (h e)

/-- Every operation keeps the mounts well-formed. -/
lemma MountsWf.effect {a : Action} (wf : MountsWf B s) (st : Effect B s a s') :
    MountsWf B s' := by
  cases st with
  | quiet q => exact wf.quiet q
  | factories => exact wf.restrict id rfl rfl
  | mounted m => exact wf.mount m
  | mountedAll ms =>
    induction ms with
    | refl => exact wf
    | tail _ m ih => exact ih.mount m
  | unmounted _ _ q =>
    refine (wf.quiet q).restrict (fun {k mp} e => ?_) rfl rfl
    exact UnorderedMap.lookup_erase_elim e
  | unmountedAll q => exact (wf.quiet q).restrict (fun e => nomatch e) rfl rfl
  | opened _ _ _ _ q => exact (wf.quiet q).restrict id rfl rfl
  | closed _ q q' =>
    refine MountsWf.quiet ?_ q'
    exact (wf.quiet q).restrict id rfl rfl
  | marked => exact wf.restrict id rfl rfl
  | diropened _ _ _ _ q => exact (wf.quiet q).restrict id rfl rfl
  | dirclosed q => exact (wf.quiet q).restrict id rfl rfl

/-- What is found in the mount table does not depend on its order. -/
lemma Rehash.lookup_mounts (h : Rehash s s') (k : Str) :
    s'.mounts.lookup k = s.mounts.lookup k := h.mounts.lookup k

/-- So does every step. -/
lemma MountsWf.step {l : Label} (wf : MountsWf B s) (st : Step B s l s') : MountsWf B s' := by
  cases st with
  | op _ e => exact wf.effect (exec_effect e)
  | rehash h =>
    refine wf.restrict (fun e => h.lookup_mounts _ ▸ e) ?_ ?_ <;> rw [h.rest]
  | foreignOpen => exact wf.restrict id rfl rfl
  | registerDevice => exact wf.restrict id rfl rfl
  | unregisterDevice => exact wf.restrict id rfl rfl

/-- In every reachable state an object is mounted at the root that it stands under. -/
theorem MountsWf.reachable (h : Reachable B s) : MountsWf B s := by
  obtain ⟨s₀, init, run⟩ := h
  refine run.invariant (fun wf _ st => wf.step st) ?_
  refine ⟨fun e => ?_, fun e => ?_, fun e => ?_⟩ <;> rw [init.mounts] at e <;> cases e

/-- Only the container matters. -/
lemma PathsWf.same (wf : PathsWf s) (h : s'.fdContainer = s.fdContainer) : PathsWf s' where
  rooted e := wf.rooted (h ▸ e)
  normal e := wf.normal (h ▸ e)
  nonempty e := wf.nonempty (h ▸ e)

/-- `open` inserts under an absolute path. -/
lemma PathsWf.insert {path abspath : Str} {handle : FileHandle} {idx : Int}
    (wf : PathsWf s) (ha : absolutePath path = .ok abspath)
    (h : s'.fdContainer = s.fdContainer.insert idx path handle) : PathsWf s' := by
  obtain ⟨hr, -⟩ := absolutePath_ok ha
  have key : ∀ {k}, k ∈ s'.fdContainer.byPath →
      k = Path.lexicallyNormal path ∨ k ∈ s.fdContainer.byPath := by
    intro k e
    rw [h] at e
    exact UnorderedMap.mem_emplace.mp (AList.mem_replace.mp e)
  constructor
  case rooted =>
    intro k e
    rcases key e with rfl | e
    · exact Path.hasRootPath_lexicallyNormal hr
    · exact wf.rooted e
  case normal =>
    intro k e
    rcases key e with rfl | e
    · exact Path.lexicallyNormal_idem hr
    · exact wf.normal e
  case nonempty =>
    intro k d e
    rw [h] at e
    obtain ⟨-, rfl⟩ | e := FileDescriptorContainer.lookup_insert_cases e
    · simp [FileDescriptor.add]
    · exact wf.nonempty e

/-- What is left after a removal was there before. -/
lemma PathsWf.remove {fd : Int} (wf : PathsWf s)
    (h : s'.fdContainer = (s.fdContainer.remove fd).2) : PathsWf s' where
  rooted e := wf.rooted (FileDescriptorContainer.mem_byPath_remove (h ▸ e))
  normal e := wf.normal (FileDescriptorContainer.mem_byPath_remove (h ▸ e))
  nonempty := by
    intro k d e
    rw [h] at e
    unfold FileDescriptorContainer.remove at e
    split at e
    · exact FileDescriptorContainer.removeLoop_entries
        (fun e h => wf.nonempty (UnorderedMap.mem_entries_iff.mp h))
        (UnorderedMap.mem_entries_iff.mpr e)
    · exact wf.nonempty e

/-- A mark changes no path. -/
lemma PathsWf.mark {path : Str} (wf : PathsWf s)
    (h : s'.fdContainer = s.fdContainer.markForUnlink path) : PathsWf s' := by
  have key : ∀ {k}, k ∈ s'.fdContainer.byPath → k ∈ s.fdContainer.byPath := by
    intro k e
    obtain ⟨d, e⟩ := UnorderedMap.exists_lookup e
    rw [h] at e
    obtain ⟨d', e', -⟩ := FileDescriptorContainer.lookup_markForUnlink_elim e
    exact UnorderedMap.mem_of_lookup e'
  refine ⟨fun e => wf.rooted (key e), fun e => wf.normal (key e), fun e => ?_⟩
  rw [h] at e
  obtain ⟨d', e', hd⟩ := FileDescriptorContainer.lookup_markForUnlink_elim e
  exact hd ▸ wf.nonempty e'

/-- Every operation keeps the open files under absolute paths. -/
lemma PathsWf.effect {a : Action} (wf : PathsWf s) (st : Effect B s a s') : PathsWf s' := by
  cases st.descriptors with
  | same _ hc => exact wf.same hc
  | opened ha _ hc => exact wf.insert ha hc
  | closed _ hc => exact wf.remove hc
  | marked _ hc => exact wf.mark hc

/-- So does every step. -/
lemma PathsWf.step {l : Label} (wf : PathsWf s) (st : Step B s l s') : PathsWf s' := by
  cases st with
  | op _ e => exact wf.effect (exec_effect e)
  | rehash h =>
    exact ⟨fun e => wf.rooted (h.byPath.mem.mp e), fun e => wf.normal (h.byPath.mem.mp e),
      fun e => wf.nonempty ((h.byPath.lookup _).symm.trans e)⟩
  | foreignOpen => exact wf.same rfl
  | registerDevice => exact wf.same rfl
  | unregisterDevice => exact wf.same rfl

/-- In every reachable state the open files stand under absolute paths. -/
theorem PathsWf.reachable (h : Reachable B s) : PathsWf s := by
  obtain ⟨s₀, init, run⟩ := h
  refine run.invariant (fun wf _ st => wf.step st) ?_
  refine ⟨fun e => ?_, fun e => ?_, fun e => ?_⟩ <;> rw [init.fdContainer] at e <;> cases e

end Invariants

section Sample
variable {B} {s s₀ s' : Pimpl σ}

/-- A new object is a state of its runs. -/
lemma Reachable.initial (h : Initial s) : Reachable B s := ⟨s, h, .refl⟩

/-- The sample is a new object. -/
lemma initial_sample {w : σ} : Initial (sample w) := ⟨rfl, rfl, rfl, rfl⟩

/-- A list of operations is a run, if the guard lets each of them pass. -/
lemma runs_play {ok : Pimpl σ → Label → Prop} {as : List Action}
    (h : ∀ a ∈ as, ∀ s r, ok s (.op a r)) : Runs (Step B) ok s (play B as s) := by
  induction as generalizing s with
  | nil => exact .refl
  | cons a as ih =>
    have ih : ∀ {s}, Runs (Step B) ok s (play B as s) := fun {s} =>
      ih fun a' ha => h a' (List.mem_cons_of_mem _ ha)
    unfold play
    split
    · rename_i e
      split
      · rename_i al
        exact .head ⟨_, h a List.mem_cons_self _ _, .op al e⟩ ih
      · exact ih
    · exact ih

/-- It leads from reachable states to reachable ones. -/
lemma Reachable.play {as : List Action} (h : Reachable B s) : Reachable B (play B as s) := by
  obtain ⟨s₀, init, run⟩ := h
  exact ⟨s₀, init, run.trans (runs_play fun _ _ _ _ => trivial)⟩

/-- Operations may be played in parts. -/
lemma play_cons {a : Action} {as : List Action} :
    Pimpl.play B (a :: as) s = Pimpl.play B as (Pimpl.play B [a] s) := by
  simp only [Pimpl.play]
  split <;> rfl

/-- An operation that returns leads to the state that is played. -/
lemma exec_play {a : Action} {r : Reply} (al : Allowed s a)
    (h : (exec B a s).map Prod.fst = .ok r) : exec B a s = .ok (r, Pimpl.play B [a] s) := by
  obtain ⟨⟨r', s'⟩, e, rfl⟩ := map_ok h
  rw [Pimpl.play, e]
  simp only [if_pos al]
  rfl

end Sample

end Pimpl
end Evfs
