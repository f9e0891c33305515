import Evfs.Common.Vfs
import Evfs.Lib.Threads

/-!
# What the calls of several threads do to one another

The calls of `VirtualFS` are cut into operations: the acquisition and the release of a lock, the
beginning and the end of a method of a `Filesystem`, and the accesses to the tables in between.
`Op.eval` is what an operation does to the object.

There are three kinds of locks. The mutex of the object is recursive. A mount point has a mutex of its
own, and so has a disk, which takes it around each of its methods.

Two operations have no counterpart in the source. `below` tells which disks the code of a filesystem
turns to, one after another, and `rounds` how many rounds a loop over a table makes that others may
be changing; any result is possible.
-/

namespace Evfs
open Lib

/-- The locks that a call can take. -/
inductive Lock where
  /-- `Pimpl::m_mutex`. -/
  | vfs
  /-- The mutex of a `LockableMountPoint`, under the filesystem in it. -/
  | mount (fs : FsId)
  /-- `Disk::mutex`. -/
  | disk (d : DiskId)
  deriving DecidableEq

/-- What the code of `VirtualFS` does between two points where another thread may run. -/
inductive Op where
  | acquire (l : Lock)
  | release (l : Lock)
  | enter (fs : FsId) (c : Call)
  | leave (fs : FsId) (c : Call)
  | below
  | rounds
  /-- A loop is over the rounds it was given. -/
  | stop
  | fault (f : Fault)
  | stream (op : StreamOp)
  | sectorSize (disk : PartRef)
  | diskName (disk : PartRef)
  | create (factory : Factory) (disk : PartRef)
  -- the descriptors
  | exist (fd : Int)
  /-- `exist` and `operator[]` of `invoke_fops`. -/
  | file (fd : Int)
  | insert (path : Str) (handle : FileHandle)
  | remove (fd : Int)
  | existPath (path : Str)
  | markForUnlink (path : Str)
  | entryAt (k : Nat)
  -- the mount points
  | mountAt (root : Str)
  | findMountPoint (path : Str)
  /-- `m_mounts.find`, whose iterator is kept until `erase`. -/
  | findRoot (root : Str)
  /-- The iterator of `stat_parts`. -/
  | statNext (k : Nat)
  /-- The iterator of `umount_all`. -/
  | umountNext (k : Nat)
  | containsRoot (root : Str)
  | emplaceMount (mp : MountPoint)
  | eraseMount (root : Str)
  | clearMounts
  | getRoots
  | generateUniqueRootDir
  -- the factories and the disks
  | registerFilesystem (type : FsType) (factory : Option Factory)
  | unregisterFilesystem (type : FsType)
  | findFactory (type : FsType)
  | fsDiscovery (diskName : Str)
  | noDisks
  | partitions
  -- the directories
  | dirOpened (handle : DirectoryHandle)
  | dirClosed (handle : DirectoryHandle)

namespace Op

/-- What an operation gives back. -/
abbrev Res : Op → Type
  | leave _ c => c.Ret
  | below => List DiskId
  | rounds => Nat
  | stop => Empty
  | fault _ => Empty
  | stream op => op.Ret
  | sectorSize _ => Except ErrorCode Nat
  | diskName _ => Option Str
  | create _ _ => FsId
  | exist _ => Bool
  | file _ => Option FileHandle
  | insert _ _ => Int
  | remove _ => Option Str
  | existPath _ => Bool
  | entryAt _ => Option (Str × FileDescriptor)
  | mountAt _ => Option MountPoint
  | findMountPoint _ => Option MountPoint
  | findRoot _ => Option MountPoint
  | statNext _ => Option MountPoint
  | umountNext _ => Option MountPoint
  | containsRoot _ => Bool
  | emplaceMount _ => Bool
  | getRoots => List Str
  | generateUniqueRootDir => Str
  | registerFilesystem _ _ => ErrorCode
  | unregisterFilesystem _ => ErrorCode
  | findFactory _ => Option (FsType × Option Factory)
  | fsDiscovery _ => Except Fault (Except ErrorCode (FsType × PartRef))
  | noDisks => Bool
  | partitions => List (DiskId × Str)
  | _ => Unit

variable {σ : Type} (B : Backend σ)

/-- What an operation does to the object. A fault of `none` is a loop that is over its rounds. For
`below` and `rounds` it is one of the possible results. -/
def eval : (o : Op) → Pimpl σ → Except (Option Fault) (o.Res × Pimpl σ)
  | acquire (.mount fs), s => .ok ((), { s with log := s.log ++ [.lock fs] })
  | acquire _, s => .ok ((), s)
  | release (.mount fs), s => .ok ((), { s with log := s.log ++ [.unlock fs] })
  | release _, s => .ok ((), s)
  | enter _ _, s => .ok ((), s)
  | leave fs c, s => .ok (Pimpl.callFs B fs c s)
  | below, s => .ok ([], s)
  | rounds, s => .ok (s.mounts.entries.length + s.fdContainer.byPath.entries.length + 1, s)
  | stop, _ => .error none
  | fault f, _ => .error (some f)
  | stream op, s => .ok (Pimpl.callStream B op s)
  | sectorSize disk, s =>
    .ok ((B.sectorSize disk s.world).1, { s with world := (B.sectorSize disk s.world).2 })
  | diskName disk, s => .ok (Pimpl.partitionName s.diskMgr disk, s)
  | create factory disk, s =>
    .ok (s.nextFs,
      { s with
        nextFs := s.nextFs + 1
        world := B.create s.nextFs factory disk s.world
        log := s.log ++ [.create s.nextFs factory disk] })
  | exist fd, s => .ok (fd ∈ s.fdContainer.byId, s)
  | file fd, s => .ok (s.fdContainer.byId.lookup fd, s)
  | insert path handle, s =>
    .ok (s.idx,
      { s with fdContainer := s.fdContainer.insert s.idx path handle, idx := nextIdx s.idx })
  | remove fd, s =>
    .ok ((s.fdContainer.remove fd).1, { s with fdContainer := (s.fdContainer.remove fd).2 })
  | existPath path, s => .ok (path ∈ s.fdContainer.byPath, s)
  | markForUnlink path, s =>
    .ok ((), { s with fdContainer := s.fdContainer.markForUnlink path })
  | entryAt k, s => .ok (s.fdContainer.byPath.entries[k]?.map fun e => (e.1, e.2), s)
  | mountAt root, s => .ok (s.mounts.lookup root, s)
  | findMountPoint path, s => .ok (Evfs.findMountPoint s.mounts path, s)
  | findRoot root, s => .ok (s.mounts.lookup root, s)
  | statNext k, s => .ok (s.mounts.entries[k]?.map Sigma.snd, s)
  | umountNext k, s => .ok (s.mounts.entries[k]?.map Sigma.snd, s)
  | containsRoot root, s => .ok (root ∈ s.mounts, s)
  | emplaceMount mp, s =>
    if mp.root ∈ s.mounts then .ok (false, s)
    else .ok (true, { s with mounts := s.mounts.insert mp.root mp })
  | eraseMount root, s => .ok ((), { s with mounts := s.mounts.erase root })
  | clearMounts, s => .ok ((), { s with mounts := ∅, volumeIndex := 0 })
  | getRoots, s => .ok (Pimpl.getRoots s, s)
  | generateUniqueRootDir, s => .ok (Pimpl.generateUniqueRootDir s)
  | registerFilesystem type factory, s => .ok (Pimpl.registerFilesystem type factory s)
  | unregisterFilesystem type, s => .ok (Pimpl.unregisterFilesystem type s)
  | findFactory type, s => .ok (s.fsFactories.lookup type.name, s)
  | fsDiscovery name, s => .ok (Evfs.fsDiscovery s.fsFactories s.diskMgr name, s)
  | noDisks, s => .ok (s.diskMgr.diskMap.entries = [], s)
  | partitions, s =>
    .ok (s.diskMgr.diskMap.entries.flatMap fun e =>
      e.2.partitions.map fun p => (e.2.id, createPartitionName e.2.name p.physicalNumber), s)
  | dirOpened handle, s => .ok ((), { s with dirHandles := handle :: s.dirHandles })
  | dirClosed handle, s => .ok ((), { s with dirHandles := s.dirHandles.erase handle })

/-- The operations that put an entry into an unordered map, after which it may be iterated in
another order. -/
def inserts : Op → Bool
  | insert _ _ => true
  | emplaceMount _ => true
  | registerFilesystem _ _ => true
  | _ => false

/-- What an operation can do to the object, and give back. -/
def Sem : (o : Op) → Pimpl σ → o.Res → Pimpl σ → Prop
  | below, s, _, s' => s' = s
  | rounds, s, _, s' => s' = s
  | o, s, r, s' =>
    ∃ s₁, o.eval B s = .ok (r, s₁) ∧ (s' = s₁ ∨ o.inserts ∧ Pimpl.Rehash s₁ s')

/-- An operation means what it evaluates to. -/
lemma sem_of_eval {B} {o : Op} {s s' : Pimpl σ} {r : o.Res} (e : o.eval B s = .ok (r, s')) :
    o.Sem B s r s' := by
  cases o with
  | below => cases e; rfl
  | rounds => cases e; rfl
  | _ => exact ⟨s', e, .inl rfl⟩

end Op

/-- What a call has at hand: the locks it holds and the objects it found and has not let go of. -/
structure Hand where
  held : List Lock := []
  /-- The filesystem that it runs a method of. -/
  inside : Option FsId := none
  /-- The handle `invoke_fops` looked up, with its descriptor. -/
  file : Option (Int × FileHandle) := none
  /-- The mount point to lock. -/
  mount : Option MountPoint := none
  /-- The mount point an iterator is at. -/
  cursor : Option MountPoint := none
  /-- The filesystem that `mount` created, until it is in the table. -/
  made : Option FsId := none
  deriving DecidableEq

namespace Hand

/-- What an operation makes of it. The mutex of the object is released by the scope that iterators
and new filesystems live in, the mutex of a mount point by the one that the references live in. -/
def next : (o : Op) → o.Res → Hand → Hand
  | .acquire l, _, g => { g with held := l :: g.held }
  | .release .vfs, _, g => { g with held := g.held.erase .vfs, cursor := none, made := none }
  | .release (.mount fs), _, g =>
    { g with held := g.held.erase (.mount fs), file := none, mount := none }
  | .release (.disk d), _, g => { g with held := g.held.erase (.disk d) }
  | .enter fs _, _, g => { g with inside := some fs }
  | .leave _ _, _, g => { g with inside := none }
  | .create _ _, fs, g => { g with made := some fs }
  | .file fd, handle, g => { g with file := handle.map fun h => (fd, h) }
  | .mountAt _, mp, g => { g with mount := mp }
  | .findMountPoint _, mp, g => { g with mount := mp }
  | .findRoot _, mp, g => { g with cursor := mp }
  | .statNext _, mp, g => { g with cursor := mp }
  | .umountNext _, mp, g => { g with cursor := mp }
  | .emplaceMount _, inserted, g => if inserted then { g with made := none } else g
  | .eraseMount _, _, g => { g with cursor := none }
  | .clearMounts, _, g => { g with cursor := none }
  | _, _, g => g

end Hand

/-- The lock that an operation acquires. -/
def Op.acquires : Op → Option Lock
  | .acquire l => some l
  | _ => none

/-- The threads that call into one `VirtualFS` object. -/
def threads {σ : Type} (B : Backend σ) : System Op Op.Res (Pimpl σ) Hand Lock where
  sem := Op.Sem B
  next := Hand.next
  acquires := Op.acquires
  held := Hand.held
  recursive l := l = .vfs
  held_next {o r g l} h := by
    cases o with
    | acquire l' => exact (List.mem_cons.mp h).symm.imp_right fun e => congrArg some e.symm
    | release l' => cases l' <;> exact .inl (List.mem_of_mem_erase h)
    | emplaceMount mp =>
      cases r with
      | true => exact .inl h
      | false => exact .inl h
    | _ => exact .inl h

instance {σ : Type} (B : Backend σ) : DecidablePred (threads B).recursive :=
  fun l => inferInstanceAs (Decidable (l = .vfs))

end Evfs
