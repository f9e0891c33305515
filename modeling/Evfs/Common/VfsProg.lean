import Evfs.Common.VfsOps
import Evfs.Common.VfsStep

/-!
# The calls as programs

Port of `lib/common/vfs.cpp` once more, every call being the sequence of its operations, with the
locks of `lib/common/locker.hpp` and `lib/common/disk.cpp` taken and released where they are in the
source. A `locked` is released at the end of its scope, a temporary one at the end of its expression.
-/

namespace Evfs
open Lib

/-- A piece of the code of `VirtualFS`. -/
abbrev Code (α : Type) := Prog Op Op.Res α

namespace VirtualFS

abbrev perform (o : Op) : Code o.Res := Prog.perform o

def acquire (l : Lock) : Code Unit := perform (.acquire l)

def release (l : Lock) : Code Unit := perform (.release l)

/-- A call that ends in undefined behaviour, or in an exception that ends the process. -/
def fault {α : Type} (f : Fault) : Code α := do
  let e ← perform (.fault f)
  nomatch e

/-- A loop that is over its rounds. -/
def stop {α : Type} : Code α := do
  let e ← perform .stop
  nomatch e

/-- A method of `Disk`. -/
def useDisk {α : Type} (d : DiskId) (method : Code α) : Code α := do
  acquire (.disk d)
  let r ← method
  release (.disk d)
  return r

/-- The disk methods that the code of a filesystem calls. -/
def useDisks : Code Unit := do
  let ds ← perform .below
  Prog.each (fun d => useDisk d (pure ())) ds

/-- A method of `Filesystem`. -/
def method (fs : FsId) (c : Call) : Code c.Ret := do
  perform (.enter fs c)
  useDisks
  perform (.leave fs c)

/-- `Partition::get_name`. -/
def getName (disk : PartRef) : Code (Option Str) := useDisk disk.disk (perform (.diskName disk))

/-- A method of a filesystem under the lock of its mount point. -/
def lockedCall (mp : MountPoint) (c : Call) : Code c.Ret := do
  acquire (.mount mp.fs)
  let r ← method mp.fs c
  release (.mount mp.fs)
  return r

/-- `invoke_fops` on a descriptor. -/
def invokeFopsFd (op : FdOp) (fd : Int) : Code op.Ret := do
  acquire .vfs
  match ← perform (.file fd) with
  | none =>
    release .vfs
    return op.terror EBADF
  | some fil =>
    release .vfs
    match ← perform (.mountAt fil.root) with
    | none => fault .outOfRange
    | some mp => lockedCall mp (.file op fil)

/-- `invoke_fops` on a path. -/
def invokeFopsPath (op : PathOp) (path : Str) : Code op.Ret :=
  if path = [] then return op.terror ENOENT
  else
    match absolutePath path with
    | .error e => return op.terror e
    | .ok abspath => do
      match ← perform (.findMountPoint abspath) with
      | none => return op.terror ENOENT
      | some mp => lockedCall mp (.path op abspath)

/-- `invoke_dirops`. -/
def invokeDirops (op : DirOp) (handle : DirectoryHandle) : Code op.Ret := do
  match ← perform (.mountAt handle.root) with
  | none => fault .outOfRange
  | some mp => lockedCall mp (.dir op handle)

/-- `VirtualFS::rename`, the only user of `invoke_fops_same_mp`. -/
def rename (path path2 : Str) : Code ErrorCode :=
  if path = [] ∨ path2 = [] then return ENOENT
  else
    match absolutePath path with
    | .error e => return e
    | .ok abspath =>
      match absolutePath path2 with
      | .error e => return e
      | .ok abspath2 =>
        if rootPath abspath ≠ rootPath abspath2 then return EXDEV
        else do
          match ← perform (.findMountPoint abspath) with
          | none => return ENOENT
          | some mp =>
            if mp.flags.test MountFlags.readOnly then
              acquire (.mount mp.fs)
              release (.mount mp.fs)
              return EACCES
            else lockedCall mp (.rename abspath abspath2)

/-! ### Mounting -/

/-- `VirtualFS::register_filesystem`. -/
def registerFilesystem (type : FsType) (factory : Option Factory) : Code ErrorCode := do
  acquire .vfs
  let e ← perform (.registerFilesystem type factory)
  release .vfs
  return e

/-- `VirtualFS::unregister_filesystem`. -/
def unregisterFilesystem (type : FsType) : Code ErrorCode := do
  acquire .vfs
  let e ← perform (.unregisterFilesystem type)
  release .vfs
  return e

/-- `create_filesystem`. -/
def createFilesystem (factory : Factory) (disk : PartRef) : Code FsId :=
  match factory with
  | .custom _ => do
    useDisks
    perform (.create factory disk)
  | .lwext4 => do
    match ← useDisk disk.disk (perform (.sectorSize disk)) with
    | .error _ => fault .badExpected
    | .ok _ => perform (.create factory disk)

/-- The root to mount at. -/
def chooseRoot (fs : FsId) (disk : PartRef) (root : Str) : Code Str :=
  if root = [] then do
    match ← method fs .getLabel with
    | .error _ =>
      let root ← perform .generateUniqueRootDir
      let _ ← getName disk
      return root
    | .ok label => return '/' :: label
  else return root

/-- The end of `VirtualFS::mount`; the name of the disk is for the log. -/
def mountAt (fs : FsId) (type : FsType) (disk : PartRef) (root : Str) (flags : Flags) :
    Code ErrorCode := do
  if ← perform (.containsRoot root) then
    let _ ← getName disk
    return EEXIST
  else
    let e ← method fs (.mount root flags)
    let _ ← getName disk
    if e ≠ 0 then return e
    else
      if ← perform (.emplaceMount ⟨fs, disk, root, flags, type⟩) then return 0
      else
        let _ ← getName disk
        return EEXIST

/-- The body of `VirtualFS::mount`; `stoi` throws in `fs_discovery`. -/
def mountBody (diskName root : Str) (flags : Flags) : Code (Except Fault ErrorCode) := do
  match ← perform (.fsDiscovery diskName) with
  | .error f => return .error f
  | .ok (.error e) => return .ok e
  | .ok (.ok (type, disk)) =>
    match ← perform (.findFactory type) with
    | some (_, some factory) =>
      let fs ← createFilesystem factory disk
      let root ← chooseRoot fs disk root
      let e ← mountAt fs type disk root flags
      return .ok e
    | _ => fault .nullDeref

/-- `VirtualFS::mount`. -/
def mount (diskName root : Str) (flags : Flags) : Code (Except Fault ErrorCode) := do
  acquire .vfs
  let r ← mountBody diskName root flags
  release .vfs
  return r

/-- The loop of `mount_all`, `ret` being the first error so far. -/
def mountLoop : List (DiskId × Str) → ErrorCode → Code (Except Fault ErrorCode)
  | [], ret => return .ok ret
  | (d, name) :: parts, ret => do
    useDisk d (pure ())
    match ← mount name [] 0 with
    | .error f => return .error f
    | .ok e => mountLoop parts (if ret = 0 then e else ret)

/-- `VirtualFS::mount_all`. -/
def mountAll : Code (Except Fault ErrorCode) := do
  acquire .vfs
  if ← perform .noDisks then
    release .vfs
    return .ok ENOTBLK
  else
    let parts ← perform .partitions
    let r ← mountLoop parts 0
    release .vfs
    return r

/-- The loop of `umount_all`, from the `k`-th mount point on. The lock is a temporary that is gone
before `unmount` is called. -/
def umountLoop : Nat → Nat → Code ErrorCode
  | 0, _ => stop
  | n + 1, k => do
    match ← perform (.umountNext k) with
    | none => return 0
    | some mp =>
      acquire (.mount mp.fs)
      release (.mount mp.fs)
      let e ← method mp.fs .unmount
      if e ≠ 0 then return e else umountLoop n (k + 1)

/-- `VirtualFS::umount_all`. -/
def umountAll : Code ErrorCode := do
  acquire .vfs
  let n ← perform .rounds
  let ret ← umountLoop n 0
  perform .clearMounts
  release .vfs
  return ret

/-- `VirtualFS::umount`. -/
def umount (mountPoint : Str) : Code ErrorCode := do
  acquire .vfs
  match ← perform (.findRoot mountPoint) with
  | none =>
    release .vfs
    return EINVAL
  | some mp =>
    let e ← lockedCall mp .unmount
    if e ≠ 0 then
      release .vfs
      return e
    else
      perform (.eraseMount mountPoint)
      release .vfs
      return 0

/-- `VirtualFS::get_roots`. -/
def getRoots : Code (List Str) := do
  acquire .vfs
  let roots ← perform .getRoots
  release .vfs
  return roots

/-- `get_mount_point_stats`, under the lock of the mount point. -/
def getMountPointStats (mp : MountPoint) : Code Unit := do
  acquire (.mount mp.fs)
  let _ ← method mp.fs (.path .statVfs mp.root)
  let _ ← getName mp.disk
  release (.mount mp.fs)

/-- The loop of `stat_parts`, from the `k`-th mount point on. -/
def statLoop : Nat → Nat → Code Unit
  | 0, _ => stop
  | n + 1, k => do
    match ← perform (.statNext k) with
    | none => return ()
    | some mp =>
      getMountPointStats mp
      statLoop n (k + 1)

/-- `VirtualFS::stat_parts`. -/
def statParts : Code Unit := do
  let n ← perform .rounds
  statLoop n 0

/-- `VirtualFS::stat_parts_of`. -/
def statPartsOf (path : Str) : Code ErrorCode := do
  match ← perform (.findMountPoint path) with
  | none => return ENOENT
  | some mp =>
    getMountPointStats mp
    return 0

/-! ### Files and directories -/

/-- What `open` does under the lock of the mount point. -/
def openLocked (mp : MountPoint) (path abspath : Str) (flags : Flags) (mode : Int) :
    Code (Except ErrorCode Int) :=
  if Pimpl.wantsWrite flags && mp.flags.test MountFlags.readOnly then return .error EACCES
  else do
    match ← method mp.fs (.open abspath flags mode) with
    | .error e => return .error e
    | .ok handle =>
      let fd ← perform (.insert path handle)
      return .ok fd

/-- `VirtualFS::open`. -/
def «open» (path : Str) (flags : Flags) (mode : Int) : Code (Except ErrorCode Int) := do
  acquire .vfs
  match absolutePath path with
  | .error e =>
    release .vfs
    return .error e
  | .ok abspath =>
    match ← perform (.findMountPoint abspath) with
    | none =>
      release .vfs
      return .error ENOENT
    | some mp =>
      acquire (.mount mp.fs)
      let r ← openLocked mp path abspath flags mode
      release (.mount mp.fs)
      release .vfs
      return r

/-- `VirtualFS::close`. -/
def close (fd : Int) : Code ErrorCode := do
  acquire .vfs
  if ← perform (.exist fd) then
    let ret ← invokeFopsFd .close fd
    match ← perform (.remove fd) with
    | some path =>
      let ret ← invokeFopsPath .unlink path
      release .vfs
      return ret
    | none =>
      release .vfs
      return ret
  else
    release .vfs
    return EBADF

/-- `invoke_stdstream` with data to write. -/
def invokeStdstreamOut (fd : Int) (data : List UInt8) : Code (Except ErrorCode Nat) :=
  if fd = 1 then perform (.stream (.out data))
  else if fd = 2 then perform (.stream (.err data))
  else return .error EPERM

/-- `invoke_stdstream` with a buffer to fill. -/
def invokeStdstreamIn (fd : Int) (len : Nat) : Code (Except ErrorCode Nat × List UInt8) :=
  if fd = 0 then perform (.stream (.in len)) else return (.error EPERM, [])

/-- `VirtualFS::write`. -/
def write (fd : Int) (data : List UInt8) : Code (Except ErrorCode Nat) := do
  match ← invokeStdstreamOut fd data with
  | .ok n => return .ok n
  | .error _ => invokeFopsFd (.write data) fd

/-- `VirtualFS::read`. -/
def read (fd : Int) (len : Nat) : Code (Except ErrorCode Nat × List UInt8) := do
  match ← invokeStdstreamIn fd len with
  | (.ok n, bytes) => return (.ok n, bytes)
  | (.error _, _) => invokeFopsFd (.read len) fd

/-- `VirtualFS::fstat`. -/
def fstat (fd : Int) : Code (ErrorCode × Option Stat) :=
  if fd < 3 then return (0, some { mode := Pimpl.sIfchr }) else invokeFopsFd .fstat fd

/-- `VirtualFS::isatty`. -/
def isatty (fd : Int) : Code (Except ErrorCode Bool) :=
  if fd < 3 then return .ok true else invokeFopsFd .isatty fd

/-- The call of `VirtualFS` on a descriptor. -/
def fileOp : (op : FdOp) → Int → Code op.Ret
  | .close, fd => close fd
  | .write data, fd => write fd data
  | .read len, fd => read fd len
  | .fstat, fd => fstat fd
  | .isatty, fd => isatty fd
  | op, fd => invokeFopsFd op fd

/-- `VirtualFS::unlink`. -/
def unlink (name : Str) : Code ErrorCode := do
  acquire .vfs
  if ← perform (.existPath name) then
    perform (.markForUnlink name)
    release .vfs
    return 0
  else
    let e ← invokeFopsPath .unlink name
    release .vfs
    return e

/-- The call of `VirtualFS` on a path. -/
def pathOp : (op : PathOp) → Str → Code op.Ret
  | .unlink, path => unlink path
  | op, path => invokeFopsPath op path

/-- `VirtualFS::diropen`. -/
def diropen (path : Str) : Code (Except ErrorCode DirectoryHandle) :=
  match absolutePath path with
  | .error e => return .error e
  | .ok abspath => do
    match ← perform (.findMountPoint abspath) with
    | none => return .error ENOENT
    | some mp =>
      match ← lockedCall mp (.diropen abspath) with
      | .error e => return .error e
      | .ok handle =>
        perform (.dirOpened handle)
        return .ok handle

/-- `VirtualFS::dirclose`. -/
def dirclose (handle : DirectoryHandle) : Code ErrorCode := do
  let e ← invokeDirops .dirclose handle
  perform (.dirClosed handle)
  return e

/-- The call of `VirtualFS` on a directory. -/
def dirOp : (op : DirOp) → DirectoryHandle → Code op.Ret
  | .dirclose, handle => dirclose handle
  | op, handle => invokeDirops op handle

/-- The loop of `cleanup_opened_files`, from the `k`-th entry on. The destructor is the last call on
an object, so that an entry does not change while its descriptors are closed. -/
def cleanupLoop : Nat → Nat → Code Unit
  | 0, _ => stop
  | n + 1, k => do
    match ← perform (.entryAt k) with
    | none => return ()
    | some (path, entry) =>
      Prog.each (fun fd => do let _ ← invokeFopsFd .close fd) entry.indexes
      if entry.markedForUnlink then
        let _ ← invokeFopsPath .unlink path
      cleanupLoop n (k + 1)

/-- `VirtualFS::~VirtualFS`. -/
def destroy : Code Unit := do
  let n ← perform .rounds
  cleanupLoop n 0
  let _ ← umountAll

/-- An operation of `VirtualFS`. -/
def call : Action → Code (Except Fault Reply)
  | .registerFilesystem type => do
    let e ← registerFilesystem type (getFsFactory type)
    return .ok (reply e)
  | .registerFactory type factory => do
    let e ← registerFilesystem type factory
    return .ok (reply e)
  | .unregisterFilesystem type => do
    let e ← unregisterFilesystem type
    return .ok (reply e)
  | .mountAll => do
    let r ← mountAll
    return r.map reply
  | .mount diskName root _ flags => do
    let r ← mount diskName root flags
    return r.map reply
  | .umountAll => do
    let e ← umountAll
    return .ok (reply e)
  | .umount mountPoint => do
    let e ← umount mountPoint
    return .ok (reply e)
  | .getRoots => do
    let _ ← getRoots
    return .ok (.ok 0)
  | .statParts => do
    statParts
    return .ok (.ok 0)
  | .statPartsOf path => do
    let e ← statPartsOf path
    return .ok (reply e)
  | .open path flags mode => do
    let r ← VirtualFS.open path flags mode
    return .ok r
  | .file op fd => do
    let r ← fileOp op fd
    return .ok (reply (op.code r))
  | .path op path => do
    let r ← pathOp op path
    return .ok (reply (op.code r))
  | .rename oldname newname => do
    let e ← rename oldname newname
    return .ok (reply e)
  | .diropen path => do
    let r ← diropen path
    return .ok (reply (errorOf r))
  | .dir op handle => do
    let r ← dirOp op handle
    return .ok (reply (op.code r))

end VirtualFS

/-- A call on the object. -/
inductive VfsCall where
  | op (a : Action)
  /-- `~VirtualFS`. -/
  | destroy

def VfsCall.code : VfsCall → Code Unit
  | op a => do let _ ← VirtualFS.call a
  | destroy => VirtualFS.destroy

/-- An object and the threads that call into it. -/
abbrev Process (Tid σ : Type) := Config Tid Op Op.Res (Pimpl σ) Hand

/-- Every thread is about to make its calls, one after the other. -/
def start {Tid σ : Type} (s : Pimpl σ) (calls : Tid → List VfsCall) : Process Tid σ where
  shared := s
  prog t := Prog.each VfsCall.code (calls t)
  loc _ := {}

/-- What the threads come to with their steps in the order of a list is reachable. -/
lemma runs_follow {Tid σ : Type} [DecidableEq Tid] [Fintype Tid] {B : Backend σ}
    {c : Process Tid σ} (ok : Process Tid σ → Move Tid Op Op.Res → Prop)
    [∀ c m, Decidable (ok c m)] (P : Process Tid σ → Prop) [DecidablePred P] (ts : List Tid)
    (h : ((threads B).follow ok (fun o s => (o.eval B s).toOption) ts c).any fun c' => P c') :
    ∃ c', Runs (System.Step (threads B)) ok c c' ∧ P c' := by
  obtain ⟨c', e, hp⟩ := (Option.any_eq_true ..).mp h
  refine ⟨c', System.follow_runs (fun {o s r s'} e => ?_) e, of_decide_eq_true hp⟩
  cases he : o.eval B s with
  | error f => rw [he] at e; cases e
  | ok r' =>
    rw [he] at e
    cases e
    exact Op.sem_of_eval he

end Evfs
