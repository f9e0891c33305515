import Evfs.Common.Disk
import Mathlib.Logic.Function.Basic

/-!
# The filesystem interface

Port of the abstract classes of `lib/api/vfs/filesystem.hpp` and `lib/api/vfs/stdstream.hpp`. The
virtual methods are grouped by their first argument, as the invoke templates of `VirtualFS` are:
`FdOp` takes a `FileHandle&`, `PathOp` a path, `DirOp` a `DirectoryHandle&`. `Call` is any method
call, `Call.Ret` what it returns, an out-parameter being `none` when it is left alone.

A `Backend` is everything below `VirtualFS`: the implementations of these classes over a state type
`σ`. It carries the one law every implementation owes to `VirtualFS`: the handles an object creates
are stamped with the root the object was last mounted at.
-/

namespace Evfs

/-- Identity of a `Filesystem` object. -/
abbrev FsId := Nat

/-- `vfs::FileHandle`; `raw` is the address of the filesystem's own part. -/
structure FileHandle where
  /-- The object that created the handle (a ghost field). -/
  owner : FsId
  root : Str
  abspath : Str
  raw : Nat
  deriving DecidableEq

/-- `vfs::DirectoryHandle`. -/
structure DirectoryHandle where
  /-- The object that created the handle (a ghost field). -/
  owner : FsId
  root : Str
  raw : Nat
  deriving DecidableEq

/-- The fields of `struct stat` that the filesystems fill in. -/
structure Stat where
  ino : Nat := 0
  mode : Nat := 0
  nlink : Nat := 0
  size : Nat := 0
  atime : Nat := 0
  mtime : Nat := 0
  deriving DecidableEq

/-- The fields of `struct statvfs` that are read. -/
structure StatVfs where
  bsize : Nat := 0
  frsize : Nat := 0
  blocks : Nat := 0
  bfree : Nat := 0
  deriving DecidableEq

/-- Methods on an open file. -/
inductive FdOp where
  | close
  | write (data : List UInt8)
  | read (len : Nat)
  | lseek (pos : Int) (dir : Int)
  | fstat
  | ftruncate (len : Int)
  | fsync
  | flock (cmd : Int)
  | isatty
  | fchmod (mode : Nat)
  deriving DecidableEq

/-- Methods on a path. -/
inductive PathOp where
  | stat
  | link (newlink : Str)
  | symlink (newlink : Str)
  | unlink
  | rmdir
  | mkdir (mode : Int)
  | statVfs
  | ioctl (cmd : Int)
  | utimens (atime mtime : Int)
  | chmod (mode : Nat)
  deriving DecidableEq

/-- Methods on an open directory. -/
inductive DirOp where
  | dirreset
  | dirnext
  | dirclose
  deriving DecidableEq

/-- Methods of the standard streams. -/
inductive StreamOp where
  | in (len : Nat)
  | out (data : List UInt8)
  | err (data : List UInt8)
  deriving DecidableEq

/-- A method call on a `Filesystem` object. -/
inductive Call where
  | getLabel
  | mount (root : Str) (flags : Flags)
  | unmount
  | open (abspath : Str) (flags : Flags) (mode : Int)
  | file (op : FdOp) (handle : FileHandle)
  | path (op : PathOp) (path : Str)
  | rename (oldname newname : Str)
  | diropen (path : Str)
  | dir (op : DirOp) (handle : DirectoryHandle)
  deriving DecidableEq

/-- What a method on an open file returns. -/
abbrev FdOp.Ret : FdOp → Type
  | .write _ => Except ErrorCode Nat
  | .read _ => Except ErrorCode Nat × List UInt8
  | .lseek _ _ => Except ErrorCode Int
  | .fstat => ErrorCode × Option Stat
  | .isatty => Except ErrorCode Bool
  | _ => ErrorCode

/-- What a method on a path returns. -/
abbrev PathOp.Ret : PathOp → Type
  | .stat => ErrorCode × Option Stat
  | .statVfs => ErrorCode × Option StatVfs
  | _ => ErrorCode

/-- What a method on an open directory returns. -/
abbrev DirOp.Ret : DirOp → Type
  | .dirnext => ErrorCode × Option (Str × Stat)
  | _ => ErrorCode

/-- What a method of a stream returns. -/
abbrev StreamOp.Ret : StreamOp → Type
  | .in _ => Except ErrorCode Nat × List UInt8
  | _ => Except ErrorCode Nat

/-- What a method call returns. -/
abbrev Call.Ret : Call → Type
  | .getLabel => Except ErrorCode Str
  | .open _ _ _ => Except ErrorCode FileHandle
  | .diropen _ => Except ErrorCode DirectoryHandle
  | .file op _ => op.Ret
  | .path op _ => op.Ret
  | .dir op _ => op.Ret
  | _ => ErrorCode

/-- The error of a `result<T>`, `0` for a value. -/
def errorOf {α : Type} : Except ErrorCode α → ErrorCode
  | .ok _ => 0
  | .error e => e

/-- An error as the return value of a method (`terror`). -/
def FdOp.terror : (op : FdOp) → ErrorCode → op.Ret
  | .close, e => e
  | .write _, e => .error e
  | .read _, e => (.error e, [])
  | .lseek _ _, e => .error e
  | .fstat, e => (e, none)
  | .ftruncate _, e => e
  | .fsync, e => e
  | .flock _, e => e
  | .isatty, e => .error e
  | .fchmod _, e => e

/-- An error as the return value of a method (`from_errno`). -/
def PathOp.terror : (op : PathOp) → ErrorCode → op.Ret
  | .stat, e => (e, none)
  | .link _, e => e
  | .symlink _, e => e
  | .unlink, e => e
  | .rmdir, e => e
  | .mkdir _, e => e
  | .statVfs, e => (e, none)
  | .ioctl _, e => e
  | .utimens _ _, e => e
  | .chmod _, e => e

/-- The error code in a return value. -/
def FdOp.code : (op : FdOp) → op.Ret → ErrorCode
  | .close, r => r
  | .write _, r => errorOf r
  | .read _, r => errorOf r.1
  | .lseek _ _, r => errorOf r
  | .fstat, r => r.1
  | .ftruncate _, r => r
  | .fsync, r => r
  | .flock _, r => r
  | .isatty, r => errorOf r
  | .fchmod _, r => r

/-- The error code in a return value. -/
def PathOp.code : (op : PathOp) → op.Ret → ErrorCode
  | .stat, r => r.1
  | .link _, r => r
  | .symlink _, r => r
  | .unlink, r => r
  | .rmdir, r => r
  | .mkdir _, r => r
  | .statVfs, r => r.1
  | .ioctl _, r => r
  | .utimens _ _, r => r
  | .chmod _, r => r

/-- The error code in a return value. -/
def DirOp.code : (op : DirOp) → op.Ret → ErrorCode
  | .dirreset, r => r
  | .dirnext, r => r.1
  | .dirclose, r => r

/-- The error code in a return value. -/
def Call.code : (c : Call) → c.Ret → ErrorCode
  | .getLabel, r => errorOf r
  | .mount _ _, r => r
  | .unmount, r => r
  | .open _ _ _, r => errorOf r
  | .file op _, r => op.code r
  | .path op _, r => op.code r
  | .rename _ _, r => r
  | .diropen _, r => errorOf r
  | .dir op _, r => op.code r

@[simp] lemma PathOp.code_terror (op : PathOp) (e : ErrorCode) : op.code (op.terror e) = e := by
  cases op <;> rfl

/-- `std::unique_ptr<FilesystemFactory>` that is not null. -/
inductive Factory where
  /-- `filesystem_factory_lwext4`. -/
  | lwext4
  /-- A factory passed to `register_filesystem`. -/
  | custom (id : Nat)
  deriving DecidableEq

/-- What `VirtualFS` stands on, over a state type `σ`. -/
structure Backend (σ : Type) where
  /-- `BlockDevice::get_sector_size` of a partition. -/
  sectorSize : PartRef → σ → Except ErrorCode Nat × σ
  /-- `FilesystemFactory::create_filesystem`, the new object having the given identity. -/
  create : FsId → Factory → PartRef → σ → σ
  call : FsId → (c : Call) → σ → c.Ret × σ
  stream : (op : StreamOp) → σ → op.Ret × σ
  /-- The root an object was last mounted at. -/
  rootOf : σ → FsId → Str
  mount_root : ∀ fs r fl w, (call fs (.mount r fl) w).1 = 0 →
    rootOf (call fs (.mount r fl) w).2 fs = r
  mount_frame : ∀ fs r fl w fs', fs' ≠ fs → rootOf (call fs (.mount r fl) w).2 fs' = rootOf w fs'
  create_frame : ∀ fs f p w fs', fs' ≠ fs → rootOf (create fs f p w) fs' = rootOf w fs'
  call_frame : ∀ fs c w fs', (∀ r fl, c ≠ .mount r fl) → rootOf (call fs c w).2 fs' = rootOf w fs'
  sectorSize_frame : ∀ p w fs', rootOf (sectorSize p w).2 fs' = rootOf w fs'
  stream_frame : ∀ op w fs', rootOf (stream op w).2 fs' = rootOf w fs'
  open_stamp : ∀ fs p fl m w h, (call fs (.open p fl m) w).1 = .ok h →
    h.owner = fs ∧ h.root = rootOf w fs
  diropen_stamp : ∀ fs p w h, (call fs (.diropen p) w).1 = .ok h →
    h.owner = fs ∧ h.root = rootOf w fs

namespace Backend

/-- The answer of a filesystem that accepts every call and stores nothing. -/
def accept (root : Str) (fs : FsId) : (c : Call) → c.Ret
  | .getLabel => .ok []
  | .mount _ _ => 0
  | .unmount => 0
  | .open abspath _ _ => .ok ⟨fs, root, abspath, 0⟩
  | .file .close _ => 0
  | .file (.write data) _ => .ok data.length
  | .file (.read _) _ => (.ok 0, [])
  | .file (.lseek pos _) _ => .ok pos
  | .file .fstat _ => (0, some {})
  | .file (.ftruncate _) _ => 0
  | .file .fsync _ => 0
  | .file (.flock _) _ => 0
  | .file .isatty _ => .ok false
  | .file (.fchmod _) _ => 0
  | .path op _ => op.terror 0
  | .rename _ _ => 0
  | .diropen _ => .ok ⟨fs, root, 0⟩
  | .dir .dirreset _ => 0
  | .dir .dirnext _ => (ENOENT, none)
  | .dir .dirclose _ => 0

/-- Where a call leaves the objects mounted. -/
def acceptRoots (fs : FsId) (c : Call) (w : FsId → Str) : FsId → Str :=
  match c with
  | .mount root _ => Function.update w fs root
  | _ => w

/-- Filesystems that accept every call, over the roots they are mounted at. -/
def accepting : Backend (FsId → Str) where
  sectorSize _ w := (.ok 512, w)
  create _ _ _ w := w
  call fs c w := (accept (w fs) fs c, acceptRoots fs c w)
  stream op w := (match op with
    | .in _ => (.ok 0, [])
    | .out data => .ok data.length
    | .err data => .ok data.length, w)
  rootOf w := w
  mount_root fs r fl w _ := by simp [acceptRoots]
  mount_frame fs r fl w fs' h := by simp [acceptRoots, h]
  create_frame _ _ _ _ _ _ := rfl
  call_frame fs c w fs' h := by
    cases c
    case mount r fl => exact absurd rfl (h r fl)
    all_goals rfl
  sectorSize_frame _ _ _ := rfl
  stream_frame _ _ _ := rfl
  open_stamp fs p fl m w h e := by cases e; exact ⟨rfl, rfl⟩
  diropen_stamp fs p w h e := by cases e; exact ⟨rfl, rfl⟩

end Backend

end Evfs
