import Evfs.Common.FileDescriptorContainer

/-!
# The virtual filesystem

Port of `lib/common/vfs.cpp`. `Pimpl` is the state of a `VirtualFS`, together with the state `world`
of everything below it. The methods are functions on that state; those that may end in a fault
return `Except Fault`. Every method call on a `Filesystem`, with the error code it came to, every
call on the `StdStream` and every acquisition and release of a mount point's lock is appended to
`log`. The recursive mutex of the object orders whole calls and leaves no trace here.

The iteration order of an unordered map is the order of its entry list; `Pimpl.Rehash` relates the
states that differ in such orders only.
-/

namespace Evfs
open Lib

/-- `fstype::Type`; two types are equal when their names are. -/
structure FsType where
  name : Str
  codes : List UInt8
  deriving DecidableEq

namespace FsType

def ext4 : FsType := ⟨"ext4".toList, [0x83]⟩
def ext3 : FsType := ⟨"ext3".toList, [0x83]⟩
def vfat : FsType := ⟨"vfat".toList, [0x01, 0x06, 0x0c]⟩

end FsType

structure MountPoint where
  fs : FsId
  disk : PartRef
  root : Str
  flags : Flags
  type : FsType
  deriving DecidableEq

/-- What a call does to the world outside of the `VirtualFS` object. -/
inductive Event where
  | lock (fs : FsId)
  | unlock (fs : FsId)
  | create (fs : FsId) (factory : Factory) (disk : PartRef)
  | call (fs : FsId) (c : Call) (e : ErrorCode)
  | stream (op : StreamOp)
  deriving DecidableEq

/-- `VirtualFS::Pimpl`, with the world below it. -/
structure Pimpl (σ : Type) where
  diskMgr : DiskManager := {}
  /-- The registered types with their factories, under the name that identifies a type. -/
  fsFactories : UnorderedMap Str (FsType × Option Factory) := ∅
  mounts : UnorderedMap Str MountPoint := ∅
  fdContainer : FileDescriptorContainer := {}
  /-- `file_descriptor_container::idx`, shared by the whole process. -/
  idx : Int := 3
  volumeIndex : Nat := 0
  world : σ
  log : List Event := []
  /-- The identity of the next `Filesystem` object. -/
  nextFs : FsId := 0
  /-- The directory handles handed out and not closed since. -/
  dirHandles : List DirectoryHandle := []

/-- `PartitionStats`; a partition has no name once its disk is gone. -/
structure PartitionStats where
  diskName : Option Str
  mountPoint : Str
  type : Str
  flags : Flags
  usedSpace : Nat
  freeSpace : Nat
  deriving DecidableEq

/-- `get_fs_factory`. -/
def getFsFactory (type : FsType) : Option Factory :=
  if type.name = FsType.ext4.name ∨ type.name = FsType.ext3.name then some .lwext4 else none

/-- `find_mount_point`: the first mount point whose key occurs in the path. -/
def findMountPoint (mounts : UnorderedMap Str MountPoint) (path : Str) : Option MountPoint :=
  (mounts.entries.find? fun e => e.1 <:+: path).map Sigma.snd

/-- `absolute_path`. -/
def absolutePath (path : Str) : Except ErrorCode Str :=
  if Path.hasRootPath path then .ok (Path.lexicallyNormal path) else .error EINVAL

/-- `path::root_path`. -/
def rootPath (path : Str) : Str := if Path.hasRootPath path then ['/'] else []

/-- `get_fs_type_from_mbr_code`: the first registered type that has the code. -/
def getFsTypeFromMbrCode (factories : UnorderedMap Str (FsType × Option Factory)) (code : UInt8) :
    Option FsType :=
  (factories.entries.find? fun e => e.2.1.codes.contains code).map fun e => e.2.1

/-- `split_disk_name`. -/
def splitDiskName (disk : Str) : Except Fault (Str × Option Nat) :=
  match disk.dropWhile (· ≠ 'p') with
  | [] => .ok (disk, none)
  | _ :: number =>
    match stoi number with
    | .error f => .error f
    | .ok v => .ok (disk.takeWhile (· ≠ 'p'), some (v % 256).toNat)

/-- `fs_discovery`. -/
def fsDiscovery (factories : UnorderedMap Str (FsType × Option Factory)) (diskMgr : DiskManager)
    (diskName : Str) : Except Fault (Except ErrorCode (FsType × PartRef)) :=
  match splitDiskName diskName with
  | .error f => .error f
  | .ok (diskn, partn) =>
    match diskMgr.get diskn, partn with
    | none, _ => .ok (.error EINVAL)
    | some _, none => .ok (.error EINVAL)
    | some disk, some partn =>
      match disk.borrowPartition partn with
      | none => .ok (.error EINVAL)
      | some partition =>
        match getFsTypeFromMbrCode factories (disk.partitions.getD partition.index {}).type with
        | none => .ok (.error EINVAL)
        | some type => .ok (.ok (type, partition))

namespace Pimpl
variable {σ : Type} (B : Backend σ)

/-- A method call on a filesystem. -/
def callFs (fs : FsId) (c : Call) (s : Pimpl σ) : c.Ret × Pimpl σ :=
  ((B.call fs c s.world).1,
    { s with
      world := (B.call fs c s.world).2
      log := s.log ++ [.call fs c (c.code (B.call fs c s.world).1)] })

def lock (mp : MountPoint) (s : Pimpl σ) : Pimpl σ := { s with log := s.log ++ [.lock mp.fs] }

def unlock (mp : MountPoint) (s : Pimpl σ) : Pimpl σ := { s with log := s.log ++ [.unlock mp.fs] }

/-- A method call on a mounted filesystem under the lock of its mount point. -/
def lockedCall (mp : MountPoint) (c : Call) (s : Pimpl σ) : c.Ret × Pimpl σ :=
  ((callFs B mp.fs c (s.lock mp)).1, (callFs B mp.fs c (s.lock mp)).2.unlock mp)

/-- `invoke_fops` on a descriptor. -/
def invokeFopsFd (op : FdOp) (fd : Int) (s : Pimpl σ) : Except Fault (op.Ret × Pimpl σ) :=
  match s.fdContainer.byId.lookup fd with
  | none => .ok (op.terror EBADF, s)
  | some fil =>
    match s.mounts.lookup fil.root with
    | none => .error .outOfRange
    | some mp => .ok (lockedCall B mp (.file op fil) s)

/-- `invoke_fops` on a path. -/
def invokeFopsPath (op : PathOp) (path : Str) (s : Pimpl σ) : op.Ret × Pimpl σ :=
  if path = [] then (op.terror ENOENT, s)
  else
    match absolutePath path with
    | .error e => (op.terror e, s)
    | .ok abspath =>
      match findMountPoint s.mounts abspath with
      | none => (op.terror ENOENT, s)
      | some mp => lockedCall B mp (.path op abspath) s

/-- `invoke_dirops`. -/
def invokeDirops (op : DirOp) (handle : DirectoryHandle) (s : Pimpl σ) :
    Except Fault (op.Ret × Pimpl σ) :=
  match s.mounts.lookup handle.root with
  | none => .error .outOfRange
  | some mp => .ok (lockedCall B mp (.dir op handle) s)

/-- `VirtualFS::rename`, the only user of `invoke_fops_same_mp`. -/
def rename (path path2 : Str) (s : Pimpl σ) : ErrorCode × Pimpl σ :=
  if path = [] ∨ path2 = [] then (ENOENT, s)
  else
    match absolutePath path with
    | .error e => (e, s)
    | .ok abspath =>
      match absolutePath path2 with
      | .error e => (e, s)
      | .ok abspath2 =>
        if rootPath abspath ≠ rootPath abspath2 then (EXDEV, s)
        else
          match findMountPoint s.mounts abspath with
          | none => (ENOENT, s)
          | some mp =>
            if mp.flags.test MountFlags.readOnly then (EACCES, (s.lock mp).unlock mp)
            else lockedCall B mp (.rename abspath abspath2) s

/-! ### Mounting -/

/-- `VirtualFS::register_filesystem`. -/
def registerFilesystem (type : FsType) (factory : Option Factory) (s : Pimpl σ) :
    ErrorCode × Pimpl σ :=
  if type.name ∈ s.fsFactories then (EEXIST, s)
  else (0, { s with fsFactories := s.fsFactories.insert type.name (type, factory) })

/-- `VirtualFS::unregister_filesystem`. -/
def unregisterFilesystem (type : FsType) (s : Pimpl σ) : ErrorCode × Pimpl σ :=
  if type.name ∈ s.fsFactories then (0, { s with fsFactories := s.fsFactories.erase type.name })
  else (ENOENT, s)

/-- `create_filesystem`. The constructor of `lwext4_handle` takes the value of the sector size
whether the query succeeded or not. -/
def createFilesystem (factory : Factory) (disk : PartRef) (s : Pimpl σ) :
    Except Fault (FsId × Pimpl σ) :=
  let build (w : σ) : FsId × Pimpl σ :=
    (s.nextFs,
      { s with
        nextFs := s.nextFs + 1
        world := B.create s.nextFs factory disk w
        log := s.log ++ [.create s.nextFs factory disk] })
  match factory with
  | .custom _ => .ok (build s.world)
  | .lwext4 =>
    match B.sectorSize disk s.world with
    | (.error _, _) => .error .badExpected
    | (.ok _, w) => .ok (build w)

/-- `generate_unique_root_dir`. -/
def generateUniqueRootDir (s : Pimpl σ) : Str × Pimpl σ :=
  (rootBase ++ toString' s.volumeIndex, { s with volumeIndex := (s.volumeIndex + 1) % 2 ^ 32 })

/-- The root to mount at: the given one, else the label, else a generated one. -/
def chooseRoot (fs : FsId) (root : Str) (s : Pimpl σ) : Str × Pimpl σ :=
  if root = [] then
    match callFs B fs .getLabel s with
    | (.error _, s) => generateUniqueRootDir s
    | (.ok label, s) => ('/' :: label, s)
  else (root, s)

/-- The end of `VirtualFS::mount`, with the root that was chosen. -/
def mountAt (fs : FsId) (type : FsType) (disk : PartRef) (root : Str) (flags : Flags)
    (s : Pimpl σ) : ErrorCode × Pimpl σ :=
  if root ∈ s.mounts then (EEXIST, s)
  else
    let (e, s) := callFs B fs (.mount root flags) s
    if e ≠ 0 then (e, s)
    else (0, { s with mounts := s.mounts.insert root ⟨fs, disk, root, flags, type⟩ })

/-- The rest of `VirtualFS::mount`, once the filesystem object is there. -/
def mountFs (fs : FsId) (type : FsType) (disk : PartRef) (root : Str) (flags : Flags)
    (s : Pimpl σ) : ErrorCode × Pimpl σ :=
  mountAt B fs type disk (chooseRoot B fs root s).1 flags (chooseRoot B fs root s).2

/-- `VirtualFS::mount`; the file system type passed is not looked at. -/
def mount (diskName root _fstype : Str) (flags : Flags) (s : Pimpl σ) :
    Except Fault (ErrorCode × Pimpl σ) :=
  match fsDiscovery s.fsFactories s.diskMgr diskName with
  | .error f => .error f
  | .ok (.error e) => .ok (e, s)
  | .ok (.ok (type, disk)) =>
    match s.fsFactories.lookup type.name with
    | some (_, some factory) =>
      match createFilesystem B factory disk s with
      | .error f => .error f
      | .ok (fs, s) => .ok (mountFs B fs type disk root flags s)
    | _ => .error .nullDeref

/-- The names of the partitions of all disks. -/
def partitionNames (diskMgr : DiskManager) : List Str :=
  diskMgr.diskMap.entries.flatMap fun e =>
    e.2.partitions.map fun p => createPartitionName e.2.name p.physicalNumber

/-- The loop of `mount_all`, `ret` being the first error so far. -/
def mountLoop : List Str → ErrorCode → Pimpl σ → Except Fault (ErrorCode × Pimpl σ)
  | [], ret, s => .ok (ret, s)
  | name :: names, ret, s =>
    match mount B name [] [] 0 s with
    | .error f => .error f
    | .ok (e, s) => mountLoop names (if ret = 0 then e else ret) s

/-- `VirtualFS::mount_all`. -/
def mountAll (s : Pimpl σ) : Except Fault (ErrorCode × Pimpl σ) :=
  if s.diskMgr.diskMap.entries = [] then .ok (ENOTBLK, s)
  else mountLoop B (partitionNames s.diskMgr) 0 s

/-- The loop of `umount_all`, which stops at the first failure. The lock is a temporary that is
gone before `unmount` is called. -/
def umountLoop : List (Σ _ : Str, MountPoint) → Pimpl σ → ErrorCode × Pimpl σ
  | [], s => (0, s)
  | ⟨_, mp⟩ :: rest, s =>
    let (e, s) := callFs B mp.fs .unmount ((s.lock mp).unlock mp)
    if e ≠ 0 then (e, s) else umountLoop rest s

/-- `VirtualFS::umount_all`. -/
def umountAll (s : Pimpl σ) : ErrorCode × Pimpl σ :=
  let (ret, s) := umountLoop B s.mounts.entries s
  (ret, { s with mounts := ∅, volumeIndex := 0 })

/-- `VirtualFS::umount`. -/
def umount (mountPoint : Str) (s : Pimpl σ) : ErrorCode × Pimpl σ :=
  match s.mounts.lookup mountPoint with
  | none => (EINVAL, s)
  | some mp =>
    let (e, s) := lockedCall B mp .unmount s
    if e ≠ 0 then (e, s) else (0, { s with mounts := s.mounts.erase mountPoint })

/-- `VirtualFS::get_roots`. -/
def getRoots (s : Pimpl σ) : List Str := s.mounts.keys

/-- `Partition::get_name`. -/
def partitionName (diskMgr : DiskManager) (p : PartRef) : Option Str := do
  let e ← diskMgr.diskMap.entries.find? fun e => e.2.id = p.disk
  let info ← e.2.partitions[p.index]?
  some (createPartitionName e.2.name info.physicalNumber)

/-- `get_mount_point_stats`. -/
def getMountPointStats (mp : MountPoint) (s : Pimpl σ) : PartitionStats × Pimpl σ :=
  let ((_, st), s) := lockedCall B mp (.path .statVfs mp.root) s
  let st := st.getD {}
  let free := st.bfree * st.bsize % 2 ^ 64
  ({ diskName := partitionName s.diskMgr mp.disk
     mountPoint := mp.root
     type := mp.type.name
     flags := mp.flags
     freeSpace := free
     usedSpace := (st.blocks * st.frsize % 2 ^ 64 + (2 ^ 64 - free)) % 2 ^ 64 }, s)

/-- The loop of `stat_parts`. -/
def statLoop : List (Σ _ : Str, MountPoint) → Pimpl σ → List PartitionStats × Pimpl σ
  | [], s => ([], s)
  | ⟨_, mp⟩ :: rest, s =>
    let (st, s) := getMountPointStats B mp s
    let (stats, s) := statLoop rest s
    (st :: stats, s)

/-- `VirtualFS::stat_parts`. -/
def statParts (s : Pimpl σ) : List PartitionStats × Pimpl σ := statLoop B s.mounts.entries s

/-- `VirtualFS::stat_parts_of`, which searches for the path as it was passed. -/
def statPartsOf (path : Str) (s : Pimpl σ) : Except ErrorCode PartitionStats × Pimpl σ :=
  match findMountPoint s.mounts path with
  | none => (.error ENOENT, s)
  | some mp =>
    let (st, s) := getMountPointStats B mp s
    (.ok st, s)

/-! ### Files and directories -/

/-- `(flags & O_ACCMODE) != O_RDONLY`. -/
def wantsWrite (flags : Flags) : Bool := flags.toNat % 4 ≠ 0

/-- `VirtualFS::open`, which inserts the handle under the path as it was passed. -/
def «open» (path : Str) (flags : Flags) (mode : Int) (s : Pimpl σ) :
    Except ErrorCode Int × Pimpl σ :=
  match absolutePath path with
  | .error e => (.error e, s)
  | .ok abspath =>
    match findMountPoint s.mounts abspath with
    | none => (.error ENOENT, s)
    | some mp =>
      if wantsWrite flags && mp.flags.test MountFlags.readOnly then
        (.error EACCES, (s.lock mp).unlock mp)
      else
        match lockedCall B mp (.open abspath flags mode) s with
        | (.error e, s) => (.error e, s)
        | (.ok handle, s) =>
          (.ok s.idx,
            { s with
              fdContainer := s.fdContainer.insert s.idx path handle
              idx := nextIdx s.idx })

/-- `VirtualFS::close`. -/
def close (fd : Int) (s : Pimpl σ) : Except Fault (ErrorCode × Pimpl σ) :=
  if fd ∈ s.fdContainer.byId then
    match invokeFopsFd B .close fd s with
    | .error f => .error f
    | .ok (ret, s) =>
      let (path, c) := s.fdContainer.remove fd
      let s := { s with fdContainer := c }
      match path with
      | some path => .ok (invokeFopsPath B .unlink path s)
      | none => .ok (ret, s)
  else .ok (EBADF, s)

/-- A call on the `StdStream`. -/
def callStream (op : StreamOp) (s : Pimpl σ) : op.Ret × Pimpl σ :=
  ((B.stream op s.world).1,
    { s with world := (B.stream op s.world).2, log := s.log ++ [.stream op] })

/-- `invoke_stdstream` with data to write. -/
def invokeStdstreamOut (fd : Int) (data : List UInt8) (s : Pimpl σ) :
    Except ErrorCode Nat × Pimpl σ :=
  if fd = 1 then callStream B (.out data) s
  else if fd = 2 then callStream B (.err data) s
  else (.error EPERM, s)

/-- `invoke_stdstream` with a buffer to fill. -/
def invokeStdstreamIn (fd : Int) (len : Nat) (s : Pimpl σ) :
    (Except ErrorCode Nat × List UInt8) × Pimpl σ :=
  if fd = 0 then callStream B (.in len) s else ((.error EPERM, []), s)

/-- `VirtualFS::write`. -/
def write (fd : Int) (data : List UInt8) (s : Pimpl σ) :
    Except Fault (Except ErrorCode Nat × Pimpl σ) :=
  match invokeStdstreamOut B fd data s with
  | (.ok n, s) => .ok (.ok n, s)
  | (.error _, s) => invokeFopsFd B (.write data) fd s

/-- `VirtualFS::read`. -/
def read (fd : Int) (len : Nat) (s : Pimpl σ) :
    Except Fault ((Except ErrorCode Nat × List UInt8) × Pimpl σ) :=
  match invokeStdstreamIn B fd len s with
  | ((.ok n, bytes), s) => .ok ((.ok n, bytes), s)
  | ((.error _, _), s) => invokeFopsFd B (.read len) fd s

/-- `S_IFCHR`. -/
def sIfchr : Nat := 0o020000

/-- `VirtualFS::fstat`. -/
def fstat (fd : Int) (s : Pimpl σ) : Except Fault ((ErrorCode × Option Stat) × Pimpl σ) :=
  if fd < 3 then .ok ((0, some { mode := sIfchr }), s) else invokeFopsFd B .fstat fd s

/-- `VirtualFS::isatty`. -/
def isatty (fd : Int) (s : Pimpl σ) : Except Fault (Except ErrorCode Bool × Pimpl σ) :=
  if fd < 3 then .ok (.ok true, s) else invokeFopsFd B .isatty fd s

/-- `VirtualFS::unlink`, which looks the path up as it was passed. -/
def unlink (name : Str) (s : Pimpl σ) : ErrorCode × Pimpl σ :=
  if name ∈ s.fdContainer.byPath then
    (0, { s with fdContainer := s.fdContainer.markForUnlink name })
  else invokeFopsPath B .unlink name s

/-- `VirtualFS::diropen`. -/
def diropen (path : Str) (s : Pimpl σ) : Except ErrorCode DirectoryHandle × Pimpl σ :=
  match absolutePath path with
  | .error e => (.error e, s)
  | .ok abspath =>
    match findMountPoint s.mounts abspath with
    | none => (.error ENOENT, s)
    | some mp =>
      match lockedCall B mp (.diropen abspath) s with
      | (.error e, s) => (.error e, s)
      | (.ok handle, s) => (.ok handle, { s with dirHandles := handle :: s.dirHandles })

/-- `VirtualFS::dirclose`; the handle counts as closed whatever it returns. -/
def dirclose (handle : DirectoryHandle) (s : Pimpl σ) : Except Fault (ErrorCode × Pimpl σ) :=
  match invokeDirops B .dirclose handle s with
  | .error f => .error f
  | .ok (e, s) => .ok (e, { s with dirHandles := s.dirHandles.erase handle })

/-- The inner loop of `cleanup_opened_files`. -/
def closeLoop : List Int → Pimpl σ → Except Fault (Pimpl σ)
  | [], s => .ok s
  | fd :: fds, s =>
    match invokeFopsFd B .close fd s with
    | .error f => .error f
    | .ok (_, s) => closeLoop fds s

/-- The loop of `cleanup_opened_files`. -/
def cleanupLoop : List (Σ _ : Str, FileDescriptor) → Pimpl σ → Except Fault (Pimpl σ)
  | [], s => .ok s
  | ⟨path, entry⟩ :: rest, s =>
    match closeLoop B entry.indexes s with
    | .error f => .error f
    | .ok s =>
      cleanupLoop rest (if entry.markedForUnlink then (invokeFopsPath B .unlink path s).2 else s)

/-- `cleanup_opened_files`. -/
def cleanupOpenedFiles (s : Pimpl σ) : Except Fault (Pimpl σ) :=
  cleanupLoop B s.fdContainer.byPath.entries s

/-- `VirtualFS::~VirtualFS`. -/
def destroy (s : Pimpl σ) : Except Fault (Pimpl σ) :=
  match cleanupOpenedFiles B s with
  | .error f => .error f
  | .ok s => .ok (umountAll B s).2

/-- The same state with its unordered maps iterated in other orders. -/
structure Rehash (s s' : Pimpl σ) : Prop where
  diskMap : UnorderedMap.Reorder s.diskMgr.diskMap s'.diskMgr.diskMap
  fsFactories : UnorderedMap.Reorder s.fsFactories s'.fsFactories
  mounts : UnorderedMap.Reorder s.mounts s'.mounts
  byPath : UnorderedMap.Reorder s.fdContainer.byPath s'.fdContainer.byPath
  byId : UnorderedMap.Reorder s.fdContainer.byId s'.fdContainer.byId
  rest : s' = { s with
    diskMgr := { s.diskMgr with diskMap := s'.diskMgr.diskMap }
    fsFactories := s'.fsFactories
    mounts := s'.mounts
    fdContainer := s'.fdContainer }

end Pimpl
end Evfs
