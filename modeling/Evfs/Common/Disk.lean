import Evfs.Common.Strings
import Evfs.Lib.UnorderedMap
import Evfs.Tools.Fdisk

/-!
# Disks, partitions and the disk manager

Port of `lib/common/disk.cpp`, `lib/common/partition.cpp` and `lib/common/disk_mngr.cpp`. A
`Partition*` is the disk object it belongs to and its position in the disk's vector. A disk object
has an identity of its own, so that a disk registered again under the name of an unregistered one is
a different object.
-/

namespace Evfs
open Lib

/-- Identity of a `Disk` object. -/
abbrev DiskId := Nat

/-- `Partition*`: a position in the partition vector of a disk. -/
structure PartRef where
  disk : DiskId
  index : Nat
  deriving DecidableEq, Repr

/-- `vfs::Disk`. -/
structure Disk where
  id : DiskId
  /-- The name of the block device underneath (`Disk::get_name`). -/
  name : Str
  partitions : List MBRPartition
  deriving DecidableEq

/-- `create_partition_name`. -/
def createPartitionName (disk : Str) (index : Nat) : Str := disk ++ ['p'] ++ toString' index

namespace Disk

/-- `Disk::create`, the new object having the identity `id`. -/
def create {δ : Type} (id : DiskId) (dev : BlockDevice δ) (d : δ) : Except ErrorCode Disk × δ :=
  match Fdisk.getPartitionEntries dev d with
  | (.ok parts, d) => (.ok ⟨id, dev.getName, parts⟩, d)
  -- a device without a partition table is fine, it has no partitions
  | (.error e, d) => if e ≠ 0 ∧ e ≠ ENXIO then (.error e, d) else (.ok ⟨id, dev.getName, []⟩, d)

/-- `Disk::borrow_partition`. -/
def borrowPartition (disk : Disk) (nr : Nat) : Option PartRef :=
  if nr ≥ disk.partitions.length then none else some ⟨disk.id, nr⟩

end Disk

/-- `vfs::DiskManager`. -/
structure DiskManager where
  diskMap : UnorderedMap Str Disk := ∅
  /-- The identity of the next `Disk` object. -/
  nextDisk : DiskId := 0

namespace DiskManager

/-- `DiskManager::register_device`. -/
def registerDevice {δ : Type} (mgr : DiskManager) (dev : BlockDevice δ) (d : δ) :
    (Except ErrorCode DiskId × DiskManager) × δ :=
  let name := dev.getName
  if name ∈ mgr.diskMap then ((.error EINVAL, mgr), d)
  else
    let (e, d) := dev.probe d
    if e ≠ 0 then ((.error e, mgr), d)
    else
      match Disk.create mgr.nextDisk dev d with
      | (.error e, d) => ((.error e, mgr), d)
      | (.ok disk, d) =>
        ((.ok disk.id, ⟨UnorderedMap.emplace mgr.diskMap name disk, mgr.nextDisk + 1⟩), d)

/-- `DiskManager::unregister_device`. -/
def unregisterDevice (mgr : DiskManager) (name : Str) : ErrorCode × DiskManager :=
  if name ∈ mgr.diskMap then (0, { mgr with diskMap := mgr.diskMap.erase name }) else (ENOENT, mgr)

/-- `DiskManager::get`. -/
def get (mgr : DiskManager) (disk : Str) : Option Disk := mgr.diskMap.lookup disk

end DiskManager
end Evfs
