import Evfs.Common.Defs

/-!
# Partition tables

Port of the reading side of `lib/tools/fdisk.cpp`, with `lib/api/vfs/blockdev.hpp` and
`lib/api/vfs/tools/mbr_partition.hpp`. A block device is a state type with the outcomes of its
virtual methods. Sector numbers and counts are 64-bit values; where the source computes with them
the result is taken modulo `2 ^ 64`. The sector buffer has the size the source gives it, and a byte
read outside of it (undefined behaviour there) is `0`.
-/

namespace Evfs

/-- `vfs::BlockDevice` over the states `δ` of the device. -/
structure BlockDevice (δ : Type) where
  getName : Str
  probe : δ → ErrorCode × δ
  /-- The error code and the bytes stored in the caller's buffer. -/
  read : (lba count : Nat) → δ → (ErrorCode × List UInt8) × δ
  write : (buf : List UInt8) → (lba count : Nat) → δ → ErrorCode × δ
  getSectorSize : δ → Except ErrorCode Nat × δ
  getSectorCount : δ → Except ErrorCode Nat × δ

/-- `vfs::tools::MBRPartition`. -/
structure MBRPartition where
  physicalNumber : Nat := 0
  startSector : Nat := 0
  numSectors : Nat := 0
  bootable : Bool := false
  type : UInt8 := 0
  deriving DecidableEq, Repr

namespace Fdisk

/-! Offsets of `defs::offset`. -/

def mbrSignature : Nat := 0x1FE
def ptblStart : Nat := 0x1BE
def ptblActive : Nat := 0x000
def ptblType : Nat := 0x004
def ptblLba : Nat := 0x008
def ptblSectCnt : Nat := 0x00c
def ptblSize : Nat := 16
def mbrSignatureLo : UInt8 := 0x55
def mbrSignatureHi : UInt8 := 0xAA

/-- The byte at an offset. -/
def byteAt (buf : List UInt8) (offs : Nat) : UInt8 := buf.getD offs 0

/-- Four bytes, little-endian (`to_word`). -/
def toWord (buf : List UInt8) (offs : Nat) : Nat :=
  (byteAt buf offs).toNat + (byteAt buf (offs + 1)).toNat * 2 ^ 8
    + (byteAt buf (offs + 2)).toNat * 2 ^ 16 + (byteAt buf (offs + 3)).toNat * 2 ^ 24

/-- `is_extended`. -/
def isExtended (type : UInt8) : Bool := type = 0x85 ∨ type = 0x05 ∨ type = 0x0f

/-- One slot of the table. -/
def readSlot (buf : List UInt8) (offs : Nat) : MBRPartition where
  bootable := byteAt buf (ptblActive + offs) &&& 0x80 ≠ 0
  type := byteAt buf (ptblType + offs)
  numSectors := toWord buf (ptblSectCnt + offs)
  startSector := toWord buf (ptblLba + offs)

/-- The four slots (`read_partitions`). -/
def readPartitions (buf : List UInt8) : List MBRPartition :=
  (List.range 4).map fun i => readSlot buf (ptblStart + i * ptblSize)

/-- `validate_partition`. -/
def validatePartition (part : MBRPartition) (sectorSize sectorCount : Nat) : Bool :=
  let thisSize := sectorCount * sectorSize % 2 ^ 64
  let poffset := part.startSector * sectorSize % 2 ^ 64
  let psize := part.numSectors * sectorSize % 2 ^ 64
  let pnext := (part.startSector * sectorSize % 2 ^ 64 + poffset) % 2 ^ 64
  !((poffset + psize) % 2 ^ 64 > thisSize || pnext < part.startSector * sectorSize % 2 ^ 64)

/-- The slots that are listed, numbered by a counter that skips extended and invalid slots but
counts empty ones. -/
def collect (sectorSize sectorCount : Nat) : List MBRPartition → Nat → List MBRPartition
  | [], _ => []
  | part :: rest, partNo =>
    if isExtended part.type then collect sectorSize sectorCount rest partNo
    else if !validatePartition part sectorSize sectorCount then
      collect sectorSize sectorCount rest partNo
    else if part.numSectors ≠ 0 then
      { part with physicalNumber := partNo % 256 }
        :: collect sectorSize sectorCount rest (partNo + 1)
    else collect sectorSize sectorCount rest (partNo + 1)

/-- Neither byte of the signature is there. -/
def signatureMissing (mbr : List UInt8) : Bool :=
  byteAt mbr mbrSignature ≠ mbrSignatureLo && byteAt mbr (mbrSignature + 1) ≠ mbrSignatureHi

/-- `fetch_partitions`: an error, or what is appended to the entries. -/
def fetchPartitions (sectorSize sectorCount : Nat) (mbr : List UInt8) :
    Except ErrorCode (List MBRPartition) :=
  if signatureMissing mbr then .error ENXIO
  else .ok (collect sectorSize sectorCount (readPartitions mbr) 0)

/-- A zeroed buffer of the given size, overwritten by what was read. -/
def fillBuffer (size : Nat) (bytes : List UInt8) : List UInt8 :=
  bytes.take size ++ List.replicate (size - bytes.length) 0

/-- `get_partition_entries`: an error, or what is appended to the entries. -/
def getPartitionEntries {δ : Type} (dev : BlockDevice δ) (d : δ) :
    Except ErrorCode (List MBRPartition) × δ :=
  match dev.getSectorSize d with
  | (.error e, d) => (.error e, d)
  | (.ok sectorSize, d) =>
    match dev.getSectorCount d with
    | (.error e, d) => (.error e, d)
    | (.ok sectorCount, d) =>
      let ((e, bytes), d) := dev.read 0 1 d
      if e ≠ 0 then (.error e, d)
      else (fetchPartitions sectorSize sectorCount (fillBuffer sectorSize bytes), d)

end Fdisk
end Evfs
