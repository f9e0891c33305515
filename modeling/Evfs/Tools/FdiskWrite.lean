import Evfs.Lib.Bytes
import Evfs.Tools.Storage

/-!
# Writing partition tables

Port of the writing side of `lib/tools/fdisk.cpp`, with `validate_mbr`, and with
`get_partition_entries` a second time, now with the accesses to its buffer checked. All of them use a
buffer of 512 bytes but the last, which has one of the size that the device reports.
-/

namespace Evfs
open Lib

namespace Fdisk

/-! Offsets of `defs::offset` and sizes that only the writing side uses. -/

def ptblStartHead : Nat := 0x01
def ptblStartSec : Nat := 0x02
def ptblStartCyl : Nat := 0x03
def ptblEndHead : Nat := 0x05
def ptblEndSec : Nat := 0x06
def ptblEndCyl : Nat := 0x07
def mbrSize : Nat := 512

/-- `vfs::tools::fdisk::partition_conf`. -/
structure PartitionConf where
  physicalNumber : UInt8 := 0
  startSector : UInt64 := 0
  numSectors : UInt64 := 0
  type : UInt8 := 0
  bootable : Bool := false
  deriving DecidableEq, Repr

/-- A checked read of a byte of the sector buffer. -/
def load (buf : List UInt8) (offs : Nat) : Except BufferFault UInt8 := Bytes.load .index buf offs

/-- A checked store into the sector buffer. -/
def store (buf : List UInt8) (offs : Nat) (b : UInt8) : Except BufferFault (List UInt8) :=
  Bytes.store .index buf offs b

/-- The `to_word` that stores its value. -/
def toWordInto (buf : List UInt8) (offs : Nat) (val : UInt32) : Except BufferFault (List UInt8) := do
  let buf ← store buf offs val.toUInt8
  let val := val >>> 8
  let buf ← store buf (offs + 1) val.toUInt8
  let val := val >>> 8
  let buf ← store buf (offs + 2) val.toUInt8
  let val := val >>> 8
  store buf (offs + 3) val.toUInt8

/-! The address of a sector on a disk of 16 heads and 63 sectors per track. -/

def spt : UInt64 := 63
def hpc : UInt64 := 16

/-- The cylinder, cut off at 32 bits. -/
def cylinder (lba : UInt64) : UInt32 := (lba / spt / hpc).toUInt32

/-- The head. -/
def head (lba : UInt64) : UInt8 := (lba / spt % hpc).toUInt8

/-- The sector in its track. -/
def trackSector (lba : UInt64) : UInt8 := (lba % spt + 1).toUInt8

/-- The byte that the sector shares with two bits of the cylinder. -/
def sectorByte (lba : UInt64) : UInt8 :=
  ((cylinder lba >>> 2 &&& 0xC0) ||| (trackSector lba).toUInt32).toUInt8

/-- The stores of `write_partition_entry` into its buffer. -/
def storeEntry (part : PartitionConf) (mbr : List UInt8) : Except BufferFault (List UInt8) := do
  let buffer := ptblStart + part.physicalNumber.toNat * ptblSize
  let mbr ← store mbr (buffer + ptblActive) (if part.bootable then 0x80 else 0x00)
  let mbr ← store mbr (buffer + ptblType) part.type
  let mbr ← toWordInto mbr (buffer + ptblSectCnt) part.numSectors.toUInt32
  let mbr ← toWordInto mbr (buffer + ptblLba) part.startSector.toUInt32
  let start := part.startSector
  let mbr ← store mbr (buffer + ptblStartHead) (head start)
  let mbr ← store mbr (buffer + ptblStartSec) (sectorByte start)
  let mbr ← store mbr (buffer + ptblStartCyl) (cylinder start).toUInt8
  let last := part.startSector + part.numSectors - 1
  let mbr ← store mbr (buffer + ptblEndHead) (head last)
  let mbr ← store mbr (buffer + ptblEndSec) (sectorByte last)
  store mbr (buffer + ptblEndCyl) (cylinder last).toUInt8

/-! The functions of the reading side, their accesses checked. -/

namespace Checked

/-- The second byte is looked at only where the first is not that of the signature. -/
def signatureMissing (mbr : List UInt8) : Except BufferFault Bool := do
  if (← load mbr mbrSignature) ≠ mbrSignatureLo then
    return (← load mbr (mbrSignature + 1)) ≠ mbrSignatureHi
  else return false

def toWord (buf : List UInt8) (offs : Nat) : Except BufferFault Nat := do
  let b₀ ← load buf offs
  let b₁ ← load buf (offs + 1)
  let b₂ ← load buf (offs + 2)
  let b₃ ← load buf (offs + 3)
  return b₀.toNat + b₁.toNat * 2 ^ 8 + b₂.toNat * 2 ^ 16 + b₃.toNat * 2 ^ 24

def readSlot (buf : List UInt8) (offs : Nat) : Except BufferFault MBRPartition := do
  let active ← load buf (ptblActive + offs)
  let type ← load buf (ptblType + offs)
  let numSectors ← toWord buf (ptblSectCnt + offs)
  let startSector ← toWord buf (ptblLba + offs)
  return { bootable := active &&& 0x80 ≠ 0, type, numSectors, startSector }

def readPartitions (buf : List UInt8) : Except BufferFault (List MBRPartition) :=
  (List.range 4).mapM fun i => readSlot buf (ptblStart + i * ptblSize)

def fetchPartitions (sectorSize sectorCount : Nat) (mbr : List UInt8) :
    Except BufferFault (Except ErrorCode (List MBRPartition)) := do
  if ← signatureMissing mbr then return .error ENXIO
  return .ok (collect sectorSize sectorCount (← readPartitions mbr) 0)

def getPartitionEntries {δ : Type} (dev : Storage δ) (d : δ) :
    Except BufferFault (Except ErrorCode (List MBRPartition) × δ) :=
  match dev.getSectorSize d with
  | (.error e, d) => .ok (.error e, d)
  | (.ok sectorSize, d) =>
    match dev.getSectorCount d with
    | (.error e, d) => .ok (.error e, d)
    | (.ok sectorCount, d) => do
      let ((e, mbr), d) ← dev.readInto (List.replicate sectorSize 0) 0 1 d
      if e ≠ 0 then return (.error e, d)
      return (← fetchPartitions sectorSize sectorCount mbr, d)

end Checked

section operations
variable {δ : Type} (dev : Storage δ)

/-- `write_partition_entry` of one entry. -/
def writePartitionEntry (part : PartitionConf) (d : δ) : Except BufferFault (ErrorCode × δ) :=
  match dev.getSectorCount d with
  | (.error e, d) => .ok (e, d)
  | (.ok sectorCount, d) =>
    if part.numSectors = 0 then .ok (EINVAL, d)
    -- the difference wraps around where the partition starts behind the end
    else if UInt64.ofNat sectorCount - part.startSector < part.numSectors then .ok (EINVAL, d)
    else do
      let ((e, mbr), d) ← dev.readInto (List.replicate mbrSize 0) 0 1 d
      if e ≠ 0 then return (e, d)
      let mbr ← storeEntry part mbr
      dev.writeFrom mbr 0 1 d

/-- The entries one after another, up to the first error. -/
def writeInOrder : List PartitionConf → δ → Except BufferFault (ErrorCode × δ)
  | [], d => .ok (0, d)
  | entry :: entries, d => do
    let (ret, d) ← writePartitionEntry dev entry d
    if ret = 0 then writeInOrder entries d else return (ret, d)

/-- `write_partition_entry` of an array. -/
def writePartitionEntries (entries : Vector PartitionConf 4) (d : δ) :
    Except BufferFault (ErrorCode × δ) :=
  writeInOrder dev entries.toList d

/-- `validate_mbr`. -/
def validateMbr (d : δ) : Except BufferFault (ErrorCode × δ) := do
  let ((e, mbr), d) ← dev.readInto (List.replicate mbrSize 0) 0 1 d
  if e ≠ 0 then return (e, d)
  if ← Checked.signatureMissing mbr then return ( ENXIO, d)
  return (0, d)

/-- `erase_mbr`. -/
def eraseMbr (d : δ) : Except BufferFault (ErrorCode × δ) :=
  dev.writeFrom (List.replicate mbrSize 0) 0 1 d

/-- `create_mbr`. -/
def createMbr (d : δ) : Except BufferFault (ErrorCode × δ) := do
  let mbr ← store (List.replicate mbrSize 0) mbrSignature mbrSignatureLo
  let mbr ← store mbr (mbrSignature + 1) mbrSignatureHi
  dev.writeFrom mbr 0 1 d

end operations
end Fdisk
end Evfs
