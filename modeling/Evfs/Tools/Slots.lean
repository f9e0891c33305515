import Evfs.Tools.FdiskOutcome
import Evfs.Vfs.PartitionLookup

/-!
# The slots of a partition table

What the 16 bytes of a slot mean, apart from how the source reads them: four fields, the numbers with
the least byte first. `get_partition_entries` lists the slots that lie on the disk, and an entry that
was written means what it was made of, as far as 32 bits go.
-/

namespace Evfs
open Lib

namespace Fdisk

/-- The fields of a slot. -/
structure Slot where
  type : UInt8
  bootable : Bool
  start : Nat
  count : Nat
  deriving DecidableEq, Repr

/-- What the bytes of a slot mean. -/
def Slot.decode (bs : List UInt8) : Slot where
  type := bs.getD 4 0
  bootable := (bs.getD 0 0).toNat.testBit 7
  start := Bytes.ofLe ((bs.drop 8).take 4)
  count := Bytes.ofLe ((bs.drop 12).take 4)

/-- A slot of sector 0. -/
def slotOf (sector : List UInt8) (i : Nat) : Slot :=
  Slot.decode ((sector.drop (slotStart i)).take ptblSize)

/-- The table in sector 0. -/
def tableOf (sector : List UInt8) : List Slot := (List.range 4).map (slotOf sector)

/-- The signature is there, both bytes of it. -/
def Signed (sector : List UInt8) : Prop :=
  sector[mbrSignature]? = some mbrSignatureLo ∧ sector[mbrSignature + 1]? = some mbrSignatureHi

instance (sector : List UInt8) : Decidable (Signed sector) := inferInstanceAs (Decidable (_ ∧ _))

/-- The fields of an entry of the list. -/
def fields (part : MBRPartition) : Slot :=
  ⟨part.type, part.bootable, part.startSector, part.numSectors⟩

/-- The fields of a configuration. -/
def PartitionConf.fields (part : PartitionConf) : Slot :=
  ⟨part.type, part.bootable, part.startSector.toNat, part.numSectors.toNat⟩

/-- Bit 7 of a byte. -/
lemma and_0x80 (b : UInt8) : decide (b &&& 0x80 ≠ 0) = b.toNat.testBit 7 := by
  rw [Nat.testBit_eq_decide_div_mod_eq, decide_eq_decide, Ne, ← UInt8.toNat_inj, UInt8.toNat_and,
    show (0x80 : UInt8).toNat = (2 ^ 1 - 1) * 2 ^ 7 from rfl, Bytes.and_mask]
  show ¬ b.toNat / 2 ^ 7 % 2 ^ 1 * 2 ^ 7 = 0 ↔ b.toNat / 2 ^ 7 % 2 = 1
  omega

section slots
variable {pre slot post sector : List UInt8}

/-- A byte of the slot. -/
lemma byteAt_slot {k : Nat} (h : k < slot.length) :
    byteAt (pre ++ slot ++ post) (k + pre.length) = slot.getD k 0 := by
  rw [byteAt, List.getD_eq_getElem?_getD, Nat.add_comm, Bytes.getElem?_part h,
    ← List.getD_eq_getElem?_getD]

/-- The source reads a slot as it is meant. -/
lemma fields_readSlot (h : slot.length = ptblSize) :
    fields (readSlot (pre ++ slot ++ post) pre.length) = Slot.decode slot := by
  rw [ptblSize] at h
  have hb : ∀ k < 16, byteAt (pre ++ slot ++ post) (k + pre.length) = slot.getD k 0 :=
    fun k hk => byteAt_slot (by omega)
  have hw : ∀ k < 13, toWord (pre ++ slot ++ post) (k + pre.length) =
      Bytes.ofLe [slot.getD k 0, slot.getD (k + 1) 0, slot.getD (k + 2) 0, slot.getD (k + 3) 0] := by
    intro k hk
    rw [toWord, hb k (by omega), Nat.add_right_comm k pre.length 1, hb (k + 1) (by omega),
      Nat.add_right_comm k pre.length 2, hb (k + 2) (by omega), Nat.add_right_comm k pre.length 3,
      hb (k + 3) (by omega)]
    simp only [Bytes.ofLe_cons, show Bytes.ofLe [] = 0 from rfl]
    omega
  obtain ⟨c, rfl⟩ := exists_ofFn h
  rw [fields, readSlot, ptblActive, ptblType, ptblSectCnt, ptblLba, hb 0 (by omega),
    hb 4 (by omega), hw 12 (by omega), hw 8 (by omega), and_0x80]
  simp only [Slot.decode, List.ofFn_succ, List.ofFn_zero]
  rfl

/-- A sector around one of its slots. -/
lemma exists_slot_parts (hl : mbrSize ≤ sector.length) {i : Nat} (hi : i < 4) :
    ∃ pre slot post, sector = pre ++ slot ++ post ∧ pre.length = slotStart i ∧
      slot.length = ptblSize ∧ slotOf sector i = Slot.decode slot := by
  rw [mbrSize] at hl
  refine ⟨sector.take (slotStart i), (sector.drop (slotStart i)).take ptblSize,
    (sector.drop (slotStart i)).drop ptblSize, ?_, ?_, ?_, rfl⟩
  · rw [List.append_assoc, List.take_append_drop, List.take_append_drop]
  · rw [List.length_take, slotStart, ptblStart, ptblSize]
    omega
  · rw [List.length_take, List.length_drop, slotStart, ptblStart, ptblSize]
    omega

/-- The source reads the table of a sector. -/
lemma fields_readPartitions (hl : mbrSize ≤ sector.length) :
    (readPartitions sector).map fields = tableOf sector := by
  rw [readPartitions, tableOf, List.map_map]
  apply List.map_congr_left
  intro i hi
  obtain ⟨pre, slot, post, e, hp, hs, hd⟩ := exists_slot_parts hl (List.mem_range.mp hi)
  rw [hd, Function.comp_apply, show ptblStart + i * ptblSize = pre.length from hp.symm, e]
  exact fields_readSlot hs

/-- What a written entry means. -/
lemma decode_entryBytes (part : PartitionConf) :
    Slot.decode (entryBytes part) = ⟨part.type, part.bootable, part.startSector.toNat % 2 ^ 32,
      part.numSectors.toNat % 2 ^ 32⟩ := by
  have hstart : Bytes.ofLe (((entryBytes part).drop 8).take 4) = part.startSector.toNat % 2 ^ 32 := by
    have : ((entryBytes part).drop 8).take 4 = Bytes.toLe 4 part.startSector.toNat := by
      rw [entryBytes, toLe_toUInt32]
      rfl
    rw [this, Bytes.ofLe_toLe]
    rfl
  have hcount : Bytes.ofLe (((entryBytes part).drop 12).take 4) = part.numSectors.toNat % 2 ^ 32 := by
    have : ((entryBytes part).drop 12).take 4 = Bytes.toLe 4 part.numSectors.toNat := by
      rw [entryBytes, toLe_toUInt32, toLe_toUInt32]
      rfl
    rw [this, Bytes.ofLe_toLe]
    rfl
  have hboot : ((entryBytes part).getD 0 0).toNat.testBit 7 = part.bootable := by
    rw [show (entryBytes part).getD 0 0 = if part.bootable then 0x80 else 0x00 from rfl]
    cases part.bootable with
    | false => decide
    | true => decide
  rw [Slot.decode, hstart, hcount, hboot]
  rfl

end slots
end Fdisk
end Evfs
