import Evfs.Tools.Slots

/-!
# Listing a partition table

`get_partition_entries` lists, in order, the slots of a signed table that are used, not extended and
on the disk. The products of the source's check stay below `2 ^ 64` on every disk whose size does,
so the check is the comparison in sectors, and its test for going backward rejects nothing.
-/

namespace Evfs
open Lib

namespace Fdisk

/-- A slot that is worth listing. -/
def Slot.Usable (sectorCount : Nat) (slot : Slot) : Prop :=
  slot.type ∉ [0x05, 0x0F, 0x85] ∧ slot.count ≠ 0 ∧ slot.start + slot.count ≤ sectorCount

instance (sectorCount : Nat) (slot : Slot) : Decidable (slot.Usable sectorCount) :=
  inferInstanceAs (Decidable (_ ∧ _ ∧ _))

/-- The types that are not extended. -/
lemma isExtended_eq_false {type : UInt8} : isExtended type = false ↔ type ∉ [0x05, 0x0F, 0x85] := by
  simp only [isExtended, decide_eq_false_iff_not, List.mem_cons, List.not_mem_nil, or_false]
  tauto

/-- The fields of a slot that was read are below `2 ^ 32`. -/
lemma toWord_lt (buf : List UInt8) (offs : Nat) : toWord buf offs < 2 ^ 32 := by
  have h₀ := (byteAt buf offs).toNat_lt
  have h₁ := (byteAt buf (offs + 1)).toNat_lt
  have h₂ := (byteAt buf (offs + 2)).toNat_lt
  have h₃ := (byteAt buf (offs + 3)).toNat_lt
  unfold toWord
  omega

section listing
variable {sectorSize sectorCount : Nat} {part : MBRPartition}

/-- Nothing that is computed from the slot wraps around, so the end never lies before the start. -/
lemma validatePartition_eq_true (hs : sectorSize ≤ 2 ^ 31) (hp : part.startSector < 2 ^ 32)
    (hn : part.numSectors < 2 ^ 32) :
    validatePartition part sectorSize sectorCount = true ↔
      (part.startSector + part.numSectors) * sectorSize ≤ sectorCount * sectorSize % 2 ^ 64 := by
  have hstart : part.startSector * sectorSize < 2 ^ 63 :=
    lt_of_lt_of_le (Nat.mul_lt_mul_of_lt_of_le hp hs (by decide)) (by decide)
  have hnum : part.numSectors * sectorSize < 2 ^ 63 :=
    lt_of_lt_of_le (Nat.mul_lt_mul_of_lt_of_le hn hs (by decide)) (by decide)
  rw [validatePartition, Nat.add_mul]
  generalize part.startSector * sectorSize = start at hstart ⊢
  generalize part.numSectors * sectorSize = num at hnum ⊢
  simp only [Bool.not_eq_true', Bool.or_eq_false_iff, decide_eq_false_iff_not]
  omega

/-- The check in bytes is the check in sectors. -/
lemma validatePartition_iff (h₀ : 0 < sectorSize) (hs : sectorSize ≤ 2 ^ 31)
    (hc : sectorSize * sectorCount < 2 ^ 64) (hp : part.startSector < 2 ^ 32)
    (hn : part.numSectors < 2 ^ 32) :
    validatePartition part sectorSize sectorCount = true ↔
      part.startSector + part.numSectors ≤ sectorCount := by
  rw [validatePartition_eq_true hs hp hn, Nat.mod_eq_of_lt (by rwa [Nat.mul_comm])]
  exact Nat.mul_le_mul_right_iff h₀

/-- On a disk of up to 2^64 bytes, the listed slots are the usable ones. -/
lemma listed_iff (h₀ : 0 < sectorSize) (hs : sectorSize ≤ 2 ^ 31)
    (hc : sectorSize * sectorCount < 2 ^ 64) (hp : part.startSector < 2 ^ 32)
    (hn : part.numSectors < 2 ^ 32) :
    Listed sectorSize sectorCount part ↔ (fields part).Usable sectorCount := by
  rw [Listed, Counted, isExtended_eq_false, validatePartition_iff h₀ hs hc hp hn, Slot.Usable,
    fields]
  tauto

/-- What is collected has the fields of the listed slots. -/
lemma map_fields_collect (slots : List MBRPartition) (n : Nat) :
    (collect sectorSize sectorCount slots n).map fields =
      (slots.filter fun p => Listed sectorSize sectorCount p).map fields := by
  induction slots generalizing n with
  | nil => rfl
  | cons p slots ih =>
    by_cases hl : Listed sectorSize sectorCount p
    · rw [collect_listed hl, List.filter_cons_of_pos (by simpa using hl), List.map_cons,
        List.map_cons, ih]
      rfl
    · rw [List.filter_cons_of_neg (by simpa using hl)]
      by_cases hc : Counted sectorSize sectorCount p
      · rw [collect_counted hc hl, ih]
      · rw [collect_skipped hc, ih]

/-- The collected entries of a table are its usable slots. -/
lemma map_fields_collect_table {sector : List UInt8} (hl : mbrSize ≤ sector.length)
    (h₀ : 0 < sectorSize) (hs : sectorSize ≤ 2 ^ 31) (hc : sectorSize * sectorCount < 2 ^ 64) :
    (collect sectorSize sectorCount (readPartitions sector) 0).map fields =
      (tableOf sector).filter fun slot => slot.Usable sectorCount := by
  rw [map_fields_collect, ← fields_readPartitions hl, List.filter_map]
  congr 1
  apply List.filter_congr
  intro p hp
  obtain ⟨i, -, rfl⟩ := List.mem_map.mp hp
  rw [Function.comp_apply, decide_eq_decide]
  exact listed_iff h₀ hs hc (toWord_lt _ _) (toWord_lt _ _)

end listing

/-- A byte inside the buffer. -/
lemma byteAt_eq_iff {buf : List UInt8} {offs : Nat} {b : UInt8} (h : offs < buf.length) :
    byteAt buf offs = b ↔ buf[offs]? = some b := by
  rw [byteAt, List.getD_eq_getElem?_getD, List.getElem?_eq_getElem h]
  exact (Option.some_inj).symm

/-- The test passes a signed sector. -/
lemma signatureMissing_of_signed {sector : List UInt8} (h : Signed sector) :
    signatureMissing sector = false := by
  have hl := (List.getElem?_eq_some_iff.mp h.1).1
  rw [signatureMissing, (byteAt_eq_iff hl).mpr h.1]
  simp

section devices
variable {δ : Type} {dev : Storage δ} {d : δ}

/-- `get_partition_entries` of a readable device. -/
lemma getPartitionEntries_of_readable (h : dev.Readable d) :
    getPartitionEntries dev.toBlockDevice d =
      (fetchPartitions dev.sectorSize dev.sectorCount.toNat (dev.sectors d 0),
        (dev.read 0 1 d).2) := by
  have hb := dev.read_ok 0 d h.read
  unfold getPartitionEntries
  simp only [h.getSectorSize, h.getSectorCount]
  rw [if_neg (not_not.mpr h.read), hb]
  have hf := fillBuffer_self (dev.sectors d 0)
  rw [dev.length_sectors] at hf
  rw [hf]

/-- With a signature, the listed slots are returned. -/
lemma getPartitionEntries_of_present (h : dev.Readable d)
    (hm : signatureMissing (dev.sectors d 0) = false) :
    getPartitionEntries dev.toBlockDevice d = (.ok (collect dev.sectorSize dev.sectorCount.toNat
      (readPartitions (dev.sectors d 0)) 0), (dev.read 0 1 d).2) := by
  rw [getPartitionEntries_of_readable h, fetchPartitions, hm]
  rfl

/-- A signed sector has one. -/
lemma getPartitionEntries_of_signed (h : dev.Readable d) (hsig : Signed (dev.sectors d 0)) :
    getPartitionEntries dev.toBlockDevice d = (.ok (collect dev.sectorSize dev.sectorCount.toNat
      (readPartitions (dev.sectors d 0)) 0), (dev.read 0 1 d).2) :=
  getPartitionEntries_of_present h (signatureMissing_of_signed hsig)

/-- `get_partition_entries` lists the usable slots of a signed table, in order, and each of them lies
on the disk. -/
theorem getPartitionEntries_usable (h : dev.Readable d) (hmin : 512 ≤ dev.sectorSize)
    (hmax : dev.sectorSize ≤ 2 ^ 31) (hfit : dev.sectorSize * dev.sectorCount.toNat < 2 ^ 64)
    (hsig : Signed (dev.sectors d 0)) :
    ∃ entries d', getPartitionEntries dev.toBlockDevice d = (.ok entries, d') ∧
      entries.map fields =
        ((tableOf (dev.sectors d 0)).filter fun slot => slot.Usable dev.sectorCount.toNat) ∧
      ∀ e ∈ entries, e.startSector + e.numSectors ≤ dev.sectorCount.toNat := by
  have hm : mbrSize ≤ (dev.sectors d 0).length := by rwa [dev.length_sectors]
  have hmap := map_fields_collect_table hm (by omega) hmax hfit
  refine ⟨_, (dev.read 0 1 d).2, getPartitionEntries_of_signed h hsig, hmap, ?_⟩
  intro e he
  have hmem := List.mem_map_of_mem (f := fields) he
  rw [hmap, List.mem_filter, decide_eq_true_eq] at hmem
  exact hmem.2.2.2

end devices

/-- A signed sector with the given table. -/
def signedSector (table : List UInt8) : List UInt8 :=
  List.replicate ptblStart 0 ++ table ++ [mbrSignatureLo, mbrSignatureHi]

/-- Two of the slots are usable, one is extended and one is too large. -/
def mixedTable : List UInt8 :=
  Disk.slotBytes 0x05 1 10 ++ Disk.slotBytes 0x83 1 10 ++ Disk.slotBytes 0x83 100 100 ++
    Disk.slotBytes 0x0C 11 117

/-- The partitions of a table with unusable slots. -/
theorem getPartitionEntries_mixedTable :
    ∃ entries d', getPartitionEntries (Storage.ram 512 128).toBlockDevice
        (Storage.Ram.holding 512 (signedSector mixedTable)) = (.ok entries, d') ∧
      entries.map fields = [⟨0x83, false, 1, 10⟩, ⟨0x0C, false, 11, 117⟩] ∧
      ∀ e ∈ entries, e.startSector + e.numSectors ≤ 128 := by
  have hr : (Storage.ram 512 128).Readable (Storage.Ram.holding 512 (signedSector mixedTable)) :=
    Storage.ram_readable _
  obtain ⟨entries, d', h₁, h₂, h₃⟩ := getPartitionEntries_usable hr (by decide) (by decide)
    (by decide) (by decide +kernel)
  exact ⟨entries, d', h₁, h₂.trans (by decide +kernel), h₃⟩
end Fdisk
end Evfs
