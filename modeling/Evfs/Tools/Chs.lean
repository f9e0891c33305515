import Evfs.Lib.MixedRadix
import Evfs.Tools.FdiskOutcome

/-!
# Addresses of cylinder, head and sector

The six bytes of a slot that no reader of the repository looks at. On a disk of 16 heads and 63
sectors per track, the addresses that `write_partition_entry` stores are those of the first and the
last sector of the partition, the cylinder cut off at ten bits.
-/

namespace Evfs
open Lib

namespace Fdisk

/-- The address of a sector. -/
@[ext]
structure Chs where
  cylinder : Nat
  head : Nat
  sector : Nat
  cylinder_lt : cylinder < 1024
  head_lt : head < 16
  sector_pos : 1 ≤ sector
  sector_le : sector ≤ 63
  deriving DecidableEq, Repr

namespace Chs

/-- The number of the sector, counted over all heads and cylinders. -/
def toLba (a : Chs) : Nat := (a.cylinder * 16 + a.head) * 63 + (a.sector - 1)

/-- The sectors of a track, the heads and the cylinders. -/
def bases : List Nat := [63, 16, 1024]

/-- The address of a sector, as far as ten bits of the cylinder go. -/
def ofLba (n : Nat) : Chs where
  cylinder := n / 63 / 16 % 1024
  head := n / 63 % 16
  sector := n % 63 + 1
  cylinder_lt := Nat.mod_lt _ (by decide)
  head_lt := Nat.mod_lt _ (by decide)
  sector_pos := Nat.succ_pos _
  sector_le := Nat.mod_lt n (by decide)

/-- The three bytes of an address, if they are one: the high bits of the cylinder stand above the six
bits of the sector. -/
def ofBytes (head sector cylinder : UInt8) : Option Chs :=
  if h : head.toNat < 16 ∧ 1 ≤ sector.toNat % 64 then
    some {
      cylinder := sector.toNat / 64 * 256 + cylinder.toNat
      head := head.toNat
      sector := sector.toNat % 64
      cylinder_lt := by
        have hs := sector.toNat_lt
        have hc := cylinder.toNat_lt
        omega
      head_lt := h.1
      sector_pos := h.2
      sector_le := by omega }
  else none

/-- The address that starts at an offset. -/
def read (buf : List UInt8) (offs : Nat) : Option Chs := do
  let head ← buf[offs]?
  let sector ← buf[offs + 1]?
  let cylinder ← buf[offs + 2]?
  ofBytes head sector cylinder

/-- The address of a CHS triple is its value in mixed radix. -/
lemma toLba_eq_value (a : Chs) :
    a.toLba = MixedRadix.value bases [a.sector - 1, a.head, a.cylinder] := by
  simp only [toLba, bases, MixedRadix.value]
  omega

/-- An address leads back to the sector, as far as addresses go. -/
lemma toLba_ofLba (n : Nat) : (ofLba n).toLba = n % (1024 * 16 * 63) := by
  have h : MixedRadix.digits bases n = [(ofLba n).sector - 1, (ofLba n).head,
      (ofLba n).cylinder] := rfl
  rw [toLba_eq_value, ← h, MixedRadix.value_digits]
  rfl

end Chs

/-! ## The bytes that are stored -/

section bytes
variable (lba : UInt64)

/-- The head of an address. -/
lemma head_toNat : (head lba).toNat = lba.toNat / 63 % 16 := by
  rw [head, UInt64.toNat_toUInt8, UInt64.toNat_mod, UInt64.toNat_div]
  exact Nat.mod_eq_of_lt (lt_trans (Nat.mod_lt _ (by decide)) (by decide))

/-- The sector in the track. -/
lemma trackSector_toNat : (trackSector lba).toNat = lba.toNat % 63 + 1 := by
  have h : lba.toNat % 63 < 63 := Nat.mod_lt _ (by decide)
  rw [trackSector, UInt64.toNat_toUInt8, UInt64.toNat_add, UInt64.toNat_mod]
  show (lba.toNat % 63 + 1) % 2 ^ 64 % 2 ^ 8 = lba.toNat % 63 + 1
  omega

/-- The cylinder. -/
lemma cylinder_toNat : (cylinder lba).toNat = lba.toNat / 63 / 16 % 2 ^ 32 := by
  rw [cylinder, UInt64.toNat_toUInt32, UInt64.toNat_div, UInt64.toNat_div]
  rfl

/-- Bits 8 and 9 of the cylinder, where they stand in the shared byte. -/
lemma highBits_toNat :
    (cylinder lba >>> 2 &&& 0xC0).toNat = lba.toNat / 63 / 16 / 256 % 4 * 2 ^ 6 := by
  have h : (cylinder lba >>> 2).toNat = (cylinder lba).toNat / 4 := by
    rw [UInt32.toNat_shiftRight, Nat.shiftRight_eq_div_pow]
    rfl
  rw [UInt32.toNat_and, h, show (0xC0 : UInt32).toNat = (2 ^ 2 - 1) * 2 ^ 6 from rfl,
    Bytes.and_mask, cylinder_toNat]
  omega

/-- The two parts of the shared byte have no bit in common. -/
lemma highBits_and_trackSector :
    (cylinder lba >>> 2 &&& 0xC0) &&& (trackSector lba).toUInt32 = 0 := by
  have hs : (trackSector lba).toUInt32.toNat < 2 ^ 6 := by
    rw [UInt8.toNat_toUInt32, trackSector_toNat]
    omega
  apply UInt32.toNat_inj.mp
  rw [UInt32.toNat_and, highBits_toNat]
  exact Bytes.and_low _ hs

/-- The byte with the sector and the cylinder's two upper bits. -/
lemma sectorByte_toNat :
    (sectorByte lba).toNat = lba.toNat / 63 / 16 / 256 % 4 * 2 ^ 6 + (lba.toNat % 63 + 1) := by
  have hs : lba.toNat % 63 + 1 < 2 ^ 6 := by omega
  rw [sectorByte, UInt32.toNat_toUInt8, UInt32.toNat_or, highBits_toNat, UInt8.toNat_toUInt32,
    trackSector_toNat, Bytes.or_low _ hs]
  omega

/-- The three bytes of a sector are its address. -/
lemma ofBytes_stored :
    Chs.ofBytes (head lba) (sectorByte lba) (cylinder lba).toUInt8 =
      some (Chs.ofLba lba.toNat) := by
  have hh := head_toNat lba
  have hs := sectorByte_toNat lba
  have hc : (cylinder lba).toUInt8.toNat = lba.toNat / 63 / 16 % 256 := by
    rw [UInt32.toNat_toUInt8, cylinder_toNat]
    omega
  have hvalid : (head lba).toNat < 16 ∧ 1 ≤ (sectorByte lba).toNat % 64 := by omega
  rw [Chs.ofBytes, dif_pos hvalid]
  simp only [Chs.ofLba, Option.some.injEq, Chs.mk.injEq]
  omega

end bytes

/-! ## The addresses in a slot -/

/-- The bytes at an offset are the address of a sector, as far as ten bits of the cylinder go. -/
def HoldsAddress (buf : List UInt8) (offs lba : Nat) : Prop :=
  ∃ a, Chs.read buf offs = some a ∧ a.toLba = lba % (1024 * 16 * 63)

/-- A slot has the addresses of the first and the last sector of its partition. -/
def HoldsAddresses (part : PartitionConf) (buf : List UInt8) : Prop :=
  HoldsAddress buf (slotStart part.physicalNumber.toNat + ptblStartHead)
      part.startSector.toNat ∧
    HoldsAddress buf (slotStart part.physicalNumber.toNat + ptblEndHead)
      (part.startSector.toNat + part.numSectors.toNat - 1)

section addresses
variable {buf : List UInt8} {part : PartitionConf}

/-- Three bytes that hold the address. -/
lemma holdsAddress_of_stored {offs : Nat} {lba : UInt64} (hh : buf[offs]? = some (head lba))
    (hs : buf[offs + 1]? = some (sectorByte lba))
    (hc : buf[offs + 2]? = some (cylinder lba).toUInt8) : HoldsAddress buf offs lba.toNat := by
  refine ⟨Chs.ofLba lba.toNat, ?_, Chs.toLba_ofLba _⟩
  rw [Chs.read, hh, hs, hc]
  exact ofBytes_stored lba

/-- The last sector, which no partition of a disk has behind `2 ^ 64`. -/
lemma last_toNat (h₀ : 0 < part.numSectors.toNat)
    (h : part.startSector.toNat + part.numSectors.toNat < 2 ^ 64) :
    (part.startSector + part.numSectors - 1).toNat =
      part.startSector.toNat + part.numSectors.toNat - 1 := by
  rw [UInt64.toNat_sub, UInt64.toNat_add]
  show (2 ^ 64 - 1 + (part.startSector.toNat + part.numSectors.toNat) % 2 ^ 64) % 2 ^ 64 = _
  omega

/-- The bytes of the entry have both addresses. -/
lemma holdsAddresses_of_entry (h₀ : 0 < part.numSectors.toNat)
    (h : part.startSector.toNat + part.numSectors.toNat < 2 ^ 64)
    (hb : ∀ k < ptblSize,
      buf[slotStart part.physicalNumber.toNat + k]? = (entryBytes part)[k]?) :
    HoldsAddresses part buf := by
  constructor
  · exact holdsAddress_of_stored (hb 1 (by decide)) (hb 2 (by decide)) (hb 3 (by decide))
  · rw [← last_toNat h₀ h]
    exact holdsAddress_of_stored (hb 5 (by decide)) (hb 6 (by decide)) (hb 7 (by decide))

/-- The bytes of the entry in the buffer that was stored into. -/
lemma getElem?_storeEntry {mbr mbr' : List UInt8} (hl : mbr.length = mbrSize)
    (h : storeEntry part mbr = .ok mbr') {k : Nat} (hk : k < ptblSize) :
    mbr'[slotStart part.physicalNumber.toNat + k]? = (entryBytes part)[k]? := by
  cases Nat.lt_or_ge part.physicalNumber.toNat 4 with
  | inl hn =>
    rw [storeEntry_ok hl hn] at h
    cases h
    exact Bytes.getElem?_patch_inside (slot_fits hn (length_entryBytes part) (le_of_eq hl.symm))
      (by rwa [length_entryBytes])
  | inr hn =>
    rw [storeEntry_index hl hn] at h
    cases h

/-- The bytes of the entry in sector 0, where it reaches behind the slot. -/
lemma getElem?_withEntry_slot {sector : List UInt8} (hn : part.physicalNumber.toNat < 4)
    (hl : slotStart part.physicalNumber.toNat + ptblSize ≤ sector.length) {k : Nat}
    (hk : k < ptblSize) : (withEntry part sector)[slotStart part.physicalNumber.toNat + k]? =
      (entryBytes part)[k]? := by
  rw [withEntry, List.getElem?_take_of_lt (by omega)]
  exact Bytes.getElem?_patch_inside (entry_fits sector hn) (by rwa [length_entryBytes])

/-- The addresses that are stored are those of the first and the last sector of the partition, in the
buffer and, after a write that succeeded, in sector 0; and no cylinder gets into the sector. -/
theorem holdsAddresses_stored {sectorCount : UInt64} (h₀ : 0 < part.numSectors.toNat)
    (hfit : part.startSector.toNat + part.numSectors.toNat ≤ sectorCount.toNat) :
    (∀ mbr mbr', mbr.length = mbrSize → storeEntry part mbr = .ok mbr' →
        HoldsAddresses part mbr') ∧
      (∀ {δ : Type} (dev : Storage δ) (d d' : δ), dev.sectorCount = sectorCount →
        slotStart part.physicalNumber.toNat + ptblSize ≤ dev.sectorSize →
        writePartitionEntry dev part d = .ok (0, d') →
        HoldsAddresses part (dev.sectors d' 0)) ∧
      ∀ lba, (cylinder lba >>> 2 &&& 0xC0) &&& (trackSector lba).toUInt32 = 0 := by
  have h := lt_of_le_of_lt hfit sectorCount.toNat_lt
  refine ⟨?_, ?_, highBits_and_trackSector⟩
  · intro mbr mbr' hl hs
    exact holdsAddresses_of_entry h₀ h fun k hk => getElem?_storeEntry hl hs hk
  · intro δ dev d d' _ hsize hw
    obtain ⟨hne, -⟩ | ⟨-, -, -, hn, hd⟩ := writePartitionEntry_effect hw
    · exact absurd rfl hne
    · apply holdsAddresses_of_entry h₀ h
      intro k hk
      rw [hd, Function.update_self]
      exact getElem?_withEntry_slot hn (by rwa [dev.length_sectors]) hk

end addresses

/-- A partition that starts at the first sector behind the last address. -/
def behindAddresses : PartitionConf := ⟨1, 1032192, 1000, 0x83, false⟩

/-- An entry from behind the largest CHS address. -/
theorem holdsAddresses_behindAddresses :
    ∃ d', writePartitionEntry (Storage.ram 512 0x200000) behindAddresses
        (Storage.Ram.holding 512 []) = .ok (0, d') ∧
      HoldsAddresses behindAddresses ((Storage.ram 512 0x200000).sectors d' 0) := by
  obtain ⟨d', hw, -⟩ := writePartitionEntry_written (d := Storage.Ram.holding 512 [])
    (Storage.ram_reliable : (Storage.ram 512 0x200000).Reliable)
    (show Accepted _ behindAddresses by decide) (le_refl _) (by decide)
  have h₀ : 0 < behindAddresses.numSectors.toNat := by decide
  have hfit : behindAddresses.startSector.toNat + behindAddresses.numSectors.toNat ≤
      (0x200000 : UInt64).toNat := by decide
  have hsize : slotStart behindAddresses.physicalNumber.toNat + ptblSize ≤
      (Storage.ram 512 0x200000).sectorSize := by
    show 446 + 1 * 16 + 16 ≤ 512
    decide
  exact ⟨d', hw, (holdsAddresses_stored h₀ hfit).2.1 _ _ _ rfl hsize hw⟩

end Fdisk
end Evfs
