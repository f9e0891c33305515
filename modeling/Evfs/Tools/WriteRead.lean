import Evfs.Tools.Listing

/-!
# Writing an entry and reading it

An entry that was written is listed with its fields exactly when these fit into 32 bits and the size
of the disk in bytes, taken modulo `2 ^ 64`, still covers it. An entry that was read is written back
into its own slot exactly when every slot before it was counted.
-/

namespace Evfs
open Lib

namespace Fdisk

section tables
variable {sector bs : List UInt8} {part : PartitionConf}

/-- Writing into a slot changes that slot only. -/
lemma slotOf_patch {n i : Nat} (hl : sector.length = mbrSize) (hb : bs.length = ptblSize)
    (hn : n < 4) :
    slotOf (Bytes.patch sector (slotStart n) bs) i =
      if i = n then Slot.decode bs else slotOf sector i := by
  have hfit : slotStart n + bs.length ≤ sector.length := slot_fits hn hb (le_of_eq hl.symm)
  rw [ptblSize] at hb
  split
  · rename_i e
    subst e
    rw [slotOf]
    congr 1
    apply List.ext_getElem?
    intro k
    rw [List.getElem?_take, List.getElem?_drop, ptblSize]
    split
    · exact Bytes.getElem?_patch_inside hfit (by omega)
    · exact (List.getElem?_eq_none (by omega)).symm
  · rename_i e
    rw [slotOf, slotOf]
    congr 1
    apply List.ext_getElem?
    intro k
    rw [List.getElem?_take, List.getElem?_drop, List.getElem?_take, List.getElem?_drop, ptblSize]
    split
    · apply Bytes.getElem?_patch_outside hfit
      rw [hb, slotStart, slotStart, ptblStart, ptblSize]
      omega
    · rfl

/-- The signature lies behind the table. -/
lemma signed_patch {n : Nat} (hl : sector.length = mbrSize) (hb : bs.length = ptblSize)
    (hn : n < 4) : Signed (Bytes.patch sector (slotStart n) bs) ↔ Signed sector := by
  have hfit : slotStart n + bs.length ≤ sector.length := slot_fits hn hb (le_of_eq hl.symm)
  have hout : ∀ k, mbrSignature ≤ k → (Bytes.patch sector (slotStart n) bs)[k]? = sector[k]? := by
    intro k hk
    apply Bytes.getElem?_patch_outside hfit
    rw [hb]
    exact .inr ((slotStart_le hn).trans hk)
  rw [Signed, Signed, hout _ (le_refl _), hout _ (Nat.le_succ _)]

/-- In a sector of 512 bytes nothing is cut off. -/
lemma withEntry_eq (hl : sector.length = mbrSize) (hn : part.physicalNumber.toNat < 4) :
    withEntry part sector =
      Bytes.patch sector (slotStart part.physicalNumber.toNat) (entryBytes part) := by
  have hfit : slotStart part.physicalNumber.toNat + (entryBytes part).length ≤ sector.length :=
    slot_fits hn (length_entryBytes part) (le_of_eq hl.symm)
  rw [withEntry, ← hl, fillBuffer_self]
  apply List.take_of_length_le
  rw [Bytes.length_patch hfit]

/-- The table after an entry was written. -/
lemma slotOf_withEntry {i : Nat} (hl : sector.length = mbrSize)
    (hn : part.physicalNumber.toNat < 4) :
    slotOf (withEntry part sector) i = if i = part.physicalNumber.toNat then
      ⟨part.type, part.bootable, part.startSector.toNat % 2 ^ 32, part.numSectors.toNat % 2 ^ 32⟩
    else slotOf sector i := by
  rw [withEntry_eq hl hn, slotOf_patch hl (length_entryBytes part) hn, decode_entryBytes]

end tables

/-- The entry at a position of the list is the one read from a slot. -/
def ReadFrom (sectorSize sectorCount : Nat) (slots : List MBRPartition) (i k : Nat) : Prop :=
  ∃ pre slot post, slots = pre ++ slot :: post ∧ pre.length = i ∧
    Listed sectorSize sectorCount slot ∧
    (pre.filter fun p => Listed sectorSize sectorCount p).length = k

section readFrom
variable {sectorSize sectorCount : Nat} {slots : List MBRPartition} {i k : Nat} {e : MBRPartition}

/-- The entry read from a slot has its fields, and is numbered by the slots counted before it. -/
lemma ReadFrom.getElem? (h : ReadFrom sectorSize sectorCount slots i k) :
    ∃ slot, slots[i]? = some slot ∧ Listed sectorSize sectorCount slot ∧
      (collect sectorSize sectorCount slots 0)[k]? = some { slot with physicalNumber :=
        ((slots.take i).filter fun p => Counted sectorSize sectorCount p).length % 256 } := by
  obtain ⟨pre, slot, post, rfl, rfl, hl, rfl⟩ := h
  refine ⟨slot, ?_, hl, ?_⟩
  · rw [List.getElem?_append_right (le_refl _), Nat.sub_self]
    rfl
  · rw [collect_getElem 0 hl, List.take_left, Nat.zero_add]

/-- Every listed slot is read. -/
lemma exists_readFrom {slot : MBRPartition} (hi : slots[i]? = some slot)
    (hl : Listed sectorSize sectorCount slot) : ∃ k, ReadFrom sectorSize sectorCount slots i k := by
  obtain ⟨hlt, he⟩ := List.getElem?_eq_some_iff.mp hi
  refine ⟨_, slots.take i, slot, slots.drop (i + 1), ?_, ?_, hl, rfl⟩
  · rw [← he, ← List.drop_eq_getElem_cons hlt, List.take_append_drop]
  · rw [List.length_take]
    omega

end readFrom

section readTables
variable {sector : List UInt8} {i : Nat}

/-- The slot that the source reads, and what it means. -/
lemma readPartitions_getElem? (hi : i < 4) :
    (readPartitions sector)[i]? = some (readSlot sector (slotStart i)) := by
  rw [readPartitions, List.getElem?_map, List.getElem?_range hi]
  rfl

/-- The fields of a slot are read from its bytes. -/
lemma fields_readSlot_slotOf (hl : mbrSize ≤ sector.length) (hi : i < 4) :
    fields (readSlot sector (slotStart i)) = slotOf sector i := by
  obtain ⟨pre, slot, post, e, hp, hs, hd⟩ := exists_slot_parts hl hi
  rw [hd, ← hp, e]
  exact fields_readSlot hs

end readTables

section devices
variable {δ : Type} {dev : Storage δ} {part : PartitionConf} {d d' : δ}

/-- What was written with success is listed, with its fields, for the slot it was written to. -/
def WriteThenRead (sectorCount : UInt64) (part : PartitionConf) : Prop :=
  ∀ {δ : Type} (dev : Storage δ) (d d' : δ), dev.sectorSize = 512 →
    dev.sectorCount = sectorCount → Signed (dev.sectors d 0) →
    writePartitionEntry dev part d = .ok (0, d') → dev.Readable d' →
    ∃ entries d'', getPartitionEntries dev.toBlockDevice d' = (.ok entries, d'') ∧
      ∃ k e, ReadFrom 512 sectorCount.toNat (readPartitions (dev.sectors d' 0))
        part.physicalNumber.toNat k ∧ entries[k]? = some e ∧ fields e = part.fields

/-- The fields of a slot that has just been written. -/
lemma fields_written (h : dev.sectorSize = 512) (hn : part.physicalNumber.toNat < 4)
    (hd : dev.sectors d' = Function.update (dev.sectors d) 0 (withEntry part (dev.sectors d 0))) :
    fields (readSlot (dev.sectors d' 0) (slotStart part.physicalNumber.toNat)) =
      ⟨part.type, part.bootable, part.startSector.toNat % 2 ^ 32,
        part.numSectors.toNat % 2 ^ 32⟩ := by
  have hlen : ∀ d, (dev.sectors d 0).length = mbrSize := by
    intro d
    rw [dev.length_sectors, h]
    rfl
  rw [fields_readSlot_slotOf (le_of_eq (hlen d').symm) hn, hd, Function.update_self,
    slotOf_withEntry (hlen d) hn, if_pos rfl]

/-- What becomes of an entry that was written: it is listed if the reader's check lets it pass, with
what is left of its fields. -/
lemma readFrom_written (h : dev.sectorSize = 512) (hn : part.physicalNumber.toNat < 4)
    (hd : dev.sectors d' = Function.update (dev.sectors d) 0 (withEntry part (dev.sectors d 0)))
    {k : Nat} {e : MBRPartition}
    (hf : ReadFrom 512 dev.sectorCount.toNat (readPartitions (dev.sectors d' 0))
      part.physicalNumber.toNat k)
    (hk : (collect 512 dev.sectorCount.toNat (readPartitions (dev.sectors d' 0)) 0)[k]? = some e) :
    fields e = ⟨part.type, part.bootable, part.startSector.toNat % 2 ^ 32,
        part.numSectors.toNat % 2 ^ 32⟩ ∧
      Listed 512 dev.sectorCount.toNat
        (readSlot (dev.sectors d' 0) (slotStart part.physicalNumber.toNat)) := by
  obtain ⟨slot, hs, hl, he⟩ := hf.getElem?
  rw [readPartitions_getElem? hn, Option.some_inj] at hs
  subst hs
  rw [hk, Option.some_inj] at he
  refine ⟨?_, hl⟩
  rw [← fields_written h hn hd, he]
  rfl

/-- Writing an entry keeps the signature. -/
lemma signed_written (h : dev.sectorSize = 512) (hn : part.physicalNumber.toNat < 4)
    (hd : dev.sectors d' = Function.update (dev.sectors d) 0 (withEntry part (dev.sectors d 0)))
    (hsig : Signed (dev.sectors d 0)) : Signed (dev.sectors d' 0) := by
  have hlen : (dev.sectors d 0).length = mbrSize := by
    rw [dev.length_sectors, h]
    rfl
  rw [hd, Function.update_self, withEntry_eq hlen hn]
  exact (signed_patch hlen (length_entryBytes part) hn).mpr hsig

/-- The check of the reader on a slot, for sectors of 512 bytes. -/
lemma validatePartition_512 {p : MBRPartition} {sectorCount : Nat} (hp : p.startSector < 2 ^ 32)
    (hn : p.numSectors < 2 ^ 32) :
    validatePartition p 512 sectorCount = true ↔
      p.startSector + p.numSectors ≤ sectorCount % 2 ^ 55 := by
  rw [validatePartition_eq_true (by decide) hp hn]
  omega

end devices

/-- A disk with an empty table. -/
def blankDisk : Storage.Ram 512 := Storage.Ram.holding 512 (signedSector (List.replicate 64 0))

/-- A blank disk is signed. -/
lemma signed_blankDisk (count : UInt64) : Signed ((Storage.ram 512 count).sectors blankDisk 0) := by
  have h : Signed (fillBuffer 512 (signedSector (List.replicate 64 0))) := by decide +kernel
  exact h

/-- On a device in memory only these entries are found as they were written. -/
lemma WriteThenRead.fits {sectorCount : UInt64} {part : PartitionConf}
    (h : WriteThenRead sectorCount part) (hn : part.physicalNumber.toNat < 4)
    (ha : Accepted sectorCount part) :
    part.startSector.toNat < 2 ^ 32 ∧ part.numSectors.toNat < 2 ^ 32 ∧
      part.startSector.toNat + part.numSectors.toNat ≤ sectorCount.toNat % 2 ^ 55 := by
  have hsig := signed_blankDisk sectorCount
  obtain ⟨d', hw, hd⟩ := writePartitionEntry_written (d := blankDisk)
    (Storage.ram_reliable : (Storage.ram 512 sectorCount).Reliable) ha (le_refl _) hn
  have hr : (Storage.ram 512 sectorCount).Readable d' := Storage.ram_readable d'
  obtain ⟨entries, d'', hg, k, e, hf, hk, he⟩ := h _ _ d' rfl rfl hsig hw hr
  rw [getPartitionEntries_of_signed hr (signed_written rfl hn hd hsig)] at hg
  cases hg
  obtain ⟨hfields, hl⟩ := readFrom_written rfl hn hd hf hk
  -- what was read is the remainder of what was written
  rw [he] at hfields
  have hstart : part.startSector.toNat = part.startSector.toNat % 2 ^ 32 :=
    congrArg Slot.start hfields
  have hnum : part.numSectors.toNat = part.numSectors.toNat % 2 ^ 32 := congrArg Slot.count hfields
  have hslot := fields_written rfl hn hd
  have hss : (readSlot _ _).startSector = part.startSector.toNat % 2 ^ 32 :=
    congrArg Slot.start hslot
  have hns : (readSlot _ _).numSectors = part.numSectors.toNat % 2 ^ 32 := congrArg Slot.count hslot
  have hv := hl.1.2
  rw [validatePartition_512 (toWord_lt _ _) (toWord_lt _ _), hss, hns, ← hstart, ← hnum] at hv
  exact ⟨by omega, by omega, hv⟩

/-- An entry is found as it was written exactly when its fields fit into 32 bits and the disk, its
size taken modulo `2 ^ 64` bytes, has room for it. -/
theorem writeThenRead_iff {sectorCount : UInt64} {part : PartitionConf}
    (hn : part.physicalNumber.toNat < 4) (ht : part.type ∉ [0x05, 0x0F, 0x85])
    (h₀ : 0 < part.numSectors.toNat)
    (hfit : part.startSector.toNat + part.numSectors.toNat ≤ sectorCount.toNat) :
    WriteThenRead sectorCount part ↔ part.startSector.toNat < 2 ^ 32 ∧
      part.numSectors.toNat < 2 ^ 32 ∧
      part.startSector.toNat + part.numSectors.toNat ≤ sectorCount.toNat % 2 ^ 55 := by
  constructor
  · exact fun h => h.fits hn (accepted_of_le h₀ hfit)
  · rintro ⟨hstart, hnum, hroom⟩ δ dev d d' hs rfl hsig hw hr
    obtain ⟨hne, -⟩ | ⟨-, -, -, -, hd⟩ := writePartitionEntry_effect hw
    · exact absurd rfl hne
    have hfields := fields_written hs hn hd
    rw [Nat.mod_eq_of_lt hstart, Nat.mod_eq_of_lt hnum] at hfields
    set slot := readSlot (dev.sectors d' 0) (slotStart part.physicalNumber.toNat) with hslot
    have htype : slot.type = part.type := congrArg Slot.type hfields
    have hss : slot.startSector = part.startSector.toNat := congrArg Slot.start hfields
    have hns : slot.numSectors = part.numSectors.toNat := congrArg Slot.count hfields
    -- nothing was cut off, so the reader checks what the writer was given
    have hlisted : Listed 512 dev.sectorCount.toNat slot := by
      refine ⟨⟨?_, ?_⟩, by omega⟩
      · rw [isExtended_eq_false, htype]
        exact ht
      · rw [validatePartition_512 (by omega) (by omega)]
        omega
    obtain ⟨k, hf⟩ := exists_readFrom (readPartitions_getElem? hn) hlisted
    have hg := getPartitionEntries_of_signed hr (signed_written hs hn hd hsig)
    obtain ⟨slot', hs', -, hk⟩ := hf.getElem?
    rw [readPartitions_getElem? hn, Option.some_inj] at hs'
    rw [← hs'] at hk
    rw [hs] at hg
    exact ⟨_, _, hg, k, _, hf, hk, hfields⟩

/-- A small partition is read back. -/
theorem writeThenRead_small : WriteThenRead 128 ⟨0, 1, 10, 0x83, true⟩ :=
  (writeThenRead_iff (by decide) (by decide) (by decide) (by decide)).mpr
    ⟨by decide, by decide, by decide⟩

/-- The first sector behind `2 ^ 32` is written as sector 0. -/
theorem not_writeThenRead_large :
    ¬ WriteThenRead 0x200000000 ⟨0, 0x100000000, 1, 0x83, false⟩ := by
  intro h
  have hfits := h.fits (by decide) (by decide)
  exact absurd hfits.1 (by decide)

/-! ## Writing back what was read -/

/-- The configuration made of an entry. -/
def confOf (e : MBRPartition) : PartitionConf where
  physicalNumber := UInt8.ofNat e.physicalNumber
  startSector := UInt64.ofNat e.startSector
  numSectors := UInt64.ofNat e.numSectors
  type := e.type
  bootable := e.bootable

/-- Nothing of a slot is lost on the way. -/
lemma fields_confOf {e : MBRPartition} {buf : List UInt8} {offs : Nat}
    (h : fields e = fields (readSlot buf offs)) : (confOf e).fields = fields (readSlot buf offs) := by
  have hstart : e.startSector < 2 ^ 32 := by
    rw [show e.startSector = _ from congrArg Slot.start h]
    exact toWord_lt _ _
  have hnum : e.numSectors < 2 ^ 32 := by
    rw [show e.numSectors = _ from congrArg Slot.count h]
    exact toWord_lt _ _
  rw [← h, PartitionConf.fields, confOf, fields, UInt64.toNat_ofNat', UInt64.toNat_ofNat',
    Nat.mod_eq_of_lt (by omega), Nat.mod_eq_of_lt (by omega)]

/-- The entry is numbered by its slot, and writing it leaves the table as it is. -/
def WritesBack {δ : Type} (dev : Storage δ) (d : δ) (i : Nat) (e : MBRPartition) : Prop :=
  e.physicalNumber = i ∧ ∀ d₁, dev.sectors d₁ = dev.sectors d →
    ∃ r d', writePartitionEntry dev (confOf e) d₁ = .ok (r, d') ∧
      tableOf (dev.sectors d' 0) = tableOf (dev.sectors d 0)

/-- A slot written with the fields it has. -/
lemma tableOf_withEntry {sector : List UInt8} {part : PartitionConf} {slot : MBRPartition}
    (hl : sector.length = mbrSize) (hn : part.physicalNumber.toNat < 4)
    (hs : fields slot = slotOf sector part.physicalNumber.toNat)
    (hp : slot.startSector < 2 ^ 32) (hc : slot.numSectors < 2 ^ 32)
    (he : part.fields = fields slot) : tableOf (withEntry part sector) = tableOf sector := by
  apply List.map_congr_left
  intro i _
  rw [slotOf_withEntry hl hn]
  split
  · rename_i e
    have hstart : part.startSector.toNat = slot.startSector := congrArg Slot.start he
    have hnum : part.numSectors.toNat = slot.numSectors := congrArg Slot.count he
    have htype : part.type = slot.type := congrArg Slot.type he
    have hboot : part.bootable = slot.bootable := congrArg Slot.bootable he
    rw [e, ← hs, hstart, hnum, htype, hboot, Nat.mod_eq_of_lt hp, Nat.mod_eq_of_lt hc]
    rfl
  · rfl

section writesBack
variable {δ : Type} {dev : Storage δ} {d d' : δ} {entries : List MBRPartition} {e : MBRPartition}
  {i k : Nat}

/-- The entry at a position, made of the slot it was read from. -/
lemma ReadFrom.entry {sectorSize sectorCount : Nat} {sector : List UInt8}
    (hf : ReadFrom sectorSize sectorCount (readPartitions sector) i k)
    (hk : (collect sectorSize sectorCount (readPartitions sector) 0)[k]? = some e) :
    i < 4 ∧ fields e = fields (readSlot sector (slotStart i)) ∧
      e.physicalNumber = (((readPartitions sector).take i).filter fun p =>
        Counted sectorSize sectorCount p).length := by
  obtain ⟨slot, hs, -, he⟩ := hf.getElem?
  have hlen : (readPartitions sector).length = 4 := rfl
  have hi : i < 4 := by
    rw [← hlen]
    exact (List.getElem?_eq_some_iff.mp hs).1
  rw [readPartitions_getElem? hi, Option.some_inj] at hs
  subst hs
  rw [hk, Option.some_inj] at he
  refine ⟨hi, by rw [he]; rfl, ?_⟩
  have hle := List.length_filter_le
    (fun p => decide (Counted sectorSize sectorCount p)) ((readPartitions sector).take i)
  rw [List.length_take, hlen] at hle
  rw [he]
  exact Nat.mod_eq_of_lt (by omega)

/-- The counter has the index of the slot exactly when it counted every slot before. -/
lemma length_filter_counted {sectorSize sectorCount : Nat} {slots : List MBRPartition}
    (hi : i ≤ slots.length) :
    ((slots.take i).filter fun p => Counted sectorSize sectorCount p).length = i ↔
      ∀ p ∈ slots.take i, Counted sectorSize sectorCount p := by
  have hlen : (slots.take i).length = i := by
    rw [List.length_take]
    omega
  conv_lhs => rhs; rw [← hlen]
  rw [List.length_filter_eq_length_iff]
  simp only [decide_eq_true_eq]

/-- An entry goes back into its own slot, and the table stays as it is, exactly when every slot before
was counted and the sectors fit the buffer of the writer or are not written at all. -/
theorem writesBack_iff (h : dev.Readable d) (hmin : 512 ≤ dev.sectorSize)
    (hsig : Signed (dev.sectors d 0))
    (hg : getPartitionEntries dev.toBlockDevice d = (.ok entries, d'))
    (hk : entries[k]? = some e)
    (hf : ReadFrom dev.sectorSize dev.sectorCount.toNat (readPartitions (dev.sectors d 0)) i k) :
    WritesBack dev d i e ↔
      (∀ p ∈ (readPartitions (dev.sectors d 0)).take i,
        Counted dev.sectorSize dev.sectorCount.toNat p) ∧
      (dev.sectorSize = 512 ∨ ¬ Accepted dev.sectorCount (confOf e)) := by
  have hlen : mbrSize ≤ (dev.sectors d 0).length := by rwa [dev.length_sectors]
  rw [getPartitionEntries_of_signed h hsig] at hg
  cases hg
  obtain ⟨hi, hfields, hnum⟩ := hf.entry hk
  rw [WritesBack, hnum, length_filter_counted (le_of_lt hi)]
  apply and_congr_right
  intro hall
  rw [(length_filter_counted (le_of_lt hi)).mpr hall] at hnum
  have hslot := (fields_readSlot_slotOf hlen hi)
  constructor
  · intro hret
    by_contra hc
    rw [not_or, not_not] at hc
    -- the accepted entry makes the writer read a larger sector into its buffer
    obtain ⟨r, d', hw, -⟩ := hret d rfl
    have hov := writePartitionEntry_overrun h.count hc.2 (lt_of_le_of_ne hmin (Ne.symm hc.1))
    cases hov.symm.trans hw
  · intro hor d₁ hd₁
    have hn : (confOf e).physicalNumber.toNat = i := by
      rw [confOf, hnum, UInt8.toNat_ofNat']
      omega
    obtain ⟨r, d', hw⟩ : ∃ r d', writePartitionEntry dev (confOf e) d₁ = .ok (r, d') := by
      apply writePartitionEntry_returns
      intro ha
      exact ⟨le_of_eq (hor.resolve_right (not_not.mpr ha)), by omega⟩
    refine ⟨r, d', hw, ?_⟩
    obtain ⟨-, hd⟩ | ⟨-, ha, -, hlt, hd⟩ := writePartitionEntry_effect hw
    · rw [hd, hd₁]
    · have hs : dev.sectorSize = 512 := hor.resolve_right (not_not.mpr ha)
      have hl : (dev.sectors d 0).length = mbrSize := by rw [dev.length_sectors, hs, mbrSize]
      rw [hd, hd₁, Function.update_self]
      exact tableOf_withEntry hl hlt (by rw [hn, hslot]) (toWord_lt _ _) (toWord_lt _ _)
        (fields_confOf hfields)

end writesBack

/-- A disk with two used slots. -/
def fullDisk : Storage.Ram 512 := Storage.Ram.holding 512 (signedSector Disk.fullTable)

/-- A partition of a full table is written back. -/
theorem writesBack_fullDisk :
    WritesBack (Storage.ram 512 128) fullDisk 1 ⟨1, 11, 10, false, 0x83⟩ := by
  have hr : (Storage.ram 512 128).Readable fullDisk := Storage.ram_readable _
  have hsig : Signed ((Storage.ram 512 128).sectors fullDisk 0) := by decide +kernel
  have hs : (Storage.ram 512 128).sectorSize = 512 := rfl
  have hk : (collect 512 128 (readPartitions ((Storage.ram 512 128).sectors fullDisk 0)) 0)[1]? =
      some ⟨1, 11, 10, false, 0x83⟩ := by decide +kernel
  have hf : ReadFrom 512 128 (readPartitions ((Storage.ram 512 128).sectors fullDisk 0)) 1 1 :=
    ⟨[⟨0, 1, 10, false, 0x83⟩], ⟨0, 11, 10, false, 0x83⟩, [{}, {}], by decide +kernel⟩
  have hall : ∀ p ∈ (readPartitions ((Storage.ram 512 128).sectors fullDisk 0)).take 1,
      Counted 512 128 p := by decide +kernel
  exact (writesBack_iff hr (le_of_eq hs.symm) hsig (getPartitionEntries_of_signed hr hsig) hk hf).mpr
    ⟨hall, .inl hs⟩

/-- A disk with an extended slot before the used one. -/
def extendedDisk : Storage.Ram 512 :=
  Storage.Ram.holding 512 (signedSector (Disk.slotBytes 0x05 1 10 ++ Disk.slotBytes 0x83 11 10 ++
    Disk.slotBytes 0 0 0 ++ Disk.slotBytes 0 0 0))

/-- Behind an extended slot, writing back the entry that was read destroys that slot. -/
theorem not_writesBack_extendedDisk :
    (getPartitionEntries (Storage.ram 512 128).toBlockDevice extendedDisk).1 =
        .ok [⟨0, 11, 10, false, 0x83⟩] ∧
      ReadFrom 512 128 (readPartitions ((Storage.ram 512 128).sectors extendedDisk 0)) 1 0 ∧
      ¬ WritesBack (Storage.ram 512 128) extendedDisk 1 ⟨0, 11, 10, false, 0x83⟩ ∧
      (writePartitionEntry (Storage.ram 512 128) (confOf ⟨0, 11, 10, false, 0x83⟩)
        extendedDisk).map (fun r => tableOf ((Storage.ram 512 128).sectors r.2 0)) =
          .ok [⟨0x83, false, 11, 10⟩, ⟨0x83, false, 11, 10⟩, ⟨0, false, 0, 0⟩, ⟨0, false, 0, 0⟩] := by
  refine ⟨by decide +kernel, ?_, ?_, by decide +kernel⟩
  · exact ⟨[⟨0, 1, 10, false, 0x05⟩], ⟨0, 11, 10, false, 0x83⟩, [{}, {}], by decide +kernel⟩
  · rintro ⟨h, -⟩
    exact absurd h (by decide)

end Fdisk
end Evfs
