import Evfs.Tools.FdiskWrite

/-!
# What the functions on partition tables do

The stores of `write_partition_entry` replace one slot by the bytes of the entry, or run off the
buffer. `Outcome` lists what a call comes to on any device; what it changes is read off from there.
-/

namespace Evfs
open Lib

namespace Fdisk

/-- Where a slot of the table starts. -/
def slotStart (n : Nat) : Nat := ptblStart + n * ptblSize

/-- The bytes that `write_partition_entry` stores into a slot. -/
def entryBytes (part : PartitionConf) : List UInt8 :=
  let start := part.startSector
  let last := part.startSector + part.numSectors - 1
  [if part.bootable then 0x80 else 0x00, head start, sectorByte start, (cylinder start).toUInt8,
    part.type, head last, sectorByte last, (cylinder last).toUInt8] ++
    Bytes.toLe 4 part.startSector.toNat ++ Bytes.toLe 4 part.numSectors.toNat

/-- An entry has 16 bytes. -/
lemma length_entryBytes (part : PartitionConf) : (entryBytes part).length = ptblSize := by
  simp [entryBytes, Bytes.length_toLe, ptblSize]

/-- The bytes of a 32-bit value, the least one first. -/
lemma toLe_toUInt32 (x : UInt64) :
    Bytes.toLe 4 x.toNat = [x.toUInt32.toUInt8, (x.toUInt32 >>> 8).toUInt8,
      (x.toUInt32 >>> 8 >>> 8).toUInt8, (x.toUInt32 >>> 8 >>> 8 >>> 8).toUInt8] := by
  simp only [Bytes.toLe]
  congr 1
  · apply UInt8.toNat_inj.mp
    simp
  congr 1
  · apply UInt8.toNat_inj.mp
    simp [Nat.shiftRight_eq_div_pow]
    omega
  congr 1
  · apply UInt8.toNat_inj.mp
    simp [Nat.shiftRight_eq_div_pow]
    omega
  congr 1
  · apply UInt8.toNat_inj.mp
    simp [Nat.shiftRight_eq_div_pow]
    omega

/-- The first four slots lie in the buffer, before the signature. -/
lemma slotStart_le {n : Nat} (hn : n < 4) : slotStart n + ptblSize ≤ mbrSignature := by
  rw [slotStart, ptblStart, ptblSize, mbrSignature]
  omega

/-- So they do in everything that has the size of the buffer. -/
lemma slot_fits {n : Nat} {bs buf : List UInt8} (hn : n < 4) (hb : bs.length = ptblSize)
    (hl : mbrSize ≤ buf.length) : slotStart n + bs.length ≤ buf.length := by
  rw [hb]
  exact ((slotStart_le hn).trans (by decide)).trans hl

variable {pre slot post : List UInt8} {k : Nat}

/-- Storing a byte of the slot. -/
lemma store_slot {b : UInt8} (h : k < slot.length) :
    store (pre ++ slot ++ post) (pre.length + k) b = .ok (pre ++ slot.set k b ++ post) :=
  Bytes.store_part h

/-- Storing the four bytes of a word in the slot. -/
lemma toWordInto_slot {val : UInt32} (h : k + 3 < slot.length) :
    toWordInto (pre ++ slot ++ post) (pre.length + k) val =
      .ok (pre ++ (((slot.set k val.toUInt8).set (k + 1) (val >>> 8).toUInt8).set (k + 2)
        (val >>> 8 >>> 8).toUInt8).set (k + 3) (val >>> 8 >>> 8 >>> 8).toUInt8 ++ post) := by
  unfold toWordInto
  simp (disch := (try simp only [List.length_set]); omega) only
    [store_slot, Nat.add_assoc, bind, Except.bind]

/-- A list by its cells. -/
lemma exists_ofFn {α : Type} {n : Nat} {l : List α} (h : l.length = n) :
    ∃ c : Fin n → α, l = List.ofFn c := by
  subst h
  exact ⟨l.get, (List.ofFn_get l).symm⟩

/-- The entry replaces the slot's bytes. -/
lemma storeEntry_slot {part : PartitionConf} (hp : pre.length = slotStart part.physicalNumber.toNat)
    (hs : slot.length = ptblSize) :
    storeEntry part (pre ++ slot ++ post) = .ok (pre ++ entryBytes part ++ post) := by
  have hs' := hs
  rw [ptblSize] at hs'
  unfold storeEntry
  rw [show ptblStart + part.physicalNumber.toNat * ptblSize = pre.length from hp.symm]
  simp (disch := simp only [List.length_set, hs]; decide) only
    [store_slot, toWordInto_slot, bind, Except.bind]
  -- every byte of the slot has been stored
  obtain ⟨c, rfl⟩ := exists_ofFn hs'
  rw [entryBytes, toLe_toUInt32, toLe_toUInt32]
  simp only [List.ofFn_succ, List.ofFn_zero, ptblActive, ptblType, ptblSectCnt, ptblLba,
    ptblStartHead, ptblStartSec, ptblStartCyl, ptblEndHead, ptblEndSec, ptblEndCyl,
    List.set_cons_zero, List.set_cons_succ, List.cons_append, List.nil_append, Nat.reduceAdd]

/-- In a sector, the entry is patched in at its slot. -/
lemma storeEntry_ok {part : PartitionConf} {mbr : List UInt8} (hl : mbr.length = mbrSize)
    (hn : part.physicalNumber.toNat < 4) :
    storeEntry part mbr =
      .ok (Bytes.patch mbr (slotStart part.physicalNumber.toNat) (entryBytes part)) := by
  rw [mbrSize] at hl
  have hpre : (mbr.take (slotStart part.physicalNumber.toNat)).length =
      slotStart part.physicalNumber.toNat := by
    rw [List.length_take, hl, slotStart, ptblStart, ptblSize]
    omega
  have hslot : ((mbr.drop (slotStart part.physicalNumber.toNat)).take ptblSize).length =
      ptblSize := by
    rw [List.length_take, List.length_drop, hl, slotStart, ptblStart, ptblSize]
    omega
  have hparts : mbr.take (slotStart part.physicalNumber.toNat) ++
      (mbr.drop (slotStart part.physicalNumber.toNat)).take ptblSize ++
      (mbr.drop (slotStart part.physicalNumber.toNat)).drop ptblSize = mbr := by
    rw [List.append_assoc, List.take_append_drop, List.take_append_drop]
  rw [Bytes.patch, length_entryBytes, ← List.drop_drop, ← storeEntry_slot hpre hslot, hparts]

/-- A slot behind the fourth does not fit: its first byte may, its type does not. -/
lemma storeEntry_index {part : PartitionConf} {mbr : List UInt8} (hl : mbr.length = mbrSize)
    (hn : 4 ≤ part.physicalNumber.toNat) : storeEntry part mbr = .error .index := by
  rw [mbrSize] at hl
  unfold storeEntry
  simp only [bind, Except.bind]
  by_cases hlt : ptblStart + part.physicalNumber.toNat * ptblSize + ptblActive < mbr.length
  · rw [show store mbr _ _ = _ from Bytes.store_of_lt hlt]
    simp only
    rw [show store _ _ part.type = _ from Bytes.store_of_le ?_]
    rw [List.length_set, hl, ptblStart, ptblSize, ptblType]
    omega
  · rw [show store mbr _ _ = _ from Bytes.store_of_le (not_lt.mp hlt)]

namespace Checked
variable {buf : List UInt8} {offs : Nat}

/-- A load inside the buffer. -/
lemma load_of_lt (h : offs < buf.length) : load buf offs = .ok (byteAt buf offs) := by
  rw [load, Bytes.load_of_lt h, byteAt, List.getD_eq_getElem?_getD, List.getElem?_eq_getElem h]
  rfl

/-- The signature of a whole sector. -/
lemma signatureMissing_of_le (h : mbrSize ≤ buf.length) :
    signatureMissing buf = .ok (Fdisk.signatureMissing buf) := by
  rw [mbrSize] at h
  unfold signatureMissing
  rw [load_of_lt (by rw [mbrSignature]; omega), load_of_lt (by rw [mbrSignature]; omega)]
  simp only [bind, Except.bind, Fdisk.signatureMissing]
  by_cases hb : byteAt buf mbrSignature = mbrSignatureLo
  · simp [hb]
    rfl
  · simp [hb]
    rfl

/-- A word inside the buffer. -/
lemma toWord_of_lt (h : offs + 3 < buf.length) : toWord buf offs = .ok (Fdisk.toWord buf offs) := by
  unfold toWord
  rw [load_of_lt (by omega), load_of_lt (by omega), load_of_lt (by omega), load_of_lt h]
  rfl

/-- A slot inside the buffer. -/
lemma readSlot_of_le (h : offs + ptblSize ≤ buf.length) :
    readSlot buf offs = .ok (Fdisk.readSlot buf offs) := by
  rw [ptblSize] at h
  unfold readSlot
  rw [load_of_lt (by rw [ptblActive]; omega), load_of_lt (by rw [ptblType]; omega),
    toWord_of_lt (by rw [ptblSectCnt]; omega), toWord_of_lt (by rw [ptblLba]; omega)]
  rfl

/-- The slots of a whole sector. -/
lemma readPartitions_of_le (h : mbrSize ≤ buf.length) :
    readPartitions buf = .ok (Fdisk.readPartitions buf) := by
  rw [mbrSize] at h
  have hslot : ∀ i < 4, readSlot buf (ptblStart + i * ptblSize) =
      .ok (Fdisk.readSlot buf (ptblStart + i * ptblSize)) := by
    intro i hi
    apply readSlot_of_le
    rw [ptblStart, ptblSize]
    omega
  simp only [readPartitions, Fdisk.readPartitions, show List.range 4 = [0, 1, 2, 3] from rfl,
    List.mapM_cons, List.mapM_nil, hslot 0 (by omega), hslot 1 (by omega), hslot 2 (by omega),
    hslot 3 (by omega)]
  rfl

/-- The partitions of a whole sector. -/
lemma fetchPartitions_of_le {sectorSize sectorCount : Nat} (h : mbrSize ≤ buf.length) :
    fetchPartitions sectorSize sectorCount buf =
      .ok (Fdisk.fetchPartitions sectorSize sectorCount buf) := by
  unfold fetchPartitions Fdisk.fetchPartitions
  rw [signatureMissing_of_le h, readPartitions_of_le h]
  simp only [bind, Except.bind]
  split
  · rfl
  · rfl

end Checked

/-- The check on the place and the size of a partition. -/
def Accepted (sectorCount : UInt64) (part : PartitionConf) : Prop :=
  part.numSectors ≠ 0 ∧ ¬ sectorCount - part.startSector < part.numSectors

instance (sectorCount : UInt64) (part : PartitionConf) : Decidable (Accepted sectorCount part) :=
  inferInstanceAs (Decidable (_ ∧ _))

/-- The check as it counts: the difference of the source wraps around for a partition that starts
behind the end. -/
lemma accepted_iff {sectorCount : UInt64} {part : PartitionConf} :
    Accepted sectorCount part ↔ 0 < part.numSectors.toNat ∧
      part.numSectors.toNat ≤
        (2 ^ 64 - part.startSector.toNat + sectorCount.toNat) % 2 ^ 64 := by
  rw [Accepted, UInt64.lt_iff_toNat_lt, UInt64.toNat_sub, not_lt, Ne, ← UInt64.toNat_inj,
    Nat.pos_iff_ne_zero]
  rfl

/-- A partition inside the disk is accepted. -/
lemma accepted_of_le {sectorCount : UInt64} {part : PartitionConf} (h₀ : 0 < part.numSectors.toNat)
    (h : part.startSector.toNat + part.numSectors.toNat ≤ sectorCount.toNat) :
    Accepted sectorCount part := by
  have h₁ := sectorCount.toNat_lt
  have h₂ := part.startSector.toNat_lt
  rw [accepted_iff]
  omega

/-- A sector with an entry written into it. -/
def withEntry (part : PartitionConf) (sector : List UInt8) : List UInt8 :=
  (Bytes.patch (fillBuffer mbrSize sector) (slotStart part.physicalNumber.toNat)
    (entryBytes part)).take sector.length

/-- The entry's slot is in the sector. -/
lemma entry_fits {part : PartitionConf} (sector : List UInt8)
    (hn : part.physicalNumber.toNat < 4) :
    slotStart part.physicalNumber.toNat + (entryBytes part).length ≤
      (fillBuffer mbrSize sector).length :=
  slot_fits hn (length_entryBytes part) (le_of_eq (length_fillBuffer _ _).symm)

/-- What a call of `write_partition_entry` comes to. -/
inductive Outcome {δ : Type} (dev : Storage δ) (part : PartitionConf) (d : δ) :
    Except BufferFault (ErrorCode × δ) → Prop where
  | unknown {e : ErrorCode} : (dev.getSectorCount d).1 = .error e → e ≠ 0 →
    Outcome dev part d (.ok (e, d))
  | refused : ¬ Accepted dev.sectorCount part → Outcome dev part d (.ok (EINVAL, d))
  | overrun : Accepted dev.sectorCount part → mbrSize < dev.sectorSize →
    Outcome dev part d (.error .overrun)
  /-- The device fails to read the sector. -/
  | unread {e : ErrorCode} {d' : δ} : Accepted dev.sectorCount part → dev.sectorSize ≤ mbrSize →
    (dev.read 0 1 d).1.1 = e → e ≠ 0 → dev.sectors d' = dev.sectors d →
    Outcome dev part d (.ok (e, d'))
  | index : Accepted dev.sectorCount part → dev.sectorSize ≤ mbrSize →
    4 ≤ part.physicalNumber.toNat → Outcome dev part d (.error .index)
  /-- The device fails to write the sector. -/
  | unwritten {e : ErrorCode} {d₁ d' : δ} {buf : List UInt8} : Accepted dev.sectorCount part →
    dev.sectorSize ≤ mbrSize → part.physicalNumber.toNat < 4 →
    dev.write buf 0 1 d₁ = (e, d') → e ≠ 0 → dev.sectors d' = dev.sectors d →
    Outcome dev part d (.ok (e, d'))
  | written {d' : δ} : Accepted dev.sectorCount part → dev.sectorSize ≤ mbrSize →
    part.physicalNumber.toNat < 4 →
    dev.sectors d' = Function.update (dev.sectors d) 0 (withEntry part (dev.sectors d 0)) →
    Outcome dev part d (.ok (0, d'))

section effects
variable {δ : Type} {dev : Storage δ} {part : PartitionConf} {d : δ}

/-- The last step: sector 0 is written with the entry in it. -/
lemma outcome_of_write {d₁ : δ} {bytes : List UInt8} (ha : Accepted dev.sectorCount part)
    (hs : dev.sectorSize ≤ mbrSize) (hn : part.physicalNumber.toNat < 4)
    (hd : dev.sectors d₁ = dev.sectors d) (hb : bytes = dev.sectors d 0) :
    Outcome dev part d (dev.writeFrom (Bytes.patch (fillBuffer mbrSize bytes)
      (slotStart part.physicalNumber.toNat) (entryBytes part)) 0 1 d₁) := by
  subst hb
  have hlen : dev.sectorSize ≤ (Bytes.patch (fillBuffer mbrSize (dev.sectors d 0))
      (slotStart part.physicalNumber.toNat) (entryBytes part)).length := by
    rw [Bytes.length_patch (entry_fits _ hn), length_fillBuffer]
    exact hs
  have hok := dev.write_ok _ 0 d₁ hlen
  have hfailed := dev.write_failed (Bytes.patch (fillBuffer mbrSize (dev.sectors d 0))
      (slotStart part.physicalNumber.toNat) (entryBytes part)) 0 d₁
  rw [Storage.writeFrom_of_le hlen]
  cases hw : dev.write (Bytes.patch (fillBuffer mbrSize (dev.sectors d 0))
      (slotStart part.physicalNumber.toNat) (entryBytes part)) 0 1 d₁ with
  | mk e d' =>
    rw [hw] at hok hfailed
    by_cases he : e = 0
    · subst he
      apply Outcome.written ha hs hn
      rw [hok rfl, hd, withEntry, dev.length_sectors]
    · exact .unwritten ha hs hn hw he ((hfailed he).trans hd)

/-- Every call that writes an entry ends in one of the outcomes. -/
theorem writePartitionEntry_outcome (dev : Storage δ) (part : PartitionConf) (d : δ) :
    Outcome dev part d (writePartitionEntry dev part d) := by
  unfold writePartitionEntry
  obtain hc | ⟨e, he, hc⟩ := dev.getSectorCount_cases d
  · simp only [hc, UInt64.ofNat_toNat]
    by_cases ha : Accepted dev.sectorCount part
    · rw [if_neg ha.1, if_neg ha.2]
      by_cases hs : dev.sectorSize ≤ mbrSize
      · rw [Storage.readInto_zeros hs]
        have hsec := dev.read_sectors 0 d
        have hbytes := dev.read_ok 0 d
        cases hr : dev.read 0 1 d with
        | mk r d₁ =>
          obtain ⟨e, bytes⟩ := r
          rw [hr] at hsec hbytes
          simp only at hsec hbytes
          simp only [bind, Except.bind]
          by_cases he : e = 0
          · rw [if_neg (not_not.mpr he)]
            by_cases hn : part.physicalNumber.toNat < 4
            · rw [storeEntry_ok (length_fillBuffer _ _) hn]
              exact outcome_of_write ha hs hn hsec (hbytes he)
            · rw [storeEntry_index (length_fillBuffer _ _) (not_lt.mp hn)]
              exact .index ha hs (not_lt.mp hn)
          · rw [if_pos he]
            exact .unread ha hs (by rw [hr]) he hsec
      · rw [Storage.readInto_overrun (by rw [List.length_replicate]; omega)]
        exact .overrun ha (not_le.mp hs)
    · -- no sectors, or more than the difference allows
      have hr := ha
      rw [Accepted, not_and_or, not_not, not_not] at hr
      split
      · exact .refused ha
      · rw [if_pos (by tauto)]
        exact .refused ha
  · simp only [hc]
    exact .unknown (by rw [hc]) he

/-- Without an accepted entry nothing is done. -/
lemma writePartitionEntry_refused {n : Nat} (hc : (dev.getSectorCount d).1 = .ok n)
    (ha : ¬ Accepted dev.sectorCount part) : writePartitionEntry dev part d = .ok (EINVAL, d) := by
  have o := writePartitionEntry_outcome dev part d
  generalize writePartitionEntry dev part d = r at o ⊢
  cases o with
  | unknown h _ => cases hc.symm.trans h
  | refused _ => rfl
  | _ => contradiction

/-- A call that returns has changed nothing, or has written its entry. -/
lemma writePartitionEntry_effect {e : ErrorCode} {d' : δ}
    (h : writePartitionEntry dev part d = .ok (e, d')) :
    (e ≠ 0 ∧ dev.sectors d' = dev.sectors d) ∨
      (e = 0 ∧ Accepted dev.sectorCount part ∧ dev.sectorSize ≤ mbrSize ∧
        part.physicalNumber.toNat < 4 ∧ dev.sectors d' =
          Function.update (dev.sectors d) 0 (withEntry part (dev.sectors d 0))) := by
  have o := writePartitionEntry_outcome dev part d
  rw [h] at o
  generalize hr : (.ok (e, d') : Except BufferFault (ErrorCode × δ)) = r at o
  cases o with
  | unknown _ he => cases hr; exact .inl ⟨he, rfl⟩
  | refused _ => cases hr; exact .inl ⟨by decide, rfl⟩
  | overrun _ _ => cases hr
  | unread _ _ _ he hd => cases hr; exact .inl ⟨he, hd⟩
  | index _ _ _ => cases hr
  | unwritten _ _ _ _ he hd => cases hr; exact .inl ⟨he, hd⟩
  | written ha hs hn hd => cases hr; exact .inr ⟨rfl, ha, hs, hn, hd⟩

/-- Sectors that are larger than the buffer overrun it. -/
lemma writePartitionEntry_overrun {n : Nat} (hc : (dev.getSectorCount d).1 = .ok n)
    (ha : Accepted dev.sectorCount part) (hs : mbrSize < dev.sectorSize) :
    writePartitionEntry dev part d = .error .overrun := by
  have o := writePartitionEntry_outcome dev part d
  generalize writePartitionEntry dev part d = r at o ⊢
  cases o with
  | unknown h _ => cases hc.symm.trans h
  | refused hr => exact absurd ha hr
  | overrun _ _ => rfl
  | unread _ hle _ _ _ => exact absurd hs (not_lt.mpr hle)
  | index _ hle _ => exact absurd hs (not_lt.mpr hle)
  | unwritten _ hle _ _ _ _ => exact absurd hs (not_lt.mpr hle)
  | written _ hle _ _ => exact absurd hs (not_lt.mpr hle)

/-- The calls that do not return on a reliable device. -/
lemma writePartitionEntry_fault (h : dev.Reliable) (ha : Accepted dev.sectorCount part)
    (hf : ¬ (dev.sectorSize ≤ mbrSize ∧ part.physicalNumber.toNat < 4)) :
    ∃ f, writePartitionEntry dev part d = .error f := by
  have o := writePartitionEntry_outcome dev part d
  generalize writePartitionEntry dev part d = r at o ⊢
  cases o with
  | unknown he _ => cases (h.count d).symm.trans he
  | refused hr => exact absurd ha hr
  | overrun _ _ => exact ⟨_, rfl⟩
  | unread _ _ hr he _ => exact absurd (hr.symm.trans (h.read d)) he
  | index _ _ _ => exact ⟨_, rfl⟩
  | unwritten _ hs hn _ _ _ => exact absurd ⟨hs, hn⟩ hf
  | written _ hs hn _ => exact absurd ⟨hs, hn⟩ hf

/-- A reliable device is written. -/
lemma writePartitionEntry_written (h : dev.Reliable) (ha : Accepted dev.sectorCount part)
    (hs : dev.sectorSize ≤ mbrSize) (hn : part.physicalNumber.toNat < 4) :
    ∃ d', writePartitionEntry dev part d = .ok (0, d') ∧ dev.sectors d' =
      Function.update (dev.sectors d) 0 (withEntry part (dev.sectors d 0)) := by
  have o := writePartitionEntry_outcome dev part d
  generalize writePartitionEntry dev part d = r at o ⊢
  cases o with
  | unknown he _ => cases (h.count d).symm.trans he
  | refused hr => exact absurd ha hr
  | overrun _ hlt => exact absurd hs (not_le.mpr hlt)
  | unread _ _ hr he _ => exact absurd (hr.symm.trans (h.read d)) he
  | index _ _ hle => exact absurd hn (not_lt.mpr hle)
  | @unwritten e d₁ d' buf _ _ _ hw he _ =>
    exact absurd ((congrArg Prod.fst hw).symm.trans (h.write buf d₁)) he
  | written _ _ _ hd => exact ⟨_, rfl, hd⟩

/-- The calls that return. -/
lemma writePartitionEntry_returns
    (h : Accepted dev.sectorCount part →
      dev.sectorSize ≤ mbrSize ∧ part.physicalNumber.toNat < 4) :
    ∃ e d', writePartitionEntry dev part d = .ok (e, d') := by
  have o := writePartitionEntry_outcome dev part d
  generalize writePartitionEntry dev part d = r at o ⊢
  cases o with
  | overrun ha hlt => exact absurd (h ha).1 (not_le.mpr hlt)
  | index ha _ hle => exact absurd (h ha).2 (not_lt.mpr hle)
  | _ => exact ⟨_, _, rfl⟩

/-- `validate_mbr` on a device whose sectors fit the buffer. -/
lemma validateMbr_of_le (hs : dev.sectorSize ≤ mbrSize) :
    validateMbr dev d =
      .ok (if (dev.read 0 1 d).1.1 ≠ 0 then (dev.read 0 1 d).1.1
        else if signatureMissing (fillBuffer mbrSize (dev.read 0 1 d).1.2) then ENXIO else 0,
        (dev.read 0 1 d).2) := by
  unfold validateMbr
  rw [Storage.readInto_zeros hs]
  simp only [bind, Except.bind]
  by_cases he : (dev.read 0 1 d).1.1 = 0
  · rw [if_neg (not_not.mpr he), if_neg (not_not.mpr he),
      Checked.signatureMissing_of_le (by rw [length_fillBuffer])]
    simp only
    split
    · rfl
    · rfl
  · rw [if_pos he, if_pos he]
    rfl

/-- A sector larger than the buffer overruns it. -/
lemma validateMbr_overrun (h : mbrSize < dev.sectorSize) : validateMbr dev d = .error .overrun := by
  unfold validateMbr
  rw [Storage.readInto_overrun (by rwa [List.length_replicate])]
  rfl

/-- `get_partition_entries` stays within its buffer. -/
lemma Checked.getPartitionEntries_of_le (hs : mbrSize ≤ dev.sectorSize) :
    Checked.getPartitionEntries dev d = .ok (Fdisk.getPartitionEntries dev.toBlockDevice d) := by
  have hsize := dev.getSectorSize_ok d
  unfold Checked.getPartitionEntries Fdisk.getPartitionEntries
  cases h : dev.getSectorSize d with
  | mk r d₁ =>
    cases r with
    | error e => rfl
    | ok n =>
      obtain rfl := hsize n (by rw [h])
      simp only
      cases hc : dev.getSectorCount d₁ with
      | mk r d₂ =>
        cases r with
        | error e => rfl
        | ok count =>
          simp only [Storage.readInto_zeros (le_refl _), bind, Except.bind]
          by_cases he : (dev.read 0 1 d₂).1.1 = 0
          · rw [if_neg (not_not.mpr he), if_neg (not_not.mpr he),
              Checked.fetchPartitions_of_le (by rw [length_fillBuffer]; exact hs)]
            rfl
          · rw [if_pos he, if_pos he]
            rfl

end effects
end Fdisk
end Evfs
