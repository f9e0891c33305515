import Evfs.Tools.WriteInOrder

/-!
# The bounds of a write

When a partition that does not fit the disk is refused, when a write changes one slot of the table and
nothing else, and when the functions on partition tables stay within their buffers. The check on the
size is a comparison with a difference that wraps around, the number of the slot is not checked, and
all buffers but one have 512 bytes.
-/

namespace Evfs
open Lib

namespace Fdisk

/-! ## Partitions that do not fit -/

/-- A partition without sectors or with sectors behind the end is refused, the device untouched. -/
def RefusesBadEntry (sectorCount : UInt64) (part : PartitionConf) : Prop :=
  part.numSectors.toNat = 0 ∨
      sectorCount.toNat < part.startSector.toNat + part.numSectors.toNat →
    ∀ {δ : Type} (dev : Storage δ) (d : δ), dev.sectorCount = sectorCount →
      (dev.getSectorCount d).1 = .ok sectorCount.toNat →
      writePartitionEntry dev part d = .ok (EINVAL, d)

/-- A device in memory is written, or its buffer overrun, where an entry is accepted. -/
lemma not_refused_of_accepted {size : Nat} {sectorCount : UInt64} {part : PartitionConf}
    {d d' : Storage.Ram size} (ha : Accepted sectorCount part) :
    writePartitionEntry (Storage.ram size sectorCount) part d ≠ .ok (EINVAL, d') := by
  intro hr
  have hrel : (Storage.ram size sectorCount).Reliable := Storage.ram_reliable
  by_cases hfit : size ≤ mbrSize ∧ part.physicalNumber.toNat < 4
  · obtain ⟨d₁, hw, -⟩ := writePartitionEntry_written (d := d) hrel ha hfit.1 hfit.2
    cases hw.symm.trans hr
  · obtain ⟨f, hf⟩ := writePartitionEntry_fault (d := d) hrel ha hfit
    cases hf.symm.trans hr

/-- Of the partitions that do not fit, those are refused that are empty, that do not start behind the
end, or that are so large that the difference does not hide it. -/
theorem refusesBadEntry_iff {sectorCount : UInt64} {part : PartitionConf} :
    RefusesBadEntry sectorCount part ↔ part.numSectors.toNat = 0 ∨
      part.startSector.toNat ≤ sectorCount.toNat ∨
      2 ^ 64 + sectorCount.toNat < part.startSector.toNat + part.numSectors.toNat := by
  have hc := sectorCount.toNat_lt
  have hs := part.startSector.toNat_lt
  constructor
  · intro h
    by_contra hnot
    rw [not_or, not_or, not_le, not_lt] at hnot
    obtain ⟨h₀, hbehind, hwrap⟩ := hnot
    have ha : Accepted sectorCount part := by
      rw [accepted_iff]
      omega
    have hr := h (.inr (by omega)) (Storage.ram 512 sectorCount) blankDisk rfl rfl
    exact not_refused_of_accepted ha hr
  · rintro hcond hbad δ dev d rfl hcount
    apply writePartitionEntry_refused hcount
    rw [accepted_iff]
    omega

/-- An entry behind the disk is not refused. -/
theorem not_refusesBadEntry_behind :
    ¬ RefusesBadEntry 128 ⟨0, 200, 10, 0x83, false⟩ := by
  intro h
  have hr := h (.inr (by decide)) (Storage.ram 512 128) blankDisk rfl rfl
  exact not_refused_of_accepted (by decide) hr

/-! ## The frame of a write -/

/-- A write that fails changes nothing, one that succeeds changes the bytes of its slot only. -/
def ChangesOnlySlot (sectorSize : Nat) (sectorCount : UInt64) (part : PartitionConf) : Prop :=
  ∀ {δ : Type} (dev : Storage δ) (d : δ), dev.sectorSize = sectorSize →
    dev.sectorCount = sectorCount →
    ∃ e d', writePartitionEntry dev part d = .ok (e, d') ∧
      (e ≠ 0 → dev.sectors d' = dev.sectors d) ∧
      (e = 0 → part.physicalNumber.toNat < 4 ∧
        (∀ lba, lba ≠ 0 → dev.sectors d' lba = dev.sectors d lba) ∧
        ∀ k, k < slotStart part.physicalNumber.toNat ∨
            slotStart part.physicalNumber.toNat + ptblSize ≤ k →
          (dev.sectors d' 0)[k]? = (dev.sectors d 0)[k]?)

/-- The bytes outside of the slot, in a sector that fits the buffer. -/
lemma getElem?_withEntry {part : PartitionConf} {sector : List UInt8} {k : Nat}
    (hl : sector.length ≤ mbrSize) (hn : part.physicalNumber.toNat < 4)
    (hk : k < slotStart part.physicalNumber.toNat ∨
      slotStart part.physicalNumber.toNat + ptblSize ≤ k) :
    (withEntry part sector)[k]? = sector[k]? := by
  rw [withEntry, List.getElem?_take]
  split
  · rename_i hlt
    rw [Bytes.getElem?_patch_outside (entry_fits sector hn) (by rwa [length_entryBytes])]
    exact getElem?_fillBuffer hlt (lt_of_lt_of_le hlt hl)
  · exact (List.getElem?_eq_none (by omega)).symm

/-- A write has this frame exactly when the sectors fit the buffer and the slot is one of the table, or
the entry is refused. -/
theorem changesOnlySlot_iff {sectorSize : Nat} {sectorCount : UInt64} {part : PartitionConf} :
    ChangesOnlySlot sectorSize sectorCount part ↔
      (Accepted sectorCount part → sectorSize ≤ mbrSize ∧ part.physicalNumber.toNat < 4) := by
  constructor
  · intro h ha
    by_contra hfit
    obtain ⟨e, d', hw, -⟩ := h (Storage.ram sectorSize sectorCount)
      (Storage.Ram.holding sectorSize []) rfl rfl
    obtain ⟨f, hf⟩ := writePartitionEntry_fault (d := Storage.Ram.holding sectorSize [])
      (Storage.ram_reliable : (Storage.ram sectorSize sectorCount).Reliable) ha hfit
    cases hf.symm.trans hw
  · rintro hfit δ dev d rfl rfl
    obtain ⟨e, d', hw⟩ : ∃ e d', writePartitionEntry dev part d = .ok (e, d') :=
      writePartitionEntry_returns hfit
    refine ⟨e, d', hw, ?_⟩
    obtain ⟨hne, hd⟩ | ⟨h0, -, hs, hn, hd⟩ := writePartitionEntry_effect hw
    · exact ⟨fun _ => hd, fun h0 => absurd h0 hne⟩
    · refine ⟨fun hne => absurd h0 hne, fun _ => ⟨hn, ?_, ?_⟩⟩
      · intro lba hlba
        rw [hd, Function.update_of_ne hlba]
      · intro k hk
        rw [hd, Function.update_self]
        exact getElem?_withEntry (by rwa [dev.length_sectors]) hn hk

/-- A fifth slot would lie on the signature and behind it. -/
theorem not_changesOnlySlot_fifth :
    ¬ ChangesOnlySlot 512 128 ⟨4, 1, 10, 0x83, false⟩ := by
  intro h
  have ha : Accepted 128 ⟨4, 1, 10, 0x83, false⟩ := by decide
  obtain ⟨e, d', hw, -⟩ := h (Storage.ram 512 128) blankDisk rfl rfl
  obtain ⟨f, hf⟩ := writePartitionEntry_fault (d := blankDisk)
    (Storage.ram_reliable : (Storage.ram 512 128).Reliable) ha (by decide)
  cases hf.symm.trans hw

/-! ## Buffers and sectors -/

/-- The functions on partition tables. -/
inductive Operation where
  | getPartitionEntries
  | writePartitionEntry (part : PartitionConf)
  | writePartitionEntries (entries : Vector PartitionConf 4)
  | validateMbr
  | eraseMbr
  | createMbr

/-- A call of one of them: a fault, or the state it leaves. -/
def Operation.run {δ : Type} (dev : Storage δ) (d : δ) : Operation → Except BufferFault δ
  | getPartitionEntries => (Checked.getPartitionEntries dev d).map Prod.snd
  | writePartitionEntry part => (Fdisk.writePartitionEntry dev part d).map Prod.snd
  | writePartitionEntries entries => (Fdisk.writePartitionEntries dev entries d).map Prod.snd
  | validateMbr => (Fdisk.validateMbr dev d).map Prod.snd
  | eraseMbr => (Fdisk.eraseMbr dev d).map Prod.snd
  | createMbr => (Fdisk.createMbr dev d).map Prod.snd

/-- The functions that write entries. -/
def Operation.WritesEntries : Operation → Prop
  | writePartitionEntry _ => True
  | writePartitionEntries _ => True
  | _ => False

/-- A call stays within its buffer, hands the device one that is large enough, and keeps what sector 0
has beyond the entries it writes. -/
def Operation.InBounds (sectorSize : Nat) (sectorCount : UInt64) (op : Operation) : Prop :=
  ∀ {δ : Type} (dev : Storage δ) (d : δ), dev.sectorSize = sectorSize →
    dev.sectorCount = sectorCount →
    ∃ d', op.run dev d = .ok d' ∧
      (op.WritesEntries → ∀ k, 512 ≤ k → (dev.sectors d' 0)[k]? = (dev.sectors d 0)[k]?)

/-- The sectors have the size of the buffer, and the entries that are accepted are numbered by slots,
as far as the function gets. -/
def Operation.Fits (sectorSize : Nat) (sectorCount : UInt64) : Operation → Prop
  | getPartitionEntries => True
  | writePartitionEntry part =>
    Accepted sectorCount part → sectorSize = 512 ∧ part.physicalNumber.toNat < 4
  | writePartitionEntries entries =>
    ∀ part ∈ entries.toList.takeWhile (Accepted sectorCount ·),
      sectorSize = 512 ∧ part.physicalNumber.toNat < 4
  | validateMbr => sectorSize = 512
  | eraseMbr => sectorSize = 512
  | createMbr => sectorSize = 512

section inBounds
variable {δ : Type} {dev : Storage δ} {d d' : δ} {e : ErrorCode} {part : PartitionConf}
  {entries : List PartitionConf}

/-- What sector 0 has beyond the buffer. -/
def SameBeyond (dev : Storage δ) (d d' : δ) : Prop :=
  ∀ k, 512 ≤ k → (dev.sectors d' 0)[k]? = (dev.sectors d 0)[k]?

/-- A write that returns keeps what lies beyond the buffer: nothing does, or nothing is written. -/
lemma sameBeyond_of_returns (h : writePartitionEntry dev part d = .ok (e, d')) :
    SameBeyond dev d d' := by
  intro k hk
  obtain ⟨-, hd⟩ | ⟨-, -, hs, -, -⟩ := writePartitionEntry_effect h
  · rw [hd]
  · rw [mbrSize] at hs
    rw [List.getElem?_eq_none (by rw [dev.length_sectors]; omega),
      List.getElem?_eq_none (by rw [dev.length_sectors]; omega)]

/-- What is written to the first sector is written there only. -/
lemma Written.sameBeyond (h : Written dev d entries d') : SameBeyond dev d d' := by
  induction h with
  | nil => exact fun _ _ => rfl
  | cons hw _ ih => exact fun k hk => (ih k hk).trans (sameBeyond_of_returns hw k hk)

/-- Several entries are written within bounds if those that are reached are. -/
lemma writeInOrder_inBounds
    (h : ∀ part ∈ entries.takeWhile (Accepted dev.sectorCount ·),
      dev.sectorSize = 512 ∧ part.physicalNumber.toNat < 4) :
    ∃ e d', writeInOrder dev entries d = .ok (e, d') := by
  induction entries generalizing d with
  | nil => exact ⟨0, d, rfl⟩
  | cons part entries ih =>
    by_cases ha : Accepted dev.sectorCount part
    · rw [List.takeWhile_cons_of_pos (by simpa using ha)] at h
      obtain ⟨hs, hn⟩ := h part List.mem_cons_self
      obtain ⟨e, d₁, hw⟩ : ∃ e d₁, writePartitionEntry dev part d = .ok (e, d₁) :=
        writePartitionEntry_returns fun _ => ⟨le_of_eq hs, hn⟩
      rw [writeInOrder_cons, hw]
      simp only
      split
      · exact ih fun part hp => h part (List.mem_cons_of_mem _ hp)
      · exact ⟨e, d₁, rfl⟩
    · -- the entry is refused, the others are not reached
      obtain ⟨e, d₁, hw⟩ : ∃ e d₁, writePartitionEntry dev part d = .ok (e, d₁) :=
        writePartitionEntry_returns fun ha' => absurd ha' ha
      obtain ⟨hne, -⟩ | ⟨-, ha', -⟩ := writePartitionEntry_effect hw
      · rw [writeInOrder_cons, hw]
        exact ⟨e, d₁, if_neg hne⟩
      · exact absurd ha' ha

/-- So is what is written entry by entry. -/
lemma sameBeyond_of_writeInOrder (h : writeInOrder dev entries d = .ok (e, d')) :
    SameBeyond dev d d' := by
  obtain ⟨k, d₁, hk, hwritten, hall, hstop⟩ := writeInOrder_returns h
  by_cases hlen : k = entries.length
  · rw [(hall hlen).2]
    exact hwritten.sameBeyond
  · have hlt : k < entries.length := lt_of_le_of_ne hk hlen
    have hw := (hstop _ (List.getElem?_eq_getElem hlt)).2
    exact fun j hj => (sameBeyond_of_returns hw j hj).trans (hwritten.sameBeyond j hj)

/-- On a reliable device one entry that is reached and out of bounds is enough. -/
lemma writeInOrder_fault (hrel : dev.Reliable)
    (hp : part ∈ entries.takeWhile (Accepted dev.sectorCount ·))
    (hf : ¬ (dev.sectorSize ≤ mbrSize ∧ part.physicalNumber.toNat < 4)) :
    ∃ f, writeInOrder dev entries d = .error f := by
  induction entries generalizing d with
  | nil => cases hp
  | cons entry entries ih =>
    by_cases ha : Accepted dev.sectorCount entry
    · rw [List.takeWhile_cons_of_pos (by simpa using ha)] at hp
      rw [writeInOrder_cons]
      by_cases hfit : dev.sectorSize ≤ mbrSize ∧ entry.physicalNumber.toNat < 4
      · obtain ⟨d₁, hw, -⟩ := writePartitionEntry_written (d := d) hrel ha hfit.1 hfit.2
        rw [hw]
        cases List.mem_cons.mp hp with
        | inl he => exact absurd (he ▸ hfit) hf
        | inr hp => exact ih hp
      · obtain ⟨f, hw⟩ := writePartitionEntry_fault (d := d) hrel ha hfit
        rw [hw]
        exact ⟨f, rfl⟩
    · rw [List.takeWhile_cons_of_neg (by simpa using ha)] at hp
      cases hp

/-- The buffer that `create_mbr` fills. -/
lemma createMbr_eq : ∃ mbr : List UInt8, mbr.length = mbrSize ∧
    createMbr dev d = dev.writeFrom mbr 0 1 d := by
  have h₁ : mbrSignature < (List.replicate mbrSize (0 : UInt8)).length := by
    rw [List.length_replicate]
    decide
  have h₂ : mbrSignature + 1 <
      ((List.replicate mbrSize (0 : UInt8)).set mbrSignature mbrSignatureLo).length := by
    rw [List.length_set, List.length_replicate]
    decide
  refine ⟨((List.replicate mbrSize 0).set mbrSignature mbrSignatureLo).set (mbrSignature + 1)
    mbrSignatureHi, ?_, ?_⟩
  · rw [List.length_set, List.length_set, List.length_replicate]
  · rw [createMbr, store, Bytes.store_of_lt h₁]
    simp only [bind, Except.bind]
    rw [store, Bytes.store_of_lt h₂]

/-- A write of a buffer of 512 bytes. -/
lemma writeFrom_returns_iff {mbr : List UInt8} (hl : mbr.length = mbrSize)
    (hmin : 512 ≤ dev.sectorSize) :
    (∃ r, dev.writeFrom mbr 0 1 d = .ok r) ↔ dev.sectorSize = 512 := by
  constructor
  · rintro ⟨r, hw⟩
    by_contra hs
    rw [Storage.writeFrom_overrun (by rw [hl, mbrSize]; omega)] at hw
    cases hw
  · intro hs
    exact ⟨_, Storage.writeFrom_of_le (by rw [hl, mbrSize]; omega)⟩

/-- What is mapped to a result has one. -/
lemma returns_of_map {ε α β : Type} {x : Except ε α} {f : α → β} {b : β} (h : x.map f = .ok b) :
    ∃ a, x = .ok a := by
  cases x with
  | error e => cases h
  | ok a => exact ⟨a, rfl⟩

/-- A function that fits returns, and keeps what lies beyond the entries it writes. -/
lemma Operation.run_returns {op : Operation} (hmin : 512 ≤ dev.sectorSize)
    (h : op.Fits dev.sectorSize dev.sectorCount) :
    ∃ d', op.run dev d = .ok d' ∧ (op.WritesEntries → SameBeyond dev d d') := by
  cases op with
  | getPartitionEntries =>
    refine ⟨(Fdisk.getPartitionEntries dev.toBlockDevice d).2, ?_, nofun⟩
    rw [run, Checked.getPartitionEntries_of_le hmin]
    rfl
  | writePartitionEntry part =>
    obtain ⟨e, d', hw⟩ : ∃ e d', Fdisk.writePartitionEntry dev part d = .ok (e, d') :=
      writePartitionEntry_returns fun ha => ⟨le_of_eq (h ha).1, (h ha).2⟩
    refine ⟨d', ?_, fun _ => sameBeyond_of_returns hw⟩
    rw [run, hw]
    rfl
  | writePartitionEntries entries =>
    obtain ⟨e, d', hw⟩ : ∃ e d', writeInOrder dev entries.toList d = .ok (e, d') :=
      writeInOrder_inBounds h
    refine ⟨d', ?_, fun _ => sameBeyond_of_writeInOrder hw⟩
    rw [run, Fdisk.writePartitionEntries, hw]
    rfl
  | validateMbr =>
    refine ⟨(dev.read 0 1 d).2, ?_, nofun⟩
    rw [run, validateMbr_of_le (le_of_eq h)]
    rfl
  | eraseMbr =>
    obtain ⟨r, hw⟩ : ∃ r, dev.writeFrom (List.replicate mbrSize 0) 0 1 d = .ok r :=
      (writeFrom_returns_iff List.length_replicate hmin).mpr h
    refine ⟨r.2, ?_, nofun⟩
    rw [run, Fdisk.eraseMbr, hw]
    rfl
  | createMbr =>
    obtain ⟨mbr, hl, hc⟩ : ∃ mbr : List UInt8, mbr.length = mbrSize ∧
      Fdisk.createMbr dev d = dev.writeFrom mbr 0 1 d := createMbr_eq
    obtain ⟨r, hw⟩ := (writeFrom_returns_iff hl hmin).mpr h
    refine ⟨r.2, ?_, nofun⟩
    rw [run, hc, hw]
    rfl

/-- A function that returns on a reliable device fits. -/
lemma Operation.fits_of_returns {op : Operation} (hrel : dev.Reliable) (hmin : 512 ≤ dev.sectorSize)
    (h : op.run dev d = .ok d') : op.Fits dev.sectorSize dev.sectorCount := by
  cases op with
  | getPartitionEntries => trivial
  | writePartitionEntry part =>
    intro ha
    by_contra hfit
    obtain ⟨f, hf⟩ := writePartitionEntry_fault (d := d) hrel ha
      fun hle => hfit ⟨le_antisymm hle.1 hmin, hle.2⟩
    rw [run, hf] at h
    cases h
  | writePartitionEntries entries =>
    intro part hp
    by_contra hfit
    obtain ⟨f, hf⟩ := writeInOrder_fault (d := d) hrel hp
      fun hle => hfit ⟨le_antisymm hle.1 hmin, hle.2⟩
    rw [run, Fdisk.writePartitionEntries, hf] at h
    cases h
  | validateMbr =>
    by_contra hs
    rw [run, validateMbr_overrun (lt_of_le_of_ne hmin (Ne.symm hs))] at h
    cases h
  | eraseMbr =>
    have hl : (List.replicate mbrSize (0 : UInt8)).length = mbrSize := List.length_replicate
    rw [run, Fdisk.eraseMbr] at h
    exact (writeFrom_returns_iff hl hmin).mp (returns_of_map h)
  | createMbr =>
    obtain ⟨mbr, hl, hc⟩ : ∃ mbr : List UInt8, mbr.length = mbrSize ∧
      Fdisk.createMbr dev d = dev.writeFrom mbr 0 1 d := createMbr_eq
    rw [run, hc] at h
    exact (writeFrom_returns_iff hl hmin).mp (returns_of_map h)

/-- The functions stay within their buffers on every device of a geometry exactly when its sectors
have 512 bytes and the entries they accept are numbered by slots; listing always does. -/
theorem inBounds_iff {sectorSize : Nat} {sectorCount : UInt64} {op : Operation}
    (hmin : 512 ≤ sectorSize) :
    op.InBounds sectorSize sectorCount ↔ op.Fits sectorSize sectorCount := by
  constructor
  · intro h
    obtain ⟨d', hw, -⟩ := h (Storage.ram sectorSize sectorCount)
      (Storage.Ram.holding sectorSize []) rfl rfl
    have hrel : (Storage.ram sectorSize sectorCount).Reliable := Storage.ram_reliable
    exact Operation.fits_of_returns hrel hmin hw
  · rintro h δ dev d rfl rfl
    exact Operation.run_returns hmin h

end inBounds

/-- A partition for slot 1, one that does not fit on the device, and one with a number that no slot has,
which is not looked at any more. -/
def refusedSecond : Vector PartitionConf 4 :=
  #v[⟨1, 1, 10, 0x83, false⟩, ⟨2, 120, 100, 0x83, false⟩, ⟨9, 20, 10, 0x83, false⟩, {}]

/-- A list whose second entry is refused. -/
theorem inBounds_refusedSecond :
    (Operation.writePartitionEntries refusedSecond).InBounds 512 128 := by
  have hmin : 512 ≤ 512 := le_rfl
  rw [inBounds_iff hmin]
  show ∀ part ∈ refusedSecond.toList.takeWhile (Accepted 128 ·), _
  rw [show refusedSecond.toList.takeWhile (Accepted 128 ·) = [⟨1, 1, 10, 0x83, false⟩] by decide]
  decide

/-- On 4096-byte sectors `validate_mbr` overruns its buffer. -/
theorem not_inBounds_validateMbr : ¬ Operation.validateMbr.InBounds 4096 128 := by
  intro h
  obtain ⟨d', hw, -⟩ := h (Storage.ram 4096 128) (Storage.Ram.holding 4096 []) rfl rfl
  have hlt : mbrSize < (Storage.ram 4096 128).sectorSize := by
    show 512 < 4096
    decide
  rw [Operation.run, validateMbr_overrun hlt] at hw
  cases hw

end Fdisk
end Evfs
