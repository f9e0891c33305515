import Evfs.Common.Vfs

/-!
# Finding a listed partition again

`Disk::create` keeps the slots of the partition table that are worth listing, each with a number from
the counter of `fetch_partitions`; `Disk::borrow_partition` and, through the name, `fs_discovery` take
such a number for a position in the list. The two agree on an entry exactly when no slot before the
one it was read from was counted without being listed.
-/

namespace Evfs
open Lib

namespace Fdisk

/-- A slot that the counter counts. -/
def Counted (sectorSize sectorCount : Nat) (part : MBRPartition) : Prop :=
  isExtended part.type = false ∧ validatePartition part sectorSize sectorCount = true

instance (sectorSize sectorCount : Nat) (part : MBRPartition) :
    Decidable (Counted sectorSize sectorCount part) :=
  inferInstanceAs (Decidable (_ ∧ _))

/-- A slot that is listed. -/
def Listed (sectorSize sectorCount : Nat) (part : MBRPartition) : Prop :=
  Counted sectorSize sectorCount part ∧ part.numSectors ≠ 0

instance (sectorSize sectorCount : Nat) (part : MBRPartition) :
    Decidable (Listed sectorSize sectorCount part) :=
  inferInstanceAs (Decidable (_ ∧ _))

/-- The table that `get_partition_entries` goes through, with the geometry it uses. -/
def readTable {δ : Type} (dev : BlockDevice δ) (d : δ) : Option (Nat × Nat × List MBRPartition) :=
  match dev.getSectorSize d with
  | (.error _, _) => none
  | (.ok sectorSize, d) =>
    match dev.getSectorCount d with
    | (.error _, _) => none
    | (.ok sectorCount, d) =>
      let ((e, bytes), _) := dev.read 0 1 d
      let mbr := fillBuffer sectorSize bytes
      if e ≠ 0 ∨ signatureMissing mbr then none
      else some (sectorSize, sectorCount, readPartitions mbr)

variable {sectorSize sectorCount : Nat} {pre post slots : List MBRPartition} {slot : MBRPartition}

/-- A listed slot gets the next number. -/
lemma collect_listed {n : Nat} (h : Listed sectorSize sectorCount slot) :
    collect sectorSize sectorCount (slot :: post) n =
      { slot with physicalNumber := n % 256 } :: collect sectorSize sectorCount post (n + 1) := by
  obtain ⟨⟨he, hv⟩, h0⟩ := h
  simp [collect, he, hv, h0]

/-- A slot that is counted but not listed takes a number. -/
lemma collect_counted {n : Nat} (h : Counted sectorSize sectorCount slot)
    (hn : ¬ Listed sectorSize sectorCount slot) :
    collect sectorSize sectorCount (slot :: post) n =
      collect sectorSize sectorCount post (n + 1) := by
  have h0 : slot.numSectors = 0 := by
    by_contra h0
    exact hn ⟨h, h0⟩
  simp [collect, h.1, h.2, h0]

/-- The other slots take none. -/
lemma collect_skipped {n : Nat} (h : ¬ Counted sectorSize sectorCount slot) :
    collect sectorSize sectorCount (slot :: post) n = collect sectorSize sectorCount post n := by
  cases he : isExtended slot.type with
  | true => simp [collect, he]
  | false =>
    cases hv : validatePartition slot sectorSize sectorCount with
    | true => exact absurd ⟨he, hv⟩ h
    | false => simp [collect, he, hv]

/-- What is collected of a table, slot by slot. -/
lemma collect_append (n : Nat) :
    collect sectorSize sectorCount (pre ++ post) n =
      collect sectorSize sectorCount pre n ++
        collect sectorSize sectorCount post
          (n + (pre.filter fun p => Counted sectorSize sectorCount p).length) := by
  induction pre generalizing n with
  | nil => rfl
  | cons p pre ih =>
    by_cases hl : Listed sectorSize sectorCount p
    · rw [List.cons_append, collect_listed hl, collect_listed hl, ih,
        List.filter_cons_of_pos (by simpa using hl.1), List.length_cons, List.cons_append]
      congr 3
      omega
    · by_cases hc : Counted sectorSize sectorCount p
      · rw [List.cons_append, collect_counted hc hl, collect_counted hc hl, ih,
          List.filter_cons_of_pos (by simpa using hc), List.length_cons]
        congr 2
        omega
      · rw [List.cons_append, collect_skipped hc, collect_skipped hc, ih,
          List.filter_cons_of_neg (by simpa using hc)]

/-- As many partitions as listed slots. -/
lemma length_collect (n : Nat) :
    (collect sectorSize sectorCount slots n).length =
      (slots.filter fun p => Listed sectorSize sectorCount p).length := by
  induction slots generalizing n with
  | nil => rfl
  | cons p slots ih =>
    by_cases hl : Listed sectorSize sectorCount p
    · rw [collect_listed hl, List.filter_cons_of_pos (by simpa using hl), List.length_cons,
        List.length_cons, ih]
    · rw [List.filter_cons_of_neg (by simpa using hl)]
      by_cases hc : Counted sectorSize sectorCount p
      · rw [collect_counted hc hl, ih]
      · rw [collect_skipped hc, ih]

/-- The entry read from a listed slot. -/
lemma collect_getElem (n : Nat) (h : Listed sectorSize sectorCount slot) :
    (collect sectorSize sectorCount (pre ++ slot :: post) n)[(pre.filter fun p =>
        Listed sectorSize sectorCount p).length]? =
      some { slot with physicalNumber :=
        (n + (pre.filter fun p => Counted sectorSize sectorCount p).length) % 256 } := by
  rw [collect_append, collect_listed h, ← length_collect n, List.getElem?_append_right (le_refl _),
    Nat.sub_self]
  rfl

/-- Every entry was read from some listed slot. -/
lemma exists_slot {n i : Nat} {p : MBRPartition}
    (h : (collect sectorSize sectorCount slots n)[i]? = some p) :
    ∃ pre slot post, slots = pre ++ slot :: post ∧ Listed sectorSize sectorCount slot ∧
      (pre.filter fun p => Listed sectorSize sectorCount p).length = i := by
  induction slots generalizing n i with
  | nil => cases h
  | cons q slots ih =>
    by_cases hl : Listed sectorSize sectorCount q
    · rw [collect_listed hl] at h
      cases i with
      | zero => exact ⟨[], q, slots, rfl, hl, rfl⟩
      | succ i =>
        obtain ⟨pre, slot, post, e, hs, hi⟩ := ih h
        refine ⟨q :: pre, slot, post, by rw [e]; rfl, hs, ?_⟩
        rw [List.filter_cons_of_pos (by simpa using hl), List.length_cons, hi]
    · have h' : ∃ n, (collect sectorSize sectorCount slots n)[i]? = some p := by
        by_cases hc : Counted sectorSize sectorCount q
        · exact ⟨_, collect_counted hc hl ▸ h⟩
        · exact ⟨_, collect_skipped hc ▸ h⟩
      obtain ⟨_, h'⟩ := h'
      obtain ⟨pre, slot, post, e, hs, hi⟩ := ih h'
      refine ⟨q :: pre, slot, post, by rw [e]; rfl, hs, ?_⟩
      rw [List.filter_cons_of_neg (by simpa using hl), hi]

/-- The slots before the one an entry was read from are determined by its position. -/
lemma before_unique {pre' post' : List MBRPartition} {slot' : MBRPartition}
    (e : pre ++ slot :: post = pre' ++ slot' :: post')
    (h : Listed sectorSize sectorCount slot) (h' : Listed sectorSize sectorCount slot')
    (hn : (pre.filter fun p => Listed sectorSize sectorCount p).length =
      (pre'.filter fun p => Listed sectorSize sectorCount p).length) : pre = pre' := by
  rcases List.append_eq_append_iff.mp e with ⟨as, rfl, e'⟩ | ⟨as, rfl, e'⟩
  · cases as with
    | nil => exact (List.append_nil _).symm
    | cons a as =>
      obtain ⟨rfl, -⟩ := List.cons.inj e'
      rw [List.filter_append, List.length_append,
        List.filter_cons_of_pos (by simpa using h), List.length_cons] at hn
      omega
  · cases as with
    | nil => exact List.append_nil _
    | cons a as =>
      obtain ⟨rfl, -⟩ := List.cons.inj e'
      rw [List.filter_append, List.length_append,
        List.filter_cons_of_pos (by simpa using h'), List.length_cons] at hn
      omega

/-- The listed slots are the counted ones exactly when no counted one is empty. -/
lemma length_counted :
    (pre.filter fun p => Counted sectorSize sectorCount p).length =
      (pre.filter fun p => Listed sectorSize sectorCount p).length ↔
    ∀ p ∈ pre, Counted sectorSize sectorCount p → p.numSectors ≠ 0 := by
  have hf : (pre.filter fun p => Listed sectorSize sectorCount p) =
      (pre.filter fun p => Counted sectorSize sectorCount p).filter fun p => p.numSectors ≠ 0 := by
    rw [List.filter_filter]
    apply List.filter_congr
    intro p _
    rw [Bool.eq_iff_iff, Bool.and_eq_true, decide_eq_true_eq, decide_eq_true_eq, decide_eq_true_eq]
    exact And.comm
  rw [hf, eq_comm, List.length_filter_eq_length_iff]
  simp only [List.mem_filter, decide_eq_true_eq, and_imp]

end Fdisk

namespace Disk
variable {δ : Type} {dev : BlockDevice δ} {d : δ} {id : DiskId} {disk : Disk}

/-- The partition that a lookup with this result selects: its own type code decides the type. -/
def select (factories : UnorderedMap Str (FsType × Option Factory)) (type : UInt8) (ref : PartRef) :
    Except ErrorCode (FsType × PartRef) :=
  match getFsTypeFromMbrCode factories type with
  | some t => .ok (t, ref)
  | none => .error EINVAL

/-- The entry at a position is found again by its number and, under a disk name without a `p`, by
its name. -/
def FoundAgain (disk : Disk) (i : Nat) (p : MBRPartition) : Prop :=
  disk.borrowPartition p.physicalNumber = some ⟨disk.id, i⟩ ∧
    ('p' ∉ disk.name → ∀ factories (diskMgr : DiskManager), diskMgr.get disk.name = some disk →
      fsDiscovery factories diskMgr (createPartitionName disk.name p.physicalNumber) =
        .ok (select factories p.type ⟨disk.id, i⟩))

/-- No empty slot was counted before the slot that the entry at the position was read from. -/
def NoGapBefore {δ : Type} (dev : BlockDevice δ) (d : δ) (i : Nat) : Prop :=
  ∃ sectorSize sectorCount pre slot post,
    Fdisk.readTable dev d = some (sectorSize, sectorCount, pre ++ slot :: post) ∧
    Fdisk.Listed sectorSize sectorCount slot ∧
    (pre.filter fun p => Fdisk.Listed sectorSize sectorCount p).length = i ∧
    ∀ p ∈ pre, Fdisk.Counted sectorSize sectorCount p → p.numSectors ≠ 0

/-- The partitions of a disk are what is collected of its table. -/
lemma create_partitions (h : (create id dev d).1 = .ok disk) :
    disk.id = id ∧ disk.name = dev.getName ∧
      disk.partitions = match Fdisk.readTable dev d with
        | some (sectorSize, sectorCount, slots) => Fdisk.collect sectorSize sectorCount slots 0
        | none => [] := by
  unfold create Fdisk.getPartitionEntries at h
  unfold Fdisk.readTable
  cases hs : dev.getSectorSize d with
  | mk rs d₁ =>
    cases rs with
    | error e =>
      simp only [hs] at h ⊢
      split at h
      · cases h
      · cases h
        exact ⟨rfl, rfl, rfl⟩
    | ok sectorSize =>
      simp only [hs] at h ⊢
      cases hc : dev.getSectorCount d₁ with
      | mk rc d₂ =>
        cases rc with
        | error e =>
          simp only [hc] at h ⊢
          split at h
          · cases h
          · cases h
            exact ⟨rfl, rfl, rfl⟩
        | ok sectorCount =>
          simp only [hc] at h ⊢
          by_cases he : (dev.read 0 1 d₂).1.1 = 0
          · by_cases hm : Fdisk.signatureMissing
                (Fdisk.fillBuffer sectorSize (dev.read 0 1 d₂).1.2) = true
            · simp [he, hm, Fdisk.fetchPartitions, ENXIO] at h ⊢
              rw [← h]
              exact ⟨rfl, rfl, rfl⟩
            · simp [he, hm, Fdisk.fetchPartitions] at h ⊢
              rw [← h]
              exact ⟨rfl, rfl, rfl⟩
          · simp [he] at h ⊢
            split at h
            · cases h
              exact ⟨rfl, rfl, rfl⟩
            · cases h

/-- A table has four slots. -/
lemma length_readTable {sectorSize sectorCount : Nat} {slots : List MBRPartition}
    (h : Fdisk.readTable dev d = some (sectorSize, sectorCount, slots)) : slots.length = 4 := by
  unfold Fdisk.readTable at h
  split at h
  · cases h
  · split at h
    · cases h
    · simp only at h
      split at h
      · cases h
      · cases h
        rfl

/-- Partitions are borrowed by their place. -/
lemma borrowPartition_eq_some {nr i : Nat} :
    disk.borrowPartition nr = some ⟨disk.id, i⟩ ↔ nr = i ∧ i < disk.partitions.length := by
  unfold borrowPartition
  split
  · rename_i h
    constructor
    · intro e
      cases e
    · rintro ⟨rfl, hlt⟩
      omega
  · rename_i h
    constructor
    · intro e
      cases e
      exact ⟨rfl, not_le.mp h⟩
    · rintro ⟨rfl, -⟩
      rfl

/-- A name with a number below 256 is split at its `p`. -/
lemma splitDiskName_create {name : Str} {n : Nat} (hp : 'p' ∉ name) (hn : n < 256) :
    splitDiskName (createPartitionName name n) = .ok (name, some n) := by
  have ha : ∀ c ∈ name, (decide (c ≠ 'p')) = true := by
    intro c hc
    have : c ≠ 'p' := fun e => hp (e ▸ hc)
    simpa using this
  have hd : (createPartitionName name n).dropWhile (· ≠ 'p') = 'p' :: toString' n := by
    rw [createPartitionName, List.append_assoc, List.dropWhile_append_of_pos ha]
    rfl
  have ht : (createPartitionName name n).takeWhile (· ≠ 'p') = name := by
    rw [createPartitionName, List.append_assoc, List.takeWhile_append_of_pos ha]
    exact List.append_nil _
  unfold splitDiskName
  rw [hd]
  simp only [stoi_toString (show n < 2 ^ 31 by omega), ht]
  congr 3
  omega

/-- `fs_discovery` on the name of a borrowed partition. -/
lemma fsDiscovery_create {factories : UnorderedMap Str (FsType × Option Factory)}
    {diskMgr : DiskManager} {n : Nat} (hp : 'p' ∉ disk.name) (hn : n < 256)
    (hl : n < disk.partitions.length) (hg : diskMgr.get disk.name = some disk) :
    fsDiscovery factories diskMgr (createPartitionName disk.name n) =
      .ok (select factories (disk.partitions.getD n {}).type ⟨disk.id, n⟩) := by
  have hb : disk.borrowPartition n = some ⟨disk.id, n⟩ := borrowPartition_eq_some.mpr ⟨rfl, hl⟩
  unfold fsDiscovery select
  simp only [splitDiskName_create hp hn, hg, hb]
  cases getFsTypeFromMbrCode factories (disk.partitions.getD n {}).type <;> rfl

/-- A listed partition is found again by its own number and name exactly when no empty slot was
counted before its own. -/
theorem foundAgain_iff_noGapBefore {i : Nat} {p : MBRPartition}
    (hc : (create id dev d).1 = .ok disk) (hi : disk.partitions[i]? = some p) :
    FoundAgain disk i p ↔ NoGapBefore dev d i := by
  obtain ⟨-, -, hparts⟩ := create_partitions hc
  cases ht : Fdisk.readTable dev d with
  | none =>
    rw [hparts, ht] at hi
    cases hi
  | some t =>
    obtain ⟨sectorSize, sectorCount, slots⟩ := t
    have hlen := length_readTable ht
    rw [ht] at hparts
    have hi' := hi
    rw [hparts] at hi'
    obtain ⟨pre, slot, post, e, hl, hpos⟩ := Fdisk.exists_slot hi'
    subst e
    -- the number of the entry is the number of slots counted before it
    have hp : (Fdisk.collect sectorSize sectorCount (pre ++ slot :: post) 0)[_]? = _ :=
      Fdisk.collect_getElem 0 hl
    rw [hpos, hi', Nat.zero_add] at hp
    have hp := Option.some.inj hp
    have hbound : (pre.filter fun p => Fdisk.Counted sectorSize sectorCount p).length < 256 := by
      have h1 := List.length_filter_le (fun p => decide (Fdisk.Counted sectorSize sectorCount p)) pre
      rw [List.length_append] at hlen
      omega
    have hnum : p.physicalNumber =
        (pre.filter fun p => Fdisk.Counted sectorSize sectorCount p).length := by
      rw [hp]
      exact Nat.mod_eq_of_lt hbound
    have hlt : i < disk.partitions.length := by
      rw [List.getElem?_eq_some_iff] at hi
      exact hi.1
    have gap : NoGapBefore dev d i ↔
        ∀ p ∈ pre, Fdisk.Counted sectorSize sectorCount p → p.numSectors ≠ 0 := by
      constructor
      · rintro ⟨ss, sc, pre', slot', post', ht', hl', hpos', hg⟩
        obtain ⟨rfl, e₁⟩ := Prod.mk.inj (Option.some.inj (ht.symm.trans ht'))
        obtain ⟨rfl, e₂⟩ := Prod.mk.inj e₁
        obtain rfl := Fdisk.before_unique e₂ hl hl' (hpos.trans hpos'.symm)
        exact hg
      · exact fun hg => ⟨sectorSize, sectorCount, pre, slot, post, ht, hl, hpos, hg⟩
    rw [gap, ← Fdisk.length_counted, hpos, ← hnum]
    constructor
    · exact fun h => (borrowPartition_eq_some.mp h.1).1
    · intro h
      refine ⟨borrowPartition_eq_some.mpr ⟨h, hlt⟩, fun hn factories diskMgr hg => ?_⟩
      rw [fsDiscovery_create hn (hnum ▸ hbound) (h ▸ hlt) hg, h]
      have ht : disk.partitions.getD i {} = p := by
        rw [List.getD_eq_getElem?_getD, hi]
        rfl
      rw [ht]

/-- The bytes of a slot. -/
def slotBytes (type start count : UInt8) : List UInt8 :=
  [0, 0, 0, 0, type, 0, 0, 0, start, 0, 0, 0, count, 0, 0, 0]

/-- A device of 128 sectors with the given partition table. -/
def tableDevice (table : List UInt8) : BlockDevice Unit where
  getName := "sd".toList
  probe d := (0, d)
  read _ _ d := ((0, List.replicate 446 0 ++ table ++ [0x55, 0xAA]), d)
  write _ _ _ d := (0, d)
  getSectorSize d := (.ok 512, d)
  getSectorCount d := (.ok 128, d)

/-- The first two slots are used. -/
def fullTable : List UInt8 :=
  slotBytes 0x83 1 10 ++ slotBytes 0x83 11 10 ++ slotBytes 0 0 0 ++ slotBytes 0 0 0

/-- The first slot is empty. -/
def gapTable : List UInt8 :=
  slotBytes 0 0 0 ++ slotBytes 0x83 1 10 ++ slotBytes 0x83 11 10 ++ slotBytes 0 0 0

/-- The disk with both slots. -/
def fullDisk : Disk := ⟨0, "sd".toList, [⟨0, 1, 10, false, 0x83⟩, ⟨1, 11, 10, false, 0x83⟩]⟩

/-- A partition behind slots without a gap. -/
theorem foundAgain_fullTable :
    FoundAgain fullDisk 1 ⟨1, 11, 10, false, 0x83⟩ ↔ NoGapBefore (tableDevice fullTable) () 1 := by
  have hc : (create 0 (tableDevice fullTable) ()).1 = .ok fullDisk := by decide +kernel
  exact foundAgain_iff_noGapBefore hc rfl

/-- The disk with an empty slot before the used ones. -/
def gapDisk : Disk := ⟨0, "sd".toList, [⟨1, 1, 10, false, 0x83⟩, ⟨2, 11, 10, false, 0x83⟩]⟩

/-- Behind an empty slot, the number of the first partition finds the second. -/
theorem not_foundAgain_gapTable :
    (create 0 (tableDevice gapTable) ()).1 = .ok gapDisk ∧
      gapDisk.partitions[0]? = some ⟨1, 1, 10, false, 0x83⟩ ∧
      ¬ FoundAgain gapDisk 0 ⟨1, 1, 10, false, 0x83⟩ := by
  refine ⟨by decide +kernel, rfl, ?_⟩
  rintro ⟨h, -⟩
  exact absurd h (by decide)

end Disk
end Evfs
