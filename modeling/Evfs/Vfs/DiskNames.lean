import Evfs.Vfs.PartitionLookup

/-!
# Names of partitions

`create_partition_name` puts `p` and a number behind the name of a disk; `split_disk_name` takes such
a name apart at its first `p` and reads what follows with `std::stoi`. The two are inverse for the
disks whose name has no `p` itself. A string without `p` is the name of a whole disk; one with a `p`
is taken for the name of the partition it is only if the numeral of a byte follows.
-/

namespace Evfs
open Lib

/-- The name of a partition is taken apart as it was put together, and is looked up on the disk
registered under the first part. -/
def SplitsBack (d : Str) (i : Nat) : Prop :=
  splitDiskName (createPartitionName d i) = .ok (d, some i) ∧
    ∀ factories (diskMgr : DiskManager) disk, diskMgr.get d = some disk →
      fsDiscovery factories diskMgr (createPartitionName d i) =
        .ok (match disk.borrowPartition i with
          | none => .error EINVAL
          | some ref => Disk.select factories (disk.partitions.getD i {}).type ref)

/-- A string is split without an exception, and a partition is selected by the name of that partition
only. -/
def SplitsRight (s : Str) : Prop :=
  ∃ diskn partn, splitDiskName s = .ok (diskn, partn) ∧
    ∀ i ∈ partn, i < 256 ∧ s = createPartitionName diskn i

/-- What follows the first `p`, if there is one, is the numeral of a byte. -/
def NumberBehindP (s : Str) : Prop :=
  ∀ number, s.dropWhile (· ≠ 'p') = 'p' :: number → ∃ i < 256, number = toString' i

/-- The rest begins with `p`, or is empty. -/
lemma dropWhile_p {s : Str} : s.dropWhile (· ≠ 'p') = [] ∨
    ∃ number, s.dropWhile (· ≠ 'p') = 'p' :: number := by
  cases e : s.dropWhile (· ≠ 'p') with
  | nil => exact .inl rfl
  | cons c number =>
    have hc := List.head?_dropWhile_not (fun c => decide (c ≠ 'p')) s
    rw [e] at hc
    have hc : c = 'p' := by simpa using hc
    exact .inr ⟨number, by rw [hc]⟩

/-- There is no `p` before it. -/
lemma notMem_takeWhile_p (s : Str) : 'p' ∉ s.takeWhile (· ≠ 'p') := by
  intro h
  simpa using List.mem_takeWhile_imp h

/-- The disk name that is split off has no `p`. -/
lemma notMem_of_splitDiskName {s diskn : Str} {partn : Option Nat}
    (h : splitDiskName s = .ok (diskn, partn)) : 'p' ∉ diskn := by
  unfold splitDiskName at h
  split at h
  · rename_i e
    cases h
    intro hp
    have h' := List.dropWhile_eq_nil_iff.mp e _ hp
    simp at h'
  · split at h
    · cases h
    · cases h
      exact notMem_takeWhile_p s

/-- A partition name is split back exactly if the disk name has no `p`. -/
lemma splitsBack_iff {d : Str} {i : Nat} (hi : i < 256) : SplitsBack d i ↔ 'p' ∉ d := by
  constructor
  · exact fun h => notMem_of_splitDiskName h.1
  · intro hp
    refine ⟨Disk.splitDiskName_create hp hi, fun factories diskMgr disk hg => ?_⟩
    unfold fsDiscovery
    simp only [Disk.splitDiskName_create hp hi, hg]
    cases hb : disk.borrowPartition i with
    | none => rfl
    | some ref =>
      have hr : ref.index = i := by
        unfold Disk.borrowPartition at hb
        split at hb
        · cases hb
        · cases hb
          rfl
      simp only [Disk.select, hr]
      cases getFsTypeFromMbrCode factories (disk.partitions.getD i {}).type <;> rfl

/-- A string is split right exactly if it has no `p` or the numeral of a byte follows its first. -/
lemma splitsRight_iff {s : Str} : SplitsRight s ↔ NumberBehindP s := by
  have hs : s.takeWhile (· ≠ 'p') ++ s.dropWhile (· ≠ 'p') = s := List.takeWhile_append_dropWhile
  constructor
  · rintro ⟨diskn, partn, h, right⟩ number e
    unfold splitDiskName at h
    rw [e] at h hs
    simp only at h
    split at h
    · cases h
    · rename_i v hv
      cases h
      obtain ⟨lt, hc⟩ := right _ rfl
      refine ⟨_, lt, ?_⟩
      rw [createPartitionName, List.append_assoc] at hc
      have hc := List.append_cancel_left (hs.trans hc)
      exact (List.cons.inj hc).2
  · intro h
    rcases dropWhile_p (s := s) with e | ⟨number, e⟩
    · refine ⟨s, none, ?_, fun i hi => ?_⟩
      · unfold splitDiskName
        rw [e]
      · cases hi
    · obtain ⟨i, lt, rfl⟩ := h number e
      have hc : s = createPartitionName (s.takeWhile (· ≠ 'p')) i := by
        rw [createPartitionName, List.append_assoc]
        rw [e] at hs
        exact hs.symm
      refine ⟨s.takeWhile (· ≠ 'p'), some i, ?_, ?_⟩
      · conv_lhs => rw [hc]
        exact Disk.splitDiskName_create (notMem_takeWhile_p s) lt
      · rintro j ⟨⟩
        exact ⟨lt, hc⟩

/-- The two functions are inverse exactly on disk names without a `p`; and a string is parsed as it
should exactly if it has no `p`, or the numeral of a byte follows its first one. -/
theorem partitionNames_iff {d s : Str} {i : Nat} (hi : i < 256) :
    (SplitsBack d i ↔ 'p' ∉ d) ∧ (SplitsRight s ↔ NumberBehindP s) :=
  ⟨splitsBack_iff hi, splitsRight_iff⟩

/-- A name with a partition number. -/
theorem partitionNames_sdp1 : (SplitsBack "sd".toList 1 ↔ 'p' ∉ "sd".toList) ∧
    (SplitsRight "sdp1".toList ↔ NumberBehindP "sdp1".toList) :=
  partitionNames_iff (by decide)

/-- A disk `sp0` is not found by the names of its partitions, the name of another disk is read from
some of them; a name can throw, and one with a number that is no byte selects a partition. -/
theorem not_splitsBack_sp0 :
    splitDiskName (createPartitionName "sp0".toList 1) = .ok ("s".toList, some 0) ∧
      splitDiskName (createPartitionName "pmem".toList 0) = .error .stoi ∧
      splitDiskName "sdp".toList = .error .stoi ∧
      splitDiskName "sdp256".toList = .ok ("sd".toList, some 0) ∧
      splitDiskName "sdp -1x".toList = .ok ("sd".toList, some 255) ∧
      ¬ SplitsBack "sp0".toList 1 ∧ ¬ SplitsRight "sdp".toList ∧ ¬ SplitsRight "sdp256".toList := by
  refine ⟨by decide, by decide, by decide, by decide, by decide, ?_, ?_, ?_⟩
  · rw [splitsBack_iff (by decide)]
    decide
  · rintro ⟨diskn, partn, h, -⟩
    have e : splitDiskName "sdp".toList = .error .stoi := by decide
    rw [e] at h
    cases h
  · rintro ⟨diskn, partn, h, right⟩
    have e : splitDiskName "sdp256".toList = .ok ("sd".toList, some 0) := by decide
    rw [e] at h
    cases h
    exact absurd (right 0 rfl).2 (by decide)

end Evfs
