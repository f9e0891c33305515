import Evfs.Common.Disk
import Mathlib.Data.List.Range

/-!
# Reading and writing a partition

Port of `Partition::read` and `Partition::write` of `lib/common/partition.cpp`. They hand the request
on to the disk, its sector number moved by the start of the partition in 64-bit arithmetic, and do
not compare it with the size of the partition. `logged` is a device that writes down the sectors it is
asked for; through it `IoRight` says what a request owes, and `inRange_of_ioRight` when it is met.
-/

namespace Evfs

/-- A request to a partition. -/
inductive IoOp where
  | read (lba count : Nat)
  | write (buf : List UInt8) (lba count : Nat)

namespace IoOp

def lba : IoOp → Nat
  | .read lba _ => lba
  | .write _ lba _ => lba

def count : IoOp → Nat
  | .read _ count => count
  | .write _ _ count => count

end IoOp

namespace Partition
variable {δ : Type}

/-- `Partition::translate_sector`. -/
def translateSector (info : MBRPartition) (sector : Nat) : Nat :=
  (sector + info.startSector) % 2 ^ 64

/-- `Partition::read`. -/
def read (info : MBRPartition) (dev : BlockDevice δ) (lba count : Nat) (d : δ) :
    (ErrorCode × List UInt8) × δ :=
  dev.read (translateSector info lba) count d

/-- `Partition::write`. -/
def write (info : MBRPartition) (dev : BlockDevice δ) (buf : List UInt8) (lba count : Nat) (d : δ) :
    ErrorCode × δ :=
  dev.write buf (translateSector info lba) count d

/-- A request: its error code and the device afterwards. -/
def run (info : MBRPartition) (dev : BlockDevice δ) : IoOp → δ → ErrorCode × δ
  | .read lba count, d => ((read info dev lba count d).1.1, (read info dev lba count d).2)
  | .write buf lba count, d => write info dev buf lba count d

/-- The device after a list of requests. -/
def runAll (info : MBRPartition) (dev : BlockDevice δ) (ops : List IoOp) (d : δ) : δ :=
  ops.foldl (fun d op => (run info dev op d).2) d

end Partition

/-- The device, with a list of the sectors it was asked for. -/
def BlockDevice.logged {δ : Type} (dev : BlockDevice δ) : BlockDevice (δ × List Nat) where
  getName := dev.getName
  probe d := ((dev.probe d.1).1, (dev.probe d.1).2, d.2)
  read lba count d :=
    ((dev.read lba count d.1).1, (dev.read lba count d.1).2, d.2 ++ List.range' lba count)
  write buf lba count d :=
    ((dev.write buf lba count d.1).1, (dev.write buf lba count d.1).2, d.2 ++ List.range' lba count)
  getSectorSize d := ((dev.getSectorSize d.1).1, (dev.getSectorSize d.1).2, d.2)
  getSectorCount d := ((dev.getSectorCount d.1).1, (dev.getSectorCount d.1).2, d.2)

namespace Partition
variable {δ : Type}

/-- The sector lies in the partition. -/
def Inside (info : MBRPartition) (sector : Nat) : Prop :=
  info.startSector ≤ sector ∧ sector < info.startSector + info.numSectors

/-- A request, of any device, is for the sectors meant, all of them in the partition; or it fails
and the device is left alone. -/
def IoRight (info : MBRPartition) (op : IoOp) : Prop :=
  ∀ {δ : Type} (dev : BlockDevice δ) (d : δ) (l : List Nat),
    ((run info dev.logged op (d, l)).2.2 =
        l ++ List.range' (info.startSector + op.lba) op.count ∧
      ∀ sector ∈ List.range' (info.startSector + op.lba) op.count, Inside info sector) ∨
    ((run info dev.logged op (d, l)).1 ≠ 0 ∧ (run info dev.logged op (d, l)).2 = (d, l))

/-- A request stays in the partition, the start of which is not so high that the sector number wraps
around; or it is for nothing. -/
def InRange (info : MBRPartition) (op : IoOp) : Prop :=
  op.count = 0 ∨
    (op.lba + op.count ≤ info.numSectors ∧ info.startSector + op.lba < 2 ^ 64)

variable {info : MBRPartition} {op : IoOp}

/-- The sectors that a request asks for. -/
lemma log_run {dev : BlockDevice δ} {d : δ} {l : List Nat} :
    (run info dev.logged op (d, l)).2.2 =
      l ++ List.range' (translateSector info op.lba) op.count := by
  cases op with
  | read lba count => rfl
  | write buf lba count => rfl

/-- A device that accepts everything. -/
def idle : BlockDevice Unit where
  getName := []
  probe _ := (0, ())
  read _ _ _ := ((0, []), ())
  write _ _ _ _ := (0, ())
  getSectorSize _ := (.ok 512, ())
  getSectorCount _ := (.ok 0, ())

/-- Requests are right exactly if they are in range. -/
lemma ioRight_iff_inRange : IoRight info op ↔ InRange info op := by
  constructor
  · intro right
    cases hc : op.count with
    | zero => exact .inl hc
    | succ n =>
      have h0 : (run info idle.logged op ((), [])).1 = 0 := by cases op <;> rfl
      rcases right idle () [] with ⟨hl, hin⟩ | ⟨he, -⟩
      · rw [log_run, hc] at hl
        rw [hc] at hin
        -- the sectors asked for start at the one meant, and the last one is inside
        have first : translateSector info op.lba = info.startSector + op.lba := by
          simp only [List.range'_succ, List.nil_append] at hl
          exact (List.cons.inj hl).1
        have last : Inside info (info.startSector + op.lba + n) := by
          apply hin
          rw [List.mem_range'_1]
          omega
        have wrap : (op.lba + info.startSector) % 2 ^ 64 < 2 ^ 64 := Nat.mod_lt _ (by decide)
        unfold translateSector at first
        unfold Inside at last
        refine .inr ⟨?_, ?_⟩ <;> omega
      · exact absurd h0 he
  · intro range δ dev d l
    refine .inl ⟨?_, ?_⟩
    · rw [log_run]
      rcases range with h | ⟨-, h⟩
      · rw [h, List.range'_zero, List.range'_zero]
      · rw [translateSector, Nat.add_comm op.lba, Nat.mod_eq_of_lt h]
    · intro sector hs
      rw [List.mem_range'_1] at hs
      unfold Inside
      rcases range with h | ⟨h, -⟩ <;> omega

/-- Requests that are in range leave the partition for no sector. -/
lemma log_runAll {dev : BlockDevice δ} {d : δ} {l : List Nat} {ops : List IoOp}
    (h : ∀ op ∈ ops, InRange info op) {sector : Nat}
    (hs : sector ∈ (runAll info dev.logged ops (d, l)).2) : sector ∈ l ∨ Inside info sector := by
  induction ops generalizing d l with
  | nil => exact .inl hs
  | cons op ops ih =>
    have hin : IoRight info op := ioRight_iff_inRange.mpr (h op List.mem_cons_self)
    have hs' : sector ∈ (runAll info dev.logged ops ((run info dev.logged op (d, l)).2.1,
        (run info dev.logged op (d, l)).2.2)).2 := hs
    rcases ih (fun op' h' => h op' (List.mem_cons_of_mem _ h')) hs' with hs | hs
    · rcases hin dev d l with ⟨hl, inside⟩ | ⟨-, same⟩
      · rw [hl] at hs
        rcases List.mem_append.mp hs with hs | hs
        · exact .inl hs
        · exact .inr (inside sector hs)
      · rw [same] at hs
        exact .inl hs
    · exact .inr hs

/-- A request is right exactly if it is in range; and requests that are in range, however many, touch
no sector of a partition with other sectors. -/
theorem ioRight_iff (info : MBRPartition) :
    (∀ op, IoRight info op ↔ InRange info op) ∧
      ∀ {δ : Type} (dev : BlockDevice δ) (d : δ) (ops : List IoOp),
        (∀ op ∈ ops, InRange info op) → ∀ sector, ¬ Inside info sector →
          sector ∉ (runAll info dev.logged ops (d, [])).2 := by
  refine ⟨fun op => ioRight_iff_inRange, fun dev d ops h sector out hs => ?_⟩
  rcases log_runAll h hs with h | h
  · cases h
  · exact out h

/-- The sectors 64 to 127 of a disk. -/
def firstPartition : MBRPartition := { numSectors := 64, startSector := 64, type := 0x83 }

/-- One sector past its end a partition writes to the next one; and with a sector number close to
`2 ^ 64` it writes the partition table. -/
theorem not_ioRight_firstPartition :
    (run firstPartition idle.logged (.write [] 64 1) ((), [])).2.2 = [128] ∧
      (run firstPartition idle.logged (.write [] (2 ^ 64 - 64) 1) ((), [])).2.2 = [0] ∧
      ¬ IoRight firstPartition (.write [] 64 1) ∧
      ¬ IoRight firstPartition (.write [] (2 ^ 64 - 64) 1) := by
  refine ⟨rfl, by decide +kernel, fun right => ?_, fun right => ?_⟩
  · rcases ioRight_iff_inRange.mp right with h | ⟨h, -⟩
    · cases h
    · exact absurd h (by decide)
  · rcases ioRight_iff_inRange.mp right with h | ⟨h, -⟩
    · cases h
    · exact absurd h (by decide)

end Partition
end Evfs
