import Mathlib.Logic.Function.Basic
import Evfs.Tools.Fdisk

/-!
# Devices with their sectors

The contract of `lib/api/vfs/blockdev.hpp` that partition tables rely on. A `Storage` is a block
device together with its geometry and the contents of its sectors: a request that succeeds moves a
sector, one that fails leaves the sectors as they were. The caller hands over an address only, so a
buffer that is shorter than the sectors asked for is overrun.
-/

namespace Evfs

/-- Undefined behaviour of the functions on partition tables. -/
inductive BufferFault where
  /-- The device moves more bytes than the buffer it was given has. -/
  | overrun
  /-- An access outside of the sector buffer. -/
  | index
  deriving DecidableEq, Repr

/-- A block device with its geometry and sectors. -/
structure Storage (δ : Type) extends BlockDevice δ where
  sectorSize : Nat
  sectorCount : UInt64
  sectors : δ → Nat → List UInt8
  length_sectors : ∀ d lba, (sectors d lba).length = sectorSize
  /-- The queries are `const`; they report the geometry or fail. -/
  getSectorSize_state : ∀ d, (getSectorSize d).2 = d
  getSectorSize_ok : ∀ d n, (getSectorSize d).1 = .ok n → n = sectorSize
  getSectorCount_state : ∀ d, (getSectorCount d).2 = d
  getSectorCount_ok : ∀ d n, (getSectorCount d).1 = .ok n → n = sectorCount.toNat
  getSectorCount_error : ∀ d e, (getSectorCount d).1 = .error e → e ≠ 0
  read_sectors : ∀ lba d, sectors (read lba 1 d).2 = sectors d
  read_ok : ∀ lba d, (read lba 1 d).1.1 = 0 → (read lba 1 d).1.2 = sectors d lba
  write_ok : ∀ buf lba d, sectorSize ≤ buf.length → (write buf lba 1 d).1 = 0 →
    sectors (write buf lba 1 d).2 = Function.update (sectors d) lba (buf.take sectorSize)
  write_failed : ∀ buf lba d, (write buf lba 1 d).1 ≠ 0 →
    sectors (write buf lba 1 d).2 = sectors d

namespace Storage
open Fdisk

section requests
variable {δ : Type} (dev : Storage δ)

/-- `read` into a buffer. -/
def readInto (buf : List UInt8) (lba count : Nat) (d : δ) :
    Except BufferFault ((ErrorCode × List UInt8) × δ) :=
  if buf.length < count * dev.sectorSize then .error .overrun
  else
    let ((e, bytes), d) := dev.read lba count d
    .ok ((e, bytes.take buf.length ++ buf.drop bytes.length), d)

/-- `write` from a buffer. -/
def writeFrom (buf : List UInt8) (lba count : Nat) (d : δ) : Except BufferFault (ErrorCode × δ) :=
  if buf.length < count * dev.sectorSize then .error .overrun
  else .ok (dev.write buf lba count d)

/-- The geometry and sector 0 can be read. -/
structure Readable (d : δ) : Prop where
  size : (dev.getSectorSize d).1 = .ok dev.sectorSize
  count : (dev.getSectorCount d).1 = .ok dev.sectorCount.toNat
  read : (dev.read 0 1 d).1.1 = 0

/-- No request for sector 0 and no query for its number of sectors fails. -/
structure Reliable : Prop where
  count : ∀ d, (dev.getSectorCount d).1 = .ok dev.sectorCount.toNat
  read : ∀ d, (dev.read 0 1 d).1.1 = 0
  write : ∀ buf d, (dev.write buf 0 1 d).1 = 0

variable {dev}

/-- Reading a sector into a smaller buffer. -/
lemma readInto_overrun {buf : List UInt8} {lba : Nat} {d : δ} (h : buf.length < dev.sectorSize) :
    dev.readInto buf lba 1 d = .error .overrun := by
  rw [readInto, if_pos (by omega)]

/-- Reading a sector into a buffer of zeros. -/
lemma readInto_zeros {size lba : Nat} {d : δ} (h : dev.sectorSize ≤ size) :
    dev.readInto (List.replicate size 0) lba 1 d =
      .ok (((dev.read lba 1 d).1.1, fillBuffer size (dev.read lba 1 d).1.2),
        (dev.read lba 1 d).2) := by
  rw [readInto, if_neg (by rw [List.length_replicate]; omega), fillBuffer, List.length_replicate,
    ← List.drop_replicate]

/-- Writing a sector from a smaller buffer. -/
lemma writeFrom_overrun {buf : List UInt8} {lba : Nat} {d : δ} (h : buf.length < dev.sectorSize) :
    dev.writeFrom buf lba 1 d = .error .overrun := by
  rw [writeFrom, if_pos (by omega)]

/-- Writing a sector from a buffer that is large enough. -/
lemma writeFrom_of_le {buf : List UInt8} {lba : Nat} {d : δ} (h : dev.sectorSize ≤ buf.length) :
    dev.writeFrom buf lba 1 d = .ok (dev.write buf lba 1 d) := by
  rw [writeFrom, if_neg (by omega)]

/-- What a query for the number of sectors answers. -/
lemma getSectorCount_cases (dev : Storage δ) (d : δ) :
    dev.getSectorCount d = (.ok dev.sectorCount.toNat, d) ∨
      ∃ e, e ≠ 0 ∧ dev.getSectorCount d = (.error e, d) := by
  have hs := dev.getSectorCount_state d
  cases h : dev.getSectorCount d with
  | mk r d' =>
    rw [h] at hs
    obtain rfl : d' = d := hs
    cases r with
    | error e => exact .inr ⟨e, dev.getSectorCount_error _ e (by rw [h]), rfl⟩
    | ok n => exact .inl (by rw [dev.getSectorCount_ok _ n (by rw [h])])

/-- The sector size of a readable device. -/
lemma Readable.getSectorSize {d : δ} (h : dev.Readable d) :
    dev.getSectorSize d = (.ok dev.sectorSize, d) :=
  Prod.ext h.size (dev.getSectorSize_state d)

/-- And its sector count. -/
lemma Readable.getSectorCount {d : δ} (h : dev.Readable d) :
    dev.getSectorCount d = (.ok dev.sectorCount.toNat, d) :=
  Prod.ext h.count (dev.getSectorCount_state d)

end requests
end Storage

namespace Fdisk

/-- The buffer keeps its size. -/
lemma length_fillBuffer (size : Nat) (bytes : List UInt8) : (fillBuffer size bytes).length = size := by
  rw [fillBuffer, List.length_append, List.length_take, List.length_replicate]
  omega

/-- Bytes of the buffer's size fill it. -/
lemma fillBuffer_self (bytes : List UInt8) : fillBuffer bytes.length bytes = bytes := by
  rw [fillBuffer, List.take_length, Nat.sub_self]
  exact List.append_nil bytes

/-- The bytes that were filled in. -/
lemma getElem?_fillBuffer {size k : Nat} {bytes : List UInt8} (h : k < bytes.length)
    (hs : k < size) : (fillBuffer size bytes)[k]? = bytes[k]? := by
  rw [fillBuffer, List.getElem?_append_left (by rw [List.length_take]; omega),
    List.getElem?_take_of_lt hs]

end Fdisk

namespace Storage
open Fdisk

section ram
variable (size : Nat) (count : UInt64)

/-- The sectors of a device in memory. -/
abbrev Ram (size : Nat) := Nat → { bytes : List UInt8 // bytes.length = size }

/-- A device in memory that never fails, of any geometry. -/
def ram : Storage (Ram size) where
  getName := "ram0".toList
  probe d := (0, d)
  read lba count d := ((0, ((List.range count).map fun i => (d (lba + i)).1).flatten), d)
  write buf lba count d :=
    (0, fun n => if lba ≤ n ∧ n < lba + count then
      ⟨fillBuffer size (buf.drop ((n - lba) * size)), length_fillBuffer _ _⟩ else d n)
  getSectorSize d := (.ok size, d)
  getSectorCount d := (.ok count.toNat, d)
  sectorSize := size
  sectorCount := count
  sectors d n := (d n).1
  length_sectors d n := (d n).2
  getSectorSize_state _ := rfl
  getSectorSize_ok _ _ h := (Except.ok.inj h).symm
  getSectorCount_state _ := rfl
  getSectorCount_ok _ _ h := (Except.ok.inj h).symm
  getSectorCount_error _ _ h := by cases h
  read_sectors _ _ := rfl
  read_ok lba d _ := by simp
  write_ok buf lba d h _ := by
    funext n
    by_cases hn : n = lba
    · subst hn
      simp only [le_refl, Nat.lt_add_one, and_self, if_true, Nat.sub_self, Nat.zero_mul,
        List.drop_zero, Function.update_self]
      rw [fillBuffer, Nat.sub_eq_zero_of_le h]
      exact List.append_nil _
    · have hr : ¬ (lba ≤ n ∧ n < lba + 1) := by omega
      simp only [if_neg hr, Function.update_of_ne hn]
  write_failed _ _ _ h := absurd rfl h

variable {size count}

/-- A RAM disk is readable. -/
lemma ram_readable (d : Ram size) : (ram size count).Readable d := ⟨rfl, rfl, rfl⟩

/-- And never fails. -/
lemma ram_reliable : (ram size count).Reliable := ⟨fun _ => rfl, fun _ => rfl, fun _ _ => rfl⟩

/-- A memory whose sector 0 has the given bytes. -/
def Ram.holding (size : Nat) (bytes : List UInt8) : Ram size
  | 0 => ⟨fillBuffer size bytes, length_fillBuffer _ _⟩
  | _ + 1 => ⟨List.replicate size 0, List.length_replicate⟩

end ram
end Storage
end Evfs
