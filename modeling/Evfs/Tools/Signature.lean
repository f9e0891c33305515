import Evfs.Common.Disk
import Evfs.Tools.Listing

/-!
# The signature of a partition table

`validate_mbr`, `get_partition_entries` and, through it, `Disk::create` take a sector for a partition
table unless both bytes of the signature are wrong. They agree on what the signature says exactly
where the two bytes are both there or both wrong, on a device whose sectors fit `validate_mbr`'s
buffer.
-/

namespace Evfs
namespace Fdisk

section signature
variable {δ : Type}

/-- The three functions tell a partition table by its signature. -/
def TellBySignature (dev : Storage δ) (d : δ) : Prop :=
  if Signed (dev.sectors d 0) then
    (∃ e d', validateMbr dev d = .ok (e, d') ∧ e ≠ ENXIO) ∧
      (getPartitionEntries dev.toBlockDevice d).1 ≠ .error ENXIO ∧
      ∀ id, (Disk.create id dev.toBlockDevice d).1 ≠ .error ENXIO
  else
    (∃ d', validateMbr dev d = .ok ( ENXIO, d')) ∧
      (getPartitionEntries dev.toBlockDevice d).1 = .error ENXIO ∧
      ∀ id, (Disk.create id dev.toBlockDevice d).1 = .ok ⟨id, dev.getName, []⟩

variable {dev : Storage δ} {d : δ}

/-- The signature is missing when both of its bytes are wrong. -/
lemma signatureMissing_iff {sector : List UInt8} (h : mbrSize ≤ sector.length) :
    signatureMissing sector = true ↔ sector[mbrSignature]? ≠ some mbrSignatureLo ∧
      sector[mbrSignature + 1]? ≠ some mbrSignatureHi := by
  have hlo : mbrSignature < sector.length := lt_of_lt_of_le (by decide) h
  have hhi : mbrSignature + 1 < sector.length := lt_of_lt_of_le (by decide) h
  rw [signatureMissing, Bool.and_eq_true, decide_eq_true_eq, decide_eq_true_eq,
    Ne, byteAt_eq_iff hlo, Ne, byteAt_eq_iff hhi]

/-- What the three functions do with a device of 512-byte sectors. -/
lemma validateMbr_of_readable (h : dev.Readable d) (hs : dev.sectorSize = 512) :
    ∃ d', validateMbr dev d =
      .ok (if signatureMissing (dev.sectors d 0) then ENXIO else 0, d') := by
  have hf := fillBuffer_self (dev.sectors d 0)
  rw [dev.length_sectors, hs] at hf
  refine ⟨(dev.read 0 1 d).2, ?_⟩
  rw [validateMbr_of_le (le_of_eq hs), if_neg (not_not.mpr h.read), dev.read_ok 0 d h.read,
    mbrSize, hf]

/-- Without it the table is `ENXIO`. -/
lemma getPartitionEntries_of_missing (h : dev.Readable d)
    (hm : signatureMissing (dev.sectors d 0) = true) :
    (getPartitionEntries dev.toBlockDevice d).1 = .error ENXIO := by
  rw [getPartitionEntries_of_readable h, fetchPartitions, if_pos hm]

/-- The disk is then one without partitions. -/
lemma create_of_missing {id : DiskId}
    (h : (getPartitionEntries dev.toBlockDevice d).1 = .error ENXIO) :
    (Disk.create id dev.toBlockDevice d).1 = .ok ⟨id, dev.getName, []⟩ := by
  unfold Disk.create
  cases hg : getPartitionEntries dev.toBlockDevice d with
  | mk r d' =>
    rw [hg] at h
    cases h
    rfl

/-- A disk is never refused with `ENXIO`. -/
lemma create_ne_enxio (id : DiskId) : (Disk.create id dev.toBlockDevice d).1 ≠ .error ENXIO := by
  unfold Disk.create
  cases getPartitionEntries dev.toBlockDevice d with
  | mk r d' =>
    cases r with
    | ok parts => nofun
    | error e =>
      simp only
      split
      · rename_i he
        intro h
        exact he.2 (Except.error.inj h)
      · nofun

/-- The signature decides exactly where its bytes are both there or both wrong and the sectors fit
the buffer. -/
theorem tellBySignature_iff (h : dev.Readable d) (hmin : 512 ≤ dev.sectorSize) :
    TellBySignature dev d ↔ dev.sectorSize = 512 ∧
      ((dev.sectors d 0)[mbrSignature]? = some mbrSignatureLo ↔
        (dev.sectors d 0)[mbrSignature + 1]? = some mbrSignatureHi) := by
  have hlen : mbrSize ≤ (dev.sectors d 0).length := by rwa [dev.length_sectors]
  have hm := signatureMissing_iff hlen
  constructor
  · intro ht
    have hs : dev.sectorSize = 512 := by
      by_contra hs
      have hov : validateMbr dev d = .error .overrun :=
        validateMbr_overrun (lt_of_le_of_ne hmin (Ne.symm hs))
      unfold TellBySignature at ht
      split at ht
      · obtain ⟨⟨e, d', he, -⟩, -⟩ := ht
        cases hov.symm.trans he
      · obtain ⟨⟨d', he⟩, -⟩ := ht
        cases hov.symm.trans he
    refine ⟨hs, ?_⟩
    unfold TellBySignature at ht
    split at ht
    · rename_i hsig
      exact ⟨fun _ => hsig.2, fun _ => hsig.1⟩
    · -- the table was not taken, so both bytes are wrong
      cases hmiss : signatureMissing (dev.sectors d 0) with
      | true => exact ⟨fun e => absurd e (hm.mp hmiss).1, fun e => absurd e (hm.mp hmiss).2⟩
      | false =>
        have hg := ht.2.1
        rw [getPartitionEntries_of_present h hmiss] at hg
        cases hg
  · rintro ⟨hs, hiff⟩
    obtain ⟨d', hv⟩ := validateMbr_of_readable h hs
    unfold TellBySignature
    split
    · rename_i hsig
      have hmiss := signatureMissing_of_signed hsig
      rw [hmiss] at hv
      refine ⟨⟨0, d', hv, by decide⟩, ?_, create_ne_enxio⟩
      rw [getPartitionEntries_of_present h hmiss]
      nofun
    · rename_i hsig
      have hmiss : signatureMissing (dev.sectors d 0) = true :=
        hm.mpr ⟨fun e => hsig ⟨e, hiff.mp e⟩, fun e => hsig ⟨hiff.mpr e, e⟩⟩
      rw [hmiss] at hv
      have hg := getPartitionEntries_of_missing h hmiss
      exact ⟨⟨d', hv⟩, hg, fun _ => create_of_missing hg⟩

end signature

/-- A signed sector. -/
theorem tellBySignature_mixedTable :
    TellBySignature (Storage.ram 512 128) (Storage.Ram.holding 512 (signedSector mixedTable)) := by
  have hr : (Storage.ram 512 128).Readable (Storage.Ram.holding 512 (signedSector mixedTable)) :=
    Storage.ram_readable _
  have hsig : Signed ((Storage.ram 512 128).sectors
      (Storage.Ram.holding 512 (signedSector mixedTable)) 0) := by decide +kernel
  have hs : (Storage.ram 512 128).sectorSize = 512 := rfl
  have h := tellBySignature_iff hr (le_of_eq hs.symm)
  rw [h]
  obtain ⟨hlo, hhi⟩ := hsig
  refine ⟨hs, ?_⟩
  rw [hlo, hhi]
  exact ⟨fun _ => rfl, fun _ => rfl⟩

/-- A sector with the first byte of the signature only. -/
def halfSigned : List UInt8 := List.replicate mbrSignature 0 ++ [mbrSignatureLo, 0]

/-- Half of a signature is taken for a whole one. -/
theorem not_tellBySignature_halfSigned :
    ¬ TellBySignature (Storage.ram 512 128) (Storage.Ram.holding 512 halfSigned) := by
  have hsig : ¬ Signed ((Storage.ram 512 128).sectors (Storage.Ram.holding 512 halfSigned) 0) := by
    decide +kernel
  have hv : (validateMbr (Storage.ram 512 128) (Storage.Ram.holding 512 halfSigned)).map Prod.fst =
      .ok 0 := by decide +kernel
  rw [TellBySignature, if_neg hsig]
  rintro ⟨⟨d', h⟩, -⟩
  rw [h] at hv
  have he : ENXIO = 0 := Except.ok.inj hv
  exact absurd he (by decide)

end Fdisk
end Evfs
