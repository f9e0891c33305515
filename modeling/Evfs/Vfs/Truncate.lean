import Evfs.Fstypes.FileData
import Evfs.Vfs.ReadOnlyMount

/-!
# `ftruncate`

`filesystem_lwext4::ftruncate` leaves a file that is to become longer to a loop that writes zeros,
which it enters when `ext4_ftruncate` answers `ENOTSUP`. `ext4_ftruncate` never does: to a size not
below the present one it answers success, and changes nothing. So a success means the new size
exactly if that is not above the old one.
-/

namespace Evfs
open Lib Lwext4

/-- A file of the given length: its first bytes, or all of them followed by zeros. -/
def resized (data : List UInt8) (len : Nat) : List UInt8 :=
  data.take len ++ List.replicate (len - data.length) 0

/-- The length asked for. -/
@[simp] lemma length_resized {data : List UInt8} {len : Nat} : (resized data len).length = len := by
  simp only [resized, List.length_append, List.length_take, List.length_replicate]
  omega

/-- Data that is not longer than asked for is kept only at its own length. -/
lemma resized_eq_self {data : List UInt8} {len : Nat} (h : data.length ≤ len) :
    data = resized data len ↔ len ≤ data.length := by
  constructor
  · intro e
    have hl := congrArg List.length e
    rw [length_resized] at hl
    exact hl.ge
  · intro hl
    have e : data.length = len := le_antisymm h hl
    rw [resized, e, Nat.sub_self, ← e, List.take_length, List.replicate_zero, List.append_nil]

/-- Data that is longer is cut. -/
lemma resized_shorter {data : List UInt8} {len : Nat} (h : len ≤ data.length) :
    resized data len = data.take len := by
  rw [resized, Nat.sub_eq_zero_of_le h, List.replicate_zero, List.append_nil]

namespace Lwext4
namespace World
variable {w : World} {raw size : Nat}

/-- What the file behind an open file holds. -/
def bytesOf (w : World) (raw : Nat) : List UInt8 :=
  match (w.files raw).mp with
  | some i => ((w.volume i).inodes (w.files raw).inode).data
  | none => []

/-- The open file is on a mounted volume that may be written to. -/
def Changeable (w : World) (raw : Nat) : Prop :=
  ∃ i, w.slotOf (w.files raw) = some i ∧ (w.sMp i).readOnly = false

/-- `ext4_ftruncate` succeeds where the file may be changed; it cuts a longer file and leaves a
shorter one as it is. -/
lemma ftruncate_bytes (w : World) (raw size : Nat) :
    (¬ w.Changeable raw ∧ (w.ext4Ftruncate raw size).1 ≠ 0) ∨
      (w.Changeable raw ∧ (w.ext4Ftruncate raw size).1 = 0 ∧
        (w.ext4Ftruncate raw size).2.bytesOf raw = (w.bytesOf raw).take size) := by
  unfold ext4Ftruncate
  simp only
  split
  · rename_i hs
    refine .inl ⟨?_, show EIO ≠ 0 by decide⟩
    rintro ⟨i, hi, -⟩
    rw [hs] at hi
    cases hi
  · rename_i i hs
    have hmp : (w.files raw).mp = some i := (mp_of_slotOf hs).1
    have hb : w.bytesOf raw = ((w.volume i).inodes (w.files raw).inode).data := by
      simp only [bytesOf, hmp]
    split
    · rename_i ro
      refine .inl ⟨?_, show EROFS ≠ 0 by decide⟩
      rintro ⟨j, hj, hr⟩
      cases hs.symm.trans hj
      rw [ro] at hr
      cases hr
    · rename_i ro
      have ch : w.Changeable raw := ⟨i, hs, Bool.eq_false_iff.mpr ro⟩
      split
      · rename_i hl
        refine .inr ⟨ch, rfl, ?_⟩
        rw [hb, List.take_of_length_le hl]
        simp only [bytesOf, Function.update_self, hmp]
        rfl
      · refine .inr ⟨ch, rfl, ?_⟩
        rw [hb]
        simp only [bytesOf, Function.update_self, hmp]
        have hv : (w.setVolume i ((w.volume i).truncInode (w.files raw).inode size)).volume i =
            (w.volume i).truncInode (w.files raw).inode size := Function.update_self _ _ _
        refine (congrArg (fun v : Volume => (v.inodes (w.files raw).inode).data) hv).trans ?_
        rw [Volume.truncInode, Volume.inodes_modify_self]

end World
end Lwext4

namespace Pimpl
variable {τ : Type} {bl : BlockLayer} {O : Backend τ} {s : Pimpl (World × τ)} {mp : MountPoint}
  {fd : Int} {fil : FileHandle} {len : Int}

/-- An `ftruncate` that returns success gives the file the length: the bytes it had are kept up to
there, and zeros fill the rest. -/
def TruncatesRight (bl : BlockLayer) (O : Backend τ) (s : Pimpl (World × τ)) (fd : Int)
    (fil : FileHandle) (len : Int) : Prop :=
  ∀ s', fileOp (backend bl O) (.ftruncate len) fd s = .ok (0, s') →
    s'.world.1.bytesOf fil.raw = resized (s.world.1.bytesOf fil.raw) len.toNat

/-- An `ftruncate` on an open file does what its success says exactly if it fails, the file being on
a volume that may not be changed, or the length is not above the size of the file. -/
theorem truncatesRight_iff (rc : ReachesFd s fd fil mp) (lo : 0 ≤ len) (hi : len < 2 ^ 63) :
    TruncatesRight bl O s fd fil len ↔
      (s.world.1.Changeable fil.raw → len ≤ (s.world.1.bytesOf fil.raw).length) := by
  obtain ⟨o, ho⟩ := Option.isSome_iff_exists.mp rc.object
  have hm : len % 2 ^ 64 = len := Int.emod_eq_of_lt lo (by omega)
  have hc : (backend bl O).call mp.fs (.file (.ftruncate len) fil) s.world =
      ((s.world.1.ext4Ftruncate fil.raw len.toNat).1,
        (s.world.1.ext4Ftruncate fil.raw len.toNat).2, s.world.2) := by
    have e : FilesystemLwext4.ftruncate bl fil len s.world.1 =
        s.world.1.ext4Ftruncate fil.raw len.toNat := by
      rw [FilesystemLwext4.ftruncate_eq, hm]
    rw [← e]
    exact callObject_some ho
  have hx : fileOp (backend bl O) (.ftruncate len) fd s =
      .ok (lockedCall (backend bl O) mp (.file (.ftruncate len) fil) s) := rc.invokeFopsFd _
  have h₁ : (lockedCall (backend bl O) mp (.file (.ftruncate len) fil) s).1 =
      (s.world.1.ext4Ftruncate fil.raw len.toNat).1 := congrArg Prod.fst hc
  have h₂ : (lockedCall (backend bl O) mp (.file (.ftruncate len) fil) s).2.world.1 =
      (s.world.1.ext4Ftruncate fil.raw len.toNat).2 := congrArg (fun r => r.2.1) hc
  unfold TruncatesRight
  rw [hx]
  rcases s.world.1.ftruncate_bytes fil.raw len.toNat with
    ⟨nc, he⟩ | ⟨ch, h0, hb⟩
  · -- it fails, so nothing is asked of it
    refine iff_of_true (fun s' e => ?_) fun ch => absurd ch nc
    have e₀ := congrArg Prod.fst (Except.ok.inj e)
    exact absurd (h₁.symm.trans e₀) he
  · have all : (∀ s', (Except.ok (lockedCall (backend bl O) mp (.file (.ftruncate len) fil) s) :
        Except Fault _) = .ok (0, s') →
          s'.world.1.bytesOf fil.raw = resized (s.world.1.bytesOf fil.raw) len.toNat) ↔
        (s.world.1.bytesOf fil.raw).take len.toNat =
          resized (s.world.1.bytesOf fil.raw) len.toNat := by
      constructor
      · intro h
        have e := h _ (congrArg Except.ok (Prod.ext (h₁.trans h0) rfl))
        rwa [h₂, hb] at e
      · intro h s' e
        have e₀ := congrArg Prod.snd (Except.ok.inj e)
        subst e₀
        rw [h₂, hb, h]
    rw [all]
    -- what is cut off is all that changes, so a longer size is missed
    rcases le_total (s.world.1.bytesOf fil.raw).length len.toNat with le | le
    · rw [List.take_of_length_le le, resized_eq_self le]
      exact ⟨fun h _ => by omega, fun h => by have := h ch; omega⟩
    · exact iff_of_true (resized_shorter le).symm fun _ => by omega

/-- A file of one byte is open. -/
def oneByteF : Pimpl (World × (FsId → Str)) :=
  play ext [.open "/a/f".toList 0x42 0, .file (.write [1]) 3] mountedAtA

def handleOfF : FileHandle := ⟨0, "/a".toList, "/a/f".toList, 0⟩

/-- A file of one byte, cut to none. -/
theorem truncatesRight_oneByteF : TruncatesRight firstFree .accepting oneByteF 3 handleOfF 0 ↔
    (oneByteF.world.1.Changeable 0 → 0 ≤ ((oneByteF.world.1.bytesOf 0).length : Int)) := by
  have rc : ReachesFd oneByteF 3 handleOfF mountPointA :=
    ⟨by decide +kernel, by decide +kernel, by decide +kernel⟩
  exact truncatesRight_iff rc (by decide) (by decide)

/-- To make a file longer succeeds, and leaves it as it is. -/
theorem not_truncatesRight_oneByteF :
    Reachable ext oneByteF ∧ oneByteF.world.1.bytesOf 0 = [1] ∧
      (fileOp ext (.ftruncate 5) 3 oneByteF).map (fun r => (r.1, r.2.world.1.bytesOf 0)) =
        .ok (0, [1]) ∧
      ¬ TruncatesRight firstFree .accepting oneByteF 3 handleOfF 5 := by
  have h : (fileOp ext (.ftruncate 5) 3 oneByteF).map (fun r => (r.1, r.2.world.1.bytesOf 0)) =
      .ok (0, [1]) := by decide +kernel
  refine ⟨reachable_mountedAtA.play, by decide +kernel, h, fun right => ?_⟩
  obtain ⟨⟨e, s'⟩, hx, hb⟩ := map_ok h
  obtain ⟨rfl, hb⟩ := Prod.mk.inj hb
  have hr := right s' hx
  rw [show s'.world.1.bytesOf handleOfF.raw = [1] from hb] at hr
  exact absurd (congrArg List.length hr) (by rw [length_resized]; decide)

end Pimpl
end Evfs
