import Evfs.Fstypes.FileData
import Evfs.Fstypes.ReadOnly

/-!
# What `open` and `close` do to contents and modification time

`Kept` follows a file in use: it stays in use, and its contents and its modification time are what
they were. `open` keeps every file but one that it cuts (`kept_open`). `close` sets the modification
time by path, so that it keeps every file but the one that the path of the handle leads to
(`kept_close`), whether or not this is the file that was closed.
-/

namespace Evfs
namespace Lwext4
open Lib

/-- What a file holds and when that was changed last. -/
def Inode.contents (n : Inode) : List UInt8 × Nat := (n.data, n.mtime)

namespace Volume

/-- A file in use stays in use, with its contents and its time. -/
def Kept (i : Ino) (v v' : Volume) : Prop :=
  v.used i = true → v'.used i = true ∧ (v'.inodes i).contents = (v.inodes i).contents

variable {bl : BlockLayer} {v v' v'' : Volume} {d c i j : Ino} {name : Str} {names : List Str}

namespace Kept

lemma refl : Kept i v v := fun h => ⟨h, rfl⟩

lemma trans (k : Kept i v v') (k' : Kept i v' v'') : Kept i v v'' := by
  intro h
  obtain ⟨h, e⟩ := k h
  obtain ⟨h, e'⟩ := k' h
  exact ⟨h, e'.trans e⟩

/-- Changing an inode but for its contents. -/
lemma modify {f : Inode → Inode} (h : j = i → (f (v.inodes i)).contents = (v.inodes i).contents) :
    Kept i v (v.modify j f) := by
  refine fun hu => ⟨hu, ?_⟩
  by_cases hj : i = j
  · rw [← hj, inodes_modify_self, h hj.symm]
  · rw [inodes_modify_of_ne hj]

/-- An entry that is made takes a free inode. -/
lemma enter {creat : Bool} {type : FileType} (h : enter bl creat type name d v = .ok (c, v')) :
    Kept i v v' := by
  obtain ⟨rfl, -⟩ | ⟨-, v₁, ha, hl⟩ := enter_steps h
  · exact .refl
  · obtain ⟨free, hu₁, hi⟩ := allocInode_ok ha
    obtain ⟨hu₂, same⟩ := link_congr Inode.contents (fun _ _ => rfl) (fun _ _ => rfl) hl
    intro hu
    have ne : i ≠ c := by
      rintro rfl
      rw [free] at hu
      cases hu
    refine ⟨?_, ?_⟩
    · rw [hu₂, hu₁, Function.update_of_ne ne, hu]
    · rw [same, hi, Function.update_of_ne ne]

/-- Walking a path keeps the contents. -/
lemma openLoop {creat : Bool} {ftype : Option FileType} {parent : Ino} {f : Found}
    (h : openLoop bl creat ftype names d parent v = .ok (f, v')) : Kept i v v' := by
  replace h := openLoop_opens h
  induction h with
  | last _ he _ => exact .enter he
  | slash _ => exact .refl
  | next _ he _ _ ih => exact (Kept.enter he).trans ih

/-- A file is cut to nothing, which keeps it if it holds nothing. -/
lemma truncInode_iff (hu : v.used i = true) :
    Kept i v (v.truncInode j 0) ↔ ¬ (j = i ∧ (v.inodes i).data ≠ []) := by
  constructor
  · rintro k ⟨rfl, ne⟩
    have e := congrArg Prod.fst (k hu).2
    rw [truncInode, inodes_modify_self] at e
    exact ne (e.symm.trans (List.take_zero (l := (v.inodes j).data)))
  · intro h
    refine .modify fun hj => ?_
    have e : (v.inodes i).data = [] := not_not.mp fun ne => h ⟨hj, ne⟩
    simp only [Inode.contents, e, List.take_nil]

/-- The time that is set is the one the file has. -/
lemma mtime_iff {mtime : Nat} (hu : v.used i = true) :
    Kept i v (v.modify j fun n => { n with mtime }) ↔ ¬ (j = i ∧ mtime ≠ (v.inodes i).mtime) := by
  constructor
  · rintro k ⟨rfl, ne⟩
    have e := congrArg Prod.snd (k hu).2
    rw [inodes_modify_self] at e
    exact ne e
  · intro h
    refine .modify fun hj => ?_
    have e : mtime = (v.inodes i).mtime := not_not.mp fun ne => h ⟨hj, ne⟩
    simp only [Inode.contents, e]

/-- What happens before or after a step counts for nothing if it keeps the file. -/
lemma trans_iff (k : Kept i v v') (hu : v.used i = true) : Kept i v v'' ↔ Kept i v' v'' := by
  refine ⟨fun k' _ => ?_, k.trans⟩
  rw [(k hu).2]
  exact k' hu

/-- After a step that keeps the contents, they are kept so far as the next step does. -/
lemma iff_trans (k : Kept i v' v'') (hu : v'.used i = true) : Kept i v v'' ↔ Kept i v v' := by
  refine ⟨fun k' h => ⟨hu, ?_⟩, fun k' => k'.trans k⟩
  rw [← (k' h).2, (k hu).2]

end Kept

end Volume

namespace World

/-- The file of the device is kept. -/
def Kept (d : PartRef) (i : Ino) (w w' : World) : Prop :=
  Volume.Kept i (w.volumes d) (w'.volumes d)

/-- The file that `ext4_fopen2` opens. -/
def Opens (bl : BlockLayer) (w : World) (path : Str) (flags : Flags) (k : Fin 4) (j : Ino) : Prop :=
  w.getMount path = some k ∧ ¬ ((w.sMp k).readOnly = true ∧ creat flags = true) ∧
    ∃ f v, Volume.genericOpen bl (creat flags) (some .regFile) (w.names path k) (w.volume k) =
      .ok (f, v) ∧ f.inode = j

/-- The file of which `ext4_mtime_set` and the like change the inode. -/
def Stamps (bl : BlockLayer) (w : World) (path : Str) (k : Fin 4) (j : Ino) : Prop :=
  ∃ f, w.lookup bl none path = .ok (k, f) ∧ (w.sMp k).readOnly = false ∧ f.inode = j

variable {bl : BlockLayer} {w w' : World} {d : PartRef} {i : Ino} {k : Fin 4} {path : Str}

namespace Kept

lemma refl : Kept d i w w := Volume.Kept.refl

lemma trans {w'' : World} (h : Kept d i w w') (h' : Kept d i w' w'') : Kept d i w w'' :=
  Volume.Kept.trans h h'

/-- A change of no volume. -/
lemma of_confined (c : Confined (fun _ => False) w w') : Kept d i w w' := by
  unfold Kept
  rw [c.volumes d fun _ h => h.elim]
  exact .refl

/-- Writing back a volume. -/
lemma setVolume_iff {v : Volume} : Kept d i w (w.setVolume k v) ↔
    ((w.sMp k).bdev = d → Volume.Kept i (w.volume k) v) := by
  show Volume.Kept i (w.volumes d) (Function.update w.volumes (w.sMp k).bdev v d) ↔ _
  by_cases e : (w.sMp k).bdev = d
  · subst e
    rw [Function.update_self]
    exact ⟨fun h _ => h, fun h => h rfl⟩
  · rw [Function.update_of_ne (Ne.symm e)]
    exact iff_of_true .refl fun h => absurd h e

end Kept

/-! ### Changing an inode by path -/

section SetInode
variable {f : Inode → Inode}

/-- The inode a call stamps is the one its path finds. -/
lemma stamps_iff {j : Ino} : w.Stamps bl path k j ↔ w.writable path = .ok k ∧
    ∃ f, Volume.find bl none (w.names path k) (w.volume k) = .ok f ∧ f.inode = j := by
  simp only [Stamps, lookup_ok, writable_ok]
  constructor
  · rintro ⟨f, ⟨hm, hf⟩, ro, hj⟩
    exact ⟨⟨hm, ro⟩, f, hf, hj⟩
  · rintro ⟨⟨hm, ro⟩, f, hf, hj⟩
    exact ⟨f, ⟨hm, hf⟩, ro, hj⟩

/-- The inode that a path leads to is changed, where the volume may be. -/
lemma changeTrans_setInode (bl : BlockLayer) (w : World) (path : Str) (f : Inode → Inode) :
    (∃ k j, w.Stamps bl path k j ∧
      w.changeTrans path (Volume.setInode bl f) =
        (0, w.setVolume k ((w.volume k).modify j f))) ∨
    ((∀ k j, ¬ w.Stamps bl path k j) ∧ ∃ e, e ≠ 0 ∧
      w.changeTrans path (Volume.setInode bl f) = (e, w)) := by
  unfold changeTrans
  cases hw : w.writable path with
  | error e =>
    refine .inr ⟨fun k j h => ?_, e, writable_error hw, change_error hw⟩
    rw [stamps_iff, hw] at h
    cases h.1
  | ok k =>
    rw [change_eq hw]
    unfold Volume.setInode
    cases hf : Volume.find bl none (w.names path k) (w.volume k) with
    | error e =>
      refine .inr ⟨fun k' j h => ?_, e, Volume.find_error_ne hf, ?_⟩
      · obtain ⟨hw', f, hf', -⟩ := stamps_iff.mp h
        cases hw.symm.trans hw'
        rw [hf] at hf'
        cases hf'
      · simp only [trans, setVolume_volume]
    | ok found => exact .inl ⟨k, found.inode, stamps_iff.mpr ⟨hw, found, hf, rfl⟩, rfl⟩

/-- Setting the access time keeps the contents. -/
lemma kept_atimeSet (w : World) (path : Str) (atime : Nat) :
    Kept d i w (w.ext4AtimeSet bl path atime).2 := by
  unfold ext4AtimeSet
  rcases changeTrans_setInode bl w path (fun n => { n with atime }) with
    ⟨k, j, -, h⟩ | ⟨-, e, -, h⟩
  · rw [h]
    exact Kept.setVolume_iff.mpr fun _ => .modify fun _ => rfl
  · rw [h]
    exact Volume.Kept.refl

/-- Setting the modification time succeeds where the path finds an inode. -/
lemma mtimeSet_iff {mtime : Nat} :
    (w.ext4MtimeSet bl path mtime).1 = 0 ↔ ∃ k j, w.Stamps bl path k j := by
  unfold ext4MtimeSet
  rcases changeTrans_setInode bl w path (fun n => { n with mtime }) with
    ⟨k, j, st, h⟩ | ⟨no, e, ne, h⟩
  · rw [h]
    exact iff_of_true rfl ⟨k, j, st⟩
  · rw [h]
    exact iff_of_false ne fun ⟨k, j, st⟩ => no k j st

/-- A call stamps one inode. -/
lemma Stamps.unique {k' : Fin 4} {j j' : Ino} (st : w.Stamps bl path k j)
    (st' : w.Stamps bl path k' j') : k' = k ∧ j' = j := by
  obtain ⟨f, h, -, rfl⟩ := st
  obtain ⟨f', h', -, rfl⟩ := st'
  cases h.symm.trans h'
  exact ⟨rfl, rfl⟩

/-- The modification time is set of the inode that the path leads to. -/
lemma kept_mtimeSet {mtime : Nat} (hu : (w.volumes d).used i = true) :
    Kept d i w (w.ext4MtimeSet bl path mtime).2 ↔ ¬ ∃ k, w.Stamps bl path k i ∧
      (w.sMp k).bdev = d ∧ mtime ≠ ((w.volumes d).inodes i).mtime := by
  unfold ext4MtimeSet
  rcases changeTrans_setInode bl w path (fun n => { n with mtime }) with
    ⟨k, j, st, h⟩ | ⟨no, e, -, h⟩
  · rw [h, Kept.setVolume_iff]
    constructor
    · rintro kept ⟨k', st', rfl, ne⟩
      obtain ⟨rfl, rfl⟩ := st.unique st'
      exact (Volume.Kept.mtime_iff hu).mp (kept rfl) ⟨rfl, ne⟩
    · rintro no rfl
      refine (Volume.Kept.mtime_iff hu).mpr ?_
      rintro ⟨rfl, ne⟩
      exact no ⟨k, st, rfl, ne⟩
  · rw [h]
    exact iff_of_true Volume.Kept.refl fun ⟨k, st, _⟩ => no k i st

end SetInode

/-! ### Opening -/

section Opening
variable {flags : Flags}

/-- A call opens one inode. -/
lemma Opens.unique {k' : Fin 4} {j j' : Ino} (op : w.Opens bl path flags k j)
    (op' : w.Opens bl path flags k' j') : k' = k ∧ j' = j := by
  obtain ⟨hm, -, f, v, h, rfl⟩ := op
  obtain ⟨hm', -, f', v', h', rfl⟩ := op'
  cases hm.symm.trans hm'
  cases h.symm.trans h'
  exact ⟨rfl, rfl⟩

/-- `ext4_fopen2` opens a file, which it cuts with `O_TRUNC`, or changes nothing. -/
lemma fopen2_effect (bl : BlockLayer) (w : World) (path : Str) (flags : Flags) :
    (∃ k f v, w.Opens bl path flags k f.inode ∧
      Volume.genericOpen bl (creat flags) (some .regFile) (w.names path k) (w.volume k) =
        .ok (f, v) ∧
      (w.ext4Fopen2 bl path flags).2 =
        w.setVolume k (if trunc flags then v.truncInode f.inode 0 else v)) ∨
    ((∀ k j, ¬ w.Opens bl path flags k j) ∧ (w.ext4Fopen2 bl path flags).2 = w) := by
  unfold ext4Fopen2
  split
  · rename_i hm
    refine .inr ⟨fun k j h => ?_, rfl⟩
    rw [h.1] at hm
    cases hm
  · rename_i k hm
    split
    · rename_i ro
      refine .inr ⟨fun k' j h => ?_, rfl⟩
      cases hm.symm.trans h.1
      exact h.2.1 ro
    · rename_i ro
      unfold Volume.fopen2
      cases hg : Volume.genericOpen bl (creat flags) (some .regFile) (w.names path k)
          (w.volume k) with
      | error e =>
        refine .inr ⟨fun k' j h => ?_, rfl⟩
        obtain ⟨hm', -, f, v, h, -⟩ := h
        cases hm.symm.trans hm'
        rw [hg] at h
        cases h
      | ok r => exact .inl ⟨k, r.1, r.2, ⟨hm, ro, r.1, r.2, hg, rfl⟩, hg, rfl⟩

/-- An open keeps the contents unless it truncates the file. -/
lemma kept_fopen2 (hu : (w.volumes d).used i = true) :
    Kept d i w (w.ext4Fopen2 bl path flags).2 ↔
      ¬ (trunc flags = true ∧ ((w.volumes d).inodes i).data ≠ [] ∧
        ∃ k, w.Opens bl path flags k i ∧ (w.sMp k).bdev = d) := by
  rcases fopen2_effect bl w path flags with
    ⟨k, f, v, op, hg, hw⟩ | ⟨no, hw⟩
  · have kept : Volume.Kept i (w.volume k) v := .openLoop hg
    rw [hw, Kept.setVolume_iff]
    constructor
    · rintro h ⟨ht, ne, k', op', rfl⟩
      obtain ⟨rfl, rfl⟩ := op.unique op'
      have cut := h rfl
      have same : (v.inodes f.inode).data = ((w.volume k').inodes f.inode).data :=
        congrArg Prod.fst (kept hu).2
      rw [if_pos ht, kept.trans_iff hu, Volume.Kept.truncInode_iff (kept hu).1, same] at cut
      exact cut ⟨rfl, ne⟩
    · rintro no rfl
      rw [kept.trans_iff hu]
      split
      · rename_i ht
        have same : (v.inodes i).data = ((w.volume k).inodes i).data :=
          congrArg Prod.fst (kept hu).2
        rw [Volume.Kept.truncInode_iff (kept hu).1, same]
        rintro ⟨rfl, ne⟩
        exact no ⟨ht, ne, k, op, rfl⟩
      · exact .refl
  · rw [hw]
    exact iff_of_true Volume.Kept.refl fun ⟨_, _, k, op, _⟩ => no k i op

/-- An open keeps the inode in use. -/
lemma used_fopen2 (hu : (w.volumes d).used i = true) :
    ((w.ext4Fopen2 bl path flags).2.volumes d).used i = true := by
  rcases fopen2_effect bl w path flags with
    ⟨k, f, v, -, hg, hw⟩ | ⟨-, hw⟩
  · rw [hw]
    show (Function.update w.volumes (w.sMp k).bdev _ d).used i = true
    by_cases e : d = (w.sMp k).bdev
    · subst e
      have hv : v.used i = true := (Volume.Kept.openLoop hg hu).1
      rw [Function.update_self]
      split
      · exact hv
      · exact hv
    · rwa [Function.update_of_ne e]
  · rwa [hw]

end Opening

end World

namespace FilesystemLwext4
open World
variable {bl : BlockLayer} {fs : FsId} {o : Object} {w : World} {d : PartRef} {i : Ino}

/-- Every file is kept but one that is opened with `O_TRUNC` and holds something. -/
theorem kept_open {abspath : Str} {flags : Flags} (hu : (w.volumes d).used i = true) :
    Kept d i w (FilesystemLwext4.open bl fs o abspath flags w).2 ↔
      ¬ (trunc flags = true ∧ ((w.volumes d).inodes i).data ≠ [] ∧
        ∃ k, w.Opens bl abspath flags k i ∧ (w.sMp k).bdev = d) := by
  -- the access time that is set afterwards does not count
  have after : Kept d i (w.ext4Fopen2 bl abspath flags).2
      (FilesystemLwext4.open bl fs o abspath flags w).2 := by
    unfold FilesystemLwext4.open
    split
    · rename_i h
      rw [h]
      exact Volume.Kept.refl
    · rename_i f w₁ h
      rw [h]
      exact kept_atimeSet { w₁ with
        files := Function.update w₁.files w₁.nextRaw f
        nextRaw := w₁.nextRaw + 1
        readings := w₁.readings + 1 } abspath (w₁.clock w₁.readings)
  rw [← kept_fopen2 hu]
  exact Volume.Kept.iff_trans after (used_fopen2 hu)

/-- `close` succeeds if the path of the handle still leads somewhere, on a mount that may be
written to. -/
theorem close_iff {h : FileHandle} :
    (close bl h w).1 = 0 ↔ ∃ k j, w.Stamps bl h.abspath k j :=
  mtimeSet_iff (w := ((w.ext4Fclose h.raw).tick).2)

/-- Every file is kept but the one that this path leads to. -/
theorem kept_close {h : FileHandle} (hu : (w.volumes d).used i = true) :
    Kept d i w (close bl h w).2 ↔ ¬ ∃ k, w.Stamps bl h.abspath k i ∧ (w.sMp k).bdev = d ∧
      w.clock w.readings ≠ ((w.volumes d).inodes i).mtime :=
  kept_mtimeSet (w := ((w.ext4Fclose h.raw).tick).2) hu

end FilesystemLwext4
end Lwext4
end Evfs
