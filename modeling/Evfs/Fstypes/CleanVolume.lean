import Evfs.Fstypes.OpenFile
import Evfs.Lwext4.Pruning

/-!
# What the methods do to a clean volume

Every method of a mounted `filesystem_lwext4` leaves the volume clean (`clean_call`) when it is called
with care (`Careful`): there is room for another link, a directory that is removed has no file below
it that has another name, a directory is not moved below itself, and a file that is written to is in
use still. None of this is asked by the code, and on what `Careful` excludes counts are lost or parts
of the tree.
-/

namespace Evfs
namespace Lwext4
open Lib
namespace World
variable {bl : BlockLayer} {R : Set Ino} {w : World} {k : Fin 4} {path : Str}

/-- The names of a path neither stay in a directory nor go up. -/
def NoDots (w : World) (k : Fin 4) (path : Str) : Prop :=
  ∀ n ∈ w.names path k, n ≠ Path.dot ∧ n ≠ Path.dotDot

/-- The file of an open file is in use. -/
def StillThere (w : World) (k : Fin 4) (raw : Nat) : Prop :=
  (w.files raw).mp = some k → (w.volume k).used (w.files raw).inode = true ∧
    ((w.volume k).inodes (w.files raw).inode).type = .regFile

/-! ### Functions on paths -/

/-- Writing back a volume that stays clean. -/
lemma clean_setVolume {j : Fin 4} {v : Volume} (cl : (w.volume k).Clean R)
    (h : (w.volume j).Clean R → v.Clean R) : ((w.setVolume j v).volume k).Clean R :=
  volume_setVolume (R := fun v v' => v.Clean R → v'.Clean R) (fun _ => id) h cl

/-- A change that keeps the volume of the path clean. -/
lemma clean_change {f : List Str → Volume → ErrorCode × Volume} (cl : (w.volume k).Clean R)
    (only : ∀ {j}, (w.sMp j).mounted = true → j = k)
    (h : w.getMount path = some k → (f (w.names path k) (w.volume k)).2.Clean R) :
    ((w.change path f).2.volume k).Clean R := by
  cases hw : w.writable path with
  | error e =>
    rw [change_error hw]
    exact cl
  | ok j =>
    have hm := (writable_ok.mp hw).1
    obtain rfl := only (mounted_of_getMount hm)
    rw [change_eq hw]
    exact clean_setVolume cl fun _ => h hm

/-- A change in a transaction that keeps it clean. -/
lemma clean_changeTrans {f : List Str → Volume → Except ErrorCode Volume}
    (cl : (w.volume k).Clean R) (only : ∀ {j}, (w.sMp j).mounted = true → j = k)
    (h : ∀ {v}, w.getMount path = some k → f (w.names path k) (w.volume k) = .ok v → v.Clean R) :
    ((w.changeTrans path f).2.volume k).Clean R := by
  refine clean_change cl only fun hm => ?_
  cases hf : f (w.names path k) (w.volume k) with
  | error e => exact cl
  | ok v => exact h hm hf

/-- Setting an attribute. -/
lemma clean_setInode {f : Inode → Inode} (cl : (w.volume k).Clean R)
    (only : ∀ {j}, (w.sMp j).mounted = true → j = k) (ht : ∀ n, (f n).type = n.type)
    (he : ∀ n, (f n).entries = n.entries) (hl : ∀ n, (f n).links = n.links) :
    ((w.changeTrans path (Volume.setInode bl f)).2.volume k).Clean R :=
  clean_changeTrans cl only fun _ h => cl.setInode h ht he hl

/-- Setting the modification time. -/
lemma clean_mtimeSet {mtime : Nat} (cl : (w.volume k).Clean R)
    (only : ∀ {j}, (w.sMp j).mounted = true → j = k) :
    ((w.ext4MtimeSet bl path mtime).2.volume k).Clean R :=
  clean_setInode cl only (fun _ => rfl) (fun _ => rfl) fun _ => rfl

/-- Making a hard link. -/
lemma clean_flink {newPath : Str} (cl : (w.volume k).Clean R) (room : (w.volume k).Roomy)
    (only : ∀ {j}, (w.sMp j).mounted = true → j = k) :
    ((w.ext4Flink bl path newPath).2.volume k).Clean R := by
  unfold ext4Flink
  split
  · exact cl
  · rename_i j hw
    obtain rfl := only (mounted_of_getMount (writable_ok.mp hw).1)
    split
    · exact cl
    · refine clean_setVolume cl fun _ => ?_
      cases hf : Volume.flink bl (w.names path j) (w.names newPath j) (w.volume j) with
      | error e => exact cl
      | ok v => exact cl.flink room hf

/-- A rename, but for a directory that is moved below itself. -/
lemma clean_frename {newPath : Str} (cl : (w.volume k).Clean R) (room : (w.volume k).Roomy)
    (only : ∀ {j}, (w.sMp j).mounted = true → j = k)
    (dots : w.getMount path = some k → w.NoDots k path)
    (dots' : w.getMount newPath = some k → w.NoDots k newPath)
    (apart : ¬ w.names path k <+: (w.names newPath k).dropLast) :
    ((w.ext4Frename bl path newPath).2.volume k).Clean R := by
  unfold ext4Frename
  split
  · exact cl
  · rename_i i hw
    have hm := (writable_ok.mp hw).1
    obtain rfl := only (mounted_of_getMount hm)
    split
    · exact cl
    · rename_i found hf
      split
      · exact cl
      · rename_i j hj
        obtain rfl := only (mounted_of_getMount hj)
        split
        · exact cl
        · rename_i d name hl
          split
          · exact cl
          · rename_i v hr
            simp only
            rw [volume_setVolume_self]
            split
            · rw [if_pos trivial]
              exact cl
            · rename_i v' ho
              rw [volume_setVolume_self]
              exact (cl.frename_iff room (dots hm) (dots' hj) hf hl hr ho).mpr apart

/-- A write at a position inside leaves the volume clean. -/
lemma clean_fwrite {raw : Nat} {data : List UInt8} (cl : (w.volume k).Clean R)
    (inside : w.Inside raw) : ((w.ext4Fwrite bl raw data).2.volume k).Clean R := by
  unfold ext4Fwrite
  simp only
  split
  · exact cl
  · rename_i i hs
    repeat' split
    all_goals first | exact cl | skip
    refine clean_setVolume cl fun cl => ?_
    rw [Volume.fwrite_eq (inside i (mp_of_slotOf hs).1)]
    exact cl.modify (by intro _; rfl) (by intro _; rfl) (by intro _; rfl)

/-- Truncating a file. -/
lemma clean_ftruncate {raw size : Nat} (cl : (w.volume k).Clean R) :
    ((w.ext4Ftruncate raw size).2.volume k).Clean R := by
  unfold ext4Ftruncate
  simp only
  split
  · exact cl
  · repeat' split
    all_goals first | exact cl | skip
    refine clean_setVolume cl fun cl => ?_
    exact cl.modify (by intro _; rfl) (by intro _; rfl) (by intro _; rfl)

end World

namespace FilesystemLwext4
open World
variable {bl : BlockLayer} {R : Set Ino} {fs : FsId} {o : Object} {w : World} {k : Fin 4}
  {path : Str}

/-- What a method has to be called with. The name of a symbolic link is used as it is given. -/
def Careful (bl : BlockLayer) (k : Fin 4) (w : World) : Call → Prop
  | .open _ _ _ => (w.volume k).Roomy
  | .file (.write _) h => w.StillThere k h.raw ∧ w.Inside h.raw
  | .file (.ftruncate _) h => w.StillThere k h.raw
  | .path (.link _) _ => (w.volume k).Roomy
  | .path (.symlink newlink) _ => (w.volume k).Roomy ∧ w.NoDots k newlink
  | .path .unlink path => ∀ f,
    Volume.find bl (some .dir) (w.names path k) (w.volume k) = .ok f →
      (w.volume k).SingleBelow f.inode
  | .path .rmdir path => ∀ f,
    Volume.find bl (some .dir) (w.names path k) (w.volume k) = .ok f →
      (w.volume k).SingleBelow f.inode
  | .path (.mkdir _) _ => (w.volume k).Roomy
  | .rename old new => (w.volume k).Roomy ∧ ¬ w.names old k <+: (w.names new k).dropLast
  | _ => True

/-- The paths of a method are normal, as those that `VirtualFS` passes on. -/
def Normal (k : Fin 4) (w : World) : Call → Prop
  | .open path _ _ => w.getMount path = some k → w.NoDots k path
  | .path .statVfs _ => True
  | .path _ path => w.getMount path = some k → w.NoDots k path
  | .rename old new => (w.getMount old = some k → w.NoDots k old) ∧
    (w.getMount new = some k → w.NoDots k new)
  | _ => True

/-- A change of no volume. -/
lemma clean_of_confined {w' : World} (c : Confined (fun _ => False) w w')
    (cl : (w.volume k).Clean R) : (w'.volume k).Clean R := by
  rw [c.volume fun _ h => h.elim]
  exact cl

/-- Setting the mode. -/
lemma clean_chmod {mode : Nat} (cl : (w.volume k).Clean R)
    (only : ∀ {j}, (w.sMp j).mounted = true → j = k) :
    ((chmod bl path mode w).2.volume k).Clean R := by
  have cl₁ : ((w.ext4ModeSet bl path mode).2.volume k).Clean R :=
    clean_setInode cl only (fun _ => rfl) (fun _ => rfl) fun _ => rfl
  have c : Confined (fun _ => True) w (w.ext4ModeSet bl path mode).2 := confined_change fun _ _ => trivial
  unfold chmod
  split
  rename_i e w' hw
  rw [hw] at cl₁ c
  split
  · exact cl₁
  · have cl₂ : (w'.tick.2.volume k).Clean R := cl₁
    exact clean_mtimeSet cl₂ fun {j} hj => only (by rw [← c.sMp]; exact hj)

/-- Opening a file, and creating it. -/
lemma clean_open {abspath : Str} {flags : Flags} (num : bl.Numbers) (cl : (w.volume k).Clean R)
    (room : (w.volume k).Roomy) (only : ∀ {j}, (w.sMp j).mounted = true → j = k)
    (dots : w.getMount abspath = some k → w.NoDots k abspath) :
    ((FilesystemLwext4.open bl fs o abspath flags w).2.volume k).Clean R := by
  have cl₁ : ((w.ext4Fopen2 bl abspath flags).2.volume k).Clean R := by
    unfold ext4Fopen2
    split
    · exact cl
    · rename_i j hm
      obtain rfl := only (mounted_of_getMount hm)
      split
      · exact cl
      · split
        · exact cl
        · rename_i hf
          exact clean_setVolume cl fun cl => cl.fopen2 num room (dots hm) hf
  have c : Confined (fun _ => True) w (w.ext4Fopen2 bl abspath flags).2 :=
    confined_fopen2 fun _ _ => trivial
  unfold FilesystemLwext4.open
  split
  · rename_i h
    rwa [h] at cl₁
  · rename_i f w₁ h
    rw [h] at cl₁ c
    have keeps : ∀ (w₂ : World) t, w₂.volume k = w₁.volume k → w₂.sMp = w₁.sMp →
        ((w₂.ext4AtimeSet bl abspath t).2.volume k).Clean R := by
      intro w₂ t hv hs
      refine clean_setInode (hv ▸ cl₁) (fun {j} hj => only ?_) (fun _ => rfl) (fun _ => rfl)
        fun _ => rfl
      rw [← c.sMp, ← hs]
      exact hj
    exact keeps _ _ rfl rfl

/-- Removing a file, or a directory with all that is below it. -/
lemma clean_unlink (cl : (w.volume k).Clean R) (only : ∀ {j}, (w.sMp j).mounted = true → j = k)
    (dots : w.getMount path = some k → w.NoDots k path)
    (single : ∀ f, Volume.find bl (some .dir) (w.names path k) (w.volume k) = .ok f →
      (w.volume k).SingleBelow f.inode) : ((unlink bl path w).2.volume k).Clean R := by
  unfold unlink
  split
  · exact clean_change cl only fun hm => cl.dirRm (dots hm) single
  · exact clean_changeTrans cl only fun _ h => cl.fremove h

/-- Every method leaves the volume clean. -/
theorem clean_call {c : Call} (num : bl.Numbers) (hm : mounting c = false)
    (only : ∀ {j}, (w.sMp j).mounted = true → j = k) (care : Careful bl k w c)
    (normal : Normal k w c) (cl : (w.volume k).Clean R) :
    ((call bl fs o c w).2.volume k).Clean R := by
  cases c with
  | getLabel => exact clean_of_confined confined_getLabel cl
  | mount r fl => cases hm
  | unmount => cases hm
  | «open» abspath flags mode => exact clean_open num cl care only normal
  | file op h =>
    cases op with
    | close =>
      have cl' : ((w.ext4Fclose h.raw).tick.2.volume k).Clean R := cl
      exact clean_mtimeSet cl' only
    | write data => exact clean_fwrite cl care.2
    | read len => exact clean_of_confined confined_fread cl
    | lseek pos dir => exact clean_of_confined confined_lseek cl
    | ftruncate len =>
      show ((ftruncate bl h len w).2.volume k).Clean R
      rw [ftruncate_eq]
      exact clean_ftruncate cl
    | fchmod mode => exact clean_chmod cl only
    | fstat => exact cl
    | fsync => exact cl
    | flock cmd => exact cl
    | isatty => exact cl
  | path op path =>
    cases op with
    | link newlink => exact clean_flink cl care only
    | symlink newlink =>
      obtain ⟨room, dots⟩ := care
      exact clean_changeTrans cl only fun _ h => cl.fsymlink num room dots h
    | unlink => exact clean_unlink cl only normal care
    | rmdir => exact clean_change cl only fun hm => cl.dirRm (normal hm) care
    | mkdir mode => exact clean_changeTrans cl only fun hm h => cl.dirMk num care (normal hm) h
    | statVfs =>
      show ((statVfs bl o w).2.volume k).Clean R
      unfold statVfs
      split
      · exact cl
      · exact cl
    | chmod mode => exact clean_chmod cl only
    | stat => exact cl
    | ioctl cmd => exact cl
    | utimens atime mtime => exact cl
  | rename old new => exact clean_frename cl care.1 only normal.1 normal.2 care.2
  | diropen path => exact clean_of_confined confined_diropen cl
  | dir op h => exact clean_of_confined confined_callDir cl

end FilesystemLwext4
end Lwext4
end Evfs
