import Evfs.Fstypes.FileData
import Evfs.Lwext4.Subtree
import Evfs.Vfs.ReadOnlyMount

/-!
# `rmdir`

`VirtualFS::rmdir` hands the path on to `ext4_dir_rm`, which empties the directory first, and asks
neither whether it has entries nor whether the files below are open, as `unlink` does. So `rmdir` of
a directory that has entries is refused on a read-only mount only.
-/

namespace Evfs
open Lib Lwext4

namespace Lwext4
namespace World
variable {bl : BlockLayer} {w : World} {path : Str} {k : Fin 4} {f : Volume.Found}

/-- `ext4_dir_rm` is refused on a read-only mount, and empties the directory on any other. -/
lemma dirRm_effect (h : w.lookup bl (some .dir) path = .ok (k, f)) (t : (w.volume k).IsTree) :
    ((w.sMp k).readOnly = true ∧ w.ext4DirRm bl path = (EROFS, w)) ∨
      ((w.sMp k).readOnly = false ∧ (w.ext4DirRm bl path).1 ≠ ENOTEMPTY ∧
        ((w.ext4DirRm bl path).2.volume k).children f.inode = []) := by
  obtain ⟨hm, hf⟩ := lookup_ok.mp h
  cases ro : (w.sMp k).readOnly with
  | true => exact .inl ⟨rfl, change_error (writable_readOnly hm ro)⟩
  | false =>
    obtain ⟨gone, ne⟩ := Volume.children_dirRm t hf
    refine .inr ⟨rfl, ?_⟩
    unfold ext4DirRm
    rw [change_eq (writable_ok.mpr ⟨hm, ro⟩)]
    refine ⟨ne, ?_⟩
    rw [volume_setVolume_self]
    exact gone

end World
end Lwext4

namespace Pimpl
variable {τ : Type} {bl : BlockLayer} {O : Backend τ} {s s' : Pimpl (World × τ)} {mp : MountPoint}
  {k : Fin 4} {path abspath : Str} {f : Volume.Found} {e : ErrorCode}

/-- An operation is refused: it returns an error, and the volume is what it was. -/
structure Refuses (k : Fin 4) (s s' : Pimpl (World × τ)) (e : ErrorCode) : Prop where
  error : e ≠ 0
  volume : s'.world.1.volume k = s.world.1.volume k

/-- `rmdir` is `ext4_dir_rm` on the path. -/
lemma world_rmdir (rc : Reaches s path abspath mp)
    (h : pathOp (backend bl O) .rmdir path s = (e, s')) :
    s.world.1.ext4DirRm bl abspath = (e, s'.world.1) := by
  obtain ⟨o, ho⟩ := Option.isSome_iff_exists.mp rc.object
  have hi : lockedCall (backend bl O) mp (.path .rmdir abspath) s = (e, s') :=
    (rc.invokeFopsPath .rmdir).symm.trans h
  have hc : (backend bl O).call mp.fs (.path .rmdir abspath) s.world =
      ((s.world.1.ext4DirRm bl abspath).1, (s.world.1.ext4DirRm bl abspath).2, s.world.2) :=
    callObject_some ho
  have h₁ : (s.world.1.ext4DirRm bl abspath).1 = e :=
    (congrArg Prod.fst hc).symm.trans (congrArg Prod.fst hi)
  have h₂ : (s.world.1.ext4DirRm bl abspath).2 = s'.world.1 :=
    (congrArg (fun r => r.2.1) hc).symm.trans (congrArg (fun r => r.2.world.1) hi)
  exact Prod.ext h₁ h₂

/-- `rmdir` of a directory that has entries is refused on a read-only mount and nowhere else, and
never because of them. -/
theorem refuses_rmdir_iff (rc : Reaches s path abspath mp)
    (hf : s.world.1.lookup bl (some .dir) abspath = .ok (k, f))
    (t : (s.world.1.volume k).IsTree) (hc : (s.world.1.volume k).hasChildren f.inode = true)
    (h : pathOp (backend bl O) .rmdir path s = (e, s')) :
    (Refuses k s s' e ↔ (s.world.1.sMp k).readOnly = true) ∧
      ¬ (Refuses k s s' e ∧ e = ENOTEMPTY) := by
  have hw := world_rmdir rc h
  rcases World.dirRm_effect hf t with ⟨ro, he⟩ | ⟨ro, ne, gone⟩
  · obtain ⟨rfl, hs⟩ := Prod.mk.inj (he.symm.trans hw)
    refine ⟨iff_of_true ⟨show EROFS ≠ 0 by decide, congrArg (fun w => w.volume k) hs.symm⟩ ro, ?_⟩
    exact fun r => absurd r.2 (by decide)
  · rw [hw] at ne gone
    have changed : ¬ Refuses k s s' e := by
      intro r
      -- a directory without entries had some
      rw [r.volume] at gone
      exact (of_decide_eq_true hc).2 gone
    refine ⟨iff_of_false changed ?_, fun r => changed r.1⟩
    rw [ro]
    nofun

/-- An open file in a directory. -/
def openBelowD : Pimpl (World × (FsId → Str)) :=
  play ext [.path (.mkdir 0) "/a/d".toList, .open "/a/d/f".toList 0x42 0, .file (.write [1]) 3]
    mountedAtA

/-- The sample volume is a tree. -/
lemma isTree_openBelowD : (openBelowD.world.1.volume 0).IsTree :=
  .of_lt (by decide +kernel) (by decide +kernel)

/-- The directory is reached. -/
lemma reaches_openBelowD : Reaches openBelowD "/a/d".toList "/a/d".toList mountPointA :=
  ⟨by decide +kernel, by decide +kernel, by decide +kernel⟩

/-- And found by lwext4. -/
lemma lookup_openBelowD : openBelowD.world.1.lookup firstFree (some .dir) "/a/d".toList =
    .ok (0, ⟨11, 2, "d".toList⟩) := by decide +kernel

/-- A directory with an open file below it is removed unless the volume is read-only. -/
theorem refuses_rmdir_openBelowD :
    (Refuses 0 openBelowD (play ext [.path .rmdir "/a/d".toList] openBelowD) 0 ↔
        (openBelowD.world.1.sMp 0).readOnly = true) ∧
      ¬ (Refuses 0 openBelowD (play ext [.path .rmdir "/a/d".toList] openBelowD) 0 ∧
        (0 : ErrorCode) = ENOTEMPTY) := by
  have h : (pathOp ext .rmdir "/a/d".toList openBelowD).1 = 0 := by decide +kernel
  exact refuses_rmdir_iff (O := .accepting) reaches_openBelowD lookup_openBelowD isTree_openBelowD
    (by decide +kernel) (Prod.ext h rfl)

/-- `rmdir("/a/d")` succeeds, and the file that is open below is gone. -/
theorem not_refuses_rmdir_openBelowD :
    Reachable ext openBelowD ∧ Reaches openBelowD "/a/d".toList "/a/d".toList mountPointA ∧
      (openBelowD.world.1.volume 0).IsTree ∧
      openBelowD.world.1.lookup firstFree (some .dir) "/a/d".toList =
        .ok (0, ⟨11, 2, "d".toList⟩) ∧
      (openBelowD.world.1.volume 0).hasChildren 11 = true ∧
      (openBelowD.fdContainer.byId.lookup 3).isSome ∧ openBelowD.world.1.Refers 0 0 12 ∧
      (openBelowD.world.1.volume 0).used 12 = true ∧
      ∃ s', Step ext openBelowD (.op (.path .rmdir "/a/d".toList) (.ok 0)) s' ∧
        (s'.world.1.volume 0).used 12 = false ∧ ¬ Refuses 0 openBelowD s' 0 := by
  have e : exec ext (.path .rmdir "/a/d".toList) openBelowD =
      .ok (.ok 0, play ext [.path .rmdir "/a/d".toList] openBelowD) :=
    exec_play (by decide) (by decide +kernel)
  exact ⟨reachable_mountedAtA.play, reaches_openBelowD, isTree_openBelowD, lookup_openBelowD,
    by decide +kernel, by decide +kernel, by decide +kernel, by decide +kernel, _,
    .op (by decide) e, by decide +kernel, fun r => r.error rfl⟩

end Pimpl
end Evfs
