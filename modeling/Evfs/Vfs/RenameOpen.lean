import Evfs.Lwext4.Renaming
import Evfs.Vfs.OneMount

/-!
# Renaming an open file

A file is known by its name in three places: the key of its entry in the descriptor table, the path
in its handles and the entry in its directory. `rename` changes the last only. `FollowsRename` is
what an open descriptor of the old name is owed; on a `filesystem_lwext4`, whose `fstat`, `fchmod`
and `close` go by the path of the handle, no successful rename of an open file keeps it.
-/

namespace Evfs
open Lib Lwext4
namespace Pimpl
variable {σ τ : Type} (B : Backend σ)

/-- A descriptor of `a` counts as one of `b` after the rename: the calls on it act on the renamed
file, and the entry of `a`, with its mark, is the one of `b`. -/
structure FollowsRename (a b : Str) (fd : Int) (s s' : Pimpl σ) : Prop where
  fstat : ∃ st s'', fileOp B .fstat fd s' = .ok ((0, some st), s'') ∧
    (pathOp B .stat b s').1 = (0, some st)
  fchmod (mode : Nat) : ∃ s'', fileOp B (.fchmod mode) fd s' = .ok (0, s'')
  close : ∃ s'', fileOp B .close fd s' = .ok (0, s'')
  moved : s'.fdContainer.byPath.lookup (Path.lexicallyNormal b) =
    s.fdContainer.byPath.lookup (Path.lexicallyNormal a)
  gone : Path.lexicallyNormal a ∉ s'.fdContainer.byPath

variable {bl : BlockLayer} {O : Backend τ} {s s₀ s' : Pimpl (World × τ)} {mp : MountPoint}
  {k : Fin 4}

/-- The path of an open file is not the root itself. -/
lemma OneMount.ne_root (one : OneMount mp k s) {abspath : Str}
    (hm : s.world.1.getMount abspath = some k) : abspath ≠ mp.root := by
  rintro rfl
  have h := (World.prefix_of_getMount hm).length_le
  rw [one.name, toNativeRoot, List.length_append, List.length_singleton] at h
  omega

/-- A method on an open file of the one mount. -/
lemma OneMount.invokeFopsFd (one : OneMount mp k s) (bl : BlockLayer) (O : Backend τ) (op : FdOp)
    {fd : Int} {fil : FileHandle} (hf : s.fdContainer.byId.lookup fd = some fil) :
    ∃ o s', o.root = mp.root ∧ Pimpl.invokeFopsFd (backend bl O) op fd s =
      .ok ((FilesystemLwext4.callFile bl o op fil s.world.1).1, s') := by
  have hr := (one.handles hf).1
  obtain ⟨o, ho, hc⟩ := one.call bl O
  refine ⟨o, (lockedCall (backend bl O) mp (.file op fil) s).2, ho, ?_⟩
  have e : ((backend bl O).call mp.fs (.file op fil) s.world).1 =
      (FilesystemLwext4.callFile bl o op fil s.world.1).1 := congrArg Prod.fst (hc (.file op fil))
  have hm := one.lookup
  rw [← hr] at hm
  rw [← e]
  simp only [Pimpl.invokeFopsFd, hf, hm]
  rfl

/-- Once its path leads nowhere, `fstat` and `fchmod` of a file fail. -/
lemma callFile_lost {o : Object} {fil : FileHandle} {w : World} {i : Fin 4}
    (hw : w.writable fil.abspath = .ok i)
    (lost : ∀ ftype, Volume.find bl ftype (w.names fil.abspath i) (w.volume i) = .error ENOENT)
    (ne : fil.abspath ≠ o.root) :
    (FilesystemLwext4.callFile bl o .fstat fil w).1 = (ENOENT, none) ∧
      ∀ mode, (FilesystemLwext4.callFile bl o (.fchmod mode) fil w).1 = ENOENT := by
  constructor
  case left =>
    show FilesystemLwext4.stat bl o fil.abspath w = _
    rw [FilesystemLwext4.stat, toNativePath, if_neg ne, World.lookup, (World.writable_ok.mp hw).1]
    simp only [lost]
  case right =>
    intro mode
    have e : w.ext4ModeSet bl fil.abspath mode = (ENOENT, w.setVolume i (w.volume i)) := by
      rw [World.ext4ModeSet, World.changeTrans, World.change_eq hw]
      simp only [Volume.setInode, lost, World.trans]
    show (FilesystemLwext4.chmod bl fil.abspath mode w).1 = ENOENT
    rw [FilesystemLwext4.chmod, e]
    rfl

/-- In every session on one mount: after a rename of a file succeeds, its open descriptors are still
recorded under the old name, and `fstat` and `fchmod` on them fail. -/
theorem rename_not_followed {a b : Str} {fd : Int} {fil : FileHandle}
    (one : OneMount mp k s₀)
    (run : Runs (Step (backend bl O)) (fun _ l => Ordinary l) s₀ s)
    (hf : s.fdContainer.byId.lookup fd = some fil) (ha : fil.abspath = Path.lexicallyNormal a)
    (he : exec (backend bl O) (.rename a b) s = .ok (.ok 0, s')) :
    (3 ≤ fd → ∃ s'', fileOp (backend bl O) .fstat fd s' = .ok ((ENOENT, none), s'')) ∧
      (∀ mode, ∃ s'', fileOp (backend bl O) (.fchmod mode) fd s' = .ok (ENOENT, s'')) ∧
      s'.fdContainer = s.fdContainer ∧ ¬ FollowsRename (backend bl O) a b fd s s' := by
  have one : OneMount mp k s := run.invariant (fun one ok st => one.step ok st) one
  have one' := one.exec rfl he
  -- the call of the rename and its success
  have hrep := congrArg Prod.fst (Except.ok.inj he)
  have hsnd : (rename (backend bl O) a b s).2 = s' := congrArg Prod.snd (Except.ok.inj he)
  have h0 : (rename (backend bl O) a b s).1 = 0 := by
    simp only [reply] at hrep
    split at hrep
    · assumption
    · cases hrep
  have hfd : s'.fdContainer = s.fdContainer := by
    rw [← hsnd]
    exact Quiet.rename.fdContainer
  obtain ⟨abspath, abspath2, mp', hab, -, hmp, -, hcall, hworld⟩ := rename_ok (Prod.ext h0 hsnd)
  obtain ⟨o, ho, hc⟩ := one.call bl O
  cases one.found hmp
  have hr : s.world.1.ext4Frename bl abspath abspath2 = (0, s'.world.1) := by
    rw [hc] at hcall hworld
    exact Prod.ext hcall (congrArg Prod.fst hworld).symm
  have habs : abspath = fil.abspath := (absolutePath_ok hab).2.trans ha.symm
  -- the old path leads nowhere
  have mount : ∀ i, s.world.1.getMount abspath = some i → i = k := fun i => one.getMount
  obtain ⟨i, hw, lost⟩ := World.find_renamed hr
    (fun i hm hn => by
      obtain rfl := mount i hm
      rcases one.proper_names hab hm hn with e | p
      · cases e
      · exact p.ne_dotDot rfl)
    (fun i hm => by
      obtain rfl := mount i hm
      rw [habs]
      exact (one.handles hf).2)
  have hf' : s'.fdContainer.byId.lookup fd = some fil := hfd ▸ hf
  have ne : abspath ≠ mp.root := by
    have hm := (World.writable_ok.mp hw).1
    rw [one'.getMount hm] at hm
    exact one'.ne_root hm
  rw [habs] at hw lost ne
  have hfchmod : ∀ mode, ∃ s'', fileOp (backend bl O) (.fchmod mode) fd s' =
      .ok (ENOENT, s'') := by
    intro mode
    obtain ⟨o, s'', ho, e⟩ := one'.invokeFopsFd bl O (.fchmod mode) hf'
    exact ⟨s'', by rw [← (callFile_lost hw lost (ho ▸ ne)).2 mode]; exact e⟩
  refine ⟨fun h3 => ?_, hfchmod, hfd, fun follows => ?_⟩
  · obtain ⟨o, s'', ho, e⟩ := one'.invokeFopsFd bl O .fstat hf'
    refine ⟨s'', ?_⟩
    rw [(callFile_lost hw lost (ho ▸ ne)).1] at e
    have h3' : ¬ fd < 3 := not_lt.mpr h3
    simp only [fileOp, fstat, if_neg h3']
    exact e
  · obtain ⟨s₁, e₁⟩ := follows.fchmod 0
    obtain ⟨s₂, e₂⟩ := hfchmod 0
    rw [e₂] at e₁
    cases congrArg Prod.fst (Except.ok.inj e₁)

/-- A file is created. -/
def createdF : Pimpl (World × (FsId → Str)) := play ext [.open "/a/f".toList 0x42 0] mountedAtA

/-- The file, with its descriptor open, gets another name. -/
def renamedF : Pimpl (World × (FsId → Str)) :=
  play ext [.rename "/a/f".toList "/a/g".toList] createdF

/-- The rename of the sample succeeds. -/
lemma exec_rename_createdF :
    exec ext (.rename "/a/f".toList "/a/g".toList) createdF = .ok (.ok 0, renamedF) :=
  exec_play (by decide) (by decide +kernel)

/-- The open descriptor does not follow it. -/
theorem rename_not_followed_createdF :
    ¬ FollowsRename ext "/a/f".toList "/a/g".toList 3 createdF renamedF := by
  have run : Runs (Step ext) (fun _ l => Ordinary l) mountedAtA createdF :=
    runs_play fun a ha _ _ => by
      cases List.mem_singleton.mp ha
      rfl
  have hf : createdF.fdContainer.byId.lookup 3 =
      some ⟨0, "/a".toList, "/a/f".toList, 0⟩ := by decide +kernel
  exact (rename_not_followed oneMount_mountedAtA run hf (by decide) exec_rename_createdF).2.2.2

/-- `open("/a/f", O_CREAT | O_RDWR)` returns `3`; after `rename("/a/f", "/a/g")` neither `fchmod` on
it succeeds, nor is an unlink of `/a/g` deferred, while the entry of `/a/f` is still there. -/
theorem not_followsRename_renamedF :
    Reachable ext renamedF ∧
      exec ext (.rename "/a/f".toList "/a/g".toList) createdF = .ok (.ok 0, renamedF) ∧
      "/a/f".toList ∈ renamedF.fdContainer.byPath ∧ "/a/g".toList ∉ renamedF.fdContainer.byPath ∧
      ¬ FollowsRename ext "/a/f".toList "/a/g".toList 3 createdF renamedF := by
  have hf : "/a/f".toList ∈ renamedF.fdContainer.byPath := by decide +kernel
  refine ⟨reachable_mountedAtA.play.play, exec_rename_createdF, hf, by decide +kernel, ?_⟩
  exact fun follows => follows.gone hf

end Pimpl
end Evfs
