import Evfs.Fstypes.FilesystemLwext4
import Evfs.Lwext4.Renaming

/-!
# Methods on a read-only volume

What stands between a `filesystem_lwext4` and a volume in a read-only slot: the check of each
function of lwext4. A method that changes something at a path, or in an open file, fails if that is in
such a slot or in none. Two functions look too seldom: `ext4_fopen2` asks for `O_CREAT` only, and
`ext4_frename` for the old path only.
-/

namespace Evfs

/-- The paths that a method is to change something at. -/
def PathOp.targets : PathOp → Str → List Str
  | .link newlink, path => [path, newlink]
  | .symlink newlink, _ => [newlink]
  | .unlink, path => [path]
  | .rmdir, path => [path]
  | .mkdir _, path => [path]
  | .utimens _ _, path => [path]
  | .chmod _, path => [path]
  | _, _ => []

namespace Lwext4
namespace World
variable {bl : BlockLayer} {w : World} {k : Fin 4} {path newPath : Str}

/-- Writing back what was there. -/
lemma setVolume_volume {i : Fin 4} : w.setVolume i (w.volume i) = w := by
  unfold setVolume volume
  rw [Function.update_eq_self]

/-- `ext4_fopen2` on a read-only slot fails, or opens a file that is there. -/
lemma fopen2_readOnly (bl : BlockLayer) (flags : Flags) (hm : w.getMount path = some k)
    (ro : (w.sMp k).readOnly = true) : (∃ e, w.ext4Fopen2 bl path flags = (.error e, w)) ∨
      ∃ f, w.lookup bl (some .regFile) path = .ok (k, f) ∧ creat flags = false ∧
        (trunc flags = false → (w.ext4Fopen2 bl path flags).2 = w) := by
  cases hc : creat flags with
  | true => exact .inl ⟨EROFS, by simp only [ext4Fopen2, hm, ro, hc, and_self, if_true]⟩
  | false =>
    have hn : ¬ ((w.sMp k).readOnly = true ∧ false = true) := nofun
    simp only [ext4Fopen2, lookup, hm, hc, if_neg hn, Volume.fopen2, Volume.find]
    cases hg : Volume.genericOpen bl false (some .regFile) (w.names path k) (w.volume k) with
    | error e => exact .inl ⟨e, rfl⟩
    | ok r =>
      obtain ⟨f, v⟩ := r
      cases Volume.openLoop_false hg
      refine .inr ⟨f, rfl, trivial, fun ht => ?_⟩
      simp only [ht, Bool.false_eq_true, if_false]
      exact setVolume_volume

end World

namespace FilesystemLwext4
open World
variable {bl : BlockLayer} {fs : FsId} {o : Object} {w : World} {k : Fin 4} {P : Fin 4 → Prop}

/-- `open` changes a volume in a read-only slot only by truncating a file that is there. -/
lemma confined_open_readOnly {abspath : Str} {flags : Flags} (hm : w.getMount abspath = some k)
    (ro : (w.sMp k).readOnly = true)
    (h : ∀ f, w.lookup bl (some .regFile) abspath = .ok (k, f) → creat flags = false →
      trunc flags = false) :
    Confined P w (FilesystemLwext4.open bl fs o abspath flags w).2 := by
  have inv := fopen2_readOnly bl flags hm ro
  rcases inv with ⟨e, he⟩ | ⟨f, hl, hc, same⟩
  · have e' : FilesystemLwext4.open bl fs o abspath flags w = (.error e, w) := by
      simp only [FilesystemLwext4.open, he]
    rw [e']
    exact .refl
  · have same := same (h f hl hc)
    unfold FilesystemLwext4.open
    split
    · rename_i he
      rw [he] at same
      cases same
      exact .refl
    · rename_i he
      rw [he] at same
      cases same
      apply Confined.own.trans
      apply confined_change
      intro i hi
      have hi := writable_ok.mp hi
      cases hm.symm.trans hi.1
      rw [ro] at hi
      cases hi.2

/-- What `open` opens in a read-only slot is there, and `O_CREAT` is not asked for. -/
lemma open_readOnly {abspath : Str} {flags : Flags} {h : FileHandle}
    (hm : w.getMount abspath = some k) (ro : (w.sMp k).readOnly = true)
    (e : (FilesystemLwext4.open bl fs o abspath flags w).1 = .ok h) :
    ∃ f, w.lookup bl (some .regFile) abspath = .ok (k, f) ∧ creat flags = false := by
  obtain ⟨g, hg⟩ := open_fopen2 e
  have inv := fopen2_readOnly bl flags hm ro
  rcases inv with ⟨e', he⟩ | ⟨f, hl, hc, -⟩
  · rw [he] at hg
    cases hg
  · exact ⟨f, hl, hc⟩

/-- A rename in a read-only volume touches no other. -/
lemma confined_rename_readOnly {oldname newname : Str} (ro : (w.sMp k).readOnly = true)
    (hP : ∀ i, (w.sMp i).mounted = true → i ≠ k → P i)
    (h : ¬ w.Linkable bl k oldname newname) :
    Confined P w (w.ext4Frename bl oldname newname).2 := by
  by_cases hm : w.getMount newname = some k
  · have no : ∀ j, ¬ w.Linkable bl j oldname newname := fun j hj => by
      obtain ⟨_, _, _, _, -, -, hm', -⟩ := id hj
      cases hm.symm.trans hm'
      exact h hj
    obtain ⟨e, -, he⟩ := frename_not_linkable no
    rw [he]
    exact .refl
  · apply confined_frename
    · intro i hi
      have m := mayWrite_of_writable hi
      refine hP i m.1 fun e => ?_
      rw [e, MayWrite, ro] at m
      cases m.2
    · intro i j _ hj
      exact hP j (mounted_of_getMount hj) fun e => hm (e ▸ hj)

end FilesystemLwext4

namespace World
variable {w : World} {path : Str}

/-- The path is in a read-only slot, if it is in any. -/
def Closed (path : Str) (w : World) : Prop :=
  ∀ i, w.getMount path = some i → (w.sMp i).readOnly = true

/-- The check fails on such a path. -/
lemma Closed.writable (h : w.Closed path) : ∃ e, e ≠ 0 ∧ w.writable path = .error e := by
  cases hm : w.getMount path with
  | none => exact ⟨ENOENT, by decide, by simp only [World.writable, hm]⟩
  | some i => exact ⟨EROFS, by decide, writable_readOnly hm (h i hm)⟩

/-- Nothing is changed at such a path. -/
lemma Closed.change (h : w.Closed path) {f : List Str → Volume → ErrorCode × Volume} :
    (w.change path f).1 ≠ 0 := by
  obtain ⟨e, he, hw⟩ := h.writable
  rw [change_error hw]
  exact he

/-- An existing file of such a path is not renamed. -/
lemma Closed.frename (h : w.Closed path) {bl : BlockLayer} {newPath : Str} :
    (w.ext4Frename bl path newPath).1 ≠ 0 := by
  obtain ⟨e, he, hw⟩ := h.writable
  simp only [ext4Frename, hw]
  exact he

/-- The slot of an open file is read-only, if there is one. -/
def ClosedFile (raw : Nat) (w : World) : Prop :=
  ∀ i, (w.files raw).mp = some i → (w.sMp i).readOnly = true

/-- Such a file has no slot, or one that is read-only. -/
lemma ClosedFile.slotOf {raw : Nat} (h : w.ClosedFile raw) :
    w.slotOf (w.files raw) = none ∨
      ∃ i, w.slotOf (w.files raw) = some i ∧ (w.sMp i).readOnly = true := by
  cases hs : w.slotOf (w.files raw) with
  | none => exact .inl rfl
  | some i =>
    unfold World.slotOf at hs
    obtain ⟨j, hj, e⟩ := Option.bind_eq_some_iff.mp hs
    split at e
    · cases e
      exact .inr ⟨i, rfl, h i hj⟩
    · cases e

end World

namespace FilesystemLwext4
open World
variable {bl : BlockLayer} {o : Object} {w : World}

/-- `chmod` of such a path, and `fchmod`, fail. -/
lemma chmod_closed {path : Str} {mode : Nat} (h : w.Closed path) : (chmod bl path mode w).1 ≠ 0 := by
  obtain ⟨e, he, hw⟩ := h.writable
  rw [chmod, ext4ModeSet, changeTrans, change_error hw]
  simp only [if_pos he]
  exact he

/-- A method on a path that is to change something at such a path fails. -/
lemma callPath_closed {op : PathOp} {path p : Str} (hp : p ∈ op.targets path) (h : w.Closed p) :
    op.code (callPath bl o op path w).1 ≠ 0 := by
  cases op with
  | stat => cases hp
  | statVfs => cases hp
  | ioctl cmd => cases hp
  | link newlink =>
    show (w.ext4Flink bl path newlink).1 ≠ 0
    unfold ext4Flink
    split
    · rename_i e
      exact writable_error e
    · rename_i i hi
      -- the old path is in a slot that may be written to, and the new one is not in that slot
      have ne : w.getMount newlink ≠ some i := by
        obtain ⟨hm, hr⟩ := writable_ok.mp hi
        intro e
        have ro : (w.sMp i).readOnly = true := by
          rcases List.mem_cons.mp hp with rfl | hp
          · exact h i hm
          · cases List.mem_singleton.mp hp
            exact h i e
        rw [hr] at ro
        cases ro
      rw [if_pos ne]
      exact (by decide : EINVAL ≠ 0)
  | symlink newlink =>
    obtain rfl := List.mem_singleton.mp hp
    exact h.change
  | unlink =>
    obtain rfl := List.mem_singleton.mp hp
    show (unlink bl p w).1 ≠ 0
    unfold unlink
    split
    · exact h.change
    · rw [ext4Fremove, changeTrans]
      exact h.change
  | rmdir =>
    obtain rfl := List.mem_singleton.mp hp
    exact h.change
  | mkdir mode =>
    obtain rfl := List.mem_singleton.mp hp
    exact h.change
  | utimens atime mtime => exact (by decide : ENOTSUP ≠ 0)
  | chmod mode =>
    obtain rfl := List.mem_singleton.mp hp
    exact chmod_closed h

/-- `write` of an open file in a read-only slot, or in none, fails. -/
lemma fwrite_closed (bl : BlockLayer) {raw : Nat} {data : List UInt8} (h : w.ClosedFile raw) :
    ∃ e, e ≠ 0 ∧ (w.ext4Fwrite bl raw data).1 = .error e := by
  rcases h.slotOf with hs | ⟨i, hs, ro⟩
  · exact ⟨ EIO, by decide, by simp only [ext4Fwrite, hs]⟩
  · exact ⟨EROFS, by decide, by simp only [ext4Fwrite, hs, if_pos ro]⟩

/-- `ftruncate` of an open file in a read-only slot, or in none, fails. -/
lemma ftruncate_closed {h : FileHandle} {len : Int} (hc : w.ClosedFile h.raw) :
    (ftruncate bl h len w).1 ≠ 0 := by
  have e : ∃ e, e ≠ 0 ∧ e ≠ ENOTSUP ∧ w.ext4Ftruncate h.raw (len % 2 ^ 64).toNat = (e, w) := by
    rcases hc.slotOf with hs | ⟨i, hs, ro⟩
    · exact ⟨ EIO, by decide, by decide, by simp only [ext4Ftruncate, hs]⟩
    · exact ⟨EROFS, by decide, by decide, by simp only [ext4Ftruncate, hs, if_pos ro]⟩
  obtain ⟨e, he, hn, hw⟩ := e
  rw [ftruncate]
  simp only [hw, if_neg hn]
  exact he

end FilesystemLwext4
end Lwext4
end Evfs
