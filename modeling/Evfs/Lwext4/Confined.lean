import Evfs.Lwext4.Ext4

/-!
# What a call of lwext4 can reach

`Confined P` says that a call left the tables alone and changed no volume but those mounted in slots
that satisfy `P`. Each function of `Ext4.lean` other than those that mount and unmount is confined to
the slots its checks let through; the slots that are not read-only are enough for most.
-/

namespace Evfs
namespace Lwext4

/-- The tables are the same, and every volume that is in no slot of `P` is. -/
structure Confined (P : Fin 4 → Prop) (w w' : World) : Prop where
  sBdevices : w'.sBdevices = w.sBdevices
  sMp : w'.sMp = w.sMp
  devName : w'.devName = w.devName
  objects : w'.objects = w.objects
  volumes : ∀ d, (∀ i, P i → (w.sMp i).bdev ≠ d) → w'.volumes d = w.volumes d

namespace Confined
variable {P Q : Fin 4 → Prop} {w w' w'' : World}

lemma refl : Confined P w w := ⟨rfl, rfl, rfl, rfl, fun _ _ => rfl⟩

lemma trans (c : Confined P w w') (c' : Confined P w' w'') : Confined P w w'' where
  sBdevices := c'.sBdevices.trans c.sBdevices
  sMp := c'.sMp.trans c.sMp
  devName := c'.devName.trans c.devName
  objects := c'.objects.trans c.objects
  volumes d h := by
    have h' : ∀ i, P i → (w'.sMp i).bdev ≠ d := by
      rw [c.sMp]
      exact h
    exact (c'.volumes d h').trans (c.volumes d h)

/-- Writing back the volume of a slot in `P`. -/
lemma setVolume {i : Fin 4} {v : Volume} (p : P i) : Confined P w (w.setVolume i v) where
  sBdevices := rfl
  sMp := rfl
  devName := rfl
  objects := rfl
  volumes _ h := Function.update_of_ne (h i p).symm _ _

/-- The open files and directories, the clock and the accesses to the disk are no matter. -/
lemma own {files : Nat → File} {dirs : Nat → Dir} {nextRaw readings accessed : Nat} :
    Confined P w { w with files, dirs, nextRaw, readings, accessed } :=
  ⟨rfl, rfl, rfl, rfl, fun _ _ => rfl⟩

/-- A volume on none of the devices in `P` is as before. -/
lemma volume (c : Confined P w w') {k : Fin 4} (h : ∀ i, P i → (w.sMp i).bdev ≠ (w.sMp k).bdev) :
    w'.volume k = w.volume k := by
  rw [World.volume, c.sMp]
  exact c.volumes _ h

/-- The slot of a path is as before. -/
lemma getMount (c : Confined P w w') (path : Str) : w'.getMount path = w.getMount path := by
  simp only [World.getMount, c.sMp]

/-- So is the check that the path may be written. -/
lemma writable (c : Confined P w w') (path : Str) : w'.writable path = w.writable path := by
  simp only [World.writable, c.getMount, c.sMp]

/-- So are the names of the path below its mount point. -/
lemma names (c : Confined P w w') (path : Str) (i : Fin 4) :
    w'.names path i = w.names path i := by
  simp only [World.names, c.sMp]

end Confined

namespace World
variable {P : Fin 4 → Prop} {w : World} {path : Str} {i : Fin 4}

/-- The slot of a path that may be written to. -/
lemma writable_ok :
    w.writable path = .ok i ↔ w.getMount path = some i ∧ (w.sMp i).readOnly = false := by
  unfold writable
  cases w.getMount path with
  | none => exact ⟨nofun, fun h => nomatch h.1⟩
  | some j =>
    refine ⟨fun h => ?_, fun ⟨e, hi⟩ => ?_⟩
    · simp only at h
      split at h
      · cases h
      · rename_i hr
        cases h
        exact ⟨rfl, by simpa using hr⟩
    · cases e
      simp [hi]

/-- A path in a read-only volume is refused with `EROFS`. -/
lemma writable_readOnly (h : w.getMount path = some i) (ro : (w.sMp i).readOnly = true) :
    w.writable path = .error EROFS := by
  simp only [writable, h, ro, if_true]

/-- What a path leads to, and the slot it does so in. -/
lemma lookup_ok {bl : BlockLayer} {ftype : Option FileType} {f : Volume.Found} :
    w.lookup bl ftype path = .ok (i, f) ↔ w.getMount path = some i ∧
      Volume.find bl ftype (w.names path i) (w.volume i) = .ok f := by
  unfold lookup
  cases w.getMount path with
  | none => exact ⟨nofun, fun h => nomatch h.1⟩
  | some j =>
    constructor
    · intro h
      simp only at h
      split at h
      · cases h
      · rename_i hf
        cases h
        exact ⟨rfl, hf⟩
    · rintro ⟨e, hf⟩
      cases e
      simp only [hf]

/-- The slot found for a path is mounted. -/
lemma mounted_of_getMount (h : w.getMount path = some i) : (w.sMp i).mounted = true := by
  have e := List.find?_some h
  simp only [decide_eq_true_eq] at e
  exact e.1

/-- No slot before the one found has a name that is a prefix. -/
lemma not_prefix_of_getMount (h : w.getMount path = some i) {j : Fin 4} (lt : j < i)
    (hm : (w.sMp j).mounted = true) : ¬ (w.sMp j).name <+: path := by
  intro hp
  obtain ⟨-, pre, post, e, no⟩ := List.find?_eq_some_iff_append.mp h
  have hj : j ∈ pre ++ i :: post := e ▸ List.mem_finRange j
  have sorted : (pre ++ i :: post).Pairwise (· < ·) := e ▸ List.pairwise_lt_finRange 4
  rcases List.mem_append.mp hj with hj | hj
  · simpa [hm, hp] using no j hj
  · rcases List.mem_cons.mp hj with rfl | hj
    · exact lt_irrefl _ lt
    · have sorted := (List.pairwise_append.mp sorted).2.1
      exact lt_asymm lt ((List.pairwise_cons.mp sorted).1 j hj)

/-- The slot found for a path. -/
lemma getMount_eq (hm : (w.sMp i).mounted = true) (hp : (w.sMp i).name <+: path)
    (first : ∀ j < i, (w.sMp j).mounted = true → ¬ (w.sMp j).name <+: path) :
    w.getMount path = some i := by
  cases h : w.getMount path with
  | none =>
    have no := List.find?_eq_none.mp h i (List.mem_finRange i)
    simp [hm, hp] at no
  | some j =>
    have hj := List.find?_some h
    simp only [decide_eq_true_eq] at hj
    rcases lt_trichotomy i j with lt | rfl | gt
    · exact absurd hp (not_prefix_of_getMount h lt hm)
    · rfl
    · exact absurd hj.2 (first j gt hj.1)

/-- Its name begins the path. -/
lemma prefix_of_getMount (h : w.getMount path = some i) : (w.sMp i).name <+: path := by
  have e := List.find?_some h
  simp only [decide_eq_true_eq] at e
  exact e.2

/-- Something is mounted in the slot, and not read-only. -/
def MayWrite (w : World) (i : Fin 4) : Prop :=
  (w.sMp i).mounted = true ∧ (w.sMp i).readOnly = false

/-- A path that passes the check is in a volume that may be written. -/
lemma mayWrite_of_writable (h : w.writable path = .ok i) : w.MayWrite i := by
  obtain ⟨hm, hr⟩ := writable_ok.mp h
  exact ⟨mounted_of_getMount hm, hr⟩

/-- So is a file of a mounted slot that is not read-only. -/
lemma mayWrite_of_slotOf {f : File} (h : w.slotOf f = some i)
    (hr : ¬ (w.sMp i).readOnly = true) : w.MayWrite i := by
  obtain ⟨j, -, e⟩ := Option.bind_eq_some_iff.mp h
  split at e
  · rename_i hm
    cases e
    exact ⟨hm, by simpa using hr⟩
  · cases e

/-! ### Functions on paths -/

section Change
variable {f : List Str → Volume → ErrorCode × Volume}

/-- A change of a path that may be written. -/
lemma change_eq (h : w.writable path = .ok i) :
    w.change path f = ((f (w.names path i) (w.volume i)).1,
      w.setVolume i (f (w.names path i) (w.volume i)).2) := by
  simp only [change, h]

/-- A change of a path that may not. -/
lemma change_error {e : ErrorCode} (h : w.writable path = .error e) :
    w.change path f = (e, w) := by
  simp only [change, h]

/-- A change touches only the volume of its path. -/
lemma confined_change (h : ∀ i, w.writable path = .ok i → P i) :
    Confined P w (w.change path f).2 := by
  cases hw : w.writable path with
  | error e =>
    rw [change_error hw]
    exact .refl
  | ok i =>
    rw [change_eq hw]
    exact .setVolume (h i hw)

end Change

variable {bl : BlockLayer}

/-- `ext4_fopen2` changes at most the volume the path is on. -/
lemma confined_fopen2 {flags : Flags} (h : ∀ i, w.getMount path = some i → P i) :
    Confined P w (w.ext4Fopen2 bl path flags).2 := by
  unfold ext4Fopen2
  split
  · exact .refl
  · rename_i i hm
    split
    · exact .refl
    · split
      · exact .refl
      · exact .setVolume (h i hm)

/-- What `ext4_fopen2` opens is found, or made, on the volume of the path. -/
lemma fopen2_ok {flags : Flags} {f : File} (h : (w.ext4Fopen2 bl path flags).1 = .ok f) :
    ∃ i f' v, w.getMount path = some i ∧ Volume.genericOpen bl (creat flags) (some .regFile)
      (w.names path i) (w.volume i) = .ok (f', v) := by
  unfold ext4Fopen2 at h
  split at h
  · cases h
  · rename_i i hm
    split at h
    · cases h
    · split at h
      · cases h
      · rename_i hv
        unfold Volume.fopen2 at hv
        split at hv
        · cases hv
        · rename_i hg
          exact ⟨i, _, _, hm, hg⟩

/-- An open leaves the next handle number to its caller. -/
lemma nextRaw_fopen2 {flags : Flags} : (w.ext4Fopen2 bl path flags).2.nextRaw = w.nextRaw := by
  unfold ext4Fopen2
  repeat' split
  all_goals rfl

/-- A hard link touches only the volume of its path. -/
lemma confined_flink {newPath : Str} (h : ∀ i, w.writable path = .ok i → P i) :
    Confined P w (w.ext4Flink bl path newPath).2 := by
  unfold ext4Flink
  split
  · exact .refl
  · rename_i i hw
    split
    · exact .refl
    · exact .setVolume (h i hw)

/-- `ext4_frename` changes at most the volumes the two paths are on. -/
lemma confined_frename {newPath : Str} (h : ∀ i, w.writable path = .ok i → P i)
    (h' : ∀ i j, w.writable path = .ok i → w.getMount newPath = some j → P j) :
    Confined P w (w.ext4Frename bl path newPath).2 := by
  unfold ext4Frename
  split
  · exact .refl
  · rename_i i hw
    split
    · exact .refl
    · split
      · exact .refl
      · rename_i j hm
        split
        · exact .refl
        · split
          · exact .refl
          · have c : ∀ v, Confined P w (w.setVolume j v) := fun v => .setVolume (h' i j hw hm)
            simp only
            split
            · split
              · exact .refl
              · exact c _
            · exact (c _).trans (.setVolume (h i hw))

/-! ### Functions on open files -/

variable {raw : Nat}

/-- Truncating touches only the file's volume. -/
lemma confined_ftruncate {size : Nat} (h : ∀ i, w.MayWrite i → P i) :
    Confined P w (w.ext4Ftruncate raw size).2 := by
  unfold ext4Ftruncate
  simp only
  split
  · exact .refl
  · rename_i i hs
    split
    · exact .refl
    · rename_i hr
      split
      · exact .own
      · exact (Confined.setVolume (h i (mayWrite_of_slotOf hs hr))).trans .own

/-- Reading touches none. -/
lemma confined_fread {len : Nat} : Confined P w (w.ext4Fread bl raw len).2 := by
  unfold ext4Fread
  simp only
  split
  · exact .refl
  · split
    · exact .refl
    · split
      · exact .refl
      · exact .own

/-- Writing touches only the file's volume. -/
lemma confined_fwrite {data : List UInt8} (h : ∀ i, w.MayWrite i → P i) :
    Confined P w (w.ext4Fwrite bl raw data).2 := by
  unfold ext4Fwrite
  simp only
  split
  · exact .refl
  · rename_i i hs
    split
    · exact .refl
    · rename_i hr
      split
      · exact .refl
      · split
        · exact .refl
        · exact (Confined.setVolume (h i (mayWrite_of_slotOf hs hr))).trans .own

/-- Seeking touches none. -/
lemma confined_fseek {offset origin : Int} : Confined P w (w.ext4Fseek raw offset origin).2 := by
  unfold ext4Fseek
  simp only
  repeat' split
  all_goals exact .own

/-- Reading a directory entry touches none. -/
lemma confined_dirEntryNext : Confined P w (w.ext4DirEntryNext raw).2 := by
  unfold ext4DirEntryNext
  simp only
  split
  · split
    · exact .refl
    · exact .own
  · exact .refl

end World
end Lwext4
end Evfs
