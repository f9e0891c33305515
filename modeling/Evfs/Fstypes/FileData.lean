import Evfs.Fstypes.FilesystemLwext4
import Evfs.Lwext4.InUse

/-!
# What the methods do to the data of a file

`Holds` says of a path that it leads to a file in use and what this file holds. A method that does
not remove anything keeps it: only a write, a truncation and an `open` with `O_TRUNC` of that file
change what it holds, each in the way its result says.
-/

namespace Evfs
namespace Lwext4
open Lib
namespace World

/-- The open file at the address is that file of the volume in the slot. -/
def Refers (w : World) (k : Fin 4) (raw : Nat) (i : Ino) : Prop :=
  (w.files raw).mp = some k ∧ (w.files raw).inode = i

instance (w : World) (k : Fin 4) (raw : Nat) (i : Ino) : Decidable (w.Refers k raw i) :=
  inferInstanceAs (Decidable (_ ∧ _))

/-- The path leads to the file, and this is what the file holds. -/
structure Holds (w : World) (k : Fin 4) (path : Str) (i : Ino) (data : List UInt8) : Prop where
  leads : (w.volume k).Leads rootIndex (w.names path k) i
  data : ((w.volume k).inodes i).data = data

/-- No address that was handed out comes to refer to another file. -/
structure Handles (w w' : World) : Prop where
  nextRaw : w.nextRaw ≤ w'.nextRaw
  refers {k raw i} : raw < w.nextRaw → w'.Refers k raw i → w.Refers k raw i

variable {bl : BlockLayer} {w w' w'' : World} {k : Fin 4} {path : Str} {i : Ino}
  {data : List UInt8} {P : Ino → Prop}

namespace Handles

/-- Doing nothing keeps the open files. -/
lemma refl : Handles w w := ⟨le_rfl, fun _ => id⟩

/-- Open files are kept along. -/
lemma trans (h : Handles w w') (h' : Handles w' w'') : Handles w w'' where
  nextRaw := h.nextRaw.trans h'.nextRaw
  refers lt r := h.refers lt (h'.refers (lt.trans_le h.nextRaw) r)

/-- Neither the files nor the addresses changed. -/
lemma of_eq (hf : w'.files = w.files) (hn : w'.nextRaw = w.nextRaw) : Handles w w' where
  nextRaw := hn.ge
  refers _ r := by
    unfold Refers at r ⊢
    rwa [hf] at r

/-- An open file that is the same file afterwards, or closed. -/
lemma update {raw : Nat} {f : File} (hf : w'.files = Function.update w.files raw f)
    (hn : w'.nextRaw = w.nextRaw)
    (same : f.mp = none ∨ f.mp = (w.files raw).mp ∧ f.inode = (w.files raw).inode) :
    Handles w w' where
  nextRaw := hn.ge
  refers {k raw' i} _ r := by
    unfold Refers at r ⊢
    rw [hf] at r
    by_cases h : raw' = raw
    · rw [h, Function.update_self] at r
      rcases same with e | ⟨e, e'⟩
      · rw [e] at r
        cases r.1
      · rw [h, ← e, ← e']
        exact r
    · rwa [Function.update_of_ne h] at r

end Handles

/-- What a file holds stays as long as the volume grows elsewhere. -/
lemma Holds.grows (h : w.Holds k path i data) (c : Confined (fun _ => True) w w')
    (g : Volume.Grows P (w.volume k) (w'.volume k)) (hi : ¬ P i) : w'.Holds k path i data where
  leads := by
    rw [c.names]
    exact h.leads.grows g
  data := (g.data h.leads.used h.leads.regFile hi).trans h.data

/-! ### Functions on paths -/

/-- A volume that is replaced by one that has grown. -/
lemma grows_setVolume {j : Fin 4} {v : Volume} (g : Volume.Grows P (w.volume j) v) :
    Volume.Grows P (w.volume k) ((w.setVolume j v).volume k) :=
  volume_setVolume (R := Volume.Grows P) (fun _ => .refl) g

/-- A change of a volume leaves the open files alone. -/
lemma files_change {f : List Str → Volume → ErrorCode × Volume} :
    (w.change path f).2.files = w.files ∧ (w.change path f).2.nextRaw = w.nextRaw := by
  cases hw : w.writable path with
  | error e =>
    rw [change_error hw]
    exact ⟨rfl, rfl⟩
  | ok i =>
    rw [change_eq hw]
    exact ⟨rfl, rfl⟩

/-- A change of a volume leaves the open files alone. -/
lemma handles_change {f : List Str → Volume → ErrorCode × Volume} :
    Handles w (w.change path f).2 := .of_eq files_change.1 files_change.2

/-- A transaction that fails changes nothing, so that its function decides. -/
lemma grows_changeTrans {f : List Str → Volume → Except ErrorCode Volume}
    (h : ∀ {names v v'}, f names v = .ok v' → Volume.Grows P v v') :
    Volume.Grows P (w.volume k) ((w.changeTrans path f).2.volume k) := by
  unfold changeTrans
  cases hw : w.writable path with
  | error e =>
    rw [change_error hw]
    exact .refl
  | ok j =>
    rw [change_eq hw]
    apply grows_setVolume
    cases hf : f (w.names path j) (w.volume j) with
    | error e => exact .refl
    | ok v => exact h hf

/-- Times are no part of what grows. -/
lemma grows_atimeSet {atime : Nat} :
    Volume.Grows P (w.volume k) ((w.ext4AtimeSet bl path atime).2.volume k) :=
  grows_changeTrans fun h => .setInode h (fun _ => rfl) (fun _ => rfl) fun _ => rfl

/-- Nor are the times of changes. -/
lemma grows_mtimeSet {mtime : Nat} (e : w'.volume k = w.volume k) :
    Volume.Grows P (w.volume k) ((w'.ext4MtimeSet bl path mtime).2.volume k) := by
  rw [← e]
  exact grows_changeTrans fun h => .setInode h (fun _ => rfl) (fun _ => rfl) fun _ => rfl

/-- Nor is the mode. -/
lemma grows_modeSet {mode : Nat} :
    Volume.Grows P (w.volume k) ((w.ext4ModeSet bl path mode).2.volume k) :=
  grows_changeTrans fun h => .setInode h (fun _ => rfl) (fun _ => rfl) fun _ => rfl

/-- `ext4_flink` opens nothing. -/
lemma handles_flink {newPath : Str} : Handles w (w.ext4Flink bl path newPath).2 := by
  unfold ext4Flink
  split
  · exact .refl
  · split
    · exact .refl
    · exact .of_eq rfl rfl

/-- `ext4_flink` adds an entry and counts a link. -/
lemma grows_flink {newPath : Str} :
    Volume.Grows P (w.volume k) ((w.ext4Flink bl path newPath).2.volume k) := by
  unfold ext4Flink
  split
  · exact .refl
  · rename_i j hw
    split
    · exact .refl
    · apply grows_setVolume
      cases hf : Volume.flink bl (w.names path j) (w.names newPath j) (w.volume j) with
      | error e => exact .refl
      | ok v => exact .flink hf

/-- `ext4_frename` opens nothing. -/
lemma handles_frename {newPath : Str} : Handles w (w.ext4Frename bl path newPath).2 := by
  unfold ext4Frename
  simp only
  repeat' split
  all_goals first | exact .refl | exact .of_eq rfl rfl

/-! ### Functions on open files -/

section Files
variable {raw : Nat}

/-- An open file has its slot as long as that is mounted. -/
lemma mp_of_slotOf {f : File} {j : Fin 4} (h : w.slotOf f = some j) :
    f.mp = some j ∧ (w.sMp j).mounted = true := by
  obtain ⟨j', e, h⟩ := Option.bind_eq_some_iff.mp h
  split at h
  · rename_i hm
    cases h
    exact ⟨e, hm⟩
  · cases h

/-- `ext4_fclose` clears one open file. -/
lemma handles_fclose : Handles w (w.ext4Fclose raw) := .update rfl rfl (.inl rfl)

/-- `ext4_ftruncate` may move the position of one. -/
lemma handles_ftruncate {size : Nat} : Handles w (w.ext4Ftruncate raw size).2 := by
  unfold ext4Ftruncate
  simp only
  split
  · exact .refl
  · split
    · exact .refl
    · split
      · exact .update rfl rfl (.inr ⟨rfl, rfl⟩)
      · exact .update rfl rfl (.inr ⟨rfl, rfl⟩)

/-- `ext4_fread` moves one on. -/
lemma handles_fread {len : Nat} : Handles w (w.ext4Fread bl raw len).2 := by
  unfold ext4Fread
  simp only
  repeat' split
  all_goals first | exact .refl | exact .update rfl rfl (.inr ⟨rfl, rfl⟩)

/-- `ext4_fwrite` moves one on. -/
lemma handles_fwrite {data : List UInt8} : Handles w (w.ext4Fwrite bl raw data).2 := by
  unfold ext4Fwrite
  simp only
  repeat' split
  all_goals first | exact .refl | exact .update rfl rfl (.inr ⟨rfl, rfl⟩)

/-- `ext4_fseek` moves one. -/
lemma handles_fseek {offset origin : Int} : Handles w (w.ext4Fseek raw offset origin).2 := by
  unfold ext4Fseek
  simp only
  repeat' split
  all_goals first | exact .refl | exact .update rfl rfl (.inr ⟨rfl, rfl⟩)

/-- What `ext4_fwrite` does to the volume. -/
lemma fwrite_effect (bl : BlockLayer) (raw : Nat) (data : List UInt8)
    (only : ∀ {j}, (w.sMp j).mounted = true → j = k) :
    (w.ext4Fwrite bl raw data).2.volume k = w.volume k ∧
        (data = [] ∨ ∃ e, (w.ext4Fwrite bl raw data).1 = .error e) ∨
      data ≠ [] ∧ (w.files raw).mp = some k ∧
        (w.ext4Fwrite bl raw data).1 =
          .ok ((w.volume k).fwrite bl (w.files raw).inode (w.files raw).fpos data).1 ∧
        (w.ext4Fwrite bl raw data).2.volume k =
          ((w.volume k).fwrite bl (w.files raw).inode (w.files raw).fpos data).2 := by
  unfold ext4Fwrite
  simp only
  split
  · exact .inl ⟨rfl, .inr ⟨_, rfl⟩⟩
  · rename_i j hs
    obtain ⟨hmp, hj⟩ := mp_of_slotOf hs
    obtain rfl := only hj
    split
    · exact .inl ⟨rfl, .inr ⟨_, rfl⟩⟩
    · split
      · exact .inl ⟨rfl, .inr ⟨_, rfl⟩⟩
      · split
        · rename_i hd
          exact .inl ⟨rfl, .inl hd⟩
        · rename_i hd
          exact .inr ⟨hd, hmp, rfl, Function.update_self _ _ _⟩

/-- What `ext4_ftruncate` does to the volume. -/
lemma ftruncate_effect (raw size : Nat) (only : ∀ {j}, (w.sMp j).mounted = true → j = k) :
    (w.ext4Ftruncate raw size).2.volume k = w.volume k ∧ ((w.ext4Ftruncate raw size).1 ≠ 0 ∨
        ((w.volume k).inodes (w.files raw).inode).data.length ≤ size) ∨
      (w.files raw).mp = some k ∧ (w.ext4Ftruncate raw size).1 = 0 ∧
        (w.ext4Ftruncate raw size).2.volume k =
          (w.volume k).truncInode (w.files raw).inode size := by
  unfold ext4Ftruncate
  simp only
  split
  · exact .inl ⟨rfl, .inl (show EIO ≠ 0 by decide)⟩
  · rename_i j hs
    obtain ⟨hmp, hj⟩ := mp_of_slotOf hs
    obtain rfl := only hj
    split
    · exact .inl ⟨rfl, .inl (show EROFS ≠ 0 by decide)⟩
    · split
      · rename_i hl
        exact .inl ⟨rfl, .inr hl⟩
      · exact .inr ⟨hmp, rfl, Function.update_self _ _ _⟩

/-- `ext4_ftruncate` never answers `ENOTSUP`. -/
lemma ftruncate_ne_enotsup {size : Nat} : (w.ext4Ftruncate raw size).1 ≠ ENOTSUP := by
  unfold ext4Ftruncate
  simp only
  split
  · exact (show EIO ≠ ENOTSUP by decide)
  · split
    · exact (show EROFS ≠ ENOTSUP by decide)
    · split
      · exact (show (0 : ErrorCode) ≠ ENOTSUP by decide)
      · exact (show (0 : ErrorCode) ≠ ENOTSUP by decide)

/-- What a file that held the data holds after a write to an open file, at a position inside. -/
def dataWritten (bl : BlockLayer) (w : World) (k : Fin 4) (raw : Nat) (i : Ino)
    (bytes data : List UInt8) : List UInt8 :=
  match (w.ext4Fwrite bl raw bytes).1 with
  | .ok n =>
    if bytes ≠ [] ∧ w.Refers k raw i then
      Volume.splice data (w.files raw).fpos (bytes.take n)
    else data
  | .error _ => data

/-- What a file that held the data holds after an open file was made shorter. -/
def dataTruncated (w : World) (k : Fin 4) (raw : Nat) (i : Ino) (size : Nat)
    (data : List UInt8) : List UInt8 :=
  if (w.ext4Ftruncate raw size).1 = 0 ∧ w.Refers k raw i then data.take size else data

/-- A write at a position inside changes its own file, in the way its result says. -/
lemma Holds.fwrite (bl : BlockLayer) (raw : Nat) (bytes : List UInt8) (h : w.Holds k path i data)
    (inside : w.Inside raw) (only : ∀ {j}, (w.sMp j).mounted = true → j = k) :
    (w.ext4Fwrite bl raw bytes).2.Holds k path i (dataWritten bl w k raw i bytes data) := by
  have c : Confined (fun _ => True) w (w.ext4Fwrite bl raw bytes).2 :=
    confined_fwrite fun _ _ => trivial
  rcases fwrite_effect bl raw bytes only with
    ⟨e, he⟩ | ⟨ne, hmp, hr, e⟩
  · have hd : dataWritten bl w k raw i bytes data = data := by
      unfold dataWritten
      rcases he with rfl | ⟨e, he⟩
      · split
        · exact if_neg fun h => h.1 rfl
        · rfl
      · rw [he]
    rw [hd]
    exact h.grows (P := fun _ => False) c (e ▸ .refl) id
  · have g : Volume.Grows (· = (w.files raw).inode) (w.volume k)
        ((w.ext4Fwrite bl raw bytes).2.volume k) := e ▸ .fwrite (inside k hmp)
    by_cases hi : (w.files raw).inode = i
    · refine ⟨?_, ?_⟩
      · rw [c.names]
        exact h.leads.grows g
      · unfold dataWritten
        rw [hr, e]
        simp only
        have hp := inside k hmp
        rw [hi] at hp
        rw [if_pos ⟨ne, hmp, hi⟩, hi, Volume.data_fwrite hp, h.data]
    · have hd : dataWritten bl w k raw i bytes data = data := by
        unfold dataWritten
        rw [hr]
        exact if_neg fun h => hi h.2.2
      rw [hd]
      exact h.grows c g fun e => hi e.symm

/-- The data of a file after a truncation of any open file. -/
lemma Holds.ftruncate (raw size : Nat) (h : w.Holds k path i data)
    (only : ∀ {j}, (w.sMp j).mounted = true → j = k) :
    (w.ext4Ftruncate raw size).2.Holds k path i (dataTruncated w k raw i size data) := by
  have c : Confined (fun _ => True) w (w.ext4Ftruncate raw size).2 :=
    confined_ftruncate fun _ _ => trivial
  unfold dataTruncated
  rcases ftruncate_effect raw size only with ⟨e, he⟩ | ⟨hmp, h0, e⟩
  · have hd : (if (w.ext4Ftruncate raw size).1 = 0 ∧ w.Refers k raw i then data.take size
        else data) = data := by
      split
      · rename_i hr
        have hl := he.resolve_left fun n => n hr.1
        rw [hr.2.2, h.data] at hl
        exact List.take_of_length_le hl
      · rfl
    rw [hd]
    exact h.grows (P := fun _ => False) c (e ▸ .refl) id
  · have g : Volume.Grows (· = (w.files raw).inode) (w.volume k)
        ((w.ext4Ftruncate raw size).2.volume k) := e ▸ .truncInode
    by_cases hi : (w.files raw).inode = i
    · rw [if_pos ⟨h0, hmp, hi⟩]
      refine ⟨?_, ?_⟩
      · rw [c.names]
        exact h.leads.grows g
      · rw [e, hi, Volume.truncInode, Volume.inodes_modify_self, h.data]
    · rw [if_neg fun h => hi h.2.2]
      exact h.grows c g fun e => hi e.symm

/-- What `ext4_fopen2` does when it opens a file. -/
lemma fopen2_opened {flags : Flags} {f : File} (h : (w.ext4Fopen2 bl path flags).1 = .ok f)
    (only : ∀ {j}, (w.sMp j).mounted = true → j = k) :
    ∃ v, Volume.fopen2 bl (creat flags) (trunc flags) (w.names path k) (w.volume k) =
        .ok (f.inode, v) ∧ f.mp = some k ∧ (w.ext4Fopen2 bl path flags).2 = w.setVolume k v := by
  unfold ext4Fopen2 at h ⊢
  split at h
  · cases h
  · rename_i j hm
    obtain rfl := only (mounted_of_getMount hm)
    split at h
    · cases h
    · rename_i hr
      split at h
      · cases h
      · rename_i i v hv
        cases h
        refine ⟨v, hv, rfl, ?_⟩
        simp only [if_neg hr]

/-- An `ext4_fopen2` that fails changes nothing. -/
lemma fopen2_failed {flags : Flags} {e : ErrorCode} (h : (w.ext4Fopen2 bl path flags).1 = .error e) :
    (w.ext4Fopen2 bl path flags).2 = w := by
  unfold ext4Fopen2 at h ⊢
  split at h
  · rfl
  · split at h
    · rename_i hr
      simp only [if_pos hr]
    · rename_i hr
      split at h
      · simp only [if_neg hr]
      · cases h

end Files

end World

namespace FilesystemLwext4
open World
variable {bl : BlockLayer} {fs : FsId} {o : Object} {w : World} {k : Fin 4} {path : Str} {i : Ino}
  {data : List UInt8} {P : Ino → Prop}

/-! ### Methods -/

/-- The methods that neither remove a file nor change what one holds. -/
def keeping : Call → Bool
  | .getLabel => true
  | .file (.write _) _ => false
  | .file (.ftruncate _) _ => false
  | .file _ _ => true
  | .path .unlink _ => false
  | .path .rmdir _ => false
  | .path _ _ => true
  | .diropen _ => true
  | .dir _ _ => true
  | _ => false

section Open
variable {abspath : Str} {flags : Flags}

/-- What `open` does when it opens a file. -/
lemma open_opened {h : FileHandle} (e : (FilesystemLwext4.open bl fs o abspath flags w).1 = .ok h)
    (only : ∀ {j}, (w.sMp j).mounted = true → j = k) :
    ∃ f v, Volume.fopen2 bl (creat flags) (trunc flags) (w.names abspath k) (w.volume k) =
        .ok (f.inode, v) ∧ f.mp = some k ∧
      (FilesystemLwext4.open bl fs o abspath flags w).2.files =
        Function.update w.files w.nextRaw f ∧
      (FilesystemLwext4.open bl fs o abspath flags w).2.nextRaw = w.nextRaw + 1 ∧
      ∀ P, Volume.Grows P v ((FilesystemLwext4.open bl fs o abspath flags w).2.volume k) := by
  unfold FilesystemLwext4.open at e ⊢
  split at e
  · cases e
  · rename_i f w' hf
    obtain ⟨v, hv, hmp, hw⟩ := fopen2_opened (congrArg Prod.fst hf) only
    rw [hf] at hw
    simp only at hw
    subst hw
    have g : ∀ P (w₁ : World) t, w₁.volume k = v →
        Volume.Grows P v ((w₁.ext4AtimeSet bl abspath t).2.volume k) := by
      rintro P w₁ t rfl
      exact grows_atimeSet
    exact ⟨f, v, hv, hmp, files_change.1, files_change.2,
      fun P => g P _ _ (Function.update_self _ _ _)⟩

/-- Nor does an `open`. -/
lemma open_failed {e : ErrorCode}
    (h : (FilesystemLwext4.open bl fs o abspath flags w).1 = .error e) :
    (FilesystemLwext4.open bl fs o abspath flags w).2 = w := by
  unfold FilesystemLwext4.open at h ⊢
  split at h
  · rename_i e' w' hf
    have hw := fopen2_failed (congrArg Prod.fst hf)
    rw [hf] at hw
    exact hw
  · cases h

/-- `open` takes a file that nobody has. -/
lemma handles_open (only : ∀ {j}, (w.sMp j).mounted = true → j = k) :
    Handles w (FilesystemLwext4.open bl fs o abspath flags w).2 := by
  cases hr : (FilesystemLwext4.open bl fs o abspath flags w).1 with
  | error e =>
    rw [open_failed hr]
    exact .refl
  | ok h =>
    obtain ⟨f, v, -, -, hf, hn, -⟩ := open_opened hr only
    refine ⟨by rw [hn]; omega, fun {k raw i} lt r => ?_⟩
    unfold Refers at r ⊢
    rwa [hf, Function.update_of_ne lt.ne] at r

/-- `open` changes the data of the file it opens only, and that with `O_TRUNC`. -/
lemma Holds.open {h : FileHandle} (hd : w.Holds k path i data)
    (e : (FilesystemLwext4.open bl fs o abspath flags w).1 = .ok h)
    (only : ∀ {j}, (w.sMp j).mounted = true → j = k) :
    (FilesystemLwext4.open bl fs o abspath flags w).2.Holds k path i
      (if trunc flags = true ∧
          (FilesystemLwext4.open bl fs o abspath flags w).2.Refers k w.nextRaw i
        then [] else data) := by
  have c : Confined (fun _ => True) w (FilesystemLwext4.open bl fs o abspath flags w).2 :=
    confined_open fun _ _ => trivial
  obtain ⟨f, v, hv, hmp, hf, -, g⟩ := open_opened e only
  have refers : (FilesystemLwext4.open bl fs o abspath flags w).2.Refers k w.nextRaw i ↔
      f.inode = i := by
    unfold Refers
    rw [hf, Function.update_self]
    exact ⟨fun h => h.2, fun h => ⟨hmp, h⟩⟩
  have g' := Volume.Grows.fopen2 hv
  have hl := hd.leads.grows g'
  split
  · rename_i ht
    rw [refers] at ht
    rw [ht.1, ht.2] at hv
    refine ⟨?_, ?_⟩
    · rw [c.names]
      exact hl.grows (g fun _ => False)
    · rw [(g fun _ => False).data hl.used hl.regFile id, Volume.data_fopen2 hv]
  · rename_i ht
    rw [refers] at ht
    exact hd.grows c (g'.trans (g _)) fun h => ht ⟨h.1, h.2.symm⟩

/-- What `open` opens is led to from then on; it was led to before, or its inode was free. -/
lemma leads_open {h : FileHandle} (u : (w.volume k).InUse rootIndex (w.names abspath k))
    (e : (FilesystemLwext4.open bl fs o abspath flags w).1 = .ok h)
    (only : ∀ {j}, (w.sMp j).mounted = true → j = k)
    (dots : ∀ n ∈ w.names abspath k, n ≠ Path.dot ∧ n ≠ Path.dotDot) :
    ∃ i, ((FilesystemLwext4.open bl fs o abspath flags w).2.volume k).Leads rootIndex
        (w.names abspath k) i ∧
      ((w.volume k).used i = false ∨ (w.volume k).Leads rootIndex (w.names abspath k) i) := by
  obtain ⟨f, v, hv, -, -, -, g⟩ := open_opened e only
  obtain ⟨f', v₁, ho, hi, rfl⟩ := Volume.fopen2_ok hv
  obtain ⟨l, before⟩ := u.openLoop dots ho
  rw [← hi] at l before
  refine ⟨f.inode, Volume.Leads.grows (g fun _ => False) ?_, before⟩
  split
  · exact l.grows .truncInode
  · exact l

end Open

/-- A method that can reach no volume. -/
lemma grows_of_confined {w' : World} (c : Confined (fun _ => False) w w') :
    Volume.Grows P (w.volume k) (w'.volume k) := by
  rw [c.volume fun _ h => h.elim]
  exact .refl

/-- `chmod` sets the mode and the time. -/
lemma grows_chmod {mode : Nat} :
    Volume.Grows P (w.volume k) ((chmod bl path mode w).2.volume k) := by
  have g : Volume.Grows P (w.volume k) ((w.ext4ModeSet bl path mode).2.volume k) := grows_modeSet
  unfold chmod
  split
  rename_i e w' hw
  rw [hw] at g
  split
  · exact g
  · exact g.trans (grows_mtimeSet rfl)

/-- `chmod` opens nothing. -/
lemma handles_chmod {mode : Nat} : Handles w (chmod bl path mode w).2 := by
  have h : Handles w (w.ext4ModeSet bl path mode).2 := handles_change
  unfold chmod
  split
  rename_i e w' hw
  rw [hw] at h
  split
  · exact h
  · exact h.trans (.of_eq files_change.1 files_change.2)

/-- `lseek` moves one open file. -/
lemma handles_lseek {h : FileHandle} {pos dir : Int} : Handles w (lseek h pos dir w).2 := by
  have q : Handles w (w.ext4Fseek h.raw pos dir).2 := handles_fseek
  unfold lseek
  simp only
  split
  · exact q
  · exact q

/-- `ftruncate` never gets to write zeros. -/
lemma ftruncate_eq {h : FileHandle} {len : Int} :
    ftruncate bl h len w = w.ext4Ftruncate h.raw (len % 2 ^ 64).toNat := by
  unfold ftruncate
  exact if_neg ftruncate_ne_enotsup

/-- `unlink` opens nothing. -/
lemma handles_unlink {name : Str} : Handles w (unlink bl name w).2 := by
  unfold unlink
  split
  · exact handles_change
  · exact handles_change

/-- The methods on an open file concern that one. -/
lemma handles_callFile {op : FdOp} {h : FileHandle} : Handles w (callFile bl o op h w).2 := by
  cases op with
  | close => exact handles_fclose.trans (.of_eq files_change.1 files_change.2)
  | write data => exact handles_fwrite
  | read len => exact handles_fread
  | lseek pos dir => exact handles_lseek
  | fstat => exact .refl
  | ftruncate len =>
    show Handles w (ftruncate bl h len w).2
    rw [ftruncate_eq]
    exact handles_ftruncate
  | fsync => exact .refl
  | flock cmd => exact .refl
  | isatty => exact .refl
  | fchmod mode => exact handles_chmod

/-- The methods on a path concern none. -/
lemma handles_callPath {op : PathOp} {path : Str} : Handles w (callPath bl o op path w).2 := by
  cases op with
  | stat => exact .refl
  | link newlink => exact handles_flink
  | symlink newlink => exact handles_change
  | unlink => exact handles_unlink
  | rmdir => exact handles_change
  | mkdir mode => exact handles_change
  | statVfs =>
    show Handles w (statVfs bl o w).2
    unfold statVfs
    split
    · exact .refl
    · exact .refl
  | ioctl cmd => exact .refl
  | utimens atime mtime => exact .refl
  | chmod mode => exact handles_chmod

/-- No method makes an address that was handed out refer to another file. -/
lemma handles_call {c : Call} (hc : mounting c = false)
    (only : ∀ {j}, (w.sMp j).mounted = true → j = k) : Handles w (call bl fs o c w).2 := by
  cases c with
  | getLabel =>
    have e : (getLabel o w).2 = w.access.2 := by
      unfold getLabel
      split
      rename_i h
      rw [h]
      repeat' split
      all_goals rfl
    show Handles w (getLabel o w).2
    rw [e]
    exact .of_eq rfl rfl
  | mount r fl => cases hc
  | unmount => cases hc
  | «open» abspath flags mode => exact handles_open only
  | file op h => exact handles_callFile
  | path op path => exact handles_callPath
  | rename old new => exact handles_frename
  | diropen path =>
    show Handles w (diropen bl fs o path w).2
    unfold diropen
    split
    · exact .refl
    · exact ⟨Nat.le_succ _, fun _ => id⟩
  | dir op h =>
    cases op with
    | dirreset => exact .of_eq rfl rfl
    | dirnext =>
      have q : Handles w (w.ext4DirEntryNext h.raw).2 := by
        unfold World.ext4DirEntryNext
        simp only
        repeat' split
        all_goals exact .of_eq rfl rfl
      show Handles w (dirnext h w).2
      unfold dirnext
      split
      · rename_i e
        rwa [e] at q
      · rename_i e
        rwa [e] at q
    | dirclose => exact .of_eq rfl rfl

/-- The other methods lose nothing that is in use. -/
lemma grows_keeping {c : Call} (hc : keeping c = true) :
    Volume.Grows P (w.volume k) ((call bl fs o c w).2.volume k) := by
  cases c with
  | getLabel => exact grows_of_confined confined_getLabel
  | mount r fl => cases hc
  | unmount => cases hc
  | «open» abspath flags mode => cases hc
  | file op h =>
    cases op with
    | close => exact grows_mtimeSet rfl
    | write data => cases hc
    | read len => exact grows_of_confined confined_fread
    | lseek pos dir => exact grows_of_confined confined_lseek
    | ftruncate len => cases hc
    | fchmod mode => exact grows_chmod
    | _ => exact .refl
  | path op path =>
    cases op with
    | link newlink => exact grows_flink
    | symlink newlink => exact grows_changeTrans .fsymlink
    | unlink => cases hc
    | rmdir => cases hc
    | mkdir mode => exact grows_changeTrans .dirMk
    | statVfs =>
      show Volume.Grows P (w.volume k) ((statVfs bl o w).2.volume k)
      unfold statVfs
      split
      · exact .refl
      · exact .refl
    | chmod mode => exact grows_chmod
    | _ => exact .refl
  | rename old new => cases hc
  | diropen path => exact grows_of_confined confined_diropen
  | dir op h => exact grows_of_confined confined_callDir

/-- The methods that keep data keep what a file holds. -/
lemma Holds.keeping {c : Call} (h : w.Holds k path i data) (hc : keeping c = true) :
    (call bl fs o c w).2.Holds k path i data := by
  refine h.grows (P := fun _ => False) (confined_call bl fs o ?_) (grows_keeping hc) id
  cases c with
  | mount r fl => cases hc
  | unmount => cases hc
  | _ => rfl

end FilesystemLwext4
end Lwext4
end Evfs
