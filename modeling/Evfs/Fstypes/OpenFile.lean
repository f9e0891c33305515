import Evfs.Fstypes.FileData
import Evfs.Lib.OpenFiles
import Evfs.Lwext4.Renaming
import Evfs.Lwext4.Sound

/-!
# What the methods do to open files

Of the methods that free no inode, those on an open file change that one, `open` adds one, and the
others change none (`files_call`). Apart from a write, a truncation and an `open` with `O_TRUNC` they
all keep what the files hold, a rename included (`keeps_call`).
-/

namespace Evfs
namespace Lwext4
open Lib
namespace World
variable {bl : BlockLayer} {w : World} {k : Fin 4} {path : Str}

/-! ### Functions on paths -/

/-- Writing back a volume that is kept. -/
lemma keeps_setVolume {j : Fin 4} {v : Volume}
    (h : (w.volume j).Sound → Volume.Keeps (w.volume j) v) (s : (w.volume k).Sound) :
    Volume.Keeps (w.volume k) ((w.setVolume j v).volume k) :=
  volume_setVolume (R := fun v v' => v.Sound → Volume.Keeps v v') (fun _ => .refl) h s

/-- A change in a transaction that keeps every sound volume. -/
lemma keeps_changeTrans {f : List Str → Volume → Except ErrorCode Volume}
    (h : ∀ {names v v'}, v.Sound → f names v = .ok v' → Volume.Keeps v v')
    (s : (w.volume k).Sound) :
    Volume.Keeps (w.volume k) ((w.changeTrans path f).2.volume k) := by
  unfold changeTrans
  cases hw : w.writable path with
  | error e =>
    rw [change_error hw]
    exact .refl s
  | ok j =>
    rw [change_eq hw]
    refine keeps_setVolume (fun s => ?_) s
    cases hf : f (w.names path j) (w.volume j) with
    | error e => exact .refl s
    | ok v => exact h s hf

/-- Setting an attribute. -/
lemma keeps_setInode {f : Inode → Inode} (ht : ∀ n, (f n).type = n.type)
    (he : ∀ n, (f n).entries = n.entries) (hd : ∀ n, (f n).data = n.data)
    (s : (w.volume k).Sound) :
    Volume.Keeps (w.volume k) ((w.changeTrans path (Volume.setInode bl f)).2.volume k) :=
  keeps_changeTrans (fun s h => .setInode s h ht he hd) s

/-- Setting the modification time. -/
lemma keeps_mtimeSet {mtime : Nat} (s : (w.volume k).Sound) :
    Volume.Keeps (w.volume k) ((w.ext4MtimeSet bl path mtime).2.volume k) :=
  keeps_setInode (fun _ => rfl) (fun _ => rfl) (fun _ => rfl) s

/-- Making a hard link. -/
lemma keeps_flink {newPath : Str} (s : (w.volume k).Sound) :
    Volume.Keeps (w.volume k) ((w.ext4Flink bl path newPath).2.volume k) := by
  unfold ext4Flink
  split
  · exact .refl s
  · rename_i j hw
    split
    · exact .refl s
    · refine keeps_setVolume (fun s => ?_) s
      cases hf : Volume.flink bl (w.names path j) (w.names newPath j) (w.volume j) with
      | error e => exact .refl s
      | ok v => exact .flink s hf

/-- Dropping the old name of a rename. -/
lemma keeps_removeOrig {f : Volume.Found} {d : Ino} {v v' : Volume} (s : v.Sound)
    (hd : v.used d = true) (h : removeOrig bl f d v = .ok v') : Volume.Keeps v v' := by
  unfold removeOrig at h
  split at h
  · cases h
  · rename_i hr
    have k := Volume.Keeps.resetParent s hd hr
    split at h
    · cases h
    · rename_i he
      have k' := k.trans (.removeEntry k.sound he)
      split at h
      · cases h
        exact k'.trans (.linksDec k'.sound)
      · cases h
        exact k'

/-- A rename moves an entry, and nothing is lost. -/
lemma keeps_frename {newPath : Str} (only : ∀ {j}, (w.sMp j).mounted = true → j = k)
    (s : (w.volume k).Sound) :
    Volume.Keeps (w.volume k) ((w.ext4Frename bl path newPath).2.volume k) := by
  unfold ext4Frename
  split
  · exact .refl s
  · rename_i i hw
    obtain rfl : i = k := only (mounted_of_getMount (writable_ok.mp hw).1)
    split
    · exact .refl s
    · rename_i found hf
      split
      · exact .refl s
      · rename_i j hj
        obtain rfl : j = i := only (mounted_of_getMount hj)
        split
        · exact .refl s
        · rename_i d name hl
          split
          · exact .refl s
          · rename_i v hr
            have kr := Volume.Keeps.linkRenamed s (Volume.Keeps.find s hf) hr
            have hd := kr.used (Volume.Keeps.hardlinkLoop s s.root hl)
            simp only
            rw [volume_setVolume_self]
            split
            · rw [if_pos trivial]
              exact .refl s
            · rename_i v' ho
              rw [volume_setVolume_self]
              exact kr.trans (keeps_removeOrig kr.sound hd ho)

end World

namespace FilesystemLwext4
open World
variable {bl : BlockLayer} {fs : FsId} {o : Object} {w : World} {k : Fin 4} {path : Str}

/-- The methods that neither free an inode nor change what a file holds. -/
def preserving : Call → Bool
  | .rename _ _ => true
  | c => keeping c

/-- A method that can reach no volume. -/
lemma keeps_of_confined {w' : World} (c : Confined (fun _ => False) w w')
    (s : (w.volume k).Sound) : Volume.Keeps (w.volume k) (w'.volume k) := by
  rw [c.volume fun _ h => h.elim]
  exact .refl s

/-- Setting the mode. -/
lemma keeps_chmod {mode : Nat} (s : (w.volume k).Sound) :
    Volume.Keeps (w.volume k) ((chmod bl path mode w).2.volume k) := by
  have g : Volume.Keeps (w.volume k) ((w.ext4ModeSet bl path mode).2.volume k) :=
    keeps_setInode (fun _ => rfl) (fun _ => rfl) (fun _ => rfl) s
  unfold chmod
  split
  rename_i e w' hw
  rw [hw] at g
  split
  · exact g
  · have s' : (w'.tick.2.volume k).Sound := g.sound
    exact g.trans (keeps_mtimeSet s')

/-- These methods keep what the files hold. -/
lemma keeps_call {c : Call} (hc : preserving c = true)
    (only : ∀ {j}, (w.sMp j).mounted = true → j = k) (s : (w.volume k).Sound) :
    Volume.Keeps (w.volume k) ((call bl fs o c w).2.volume k) := by
  cases c with
  | getLabel => exact keeps_of_confined confined_getLabel s
  | mount r fl => cases hc
  | unmount => cases hc
  | «open» abspath flags mode => cases hc
  | file op h =>
    cases op with
    | close =>
      have s' : ((w.ext4Fclose h.raw).tick.2.volume k).Sound := s
      exact keeps_mtimeSet s'
    | write data => cases hc
    | read len => exact keeps_of_confined confined_fread s
    | lseek pos dir => exact keeps_of_confined confined_lseek s
    | ftruncate len => cases hc
    | fchmod mode => exact keeps_chmod s
    | fstat => exact .refl s
    | fsync => exact .refl s
    | flock cmd => exact .refl s
    | isatty => exact .refl s
  | path op path =>
    cases op with
    | link newlink => exact keeps_flink s
    | symlink newlink => exact keeps_changeTrans (fun s h => .fsymlink s h) s
    | unlink => cases hc
    | rmdir => cases hc
    | mkdir mode => exact keeps_changeTrans (fun s h => .dirMk s h) s
    | statVfs =>
      show Volume.Keeps (w.volume k) ((statVfs bl o w).2.volume k)
      unfold statVfs
      split
      · exact .refl s
      · exact .refl s
    | chmod mode => exact keeps_chmod s
    | stat => exact .refl s
    | ioctl cmd => exact .refl s
    | utimens atime mtime => exact .refl s
  | rename old new => exact keeps_frename only s
  | diropen path => exact keeps_of_confined confined_diropen s
  | dir op h => exact keeps_of_confined confined_callDir s

/-! ### The open files -/

/-- The methods that change the table of open files. -/
def moving : Call → Bool
  | .open _ _ _ => true
  | .file .close _ => true
  | .file (.write _) _ => true
  | .file (.read _) _ => true
  | .file (.lseek _ _) _ => true
  | .file (.ftruncate _) _ => true
  | _ => false

/-- A rename leaves the open files alone. -/
lemma files_frename {newPath : Str} :
    (w.ext4Frename bl path newPath).2.files = w.files ∧
      (w.ext4Frename bl path newPath).2.nextRaw = w.nextRaw := by
  unfold ext4Frename
  simp only
  repeat' split
  all_goals exact ⟨rfl, rfl⟩

/-- So does a hard link. -/
lemma files_flink {newPath : Str} : (w.ext4Flink bl path newPath).2.files = w.files ∧
    (w.ext4Flink bl path newPath).2.nextRaw = w.nextRaw := by
  unfold ext4Flink
  simp only
  repeat' split
  all_goals exact ⟨rfl, rfl⟩

/-- And setting the mode. -/
lemma files_chmod {mode : Nat} : (chmod bl path mode w).2.files = w.files := by
  unfold chmod
  split
  rename_i e w' hw
  have e' : w'.files = w.files := by
    have h : (w.ext4ModeSet bl path mode).2.files = w.files := files_change.1
    rw [← h]
    exact congrArg (fun r => r.2.files) hw.symm
  split
  · exact e'
  · exact files_change.1.trans e'

/-- The other methods leave the open files as they are. -/
lemma files_call {c : Call} (hm : mounting c = false) (hc : moving c = false) :
    (call bl fs o c w).2.files = w.files := by
  cases c with
  | getLabel =>
    show (getLabel o w).2.files = w.files
    unfold getLabel
    split
    rename_i e w' hw
    have e' : w'.files = w.files := congrArg (fun r => r.2.files) hw.symm
    repeat' split
    all_goals exact e'
  | mount r fl => cases hm
  | unmount => cases hm
  | «open» abspath flags mode => cases hc
  | file op h =>
    cases op with
    | close => cases hc
    | write data => cases hc
    | read len => cases hc
    | lseek pos dir => cases hc
    | ftruncate len => cases hc
    | fchmod mode => exact files_chmod
    | fstat => rfl
    | fsync => rfl
    | flock cmd => rfl
    | isatty => rfl
  | path op path =>
    cases op with
    | link newlink => exact files_flink.1
    | symlink newlink => exact files_change.1
    | unlink =>
      show (unlink bl path w).2.files = w.files
      unfold unlink
      split
      · exact files_change.1
      · exact files_change.1
    | rmdir => exact files_change.1
    | mkdir mode => exact files_change.1
    | statVfs =>
      show (statVfs bl o w).2.files = w.files
      unfold statVfs
      split
      · rfl
      · rfl
    | chmod mode => exact files_chmod
    | stat => rfl
    | ioctl cmd => rfl
    | utimens atime mtime => rfl
  | rename old new => exact files_frename.1
  | diropen path =>
    show (diropen bl fs o path w).2.files = w.files
    unfold diropen
    split
    · rfl
    · rfl
  | dir op h =>
    cases op with
    | dirreset => rfl
    | dirnext =>
      have e : (w.ext4DirEntryNext h.raw).2.files = w.files := by
        unfold World.ext4DirEntryNext
        simp only
        repeat' split
        all_goals rfl
      show (dirnext h w).2.files = w.files
      unfold dirnext
      split
      · rename_i hw
        rw [hw] at e
        exact e
      · rename_i hw
        rw [hw] at e
        exact e
    | dirclose => rfl

end FilesystemLwext4

/-! ### Requests -/

namespace World
variable {bl : BlockLayer} {w w' : World} {k : Fin 4} {raw : Nat}

/-- An open file, as far as requests can tell. -/
def openFile (w : World) (raw : Nat) : OpenFile Ino where
  file := (w.files raw).inode
  readable := !wronly (w.files raw).flags
  writable := !rdonly (w.files raw).flags
  pos := (w.files raw).fpos
  seen := (w.files raw).fsize

/-- The file is open on the volume in the slot, which is mounted, and in use. -/
structure Live (w : World) (k : Fin 4) (raw : Nat) : Prop where
  mounted : (w.sMp k).mounted = true
  mp : (w.files raw).mp = some k
  used : (w.volume k).used (w.files raw).inode = true
  regFile : ((w.volume k).inodes (w.files raw).inode).type = .regFile

/-- A request was served: the open file and what the file holds changed as they should, and nothing
else did. -/
structure Served (w : World) (k : Fin 4) (raw : Nat) (req : Request) (ans : Answer) (w' : World) :
    Prop where
  serves : ∃ d, (w.openFile raw).Serves (w.sMp k).readOnly
      ((w.volume k).content (w.files raw).inode) req ans (w'.openFile raw) d ∧
    (w'.volume k).content = Function.update (w.volume k).content (w.files raw).inode d
  files : ∃ f, w'.files = Function.update w.files raw f ∧ f.mp = (w.files raw).mp ∧
    f.inode = (w.files raw).inode
  sound : (w.volume k).Sound → (w'.volume k).Sound
  retains : Volume.Retains (w.volume k) (w'.volume k)
  nextRaw : w'.nextRaw = w.nextRaw

/-- The open file of a table that was updated. -/
lemma openFile_update {f : File} (hf : w'.files = Function.update w.files raw f) :
    w'.openFile raw = ⟨f.inode, !wronly f.flags, !rdonly f.flags, f.fpos, f.fsize⟩ := by
  simp only [openFile, hf, Function.update_self]

/-- The request changed the open file only. -/
lemma Served.moved {req : Request} {ans : Answer} {f : File}
    (h : (w.openFile raw).Serves (w.sMp k).readOnly ((w.volume k).content (w.files raw).inode) req
      ans ⟨f.inode, !wronly f.flags, !rdonly f.flags, f.fpos, f.fsize⟩
      ((w.volume k).content (w.files raw).inode))
    (hmp : f.mp = (w.files raw).mp) (hi : f.inode = (w.files raw).inode) :
    w.Served k raw req ans { w with files := Function.update w.files raw f } where
  serves := by
    refine ⟨_, ?_, (Function.update_eq_self _ _).symm⟩
    have e := @openFile_update w { w with files := Function.update w.files raw f } raw f rfl
    rw [e]
    exact h
  files := ⟨f, rfl, hmp, hi⟩
  sound := id
  retains := ⟨id, fun _ => rfl⟩
  nextRaw := rfl

/-- The request changed nothing. -/
lemma Served.same {req : Request} {ans : Answer}
    (h : (w.openFile raw).Serves (w.sMp k).readOnly ((w.volume k).content (w.files raw).inode) req
      ans (w.openFile raw) ((w.volume k).content (w.files raw).inode)) :
    w.Served k raw req ans w where
  serves := ⟨_, h, (Function.update_eq_self _ _).symm⟩
  files := ⟨_, (Function.update_eq_self _ _).symm, rfl, rfl⟩
  sound := id
  retains := ⟨id, fun _ => rfl⟩
  nextRaw := rfl

/-- The slot of a live file is mounted. -/
lemma Live.slotOf (l : w.Live k raw) : w.slotOf (w.files raw) = some k := by
  simp only [World.slotOf, l.mp, Option.bind_some, l.mounted, if_true]

/-- The content of a live file is its inode's data. -/
lemma Live.content (l : w.Live k raw) : (w.volume k).content (w.files raw).inode =
    ((w.volume k).inodes (w.files raw).inode).data :=
  Volume.content_file l.used l.regFile

/-- The request changed what the file holds. -/
lemma Served.stored (l : w.Live k raw) {req : Request} {ans : Answer} {f : File} {d : List UInt8}
    (hv : w'.volume k = (w.volume k).modify (w.files raw).inode fun n => { n with data := d })
    (hf : w'.files = Function.update w.files raw f) (hn : w'.nextRaw = w.nextRaw)
    (hmp : f.mp = (w.files raw).mp) (hi : f.inode = (w.files raw).inode)
    (h : (w.openFile raw).Serves (w.sMp k).readOnly ((w.volume k).content (w.files raw).inode) req
      ans ⟨f.inode, !wronly f.flags, !rdonly f.flags, f.fpos, f.fsize⟩ d) :
    w.Served k raw req ans w' where
  serves := by
    rw [openFile_update hf, hv]
    refine ⟨d, h, ?_⟩
    exact Volume.content_setData l.used l.regFile
  files := ⟨f, hf, hmp, hi⟩
  sound s := by
    rw [hv]
    exact s.setData
  retains := by
    rw [hv]
    exact .setData
  nextRaw := hn

/-- What `ext4_fread` answers. -/
def readAnswer : Except ErrorCode Nat × List UInt8 → Answer
  | (.ok n, bytes) => .read (bytes.take n)
  | (.error _, _) => .refused

/-- A read answers and moves as the abstract file does. -/
lemma served_fread (l : w.Live k raw) (len : Nat) :
    w.Served k raw (.read len) (readAnswer (w.ext4Fread bl raw len).1)
      (w.ext4Fread bl raw len).2 := by
  unfold ext4Fread
  simp only
  split
  · rename_i hw
    exact .same (.unreadable (congrArg not hw))
  · rename_i hw
    have hr : (w.openFile raw).readable = true := congrArg not (Bool.eq_false_iff.mpr hw)
    split
    · rename_i h0
      subst h0
      exact .same (.readNothing hr)
    · rename_i h0
      rw [l.slotOf]
      simp only [readAnswer, List.take_length]
      refine .moved ?_ rfl rfl
      rw [l.content]
      refine .read hr h0 fun hp => ?_
      exact if_pos hp

/-- What `ext4_fwrite` answers. -/
def writeAnswer : Except ErrorCode Nat → Answer
  | .ok n => .wrote n
  | .error _ => .refused

/-- A write at a position inside is served. -/
lemma served_fwrite (l : w.Live k raw) (bytes : List UInt8) (inside : w.Inside raw) :
    w.Served k raw (.write bytes) (writeAnswer (w.ext4Fwrite bl raw bytes).1)
      (w.ext4Fwrite bl raw bytes).2 := by
  unfold ext4Fwrite
  simp only [l.slotOf]
  split
  · rename_i hro
    exact .same (.unwritable (.inl hro))
  · rename_i hro
    have hro' := Bool.eq_false_iff.mpr hro
    split
    · rename_i hrd
      exact .same (.unwritable (.inr (congrArg not hrd)))
    · rename_i hrd
      have hwr : (w.openFile raw).writable = true := congrArg not (Bool.eq_false_iff.mpr hrd)
      split
      · rename_i h0
        subst h0
        exact .same (.writeNothing hro' hwr)
      · rename_i h0
        -- a write is short where there is no room for all of it
        have hp := inside k l.mp
        refine .stored l (f := { w.files raw with
            fsize := max ((w.volume k).inodes (w.files raw).inode).data.length
              ((w.files raw).fpos + ((w.volume k).fwrite bl (w.files raw).inode (w.files raw).fpos
                bytes).1)
            fpos := (w.files raw).fpos + ((w.volume k).fwrite bl (w.files raw).inode
              (w.files raw).fpos bytes).1 })
          ((Function.update_self _ _ _).trans (Volume.fwrite_eq hp)) rfl rfl rfl rfl ?_
        rw [l.content]
        exact .write hro' hwr h0 (List.length_take_le' _ _) hp

/-- So does a truncation. -/
lemma served_ftruncate (l : w.Live k raw) (size : Nat) :
    w.Served k raw (.truncate size) (if (w.ext4Ftruncate raw size).1 = 0 then .done else .refused)
      (w.ext4Ftruncate raw size).2 := by
  unfold ext4Ftruncate
  simp only [l.slotOf]
  split
  · rename_i hro
    exact .same (.uncuttable hro)
  · rename_i hro
    have hro' := Bool.eq_false_iff.mpr hro
    split
    · rename_i hl
      refine .moved ?_ rfl rfl
      rw [l.content]
      exact .uncut hro' hl
    · rename_i hl
      refine .stored l (Function.update_self _ _ _) rfl rfl rfl rfl ?_
      rw [l.content]
      exact .cut hro' (Nat.lt_of_not_le hl)

/-- What the offset of `ext4_fseek` counts from. -/
def origin (o : Int) : Option Origin :=
  if o = 0 then some .start else if o = 1 then some .current else if o = 2 then some .theEnd else none

/-- One of the three cases of `ext4_fseek`. -/
lemma served_seek {offset : Int} {o : Origin} (pos : Int) (ok : Prop) [Decidable ok]
    (hp : (w.openFile raw).base o + offset = pos)
    (hok : ok ↔ 0 ≤ pos ∧ (offset ≤ 0 ∨ pos ≤ (w.openFile raw).seen)) {r : ErrorCode × World}
    (hr : r = if ok then (0, { w with
      files := Function.update w.files raw { w.files raw with fpos := pos.toNat } })
      else (EINVAL, w)) :
    w.Served k raw (.seek offset (some o))
      (if r.1 = 0 then .moved (r.2.files raw).fpos else .refused) r.2 := by
  subst hr
  by_cases h : ok
  · rw [if_pos h]
    obtain ⟨h0, hs⟩ := hok.mp h
    simp only [if_true, Function.update_self]
    refine .moved (.seek ⟨?_, ?_⟩) rfl rfl
    · rw [hp, Int.toNat_of_nonneg h0]
    · rcases hs with hs | hs
      · exact .inl hs
      · exact .inr (Int.toNat_le.mpr hs)
  · rw [if_neg h]
    refine .same (.unseekable fun o' ho pos' hs => h (hok.mpr ?_))
    cases ho
    obtain ⟨e, hs⟩ := hs
    rw [← hp, e]
    exact ⟨Int.natCast_nonneg _, hs.imp_right Int.ofNat_le.mpr⟩

/-- From a position inside, the unsigned arithmetic of `ext4_fseek` comes to what it should. -/
lemma fseek_current (inside : w.SeenInside raw) (offset : Int) : w.ext4Fseek raw offset 1 =
    if 0 ≤ (w.files raw).fpos + offset ∧
      (offset ≤ 0 ∨ (w.files raw).fpos + offset ≤ (w.files raw).fsize) then
      (0, { w with
        files := Function.update w.files raw
          { w.files raw with fpos := ((w.files raw).fpos + offset).toNat } })
    else (EINVAL, w) := by
  obtain ⟨hp, hs⟩ := inside
  have left : ((w.files raw).fsize - (w.files raw).fpos : Int) % 2 ^ 64 =
      (w.files raw).fsize - (w.files raw).fpos := Int.emod_eq_of_lt (by omega) (by omega)
  unfold ext4Fseek
  simp only [one_ne_zero, if_false, if_true, left]
  by_cases h : 0 ≤ (w.files raw).fpos + offset ∧
      (offset ≤ 0 ∨ (w.files raw).fpos + offset ≤ (w.files raw).fsize)
  · have e : ((w.files raw).fpos + offset) % 2 ^ 64 = (w.files raw).fpos + offset :=
      Int.emod_eq_of_lt h.1 (by omega)
    rw [if_pos h, if_pos (decide_eq_true (by omega)), e]
  · rw [if_neg h, if_neg]
    intro h'
    have := of_decide_eq_true h'
    omega

/-- And a seek, the position being inside where it counts. -/
lemma served_fseek (offset o : Int) (inside : o = 1 → w.SeenInside raw) :
    w.Served k raw (.seek offset (origin o))
      (if (w.ext4Fseek raw offset o).1 = 0 then .moved ((w.ext4Fseek raw offset o).2.files raw).fpos
        else .refused) (w.ext4Fseek raw offset o).2 := by
  unfold origin
  by_cases h0 : o = 0
  · rw [if_pos h0]
    refine served_seek offset (0 ≤ offset ∧ offset ≤ (w.files raw).fsize) ?_ ?_ ?_
    · exact Int.zero_add _
    · show _ ↔ 0 ≤ offset ∧ (offset ≤ 0 ∨ offset ≤ (w.files raw).fsize)
      omega
    · simp [ext4Fseek, h0]
  · rw [if_neg h0]
    by_cases h1 : o = 1
    · rw [if_pos h1]
      refine served_seek ((w.files raw).fpos + offset) (0 ≤ (w.files raw).fpos + offset ∧
        (offset ≤ 0 ∨ (w.files raw).fpos + offset ≤ (w.files raw).fsize)) rfl Iff.rfl ?_
      rw [h1, fseek_current (inside h1)]
    · rw [if_neg h1]
      by_cases h2 : o = 2
      · rw [if_pos h2]
        refine served_seek ((w.files raw).fsize + offset)
          (offset ≤ 0 ∧ 0 ≤ (w.files raw).fsize + offset) rfl ?_ ?_
        · show _ ↔ 0 ≤ ((w.files raw).fsize : Int) + offset ∧
            (offset ≤ 0 ∨ (w.files raw).fsize + offset ≤ (w.files raw).fsize)
          omega
        · simp [ext4Fseek, h2]
      · rw [if_neg h2]
        have e : w.ext4Fseek raw offset o = (EINVAL, w) := by simp [ext4Fseek, h0, h1, h2]
        rw [e]
        exact .same (.unseekable nofun)

/-! ### Opening -/

/-- The file that `ext4_fopen2` opens. -/
lemma fopen2_file {path : Str} {flags : Flags} {f : File}
    (h : (w.ext4Fopen2 bl path flags).1 = .ok f)
    (only : ∀ {j}, (w.sMp j).mounted = true → j = k) :
    ∃ v, Volume.fopen2 bl (creat flags) (trunc flags) (w.names path k) (w.volume k) =
        .ok (f.inode, v) ∧ (w.ext4Fopen2 bl path flags).2 = w.setVolume k v ∧ f.mp = some k ∧
      f.flags = flags ∧ f.fsize = (v.inodes f.inode).data.length ∧
      f.fpos = if append flags then f.fsize else 0 := by
  unfold ext4Fopen2 at h ⊢
  split at h
  · cases h
  · rename_i j hm
    obtain rfl := only (mounted_of_getMount hm)
    split at h
    · cases h
    · rename_i hr
      split at h
      · cases h
      · rename_i i v hv
        cases h
        exact ⟨v, hv, by simp only [if_neg hr], rfl, rfl, rfl, rfl⟩

/-- A file was opened under the next address. -/
structure Opened (w : World) (k : Fin 4) (flags : Flags) (raw : Nat) (f : File) (w' : World) :
    Prop where
  raw : raw = w.nextRaw
  files : w'.files = Function.update w.files w.nextRaw f
  nextRaw : w'.nextRaw = w.nextRaw + 1
  mp : f.mp = some k
  openFlags : f.flags = flags
  used : (w'.volume k).used f.inode = true
  regFile : ((w'.volume k).inodes f.inode).type = .regFile
  fsize : f.fsize = ((w'.volume k).content f.inode).length
  fpos : f.fpos = if append flags then f.fsize else 0
  sound : (w'.volume k).Sound
  retains : Volume.Retains (w.volume k) (w'.volume k)
  content : (w'.volume k).content =
    if trunc flags then Function.update (w.volume k).content f.inode [] else (w.volume k).content

/-- A file opened by lwext4 starts where its flags say. -/
lemma Opened.of_fopen2 {path : Str} {flags : Flags} {f : File} {v : Volume}
    (s : (w.volume k).Sound)
    (hv : Volume.fopen2 bl (creat flags) (trunc flags) (w.names path k) (w.volume k) =
      .ok (f.inode, v)) (hmp : f.mp = some k) (hsize : f.fsize = (v.inodes f.inode).data.length)
    (hpos : f.fpos = if append flags then f.fsize else 0)
    (hfl : f.flags = flags) (hf : w'.files = Function.update w.files w.nextRaw f)
    (hn : w'.nextRaw = w.nextRaw + 1) (kp : v.Sound → Volume.Keeps v (w'.volume k)) :
    w.Opened k flags w.nextRaw f w' := by
  obtain ⟨sv, rv, hu, ht, hc⟩ := Volume.Sound.fopen2 s hv
  replace kp := kp sv
  refine ⟨rfl, hf, hn, hmp, hfl, kp.used hu, (kp.type hu).trans ht, ?_, hpos, kp.sound,
    rv.trans kp.retains, kp.content.trans hc⟩
  rw [kp.content, Volume.content_file hu ht]
  exact hsize

end World

/-- A file opened through the filesystem is an opened one. -/
lemma FilesystemLwext4.opens {bl : BlockLayer} {fs : FsId} {o : Object} {w : World} {k : Fin 4}
    {abspath : Str} {flags : Flags} {h : FileHandle}
    (e : (FilesystemLwext4.open bl fs o abspath flags w).1 = .ok h)
    (only : ∀ {j}, (w.sMp j).mounted = true → j = k) (s : (w.volume k).Sound) :
    ∃ f, w.Opened k flags h.raw f (FilesystemLwext4.open bl fs o abspath flags w).2 := by
  unfold FilesystemLwext4.open at e ⊢
  split at e
  · cases e
  · rename_i f w₁ hf
    cases e
    obtain ⟨v, hv, hw, hmp, hfl, hsize, hpos⟩ := World.fopen2_file (congrArg Prod.fst hf) only
    rw [hf] at hw
    simp only at hw
    subst hw
    -- what is left is to set the time of access
    have keeps : ∀ (w₂ : World) t, w₂.volume k = v → v.Sound →
        Volume.Keeps v ((w₂.ext4AtimeSet bl abspath t).2.volume k) := by
      rintro w₂ t rfl sv
      exact World.keeps_setInode (fun _ => rfl) (fun _ => rfl) (fun _ => rfl) sv
    exact ⟨f, .of_fopen2 s hv hmp hsize hpos hfl World.files_change.1 World.files_change.2
      (keeps _ _ (Function.update_self _ _ _))⟩

end Lwext4
end Evfs
