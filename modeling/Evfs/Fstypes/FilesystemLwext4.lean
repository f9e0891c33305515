import Evfs.Lwext4.Confined

/-!
# The ext4 filesystem class

Port of `lib/fstypes/filesystem_lwext4.cpp`: the methods of a `filesystem_lwext4`, as functions on
`World`. `Backend.lwext4` is everything below `VirtualFS` when the ext types are served by these
objects: an object made by `filesystem_factory_lwext4` is one of them, all other objects, the block
devices and the standard streams are those of another backend.
-/

namespace Evfs
namespace Lwext4
open Lib

namespace FileType

/-- `EXT4_INODE_MODE_*`, which are the `S_IF*` bits. -/
def modeBits : FileType → Nat
  | .regFile => 0x8000
  | .dir => 0x4000
  | .chrdev => 0x2000
  | .blkdev => 0x6000
  | .fifo => 0x1000
  | .sock => 0xC000
  | .symlink => 0xA000

/-- `ino_to_st_mode`, which knows no symbolic links. -/
def inoToStMode : FileType → Nat
  | .symlink => 0
  | type => type.modeBits

end FileType

/-- `to_native_path` with one argument. -/
def toNativeRoot (root : Str) : Str := root ++ ['/']

/-- `to_native_path`. -/
def toNativePath (root path : Str) : Str := if path = root then path ++ ['/'] else path

namespace FilesystemLwext4
open World
variable (bl : BlockLayer) (fs : FsId) (o : Object)

/-- The `ext4_mount` of `mount` and what is undone when it or a later step fails. -/
def mountDevice (name root : Str) (flags : Flags) (w : World) : ErrorCode × World :=
  match w.ext4Mount name root (flags.test MountFlags.readOnly) with
  | (e, w) =>
    if e ≠ 0 then (e, (w.deviceUnregister name).2)
    else
      let undo (w : World) : World := ((w.ext4Umount root).2.deviceUnregister name).2
      match w.recover root with
      | (e, w) =>
        if e ≠ 0 then (e, undo w)
        else
          match w.journal root with
          | (e, w) => if e ≠ 0 then (e, undo w) else (0, w)

/-- `filesystem_lwext4::mount`; the root is kept whatever happens. -/
def mount (root : Str) (flags : Flags) (w : World) : ErrorCode × World :=
  let w := { w with objects := Function.update w.objects fs (some { o with root }) }
  let name := w.devName o.blockdev
  match w.deviceRegister o.blockdev name with
  | (e, w) => if e ≠ 0 then (e, w) else mountDevice name (toNativeRoot root) flags w

/-- `filesystem_lwext4::unmount`; a journal that cannot be stopped is passed over. -/
def unmount (w : World) : ErrorCode × World :=
  let root := toNativeRoot o.root
  match (w.journal root).2.ext4Umount root with
  | (e, w) => if e ≠ 0 then (e, w) else w.deviceUnregister (w.devName o.blockdev)

/-- `filesystem_lwext4::stat_vfs`. -/
def statVfs (w : World) : (ErrorCode × Option StatVfs) × World :=
  match w.getMount (toNativeRoot o.root) with
  | none => ((ENOENT, none), w)
  | some i =>
    let v := w.volume i
    let (blocks, bfree) := bl.counts v
    ((0, some { bsize := v.blockSize, frsize := v.blockSize, blocks, bfree }), w)

/-- `filesystem_lwext4::open`. -/
def «open» (abspath : Str) (flags : Flags) (w : World) : Except ErrorCode FileHandle × World :=
  match w.ext4Fopen2 bl abspath flags with
  | (.error e, w) => (.error e, w)
  | (.ok f, w) =>
    let raw := w.nextRaw
    let w := { w with files := Function.update w.files raw f, nextRaw := raw + 1 }
    let (now, w) := w.tick
    (.ok ⟨fs, o.root, abspath, raw⟩, (w.ext4AtimeSet bl abspath now).2)

/-- `filesystem_lwext4::close`, the time of which is set by the path of the handle. -/
def close (h : FileHandle) (w : World) : ErrorCode × World :=
  let (now, w) := (w.ext4Fclose h.raw).tick
  w.ext4MtimeSet bl h.abspath now

/-- `filesystem_lwext4::lseek`. -/
def lseek (h : FileHandle) (pos dir : Int) (w : World) : Except ErrorCode Int × World :=
  match w.ext4Fseek h.raw pos dir with
  | (e, w) => if e ≠ 0 then (.error e, w) else (.ok (w.files h.raw).fpos, w)

/-- What `_stat` fills in. -/
def fillStat (ino : Ino) (n : Inode) : Stat where
  ino := ino
  mode := n.type.modeBits + n.mode
  nlink := n.links
  size := n.data.length
  atime := n.atime
  mtime := n.mtime

/-- `filesystem_lwext4::_stat`. -/
def stat (path : Str) (w : World) : ErrorCode × Option Stat :=
  match w.lookup bl none (toNativePath o.root path) with
  | .error e => (e, none)
  | .ok (i, f) =>
    if w.present (toNativeRoot o.root) ≠ 0 then (w.present (toNativeRoot o.root), none)
    else (0, some (fillStat f.inode ((w.volume i).inodes f.inode)))

/-- `filesystem_lwext4::unlink`. -/
def unlink (name : Str) (w : World) : ErrorCode × World :=
  match w.lookup bl (some .dir) name with
  | .ok _ => w.ext4DirRm bl name
  | .error _ => w.ext4Fremove bl name

/-- `filesystem_lwext4::chmod` and, with the path of the handle, `fchmod`. -/
def chmod (path : Str) (mode : Nat) (w : World) : ErrorCode × World :=
  match w.ext4ModeSet bl path mode with
  | (e, w) =>
    if e ≠ 0 then (e, w)
    else
      let (now, w) := w.tick
      (0, (w.ext4MtimeSet bl path now).2)

/-- The loop of `ftruncate` that writes buffers of zeros of the given sizes. -/
def writeZeros (raw : Nat) : List Nat → World → ErrorCode × World
  | [], w => (0, w)
  | n :: ns, w =>
    match w.ext4Fwrite bl raw (List.replicate n 0) with
    | (.error e, w) => (-e, w)
    | (.ok _, w) => writeZeros raw ns w

/-- `filesystem_lwext4::ftruncate`. -/
def ftruncate (h : FileHandle) (len : Int) (w : World) : ErrorCode × World :=
  let length := (len % 2 ^ 64).toNat
  match w.ext4Ftruncate h.raw length with
  | (e, w) =>
    if e = ENOTSUP then
      writeZeros bl h.raw (List.replicate (length / 8192) 8192 ++
        if 0 < length % 8192 then [length % 8192] else []) w
    else (e, w)

/-- `filesystem_lwext4::diropen`. -/
def diropen (path : Str) (w : World) : Except ErrorCode DirectoryHandle × World :=
  match w.lookup bl (some .dir) (toNativePath o.root path) with
  | .error e => (.error e, w)
  | .ok (i, f) =>
    (.ok ⟨fs, o.root, w.nextRaw⟩,
      { w with
        dirs := Function.update w.dirs w.nextRaw ⟨some i, f.inode, some 0⟩
        nextRaw := w.nextRaw + 1 })

/-- `filesystem_lwext4::dirnext`. -/
def dirnext (h : DirectoryHandle) (w : World) : (ErrorCode × Option (Str × Stat)) × World :=
  match w.ext4DirEntryNext h.raw with
  | (none, w) => ((ENOENT, none), w)
  | (some (name, ino, type), w) => ((0, some (name, { ino, mode := type.inoToStMode })), w)

/-- `filesystem_lwext4::get_label`. -/
def getLabel (w : World) : Except ErrorCode Str × World :=
  match w.access with
  | (e, w) =>
    if e ≠ 0 then (.error e, w)
    else if (w.volumes o.blockdev).valid then (.ok (w.volumes o.blockdev).label, w)
    else (.error EINVAL, w)

/-- The methods on an open file. -/
def callFile : (op : FdOp) → FileHandle → World → op.Ret × World
  | .close, h, w => close bl h w
  | .write data, h, w => w.ext4Fwrite bl h.raw data
  | .read len, h, w => w.ext4Fread bl h.raw len
  | .lseek pos dir, h, w => lseek h pos dir w
  | .fstat, h, w => (stat bl o h.abspath w, w)
  | .ftruncate len, h, w => ftruncate bl h len w
  | .fsync, _, w => (w.present (toNativeRoot o.root), w)
  | .flock _, _, w => (ENOTSUP, w)
  | .isatty, _, w => (.ok false, w)
  | .fchmod mode, h, w => chmod bl h.abspath mode w

/-- The methods on a path. -/
def callPath : (op : PathOp) → Str → World → op.Ret × World
  | .stat, path, w => (stat bl o path w, w)
  | .link newlink, path, w => w.ext4Flink bl path newlink
  | .symlink newlink, path, w => w.ext4Fsymlink bl path newlink
  | .unlink, path, w => unlink bl path w
  | .rmdir, path, w => w.ext4DirRm bl path
  | .mkdir _, path, w => w.ext4DirMk bl path
  | .statVfs, _, w => statVfs bl o w
  | .ioctl _, _, w => (ENOTSUP, w)
  | .utimens _ _, _, w => (ENOTSUP, w)
  | .chmod mode, path, w => chmod bl path mode w

/-- The methods on an open directory. -/
def callDir : (op : DirOp) → DirectoryHandle → World → op.Ret × World
  | .dirreset, h, w =>
    (0, { w with dirs := Function.update w.dirs h.raw { w.dirs h.raw with next := some 0 } })
  | .dirnext, h, w => dirnext h w
  | .dirclose, h, w => (0, { w with dirs := Function.update w.dirs h.raw {} })

/-- A method call on the object. -/
def call : (c : Call) → World → c.Ret × World
  | .getLabel, w => getLabel o w
  | .mount root flags, w => mount fs o root flags w
  | .unmount, w => unmount o w
  | .open abspath flags _, w => FilesystemLwext4.open bl fs o abspath flags w
  | .file op h, w => callFile bl o op h w
  | .path op path, w => callPath bl o op path w
  | .rename oldname newname, w => w.ext4Frename bl oldname newname
  | .diropen path, w => diropen bl fs o path w
  | .dir op h, w => callDir op h w

/-! ### The objects -/

section Objects
variable {bl fs o} {w : World}

/-- The block devices have nothing to do with the objects. -/
lemma objects_deviceRegister {bd : PartRef} {name : Str} :
    (w.deviceRegister bd name).2.objects = w.objects := by
  unfold deviceRegister
  repeat' split
  all_goals rfl

/-- Giving one back neither. -/
lemma objects_deviceUnregister {name : Str} : (w.deviceUnregister name).2.objects = w.objects := by
  unfold deviceUnregister
  split
  · rfl
  · rfl

/-- Nor has the slot of a volume. -/
lemma objects_ext4Mount {name root : Str} {ro : Bool} :
    (w.ext4Mount name root ro).2.objects = w.objects := by
  unfold ext4Mount
  simp only
  repeat' split
  all_goals rfl

/-- Giving that back neither. -/
lemma objects_ext4Umount {root : Str} : (w.ext4Umount root).2.objects = w.objects := by
  unfold ext4Umount
  split
  · rfl
  · simp only
    split
    · split <;> rfl
    · split <;> rfl

/-- Recovery leaves the objects alone. -/
lemma objects_recover {root : Str} : (w.recover root).2.objects = w.objects := by
  unfold recover
  split
  · rfl
  · split
    · rfl
    · rfl

/-- So does starting the journal. -/
lemma objects_journal {root : Str} : (w.journal root).2.objects = w.objects := by
  unfold journal
  split
  · rfl
  · split
    · rfl
    · rfl

/-- So does all that `mount` does with lwext4. -/
lemma objects_mountDevice {name root : Str} {flags : Flags} :
    (mountDevice name root flags w).2.objects = w.objects := by
  unfold mountDevice
  simp only
  split
  · rw [objects_deviceUnregister, objects_ext4Mount]
  · split
    · rw [objects_deviceUnregister, objects_ext4Umount, objects_recover, objects_ext4Mount]
    · split
      · rw [objects_deviceUnregister, objects_ext4Umount, objects_journal, objects_recover,
          objects_ext4Mount]
      · rw [objects_journal, objects_recover, objects_ext4Mount]

/-- `mount` sets the root of the object, successful or not. -/
lemma objects_mount {root : Str} {flags : Flags} :
    (mount fs o root flags w).2.objects =
      Function.update w.objects fs (some { o with root := root }) := by
  unfold mount
  simp only
  split
  · rw [objects_deviceRegister]
  · rw [objects_mountDevice, objects_deviceRegister]

/-- And all of `unmount`. -/
lemma objects_unmount : (unmount o w).2.objects = w.objects := by
  unfold unmount
  simp only
  split
  · rw [objects_ext4Umount, objects_journal]
  · rw [objects_deviceUnregister, objects_ext4Umount, objects_journal]

end Objects

/-! ### What a method can reach -/

section Confined
variable {bl fs o} {P : Fin 4 → Prop} {w : World}

/-- Asking the block layer changes no volume. -/
lemma confined_access : Confined P w w.access.2 := .own

/-- `open` stays on the volume that the path leads to. -/
lemma confined_open {abspath : Str} {flags : Flags} (h : ∀ i, w.getMount abspath = some i → P i) :
    Confined P w (FilesystemLwext4.open bl fs o abspath flags w).2 := by
  have c : Confined P w (w.ext4Fopen2 bl abspath flags).2 := confined_fopen2 h
  unfold FilesystemLwext4.open
  split
  · rename_i e
    rwa [e] at c
  · rename_i f w' e
    rw [e] at c
    apply c.trans
    apply Confined.own.trans
    apply confined_change
    intro i hw
    have hm := (writable_ok.mp hw).1
    exact h i (by rw [← c.getMount]; exact hm)

/-- `close` sets the time on a volume that may be written. -/
lemma confined_close {h : FileHandle} (hP : ∀ i, w.MayWrite i → P i) :
    Confined P w (close bl h w).2 := by
  apply Confined.own.trans
  apply confined_change
  exact fun i hw => hP i (mayWrite_of_writable hw)

/-- `lseek` changes no volume. -/
lemma confined_lseek {h : FileHandle} {pos dir : Int} : Confined P w (lseek h pos dir w).2 := by
  have c : Confined P w (w.ext4Fseek h.raw pos dir).2 := confined_fseek
  unfold lseek
  simp only
  split
  · exact c
  · exact c

/-- `unlink` stays on a volume that may be written. -/
lemma confined_unlink {name : Str} (hP : ∀ i, w.MayWrite i → P i) :
    Confined P w (unlink bl name w).2 := by
  unfold unlink
  split
  · exact confined_change fun i hw => hP i (mayWrite_of_writable hw)
  · exact confined_change fun i hw => hP i (mayWrite_of_writable hw)

/-- `chmod` stays on the volume of its path, if that may be written. -/
lemma confined_chmod {path : Str} {mode : Nat} (hP : ∀ i, w.writable path = .ok i → P i) :
    Confined P w (chmod bl path mode w).2 := by
  have c : Confined P w (w.ext4ModeSet bl path mode).2 := confined_change hP
  unfold chmod
  split
  rename_i e w' hw
  rw [hw] at c
  split
  · exact c
  · apply c.trans
    apply Confined.own.trans
    apply confined_change
    intro i hw
    apply hP i
    rwa [← c.writable path]

/-- By induction on the buffers of zeros. -/
lemma confined_writeZeros {raw : Nat} {ns : List Nat}
    (hP : ∀ i, w.MayWrite i → P i) : Confined P w (writeZeros bl raw ns w).2 := by
  induction ns generalizing w with
  | nil => exact .refl
  | cons n ns ih =>
    have c : Confined P w (w.ext4Fwrite bl raw (List.replicate n 0)).2 := confined_fwrite hP
    unfold writeZeros
    split
    · rename_i e
      rwa [e] at c
    · rename_i e
      rw [e] at c
      apply c.trans
      apply ih
      intro i m
      rw [MayWrite, c.sMp] at m
      exact hP i m

/-- `ftruncate` stays on a volume that may be written. -/
lemma confined_ftruncate' {h : FileHandle} {len : Int}
    (hP : ∀ i, w.MayWrite i → P i) : Confined P w (ftruncate bl h len w).2 := by
  have c : Confined P w (w.ext4Ftruncate h.raw (len % 2 ^ 64).toNat).2 := confined_ftruncate hP
  unfold ftruncate
  simp only
  split
  · apply c.trans
    apply confined_writeZeros
    intro i m
    rw [MayWrite, c.sMp] at m
    exact hP i m
  · exact c

/-- A method on an open file changes volumes in slots that are not read-only. -/
lemma confined_callFile {op : FdOp} {h : FileHandle}
    (hP : ∀ i, w.MayWrite i → P i) : Confined P w (callFile bl o op h w).2 := by
  have hw : ∀ p i, w.writable p = .ok i → P i := fun p i e => hP i (mayWrite_of_writable e)
  cases op with
  | close => exact confined_close hP
  | write data => exact confined_fwrite hP
  | read len => exact confined_fread
  | lseek pos dir => exact confined_lseek
  | fstat => exact .refl
  | ftruncate len => exact confined_ftruncate' hP
  | fsync => exact .refl
  | flock cmd => exact .refl
  | isatty => exact .refl
  | fchmod mode => exact confined_chmod (hw _)

/-- A method on a path changes volumes in slots that are not read-only. -/
lemma confined_callPath {op : PathOp} {path : Str}
    (hP : ∀ i, w.MayWrite i → P i) : Confined P w (callPath bl o op path w).2 := by
  have hw : ∀ p i, w.writable p = .ok i → P i := fun p i e => hP i (mayWrite_of_writable e)
  cases op with
  | stat => exact .refl
  | link newlink => exact confined_flink (hw _)
  | symlink newlink => exact confined_change (hw _)
  | unlink => exact confined_unlink hP
  | rmdir => exact confined_change (hw _)
  | mkdir mode => exact confined_change (hw _)
  | statVfs =>
    show Confined P w (statVfs bl o w).2
    unfold statVfs
    split
    · exact .refl
    · exact .refl
  | ioctl cmd => exact .refl
  | utimens atime mtime => exact .refl
  | chmod mode => exact confined_chmod (hw _)

/-- `diropen` changes no volume. -/
lemma confined_diropen {path : Str} : Confined P w (diropen bl fs o path w).2 := by
  unfold diropen
  split
  · exact .refl
  · exact .own

/-- Nor does anything that is done with an open directory. -/
lemma confined_callDir {op : DirOp} {h : DirectoryHandle} : Confined P w (callDir op h w).2 := by
  cases op with
  | dirreset => exact .own
  | dirnext =>
    have c : Confined P w (w.ext4DirEntryNext h.raw).2 := confined_dirEntryNext
    show Confined P w (dirnext h w).2
    unfold dirnext
    split
    · rename_i e
      rwa [e] at c
    · rename_i e
      rwa [e] at c
  | dirclose => exact .own

/-- Nor does `get_label`. -/
lemma confined_getLabel : Confined P w (getLabel o w).2 := by
  unfold getLabel
  split
  rename_i e
  have c : Confined P w w.access.2 := confined_access
  rw [e] at c
  split
  · exact c
  · split
    · exact c
    · exact c

end Confined

/-- The methods that mount or unmount. -/
def mounting : Call → Bool
  | .mount _ _ => true
  | .unmount => true
  | _ => false

/-- A method that neither mounts nor unmounts leaves the tables alone. -/
lemma confined_call {c : Call} {w : World} (h : mounting c = false) :
    Confined (fun _ => True) w (call bl fs o c w).2 := by
  cases c with
  | getLabel => exact confined_getLabel
  | mount r fl => cases h
  | unmount => cases h
  | «open» abspath flags mode => exact confined_open fun _ _ => trivial
  | file op h => exact confined_callFile fun _ _ => trivial
  | path op path => exact confined_callPath fun _ _ => trivial
  | rename old new => exact confined_frename (fun _ _ => trivial) fun _ _ _ _ => trivial
  | diropen path => exact confined_diropen
  | dir op h => exact confined_callDir

/-- A method other than `mount` leaves the objects as they are. -/
lemma objects_call {c : Call} {w : World} (h : ∀ r fl, c ≠ .mount r fl) :
    (call bl fs o c w).2.objects = w.objects := by
  cases hm : mounting c with
  | false => exact (confined_call bl fs o hm).objects
  | true =>
    cases c with
    | mount r fl => exact absurd rfl (h r fl)
    | unmount => exact objects_unmount
    | _ => cases hm

end FilesystemLwext4

namespace FilesystemLwext4
variable {bl : BlockLayer} {fs : FsId} {o : Object} {w : World}

/-- The handle that `open` hands out. -/
lemma open_handle {abspath : Str} {flags : Flags} {h : FileHandle}
    (e : (FilesystemLwext4.open bl fs o abspath flags w).1 = .ok h) :
    h = ⟨fs, o.root, abspath, w.nextRaw⟩ := by
  have q : (w.ext4Fopen2 bl abspath flags).2.nextRaw = w.nextRaw := World.nextRaw_fopen2
  unfold FilesystemLwext4.open at e
  split at e
  · cases e
  · rename_i hf
    rw [hf] at q
    rw [← q]
    exact (Except.ok.inj e).symm

/-- An `open` that returns has a file of lwext4. -/
lemma open_fopen2 {abspath : Str} {flags : Flags} {h : FileHandle}
    (e : (FilesystemLwext4.open bl fs o abspath flags w).1 = .ok h) :
    ∃ f, (w.ext4Fopen2 bl abspath flags).1 = .ok f := by
  unfold FilesystemLwext4.open at e
  split at e
  · cases e
  · rename_i f _ hf
    exact ⟨f, congrArg Prod.fst hf⟩

/-- The handle of a directory belongs to the object. -/
lemma diropen_handle {path : Str} {h : DirectoryHandle}
    (e : (diropen bl fs o path w).1 = .ok h) : h = ⟨fs, o.root, w.nextRaw⟩ := by
  unfold diropen at e
  split at e
  · cases e
  · exact (Except.ok.inj e).symm

end FilesystemLwext4

/-- The root an object was last mounted at. -/
def rootOf {τ : Type} (O : Backend τ) (s : World × τ) (fs : FsId) : Str :=
  match s.1.objects fs with
  | some o => o.root
  | none => O.rootOf s.2 fs

/-- A method call, on a `filesystem_lwext4` or another object. -/
def callObject {τ : Type} (bl : BlockLayer) (O : Backend τ) (fs : FsId) (c : Call)
    (s : World × τ) : c.Ret × (World × τ) :=
  match s.1.objects fs with
  | some o =>
    ((FilesystemLwext4.call bl fs o c s.1).1, (FilesystemLwext4.call bl fs o c s.1).2, s.2)
  | none => ((O.call fs c s.2).1, s.1, (O.call fs c s.2).2)

/-- `create_filesystem` of the factories. -/
def createObject {τ : Type} (O : Backend τ) (fs : FsId) (factory : Factory) (disk : PartRef)
    (s : World × τ) : World × τ :=
  match factory with
  | .lwext4 => ({ s.1 with objects := Function.update s.1.objects fs (some ⟨disk, []⟩) }, s.2)
  | .custom _ =>
    ({ s.1 with objects := Function.update s.1.objects fs none }, O.create fs factory disk s.2)

section Backend
variable {τ : Type} {bl : BlockLayer} {O : Backend τ} {fs fs' : FsId} {s : World × τ}

/-- A call on a `filesystem_lwext4`. -/
lemma callObject_some {o : Object} {c : Call} (h : s.1.objects fs = some o) :
    callObject bl O fs c s =
      ((FilesystemLwext4.call bl fs o c s.1).1, (FilesystemLwext4.call bl fs o c s.1).2, s.2) := by
  simp only [callObject, h]

/-- A call on any other object. -/
lemma callObject_none {c : Call} (h : s.1.objects fs = none) :
    callObject bl O fs c s = ((O.call fs c s.2).1, s.1, (O.call fs c s.2).2) := by
  simp only [callObject, h]

/-- The root depends on the object, and on the other backend where there is none. -/
lemma rootOf_congr {s' : World × τ} (h : s'.1.objects fs = s.1.objects fs)
    (h' : s.1.objects fs = none → O.rootOf s'.2 fs = O.rootOf s.2 fs) :
    rootOf O s' fs = rootOf O s fs := by
  unfold rootOf
  rw [h]
  cases ho : s.1.objects fs with
  | none => exact h' ho
  | some o => rfl

/-- An object that was mounted has its root from then on. -/
lemma rootOf_mount {r : Str} {fl : Flags} (h : (callObject bl O fs (.mount r fl) s).1 = 0) :
    rootOf O (callObject bl O fs (.mount r fl) s).2 fs = r := by
  cases ho : s.1.objects fs with
  | some o =>
    have e : (FilesystemLwext4.call bl fs o (.mount r fl) s.1).2.objects = _ :=
      FilesystemLwext4.objects_mount
    rw [callObject_some ho]
    simp only [rootOf, e, Function.update_self]
  | none =>
    rw [callObject_none ho] at h ⊢
    simp only [rootOf, ho]
    exact O.mount_root fs r fl s.2 h

/-- The others keep theirs. -/
lemma rootOf_mount_ne {r : Str} {fl : Flags} (h : fs' ≠ fs) :
    rootOf O (callObject bl O fs (.mount r fl) s).2 fs' = rootOf O s fs' := by
  cases ho : s.1.objects fs with
  | some o =>
    have e : (FilesystemLwext4.call bl fs o (.mount r fl) s.1).2.objects = _ :=
      FilesystemLwext4.objects_mount
    rw [callObject_some ho]
    apply rootOf_congr
    · rw [e, Function.update_of_ne h]
    · exact fun _ => rfl
  | none =>
    rw [callObject_none ho]
    exact rootOf_congr rfl fun _ => O.mount_frame fs r fl s.2 fs' h

/-- Making an object gives no other one a root. -/
lemma rootOf_create_ne {factory : Factory} {disk : PartRef} (h : fs' ≠ fs) :
    rootOf O (createObject O fs factory disk s) fs' = rootOf O s fs' := by
  cases factory with
  | lwext4 => exact rootOf_congr (Function.update_of_ne h _ _) fun _ => rfl
  | custom id =>
    exact rootOf_congr (Function.update_of_ne h _ _) fun _ => O.create_frame fs _ disk s.2 fs' h

/-- No other method changes a root. -/
lemma rootOf_call {c : Call} (h : ∀ r fl, c ≠ .mount r fl) :
    rootOf O (callObject bl O fs c s).2 fs' = rootOf O s fs' := by
  cases ho : s.1.objects fs with
  | some o =>
    rw [callObject_some ho]
    exact rootOf_congr (congrFun (FilesystemLwext4.objects_call bl fs o h) fs') fun _ => rfl
  | none =>
    rw [callObject_none ho]
    exact rootOf_congr rfl fun _ => O.call_frame fs c s.2 fs' h

/-- A file is opened by its object, under the root of that. -/
lemma open_stamp {p : Str} {fl : Flags} {m : Int} {h : FileHandle}
    (e : (callObject bl O fs (.open p fl m) s).1 = .ok h) :
    h.owner = fs ∧ h.root = rootOf O s fs := by
  cases ho : s.1.objects fs with
  | some o =>
    rw [callObject_some ho] at e
    rw [FilesystemLwext4.open_handle e]
    simp only [rootOf, ho]
    exact ⟨trivial, trivial⟩
  | none =>
    rw [callObject_none ho] at e
    simp only [rootOf, ho]
    exact O.open_stamp fs p fl m s.2 h e

/-- So is a directory. -/
lemma diropen_stamp {p : Str} {h : DirectoryHandle}
    (e : (callObject bl O fs (.diropen p) s).1 = .ok h) :
    h.owner = fs ∧ h.root = rootOf O s fs := by
  cases ho : s.1.objects fs with
  | some o =>
    rw [callObject_some ho] at e
    rw [FilesystemLwext4.diropen_handle e]
    simp only [rootOf, ho]
    exact ⟨trivial, trivial⟩
  | none =>
    rw [callObject_none ho] at e
    simp only [rootOf, ho]
    exact O.diropen_stamp fs p s.2 h e

end Backend

/-- What `VirtualFS` stands on: `filesystem_lwext4` objects for the factory of the ext types, and
another backend for everything else. -/
def backend {τ : Type} (bl : BlockLayer) (O : Backend τ) : Backend (World × τ) where
  sectorSize disk s := ((O.sectorSize disk s.2).1, s.1, (O.sectorSize disk s.2).2)
  create := createObject O
  call := callObject bl O
  stream op s := ((O.stream op s.2).1, s.1, (O.stream op s.2).2)
  rootOf := rootOf O
  mount_root _ _ _ _ := rootOf_mount
  mount_frame _ _ _ _ _ := rootOf_mount_ne
  create_frame _ _ _ _ _ := rootOf_create_ne
  call_frame _ _ _ _ := rootOf_call
  sectorSize_frame p s _ := rootOf_congr rfl fun _ => O.sectorSize_frame p s.2 _
  stream_frame op s _ := rootOf_congr rfl fun _ => O.stream_frame op s.2 _
  open_stamp _ _ _ _ _ _ := open_stamp
  diropen_stamp _ _ _ _ := diropen_stamp

/-! ### A small volume -/

/-- The lowest free inode is taken, there is room for everything, and new entries come last. -/
def firstFree : BlockLayer where
  inode v _ := (List.range v.inodesCount).find? fun i => ¬ v.used i
  inode_free h := by simpa using List.find?_some h
  entry _ _ _ := true
  slot v d _ := (v.inodes d).entries.entries.length
  room _ _ _ len := len
  beyond v i pos chunk := v.modify i fun n =>
    { n with data := Volume.splice (n.data ++ List.replicate pos 0) pos chunk }
  stale _ _ _ _ := []
  counts _ := (0, 0)

/-- An empty volume. -/
def emptyVolume : Volume where
  inodes i :=
    if i = rootIndex then
      { type := .dir
        links := 2
        entries := ((∅ : UnorderedMap Str Ino).insert Path.dotDot rootIndex).insert Path.dot
          rootIndex }
    else {}
  used i := i < 11
  inodesCount := 16

/-- Empty volumes, and nothing mounted yet. -/
def emptyWorld : World where
  volumes _ := emptyVolume
  devName p := createPartitionName "sd".toList p.index

end Lwext4
end Evfs
