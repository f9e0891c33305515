import Evfs.Common.Filesystem
import Evfs.Lwext4.Volume
import Mathlib.Data.List.FinRange

/-!
# The interface of lwext4

Port of `lib/third-party/lwext4/src/ext4.c`, in the configuration of `lib/config/generated`: the
device table `s_bdevices`, the mount point table `s_mp`, and the functions that take a path or an
open file. A path belongs to the first mounted slot whose name it starts with (`getMount`).

`World` is the state of the library and of the volumes, with the `filesystem_lwext4` objects and the
open files in it. The functions that change a volume for a path are all `change`: the mount point
has to be there and must not be read-only.
-/

namespace Evfs
namespace Lwext4

abbrev ENOMEM : ErrorCode := 12

/-- A slot of `s_bdevices`. -/
structure BlockDeviceSlot where
  name : Str := []
  bd : Option PartRef := none

/-- A slot of `s_mp`. -/
structure Mountpoint where
  mounted : Bool := false
  name : Str := []
  readOnly : Bool := false
  bdev : PartRef := ⟨0, 0⟩

/-- `ext4_file`. -/
structure File where
  mp : Option (Fin 4) := none
  flags : Flags := 0
  inode : Ino := 0
  fpos : Nat := 0
  fsize : Nat := 0

/-- `ext4_dir`; there is nothing left to read when `next` is `none`. -/
structure Dir where
  mp : Option (Fin 4) := none
  inode : Ino := 0
  next : Option Nat := none

/-- A `filesystem_lwext4`. -/
structure Object where
  blockdev : PartRef
  root : Str := []
  deriving DecidableEq

/-- The state of the library, of the volumes and of what was created over them. -/
structure World where
  sBdevices : Fin 4 → BlockDeviceSlot := fun _ => {}
  sMp : Fin 4 → Mountpoint := fun _ => {}
  volumes : PartRef → Volume
  /-- `BlockDevice::get_name`. -/
  devName : PartRef → Str
  objects : FsId → Option Object := fun _ => none
  files : Nat → File := fun _ => {}
  dirs : Nat → Dir := fun _ => {}
  /-- The address of the next handle. -/
  nextRaw : Nat := 0
  /-- What the clock shows, reading after reading. -/
  clock : Nat → Nat := fun _ => 0
  readings : Nat := 0
  /-- The outcomes of the accesses to superblock and journal, one after the other. -/
  accesses : Nat → ErrorCode := fun _ => 0
  accessed : Nat := 0

/-- `O_CREAT`. -/
def creat (flags : Flags) : Bool := flags.getLsbD 6

/-- `O_TRUNC`. -/
def trunc (flags : Flags) : Bool := flags.getLsbD 9

/-- `O_APPEND`. -/
def append (flags : Flags) : Bool := flags.getLsbD 10

/-- `O_WRONLY`. -/
def wronly (flags : Flags) : Bool := flags.getLsbD 0

/-- `(flags & O_ACCMODE) == O_RDONLY`. -/
def rdonly (flags : Flags) : Bool := flags.toNat % 4 = 0

namespace World

def volume (w : World) (i : Fin 4) : Volume := w.volumes (w.sMp i).bdev

def setVolume (i : Fin 4) (v : Volume) (w : World) : World :=
  { w with volumes := Function.update w.volumes (w.sMp i).bdev v }

/-- Reading the clock. -/
def tick (w : World) : Nat × World :=
  (w.clock w.readings, { w with readings := w.readings + 1 })

/-- An access to the superblock or the journal. -/
def access (w : World) : ErrorCode × World :=
  (w.accesses w.accessed, { w with accessed := w.accessed + 1 })

/-! ### Devices and mount points -/

/-- `ext4_device_register`. -/
def deviceRegister (bd : PartRef) (name : Str) (w : World) : ErrorCode × World :=
  if 32 < name.length then (EINVAL, w)
  else if ∃ i, (w.sBdevices i).name = name then (EEXIST, w)
  else
    match (List.finRange 4).find? fun i => (w.sBdevices i).bd = none with
    | none => (ENOSPC, w)
    | some i => (0, { w with sBdevices := Function.update w.sBdevices i ⟨name, some bd⟩ })

/-- `ext4_device_unregister`. -/
def deviceUnregister (name : Str) (w : World) : ErrorCode × World :=
  match (List.finRange 4).find? fun i => (w.sBdevices i).name = name with
  | none => (ENOENT, w)
  | some i => (0, { w with sBdevices := Function.update w.sBdevices i {} })

/-- The device a name is registered for. -/
def findDevice (name : Str) (w : World) : Option PartRef := do
  let i ← (List.finRange 4).find? fun i => (w.sBdevices i).name = name
  (w.sBdevices i).bd

/-- The loop of `ext4_mount` over the slots: the first free one, or `.error 0` when the name is
mounted already. -/
def freeSlot (name : Str) (w : World) : List (Fin 4) → Except ErrorCode (Fin 4)
  | [] => .error ENOMEM
  | i :: is =>
    if ¬ (w.sMp i).mounted then .ok i
    else if (w.sMp i).name = name then .error 0
    else freeSlot name w is

/-- `ext4_mount`. The name is in the slot before the superblock is read. -/
def ext4Mount (devName mountPoint : Str) (readOnly : Bool) (w : World) : ErrorCode × World :=
  if 32 < mountPoint.length then (EINVAL, w)
  else if mountPoint.getLast? ≠ some '/' then (ENOTSUP, w)
  else
    match w.findDevice devName with
    | none => (ENODEV, w)
    | some bd =>
      match w.freeSlot mountPoint (List.finRange 4) with
      | .error e => (e, w)
      | .ok i =>
        let w := { w with
          sMp := Function.update w.sMp i { w.sMp i with name := mountPoint } }
        match w.access with
        | (e, w) =>
          if e ≠ 0 then (e, w)
          else if ¬ (w.volumes bd).valid then (ENOTSUP, w)
          else
            (0, { w with
              sMp := Function.update w.sMp i
                ⟨true, mountPoint, readOnly || (w.volumes bd).roFeatures, bd⟩ })

/-- `ext4_umount`, which takes the first slot with the name, mounted or not. -/
def ext4Umount (mountPoint : Str) (w : World) : ErrorCode × World :=
  match (List.finRange 4).find? fun i => (w.sMp i).name = mountPoint with
  | none => (ENODEV, w)
  | some i =>
    let (e, w) := if (w.sMp i).readOnly then (0, w) else w.access
    if e ≠ 0 then (e, w)
    else
      (0, { w with sMp := Function.update w.sMp i { w.sMp i with mounted := false } })

/-- `ext4_get_mount`. -/
def getMount (path : Str) (w : World) : Option (Fin 4) :=
  (List.finRange 4).find? fun i => (w.sMp i).mounted ∧ (w.sMp i).name <+: path

/-- `ext4_recover`. -/
def recover (mountPoint : Str) (w : World) : ErrorCode × World :=
  match w.getMount mountPoint with
  | none => (ENOENT, w)
  | some i => if (w.volume i).hasJournal then w.access else (ENOTSUP, w)

/-- `ext4_journal_start` and `ext4_journal_stop`. -/
def journal (mountPoint : Str) (w : World) : ErrorCode × World :=
  match w.getMount mountPoint with
  | none => (ENOENT, w)
  | some i => if (w.sMp i).readOnly ∨ ¬ (w.volume i).hasJournal then (0, w) else w.access

/-- The names of a path behind the mount point. -/
def names (path : Str) (i : Fin 4) (w : World) : List Str :=
  Path.splitNames (path.drop (w.sMp i).name.length)

/-! ### Functions on paths -/

/-- The mount point of a path, which must not be read-only. -/
def writable (path : Str) (w : World) : Except ErrorCode (Fin 4) :=
  match w.getMount path with
  | none => .error ENOENT
  | some i => if (w.sMp i).readOnly then .error EROFS else .ok i

/-- A change of the volume that a path is on. -/
def change (path : Str) (f : List Str → Volume → ErrorCode × Volume) (w : World) :
    ErrorCode × World :=
  match w.writable path with
  | .error e => (e, w)
  | .ok i =>
    let (e, v) := f (w.names path i) (w.volume i)
    (e, w.setVolume i v)

/-- The end of a transaction: it is stopped, or aborted on an error. -/
def trans (v : Volume) : Except ErrorCode Volume → ErrorCode × Volume
  | .error e => (e, v)
  | .ok v => (0, v)

/-- A change in one transaction. -/
def changeTrans (path : Str) (f : List Str → Volume → Except ErrorCode Volume) (w : World) :
    ErrorCode × World :=
  w.change path fun names v => trans v (f names v)

variable (bl : BlockLayer)

/-- `ext4_fopen2`, which looks at `read_only` for `O_CREAT` only. -/
def ext4Fopen2 (path : Str) (flags : Flags) (w : World) : Except ErrorCode File × World :=
  match w.getMount path with
  | none => (.error ENOENT, w)
  | some i =>
    if (w.sMp i).readOnly ∧ creat flags then (.error EROFS, w)
    else
      match Volume.fopen2 bl (creat flags) (trunc flags) (w.names path i) (w.volume i) with
      | .error e => (.error e, w)
      | .ok (inode, v) =>
        let fsize := (v.inodes inode).data.length
        (.ok { mp := some i, flags, inode, fsize, fpos := if append flags then fsize else 0 },
          w.setVolume i v)

/-- `ext4_generic_open2` on a path that is only looked up. -/
def lookup (ftype : Option FileType) (path : Str) (w : World) :
    Except ErrorCode (Fin 4 × Volume.Found) :=
  match w.getMount path with
  | none => .error ENOENT
  | some i =>
    match Volume.find bl ftype (w.names path i) (w.volume i) with
    | .error e => .error e
    | .ok f => .ok (i, f)

/-- `ext4_fremove`. -/
def ext4Fremove (path : Str) (w : World) : ErrorCode × World :=
  w.changeTrans path (Volume.fremove bl)

/-- `ext4_dir_rm`. -/
def ext4DirRm (path : Str) (w : World) : ErrorCode × World := w.change path (Volume.dirRm bl)

/-- `ext4_dir_mk`. -/
def ext4DirMk (path : Str) (w : World) : ErrorCode × World :=
  w.changeTrans path (Volume.dirMk bl)

/-- `ext4_mode_set`. -/
def ext4ModeSet (path : Str) (mode : Nat) (w : World) : ErrorCode × World :=
  w.changeTrans path (Volume.setInode bl fun n => { n with mode := mode % 0x1000 })

/-- `ext4_atime_set`. -/
def ext4AtimeSet (path : Str) (atime : Nat) (w : World) : ErrorCode × World :=
  w.changeTrans path (Volume.setInode bl fun n => { n with atime })

/-- `ext4_mtime_set`. -/
def ext4MtimeSet (path : Str) (mtime : Nat) (w : World) : ErrorCode × World :=
  w.changeTrans path (Volume.setInode bl fun n => { n with mtime })

/-- `ext4_fsymlink`. -/
def ext4Fsymlink (target path : Str) (w : World) : ErrorCode × World :=
  w.changeTrans path (Volume.fsymlink bl target)

/-- `ext4_flink`. -/
def ext4Flink (path hardlinkPath : Str) (w : World) : ErrorCode × World :=
  match w.writable path with
  | .error e => (e, w)
  | .ok i =>
    if w.getMount hardlinkPath ≠ some i then (EINVAL, w)
    else
      let (e, v) := trans (w.volume i)
        (Volume.flink bl (w.names path i) (w.names hardlinkPath i) (w.volume i))
      (e, w.setVolume i v)

/-- The second half of `ext4_frename`, which runs on the volume the old path is on. -/
def removeOrig (found : Volume.Found) (newParent : Ino) (v : Volume) : Except ErrorCode Volume :=
  match Volume.resetParent bl found.inode newParent v with
  | .error e => .error e
  | .ok v =>
    match v.removeEntry found.parent found.name with
    | .error e => .error e
    | .ok v => .ok (if v.IsDir found.inode then v.linksDec found.parent else v)

/-- `ext4_frename`. Whether the mount point may be written to is asked for the old path only, and
an abort takes back what happened on its volume. -/
def ext4Frename (path newPath : Str) (w : World) : ErrorCode × World :=
  match w.writable path with
  | .error e => (e, w)
  | .ok i =>
    match Volume.find bl none (w.names path i) (w.volume i) with
    | .error e => (e, w)
    | .ok found =>
      match w.getMount newPath with
      | none => (ENOENT, w)
      | some j =>
        match Volume.hardlinkLoop (w.names newPath j) rootIndex (w.volume j) with
        | .error e => (e, w)
        | .ok (d, name) =>
          match Volume.linkRenamed bl d found.inode ((w.volume i).IsDir found.inode) name
              (w.volume j) with
          | .error e => (e, w)
          | .ok v =>
            let linked := w.setVolume j v
            match removeOrig bl found d (linked.volume i) with
            | .error e => (e, if i = j then w else linked)
            | .ok v => (0, linked.setVolume i v)

/-- `ext4_cache_flush` and the other functions that only ask for the mount point. -/
def present (path : Str) (w : World) : ErrorCode :=
  if w.getMount path = none then ENOENT else 0

/-! ### Functions on open files -/

/-- The slot of an open file. Behind a slot that is not mounted the block device is closed. -/
def slotOf (f : File) (w : World) : Option (Fin 4) :=
  f.mp.bind fun i => if (w.sMp i).mounted then some i else none

/-- `ext4_ftruncate`; the check of the access mode against `O_RDONLY`, which is `0`, is void. -/
def ext4Ftruncate (raw size : Nat) (w : World) : ErrorCode × World :=
  let f := w.files raw
  match w.slotOf f with
  | none => ( EIO, w)
  | some i =>
    if (w.sMp i).readOnly then (EROFS, w)
    else
      let fsize := ((w.volume i).inodes f.inode).data.length
      if fsize ≤ size then (0, { w with files := Function.update w.files raw { f with fsize } })
      else
        (0, { w.setVolume i ((w.volume i).truncInode f.inode size) with
          files := Function.update w.files raw
            { f with fsize := size, fpos := min f.fpos size } })

/-- `ext4_fread`. -/
def ext4Fread (raw len : Nat) (w : World) : (Except ErrorCode Nat × List UInt8) × World :=
  let f := w.files raw
  if wronly f.flags then ((.error EPERM, []), w)
  else if len = 0 then ((.ok 0, []), w)
  else
    match w.slotOf f with
    | none => ((.error EIO, []), w)
    | some i =>
      let data := (w.volume i).fread bl f.inode f.fpos len
      ((.ok data.length, data),
        { w with
          files := Function.update w.files raw { f with
            fsize := ((w.volume i).inodes f.inode).data.length
            fpos := f.fpos + data.length } })

/-- `ext4_fwrite`; running out of space shows in the number of bytes written only. -/
def ext4Fwrite (raw : Nat) (data : List UInt8) (w : World) : Except ErrorCode Nat × World :=
  let f := w.files raw
  match w.slotOf f with
  | none => (.error EIO, w)
  | some i =>
    if (w.sMp i).readOnly then (.error EROFS, w)
    else if rdonly f.flags then (.error EPERM, w)
    else if data = [] then (.ok 0, w)
    else
      let (n, v) := (w.volume i).fwrite bl f.inode f.fpos data
      (.ok n,
        { w.setVolume i v with
          files := Function.update w.files raw { f with
            fsize := max ((w.volume i).inodes f.inode).data.length (f.fpos + n)
            fpos := f.fpos + n } })

/-- The position of an open file is not behind the end of the file. -/
def Inside (w : World) (raw : Nat) : Prop :=
  ∀ i, (w.files raw).mp = some i →
    (w.files raw).fpos ≤ ((w.volume i).inodes (w.files raw).inode).data.length

instance (w : World) (raw : Nat) : Decidable (w.Inside raw) :=
  inferInstanceAs (Decidable (∀ _, _))

/-- The position of an open file is not behind the size, of 64 bits, that the file last was seen to
have. -/
def SeenInside (w : World) (raw : Nat) : Prop :=
  (w.files raw).fpos ≤ (w.files raw).fsize ∧ (w.files raw).fsize < 2 ^ 64

/-- `ext4_fseek`, which goes by the size the file last was seen to have. -/
def ext4Fseek (raw : Nat) (offset : Int) (origin : Int) (w : World) : ErrorCode × World :=
  let f := w.files raw
  let seek (pos : Int) (ok : Bool) : ErrorCode × World :=
    if ok then (0, { w with files := Function.update w.files raw { f with fpos := pos.toNat } })
    else (EINVAL, w)
  if origin = 0 then seek offset (0 ≤ offset ∧ offset ≤ f.fsize)
  else if origin = 1 then
    -- `file->fsize - file->fpos` is unsigned, and so is the new position
    seek ((f.fpos + offset) % 2 ^ 64)
      ((offset < 0 → -offset ≤ f.fpos) ∧ (0 < offset → offset ≤ ((f.fsize : Int) - f.fpos) % 2 ^ 64))
  else if origin = 2 then seek (f.fsize + offset) (offset ≤ 0 ∧ 0 ≤ f.fsize + offset)
  else (EINVAL, w)

/-- `ext4_fclose`. -/
def ext4Fclose (raw : Nat) (w : World) : World :=
  { w with files := Function.update w.files raw {} }

/-- `ext4_dir_entry_next`. -/
def ext4DirEntryNext (raw : Nat) (w : World) : Option (Str × Ino × FileType) × World :=
  let d := w.dirs raw
  match w.slotOf { mp := d.mp }, d.next with
  | some i, some pos =>
    let entries := ((w.volume i).inodes d.inode).entries.entries
    match entries[pos]? with
    | none => (none, w)
    | some e =>
      (some (e.1, e.2, ((w.volume i).inodes e.2).type),
        { w with
          dirs := Function.update w.dirs raw
            { d with next := if pos + 1 < entries.length then some (pos + 1) else none } })
  | _, _ => (none, w)

end World
end Lwext4
end Evfs
