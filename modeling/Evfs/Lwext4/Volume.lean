import Evfs.Common.Path
import Evfs.Lib.UnorderedMap
import Mathlib.Logic.Function.Basic

/-!
# An ext4 volume

Port of the part of `lib/third-party/lwext4` that works on one volume: the inodes and directories of
`ext4_fs.c` and `ext4_dir.c`, and what the functions of `ext4.c` do once the mount point is found.
A volume is its inode table and inode bitmap; an inode number of a directory entry may be that of a
free inode, as on a disk. `BlockLayer` is what block and inode allocation decide: the inode number
taken next, whether a directory has room for another entry and how much of a write fits.

A function that runs in a transaction returns `Except`: an error aborts the transaction and leaves
the volume as it was. Reading and writing blocks is taken to succeed, and the directory index, which
speeds up searching, is left out.
-/

namespace Evfs
namespace Lwext4
open Lib

abbrev ENOTEMPTY : ErrorCode := 39

abbrev Ino := Nat

/-- `EXT4_DE_*`; `EXT4_DE_UNKNOWN` is `none` where a type may be left open. -/
inductive FileType where
  | regFile
  | dir
  | chrdev
  | blkdev
  | fifo
  | sock
  | symlink
  deriving DecidableEq

/-- `struct ext4_inode`, with what its blocks hold: `data` for files and symbolic links, `entries`,
`.` and `..` included, for directories. -/
structure Inode where
  type : FileType := .regFile
  mode : Nat := 0
  links : Nat := 0
  atime : Nat := 0
  mtime : Nat := 0
  data : List UInt8 := []
  entries : UnorderedMap Str Ino := ∅

structure Volume where
  inodes : Ino → Inode
  /-- The inode bitmap. -/
  used : Ino → Bool
  inodesCount : Nat
  blockSize : Nat := 4096
  /-- `EXT4_FCOM_HAS_JOURNAL`. -/
  hasJournal : Bool := true
  /-- `ext4_sb_check` and `ext4_fs_check_features` accept the superblock. -/
  valid : Bool := true
  /-- The features of the volume allow reading only. -/
  roFeatures : Bool := false
  label : Str := []

/-- `EXT4_INODE_ROOT_INDEX`. -/
def rootIndex : Ino := 2

/-- What block and inode allocation decide. -/
structure BlockLayer where
  /-- `ext4_ialloc_alloc_inode`. -/
  inode : Volume → Bool → Option Ino
  inode_free : ∀ {v d i}, inode v d = some i → v.used i = false
  /-- Has a directory room for one more entry? -/
  entry : Volume → Ino → Str → Bool
  /-- Where a listing of the directory has a new entry: the first gap that is large enough, or a block
  of its own at the end. -/
  slot : Volume → Ino → Str → Nat
  /-- How many bytes of a write at a position can be stored. -/
  room : Volume → Ino → Nat → Nat → Nat
  /-- What a write at a position behind the end of a file leaves of the volume. The block at such a
  position is that of a hole, or block 0 of the volume where the file is empty. -/
  beyond : Volume → Ino → Nat → List UInt8 → Volume
  /-- What a read at a position behind the end of a file gives. -/
  stale : Volume → Ino → Nat → Nat → List UInt8
  /-- The block and inode counts of the superblock. -/
  counts : Volume → Nat × Nat

namespace Volume

def modify (v : Volume) (i : Ino) (f : Inode → Inode) : Volume :=
  { v with inodes := Function.update v.inodes i (f (v.inodes i)) }

def IsDir (v : Volume) (i : Ino) : Prop := (v.inodes i).type = .dir

instance (v : Volume) (i : Ino) : Decidable (v.IsDir i) :=
  inferInstanceAs (Decidable (_ = FileType.dir))

/-- `ext4_dir_find_entry`. -/
def findEntry (v : Volume) (d : Ino) (name : Str) : Option Ino := (v.inodes d).entries.lookup name

/-- `ext4_dir_add_entry`; the entry of a name that is there is changed where it is. -/
def addEntry (bl : BlockLayer) (v : Volume) (d : Ino) (name : Str) (c : Ino) : Volume :=
  v.modify d fun n => { n with entries := n.entries.insertAt (bl.slot v d name) name c }

/-- `ext4_dir_remove_entry`. -/
def removeEntry (v : Volume) (d : Ino) (name : Str) : Except ErrorCode Volume :=
  if name ∈ (v.inodes d).entries then
    .ok (v.modify d fun n => { n with entries := n.entries.erase name })
  else .error ENOENT

/-- `ext4_fs_inode_links_count_inc`; the count has 16 bits. -/
def linksInc (v : Volume) (i : Ino) : Volume :=
  v.modify i fun n => { n with links := (n.links + 1) % 2 ^ 16 }

/-- `ext4_fs_inode_links_count_dec`. -/
def linksDec (v : Volume) (i : Ino) : Volume :=
  v.modify i fun n =>
    { n with links := if n.type = .dir ∧ n.links ≤ 2 then n.links else n.links - 1 }

/-- The entries of a directory but `.` and `..`. -/
def children (v : Volume) (d : Ino) : List (Σ _ : Str, Ino) :=
  (v.inodes d).entries.entries.filter fun e => e.1 ≠ Path.dot ∧ e.1 ≠ Path.dotDot

/-- `ext4_has_children`. -/
def hasChildren (v : Volume) (i : Ino) : Bool := v.IsDir i ∧ v.children i ≠ []

/-- `ext4_trunc_inode`, which can only make a file shorter. -/
def truncInode (v : Volume) (i : Ino) (size : Nat) : Volume :=
  v.modify i fun n => { n with data := n.data.take size }

/-- `ext4_trunc_dir`. -/
def truncDir (v : Volume) (i : Ino) : Volume := v.modify i fun n => { n with entries := ∅ }

/-- `ext4_fs_free_inode`. -/
def freeInode (v : Volume) (i : Ino) : Volume := { v with used := Function.update v.used i false }

/-- The permissions `ext4_fs_alloc_inode` gives to a new inode. -/
def defaultMode : FileType → Nat
  | .dir => 0o777
  | .symlink => 0o777
  | _ => 0o666

variable (bl : BlockLayer)

/-- `ext4_fs_alloc_inode`. -/
def allocInode (type : FileType) (v : Volume) : Except ErrorCode (Ino × Volume) :=
  match bl.inode v (type = .dir) with
  | none => .error ENOSPC
  | some i =>
    .ok (i, { v with
      used := Function.update v.used i true
      inodes := Function.update v.inodes i { type, mode := defaultMode type } })

/-- `ext4_link` without `rename`: a new entry of a directory, which for a new directory is also
its `..`. -/
def link (parent child : Ino) (name : Str) (v : Volume) : Except ErrorCode Volume :=
  if bl.entry v parent name then
    if v.IsDir child then
      if bl.entry v child Path.dot then
        .ok ((((v.addEntry bl parent name child).addEntry bl child Path.dot child).addEntry bl child
          Path.dotDot parent).modify child (fun n => { n with links := 2 }) |>.linksInc parent)
      else .error ENOSPC
    else .ok ((v.addEntry bl parent name child).linksInc child)
  else .error ENOSPC

/-- `ext4_link` with `rename`, as far as it works on the directory that gets the entry. -/
def linkRenamed (parent child : Ino) (isDir : Bool) (name : Str) (v : Volume) :
    Except ErrorCode Volume :=
  if bl.entry v parent name then
    let v := v.addEntry bl parent name child
    .ok (if isDir then v.linksInc parent else v)
  else .error ENOSPC

/-- The rest of `ext4_link` with `rename`: the `..` of a directory that was moved. -/
def resetParent (child parent : Ino) (v : Volume) : Except ErrorCode Volume :=
  if v.IsDir child then
    if Path.dotDot ∈ (v.inodes child).entries then .ok (v.addEntry bl child Path.dotDot parent)
    else .error EIO
  else .ok v

/-- `ext4_unlink`. -/
def unlink (parent child : Ino) (name : Str) (v : Volume) : Except ErrorCode Volume :=
  if v.hasChildren child then .error ENOTEMPTY
  else
    match v.removeEntry parent name with
    | .error e => .error e
    | .ok v => .ok ((if v.IsDir child then v.linksDec parent else v).linksDec child)

/-! ### Paths -/

/-- What `ext4_generic_open2` finds: the inode, the directory its entry is in and the last name. -/
structure Found where
  inode : Ino
  parent : Ino
  name : Str
  deriving DecidableEq

/-- `ext4_path_check` finds a name: not an empty one, nor one of 255 characters and more. -/
def NameOk (name : Str) : Prop := name ≠ [] ∧ name.length < 255

instance (name : Str) : Decidable (NameOk name) := inferInstanceAs (Decidable (_ ∧ _))

/-- The entry of a name, which `O_CREAT` makes where there is none. -/
def enter (creat : Bool) (type : FileType) (name : Str) (ref : Ino) (v : Volume) :
    Except ErrorCode (Ino × Volume) :=
  match v.findEntry ref name with
  | some child => .ok (child, v)
  | none =>
    if creat then
      match allocInode bl type v with
      | .error e => .error e
      | .ok (child, v) =>
        match link bl ref child name v with
        | .error e => .error e
        | .ok v => .ok (child, v)
    else .error ENOENT

/-- The loop of `ext4_generic_open2`, from the directory `ref` on, the entry of which was found in
`parent`. -/
def openLoop (creat : Bool) (ftype : Option FileType) :
    List Str → Ino → Ino → Volume → Except ErrorCode (Found × Volume)
  | [], _, _, _ => .error ENOENT
  | [name], ref, parent, v =>
    if NameOk name then
      match enter bl creat (ftype.getD .regFile) name ref v with
      | .error e => .error e
      | .ok (child, v) =>
        if ftype.getD (v.inodes child).type = (v.inodes child).type then
          .ok (⟨child, ref, name⟩, v)
        else .error ENOENT
    else if name = [] ∧ ftype.getD .dir = .dir then .ok (⟨ref, parent, name⟩, v)
    else .error ENOENT
  | name :: next :: names, ref, _, v =>
    if NameOk name then
      match enter bl creat .dir name ref v with
      | .error e => .error e
      | .ok (child, v) =>
        if v.IsDir child then openLoop creat ftype (next :: names) child ref v else .error ENOENT
    else .error ENOENT

/-- `ext4_generic_open2`, without the checks of the mount point and without `O_TRUNC`. -/
def genericOpen (creat : Bool) (ftype : Option FileType) (names : List Str) (v : Volume) :
    Except ErrorCode (Found × Volume) :=
  openLoop bl creat ftype names rootIndex rootIndex v

/-- The path leads to an inode of the type. -/
def find (ftype : Option FileType) (names : List Str) (v : Volume) : Except ErrorCode Found :=
  (genericOpen bl false ftype names v).map Prod.fst

/-- The loop of `ext4_create_hardlink` down to the directory that gets the entry, and the name. -/
def hardlinkLoop : List Str → Ino → Volume → Except ErrorCode (Ino × Str)
  | [], _, _ => .error ENOENT
  | [name], ref, v =>
    if NameOk name then
      match v.findEntry ref name with
      | some _ => .error EEXIST
      | none => .ok (ref, name)
    else if name = [] then .error EINVAL
    else .error ENOENT
  | name :: next :: names, ref, v =>
    if NameOk name then
      match v.findEntry ref name with
      | some child => if v.IsDir child then hardlinkLoop (next :: names) child v else .error ENOENT
      | none => .error ENOENT
    else .error ENOENT

/-! ### Operations -/

/-- `ext4_fopen2` on a volume. -/
def fopen2 (creat trunc : Bool) (names : List Str) (v : Volume) : Except ErrorCode (Ino × Volume) :=
  match genericOpen bl creat (some .regFile) names v with
  | .error e => .error e
  | .ok (f, v) => .ok (f.inode, if trunc then v.truncInode f.inode 0 else v)

/-- The functions that change a field of the inode a path leads to (`ext4_mode_set` and the
like). -/
def setInode (f : Inode → Inode) (names : List Str) (v : Volume) : Except ErrorCode Volume :=
  match find bl none names v with
  | .error e => .error e
  | .ok found => .ok (v.modify found.inode f)

/-- `ext4_fremove`. -/
def fremove (names : List Str) (v : Volume) : Except ErrorCode Volume :=
  match find bl none names v with
  | .error e => .error e
  | .ok ⟨child, parent, name⟩ =>
    if v.IsDir child then .ok v
    else
      match unlink parent child name
        (if (v.inodes child).links = 1 then v.truncInode child 0 else v) with
      | .error e => .error e
      | .ok v => .ok (if (v.inodes child).links = 0 then v.freeInode child else v)

/-- One child of a directory that is being emptied. -/
def removeChild (d : Ino) (e : Σ _ : Str, Ino) (v : Volume) : Volume :=
  match unlink d e.2 e.1 (if v.IsDir e.2 then v.truncDir e.2 else v.truncInode e.2 0) with
  | .error _ => v
  | .ok v => (v.modify e.2 fun n => { n with links := 0 }).freeInode e.2

/-- The loop of `ext4_dir_rm`: everything below a directory is removed, deepest first. The fuel is
the depth, which the number of inodes bounds. -/
def emptyDir : Nat → Ino → Volume → Volume
  | 0, _, v => v
  | fuel + 1, d, v =>
    (v.children d).foldl
      (fun v e => removeChild d e (if v.IsDir e.2 then emptyDir fuel e.2 v else v)) v

/-- `ext4_dir_rm`. Each removal is a transaction of its own, and a directory named with a trailing
separator is emptied before its own entry is not found. -/
def dirRm (names : List Str) (v : Volume) : ErrorCode × Volume :=
  match find bl (some .dir) names v with
  | .error e => (e, v)
  | .ok ⟨d, parent, name⟩ =>
    let up := (v.findEntry d Path.dotDot).getD parent
    let v := emptyDir v.inodesCount d v
    match unlink up d name v with
    | .error e => (e, v)
    | .ok v =>
      (0, if (v.inodes d).links = 2 then
        ((v.truncDir d).modify d fun n => { n with links := 0 }).freeInode d else v)

/-- `ext4_dir_mk`, which accepts a directory that is there. -/
def dirMk (names : List Str) (v : Volume) : Except ErrorCode Volume :=
  match find bl (some .dir) names v with
  | .ok _ => .ok v
  | .error _ => (genericOpen bl true (some .dir) names v).map Prod.snd

/-- `ext4_flink`, both paths being on the volume. -/
def flink (names newNames : List Str) (v : Volume) : Except ErrorCode Volume :=
  match find bl none names v with
  | .error e => .error e
  | .ok f =>
    if v.IsDir f.inode then .error EINVAL
    else
      match hardlinkLoop newNames rootIndex v with
      | .error e => .error e
      | .ok (d, name) => link bl d f.inode name v

/-- The bytes of a string. -/
def bytes (s : Str) : List UInt8 := s.map fun c => UInt8.ofNat c.toNat

/-- `ext4_fsymlink`, which replaces the target of a link that is there. -/
def fsymlink (target : Str) (names : List Str) (v : Volume) : Except ErrorCode Volume :=
  match genericOpen bl true (some .symlink) names v with
  | .error e => .error e
  | .ok (f, v) =>
    if target = [] then .ok v
    else if v.blockSize < target.length then .error EINVAL
    else if 60 ≤ target.length ∧ bl.room v f.inode 0 target.length < target.length then
      .error ENOSPC
    else .ok (v.modify f.inode fun n => { n with data := bytes target })

/-- What a file holds after a write. -/
def splice (data : List UInt8) (pos : Nat) (chunk : List UInt8) : List UInt8 :=
  data.take pos ++ chunk ++ data.drop (pos + chunk.length)

/-- `ext4_fwrite` on a volume: the number of bytes written. -/
def fwrite (i : Ino) (pos : Nat) (data : List UInt8) (v : Volume) : Nat × Volume :=
  let chunk := data.take (bl.room v i pos data.length)
  (chunk.length,
    if pos ≤ (v.inodes i).data.length then
      v.modify i fun n => { n with data := splice n.data pos chunk }
    else bl.beyond v i pos chunk)

/-- `ext4_fread` on a volume. -/
def fread (i : Ino) (pos len : Nat) (v : Volume) : List UInt8 :=
  let data := (v.inodes i).data
  if pos ≤ data.length then (data.drop pos).take len else bl.stale v i pos len

end Volume
end Lwext4
end Evfs
