import Evfs.Fstypes.FilesystemLwext4
import Evfs.Lib.Prog

/-!
# The methods as programs

Port of the methods of `lib/fstypes/filesystem_lwext4.cpp` that take a path, once more: each as the
sequence of the functions of lwext4 that it calls, with every path argument beside the string that is
handed down for it. The other methods hand down no path but the root, and are one step each. A program
does what the method does (`run_method`), and its trace is what the method hands to lwext4.
-/

namespace Evfs
namespace Lwext4
open Lib

/-- A path that a method is given, and the string that it hands down for it. -/
structure PathArg where
  path : Str
  native : Str
  deriving DecidableEq

/-- `path.c_str()`. -/
def PathArg.cStr (path : Str) : PathArg := ⟨path, path⟩

/-- `to_native_path(root, path).c_str()`. -/
def PathArg.toNative (root path : Str) : PathArg := ⟨path, toNativePath root path⟩

/-- The functions of lwext4 that the methods call, and `get_posix_time`. -/
inductive Ext4Fn where
  | fopen2 (path : PathArg) (flags : Flags)
  | fclose (raw : Nat)
  | atimeSet (path : PathArg) (atime : Nat)
  | mtimeSet (path : PathArg) (mtime : Nat)
  | modeSet (path : PathArg) (mode : Nat)
  | rawInodeFill (path : PathArg)
  | getSblock (mountPoint : Str)
  | inodeExist (path : PathArg) (type : FileType)
  | flink (path hardlinkPath : PathArg)
  | fsymlink (target : Str) (path : PathArg)
  | fremove (path : PathArg)
  | dirRm (path : PathArg)
  | dirMk (path : PathArg)
  | frename (path newPath : PathArg)
  | dirOpen (path : PathArg)
  | getPosixTime
  /-- A method that hands down no path. -/
  | other (c : Call)

namespace Ext4Fn

/-- What a function returns. A handle that is filled in is given by its number. -/
abbrev Res : Ext4Fn → Type
  | fopen2 _ _ => Except ErrorCode Nat
  | fclose _ => Unit
  | rawInodeFill _ => Except ErrorCode (Ino × Inode)
  | inodeExist _ _ => Bool
  | dirOpen _ => Except ErrorCode Nat
  | getPosixTime => Nat
  | other c => c.Ret
  | _ => ErrorCode

/-- The paths that are resolved. -/
def args : Ext4Fn → List PathArg
  | fopen2 path _ => [path]
  | atimeSet path _ => [path]
  | mtimeSet path _ => [path]
  | modeSet path _ => [path]
  | rawInodeFill path => [path]
  | inodeExist path _ => [path]
  | flink path hardlinkPath => [path, hardlinkPath]
  | fsymlink _ path => [path]
  | fremove path => [path]
  | dirRm path => [path]
  | dirMk path => [path]
  | frename path newPath => [path, newPath]
  | dirOpen path => [path]
  | _ => []

end Ext4Fn

namespace FilesystemLwext4
variable (bl : BlockLayer) (fs : FsId) (o : Object)

/-- A function, on the strings it is handed. -/
def eval : (f : Ext4Fn) → World → Except Empty (f.Res × World)
  | .fopen2 path flags, w =>
    match w.ext4Fopen2 bl path.native flags with
    | (.error e, w) => .ok (.error e, w)
    | (.ok f, w) =>
      .ok (.ok w.nextRaw,
        { w with files := Function.update w.files w.nextRaw f, nextRaw := w.nextRaw + 1 })
  | .fclose raw, w => .ok ((), w.ext4Fclose raw)
  | .atimeSet path atime, w => .ok (w.ext4AtimeSet bl path.native atime)
  | .mtimeSet path mtime, w => .ok (w.ext4MtimeSet bl path.native mtime)
  | .modeSet path mode, w => .ok (w.ext4ModeSet bl path.native mode)
  | .rawInodeFill path, w =>
    .ok ((w.lookup bl none path.native).map fun (i, f) => (f.inode, (w.volume i).inodes f.inode), w)
  | .getSblock mountPoint, w => .ok (w.present mountPoint, w)
  | .inodeExist path type, w =>
    .ok (match w.lookup bl (some type) path.native with | .ok _ => true | .error _ => false, w)
  | .flink path hardlinkPath, w => .ok (w.ext4Flink bl path.native hardlinkPath.native)
  | .fsymlink target path, w => .ok (w.ext4Fsymlink bl target path.native)
  | .fremove path, w => .ok (w.ext4Fremove bl path.native)
  | .dirRm path, w => .ok (w.ext4DirRm bl path.native)
  | .dirMk path, w => .ok (w.ext4DirMk bl path.native)
  | .frename path newPath, w => .ok (w.ext4Frename bl path.native newPath.native)
  | .dirOpen path, w =>
    match w.lookup bl (some .dir) path.native with
    | .error e => .ok (.error e, w)
    | .ok (i, f) =>
      .ok (.ok w.nextRaw,
        { w with
          dirs := Function.update w.dirs w.nextRaw ⟨some i, f.inode, some 0⟩
          nextRaw := w.nextRaw + 1 })
  | .getPosixTime, w => .ok w.tick
  | .other c, w => .ok (call bl fs o c w)

/-- The code of a method. -/
abbrev Code (α : Type) := Prog Ext4Fn Ext4Fn.Res α

def perform (f : Ext4Fn) : Code f.Res := Prog.perform f

namespace Method

/-- `filesystem_lwext4::open`. -/
def «open» (abspath : Str) (flags : Flags) : Code (Except ErrorCode FileHandle) := do
  match ← (perform (.fopen2 (.cStr abspath) flags) : Code (Except ErrorCode Nat)) with
  | .error e => return .error e
  | .ok raw =>
    let now ← perform .getPosixTime
    let _ ← perform (.atimeSet (.cStr abspath) now)
    return .ok ⟨fs, o.root, abspath, raw⟩

/-- `filesystem_lwext4::close`. -/
def close (h : FileHandle) : Code ErrorCode := do
  let _ ← perform (.fclose h.raw)
  let now ← perform .getPosixTime
  perform (.mtimeSet (.cStr h.abspath) now)

/-- `filesystem_lwext4::_stat`. -/
def stat (path : Str) : Code (ErrorCode × Option Stat) := do
  match ← (perform (.rawInodeFill (.toNative o.root path)) : Code (Except ErrorCode (Ino × Inode))) with
  | .error e => return (e, none)
  | .ok (ino, inode) =>
    let e ← (perform (.getSblock (toNativeRoot o.root)) : Code ErrorCode)
    return if e ≠ 0 then (e, none) else (0, some (fillStat ino inode))

/-- `filesystem_lwext4::unlink`. -/
def unlink (name : Str) : Code ErrorCode := do
  match ← (perform (.inodeExist (.cStr name) .dir) : Code Bool) with
  | true => perform (.dirRm (.cStr name))
  | false => perform (.fremove (.cStr name))

/-- `filesystem_lwext4::chmod`, and `fchmod`. -/
def chmod (path : Str) (mode : Nat) : Code ErrorCode := do
  let e ← (perform (.modeSet (.cStr path) mode) : Code ErrorCode)
  if e ≠ 0 then return e
  else
    let now ← perform .getPosixTime
    let _ ← perform (.mtimeSet (.cStr path) now)
    return 0

/-- `filesystem_lwext4::diropen`. -/
def diropen (path : Str) : Code (Except ErrorCode DirectoryHandle) := do
  let r ← (perform (.dirOpen (.toNative o.root path)) : Code (Except ErrorCode Nat))
  return r.map fun raw => ⟨fs, o.root, raw⟩

end Method

/-- A method. -/
def method : (c : Call) → Code c.Ret
  | .open abspath flags _ => Method.open fs o abspath flags
  | .file .close h => Method.close h
  | .file .fstat h => Method.stat o h.abspath
  | .file (.fchmod mode) h => Method.chmod h.abspath mode
  | .path .stat path => Method.stat o path
  | .path (.link newlink) path => perform (.flink (.cStr path) (.cStr newlink))
  | .path (.symlink newlink) path => perform (.fsymlink path (.cStr newlink))
  | .path .unlink path => Method.unlink path
  | .path .rmdir path => perform (.dirRm (.cStr path))
  | .path (.mkdir _) path => perform (.dirMk (.cStr path))
  | .path (.chmod mode) path => Method.chmod path mode
  | .rename oldname newname => perform (.frename (.cStr oldname) (.cStr newname))
  | .diropen path => Method.diropen fs o path
  | c => perform (.other c)

variable {bl fs o} {w : World}

/-- One function. -/
lemma run_perform (f : Ext4Fn) : (perform f).run (eval bl fs o) w = eval bl fs o f w :=
  Prog.run_perform _

/-- A function, and then the rest. -/
lemma run_then {α : Type} {f : Ext4Fn} {r : f.Res} {w' : World} {k : f.Res → Code α}
    (h : eval bl fs o f w = .ok (r, w')) :
    (perform f >>= k).run (eval bl fs o) w = (k r).run (eval bl fs o) w' :=
  Prog.run_bind_ok _ ((run_perform f).trans h)

/-- `open`, by its calls. -/
lemma run_open {abspath : Str} {flags : Flags} :
    (Method.open fs o abspath flags).run (eval bl fs o) w =
      .ok (FilesystemLwext4.open bl fs o abspath flags w) := by
  rcases hf : w.ext4Fopen2 bl abspath flags with ⟨r, w'⟩
  cases r with
  | error e =>
    have h : eval bl fs o (.fopen2 (.cStr abspath) flags) w = .ok (.error e, w') := by
      simp only [eval, PathArg.cStr, hf]
    refine (run_then h).trans ?_
    simp only [FilesystemLwext4.open, hf]
    rfl
  | ok f =>
    have h : eval bl fs o (.fopen2 (.cStr abspath) flags) w = .ok (.ok w'.nextRaw,
        { w' with files := Function.update w'.files w'.nextRaw f, nextRaw := w'.nextRaw + 1 }) := by
      simp only [eval, PathArg.cStr, hf]
    refine (run_then h).trans ?_
    simp only [FilesystemLwext4.open, hf]
    rfl

/-- `close`, by its calls. -/
lemma run_close {h : FileHandle} :
    (Method.close h).run (eval bl fs o) w = .ok (close bl h w) := rfl

/-- `stat`, by its calls. -/
lemma run_stat {path : Str} :
    (Method.stat o path).run (eval bl fs o) w = .ok (stat bl o path w, w) := by
  cases hl : w.lookup bl none (toNativePath o.root path) with
  | error e =>
    have h : eval bl fs o (.rawInodeFill (.toNative o.root path)) w = .ok (.error e, w) := by
      simp only [eval, PathArg.toNative, hl]
      rfl
    refine (run_then h).trans ?_
    simp only [stat, hl]
    rfl
  | ok r =>
    obtain ⟨i, f⟩ := r
    have h : eval bl fs o (.rawInodeFill (.toNative o.root path)) w =
        .ok (.ok (f.inode, (w.volume i).inodes f.inode), w) := by
      simp only [eval, PathArg.toNative, hl]
      rfl
    refine (run_then h).trans ?_
    refine (run_then (f := .getSblock (toNativeRoot o.root)) rfl).trans ?_
    simp only [stat, hl]
    rfl

/-- `unlink`, by its calls. -/
lemma run_unlink {name : Str} :
    (Method.unlink name).run (eval bl fs o) w = .ok (unlink bl name w) := by
  cases hl : w.lookup bl (some .dir) name with
  | error e =>
    have h : eval bl fs o (.inodeExist (.cStr name) .dir) w = .ok (false, w) := by
      simp only [eval, PathArg.cStr, hl]
    refine (run_then h).trans ?_
    simp only [unlink, hl]
    exact run_perform _
  | ok r =>
    have h : eval bl fs o (.inodeExist (.cStr name) .dir) w = .ok (true, w) := by
      simp only [eval, PathArg.cStr, hl]
    refine (run_then h).trans ?_
    simp only [unlink, hl]
    exact run_perform _

/-- `chmod`, by its calls. -/
lemma run_chmod {path : Str} {mode : Nat} :
    (Method.chmod path mode).run (eval bl fs o) w = .ok (chmod bl path mode w) := by
  rcases hm : w.ext4ModeSet bl path mode with ⟨e, w'⟩
  have h : eval bl fs o (.modeSet (.cStr path) mode) w = .ok (e, w') := by
    simp only [eval, PathArg.cStr, hm]
  refine (run_then h).trans ?_
  simp only [chmod, hm]
  split
  · rfl
  · rfl

/-- `diropen`, by its calls. -/
lemma run_diropen {path : Str} :
    (Method.diropen fs o path).run (eval bl fs o) w = .ok (diropen bl fs o path w) := by
  cases hl : w.lookup bl (some .dir) (toNativePath o.root path) with
  | error e =>
    have h : eval bl fs o (.dirOpen (.toNative o.root path)) w = .ok (.error e, w) := by
      simp only [eval, PathArg.toNative, hl]
    refine (run_then h).trans ?_
    simp only [diropen, hl]
    rfl
  | ok r =>
    obtain ⟨i, f⟩ := r
    have h : eval bl fs o (.dirOpen (.toNative o.root path)) w = .ok (.ok w.nextRaw,
        { w with
          dirs := Function.update w.dirs w.nextRaw ⟨some i, f.inode, some 0⟩
          nextRaw := w.nextRaw + 1 }) := by
      simp only [eval, PathArg.toNative, hl]
    refine (run_then h).trans ?_
    simp only [diropen, hl]
    rfl

/-- The program does what the method does. -/
theorem run_method {c : Call} : (method fs o c).run (eval bl fs o) w = .ok (call bl fs o c w) := by
  cases c with
  | «open» abspath flags mode => exact run_open
  | file op h =>
    cases op with
    | close => exact run_close
    | fstat => exact run_stat
    | fchmod mode => exact run_chmod
    | _ => exact run_perform _
  | path op path =>
    cases op with
    | stat => exact run_stat
    | unlink => exact run_unlink
    | chmod mode => exact run_chmod
    | _ => exact run_perform _
  | rename oldname newname => exact run_perform _
  | diropen path => exact run_diropen
  | _ => exact run_perform _

end FilesystemLwext4
end Lwext4
end Evfs
