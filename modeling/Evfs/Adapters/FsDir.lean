import Evfs.Adapters.Dirstream

/-!
# Directory iterators

Port of `adapters/fs_dir.cpp` and `adapters/dir-common.h`, the iterators of `<filesystem>` for the
functions of `dirent.h`. `Posix` is what they are built on: the directory streams, and of the
library of the compiler the status of a path and `remove`.

A `DIR` that is not null is a value here, since only its `_Dir` uses it. An iterator refers to a
directory or to a stack of them, which its copies share. Functions on what is shared say whether the
iterator they were called on still refers to it (`Left`); the functions named after the iterators are
those of an iterator without copies, which destroys what it gives up (`alone`). Functions that report
an error through an `error_code` return it; the overloads that throw do so exactly if it is not `0`.
Loops have fuel, and run out of it in `Halt.outOfFuel`.
-/

namespace Evfs

abbrev EISDIR : ErrorCode := 21

namespace FsDir

/-- How a function can end without returning. -/
inductive Halt where
  | fault (f : Fault)
  /-- `top` or `pop` of a `std::stack` with nothing on it, which is undefined. -/
  | emptyStack
  | outOfFuel
  deriving DecidableEq

/-- `std::filesystem::file_type`. -/
inductive FileType where
  | none
  | notFound
  | regular
  | directory
  | symlink
  | block
  | character
  | fifo
  | socket
  | unknown
  deriving DecidableEq

/-- `errno`, and the state of everything below. -/
structure Env (ω : Type) where
  errno : ErrorCode
  world : ω

/-- What the iterators are built on. -/
structure Posix (ω : Type) where
  DIR : Type
  opendir : Str → Env ω → Option DIR × Env ω
  readdir : DIR → Env ω → Except Fault (Option Dirent × DIR × Env ω)
  closedir : DIR → Env ω → Except Fault (Env ω)
  /-- `symlink_status` of a path, with its error. -/
  symlinkStatus : Str → Env ω → (FileType × ErrorCode) × Env ω
  status : Str → Env ω → (FileType × ErrorCode) × Env ω
  /-- `std::filesystem::remove`. -/
  remove : Str → Env ω → Except Fault ((Bool × ErrorCode) × Env ω)

/-- `directory_options`, the two of `fs_dir.cpp` included. -/
structure Options where
  skipPermissionDenied : Bool := false
  followDirectorySymlink : Bool := false
  nofollow : Bool := false
  filenameOnly : Bool := false
  deriving DecidableEq

/-- `directory_entry`. -/
structure Entry where
  path : Str := []
  type : FileType := .none
  deriving DecidableEq

/-- `path::operator/=`. -/
def append (p name : Str) : Str :=
  if name.head? = some '/' ∨ p = [] then name
  else if p.getLast? = some '/' then p ++ name
  else p ++ '/' :: name

/-- `is_dot_or_dotdot`. -/
def isDotOrDotdot (name : Str) : Bool := name = Path.dot ∨ name = Path.dotDot

/-- `get_file_type`. -/
def getFileType (d : Dirent) : FileType :=
  match d.type with
  | 0 => .unknown
  | 1 => .fifo
  | 2 => .character
  | 4 => .directory
  | 6 => .block
  | 8 => .regular
  | 10 => .symlink
  | 12 => .socket
  | _ => .none

/-- The type that `_Dir::advance` keeps with an entry. -/
def cachedType (d : Dirent) : FileType := if d.type ≠ 0 then getFileType d else .none

variable {ω : Type} (P : Posix ω)

/-! ### Directories -/

/-- `_Dir`, whose `dirp` is not null. -/
structure Dir where
  dirp : P.DIR
  path : Str
  entry : Entry := {}

namespace Dir

/-- The constructor of `_Dir_base`. -/
def openBase (pathname : Str) (skip : Bool) (env : Env ω) :
    (Option P.DIR × ErrorCode) × Env ω :=
  match P.opendir pathname env with
  | (some dirp, env) => ((some dirp, 0), env)
  | (none, env) =>
    if env.errno = EACCES ∧ skip then ((none, 0), env) else ((none, env.errno), env)

/-- The constructor of `_Dir` for a path. -/
def new (p : Str) (skip : Bool) (env : Env ω) : (Option (Dir P) × ErrorCode) × Env ω :=
  match openBase P p skip env with
  | ((dirp, ec), env) => ((dirp.map fun dirp => { dirp, path := p }, ec), env)

/-- `_Dir_base::advance`, which keeps `errno`. -/
def advanceBase (skip : Bool) :
    Nat → P.DIR → Env ω → Except Halt ((Option Dirent × ErrorCode) × P.DIR × Env ω)
  | 0, _, _ => .error .outOfFuel
  | n + 1, dirp, env =>
    match P.readdir dirp { env with errno := 0 } with
    | .error f => .error (.fault f)
    | .ok (entp, dirp, after) =>
      let env := { after with errno := env.errno }
      match entp with
      | some entp =>
        if isDotOrDotdot entp.name then advanceBase skip n dirp env
        else .ok ((some entp, 0), dirp, env)
      | none =>
        if after.errno ≠ 0 then
          if after.errno = EACCES ∧ skip then .ok ((none, 0), dirp, env)
          else .ok ((none, after.errno), dirp, env)
        else .ok ((none, 0), dirp, env)

variable {P}

/-- `_Dir::advance`. -/
def advance (skip : Bool) (n : Nat) (d : Dir P) (env : Env ω) :
    Except Halt ((Bool × ErrorCode) × Dir P × Env ω) :=
  match advanceBase P skip n d.dirp env with
  | .error h => .error h
  | .ok ((some entp, ec), dirp, env) =>
    .ok ((true, ec), { d with dirp, entry := ⟨append d.path entp.name, cachedType entp⟩ }, env)
  | .ok ((none, ec), dirp, env) =>
    if ec = 0 then .ok ((false, ec), { d with dirp, entry := {} }, env)
    else .ok ((false, ec), { d with dirp }, env)

/-- The end of `_Dir::should_recurse`, when the type is known. -/
def recurseByType (follow : Bool) (d : Dir P) (type : FileType) (env : Env ω) :
    (Bool × ErrorCode) × Env ω :=
  if type = .directory then ((true, 0), env)
  else if type = .symlink ∧ follow then
    match P.status d.entry.path env with
    | ((type, ec), env) => ((type = .directory, ec), env)
  else ((false, 0), env)

/-- `_Dir::should_recurse`. -/
def shouldRecurse (follow : Bool) (d : Dir P) (env : Env ω) : (Bool × ErrorCode) × Env ω :=
  if d.entry.type = .none then
    match P.symlinkStatus d.entry.path env with
    | ((type, ec), env) =>
      if ec ≠ 0 then ((false, ec), env) else d.recurseByType follow type env
  else d.recurseByType follow d.entry.type env

/-- `_Dir::open_subdir`. -/
def openSubdir (skip : Bool) (d : Dir P) (env : Env ω) : (Option (Dir P) × ErrorCode) × Env ω :=
  match openBase P d.entry.path skip env with
  | ((dirp, ec), env) =>
    ((dirp.map fun dirp => { dirp, path := if d.path = [] then d.path else d.entry.path }, ec), env)

/-- The destructors of directories, one after the other. -/
def destroyAll : List (Dir P) → Env ω → Except Halt (Env ω)
  | [], env => .ok env
  | d :: ds, env =>
    match P.closedir d.dirp env with
    | .error f => .error (.fault f)
    | .ok env => destroyAll ds env

/-- The destructor of a directory. -/
def destroy (d : Dir P) (env : Env ω) : Except Halt (Env ω) := destroyAll [d] env

end Dir

/-! ### What iterators refer to -/

/-- What a function on an iterator leaves of what it refers to: the iterator still does, or it has given
it up, with nothing on the stack in the case of `none`. -/
inductive Left (α : Type) where
  | keeps (a : α)
  | gives (a : Option α)

/-- What a function leaves of an iterator that has no copies: what it gives up is destroyed. -/
def alone {α β : Type} (destroy : α → Env ω → Except Halt (Env ω)) :
    Except Halt ((Left α × β) × Env ω) → Except Halt ((Option α × β) × Env ω)
  | .error h => .error h
  | .ok ((.keeps a, b), env) => .ok ((some a, b), env)
  | .ok ((.gives none, b), env) => .ok ((none, b), env)
  | .ok ((.gives (some a), b), env) => (destroy a env).map fun env => ((none, b), env)

/-! ### `directory_iterator` -/

/-- A `directory_iterator`, which is at the end when it is null. -/
abbrev DirectoryIterator := Option (Dir P)

/-- `increment` of an iterator that is not at its end, and `operator++` likewise. -/
def Dir.increment {P : Posix ω} (n : Nat) (dir : Dir P) (env : Env ω) :
    Except Halt ((Left (Dir P) × ErrorCode) × Env ω) :=
  match dir.advance false n env with
  | .error h => .error h
  | .ok ((true, ec), dir, env) => .ok ((.keeps dir, ec), env)
  | .ok ((false, ec), dir, env) => .ok ((.gives (some dir), ec), env)

namespace DirectoryIterator

/-- The constructor. -/
def new (n : Nat) (p : Str) (options : Options) (env : Env ω) :
    Except Halt ((DirectoryIterator P × ErrorCode) × Env ω) :=
  match Dir.new P p options.skipPermissionDenied env with
  | ((none, ec), env) => .ok ((none, ec), env)
  | ((some dir, _), env) =>
    match dir.advance options.skipPermissionDenied n env with
    | .error h => .error h
    | .ok ((true, ec), dir, env) => .ok ((some dir, ec), env)
    | .ok ((false, ec), dir, env) => (dir.destroy env).map fun env => ((none, ec), env)

variable {P}

/-- `increment`. -/
def increment (n : Nat) (it : DirectoryIterator P) (env : Env ω) :
    Except Halt ((DirectoryIterator P × ErrorCode) × Env ω) :=
  match it with
  | none => .ok ((none, EINVAL), env)
  | some dir => alone Dir.destroy (dir.increment n env)

end DirectoryIterator

/-! ### `recursive_directory_iterator` -/

/-- `_Dir_stack` with a directory on it. -/
structure DirStack where
  options : Options
  pending : Bool := true
  top : Dir P
  below : List (Dir P) := []
  orig : Str := []

/-- A `recursive_directory_iterator`. -/
abbrev RecursiveDirectoryIterator := Option (DirStack P)

namespace DirStack
variable {P}

/-- All directories, the top first. -/
def dirs (st : DirStack P) : List (Dir P) := st.top :: st.below

def push (dir : Dir P) (st : DirStack P) : DirStack P :=
  { st with top := dir, below := st.top :: st.below }

/-- `current_path`. -/
def currentPath (st : DirStack P) : Str :=
  if st.top.path = [] then st.dirs.reverse.foldl (fun p d => append p d.entry.path) st.orig
  else st.top.entry.path

/-- The destructor, which destroys the elements of the `deque` from its front on. -/
def destroy (st : DirStack P) (env : Env ω) : Except Halt (Env ω) :=
  Dir.destroyAll st.dirs.reverse env

/-- The loop of `increment` and `pop`: directories that are at their end are popped. -/
def advanceLoop (n : Nat) (st : DirStack P) :
    Dir P → List (Dir P) → Env ω → Except Halt ((Left (DirStack P) × ErrorCode) × Env ω)
  | top, below, env =>
    match top.advance st.options.skipPermissionDenied n env with
    | .error h => .error h
    | .ok ((true, ec), top, env) => .ok ((.keeps { st with top, below }, ec), env)
    | .ok ((false, ec), top, env) =>
      if ec ≠ 0 then .ok ((.gives (some { st with top, below }), ec), env)
      else
        match top.destroy env with
        | .error h => .error h
        | .ok env =>
          match below with
          | [] => .ok ((.gives none, ec), env)
          | top :: below => advanceLoop n st top below env

/-- The first part of `increment`: into the current entry. The stack is given up if that fails. -/
def recurse (st : DirStack P) (env : Env ω) : (Left (DirStack P) × ErrorCode) × Env ω :=
  let st' := { st with pending := true }
  if st.pending then
    match st.top.shouldRecurse st.options.followDirectorySymlink env with
    | ((false, _), env) => ((.keeps st', 0), env)
    | ((true, _), env) =>
      match st.top.openSubdir st.options.skipPermissionDenied env with
      | ((some dir, _), env) => ((.keeps (st'.push dir), 0), env)
      | ((none, ec), env) =>
        if ec ≠ 0 then ((.gives (some st'), ec), env) else ((.keeps st', 0), env)
  else ((.keeps st', 0), env)

/-- `increment` of an iterator that is not at its end, and `operator++` likewise. What `should_recurse`
reported is lost, since `advance` clears the error. -/
def increment (n : Nat) (st : DirStack P) (env : Env ω) :
    Except Halt ((Left (DirStack P) × ErrorCode) × Env ω) :=
  match st.recurse env with
  | ((.gives st, ec), env) => .ok ((.gives st, ec), env)
  | ((.keeps st, _), env) => st.advanceLoop n st.top st.below env

/-- `pop`. -/
def pop (n : Nat) (st : DirStack P) (env : Env ω) :
    Except Halt ((Left (DirStack P) × ErrorCode) × Env ω) :=
  match st.top.destroy env with
  | .error h => .error h
  | .ok env =>
    match st.below with
    | [] => .ok ((.gives none, 0), env)
    | top :: below => st.advanceLoop n top below env

end DirStack

namespace RecursiveDirectoryIterator
variable {P}

/-- The constructor. -/
def new (n : Nat) (p : Str) (options : Options) (env : Env ω) :
    Except Halt ((RecursiveDirectoryIterator P × ErrorCode) × Env ω) :=
  match Dir.new P p options.skipPermissionDenied env with
  | ((none, ec), env) => .ok ((none, ec), env)
  | ((some dir, _), env) =>
    match dir.advance options.skipPermissionDenied n env with
    | .error h => .error h
    | .ok ((true, ec), dir, env) =>
      .ok ((some { options, top := dir, orig := if options.filenameOnly then p else [] }, ec), env)
    | .ok ((false, ec), dir, env) => (dir.destroy env).map fun env => ((none, ec), env)

/-- `depth` and `operator*`; there is nothing to be seen at the end. -/
def current (it : RecursiveDirectoryIterator P) : Option (Nat × Entry) :=
  it.map fun st => (st.below.length, st.top.entry)

/-- `increment`. -/
def increment (n : Nat) (it : RecursiveDirectoryIterator P) (env : Env ω) :
    Except Halt ((RecursiveDirectoryIterator P × ErrorCode) × Env ω) :=
  match it with
  | none => .ok ((none, EINVAL), env)
  | some st => alone DirStack.destroy (st.increment n env)

/-- `pop`. -/
def pop (n : Nat) (it : RecursiveDirectoryIterator P) (env : Env ω) :
    Except Halt ((RecursiveDirectoryIterator P × ErrorCode) × Env ω) :=
  match it with
  | none => .ok ((none, EINVAL), env)
  | some st => alone DirStack.destroy (st.pop n env)

/-- `disable_recursion_pending`. -/
def disableRecursionPending (it : RecursiveDirectoryIterator P) :
    Except Halt (RecursiveDirectoryIterator P) :=
  match it with
  | none => .error (.fault .nullDeref)
  | some st => .ok (some { st with pending := false })

end RecursiveDirectoryIterator

/-! ### `remove_all` -/

/-- What `__erase` reports: the error, the original path and the path it failed at. -/
structure EraseError where
  ec : ErrorCode
  path1 : Str
  path2 : Str
  deriving DecidableEq

namespace DirStack
variable {P}

/-- The loop of `__erase`, which ends when something was removed or on an error. A directory that is
empty is removed while its stream is still open. -/
def eraseLoop (n : Nat) : Nat → DirStack P → Env ω → Except Halt ((DirStack P × ErrorCode) × Env ω)
  | 0, _, _ => .error .outOfFuel
  | m + 1, st, env =>
    if st.top.entry.type = .directory then
      match st.top.openSubdir false env with
      | ((none, ec), env) =>
        -- `__glibcxx_assert(dir.dirp != nullptr)`
        if ec ≠ 0 then .ok ((st, ec), env) else .error (.fault .nullDeref)
      | ((some dir, _), env) =>
        match dir.advance false n env with
        | .error h => .error h
        | .ok ((true, _), dir, env) => eraseLoop n m (st.push dir) env
        | .ok ((false, ec), dir, env) =>
          if ec ≠ 0 then (dir.destroy env).map fun env => ((st, ec), env)
          else
            match P.remove st.top.entry.path env with
            | .error f => .error (.fault f)
            | .ok ((removed, ec), env) =>
              match dir.destroy env with
              | .error h => .error h
              | .ok env => if removed ∨ ec ≠ 0 then .ok ((st, ec), env) else eraseLoop n m st env
    else
      match P.remove st.top.entry.path env with
      | .error f => .error (.fault f)
      | .ok ((removed, ec), env) =>
        if removed then .ok ((st, ec), env)
        else if st.top.entry.type = .none ∧ (ec = EPERM ∨ ec = EISDIR) then
          -- it may be a directory
          eraseLoop n m { st with top.entry.type := .directory } env
        else if ec ≠ 0 then .ok ((st, ec), env)
        else eraseLoop n m st env

/-- `__erase` of an iterator that is not at its end, which tells nobody when it gets there. -/
def erase (n m : Nat) (st : DirStack P) (env : Env ω) :
    Except Halt ((Left (DirStack P) × Option EraseError) × Env ω) :=
  let failed (st : DirStack P) (ec : ErrorCode) : Left (DirStack P) × Option EraseError :=
    (.gives (some st), some ⟨ec, st.orig, st.currentPath⟩)
  match st.eraseLoop n m env with
  | .error h => .error h
  | .ok ((st, ec), env) =>
    if ec ≠ 0 then .ok (failed st ec, env)
    else
      match st.top.advance false n env with
      | .error h => .error h
      | .ok ((true, _), top, env) => .ok ((.keeps { st with top }, none), env)
      | .ok ((false, ec), top, env) =>
        if ec ≠ 0 then .ok (failed { st with top } ec, env)
        else
          match top.destroy env with
          | .error h => .error h
          | .ok env =>
            match st.below with
            | [] => .ok ((.gives none, none), env)
            | top :: below => .ok ((.keeps { st with top, below }, none), env)

end DirStack

/-! ### Calls on an iterator -/

/-- A call that moves a `recursive_directory_iterator`. -/
inductive Move where
  | increment
  | pop
  | disableRecursionPending
  deriving DecidableEq

variable {P}

/-- A call, and what it leaves. -/
def Move.call (n : Nat) (it : RecursiveDirectoryIterator P) (env : Env ω) :
    Move → Except Halt ((RecursiveDirectoryIterator P × ErrorCode) × Env ω)
  | .increment => it.increment n env
  | .pop => it.pop n env
  | .disableRecursionPending => it.disableRecursionPending.map fun it => ((it, 0), env)

/-- What can be seen of an iterator after a call: the error, the depth and the current entry. -/
abbrev View := ErrorCode × Option (Nat × Entry)

/-- Calls one after the other, with what can be seen after each. -/
def callAll (n : Nat) :
    List Move → RecursiveDirectoryIterator P → Env ω →
      Except Halt (List View × RecursiveDirectoryIterator P × Env ω)
  | [], it, env => .ok ([], it, env)
  | m :: ms, it, env =>
    match m.call n it env with
    | .error h => .error h
    | .ok ((it, ec), env) =>
      (callAll n ms it env).map fun r => ((ec, it.current) :: r.1, r.2)

/-- What the library of the compiler has to offer. -/
structure Library (ω : Type) where
  symlinkStatus : Str → Env ω → (FileType × ErrorCode) × Env ω
  status : Str → Env ω → (FileType × ErrorCode) × Env ω
  remove : Str → Env ω → Except Fault ((Bool × ErrorCode) × Env ω)

/-- The functions of `adapters/newlib/syscalls.cpp`, which are those of `adapters/syscalls.cpp`. -/
def Posix.syscalls {σ : Type} (B : Backend σ) (lib : Library (Pimpl σ)) : Posix (Pimpl σ) where
  DIR := Dirstream
  opendir p env :=
    let r := Syscalls.opendir B env.errno (some p) env.world
    (r.dirp, ⟨r.errno, r.vfs⟩)
  readdir d env := (Syscalls.readdir B env.errno (some d) env.world).map fun r =>
    (r.ret, r.dirp.getD d, ⟨r.errno, r.vfs⟩)
  closedir d env := (Syscalls.closedir B env.errno (some d) env.world).map fun r => ⟨r.errno, r.vfs⟩
  symlinkStatus := lib.symlinkStatus
  status := lib.status
  remove := lib.remove

end FsDir
end Evfs
