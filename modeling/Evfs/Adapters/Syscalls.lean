import Evfs.Common.VfsStep

/-!
# System calls on descriptors

Port of the descriptor part of `adapters/syscalls.cpp`. Every function calls its method of `VirtualFS`
through `invoke_fs`, which turns a value into an `int` and an error into `-1` and `errno`.

`answer` is what the stream or the filesystem that executes an operation gave. The syscall reports it
(`Faithful`) exactly if a value fits into an `int`, an error of a stream is also that of the file that
the operation falls through to, and the error of a `close` is not replaced by what the deferred unlink
comes to (`faithful_iff`).
-/

namespace Evfs

/-- What a method puts into its buffer. -/
abbrev FdOp.Out : FdOp → Type
  | .read _ => List UInt8
  | .fstat => Option Stat
  | _ => Unit

/-- The out-parameter in a return value. -/
def FdOp.out : (op : FdOp) → op.Ret → op.Out
  | .close, _ => ()
  | .write _, _ => ()
  | .read _, r => r.2
  | .lseek _ _, _ => ()
  | .fstat, r => r.2
  | .ftruncate _, _ => ()
  | .fsync, _ => ()
  | .flock _, _ => ()
  | .isatty, _ => ()
  | .fchmod _, _ => ()

/-- The value or the error in a return value; the value of a method that returns an error code is
`0`. -/
def FdOp.result : (op : FdOp) → op.Ret → Except ErrorCode Int
  | .close, r => reply r
  | .write _, r => r.map Int.ofNat
  | .read _, r => r.1.map Int.ofNat
  | .lseek _ _, r => r
  | .fstat, r => reply r.1
  | .ftruncate _, r => reply r
  | .fsync, r => reply r
  | .flock _, r => reply r
  | .isatty, r => r.map fun b => if b then 1 else 0
  | .fchmod _, r => reply r

/-- The value or the error that a stream gives. -/
def StreamOp.result : (op : StreamOp) → op.Ret → Except ErrorCode Int
  | .in _, r => r.1.map Int.ofNat
  | .out _, r => r.map Int.ofNat
  | .err _, r => r.map Int.ofNat

namespace Syscalls
variable {σ : Type} (B : Backend σ)

/-- `static_cast<int>`. -/
def toInt (v : Int) : Int := v.bmod (2 ^ 32)

/-- What a syscall returns, `errno`, its out-parameter and everything below. -/
structure SysResult (σ : Type) (op : FdOp) where
  ret : Int
  errno : ErrorCode
  out : Option op.Out
  vfs : Pimpl σ

/-- What `invoke_fs` makes of a value or an error. -/
def encode : Except ErrorCode Int → Int × ErrorCode
  | .ok v => (toInt v, 0)
  | .error e => (-1, e)

/-- `invoke_fs`. -/
def invokeFs (op : FdOp) (fd : Int) (s : Pimpl σ) : Except Fault (SysResult σ op) :=
  (Pimpl.fileOp B op fd s).map fun r =>
    ⟨(encode (op.result r.1)).1, (encode (op.result r.1)).2, some (op.out r.1), r.2⟩

/-- `close`. -/
def close (fd : Int) (s : Pimpl σ) : Except Fault (SysResult σ .close) := invokeFs B .close fd s

/-- `write`. -/
def write (fd : Int) (buf : List UInt8) (s : Pimpl σ) : Except Fault (SysResult σ (.write buf)) :=
  invokeFs B (.write buf) fd s

/-- `read`. -/
def read (fd : Int) (cnt : Nat) (s : Pimpl σ) : Except Fault (SysResult σ (.read cnt)) :=
  invokeFs B (.read cnt) fd s

/-- `lseek`. -/
def lseek (fd pos dir : Int) (s : Pimpl σ) : Except Fault (SysResult σ (.lseek pos dir)) :=
  invokeFs B (.lseek pos dir) fd s

/-- `fstat`, whose pointer may be null. -/
def fstat (fd : Int) (pstat : Bool) (s : Pimpl σ) : Except Fault (SysResult σ .fstat) :=
  if pstat then invokeFs B .fstat fd s else .ok ⟨-1, EINVAL, none, s⟩

/-- `fsync`. -/
def fsync (fd : Int) (s : Pimpl σ) : Except Fault (SysResult σ .fsync) := invokeFs B .fsync fd s

/-- `fchmod`. -/
def fchmod (fd : Int) (mode : Nat) (s : Pimpl σ) : Except Fault (SysResult σ (.fchmod mode)) :=
  invokeFs B (.fchmod mode) fd s

/-- `isatty`. -/
def isatty (fd : Int) (s : Pimpl σ) : Except Fault (SysResult σ .isatty) := invokeFs B .isatty fd s

/-- A syscall on a descriptor that goes to a layer below. -/
inductive Sys where
  | close
  | write (buf : List UInt8)
  | read (cnt : Nat)
  | lseek (pos dir : Int)
  | fstat
  | fsync
  | fchmod (mode : Nat)
  | isatty
  deriving DecidableEq

/-- The method that a syscall is for. -/
abbrev Sys.op : Sys → FdOp
  | .close => .close
  | .write buf => .write buf
  | .read cnt => .read cnt
  | .lseek pos dir => .lseek pos dir
  | .fstat => .fstat
  | .fsync => .fsync
  | .fchmod mode => .fchmod mode
  | .isatty => .isatty

/-- The syscall. -/
def Sys.run (fd : Int) (s : Pimpl σ) : (c : Sys) → Except Fault (SysResult σ c.op)
  | .close => Syscalls.close B fd s
  | .write buf => Syscalls.write B fd buf s
  | .read cnt => Syscalls.read B fd cnt s
  | .lseek pos dir => Syscalls.lseek B fd pos dir s
  | .fstat => Syscalls.fstat B fd true s
  | .fsync => Syscalls.fsync B fd s
  | .fchmod mode => Syscalls.fchmod B fd mode s
  | .isatty => Syscalls.isatty B fd s

/-! ### What the layer below answered -/

/-- The stream that executes an operation. -/
def streamOf : FdOp → Int → Option StreamOp
  | .read len, fd => if fd = 0 then some (.in len) else none
  | .write data, fd => if fd = 1 then some (.out data) else if fd = 2 then some (.err data) else none
  | _, _ => none

/-- What the filesystem of an open file answers. -/
def fsAnswer (op : FdOp) (fd : Int) (s : Pimpl σ) : Option (Except ErrorCode Int) := do
  let fil ← s.fdContainer.byId.lookup fd
  let mp ← s.mounts.lookup fil.root
  some (op.result (B.call mp.fs (.file op fil) s.world).1)

/-- The path that the close of a descriptor removes. -/
def deferred (fd : Int) (s : Pimpl σ) : Option Str := (s.fdContainer.remove fd).1

/-- The state in which it does so. -/
def closed (fd : Int) (s : Pimpl σ) : Pimpl σ :=
  match Pimpl.invokeFopsFd B .close fd s with
  | .ok (_, s) => { s with fdContainer := (s.fdContainer.remove fd).2 }
  | .error _ => s

/-- What the filesystem asked to remove a path answers. -/
def unlinkAnswer (path : Str) (s : Pimpl σ) : Option ErrorCode :=
  match absolutePath path with
  | .error _ => none
  | .ok abspath =>
    (findMountPoint s.mounts abspath).map fun mp =>
      (B.call mp.fs (.path .unlink abspath) s.world).1

/-- What the filesystem answers to `close`, or else to the removal of the path that goes with it. -/
def closeAnswer (fd : Int) (s : Pimpl σ) : Option (Except ErrorCode Int) :=
  (fsAnswer B .close fd s).map fun r => r.bind fun v =>
    match (deferred fd s).bind fun path => unlinkAnswer B path (closed B fd s) with
    | some u => reply u
    | none => .ok v

/-- What the layer that executes an operation answers; `fstat` and `isatty` of a number below 3 are
answered by `VirtualFS` itself. -/
def answer (op : FdOp) (fd : Int) (s : Pimpl σ) : Option (Except ErrorCode Int) :=
  match streamOf op fd with
  | some st => some (st.result (B.stream st s.world).1)
  | none =>
    match op with
    | .close => closeAnswer B fd s
    | .fstat => if fd < 3 then none else fsAnswer B .fstat fd s
    | .isatty => if fd < 3 then none else fsAnswer B .isatty fd s
    | op => fsAnswer B op fd s

/-- A value is returned as it is, with `errno` `0`, as far as the return type has it; an error gives
`-1` and `errno`. -/
def Reports : Except ErrorCode Int → Int → ErrorCode → Prop
  | .ok v, ret, errno => v < 2 ^ 63 → ret = v ∧ errno = 0
  | .error e, ret, errno => ret = -1 ∧ errno = e

/-- A syscall reports what the layer that executed it answered, a value or an error other than `0`. -/
def Faithful (c : Sys) (fd : Int) (s : Pimpl σ) : Prop :=
  ∀ r, answer B c.op fd s = some r → r ≠ .error 0 →
    ∃ x, c.run B fd s = .ok x ∧ Reports r x.ret x.errno

/-- The value fits into an `int`. -/
def InRange : Except ErrorCode Int → Prop
  | .ok v => v < 2 ^ 63 → -2 ^ 31 ≤ v ∧ v < 2 ^ 31
  | .error _ => True

/-- What an operation gives once its stream has failed: there is no such file, or its filesystem
answers so. -/
def FallsTo (op : FdOp) (fd : Int) (s : Pimpl σ) (e : ErrorCode) : Prop :=
  (fd ∉ s.fdContainer.byId ∧ e = EBADF) ∨ fsAnswer B op fd s = some (.error e)

/-- What the stream answers fits into an `int`, or is the error that the operation falls to. -/
def StreamTransparent (op : FdOp) (fd : Int) (s : Pimpl σ) (st : StreamOp) : Prop :=
  match st.result (B.stream st s.world).1 with
  | .ok v => InRange (.ok v)
  | .error e => e ≠ 0 → FallsTo B op fd { s with world := (B.stream st s.world).2 } e

/-- The code for a path that no filesystem is asked to remove. -/
def unreached (path : Str) : ErrorCode :=
  if path = [] ∨ Path.hasRootPath path = true then ENOENT else EINVAL

/-- A path that goes with the close is removed by a filesystem, the close having succeeded, or the
filesystem answers to the removal what it answered to the close. Where none is asked that is `ENOENT`,
or `EINVAL` for a path that is not absolute. -/
def CloseTransparent (fd : Int) (s : Pimpl σ) : Prop :=
  ∀ r path, fsAnswer B .close fd s = some r → deferred fd s = some path →
    (r = .ok 0 ∧ (unlinkAnswer B path (closed B fd s)).isSome) ∨
      r = reply ((unlinkAnswer B path (closed B fd s)).getD (unreached path))

/-- Nothing that the layer below answers is lost on the way. -/
def Transparent (op : FdOp) (fd : Int) (s : Pimpl σ) : Prop :=
  match streamOf op fd with
  | some st => StreamTransparent B op fd s st
  | none => if op = .close then CloseTransparent B fd s else ∀ r, answer B op fd s = some r → InRange r

variable {B} {s : Pimpl σ} {op : FdOp} {fd : Int}

/-- Every system call on a descriptor goes through `invoke_fs`. -/
lemma Sys.run_eq {c : Sys} : c.run B fd s = invokeFs B c.op fd s := by
  cases c <;> rfl

/-! ### What `invoke_fs` keeps -/

/-- What fits into an `int` is kept. -/
lemma toInt_eq_iff {v : Int} : toInt v = v ↔ -2 ^ 31 ≤ v ∧ v < 2 ^ 31 := by
  unfold toInt
  constructor
  · intro e
    have lo := Int.le_bmod (x := v) (m := 2 ^ 32) (by decide)
    have hi := Int.bmod_lt (x := v) (m := 2 ^ 32) (by decide)
    omega
  · rintro ⟨lo, hi⟩
    apply Int.bmod_eq_of_le <;> omega

/-- A value is reported exactly if it fits into an `int`, an error always. -/
lemma reports_encode {r : Except ErrorCode Int} :
    Reports r (encode r).1 (encode r).2 ↔ InRange r := by
  cases r with
  | ok v =>
    refine forall_congr' fun _ => ?_
    exact ⟨fun h => toInt_eq_iff.mp h.1, fun h => ⟨toInt_eq_iff.mpr h, rfl⟩⟩
  | error e => exact iff_of_true ⟨rfl, rfl⟩ trivial

/-- An error is reported exactly if it is what there was to encode. -/
lemma reports_error {r : Except ErrorCode Int} {e : ErrorCode} (ne : e ≠ 0) :
    Reports (.error e) (encode r).1 (encode r).2 ↔ r = .error e := by
  cases r with
  | ok v => exact iff_of_false (fun h => ne h.2.symm) (fun h => by cases h)
  | error e' => exact ⟨fun h => congrArg Except.error h.2, fun h => ⟨rfl, Except.error.inj h⟩⟩

/-- A code's reply fits. -/
lemma inRange_reply {e : ErrorCode} : InRange (reply e) := by
  unfold reply
  split
  · exact fun _ => by decide
  · trivial

/-- What a syscall that returns reports. -/
lemma exists_run_iff {c : Sys} {x : c.op.Ret} {s' : Pimpl σ} {r : Except ErrorCode Int}
    (e : Pimpl.fileOp B c.op fd s = .ok (x, s')) :
    (∃ y, c.run B fd s = .ok y ∧ Reports r y.ret y.errno) ↔
      Reports r (encode (c.op.result x)).1 (encode (c.op.result x)).2 := by
  rw [Sys.run_eq, invokeFs, e]
  constructor
  · rintro ⟨y, hy, h⟩
    cases hy
    exact h
  · intro h
    exact ⟨_, rfl, h⟩

/-! ### The methods of `VirtualFS` -/

/-- The result of a failed operation is its error. -/
lemma result_terror {e : ErrorCode} (ne : e ≠ 0) : op.result (op.terror e) = .error e := by
  cases op <;> simp [FdOp.terror, FdOp.result, reply, ne, Except.map]

/-- The filesystem of an open file is there, and answers through `invoke_fops`. -/
lemma fsAnswer_some {r : Except ErrorCode Int} (h : fsAnswer B op fd s = some r) :
    ∃ fil mp, s.fdContainer.byId.lookup fd = some fil ∧ s.mounts.lookup fil.root = some mp ∧
      Pimpl.invokeFopsFd B op fd s = .ok (Pimpl.lockedCall B mp (.file op fil) s) ∧
      op.result (Pimpl.lockedCall B mp (.file op fil) s).1 = r := by
  obtain ⟨fil, hf, h⟩ := Option.bind_eq_some_iff.mp h
  obtain ⟨mp, hm, h⟩ := Option.bind_eq_some_iff.mp h
  refine ⟨fil, mp, hf, hm, ?_, Option.some.inj h⟩
  simp only [Pimpl.invokeFopsFd, hf, hm]

/-- Where `invoke_fops` is all there is, a value is reported exactly if it fits. -/
lemma reports_invokeFops {c : Sys} {r : Except ErrorCode Int}
    (e : Pimpl.fileOp B c.op fd s = Pimpl.invokeFopsFd B c.op fd s)
    (h : fsAnswer B c.op fd s = some r) :
    (∃ y, c.run B fd s = .ok y ∧ Reports r y.ret y.errno) ↔ InRange r := by
  obtain ⟨fil, mp, -, -, hi, rfl⟩ := fsAnswer_some h
  exact (exists_run_iff (e.trans hi)).trans reports_encode

/-- An operation whose stream gives a value gives that value; else it goes on to the file. -/
lemma stream_fileOp {st : StreamOp} (h : streamOf op fd = some st) :
    (∃ v x s', st.result (B.stream st s.world).1 = .ok v ∧ Pimpl.fileOp B op fd s = .ok (x, s') ∧
      op.result x = .ok v) ∨
    ∃ e, st.result (B.stream st s.world).1 = .error e ∧
      Pimpl.fileOp B op fd s = Pimpl.invokeFopsFd B op fd (Pimpl.callStream B st s).2 := by
  cases op with
  | read len =>
    simp only [streamOf] at h
    split at h
    · rename_i h0
      cases h
      simp only [Pimpl.fileOp, Pimpl.read, Pimpl.invokeStdstreamIn, if_pos h0]
      rcases hs : Pimpl.callStream B (.in len) s with ⟨⟨a, bytes⟩, s₁⟩
      have ha : (B.stream (.in len) s.world).1 = (a, bytes) := congrArg Prod.fst hs
      rw [ha]
      cases a with
      | ok n => exact .inl ⟨n, _, _, rfl, rfl, rfl⟩
      | error e => exact .inr ⟨e, rfl, rfl⟩
    · cases h
  | write data =>
    simp only [streamOf] at h
    split at h
    · rename_i h1
      cases h
      simp only [Pimpl.fileOp, Pimpl.write, Pimpl.invokeStdstreamOut, if_pos h1]
      rcases hs : Pimpl.callStream B (.out data) s with ⟨a, s₁⟩
      have ha : (B.stream (.out data) s.world).1 = a := congrArg Prod.fst hs
      rw [ha]
      cases a with
      | ok n => exact .inl ⟨n, _, _, rfl, rfl, rfl⟩
      | error e => exact .inr ⟨e, rfl, rfl⟩
    · rename_i h1
      split at h
      · rename_i h2
        cases h
        simp only [Pimpl.fileOp, Pimpl.write, Pimpl.invokeStdstreamOut, if_neg h1, if_pos h2]
        rcases hs : Pimpl.callStream B (.err data) s with ⟨a, s₁⟩
        have ha : (B.stream (.err data) s.world).1 = a := congrArg Prod.fst hs
        rw [ha]
        cases a with
        | ok n => exact .inl ⟨n, _, _, rfl, rfl, rfl⟩
        | error e => exact .inr ⟨e, rfl, rfl⟩
      · cases h
  | _ => cases h

/-- Where no stream is asked, the method is `invoke_fops` alone. -/
lemma fileOp_noStream (h : streamOf op fd = none) (hc : op ≠ .close)
    (hs : ¬ (fd < 3 ∧ (op = .fstat ∨ op = .isatty))) :
    Pimpl.fileOp B op fd s = Pimpl.invokeFopsFd B op fd s := by
  cases op with
  | close => exact absurd rfl hc
  | read len =>
    have h0 : fd ≠ 0 := fun h0 => by simp [streamOf, h0] at h
    simp [Pimpl.fileOp, Pimpl.read, Pimpl.invokeStdstreamIn, h0]
  | write data =>
    have h1 : fd ≠ 1 := fun h1 => by simp [streamOf, h1] at h
    have h2 : fd ≠ 2 := fun h2 => by simp [streamOf, h2] at h
    simp [Pimpl.fileOp, Pimpl.write, Pimpl.invokeStdstreamOut, h1, h2]
  | fstat =>
    have h3 : ¬ fd < 3 := fun h3 => hs ⟨h3, .inl rfl⟩
    simp [Pimpl.fileOp, Pimpl.fstat, h3]
  | isatty =>
    have h3 : ¬ fd < 3 := fun h3 => hs ⟨h3, .inr rfl⟩
    simp [Pimpl.fileOp, Pimpl.isatty, h3]
  | _ => rfl

/-- A descriptor that is not a stream's goes to the filesystem. -/
lemma answer_noStream (h : streamOf op fd = none) (hc : op ≠ .close)
    (hs : ¬ (fd < 3 ∧ (op = .fstat ∨ op = .isatty))) : answer B op fd s = fsAnswer B op fd s := by
  simp only [answer, h]
  cases op with
  | close => exact absurd rfl hc
  | fstat => exact if_neg fun h3 => hs ⟨h3, .inl rfl⟩
  | isatty => exact if_neg fun h3 => hs ⟨h3, .inr rfl⟩
  | _ => rfl

/-- `close` removes the path where that goes with it, and else returns what the filesystem did. -/
lemma close_eq {r : Except ErrorCode Int} (h : fsAnswer B .close fd s = some r) :
    ∃ e s', Pimpl.fileOp B .close fd s = .ok (e, s') ∧
      match deferred fd s with
      | some path => e = (Pimpl.invokeFopsPath B .unlink path (closed B fd s)).1
      | none => reply e = r := by
  obtain ⟨fil, mp, hf, hm, hi, hr⟩ := fsAnswer_some h
  have hc : closed B fd s = Pimpl.afterRemove B s fd fil mp := by
    rw [closed, hi]
    rfl
  rw [hc]
  cases hd : deferred fd s with
  | none => exact ⟨_, _, Pimpl.close_keeps hf hm hd, hr⟩
  | some path => exact ⟨_, _, Pimpl.close_unlinks hf hm hd, rfl⟩

/-! ### What is reported -/

/-- An operation that falls to `invoke_fops` reports the error of its stream exactly if that is what it
falls to. -/
lemma reports_fallsTo {c : Sys} {s₂ : Pimpl σ} {e : ErrorCode} (ne : e ≠ 0)
    (h : Pimpl.fileOp B c.op fd s = Pimpl.invokeFopsFd B c.op fd s₂) :
    (∃ y, c.run B fd s = .ok y ∧ Reports (.error e) y.ret y.errno) ↔ FallsTo B c.op fd s₂ e := by
  unfold FallsTo fsAnswer
  cases hf : s₂.fdContainer.byId.lookup fd with
  | none =>
    have hi : Pimpl.invokeFopsFd B c.op fd s₂ = .ok (c.op.terror EBADF, s₂) := by
      simp only [Pimpl.invokeFopsFd, hf]
    have hn : fd ∉ s₂.fdContainer.byId := AList.lookup_eq_none.mp hf
    rw [exists_run_iff (h.trans hi), reports_error ne, result_terror (by decide)]
    constructor
    · intro he
      exact .inl ⟨hn, (Except.error.inj he).symm⟩
    · rintro (⟨-, rfl⟩ | hs)
      · rfl
      · cases hs
  | some fil =>
    have hm : fd ∈ s₂.fdContainer.byId := Lib.UnorderedMap.mem_of_lookup hf
    -- without a mount point `invoke_fops` throws
    cases hp : s₂.mounts.lookup fil.root with
    | none =>
      refine iff_of_false ?_ ?_
      · rintro ⟨y, hy, -⟩
        rw [Sys.run_eq, invokeFs, h] at hy
        simp only [Pimpl.invokeFopsFd, hf, hp] at hy
        cases hy
      · rintro (⟨hn, -⟩ | hs)
        · exact hn hm
        · simp [hp] at hs
    | some mp =>
      have hi : Pimpl.invokeFopsFd B c.op fd s₂ =
          .ok (Pimpl.lockedCall B mp (.file c.op fil) s₂) := by
        simp only [Pimpl.invokeFopsFd, hf, hp]
      rw [exists_run_iff (h.trans hi), reports_error ne]
      constructor
      · intro he
        refine .inr ?_
        simp only [hp, Option.bind_eq_bind, Option.bind_some]
        exact congrArg some he
      · rintro (⟨hn, -⟩ | hs)
        · exact absurd hm hn
        · simp only [hp, Option.bind_eq_bind, Option.bind_some] at hs
          exact Option.some.inj hs

/-- A call on a stream. -/
lemma faithful_stream {c : Sys} {st : StreamOp} (h : streamOf c.op fd = some st) :
    Faithful B c fd s ↔ StreamTransparent B c.op fd s st := by
  have ha : answer B c.op fd s = some (st.result (B.stream st s.world).1) := by
    simp only [answer, h]
  unfold Faithful StreamTransparent
  rw [ha]
  rcases stream_fileOp (B := B) (s := s) h with ⟨v, x, s', hv, hx, hr⟩ | ⟨e, he, hx⟩
  · rw [hv]
    have hi := exists_run_iff (r := .ok v) hx
    rw [hr, reports_encode] at hi
    constructor
    · intro f
      exact hi.mp (f _ rfl (fun e => by cases e))
    · rintro hr r e -
      cases e
      exact hi.mpr hr
  · rw [he]
    constructor
    · intro f ne
      exact (reports_fallsTo ne hx).mp (f _ rfl fun e => ne (Except.error.inj e))
    · rintro hf r e' ne
      cases e'
      have ne : e ≠ 0 := fun h0 => ne (congrArg Except.error h0)
      exact (reports_fallsTo ne hx).mpr (hf ne)

/-- The removal of a path comes to what the filesystem answers, or to an error. -/
lemma invokeFopsPath_unlink (path : Str) :
    (Pimpl.invokeFopsPath B .unlink path s).1 = (unlinkAnswer B path s).getD (unreached path) := by
  unfold Pimpl.invokeFopsPath unlinkAnswer unreached absolutePath
  by_cases hp : path = []
  · subst hp
    rfl
  · rw [if_neg hp]
    by_cases hn : Path.hasRootPath path = true
    · simp only [if_pos hn, if_pos (Or.inr hn : path = [] ∨ _)]
      cases findMountPoint s.mounts (Path.lexicallyNormal path) with
      | none => rfl
      | some mp => rfl
    · simp only [if_neg hn, if_neg fun h : path = [] ∨ _ => h.elim hp hn]
      rfl

/-- The code for a path that is not reached is an error. -/
lemma unreached_ne {path : Str} : unreached path ≠ 0 := by
  unfold unreached
  split
  · exact (show ENOENT ≠ 0 by decide)
  · exact (show EINVAL ≠ 0 by decide)

/-- A code is a success or an error. -/
lemma reply_cases {e : ErrorCode} : reply e = .ok 0 ∨ (e ≠ 0 ∧ reply e = .error e) := by
  unfold reply
  split
  · exact .inl rfl
  · rename_i h
    exact .inr ⟨h, rfl⟩

/-- The `close` that removes a path reports the first error. -/
lemma faithful_close_deferred {e : ErrorCode} {path : Str} {s' : Pimpl σ} {r : Except ErrorCode Int}
    (hr : fsAnswer B .close fd s = some r) (hd : deferred fd s = some path)
    (hx : Pimpl.fileOp B .close fd s = .ok (e, s'))
    (he : e = (unlinkAnswer B path (closed B fd s)).getD (unreached path)) :
    Faithful B .close fd s ↔
      (r = .ok 0 ∧ (unlinkAnswer B path (closed B fd s)).isSome) ∨ r = reply e := by
  have hrep : ∀ {r}, (∃ y, Sys.close.run B fd s = .ok y ∧ Reports r y.ret y.errno) ↔
      Reports r (encode (reply e)).1 (encode (reply e)).2 := exists_run_iff hx
  have ha : answer B (Sys.op .close) fd s = some (r.bind fun v =>
      match unlinkAnswer B path (closed B fd s) with
      | some u => reply u
      | none => .ok v) := by
    show closeAnswer B fd s = _
    simp only [closeAnswer, hr, hd, Option.map_some, Option.bind_some]
  unfold Faithful
  rw [ha]
  obtain ⟨fil, mp, -, -, -, rfl⟩ := fsAnswer_some hr
  rcases reply_cases (e := (Pimpl.lockedCall B mp (.file .close fil) s).1) with h0 | ⟨ne, h0⟩
  · -- the filesystem closed the file
    have hr0 : FdOp.close.result (Pimpl.lockedCall B mp (.file .close fil) s).1 = .ok 0 := h0
    rw [hr0]
    cases hu : unlinkAnswer B path (closed B fd s) with
    | some u =>
      rw [hu] at he
      subst he
      refine iff_of_true (fun r hr _ => ?_) (.inl ⟨rfl, rfl⟩)
      obtain rfl := Option.some.inj hr
      exact hrep.mpr (reports_encode.mpr inRange_reply)
    | none =>
      have hrep' : reply e = .error e := if_neg (by rw [he, hu]; exact unreached_ne)
      refine iff_of_false (fun f => ?_) ?_
      · have h := hrep.mp (f _ rfl (fun e => by cases e))
        rw [hrep'] at h
        exact absurd (h (by decide)).1 (show (-1 : Int) ≠ 0 by decide)
      · rw [hrep']
        rintro (⟨-, h⟩ | h)
        · cases h
        · cases h
  · -- it did not, and nothing else counts
    have hr0 : FdOp.close.result (Pimpl.lockedCall B mp (.file .close fil) s).1 = .error _ := h0
    rw [hr0]
    constructor
    · intro f
      exact .inr ((reports_error ne).mp (hrep.mp (f _ rfl fun e => ne (Except.error.inj e)))).symm
    · rintro (⟨h, -⟩ | h) r hr -
      · cases h
      · obtain rfl := Option.some.inj hr
        exact hrep.mpr ((reports_error ne).mpr h.symm)

/-- `close` is faithful when it passes on the deferred unlink. -/
lemma faithful_close : Faithful B .close fd s ↔ CloseTransparent B fd s := by
  cases hr : fsAnswer B .close fd s with
  | none =>
    have ha : answer B (Sys.op .close) fd s = none := by
      show closeAnswer B fd s = none
      rw [closeAnswer, hr]
      rfl
    refine iff_of_true (fun r h => ?_) fun r path h => ?_
    · rw [ha] at h
      cases h
    · rw [hr] at h
      cases h
  | some r =>
    obtain ⟨e, s', hx, hd⟩ := close_eq hr
    cases hp : deferred fd s with
    | none =>
      rw [hp] at hd
      have ha : answer B (Sys.op .close) fd s = some r := by
        show closeAnswer B fd s = some r
        simp only [closeAnswer, hr, hp, Option.map_some, Option.bind_none]
        cases r <;> rfl
      refine iff_of_true (fun r' h _ => ?_) fun r' path _ h => ?_
      · obtain rfl := Option.some.inj (ha.symm.trans h)
        have hrep := exists_run_iff (r := r) (c := .close) hx
        rw [← hd] at hrep ⊢
        exact hrep.mpr (reports_encode.mpr inRange_reply)
      · rw [hp] at h
        cases h
    | some path =>
      rw [hp] at hd
      have hd := (hd : e = _).trans (invokeFopsPath_unlink path)
      rw [faithful_close_deferred hr hp hx hd, hd]
      unfold CloseTransparent
      constructor
      · intro h r' path' hr' hp'
        cases hr.symm.trans hr'
        cases hp.symm.trans hp'
        exact h
      · intro h
        exact h r path hr hp

/-- For every syscall on a descriptor, every number and every state: what the layer that executes it
answers is reported exactly if nothing of it is lost on the way. -/
theorem faithful_iff {c : Sys} : Faithful B c fd s ↔ Transparent B c.op fd s := by
  unfold Transparent
  cases hs : streamOf c.op fd with
  | some st => exact faithful_stream hs
  | none =>
    simp only
    split
    · rename_i hc
      cases c with
      | close => exact faithful_close
      | _ => cases hc
    · rename_i hc
      unfold Faithful
      by_cases h3 : fd < 3 ∧ (c.op = .fstat ∨ c.op = .isatty)
      · have ha : answer B c.op fd s = none := by
          rcases h3 with ⟨lt, h | h⟩ <;> simp [answer, h, streamOf, lt]
        rw [ha]
        exact iff_of_true (fun r h => by cases h) (fun r h => by cases h)
      · rw [answer_noStream hs hc h3]
        have hx := fileOp_noStream (B := B) (s := s) hs hc h3
        constructor
        · intro f r hr
          cases r with
          | ok v => exact (reports_invokeFops hx hr).mp (f _ hr (fun e => by cases e))
          | error e => trivial
        · intro f r hr _
          exact (reports_invokeFops hx hr).mpr (f r hr)

/-! ### Answers that are lost -/

/-- Streams and filesystems that answer as given, and otherwise accept every call. -/
def answering (seek : Int) (closing : ErrorCode) (out : Except ErrorCode Nat) :
    Backend (FsId → Str) :=
  { Backend.accepting with
    call := fun fs c w => match c with
      | .file (.lseek _ _) _ => (.ok seek, w)
      | .file .close _ => (closing, w)
      | c => Backend.accepting.call fs c w
    stream := fun op w => match op with
      | .in _ => ((.ok 0, []), w)
      | .out _ => (out, w)
      | .err _ => (out, w)
    mount_root := Backend.accepting.mount_root
    mount_frame := Backend.accepting.mount_frame
    call_frame := fun fs c w fs' h => by
      split
      · rfl
      · rfl
      · exact Backend.accepting.call_frame fs _ w fs' h
    stream_frame := fun op w fs' => by cases op <;> rfl
    open_stamp := Backend.accepting.open_stamp
    diropen_stamp := Backend.accepting.diropen_stamp }

/-- A file is open as descriptor 3 and marked for unlink. -/
def markedFile (B : Backend (FsId → Str)) : Pimpl (FsId → Str) :=
  Pimpl.play B [.registerFilesystem .ext4, .mount "sdp0".toList "/a".toList [] 0,
    .open "/a/f".toList 0 0, .path .unlink "/a/f".toList] (Pimpl.sample fun _ => [])

/-- A call that reports something else is not faithful. -/
lemma not_faithful_of {c : Sys} {r : Except ErrorCode Int} {p : Int × ErrorCode}
    (ha : answer B c.op fd s = some r) (ne : r ≠ .error 0)
    (hx : (c.run B fd s).map (fun x => (x.ret, x.errno)) = .ok p) (h : ¬ Reports r p.1 p.2) :
    ¬ Faithful B c fd s := by
  intro f
  obtain ⟨x, e, rep⟩ := f r ha ne
  rw [e] at hx
  obtain rfl := Except.ok.inj hx
  exact h rep

/-- `lseek` to `2 ^ 31` returns a negative offset; what a write to the terminal fails with is lost
behind the descriptor table, and an error of `close` behind the unlink that succeeds after it. -/
theorem not_faithful_markedFile :
    let seeks := answering (2 ^ 31) 0 (.ok 0)
    let writes := answering 0 0 (.error EIO)
    let closes := answering 0 EIO (.ok 0)
    (answer seeks (.lseek (2 ^ 31) 0) 3 (markedFile seeks) = some (.ok (2 ^ 31)) ∧
      ¬ Faithful seeks (.lseek (2 ^ 31) 0) 3 (markedFile seeks)) ∧
    (answer writes (.write [0]) 1 (markedFile writes) = some (.error EIO) ∧
      ¬ Faithful writes (.write [0]) 1 (markedFile writes)) ∧
    answer closes .close 3 (markedFile closes) = some (.error EIO) ∧
      ¬ Faithful closes .close 3 (markedFile closes) := by
  intro seeks writes closes
  have ha : answer seeks (.lseek (2 ^ 31) 0) 3 (markedFile seeks) = some (.ok (2 ^ 31)) := by
    decide
  have hb : answer writes (.write [0]) 1 (markedFile writes) = some (.error EIO) := by decide
  have hc : answer closes .close 3 (markedFile closes) = some (.error EIO) := by decide
  have hx : (Sys.run seeks 3 (markedFile seeks) (.lseek (2 ^ 31) 0)).map
      (fun x => (x.ret, x.errno)) = .ok (-2 ^ 31, 0) := by decide
  have hy : (Sys.run writes 1 (markedFile writes) (.write [0])).map
      (fun x => (x.ret, x.errno)) = .ok (-1, EBADF) := by decide
  have hz : (Sys.run closes 3 (markedFile closes) .close).map
      (fun x => (x.ret, x.errno)) = .ok (0, 0) := by decide
  refine ⟨⟨ha, not_faithful_of ha (by decide) hx ?_⟩, ⟨hb, not_faithful_of hb (by decide) hy ?_⟩,
    hc, not_faithful_of hc (by decide) hz ?_⟩
  · intro h
    exact absurd (h (by decide)).1 (by decide)
  · intro h
    exact absurd h.2 (by decide)
  · intro h
    exact absurd h.2 (by decide)

end Syscalls
end Evfs
