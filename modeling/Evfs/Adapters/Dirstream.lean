import Evfs.Common.VfsStep

/-!
# Directory streams

Port of the directory part of `adapters/syscalls.cpp`. A `Dirstream` counts the entries it was given
in `position`, beside the cursor that the filesystem keeps in the directory handle. A pointer that
may be null is an `Option`; the memory for a new stream is there.

`consumed` is what the filesystem itself did: the number of entries since the handle was at the
start. A call keeps `telldir` in step with it exactly if no name is too long for a `dirent` and
`seekdir` gets back to the start when it wants to (`InStep.step`).
-/

namespace Evfs
open Lib

abbrev EOVERFLOW : ErrorCode := 75

/-- `struct dirent`. -/
structure Dirent where
  ino : Nat := 0
  type : Nat := 0
  reclen : Nat := 0
  name : Str := []
  deriving DecidableEq

namespace Dirent

/-- `sizeof(dirent::d_name)`, which is `NAME_MAX + 1`. -/
def nameSize : Nat := 256

/-- `stmode_to_type`, with the bits `S_IFMT` of the mode. -/
def stmodeToType (mode : Nat) : Nat :=
  match mode / 0o10000 % 0o20 with
  | 0o10 => 8
  | 0o4 => 4
  | 0o2 => 2
  | 0o6 => 6
  | 0o1 => 1
  | 0o14 => 12
  | _ => 0

/-- The entry for a file; `d_name` ends at the first null character. -/
def of (fname : Str) (stdata : Stat) : Dirent :=
  ⟨stdata.ino, stmodeToType stdata.mode, fname.length, fname.takeWhile (· ≠ Char.ofNat 0)⟩

end Dirent

/-- `__dirstream`. -/
structure Dirstream where
  dirh : DirectoryHandle
  /-- A `size_t`. -/
  position : BitVec 64 := 0
  dirData : Dirent := {}
  deriving DecidableEq

/-- What a call on a stream leaves: what it returns, `errno`, the stream and everything below. -/
structure DirResult (σ α : Type) where
  ret : α
  errno : ErrorCode
  dirp : Option Dirstream
  vfs : Pimpl σ

namespace Syscalls
variable {σ : Type} (B : Backend σ)

/-- `opendir`. -/
def opendir (errno : ErrorCode) (dirname : Option Str) (s : Pimpl σ) : DirResult σ Unit :=
  match dirname with
  | none => ⟨(), EIO, none, s⟩
  | some dirname =>
    match Pimpl.diropen B dirname s with
    | (.error e, s) => ⟨(), e, none, s⟩
    | (.ok handle, s) => ⟨(), errno, some { dirh := handle }, s⟩

/-- `closedir`. -/
def closedir (errno : ErrorCode) (dirp : Option Dirstream) (s : Pimpl σ) :
    Except Fault (DirResult σ Int) :=
  match dirp with
  | none => .ok ⟨-1, EBADF, none, s⟩
  | some d =>
    match Pimpl.dirOp B .dirclose d.dirh s with
    | .error f => .error f
    | .ok (ret, s) => .ok ⟨if ret ≠ 0 then -1 else 0, if ret ≠ 0 then ret else errno, none, s⟩

/-- What `readdir` and `readdir_r` have in common: an error, the end of the directory, or an entry,
with which the position moves. -/
def nextEntry (d : Dirstream) (s : Pimpl σ) :
    Except Fault (Except ErrorCode (Option Dirent) × Dirstream × Pimpl σ) :=
  match Pimpl.dirOp B .dirnext d.dirh s with
  | .error f => .error f
  | .ok ((ret, out), s) =>
    let (fname, stdata) := out.getD ([], {})
    if ret ≠ 0 ∧ ret ≠ ENOENT then .ok (.error ret, d, s)
    else if ret = ENOENT then .ok (.ok none, d, s)
    else if Dirent.nameSize ≤ fname.length then .ok (.error EOVERFLOW, d, s)
    else .ok (.ok (some (.of fname stdata)), { d with position := d.position + 1 }, s)

/-- `readdir`. -/
def readdir (errno : ErrorCode) (dirp : Option Dirstream) (s : Pimpl σ) :
    Except Fault (DirResult σ (Option Dirent)) :=
  match dirp with
  | none => .ok ⟨none, EBADF, none, s⟩
  | some d =>
    match nextEntry B d s with
    | .error f => .error f
    | .ok (.error e, d, s) => .ok ⟨none, e, some d, s⟩
    | .ok (.ok none, d, s) => .ok ⟨none, errno, some d, s⟩
    | .ok (.ok (some entry), d, s) =>
      .ok ⟨some entry, errno, some { d with dirData := entry }, s⟩

/-- What `readdir_r` returns, with `*entry` and `*result`. -/
structure ReaddirR where
  ret : Int
  entry : Dirent
  result : Option Dirent
  deriving DecidableEq

/-- `readdir_r`, which wants `*result` not to be null. -/
def readdirR (errno : ErrorCode) (dirp : Option Dirstream) (entry : Dirent)
    (result : Option Dirent) (s : Pimpl σ) : Except Fault (DirResult σ ReaddirR) :=
  match dirp with
  | none => .ok ⟨⟨-1, entry, result⟩, EBADF, none, s⟩
  | some d =>
    if result = none then .ok ⟨⟨-1, entry, result⟩, EINVAL, some d, s⟩
    else
      match nextEntry B d s with
      | .error f => .error f
      | .ok (.error e, d, s) => .ok ⟨⟨-1, entry, result⟩, e, some d, s⟩
      | .ok (.ok none, d, s) => .ok ⟨⟨0, entry, none⟩, errno, some d, s⟩
      | .ok (.ok (some entry), d, s) => .ok ⟨⟨0, entry, some entry⟩, errno, some d, s⟩

/-- `rewinddir`. -/
def rewinddir (errno : ErrorCode) (dirp : Option Dirstream) (s : Pimpl σ) :
    Except Fault (DirResult σ Unit) :=
  match dirp with
  | none => .ok ⟨(), EBADF, none, s⟩
  | some d =>
    match Pimpl.dirOp B .dirreset d.dirh s with
    | .error f => .error f
    | .ok (res, s) =>
      if res ≠ 0 then .ok ⟨(), res, some d, s⟩
      else .ok ⟨(), errno, some { d with position := 0 }, s⟩

/-- The loop of `seekdir`, over the distance that is left to `loc`. -/
def seekLoop : Nat → Dirstream → Pimpl σ → Except Fault (Dirstream × Pimpl σ)
  | 0, d, s => .ok (d, s)
  | n + 1, d, s =>
    match Pimpl.dirOp B .dirnext d.dirh s with
    | .error f => .error f
    | .ok ((ret, _), s) =>
      if ret = 0 then seekLoop n { d with position := d.position + 1 } s else .ok (d, s)

/-- The end of `seekdir`. -/
def seekForward (loc : BitVec 64) (d : Dirstream) (s : Pimpl σ) :
    Except Fault (Dirstream × Pimpl σ) :=
  seekLoop B (loc.toInt - d.position.toInt).toNat d s

/-- `seekdir`, which goes back to the start without asking whether that succeeds. -/
def seekdir (errno : ErrorCode) (dirp : Option Dirstream) (loc : BitVec 64) (s : Pimpl σ) :
    Except Fault (DirResult σ Unit) :=
  match dirp with
  | none => .ok ⟨(), EBADF, none, s⟩
  | some d =>
    if loc.toInt < 0 then .ok ⟨(), EINVAL, some d, s⟩
    else if loc.toInt < d.position.toInt then
      match Pimpl.dirOp B .dirreset d.dirh s with
      | .error f => .error f
      | .ok (_, s) =>
        (seekForward B loc { d with position := 0 } s).map fun r => ⟨(), errno, some r.1, r.2⟩
    else (seekForward B loc d s).map fun r => ⟨(), errno, some r.1, r.2⟩

/-- `telldir`. -/
def telldir (errno : ErrorCode) (dirp : Option Dirstream) : Int × ErrorCode :=
  match dirp with
  | none => (-1, EBADF)
  | some d => (d.position.toInt, errno)

/-- A call that moves a stream. -/
inductive DirCall where
  | readdir
  | readdirR (entry : Dirent) (result : Option Dirent)
  | rewinddir
  | seekdir (loc : BitVec 64)
  deriving DecidableEq

/-- What a call leaves of a stream and of everything below. -/
def DirCall.run (errno : ErrorCode) (d : Dirstream) (s : Pimpl σ) :
    DirCall → Except Fault (Option Dirstream × Pimpl σ)
  | .readdir => (Syscalls.readdir B errno (some d) s).map fun r => (r.dirp, r.vfs)
  | .readdirR entry result =>
    (Syscalls.readdirR B errno (some d) entry result s).map fun r => (r.dirp, r.vfs)
  | .rewinddir => (Syscalls.rewinddir B errno (some d) s).map fun r => (r.dirp, r.vfs)
  | .seekdir loc => (Syscalls.seekdir B errno (some d) loc s).map fun r => (r.dirp, r.vfs)

end Syscalls

/-! ### The entries consumed -/

/-- Where a call on a directory leaves the cursor: an entry further, or at the start. -/
def DirOp.moved : DirOp → ErrorCode → Nat → Nat
  | .dirnext, e, n => if e = 0 then n + 1 else n
  | .dirreset, e, n => if e = 0 then 0 else n
  | .dirclose, _, n => n

/-- The entries consumed since the handle was at the start, after one more event. -/
def tally (dirh : DirectoryHandle) (n : Nat) : Event → Nat
  | .call _ (.dir op handle) e => if handle = dirh then op.moved e n else n
  | _ => n

/-- A stream among everything below, with the entries consumed. -/
structure Session (σ : Type) where
  dirp : Dirstream
  vfs : Pimpl σ
  consumed : Nat := 0

namespace Session
variable {σ : Type} (B : Backend σ)

/-- A call on the stream, or anything else that happens. -/
inductive Label (σ : Type) where
  | call (c : Syscalls.DirCall)
  | other (s : Pimpl σ)

/-- A step; the handle of a stream is nobody else's. -/
inductive Step : Session σ → Label σ → Session σ → Prop where
  | call {d s n c errno d' s' l} : Syscalls.DirCall.run B errno d s c = .ok (some d', s') →
    s'.log = s.log ++ l → Step ⟨d, s, n⟩ (.call c) ⟨d', s', l.foldl (tally d.dirh) n⟩
  | other {d s n l s'} : (∀ a r, l = .op a r → a.dirHandle ≠ some d.dirh) → Pimpl.Step B s l s' →
    Step ⟨d, s, n⟩ (.other s') ⟨d, s', n⟩

/-- A stream as `opendir` gives it. -/
def Opened (m : Session σ) : Prop :=
  m.consumed = 0 ∧ ∃ errno dirname s, (Syscalls.opendir B errno dirname s).dirp = some m.dirp ∧
    (Syscalls.opendir B errno dirname s).vfs = m.vfs

/-- `telldir` tells the entries consumed. -/
def InStep (m : Session σ) : Prop := ∀ errno, (Syscalls.telldir errno (some m.dirp)).1 = m.consumed

/-- The name that is next fits into a `dirent`, and the position after it into a `long`. -/
def NextFits (m : Session σ) : Prop :=
  ∀ out s', Pimpl.dirOp B .dirnext m.dirp.dirh m.vfs = .ok ((0, out), s') →
    (out.getD ([], {})).1.length < Dirent.nameSize ∧ m.consumed + 1 < 2 ^ 63

/-- A call reads an entry that fits, or its `seekdir` gets back to the start where it has to. -/
def Fits (m : Session σ) : Label σ → Prop
  | .call .readdir => NextFits B m
  | .call (.readdirR _ result) => result ≠ none → NextFits B m
  | .call .rewinddir => True
  | .call (.seekdir loc) => 0 ≤ loc.toInt → loc.toInt < m.dirp.position.toInt →
    ∀ res s', Pimpl.dirOp B .dirreset m.dirp.dirh m.vfs = .ok (res, s') → res = 0
  | .other _ => True

/-! ### What the filesystem is called for -/

/-- Calls on a directory handle one after the other, with what they log. -/
inductive Ops (dirh : DirectoryHandle) : Pimpl σ → List Event → Pimpl σ → Prop where
  | nil {s} : Ops dirh s [] s
  | cons {s op r s₁ l₁ l s'} : op ≠ .dirclose → Pimpl.dirOp B op dirh s = .ok (r, s₁) →
    s₁.log = s.log ++ l₁ → Ops dirh s₁ l s' → Ops dirh s (l₁ ++ l) s'

variable {B} {d d' : Dirstream} {s s' s'' : Pimpl σ} {m m' m₀ : Session σ} {l : List Event}

/-- A call on a handle is one on the filesystem mounted at its root. -/
lemma dirOp_ok {op : DirOp} {dirh : DirectoryHandle} {r : op.Ret} (ne : op ≠ .dirclose)
    (e : Pimpl.dirOp B op dirh s = .ok (r, s')) :
    ∃ mp, s.mounts.lookup dirh.root = some mp ∧ r = (B.call mp.fs (.dir op dirh) s.world).1 ∧
      s' = { s with
        world := (B.call mp.fs (.dir op dirh) s.world).2
        log := s.log ++ [.lock mp.fs, .call mp.fs (.dir op dirh) (op.code r), .unlock mp.fs] } := by
  have e' : Pimpl.invokeDirops B op dirh s = .ok (r, s') := by
    cases op with
    | dirclose => exact absurd rfl ne
    | _ => exact e
  unfold Pimpl.invokeDirops at e'
  split at e'
  · cases e'
  · rename_i mp hm
    cases e'
    refine ⟨mp, hm, rfl, ?_⟩
    simp only [Pimpl.callFs, Pimpl.lock, Pimpl.unlock, List.append_assoc]
    rfl

/-- The log of an operation tells how it moved. -/
lemma dirOp_tally {op : DirOp} {dirh : DirectoryHandle} {r : op.Ret} (ne : op ≠ .dirclose)
    (e : Pimpl.dirOp B op dirh s = .ok (r, s')) (hl : s'.log = s.log ++ l) (n : Nat) :
    l.foldl (tally dirh) n = op.moved (op.code r) n := by
  obtain ⟨mp, -, -, rfl⟩ := dirOp_ok ne e
  obtain rfl := List.append_cancel_left hl
  simp only [List.foldl, tally, if_true]

/-- A call on the handle logs something. -/
lemma dirOp_log {op : DirOp} {dirh : DirectoryHandle} {r : op.Ret} (ne : op ≠ .dirclose)
    (e : Pimpl.dirOp B op dirh s = .ok (r, s')) : ∃ l, s'.log = s.log ++ l := by
  obtain ⟨mp, -, -, rfl⟩ := dirOp_ok ne e
  exact ⟨_, rfl⟩

namespace Ops
variable {dirh : DirectoryHandle}

/-- The operations only add to the log. -/
lemma log (o : Ops B dirh s l s') : s'.log = s.log ++ l := by
  induction o with
  | nil => exact (List.append_nil _).symm
  | cons _ _ hl _ ih => rw [ih, hl, List.append_assoc]

/-- One operation. -/
lemma one {op : DirOp} {r : op.Ret} (ne : op ≠ .dirclose)
    (e : Pimpl.dirOp B op dirh s = .ok (r, s')) (hl : s'.log = s.log ++ l) :
    Ops B dirh s l s' := by
  have o : Ops B dirh s (l ++ []) s' := .cons ne e hl .nil
  rwa [List.append_nil] at o

end Ops

/-- The loop of `seekdir` moves the position with the entries it consumes. -/
lemma seekLoop_ok {n : Nat} (e : Syscalls.seekLoop B n d s = .ok (d', s')) :
    ∃ l k, Ops B d.dirh s l s' ∧ k ≤ n ∧ d' = { d with position := d.position + BitVec.ofNat 64 k } ∧
      ∀ c, l.foldl (tally d.dirh) c = c + k := by
  induction n generalizing d s with
  | zero =>
    cases e
    exact ⟨[], 0, .nil, le_rfl, by simp, fun _ => rfl⟩
  | succ n ih =>
    unfold Syscalls.seekLoop at e
    split at e
    · cases e
    · rename_i ret out s₁ ho
      have ne : DirOp.dirnext ≠ .dirclose := by decide
      obtain ⟨l₁, hl⟩ := dirOp_log ne ho
      have ht := dirOp_tally ne ho hl
      split at e
      · rename_i h0
        obtain ⟨l, k, o, hk, rfl, hc⟩ := ih e
        refine ⟨l₁ ++ l, k + 1, .cons ne ho hl o, Nat.succ_le_succ hk, ?_, fun c => ?_⟩
        · congr 1
          rw [BitVec.add_assoc, BitVec.ofNat_add, BitVec.add_comm (BitVec.ofNat 64 k)]
          rfl
        · rw [List.foldl_append, ht, hc, DirOp.moved, DirOp.code, if_pos h0]
          omega
      · rename_i h0
        cases e
        refine ⟨l₁, 0, .one ne ho hl, Nat.zero_le _, by simp, fun c => ?_⟩
        rw [ht, DirOp.moved, DirOp.code, if_neg h0]
        rfl

/-- `nextEntry` asks the filesystem once, and moves with an entry that fits. -/
lemma nextEntry_ok {r : Except ErrorCode (Option Dirent)}
    (e : Syscalls.nextEntry B d s = .ok (r, d', s')) :
    ∃ ret out, Pimpl.dirOp B .dirnext d.dirh s = .ok ((ret, out), s') ∧
      d' = (if ret = 0 ∧ (out.getD ([], {})).1.length < Dirent.nameSize then
        { d with position := d.position + 1 } else d) ∧
      match r with
      | .error err => err ≠ 0
      | .ok none => ret = ENOENT
      | .ok (some entry) =>
        ret = 0 ∧ entry = Dirent.of (out.getD ([], {})).1 (out.getD ([], {})).2 := by
  unfold Syscalls.nextEntry at e
  split at e
  · cases e
  · rename_i ret out s₁ ho
    simp only at e
    split at e
    · rename_i h
      cases e
      exact ⟨ret, out, ho, (if_neg fun h' => h.1 h'.1).symm, h.1⟩
    · split at e
      · rename_i h
        cases e
        refine ⟨ret, out, ho, (if_neg fun h' => ?_).symm, h⟩
        rw [h] at h'
        exact absurd h'.1 (by decide)
      · rename_i hf hn
        have h0 : ret = 0 := by
          by_contra h0
          exact hf ⟨h0, hn⟩
        split at e
        · rename_i hs
          cases e
          exact ⟨ret, out, ho, (if_neg fun h' => absurd h'.2 (Nat.not_lt.mpr hs)).symm,
            (show EOVERFLOW ≠ 0 by decide)⟩
        · rename_i hs
          cases e
          exact ⟨ret, out, ho, (if_pos ⟨h0, Nat.lt_of_not_le hs⟩).symm, h0, rfl⟩

/-- What `readdir` returns, and does to the position, is what `nextEntry` does. -/
lemma readdir_ok {errno : ErrorCode} {r : DirResult σ (Option Dirent)}
    (e : Syscalls.readdir B errno (some d) s = .ok r) :
    ∃ x d₁, Syscalls.nextEntry B d s = .ok (x, d₁, r.vfs) ∧
      (∀ err, x = .error err → r.errno = err) ∧ (∀ entry, x = .ok entry → r.ret = entry) ∧
      ∃ d₂, r.dirp = some d₂ ∧ d₂.position = d₁.position ∧ d₂.dirh = d₁.dirh := by
  unfold Syscalls.readdir at e
  simp only at e
  split at e
  · cases e
  · rename_i h
    cases e
    exact ⟨_, _, h, fun _ he => Except.error.inj he, nofun, _, rfl, rfl, rfl⟩
  · rename_i h
    cases e
    exact ⟨_, _, h, nofun, fun _ he => Except.ok.inj he, _, rfl, rfl, rfl⟩
  · rename_i h
    cases e
    exact ⟨_, _, h, nofun, fun _ he => Except.ok.inj he, _, rfl, rfl, rfl⟩

/-- `readdir_r` reads an entry when it has somewhere to put it. -/
lemma readdirR_ok {errno : ErrorCode} {entry : Dirent} {result : Option Dirent}
    {r : DirResult σ Syscalls.ReaddirR}
    (e : Syscalls.readdirR B errno (some d) entry result s = .ok r) :
    (result = none ∧ r.dirp = some d ∧ r.vfs = s) ∨
      (result ≠ none ∧ ∃ x d₁, Syscalls.nextEntry B d s = .ok (x, d₁, r.vfs) ∧ r.dirp = some d₁) := by
  unfold Syscalls.readdirR at e
  simp only at e
  split at e
  · rename_i hr
    cases e
    exact .inl ⟨hr, rfl, rfl⟩
  · rename_i hr
    refine .inr ⟨hr, ?_⟩
    split at e
    · cases e
    · rename_i h
      cases e
      exact ⟨_, _, h, rfl⟩
    · rename_i h
      cases e
      exact ⟨_, _, h, rfl⟩
    · rename_i h
      cases e
      exact ⟨_, _, h, rfl⟩

/-- `rewinddir` asks the filesystem once, and goes to the start if that succeeds. -/
lemma rewinddir_ok {errno : ErrorCode} {r : DirResult σ Unit}
    (e : Syscalls.rewinddir B errno (some d) s = .ok r) :
    ∃ res, Pimpl.dirOp B .dirreset d.dirh s = .ok (res, r.vfs) ∧
      r.dirp = some (if res = 0 then { d with position := 0 } else d) := by
  unfold Syscalls.rewinddir at e
  simp only at e
  split at e
  · cases e
  · rename_i res s₁ ho
    split at e
    · rename_i h0
      cases e
      exact ⟨res, ho, congrArg some (if_neg h0).symm⟩
    · rename_i h0
      cases e
      exact ⟨res, ho, congrArg some (if_pos (not_not.mp h0)).symm⟩

/-- `seekdir` refuses what is negative, goes on from where it is, or from the start; whether it got
to the start it does not ask. -/
lemma seekdir_ok {loc : BitVec 64} {errno : ErrorCode} {r : DirResult σ Unit}
    (e : Syscalls.seekdir B errno (some d) loc s = .ok r) :
    (loc.toInt < 0 ∧ r.dirp = some d ∧ r.vfs = s) ∨
      (d.position.toInt ≤ loc.toInt ∧
        ∃ d', Syscalls.seekForward B loc d s = .ok (d', r.vfs) ∧ r.dirp = some d') ∨
      (0 ≤ loc.toInt ∧ loc.toInt < d.position.toInt ∧
        ∃ res s₁ d', Pimpl.dirOp B .dirreset d.dirh s = .ok (res, s₁) ∧
          Syscalls.seekForward B loc { d with position := 0 } s₁ = .ok (d', r.vfs) ∧
          r.dirp = some d') := by
  unfold Syscalls.seekdir at e
  simp only at e
  split at e
  · rename_i neg
    cases e
    exact .inl ⟨neg, rfl, rfl⟩
  · rename_i pos
    split at e
    · rename_i lt
      split at e
      · cases e
      · rename_i res s₁ ho
        obtain ⟨⟨d₂, s₂⟩, e', rfl⟩ := Pimpl.map_ok e
        exact .inr (.inr ⟨Int.not_lt.mp pos, lt, res, s₁, d₂, ho, e', rfl⟩)
    · rename_i le
      obtain ⟨⟨d₂, s₂⟩, e', rfl⟩ := Pimpl.map_ok e
      exact .inr (.inl ⟨Int.not_lt.mp le, d₂, e', rfl⟩)

/-- Seeking keeps the handle. -/
lemma seekLoop_dirh {n : Nat} (e : Syscalls.seekLoop B n d s = .ok (d', s')) :
    (∃ l, Ops B d.dirh s l s') ∧ d'.dirh = d.dirh := by
  obtain ⟨l, _, o, -, rfl, -⟩ := seekLoop_ok e
  exact ⟨⟨l, o⟩, rfl⟩

/-- A call calls the filesystem for its own handle only. -/
lemma run_ops {c : Syscalls.DirCall} {errno : ErrorCode}
    (e : Syscalls.DirCall.run B errno d s c = .ok (some d', s')) :
    (∃ l, Ops B d.dirh s l s') ∧ d'.dirh = d.dirh := by
  have next : ∀ {x d₁ s₁}, Syscalls.nextEntry B d s = .ok (x, d₁, s₁) →
      (∃ l, Ops B d.dirh s l s₁) ∧ d₁.dirh = d.dirh := by
    intro x d₁ s₁ e
    obtain ⟨ret, out, ho, rfl, -⟩ := nextEntry_ok e
    obtain ⟨l, hl⟩ := dirOp_log (by decide) ho
    refine ⟨⟨l, .one (by decide) ho hl⟩, ?_⟩
    split <;> rfl
  cases c with
  | readdir =>
    obtain ⟨r, e', er⟩ := Pimpl.map_ok e
    obtain ⟨hd, rfl⟩ := Prod.mk.inj er
    obtain ⟨x, d₁, hx, -, -, d₂, hd₂, -, hh⟩ := readdir_ok e'
    cases hd.symm.trans hd₂
    exact ⟨(next hx).1, hh.trans (next hx).2⟩
  | readdirR entry result =>
    obtain ⟨r, e', er⟩ := Pimpl.map_ok e
    obtain ⟨hd, rfl⟩ := Prod.mk.inj er
    rcases readdirR_ok e' with ⟨-, hd₂, hs⟩ | ⟨-, x, d₁, hx, hd₂⟩
    · cases hd.symm.trans hd₂
      rw [hs]
      exact ⟨⟨[], .nil⟩, rfl⟩
    · cases hd.symm.trans hd₂
      exact next hx
  | rewinddir =>
    obtain ⟨r, e', er⟩ := Pimpl.map_ok e
    obtain ⟨hd, rfl⟩ := Prod.mk.inj er
    obtain ⟨res, ho, hd₂⟩ := rewinddir_ok e'
    cases hd.symm.trans hd₂
    obtain ⟨l, hl⟩ := dirOp_log (by decide) ho
    refine ⟨⟨l, .one (by decide) ho hl⟩, ?_⟩
    split <;> rfl
  | seekdir loc =>
    obtain ⟨r, e', er⟩ := Pimpl.map_ok e
    obtain ⟨hd, rfl⟩ := Prod.mk.inj er
    rcases seekdir_ok e' with ⟨-, hd₂, hs⟩ | ⟨-, d₂, e₂, hd₂⟩ | ⟨-, -, res, s₁, d₂, ho, e₂, hd₂⟩
    · cases hd.symm.trans hd₂
      rw [hs]
      exact ⟨⟨[], .nil⟩, rfl⟩
    · cases hd.symm.trans hd₂
      exact seekLoop_dirh e₂
    · cases hd.symm.trans hd₂
      obtain ⟨l₁, hl₁⟩ := dirOp_log (by decide) ho
      obtain ⟨⟨l, o⟩, hh⟩ := seekLoop_dirh e₂
      exact ⟨⟨l₁ ++ l, .cons (by decide) ho hl₁ o⟩, hh⟩

/-! ### The position -/

/-- In step, as integers. -/
lemma inStep_iff : InStep m ↔ m.dirp.position.toInt = m.consumed :=
  ⟨fun h => h 0, fun h _ => h⟩

/-- The position does not wrap below `LONG_MAX`. -/
lemma toInt_add_ofNat {p : BitVec 64} {k : Nat} (h : p.toInt + k < 2 ^ 63) :
    (p + BitVec.ofNat 64 k).toInt = p.toInt + k := by
  have lo := BitVec.le_two_mul_toInt (x := p)
  have hi := BitVec.two_mul_toInt_lt (x := p)
  have hp : 0 ≤ (k : Int) := Int.natCast_nonneg k
  rw [BitVec.toInt_add, BitVec.toInt_ofNat', Int.add_bmod_bmod]
  apply Int.bmod_eq_of_le <;> omega

/-- One entry more, unless the position wraps. -/
lemma toInt_add_one {p : BitVec 64} {n : Nat} (h : p.toInt = n) :
    (p + 1).toInt = (n + 1 : Nat) ↔ n + 1 < 2 ^ 63 := by
  constructor
  · intro e
    have hi := BitVec.two_mul_toInt_lt (x := p + 1)
    omega
  · intro lt
    have e : (p + BitVec.ofNat 64 1).toInt = p.toInt + (1 : Nat) := toInt_add_ofNat (by omega)
    rw [h] at e
    exact_mod_cast e

/-- Reading an entry keeps the position exactly if the entry fits. -/
lemma nextEntry_inStep {n : Nat} {r : Except ErrorCode (Option Dirent)} (h : d.position.toInt = n)
    (e : Syscalls.nextEntry B d s = .ok (r, d', s')) (hl : s'.log = s.log ++ l) :
    d'.position.toInt = l.foldl (tally d.dirh) n ↔ NextFits B ⟨d, s, n⟩ := by
  obtain ⟨ret, out, ho, rfl, -⟩ := nextEntry_ok e
  rw [dirOp_tally (by decide) ho hl, DirOp.moved, DirOp.code]
  by_cases h0 : ret = 0
  · subst h0
    have fits : NextFits B ⟨d, s, n⟩ ↔
        (out.getD ([], {})).1.length < Dirent.nameSize ∧ n + 1 < 2 ^ 63 := by
      constructor
      · intro f
        exact f out s' ho
      · intro f out' s'' ho'
        cases ho.symm.trans ho'
        exact f
    rw [fits, if_pos rfl]
    -- an entry with too long a name is consumed and not counted
    by_cases hs : (out.getD ([], {})).1.length < Dirent.nameSize
    · rw [if_pos ⟨rfl, hs⟩]
      exact (toInt_add_one h).trans (and_iff_right hs).symm
    · rw [if_neg fun h' => hs h'.2]
      refine iff_of_false ?_ fun f => hs f.1
      show d.position.toInt ≠ _
      omega
  · rw [if_neg h0, if_neg fun h' => h0 h'.1]
    refine iff_of_true h fun out' s'' ho' => ?_
    cases ho.symm.trans ho'
    exact absurd rfl h0

/-- `seekdir` ends as far from the entries consumed as its loop began. -/
lemma seekForward_diff {loc : BitVec 64}
    (e : Syscalls.seekForward B loc d s = .ok (d', s')) (hl : s'.log = s.log ++ l) (n : Nat) :
    d'.position.toInt - (l.foldl (tally d.dirh) n : Nat) = d.position.toInt - n := by
  obtain ⟨l', k, o, hk, rfl, hc⟩ := seekLoop_ok e
  obtain rfl := List.append_cancel_left (o.log.symm.trans hl)
  have hi := BitVec.two_mul_toInt_lt (x := loc)
  have hd := BitVec.two_mul_toInt_lt (x := d.position)
  have hp : (d.position + BitVec.ofNat 64 k).toInt = d.position.toInt + k :=
    toInt_add_ofNat (by omega)
  rw [hc]
  show (d.position + BitVec.ofNat 64 k).toInt - _ = _
  rw [hp]
  push_cast
  omega

/-- From the start `seekdir` ends with the position of the entries consumed exactly if it is there. -/
lemma seekForward_start {loc : BitVec 64} {res : ErrorCode} {s₁ : Pimpl σ} {n : Nat} (pos : 0 < n)
    (ho : Pimpl.dirOp B .dirreset d.dirh s = .ok (res, s₁))
    (e : Syscalls.seekForward B loc { d with position := 0 } s₁ = .ok (d', s'))
    (hl : s'.log = s.log ++ l) :
    d'.position.toInt = l.foldl (tally d.dirh) n ↔ res = 0 := by
  obtain ⟨l₁, hl₁⟩ := dirOp_log (by decide) ho
  obtain ⟨l₂, _, o, -, -, -⟩ := seekLoop_ok e
  have hl₂ := o.log
  have hl' : l = l₁ ++ l₂ := by
    rw [hl₁, List.append_assoc] at hl₂
    exact List.append_cancel_left (hl.symm.trans hl₂)
  have ht := dirOp_tally (by decide) ho hl₁ n
  have diff : d'.position.toInt - (l₂.foldl (tally d.dirh) (l₁.foldl (tally d.dirh) n) : Nat) =
      0 - (l₁.foldl (tally d.dirh) n : Nat) := seekForward_diff e hl₂ _
  rw [hl', List.foldl_append]
  rw [ht, DirOp.moved, DirOp.code] at diff ⊢
  by_cases h0 : res = 0
  · rw [if_pos h0] at diff ⊢
    exact iff_of_true (by omega) h0
  · rw [if_neg h0] at diff ⊢
    exact iff_of_false (by omega) h0

/-- Seeking keeps the position exactly if the way back to the start does not fail. -/
lemma seekdir_inStep {loc : BitVec 64} {n : Nat} {errno : ErrorCode} {r : DirResult σ Unit}
    (h : d.position.toInt = n) (e : Syscalls.seekdir B errno (some d) loc s = .ok r)
    (hd : r.dirp = some d') (hl : r.vfs.log = s.log ++ l) :
    d'.position.toInt = l.foldl (tally d.dirh) n ↔ Fits B ⟨d, s, n⟩ (.call (.seekdir loc)) := by
  rcases seekdir_ok e with ⟨neg, hd₂, hs⟩ | ⟨le, d₂, e', hd₂⟩ | ⟨pos, lt, res, s₁, d₂, ho, e', hd₂⟩
  · cases hd.symm.trans hd₂
    rw [hs] at hl
    obtain rfl : l = [] := List.self_eq_append_right.mp hl
    exact iff_of_true h fun pos => absurd neg (Int.not_lt.mpr pos)
  · cases hd.symm.trans hd₂
    have diff := seekForward_diff e' hl n
    exact iff_of_true (by omega) fun _ lt => absurd lt (Int.not_lt.mpr le)
  · cases hd.symm.trans hd₂
    refine (seekForward_start (by omega) ho e' hl).trans ?_
    constructor
    · intro h0 _ _ res' s' ho'
      cases ho.symm.trans ho'
      exact h0
    · intro f
      exact f pos lt res s₁ ho

/-- `rewinddir` sets the position to where the cursor is. -/
lemma rewinddir_inStep {n : Nat} {errno : ErrorCode} {r : DirResult σ Unit}
    (h : d.position.toInt = n) (e : Syscalls.rewinddir B errno (some d) s = .ok r)
    (hd : r.dirp = some d') (hl : r.vfs.log = s.log ++ l) :
    d'.position.toInt = l.foldl (tally d.dirh) n := by
  obtain ⟨res, ho, hd₂⟩ := rewinddir_ok e
  cases hd.symm.trans hd₂
  rw [dirOp_tally (by decide) ho hl, DirOp.moved, DirOp.code]
  split
  · rfl
  · exact h

/-- A call keeps the position exactly if it fits. -/
lemma run_inStep {c : Syscalls.DirCall} {n : Nat} {errno : ErrorCode} (h : d.position.toInt = n)
    (e : Syscalls.DirCall.run B errno d s c = .ok (some d', s')) (hl : s'.log = s.log ++ l) :
    d'.position.toInt = l.foldl (tally d.dirh) n ↔ Fits B ⟨d, s, n⟩ (.call c) := by
  cases c with
  | readdir =>
    obtain ⟨r, e', er⟩ := Pimpl.map_ok e
    obtain ⟨hd, rfl⟩ := Prod.mk.inj er
    obtain ⟨x, d₁, hx, -, -, d₂, hd₂, hp, -⟩ := readdir_ok e'
    cases hd.symm.trans hd₂
    rw [hp]
    exact nextEntry_inStep h hx hl
  | readdirR entry result =>
    obtain ⟨r, e', er⟩ := Pimpl.map_ok e
    obtain ⟨hd, rfl⟩ := Prod.mk.inj er
    rcases readdirR_ok e' with ⟨hr, hd₂, hs⟩ | ⟨hr, x, d₁, hx, hd₂⟩
    · cases hd.symm.trans hd₂
      rw [hs] at hl
      obtain rfl : l = [] := List.self_eq_append_right.mp hl
      exact iff_of_true h fun hr' => absurd hr hr'
    · cases hd.symm.trans hd₂
      exact (nextEntry_inStep h hx hl).trans ⟨fun f _ => f, fun f => f hr⟩
  | rewinddir =>
    obtain ⟨r, e', er⟩ := Pimpl.map_ok e
    obtain ⟨hd, rfl⟩ := Prod.mk.inj er
    exact iff_of_true (rewinddir_inStep h e' hd hl) trivial
  | seekdir loc =>
    obtain ⟨r, e', er⟩ := Pimpl.map_ok e
    obtain ⟨hd, rfl⟩ := Prod.mk.inj er
    exact seekdir_inStep h e' hd hl

/-- What one step keeps. -/
lemma InStep.step {lab : Label σ} (h : InStep m) (st : Step B m lab m') :
    InStep m' ↔ Fits B m lab := by
  cases st with
  | call e hl => exact inStep_iff.trans (run_inStep (inStep_iff.mp h) e hl)
  | other => exact iff_of_true h trivial

/-- A stream just opened is in step. -/
lemma Opened.inStep (o : Opened B m) : InStep m := by
  obtain ⟨h0, errno, dirname, s, hd, -⟩ := o
  rw [inStep_iff, h0]
  unfold Syscalls.opendir at hd
  split at hd
  · cases hd
  · split at hd
    · cases hd
    · rw [← Option.some.inj hd]
      rfl

/-- A stream stays in step through a run. -/
lemma InStep.runs {ok : Session σ → Label σ → Prop} (fits : ∀ {m l}, ok m l → Fits B m l)
    (h : InStep m₀) (run : Runs (Step B) ok m₀ m) : InStep m := by
  refine run.invariant (I := InStep) ?_ h
  intro _ _ _ h g st
  exact (h.step st).mpr (fits g)

end Session

end Evfs
