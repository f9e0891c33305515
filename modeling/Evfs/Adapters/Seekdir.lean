import Evfs.Adapters.Dirstream

/-!
# Seeking in a directory

On a directory that does not change, `seekdir` to what `telldir` told makes the next `readdir` return
what it would have returned then (`SeeksBack`). The position is all that `seekdir` knows, so this
rests on the invariant of `Evfs.Adapters.Dirstream`: in every run whose calls fit, `telldir` tells the
entries consumed (`inStep_runs`).
-/

namespace Evfs
open Lib
namespace Session
variable {σ : Type} (B : Backend σ)

/-- The directory has fixed entries, and `At w n` says that in the world `w` the cursor of a handle
is before the entry `n`. The filesystem may fail at any time, which leaves the cursor alone. -/
structure Unchanged (fs : FsId) (dirh : DirectoryHandle) (entries : List (Str × Stat))
    (At : σ → Nat → Prop) : Prop where
  moved {op w n} : op ≠ .dirclose → At w n →
    At (B.call fs (.dir op dirh) w).2 (op.moved (op.code (B.call fs (.dir op dirh) w).1) n)
  next {w n} : At w n →
    (∃ e, entries[n]? = some e ∧ (B.call fs (.dir .dirnext dirh) w).1 = (0, some e)) ∨
      (entries[n]? = none ∧ (B.call fs (.dir .dirnext dirh) w).1.1 = ENOENT) ∨
      ((B.call fs (.dir .dirnext dirh) w).1.1 ≠ 0 ∧
        (B.call fs (.dir .dirnext dirh) w).1.1 ≠ ENOENT)

/-- Nothing that happens besides touches the directory. -/
def Keeps (dirh : DirectoryHandle) (At : σ → Nat → Prop) (m : Session σ) : Label σ → Prop
  | .other s' => (∀ n, At m.vfs.world n → At s'.world n) ∧
    s'.mounts.lookup dirh.root = m.vfs.mounts.lookup dirh.root
  | _ => True

/-- A call on a directory that failed. -/
def Failed : Event → Prop
  | .call _ (.dir .dirnext _) e => e ≠ 0 ∧ e ≠ ENOENT
  | .call _ (.dir _ _) e => e ≠ 0
  | _ => False

/-- The next `readdir` gives the same entry in both, unless one of them fails. -/
def SameNext (m m' : Session σ) : Prop :=
  ∀ r r', Syscalls.readdir B 0 (some m.dirp) m.vfs = .ok r →
    Syscalls.readdir B 0 (some m'.dirp) m'.vfs = .ok r' → r.errno = 0 → r'.errno = 0 →
    r.ret = r'.ret

/-- On an unchanged directory `seekdir` gets back to where `telldir` was called, as long as none of
its own calls on the filesystem fails. -/
def SeeksBack (m₀ m : Session σ) : Prop :=
  ∀ fs entries At, Unchanged B fs m₀.dirp.dirh entries At → At m₀.vfs.world 0 →
    (m₀.vfs.mounts.lookup m₀.dirp.dirh.root).map MountPoint.fs = some fs →
    Runs (Step B) (fun m l => Fits B m l ∧ Keeps m₀.dirp.dirh At m l) m₀ m →
    ∀ m₁ m₂ l loc, Runs (Step B) (fun m l => Fits B m l ∧ Keeps m₀.dirp.dirh At m l) m m₁ →
      Step B m₁ (.call (.seekdir loc)) m₂ →
      loc.toInt = (Syscalls.telldir 0 (some m.dirp)).1 →
      m₂.vfs.log = m₁.vfs.log ++ l → (∀ e ∈ l, ¬ Failed e) → SameNext B m m₂

variable {B} {d d' : Dirstream} {s s' : Pimpl σ} {m m' m₀ : Session σ} {l : List Event}

section Unchanged
variable {fs : FsId} {dirh : DirectoryHandle} {entries : List (Str × Stat)} {At : σ → Nat → Prop}

/-- The cursor of the handle is where the entries consumed say. -/
structure Cursor (fs : FsId) (dirh : DirectoryHandle) (entries : List (Str × Stat))
    (At : σ → Nat → Prop) (s : Pimpl σ) (n : Nat) : Prop where
  mount : (s.mounts.lookup dirh.root).map MountPoint.fs = some fs
  cursor : At s.world n
  le : n ≤ entries.length

/-- An operation moves the cursor by one entry or back. -/
lemma Cursor.dirOp {op : DirOp} {r : op.Ret} {n : Nat} (un : Unchanged B fs dirh entries At)
    (cur : Cursor fs dirh entries At s n) (ne : op ≠ .dirclose)
    (e : Pimpl.dirOp B op dirh s = .ok (r, s')) :
    Cursor fs dirh entries At s' (op.moved (op.code r) n) ∧
      r = (B.call fs (.dir op dirh) s.world).1 := by
  obtain ⟨mp, hm, rfl, rfl⟩ := dirOp_ok ne e
  obtain rfl : mp.fs = fs := by
    have h := cur.mount
    rw [hm] at h
    exact Option.some.inj h
  refine ⟨⟨cur.mount, un.moved ne cur.cursor, ?_⟩, rfl⟩
  cases op with
  | dirclose => exact absurd rfl ne
  | dirreset =>
    rw [DirOp.moved]
    split
    · exact Nat.zero_le _
    · exact cur.le
  | dirnext =>
    rw [DirOp.moved, DirOp.code]
    rcases un.next cur.cursor with ⟨e, he, hr⟩ | ⟨-, hr⟩ | ⟨hr, -⟩
    · have lt := (List.getElem?_eq_some_iff.mp he).1
      split
      · exact lt
      · exact cur.le
    · rw [hr]
      exact cur.le
    · rw [if_neg hr]
      exact cur.le

/-- So do operations one after another. -/
lemma Cursor.ops {n : Nat} (un : Unchanged B fs dirh entries At)
    (cur : Cursor fs dirh entries At s n) (o : Ops B dirh s l s') :
    Cursor fs dirh entries At s' (l.foldl (tally dirh) n) := by
  induction o generalizing n with
  | nil => exact cur
  | cons ne e hl _ ih =>
    rw [List.foldl_append, dirOp_tally ne e hl]
    exact ih (cur.dirOp un ne e).1

/-- The invariant of a stream over an unchanged directory. -/
structure Followed (fs : FsId) (dirh : DirectoryHandle) (entries : List (Str × Stat))
    (At : σ → Nat → Prop) (m : Session σ) : Prop where
  inStep : InStep m
  handle : m.dirp.dirh = dirh
  cursor : Cursor fs dirh entries At m.vfs m.consumed

/-- Every step follows the directory. -/
lemma Followed.step {lab : Label σ} (un : Unchanged B fs dirh entries At)
    (fol : Followed fs dirh entries At m) (fits : Fits B m lab) (keeps : Keeps dirh At m lab)
    (st : Step B m lab m') : Followed fs dirh entries At m' := by
  refine ⟨(fol.inStep.step st).mpr fits, ?_, ?_⟩
  · cases st with
    | call e hl => exact (run_ops e).2.trans fol.handle
    | other => exact fol.handle
  · cases st with
    | call e hl =>
      obtain ⟨⟨l', o⟩, -⟩ := run_ops e
      obtain rfl := List.append_cancel_left (o.log.symm.trans hl)
      have h : _ = dirh := fol.handle
      simp only at h
      rw [h] at o ⊢
      exact fol.cursor.ops un o
    | other => exact ⟨keeps.2 ▸ fol.cursor.mount, keeps.1 _ fol.cursor.cursor, fol.cursor.le⟩

/-- Where no call fails, the loop of `seekdir` goes all the way. -/
lemma seekLoop_reaches {n j : Nat} (un : Unchanged B fs dirh entries At) (hh : d.dirh = dirh)
    (cur : Cursor fs dirh entries At s j) (le : j + n ≤ entries.length)
    (e : Syscalls.seekLoop B n d s = .ok (d', s')) (hl : s'.log = s.log ++ l)
    (works : ∀ ev ∈ l, ¬ Failed ev) : d'.position = d.position + BitVec.ofNat 64 n := by
  induction n generalizing d s j l with
  | zero =>
    cases e
    exact (BitVec.add_zero _).symm
  | succ n ih =>
    subst hh
    unfold Syscalls.seekLoop at e
    split at e
    · cases e
    · rename_i ret out s₁ ho
      have ne : DirOp.dirnext ≠ .dirclose := by decide
      obtain ⟨cur₁, hr⟩ := cur.dirOp un ne ho
      obtain ⟨mp, -, -, hs⟩ := dirOp_ok ne ho
      have hl₁ : s₁.log = s.log ++ _ := congrArg Pimpl.log hs
      split at e
      · -- an entry: one step further, and one less to go
        rename_i h0
        obtain ⟨l', _, o, -, -, -⟩ := seekLoop_ok e
        have hl' := o.log
        rw [DirOp.moved, DirOp.code, if_pos h0] at cur₁
        have works' : ∀ ev ∈ l', ¬ Failed ev := by
          intro ev h
          have e' := hl'
          rw [hl₁, List.append_assoc] at e'
          refine works ev ?_
          rw [List.append_cancel_left (hl.symm.trans e')]
          exact List.mem_append_right _ h
        have hp : d'.position = d.position + 1 + BitVec.ofNat 64 n :=
          ih (show ({ d with position := d.position + 1 } : Dirstream).dirh = d.dirh from rfl) cur₁
            (by omega) e hl' works'
        rw [hp, BitVec.add_assoc, BitVec.ofNat_add, BitVec.add_comm (BitVec.ofNat 64 n)]
        rfl
      · rename_i h0
        cases e
        obtain rfl := List.append_cancel_left (hl₁.symm.trans hl)
        -- the end of the directory is not before the position that is sought
        have hf := works (.call mp.fs (.dir .dirnext d'.dirh) ret) (by simp [DirOp.code])
        rcases un.next cur.cursor with ⟨e, -, hr'⟩ | ⟨hn, -⟩ | hr'
        · exact absurd (congrArg Prod.fst (hr.trans hr')) h0
        · have ge := List.getElem?_eq_none_iff.mp hn
          omega
        · rw [← hr] at hr'
          exact absurd hr' hf

/-- Where no call fails, seeking forward ends at the location. -/
lemma seekForward_reaches {loc : BitVec 64} {j : Nat} (un : Unchanged B fs dirh entries At)
    (hh : d.dirh = dirh) (cur : Cursor fs dirh entries At s j) (hj : d.position.toInt = j)
    (lo : j ≤ loc.toInt) (hi : loc.toInt ≤ entries.length)
    (e : Syscalls.seekForward B loc d s = .ok (d', s')) (hl : s'.log = s.log ++ l)
    (works : ∀ ev ∈ l, ¬ Failed ev) : d'.position.toInt = loc.toInt := by
  have lt := BitVec.two_mul_toInt_lt (x := loc)
  rw [seekLoop_reaches un hh cur (by omega) e hl works, toInt_add_ofNat (by omega)]
  omega

/-- Where no call fails, the way back to the start does not. -/
lemma fits_of_works {loc : BitVec 64} {n : Nat} {errno : ErrorCode} {r : DirResult σ Unit}
    (e : Syscalls.seekdir B errno (some d) loc s = .ok r) (hl : r.vfs.log = s.log ++ l)
    (works : ∀ ev ∈ l, ¬ Failed ev) : Fits B ⟨d, s, n⟩ (.call (.seekdir loc)) := by
  intro lo lt res s₁ ho
  rcases seekdir_ok e with ⟨neg, -⟩ | ⟨le, -⟩ | ⟨-, -, res', s₁', d₂, ho', e', -⟩
  · exact absurd neg (Int.not_lt.mpr lo)
  · exact absurd lt (Int.not_lt.mpr le)
  · cases ho.symm.trans ho'
    obtain ⟨⟨l₂, o⟩, -⟩ := seekLoop_dirh e'
    obtain ⟨mp, -, -, hs⟩ := dirOp_ok (by decide) ho
    have hl' := o.log
    rw [hs, List.append_assoc] at hl'
    obtain rfl := List.append_cancel_left (hl.symm.trans hl')
    by_contra h0
    exact works (.call mp.fs (.dir .dirreset d.dirh) res) (by simp [DirOp.code]) h0

/-- Where no call fails, `seekdir` gets to any position up to the end. -/
lemma seekdir_reaches {loc : BitVec 64} {n : Nat} {errno : ErrorCode} {r : DirResult σ Unit}
    (un : Unchanged B fs dirh entries At) (fol : Followed fs dirh entries At ⟨d, s, n⟩)
    (lo : 0 ≤ loc.toInt) (hi : loc.toInt ≤ entries.length)
    (e : Syscalls.seekdir B errno (some d) loc s = .ok r) (hd : r.dirp = some d')
    (hl : r.vfs.log = s.log ++ l) (works : ∀ ev ∈ l, ¬ Failed ev) :
    d'.position.toInt = loc.toInt := by
  have hp : d.position.toInt = n := inStep_iff.mp fol.inStep
  have hh : d.dirh = dirh := fol.handle
  have fits : Fits B ⟨d, s, n⟩ (.call (.seekdir loc)) := fits_of_works e hl works
  rcases seekdir_ok e with ⟨neg, -⟩ | ⟨le, d₂, e', hd₂⟩ | ⟨-, lt, res, s₁, d₂, ho, e', hd₂⟩
  · exact absurd neg (Int.not_lt.mpr lo)
  · cases hd.symm.trans hd₂
    exact seekForward_reaches un hh fol.cursor hp (hp ▸ le) hi e' hl works
  · cases hd.symm.trans hd₂
    subst hh
    obtain ⟨cur, -⟩ := fol.cursor.dirOp un (by decide) ho
    rw [DirOp.moved, DirOp.code, if_pos (fits lo lt res s₁ ho)] at cur
    obtain ⟨l₁, hl₁⟩ := dirOp_log (by decide) ho
    obtain ⟨⟨l₂, o⟩, -⟩ := seekLoop_dirh e'
    have hl' := o.log
    rw [hl₁, List.append_assoc] at hl'
    obtain rfl := List.append_cancel_left (hl.symm.trans hl')
    exact seekForward_reaches un
      (show ({ d with position := 0 } : Dirstream).dirh = d.dirh from rfl) cur rfl lo hi e'
      o.log fun ev h => works ev (List.mem_append_right _ h)

/-- What `readdir` returns when it does not fail is the entry at the cursor. -/
lemma Followed.readdir (un : Unchanged B fs dirh entries At)
    (fol : Followed fs dirh entries At m) {r : DirResult σ (Option Dirent)}
    (e : Syscalls.readdir B 0 (some m.dirp) m.vfs = .ok r) (h0 : r.errno = 0) :
    r.ret = entries[m.consumed]?.map fun e => Dirent.of e.1 e.2 := by
  have next : ∀ {x d₁ s₁}, Syscalls.nextEntry B m.dirp m.vfs = .ok (x, d₁, s₁) →
      ∀ entry, x = .ok entry → entry = entries[m.consumed]?.map fun e => Dirent.of e.1 e.2 := by
    intro x d₁ s₁ e entry hx
    obtain ⟨ret, out, ho, -, h⟩ := nextEntry_ok e
    rw [fol.handle] at ho
    subst hx
    have hr := (fol.cursor.dirOp un (by decide) ho).2
    rcases un.next fol.cursor.cursor with ⟨e, he, hr'⟩ | ⟨hn, hr'⟩ | ⟨hr₀, hr₁⟩
    · cases hr.trans hr'
      cases entry with
      | none => cases h
      | some entry => rw [he, h.2]; rfl
    · cases entry with
      | none => rw [hn]; rfl
      | some entry =>
        rw [← hr, h.1] at hr'
        cases hr'
    · rw [← hr] at hr₀ hr₁
      cases entry with
      | none => exact absurd h hr₁
      | some entry => exact absurd h.1 hr₀
  obtain ⟨x, d₁, hx, herr, hret, -⟩ := readdir_ok e
  cases x with
  | error err =>
    obtain ⟨_, _, -, -, hne⟩ := nextEntry_ok hx
    exact absurd ((herr _ rfl).symm.trans h0) hne
  | ok entry => exact (hret _ rfl).trans (next hx _ rfl)

/-- After a `seekdir` that works the handle is where the position says. -/
lemma Followed.seekdir {loc : BitVec 64} (un : Unchanged B fs dirh entries At)
    (fol : Followed fs dirh entries At m) (lo : 0 ≤ loc.toInt) (hi : loc.toInt ≤ entries.length)
    (st : Step B m (.call (.seekdir loc)) m') (hl : m'.vfs.log = m.vfs.log ++ l)
    (works : ∀ ev ∈ l, ¬ Failed ev) :
    Followed fs dirh entries At m' ∧ m'.consumed = loc.toInt := by
  have st' := st
  cases st with
  | call e hl' =>
    obtain ⟨r, e', er⟩ := Pimpl.map_ok e
    obtain ⟨hd, rfl⟩ := Prod.mk.inj er
    have fol' := fol.step un (fits_of_works e' hl works) trivial st'
    refine ⟨fol', ?_⟩
    rw [← inStep_iff.mp fol'.inStep]
    exact seekdir_reaches un fol lo hi e' hd hl works

end Unchanged

/-- `seekdir` to where `telldir` was reads the same entry again. -/
lemma seeksBack (opened : Opened B m₀) : SeeksBack B m₀ m := by
  intro fs entries At un at₀ hm run m₁ m₂ l loc run' st hloc hl works
  have fol₀ : Followed fs m₀.dirp.dirh entries At m₀ := by
    refine ⟨opened.inStep, rfl, hm, ?_, ?_⟩ <;> rw [opened.1]
    · exact at₀
    · exact Nat.zero_le _
  have keep : ∀ {m m' : Session σ}, Followed fs m₀.dirp.dirh entries At m →
      Runs (Step B) (fun m l => Fits B m l ∧ Keeps m₀.dirp.dirh At m l) m m' →
      Followed fs m₀.dirp.dirh entries At m' := by
    intro m m' fol run
    refine run.invariant (I := Followed fs m₀.dirp.dirh entries At) ?_ fol
    intro _ _ _ fol g st
    exact fol.step un g.1 g.2 st
  have fol := keep fol₀ run
  have hp : loc.toInt = m.consumed := hloc.trans (fol.inStep 0)
  have le := fol.cursor.le
  obtain ⟨fol₂, h₂⟩ := (keep fol run').seekdir un (by omega) (by omega) st hl works
  have same : m₂.consumed = m.consumed := Int.natCast_inj.mp (h₂.trans hp)
  intro r r' e e' h0 h0'
  rw [fol.readdir un e h0, fol₂.readdir un e' h0', same]

/-- In every run of a stream whose reads find names that fit and whose seeks get back to the start,
`telldir` tells the entries consumed; the next step keeps this exactly if it is of this kind; and on
an unchanged directory `seekdir` gets back to what `telldir` told. -/
theorem inStep_runs (opened : Opened B m₀) (run : Runs (Step B) (Fits B) m₀ m) :
    InStep m ∧ (∀ lab m', Step B m lab m' → (InStep m' ↔ Fits B m lab)) ∧ SeeksBack B m₀ m := by
  have h : InStep m := opened.inStep.runs id run
  exact ⟨h, fun _ _ st => h.step st, seeksBack opened⟩

/-! ### Runs of a stream -/

/-- What a filesystem with one directory answers, and where it leaves the cursor; `reset` is what
going back to the start comes to. -/
def list (entries : List (Str × Stat)) (reset : ErrorCode) (root : Str) (fs : FsId) (n : Nat) :
    (c : Call) → c.Ret × Nat
  | .dir .dirnext _ =>
    match entries[n]? with
    | some e => ((0, some e), n + 1)
    | none => ((ENOENT, none), n)
  | .dir .dirreset _ => (reset, if reset = 0 then 0 else n)
  | c => (Backend.accept root fs c, n)

/-- Filesystems that accept every other call. -/
def listing (entries : List (Str × Stat)) (reset : ErrorCode) : Backend ((FsId → Str) × Nat) where
  sectorSize _ w := (.ok 512, w)
  create _ _ _ w := w
  call fs c w :=
    ((list entries reset (w.1 fs) fs w.2 c).1,
      (Backend.acceptRoots fs c w.1, (list entries reset (w.1 fs) fs w.2 c).2))
  stream op w := ((Backend.accepting.stream op w.1).1, w)
  rootOf w := w.1
  mount_root fs r fl w _ := by simp [Backend.acceptRoots]
  mount_frame fs r fl w fs' h := by simp [Backend.acceptRoots, h]
  create_frame _ _ _ _ _ _ := rfl
  call_frame fs c w fs' h := Backend.accepting.call_frame fs c w.1 fs' h
  sectorSize_frame _ _ _ := rfl
  stream_frame _ _ _ := rfl
  open_stamp fs p fl m w h e := by cases e; exact ⟨rfl, rfl⟩
  diropen_stamp fs p w h e := by cases e; exact ⟨rfl, rfl⟩

/-- The sample directory stays as it is. -/
lemma unchanged_listing {entries : List (Str × Stat)} {reset : ErrorCode} {fs : FsId}
    {dirh : DirectoryHandle} :
    Unchanged (listing entries reset) fs dirh entries fun w n => w.2 = n where
  moved {op w n} ne h := by
    subst h
    cases op with
    | dirclose => exact absurd rfl ne
    | dirreset => rfl
    | dirnext =>
      simp only [listing, list]
      split <;> rfl
  next {w n} h := by
    subst h
    simp only [listing, list]
    split
    · rename_i e he
      exact .inl ⟨e, he, rfl⟩
    · rename_i he
      exact .inr (.inl ⟨he, rfl⟩)

/-- The stream after a call. -/
def called (B : Backend σ) (c : Syscalls.DirCall) (m : Session σ) : Session σ :=
  match Syscalls.DirCall.run B 0 m.dirp m.vfs c with
  | .ok (some d, s) =>
    ⟨d, s, (s.log.drop m.vfs.log.length).foldl (tally m.dirp.dirh) m.consumed⟩
  | _ => m

/-- A call that returns a stream is a step. -/
lemma step_called {c : Syscalls.DirCall}
    (h : (Syscalls.DirCall.run B 0 m.dirp m.vfs c).map (fun r => r.1.isSome) = .ok true) :
    Step B m (.call c) (called B c m) := by
  obtain ⟨⟨d, s⟩, e, hd⟩ := Pimpl.map_ok h
  obtain ⟨d, rfl⟩ := Option.isSome_iff_exists.mp hd
  obtain ⟨⟨l, o⟩, -⟩ := run_ops e
  have hl : s.log = m.vfs.log ++ s.log.drop m.vfs.log.length := by
    rw [o.log, List.drop_left]
  have st := Step.call (n := m.consumed) e hl
  simpa only [called, e] using st

/-- The next entry fits. -/
lemma nextFits_of_map {ret : ErrorCode} {out : Option (Str × Stat)}
    (h : (Pimpl.dirOp B .dirnext m.dirp.dirh m.vfs).map Prod.fst = .ok (ret, out))
    (fits : (out.getD ([], {})).1.length < Dirent.nameSize ∧ m.consumed + 1 < 2 ^ 63) :
    NextFits B m := by
  intro out' s' e
  rw [e] at h
  obtain ⟨-, rfl⟩ := Prod.mk.inj (Except.ok.inj h)
  exact fits

/-- The directory `/a` of a mounted filesystem, opened. -/
def openedRoot (B : Backend ((FsId → Str) × Nat)) : Session ((FsId → Str) × Nat) where
  dirp := { dirh := ⟨0, "/a".toList, 0⟩ }
  vfs := (Syscalls.opendir B 0 (some "/a".toList)
    (Pimpl.play B [.registerFilesystem .ext4, .mount "sdp0".toList "/a".toList [] 0]
      (Pimpl.sample (fun _ => [], 0)))).vfs

/-- Two entries. -/
def twoEntries : List (Str × Stat) := [("a".toList, {}), ("b".toList, {})]

/-- The sample stream is open. -/
lemma opened_twoEntries : Opened (listing twoEntries 0) (openedRoot (listing twoEntries 0)) :=
  ⟨rfl, 0, some "/a".toList, _, by decide, rfl⟩

/-- `readdir` gives the first of them. -/
def firstRead : Session ((FsId → Str) × Nat) :=
  called (listing twoEntries 0) .readdir (openedRoot (listing twoEntries 0))

/-- Then it gives the second. -/
def secondRead : Session ((FsId → Str) × Nat) := called (listing twoEntries 0) .readdir firstRead

/-- Then `seekdir` goes back to what `telldir` told in between. -/
def soughtBack : Session ((FsId → Str) × Nat) :=
  called (listing twoEntries 0) (.seekdir 1) secondRead

/-- Its first entry fits. -/
lemma nextFits_openedRoot :
    NextFits (listing twoEntries 0) (openedRoot (listing twoEntries 0)) := by
  have h : (Pimpl.dirOp (listing twoEntries 0) .dirnext ⟨0, "/a".toList, 0⟩
      (openedRoot (listing twoEntries 0)).vfs).map Prod.fst = .ok (0, some ("a".toList, {})) := by
    decide +kernel
  exact nextFits_of_map h (by decide +kernel)

/-- And its second. -/
lemma nextFits_firstRead : NextFits (listing twoEntries 0) firstRead := by
  have h : (Pimpl.dirOp (listing twoEntries 0) .dirnext ⟨0, "/a".toList, 0⟩
      firstRead.vfs).map Prod.fst = .ok (0, some ("b".toList, {})) := by
    decide +kernel
  exact nextFits_of_map h (by decide +kernel)

/-- The stream after its first entry, sought back. -/
theorem inStep_firstRead :
    InStep firstRead ∧ SameNext (listing twoEntries 0) firstRead soughtBack := by
  have st₁ : Step (listing twoEntries 0) (openedRoot (listing twoEntries 0)) (.call .readdir)
      firstRead := step_called (by decide +kernel)
  have st₂ : Step (listing twoEntries 0) firstRead (.call .readdir) secondRead :=
    step_called (by decide +kernel)
  have st₃ : Step (listing twoEntries 0) secondRead (.call (.seekdir 1)) soughtBack :=
    step_called (by decide +kernel)
  have run := inStep_runs opened_twoEntries (.single ⟨.call .readdir, nextFits_openedRoot, st₁⟩)
  refine ⟨run.1, ?_⟩
  apply run.2.2 0 twoEntries (fun w n => w.2 = n) unchanged_listing rfl (by decide +kernel)
    (.single ⟨.call .readdir, ⟨nextFits_openedRoot, trivial⟩, st₁⟩) secondRead soughtBack
    (soughtBack.vfs.log.drop secondRead.vfs.log.length) 1
    (.single ⟨.call .readdir, ⟨nextFits_firstRead, trivial⟩, st₂⟩) st₃
  · decide +kernel
  · decide +kernel
  · have hl : soughtBack.vfs.log.drop secondRead.vfs.log.length =
        [.lock 0, .call 0 (.dir .dirreset ⟨0, "/a".toList, 0⟩) 0, .unlock 0,
          .lock 0, .call 0 (.dir .dirnext ⟨0, "/a".toList, 0⟩) 0, .unlock 0] := by
      decide +kernel
    rw [hl]
    simp [Failed]

/-- An entry whose name does not fit into a `dirent`. -/
def longName : List (Str × Stat) := [(List.replicate 256 'a', {})]

/-- A name that does not fit is consumed and not told; and neither is what a `seekdir` that does not
get back to the start leaves consumed. -/
theorem not_inStep_readdir :
    let B₁ := listing longName 0
    let B₂ := listing twoEntries EIO
    (Opened B₁ (openedRoot B₁) ∧ Step B₁ (openedRoot B₁) (.call .readdir)
        (called B₁ .readdir (openedRoot B₁)) ∧
      ¬ InStep (called B₁ .readdir (openedRoot B₁))) ∧
    Opened B₂ (openedRoot B₂) ∧
      Step B₂ (openedRoot B₂) (.call .readdir) (called B₂ .readdir (openedRoot B₂)) ∧
      InStep (called B₂ .readdir (openedRoot B₂)) ∧
      Step B₂ (called B₂ .readdir (openedRoot B₂)) (.call (.seekdir 0))
        (called B₂ (.seekdir 0) (called B₂ .readdir (openedRoot B₂))) ∧
      ¬ InStep (called B₂ (.seekdir 0) (called B₂ .readdir (openedRoot B₂))) := by
  refine ⟨⟨⟨rfl, 0, some "/a".toList, _, by decide +kernel, rfl⟩, step_called (by decide +kernel),
    fun h => ?_⟩, ⟨rfl, 0, some "/a".toList, _, by decide +kernel, rfl⟩,
    step_called (by decide +kernel), inStep_iff.mpr (by decide +kernel),
    step_called (by decide +kernel), fun h => ?_⟩
  · exact absurd (h 0) (by decide +kernel)
  · exact absurd (h 0) (by decide +kernel)

end Session

end Evfs
