import Evfs.Vfs.Destroy

/-!
# Descriptor numbers

The descriptors that `open` returns come from one counter of the process, an `int` that is only ever
incremented. They are new, and none of a standard stream, as long as the counter has not passed the
largest `int` (`numbered_iff`). A number that is not in the table is refused by all operations on
descriptors but the two that take every number below 3 for a standard stream (`refused_iff`).
-/

namespace Evfs
open Lib
namespace Pimpl
variable {σ : Type} {B : Backend σ} {s s' s₀ : Pimpl σ} {h : List Label}

/-! ### The numbers that are given out -/

/-- Only `open` takes a descriptor. -/
lemma idx_effect {a : Action} (ha : ∀ path flags mode, a ≠ .open path flags mode)
    (ef : Effect B s a s') : s'.idx = s.idx := by
  cases ef.descriptors with
  | same hi _ => exact hi
  | opened => exact absurd rfl (ha _ _ _)
  | closed hi _ => exact hi
  | marked hi _ => exact hi

/-- A step that opens a file, here or on another object, advances the counter by one. -/
lemma idx_step {l : Label} (st : Step B s l s') :
    (opens (l :: h) = opens h + 1 ∧ s'.idx = nextIdx s.idx) ∨
      (opens (l :: h) = opens h ∧ s'.idx = s.idx) := by
  cases st with
  | op al e =>
    rename_i a r
    cases a with
    | «open» path flags mode =>
      have ho : Pimpl.open B path flags mode s = (r, s') := Except.ok.inj e
      cases r with
      | error err => exact .inr ⟨rfl, (open_error ho).idx⟩
      | ok fd =>
        obtain ⟨_, _, _, -, -, -, -, -, -, -, -, hi⟩ := open_ok ho
        exact .inl ⟨rfl, hi⟩
    | _ => exact .inr ⟨rfl, idx_effect (fun _ _ _ e => by cases e) (exec_effect e)⟩
  | rehash rh => exact .inr ⟨rfl, by rw [rh.rest]⟩
  | foreignOpen => exact .inl ⟨rfl, rfl⟩
  | registerDevice => exact .inr ⟨rfl, rfl⟩
  | unregisterDevice => exact .inr ⟨rfl, rfl⟩

/-- The counter is an `int`. -/
lemma nextIdx_bmod {n : Nat} :
    nextIdx ((3 + n : Int).bmod (2 ^ 32)) = (3 + (n + 1 : Nat) : Int).bmod (2 ^ 32) := by
  rw [nextIdx, Int.add_bmod, Int.bmod_bmod, ← Int.add_bmod]
  congr 1

/-- The counter after any run is the number of opens, as an `int`. -/
lemma idx_run (first : s₀.idx = 3) (tr : Trace (Step B) s₀ h s) :
    s.idx = (3 + opens h : Int).bmod (2 ^ 32) := by
  apply tr.invariant (R := fun h s => s.idx = (3 + opens h : Int).bmod (2 ^ 32))
  · rw [first]
    rfl
  · intro h s l s' ih st
    rcases idx_step (h := h) st with ⟨ho, hi⟩ | ⟨ho, hi⟩
    · rw [ho, hi, ih, nextIdx_bmod]
    · rw [ho, hi, ih]

/-- A descriptor that is none of a standard stream and not open yet. -/
def Numbered (s : Pimpl σ) (fd : Int) : Prop := 3 ≤ fd ∧ fd ∉ s.fdContainer.byId

/-- From any state without open files, in every run in which no file was opened past the largest
`int`, the descriptor of the next `open` is a new one exactly if fewer than `2 ^ 31 - 3` files were
opened in the process before. -/
theorem numbered_iff (reach : Reachable B s₀) (empty : s₀.fdContainer = {}) (first : s₀.idx = 3)
    (tr : Trace (Step B) s₀ h s) (ok : opens h ≤ 2 ^ 31 - 3) {path : Str} {flags : Flags}
    {mode fd : Int}
    (st : Step B s (.op (.open path flags mode) (.ok fd)) s') :
    Numbered s fd ↔ opens h < 2 ^ 31 - 3 := by
  have hfd : fd = s.idx := by
    cases st with
    | op _ e =>
      obtain ⟨_, _, _, -, -, -, -, -, hfd, -, -, -⟩ := open_ok (Except.ok.inj e)
      exact hfd
  have hx := idx_run first tr
  constructor
  · rintro ⟨lo, -⟩
    rcases Nat.lt_or_ge (opens h) (2 ^ 31 - 3) with lt | ge
    · exact lt
    · -- the counter has wrapped
      have e : opens h = 2 ^ 31 - 3 := Nat.le_antisymm ok ge
      rw [hfd, hx, e] at lo
      exact absurd lo (by decide)
  · intro lt
    have bound : s₀.idx + opens h < 2 ^ 31 := by omega
    have tk := Tracked.run reach empty (by omega) tr bound
    have e := tk.idx
    refine ⟨by omega, fun hm => ?_⟩
    exact absurd (tk.wf.fresh hm) (by omega)

/-- Other objects of the process can take any number of descriptors. -/
lemma runs_foreign (n : Nat) :
    Runs (Step B) (fun _ _ => True) s { s with idx := nextIdx^[n] s.idx } := by
  induction n with
  | zero => exact .refl
  | succ n ih =>
    rw [Function.iterate_succ_apply']
    exact ih.tail ⟨_, trivial, .foreignOpen⟩

/-- The counter after `n` opens, with its overflow. -/
lemma iterate_nextIdx (n : Nat) : nextIdx^[n] 3 = (3 + n : Int).bmod (2 ^ 32) := by
  induction n with
  | zero => rfl
  | succ n ih =>
    rw [Function.iterate_succ_apply', ih, nextIdx_bmod]

/-- A second file is opened. -/
def bothOpen : Pimpl (FsId → Str) := play .accepting [.open "/volume10/f".toList 0 0] openFile

/-- The first one is closed again. -/
def firstClosed : Pimpl (FsId → Str) := play .accepting [.file .close 3] bothOpen

/-- Two opens and a close, the latest first. -/
def openOpenClose : List Label :=
  [.op (.file .close 3) (.ok 0), .op (.open "/volume10/f".toList 0 0) (.ok 4),
    .op (.open "/volume1/f".toList 0 0) (.ok 3)]

/-- The run with these labels. -/
lemma trace_firstClosed :
    Trace (Step .accepting) PathCall.twoVolumes openOpenClose firstClosed := by
  have st₁ : Step .accepting PathCall.twoVolumes (.op (.open "/volume1/f".toList 0 0) (.ok 3))
      openFile := .op (by decide) (exec_play (by decide) (by decide))
  have st₂ : Step .accepting openFile (.op (.open "/volume10/f".toList 0 0) (.ok 4)) bothOpen :=
    .op (by decide) (exec_play (by decide) (by decide))
  have st₃ : Step .accepting bothOpen (.op (.file .close 3) (.ok 0)) firstClosed :=
    .op (by decide) (exec_play (by decide) (by decide))
  exact .snoc (.snoc (.snoc .nil st₁) st₂) st₃

/-- A third file is opened while the second one is open: its descriptor is new. -/
theorem numbered_firstClosed : firstClosed.fdContainer.byId.keys = [4] ∧
    (Numbered firstClosed 5 ↔ opens openOpenClose < 2 ^ 31 - 3) := by
  refine ⟨by decide, ?_⟩
  have st : Step .accepting firstClosed (.op (.open "/volume1/g".toList 0 0) (.ok 5))
      (play .accepting [.open "/volume1/g".toList 0 0] firstClosed) :=
    .op (by decide) (exec_play (by decide) (by decide))
  exact numbered_iff PathCall.reachable_twoVolumes rfl rfl trace_firstClosed (by decide) st

/-- All numbers of an `int` are given out. -/
def wrapped : Pimpl (FsId → Str) := { PathCall.twoVolumes with idx := -2 ^ 31 }

/-- The session whose counter has wrapped is a run. -/
lemma runs_wrapped : Runs (Step .accepting) (fun _ _ => True) PathCall.twoVolumes wrapped := by
  have run := runs_foreign (B := .accepting) (s := PathCall.twoVolumes) (2 ^ 31 - 3)
  have hi : nextIdx^[2 ^ 31 - 3] PathCall.twoVolumes.idx = -2 ^ 31 :=
    (iterate_nextIdx (2 ^ 31 - 3)).trans (by decide)
  rwa [hi] at run

/-- After all numbers of an `int` the next descriptor is negative. -/
theorem not_numbered_wrapped :
    PathCall.twoVolumes.idx = 3 ∧
      Runs (Step .accepting) (fun _ _ => True) PathCall.twoVolumes wrapped ∧
      (exec .accepting (.open "/volume1/f".toList 0 0) wrapped).map Prod.fst =
        .ok (.ok (-2147483648)) ∧
      ¬ Numbered wrapped (-2147483648) := by
  refine ⟨rfl, runs_wrapped, by decide, ?_⟩
  rintro ⟨lo, -⟩
  exact absurd lo (by decide)

/-! ### Numbers that are not in the table -/

/-- An operation fails with `EBADF`, without any call or change, its out-parameters left alone. -/
def Refused (B : Backend σ) (s : Pimpl σ) (op : FdOp) (fd : Int) : Prop :=
  fileOp B op fd s = .ok (op.terror EBADF, s)

/-- The operations that take every number below 3 for a standard stream. -/
def TakesForStream (op : FdOp) (fd : Int) : Prop := (op = .fstat ∨ op = .isatty) ∧ fd < 3

/-- A number of no standard stream and no open file is refused by an operation exactly if this is not
one that takes it for a standard stream. -/
theorem refused_iff {op : FdOp} {fd : Int} (std : fd ≠ 0 ∧ fd ≠ 1 ∧ fd ≠ 2)
    (closed : fd ∉ s.fdContainer.byId) : Refused B s op fd ↔ ¬ TakesForStream op fd := by
  have hl : s.fdContainer.byId.lookup fd = none := AList.lookup_eq_none.mpr closed
  have hi : invokeFopsFd B op fd s = .ok (op.terror EBADF, s) := by
    simp only [invokeFopsFd, hl]
  unfold Refused TakesForStream
  cases op with
  | close => simp [fileOp, close, closed, FdOp.terror]
  | write data => simp [fileOp, write, invokeStdstreamOut, std, hi]
  | read len => simp [fileOp, read, invokeStdstreamIn, std, hi]
  | fstat =>
    by_cases h3 : fd < 3
    · simp [fileOp, fstat, h3, FdOp.terror]
    · simp [fileOp, fstat, h3, hi]
  | isatty =>
    by_cases h3 : fd < 3
    · simp [fileOp, isatty, h3, FdOp.terror]
    · simp [fileOp, isatty, h3, hi]
  | lseek _ _ => simp [fileOp, hi]
  | ftruncate _ => simp [fileOp, hi]
  | fsync => simp [fileOp, hi]
  | flock _ => simp [fileOp, hi]
  | fchmod _ => simp [fileOp, hi]

/-- A closed descriptor is refused. -/
theorem refused_closed : Refused .accepting openFile .fsync 4 ↔ ¬ TakesForStream .fsync 4 :=
  refused_iff (by decide) (by decide)

/-- `fstat` and `isatty` succeed on a negative number. -/
theorem not_refused_negative :
    Reachable .accepting openFile ∧ (-1 : Int) ∉ openFile.fdContainer.byId ∧
      ¬ Refused .accepting openFile .fstat (-1) ∧ ¬ Refused .accepting openFile .isatty (-1) := by
  refine ⟨reachable_openFile, by decide, fun h => ?_, fun h => ?_⟩
  · have e := congrArg Prod.fst (Except.ok.inj h)
    cases e
  · have e := congrArg Prod.fst (Except.ok.inj h)
    cases e

end Pimpl
end Evfs
