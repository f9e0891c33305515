import Evfs.Common.VfsStep

/-!
# Dispatch of paths to mount points

Which mount point an operation on a path reaches (`find_mount_point`, `invoke_fops`,
`invoke_fops_same_mp` and `stat_parts_of` of `lib/common/vfs.cpp`), against the root that owns the
path: the longest mounted root that is the path or a whole-component prefix of it. The code takes the
first key in the iteration order that occurs anywhere in the path, and the results here say exactly
when that comes to the same.
-/

namespace Evfs
open Lib

/-- An absolute path. -/
structure AbsPath where
  val : Str
  rooted : Path.hasRootPath val = true

namespace AbsPath

def norm (p : AbsPath) : Str := Path.lexicallyNormal p.val

/-- An absolute path is made normal. -/
lemma absolutePath (p : AbsPath) : absolutePath p.val = .ok p.norm := if_pos p.rooted

/-- An absolute path is not empty. -/
lemma ne_nil (p : AbsPath) : p.val ≠ [] := by
  intro e
  have h := p.rooted
  rw [e] at h
  cases h

end AbsPath

/-- The operations that take a path, with their further arguments. -/
inductive PathCall where
  | open (flags : Flags) (mode : Int)
  | path (op : PathOp)
  | rename (newname : AbsPath)
  | diropen
  | statPartsOf

/-- `k` is the first key, in iteration order, that occurs in the path. -/
def FirstMatch (mounts : UnorderedMap Str MountPoint) (path k : Str) (mp : MountPoint) : Prop :=
  ∃ pre post, mounts.entries = pre ++ ⟨k, mp⟩ :: post ∧ k <:+: path ∧ ∀ e ∈ pre, ¬ e.1 <:+: path

/-- The mount found is the first whose root occurs in the path. -/
lemma findMountPoint_eq_some {mounts : UnorderedMap Str MountPoint} {path : Str}
    {mp : MountPoint} :
    findMountPoint mounts path = some mp ↔ ∃ k, FirstMatch mounts path k mp := by
  unfold findMountPoint FirstMatch
  simp only [Option.map_eq_some_iff, List.find?_eq_some_iff_append, decide_eq_true_eq,
    Bool.not_eq_true', decide_eq_false_iff_not]
  constructor
  · rintro ⟨⟨k, mp'⟩, ⟨hk, pre, post, e, h⟩, rfl⟩
    exact ⟨k, pre, post, e, hk, h⟩
  · rintro ⟨k, pre, post, e, hk, h⟩
    exact ⟨⟨k, mp⟩, ⟨hk, pre, post, e, h⟩, rfl⟩

/-- None is found where no root occurs in the path. -/
lemma findMountPoint_eq_none {mounts : UnorderedMap Str MountPoint} {path : Str} :
    findMountPoint mounts path = none ↔ ∀ k ∈ mounts, ¬ k <:+: path := by
  simp only [findMountPoint, Option.map_eq_none_iff, List.find?_eq_none, decide_eq_true_eq]
  constructor
  · intro h k hk
    obtain ⟨mp, e⟩ := UnorderedMap.exists_lookup hk
    exact h _ (UnorderedMap.mem_entries_iff.mpr e)
  · intro h e he
    exact h _ (List.mem_keys_of_mem he)

/-- The first match is in the table. -/
lemma FirstMatch.lookup {mounts : UnorderedMap Str MountPoint} {path k : Str} {mp : MountPoint}
    (h : FirstMatch mounts path k mp) : mounts.lookup k = some mp := by
  obtain ⟨pre, post, e, -⟩ := h
  apply UnorderedMap.mem_entries_iff.mp
  rw [e]
  exact List.mem_append_right _ List.mem_cons_self

namespace Pimpl
variable {σ : Type} {B : Backend σ} {s : Pimpl σ}

/-- The call stands between its lock and unlock. -/
lemma log_lockedCall {mp : MountPoint} {c : Call} :
    (lockedCall B mp c s).2.log = s.log ++
      [.lock mp.fs, .call mp.fs c (c.code (lockedCall B mp c s).1), .unlock mp.fs] := by
  simp [lockedCall, callFs, lock, unlock]

/-- Locking and unlocking is logged. -/
lemma log_lock_unlock {mp : MountPoint} :
    ((s.lock mp).unlock mp).log = s.log ++ [.lock mp.fs, .unlock mp.fs] := by
  simp [lock, unlock]

/-! ### One lemma for each way into a filesystem -/

/-- A path operation on a mount that is found. -/
lemma invokeFopsPath_found (op : PathOp) {p : AbsPath} {mp : MountPoint}
    (h : findMountPoint s.mounts p.norm = some mp) :
    invokeFopsPath B op p.val s = lockedCall B mp (.path op p.norm) s := by
  simp only [invokeFopsPath, if_neg p.ne_nil, p.absolutePath, h]

/-- A path operation without one is `ENOENT`. -/
lemma invokeFopsPath_none (op : PathOp) {p : AbsPath}
    (h : findMountPoint s.mounts p.norm = none) :
    invokeFopsPath B op p.val s = (op.terror ENOENT, s) := by
  simp only [invokeFopsPath, if_neg p.ne_nil, p.absolutePath, h]

/-- The root of every absolute path is `/`. -/
lemma rootPath_norm (p : AbsPath) : rootPath p.norm = ['/'] :=
  if_pos (Path.hasRootPath_lexicallyNormal p.rooted)

/-- Two absolute paths always have the same root path. -/
lemma rename_absolute (a b : AbsPath) :
    rename B a.val b.val s =
      match findMountPoint s.mounts a.norm with
      | none => (ENOENT, s)
      | some mp =>
        if mp.flags.test MountFlags.readOnly then (EACCES, (s.lock mp).unlock mp)
        else lockedCall B mp (.rename a.norm b.norm) s := by
  have h : ¬ (a.val = [] ∨ b.val = []) := not_or.mpr ⟨a.ne_nil, b.ne_nil⟩
  have hr : ¬ rootPath a.norm ≠ rootPath b.norm := by
    rw [rootPath_norm, rootPath_norm]
    exact not_not.mpr rfl
  rw [rename, if_neg h, a.absolutePath, b.absolutePath]
  exact if_neg hr

end Pimpl

/-! ### Dispatch -/

namespace PathCall
variable {σ : Type} (B : Backend σ)

/-- The operation: its error code and the state it leaves. -/
def run (p : AbsPath) (s : Pimpl σ) : PathCall → ErrorCode × Pimpl σ
  | .open flags mode =>
    (errorOf (Pimpl.open B p.val flags mode s).1, (Pimpl.open B p.val flags mode s).2)
  | .path op => (op.code (Pimpl.pathOp B op p.val s).1, (Pimpl.pathOp B op p.val s).2)
  | .rename newname => Pimpl.rename B p.val newname.val s
  | .diropen => (errorOf (Pimpl.diropen B p.val s).1, (Pimpl.diropen B p.val s).2)
  | .statPartsOf => (errorOf (Pimpl.statPartsOf B p.val s).1, (Pimpl.statPartsOf B p.val s).2)

/-- The method call that the operation makes at a mount point. -/
def method (p : AbsPath) (mp : MountPoint) : PathCall → Call
  | .open flags mode => .open p.norm flags mode
  | .path op => .path op p.norm
  | .rename newname => .rename p.norm newname.norm
  | .diropen => .diropen p.norm
  | .statPartsOf => .path .statVfs mp.root

/-- The mount point is read-only, and the operation is to write. -/
def refused (mp : MountPoint) : PathCall → Bool
  | .open flags _ => Pimpl.wantsWrite flags && mp.flags.test MountFlags.readOnly
  | .rename _ => mp.flags.test MountFlags.readOnly
  | _ => false

/-- The events of a visit to one mounted filesystem: the method of the operation is called under its
lock, unless the operation is refused there. -/
def Visit (p : AbsPath) (c : PathCall) (mp : MountPoint) (evs : List Event) : Prop :=
  if c.refused mp then evs = [.lock mp.fs, .unlock mp.fs]
  else ∃ e, evs = [.lock mp.fs, .call mp.fs (c.method p mp) e, .unlock mp.fs]

/-- A visit takes the lock of the filesystem, and no other. -/
lemma Visit.lock_mem {p : AbsPath} {c : PathCall} {mp : MountPoint} {evs : List Event}
    (v : Visit p c mp evs) : .lock mp.fs ∈ evs ∧ ∀ fs', .lock fs' ∈ evs → fs' = mp.fs := by
  unfold Visit at v
  split at v
  · subst v
    simp
  · obtain ⟨e, rfl⟩ := v
    simp

/-- The string that is searched for the keys of the mount table. -/
def searched (p : AbsPath) : PathCall → Str
  | .statPartsOf => p.val
  | _ => p.norm

/-- An `unlink` that only marks an entry of the descriptor table. -/
def Deferred (s : Pimpl σ) (p : AbsPath) (c : PathCall) : Prop :=
  c = .path .unlink ∧ p.val ∈ s.fdContainer.byPath

/-- The operation reaches the filesystem mounted at the root that owns the path and no other; where
no root does, it fails with `ENOENT` and reaches none. -/
def Resolved (s : Pimpl σ) (p : AbsPath) (c : PathCall) : Prop :=
  match Path.ownerRoot s.mounts.keys p.norm with
  | some root => ∃ mp evs, s.mounts.lookup root = some mp ∧
    (c.run B p s).2.log = s.log ++ evs ∧ Visit p c mp evs
  | none => (c.run B p s).1 = ENOENT ∧ (c.run B p s).2.log = s.log

/-- The owning root is the first key that occurs in the string searched; where no root owns the
path, no key occurs in it. -/
def Unambiguous (s : Pimpl σ) (p : AbsPath) (c : PathCall) : Prop :=
  match Path.ownerRoot s.mounts.keys p.norm with
  | some root => ∃ mp, FirstMatch s.mounts (c.searched p) root mp
  | none => ∀ k ∈ s.mounts, ¬ k <:+: c.searched p

variable {B} {s : Pimpl σ} {p : AbsPath} {c : PathCall}

/-- A visit in which nothing is refused. -/
lemma visit_call {mp : MountPoint} {e : ErrorCode} (h : c.refused mp = false) :
    Visit p c mp [.lock mp.fs, .call mp.fs (c.method p mp) e, .unlock mp.fs] := by
  rw [Visit, h]
  exact ⟨e, rfl⟩

/-- A visit in which the operation is refused. -/
lemma visit_refused {mp : MountPoint} (h : c.refused mp = true) :
    Visit p c mp [.lock mp.fs, .unlock mp.fs] := by
  rw [Visit, h]
  rfl

/-- Every operation visits the mount point that the search finds. -/
lemma run_found {mp : MountPoint} (h : findMountPoint s.mounts (c.searched p) = some mp)
    (nd : ¬ c.Deferred s p) : ∃ evs, (c.run B p s).2.log = s.log ++ evs ∧ Visit p c mp evs := by
  cases c with
  | «open» flags mode =>
    have h : findMountPoint s.mounts p.norm = some mp := h
    simp only [run, Pimpl.open, p.absolutePath, h]
    split
    · rename_i hr
      exact ⟨_, Pimpl.log_lock_unlock, visit_refused hr⟩
    · rename_i hr
      have hr : (PathCall.open flags mode).refused mp = false := by simpa [refused] using hr
      have e : (Pimpl.lockedCall B mp (.open p.norm flags mode) s).2.log = _ :=
        Pimpl.log_lockedCall
      split <;> rename_i h' <;> rw [h'] at e <;> exact ⟨_, e, visit_call hr⟩
  | path op =>
    have hf : (Pimpl.pathOp B op p.val s).2 =
        (Pimpl.lockedCall B mp (.path op p.norm) s).2 := by
      have e := Pimpl.invokeFopsPath_found (B := B) op h
      cases op with
      | unlink =>
        have hm : p.val ∉ s.fdContainer.byPath := fun hm => nd ⟨rfl, hm⟩
        rw [Pimpl.pathOp, Pimpl.unlink, if_neg hm, e]
      | _ => exact congrArg Prod.snd e
    exact ⟨_, (congrArg Pimpl.log hf).trans Pimpl.log_lockedCall, visit_call rfl⟩
  | rename newname =>
    have h : findMountPoint s.mounts p.norm = some mp := h
    simp only [run, Pimpl.rename_absolute, h]
    split
    · rename_i hr
      exact ⟨_, Pimpl.log_lock_unlock, visit_refused hr⟩
    · rename_i hr
      exact ⟨_, Pimpl.log_lockedCall, visit_call (c := .rename newname) (by simpa [refused] using hr)⟩
  | diropen =>
    have h : findMountPoint s.mounts p.norm = some mp := h
    simp only [run, Pimpl.diropen, p.absolutePath, h]
    have e : (Pimpl.lockedCall B mp (.diropen p.norm) s).2.log = _ := Pimpl.log_lockedCall
    split <;> rename_i h' <;> rw [h'] at e <;> exact ⟨_, e, visit_call rfl⟩
  | statPartsOf =>
    have h : findMountPoint s.mounts p.val = some mp := h
    simp only [run, Pimpl.statPartsOf, h]
    exact ⟨_, Pimpl.log_lockedCall, visit_call (c := .statPartsOf) rfl⟩

/-- Where the search finds nothing, the operation fails with `ENOENT` and nothing happens. -/
lemma run_none (h : findMountPoint s.mounts (c.searched p) = none) (nd : ¬ c.Deferred s p) :
    c.run B p s = (ENOENT, s) := by
  cases c with
  | «open» flags mode =>
    have h : findMountPoint s.mounts p.norm = none := h
    simp only [run, Pimpl.open, p.absolutePath, h]
    rfl
  | path op =>
    have hf : Pimpl.pathOp B op p.val s = (op.terror ENOENT, s) := by
      have e := Pimpl.invokeFopsPath_none (B := B) op h
      cases op with
      | unlink =>
        have hm : p.val ∉ s.fdContainer.byPath := fun hm => nd ⟨rfl, hm⟩
        rw [Pimpl.pathOp, Pimpl.unlink, if_neg hm, e]
      | _ => exact e
    rw [run, hf, PathOp.code_terror]
  | rename newname =>
    have h : findMountPoint s.mounts p.norm = none := h
    simp only [run, Pimpl.rename_absolute, h]
  | diropen =>
    have h : findMountPoint s.mounts p.norm = none := h
    simp only [run, Pimpl.diropen, p.absolutePath, h]
    rfl
  | statPartsOf =>
    have h : findMountPoint s.mounts p.val = none := h
    simp only [run, Pimpl.statPartsOf, h]
    rfl

/-- An operation on a path reaches the mount point of the owning root exactly when that root is the
first key that occurs in the string searched. -/
theorem resolved_iff_unambiguous (h : Pimpl.Reachable B s) (nd : ¬ c.Deferred s p) :
    c.Resolved B s p ↔ c.Unambiguous s p := by
  have wf := Pimpl.MountsWf.reachable h
  unfold Resolved Unambiguous
  cases hf : findMountPoint s.mounts (c.searched p) with
  | none =>
    have hn := findMountPoint_eq_none.mp hf
    have e := run_none (B := B) hf nd
    split
    · rename_i root hr
      constructor
      · rintro ⟨mp, evs, -, hl, v⟩
        rw [e] at hl
        have hnil : evs = [] := List.append_right_eq_self.mp hl.symm
        subst hnil
        exact absurd v.lock_mem.1 List.not_mem_nil
      · rintro ⟨mp, hm⟩
        obtain ⟨_, _, _, hk, _⟩ := id hm
        exact absurd hk (hn _ (UnorderedMap.mem_of_lookup hm.lookup))
    · rw [e]
      exact ⟨fun _ => hn, fun _ => ⟨rfl, rfl⟩⟩
  | some mp =>
    obtain ⟨k, hm⟩ := findMountPoint_eq_some.mp hf
    obtain ⟨evs, hl, v⟩ := run_found (B := B) hf nd
    split
    · rename_i root hr
      constructor
      · rintro ⟨mp', evs', hr', hl', v'⟩
        obtain rfl : evs' = evs := List.append_cancel_left (hl'.symm.trans hl)
        have hfs := v.lock_mem.2 _ v'.lock_mem.1
        -- an object is mounted at one root only
        have hroot : root = k := by
          rw [← wf.mounted hr', ← wf.mounted hm.lookup, hfs]
        exact ⟨mp, hroot ▸ hm⟩
      · rintro ⟨mp', hm'⟩
        have e := findMountPoint_eq_some.mpr ⟨root, hm'⟩
        obtain rfl : mp' = mp := Option.some.inj (e.symm.trans hf)
        exact ⟨mp', evs, hm'.lookup, hl, v⟩
    · constructor
      · rintro ⟨-, hl'⟩
        have hnil : evs = [] := List.append_right_eq_self.mp (hl.symm.trans hl')
        subst hnil
        exact absurd v.lock_mem.1 List.not_mem_nil
      · intro hn
        obtain ⟨_, _, _, hk, _⟩ := id hm
        exact absurd hk (hn _ (UnorderedMap.mem_of_lookup hm.lookup))

/-- Two partitions mounted at `/volume10` and `/volume1`. -/
def twoVolumes : Pimpl (FsId → Str) :=
  Pimpl.play .accepting
    [.registerFilesystem .ext4, .mount "sdp0".toList "/volume10".toList [] 0,
      .mount "sdp1".toList "/volume1".toList [] 0]
    (Pimpl.sample fun _ => [])

/-- The sample is reachable. -/
lemma reachable_twoVolumes : Pimpl.Reachable .accepting twoVolumes :=
  (Pimpl.Reachable.initial Pimpl.initial_sample).play

/-- A path below one of two volumes. -/
theorem resolved_twoVolumes :
    Resolved .accepting twoVolumes ⟨"/volume1/f".toList, rfl⟩ (.path .stat) ↔
      Unambiguous twoVolumes ⟨"/volume1/f".toList, rfl⟩ (.path .stat) :=
  resolved_iff_unambiguous reachable_twoVolumes (by rintro ⟨e, -⟩; cases e)

/-- `/volume1` occurs in `/volume10/f` and comes first. -/
theorem not_resolved_twoVolumes :
    Pimpl.Reachable .accepting twoVolumes ∧
      ¬ Deferred twoVolumes ⟨"/volume10/f".toList, rfl⟩ (.path .stat) ∧
      ¬ Resolved .accepting twoVolumes ⟨"/volume10/f".toList, rfl⟩ (.path .stat) := by
  have nd : ¬ Deferred twoVolumes ⟨"/volume10/f".toList, rfl⟩ (.path .stat) := by
    rintro ⟨e, -⟩
    cases e
  refine ⟨reachable_twoVolumes, nd, ?_⟩
  have hr : Path.ownerRoot twoVolumes.mounts.keys
      (AbsPath.norm ⟨"/volume10/f".toList, rfl⟩) = some "/volume10".toList := by decide
  have hl : (twoVolumes.mounts.lookup "/volume10".toList).map MountPoint.fs = some 0 := by decide
  have hf : (findMountPoint twoVolumes.mounts "/volume10/f".toList).map MountPoint.fs = some 1 := by
    decide
  obtain ⟨mp, hf, h1⟩ := Option.map_eq_some_iff.mp hf
  obtain ⟨evs, he, v⟩ := run_found (B := .accepting) (c := .path .stat)
    (p := ⟨"/volume10/f".toList, rfl⟩) hf nd
  unfold Resolved
  rw [hr]
  rintro ⟨mp', evs', hl', he', v'⟩
  obtain rfl : evs' = evs := List.append_cancel_left (he'.symm.trans he)
  rw [hl'] at hl
  have h0 : mp'.fs = 0 := Option.some.inj hl
  have h := v.lock_mem.2 _ v'.lock_mem.1
  rw [h0, h1] at h
  cases h

end PathCall
end Evfs
