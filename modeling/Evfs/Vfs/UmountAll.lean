import Evfs.Vfs.OneMount

/-!
# Unmounting everything

`UnmountsAll` is what `umount_all` owes, whichever calls of `Filesystem::unmount` fail: each mounted
filesystem is asked once, and leaves the table exactly if its call succeeded. The loop stops at the
first failure and the table is cleared all the same, so this holds if and only if no call fails.
-/

namespace Evfs
open Lib Lwext4
namespace Pimpl
variable {σ : Type} (B : Backend σ)

/-- The calls of `unmount`, with their outcomes. -/
def unmountCalls : List Event → List (FsId × ErrorCode)
  | [] => []
  | .call fs .unmount e :: l => (fs, e) :: unmountCalls l
  | _ :: l => unmountCalls l

/-- What `umount_all` owes: `l` is what it did, `ret` what it returned. -/
structure UnmountsAll (s : Pimpl σ) (l : List Event) (ret : ErrorCode) (s' : Pimpl σ) : Prop where
  log : s'.log = s.log ++ l
  /-- `unmount` is called on every mounted filesystem, once. -/
  once : ((unmountCalls l).map Prod.fst).Perm (s.mounts.entries.map fun e => e.2.fs)
  dropped {root mp} : s.mounts.lookup root = some mp → (mp.fs, 0) ∈ unmountCalls l →
    root ∉ s'.mounts
  kept {root mp e} : s.mounts.lookup root = some mp → (mp.fs, e) ∈ unmountCalls l → e ≠ 0 →
    s'.mounts.lookup root = some mp
  error {fs e} : (fs, e) ∈ unmountCalls l → e ≠ 0 → ret ≠ 0

/-- What `umount_all` owes in a state. -/
def UmountAllRight (s : Pimpl σ) : Prop :=
  ∃ l, UnmountsAll s l (umountAll B s).1 (umountAll B s).2

/-- The calls of `unmount`, one after the other, all succeed. -/
def Unmountable : List (Σ _ : Str, MountPoint) → σ → Prop
  | [], _ => True
  | ⟨_, mp⟩ :: rest, w =>
    (B.call mp.fs .unmount w).1 = 0 ∧ Unmountable rest (B.call mp.fs .unmount w).2

variable {B} {s : Pimpl σ}

/-- The events of one round of the loop. -/
lemma log_umountRound (B : Backend σ) (s : Pimpl σ) (mp : MountPoint) (l : List Event) :
    (callFs B mp.fs .unmount ((s.lock mp).unlock mp)).2.log ++ l =
      s.log ++ (.lock mp.fs :: .unlock mp.fs ::
        .call mp.fs .unmount (B.call mp.fs .unmount s.world).1 :: l) := by
  show ((s.log ++ [_]) ++ [_]) ++ [_] ++ l = _
  simp only [List.append_assoc, List.cons_append, List.nil_append]
  rfl

/-- The loop goes on after a success. -/
lemma umountLoop_next {k : Str} {mp : MountPoint} {es : List (Σ _ : Str, MountPoint)}
    (h : (B.call mp.fs .unmount s.world).1 = 0) : umountLoop B (⟨k, mp⟩ :: es) s =
      umountLoop B es (callFs B mp.fs .unmount ((s.lock mp).unlock mp)).2 := by
  rw [umountLoop]
  exact if_neg fun ne => ne h

/-- And stops at a failure. -/
lemma umountLoop_stop {k : Str} {mp : MountPoint} {es : List (Σ _ : Str, MountPoint)}
    (h : (B.call mp.fs .unmount s.world).1 ≠ 0) : umountLoop B (⟨k, mp⟩ :: es) s =
      callFs B mp.fs .unmount ((s.lock mp).unlock mp) := by
  rw [umountLoop]
  exact if_pos h

/-- The loop when no call fails. -/
lemma umountLoop_ok {es : List (Σ _ : Str, MountPoint)} (h : Unmountable B es s.world) :
    ∃ l, (umountLoop B es s).2.log = s.log ++ l ∧ (umountLoop B es s).1 = 0 ∧
      unmountCalls l = es.map fun e => (e.2.fs, 0) := by
  induction es generalizing s with
  | nil => exact ⟨[], (List.append_nil _).symm, rfl, rfl⟩
  | cons e es ih =>
    obtain ⟨k, mp⟩ := e
    obtain ⟨h0, h⟩ := h
    obtain ⟨l, hl, hr, hc⟩ := ih (s := (callFs B mp.fs .unmount ((s.lock mp).unlock mp)).2) h
    rw [umountLoop_next h0]
    refine ⟨_, hl.trans (log_umountRound B s mp l), hr, ?_⟩
    rw [h0]
    simp only [unmountCalls, hc, List.map_cons]

/-- The loop up to the call that fails. -/
lemma umountLoop_error {es : List (Σ _ : Str, MountPoint)} (h : ¬ Unmountable B es s.world) :
    ∃ l e, (umountLoop B es s).2.log = s.log ++ l ∧ e ∈ es ∧
      ∃ err, err ≠ 0 ∧ (e.2.fs, err) ∈ unmountCalls l := by
  induction es generalizing s with
  | nil => exact absurd trivial h
  | cons e es ih =>
    obtain ⟨k, mp⟩ := e
    by_cases h0 : (B.call mp.fs .unmount s.world).1 = 0
    · have h' : ¬ Unmountable B es (callFs B mp.fs .unmount ((s.lock mp).unlock mp)).2.world :=
        fun h' => h ⟨h0, h'⟩
      obtain ⟨l, e, hl, he, err, ne, hc⟩ := ih h'
      rw [umountLoop_next h0]
      exact ⟨_, e, hl.trans (log_umountRound B s mp l), List.mem_cons_of_mem _ he, err, ne,
        List.mem_cons_of_mem _ hc⟩
    · rw [umountLoop_stop h0]
      have hl := log_umountRound B s mp []
      rw [List.append_nil] at hl
      exact ⟨_, ⟨k, mp⟩, hl, List.mem_cons_self, _, h0, List.mem_cons_self⟩

/-- `umount_all` does what it owes if and only if every call of `unmount` succeeds. -/
theorem umountAllRight_iff_unmountable :
    UmountAllRight B s ↔ Unmountable B s.mounts.entries s.world := by
  constructor
  · intro right
    by_contra h
    obtain ⟨l, right⟩ := right
    obtain ⟨l', ⟨root, mp⟩, hl, he, err, ne, hc⟩ := umountLoop_error h
    -- the mount point is asked to stay, and the table is empty
    have e : l = l' := List.append_cancel_left (right.log.symm.trans hl)
    have kept := right.kept (UnorderedMap.mem_entries_iff.mp he) (e ▸ hc) ne
    cases kept
  · intro h
    obtain ⟨l, hl, hr, hc⟩ := umountLoop_ok h
    have all : ∀ {fs e}, (fs, e) ∈ unmountCalls l → e = 0 := by
      intro fs e he
      rw [hc] at he
      obtain ⟨_, -, e'⟩ := List.mem_map.mp he
      exact (congrArg Prod.snd e').symm
    refine ⟨l, hl, ?_, ?_, fun _ he ne => absurd (all he) ne, fun he ne => absurd (all he) ne⟩
    · rw [hc, List.map_map]
      rfl
    · exact fun _ _ h => nomatch h

/-! ### A failing call -/

/-- The fifth access to a disk fails. -/
def failingWorld : World := { emptyWorld with accesses := fun n => if n = 4 then EIO else 0 }

/-- A partition is mounted at `/a`; the access to come fails. -/
def failingAtA : Pimpl (World × (FsId → Str)) :=
  play ext [.registerFilesystem .ext4, .mount "sdp0".toList "/a".toList [] 0]
    (sample (failingWorld, fun _ => []))

/-- `unmount` fails, and the filesystem, still mounted in lwext4, is dropped. -/
theorem not_umountAllRight_failingAtA :
    Reachable ext failingAtA ∧ "/a".toList ∈ failingAtA.mounts ∧
      (umountAll ext failingAtA).1 = EIO ∧ "/a".toList ∉ (umountAll ext failingAtA).2.mounts ∧
      ((umountAll ext failingAtA).2.world.1.sMp 0).mounted = true ∧
      ¬ UmountAllRight ext failingAtA := by
  refine ⟨(Reachable.initial initial_sample).play, by decide +kernel, by decide +kernel,
    by decide +kernel, by decide +kernel, fun right => ?_⟩
  have h := umountAllRight_iff_unmountable.mp right
  have e : failingAtA.mounts.entries = [⟨"/a".toList, mountPointA⟩] := by decide +kernel
  rw [e] at h
  have f : ((ext.call mountPointA.fs .unmount failingAtA.world).1 : ErrorCode) = EIO := by
    decide +kernel
  exact absurd (f.symm.trans h.1) (by decide)

end Pimpl
end Evfs
