import Evfs.Vfs.Dispatch

/-!
# The spellings of a path in `unlink`

`VirtualFS::open` records a descriptor under the normal form of its path, `VirtualFS::unlink` looks
the path up as it was passed. The results here say what `unlink` does to a path that is open and to
one that is not, and for which spellings of an open path it is deferred.
-/

namespace Evfs
open Lib
namespace Pimpl
variable {σ : Type} (B : Backend σ)

/-- The path has an open descriptor. -/
def HasOpen (s : Pimpl σ) (path : Str) : Prop :=
  ∃ d, s.fdContainer.byPath.lookup path = some d ∧ d.indexes ≠ []

/-- What `unlink` owes to a path: an open one is marked and nothing is called; one that is not open
is unlinked at once, by one call with the normal form where a mount point is found. -/
def UnlinkRight (s : Pimpl σ) (p : AbsPath) : Prop :=
  (HasOpen s p.norm →
    unlink B p.val s = (0, { s with fdContainer := s.fdContainer.markForUnlink p.norm })) ∧
  (¬ HasOpen s p.norm →
    (findMountPoint s.mounts p.norm = none → unlink B p.val s = (ENOENT, s)) ∧
    ∀ mp, findMountPoint s.mounts p.norm = some mp →
      (unlink B p.val s).2.fdContainer = s.fdContainer ∧
      (unlink B p.val s).2.log = s.log ++ [.lock mp.fs,
        .call mp.fs (.path .unlink p.norm) (unlink B p.val s).1, .unlock mp.fs])

/-- Two spellings of one path are treated alike, and rightly. -/
def SpellingBlind (s : Pimpl σ) (p q : AbsPath) : Prop :=
  unlink B q.val s = unlink B p.val s ∧ UnlinkRight B s p ∧ UnlinkRight B s q

variable {B} {s : Pimpl σ} {p q : AbsPath}

/-- A path with an open descriptor has an entry. -/
lemma hasOpen_iff (wf : PathsWf s) {path : Str} :
    HasOpen s path ↔ path ∈ s.fdContainer.byPath := by
  constructor
  · rintro ⟨d, e, -⟩
    exact UnorderedMap.mem_of_lookup e
  · intro h
    obtain ⟨d, e⟩ := UnorderedMap.exists_lookup h
    exact ⟨d, e, wf.nonempty e⟩

/-- An entry is found only under its normal form. -/
lemma PathsWf.eq_norm (wf : PathsWf s) (h : p.val ∈ s.fdContainer.byPath) : p.norm = p.val :=
  wf.normal h

/-- Unlinking an open path only marks it. -/
lemma unlink_of_mem {path : Str} (h : path ∈ s.fdContainer.byPath) :
    unlink B path s = (0, { s with fdContainer := s.fdContainer.markForUnlink path }) :=
  if_pos h

/-- Unlinking any other path goes to its mount. -/
lemma unlink_of_notMem {path : Str} (h : path ∉ s.fdContainer.byPath) :
    unlink B path s = invokeFopsPath B .unlink path s :=
  if_neg h

/-- A path that is not open is unlinked at once, whatever its spelling. -/
lemma unlinkRight_of_closed (wf : PathsWf s) (h : ¬ HasOpen s p.norm) : UnlinkRight B s p := by
  refine ⟨fun h' => absurd h' h, fun _ => ?_⟩
  have hn : p.val ∉ s.fdContainer.byPath := by
    intro hm
    rw [hasOpen_iff wf, wf.eq_norm hm] at h
    exact h hm
  rw [unlink_of_notMem hn]
  constructor
  · exact fun hf => invokeFopsPath_none .unlink hf
  · intro mp hf
    rw [invokeFopsPath_found .unlink hf]
    exact ⟨rfl, log_lockedCall⟩

/-- An open path is marked exactly when it is passed in normal form. -/
lemma unlinkRight_of_open (wf : PathsWf s) (h : HasOpen s p.norm) :
    UnlinkRight B s p ↔ p.val = p.norm := by
  have hm := (hasOpen_iff wf).mp h
  constructor
  · intro r
    by_contra hne
    have hn : p.val ∉ s.fdContainer.byPath := fun hm' => hne (wf.eq_norm hm').symm
    have e := r.1 h
    rw [unlink_of_notMem hn] at e
    cases hf : findMountPoint s.mounts p.norm with
    | none =>
      rw [invokeFopsPath_none .unlink hf] at e
      have e' : ENOENT = (0 : ErrorCode) := congrArg Prod.fst e
      exact absurd e' (by decide)
    | some mp =>
      rw [invokeFopsPath_found .unlink hf] at e
      have hl := congrArg (fun r => r.2.log) e
      simp only [log_lockedCall, List.append_right_eq_self] at hl
      cases hl
  · intro e
    refine ⟨fun _ => ?_, fun h' => absurd h h'⟩
    rw [e]
    exact unlink_of_mem hm

/-- `unlink` treats two spellings of a path alike, and rightly, exactly when the path is not open or
both are its normal form. -/
theorem spellingBlind_iff (h : Reachable B s) (e : p.norm = q.norm) :
    SpellingBlind B s p q ↔ ¬ HasOpen s p.norm ∨ (p.val = p.norm ∧ q.val = p.norm) := by
  have wf := PathsWf.reachable h
  constructor
  · rintro ⟨-, rp, rq⟩
    by_cases ho : HasOpen s p.norm
    · refine .inr ⟨(unlinkRight_of_open wf ho).mp rp, ?_⟩
      rw [e] at ho ⊢
      exact (unlinkRight_of_open wf ho).mp rq
    · exact .inl ho
  · rintro (ho | ⟨hp, hq⟩)
    · have rp := unlinkRight_of_closed (B := B) wf ho
      have rq := unlinkRight_of_closed (B := B) (p := q) wf (e ▸ ho)
      refine ⟨?_, rp, rq⟩
      -- the table knows normal forms only, so neither spelling is in it
      have np : p.val ∉ s.fdContainer.byPath := fun hm =>
        ho ((hasOpen_iff wf).mpr (wf.eq_norm hm ▸ hm))
      have nq : q.val ∉ s.fdContainer.byPath := fun hm =>
        ho ((hasOpen_iff wf).mpr (e ▸ wf.eq_norm hm ▸ hm))
      rw [unlink_of_notMem np, unlink_of_notMem nq]
      cases hf : findMountPoint s.mounts p.norm with
      | none =>
        rw [invokeFopsPath_none .unlink hf, invokeFopsPath_none .unlink (e ▸ hf)]
      | some mp =>
        rw [invokeFopsPath_found .unlink hf, invokeFopsPath_found .unlink (e ▸ hf), e]
    · -- spelled alike, the two are the same call
      have hv : q.val = p.val := hq.trans hp.symm
      have right : UnlinkRight B s p := by
        by_cases ho : HasOpen s p.norm
        · exact (unlinkRight_of_open wf ho).mpr hp
        · exact unlinkRight_of_closed wf ho
      obtain ⟨q, hqr⟩ := q
      subst hv
      exact ⟨rfl, right, right⟩

/-- A file of the first volume is open. -/
def openFile : Pimpl (FsId → Str) :=
  play .accepting [.open "/volume1/f".toList 0 0] PathCall.twoVolumes

/-- The sample is reachable. -/
lemma reachable_openFile : Reachable .accepting openFile := PathCall.reachable_twoVolumes.play

/-- Another file, which is not open, is unlinked in the same way by `/volume1/g` and by
`/volume1/./x/..//g`. -/
theorem spellingBlind_openFile :
    SpellingBlind .accepting openFile ⟨"/volume1/g".toList, rfl⟩
      ⟨"/volume1/./x/..//g".toList, rfl⟩ := by
  refine (spellingBlind_iff reachable_openFile (by decide)).mpr (.inl ?_)
  rintro ⟨d, e, -⟩
  have no : "/volume1/g".toList ∉ openFile.fdContainer.byPath := by decide
  exact no (UnorderedMap.mem_of_lookup e)

/-- `/volume1//f` is unlinked under its open descriptor, `/volume1/f` is not. -/
theorem not_spellingBlind_openFile :
    Reachable .accepting openFile ∧
      AbsPath.norm ⟨"/volume1/f".toList, rfl⟩ = AbsPath.norm ⟨"/volume1//f".toList, rfl⟩ ∧
      ¬ SpellingBlind .accepting openFile ⟨"/volume1/f".toList, rfl⟩
        ⟨"/volume1//f".toList, rfl⟩ := by
  refine ⟨reachable_openFile, by decide, ?_⟩
  rintro ⟨e, -⟩
  have hl := congrArg (fun r => r.2.log.length) e
  exact absurd hl (by decide)

end Pimpl
end Evfs
