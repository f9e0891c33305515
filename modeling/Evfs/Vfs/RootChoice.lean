import Evfs.Vfs.Mount
import Evfs.Vfs.OneMount

/-!
# The root chosen by a mount

A mount with an empty root takes the label of the volume, or a generated name when there is none to
be read. `RootRight` is what it owes: a root that fits into the namespace and is not in use. Generated
roots always fit (`fits_generated`); a label fits if it is a path of proper names, and either may be
in use already.
-/

namespace Evfs
open Lib

namespace Path

/-- A relative path of proper names, at least one. -/
def Fits (label : Str) : Prop :=
  ∃ ns trailing, ns ≠ [] ∧ (∀ n ∈ ns, Proper n) ∧
    splitNames label = ns ++ if trailing = true then [[]] else []

/-- Behind the root directory, what fits is what is in normal form. -/
lemma fits_iff {label : Str} :
    Fits label ↔ lexicallyNormal ('/' :: label) = '/' :: label ∧ label ≠ [] := by
  constructor
  · rintro ⟨ns, t, hne, hp, hs⟩
    have e : '/' :: label = render true ns t := by
      apply splitNames_inj
      rw [splitNames_cons_slash, splitNames_render hp, hs]
      simp [hne]
    constructor
    · rw [e, lexicallyNormal_rooted hasRootPath_render, kept_render hp, trails_render hp,
        List.reverse_reverse]
      simp [hne]
    · intro hl
      rw [hl] at hs
      obtain ⟨n, ns', e'⟩ := List.exists_cons_of_ne_nil hne
      have hn : n = [] := by
        rw [e'] at hs
        exact (List.cons.inj hs).1.symm
      exact (hp n (e' ▸ List.mem_cons_self)).ne_nil hn
  · rintro ⟨hn, hl⟩
    have hk : ∀ n ∈ (kept ('/' :: label)).reverse, Proper n := fun n h =>
      kept_proper _ n (List.mem_reverse.mp h)
    have hs : splitNames ('/' :: label) = [] :: (kept ('/' :: label)).reverse ++
        (if trails ('/' :: label) ∨ (kept ('/' :: label)).reverse = [] then [[]] else []) := by
      rw [← splitNames_render hk, ← lexicallyNormal_rooted rfl, hn]
    rw [splitNames_cons_slash] at hs
    have hs := (List.cons.inj hs).2
    have hne : (kept ('/' :: label)).reverse ≠ [] := by
      intro e
      rw [e] at hs
      apply hl
      apply splitNames_inj
      simpa [splitNames] using hs
    refine ⟨_, trails ('/' :: label), hne, hk, ?_⟩
    simpa [hne] using hs

end Path

namespace Pimpl
variable {σ : Type} (B : Backend σ)

/-- A root that fits into the namespace and is not in use. -/
structure SuitableRoot (s : Pimpl σ) (root : Str) : Prop where
  nonempty : root ≠ []
  absolute : Path.hasRootPath root = true
  normal : Path.lexicallyNormal root = root
  proper : root ≠ ['/']
  free : root ∉ s.mounts

/-- `mount` of the name gets as far as a new object, for the partition `disk`. -/
def GetsObject (s : Pimpl σ) (name : Str) (factory : Factory) (disk : PartRef) : Prop :=
  ∃ type t, fsDiscovery s.fsFactories s.diskMgr name = .ok (.ok (type, disk)) ∧
    s.fsFactories.lookup type.name = some (t, some factory) ∧
    (factory = .lwext4 → ∃ n, (B.sectorSize disk s.world).1 = .ok n)

/-- The root chosen by a mount, and the state afterwards. -/
def chosenRoot (s : Pimpl σ) (factory : Factory) (disk : PartRef) : Str × Pimpl σ :=
  chooseRoot B s.nextFs [] (afterCreate B factory disk s)

/-- A mount with an empty root chooses a suitable one, and then it is for the filesystem to say
whether it succeeds. -/
def RootRight (s : Pimpl σ) (name : Str) : Prop :=
  ∀ factory disk, GetsObject B s name factory disk →
    SuitableRoot s (chosenRoot B s factory disk).1 ∧ ∀ fstype flags, ∃ s',
      mount B name [] fstype flags s =
        .ok ((B.call s.nextFs (.mount (chosenRoot B s factory disk).1 flags)
          (chosenRoot B s factory disk).2.world).1, s')

/-- The label fits and is no root in use; or there is none to be read, and the next generated root is
not in use. -/
def RootAvailable (s : Pimpl σ) (name : Str) : Prop :=
  ∀ factory disk, GetsObject B s name factory disk →
    match (B.call s.nextFs .getLabel (created B factory disk s)).1 with
    | .ok label => Path.Fits label ∧ '/' :: label ∉ s.mounts
    | .error _ => rootBase ++ toString' s.volumeIndex ∉ s.mounts

variable {B} {s : Pimpl σ}

/-- A generated root, which starts with a separator, is one proper name. -/
lemma fits_generated (n : Nat) : Path.Fits ("volume".toList ++ toString' n) := by
  have hd : ∀ c ∈ toString' n, c.isDigit = true := fun _ => isDigit_of_mem_toDigits
  have hs : '/' ∉ "volume".toList ++ toString' n := by
    intro h
    rcases List.mem_append.mp h with h | h
    · revert h
      decide
    · exact absurd (hd _ h) (by decide)
  refine ⟨["volume".toList ++ toString' n], false, by simp, ?_, ?_⟩
  · intro m hm
    rw [List.mem_singleton.mp hm]
    exact ⟨by simp, by simp [Path.dot], by simp [Path.dotDot], hs⟩
  · rw [Path.splitNames, List.splitOn_eq_singleton hs]
    rfl

/-- A root that is a separator and a label suits if the label fits and the root is not in use. -/
lemma suitableRoot_cons {label : Str} :
    SuitableRoot s ('/' :: label) ↔ Path.Fits label ∧ '/' :: label ∉ s.mounts := by
  rw [Path.fits_iff]
  constructor
  · intro h
    refine ⟨⟨h.normal, ?_⟩, h.free⟩
    intro e
    exact h.proper (by rw [e])
  · intro ⟨⟨hn, hl⟩, hf⟩
    exact ⟨by simp, rfl, hn, fun e => hl (List.cons.inj e).2, hf⟩

/-- The root chosen is made of the label or of the counter. -/
lemma chosenRoot_eq (factory : Factory) (disk : PartRef) : (chosenRoot B s factory disk).1 =
    match (B.call s.nextFs .getLabel (created B factory disk s)).1 with
    | .ok label => '/' :: label
    | .error _ => rootBase ++ toString' s.volumeIndex := by
  obtain ⟨v, evs, -, e⟩ :=
    chooseRoot_rootFor (B := B) (s := afterCreate B factory disk s) s.nextFs []
  show (chooseRoot B s.nextFs [] (afterCreate B factory disk s)).1 = _
  have hw : (afterCreate B factory disk s).world = created B factory disk s := rfl
  rw [e, rootFor, if_pos rfl, hw]
  generalize B.call s.nextFs .getLabel (created B factory disk s) = r
  obtain ⟨r, w⟩ := r
  cases r with
  | ok label => rfl
  | error e => rfl

/-- The root is suitable by the label, or by the counter where there is none. -/
lemma suitableRoot_chosen (factory : Factory) (disk : PartRef) :
    SuitableRoot s (chosenRoot B s factory disk).1 ↔
      match (B.call s.nextFs .getLabel (created B factory disk s)).1 with
      | .ok label => Path.Fits label ∧ '/' :: label ∉ s.mounts
      | .error _ => rootBase ++ toString' s.volumeIndex ∉ s.mounts := by
  rw [chosenRoot_eq]
  cases (B.call s.nextFs .getLabel (created B factory disk s)).1 with
  | ok label => exact suitableRoot_cons
  | error e =>
    have h : rootBase ++ toString' s.volumeIndex =
        '/' :: ("volume".toList ++ toString' s.volumeIndex) := rfl
    simp only [h, suitableRoot_cons, fits_generated, true_and]

/-- A mount at a free root returns what the filesystem does. -/
lemma mountAt_fst {fs : FsId} {type : FsType} {disk : PartRef} {root : Str} {flags : Flags}
    (h : root ∉ s.mounts) :
    (mountAt B fs type disk root flags s).1 = (B.call fs (.mount root flags) s.world).1 := by
  rw [mountAt, if_neg h]
  by_cases h0 : (B.call fs (.mount root flags) s.world).1 = 0
  · have h0' : ¬ (callFs B fs (.mount root flags) s).1 ≠ 0 := not_not.mpr h0
    simp only [if_neg h0', h0]
  · have h0' : (callFs B fs (.mount root flags) s).1 ≠ 0 := h0
    simp only [if_pos h0']
    rfl

/-- With a root that is not in use, the outcome of the mount is that of the filesystem. -/
lemma mount_asked {name fstype : Str} {flags : Flags} {factory : Factory} {disk : PartRef}
    (h : GetsObject B s name factory disk) (free : (chosenRoot B s factory disk).1 ∉ s.mounts) :
    ∃ s', mount B name [] fstype flags s =
      .ok ((B.call s.nextFs (.mount (chosenRoot B s factory disk).1 flags)
        (chosenRoot B s factory disk).2.world).1, s') := by
  obtain ⟨type, t, hd, hf, hs⟩ := h
  rcases createFilesystem_cases B factory disk s with ⟨-, hc⟩ | ⟨hs', -⟩
  · have hm : mount B name [] fstype flags s =
        .ok (mountAt B s.nextFs type disk (chosenRoot B s factory disk).1 flags
          (chosenRoot B s factory disk).2) := by
      simp only [mount, hd, hf, hc]
      rfl
    have free' : (chosenRoot B s factory disk).1 ∉ (chosenRoot B s factory disk).2.mounts := by
      obtain ⟨v, evs, -, e⟩ :=
        chooseRoot_rootFor (B := B) (s := afterCreate B factory disk s) s.nextFs []
      have hms : (chosenRoot B s factory disk).2.mounts = s.mounts := by
        show (chooseRoot B s.nextFs [] (afterCreate B factory disk s)).2.mounts = _
        rw [e]
        rfl
      rw [hms]
      exact free
    rw [hm]
    refine ⟨(mountAt B s.nextFs type disk (chosenRoot B s factory disk).1 flags
      (chosenRoot B s factory disk).2).2, ?_⟩
    exact congrArg Except.ok (Prod.ext (mountAt_fst free') rfl)
  · exact absurd hs hs'

/-- A mount with an empty root does what it owes exactly if the label, or the generated root where
there is none, is available. -/
theorem rootRight_iff {name : Str} : RootRight B s name ↔ RootAvailable B s name := by
  constructor
  · intro right factory disk h
    exact (suitableRoot_chosen factory disk).mp (right factory disk h).1
  · intro avail factory disk h
    have suits := (suitableRoot_chosen factory disk).mpr (avail factory disk h)
    exact ⟨suits, fun fstype flags => mount_asked h suits.free⟩

/-- The type of ext4 volumes is known, and none is mounted. -/
def ext4Known : Pimpl (Lwext4.World × (FsId → Str)) :=
  play ext [.registerFilesystem .ext4] (sample (Lwext4.emptyWorld, fun _ => []))

/-- The first of two partitions without a volume name is mounted at `/`, and the second is not
mounted because of that. -/
theorem not_rootRight_ext4Known :
    Reachable ext ext4Known ∧ "/".toList ∈ (play ext [.mount "sdp0".toList [] [] 0] ext4Known).mounts ∧
      (mount ext "sdp1".toList [] [] 0
        (play ext [.mount "sdp0".toList [] [] 0] ext4Known)).map Prod.fst = .ok EEXIST ∧
      ¬ RootRight ext ext4Known "sdp0".toList := by
  refine ⟨(Reachable.initial initial_sample).play, by decide +kernel, by decide +kernel, ?_⟩
  intro right
  have h : GetsObject ext ext4Known "sdp0".toList .lwext4 ⟨0, 0⟩ :=
    ⟨.ext4, .ext4, by decide +kernel, by decide +kernel, fun _ => ⟨512, by decide +kernel⟩⟩
  have e : (chosenRoot ext ext4Known .lwext4 ⟨0, 0⟩).1 = ['/'] := by decide +kernel
  exact (right _ _ h).1.proper e

end Pimpl
end Evfs
