import Evfs.Vfs.PartitionLookup
import Evfs.Common.VfsStep

/-!
# Outcomes of a mount

`VirtualFS::mount` goes through the partition name, the type and its factory, the device geometry,
the label, the duplicate check and the filesystem's own `mount`. What it owes is one of two outcomes:
one new entry for the partition named, or an error that leaves the tables as they were and no
filesystem mounted. `mountRight_iff` says which of the steps before the root is chosen can spoil
that.
-/

namespace Evfs
open Lib
namespace Pimpl
variable {σ : Type} (B : Backend σ)

/-- No filesystem was mounted. -/
def NoMount (evs : List Event) : Prop := ∀ fs root flags, Event.call fs (.mount root flags) 0 ∉ evs

/-- Success with one new entry, keyed by the root, for the partition. -/
def Mounted (s s' : Pimpl σ) (root : Str) (disk : PartRef) : Prop :=
  ∃ mp, mp.root ∉ s.mounts ∧ s'.mounts = s.mounts.insert mp.root mp ∧ mp.disk = disk ∧
    (root ≠ [] → mp.root = root)

/-- An error with unchanged tables and nothing mounted. -/
def Harmless (s s' : Pimpl σ) : Prop :=
  s'.mounts = s.mounts ∧ s'.fdContainer = s.fdContainer ∧
    ∃ evs, s'.log = s.log ++ evs ∧ NoMount evs

/-- `mount` returns with one of its two outcomes. -/
def MountRight (s : Pimpl σ) (name root fstype : Str) (flags : Flags) (disk : PartRef) : Prop :=
  ∃ e s', mount B name root fstype flags s = .ok (e, s') ∧
    ((e = 0 ∧ Mounted s s' root disk ∧ s'.fdContainer = s.fdContainer) ∨ (e ≠ 0 ∧ Harmless s s'))

/-- The root that a new object is mounted at, and the world after the label was asked for. -/
def rootFor (fs : FsId) (root : Str) (volumeIndex : Nat) (w : σ) : Str × σ :=
  if root = [] then
    match B.call fs .getLabel w with
    | (.error _, w) => (rootBase ++ toString' volumeIndex, w)
    | (.ok label, w) => ('/' :: label, w)
  else (root, w)

/-- The world after the object was created. -/
def created (factory : Factory) (disk : PartRef) (s : Pimpl σ) : σ :=
  match factory with
  | .custom _ => B.create s.nextFs factory disk s.world
  | .lwext4 => B.create s.nextFs factory disk (B.sectorSize disk s.world).2

/-- The state after the object was created. -/
def afterCreate (factory : Factory) (disk : PartRef) (s : Pimpl σ) : Pimpl σ :=
  { s with
    nextFs := s.nextFs + 1
    world := created B factory disk s
    log := s.log ++ [.create s.nextFs factory disk] }

/-- The root is not in use and the new object accepts to be mounted there. -/
def Accepted (s : Pimpl σ) (factory : Factory) (disk : PartRef) (root : Str) (flags : Flags) :
    Prop :=
  let r := rootFor B s.nextFs root s.volumeIndex (created B factory disk s)
  r.1 ∉ s.mounts ∧ (B.call s.nextFs (.mount r.1 flags) r.2).1 = 0

/-- The name can be read; and where it leads to a partition, the type found has a factory, which
does not need a sector size that cannot be told, and the partition is the one meant, unless nothing
is mounted anyway. -/
def Prepared (s : Pimpl σ) (name root : Str) (flags : Flags) (disk : PartRef) : Prop :=
  ∃ r, fsDiscovery s.fsFactories s.diskMgr name = .ok r ∧
    ∀ type found, r = .ok (type, found) →
      ∃ t factory, s.fsFactories.lookup type.name = some (t, some factory) ∧
        (factory = .lwext4 → ∃ n, (B.sectorSize found s.world).1 = .ok n) ∧
        (Accepted B s factory found root flags → found = disk)

variable {B} {s s' : Pimpl σ}

/-- `create_filesystem` succeeds exactly when `lwext4` is told the sector size. -/
lemma createFilesystem_cases (B : Backend σ) (factory : Factory) (disk : PartRef) (s : Pimpl σ) :
    ((factory = .lwext4 → ∃ n, (B.sectorSize disk s.world).1 = .ok n) ∧
      createFilesystem B factory disk s = .ok (s.nextFs, afterCreate B factory disk s)) ∨
    (¬ (factory = .lwext4 → ∃ n, (B.sectorSize disk s.world).1 = .ok n) ∧
      createFilesystem B factory disk s = .error .badExpected) := by
  cases factory with
  | custom id => exact .inl ⟨nofun, rfl⟩
  | lwext4 =>
    unfold createFilesystem afterCreate created
    cases h : B.sectorSize disk s.world with
    | mk r w =>
      cases r with
      | ok n => exact .inl ⟨fun _ => ⟨n, rfl⟩, rfl⟩
      | error e =>
        refine .inr ⟨fun h' => ?_, rfl⟩
        obtain ⟨n, e'⟩ := h' rfl
        cases e'

/-- The chosen root, and what the choice does to the state. -/
lemma chooseRoot_rootFor (fs : FsId) (root : Str) :
    ∃ v evs, NoMount evs ∧
      chooseRoot B fs root s = ((rootFor B fs root s.volumeIndex s.world).1, { s with
        volumeIndex := v
        world := (rootFor B fs root s.volumeIndex s.world).2
        log := s.log ++ evs }) := by
  unfold chooseRoot rootFor
  split
  · cases h : B.call fs .getLabel s.world with
    | mk r w =>
      cases r with
      | error e =>
        refine ⟨(s.volumeIndex + 1) % 2 ^ 32, [.call fs .getLabel e], by simp [NoMount], ?_⟩
        simp only [callFs, h]
        rfl
      | ok label =>
        refine ⟨s.volumeIndex, [.call fs .getLabel 0], by simp [NoMount], ?_⟩
        simp only [callFs, h]
        rfl
  · exact ⟨s.volumeIndex, [], by simp [NoMount], by rw [List.append_nil]⟩

/-- The two outcomes once the root is chosen. -/
lemma mountAt_cases (B : Backend σ) (fs : FsId) (type : FsType) (disk : PartRef) (root : Str)
    (flags : Flags) (s : Pimpl σ) :
    ((root ∉ s.mounts ∧ (B.call fs (.mount root flags) s.world).1 = 0) ∧
      (mountAt B fs type disk root flags s).1 = 0 ∧
      (mountAt B fs type disk root flags s).2.mounts =
        s.mounts.insert root ⟨fs, disk, root, flags, type⟩ ∧
      (mountAt B fs type disk root flags s).2.fdContainer = s.fdContainer) ∨
    (¬ (root ∉ s.mounts ∧ (B.call fs (.mount root flags) s.world).1 = 0) ∧
      (mountAt B fs type disk root flags s).1 ≠ 0 ∧
      Harmless s (mountAt B fs type disk root flags s).2) := by
  unfold mountAt
  by_cases hm : root ∈ s.mounts
  · rw [if_pos hm]
    have he : EEXIST ≠ (0 : ErrorCode) := by decide
    exact .inr ⟨fun h => h.1 hm, he, rfl, rfl, [], (List.append_nil _).symm, by simp [NoMount]⟩
  · rw [if_neg hm]
    by_cases h0 : (B.call fs (.mount root flags) s.world).1 = 0
    · have h0' : ¬ (callFs B fs (.mount root flags) s).1 ≠ 0 := not_not.mpr h0
      simp only [if_neg h0']
      exact .inl ⟨⟨hm, h0⟩, trivial, rfl, rfl⟩
    · have h0' : (callFs B fs (.mount root flags) s).1 ≠ 0 := h0
      simp only [if_pos h0']
      refine .inr ⟨fun h => h0 h.2, h0', rfl, rfl, [_], rfl, ?_⟩
      intro fs' root' flags' h
      have e := List.mem_singleton.mp h
      injection e with _ _ e
      exact h0 e.symm

/-- A harmless call and then no mount. -/
lemma Harmless.trans {s'' : Pimpl σ} {evs : List Event} (h : Harmless s' s'')
    (hm : s'.mounts = s.mounts) (hf : s'.fdContainer = s.fdContainer)
    (hl : s'.log = s.log ++ evs) (nm : NoMount evs) : Harmless s s'' := by
  obtain ⟨hm', hf', evs', hl', nm'⟩ := h
  refine ⟨hm'.trans hm, hf'.trans hf, evs ++ evs', by rw [hl', hl, List.append_assoc], ?_⟩
  intro fs root flags h
  rcases List.mem_append.mp h with h | h
  · exact nm _ _ _ h
  · exact nm' _ _ _ h

/-- Finding the filesystem fails with `EINVAL`. -/
lemma fsDiscovery_error {factories : UnorderedMap Str (FsType × Option Factory)}
    {diskMgr : DiskManager} {name : Str} {e : ErrorCode}
    (h : fsDiscovery factories diskMgr name = .ok (.error e)) : e = EINVAL := by
  unfold fsDiscovery at h
  split at h
  · cases h
  · split at h
    · cases h; rfl
    · cases h; rfl
    · split at h
      · cases h; rfl
      · split at h
        · cases h; rfl
        · cases h

lemma Harmless.refl : Harmless s s :=
  ⟨rfl, rfl, [], (List.append_nil _).symm, by simp [NoMount]⟩

/-- The two outcomes of a mount that gets its filesystem object. -/
lemma mount_created {name : Str} (root fstype : Str) {flags : Flags} {type t : FsType}
    {found : PartRef} {factory : Factory}
    (hd : fsDiscovery s.fsFactories s.diskMgr name = .ok (.ok (type, found)))
    (hf : s.fsFactories.lookup type.name = some (t, some factory))
    (hs : factory = .lwext4 → ∃ n, (B.sectorSize found s.world).1 = .ok n) :
    ∃ e s', mount B name root fstype flags s = .ok (e, s') ∧
      ((Accepted B s factory found root flags ∧ e = 0 ∧ Mounted s s' root found ∧
        s'.fdContainer = s.fdContainer) ∨
      (¬ Accepted B s factory found root flags ∧ e ≠ 0 ∧ Harmless s s')) := by
  rcases createFilesystem_cases B factory found s with ⟨-, hc⟩ | ⟨hs', -⟩
  · have hm : mount B name root fstype flags s =
        .ok (mountFs B s.nextFs type found root flags (afterCreate B factory found s)) := by
      simp only [mount, hd, hf, hc]
    obtain ⟨v, evs, nm, hr⟩ :=
      chooseRoot_rootFor (B := B) (s := afterCreate B factory found s) s.nextFs root
    have hroot : root ≠ [] →
        (rootFor B s.nextFs root s.volumeIndex (created B factory found s)).1 = root := by
      intro h
      rw [rootFor, if_neg h]
    generalize hx : mountFs B s.nextFs type found root flags (afterCreate B factory found s) = r
      at hm
    rw [mountFs, hr] at hx
    have hcases := mountAt_cases B s.nextFs type found
      (rootFor B s.nextFs root (afterCreate B factory found s).volumeIndex
        (afterCreate B factory found s).world).1 flags
      { afterCreate B factory found s with
        volumeIndex := v
        world := (rootFor B s.nextFs root (afterCreate B factory found s).volumeIndex
          (afterCreate B factory found s).world).2
        log := (afterCreate B factory found s).log ++ evs }
    rw [hx] at hcases
    obtain ⟨e, s'⟩ := r
    refine ⟨e, s', hm, ?_⟩
    rcases hcases with ⟨acc, he, hm, hfd⟩ | ⟨acc, he, hh⟩
    · have mounted : Mounted s s' root found :=
        ⟨⟨s.nextFs, found,
          (rootFor B s.nextFs root s.volumeIndex (created B factory found s)).1, flags, type⟩,
          acc.1, hm, rfl, hroot⟩
      exact .inl ⟨acc, he, mounted, hfd⟩
    · refine .inr ⟨acc, he, hh.trans rfl rfl (List.append_assoc _ _ _) ?_⟩
      intro fs root' flags' h
      rcases List.mem_append.mp h with h | h
      · cases List.mem_singleton.mp h
      · exact nm _ _ _ h
  · exact absurd hs hs'

/-- A new entry is for one partition. -/
lemma Mounted.disk_unique {root : Str} {disk disk' : PartRef} (h : Mounted s s' root disk)
    (h' : Mounted s s' root disk') : disk = disk' := by
  obtain ⟨mp, hn, hm, rfl, -⟩ := h
  obtain ⟨mp', hn', hm', rfl, -⟩ := h'
  have e : s'.mounts.lookup mp'.root = some mp' := by rw [hm', AList.lookup_insert]
  rw [hm] at e
  rcases UnorderedMap.lookup_insert_elim e with ⟨-, rfl⟩ | e
  · rfl
  · exact absurd (UnorderedMap.mem_of_lookup e) hn'

/-- `mount` has one of its two outcomes exactly when it is prepared. -/
theorem mountRight_iff {name root fstype : Str} {flags : Flags} {disk : PartRef} :
    MountRight B s name root fstype flags disk ↔ Prepared B s name root flags disk := by
  unfold MountRight Prepared
  cases hd : fsDiscovery s.fsFactories s.diskMgr name with
  | error f =>
    -- a fault is no outcome, and nothing is prepared
    have hm : mount B name root fstype flags s = .error f := by simp only [mount, hd]
    rw [hm]
    constructor
    · rintro ⟨e, s', h, -⟩
      cases h
    · rintro ⟨r, h, -⟩
      cases h
  | ok r =>
    cases r with
    | error e =>
      -- a name that is not found is refused
      have hm : mount B name root fstype flags s = .ok (e, s) := by simp only [mount, hd]
      have he : EINVAL ≠ (0 : ErrorCode) := by decide
      rw [fsDiscovery_error hd] at hm
      refine ⟨fun _ => ⟨_, rfl, fun type found h => nomatch h⟩, fun _ => ?_⟩
      exact ⟨EINVAL, s, hm, .inr ⟨he, .refl⟩⟩
    | ok r =>
      obtain ⟨type, found⟩ := r
      constructor
      · rintro ⟨e, s', hm, right⟩
        refine ⟨_, rfl, fun type' found' hr => ?_⟩
        cases hr
        cases hf : s.fsFactories.lookup type.name with
        | none =>
          simp only [mount, hd, hf] at hm
          cases hm
        | some v =>
          obtain ⟨t, factory⟩ := v
          cases factory with
          | none =>
            simp only [mount, hd, hf] at hm
            cases hm
          | some factory =>
            -- the constructor of a `filesystem_lwext4` throws where the sector size is not known
            by_cases hs : factory = .lwext4 → ∃ n, (B.sectorSize found s.world).1 = .ok n
            · refine ⟨t, factory, rfl, hs, fun acc => ?_⟩
              obtain ⟨e', s'', hm', ⟨-, rfl, md, -⟩ | ⟨acc', -, -⟩⟩ :=
                mount_created (B := B) root fstype hd hf hs
              · obtain ⟨rfl, rfl⟩ := Prod.mk.inj (Except.ok.inj (hm'.symm.trans hm))
                rcases right with ⟨-, md', -⟩ | ⟨h0, -⟩
                · exact md.disk_unique md'
                · exact absurd rfl h0
              · exact absurd acc acc'
            · rcases createFilesystem_cases B factory found s with ⟨hs', -⟩ | ⟨-, hc⟩
              · exact absurd hs' hs
              · simp only [mount, hd, hf, hc] at hm
                cases hm
      · rintro ⟨r, hr, h⟩
        obtain ⟨t, factory, hf, hs, hdisk⟩ := h type found (Except.ok.inj hr).symm
        obtain ⟨e, s', hm, ⟨acc, he, md, hfd⟩ | ⟨-, he, hh⟩⟩ :=
          mount_created (B := B) root fstype hd hf hs
        · exact ⟨e, s', hm, .inl ⟨he, hdisk acc ▸ md, hfd⟩⟩
        · exact ⟨e, s', hm, .inr ⟨he, hh⟩⟩

/-- A type of the user's own is registered without a factory. -/
def noFactory : Pimpl (FsId → Str) :=
  play .accepting [.registerFilesystem ⟨"linux".toList, [0x83]⟩] (sample fun _ => [])

/-- Mounting a partition of a type that has no factory calls through a null pointer. -/
theorem not_mountRight_noFactory :
    Reachable .accepting noFactory ∧ noFactory.diskMgr.get "sd".toList = some sampleDisk ∧
      createPartitionName "sd".toList 0 = "sdp0".toList ∧
      mount .accepting "sdp0".toList "/a".toList [] 0 noFactory = .error .nullDeref ∧
      ¬ MountRight .accepting noFactory "sdp0".toList "/a".toList [] 0 ⟨0, 0⟩ := by
  have hm : mount .accepting "sdp0".toList "/a".toList [] 0 noFactory = .error .nullDeref :=
    map_error (g := Prod.fst) (by decide)
  refine ⟨(Reachable.initial initial_sample).play, by decide, by decide, hm, ?_⟩
  rintro ⟨e, s', h, -⟩
  rw [hm] at h
  cases h

end Pimpl
end Evfs
