import Evfs.Vfs.PartitionLookup
import Evfs.Common.VfsCalls

/-!
# Mounted partitions and registered disks

A mount point keeps a reference to its partition, an object inside a `Disk` that the `DiskManager`
owns. `mount` takes it from a registered disk; `unregister_device` destroys the disk without asking
whether something on it is mounted. `MountsRegistered` says that every mount point stands on a
registered disk. It is kept by every step but the removal of a disk that has a mounted partition,
which breaks it.
-/

namespace Evfs
open Lib

namespace DiskManager

/-- The partition belongs to a disk that is registered. -/
def Registered (mgr : DiskManager) (p : PartRef) : Prop :=
  ∃ name disk, mgr.diskMap.lookup name = some disk ∧ disk.id = p.disk ∧
    p.index < disk.partitions.length

/-- Disk objects have identities of their own. -/
structure Wf (mgr : DiskManager) : Prop where
  bound {name disk} : mgr.diskMap.lookup name = some disk → disk.id < mgr.nextDisk
  unique {name name' disk disk'} : mgr.diskMap.lookup name = some disk →
    mgr.diskMap.lookup name' = some disk' → disk.id = disk'.id → name = name'

variable {mgr mgr' : DiskManager} {δ : Type}

/-- The manager without disks is well-formed. -/
lemma Wf.empty : Wf {} where
  bound e := by cases e
  unique e := by cases e

/-- Only what the map holds matters, not the order it is iterated in. -/
lemma Wf.congr (wf : mgr.Wf) (hm : ∀ name, mgr'.diskMap.lookup name = mgr.diskMap.lookup name)
    (hn : mgr'.nextDisk = mgr.nextDisk) : mgr'.Wf where
  bound e := hn ▸ wf.bound (hm _ ▸ e)
  unique e e' := wf.unique (hm _ ▸ e) (hm _ ▸ e')

/-- A registration leaves the table as it is, or adds a new disk under a new name. -/
lemma registerDevice_cases (mgr : DiskManager) (dev : BlockDevice δ) (d : δ) :
    (mgr.registerDevice dev d).1.2 = mgr ∨ ∃ disk, disk.id = mgr.nextDisk ∧
      dev.getName ∉ mgr.diskMap ∧ (mgr.registerDevice dev d).1.2 =
        ⟨UnorderedMap.emplace mgr.diskMap dev.getName disk, mgr.nextDisk + 1⟩ := by
  unfold registerDevice
  simp only
  split
  · exact .inl rfl
  · rename_i hn
    split
    · exact .inl rfl
    · split
      · exact .inl rfl
      · rename_i disk d' hc
        exact .inr ⟨disk, (Disk.create_partitions (congrArg Prod.fst hc)).1, hn, rfl⟩

/-- It stays so when a device is registered. -/
lemma Wf.registerDevice (wf : mgr.Wf) (dev : BlockDevice δ) (d : δ) :
    (mgr.registerDevice dev d).1.2.Wf := by
  rcases mgr.registerDevice_cases dev d with e | ⟨disk, hi, hn, e⟩
  · rwa [e]
  · rw [e]
    have old : ∀ {name disk'}, mgr.diskMap.lookup name = some disk' → disk'.id ≠ disk.id :=
      fun h => by rw [hi]; exact (wf.bound h).ne
    constructor
    case bound =>
      intro name disk' h
      rcases UnorderedMap.lookup_emplace_elim h with h | ⟨-, rfl⟩
      · exact Nat.lt_succ_of_lt (wf.bound h)
      · exact hi ▸ Nat.lt_succ_self _
    case unique =>
      intro name name' disk₁ disk₂ h h' hd
      rcases UnorderedMap.lookup_emplace_elim h with e₁ | ⟨rfl, rfl⟩
      · rcases UnorderedMap.lookup_emplace_elim h' with e' | ⟨-, rfl⟩
        · exact wf.unique e₁ e' hd
        · exact absurd hd (old e₁)
      · rcases UnorderedMap.lookup_emplace_elim h' with e' | ⟨rfl, -⟩
        · exact absurd hd.symm (old e')
        · rfl

/-- The disks after one is unregistered. -/
lemma lookup_unregisterDevice {name name' : Str} {disk : Disk} :
    (mgr.unregisterDevice name).2.diskMap.lookup name' = some disk ↔
      name' ≠ name ∧ mgr.diskMap.lookup name' = some disk := by
  unfold unregisterDevice
  split
  · by_cases h : name' = name
    · subst h
      rw [AList.lookup_erase]
      exact ⟨(fun e => by cases e), fun e => absurd rfl e.1⟩
    · rw [AList.lookup_erase_ne h]
      exact ⟨fun e => ⟨h, e⟩, And.right⟩
  · rename_i hn
    refine ⟨fun e => ⟨?_, e⟩, And.right⟩
    rintro rfl
    exact hn (UnorderedMap.mem_of_lookup e)

/-- The manager stays well-formed. -/
lemma Wf.unregisterDevice (wf : mgr.Wf) (name : Str) : (mgr.unregisterDevice name).2.Wf where
  bound e := by
    have b := wf.bound (lookup_unregisterDevice.mp e).2
    unfold DiskManager.unregisterDevice
    split
    · exact b
    · exact b
  unique e e' := wf.unique (lookup_unregisterDevice.mp e).2 (lookup_unregisterDevice.mp e').2

/-- A partition is registered while its disk is. -/
lemma Registered.mono {p : PartRef} (r : mgr.Registered p)
    (hm : ∀ {name disk}, mgr.diskMap.lookup name = some disk → disk.id = p.disk →
      mgr'.diskMap.lookup name = some disk) : mgr'.Registered p := by
  obtain ⟨name, disk, e, hd, lt⟩ := r
  exact ⟨name, disk, hm e hd, hd, lt⟩

/-- Registering a device keeps the others. -/
lemma Registered.registerDevice {p : PartRef} (r : mgr.Registered p) (dev : BlockDevice δ) (d : δ) :
    (mgr.registerDevice dev d).1.2.Registered p := by
  rcases mgr.registerDevice_cases dev d with e | ⟨disk, -, hn, e⟩
  · rwa [e]
  · rw [e]
    refine r.mono fun {name _} h _ => ?_
    have ne : name ≠ dev.getName := by
      rintro rfl
      exact hn (UnorderedMap.mem_of_lookup h)
    exact (UnorderedMap.lookup_emplace_ne ne).trans h

end DiskManager

/-- What `fs_discovery` finds is on a registered disk. -/
lemma registered_of_fsDiscovery {factories : UnorderedMap Str (FsType × Option Factory)}
    {mgr : DiskManager} {name : Str} {type : FsType} {p : PartRef}
    (h : fsDiscovery factories mgr name = .ok (.ok (type, p))) : mgr.Registered p := by
  unfold fsDiscovery at h
  split at h
  · cases h
  · split at h
    · cases h
    · cases h
    · rename_i disk partn hg _
      split at h
      · cases h
      · rename_i partition hb
        split at h
        · cases h
        · cases h
          unfold Disk.borrowPartition at hb
          split at hb
          · cases hb
          · rename_i lt
            cases hb
            exact ⟨_, disk, hg, rfl, Nat.lt_of_not_le lt⟩

namespace Pimpl
variable {σ : Type} {B : Backend σ} {s s' s₀ : Pimpl σ}

/-- Every mount point stands on a registered disk. -/
def MountsRegistered (s : Pimpl σ) : Prop :=
  ∀ k mp, s.mounts.lookup k = some mp → s.diskMgr.Registered mp.disk

/-- No disk is unregistered that has a mounted partition. -/
def SparesMounted (s : Pimpl σ) : Label → Prop
  | .unregisterDevice name => ∀ disk, s.diskMgr.diskMap.lookup name = some disk →
    ∀ k mp, s.mounts.lookup k = some mp → mp.disk.disk ≠ disk.id
  | _ => True

/-- Fewer mounts on the same disks. -/
lemma MountsRegistered.restrict (reg : MountsRegistered s)
    (hm : ∀ {k mp}, s'.mounts.lookup k = some mp → s.mounts.lookup k = some mp)
    (hd : s'.diskMgr = s.diskMgr) : MountsRegistered s' :=
  fun k mp e => hd ▸ reg k mp (hm e)

/-- Quiet code leaves the disks alone. -/
lemma Quiet.diskMgr (q : Quiet B s s') : s'.diskMgr = s.diskMgr := by
  obtain ⟨⟨_, _, rfl⟩, _⟩ := q
  rfl

/-- A mount adds at most an entry for the partition that was found. -/
lemma MountsRegistered.mount (reg : MountsRegistered s) {diskName root fstype : Str} {flags : Flags}
    {e : ErrorCode} (h : mount B diskName root fstype flags s = .ok (e, s')) :
    MountsRegistered s' ∧ s'.diskMgr = s.diskMgr := by
  unfold Pimpl.mount at h
  split at h
  · cases h
  · cases h
    exact ⟨reg, rfl⟩
  · rename_i type disk hd
    have rd := registered_of_fsDiscovery hd
    split at h
    · rename_i factory _
      split at h
      · cases h
      · rename_i fs s₁ hc
        obtain ⟨rfl, w, l, rfl, -⟩ := createFilesystem_ok hc
        obtain ⟨m, v, w', l', e', -, hm⟩ := mountFs_effect (B := B) s.nextFs type disk root flags
          (s := { s with nextFs := s.nextFs + 1, world := w, log := s.log ++ l })
        have hs : _ = s' := congrArg Prod.snd (Except.ok.inj h)
        rw [e'] at hs
        subst hs
        refine ⟨fun k mp hk => ?_, rfl⟩
        rcases hm with rfl | ⟨mp', -, -, hp, -, rfl⟩
        · exact reg k mp hk
        · rcases UnorderedMap.lookup_insert_elim hk with ⟨-, rfl⟩ | hk
          · exact hp ▸ rd
          · exact reg k mp hk
    · cases h

/-- The loop of `mount_all` mounts registered partitions only. -/
lemma MountsRegistered.mountLoop (reg : MountsRegistered s) {names : List Str} {ret e : ErrorCode}
    (h : mountLoop B names ret s = .ok (e, s')) : MountsRegistered s' ∧ s'.diskMgr = s.diskMgr := by
  induction names generalizing ret s with
  | nil =>
    cases h
    exact ⟨reg, rfl⟩
  | cons name names ih =>
    rw [Pimpl.mountLoop] at h
    split at h
    · cases h
    · rename_i hm
      obtain ⟨reg₁, hd₁⟩ := reg.mount hm
      obtain ⟨reg', hd'⟩ := ih reg₁ h
      exact ⟨reg', hd'.trans hd₁⟩

/-- Every operation of `VirtualFS` keeps the disks, and its mount points on them. -/
lemma MountsRegistered.exec (reg : MountsRegistered s) {a : Action} {r : Reply}
    (h : exec B a s = .ok (r, s')) : MountsRegistered s' ∧ s'.diskMgr = s.diskMgr := by
  cases exec_effect h with
  | quiet q => exact ⟨reg.restrict (fun e => q.mounts ▸ e) q.diskMgr, q.diskMgr⟩
  | factories => exact ⟨reg, rfl⟩
  | mounted _ =>
    obtain ⟨⟨e, s₁⟩, h', e'⟩ := map_ok h
    cases e'
    exact reg.mount h'
  | mountedAll _ =>
    obtain ⟨⟨e, s₁⟩, h', e'⟩ := map_ok h
    cases e'
    unfold Pimpl.mountAll at h'
    split at h'
    · cases h'
      exact ⟨reg, rfl⟩
    · exact reg.mountLoop h'
  | unmounted _ _ q =>
    refine ⟨reg.restrict (fun {k mp} e => ?_) q.diskMgr, q.diskMgr⟩
    rw [← q.mounts]
    exact UnorderedMap.lookup_erase_elim e
  | unmountedAll q => exact ⟨(fun k mp e => by cases e), q.diskMgr⟩
  | opened _ _ _ _ q => exact ⟨reg.restrict (fun e => q.mounts ▸ e) q.diskMgr, q.diskMgr⟩
  | closed _ q q' =>
    have hd : s'.diskMgr = s.diskMgr := q'.diskMgr.trans q.diskMgr
    have hm : s'.mounts = s.mounts := q'.mounts.trans q.mounts
    exact ⟨reg.restrict (fun e => hm ▸ e) hd, hd⟩
  | marked => exact ⟨reg, rfl⟩
  | diropened _ _ _ _ q => exact ⟨reg.restrict (fun e => q.mounts ▸ e) q.diskMgr, q.diskMgr⟩
  | dirclosed q => exact ⟨reg.restrict (fun e => q.mounts ▸ e) q.diskMgr, q.diskMgr⟩

/-- A step keeps the disk manager in order. -/
lemma diskMgr_step {l : Label} (reg : MountsRegistered s) (wf : s.diskMgr.Wf)
    (st : Step B s l s') : s'.diskMgr.Wf := by
  cases st with
  | op _ e => rwa [(reg.exec e).2]
  | rehash h => exact wf.congr (fun name => h.diskMap.lookup name) (by rw [h.rest])
  | foreignOpen => exact wf
  | registerDevice dev d => exact wf.registerDevice dev d
  | unregisterDevice name => exact wf.unregisterDevice name

/-- A step keeps the mount points on registered disks exactly if it spares those. -/
lemma MountsRegistered.step {l : Label} (reg : MountsRegistered s) (wf : s.diskMgr.Wf)
    (st : Step B s l s') : MountsRegistered s' ↔ SparesMounted s l := by
  cases st with
  | op _ e => exact iff_of_true (reg.exec e).1 trivial
  | rehash h =>
    refine iff_of_true (fun k mp e => ?_) trivial
    exact (reg k mp (h.lookup_mounts k ▸ e)).mono fun e' _ => (h.diskMap.lookup _).trans e'
  | foreignOpen => exact iff_of_true reg trivial
  | registerDevice dev d =>
    exact iff_of_true (fun k mp e => (reg k mp e).registerDevice dev d) trivial
  | unregisterDevice name =>
    constructor
    · intro reg' disk e k mp hk hd
      obtain ⟨name', disk', e', hd', -⟩ := reg' k mp hk
      obtain ⟨ne, e'⟩ := DiskManager.lookup_unregisterDevice.mp e'
      exact ne (wf.unique e' e (hd'.trans hd))
    · intro spares k mp hk
      refine (reg k mp hk).mono fun {name' disk} e hd => ?_
      refine DiskManager.lookup_unregisterDevice.mpr ⟨?_, e⟩
      rintro rfl
      exact spares disk e k mp hk hd.symm

/-- In every run that unregisters no disk with a mounted partition, every mount point stands on a
registered disk; and the next step keeps this exactly if it unregisters no such disk. -/
theorem mountsRegistered_runs (init : Initial s₀) (empty : s₀.diskMgr = {})
    (run : Runs (Step B) SparesMounted s₀ s) :
    MountsRegistered s ∧ ∀ l s', Step B s l s' → (MountsRegistered s' ↔ SparesMounted s l) := by
  have inv : MountsRegistered s ∧ s.diskMgr.Wf := by
    refine run.invariant (I := fun s => MountsRegistered s ∧ s.diskMgr.Wf) ?_ ⟨?_, ?_⟩
    · rintro _ _ _ ⟨reg, wf⟩ ok st
      exact ⟨(reg.step wf st).mpr ok, diskMgr_step reg wf st⟩
    · intro k mp e
      rw [init.mounts] at e
      cases e
    · rw [empty]
      exact .empty
  exact ⟨inv.1, fun l s' st => inv.1.step inv.2 st⟩

/-- Nothing is registered yet. -/
def withoutDisks : Pimpl (FsId → Str) where
  world _ := []

/-- A disk is registered. -/
def registeredDisk : Pimpl (FsId → Str) :=
  { withoutDisks with
    diskMgr := (withoutDisks.diskMgr.registerDevice (Disk.tableDevice Disk.fullTable) ()).1.2 }

/-- Its first partition is mounted at `/a`. -/
def mountedDisk : Pimpl (FsId → Str) :=
  play .accepting [.registerFilesystem .ext4, .mount "sdp0".toList "/a".toList [] 0] registeredDisk

/-- The session with a mounted disk is a run. -/
lemma runs_mountedDisk :
    Runs (Step .accepting) SparesMounted withoutDisks mountedDisk := by
  have st : Step .accepting withoutDisks
      (.registerDevice (Disk.tableDevice Disk.fullTable).getName) registeredDisk :=
    .registerDevice (Disk.tableDevice Disk.fullTable) ()
  refine .head ⟨.registerDevice _, trivial, st⟩ ?_
  exact runs_play fun _ _ _ _ => trivial

/-- Its mount is on a registered disk until that is taken away. -/
theorem mountsRegistered_mountedDisk : MountsRegistered mountedDisk ∧
    ∀ l s', Step .accepting mountedDisk l s' →
      (MountsRegistered s' ↔ SparesMounted mountedDisk l) :=
  mountsRegistered_runs ⟨rfl, rfl, rfl, rfl⟩ rfl runs_mountedDisk

/-- The disk is unregistered. -/
def unpluggedDisk : Pimpl (FsId → Str) :=
  { mountedDisk with diskMgr := (mountedDisk.diskMgr.unregisterDevice "sd".toList).2 }

/-- A disk with a mounted partition can be unregistered; the mount point stays. -/
theorem not_mountsRegistered_unpluggedDisk :
    Step .accepting mountedDisk (.unregisterDevice "sd".toList) unpluggedDisk ∧
      (mountedDisk.diskMgr.unregisterDevice "sd".toList).1 = 0 ∧
      ¬ MountsRegistered unpluggedDisk := by
  refine ⟨.unregisterDevice _, by decide +kernel, fun reg => ?_⟩
  have hm : (unpluggedDisk.mounts.lookup "/a".toList).isSome = true := by decide +kernel
  have hd : unpluggedDisk.diskMgr.diskMap.entries = [] := by decide +kernel
  obtain ⟨mp, e⟩ := Option.isSome_iff_exists.mp hm
  obtain ⟨name, disk, e', -⟩ := reg _ mp e
  have h := UnorderedMap.mem_entries_iff.mpr e'
  rw [hd] at h
  cases h

end Pimpl
end Evfs
