import Evfs.Fstypes.MountSlot
import Evfs.Lib.Run

/-!
# A mount that fails

`filesystem_lwext4::mount` takes four steps, and undoes those behind it when one fails. The way back
from the first two always succeeds. Behind them it goes through `ext4_umount`, whose result is not
looked at: when that fails, the mount point stays with a device that is not registered any more; and
when the name was mounted before, for which `ext4_mount` answers success, it unmounts the filesystem
that was there (`rollsBack_runs`).
-/

namespace Evfs
namespace Lwext4
open Lib

namespace World

/-- An entry of the device table. -/
def deviceEntry (w : World) (i : Fin 4) : Option BlockDeviceSlot :=
  if (w.sBdevices i).bd = none then none else some (w.sBdevices i)

/-- An entry of the mount point table; a slot that is not mounted has none. -/
def mountEntry (w : World) (i : Fin 4) : Option Mountpoint :=
  if (w.sMp i).mounted then some (w.sMp i) else none

/-- The same devices are registered and the same mount points are mounted. -/
def SameTables (w w' : World) : Prop :=
  w'.deviceEntry = w.deviceEntry ∧ w'.mountEntry = w.mountEntry

end World

namespace FilesystemLwext4
open World

/-- The root is kept in the object. -/
def rooted (fs : FsId) (o : Object) (root : Str) (w : World) : World :=
  { w with objects := Function.update w.objects fs (some { o with root }) }

end FilesystemLwext4

namespace World
variable {w w' : World} {name root : Str} {bd : PartRef} {i : Fin 4} {is : List (Fin 4)}

/-! ### The tables -/

/-- The block devices stay registered while a volume is mounted. -/
lemma sBdevices_ext4Mount {ro : Bool} :
    (w.ext4Mount name root ro).2.sBdevices = w.sBdevices := by
  obtain ⟨_, _, hw, -⟩ := ext4Mount_effect w name root ro
  rw [hw]

/-- And when it is unmounted. -/
lemma sBdevices_ext4Umount : (w.ext4Umount root).2.sBdevices = w.sBdevices := by
  unfold ext4Umount
  split
  · rfl
  · simp only
    split
    · split <;> rfl
    · split <;> rfl

/-- And while it is recovered. -/
lemma sBdevices_recover : (w.recover root).2.sBdevices = w.sBdevices := by
  unfold recover
  repeat' split
  all_goals rfl

/-- And when its journal starts. -/
lemma sBdevices_journal : (w.journal root).2.sBdevices = w.sBdevices := by
  unfold journal
  repeat' split
  all_goals rfl

/-- The names of partitions do not change when one is registered. -/
lemma devName_deviceRegister : (w.deviceRegister bd name).2.devName = w.devName := by
  unfold deviceRegister
  repeat' split
  all_goals rfl

/-- Nor when it is given back. -/
lemma devName_deviceUnregister : (w.deviceUnregister name).2.devName = w.devName := by
  unfold deviceUnregister
  split
  · rfl
  · rfl

/-- Nor when a volume is mounted. -/
lemma devName_ext4Mount {ro : Bool} : (w.ext4Mount name root ro).2.devName = w.devName := by
  obtain ⟨_, _, hw, -⟩ := ext4Mount_effect w name root ro
  rw [hw]

/-- Nor when it is unmounted. -/
lemma devName_ext4Umount : (w.ext4Umount root).2.devName = w.devName := by
  unfold ext4Umount
  split
  · rfl
  · simp only
    split
    · split <;> rfl
    · split <;> rfl

/-- Nor when it is recovered. -/
lemma devName_recover : (w.recover root).2.devName = w.devName := by
  unfold recover
  repeat' split
  all_goals rfl

/-- Nor when its journal starts. -/
lemma devName_journal : (w.journal root).2.devName = w.devName := by
  unfold journal
  repeat' split
  all_goals rfl

/-- A device is registered under a new name in a slot that was free. -/
lemma deviceRegister_ok (h : (w.deviceRegister bd name).1 = 0) :
    (∀ i, (w.sBdevices i).name ≠ name) ∧ ∃ i, (w.sBdevices i).bd = none ∧
      (w.deviceRegister bd name).2.sBdevices =
        Function.update w.sBdevices i ⟨name, some bd⟩ := by
  unfold deviceRegister at h ⊢
  split at h
  · cases h
  · rename_i h₁
    rw [if_neg h₁]
    split at h
    · cases h
    · rename_i h₂
      rw [if_neg h₂]
      refine ⟨fun i e => h₂ ⟨i, e⟩, ?_⟩
      split at h
      · cases h
      · rename_i i hi
        exact ⟨i, by simpa using List.find?_some hi, rfl⟩

/-- A registration that fails changes nothing. -/
lemma deviceRegister_error (h : (w.deviceRegister bd name).1 ≠ 0) :
    (w.deviceRegister bd name).2 = w := by
  unfold deviceRegister at h ⊢
  split
  · rfl
  · rename_i h₁
    rw [if_neg h₁] at h
    split
    · rfl
    · rename_i h₂
      rw [if_neg h₂] at h
      split at h
      · rfl
      · exact absurd rfl h

/-- Nor does giving back what is not there. -/
lemma deviceUnregister_error (h : (w.deviceUnregister name).1 ≠ 0) :
    (w.deviceUnregister name).2 = w := by
  unfold deviceUnregister at h ⊢
  split
  · rfl
  · rename_i hf
    rw [hf] at h
    exact absurd rfl h

/-- It leaves the slots with other names alone. -/
lemma deviceUnregister_other (h : (w.sBdevices i).name ≠ name) :
    (w.deviceUnregister name).2.sBdevices i = w.sBdevices i := by
  unfold deviceUnregister
  split
  · rfl
  · rename_i j hf
    have hj := List.find?_some hf
    refine Function.update_of_ne ?_ _ _
    rintro rfl
    exact h (by simpa using hj)

end World

namespace FilesystemLwext4
open World
variable {fs fs' : FsId} {o o' : Object} {w w' : World} {root name : Str} {flags : Flags}

/-- A mount that fails leaves the device table as it was. -/
lemma sBdevices_mountDevice (name root : Str) (flags : Flags) (w : World) :
    ∃ v : World, v.sBdevices = w.sBdevices ∧
    ((mountDevice name root flags w).1 ≠ 0 →
      (mountDevice name root flags w).2 = (v.deviceUnregister name).2) ∧
    ((mountDevice name root flags w).1 = 0 →
      (mountDevice name root flags w).2.sBdevices = w.sBdevices) := by
  unfold mountDevice
  simp only
  split
  · rename_i h₁
    exact ⟨_, sBdevices_ext4Mount, fun _ => rfl, fun h => absurd h h₁⟩
  · split
    · rename_i h₂
      refine ⟨_, ?_, fun _ => rfl, fun h => absurd h h₂⟩
      rw [sBdevices_ext4Umount, sBdevices_recover, sBdevices_ext4Mount]
    · split
      · rename_i h₃
        refine ⟨_, ?_, fun _ => rfl, fun h => absurd h h₃⟩
        rw [sBdevices_ext4Umount, sBdevices_journal, sBdevices_recover, sBdevices_ext4Mount]
      · refine ⟨w, rfl, fun h => absurd rfl h, fun _ => ?_⟩
        rw [sBdevices_journal, sBdevices_recover, sBdevices_ext4Mount]

/-- `mount` with its block device registered. -/
lemma mount_registered
    (h : ((rooted fs o root w).deviceRegister o.blockdev (w.devName o.blockdev)).1 = 0) :
    mount fs o root flags w = mountDevice (w.devName o.blockdev) (toNativeRoot root) flags
      ((rooted fs o root w).deviceRegister o.blockdev (w.devName o.blockdev)).2 := by
  unfold rooted at h ⊢
  simp only [mount, h, ne_eq, not_true_eq_false, if_false]

/-- `mount` without. -/
lemma mount_refused
    (h : ((rooted fs o root w).deviceRegister o.blockdev (w.devName o.blockdev)).1 ≠ 0) :
    mount fs o root flags w =
      (((rooted fs o root w).deviceRegister o.blockdev (w.devName o.blockdev)).1,
        rooted fs o root w) := by
  have hw := deviceRegister_error h
  unfold rooted at h hw ⊢
  simp only [mount, h, ne_eq, not_false_eq_true, if_true, hw]

/-- The names of partitions are the same all the while. -/
lemma devName_mountDevice : (mountDevice name root flags w).2.devName = w.devName := by
  unfold mountDevice
  simp only
  split
  · rw [devName_deviceUnregister, devName_ext4Mount]
  · split
    · rw [devName_deviceUnregister, devName_ext4Umount, devName_recover, devName_ext4Mount]
    · split
      · rw [devName_deviceUnregister, devName_ext4Umount, devName_journal, devName_recover,
          devName_ext4Mount]
      · rw [devName_journal, devName_recover, devName_ext4Mount]

/-- So they are after `mount`. -/
lemma devName_mount : (mount fs o root flags w).2.devName = w.devName := by
  unfold mount
  simp only
  split
  · exact devName_deviceRegister
  · rw [devName_mountDevice]
    exact devName_deviceRegister

/-- So they are after `unmount`. -/
lemma devName_unmount : (unmount o w).2.devName = w.devName := by
  unfold unmount
  simp only
  split
  · rw [devName_ext4Umount, devName_journal]
  · rw [devName_deviceUnregister, devName_ext4Umount, devName_journal]

/-- A mount leaves the devices that are registered alone, and one that succeeds adds its own under a
new name. -/
lemma sBdevices_mount (fs : FsId) (o : Object) (root : Str) (flags : Flags) (w : World) :
    (∀ i, (w.sBdevices i).bd ≠ none → (mount fs o root flags w).2.sBdevices i = w.sBdevices i) ∧
    ((mount fs o root flags w).1 = 0 → (∀ i, (w.sBdevices i).name ≠ w.devName o.blockdev) ∧
      ∃ i, (mount fs o root flags w).2.sBdevices i =
        ⟨w.devName o.blockdev, some o.blockdev⟩) := by
  by_cases h0 : ((rooted fs o root w).deviceRegister o.blockdev (w.devName o.blockdev)).1 = 0
  · rw [mount_registered h0]
    obtain ⟨new, j, hj, hr⟩ := deviceRegister_ok h0
    obtain ⟨v, hv, he, hs⟩ := sBdevices_mountDevice (w.devName o.blockdev) (toNativeRoot root) flags
      ((rooted fs o root w).deviceRegister o.blockdev (w.devName o.blockdev)).2
    rw [hr] at hv hs
    refine ⟨fun i hi => ?_, fun h => ⟨new, j, ?_⟩⟩
    · have ne : i ≠ j := by
        rintro rfl
        exact hi hj
      by_cases h : (mountDevice (w.devName o.blockdev) (toNativeRoot root) flags
          ((rooted fs o root w).deviceRegister o.blockdev (w.devName o.blockdev)).2).1 = 0
      · rw [hs h, Function.update_of_ne ne]
        rfl
      · have hi' : v.sBdevices i = w.sBdevices i := by
          rw [hv, Function.update_of_ne ne]
          rfl
        rw [he h, deviceUnregister_other, hi']
        rw [hi']
        exact new i
    · rw [hs h, Function.update_self]
  · rw [mount_refused h0]
    exact ⟨fun _ _ => rfl, fun h => absurd h h0⟩

/-- An `unmount` leaves the devices with other names alone, and all of them when it fails. -/
lemma sBdevices_unmount {i : Fin 4}
    (h : (w.sBdevices i).name ≠ w.devName o.blockdev ∨ (unmount o w).1 ≠ 0) :
    (unmount o w).2.sBdevices i = w.sBdevices i := by
  unfold unmount at h ⊢
  simp only at h ⊢
  split
  · rw [sBdevices_ext4Umount, sBdevices_journal]
  · rename_i h₁
    rw [if_neg h₁, devName_ext4Umount, devName_journal] at h
    rw [devName_ext4Umount, devName_journal]
    have hs : ((w.journal (toNativeRoot o.root)).2.ext4Umount (toNativeRoot o.root)).2.sBdevices =
        w.sBdevices := by
      rw [sBdevices_ext4Umount, sBdevices_journal]
    rcases h with h | h
    · rw [deviceUnregister_other (by rwa [hs]), hs]
    · rw [deviceUnregister_error h, hs]

/-- The library, with the objects that are mounted and the calls that have made it so. -/
structure Mounted where
  world : World
  objs : List FsId := []

inductive MountLabel where
  | mount (fs : FsId) (root : Str) (flags : Flags)
  | unmount (fs : FsId)
  | other

/-- An object that is not mounted is mounted, or one that is is unmounted; anything else leaves the
tables and these objects alone. -/
inductive MountStep : Mounted → MountLabel → Mounted → Prop where
  | mount {w l fs o root flags} : w.objects fs = some o → fs ∉ l →
    MountStep ⟨w, l⟩ (.mount fs root flags) ⟨(FilesystemLwext4.mount fs o root flags w).2,
      if (FilesystemLwext4.mount fs o root flags w).1 = 0 then fs :: l else l⟩
  | unmount {w l fs o} : w.objects fs = some o → fs ∈ l →
    MountStep ⟨w, l⟩ (.unmount fs) ⟨(FilesystemLwext4.unmount o w).2,
      if (FilesystemLwext4.unmount o w).1 = 0 then l.erase fs else l⟩
  | other {w w' l} : w'.sBdevices = w.sBdevices → w'.sMp = w.sMp → w'.devName = w.devName →
    (∀ fs ∈ l, w'.objects fs = w.objects fs) → MountStep ⟨w, l⟩ .other ⟨w', l⟩

/-- The device of a mounted object is registered. -/
def RegisteredFor (w : World) (fs : FsId) : Prop :=
  ∃ o i, w.objects fs = some o ∧ w.sBdevices i = ⟨w.devName o.blockdev, some o.blockdev⟩

/-- The devices of the mounted objects are registered, each under a name of its own. -/
structure Registrations (t : Mounted) : Prop where
  registered : ∀ f ∈ t.objs, RegisteredFor t.world f
  nodup : t.objs.Nodup
  distinct : ∀ f ∈ t.objs, ∀ f' ∈ t.objs, f ≠ f' → ∀ p p', t.world.objects f = some p →
    t.world.objects f' = some p' → t.world.devName p.blockdev ≠ t.world.devName p'.blockdev

/-- The other objects are as they were. -/
lemma objects_mount_same {f : FsId} (h : f ≠ fs) :
    (mount fs o root flags w).2.objects f = w.objects f := by
  rw [objects_mount, Function.update_of_ne h]

/-- A registration stays while its slot does. -/
lemma RegisteredFor.same {f : FsId} (r : RegisteredFor w f) (ho : w'.objects f = w.objects f)
    (hd : w'.devName = w.devName)
    (hb : ∀ p i, w.objects f = some p → w.sBdevices i = ⟨w.devName p.blockdev, some p.blockdev⟩ →
      w'.sBdevices i = w.sBdevices i) : RegisteredFor w' f := by
  obtain ⟨p, i, hp, hi⟩ := r
  exact ⟨p, i, ho.trans hp, by rw [hb p i hp hi, hi, hd]⟩

/-- With less objects mounted there is less to keep. -/
lemma Registrations.mono {l l' : List FsId} (reg : Registrations ⟨w, l⟩) (sub : l'.Sublist l)
    (ho : ∀ f ∈ l', w'.objects f = w.objects f) (hd : w'.devName = w.devName)
    (hr : ∀ f ∈ l', RegisteredFor w' f) : Registrations ⟨w', l'⟩ where
  registered := hr
  nodup := reg.nodup.sublist sub
  distinct f hf f' hf' ne p p' hp hp' := by
    rw [ho f hf] at hp
    rw [ho f' hf'] at hp'
    rw [hd]
    exact reg.distinct f (sub.subset hf) f' (sub.subset hf') ne p p' hp hp'

/-- A new object comes with a name that no other mounted object has. -/
lemma Registrations.cons {l : List FsId} (reg : Registrations ⟨w, l⟩) (hn : fs ∉ l)
    (ho : w.objects fs = some o) (hr : RegisteredFor w fs)
    (new : ∀ f ∈ l, ∀ p, w.objects f = some p → w.devName o.blockdev ≠ w.devName p.blockdev) :
    Registrations ⟨w, fs :: l⟩ where
  registered f hf := by
    rcases List.mem_cons.mp hf with rfl | hf
    · exact hr
    · exact reg.registered f hf
  nodup := List.nodup_cons.mpr ⟨hn, reg.nodup⟩
  distinct f hf f' hf' ne p p' hp hp' := by
    rcases List.mem_cons.mp hf with rfl | hl
    · rcases List.mem_cons.mp hf' with rfl | hl'
      · exact absurd rfl ne
      · rw [Option.some.inj (hp.symm.trans ho)]
        exact new f' hl' p' hp'
    · rcases List.mem_cons.mp hf' with rfl | hl'
      · rw [Option.some.inj (hp'.symm.trans ho)]
        exact (new f hl p hp).symm
      · exact reg.distinct f hl f' hl' ne p p' hp hp'

/-- Every step keeps the registrations of the mounted objects. -/
lemma Registrations.step {t t' : Mounted} {lab : MountLabel} (reg : Registrations t)
    (st : MountStep t lab t') : Registrations t' := by
  cases st with
  | mount ho hn =>
    rename_i w l fs o root flags
    obtain ⟨keep, new⟩ := sBdevices_mount fs o root flags w
    have same : ∀ f ∈ l, (FilesystemLwext4.mount fs o root flags w).2.objects f = w.objects f := by
      intro f hf
      apply objects_mount_same
      rintro rfl
      exact hn hf
    -- a registered device stays where it is, whether the mount succeeds or not
    have old : Registrations ⟨(FilesystemLwext4.mount fs o root flags w).2, l⟩ := by
      refine reg.mono (.refl _) same devName_mount fun f hf => ?_
      refine (reg.registered f hf).same (same f hf) devName_mount fun p i hp hi => keep i ?_
      rw [hi]
      exact Option.some_ne_none _
    split
    · rename_i h0
      obtain ⟨fresh, i, hi⟩ := new h0
      have hobj : (FilesystemLwext4.mount fs o root flags w).2.objects fs =
          some { o with root := root } := by
        rw [objects_mount, Function.update_self]
      -- a name that is taken would have been refused
      refine old.cons hn hobj ⟨_, i, hobj, ?_⟩ fun f hf p hp => ?_
      · rw [hi, devName_mount]
      · obtain ⟨p', j, hp', hj⟩ := reg.registered f hf
        rw [same f hf] at hp
        obtain rfl := Option.some.inj (hp'.symm.trans hp)
        have ne := fresh j
        simp only at hj
        rw [hj] at ne
        rw [devName_mount]
        exact ne.symm
    · exact old
  | unmount ho hm =>
    rename_i w l fs o
    have same : ∀ f, (FilesystemLwext4.unmount o w).2.objects f = w.objects f := fun f => by
      rw [objects_unmount]
    split
    · -- only the device of the object itself goes
      have sub := List.erase_sublist (a := fs) (l := l)
      refine reg.mono sub (fun f _ => same f) devName_unmount fun f hf => ?_
      obtain ⟨ne, hf⟩ := reg.nodup.mem_erase_iff.mp hf
      refine (reg.registered f hf).same (same f) devName_unmount fun p i hp hi => ?_
      apply sBdevices_unmount
      left
      rw [hi]
      exact reg.distinct f hf fs hm ne p o hp ho
    · rename_i h0
      refine reg.mono (.refl _) (fun f _ => same f) devName_unmount fun f hf => ?_
      exact (reg.registered f hf).same (same f) devName_unmount fun p i _ _ =>
        sBdevices_unmount (.inr h0)
  | other hb hs hd hobj =>
    refine reg.mono (.refl _) hobj hd fun f hf => ?_
    exact (reg.registered f hf).same (hobj f hf) hd fun p i _ _ => by rw [hb]

end FilesystemLwext4
end Lwext4
end Evfs
