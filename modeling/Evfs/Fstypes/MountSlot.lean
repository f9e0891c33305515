import Evfs.Fstypes.FilesystemLwext4

/-!
# The slot of a mount

A `mount` that succeeds takes the first slot of `s_mp` that is free and registers the root there, with
a separator behind it, provided that no slot has that name yet. All other slots stay as they are.
-/

namespace Evfs
namespace Lwext4

namespace World
variable {w : World} {name root : Str} {is : List (Fin 4)} {i : Fin 4}

/-- Registering a device takes no slot. -/
lemma sMp_deviceRegister {bd : PartRef} : (w.deviceRegister bd name).2.sMp = w.sMp := by
  unfold deviceRegister
  repeat' split
  all_goals rfl

/-- Neither does recovery. -/
lemma sMp_recover : (w.recover root).2.sMp = w.sMp := by
  unfold recover
  repeat' split
  all_goals rfl

/-- Nor starting the journal. -/
lemma sMp_journal : (w.journal root).2.sMp = w.sMp := by
  unfold journal
  repeat' split
  all_goals rfl

/-- The loop of `ext4_mount` stops at the first slot that is free. -/
lemma freeSlot_ok (sorted : is.Pairwise (· < ·)) (h : w.freeSlot name is = .ok i) :
    (w.sMp i).mounted = false ∧ ∀ j ∈ is, (w.sMp j).mounted = false → i ≤ j := by
  induction is with
  | nil => cases h
  | cons j is ih =>
    obtain ⟨first, sorted⟩ := List.pairwise_cons.mp sorted
    unfold freeSlot at h
    split at h
    · rename_i hm
      cases h
      refine ⟨by simpa using hm, fun j' hj _ => ?_⟩
      rcases List.mem_cons.mp hj with rfl | hj
      · exact le_refl _
      · exact (first _ hj).le
    · rename_i hm
      split at h
      · cases h
      · obtain ⟨hi, least⟩ := ih sorted h
        refine ⟨hi, fun j' hj hf => ?_⟩
        rcases List.mem_cons.mp hj with rfl | hj
        · exact absurd hf (by simpa using hm)
        · exact least _ hj hf

/-- It finds the name mounted already only if it is. -/
lemma freeSlot_taken (h : w.freeSlot name is = .error 0) :
    ∃ i, (w.sMp i).mounted = true ∧ (w.sMp i).name = name := by
  induction is with
  | nil => cases h
  | cons j is ih =>
    unfold freeSlot at h
    split at h
    · cases h
    · rename_i hm
      split at h
      · rename_i hn
        exact ⟨j, by simpa using hm, hn⟩
      · exact ih h

/-- What a `mount` makes of the slots. -/
def Takes (w w' : World) (name : Str) : Prop :=
  ∃ i slot, (w.sMp i).mounted = false ∧ (∀ j, (w.sMp j).mounted = false → i ≤ j) ∧
    slot.mounted = true ∧ slot.name = name ∧ w'.sMp = Function.update w.sMp i slot

/-- What `ext4_mount` does: it is refused, or it finds the name mounted, or it takes a free slot, the
name of which is written whatever comes next. -/
lemma ext4Mount_effect (w : World) (name root : Str) (ro : Bool) : ∃ sMp accessed,
    (w.ext4Mount name root ro).2 = { w with sMp, accessed } ∧
      ((w.ext4Mount name root ro).1 ≠ 0 ∧ sMp = w.sMp ∨
        (w.ext4Mount name root ro).1 = 0 ∧ w.freeSlot root (List.finRange 4) = .error 0 ∧
          sMp = w.sMp ∨
        ∃ i, w.freeSlot root (List.finRange 4) = .ok i ∧
          ((w.ext4Mount name root ro).1 ≠ 0 ∧
              sMp = Function.update w.sMp i { w.sMp i with name := root } ∨
            (w.ext4Mount name root ro).1 = 0 ∧ ∃ slot : Mountpoint, slot.mounted = true ∧
              slot.name = root ∧ sMp = Function.update w.sMp i slot)) := by
  unfold ext4Mount
  split
  · exact ⟨_, _, rfl, .inl ⟨show EINVAL ≠ 0 by decide, rfl⟩⟩
  · split
    · exact ⟨_, _, rfl, .inl ⟨show ENOTSUP ≠ 0 by decide, rfl⟩⟩
    · split
      · exact ⟨_, _, rfl, .inl ⟨show ENODEV ≠ 0 by decide, rfl⟩⟩
      · rename_i bd _
        cases hf : w.freeSlot root (List.finRange 4) with
        | error e =>
          refine ⟨_, _, rfl, ?_⟩
          by_cases h0 : e = 0
          · exact .inr (.inl ⟨h0, congrArg _ h0, rfl⟩)
          · exact .inl ⟨h0, rfl⟩
        | ok i =>
          simp only
          split
          · rename_i h0
            exact ⟨_, _, rfl, .inr (.inr ⟨i, rfl, .inl ⟨h0, rfl⟩⟩)⟩
          · split
            · exact ⟨_, _, rfl, .inr (.inr ⟨i, rfl, .inl ⟨show ENOTSUP ≠ 0 by decide, rfl⟩⟩)⟩
            · exact ⟨_, _, rfl, .inr (.inr ⟨i, rfl, .inr ⟨rfl,
                ⟨true, root, ro || (w.volumes bd).roFeatures, bd⟩, rfl, rfl,
                Function.update_idem _ _ _⟩⟩)⟩

/-- A mount in lwext4 that succeeds takes a slot. -/
lemma ext4Mount_ok {ro : Bool} (h : (w.ext4Mount name root ro).1 = 0)
    (new : ∀ i, (w.sMp i).mounted = true → (w.sMp i).name ≠ root) :
    Takes w (w.ext4Mount name root ro).2 root := by
  obtain ⟨sMp, _, hw, ⟨ne, -⟩ | ⟨-, hf, -⟩ | ⟨i, hf, ⟨ne, -⟩ | ⟨-, slot, hm, hn, hs⟩⟩⟩ :=
    ext4Mount_effect w name root ro
  · exact absurd h ne
  · obtain ⟨i, hm, hn⟩ := freeSlot_taken hf
    exact absurd hn (new i hm)
  · exact absurd h ne
  · obtain ⟨hi, least⟩ := freeSlot_ok (List.pairwise_lt_finRange 4) hf
    rw [hw]
    exact ⟨i, slot, hi, fun j hj => least j (List.mem_finRange j) hj, hm, hn, hs⟩

end World

namespace FilesystemLwext4
variable {fs : FsId} {o : Object} {w : World} {root : Str} {flags : Flags}

/-- So does mounting a registered device, journal and all. -/
lemma mountDevice_ok {name : Str} (h : (mountDevice name root flags w).1 = 0)
    (new : ∀ i, (w.sMp i).mounted = true → (w.sMp i).name ≠ root) :
    World.Takes w (mountDevice name root flags w).2 root := by
  unfold mountDevice at h ⊢
  simp only at h ⊢
  split at h
  · exact absurd h ‹_›
  · rename_i h₁
    rw [if_neg h₁]
    obtain ⟨i, slot, hi, least, hm, hn, e⟩ := World.ext4Mount_ok (not_not.mp h₁) new
    split at h
    · exact absurd h ‹_›
    · rename_i h₂
      rw [if_neg h₂]
      split at h
      · exact absurd h ‹_›
      · rename_i h₃
        rw [if_neg h₃]
        refine ⟨i, slot, hi, least, hm, hn, ?_⟩
        rw [World.sMp_journal, World.sMp_recover, e]

/-- A successful `mount` registers the root in the first free slot. -/
lemma mount_ok (h : (mount fs o root flags w).1 = 0)
    (new : ∀ i, (w.sMp i).mounted = true → (w.sMp i).name ≠ toNativeRoot root) :
    World.Takes w (mount fs o root flags w).2 (toNativeRoot root) := by
  unfold mount at h ⊢
  simp only at h ⊢
  split at h
  · exact absurd h ‹_›
  · rename_i h₁
    rw [if_neg h₁]
    have t := mountDevice_ok h (by rw [World.sMp_deviceRegister]; exact new)
    unfold World.Takes at t
    rwa [World.sMp_deviceRegister] at t

end FilesystemLwext4

end Lwext4
end Evfs
