import Evfs.Common.VfsProg

/-!
# What an operation does to the tables

The descriptor table and the mount table as partial functions, and what becomes of them with every
operation. The order in which they are iterated does not show in them.
-/

namespace Evfs
open Lib

/-- The mount table after an operation. -/
def Op.mountsAfter : (o : Op) → o.Res → (Str → Option MountPoint) → Str → Option MountPoint
  | emplaceMount mp, inserted, t => if inserted then Function.update t mp.root (some mp) else t
  | eraseMount root, _, t => Function.update t root none
  | clearMounts, _, _ => fun _ => none
  | _, _, t => t

/-- The descriptor table after an operation. A number that is taken keeps its handle. -/
def Op.filesAfter : (o : Op) → o.Res → (Int → Option FileHandle) → Int → Option FileHandle
  | insert _ handle, fd, t => if (t fd).isSome then t else Function.update t fd (some handle)
  | remove fd, _, t => Function.update t fd none
  | _, _, t => t

namespace Pimpl
variable {σ : Type} {B : Backend σ} {s s' : Pimpl σ} {o : Op} {r : o.Res}

/-- The mount table as a function. -/
def mountOf (s : Pimpl σ) (root : Str) : Option MountPoint := s.mounts.lookup root

/-- The descriptor table as a function. -/
def fileOf (s : Pimpl σ) (fd : Int) : Option FileHandle := s.fdContainer.byId.lookup fd

/-- What an operation does to the tables; the identity of a filesystem is not used again. -/
structure TablesAfter (o : Op) (r : o.Res) (s s' : Pimpl σ) : Prop where
  mounts : s'.mountOf = o.mountsAfter r s.mountOf
  files : s'.fileOf = o.filesAfter r s.fileOf
  nextFs : s.nextFs ≤ s'.nextFs

/-- The order of the tables does not matter. -/
lemma TablesAfter.rehash {s₁ : Pimpl σ} (ta : TablesAfter o r s s₁) (h : Rehash s₁ s') :
    TablesAfter o r s s' where
  mounts := (funext h.mounts.lookup : s'.mountOf = s₁.mountOf).trans ta.mounts
  files := (funext h.byId.lookup : s'.fileOf = s₁.fileOf).trans ta.files
  nextFs := by
    have e : s'.nextFs = s₁.nextFs := by rw [h.rest]
    exact e ▸ ta.nextFs

/-- Registering a filesystem changes the factories only. -/
lemma registerFilesystem_eq {type : FsType} {factory : Option Factory} {e : ErrorCode}
    (h : registerFilesystem type factory s = (e, s')) : ∃ f, s' = { s with fsFactories := f } := by
  unfold registerFilesystem at h
  split at h <;> cases h
  · exact ⟨s.fsFactories, rfl⟩
  · exact ⟨_, rfl⟩

/-- So does unregistering one. -/
lemma unregisterFilesystem_eq {type : FsType} {e : ErrorCode}
    (h : unregisterFilesystem type s = (e, s')) : ∃ f, s' = { s with fsFactories := f } := by
  unfold unregisterFilesystem at h
  split at h <;> cases h
  · exact ⟨_, rfl⟩
  · exact ⟨s.fsFactories, rfl⟩

/-- The open files after one is removed. -/
lemma fileOf_remove (c : FileDescriptorContainer) (fd : Int) :
    (c.remove fd).2.byId.lookup = Function.update c.byId.lookup fd none := by
  cases h : decide (fd ∈ c.byId) with
  | true =>
    rw [FileDescriptorContainer.byId_remove (of_decide_eq_true h)]
    exact UnorderedMap.lookup_erase_eq ..
  | false =>
    have h := of_decide_eq_false h
    rw [FileDescriptorContainer.remove_of_notMem h, eq_comm, Function.update_eq_self_iff]
    exact (AList.lookup_eq_none.mpr h).symm

end Pimpl

namespace Op
open Pimpl
variable {σ : Type} {B : Backend σ} {s s' : Pimpl σ} {o : Op} {r : o.Res}

/-- What every operation does to the tables. -/
lemma eval_tables (e : o.eval B s = .ok (r, s')) : TablesAfter o r s s' := by
  cases o with
  | acquire l => cases l <;> cases e <;> exact ⟨rfl, rfl, le_rfl⟩
  | release l => cases l <;> cases e <;> exact ⟨rfl, rfl, le_rfl⟩
  | stop => cases e
  | fault f => cases e
  | create factory disk => cases e; exact ⟨rfl, rfl, Nat.le_succ _⟩
  | insert path handle => cases e; exact ⟨rfl, UnorderedMap.lookup_emplace_eq .., le_rfl⟩
  | remove fd => cases e; exact ⟨rfl, fileOf_remove .., le_rfl⟩
  | markForUnlink path =>
    cases e
    have h : (s.fdContainer.markForUnlink path).byId = s.fdContainer.byId :=
      FileDescriptorContainer.byId_markForUnlink
    exact ⟨rfl, congrArg (fun m fd => AList.lookup fd m) h, le_rfl⟩
  | emplaceMount mp =>
    rw [Op.eval] at e
    split at e <;> cases e
    · exact ⟨rfl, rfl, le_rfl⟩
    · exact ⟨UnorderedMap.lookup_insert_eq .., rfl, le_rfl⟩
  | eraseMount root => cases e; exact ⟨UnorderedMap.lookup_erase_eq .., rfl, le_rfl⟩
  | registerFilesystem type factory =>
    obtain ⟨f, rfl⟩ := registerFilesystem_eq (Except.ok.inj e)
    exact ⟨rfl, rfl, le_rfl⟩
  | unregisterFilesystem type =>
    obtain ⟨f, rfl⟩ := unregisterFilesystem_eq (Except.ok.inj e)
    exact ⟨rfl, rfl, le_rfl⟩
  | _ => cases e; exact ⟨rfl, rfl, le_rfl⟩

/-- What an operation does to the tables. -/
theorem Sem.tables (st : o.Sem B s r s') : TablesAfter o r s s' := by
  have known : (∃ s₁, o.eval B s = .ok (r, s₁) ∧ (s' = s₁ ∨ o.inserts ∧ Rehash s₁ s')) →
      TablesAfter o r s s' := by
    rintro ⟨s₁, e, rfl | ⟨-, h⟩⟩
    · exact eval_tables e
    · exact (eval_tables e).rehash h
  cases o with
  | below => cases st; exact ⟨rfl, rfl, le_rfl⟩
  | rounds => cases st; exact ⟨rfl, rfl, le_rfl⟩
  | _ => exact known st

/-- A mount point is entered where there was none. -/
lemma Sem.emplaced {mp : MountPoint} {r : Bool}
    (st : (Op.emplaceMount mp).Sem B s r s') : r = true → s.mountOf mp.root = none := by
  obtain ⟨s₁, e, -⟩ := st
  rw [Op.eval] at e
  split at e <;> cases e
  · intro h
    cases h
  · rename_i h
    exact fun _ => AList.lookup_eq_none.mpr h

/-- Where a call gets a mount point from. -/
lemma Sem.mount {g : Hand} {mp : MountPoint} (st : o.Sem B s r s')
    (h : (Hand.next o r g).mount = some mp) :
    g.mount = some mp ∨ ∃ root, s.mountOf root = some mp ∧ s'.mountOf = s.mountOf := by
  have same := st.tables.mounts
  cases o with
  | mountAt root =>
    obtain ⟨s₁, e, -⟩ := st
    cases e
    exact .inr ⟨root, h, same⟩
  | findMountPoint path =>
    obtain ⟨s₁, e, -⟩ := st
    cases e
    obtain ⟨root, hl, -⟩ := lookup_of_findMountPoint h
    exact .inr ⟨root, hl, same⟩
  | release l =>
    cases l with
    | mount fs => cases h
    | _ => exact .inl h
  | emplaceMount mp' =>
    cases r with
    | true => exact .inl h
    | false => exact .inl h
  | _ => exact .inl h

/-- A mount point at hand is from the table. -/
lemma Sem.cursor {g : Hand} {mp : MountPoint} (st : o.Sem B s r s')
    (h : (Hand.next o r g).cursor = some mp) :
    g.cursor = some mp ∨ ∃ root, s.mountOf root = some mp ∧ s'.mountOf = s.mountOf := by
  have same := st.tables.mounts
  -- the entry an iterator is at
  have at_entry : ∀ {k : Nat}, s.mounts.entries[k]?.map Sigma.snd = some mp →
      ∃ root, s.mountOf root = some mp := by
    intro k e
    obtain ⟨⟨root, _⟩, he, rfl⟩ := Option.map_eq_some_iff.mp e
    exact ⟨root, UnorderedMap.mem_entries_iff.mp (List.mem_of_getElem? he)⟩
  cases o with
  | findRoot root =>
    obtain ⟨s₁, e, -⟩ := st
    cases e
    exact .inr ⟨root, h, same⟩
  | statNext k =>
    obtain ⟨s₁, e, -⟩ := st
    cases e
    obtain ⟨root, hl⟩ := at_entry h
    exact .inr ⟨root, hl, same⟩
  | umountNext k =>
    obtain ⟨s₁, e, -⟩ := st
    cases e
    obtain ⟨root, hl⟩ := at_entry h
    exact .inr ⟨root, hl, same⟩
  | release l =>
    cases l with
    | vfs => cases h
    | _ => exact .inl h
  | emplaceMount mp' =>
    cases r with
    | true => exact .inl h
    | false => exact .inl h
  | eraseMount root => cases h
  | clearMounts => cases h
  | _ => exact .inl h

/-- Where a call gets a handle from. -/
lemma Sem.file {g : Hand} {fd : Int} {fil : FileHandle} (st : o.Sem B s r s')
    (h : (Hand.next o r g).file = some (fd, fil)) :
    g.file = some (fd, fil) ∨ (s.fileOf fd = some fil ∧ s'.fileOf = s.fileOf) := by
  have same := st.tables.files
  cases o with
  | file fd' =>
    obtain ⟨s₁, e, -⟩ := st
    cases e
    obtain ⟨fil', hl, e⟩ := Option.map_eq_some_iff.mp h
    cases e
    exact .inr ⟨hl, same⟩
  | release l =>
    cases l with
    | mount fs => cases h
    | _ => exact .inl h
  | emplaceMount mp' =>
    cases r with
    | true => exact .inl h
    | false => exact .inl h
  | _ => exact .inl h

end Op
end Evfs
