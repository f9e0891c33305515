import Evfs.Vfs.Unlink

/-!
# Handles and the mount table

An open file or directory is found again through the root stamped into its handle. `Keyed` says that
these roots are keys of the mount table and still denote the objects that made the handles. Every
operation keeps it except `umount` and `umount_all`, which do not ask for open handles; the
destructor, which closes files first, does.
-/

namespace Evfs
open Lib
namespace Pimpl
variable {σ : Type} (B : Backend σ)

/-- The mount point of a root is there and holds the given object. -/
def Denotes (s : Pimpl σ) (root : Str) (owner : FsId) : Prop :=
  ∃ mp, s.mounts.lookup root = some mp ∧ mp.fs = owner

/-- Every handle in use denotes the object that made it. -/
structure Keyed (s : Pimpl σ) : Prop where
  files {fd fil} : s.fdContainer.byId.lookup fd = some fil → Denotes s fil.root fil.owner
  dirs {handle} : handle ∈ s.dirHandles → Denotes s handle.root handle.owner

/-- Some file or directory in use was opened below the root. -/
def InUse (s : Pimpl σ) (root : Str) : Prop :=
  (∃ fd fil, s.fdContainer.byId.lookup fd = some fil ∧ fil.root = root) ∨
    ∃ handle ∈ s.dirHandles, handle.root = root

/-- No mount point is dropped while files or directories below it are in use. -/
def DropsUnused (s : Pimpl σ) : Label → Prop
  | .op (.umount root) _ => ∀ mp, s.mounts.lookup root = some mp →
    (B.call mp.fs .unmount s.world).1 = 0 → ¬ InUse s root
  | .op .umountAll _ => ∀ root, ¬ InUse s root
  | _ => True

variable {B} {s s' s₀ : Pimpl σ}

/-- A root denotes what it did when its mount is as before. -/
lemma Denotes.same {root : Str} {owner : FsId} (d : Denotes s root owner)
    (h : s'.mounts.lookup root = s.mounts.lookup root) : Denotes s' root owner := by
  obtain ⟨mp, e, ho⟩ := d
  exact ⟨mp, h.trans e, ho⟩

/-- Handles that were there before and roots that still denote the same. -/
lemma Keyed.mono (k : Keyed s)
    (hf : ∀ {fd fil}, s'.fdContainer.byId.lookup fd = some fil →
      ∃ fd, s.fdContainer.byId.lookup fd = some fil)
    (hd : ∀ {handle}, handle ∈ s'.dirHandles → handle ∈ s.dirHandles)
    (hm : ∀ root, InUse s' root → s'.mounts.lookup root = s.mounts.lookup root) : Keyed s' where
  files {fd fil} e := by
    obtain ⟨fd', e'⟩ := hf e
    exact (k.files e').same (hm _ (.inl ⟨fd, fil, e, rfl⟩))
  dirs {handle} h := (k.dirs (hd h)).same (hm _ (.inr ⟨handle, h, rfl⟩))

/-- Quiet code keeps the keys. -/
lemma Keyed.quiet (k : Keyed s) (q : Quiet B s s') : Keyed s' := by
  refine k.mono (fun {fd fil} e => ⟨fd, ?_⟩) (fun h => ?_) fun root _ => ?_
  · rwa [q.fdContainer] at e
  · rwa [q.dirHandles] at h
  · rw [q.mounts]

/-- A root in use is a key. -/
lemma Keyed.mem {root : Str} (k : Keyed s) (u : InUse s root) : root ∈ s.mounts := by
  rcases u with ⟨fd, fil, e, rfl⟩ | ⟨handle, h, rfl⟩
  · obtain ⟨mp, e, -⟩ := k.files e
    exact UnorderedMap.mem_of_lookup e
  · obtain ⟨mp, e, -⟩ := k.dirs h
    exact UnorderedMap.mem_of_lookup e

/-- A mount point is only ever added under a new key. -/
lemma Keyed.mount (k : Keyed s) (m : MountEffect B s s') : Keyed s' := by
  obtain ⟨_, _, _, _, _, rfl⟩ := m.rest
  refine k.mono (fun e => ⟨_, e⟩) id fun root u => ?_
  rcases m.mounts with hm | ⟨mp, hn, -, -, -, hm⟩
  · exact congrArg (AList.lookup root) hm
  · have hr : root ≠ mp.root := by
      rintro rfl
      exact hn (k.mem u)
    exact (congrArg (AList.lookup root) hm).trans (AList.lookup_insert_ne hr)

/-- A handle made by the filesystem of a mount point denotes it. -/
lemma MountsWf.denotes {path : Str} {mp : MountPoint} {owner : FsId} {root : Str}
    (wf : MountsWf B s) (hf : findMountPoint s.mounts path = some mp) (ho : owner = mp.fs)
    (hr : root = B.rootOf s.world mp.fs) : Denotes s root owner := by
  obtain ⟨k, e, -⟩ := lookup_of_findMountPoint hf
  rw [hr, wf.mounted e, ho]
  exact ⟨mp, e, rfl⟩

/-- Every operation that drops no mount point in use keeps the handles keyed. -/
lemma Keyed.effect {a : Action} {r : Reply} (k : Keyed s) (wf : MountsWf B s)
    (ok : DropsUnused B s (.op a r)) (st : Effect B s a s') : Keyed s' := by
  cases st with
  | quiet q => exact k.quiet q
  | factories => exact k.mono (fun e => ⟨_, e⟩) id fun _ _ => rfl
  | mounted m => exact k.mount m
  | mountedAll ms =>
    clear ok
    induction ms with
    | refl => exact k
    | tail _ m ih => exact ih.mount m
  | unmounted hm h0 q =>
    refine (k.quiet q).mono (fun e => ⟨_, e⟩) id fun root u => AList.lookup_erase_ne ?_
    -- the root that goes would be in use
    rintro rfl
    have u' : InUse s root := by
      unfold InUse at u ⊢
      rwa [q.fdContainer, q.dirHandles] at u
    exact ok _ hm h0 u'
  | unmountedAll q =>
    refine (k.quiet q).mono (fun e => ⟨_, e⟩) id fun root u => ?_
    have u' : InUse s root := by
      unfold InUse at u ⊢
      rwa [q.fdContainer, q.dirHandles] at u
    exact absurd u' (ok root)
  | opened _ hf ho hr q =>
    have k₁ := k.quiet q
    refine ⟨fun e => ?_, fun h => (k₁.dirs h).same rfl⟩
    rcases UnorderedMap.lookup_emplace_elim e with e | ⟨-, rfl⟩
    · exact (k₁.files e).same rfl
    · exact (wf.denotes hf ho hr).same (by rw [q.mounts])
  | closed _ q q' =>
    refine Keyed.quiet ?_ q'
    exact (k.quiet q).mono (fun e => ⟨_, FileDescriptorContainer.lookup_byId_remove e⟩) id fun _ _ => rfl
  | marked =>
    refine k.mono (fun {fd fil} e => ⟨fd, ?_⟩) id fun _ _ => rfl
    rwa [FileDescriptorContainer.byId_markForUnlink] at e
  | diropened _ hf ho hr q =>
    have k₁ := k.quiet q
    refine ⟨fun e => (k₁.files e).same rfl, fun h => ?_⟩
    rcases List.mem_cons.mp h with rfl | h
    · exact (wf.denotes hf ho hr).same (by rw [q.mounts])
    · exact (k₁.dirs h).same rfl
  | dirclosed q =>
    exact (k.quiet q).mono (fun e => ⟨_, e⟩) (fun h => List.mem_of_mem_erase h) fun _ _ => rfl

/-- So does every step. -/
lemma Keyed.step {l : Label} (k : Keyed s) (wf : MountsWf B s) (ok : DropsUnused B s l)
    (st : Step B s l s') : Keyed s' := by
  cases st with
  | op _ e => exact k.effect wf ok (exec_effect e)
  | rehash h =>
    refine k.mono (fun {fd fil} e => ⟨fd, ?_⟩) (fun h' => ?_) fun root _ => h.mounts.lookup root
    · exact (h.byId.lookup fd).symm.trans e
    · rw [h.rest] at h'
      exact h'
  | foreignOpen => exact k.mono (fun e => ⟨_, e⟩) id fun _ _ => rfl
  | registerDevice => exact k.mono (fun e => ⟨_, e⟩) id fun _ _ => rfl
  | unregisterDevice => exact k.mono (fun e => ⟨_, e⟩) id fun _ _ => rfl

/-- There are none at first. -/
lemma Keyed.init (init : Initial s₀) : Keyed s₀ := by
  refine ⟨fun e => ?_, fun h => ?_⟩
  · rw [init.fdContainer] at e
    cases e
  · rw [init.dirHandles] at h
    cases h

/-! ### What keyed handles give -/

/-- A method on an open file goes to the object that made its handle. -/
lemma Keyed.invokeFopsFd (k : Keyed s) {fd : Int} {fil : FileHandle} (op : FdOp)
    (e : s.fdContainer.byId.lookup fd = some fil) :
    ∃ mp, mp.fs = fil.owner ∧
      invokeFopsFd B op fd s = .ok (lockedCall B mp (.file op fil) s) := by
  obtain ⟨mp, hm, ho⟩ := k.files e
  exact ⟨mp, ho, by simp only [Pimpl.invokeFopsFd, e, hm]⟩

/-- A method on an open directory goes to the object that made its handle. -/
lemma Keyed.invokeDirops (k : Keyed s) {handle : DirectoryHandle} (op : DirOp)
    (h : handle ∈ s.dirHandles) :
    ∃ mp, mp.fs = handle.owner ∧
      invokeDirops B op handle s = .ok (lockedCall B mp (.dir op handle) s) := by
  obtain ⟨mp, hm, ho⟩ := k.dirs h
  exact ⟨mp, ho, by simp only [Pimpl.invokeDirops, hm]⟩

/-- A call on a descriptor returns. -/
lemma Keyed.invokeFopsFd_returns (k : Keyed s) (op : FdOp) (fd : Int) :
    ∃ r s', Pimpl.invokeFopsFd B op fd s = .ok (r, s') ∧ Quiet B s s' := by
  cases e : s.fdContainer.byId.lookup fd with
  | none => exact ⟨op.terror EBADF, s, by simp only [Pimpl.invokeFopsFd, e], .refl⟩
  | some fil =>
    obtain ⟨mp, -, h⟩ := k.invokeFopsFd (B := B) op e
    exact ⟨_, _, h, Quiet.invokeFopsFd h⟩

/-- So does the loop that closes a path's descriptors. -/
lemma Keyed.closeLoop (k : Keyed s) (fds : List Int) :
    ∃ s', Pimpl.closeLoop B fds s = .ok s' ∧ Quiet B s s' := by
  induction fds generalizing s with
  | nil => exact ⟨s, rfl, .refl⟩
  | cons fd fds ih =>
    obtain ⟨r, s₁, e, q⟩ := k.invokeFopsFd_returns (B := B) .close fd
    obtain ⟨s', e', q'⟩ := ih (k.quiet q)
    exact ⟨s', by simp only [Pimpl.closeLoop, e, e'], q.trans q'⟩

/-- And the loop that closes everything. -/
lemma Keyed.cleanupLoop (k : Keyed s) (l : List (Σ _ : Str, FileDescriptor)) :
    ∃ s', Pimpl.cleanupLoop B l s = .ok s' ∧ Quiet B s s' := by
  induction l generalizing s with
  | nil => exact ⟨s, rfl, .refl⟩
  | cons e l ih =>
    obtain ⟨path, entry⟩ := e
    obtain ⟨s₁, e₁, q₁⟩ := k.closeLoop (B := B) entry.indexes
    have q₂ : Quiet B s₁
        (if entry.markedForUnlink then (invokeFopsPath B .unlink path s₁).2 else s₁) := by
      split
      · exact Quiet.invokeFopsPath
      · exact .refl
    obtain ⟨s', e', q'⟩ := ih ((k.quiet q₁).quiet q₂)
    exact ⟨s', by simp only [Pimpl.cleanupLoop, e₁, e'], (q₁.trans q₂).trans q'⟩

/-- The lookups of `invoke_fops`, `invoke_dirops` and `cleanup_opened_files` find the object that
made the handle. -/
structure HandlesSafe (B : Backend σ) (s : Pimpl σ) : Prop where
  keyed : Keyed s
  file (op : FdOp) {fd fil} : s.fdContainer.byId.lookup fd = some fil →
    ∃ mp, mp.fs = fil.owner ∧ Pimpl.invokeFopsFd B op fd s = .ok (lockedCall B mp (.file op fil) s)
  dir (op : DirOp) {handle} : handle ∈ s.dirHandles →
    ∃ mp, mp.fs = handle.owner ∧
      Pimpl.invokeDirops B op handle s = .ok (lockedCall B mp (.dir op handle) s)
  noThrow {a} : Allowed s a → exec B a s ≠ .error .outOfRange
  cleanup : ∃ s', cleanupOpenedFiles B s = .ok s'

/-! ### Faults -/

/-- `stoi` throws its own exceptions only. -/
lemma stoi_fault {str : Str} {f : Fault} (h : stoi str = .error f) : f = .stoi := by
  unfold stoi at h
  split at h
  simp only at h
  split at h
  · exact (Except.error.inj h).symm
  · cases h

/-- Finding the filesystem throws those only. -/
lemma fsDiscovery_fault {factories : UnorderedMap Str (FsType × Option Factory)}
    {diskMgr : DiskManager} {name : Str} {f : Fault}
    (h : fsDiscovery factories diskMgr name = .error f) : f = .stoi := by
  unfold fsDiscovery at h
  split at h
  · rename_i hs
    obtain rfl := Except.error.inj h
    unfold splitDiskName at hs
    split at hs
    · cases hs
    · split at hs
      · rename_i e
        obtain rfl := Except.error.inj hs
        exact stoi_fault e
      · cases hs
  · split at h
    · cases h
    · cases h
    · split at h
      · cases h
      · split at h <;> cases h

/-- The ways `mount` can fault. -/
lemma mount_fault {name root fstype : Str} {flags : Flags} {f : Fault}
    (h : mount B name root fstype flags s = .error f) : f ≠ .outOfRange := by
  unfold mount at h
  split at h
  · rename_i hd
    obtain rfl := Except.error.inj h
    rw [fsDiscovery_fault hd]
    exact nofun
  · cases h
  · split at h
    · split at h
      · rename_i hc
        obtain rfl := Except.error.inj h
        unfold createFilesystem at hc
        split at hc
        · cases hc
        · split at hc
          · cases hc
            exact nofun
          · cases hc
      · cases h
    · cases h
      exact nofun

/-- Mounting never throws `out_of_range`. -/
lemma mountLoop_fault {names : List Str} {ret : ErrorCode} {f : Fault}
    (h : mountLoop B names ret s = .error f) : f ≠ .outOfRange := by
  induction names generalizing ret s with
  | nil => cases h
  | cons name names ih =>
    unfold mountLoop at h
    split at h
    · rename_i hm
      obtain rfl := Except.error.inj h
      exact mount_fault hm
    · exact ih h

/-- An operation on a descriptor returns. -/
lemma Keyed.fileOp_returns (k : Keyed s) (op : FdOp) (fd : Int) :
    ∃ r, fileOp B op fd s = .ok r := by
  have inv : ∀ {s' : Pimpl σ}, Quiet B s s' → ∃ r, Pimpl.invokeFopsFd B op fd s' = .ok r := by
    intro s' q
    obtain ⟨r, s'', e, -⟩ := (k.quiet q).invokeFopsFd_returns (B := B) op fd
    exact ⟨_, e⟩
  cases op with
  | close =>
    obtain ⟨r, s', e, -⟩ := k.invokeFopsFd_returns (B := B) .close fd
    show ∃ r, close B fd s = .ok r
    unfold close
    split
    · rw [e]
      simp only
      split <;> exact ⟨_, rfl⟩
    · exact ⟨_, rfl⟩
  | write data =>
    show ∃ r, write B fd data s = .ok r
    unfold write
    have q : Quiet B s (invokeStdstreamOut B fd data s).2 := Quiet.invokeStdstreamOut
    split
    · exact ⟨_, rfl⟩
    · rename_i h
      rw [h] at q
      exact inv q
  | read len =>
    show ∃ r, read B fd len s = .ok r
    unfold read
    have q : Quiet B s (invokeStdstreamIn B fd len s).2 := Quiet.invokeStdstreamIn
    split
    · exact ⟨_, rfl⟩
    · rename_i h
      rw [h] at q
      exact inv q
  | fstat =>
    show ∃ r, fstat B fd s = .ok r
    unfold fstat
    split
    · exact ⟨_, rfl⟩
    · exact inv .refl
  | isatty =>
    show ∃ r, isatty B fd s = .ok r
    unfold isatty
    split
    · exact ⟨_, rfl⟩
    · exact inv .refl
  | lseek _ _ => exact inv .refl
  | ftruncate _ => exact inv .refl
  | fsync => exact inv .refl
  | flock _ => exact inv .refl
  | fchmod _ => exact inv .refl

/-- So does one on a directory handle. -/
lemma Keyed.dirOp_returns (k : Keyed s) (op : DirOp) {handle : DirectoryHandle}
    (h : handle ∈ s.dirHandles) : ∃ r, dirOp B op handle s = .ok r := by
  obtain ⟨mp, -, e⟩ := k.invokeDirops (B := B) op h
  cases op with
  | dirclose =>
    show ∃ r, dirclose B handle s = .ok r
    unfold dirclose
    rw [e]
    exact ⟨_, rfl⟩
  | dirreset => exact ⟨_, e⟩
  | dirnext => exact ⟨_, e⟩

/-- No allowed call throws `out_of_range`. -/
lemma Keyed.noThrow {a : Action} (k : Keyed s) (al : Allowed s a) :
    exec B a s ≠ .error .outOfRange := by
  intro h
  cases a with
  | mountAll =>
    have h := map_error h
    unfold mountAll at h
    split at h
    · cases h
    · exact mountLoop_fault h rfl
  | mount name root fstype flags => exact mount_fault (map_error h) rfl
  | file op fd =>
    obtain ⟨r, e⟩ := k.fileOp_returns (B := B) op fd
    rw [map_error h] at e
    cases e
  | dir op handle =>
    obtain ⟨r, e⟩ := k.dirOp_returns (B := B) op (al handle rfl)
    rw [map_error h] at e
    cases e
  | registerFilesystem _ => cases h
  | registerFactory _ _ => cases h
  | unregisterFilesystem _ => cases h
  | umountAll => cases h
  | umount _ => cases h
  | getRoots => cases h
  | statParts => cases h
  | statPartsOf _ => cases h
  | «open» _ _ _ => cases h
  | path _ _ => cases h
  | rename _ _ => cases h
  | diropen _ => cases h

/-- In every run that drops no mount point in use, every handle denotes the object that made it, and
no lookup of a mount point throws or finds another object. -/
theorem handles_safe (init : Initial s₀) (run : Runs (Step B) (DropsUnused B) s₀ s) :
    HandlesSafe B s := by
  have wf₀ : MountsWf B s₀ := MountsWf.reachable (.initial init)
  have inv : Keyed s ∧ MountsWf B s :=
    run.invariant (I := fun s => Keyed s ∧ MountsWf B s)
      (fun ⟨k, wf⟩ ok st => ⟨k.step wf ok st, wf.step st⟩) ⟨.init init, wf₀⟩
  have k := inv.1
  obtain ⟨s', e, -⟩ := k.cleanupLoop (B := B) s.fdContainer.byPath.entries
  exact ⟨k, fun op => k.invokeFopsFd op, fun op => k.invokeDirops op, k.noThrow, s', e⟩

/-- The session with an open file is a run. -/
lemma runs_openFile : Runs (Step .accepting) (DropsUnused .accepting) (sample fun _ => [])
    openFile := by
  refine Relation.ReflTransGen.trans (b := PathCall.twoVolumes) ?_ ?_
  · refine runs_play fun a ha s r => ?_
    simp only [List.mem_cons, List.not_mem_nil, or_false] at ha
    rcases ha with rfl | rfl | rfl <;> trivial
  · refine runs_play fun a ha s r => ?_
    rw [List.mem_singleton.mp ha]
    trivial

/-- A second file of the volume is opened and the first one closed. -/
def secondFile : Pimpl (FsId → Str) :=
  play .accepting [.open "/volume1/g".toList 0 0, .file .close 3] openFile

/-- The other volume is unmounted. -/
def otherUnmounted : Pimpl (FsId → Str) := play .accepting [.umount "/volume10".toList] secondFile

/-- So is the one with the other filesystem unmounted. -/
lemma runs_otherUnmounted :
    Runs (Step .accepting) (DropsUnused .accepting) (sample fun _ => []) otherUnmounted := by
  have run : Runs (Step .accepting) (DropsUnused .accepting) openFile secondFile := by
    refine runs_play fun a ha s r => ?_
    simp only [List.mem_cons, List.not_mem_nil, or_false] at ha
    rcases ha with rfl | rfl <;> trivial
  refine (runs_openFile.trans run).tail ⟨.op (.umount "/volume10".toList) (.ok 0), ?_, ?_⟩
  · -- the one file that is open is one of the volume that stays
    rintro mp - - (⟨fd, fil, e, hr⟩ | ⟨handle, h, -⟩)
    · have other : ∀ e ∈ secondFile.fdContainer.byId.entries, e.2.root ≠ "/volume10".toList := by
        decide
      exact other _ (UnorderedMap.mem_entries_iff.mpr e) hr
    · have none : secondFile.dirHandles = [] := by decide
      rw [none] at h
      cases h
  · exact .op (by decide) (exec_play (by decide) (by decide))

/-- The handles after opens, a close and an unmount. -/
theorem handles_safe_otherUnmounted : HandlesSafe .accepting otherUnmounted :=
  handles_safe initial_sample runs_otherUnmounted

/-- The volume of an open file is unmounted. -/
def unmountedFile : Pimpl (FsId → Str) :=
  play .accepting [.umount "/volume1".toList] openFile

/-- Closing a file whose volume was unmounted throws. -/
theorem not_handles_safe_unmountedFile :
    Reachable .accepting unmountedFile ∧ ¬ Keyed unmountedFile ∧
      exec .accepting (.file .close 3) unmountedFile = .error .outOfRange := by
  refine ⟨reachable_openFile.play, fun k => ?_, map_error (g := Prod.fst) (by decide)⟩
  have e : unmountedFile.fdContainer.byId.lookup 3 =
      some ⟨1, "/volume1".toList, "/volume1/f".toList, 0⟩ := by decide
  have hn : unmountedFile.mounts.lookup "/volume1".toList = none := by decide
  obtain ⟨mp, hm, -⟩ := k.files e
  rw [hn] at hm
  cases hm

end Pimpl
end Evfs
