import Evfs.Common.VfsProg

/-!
# A call that runs alone

The codes of `Evfs.Common.VfsProg` against the functions of `Evfs.Common.Vfs`: run alone, each does to
the object what the function does, and comes to the same result.
-/

namespace Evfs.VirtualFS
open Lib

section Alone
variable {σ : Type} (B : Backend σ) {s : Pimpl σ}

attribute [local simp] Op.eval

/-- A fault ends the run. -/
@[simp] lemma run_fault {α : Type} {f : Fault} :
    (fault f : Code α).run (Op.eval B) s = .error (some f) := by simp [fault, Op.eval]

/-- The disk manager is used and let go. -/
@[simp] lemma run_useDisks : useDisks.run (Op.eval B) s = .ok ((), s) := by
  simp [useDisks, Op.eval, Prog.each]
  rfl

/-- A method call is one of the backend. -/
@[simp] lemma run_method {fs : FsId} {c : Call} :
    (method fs c).run (Op.eval B) s = .ok (Pimpl.callFs B fs c s) := by
  simp [method, Op.eval]

/-- A partition is asked for its name under the mutex of its disk. -/
@[simp] lemma run_getName {disk : PartRef} :
    (getName disk).run (Op.eval B) s = .ok (Pimpl.partitionName s.diskMgr disk, s) := by
  simp [getName, useDisk, acquire, release, Op.eval]

/-- Locking a mount point. -/
@[simp] lemma run_acquire_mount {mp : MountPoint} :
    (acquire (.mount mp.fs)).run (Op.eval B) s = .ok ((), s.lock mp) := by
  simp [acquire, Op.eval, Pimpl.lock]

/-- Unlocking it. -/
@[simp] lemma run_release_mount {mp : MountPoint} :
    (release (.mount mp.fs)).run (Op.eval B) s = .ok ((), s.unlock mp) := by
  simp [release, Op.eval, Pimpl.unlock]

/-- The mutex of the object leaves no trace in the state. -/
@[simp] lemma run_acquire_vfs : (acquire .vfs).run (Op.eval B) s = .ok ((), s) := by
  simp [acquire, Op.eval]

/-- Nor does letting it go. -/
@[simp] lemma run_release_vfs : (release .vfs).run (Op.eval B) s = .ok ((), s) := by
  simp [release, Op.eval]

/-- A method call between lock and unlock. -/
@[simp] lemma run_lockedCall {mp : MountPoint} {c : Call} :
    (lockedCall mp c).run (Op.eval B) s = .ok (Pimpl.lockedCall B mp c s) := by
  simp [lockedCall]
  rfl

/-- `invoke_fops` on a descriptor, which may fault at a root that is gone. -/
lemma run_invokeFopsFd {op : FdOp} {fd : Int} :
    (invokeFopsFd op fd).run (Op.eval B) s =
      (Pimpl.invokeFopsFd B op fd s).mapError some := by
  simp only [invokeFopsFd, Pimpl.invokeFopsFd, Prog.run_bind, run_acquire_vfs, Prog.run_perform,
    Op.eval]
  cases s.fdContainer.byId.lookup fd with
  | none => simp [Except.mapError]
  | some fil =>
    simp only [Prog.run_bind, run_release_vfs, Prog.run_perform, Op.eval]
    cases s.mounts.lookup fil.root with
    | none => exact run_fault B
    | some mp => exact run_lockedCall B

/-- `invoke_fops` on a path, at each of its exits. -/
lemma run_invokeFopsPath {op : PathOp} {path : Str} :
    (invokeFopsPath op path).run (Op.eval B) s = .ok (Pimpl.invokeFopsPath B op path s) := by
  unfold invokeFopsPath Pimpl.invokeFopsPath
  split
  · rfl
  · cases absolutePath path with
    | error e => rfl
    | ok abspath =>
      simp only [Prog.run_bind, Prog.run_perform, Op.eval]
      cases findMountPoint s.mounts abspath with
      | none => rfl
      | some mp => exact run_lockedCall B

/-- `invoke_dirops`, which may fault likewise. -/
lemma run_invokeDirops {op : DirOp} {handle : DirectoryHandle} :
    (invokeDirops op handle).run (Op.eval B) s =
      (Pimpl.invokeDirops B op handle s).mapError some := by
  simp only [invokeDirops, Pimpl.invokeDirops, Prog.run_bind, Prog.run_perform, Op.eval]
  cases s.mounts.lookup handle.root with
  | none => exact run_fault B
  | some mp => exact run_lockedCall B

/-- `rename` with its two paths. -/
lemma run_rename {path path2 : Str} :
    (rename path path2).run (Op.eval B) s = .ok (Pimpl.rename B path path2 s) := by
  unfold rename Pimpl.rename
  split
  · rfl
  · cases absolutePath path with
    | error e => rfl
    | ok abspath =>
      cases absolutePath path2 with
      | error e => rfl
      | ok abspath2 =>
        simp only
        split
        · rfl
        · simp only [Prog.run_bind, Prog.run_perform, Op.eval]
          cases findMountPoint s.mounts abspath with
          | none => rfl
          | some mp =>
            simp only
            split
            · simp
            · exact run_lockedCall B

/-- The factory is called, or there is none to call. -/
lemma run_createFilesystem {factory : Factory} {disk : PartRef} :
    (createFilesystem factory disk).run (Op.eval B) s =
      (Pimpl.createFilesystem B factory disk s).mapError some := by
  cases factory with
  | custom id =>
    simp [createFilesystem, Pimpl.createFilesystem, Op.eval, Except.mapError]
  | lwext4 =>
    simp [createFilesystem, Pimpl.createFilesystem, useDisk, acquire, release, Op.eval]
    generalize B.sectorSize disk s.world = r
    obtain ⟨r, w⟩ := r
    cases r with
    | error e => exact run_fault B
    | ok n => simp [Except.mapError, Op.eval]

/-- A root that was given, one from the label, or one from the counter. -/
lemma run_chooseRoot {fs : FsId} {disk : PartRef} {root : Str} :
    (chooseRoot fs disk root).run (Op.eval B) s = .ok (Pimpl.chooseRoot B fs root s) := by
  unfold chooseRoot Pimpl.chooseRoot
  split
  · refine (Prog.run_bind_ok _ (run_method B)).trans ?_
    generalize Pimpl.callFs B fs .getLabel s = r
    obtain ⟨r, s⟩ := r
    cases r with
    | error e => simp [Op.eval]
    | ok label => rfl
  · rfl

/-- From the choice of the root to the entry in the table. -/
lemma run_mountAt {fs : FsId} {type : FsType} {disk : PartRef} {root : Str} {flags : Flags} :
    (mountAt fs type disk root flags).run (Op.eval B) s =
      .ok (Pimpl.mountAt B fs type disk root flags s) := by
  unfold mountAt Pimpl.mountAt
  simp only [Prog.run_bind, Prog.run_perform, Op.eval]
  cases hr : decide (root ∈ s.mounts) with
  | true => simp [of_decide_eq_true hr]
  | false =>
    have h := of_decide_eq_false hr
    rw [if_neg nofun, if_neg h]
    refine (Prog.run_bind_ok _ (run_method B)).trans ?_
    have hm : (Pimpl.callFs B fs (.mount root flags) s).2.mounts = s.mounts := rfl
    generalize Pimpl.callFs B fs (.mount root flags) s = r at hm
    obtain ⟨e, s'⟩ := r
    simp only [Prog.run_bind, run_getName]
    split
    · rfl
    · have h' : root ∉ s'.mounts := hm ▸ h
      simp [Op.eval, h']

/-- What the code of a call comes to is what the function says. A fault of the function ends the run,
or is an exception that the call passes on. -/
inductive Agrees {α : Type} : Except (Option Fault) (Except Fault α × Pimpl σ) →
    Except Fault (α × Pimpl σ) → Prop where
  | ok {a s} : Agrees (.ok (.ok a, s)) (.ok (a, s))
  | thrown {f s} : Agrees (.ok (.error f, s)) (.error f)
  | fault {f} : Agrees (.error (some f)) (.error f)

variable {B} in
/-- Unlocking at the end changes nothing. -/
lemma Agrees.unlock {α : Type} {p : Code (Except Fault α)} {r : Except Fault (α × Pimpl σ)}
    (h : Agrees (p.run (Op.eval B) s) r) :
    Agrees ((do let a ← p; release .vfs; return a : Code (Except Fault α)).run (Op.eval B) s) r := by
  rw [Prog.run_bind]
  generalize p.run (Op.eval B) s = r at h
  cases h with
  | ok => exact .ok
  | thrown => exact .thrown
  | fault => exact .fault

variable {B} in
/-- A program that returns, as part of an operation. -/
lemma Agrees.returned {α : Type} {p : Code α} {f : α → Reply} {r : α × Pimpl σ}
    (h : p.run (Op.eval B) s = .ok r) :
    Agrees ((do let a ← p; return .ok (f a) : Code (Except Fault Reply)).run (Op.eval B) s)
      (.ok (f r.1, r.2)) := by
  rw [Prog.run_bind_ok _ h]
  exact .ok

variable {B} in
/-- A program that returns or faults, as part of an operation. -/
lemma Agrees.ended {α : Type} {p : Code α} {f : α → Reply} {r : Except Fault (α × Pimpl σ)}
    (h : p.run (Op.eval B) s = r.mapError some) :
    Agrees ((do let a ← p; return .ok (f a) : Code (Except Fault Reply)).run (Op.eval B) s)
      (r.map fun r => (f r.1, r.2)) := by
  cases r with
  | error e =>
    rw [Prog.run_bind_error _ h]
    exact .fault
  | ok r =>
    rw [Prog.run_bind_ok _ h]
    exact .ok

variable {B} in
/-- A program that passes faults on itself, as part of an operation. -/
lemma Agrees.passed {p : Code (Except Fault ErrorCode)} {r : Except Fault (ErrorCode × Pimpl σ)}
    (h : Agrees (p.run (Op.eval B) s) r) :
    Agrees ((do let a ← p; return a.map reply : Code (Except Fault Reply)).run (Op.eval B) s)
      (r.map fun r => (reply r.1, r.2)) := by
  rw [Prog.run_bind]
  generalize p.run (Op.eval B) s = r at h
  cases h with
  | ok => exact .ok
  | thrown => exact .thrown
  | fault => exact .fault

/-- One step under the mutex of the object. -/
lemma run_underVfs {o : Op} {r : o.Res × Pimpl σ} (h : o.eval B s = .ok r) :
    (do acquire .vfs; let a ← perform o; release .vfs; return a : Code o.Res).run (Op.eval B) s =
      .ok r := by
  simp only [Prog.run_bind, run_acquire_vfs, Prog.run_perform, h, run_release_vfs]
  rfl

/-- The body of `mount`, at each of its failure points. -/
lemma agrees_mountBody {diskName root fstype : Str} {flags : Flags} :
    Agrees ((mountBody diskName root flags).run (Op.eval B) s)
      (Pimpl.mount B diskName root fstype flags s) := by
  unfold mountBody Pimpl.mount
  simp only [Prog.run_bind, Prog.run_perform, Op.eval]
  cases fsDiscovery s.fsFactories s.diskMgr diskName with
  | error f => exact .thrown
  | ok r =>
    cases r with
    | error e => exact .ok
    | ok r =>
      obtain ⟨type, disk⟩ := r
      simp only [Prog.run_bind, Prog.run_perform, Op.eval]
      cases s.fsFactories.lookup type.name with
      | none => rw [run_fault]; exact .fault
      | some r =>
        obtain ⟨type', factory⟩ := r
        cases factory with
        | none => rw [run_fault]; exact .fault
        | some factory =>
          simp only [Prog.run_bind, run_createFilesystem]
          cases Pimpl.createFilesystem B factory disk s with
          | error f => exact .fault
          | ok r =>
            simp only [Except.mapError, run_chooseRoot, run_mountAt]
            exact .ok

/-- `mount` is its body under the mutex. -/
lemma agrees_mount {diskName root fstype : Str} {flags : Flags} :
    Agrees ((mount diskName root flags).run (Op.eval B) s)
      (Pimpl.mount B diskName root fstype flags s) := by
  rw [mount, Prog.run_bind, run_acquire_vfs]
  exact (agrees_mountBody B).unlock

/-- By induction on the partitions left; the loop stops at a fault. -/
lemma agrees_mountLoop {parts : List (DiskId × Str)} {ret : ErrorCode} :
    Agrees ((mountLoop parts ret).run (Op.eval B) s)
      (Pimpl.mountLoop B (parts.map Prod.snd) ret s) := by
  induction parts generalizing ret s with
  | nil => exact .ok
  | cons p parts ih =>
    obtain ⟨d, name⟩ := p
    have h : Agrees ((mount name [] 0).run (Op.eval B) s) (Pimpl.mount B name [] [] 0 s) :=
      agrees_mount B
    simp only [mountLoop, useDisk, acquire, release, Prog.run_bind, Prog.run_perform, Prog.run_pure,
      Op.eval, List.map_cons, Pimpl.mountLoop]
    generalize (mount name [] 0).run (Op.eval B) s = r at h
    generalize Pimpl.mount B name [] [] 0 s = r' at h
    cases h with
    | ok => exact ih
    | thrown => exact .thrown
    | fault => exact .fault

/-- `mount_all` mounts what the disks list. -/
lemma agrees_mountAll :
    Agrees (mountAll.run (Op.eval B) s) (Pimpl.mountAll B s) := by
  simp only [mountAll, Prog.run_bind, run_acquire_vfs, Prog.run_perform, Op.eval, Pimpl.mountAll]
  cases hd : decide (s.diskMgr.diskMap.entries = []) with
  | true =>
    rw [if_pos rfl, if_pos (of_decide_eq_true hd)]
    simp only [Prog.run_bind, run_release_vfs]
    exact .ok
  | false =>
    rw [if_neg nofun, if_neg (of_decide_eq_false hd)]
    have e : ((s.diskMgr.diskMap.entries.flatMap fun e => e.2.partitions.map fun p =>
        (e.2.id, createPartitionName e.2.name p.physicalNumber)).map Prod.snd) =
        Pimpl.partitionNames s.diskMgr := by
      rw [List.map_flatMap]
      simp only [List.map_map]
      rfl
    rw [Prog.run_bind, Prog.run_perform, Op.eval, ← e]
    exact (agrees_mountLoop B).unlock

/-- An iterator at the end. -/
lemma drop_of_none {α : Type*} {l : List α} {k : Nat} (h : l[k]? = none) : l.drop k = [] :=
  List.drop_eq_nil_of_le (List.getElem?_eq_none_iff.mp h)

/-- An iterator at an entry. -/
lemma drop_of_some {α : Type*} {l : List α} {k : Nat} {e : α} (h : l[k]? = some e) :
    k < l.length ∧ l.drop k = e :: l.drop (k + 1) := by
  obtain ⟨lt, rfl⟩ := List.getElem?_eq_some_iff.mp h
  exact ⟨lt, List.drop_eq_getElem_cons lt⟩

/-- By induction on the fuel: from entry `k` on the objects are unmounted until one fails. -/
lemma run_umountLoop {n k : Nat} (hk : k ≤ s.mounts.entries.length)
    (h : s.mounts.entries.length < n + k) :
    (umountLoop n k).run (Op.eval B) s =
      .ok (Pimpl.umountLoop B (s.mounts.entries.drop k) s) := by
  induction n generalizing k s with
  | zero => omega
  | succ n ih =>
    rw [umountLoop, Prog.run_bind, Prog.run_perform, Op.eval]
    cases he : s.mounts.entries[k]? with
    | none =>
      rw [drop_of_none he]
      rfl
    | some e =>
      obtain ⟨lt, hd⟩ := drop_of_some he
      rw [hd]
      refine (Prog.run_bind_ok _ (run_acquire_mount B)).trans ?_
      refine (Prog.run_bind_ok _ (run_release_mount B)).trans ?_
      refine (Prog.run_bind_ok _ (run_method B)).trans ?_
      rw [Pimpl.umountLoop]
      have hm : (Pimpl.callFs B e.2.fs .unmount ((s.lock e.2).unlock e.2)).2.mounts =
          s.mounts := rfl
      generalize Pimpl.callFs B _ .unmount _ = r at hm
      obtain ⟨e, s'⟩ := r
      dsimp only at hm ⊢
      split
      · rfl
      · rw [← hm] at lt h ⊢
        exact ih lt (by omega)

/-- `umount_all` clears the table, however far the loop came. -/
lemma run_umountAll : umountAll.run (Op.eval B) s = .ok (Pimpl.umountAll B s) := by
  simp only [umountAll, Prog.run_bind, run_acquire_vfs, Prog.run_perform, Op.eval]
  rw [run_umountLoop B (Nat.zero_le _) (by omega)]
  simp only [List.drop_zero, run_release_vfs]
  rfl

/-- `umount` of a root that is there or not. -/
lemma run_umount {mountPoint : Str} :
    (umount mountPoint).run (Op.eval B) s = .ok (Pimpl.umount B mountPoint s) := by
  simp only [umount, Prog.run_bind, run_acquire_vfs, Prog.run_perform, Op.eval, Pimpl.umount]
  cases s.mounts.lookup mountPoint with
  | none =>
    simp only [Prog.run_bind, run_release_vfs]
    rfl
  | some mp =>
    refine (Prog.run_bind_ok _ (run_lockedCall B)).trans ?_
    dsimp only
    split
    · rw [Prog.run_bind, run_release_vfs]
      rfl
    · simp only [Prog.run_bind, Prog.run_perform, Op.eval, run_release_vfs]
      rfl

/-- The statistics of one mount point. -/
lemma run_getMountPointStats {mp : MountPoint} :
    (getMountPointStats mp).run (Op.eval B) s = .ok ((), (Pimpl.getMountPointStats B mp s).2) := by
  refine (Prog.run_bind_ok _ (run_acquire_mount B)).trans ?_
  refine (Prog.run_bind_ok _ (run_method B)).trans ?_
  refine (Prog.run_bind_ok _ (run_getName B)).trans ?_
  exact run_release_mount B

/-- By induction on the fuel: from entry `k` on every mount point is asked. -/
lemma run_statLoop {n k : Nat} (hk : k ≤ s.mounts.entries.length)
    (h : s.mounts.entries.length < n + k) :
    (statLoop n k).run (Op.eval B) s =
      .ok ((), (Pimpl.statLoop B (s.mounts.entries.drop k) s).2) := by
  induction n generalizing k s with
  | zero => omega
  | succ n ih =>
    rw [statLoop, Prog.run_bind, Prog.run_perform, Op.eval]
    cases he : s.mounts.entries[k]? with
    | none =>
      rw [drop_of_none he]
      rfl
    | some e =>
      obtain ⟨lt, hd⟩ := drop_of_some he
      rw [hd]
      refine (Prog.run_bind_ok _ (run_getMountPointStats B)).trans ?_
      rw [Pimpl.statLoop]
      have hm : (Pimpl.getMountPointStats B e.2 s).2.mounts = s.mounts := rfl
      generalize Pimpl.getMountPointStats B _ s = r at hm
      obtain ⟨st, s'⟩ := r
      dsimp only at hm ⊢
      rw [← hm] at lt h ⊢
      exact ih lt (by omega)

/-- `stat_parts` asks them all. -/
lemma run_statParts : statParts.run (Op.eval B) s = .ok ((), (Pimpl.statParts B s).2) := by
  simp only [statParts, Prog.run_bind, Prog.run_perform, Op.eval]
  rw [run_statLoop B (Nat.zero_le _) (by omega)]
  rfl

/-- `stat_parts_of` asks the one it finds. -/
lemma run_statPartsOf {path : Str} :
    (statPartsOf path).run (Op.eval B) s =
      .ok (errorOf (Pimpl.statPartsOf B path s).1, (Pimpl.statPartsOf B path s).2) := by
  simp only [statPartsOf, Prog.run_bind, Prog.run_perform, Op.eval, Pimpl.statPartsOf]
  cases findMountPoint s.mounts path with
  | none => rfl
  | some mp => exact Prog.run_bind_ok _ (run_getMountPointStats B)

/-- `open`, at each of its exits. -/
lemma run_open {path : Str} {flags : Flags} {mode : Int} :
    (VirtualFS.open path flags mode).run (Op.eval B) s = .ok (Pimpl.open B path flags mode s) := by
  rw [VirtualFS.open, Pimpl.open, Prog.run_bind, run_acquire_vfs]
  cases absolutePath path with
  | error e => simp
  | ok abspath =>
    simp only [Prog.run_bind, Prog.run_perform, Op.eval]
    cases findMountPoint s.mounts abspath with
    | none => simp
    | some mp =>
      refine (Prog.run_bind_ok _ (run_acquire_mount B)).trans ?_
      rw [openLocked]
      dsimp only
      split
      · simp
      · rw [Prog.run_bind, Prog.run_bind_ok _ (run_method B), Pimpl.lockedCall]
        generalize Pimpl.callFs B mp.fs _ _ = r
        obtain ⟨r, s'⟩ := r
        cases r with
        | error e => simp
        | ok handle =>
          simp only [Prog.run_bind, Prog.run_perform, Prog.run_pure, Op.eval, run_release_mount,
            run_release_vfs]
          rfl

/-- `close`, with the removal that may go with it. -/
lemma run_close {fd : Int} :
    (close fd).run (Op.eval B) s = (Pimpl.close B fd s).mapError some := by
  rw [close, Pimpl.close, Prog.run_bind, run_acquire_vfs]
  simp only [Prog.run_bind, Prog.run_perform, Op.eval]
  cases hd : decide (fd ∈ s.fdContainer.byId) with
  | true =>
    simp only [if_pos (of_decide_eq_true hd), if_pos]
    have h : (invokeFopsFd .close fd).run (Op.eval B) s =
        (Pimpl.invokeFopsFd B .close fd s).mapError some := run_invokeFopsFd B
    cases hc : Pimpl.invokeFopsFd B .close fd s with
    | error f =>
      rw [hc] at h
      exact Prog.run_bind_error _ h
    | ok r =>
      rw [hc] at h
      obtain ⟨ret, s'⟩ := r
      refine (Prog.run_bind_ok _ h).trans ?_
      simp only [Except.mapError, Prog.run_bind, Prog.run_perform, Op.eval]
      cases (s'.fdContainer.remove fd).1 with
      | none =>
        simp only [Prog.run_bind, run_release_vfs]
        rfl
      | some path =>
        refine (Prog.run_bind_ok _ (run_invokeFopsPath B)).trans ?_
        simp only [Prog.run_bind, run_release_vfs]
        rfl
  | false =>
    rw [if_neg (of_decide_eq_false hd), if_neg nofun, Prog.run_bind, run_release_vfs]
    rfl

/-- The number decides on the stream that is written. -/
lemma run_invokeStdstreamOut {fd : Int} {data : List UInt8} :
    (invokeStdstreamOut fd data).run (Op.eval B) s =
      .ok (Pimpl.invokeStdstreamOut B fd data s) := by
  unfold invokeStdstreamOut Pimpl.invokeStdstreamOut
  split
  · exact Prog.run_perform _
  · split
    · exact Prog.run_perform _
    · rfl

/-- The number decides on the stream that is read. -/
lemma run_invokeStdstreamIn {fd : Int} {len : Nat} :
    (invokeStdstreamIn fd len).run (Op.eval B) s =
      .ok (Pimpl.invokeStdstreamIn B fd len s) := by
  unfold invokeStdstreamIn Pimpl.invokeStdstreamIn
  split
  · exact Prog.run_perform _
  · rfl

/-- The operations on a descriptor, one case for each. -/
lemma run_fileOp {op : FdOp} {fd : Int} :
    (fileOp op fd).run (Op.eval B) s = (Pimpl.fileOp B op fd s).mapError some := by
  cases op with
  | close => exact run_close B
  | write data =>
    refine (Prog.run_bind_ok _ (run_invokeStdstreamOut B)).trans ?_
    rw [Pimpl.fileOp, Pimpl.write]
    generalize Pimpl.invokeStdstreamOut B fd data s = r
    obtain ⟨r, s'⟩ := r
    cases r with
    | ok n => rfl
    | error e => exact run_invokeFopsFd B
  | read len =>
    refine (Prog.run_bind_ok _ (run_invokeStdstreamIn B)).trans ?_
    rw [Pimpl.fileOp, Pimpl.read]
    generalize Pimpl.invokeStdstreamIn B fd len s = r
    obtain ⟨⟨r, bytes⟩, s'⟩ := r
    cases r with
    | ok n => rfl
    | error e => exact run_invokeFopsFd B
  | fstat =>
    rw [fileOp, Pimpl.fileOp, fstat, Pimpl.fstat]
    split
    · rfl
    · exact run_invokeFopsFd B
  | isatty =>
    rw [fileOp, Pimpl.fileOp, isatty, Pimpl.isatty]
    split
    · rfl
    · exact run_invokeFopsFd B
  | _ => exact run_invokeFopsFd B

/-- The operations on a path; `unlink` looks for an open file first. -/
lemma run_pathOp {op : PathOp} {path : Str} :
    (pathOp op path).run (Op.eval B) s = .ok (Pimpl.pathOp B op path s) := by
  cases op with
  | unlink =>
    simp only [pathOp, Pimpl.pathOp, unlink, Pimpl.unlink, Prog.run_bind, run_acquire_vfs,
      Prog.run_perform, Op.eval]
    cases hd : decide (path ∈ s.fdContainer.byPath) with
    | true =>
      rw [if_pos (of_decide_eq_true hd), if_pos rfl]
      simp only [Prog.run_bind, Prog.run_perform, Op.eval, run_release_vfs]
      rfl
    | false =>
      rw [if_neg (of_decide_eq_false hd), if_neg nofun]
      refine (Prog.run_bind_ok _ (run_invokeFopsPath B)).trans ?_
      rw [Prog.run_bind, run_release_vfs]
      rfl
  | _ => exact run_invokeFopsPath B

/-- `diropen`, at each of its exits. -/
lemma run_diropen {path : Str} :
    (diropen path).run (Op.eval B) s = .ok (Pimpl.diropen B path s) := by
  unfold diropen Pimpl.diropen
  cases absolutePath path with
  | error e => rfl
  | ok abspath =>
    simp only [Prog.run_bind, Prog.run_perform, Op.eval]
    cases findMountPoint s.mounts abspath with
    | none => rfl
    | some mp =>
      refine (Prog.run_bind_ok _ (run_lockedCall B)).trans ?_
      dsimp only
      generalize Pimpl.lockedCall B mp _ s = r
      obtain ⟨r, s'⟩ := r
      cases r with
      | error e => rfl
      | ok handle => simp [Op.eval]

/-- The operations on a directory handle; `dirclose` forgets it. -/
lemma run_dirOp {op : DirOp} {handle : DirectoryHandle} :
    (dirOp op handle).run (Op.eval B) s = (Pimpl.dirOp B op handle s).mapError some := by
  cases op with
  | dirclose =>
    rw [dirOp, Pimpl.dirOp, dirclose, Pimpl.dirclose, Prog.run_bind, run_invokeDirops]
    cases Pimpl.invokeDirops B .dirclose handle s with
    | error f => rfl
    | ok r => rfl
  | _ => exact run_invokeDirops B

/-- Closing the descriptors of a path is quiet. -/
lemma closeLoop_quiet {fds : List Int} {s' : Pimpl σ} (e : Pimpl.closeLoop B fds s = .ok s') :
    Pimpl.Quiet B s s' := by
  induction fds generalizing s with
  | nil => cases e; exact .refl
  | cons fd fds ih =>
    rw [Pimpl.closeLoop] at e
    split at e
    · cases e
    · rename_i h
      exact (Pimpl.Quiet.invokeFopsFd h).trans (ih e)

/-- By induction on the descriptors of a path. -/
lemma run_closeLoop (fds : List Int) :
    (Prog.each (fun fd => do let _ ← invokeFopsFd .close fd) fds : Code Unit).run (Op.eval B) s =
      ((Pimpl.closeLoop B fds s).map fun s => ((), s)).mapError some := by
  induction fds generalizing s with
  | nil => rfl
  | cons fd fds ih =>
    have h : (invokeFopsFd .close fd).run (Op.eval B) s =
        (Pimpl.invokeFopsFd B .close fd s).mapError some := run_invokeFopsFd B
    rw [Pimpl.closeLoop]
    cases hc : Pimpl.invokeFopsFd B .close fd s with
    | error f =>
      rw [hc] at h
      exact Prog.run_bind_error _ (Prog.run_bind_error _ h)
    | ok r =>
      rw [hc] at h
      exact (Prog.run_bind_ok _ (Prog.run_bind_ok _ h)).trans ih

/-- By induction on the fuel: from path `k` on the files are closed and removed. -/
lemma run_cleanupLoop {n k : Nat} (hk : k ≤ s.fdContainer.byPath.entries.length)
    (h : s.fdContainer.byPath.entries.length < n + k) :
    (cleanupLoop n k).run (Op.eval B) s =
      ((Pimpl.cleanupLoop B (s.fdContainer.byPath.entries.drop k) s).map
        fun s => ((), s)).mapError some := by
  induction n generalizing k s with
  | zero => omega
  | succ n ih =>
    rw [cleanupLoop, Prog.run_bind, Prog.run_perform, Op.eval]
    cases he : s.fdContainer.byPath.entries[k]? with
    | none =>
      rw [drop_of_none he]
      rfl
    | some e =>
      obtain ⟨lt, hd⟩ := drop_of_some he
      obtain ⟨path, entry⟩ := e
      rw [hd]
      have hl := run_closeLoop B entry.indexes (s := s)
      rw [Pimpl.cleanupLoop]
      cases hc : Pimpl.closeLoop B entry.indexes s with
      | error f =>
        rw [hc] at hl
        exact Prog.run_bind_error _ hl
      | ok s' =>
        rw [hc] at hl
        refine (Prog.run_bind_ok _ hl).trans ?_
        -- the loop leaves the table alone, so the iterator is where it was
        have hs : s'.fdContainer = s.fdContainer := (closeLoop_quiet B hc).fdContainer
        dsimp only
        split
        · refine (Prog.run_bind_ok _ (run_invokeFopsPath B)).trans ?_
          have hu : (Pimpl.invokeFopsPath B .unlink path s').2.fdContainer = s.fdContainer :=
            Pimpl.Quiet.invokeFopsPath.fdContainer.trans hs
          rw [← hu] at lt h ⊢
          exact ih lt (by omega)
        · rw [← hs] at lt h ⊢
          exact ih lt (by omega)

/-- The destructor alone. -/
theorem run_destroy :
    destroy.run (Op.eval B) s = ((Pimpl.destroy B s).map fun s => ((), s)).mapError some := by
  rw [destroy, Prog.run_bind, Prog.run_perform, Op.eval, Pimpl.destroy, Pimpl.cleanupOpenedFiles]
  have h := run_cleanupLoop B (s := s) (k := 0) (n := s.mounts.entries.length +
    s.fdContainer.byPath.entries.length + 1) (Nat.zero_le _) (by omega)
  rw [List.drop_zero] at h
  cases hc : Pimpl.cleanupLoop B s.fdContainer.byPath.entries s with
  | error f =>
    rw [hc] at h
    exact Prog.run_bind_error _ h
  | ok s' =>
    rw [hc] at h
    exact (Prog.run_bind_ok _ h).trans (Prog.run_bind_ok _ (run_umountAll B))

/-- A call that runs alone does what its function does. -/
theorem exec_agrees (a : Action) :
    Agrees ((call a).run (Op.eval B) s) (Pimpl.exec B a s) := by
  cases a with
  | registerFilesystem type => exact .returned (run_underVfs B rfl)
  | registerFactory type factory => exact .returned (run_underVfs B rfl)
  | unregisterFilesystem type => exact .returned (run_underVfs B rfl)
  | mountAll => exact (agrees_mountAll B).passed
  | mount diskName root fstype flags => exact (agrees_mount B).passed
  | umountAll => exact .returned (run_umountAll B)
  | umount mountPoint => exact .returned (run_umount B)
  | getRoots => exact .returned (run_underVfs B (o := .getRoots) rfl)
  | statParts => exact .returned (run_statParts B)
  | statPartsOf path => exact .returned (run_statPartsOf B)
  | «open» path flags mode => exact .returned (run_open B)
  | file op fd => exact .ended (run_fileOp B)
  | path op path => exact .returned (run_pathOp B)
  | rename oldname newname => exact .returned (run_rename B)
  | diropen path => exact .returned (run_diropen B)
  | dir op handle => exact .ended (run_dirOp B)

end Alone
end Evfs.VirtualFS
