import Evfs.Common.VfsProg

/-!
# What a call keeps to

`discipline` is the rule that every call of `VirtualFS` obeys, by itself: it takes locks in the order
`m_mutex`, mount point, disk, it locks the mount point that it found and runs methods of that
filesystem, and it lets go of what it found before it removes an entry from a table.

One place does not hold the lock of the mount point around a method, the loop of `umount_all`. A
`strict` discipline takes this loop to find no mount point.
-/

namespace Evfs
open Lib

/-- The order the locks are acquired in. -/
def Lock.rank : Lock → Fin 3
  | .vfs => 0
  | .mount _ => 1
  | .disk _ => 2

namespace Hand

/-- A thread in no call but those that hold the mutex of the object. -/
def idle (n : Nat) : Hand := { held := List.replicate n .vfs }

/-- The mount point that a filesystem is in is at hand. -/
def Refers (g : Hand) (fs : FsId) : Prop :=
  (∃ mp, g.mount = some mp ∧ mp.fs = fs) ∨ ∃ mp, g.cursor = some mp ∧ mp.fs = fs

/-- The file handle a method is called with is at hand. -/
def HasHandle (g : Hand) (c : Call) : Prop :=
  ∀ op handle, c = .file op handle → ∃ fd, g.file = some (fd, handle)

/-- The lock comes after those that are held, or is held and may be taken again. -/
def InOrder (g : Hand) (l : Lock) : Prop :=
  (l = .vfs ∧ .vfs ∈ g.held) ∨ ∀ l' ∈ g.held, l'.rank < l.rank

/-- What an operation needs. -/
def Req (strict : Bool) : Op → Hand → Prop
  | .acquire l, g => g.InOrder l ∧ ∀ fs, l = .mount fs → g.Refers fs
  | .release .vfs, g => g.inside = none
  | .release (.mount fs), g => g.inside = none ∧ g.Refers fs
  | .enter fs c, g =>
    g.inside = none ∧ g.HasHandle c ∧
      ((g.Refers fs ∧ (strict → .mount fs ∈ g.held)) ∨ g.made = some fs)
  | .leave fs c, g => g.inside = some fs ∧ g.HasHandle c ∧ (g.Refers fs ∨ g.made = some fs)
  | .create _ _, g => g.inside = none
  | .remove _, g => g.file = none
  | .emplaceMount mp, g => g.inside = none ∧ g.made = some mp.fs
  | .eraseMount _, g => g.mount = none
  | .clearMounts, g => g.mount = none
  | _, _ => True

end Hand

/-- The results that count. -/
def Op.Poss (strict : Bool) : (o : Op) → o.Res → Prop
  | .umountNext _, mp => strict → mp = none
  | _, _ => True

/-- Without the strict discipline anything may come back. -/
lemma Op.poss_false (o : Op) (r : o.Res) : o.Poss false r := by
  cases o with
  | umountNext k => exact nofun
  | _ => trivial

/-- The rule of the calls. -/
def discipline (strict : Bool) : Prog.Discipline Op Op.Res Hand where
  next := Hand.next
  Req := Hand.Req strict
  Poss := Op.Poss strict

namespace VirtualFS
variable {strict : Bool} {α : Type} {g : Hand} {n : Nat}

/-- The mutex of a disk is taken below rank `2` and given back. -/
lemma safe_useDisk {d : DiskId} {method : Code α} {Q : α → Hand → Prop}
    (low : ∀ l ∈ g.held, l.rank < 2)
    (body : method.Safe (discipline strict) (fun a g' => g' = { g with held := .disk d :: g.held } ∧
      Q a g) { g with held := .disk d :: g.held }) :
    (useDisk d method).Safe (discipline strict) Q g := by
  refine .op ⟨.inr low, nofun⟩ fun _ _ => ?_
  rw [Prog.safe_bind]
  apply Prog.Safe.mono body
  rintro a _ ⟨rfl, q⟩
  refine .op trivial fun _ _ => ?_
  simpa [Hand.next, discipline] using q

/-- So is that of the disk manager. -/
lemma safe_useDisks {Q : Unit → Hand → Prop} (low : ∀ l ∈ g.held, l.rank < 2) (post : Q () g) :
    useDisks.Safe (discipline strict) Q g := by
  refine .op trivial fun ds _ => ?_
  have loop : (Prog.each (fun d => useDisk d (pure ())) ds).Safe (discipline strict)
      (fun _ g' => g' = g) g := by
    apply Prog.Safe.each
    · rintro d _ rfl
      exact safe_useDisk low ⟨rfl, rfl⟩
    · rfl
  apply loop.mono
  rintro _ _ rfl
  exact post

/-- A partition is asked for its name with no mutex of a disk held. -/
lemma safe_getName {disk : PartRef} {Q : Option Str → Hand → Prop} (low : ∀ l ∈ g.held, l.rank < 2)
    (post : ∀ name, Q name g) : (getName disk).Safe (discipline strict) Q g :=
  safe_useDisk low ⟨trivial, fun name _ => ⟨rfl, post name⟩⟩

/-- A method of a filesystem that is at hand leaves everything as it was. -/
lemma safe_method {fs : FsId} {c : Call} {Q : c.Ret → Hand → Prop}
    (low : ∀ l ∈ g.held, l.rank < 2) (req : g.Req strict (.enter fs c)) (post : ∀ r, Q r g) :
    (method fs c).Safe (discipline strict) Q g := by
  have out : { g with inside := none } = g := by
    obtain ⟨out, -⟩ := req
    cases g
    cases out
    rfl
  refine .op req fun _ _ => ?_
  rw [Prog.safe_bind]
  refine safe_useDisks (g := { g with inside := some fs }) low ?_
  refine ⟨⟨rfl, req.2.1, req.2.2.imp_left And.left⟩, fun r _ => ?_⟩
  show Q r { g with inside := none }
  rw [out]
  exact post r

/-- A mount point is locked below rank `1`, if it refers to an object. -/
lemma safe_lockMount {mp : MountPoint} {f : Unit → Code α} {Q : α → Hand → Prop}
    (low : ∀ l ∈ g.held, l.rank < 1) (refers : g.Refers mp.fs)
    (rest : (f ()).Safe (discipline strict) Q { g with held := .mount mp.fs :: g.held }) :
    (acquire (.mount mp.fs) >>= f).Safe (discipline strict) Q g :=
  .op ⟨.inr low, fun _ e => Lock.mount.inj e ▸ refers⟩ fun _ _ => rest

/-- What was found is let go of with the lock. -/
lemma safe_unlockMount {mp : MountPoint} {f : Unit → Code α} {Q : α → Hand → Prop}
    (out : g.inside = none) (refers : g.Refers mp.fs)
    (rest : (f ()).Safe (discipline strict) Q { g with file := none, mount := none }) :
    (release (.mount mp.fs) >>= f).Safe (discipline strict) Q
      { g with held := .mount mp.fs :: g.held } := by
  refine .op ⟨out, refers⟩ fun _ _ => ?_
  simpa [Hand.next, discipline] using rest

/-- The lock of a mount point has rank `1`. -/
lemma below_mount {fs : FsId} (low : ∀ l ∈ g.held, l.rank < 1) :
    ∀ l ∈ Lock.mount fs :: g.held, l.rank < 2 := by
  intro l h
  cases h with
  | head => exact (by decide : (1 : Fin 3) < 2)
  | tail _ h => exact (low l h).trans (by decide)

/-- A call on an object is made inside its own lock, and nowhere else. -/
lemma safe_lockedCall {mp : MountPoint} {c : Call} {Q : c.Ret → Hand → Prop}
    (low : ∀ l ∈ g.held, l.rank < 1) (out : g.inside = none) (refers : g.Refers mp.fs)
    (handle : g.HasHandle c) (post : ∀ r, Q r { g with file := none, mount := none }) :
    (lockedCall mp c).Safe (discipline strict) Q g := by
  apply safe_lockMount low refers
  rw [Prog.safe_bind]
  refine safe_method (g := { g with held := .mount mp.fs :: g.held }) (below_mount low)
    ⟨out, handle, .inl ⟨refers, fun _ => List.mem_cons_self⟩⟩ ?_
  intro r
  exact safe_unlockMount out refers (post r)

/-- Between operations a thread holds the mutex of the object at most. -/
lemma idle_held {l : Lock} (h : l ∈ (Hand.idle n).held) : l = .vfs :=
  List.eq_of_mem_replicate h

/-- That has the lowest rank. -/
lemma idle_low : ∀ l ∈ (Hand.idle n).held, l.rank < 1 := by
  intro l h
  rw [idle_held h]
  decide

/-- So it is below the disks as well. -/
lemma idle_below : ∀ l ∈ (Hand.idle n).held, l.rank < 2 :=
  fun l h => (idle_low l h).trans (by decide)

/-- The recursive mutex may be taken any number of times. -/
lemma safe_acquire_vfs {f : Unit → Code α} {Q : α → Hand → Prop}
    (rest : (f ()).Safe (discipline strict) Q (Hand.idle (n + 1))) :
    (acquire .vfs >>= f).Safe (discipline strict) Q (Hand.idle n) := by
  refine .op ⟨?_, nofun⟩ fun _ _ => rest
  cases n with
  | zero => exact .inr nofun
  | succ n => exact .inl ⟨rfl, List.mem_cons_self⟩

/-- Iterators and a filesystem that is not in the table are gone with the mutex of the object. -/
lemma safe_release_vfs {f : Unit → Code α} {Q : α → Hand → Prop} {file : Option (Int × FileHandle)}
    {mount cursor : Option MountPoint} {made : Option FsId}
    (rest : (f ()).Safe (discipline strict) Q { Hand.idle n with file := file, mount := mount }) :
    (release .vfs >>= f).Safe (discipline strict) Q
      { Hand.idle (n + 1) with file := file, mount := mount, cursor := cursor, made := made } :=
  .op rfl fun _ _ => rest

/-- A fault asks for nothing. -/
lemma safe_fault {f : Fault} {Q : α → Hand → Prop} : (fault f).Safe (discipline strict) Q g :=
  .op trivial fun e _ => nomatch e

/-- Nor does the end of a loop. -/
lemma safe_stop {Q : α → Hand → Prop} : stop.Safe (discipline strict) Q g :=
  .op trivial fun e _ => nomatch e

/-- `invoke_fops` on a descriptor calls the object under the lock of its mount point. -/
lemma safe_invokeFopsFd {op : FdOp} {fd : Int} {Q : op.Ret → Hand → Prop}
    (post : ∀ r, Q r (Hand.idle n)) :
    (invokeFopsFd op fd).Safe (discipline strict) Q (Hand.idle n) := by
  apply safe_acquire_vfs
  refine .op trivial fun fil _ => ?_
  cases fil with
  | none => exact safe_release_vfs (post _)
  | some fil =>
    apply safe_release_vfs
    refine .op trivial fun mp _ => ?_
    cases mp with
    | none => exact safe_fault
    | some mp =>
      refine safe_lockedCall (g := { Hand.idle n with file := some (fd, fil), mount := some mp })
        idle_low rfl (.inl ⟨mp, rfl, rfl⟩) ?_ post
      intro op' handle e
      cases e
      exact ⟨fd, rfl⟩

/-- `invoke_fops` on a path does so too. -/
lemma safe_invokeFopsPath {op : PathOp} {path : Str} {Q : op.Ret → Hand → Prop}
    (post : ∀ r, Q r (Hand.idle n)) :
    (invokeFopsPath op path).Safe (discipline strict) Q (Hand.idle n) := by
  unfold invokeFopsPath
  split
  · exact post _
  · split
    · exact post _
    · refine .op trivial fun mp _ => ?_
      cases mp with
      | none => exact post _
      | some mp =>
        exact safe_lockedCall (g := { Hand.idle n with mount := some mp })
          idle_low rfl (.inl ⟨mp, rfl, rfl⟩) nofun post

/-- `invoke_dirops` does so too. -/
lemma safe_invokeDirops {op : DirOp} {handle : DirectoryHandle} {Q : op.Ret → Hand → Prop}
    (post : ∀ r, Q r (Hand.idle n)) :
    (invokeDirops op handle).Safe (discipline strict) Q (Hand.idle n) := by
  refine .op trivial fun mp _ => ?_
  cases mp with
  | none => exact safe_fault
  | some mp =>
    exact safe_lockedCall (g := { Hand.idle n with mount := some mp })
      idle_low rfl (.inl ⟨mp, rfl, rfl⟩) nofun post

/-- `rename` locks the mount point of the first path. -/
lemma safe_rename {path path2 : Str} {Q : ErrorCode → Hand → Prop}
    (post : ∀ r, Q r (Hand.idle n)) :
    (rename path path2).Safe (discipline strict) Q (Hand.idle n) := by
  unfold rename
  split
  · exact post _
  · split
    · exact post _
    · split
      · exact post _
      · split
        · exact post _
        · refine .op trivial fun mp _ => ?_
          cases mp with
          | none => exact post _
          | some mp =>
            have refers : ({ Hand.idle n with mount := some mp } : Hand).Refers mp.fs :=
              .inl ⟨mp, rfl, rfl⟩
            dsimp only
            split
            · exact safe_lockMount idle_low refers (safe_unlockMount rfl refers (post _))
            · exact safe_lockedCall (g := { Hand.idle n with mount := some mp })
                idle_low rfl refers nofun post

/-! ### Mounting -/

/-- The new filesystem is at hand. -/
lemma safe_createFilesystem {factory : Factory} {disk : PartRef} {Q : FsId → Hand → Prop}
    (post : ∀ fs, Q fs { Hand.idle n with made := some fs }) :
    (createFilesystem factory disk).Safe (discipline strict) Q (Hand.idle n) := by
  have create : (perform (.create factory disk)).Safe (discipline strict) Q (Hand.idle n) :=
    ⟨rfl, fun fs _ => post fs⟩
  cases factory with
  | custom id =>
    rw [createFilesystem, Prog.safe_bind]
    exact safe_useDisks idle_below create
  | lwext4 =>
    rw [createFilesystem, Prog.safe_bind]
    apply safe_useDisk idle_below
    refine ⟨trivial, fun r _ => ⟨rfl, ?_⟩⟩
    cases r with
    | error e => exact safe_fault
    | ok n => exact create

/-- An object that is not mounted yet needs no lock. -/
lemma safe_madeMethod {fs : FsId} {c : Call} {Q : c.Ret → Hand → Prop}
    (handle : ∀ op handle, c ≠ .file op handle)
    (post : ∀ r, Q r { Hand.idle n with made := some fs }) :
    (method fs c).Safe (discipline strict) Q { Hand.idle n with made := some fs } :=
  safe_method idle_below ⟨rfl, fun op h e => absurd e (handle op h), .inr rfl⟩ post

/-- The label is asked of the new object. -/
lemma safe_chooseRoot {fs : FsId} {disk : PartRef} {root : Str} {Q : Str → Hand → Prop}
    (post : ∀ root, Q root { Hand.idle n with made := some fs }) :
    (chooseRoot fs disk root).Safe (discipline strict) Q { Hand.idle n with made := some fs } := by
  unfold chooseRoot
  split
  · rw [Prog.safe_bind]
    refine safe_madeMethod (c := .getLabel) nofun ?_
    intro label
    cases label with
    | error e =>
      refine .op trivial fun root _ => ?_
      rw [Prog.safe_bind]
      exact safe_getName idle_below fun _ => post root
    | ok label => exact post _
  · exact post _

/-- The new object is mounted before anybody else can know it. -/
lemma safe_mountAt {fs : FsId} {type : FsType} {disk : PartRef} {root : Str} {flags : Flags}
    {Q : ErrorCode → Hand → Prop} (post : ∀ e made, Q e { Hand.idle n with made := made }) :
    (mountAt fs type disk root flags).Safe (discipline strict) Q
      { Hand.idle n with made := some fs } := by
  have name : ∀ {e : ErrorCode}, (do let _ ← getName disk; return e : Code ErrorCode).Safe
      (discipline strict) Q { Hand.idle n with made := some fs } := by
    intro e
    rw [Prog.safe_bind]
    exact safe_getName idle_below fun _ => post _ _
  refine .op trivial fun there _ => ?_
  cases there with
  | true => exact name
  | false =>
    rw [if_neg nofun, Prog.safe_bind]
    refine safe_madeMethod (c := .mount root flags) nofun ?_
    intro e
    rw [Prog.safe_bind]
    apply safe_getName (g := { Hand.idle n with made := some fs }) idle_below
    intro _
    split
    · exact post _ _
    · refine .op ⟨rfl, rfl⟩ fun inserted _ => ?_
      cases inserted with
      | true => exact post _ _
      | false => exact name

/-- `mount` under the mutex of the object. -/
lemma safe_mountBody {diskName root : Str} {flags : Flags}
    {Q : Except Fault ErrorCode → Hand → Prop}
    (post : ∀ r made, Q r { Hand.idle n with made := made }) :
    (mountBody diskName root flags).Safe (discipline strict) Q (Hand.idle n) := by
  refine .op trivial fun found _ => ?_
  cases found with
  | error f => exact post _ _
  | ok found =>
    cases found with
    | error e => exact post _ _
    | ok found =>
      obtain ⟨type, disk⟩ := found
      refine .op trivial fun factory _ => ?_
      cases factory with
      | none => exact safe_fault
      | some factory =>
        obtain ⟨_, factory⟩ := factory
        cases factory with
        | none => exact safe_fault
        | some factory =>
          dsimp only
          rw [Prog.safe_bind]
          apply safe_createFilesystem
          intro fs
          rw [Prog.safe_bind]
          apply safe_chooseRoot
          intro root
          rw [Prog.safe_bind]
          exact safe_mountAt fun e made => post _ _

/-- The mutex is given back. -/
lemma safe_mount {diskName root : Str} {flags : Flags} {Q : Except Fault ErrorCode → Hand → Prop}
    (post : ∀ r, Q r (Hand.idle n)) :
    (mount diskName root flags).Safe (discipline strict) Q (Hand.idle n) := by
  apply safe_acquire_vfs
  rw [Prog.safe_bind]
  exact safe_mountBody fun r made => safe_release_vfs (post r)

/-- By induction on the partitions. -/
lemma safe_mountLoop {parts : List (DiskId × Str)} {ret : ErrorCode}
    {Q : Except Fault ErrorCode → Hand → Prop} (post : ∀ r, Q r (Hand.idle n)) :
    (mountLoop parts ret).Safe (discipline strict) Q (Hand.idle n) := by
  induction parts generalizing ret with
  | nil => exact post _
  | cons p parts ih =>
    obtain ⟨d, name⟩ := p
    rw [mountLoop, Prog.safe_bind]
    apply safe_useDisk idle_below
    refine ⟨rfl, ?_⟩
    rw [Prog.safe_bind]
    apply safe_mount
    intro r
    cases r with
    | error f => exact post _
    | ok e => exact ih

/-- `mount_all` holds the mutex over all of them. -/
lemma safe_mountAll {Q : Except Fault ErrorCode → Hand → Prop} (post : ∀ r, Q r (Hand.idle n)) :
    mountAll.Safe (discipline strict) Q (Hand.idle n) := by
  apply safe_acquire_vfs
  refine .op trivial fun none _ => ?_
  cases none with
  | true => exact safe_release_vfs (post _)
  | false =>
    refine .op trivial fun parts _ => ?_
    rw [Prog.safe_bind]
    exact safe_mountLoop fun r => safe_release_vfs (post r)

/-- The loop of `umount_all` runs a method without the lock, unless it finds nothing. -/
lemma safe_umountLoop {m k : Nat} (cursor : Option MountPoint) {Q : ErrorCode → Hand → Prop}
    (post : ∀ e cursor, Q e { Hand.idle n with cursor := cursor }) :
    (umountLoop m k).Safe (discipline strict) Q { Hand.idle n with cursor := cursor } := by
  induction m generalizing k cursor with
  | zero => exact safe_stop
  | succ m ih =>
    refine .op trivial fun mp poss => ?_
    cases mp with
    | none => exact post _ _
    | some mp =>
      have refers : ({ Hand.idle n with cursor := some mp } : Hand).Refers mp.fs :=
        .inr ⟨mp, rfl, rfl⟩
      apply safe_lockMount (g := { Hand.idle n with cursor := some mp }) idle_low refers
      apply safe_unlockMount rfl refers
      rw [Prog.safe_bind]
      refine safe_method (c := .unmount) (g := { Hand.idle n with cursor := some mp }) idle_below
        ⟨rfl, nofun, .inl ⟨refers, fun h => nomatch poss h⟩⟩ ?_
      intro e
      split
      · exact post _ _
      · exact ih _

/-- Every object is unmounted inside its lock. -/
lemma safe_umountAll {Q : ErrorCode → Hand → Prop} (post : ∀ e, Q e (Hand.idle n)) :
    umountAll.Safe (discipline strict) Q (Hand.idle n) := by
  apply safe_acquire_vfs
  refine .op trivial fun m _ => ?_
  rw [Prog.safe_bind]
  refine safe_umountLoop (n := n + 1) none fun e cursor => ?_
  refine .op rfl fun _ _ => ?_
  exact safe_release_vfs (post e)

/-- So is a single one. -/
lemma safe_umount {mountPoint : Str} {Q : ErrorCode → Hand → Prop}
    (post : ∀ e, Q e (Hand.idle n)) :
    (umount mountPoint).Safe (discipline strict) Q (Hand.idle n) := by
  apply safe_acquire_vfs
  refine .op trivial fun mp _ => ?_
  cases mp with
  | none => exact safe_release_vfs (post _)
  | some mp =>
    dsimp only
    rw [Prog.safe_bind]
    refine safe_lockedCall (c := .unmount) (g := { Hand.idle (n + 1) with cursor := some mp })
      idle_low rfl (.inr ⟨mp, rfl, rfl⟩) nofun ?_
    intro e
    split
    · exact safe_release_vfs (post _)
    · refine .op rfl fun _ _ => ?_
      exact safe_release_vfs (post _)

/-- The statistics are asked for inside the lock. -/
lemma safe_getMountPointStats {mp : MountPoint} {Q : Unit → Hand → Prop}
    (low : ∀ l ∈ g.held, l.rank < 1) (out : g.inside = none) (refers : g.Refers mp.fs)
    (post : Q () { g with file := none, mount := none }) :
    (getMountPointStats mp).Safe (discipline strict) Q g := by
  apply safe_lockMount low refers
  rw [Prog.safe_bind]
  refine safe_method (c := .path .statVfs mp.root) (g := { g with held := .mount mp.fs :: g.held })
    (below_mount low) ⟨out, nofun, .inl ⟨refers, fun _ => List.mem_cons_self⟩⟩ fun _ => ?_
  rw [Prog.safe_bind]
  refine safe_getName (g := { g with held := .mount mp.fs :: g.held }) (below_mount low)
    fun _ => ?_
  show (release (.mount mp.fs) >>= Prog.pure).Safe _ _ _
  exact safe_unlockMount out refers post

/-- By induction on the fuel; the cursor is the mount point at hand. -/
lemma safe_statLoop {m k : Nat} (cursor : Option MountPoint) {Q : Unit → Hand → Prop}
    (post : Q () (Hand.idle n)) :
    (statLoop m k).Safe (discipline strict) Q { Hand.idle n with cursor := cursor } := by
  induction m generalizing k cursor with
  | zero => exact safe_stop
  | succ m ih =>
    refine .op trivial fun mp _ => ?_
    cases mp with
    | none => exact post
    | some mp =>
      dsimp only
      rw [Prog.safe_bind]
      exact safe_getMountPointStats (g := { Hand.idle n with cursor := some mp }) idle_low rfl
        (.inr ⟨mp, rfl, rfl⟩) (ih _)

/-- `stat_parts` holds the mutex of the object meanwhile. -/
lemma safe_statParts {Q : Unit → Hand → Prop} (post : Q () (Hand.idle n)) :
    statParts.Safe (discipline strict) Q (Hand.idle n) :=
  .op trivial fun _ _ => safe_statLoop none post

/-- `stat_parts_of` finds its mount point under the mutex. -/
lemma safe_statPartsOf {path : Str} {Q : ErrorCode → Hand → Prop}
    (post : ∀ e, Q e (Hand.idle n)) :
    (statPartsOf path).Safe (discipline strict) Q (Hand.idle n) := by
  refine .op trivial fun mp _ => ?_
  cases mp with
  | none => exact post _
  | some mp =>
    dsimp only
    rw [Prog.safe_bind]
    exact safe_getMountPointStats (g := { Hand.idle n with mount := some mp }) idle_low rfl
      (.inl ⟨mp, rfl, rfl⟩) (post _)

/-! ### Files and directories -/

/-- A file is opened and entered inside the lock of its mount point. -/
lemma safe_openLocked {mp : MountPoint} {path abspath : Str} {flags : Flags} {mode : Int}
    {Q : Except ErrorCode Int → Hand → Prop} (below : ∀ l ∈ g.held, l.rank < 2)
    (out : g.inside = none) (refers : g.Refers mp.fs) (held : .mount mp.fs ∈ g.held)
    (post : ∀ r, Q r g) :
    (openLocked mp path abspath flags mode).Safe (discipline strict) Q g := by
  unfold openLocked
  split
  · exact post _
  · rw [Prog.safe_bind]
    refine safe_method (c := .open abspath flags mode) below
      ⟨out, nofun, .inl ⟨refers, fun _ => held⟩⟩ fun handle => ?_
    cases handle with
    | error e => exact post _
    | ok handle => exact .op trivial fun fd _ => post _

/-- `open` takes the two locks in their order. -/
lemma safe_open {path : Str} {flags : Flags} {mode : Int} {Q : Except ErrorCode Int → Hand → Prop}
    (post : ∀ r, Q r (Hand.idle n)) :
    (VirtualFS.open path flags mode).Safe (discipline strict) Q (Hand.idle n) := by
  apply safe_acquire_vfs
  cases absolutePath path with
  | error e => exact safe_release_vfs (post _)
  | ok abspath =>
    refine .op trivial fun mp _ => ?_
    cases mp with
    | none => exact safe_release_vfs (post _)
    | some mp =>
      have refers : ({ Hand.idle (n + 1) with mount := some mp } : Hand).Refers mp.fs :=
        .inl ⟨mp, rfl, rfl⟩
      apply safe_lockMount (g := { Hand.idle (n + 1) with mount := some mp }) idle_low refers
      rw [Prog.safe_bind]
      refine safe_openLocked (below_mount idle_low) rfl refers List.mem_cons_self fun r => ?_
      exact safe_unlockMount rfl refers (safe_release_vfs (post r))

/-- `close` does what `invoke_fops` does, twice at most. -/
lemma safe_close {fd : Int} {Q : ErrorCode → Hand → Prop} (post : ∀ r, Q r (Hand.idle n)) :
    (close fd).Safe (discipline strict) Q (Hand.idle n) := by
  apply safe_acquire_vfs
  refine .op trivial fun there _ => ?_
  cases there with
  | false => exact safe_release_vfs (post _)
  | true =>
    rw [if_pos rfl, Prog.safe_bind]
    apply safe_invokeFopsFd
    intro ret
    -- `invoke_fops` has let go of the handle that is removed now
    refine .op rfl fun path _ => ?_
    cases path with
    | none => exact safe_release_vfs (post _)
    | some path =>
      dsimp only
      rw [Prog.safe_bind]
      exact safe_invokeFopsPath fun ret => safe_release_vfs (post ret)

/-- The operations on a descriptor, one case for each. -/
lemma safe_fileOp {op : FdOp} {fd : Int} {Q : op.Ret → Hand → Prop}
    (post : ∀ r, Q r (Hand.idle n)) :
    (fileOp op fd).Safe (discipline strict) Q (Hand.idle n) := by
  have fops : ∀ {op : FdOp} {Q : op.Ret → Hand → Prop}, (∀ r, Q r (Hand.idle n)) →
      (invokeFopsFd op fd).Safe (discipline strict) Q (Hand.idle n) := safe_invokeFopsFd
  cases op with
  | close => exact safe_close post
  | write data =>
    have stream : (invokeStdstreamOut fd data).Safe (discipline strict)
        (fun _ g => g = Hand.idle n) (Hand.idle n) := by
      unfold invokeStdstreamOut
      split
      · exact ⟨trivial, fun _ _ => rfl⟩
      · split
        · exact ⟨trivial, fun _ _ => rfl⟩
        · rfl
    rw [fileOp, write, Prog.safe_bind]
    apply stream.mono
    rintro r _ rfl
    -- where the stream fails, `invoke_fops` is tried
    cases r with
    | ok n => exact post _
    | error e => exact fops post
  | read len =>
    have stream : (invokeStdstreamIn fd len).Safe (discipline strict)
        (fun _ g => g = Hand.idle n) (Hand.idle n) := by
      unfold invokeStdstreamIn
      split
      · exact ⟨trivial, fun _ _ => rfl⟩
      · rfl
    rw [fileOp, read, Prog.safe_bind]
    apply stream.mono
    rintro ⟨r, bytes⟩ _ rfl
    cases r with
    | ok n => exact post _
    | error e => exact fops post
  | fstat =>
    rw [fileOp, fstat]
    split
    · exact post _
    · exact fops post
  | isatty =>
    rw [fileOp, isatty]
    split
    · exact post _
    · exact fops post
  | _ => exact fops post

/-- The operations on a path; marking needs the mutex only. -/
lemma safe_pathOp {op : PathOp} {path : Str} {Q : op.Ret → Hand → Prop}
    (post : ∀ r, Q r (Hand.idle n)) :
    (pathOp op path).Safe (discipline strict) Q (Hand.idle n) := by
  cases op with
  | unlink =>
    apply safe_acquire_vfs
    refine .op trivial fun there _ => ?_
    cases there with
    | true => exact .op trivial fun _ _ => safe_release_vfs (post _)
    | false =>
      rw [if_neg nofun, Prog.safe_bind]
      exact safe_invokeFopsPath fun e => safe_release_vfs (post e)
  | _ => exact safe_invokeFopsPath post

/-- `diropen` keeps the handle under the mutex. -/
lemma safe_diropen {path : Str} {Q : Except ErrorCode DirectoryHandle → Hand → Prop}
    (post : ∀ r, Q r (Hand.idle n)) :
    (diropen path).Safe (discipline strict) Q (Hand.idle n) := by
  unfold diropen
  cases absolutePath path with
  | error e => exact post _
  | ok abspath =>
    refine .op trivial fun mp _ => ?_
    cases mp with
    | none => exact post _
    | some mp =>
      dsimp only
      rw [Prog.safe_bind]
      refine safe_lockedCall (c := .diropen abspath) (g := { Hand.idle n with mount := some mp })
        idle_low rfl (.inl ⟨mp, rfl, rfl⟩) nofun fun handle => ?_
      cases handle with
      | error e => exact post _
      | ok handle => exact .op trivial fun _ _ => post _

/-- The operations on a directory handle. -/
lemma safe_dirOp {op : DirOp} {handle : DirectoryHandle} {Q : op.Ret → Hand → Prop}
    (post : ∀ r, Q r (Hand.idle n)) :
    (dirOp op handle).Safe (discipline strict) Q (Hand.idle n) := by
  cases op with
  | dirclose =>
    rw [dirOp, dirclose, Prog.safe_bind]
    exact safe_invokeDirops fun e => .op trivial fun _ _ => post e
  | _ => exact safe_invokeDirops post

/-- By induction on the fuel: every descriptor is closed as any other. -/
lemma safe_cleanupLoop {m k : Nat} {Q : Unit → Hand → Prop} (post : Q () (Hand.idle n)) :
    (cleanupLoop m k).Safe (discipline strict) Q (Hand.idle n) := by
  induction m generalizing k with
  | zero => exact safe_stop
  | succ m ih =>
    refine .op trivial fun e _ => ?_
    cases e with
    | none => exact post
    | some e =>
      obtain ⟨path, entry⟩ := e
      have closes : (Prog.each (fun fd => do let _ ← invokeFopsFd .close fd) entry.indexes).Safe
          (discipline strict) (fun _ g => g = Hand.idle n) (Hand.idle n) := by
        apply Prog.Safe.each
        · rintro fd _ rfl
          rw [Prog.safe_bind]
          exact safe_invokeFopsFd fun _ => rfl
        · rfl
      dsimp only
      rw [Prog.safe_bind]
      apply closes.mono
      rintro _ _ rfl
      split
      · rw [Prog.safe_bind]
        exact safe_invokeFopsPath fun _ => ih
      · exact ih

/-- The destructor closes the files, then unmounts. -/
lemma safe_destroy {Q : Unit → Hand → Prop} (post : Q () (Hand.idle n)) :
    destroy.Safe (discipline strict) Q (Hand.idle n) := by
  refine .op trivial fun m _ => ?_
  rw [Prog.safe_bind]
  apply safe_cleanupLoop
  rw [Prog.safe_bind]
  exact safe_umountAll fun _ => post

/-- One step under the mutex of the object, which leaves the thread as it was. -/
lemma safe_underVfs {o : Op} {f : o.Res → Code α} {Q : α → Hand → Prop}
    (req : Hand.Req strict o (Hand.idle (n + 1)))
    (keep : ∀ r, Hand.next o r (Hand.idle (n + 1)) = Hand.idle (n + 1))
    (post : ∀ r, (f r).Safe (discipline strict) Q (Hand.idle n)) :
    (do acquire .vfs; let r ← perform o; release .vfs; f r : Code α).Safe (discipline strict) Q
      (Hand.idle n) := by
  apply safe_acquire_vfs
  refine .op req fun r _ => ?_
  rw [show (discipline strict).next o r _ = Hand.idle (n + 1) from keep r]
  exact safe_release_vfs (post r)

/-- Every call obeys the rule, and has nothing at hand when it returns. -/
lemma safe_call (a : Action) {Q : Except Fault Reply → Hand → Prop}
    (post : ∀ r, Q r (Hand.idle n)) : (call a).Safe (discipline strict) Q (Hand.idle n) := by
  cases a with
  | registerFilesystem type =>
    exact safe_underVfs (o := .registerFilesystem type (getFsFactory type)) trivial (fun _ => rfl)
      fun _ => post _
  | registerFactory type factory =>
    exact safe_underVfs (o := .registerFilesystem type factory) trivial (fun _ => rfl)
      fun _ => post _
  | unregisterFilesystem type =>
    exact safe_underVfs (o := .unregisterFilesystem type) trivial (fun _ => rfl) fun _ => post _
  | mountAll => exact Prog.safe_bind.mpr (safe_mountAll fun _ => post _)
  | mount diskName root fstype flags => exact Prog.safe_bind.mpr (safe_mount fun _ => post _)
  | umountAll => exact Prog.safe_bind.mpr (safe_umountAll fun _ => post _)
  | umount mountPoint => exact Prog.safe_bind.mpr (safe_umount fun _ => post _)
  | getRoots => exact safe_underVfs (o := .getRoots) trivial (fun _ => rfl) fun _ => post _
  | statParts => exact Prog.safe_bind.mpr (safe_statParts (post _))
  | statPartsOf path => exact Prog.safe_bind.mpr (safe_statPartsOf fun _ => post _)
  | «open» path flags mode => exact Prog.safe_bind.mpr (safe_open fun _ => post _)
  | file op fd => exact Prog.safe_bind.mpr (safe_fileOp fun _ => post _)
  | path op path => exact Prog.safe_bind.mpr (safe_pathOp fun _ => post _)
  | rename oldname newname => exact Prog.safe_bind.mpr (safe_rename fun _ => post _)
  | diropen path => exact Prog.safe_bind.mpr (safe_diropen fun _ => post _)
  | dir op handle => exact Prog.safe_bind.mpr (safe_dirOp fun _ => post _)

/-- Every operation keeps to the discipline. -/
lemma safe_code (call : VfsCall) :
    call.code.Safe (discipline strict) (fun _ g => g = Hand.idle 0) (Hand.idle 0) := by
  cases call with
  | op a => exact Prog.safe_bind.mpr (safe_call a fun _ => rfl)
  | destroy => exact safe_destroy rfl

end VirtualFS

variable {Tid σ : Type} {s : Pimpl σ} {calls : Tid → List VfsCall} {strict : Bool}

/-- The threads obey the rule from the start. -/
theorem start_disciplined : System.Disciplined (discipline strict) (start s calls) := by
  intro t
  have h : (Prog.each VfsCall.code (calls t)).Safe (discipline strict)
      (fun _ g => g = Hand.idle 0) (Hand.idle 0) := by
    apply Prog.Safe.each
    · rintro call _ rfl
      exact VirtualFS.safe_code call
    · rfl
  exact h.mono fun _ _ _ => trivial

/-- At the start nobody holds anything. -/
lemma start_exclusive {B : Backend σ} : (threads B).Exclusive (start s calls) := nofun

end Evfs
