import Evfs.Fstypes.Contents
import Evfs.Vfs.ReadOnlyMount

/-!
# Sessions that only read

A session that only opens, reads, seeks and stats is to leave the contents and the modification time
of a file as they are, and `close` is to succeed. `filesystem_lwext4::close` does not know whether
anything was written: it sets the modification time, and does so by the path the file was opened
under. So `close` succeeds if this path still leads somewhere on a mount that may be written to, and
if it leads to the file then the file has the time of the `close` from then on.
-/

namespace Evfs
open Lib Lwext4

namespace Lwext4
namespace FilesystemLwext4
variable {bl : BlockLayer} {fs : FsId} {o : Object} {w : World}

/-- The methods that read, seek and stat. -/
def reading : Call → Bool
  | .file (.read _) _ => true
  | .file (.lseek _ _) _ => true
  | .file .fstat _ => true
  | .path .stat _ => true
  | .path .statVfs _ => true
  | _ => false

/-- They can reach no volume. -/
lemma confined_reading {c : Call} (h : reading c = true) :
    Confined (fun _ => False) w (call bl fs o c w).2 := by
  cases c with
  | file op h' =>
    cases op with
    | read len => exact World.confined_fread
    | lseek pos dir => exact confined_lseek
    | fstat => exact .refl
    | _ => cases h
  | path op path =>
    cases op with
    | stat => exact .refl
    | statVfs =>
      show Confined _ w (statVfs bl o w).2
      unfold statVfs
      split
      · exact .refl
      · exact .refl
    | _ => cases h
  | _ => cases h

end FilesystemLwext4
end Lwext4

namespace Pimpl
variable {τ : Type}

/-- The operations that read, seek and stat. -/
def reading : Action → Bool
  | .file (.read _) _ => true
  | .file (.lseek _ _) _ => true
  | .file .fstat _ => true
  | .path .stat _ => true
  | .path .statVfs _ => true
  | .statParts => true
  | .statPartsOf _ => true
  | _ => false

/-- A step of a session that only opens, reads, seeks and stats, and closes no file that is marked
for unlink. -/
def Reading (s : Pimpl (World × τ)) : Label → Prop
  | .op (.open _ _ _) _ => True
  | .op (.file .close fd) _ => (s.fdContainer.remove fd).1 = none
  | .op a _ => reading a = true
  | _ => True

/-- The steps that change the file all the same: it is opened with `O_TRUNC` and holds something, or
the path of a file that is closed leads to it and the clock does not show its modification time. -/
inductive Spoils (bl : BlockLayer) (d : PartRef) (i : Ino) (s : Pimpl (World × τ)) :
    Label → Prop where
  | open {path flags mode r abspath mp k} : Reaches s path abspath mp →
    ¬ (wantsWrite flags && mp.flags.test MountFlags.readOnly) = true → trunc flags = true →
    ((s.world.1.volumes d).inodes i).data ≠ [] → s.world.1.Opens bl abspath flags k i →
    (s.world.1.sMp k).bdev = d → Spoils bl d i s (.op (.open path flags mode) r)
  | close {fd r fil mp k} : ReachesFd s fd fil mp → s.world.1.Stamps bl fil.abspath k i →
    (s.world.1.sMp k).bdev = d →
    s.world.1.clock s.world.1.readings ≠ ((s.world.1.volumes d).inodes i).mtime →
    Spoils bl d i s (.op (.file .close fd) r)

variable {bl : BlockLayer} {O : Backend τ} {s s' s₀ : Pimpl (World × τ)} {d : PartRef} {i : Ino}
  {mp : MountPoint} {fd : Int} {fil : FileHandle} {l : Label}

/-- `close` succeeds exactly if the path of the handle still leads to an inode, on a mount that may
be written to. -/
lemma close_ok_iff {e : ErrorCode} (rc : ReachesFd s fd fil mp)
    (keep : (s.fdContainer.remove fd).1 = none)
    (h : close (backend bl O) fd s = .ok (e, s')) :
    e = 0 ↔ ∃ k j, s.world.1.Stamps bl fil.abspath k j := by
  rcases close_returned h keep with ⟨hf, -⟩ | ⟨fil', mp', hf, hm, rfl, -⟩
  · rw [rc.file] at hf
    cases hf
  · cases rc.file.symm.trans hf
    cases rc.found.symm.trans hm
    obtain ⟨o, ho⟩ := call_lwext4 rc.object bl O
    rw [ho]
    exact FilesystemLwext4.close_iff

/-- An open keeps the contents unless it spoils them. -/
lemma kept_open_iff {path : Str} {flags : Flags} {mode : Int} {r : Reply}
    (hu : (s.world.1.volumes d).used i = true)
    (h : Pimpl.open (backend bl O) path flags mode s = (r, s')) :
    World.Kept d i s.world.1 s'.world.1 ↔ ¬ Spoils bl d i s (.op (.open path flags mode) r) := by
  rcases world_open h with ⟨e, no⟩ | ⟨abspath, mp, ha, hm, hr, e⟩
  · rw [e]
    refine iff_of_true World.Kept.refl fun sp => ?_
    cases sp with
    | «open» rc hr => exact hr (no rc.absolute rc.found)
  · rw [e]
    show World.Kept d i s.world.1 (callObject bl O mp.fs _ s.world).2.1 ↔ _
    cases ho : s.world.1.objects mp.fs with
    | none =>
      rw [callObject_none ho]
      refine iff_of_true World.Kept.refl fun sp => ?_
      cases sp with
      | «open» rc =>
        cases ha.symm.trans rc.absolute
        cases hm.symm.trans rc.found
        have hs := rc.object
        rw [ho] at hs
        cases hs
    | some o =>
      rw [callObject_some ho]
      refine (FilesystemLwext4.kept_open hu).trans (not_congr ⟨?_, fun sp => ?_⟩)
      · rintro ⟨ht, ne, k, op, hd⟩
        exact .open ⟨ha, hm, by rw [ho]; rfl⟩ hr ht ne op hd
      · cases sp with
        | @«open» _ _ _ _ _ _ k rc _ ht ne op hd =>
          cases ha.symm.trans rc.absolute
          exact ⟨ht, ne, k, op, hd⟩

/-- So does a close that makes no deferred unlink. -/
lemma kept_close_iff {e : ErrorCode} {r : Reply} (hu : (s.world.1.volumes d).used i = true)
    (keep : (s.fdContainer.remove fd).1 = none)
    (h : close (backend bl O) fd s = .ok (e, s')) :
    World.Kept d i s.world.1 s'.world.1 ↔ ¬ Spoils bl d i s (.op (.file .close fd) r) := by
  rcases close_returned h keep with ⟨hf, e⟩ | ⟨fil, mp, hf, hm, -, e⟩
  · rw [e]
    refine iff_of_true World.Kept.refl fun sp => ?_
    cases sp with
    | close rc =>
      rw [rc.file] at hf
      cases hf
  · rw [e]
    show World.Kept d i s.world.1 (callObject bl O mp.fs _ s.world).2.1 ↔ _
    cases ho : s.world.1.objects mp.fs with
    | none =>
      rw [callObject_none ho]
      refine iff_of_true World.Kept.refl fun sp => ?_
      cases sp with
      | close rc =>
        cases hf.symm.trans rc.file
        cases hm.symm.trans rc.found
        have hs := rc.object
        rw [ho] at hs
        cases hs
    | some o =>
      rw [callObject_some ho]
      refine (FilesystemLwext4.kept_close hu).trans (not_congr ⟨?_, fun sp => ?_⟩)
      · rintro ⟨k, st, hd, ne⟩
        exact .close ⟨hf, hm, by rw [ho]; rfl⟩ st hd ne
      · cases sp with
        | @close _ _ _ _ k rc st hd ne =>
          cases hf.symm.trans rc.file
          exact ⟨k, st, hd, ne⟩

/-- The other operations make calls that read, seek and stat. -/
lemma reading_of_makes {a : Action} (ha : reading a = true) {fs : FsId} {c : Call} {w : World × τ}
    (m : Makes (backend bl O) s a fs c w) : FilesystemLwext4.reading c = true := by
  cases m with
  | statVfs => rfl
  | @file op =>
    cases op with
    | read len => rfl
    | lseek pos dir => rfl
    | fstat => rfl
    | _ => cases ha
  | @path op =>
    cases op with
    | stat => rfl
    | statVfs => rfl
    | _ => cases ha
  | _ => cases ha

/-- So they keep every file. -/
lemma kept_reading {a : Action} {r : Reply} (ha : reading a = true)
    (h : exec (backend bl O) a s = .ok (r, s')) : World.Kept d i s.world.1 s'.world.1 := by
  have hm : mounting a = false := by
    cases a with
    | mountAll => cases ha
    | mount => cases ha
    | umountAll => cases ha
    | umount => cases ha
    | _ => rfl
  apply (exec_drives hm h).invariant (I := fun w => World.Kept d i s.world.1 w.1)
  · intro fs c w m kept
    show World.Kept d i s.world.1 (callObject bl O fs c w).2.1
    cases ho : w.1.objects fs with
    | none =>
      rw [callObject_none ho]
      exact kept
    | some o =>
      rw [callObject_some ho]
      exact kept.trans (.of_confined
        (FilesystemLwext4.confined_reading (reading_of_makes ha m)))
  · exact fun kept => kept
  · exact World.Kept.refl

/-- A step of a session that only reads keeps a file exactly if it does not spoil it. -/
lemma kept_step_iff (hu : (s.world.1.volumes d).used i = true) (rd : Reading s l)
    (st : Step (backend bl O) s l s') :
    World.Kept d i s.world.1 s'.world.1 ↔ ¬ Spoils bl d i s l := by
  cases st with
  | @op a r _ _ h =>
    cases a with
    | «open» path flags mode => exact kept_open_iff hu (Except.ok.inj h)
    | file op fd =>
      cases op with
      | close =>
        obtain ⟨⟨e, s₁⟩, h', hr⟩ := map_ok h
        cases hr
        exact kept_close_iff hu rd h'
      | _ => exact iff_of_true (kept_reading rd h) nofun
    | _ => exact iff_of_true (kept_reading rd h) nofun
  | rehash h =>
    have e : s'.world = s.world := by rw [h.rest]
    rw [e]
    exact iff_of_true World.Kept.refl nofun
  | foreignOpen => exact iff_of_true World.Kept.refl nofun
  | registerDevice => exact iff_of_true World.Kept.refl nofun
  | unregisterDevice => exact iff_of_true World.Kept.refl nofun

/-- `close` of a file that is not marked for unlink succeeds exactly if the path of the handle still
leads to an inode on a mount that may be written to. A session that only opens, reads, seeks and
stats keeps a file as long as no step spoils it, which is the only way not to keep it. -/
theorem reading_session (bl : BlockLayer) (O : Backend τ) :
    (∀ {s s' : Pimpl (World × τ)} {fd fil mp e}, ReachesFd s fd fil mp →
      (s.fdContainer.remove fd).1 = none → close (backend bl O) fd s = .ok (e, s') →
      (e = 0 ↔ ∃ k j, s.world.1.Stamps bl fil.abspath k j)) ∧
    ∀ {s₀ s : Pimpl (World × τ)} {d i}, (s₀.world.1.volumes d).used i = true →
      Runs (Step (backend bl O)) (fun s l => Reading s l ∧ ¬ Spoils bl d i s l) s₀ s →
      ((s.world.1.volumes d).inodes i).contents = ((s₀.world.1.volumes d).inodes i).contents ∧
        ∀ {l s'}, Reading s l → Step (backend bl O) s l s' →
          (World.Kept d i s.world.1 s'.world.1 ↔ ¬ Spoils bl d i s l) := by
  refine ⟨fun rc keep h => close_ok_iff rc keep h, fun {s₀ s d i} hu run => ?_⟩
  have kept : World.Kept d i s₀.world.1 s.world.1 := by
    refine run.invariant (I := fun s => World.Kept d i s₀.world.1 s.world.1)
      (fun kept ok st => ?_) World.Kept.refl
    exact kept.trans ((kept_step_iff (kept hu).1 ok.1 st).mpr ok.2)
  exact ⟨(kept hu).2, fun rd st => kept_step_iff (kept hu).1 rd st⟩

/-- A file was written and closed, the clock showing another time at every reading. -/
def tickedF : Pimpl (World × (FsId → Str)) :=
  play ext [.registerFilesystem .ext4, .mount "sdp0".toList "/a".toList [] 0,
    .open "/a/f".toList 0x42 0, .file (.write [1]) 3, .file .close 3]
    (sample ({ emptyWorld with clock := id }, fun _ => []))

/-- The file is open for reading, and was read. -/
def readF : Pimpl (World × (FsId → Str)) :=
  play ext [.open "/a/f".toList 0 0, .file (.read 1) 4] tickedF

/-- `/a/f`, when it is opened a second time. -/
def handleOfReadF : FileHandle := ⟨1, "/a".toList, "/a/f".toList, 1⟩

/-- The descriptor of the sample is open. -/
lemma reachesFd_readingF : ReachesFd readingF 4 handleOfReadF readOnlyMountPointA :=
  ⟨by decide +kernel, by decide +kernel, by decide +kernel⟩

/-- The sample opens the file and reads from it. -/
lemma runs_readF {ok : Pimpl (World × (FsId → Str)) → Label → Prop}
    (h : ∀ s r, ok s (.op (.open "/a/f".toList 0 0) r) ∧ ok s (.op (.file (.read 1) 4) r)) :
    Runs (Step ext) ok tickedF readF := by
  refine runs_play fun a ha s r => ?_
  rcases List.mem_cons.mp ha with rfl | ha
  · exact (h s r).1
  · cases List.mem_singleton.mp ha
    exact (h s r).2

/-- A second file is made after the first one. -/
def tickedG : Pimpl (World × (FsId → Str)) :=
  play ext [.open "/a/g".toList 0x42 0, .file .close 4] tickedF

/-- Both are opened for reading, and the first one is read. -/
def readBoth : Pimpl (World × (FsId → Str)) :=
  play ext [.open "/a/f".toList 0 0, .file (.read 1) 5, .open "/a/g".toList 0 0] tickedG

/-- The second one is closed. -/
def closedG : Pimpl (World × (FsId → Str)) := play ext [.file .close 6] readBoth

/-- The sample opens, reads and closes. -/
lemma runs_closedG :
    Runs (Step ext) (fun s l => Reading s l ∧ ¬ Spoils firstFree ⟨0, 0⟩ 11 s l) tickedG closedG := by
  have run : Runs (Step ext) (fun s l => Reading s l ∧ ¬ Spoils firstFree ⟨0, 0⟩ 11 s l) tickedG
      readBoth := by
    refine runs_play fun a ha s r => ?_
    simp only [List.mem_cons, List.not_mem_nil, or_false] at ha
    rcases ha with rfl | rfl | rfl
    · exact ⟨trivial, fun sp => by cases sp with | «open» _ _ ht => exact absurd ht (by decide)⟩
    · exact ⟨rfl, nofun⟩
    · exact ⟨trivial, fun sp => by cases sp with | «open» _ _ ht => exact absurd ht (by decide)⟩
  have keep : (readBoth.fdContainer.remove 6).1 = none := by decide +kernel
  refine run.tail ⟨.op (.file .close 6) (.ok 0), ⟨keep, fun sp => ?_⟩, .op (by decide) ?_⟩
  · -- the path of the file that is closed leads to the other inode
    cases sp with
    | close rc st =>
      obtain ⟨f, hf, -, hi⟩ := st
      have hp : (readBoth.fdContainer.byId.lookup 6).map FileHandle.abspath =
          some "/a/g".toList := by decide +kernel
      rw [rc.file] at hp
      rw [Option.some.inj hp] at hf
      have hg : (readBoth.world.1.lookup firstFree none "/a/g".toList).map
          (fun r => r.2.inode) = .ok 12 := by decide +kernel
      rw [hf] at hg
      cases hi.symm.trans (Except.ok.inj hg)
  · exact exec_play (by decide) (by decide +kernel)

/-- The contents after a session with a close. -/
theorem reading_session_closedG :
    (EROFS = 0 ↔ ∃ k j, readingF.world.1.Stamps firstFree "/a/f".toList k j) ∧
      ((closedG.world.1.volumes ⟨0, 0⟩).inodes 11).contents =
        ((tickedG.world.1.volumes ⟨0, 0⟩).inodes 11).contents := by
  have h : (close ext 4 readingF).map Prod.fst = .ok EROFS := by decide +kernel
  obtain ⟨⟨e, s'⟩, hx, rfl⟩ := map_ok h
  exact ⟨(reading_session firstFree .accepting).1 reachesFd_readingF (by decide +kernel) hx,
    ((reading_session firstFree .accepting).2 (by decide +kernel) runs_closedG).1⟩

/-- `open("/a/f", O_RDONLY)`, `read` and `close` change the modification time. On a read-only mount
`close` fails with `EROFS`. -/
theorem not_reading_session_readF :
    Reachable ext tickedF ∧ (tickedF.world.1.volumes ⟨0, 0⟩).used 11 = true ∧
      (∃ s, Runs (Step ext) Reading tickedF s ∧
        ((s.world.1.volumes ⟨0, 0⟩).inodes 11).contents ≠
          ((tickedF.world.1.volumes ⟨0, 0⟩).inodes 11).contents) ∧
      Reachable ext readingF ∧ ReachesFd readingF 4 handleOfReadF readOnlyMountPointA ∧
      (readingF.fdContainer.remove 4).1 = none ∧
      (close ext 4 readingF).map Prod.fst = .ok EROFS := by
  refine ⟨(Reachable.initial initial_sample).play, by decide +kernel, ?_,
    reachable_mountedAtA.play.play, reachesFd_readingF, by decide +kernel, by decide +kernel⟩
  have run : Runs (Step ext) Reading tickedF readF := runs_readF fun _ _ => ⟨trivial, rfl⟩
  have e : exec ext (.file .close 4) readF = .ok (.ok 0, play ext [.file .close 4] readF) :=
    exec_play (by decide) (by decide +kernel)
  have keep : (readF.fdContainer.remove 4).1 = none := by decide +kernel
  exact ⟨_, run.tail ⟨.op (.file .close 4) (.ok 0), keep, .op (by decide) e⟩, by decide +kernel⟩

end Pimpl
end Evfs
