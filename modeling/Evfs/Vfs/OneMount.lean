import Evfs.Common.VfsCalls
import Evfs.Fstypes.FilesystemLwext4
import Evfs.Lwext4.Walk
import Evfs.Vfs.Handles

/-!
# Sessions on one mount

`OneMount` is a state in which one `filesystem_lwext4` is mounted and nothing else. It holds on in
every session, the steps that neither mount nor unmount (`OneMount.step`).
-/

namespace Evfs
open Lib Lwext4
namespace Pimpl
variable {τ : Type}

/-- One mount point, the object of which is mounted in the one slot of lwext4 that is in use. -/
structure OneMount (mp : MountPoint) (k : Fin 4) (s : Pimpl (World × τ)) : Prop where
  mounts : s.mounts.entries = [⟨mp.root, mp⟩]
  object : ∃ o, s.world.1.objects mp.fs = some o ∧ o.root = mp.root
  mounted : (s.world.1.sMp k).mounted = true
  name : (s.world.1.sMp k).name = toNativeRoot mp.root
  only {i} : (s.world.1.sMp i).mounted = true → i = k
  /-- The open files are files of that mount. -/
  handles {fd fil} : s.fdContainer.byId.lookup fd = some fil →
    fil.root = mp.root ∧ (s.world.1.names fil.abspath k).getLast? ≠ some []

/-- A step that neither mounts nor unmounts. -/
def Ordinary : Label → Prop
  | .op a _ => mounting a = false
  | _ => True

/-- A `write` does not start behind the end of the file. -/
def WritesInside (s : Pimpl (World × τ)) : Action → Prop
  | .file (.write _) fd => ∀ fil ∈ s.fdContainer.byId.lookup fd, s.world.1.Inside fil.raw
  | _ => True

variable {bl : BlockLayer} {O : Backend τ} {s s' : Pimpl (World × τ)} {mp mp' : MountPoint}
  {k : Fin 4}

/-- The tables of lwext4 are the same. -/
abbrev SameTables (w w' : World) : Prop := Confined (fun _ => True) w w'

/-- Calls that do not mount leave the tables alone. -/
lemma sameTables_call {fs : FsId} {c : Call} {w : World × τ}
    (h : FilesystemLwext4.mounting c = false) :
    SameTables w.1 ((backend bl O).call fs c w).2.1 := by
  show SameTables w.1 (callObject bl O fs c w).2.1
  cases ho : w.1.objects fs with
  | some o =>
    rw [callObject_some ho]
    exact FilesystemLwext4.confined_call bl fs o h
  | none =>
    rw [callObject_none ho]
    exact .refl

/-- Calls of an action that does not mount do not either. -/
lemma Makes.ordinary {σ : Type} {B : Backend σ} {s : Pimpl σ} {a : Action} {fs : FsId} {c : Call}
    {w : σ} (m : Makes B s a fs c w) : FilesystemLwext4.mounting c = false := by
  cases m <;> rfl

/-- An operation that neither mounts nor unmounts leaves the tables of lwext4 alone. -/
lemma sameTables_exec {a : Action} {r : Reply} (ha : mounting a = false)
    (h : exec (backend bl O) a s = .ok (r, s')) : SameTables s.world.1 s'.world.1 := by
  apply (exec_drives ha h).invariant (I := fun w => SameTables s.world.1 w.1)
  · intro fs c w m t
    exact t.trans (sameTables_call m.ordinary)
  · exact fun t => t
  · exact .refl

/-! ### Operations on a `filesystem_lwext4` -/

/-- A path is handed to a `filesystem_lwext4` that is mounted. -/
structure Reaches (s : Pimpl (World × τ)) (path abspath : Str) (mp : MountPoint) : Prop where
  absolute : absolutePath path = .ok abspath
  found : findMountPoint s.mounts abspath = some mp
  object : (s.world.1.objects mp.fs).isSome

/-- A descriptor is handed to a `filesystem_lwext4` that is mounted. -/
structure ReachesFd (s : Pimpl (World × τ)) (fd : Int) (fil : FileHandle) (mp : MountPoint) :
    Prop where
  file : s.fdContainer.byId.lookup fd = some fil
  found : s.mounts.lookup fil.root = some mp
  object : (s.world.1.objects mp.fs).isSome

/-- A path that is handed on is not empty. -/
lemma Reaches.invokeFopsPath {path abspath : Str} (h : Reaches s path abspath mp) (op : PathOp) :
    invokeFopsPath (backend bl O) op path s =
      lockedCall (backend bl O) mp (.path op abspath) s := by
  have hp : path ≠ [] := by
    intro e
    have hr := (absolutePath_ok h.absolute).1
    rw [e] at hr
    cases hr
  simp only [Pimpl.invokeFopsPath, if_neg hp, h.absolute, h.found]

/-- A descriptor that is handed on is one of the table. -/
lemma ReachesFd.invokeFopsFd {fd : Int} {fil : FileHandle} (h : ReachesFd s fd fil mp) (op : FdOp) :
    invokeFopsFd (backend bl O) op fd s =
      .ok (lockedCall (backend bl O) mp (.file op fil) s) := by
  simp only [Pimpl.invokeFopsFd, h.file, h.found]

/-- A method call on an object that is a `filesystem_lwext4`. -/
lemma call_lwext4 (h : (s.world.1.objects mp.fs).isSome) (bl : BlockLayer) (O : Backend τ) :
    ∃ o, ∀ c, ((backend bl O).call mp.fs c s.world).1 =
      (FilesystemLwext4.call bl mp.fs o c s.world.1).1 := by
  obtain ⟨o, ho⟩ := Option.isSome_iff_exists.mp h
  exact ⟨o, fun c => congrArg Prod.fst (callObject_some ho)⟩

namespace OneMount

/-- The mount is in the table. -/
lemma lookup (one : OneMount mp k s) : s.mounts.lookup mp.root = some mp := by
  rw [← UnorderedMap.mem_entries_iff, one.mounts]
  exact List.mem_cons_self

/-- It is the only one. -/
lemma lookup_eq (one : OneMount mp k s) {root : Str} (h : s.mounts.lookup root = some mp') :
    mp' = mp := by
  rw [← UnorderedMap.mem_entries_iff, one.mounts] at h
  cases List.mem_singleton.mp h
  rfl

/-- It is the one that is found. -/
lemma found (one : OneMount mp k s) {path : Str} (h : findMountPoint s.mounts path = some mp') :
    mp' = mp := by
  obtain ⟨root, e, -⟩ := lookup_of_findMountPoint h
  exact one.lookup_eq e

/-- The path of an lwext4 function is on the one volume. -/
lemma getMount (one : OneMount mp k s) {path : Str} {i : Fin 4}
    (h : s.world.1.getMount path = some i) : i = k :=
  one.only (World.mounted_of_getMount h)

/-- The names of a normal path behind the mount point. -/
lemma proper_names (one : OneMount mp k s) {path abspath n : Str}
    (ha : absolutePath path = .ok abspath) (hm : s.world.1.getMount abspath = some k)
    (hn : n ∈ s.world.1.names abspath k) : n = [] ∨ Path.Proper n := by
  obtain ⟨hr, rfl⟩ := absolutePath_ok ha
  obtain ⟨rest, e⟩ := World.prefix_of_getMount hm
  apply Path.proper_of_mem_splitNames hr
  rw [World.names, ← e, List.drop_left] at hn
  rw [← e, one.name, toNativeRoot, List.append_assoc]
  exact Path.mem_splitNames_append hn

/-- A call on the one mounted filesystem. -/
lemma call (one : OneMount mp k s) (bl : BlockLayer) (O : Backend τ) : ∃ o, o.root = mp.root ∧ ∀ c,
    (backend bl O).call mp.fs c s.world = ((FilesystemLwext4.call bl mp.fs o c s.world.1).1,
      (FilesystemLwext4.call bl mp.fs o c s.world.1).2, s.world.2) := by
  obtain ⟨o, ho, hr⟩ := one.object
  exact ⟨o, hr, fun c => callObject_some ho⟩

/-- The same mount after a step that opens nothing elsewhere. -/
lemma congr (one : OneMount mp k s) (hm : s'.mounts.entries = [⟨mp.root, mp⟩])
    (t : SameTables s.world.1 s'.world.1)
    (hh : ∀ {fd fil}, s'.fdContainer.byId.lookup fd = some fil →
      (∃ fd, s.fdContainer.byId.lookup fd = some fil) ∨
        fil.root = mp.root ∧ (s.world.1.names fil.abspath k).getLast? ≠ some []) :
    OneMount mp k s' where
  mounts := hm
  object := by rw [t.objects]; exact one.object
  mounted := by rw [t.sMp]; exact one.mounted
  name := by rw [t.sMp]; exact one.name
  only h := one.only (by rwa [t.sMp] at h)
  handles e := by
    rw [t.names]
    rcases hh e with ⟨fd, e⟩ | h
    · exact one.handles e
    · exact h

/-- A file that the one mounted filesystem opens. -/
lemma opened (one : OneMount mp k s) {abspath : Str} {flags : Flags} {mode : Int}
    {handle : FileHandle}
    (h : ((backend bl O).call mp.fs (.open abspath flags mode) s.world).1 = .ok handle) :
    handle.root = mp.root ∧ handle.abspath = abspath ∧
      (s.world.1.names abspath k).getLast? ≠ some [] := by
  obtain ⟨o, hr, hc⟩ := one.call bl O
  rw [hc] at h
  have e : handle = ⟨mp.fs, o.root, abspath, s.world.1.nextRaw⟩ :=
    FilesystemLwext4.open_handle h
  refine ⟨by rw [e]; exact hr, by rw [e], ?_⟩
  obtain ⟨f, hf⟩ := FilesystemLwext4.open_fopen2 h
  obtain ⟨i, f', v', hi, ho⟩ := World.fopen2_ok hf
  rw [← one.getMount hi]
  exact Volume.openLoop_regFile ho

/-- Every action but the mounting ones keeps it so. -/
lemma exec (one : OneMount mp k s) {a : Action} {r : Reply} (ha : mounting a = false)
    (h : exec (backend bl O) a s = .ok (r, s')) : OneMount mp k s' := by
  have t := sameTables_exec ha h
  by_cases ho : ∃ path flags mode, a = .open path flags mode
  · obtain ⟨path, flags, mode, rfl⟩ := ho
    have e : Pimpl.open (backend bl O) path flags mode s = (r, s') := Except.ok.inj h
    cases r with
    | error e' =>
      have q := open_error e
      refine one.congr (q.mounts ▸ one.mounts) t fun {fd _} e => .inl ⟨fd, ?_⟩
      rwa [q.fdContainer] at e
    | ok fd =>
      -- the one new handle comes from the mount
      obtain ⟨abspath, mp', handle, -, hm, -, hc, -, -, hms, hfd, -⟩ := open_ok e
      cases one.found hm
      refine one.congr (hms ▸ one.mounts) t fun {fd' fil} e => ?_
      rw [hfd] at e
      rcases UnorderedMap.lookup_emplace_elim e with e | ⟨-, rfl⟩
      · exact .inl ⟨_, e⟩
      · obtain ⟨hr, ha, hl⟩ := one.opened hc
        exact .inr ⟨hr, ha ▸ hl⟩
  · refine one.congr ((mounts_exec ha h).symm ▸ one.mounts) t fun {fd _} e => .inl ⟨fd, ?_⟩
    cases (exec_effect h).descriptors with
    | same _ hc => rwa [hc] at e
    | opened => exact absurd ⟨_, _, _, rfl⟩ ho
    | closed _ hc =>
      rw [hc] at e
      exact FileDescriptorContainer.lookup_byId_remove e
    | marked _ hc => rwa [hc, FileDescriptorContainer.byId_markForUnlink] at e

/-- A step of a session leaves the one mount as it is. -/
theorem step (one : OneMount mp k s) {l : Label} (ok : Ordinary l)
    (st : Step (backend bl O) s l s') : OneMount mp k s' := by
  cases st with
  | op _ e => exact one.exec ok e
  | rehash h =>
    have e : s'.world = s.world := by rw [h.rest]
    refine one.congr ?_ (e ▸ .refl) fun e => .inl ⟨_, (h.byId.lookup _).symm.trans e⟩
    have p := h.mounts
    rw [UnorderedMap.Reorder, one.mounts] at p
    exact List.perm_singleton.mp p.symm
  | foreignOpen => exact one.congr one.mounts .refl fun e => .inl ⟨_, e⟩
  | registerDevice => exact one.congr one.mounts .refl fun e => .inl ⟨_, e⟩
  | unregisterDevice => exact one.congr one.mounts .refl fun e => .inl ⟨_, e⟩

end OneMount

/-! ### A session -/

/-- Small empty volumes below, and nothing else. -/
abbrev ext : Backend (World × (FsId → Str)) := backend firstFree .accepting

/-- The first partition is mounted at `/a`. -/
def mountedAtA : Pimpl (World × (FsId → Str)) :=
  play ext [.registerFilesystem .ext4, .mount "sdp0".toList "/a".toList [] 0]
    (sample (emptyWorld, fun _ => []))

/-- The sample is reachable. -/
lemma reachable_mountedAtA : Reachable ext mountedAtA := (Reachable.initial initial_sample).play

def mountPointA : MountPoint := ⟨0, ⟨0, 0⟩, "/a".toList, 0, .ext4⟩

/-- It has one mount. -/
lemma oneMount_mountedAtA : OneMount mountPointA 0 mountedAtA where
  mounts := by decide +kernel
  object := ⟨⟨⟨0, 0⟩, "/a".toList⟩, by decide +kernel, rfl⟩
  mounted := by decide +kernel
  name := by decide +kernel
  only {i} := by
    revert i
    decide +kernel
  handles {fd fil} e := by
    have h : mountedAtA.fdContainer.byId.entries = [] := by decide +kernel
    have m := UnorderedMap.mem_entries_iff.mpr e
    rw [h] at m
    cases m

end Pimpl
end Evfs
