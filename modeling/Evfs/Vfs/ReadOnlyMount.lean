import Evfs.Common.VfsCalls
import Evfs.Fstypes.ReadOnly
import Evfs.Vfs.Dispatch
import Evfs.Vfs.OneMount

/-!
# A read-only mount

`Untouched` is what a mount with `MountFlags::read_only` owes: no step changes its volume, and every
operation that is to change something at a path that the root of the mount owns, in a file of the
mount or in its volume fails. `Missed` are the operations that no check stops: `open` of a file that
is there, to truncate it or, by way of another mount point, to write to it; `unlink` of an open path;
a `rename` into the volume from another one; and an operation that is taken to another filesystem. In
a run without these the mount keeps what it owes, whatever else is mounted.
-/

namespace Evfs
open Lib Lwext4
namespace Pimpl
variable {τ : Type}

/-- A mount point with `MountFlags::read_only`, the volume of which is in the read-only slot `k` of
lwext4, and in no other. -/
structure ReadOnlyMount (mp : MountPoint) (k : Fin 4) (s : Pimpl (World × τ)) : Prop where
  lookup : s.mounts.lookup mp.root = some mp
  flag : mp.flags.test MountFlags.readOnly = true
  object : ∃ o, s.world.1.objects mp.fs = some o ∧ o.root = mp.root
  mounted : (s.world.1.sMp k).mounted = true
  name : (s.world.1.sMp k).name = toNativeRoot mp.root
  readOnly : (s.world.1.sMp k).readOnly = true
  alone {i} : (s.world.1.sMp i).mounted = true →
    (s.world.1.sMp i).bdev = (s.world.1.sMp k).bdev → i = k

/-- The root of the mount owns the path. -/
def OwnedBy (mp : MountPoint) (s : Pimpl (World × τ)) (path : Str) : Prop :=
  Path.hasRootPath path = true ∧
    Path.ownerRoot s.mounts.keys (Path.lexicallyNormal path) = some mp.root

/-- A call on a `filesystem_lwext4` at a mount point is one on slot `k`. -/
def InSlot (k : Fin 4) (s : Pimpl (World × τ)) (mp' : MountPoint) (slot : Option (Fin 4)) : Prop :=
  (s.world.1.objects mp'.fs).isSome ∧ slot = some k

/-- A call on a mount point is one on another kind of filesystem, or on a slot that is not `k`. -/
def OffSlot (k : Fin 4) (s : Pimpl (World × τ)) (mp' : MountPoint) (slot : Option (Fin 4)) : Prop :=
  s.world.1.objects mp'.fs = none ∨ ∃ j, j ≠ k ∧ slot = some j

/-- What an operation is to change at a path is of the mount: its root owns the path, or the operation
is dispatched to a `filesystem_lwext4` and the path is in slot `k`. -/
def OfMount (mp : MountPoint) (k : Fin 4) (s : Pimpl (World × τ)) (abspath p : Str) : Prop :=
  OwnedBy mp s p ∨
    ∃ mp', findMountPoint s.mounts abspath = some mp' ∧ InSlot k s mp' (s.world.1.getMount p)

/-- The file of a descriptor is of the mount: it was opened there or by a path that its root owns. -/
def OwnedFile (mp : MountPoint) (s : Pimpl (World × τ)) (fil : FileHandle) : Prop :=
  fil.root = mp.root ∨ OwnedBy mp s fil.abspath

/-- What an operation is to change by a descriptor is of the mount. -/
def FdOfMount (mp : MountPoint) (k : Fin 4) (s : Pimpl (World × τ)) (fil : FileHandle)
    (slot : Option (Fin 4)) : Prop :=
  OwnedFile mp s fil ∨ ∃ mp', s.mounts.lookup fil.root = some mp' ∧ InSlot k s mp' slot

/-- The operations that are to change the mounted filesystem. -/
inductive Modifies (mp : MountPoint) (k : Fin 4) (s : Pimpl (World × τ)) : Action → Prop where
  | open {path flags mode abspath} : absolutePath path = .ok abspath →
    OfMount mp k s abspath abspath → (wantsWrite flags || creat flags || trunc flags) = true →
    Modifies mp k s (.open path flags mode)
  | write {data fd fil} : fd ≠ 1 → fd ≠ 2 → s.fdContainer.byId.lookup fd = some fil →
    FdOfMount mp k s fil (s.world.1.files fil.raw).mp → Modifies mp k s (.file (.write data) fd)
  | ftruncate {len fd fil} : s.fdContainer.byId.lookup fd = some fil →
    FdOfMount mp k s fil (s.world.1.files fil.raw).mp → Modifies mp k s (.file (.ftruncate len) fd)
  | fchmod {mode fd fil} : s.fdContainer.byId.lookup fd = some fil →
    FdOfMount mp k s fil (s.world.1.getMount fil.abspath) → Modifies mp k s (.file (.fchmod mode) fd)
  | path {op path abspath p} : absolutePath path = .ok abspath → p ∈ op.targets abspath →
    OfMount mp k s abspath p → Modifies mp k s (.path op path)
  | rename {old new abspath abspath2 p} : absolutePath old = .ok abspath →
    absolutePath new = .ok abspath2 → p = abspath ∨ p = abspath2 → OfMount mp k s abspath p →
    Modifies mp k s (.rename old new)

/-- What a mount that is read-only is owed by a step. -/
structure Untouched (mp : MountPoint) (k : Fin 4) (s : Pimpl (World × τ)) (l : Label)
    (s' : Pimpl (World × τ)) : Prop where
  volume : s'.world.1.volume k = s.world.1.volume k
  refused {a r} : l = .op a r → Modifies mp k s a → ∃ e, r = .error e

variable (bl : BlockLayer)

/-- The operations that no check stops. -/
inductive Missed (mp : MountPoint) (k : Fin 4) (s : Pimpl (World × τ)) : Action → Prop where
  /-- A file is there, and not to be created, and the mount point asked is not read-only for it. -/
  | open {path flags mode abspath mp' f} : absolutePath path = .ok abspath →
    findMountPoint s.mounts abspath = some mp' → (s.world.1.objects mp'.fs).isSome →
    s.world.1.lookup bl (some .regFile) abspath = .ok (k, f) → creat flags = false →
    (wantsWrite flags || trunc flags) = true →
    ¬ (wantsWrite flags && mp'.flags.test MountFlags.readOnly) = true →
    Missed mp k s (.open path flags mode)
  /-- The path is marked, and nobody is asked. -/
  | unlink {path abspath} : path ∈ s.fdContainer.byPath → absolutePath path = .ok abspath →
    OfMount mp k s abspath abspath → Missed mp k s (.path .unlink path)
  /-- The new path is not looked at. -/
  | rename {old new abspath abspath2 mp'} : absolutePath old = .ok abspath →
    absolutePath new = .ok abspath2 → findMountPoint s.mounts abspath = some mp' →
    (s.world.1.objects mp'.fs).isSome → ¬ mp'.flags.test MountFlags.readOnly = true →
    s.world.1.Linkable bl k abspath abspath2 → Missed mp k s (.rename old new)
  /-- A path of the mount is taken elsewhere. -/
  | openOff {path flags mode abspath mp'} : absolutePath path = .ok abspath →
    OwnedBy mp s abspath → findMountPoint s.mounts abspath = some mp' →
    OffSlot k s mp' (s.world.1.getMount abspath) →
    (wantsWrite flags || creat flags || trunc flags) = true →
    ¬ (wantsWrite flags && mp'.flags.test MountFlags.readOnly) = true →
    Missed mp k s (.open path flags mode)
  | pathOff {op path abspath p mp'} : absolutePath path = .ok abspath → p ∈ op.targets abspath →
    OwnedBy mp s p → findMountPoint s.mounts abspath = some mp' →
    OffSlot k s mp' (s.world.1.getMount p) → Missed mp k s (.path op path)
  | renameOff {old new abspath abspath2 p mp'} : absolutePath old = .ok abspath →
    absolutePath new = .ok abspath2 → p = abspath ∨ p = abspath2 → OwnedBy mp s p →
    findMountPoint s.mounts abspath = some mp' → ¬ mp'.flags.test MountFlags.readOnly = true →
    OffSlot k s mp' (s.world.1.getMount p) → Missed mp k s (.rename old new)
  /-- A file of the mount is elsewhere. -/
  | fileOff {op fd fil mp'} : Modifies mp k s (.file op fd) →
    s.fdContainer.byId.lookup fd = some fil → OwnedFile mp s fil →
    s.mounts.lookup fil.root = some mp' →
    OffSlot k s mp' (match op with
      | .fchmod _ => s.world.1.getMount fil.abspath
      | _ => (s.world.1.files fil.raw).mp) →
    Missed mp k s (.file op fd)

/-- A step of a session in which the checks miss nothing. -/
def Checked (mp : MountPoint) (k : Fin 4) (s : Pimpl (World × τ)) : Label → Prop
  | .op a _ => mounting a = false ∧ ¬ Missed bl mp k s a
  | _ => True

variable {bl} {O : Backend τ} {s s₀ s' : Pimpl (World × τ)} {mp mp' : MountPoint} {k : Fin 4}

/-- An error code is an error. -/
lemma reply_ne {e : ErrorCode} (h : e ≠ 0) : ∃ e', reply e = .error e' := by
  rw [reply, if_neg h]
  exact ⟨e, rfl⟩

/-! ### Where a call goes -/

/-- What is of the mount and not taken elsewhere is in the slot, if it is anywhere. -/
lemma slot_eq {slot : Option (Fin 4)} {owned : Prop} (h : owned ∨ InSlot k s mp' slot)
    (on : owned → ¬ OffSlot k s mp' slot) :
    (s.world.1.objects mp'.fs).isSome ∧ ∀ i, slot = some i → i = k := by
  rcases h with ho | ⟨hs, e⟩
  · have no := not_or.mp (on ho)
    refine ⟨Option.isSome_iff_ne_none.mpr no.1, fun i hi => ?_⟩
    by_contra ne
    exact no.2 ⟨i, ne, hi⟩
  · refine ⟨hs, fun i hi => ?_⟩
    rw [e] at hi
    exact (Option.some.inj hi).symm

/-- A path of the mount, at the mount point that the operation is dispatched to. -/
lemma OfMount.found {abspath p : Str} (h : OfMount mp k s abspath p)
    (hm : findMountPoint s.mounts abspath = some mp') :
    OwnedBy mp s p ∨ InSlot k s mp' (s.world.1.getMount p) := by
  refine h.imp_right fun ⟨mp₁, hm₁, hs⟩ => ?_
  cases hm.symm.trans hm₁
  exact hs

/-- A file of the mount, at the mount point that the operation is dispatched to. -/
lemma FdOfMount.found {fil : FileHandle} {slot : Option (Fin 4)} (h : FdOfMount mp k s fil slot)
    (hm : s.mounts.lookup fil.root = some mp') : OwnedFile mp s fil ∨ InSlot k s mp' slot := by
  refine h.imp_right fun ⟨mp₁, hm₁, hs⟩ => ?_
  cases hm.symm.trans hm₁
  exact hs

/-- A path that is in the slot of a read-only mount, if it is in any, is closed. -/
lemma ReadOnlyMount.closed (ro : ReadOnlyMount mp k s) {p : Str}
    (h : ∀ i, s.world.1.getMount p = some i → i = k) : s.world.1.Closed p := by
  intro i hi
  rw [h i hi]
  exact ro.readOnly

/-- A file that is in the slot of a read-only mount, if it is in any, is closed. -/
lemma ReadOnlyMount.closedFile (ro : ReadOnlyMount mp k s) {raw : Nat}
    (h : ∀ i, (s.world.1.files raw).mp = some i → i = k) : s.world.1.ClosedFile raw := by
  intro i hi
  rw [h i hi]
  exact ro.readOnly

/-! ### What is refused -/

/-- An `open` for writing, creating or truncating fails. -/
lemma refused_open {path : Str} {flags : Flags} {mode : Int} {r : Reply}
    (ro : ReadOnlyMount mp k s) (m : Modifies mp k s (.open path flags mode))
    (ok : ¬ Missed bl mp k s (.open path flags mode))
    (h : Pimpl.open (backend bl O) path flags mode s = (r, s')) : ∃ e, r = .error e := by
  cases r with
  | error e => exact ⟨e, rfl⟩
  | ok fd =>
    cases m with
    | «open» ha' of hf =>
      obtain ⟨abspath, mp', handle, ha, hm, hr, hc, -⟩ := open_ok h
      cases ha.symm.trans ha'
      obtain ⟨lw, hk⟩ := slot_eq (of.found hm) fun owned off => ok (.openOff ha owned hm off hf hr)
      obtain ⟨o, e⟩ := call_lwext4 lw bl O
      rw [e] at hc
      obtain ⟨g, hg⟩ := FilesystemLwext4.open_fopen2 hc
      obtain ⟨i, -, -, hi, -⟩ := World.fopen2_ok hg
      cases hk i hi
      obtain ⟨f, hl, hcr⟩ := FilesystemLwext4.open_readOnly hi ro.readOnly hc
      rw [hcr, Bool.or_false] at hf
      exact absurd (.open ha hm lw hl hcr hf hr) ok

/-- An operation that is to change something at a path fails. -/
lemma refused_path {op : PathOp} {path : Str} (ro : ReadOnlyMount mp k s)
    (m : Modifies mp k s (.path op path)) (ok : ¬ Missed bl mp k s (.path op path)) :
    op.code (pathOp (backend bl O) op path s).1 ≠ 0 := by
  cases m with
  | @path _ _ abspath p ha hp of =>
    have called : pathOp (backend bl O) op path s = invokeFopsPath (backend bl O) op path s := by
      cases op with
      | unlink =>
        obtain rfl := List.mem_singleton.mp hp
        have hn : path ∉ s.fdContainer.byPath := fun h => ok (.unlink h ha of)
        simp only [pathOp, unlink, if_neg hn]
      | _ => rfl
    obtain ⟨hr, rfl⟩ := absolutePath_ok ha
    let q : AbsPath := ⟨path, hr⟩
    rw [called]
    cases hm : findMountPoint s.mounts (Path.lexicallyNormal path) with
    | none =>
      rw [invokeFopsPath_none op (p := q) hm, PathOp.code_terror]
      exact (by decide : ENOENT ≠ 0)
    | some mp' =>
      obtain ⟨lw, hk⟩ := slot_eq (of.found hm) fun owned off => ok (.pathOff ha hp owned hm off)
      obtain ⟨o, e⟩ := call_lwext4 lw bl O
      rw [invokeFopsPath_found op (p := q) hm]
      show op.code ((backend bl O).call _ (.path op _) s.world).1 ≠ 0
      rw [e]
      exact FilesystemLwext4.callPath_closed hp (ro.closed hk)

/-- A `rename` from or to a path of the mount fails. -/
lemma refused_rename {old new : Str} (ro : ReadOnlyMount mp k s)
    (m : Modifies mp k s (.rename old new)) (ok : ¬ Missed bl mp k s (.rename old new)) :
    (rename (backend bl O) old new s).1 ≠ 0 := by
  intro h0
  obtain ⟨abspath, abspath2, mp', ha, ha2, hm, hr, hc, -⟩ := rename_ok (Prod.ext h0 rfl)
  cases m with
  | @rename _ _ _ _ p ha' ha2' hp of =>
    cases ha.symm.trans ha'
    cases ha2.symm.trans ha2'
    obtain ⟨lw, hk⟩ := slot_eq (of.found hm) fun owned off =>
      ok (.renameOff ha ha2 hp owned hm hr off)
    obtain ⟨o, e⟩ := call_lwext4 lw bl O
    rw [e] at hc
    change (s.world.1.ext4Frename bl abspath abspath2).1 = 0 at hc
    rcases hp with rfl | rfl
    · exact (ro.closed hk).frename hc
    · have no : ∀ j, ¬ s.world.1.Linkable bl j abspath p := fun j hl => by
        obtain ⟨_, _, _, _, -, -, hj, -⟩ := id hl
        cases hk j hj
        exact ok (.rename ha ha2 hm lw hr hl)
      obtain ⟨e', he, hw⟩ := World.frename_not_linkable no
      rw [hw] at hc
      exact he hc

/-- A method call by a descriptor. -/
lemma fileOp_found {op : FdOp} {fd : Int} {fil : FileHandle} {r : op.Ret}
    (hf : s.fdContainer.byId.lookup fd = some fil)
    (h : invokeFopsFd (backend bl O) op fd s = .ok (r, s')) :
    ∃ mp', s.mounts.lookup fil.root = some mp' ∧
      r = ((backend bl O).call mp'.fs (.file op fil) s.world).1 := by
  unfold invokeFopsFd at h
  simp only [hf] at h
  split at h
  · cases h
  · rename_i mp' hm
    exact ⟨mp', hm, (congrArg Prod.fst (Except.ok.inj h)).symm⟩

/-- An operation that is to change a file of the mount fails. -/
lemma refused_file {op : FdOp} {fd : Int} {r : op.Ret} (ro : ReadOnlyMount mp k s)
    (m : Modifies mp k s (.file op fd)) (ok : ¬ Missed bl mp k s (.file op fd))
    (h : fileOp (backend bl O) op fd s = .ok (r, s')) : op.code r ≠ 0 := by
  cases id m with
  | @write data _ fil h1 h2 hf of =>
    simp only [fileOp, write, invokeStdstreamOut, if_neg h1, if_neg h2] at h
    obtain ⟨mp', hm, hr⟩ := fileOp_found hf h
    obtain ⟨lw, hk⟩ := slot_eq (of.found hm) fun owned off => ok (.fileOff m hf owned hm off)
    obtain ⟨o, e⟩ := call_lwext4 lw bl O
    obtain ⟨e', he, hw⟩ := FilesystemLwext4.fwrite_closed bl (ro.closedFile hk)
    have hr : r = .error e' := (hr.trans (e (.file (.write data) fil))).trans hw
    rw [hr]
    exact he
  | @ftruncate len _ fil hf of =>
    obtain ⟨mp', hm, hr⟩ := fileOp_found hf h
    obtain ⟨lw, hk⟩ := slot_eq (of.found hm) fun owned off => ok (.fileOff m hf owned hm off)
    obtain ⟨o, e⟩ := call_lwext4 lw bl O
    rw [hr, e]
    exact FilesystemLwext4.ftruncate_closed (ro.closedFile hk)
  | @fchmod mode _ fil hf of =>
    obtain ⟨mp', hm, hr⟩ := fileOp_found hf h
    obtain ⟨lw, hk⟩ := slot_eq (of.found hm) fun owned off => ok (.fileOff m hf owned hm off)
    obtain ⟨o, e⟩ := call_lwext4 lw bl O
    rw [hr, e]
    exact FilesystemLwext4.chmod_closed (ro.closed hk)

/-- An operation that is to change the mounted filesystem fails, unless the checks miss it. -/
lemma refused {a : Action} {r : Reply} (ro : ReadOnlyMount mp k s) (m : Modifies mp k s a)
    (ok : ¬ Missed bl mp k s a) (h : exec (backend bl O) a s = .ok (r, s')) : ∃ e, r = .error e := by
  cases a with
  | «open» path flags mode => exact refused_open ro m ok (Except.ok.inj h)
  | path op path =>
    cases h
    exact reply_ne (refused_path ro m ok)
  | rename old new =>
    cases h
    exact reply_ne (refused_rename ro m ok)
  | file op fd =>
    obtain ⟨⟨r', s₁⟩, h', e⟩ := map_ok h
    cases e
    exact reply_ne (refused_file ro m ok h')
  | _ => cases m

/-! ### What is left alone -/

/-- The slots in use but the one that is read-only. -/
def Elsewhere (k : Fin 4) (s : Pimpl (World × τ)) (i : Fin 4) : Prop :=
  (s.world.1.sMp i).mounted = true ∧ i ≠ k

/-- What may be written to is elsewhere. -/
lemma ReadOnlyMount.elsewhere (ro : ReadOnlyMount mp k s) {w : World}
    (t : Confined (Elsewhere k s) s.world.1 w) {i : Fin 4} (m : w.MayWrite i) :
    Elsewhere k s i := by
  rw [World.MayWrite, t.sMp] at m
  refine ⟨m.1, fun e => ?_⟩
  rw [e, ro.readOnly] at m
  cases m.2

/-- A call of an operation that the checks do not miss reaches other volumes only. -/
lemma ReadOnlyMount.confined_call (ro : ReadOnlyMount mp k s) {a : Action} {fs : FsId} {c : Call}
    {w : World × τ} (ok : ¬ Missed bl mp k s a) (m : Makes (backend bl O) s a fs c w)
    (t : Confined (Elsewhere k s) s.world.1 w.1) :
    Confined (Elsewhere k s) w.1 ((backend bl O).call fs c w).2.1 := by
  show Confined _ w.1 (callObject bl O fs c w).2.1
  cases ho : w.1.objects fs with
  | none =>
    rw [callObject_none ho]
    exact .refl
  | some o =>
    rw [callObject_some ho]
    have reached : (s.world.1.objects fs).isSome := by
      rw [← t.objects, ho]
      rfl
    have hP : ∀ i, w.1.MayWrite i → Elsewhere k s i := fun i => ro.elsewhere t
    cases m with
    | statVfs => exact FilesystemLwext4.confined_callPath hP
    | @«open» path flags mode abspath mp' ha hm hr =>
      -- on the read-only slot an `open` that truncates would be one the checks miss
      cases hk : decide (s.world.1.getMount abspath = some k) with
      | true =>
        apply FilesystemLwext4.confined_open_readOnly (of_decide_eq_true hk) ro.readOnly
        intro f hl hc
        cases ht : trunc flags with
        | false => rfl
        | true =>
          have hf : (wantsWrite flags || trunc flags) = true := by rw [ht, Bool.or_true]
          exact absurd (.open ha hm reached hl hc hf hr) ok
      | false =>
        apply FilesystemLwext4.confined_open
        intro i hi
        refine ⟨World.mounted_of_getMount hi, fun e => of_decide_eq_false hk ?_⟩
        rw [hi, e]
    | file => exact FilesystemLwext4.confined_callFile hP
    | closed => exact FilesystemLwext4.confined_callPath hP
    | path => exact FilesystemLwext4.confined_callPath hP
    | @rename old new abspath abspath2 mp' ha ha2 hm hr =>
      apply FilesystemLwext4.confined_rename_readOnly ro.readOnly fun i hi ne => ⟨hi, ne⟩
      exact fun hl => ok (.rename ha ha2 hm reached hr hl)
    | diropen => exact FilesystemLwext4.confined_diropen
    | dir => exact FilesystemLwext4.confined_callDir

/-- An operation that the checks do not miss changes other volumes only. -/
lemma ReadOnlyMount.confined_exec (ro : ReadOnlyMount mp k s) {a : Action} {r : Reply}
    (ha : mounting a = false) (ok : ¬ Missed bl mp k s a)
    (h : exec (backend bl O) a s = .ok (r, s')) :
    Confined (Elsewhere k s) s.world.1 s'.world.1 := by
  apply (exec_drives ha h).invariant (I := fun w => Confined (Elsewhere k s) s.world.1 w.1)
  · intro fs c w m t
    exact t.trans (ro.confined_call ok m t)
  · exact fun t => t
  · exact .refl

/-- A change elsewhere leaves the volume alone. -/
lemma ReadOnlyMount.volume (ro : ReadOnlyMount mp k s)
    (t : Confined (Elsewhere k s) s.world.1 s'.world.1) :
    s'.world.1.volume k = s.world.1.volume k :=
  t.volume fun _ hi e => hi.2 (ro.alone hi.1 e)

/-- The mount stays read-only while it is in the table. -/
lemma ReadOnlyMount.congr (ro : ReadOnlyMount mp k s) {P : Fin 4 → Prop}
    (hm : s'.mounts.lookup mp.root = s.mounts.lookup mp.root)
    (t : Confined P s.world.1 s'.world.1) : ReadOnlyMount mp k s' where
  lookup := hm.trans ro.lookup
  flag := ro.flag
  object := by rw [t.objects]; exact ro.object
  mounted := by rw [t.sMp]; exact ro.mounted
  name := by rw [t.sMp]; exact ro.name
  readOnly := by rw [t.sMp]; exact ro.readOnly
  alone h e := by
    rw [t.sMp] at h e
    exact ro.alone h e

/-- A step in which the checks miss nothing keeps the mount, and gives it what it is owed. -/
lemma ReadOnlyMount.step (ro : ReadOnlyMount mp k s) {l : Label} (ok : Checked bl mp k s l)
    (st : Step (backend bl O) s l s') : ReadOnlyMount mp k s' ∧ Untouched mp k s l s' := by
  cases st with
  | op _ e =>
    have t := ro.confined_exec ok.1 ok.2 e
    refine ⟨ro.congr (by rw [mounts_exec ok.1 e]) t, ro.volume t, fun hl m => ?_⟩
    cases hl
    exact refused ro m ok.2 e
  | rehash h =>
    have hw : s'.world = s.world := by rw [h.rest]
    exact ⟨ro.congr (P := Elsewhere k s) (h.lookup_mounts _) (hw ▸ .refl), by rw [hw], nofun⟩
  | foreignOpen => exact ⟨ro.congr (P := Elsewhere k s) rfl .refl, rfl, nofun⟩
  | registerDevice => exact ⟨ro.congr (P := Elsewhere k s) rfl .refl, rfl, nofun⟩
  | unregisterDevice => exact ⟨ro.congr (P := Elsewhere k s) rfl .refl, rfl, nofun⟩

/-- In every session in which the checks miss nothing, the volume is what it was and every
operation that is to change it fails. -/
theorem read_only (ro : ReadOnlyMount mp k s₀)
    (run : Runs (Step (backend bl O)) (Checked bl mp k) s₀ s) :
    s.world.1.volume k = s₀.world.1.volume k ∧
      ∀ {l s'}, Checked bl mp k s l → Step (backend bl O) s l s' → Untouched mp k s l s' := by
  have inv : ReadOnlyMount mp k s ∧ s.world.1.volume k = s₀.world.1.volume k := by
    refine run.invariant (I := fun s => ReadOnlyMount mp k s ∧
      s.world.1.volume k = s₀.world.1.volume k) (fun inv ok st => ?_) ⟨ro, rfl⟩
    obtain ⟨ro', u⟩ := inv.1.step ok st
    exact ⟨ro', u.volume.trans inv.2⟩
  exact ⟨inv.2, fun ok st => (inv.1.step ok st).2⟩

/-- A file is written on the first partition, which is then mounted for reading. -/
def readOnlyAtA : Pimpl (World × (FsId → Str)) :=
  play ext [.open "/a/f".toList 0x42 0, .file (.write [1]) 3, .file .close 3, .umount "/a".toList,
    .mount "sdp0".toList "/a".toList [] 1] mountedAtA

def readOnlyMountPointA : MountPoint := ⟨1, ⟨0, 0⟩, "/a".toList, 1, .ext4⟩

/-- The sample is mounted read-only. -/
lemma readOnlyMount_readOnlyAtA : ReadOnlyMount readOnlyMountPointA 0 readOnlyAtA where
  lookup := by decide +kernel
  flag := by decide
  object := ⟨⟨⟨0, 0⟩, "/a".toList⟩, by decide +kernel, rfl⟩
  mounted := by decide +kernel
  name := by decide +kernel
  readOnly := by decide +kernel
  alone {i} := by
    revert i
    decide +kernel

/-- The file is open for reading. -/
def readingF : Pimpl (World × (FsId → Str)) := play ext [.open "/a/f".toList 0 0] readOnlyAtA

/-- A write to a file of it is refused. -/
theorem read_only_readingF :
    readingF.world.1.volume 0 = readOnlyAtA.world.1.volume 0 ∧
      Untouched readOnlyMountPointA 0 readingF (.op (.file (.write [2]) 4) (.error EROFS))
        (play ext [.file (.write [2]) 4] readingF) := by
  have run : Runs (Step ext) (Checked firstFree readOnlyMountPointA 0) readOnlyAtA readingF := by
    refine runs_play fun a ha s r => ?_
    cases List.mem_singleton.mp ha
    refine ⟨rfl, fun m => ?_⟩
    cases m with
    | «open» _ _ _ _ _ hf => cases hf
    | openOff _ _ _ _ hf => cases hf
  have kept := read_only readOnlyMount_readOnlyAtA run
  refine ⟨kept.1, kept.2 ⟨rfl, fun m => ?_⟩ (.op (by decide) ?_)⟩
  · cases m with
    | @fileOff _ _ fil mp' _ hf _ hm off =>
      -- the file is in the slot of the mount
      have hr : fil = ⟨1, "/a".toList, "/a/f".toList, 1⟩ :=
        Option.some.inj (hf.symm.trans (by decide +kernel))
      subst hr
      have hmp : mp' = readOnlyMountPointA :=
        Option.some.inj (hm.symm.trans (by decide +kernel))
      subst hmp
      rcases off with hn | ⟨j, hj, e⟩
      · have ho : (readingF.world.1.objects readOnlyMountPointA.fs).isSome = true := by
          decide +kernel
        rw [hn] at ho
        cases ho
      · have e' : (readingF.world.1.files 1).mp = some 0 := by decide +kernel
        exact hj (Option.some.inj (e.symm.trans e'))
  · exact exec_play (by decide) (by decide +kernel)

/-- `open("/a/f", O_RDONLY | O_TRUNC)` succeeds and empties the file. -/
theorem not_untouched_readOnlyAtA :
    Reachable ext readOnlyAtA ∧ ReadOnlyMount readOnlyMountPointA 0 readOnlyAtA ∧
      ∃ s', Step ext readOnlyAtA (.op (.open "/a/f".toList 0x200 0) (.ok 4)) s' ∧
        ((readOnlyAtA.world.1.volume 0).inodes 11).data = [1] ∧
        ((s'.world.1.volume 0).inodes 11).data = [] ∧
        ¬ Untouched readOnlyMountPointA 0 readOnlyAtA
          (.op (.open "/a/f".toList 0x200 0) (.ok 4)) s' := by
  have h : ((readOnlyAtA.world.1.volume 0).inodes 11).data = [1] := by decide +kernel
  have h' : (((play ext [.open "/a/f".toList 0x200 0] readOnlyAtA).world.1.volume 0).inodes 11).data
      = [] := by decide +kernel
  have e : exec ext (.open "/a/f".toList 0x200 0) readOnlyAtA =
      .ok (.ok 4, play ext [.open "/a/f".toList 0x200 0] readOnlyAtA) :=
    exec_play (by decide) (by decide +kernel)
  refine ⟨reachable_mountedAtA.play, readOnlyMount_readOnlyAtA, _, .op (by decide) e, h, h', ?_⟩
  intro u
  rw [u.volume, h] at h'
  cases h'

end Pimpl
end Evfs
