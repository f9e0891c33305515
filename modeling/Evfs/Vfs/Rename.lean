import Evfs.Lwext4.Renaming
import Evfs.Vfs.Dispatch
import Evfs.Vfs.OneMount

/-!
# Renaming across mount points

`VirtualFS::rename` against what it owes to its caller: no filesystem is asked to rename a path
below one mounted root to a path below another one, or below none, and no directory of a volume comes
to refer to a file of another volume. The check of `invoke_fops_same_mp` compares `root_path()` of
two absolute paths, which is always `/` (`Pimpl.rename_absolute`), so the call goes to whatever mount
point the first path is dispatched to; from there `ext4_frename` looks for a volume for each of the
two paths by itself.
-/

namespace Evfs
open Lib Lwext4
namespace Pimpl
variable {τ : Type} (bl : BlockLayer) (O : Backend τ)

/-- No method of a filesystem is called. -/
def NoCall (evs : List Event) : Prop := ∀ fs c e, Event.call fs c e ∉ evs

/-- `rename` keeps mounted filesystems apart: `evs` is what it did, `e` what it returned and `w` what
it left of the volumes. -/
structure Apart (s : Pimpl (World × τ)) (a b : AbsPath) (evs : List Event) (e : ErrorCode)
    (w : World) : Prop where
  /-- Two paths with different owning roots are refused. -/
  differ {ra rb} : Path.ownerRoot s.mounts.keys a.norm = some ra →
    Path.ownerRoot s.mounts.keys b.norm = some rb → ra ≠ rb → e = EXDEV ∧ NoCall evs
  /-- A second path that no root owns is refused. -/
  noRoot : Path.ownerRoot s.mounts.keys b.norm = none → e ≠ 0 ∧ NoCall evs
  /-- No call mixes the paths of two roots. -/
  unmixed {fs x y r rx ry} : Event.call fs (.rename x y) r ∈ evs →
    Path.ownerRoot s.mounts.keys x = some rx → Path.ownerRoot s.mounts.keys y = some ry → rx = ry
  /-- No directory comes to refer to a file of another volume. -/
  entries : s.world.1.EntersOwn bl a.norm b.norm w

/-- What `rename` owes in a state. -/
def KeepsApart (s : Pimpl (World × τ)) (a b : AbsPath) : Prop :=
  ∃ evs, (rename (backend bl O) a.val b.val s).2.log = s.log ++ evs ∧
    Apart bl s a b evs (rename (backend bl O) a.val b.val s).1
      (rename (backend bl O) a.val b.val s).2.world.1

/-- The two paths are of one mounted root and of one volume. -/
structure SameRoot (s : Pimpl (World × τ)) (a b : AbsPath) : Prop where
  /-- The owning roots do not differ. -/
  same {ra rb} : Path.ownerRoot s.mounts.keys a.norm = some ra →
    Path.ownerRoot s.mounts.keys b.norm = some rb → ra = rb
  /-- Where the second path has none, the first is dispatched to no mount point or to a read-only
  one. -/
  readOnly {k mp} : Path.ownerRoot s.mounts.keys b.norm = none → FirstMatch s.mounts a.norm k mp →
    mp.flags.test MountFlags.readOnly = true
  /-- Where a `filesystem_lwext4` is asked and would get as far as the new entry, lwext4 takes the two
  paths to one partition. -/
  volume {k mp i j} : FirstMatch s.mounts a.norm k mp → mp.flags.test MountFlags.readOnly = false →
    (s.world.1.objects mp.fs).isSome → s.world.1.writable a.norm = .ok i →
    s.world.1.Linkable bl j a.norm b.norm → (s.world.1.sMp i).bdev = (s.world.1.sMp j).bdev

variable {bl O} {s : Pimpl (World × τ)} {a b : AbsPath}

/-- The three outcomes of `rename` on absolute paths. -/
lemma rename_cases {σ : Type} (B : Backend σ) (s : Pimpl σ) (a b : AbsPath) :
    (findMountPoint s.mounts a.norm = none ∧ rename B a.val b.val s = (ENOENT, s)) ∨
    (∃ mp, findMountPoint s.mounts a.norm = some mp ∧ mp.flags.test MountFlags.readOnly = true ∧
      rename B a.val b.val s = (EACCES, (s.lock mp).unlock mp)) ∨
    (∃ mp, findMountPoint s.mounts a.norm = some mp ∧ mp.flags.test MountFlags.readOnly = false ∧
      rename B a.val b.val s = lockedCall B mp (.rename a.norm b.norm) s) := by
  rw [rename_absolute]
  cases hf : findMountPoint s.mounts a.norm with
  | none => exact .inl ⟨rfl, rfl⟩
  | some mp =>
    cases ro : mp.flags.test MountFlags.readOnly with
    | true => exact .inr (.inl ⟨mp, rfl, ro, by simp only [ro, if_true]⟩)
    | false => exact .inr (.inr ⟨mp, rfl, ro, by simp [ro]⟩)

/-- A refusal with an error other than `EXDEV` keeps the paths apart only where their owning roots
do not differ. -/
lemma keepsApart_refused {e : ErrorCode} {evs : List Event} {s' : Pimpl (World × τ)}
    (hr : rename (backend bl O) a.val b.val s = (e, s')) (hl : s'.log = s.log ++ evs)
    (hw : s'.world = s.world) (nc : NoCall evs) (h0 : e ≠ 0) (hx : e ≠ EXDEV) :
    KeepsApart bl O s a b ↔ ∀ ra rb, Path.ownerRoot s.mounts.keys a.norm = some ra →
      Path.ownerRoot s.mounts.keys b.norm = some rb → ra = rb := by
  unfold KeepsApart
  rw [hr]
  constructor
  · rintro ⟨_, -, apart⟩ ra rb ea eb
    by_contra hne
    exact hx (apart.differ ea eb hne).1
  · intro h
    refine ⟨evs, hl, ?_, fun _ => ⟨h0, nc⟩, fun he => absurd he (nc _ _ _), ?_⟩
    · exact fun ea eb hne => absurd (h _ _ ea eb) hne
    · rw [hw]
      exact fun _ _ _ _ e => .inl e

/-- What a call of the method `rename` does to the volumes. -/
lemma world_rename {mp : MountPoint} :
    (lockedCall (backend bl O) mp (.rename a.norm b.norm) s).2.world.1 =
      if (s.world.1.objects mp.fs).isSome then (s.world.1.ext4Frename bl a.norm b.norm).2
      else s.world.1 := by
  show (callObject bl O mp.fs _ s.world).2.1 = _
  cases ho : s.world.1.objects mp.fs with
  | none => rw [callObject_none ho, if_neg nofun]
  | some o =>
    rw [callObject_some ho]
    exact (if_pos rfl).symm

/-- `rename` keeps mount points apart exactly when it is not asked to cross them, and lwext4 does not
take the two paths to two volumes: the check it makes never fires. -/
theorem keepsApart_iff_sameRoot : KeepsApart bl O s a b ↔ SameRoot bl s a b := by
  rcases rename_cases (backend bl O) s a b with ⟨hf, hr⟩ | ⟨mp, hf, ro, hr⟩ | ⟨mp, hf, ro, hr⟩
  · have hl : s.log = s.log ++ [] := (List.append_nil _).symm
    rw [keepsApart_refused hr hl rfl (by simp [NoCall]) (by decide) (by decide)]
    have no {k mp} (hm : FirstMatch s.mounts a.norm k mp) : False := by
      rw [findMountPoint_eq_some.mpr ⟨k, hm⟩] at hf
      cases hf
    exact ⟨fun h => ⟨h _ _, fun _ hm => (no hm).elim, fun hm => (no hm).elim⟩, fun h _ _ => h.same⟩
  · rw [keepsApart_refused hr log_lock_unlock rfl (by simp [NoCall]) (by decide) (by decide)]
    have found {k mp'} (hm : FirstMatch s.mounts a.norm k mp') :
        mp'.flags.test MountFlags.readOnly = true := by
      rw [findMountPoint_eq_some.mpr ⟨k, hm⟩] at hf
      cases hf
      exact ro
    refine ⟨fun h => ⟨h _ _, fun _ hm => found hm, fun hm hn => ?_⟩, fun h _ _ => h.same⟩
    rw [found hm] at hn
    cases hn
  · obtain ⟨k, hm⟩ := findMountPoint_eq_some.mp hf
    -- the one call is made on the mount point of the old path, whatever the new one is
    have hl : (lockedCall (backend bl O) mp (.rename a.norm b.norm) s).2.log = _ := log_lockedCall
    unfold KeepsApart
    rw [hr, world_rename]
    constructor
    · rintro ⟨evs, he, apart⟩
      have called : ¬ NoCall evs := by
        rw [List.append_cancel_left (he.symm.trans hl)]
        exact fun nc => nc _ _ _ (List.mem_cons_of_mem _ List.mem_cons_self)
      constructor
      · intro ra rb ea eb
        by_contra hne
        exact called (apart.differ ea eb hne).2
      · exact fun eb => absurd (apart.noRoot eb).2 called
      · intro k' mp' i j hm' ro' ho hi hj
        have e := findMountPoint_eq_some.mpr ⟨k', hm'⟩
        obtain rfl : mp' = mp := Option.some.inj (e.symm.trans hf)
        have own := apart.entries
        rw [if_pos ho] at own
        exact World.entersOwn_frename_iff.mp own i j hi hj
    · intro root
      refine ⟨_, hl, ?_, ?_, ?_, ?_⟩
      · exact fun ea eb hne => absurd (root.same ea eb) hne
      · intro eb
        rw [root.readOnly eb hm] at ro
        cases ro
      · intro fs x y r rx ry he ex ey
        simp only [List.mem_cons, List.not_mem_nil, or_false, reduceCtorEq, false_or,
          Event.call.injEq, Call.rename.injEq] at he
        obtain ⟨-, ⟨rfl, rfl⟩, -⟩ := he
        exact root.same ex ey
      · split
        · rename_i ho
          exact World.entersOwn_frename_iff.mpr fun i j hi hj => root.volume hm ro ho hi hj
        · exact fun _ _ _ _ e => .inl e

/-- The two partitions are mounted at `/a` and `/b`. -/
def mountedAtAB : Pimpl (World × (FsId → Str)) :=
  play ext [.mount "sdp1".toList "/b".toList [] 0] mountedAtA

/-- A file is made on the first one. -/
def fileAtAB : Pimpl (World × (FsId → Str)) :=
  play ext [.open "/a/f".toList 0x42 0, .file .close 3] mountedAtAB

/-- `rename("/a/f", "/b/g")` succeeds, and the entry on the volume at `/b` refers to the number that
the file has on the volume at `/a`. -/
theorem not_keepsApart_fileAtAB :
    Reachable ext fileAtAB ∧ (rename ext "/a/f".toList "/b/g".toList fileAtAB).1 = 0 ∧
      (fileAtAB.world.1.volumes ⟨0, 0⟩).findEntry rootIndex "f".toList = some 11 ∧
      ((rename ext "/a/f".toList "/b/g".toList fileAtAB).2.world.1.volumes ⟨0, 1⟩).findEntry
        rootIndex "g".toList = some 11 ∧
      ¬ KeepsApart firstFree .accepting fileAtAB ⟨"/a/f".toList, rfl⟩ ⟨"/b/g".toList, rfl⟩ := by
  have h0 : (rename ext "/a/f".toList "/b/g".toList fileAtAB).1 = 0 := by decide +kernel
  refine ⟨reachable_mountedAtA.play.play, h0, by decide +kernel, by decide +kernel, ?_⟩
  rintro ⟨_, _, apart⟩
  have ha : Path.ownerRoot fileAtAB.mounts.keys (AbsPath.norm ⟨"/a/f".toList, rfl⟩) =
      some "/a".toList := by decide +kernel
  have hb : Path.ownerRoot fileAtAB.mounts.keys (AbsPath.norm ⟨"/b/g".toList, rfl⟩) =
      some "/b".toList := by decide +kernel
  have hx := (apart.differ ha hb (by decide)).1
  rw [h0] at hx
  cases hx

end Pimpl
end Evfs
