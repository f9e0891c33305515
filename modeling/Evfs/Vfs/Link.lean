import Evfs.Lwext4.Linking
import Evfs.Vfs.Rename

/-!
# Links

`VirtualFS::link` and `VirtualFS::symlink` against what they owe: the filesystem gets two normalized
paths that one mounted root owns, and no entry is made in a filesystem the lock of which is not held.
The second path goes through `invoke_fops` as it was passed, and the first one to the mount point that
`find_mount_point` gives; `linkRight_iff` says where that is good enough.
-/

namespace Evfs
open Lib Lwext4

/-- The mount point at the root that owns a path. -/
def Owned (mounts : UnorderedMap Str MountPoint) (path : Str) (mp : MountPoint) : Prop :=
  Path.hasRootPath path = true ∧
    ∃ root, Path.ownerRoot mounts.keys (Path.lexicallyNormal path) = some root ∧
      mounts.lookup root = some mp

/-- A path has one owner. -/
lemma Owned.unique {mounts : UnorderedMap Str MountPoint} {path : Str} {mp mp' : MountPoint}
    (h : Owned mounts path mp) (h' : Owned mounts path mp') : mp = mp' := by
  obtain ⟨-, root, hr, hl⟩ := h
  obtain ⟨-, root', hr', hl'⟩ := h'
  cases hr.symm.trans hr'
  exact Option.some.inj (hl.symm.trans hl')

/-- The normal form of a path has the same owner. -/
lemma owned_norm {mounts : UnorderedMap Str MountPoint} {path : Str} {mp : MountPoint}
    (h : Path.hasRootPath path = true) :
    Owned mounts (Path.lexicallyNormal path) mp ↔ Owned mounts path mp := by
  unfold Owned
  rw [Path.lexicallyNormal_idem h]
  exact and_congr_left fun _ => ⟨fun _ => h, fun _ => Path.hasRootPath_lexicallyNormal h⟩

/-- `link` and `symlink`, which hand on what they are given in the same way. -/
def linkOp (symbolic : Bool) (newlink : Str) : PathOp :=
  if symbolic then .symlink newlink else .link newlink

namespace Pimpl
variable {τ : Type} (bl : BlockLayer) (O : Backend τ)

/-- `link` and `symlink` stay in one filesystem: `evs` is what they did, `e` what they returned and
`w` what they left of the volumes. -/
structure LinkConfined (s : Pimpl (World × τ)) (symbolic : Bool) (existing newlink : Str)
    (evs : List Event) (e : ErrorCode) (w : World) : Prop where
  /-- A call gets two normalized paths, both of the mount point whose lock is held. -/
  passed {fs c r} : Event.call fs c r ∈ evs → evs = [.lock fs, .call fs c r, .unlock fs] ∧
    ∃ mp p n, c = .path (linkOp symbolic n) p ∧ fs = mp.fs ∧ Owned s.mounts p mp ∧
      Owned s.mounts n mp ∧ Path.lexicallyNormal p = p ∧ Path.lexicallyNormal n = n
  /-- Two paths that are not of one mount point are refused. -/
  refused : (¬ ∃ mp, Owned s.mounts existing mp ∧ Owned s.mounts newlink mp) → e ≠ 0 ∧ NoCall evs
  /-- An entry is made on the partition of a filesystem whose lock is held. -/
  locked {p} : (s.world.1.volumes p).Gains (w.volumes p) →
    ∃ fs o, .lock fs ∈ evs ∧ s.world.1.objects fs = some o ∧ o.blockdev = p

/-- What `link` and `symlink` owe in a state. -/
def LinkRight (s : Pimpl (World × τ)) (symbolic : Bool) (existing newlink : Str) : Prop :=
  ∃ evs, (pathOp (backend bl O) (linkOp symbolic newlink) existing s).2.log = s.log ++ evs ∧
    LinkConfined s symbolic existing newlink evs
      ((linkOp symbolic newlink).code
        (pathOp (backend bl O) (linkOp symbolic newlink) existing s).1)
      (pathOp (backend bl O) (linkOp symbolic newlink) existing s).2.world.1

/-- The two paths are of the mount point that the first one is dispatched to, the second one is
normal, and lwext4 makes no entry but on the partition of that mount point. -/
structure LinkAlike (s : Pimpl (World × τ)) (symbolic : Bool) (existing newlink : Str)
    (mp : MountPoint) : Prop where
  owned : ∃ mp', Owned s.mounts existing mp' ∧ Owned s.mounts newlink mp' ∧ mp'.fs = mp.fs
  normal : Path.lexicallyNormal newlink = newlink
  volume {o i} : s.world.1.objects mp.fs = some o →
    s.world.1.LinkMade bl symbolic (Path.lexicallyNormal existing) newlink i →
    (s.world.1.sMp i).bdev = o.blockdev

variable {bl O} {s : Pimpl (World × τ)} {existing newlink : Str} {symbolic : Bool}

/-- The two outcomes of an operation on a path. -/
lemma invokeFopsPath_cases {σ : Type} (B : Backend σ) (s : Pimpl σ) (op : PathOp) (path : Str) :
    (∃ k mp, Path.hasRootPath path = true ∧
      FirstMatch s.mounts (Path.lexicallyNormal path) k mp ∧
      invokeFopsPath B op path s = lockedCall B mp (.path op (Path.lexicallyNormal path)) s) ∨
    (∀ k mp, Path.hasRootPath path = true →
      ¬ FirstMatch s.mounts (Path.lexicallyNormal path) k mp) ∧
      ∃ e, e ≠ 0 ∧ invokeFopsPath B op path s = (op.terror e, s) := by
  cases hr : Path.hasRootPath path with
  | false =>
    refine .inr ⟨nofun, ?_⟩
    cases path with
    | nil => exact ⟨ENOENT, by decide, rfl⟩
    | cons c p =>
      refine ⟨EINVAL, by decide, ?_⟩
      simp only [invokeFopsPath, absolutePath, hr, reduceCtorEq, if_false, Bool.false_eq_true]
  | true =>
    let p : AbsPath := ⟨path, hr⟩
    cases hf : findMountPoint s.mounts (Path.lexicallyNormal path) with
    | none =>
      refine .inr ⟨fun k mp _ hm => ?_, ENOENT, by decide, invokeFopsPath_none op (p := p) hf⟩
      rw [findMountPoint_eq_some.mpr ⟨k, hm⟩] at hf
      cases hf
    | some mp =>
      obtain ⟨k, hm⟩ := findMountPoint_eq_some.mp hf
      exact .inl ⟨k, mp, rfl, hm, invokeFopsPath_found op (p := p) hf⟩

/-- Links are path operations of the existing path. -/
lemma pathOp_linkOp {σ : Type} {B : Backend σ} {s : Pimpl σ} :
    pathOp B (linkOp symbolic newlink) existing s =
      invokeFopsPath B (linkOp symbolic newlink) existing s := by
  cases symbolic with
  | true => rfl
  | false => rfl

/-- The operation determines the new path. -/
lemma linkOp_inj {n : Str} (h : linkOp symbolic newlink = linkOp symbolic n) : newlink = n := by
  cases symbolic with
  | true => exact PathOp.symlink.inj h
  | false => exact PathOp.link.inj h

/-- The volumes that gain an entry by a call of `link` or `symlink`. -/
lemma gains_linkOp_iff {mp : MountPoint} {path : Str} {p : PartRef} :
    (s.world.1.volumes p).Gains ((lockedCall (backend bl O) mp (.path (linkOp symbolic newlink) path)
      s).2.world.1.volumes p) ↔ ∃ o i, s.world.1.objects mp.fs = some o ∧
        s.world.1.LinkMade bl symbolic path newlink i ∧ (s.world.1.sMp i).bdev = p := by
  show Volume.Gains _ ((callObject bl O mp.fs _ s.world).2.1.volumes p) ↔ _
  cases ho : s.world.1.objects mp.fs with
  | none =>
    rw [callObject_none ho]
    exact ⟨fun g => absurd g (Volume.not_gains rfl fun _ _ => rfl), nofun⟩
  | some o =>
    rw [callObject_some ho]
    have one : (∃ i, s.world.1.LinkMade bl symbolic path newlink i ∧ (s.world.1.sMp i).bdev = p) ↔
        ∃ o' i, some o = some o' ∧ s.world.1.LinkMade bl symbolic path newlink i ∧
          (s.world.1.sMp i).bdev = p :=
      ⟨fun ⟨i, h⟩ => ⟨o, i, rfl, h⟩, fun ⟨_, i, _, h⟩ => ⟨i, h⟩⟩
    rw [← one]
    cases symbolic with
    | true => exact World.gains_ext4Fsymlink_iff
    | false => exact World.gains_ext4Flink_iff

/-- `link` and `symlink` do what they owe exactly if, where the first path is dispatched, it is so to
the mount point of both paths, the second one is given in normal form, and lwext4 makes no entry but on
the partition of that mount point. -/
theorem linkRight_iff : LinkRight bl O s symbolic existing newlink ↔
    ∀ k mp, Path.hasRootPath existing = true →
      FirstMatch s.mounts (Path.lexicallyNormal existing) k mp →
        LinkAlike bl s symbolic existing newlink mp := by
  unfold LinkRight
  rw [pathOp_linkOp]
  rcases invokeFopsPath_cases (backend bl O) s (linkOp symbolic newlink) existing with
    ⟨k, mp, ha, hm, h⟩ | ⟨hn, e, he, h⟩
  · -- the call is made, with the second path as it is
    have hl : (lockedCall (backend bl O) mp (.path (linkOp symbolic newlink)
      (Path.lexicallyNormal existing)) s).2.log = _ := log_lockedCall
    rw [h]
    constructor
    · rintro ⟨evs, hevs, right⟩ k' mp' - hm'
      have e' := findMountPoint_eq_some.mpr ⟨k', hm'⟩
      obtain rfl : mp' = mp :=
        Option.some.inj (e'.symm.trans (findMountPoint_eq_some.mpr ⟨k, hm⟩))
      have e := List.append_cancel_left (hevs.symm.trans hl)
      subst e
      obtain ⟨-, mp₁, p, n, hc, hfs, hp, hn, -, hnn⟩ :=
        right.passed (List.mem_cons_of_mem _ List.mem_cons_self)
      obtain ⟨hop, rfl⟩ := Call.path.inj hc
      cases linkOp_inj hop
      refine ⟨⟨mp₁, (owned_norm ha).mp hp, hn, hfs.symm⟩, hnn, fun {o i} ho hi => ?_⟩
      obtain ⟨fs, o', hlock, ho', hb⟩ := right.locked (gains_linkOp_iff.mpr ⟨o, i, ho, hi, rfl⟩)
      simp only [List.mem_cons, List.not_mem_nil, or_false, reduceCtorEq,
        Event.lock.injEq] at hlock
      subst hlock
      cases ho.symm.trans ho'
      exact hb.symm
    · intro cond
      obtain ⟨⟨mp', hp, hn, hfs⟩, hnn, hv⟩ := cond k mp ha hm
      refine ⟨_, hl, fun {fs c r} hc => ?_, fun no => absurd ⟨mp', hp, hn⟩ no, fun {p} g => ?_⟩
      · simp only [List.mem_cons, List.not_mem_nil, or_false, reduceCtorEq, false_or,
          Event.call.injEq] at hc
        obtain ⟨rfl, rfl, rfl⟩ := hc
        exact ⟨rfl, mp', _, newlink, rfl, hfs.symm, (owned_norm ha).mpr hp, hn,
          Path.lexicallyNormal_idem ha, hnn⟩
      · obtain ⟨o, i, ho, hi, hb⟩ := gains_linkOp_iff.mp g
        exact ⟨mp.fs, o, List.mem_cons_self, ho, (hv ho hi).symm.trans hb⟩
  · rw [h]
    constructor
    · exact fun _ k mp ha hm => absurd hm (hn k mp ha)
    · intro _
      refine ⟨[], (List.append_nil _).symm, nofun, fun _ => ⟨?_, nofun⟩, fun g => ?_⟩
      · rw [PathOp.code_terror]
        exact he
      · exact absurd g (Volume.not_gains rfl fun _ _ => rfl)

/-- `symlink("/a/f", "/b/g")` succeeds: the call is one on `/a`, under the lock of `/a`, and the
link is made on the volume at `/b`. -/
theorem not_linkRight_mountedAtAB :
    Reachable ext mountedAtAB ∧
      (pathOp ext (.symlink "/b/g".toList) "/a/f".toList mountedAtAB).1 = (0 : ErrorCode) ∧
      (pathOp ext (.symlink "/b/g".toList) "/a/f".toList mountedAtAB).2.log = mountedAtAB.log ++
        [.lock 0, .call 0 (.path (.symlink "/b/g".toList) "/a/f".toList) 0, .unlock 0] ∧
      (mountedAtAB.world.1.volumes ⟨0, 1⟩).findEntry rootIndex "g".toList = none ∧
      ((pathOp ext (.symlink "/b/g".toList) "/a/f".toList mountedAtAB).2.world.1.volumes
        ⟨0, 1⟩).findEntry rootIndex "g".toList = some 11 ∧
      ¬ LinkRight firstFree .accepting mountedAtAB true "/a/f".toList "/b/g".toList := by
  have h0 : (pathOp ext (.symlink "/b/g".toList) "/a/f".toList mountedAtAB).1 = (0 : ErrorCode) := by
    decide +kernel
  refine ⟨reachable_mountedAtA.play, h0, by decide +kernel, by decide +kernel, by decide +kernel, ?_⟩
  rintro ⟨evs, -, right⟩
  refine (right.refused ?_).1 h0
  rintro ⟨mp, ⟨-, a, ha, la⟩, -, b, hb, lb⟩
  have ea : Path.ownerRoot mountedAtAB.mounts.keys (Path.lexicallyNormal "/a/f".toList) =
      some "/a".toList := by decide +kernel
  have eb : Path.ownerRoot mountedAtAB.mounts.keys (Path.lexicallyNormal "/b/g".toList) =
      some "/b".toList := by decide +kernel
  cases ea.symm.trans ha
  cases eb.symm.trans hb
  have ne : mountedAtAB.mounts.lookup "/a".toList ≠ mountedAtAB.mounts.lookup "/b".toList := by
    decide +kernel
  exact ne (la.trans lb.symm)

end Pimpl
end Evfs
