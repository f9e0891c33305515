import Evfs.Fstypes.MountSlot
import Evfs.Fstypes.NativePath
import Evfs.Vfs.Mount
import Evfs.Vfs.OneMount

/-!
# Two resolvers

`VirtualFS` and lwext4 each have a table of mount points, and each resolves paths against its own:
the root of a path is the longest mounted root it lies under, and lwext4 takes the first slot the
name of which is a prefix of the string. After any sequence of mounts the slots hold the roots in the
order in which they were mounted (`Slotted`), so that it can be told when the string a method hands
down is resolved to the slot of the root that owns the path.
-/

namespace Evfs
open Lib Lwext4
namespace Pimpl
variable {τ : Type}

/-- The mount points of lwext4, in the order in which they were mounted, are in the slots. -/
structure Slotted (l : List MountPoint) (s : Pimpl (World × τ)) : Prop where
  ordered : l.Pairwise fun mp mp' => mp.fs < mp'.fs
  mem {mp} : mp ∈ l ↔ s.mounts.lookup mp.root = some mp ∧ (s.world.1.objects mp.fs).isSome
  slot {i : Fin 4} {mp} : l[i.val]? = some mp →
    (s.world.1.sMp i).mounted = true ∧ (s.world.1.sMp i).name = toNativeRoot mp.root
  free {i : Fin 4} : l[i.val]? = none → (s.world.1.sMp i).mounted = false
  bound : l.length ≤ 4

/-- The steps that mount successfully, among those that neither mount nor unmount. -/
def MountsOnly (_ : Pimpl (World × τ)) : Label → Prop
  | .op (.mount _ _ _ _) r => r = .ok 0
  | l => Ordinary l

/-- No filesystem is mounted in lwext4. -/
def NoSlots (s : Pimpl (World × τ)) : Prop := ∀ i, (s.world.1.sMp i).mounted = false

/-- A string is resolved by lwext4 to the slot that the root of the mount point is registered in. -/
def ResolvesTo (w : World) (mp : MountPoint) (str : Str) : Prop :=
  ∃ i, w.getMount str = some i ∧ (w.sMp i).name = toNativeRoot mp.root

/-- What the string that a method hands down for a path depends on: the root itself has to be
translated, a path below needs a root that is plain, and no root above may have been mounted
earlier. -/
structure Resolvable (s : Pimpl (World × τ)) (mp : MountPoint) (c : Call) (path : Str) : Prop where
  self : path = mp.root → FilesystemLwext4.translates c = true
  below : path ≠ mp.root → Path.Plain mp.root
  first {mp'} : s.mounts.lookup mp'.root = some mp' → (s.world.1.objects mp'.fs).isSome →
    mp'.fs < mp.fs → ¬ toNativeRoot mp'.root <+: mp.root

variable {bl : BlockLayer} {O : Backend τ} {s s' s₀ : Pimpl (World × τ)} {l : List MountPoint}

/-! ### What a mount does -/

/-- A mount that succeeds enters its point. -/
lemma mountAt_ok {σ : Type} {B : Backend σ} {s s' : Pimpl σ} {fs : FsId} {type : FsType}
    {disk : PartRef} {root : Str} {flags : Flags}
    (h : mountAt B fs type disk root flags s = (0, s')) :
    root ∉ s.mounts ∧ (B.call fs (.mount root flags) s.world).1 = 0 ∧
      s'.world = (B.call fs (.mount root flags) s.world).2 ∧
      s'.mounts = s.mounts.insert root ⟨fs, disk, root, flags, type⟩ := by
  unfold mountAt at h
  split at h
  · exact absurd (congrArg Prod.fst h) (by decide : EEXIST ≠ (0 : ErrorCode))
  · rename_i hm
    simp only at h
    split at h
    · rename_i h0
      exact absurd (congrArg Prod.fst h) h0
    · rename_i h0
      cases h
      exact ⟨hm, not_not.mp h0, rfl, rfl⟩

/-- A `mount` that succeeds: the object that is made, the root that is chosen, and the call. -/
lemma mount_succeeds {σ : Type} {B : Backend σ} {s s' : Pimpl σ} {name root fstype : Str}
    {flags : Flags} (h : mount B name root fstype flags s = .ok (0, s')) :
    ∃ factory disk s₁ mp, createFilesystem B factory disk s = .ok (s.nextFs, s₁) ∧
      mp.fs = s.nextFs ∧ mp.root ∉ s.mounts ∧ s'.mounts = s.mounts.insert mp.root mp ∧
      (B.call s.nextFs (.mount mp.root flags) (chooseRoot B s.nextFs root s₁).2.world).1 = 0 ∧
      s'.world = (B.call s.nextFs (.mount mp.root flags)
        (chooseRoot B s.nextFs root s₁).2.world).2 := by
  unfold mount at h
  split at h
  · cases h
  · rename_i hd
    obtain ⟨rfl, -⟩ := Prod.mk.inj (Except.ok.inj h)
    exact absurd (fsDiscovery_error hd) (by decide)
  · rename_i type disk _
    split at h
    · rename_i factory _
      split at h
      · cases h
      · rename_i fs s₁ hc
        obtain ⟨rfl, w, lg, e₁, -⟩ := createFilesystem_ok hc
        obtain ⟨v, w', lg', e₂, -⟩ := chooseRoot_effect (B := B) (s := s₁) s.nextFs root
        have hm : (chooseRoot B s.nextFs root s₁).2.mounts = s.mounts := by rw [e₂, e₁]
        obtain ⟨hn, h0, hw, hms⟩ := mountAt_ok (Except.ok.inj h)
        rw [hm] at hn hms
        exact ⟨factory, disk, s₁, ⟨s.nextFs, disk, _, flags, type⟩, hc, rfl, hn, hms, h0, hw⟩
    · cases h

/-- What is asked for the label leaves the tables of lwext4 alone. -/
lemma sameTables_chooseRoot (bl : BlockLayer) (O : Backend τ) (fs : FsId) (root : Str) (s : Pimpl (World × τ)) :
    SameTables s.world.1 (chooseRoot (backend bl O) fs root s).2.world.1 := by
  unfold chooseRoot
  split
  · have t : SameTables s.world.1 (callFs (backend bl O) fs .getLabel s).2.world.1 :=
      sameTables_call (c := .getLabel) rfl
    split <;> rename_i h <;> rw [h] at t <;> exact t
  · exact .refl

/-- The object of a mount that succeeds, and the slot it takes if it is a `filesystem_lwext4`. -/
lemma mount_takes {name root fstype : Str} {flags : Flags}
    (h : mount (backend bl O) name root fstype flags s = .ok (0, s'))
    (new : ∀ i r, r ∉ s.mounts → (s.world.1.sMp i).mounted = true →
      (s.world.1.sMp i).name ≠ toNativeRoot r) :
    ∃ mp, mp.fs = s.nextFs ∧ mp.root ∉ s.mounts ∧ s'.mounts = s.mounts.insert mp.root mp ∧
      (∀ fs, fs ≠ s.nextFs → s'.world.1.objects fs = s.world.1.objects fs) ∧
      (s'.world.1.objects s.nextFs = none ∧ s'.world.1.sMp = s.world.1.sMp ∨
        (s'.world.1.objects s.nextFs).isSome ∧
          s.world.1.Takes s'.world.1 (toNativeRoot mp.root)) := by
  obtain ⟨factory, disk, s₁, mp, hc, hf, hn, hms, h0, hw⟩ := mount_succeeds h
  have t := sameTables_chooseRoot bl O s.nextFs root s₁
  -- the tables of lwext4 once the object is made
  have made : s₁.world.1.sMp = s.world.1.sMp ∧ ∃ o, s₁.world.1.objects =
      Function.update s.world.1.objects s.nextFs o := by
    unfold createFilesystem at hc
    cases factory with
    | custom id =>
      cases hc
      exact ⟨rfl, none, rfl⟩
    | lwext4 =>
      simp only at hc
      split at hc
      · cases hc
      · rename_i hs
        cases hc
        have e := congrArg (fun r => r.2.1) hs
        have e' : s.world.1 = _ := e
        rw [e']
        exact ⟨rfl, some ⟨disk, []⟩, rfl⟩
  obtain ⟨hp, o, ho⟩ := made
  generalize (chooseRoot (backend bl O) s.nextFs root s₁).2.world = w at t h0 hw
  have hp' : w.1.sMp = s.world.1.sMp := t.sMp.trans hp
  have ho' : w.1.objects = Function.update s.world.1.objects s.nextFs o := t.objects.trans ho
  have call : (backend bl O).call s.nextFs (.mount mp.root flags) w =
      callObject bl O s.nextFs (.mount mp.root flags) w := rfl
  rw [call] at h0 hw
  refine ⟨mp, hf, hn, hms, ?_⟩
  cases o with
  | none =>
    have hnone : w.1.objects s.nextFs = none := by rw [ho', Function.update_self]
    rw [callObject_none hnone] at hw
    have e : s'.world.1 = w.1 := by rw [hw]
    rw [e]
    refine ⟨fun fs ne => ?_, .inl ⟨hnone, hp'⟩⟩
    rw [ho', Function.update_of_ne ne]
  | some o =>
    have hsome : w.1.objects s.nextFs = some o := by rw [ho', Function.update_self]
    rw [callObject_some hsome] at h0 hw
    have e : s'.world.1 = (FilesystemLwext4.mount s.nextFs o mp.root flags w.1).2 :=
      congrArg Prod.fst hw
    have tk := FilesystemLwext4.mount_ok h0 fun i hm => by
      rw [hp'] at hm ⊢
      exact new i mp.root hn hm
    rw [e, FilesystemLwext4.objects_mount]
    refine ⟨fun fs ne => ?_, .inr ⟨?_, ?_⟩⟩
    · rw [Function.update_of_ne ne, ho', Function.update_of_ne ne]
    · rw [Function.update_self]
      rfl
    · unfold World.Takes at tk ⊢
      rwa [hp'] at tk

/-! ### The slots of a run -/

/-- No slot is taken at first. -/
lemma Slotted.init (init : Initial s₀) (fresh : NoSlots s₀) : Slotted [] s₀ where
  ordered := .nil
  mem := by simp [init.mounts]
  slot h := nomatch h
  free _ := fresh _
  bound := Nat.zero_le _

/-- The tables of lwext4 and of the mount points are all that matters. -/
lemma Slotted.same (sl : Slotted l s) (hm : ∀ k, s'.mounts.lookup k = s.mounts.lookup k)
    (t : SameTables s.world.1 s'.world.1) : Slotted l s' where
  ordered := sl.ordered
  mem := by
    intro mp
    rw [hm, t.objects]
    exact sl.mem
  slot h := by
    rw [t.sMp]
    exact sl.slot h
  free h := by
    rw [t.sMp]
    exact sl.free h
  bound := sl.bound

/-- A mounted slot is that of a mount point. -/
lemma Slotted.of_mounted (sl : Slotted l s) {i : Fin 4} (hi : (s.world.1.sMp i).mounted = true) :
    ∃ mp, l[i.val]? = some mp ∧ (s.world.1.sMp i).name = toNativeRoot mp.root := by
  cases e : l[i.val]? with
  | none =>
    rw [sl.free e] at hi
    cases hi
  | some mp => exact ⟨mp, rfl, (sl.slot e).2⟩

/-- Different roots have different native roots. -/
lemma toNativeRoot_inj {r r' : Str} (h : toNativeRoot r = toNativeRoot r') : r = r' :=
  List.append_cancel_right h

/-- The names of the slots are those of roots in use. -/
lemma Slotted.new (sl : Slotted l s) (i : Fin 4) (r : Str) (hr : r ∉ s.mounts)
    (hi : (s.world.1.sMp i).mounted = true) : (s.world.1.sMp i).name ≠ toNativeRoot r := by
  intro e
  obtain ⟨mp, hmp, hn⟩ := sl.of_mounted hi
  obtain rfl := toNativeRoot_inj (e.symm.trans hn)
  exact hr (UnorderedMap.mem_of_lookup (sl.mem.mp (List.mem_of_getElem? hmp)).1)

/-- The first free slot is the one behind those in use. -/
lemma Slotted.first_free (sl : Slotted l s) {i : Fin 4} (hi : (s.world.1.sMp i).mounted = false)
    (least : ∀ j, (s.world.1.sMp j).mounted = false → i ≤ j) : i.val = l.length := by
  have le : l.length ≤ i.val := by
    rw [← List.getElem?_eq_none_iff]
    cases e : l[i.val]? with
    | none => rfl
    | some mp =>
      rw [(sl.slot e).1] at hi
      cases hi
  have lt : l.length < 4 := le.trans_lt i.isLt
  have ge := least ⟨l.length, lt⟩ (sl.free (List.getElem?_eq_none_iff.mpr (le_refl _)))
  exact le_antisymm ge le

/-- The mount points after one was added. -/
lemma lookup_insert_root {mounts : UnorderedMap Str MountPoint} {mp mp' : MountPoint}
    (hn : mp.root ∉ mounts) : (mounts.insert mp.root mp).lookup mp'.root = some mp' ↔
      mp' = mp ∨ mounts.lookup mp'.root = some mp' := by
  constructor
  · intro e
    exact (UnorderedMap.lookup_insert_elim e).imp And.right id
  · rintro (rfl | e)
    · exact AList.lookup_insert _
    · have ne : mp'.root ≠ mp.root := by
        intro e'
        exact hn (e' ▸ UnorderedMap.mem_of_lookup e)
      rwa [AList.lookup_insert_ne ne]

section Append
variable {i j : Fin 4} {slot : Mountpoint} {mp mp' : MountPoint}

/-- The slots once a mount point took the one behind them. -/
lemma Slotted.slot_append (sl : Slotted l s) (hl : i.val = l.length) (hm : slot.mounted = true)
    (hn : slot.name = toNativeRoot mp.root) (h : (l ++ [mp])[j.val]? = some mp') :
    (Function.update s.world.1.sMp i slot j).mounted = true ∧
      (Function.update s.world.1.sMp i slot j).name = toNativeRoot mp'.root := by
  by_cases e : j = i
  · subst e
    rw [hl, List.getElem?_concat_length] at h
    obtain rfl := Option.some.inj h
    rw [Function.update_self]
    exact ⟨hm, hn⟩
  · have lt : j.val < l.length := by
      have le := (List.getElem?_eq_some_iff.mp h).1
      rw [List.length_append, List.length_singleton] at le
      omega
    rw [List.getElem?_append_left lt] at h
    rw [Function.update_of_ne e]
    exact sl.slot h

/-- The slots behind the last mount are free. -/
lemma Slotted.free_append (sl : Slotted l s) (hl : i.val = l.length)
    (h : (l ++ [mp])[j.val]? = none) :
    (Function.update s.world.1.sMp i slot j).mounted = false := by
  rw [List.getElem?_eq_none_iff, List.length_append, List.length_singleton] at h
  have ne : j ≠ i := by
    rintro rfl
    omega
  rw [Function.update_of_ne ne]
  exact sl.free (List.getElem?_eq_none_iff.mpr (by omega))

end Append

/-- A mount that succeeds adds a mount point behind the others. -/
lemma Slotted.mount (sl : Slotted l s) (wf : MountsWf (backend bl O) s) {name root fstype : Str}
    {flags : Flags} (h : mount (backend bl O) name root fstype flags s = .ok (0, s')) :
    ∃ l', Slotted l' s' := by
  obtain ⟨mp, hf, hn, hms, hob, hsl⟩ := mount_takes h sl.new
  have mem : ∀ {mp'}, s'.mounts.lookup mp'.root = some mp' ∧ (s'.world.1.objects mp'.fs).isSome ↔
      (mp' = mp ∧ (s'.world.1.objects s.nextFs).isSome) ∨ mp' ∈ l := by
    intro mp'
    rw [hms, lookup_insert_root hn, or_and_right, sl.mem]
    refine or_congr (and_congr_right fun e => ?_) (and_congr_right fun e => ?_)
    · rw [e, hf]
    · rw [hob _ (wf.bound e).ne]
  rcases hsl with ⟨hnone, hp⟩ | ⟨hsome, i, slot, hi, least, hsm, hsn, hp⟩
  · -- an object of another kind
    refine ⟨l, sl.ordered, ?_, fun h => ?_, fun h => ?_, sl.bound⟩
    · intro mp'
      rw [mem, hnone]
      simp
    · rw [hp]
      exact sl.slot h
    · rw [hp]
      exact sl.free h
  · -- the free slot it takes is the one behind the others
    have hl := sl.first_free hi least
    refine ⟨l ++ [mp], ?_, ?_, fun h => ?_, fun h => ?_, ?_⟩
    · refine List.pairwise_append.mpr ⟨sl.ordered, List.pairwise_singleton _ _, ?_⟩
      intro mp' hmp' mp'' h
      rw [List.mem_singleton.mp h, hf]
      exact wf.bound (sl.mem.mp hmp').1
    · intro mp'
      rw [mem, List.mem_append, List.mem_singleton, or_comm, and_iff_left hsome]
    · rw [hp]
      exact sl.slot_append hl hsm hsn h
    · rw [hp]
      exact sl.free_append hl h
    · have lt := i.isLt
      rw [List.length_append, List.length_singleton]
      omega

/-- Every step that mounts or leaves the mounts alone takes the slots in order. -/
lemma Slotted.step {lb : Label} (sl : Slotted l s) (wf : MountsWf (backend bl O) s)
    (ok : MountsOnly s lb) (st : Step (backend bl O) s lb s') : ∃ l', Slotted l' s' := by
  have same : ∀ {s' : Pimpl (World × τ)}, s'.mounts = s.mounts → s'.world = s.world →
      ∃ l', Slotted l' s' := fun hm hw => ⟨l, sl.same (fun k => by rw [hm]) (hw ▸ .refl)⟩
  cases st with
  | op al e =>
    rename_i a r
    cases a with
    | mount name root fstype flags =>
      obtain ⟨⟨e', s₁⟩, h, he⟩ := map_ok e
      cases he
      have h0 : e' = 0 := by
        have hr : reply e' = .ok 0 := ok
        unfold reply at hr
        split at hr
        · assumption
        · cases hr
      exact sl.mount wf (h0 ▸ h)
    | mountAll => cases ok
    | umountAll => cases ok
    | umount _ => cases ok
    | _ =>
      refine ⟨l, sl.same (fun k => ?_) (sameTables_exec ok e)⟩
      rw [mounts_exec ok e]
  | rehash h =>
    refine ⟨l, sl.same h.lookup_mounts ?_⟩
    have hw : s'.world = s.world := by rw [h.rest]
    exact hw ▸ .refl
  | foreignOpen => exact same rfl rfl
  | registerDevice => exact same rfl rfl
  | unregisterDevice => exact same rfl rfl

/-- The slots in every run of mounts. -/
lemma Slotted.run (init : Initial s₀) (fresh : NoSlots s₀)
    (run : Runs (Step (backend bl O)) MountsOnly s₀ s) :
    (∃ l, Slotted l s) ∧ MountsWf (backend bl O) s := by
  refine run.invariant (I := fun s => (∃ l, Slotted l s) ∧ MountsWf (backend bl O) s) ?_
    ⟨⟨[], .init init fresh⟩, MountsWf.reachable (.initial init)⟩
  rintro s lb s' ⟨⟨l, sl⟩, wf⟩ ok st
  exact ⟨sl.step wf ok st, wf.step st⟩

/-! ### Both resolvers -/

/-- The slot of a mount point, behind those of the mount points mounted earlier. -/
lemma Slotted.exists_slot (sl : Slotted l s) {mp : MountPoint}
    (hm : s.mounts.lookup mp.root = some mp) (ho : (s.world.1.objects mp.fs).isSome) :
    ∃ i : Fin 4, l[i.val]? = some mp := by
  obtain ⟨i, lt, e⟩ := List.mem_iff_getElem.mp (sl.mem.mpr ⟨hm, ho⟩)
  exact ⟨⟨i, lt.trans_le sl.bound⟩, List.getElem?_eq_some_iff.mpr ⟨lt, e⟩⟩

/-- Filesystems are numbered as their slots are. -/
lemma Slotted.lt_iff (sl : Slotted l s) {i j : Fin 4} {mp mp' : MountPoint}
    (hi : l[i.val]? = some mp) (hj : l[j.val]? = some mp') : mp'.fs < mp.fs ↔ j < i := by
  obtain ⟨li, rfl⟩ := List.getElem?_eq_some_iff.mp hi
  obtain ⟨lj, rfl⟩ := List.getElem?_eq_some_iff.mp hj
  have mono := List.pairwise_iff_getElem.mp sl.ordered
  constructor
  · intro h
    by_contra ge
    rcases eq_or_lt_of_le (not_lt.mp ge) with e | lt
    · subst e
      exact lt_irrefl _ h
    · exact lt_asymm h (mono _ _ li lj lt)
  · exact fun lt => mono _ _ lj li lt

/-- The first slot whose name is a prefix is that of the mount point. -/
lemma Slotted.resolvesTo_iff (sl : Slotted l s) {mp : MountPoint}
    (hm : s.mounts.lookup mp.root = some mp) (ho : (s.world.1.objects mp.fs).isSome) {str : Str} :
    ResolvesTo s.world.1 mp str ↔ toNativeRoot mp.root <+: str ∧
      ∀ {mp'}, s.mounts.lookup mp'.root = some mp' → (s.world.1.objects mp'.fs).isSome →
        mp'.fs < mp.fs → ¬ toNativeRoot mp'.root <+: str := by
  obtain ⟨i, hi⟩ := sl.exists_slot hm ho
  have only : ∀ j, (s.world.1.sMp j).mounted = true →
      (s.world.1.sMp j).name = toNativeRoot mp.root → j = i := by
    intro j hj hn
    obtain ⟨mp', hmp', hn'⟩ := sl.of_mounted hj
    have hr := toNativeRoot_inj (hn'.symm.trans hn)
    have e := (sl.mem.mp (List.mem_of_getElem? hmp')).1
    rw [hr, hm] at e
    obtain rfl := Option.some.inj e
    apply Fin.ext
    rcases lt_trichotomy i.val j.val with lt | eq | gt
    · exact absurd ((sl.lt_iff hmp' hi).mpr lt) (lt_irrefl _)
    · exact eq.symm
    · exact absurd ((sl.lt_iff hi hmp').mpr gt) (lt_irrefl _)
  constructor
  · rintro ⟨j, hj, hn⟩
    obtain rfl := only j (World.mounted_of_getMount hj) hn
    refine ⟨hn ▸ World.prefix_of_getMount hj, fun hm' ho' lt pre => ?_⟩
    obtain ⟨j', hj'⟩ := sl.exists_slot hm' ho'
    have lt' := (sl.lt_iff hi hj').mp lt
    exact World.not_prefix_of_getMount hj lt' (sl.slot hj').1 ((sl.slot hj').2 ▸ pre)
  · rintro ⟨pre, first⟩
    refine ⟨i, World.getMount_eq (sl.slot hi).1 ((sl.slot hi).2 ▸ pre) ?_, (sl.slot hi).2⟩
    intro j lt hj hp
    obtain ⟨mp', hmp', hn⟩ := sl.of_mounted hj
    obtain ⟨hm', ho'⟩ := sl.mem.mp (List.mem_of_getElem? hmp')
    exact first hm' ho' ((sl.lt_iff hi hmp').mpr lt) (hn ▸ hp)

/-- What is registered for a root is a prefix of the string handed down for a path of that root
exactly if the root is translated, or plain. -/
lemma prefix_handed_iff {p : AbsPath} {r n : Str} {c : Call} (u : Path.Under r p.norm)
    (e : n = if FilesystemLwext4.translates c then toNativePath r p.norm else p.norm) :
    toNativeRoot r <+: n ↔ (p.norm = r → FilesystemLwext4.translates c = true) ∧
      (p.norm ≠ r → Path.Plain r) := by
  have below := Path.prefix_normal_iff p.rooted u
  cases hp : decide (p.norm = r) with
  | true =>
    have hp := of_decide_eq_true hp
    cases ht : FilesystemLwext4.translates c with
    | true =>
      have e' : n = toNativeRoot r := by
        rw [e, ht, if_pos rfl, toNativePath, if_pos hp, hp]
        rfl
      exact ⟨fun _ => ⟨fun _ => rfl, fun ne => absurd hp ne⟩, fun _ => e' ▸ List.prefix_refl _⟩
    | false =>
      have e' : n = p.norm := by rw [e, ht]; rfl
      rw [e']
      exact ⟨fun h => absurd hp (below.mp h).2, fun h => nomatch h.1 hp⟩
  | false =>
    have hp := of_decide_eq_false hp
    have e' : n = p.norm := by
      rw [e, toNativePath, if_neg hp, ite_self]
    rw [e']
    refine below.trans ⟨fun h => ⟨fun eq => absurd eq hp, fun _ => h.1⟩, fun h => ⟨h.2 hp, hp⟩⟩

/-- Another root is registered under a prefix of the string exactly if it lies above the root. -/
lemma prefix_of_shorter {p : AbsPath} {r r' n : Str} {c : Call}
    (e : n = if FilesystemLwext4.translates c then toNativePath r p.norm else p.norm)
    (hp : toNativeRoot r <+: n) (ne : r' ≠ r) (rooted : Path.hasRootPath r = true)
    (longest : Path.Under r' p.norm → r'.length ≤ r.length) :
    toNativeRoot r' <+: n ↔ toNativeRoot r' <+: r := by
  constructor
  · intro hp'
    rcases List.prefix_or_prefix_of_prefix hp' hp with h | h
    · rcases List.prefix_concat_iff.mp h with e | h
      · exact absurd (toNativeRoot_inj e) ne
      · exact h
    · -- a longer root cannot own the path
      rcases List.prefix_concat_iff.mp h with e | h
      · exact absurd (toNativeRoot_inj e).symm ne
      · have lt := h.length_le
        rw [toNativeRoot, List.length_append, List.length_singleton] at lt
        have rooted' : Path.hasRootPath r' = true := by
          obtain ⟨t, rfl⟩ := h
          cases r with
          | nil => cases rooted
          | cons a r => exact rooted
        have hp'' : toNativeRoot r' <+: p.norm := by
          split at e
          · rw [e, toNativePath] at hp'
            split at hp'
            · rename_i hpr
              have lt' := hp'.length_le
              rw [toNativeRoot, hpr, List.length_append, List.length_append] at lt'
              simp only [List.length_singleton] at lt'
              omega
            · exact hp'
          · exact e ▸ hp'
        have le := longest (.of_slash hp'' rooted')
        omega
  · intro h
    exact (h.trans (List.prefix_append _ _)).trans hp

/-- The slots are what counts. -/
lemma resolvesTo_congr {w w' : World} (h : w'.sMp = w.sMp) {mp : MountPoint} {str : Str} :
    ResolvesTo w' mp str ↔ ResolvesTo w mp str := by
  unfold ResolvesTo World.getMount
  rw [h]

/-- In every state that mounts lead to, a method does what its program does, and the string that it
hands down for a path to a function of lwext4 is resolved there to the slot of the root that owns the
path if and only if the path is resolvable. -/
theorem resolvesTo_iff_resolvable (init : Initial s₀) (fresh : NoSlots s₀)
    (run : Runs (Step (backend bl O)) MountsOnly s₀ s) {p : AbsPath} {mp : MountPoint} {o : Object}
    {c : Call} {n : Str} {w : World} (owner : Path.ownerRoot s.mounts.keys p.norm = some mp.root)
    (hm : s.mounts.lookup mp.root = some mp) (ho : s.world.1.objects mp.fs = some o)
    (hn : FilesystemLwext4.Hands bl mp.fs o c s.world.1 p.norm n w) :
    (FilesystemLwext4.method mp.fs o c).run (FilesystemLwext4.eval bl mp.fs o) s.world.1 =
        .ok (FilesystemLwext4.call bl mp.fs o c s.world.1) ∧
      (ResolvesTo w mp n ↔ Resolvable s mp c p.norm) := by
  obtain ⟨⟨l, sl⟩, wf⟩ := Slotted.run init fresh run
  have hr : o.root = mp.root := by
    have h : rootOf O s.world mp.fs = mp.root := wf.mounted hm
    simpa only [rootOf, ho] using h
  obtain ⟨-, u⟩ := Path.mem_of_ownerRoot owner
  have isSome : (s.world.1.objects mp.fs).isSome := by rw [ho]; rfl
  obtain ⟨t, e⟩ := hn.string
  rw [hr] at e
  have other : toNativeRoot mp.root <+: n → ∀ {mp'}, s.mounts.lookup mp'.root = some mp' →
      mp'.fs < mp.fs → (toNativeRoot mp'.root <+: n ↔ toNativeRoot mp'.root <+: mp.root) := by
    intro hp mp' hm' lt
    refine prefix_of_shorter e hp ?_ u.1 fun u' => ?_
    · intro e
      rw [e, hm] at hm'
      obtain rfl := Option.some.inj hm'
      exact lt_irrefl _ lt
    · exact Path.length_le_of_ownerRoot owner (UnorderedMap.mem_of_lookup hm') u'
  refine ⟨FilesystemLwext4.run_method, ?_⟩
  rw [resolvesTo_congr t, sl.resolvesTo_iff hm isSome]
  constructor
  · rintro ⟨hp, first⟩
    obtain ⟨self, below⟩ := (prefix_handed_iff u e).mp hp
    exact ⟨self, below, fun hm' ho' lt h => first hm' ho' lt ((other hp hm' lt).mpr h)⟩
  · intro res
    have hp := (prefix_handed_iff u e).mpr ⟨res.self, res.below⟩
    exact ⟨hp, fun hm' ho' lt h => res.first hm' ho' lt ((other hp hm' lt).mp h)⟩

/-! ### Two mounts, one below the other -/

/-- One action of the sample. -/
lemma mountsOnly_play {s : Pimpl (World × (FsId → Str))} {a : Action}
    (ok : MountsOnly s (.op a (.ok 0))) (al : Allowed s a)
    (h : (exec ext a s).map Prod.fst = .ok (.ok 0)) :
    Guarded (Step ext) MountsOnly s (play ext [a] s) :=
  ⟨_, ok, .op al (exec_play al h)⟩

/-- The ext types are registered. -/
def registered : Pimpl (World × (FsId → Str)) :=
  play ext [.registerFilesystem .ext4] (sample (emptyWorld, fun _ => []))

/-- The session that registers is a run. -/
lemma runs_registered :
    Runs (Step ext) MountsOnly (sample (emptyWorld, fun _ => [])) registered := by
  refine Relation.ReflTransGen.single (mountsOnly_play ?_ ?_ ?_)
  · exact rfl
  · exact nofun
  · decide +kernel

/-- The second partition is mounted at `/a/b`, and then the first one above it. -/
def belowFirst : Pimpl (World × (FsId → Str)) :=
  play ext [.mount "sdp0".toList "/a".toList [] 0]
    (play ext [.mount "sdp1".toList "/a/b".toList [] 0] registered)

def mountPointBelow : MountPoint := ⟨0, ⟨0, 1⟩, "/a/b".toList, 0, .ext4⟩

def mountPointAbove : MountPoint := ⟨1, ⟨0, 0⟩, "/a".toList, 0, .ext4⟩

/-- So is the one with a mount below the first. -/
lemma runs_belowFirst :
    Runs (Step ext) MountsOnly (sample (emptyWorld, fun _ => [])) belowFirst := by
  refine (runs_registered.tail (mountsOnly_play ?_ ?_ ?_)).tail (mountsOnly_play ?_ ?_ ?_)
  · exact rfl
  · exact nofun
  · decide +kernel
  · exact rfl
  · exact nofun
  · decide +kernel

/-- `unlink("/a/b/f")` hands down a string that is resolved to `/a/b`, and the one that `stat("/a")`
hands down is resolved to `/a`. -/
theorem resolvesTo_belowFirst :
    ResolvesTo belowFirst.world.1 mountPointBelow "/a/b/f".toList ∧
      ResolvesTo belowFirst.world.1 mountPointAbove "/a/".toList := by
  have earlier : ∀ e ∈ belowFirst.mounts.entries, e.2.fs < mountPointAbove.fs →
      ¬ toNativeRoot e.2.root <+: mountPointAbove.root := by decide +kernel
  constructor
  · refine (resolvesTo_iff_resolvable (p := ⟨"/a/b/f".toList, rfl⟩)
      (c := .path .unlink "/a/b/f".toList) (o := ⟨⟨0, 1⟩, "/a/b".toList⟩) initial_sample
      (fun _ => rfl) runs_belowFirst (by decide +kernel) (by decide +kernel) (by decide +kernel)
      ⟨_, List.mem_cons_self, List.mem_singleton.mpr rfl⟩).2.mpr ⟨?_, ?_, ?_⟩
    · exact fun h => absurd h (by decide)
    · exact fun _ => by decide
    · exact fun _ _ lt => absurd lt (Nat.not_lt_zero _)
  · refine (resolvesTo_iff_resolvable (p := ⟨"/a".toList, rfl⟩) (c := .path .stat "/a".toList)
      (o := ⟨⟨0, 0⟩, "/a".toList⟩) initial_sample (fun _ => rfl) runs_belowFirst
      (by decide +kernel) (by decide +kernel) (by decide +kernel)
      ⟨_, List.mem_cons_self, List.mem_singleton.mpr (by decide)⟩).2.mpr ⟨?_, ?_, ?_⟩
    · exact fun _ => rfl
    · exact fun ne => absurd (by decide) ne
    · exact fun h _ lt => earlier _ (UnorderedMap.mem_entries_iff.mpr h) lt

/-- A second partition is mounted at `/a/b`, below the first one. -/
def nestedAtAB : Pimpl (World × (FsId → Str)) :=
  play ext [.mount "sdp1".toList "/a/b".toList [] 0] mountedAtA

def mountPointAB : MountPoint := ⟨1, ⟨0, 1⟩, "/a/b".toList, 0, .ext4⟩

/-- And the one with the mount below last. -/
lemma runs_nestedAtAB :
    Runs (Step ext) MountsOnly (sample (emptyWorld, fun _ => [])) nestedAtAB := by
  have e : mountedAtA = play ext [.mount "sdp0".toList "/a".toList [] 0] registered := play_cons
  have run : Runs (Step ext) MountsOnly (sample (emptyWorld, fun _ => [])) mountedAtA := by
    rw [e]
    refine runs_registered.tail (mountsOnly_play ?_ ?_ ?_)
    · exact rfl
    · exact nofun
    · decide +kernel
  refine run.tail (mountsOnly_play ?_ ?_ ?_)
  · exact rfl
  · exact nofun
  · decide +kernel

/-- `unlink("/a/b/f")` hands down a string that is resolved to `/a`, and the one that `chmod("/a")`
hands down is resolved to nothing. -/
theorem not_resolvesTo_nestedAtAB :
    Runs (Step ext) MountsOnly (sample (emptyWorld, fun _ => [])) nestedAtAB ∧
      Path.ownerRoot nestedAtAB.mounts.keys "/a/b/f".toList = some mountPointAB.root ∧
      nestedAtAB.mounts.lookup mountPointAB.root = some mountPointAB ∧
      nestedAtAB.world.1.objects mountPointAB.fs = some ⟨⟨0, 1⟩, "/a/b".toList⟩ ∧
      FilesystemLwext4.Hands firstFree 1 ⟨⟨0, 1⟩, "/a/b".toList⟩ (.path .unlink "/a/b/f".toList)
        nestedAtAB.world.1 "/a/b/f".toList "/a/b/f".toList nestedAtAB.world.1 ∧
      ¬ ResolvesTo nestedAtAB.world.1 mountPointAB "/a/b/f".toList ∧
      FilesystemLwext4.Hands firstFree 0 ⟨⟨0, 0⟩, "/a".toList⟩ (.path (.chmod 0) "/a".toList)
        nestedAtAB.world.1 "/a".toList "/a".toList nestedAtAB.world.1 ∧
      ¬ ResolvesTo nestedAtAB.world.1 mountPointA "/a".toList := by
  have h : nestedAtAB.world.1.getMount "/a/b/f".toList = some 0 := by decide +kernel
  have h' : nestedAtAB.world.1.getMount "/a".toList = none := by decide +kernel
  refine ⟨runs_nestedAtAB, by decide +kernel, by decide +kernel, by decide +kernel,
    ⟨_, List.mem_cons_self, List.mem_singleton.mpr rfl⟩, ?_,
    ⟨_, List.mem_cons_self, List.mem_singleton.mpr rfl⟩, ?_⟩
  · rintro ⟨i, e, hn⟩
    rw [h] at e
    obtain rfl := Option.some.inj e
    revert hn
    decide +kernel
  · rintro ⟨i, e, -⟩
    rw [h'] at e
    cases e

end Pimpl
end Evfs
