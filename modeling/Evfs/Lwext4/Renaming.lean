import Evfs.Lwext4.Confined
import Evfs.Lwext4.Walk

/-!
# What a rename leaves behind

A successful `ext4_frename` takes the entry that the old path ends in out of its directory, so the
old path leads nowhere afterwards (`find_renamed`). Errors of the functions on a volume are never
`0`; that a call was successful therefore says that each of its parts was.
-/

namespace Evfs
namespace Lwext4
open Lib
namespace Volume
variable {bl : BlockLayer} {v v' : Volume} {ftype : Option FileType} {e : ErrorCode}

/-- Entering a name fails with an error code. -/
lemma enter_error {creat : Bool} {type : FileType} {name : Str} {ref : Ino}
    (h : enter bl creat type name ref v = .error e) : e ≠ 0 := by
  unfold enter at h
  split at h
  · cases h
  · split at h
    · split at h
      · rename_i ha
        unfold allocInode at ha
        split at ha
        · cases ha; cases h; decide
        · cases ha
      · split at h
        · rename_i hl
          unfold link at hl
          repeat' split at hl
          all_goals cases hl
          all_goals cases h
          all_goals decide
        · cases h
    · cases h; decide

/-- So does a walk. -/
lemma openLoop_error {creat : Bool} {names : List Str} {ref parent : Ino}
    (h : openLoop bl creat ftype names ref parent v = .error e) : e ≠ 0 := by
  induction names generalizing ref parent v with
  | nil => cases h; decide
  | cons name names ih =>
    cases names with
    | nil =>
      simp only [openLoop] at h
      split at h
      · split at h
        · rename_i he
          cases h
          exact enter_error he
        · split at h
          · cases h
          · cases h; decide
      · split at h
        · cases h
        · cases h; decide
    | cons next names =>
      simp only [openLoop] at h
      split at h
      · split at h
        · rename_i he
          cases h
          exact enter_error he
        · split at h
          · exact ih h
          · cases h; decide
      · cases h; decide

/-- And a lookup. -/
lemma find_error_ne {names : List Str} (h : find bl ftype names v = .error e) : e ≠ 0 := by
  unfold find genericOpen at h
  cases ho : openLoop bl false ftype names rootIndex rootIndex v with
  | error e' =>
    rw [ho] at h
    cases h
    exact openLoop_error ho
  | ok r =>
    rw [ho] at h
    cases h

/-- And the walk of a hard link. -/
lemma hardlinkLoop_error {names : List Str} {ref : Ino}
    (h : hardlinkLoop names ref v = .error e) : e ≠ 0 := by
  induction names generalizing ref with
  | nil => cases h; decide
  | cons name names ih =>
    cases names with
    | nil =>
      simp only [hardlinkLoop] at h
      repeat' split at h
      all_goals cases h
      all_goals decide
    | cons next names =>
      simp only [hardlinkLoop] at h
      split at h
      · split at h
        · split at h
          · exact ih h
          · cases h; decide
        · cases h; decide
      · cases h; decide

/-- A hard link is made under a name that is free. -/
lemma hardlinkLoop_ok {names : List Str} {ref d : Ino} {name : Str}
    (h : hardlinkLoop names ref v = .ok (d, name)) : v.findEntry d name = none := by
  induction names generalizing ref with
  | nil => cases h
  | cons n names ih =>
    cases names with
    | nil =>
      simp only [hardlinkLoop] at h
      split at h
      · split at h
        · cases h
        · rename_i hf
          cases h
          exact hf
      · split at h
        · cases h
        · cases h
    | cons next names =>
      simp only [hardlinkLoop] at h
      split at h
      · split at h
        · split at h
          · exact ih h
          · cases h
        · cases h
      · cases h

/-- Removing an entry fails with an error code. -/
lemma removeEntry_error {d : Ino} {name : Str} (h : v.removeEntry d name = .error e) : e ≠ 0 := by
  unfold removeEntry at h
  split at h
  · cases h
  · cases h; decide

/-- So does entering the new name. -/
lemma linkRenamed_error {d c : Ino} {isDir : Bool} {name : Str}
    (h : linkRenamed bl d c isDir name v = .error e) : e ≠ 0 := by
  unfold linkRenamed at h
  split at h
  · cases h
  · cases h; decide

/-- Entering the new name changes that entry only. -/
lemma linkRenamed_ok {d c : Ino} {isDir : Bool} {name : Str}
    (h : linkRenamed bl d c isDir name v = .ok v') :
    (∀ a n, ¬ (a = d ∧ n = name) → v'.findEntry a n = v.findEntry a n) ∧
      v'.findEntry d name = some c ∧ (∀ a, (v'.inodes a).type = (v.inodes a).type) := by
  unfold linkRenamed at h
  split at h
  · cases isDir with
    | false =>
      cases h
      exact ⟨fun a n hn => findEntry_addEntry_of_ne hn, findEntry_addEntry_self, type_addEntry⟩
    | true =>
      cases h
      refine ⟨fun a n hn => ?_, ?_, fun a => ?_⟩
      · rw [if_pos rfl, findEntry_linksInc, findEntry_addEntry_of_ne hn]
      · rw [if_pos rfl, findEntry_linksInc, findEntry_addEntry_self]
      · rw [if_pos rfl, type_linksInc, type_addEntry]
  · cases h

/-- Setting the directory above changes `..` only. -/
lemma resetParent_ok {c d : Ino} (h : resetParent bl c d v = .ok v') :
    (∀ a n, n ≠ Path.dotDot → v'.findEntry a n = v.findEntry a n) ∧
      (∀ a, (v'.inodes a).type = (v.inodes a).type) := by
  unfold resetParent at h
  split at h
  · split at h
    · cases h
      exact ⟨fun a n hn => findEntry_addEntry_of_ne fun e => hn e.2, type_addEntry⟩
    · cases h
  · cases h
    exact ⟨fun _ _ _ => rfl, fun _ => rfl⟩

end Volume

namespace World
open Volume
variable {bl : BlockLayer} {w w' : World} {path newPath : Str} {k : Fin 4}

/-- What happens to the entries of the volume that the old path is on. -/
lemma removeOrig_ok {f : Found} {d : Ino} {v v' : Volume} (h : removeOrig bl f d v = .ok v')
    (hn : f.name ≠ Path.dotDot) :
    f.name ∈ (v.inodes f.parent).entries ∧ v'.findEntry f.parent f.name = none ∧
      (∀ a n, n ≠ Path.dotDot → ¬ (a = f.parent ∧ n = f.name) →
        v'.findEntry a n = v.findEntry a n) ∧
      ∀ a, (v'.inodes a).type = (v.inodes a).type := by
  unfold removeOrig at h
  split at h
  · cases h
  · rename_i v₁ hr
    obtain ⟨he, ht⟩ := resetParent_ok hr
    split at h
    · cases h
    · rename_i v₂ hd
      obtain ⟨hm, hg, hk, ht'⟩ := removeEntry_ok hd
      have same : (∀ a n, v'.findEntry a n = v₂.findEntry a n) ∧
          ∀ a, (v'.inodes a).type = (v₂.inodes a).type := by
        split at h
        · cases h
          exact ⟨fun a n => findEntry_linksDec, type_linksDec⟩
        · cases h
          exact ⟨fun _ _ => rfl, fun _ => rfl⟩
      refine ⟨?_, ?_, fun a n hdd hne => ?_, fun a => ?_⟩
      · obtain ⟨c, e⟩ := UnorderedMap.exists_lookup hm
        exact UnorderedMap.mem_of_lookup ((he f.parent f.name hn).symm.trans e)
      · rw [same.1, hg]
      · rw [same.1, hk a n hne, he a n hdd]
      · rw [same.2, ht', ht]

/-- Dropping the old name fails with an error code. -/
lemma removeOrig_error {f : Found} {d : Ino} {v : Volume} {e : ErrorCode}
    (h : removeOrig bl f d v = .error e) : e ≠ 0 := by
  unfold removeOrig at h
  split at h
  · rename_i hr
    cases h
    unfold resetParent at hr
    repeat' split at hr
    all_goals cases hr
    all_goals decide
  · split at h
    · rename_i hd
      cases h
      exact removeEntry_error hd
    · cases h

/-- The parts of a rename that succeeds. -/
lemma frename_ok (h : w.ext4Frename bl path newPath = (0, w')) :
    ∃ i f j d name v v', w.writable path = .ok i ∧
      find bl none (w.names path i) (w.volume i) = .ok f ∧ w.getMount newPath = some j ∧
      hardlinkLoop (w.names newPath j) rootIndex (w.volume j) = .ok (d, name) ∧
      linkRenamed bl d f.inode ((w.volume i).IsDir f.inode) name (w.volume j) = .ok v ∧
      removeOrig bl f d ((w.setVolume j v).volume i) = .ok v' ∧
      w' = (w.setVolume j v).setVolume i v' := by
  unfold ext4Frename at h
  split at h
  · rename_i hw
    cases h
    unfold writable at hw
    repeat' split at hw
    all_goals cases hw
  · rename_i i hw
    -- each step that fails gives a code other than 0
    split at h
    · rename_i hf
      cases h
      exact absurd rfl (find_error_ne hf)
    · rename_i f hf
      split at h
      · cases h
      · rename_i j hj
        split at h
        · rename_i hl
          cases h
          exact absurd rfl (hardlinkLoop_error hl)
        · rename_i d name hl
          split at h
          · rename_i hr
            cases h
            exact absurd rfl (linkRenamed_error hr)
          · rename_i v hr
            simp only at h
            split at h
            · rename_i ho
              have e := congrArg Prod.fst h
              exact absurd e (removeOrig_error ho)
            · rename_i v' ho
              exact ⟨i, f, j, d, name, v, v', hw, hf, hj, hl, hr, ho, (congrArg Prod.snd h).symm⟩

/-- The volume that was written back. -/
lemma volume_setVolume_self {i : Fin 4} {v : Volume} : (w.setVolume i v).volume i = v :=
  Function.update_self _ _ _

/-- Setting a volume to one that keeps something keeps it of every volume. -/
lemma volume_setVolume {R : Volume → Volume → Prop} (refl : ∀ v, R v v) {i j : Fin 4} {v : Volume}
    (h : R (w.volume j) v) : R (w.volume i) ((w.setVolume j v).volume i) := by
  show R (w.volumes (w.sMp i).bdev) (Function.update w.volumes (w.sMp j).bdev v (w.sMp i).bdev)
  by_cases e : (w.sMp i).bdev = (w.sMp j).bdev
  · rw [e, Function.update_self]
    exact h
  · rw [Function.update_of_ne e]
    exact refl _

/-- After a rename the old path leads nowhere. -/
theorem find_renamed (h : w.ext4Frename bl path newPath = (0, w'))
    (dots : ∀ i, w.getMount path = some i → Path.dotDot ∉ w.names path i)
    (file : ∀ i, w.getMount path = some i → (w.names path i).getLast? ≠ some []) :
    ∃ i, w'.writable path = .ok i ∧
      ∀ ftype, find bl ftype (w'.names path i) (w'.volume i) = .error ENOENT := by
  obtain ⟨i, f, j, d, name, v, v', hw, hf, hj, hl, hr, ho, rfl⟩ := frename_ok h
  have hm := (writable_ok.mp hw).1
  have ho' := find_ok hf
  obtain ⟨hmem, hnil⟩ := openLoop_name ho' (file i hm)
  obtain ⟨hk, hd, ht⟩ := linkRenamed_ok hr
  -- entries that were there are there after the link, whichever volume it was made on
  have linked : ∀ a n c, (w.volume i).findEntry a n = some c →
      ((w.setVolume j v).volume i).findEntry a n = some c := by
    intro a n c
    refine volume_setVolume (R := fun v v' => v.findEntry a n = some c → v'.findEntry a n = some c)
      (fun _ => id) fun e => ?_
    rw [hk, e]
    rintro ⟨rfl, rfl⟩
    rw [hardlinkLoop_ok hl] at e
    cases e
  have types : ∀ a, (((w.setVolume j v).volume i).inodes a).type = ((w.volume i).inodes a).type :=
    fun a => volume_setVolume (R := fun v v' => (v'.inodes a).type = (v.inodes a).type)
      (fun _ => rfl) (ht a)
  have hdd : f.name ≠ Path.dotDot := fun e => dots i hm (e ▸ hmem)
  obtain ⟨-, gone, keep, ht'⟩ := removeOrig_ok ho hdd
  have lost : ∀ ftype, find bl ftype (w.names path i) v' = .error ENOENT := by
    intro ftype
    apply find_error
    refine openLoop_lost ho' hnil gone (fun a n c hn hne e => ?_) fun a => (ht' a).trans (types a)
    rw [keep a n (fun e => dots i hm (e ▸ hn)) hne]
    exact linked a n c e
  have c : Confined (fun _ => True) w ((w.setVolume j v).setVolume i v') :=
    (Confined.setVolume trivial).trans (.setVolume trivial)
  refine ⟨i, writable_ok.mpr ⟨by rw [c.getMount, hm], ?_⟩, fun ftype => ?_⟩
  · rw [c.sMp]
    exact (writable_ok.mp hw).2
  · rw [c.names, volume_setVolume_self]
    exact lost ftype

/-! ### Two volumes -/

/-- The check on a path has an outcome that no caller takes for success. -/
lemma writable_error {e : ErrorCode} (h : w.writable path = .error e) : e ≠ 0 := by
  unfold writable at h
  repeat' split at h
  all_goals cases h
  all_goals decide

/-- A rename gets as far as the new entry: the old path may be changed and leads somewhere, and the
new one is on the volume in slot `k`, where it is free and has room. -/
def Linkable (bl : BlockLayer) (k : Fin 4) (path newPath : Str) (w : World) : Prop :=
  ∃ i f d name, w.writable path = .ok i ∧
    Volume.find bl none (w.names path i) (w.volume i) = .ok f ∧ w.getMount newPath = some k ∧
    Volume.hardlinkLoop (w.names newPath k) rootIndex (w.volume k) = .ok (d, name) ∧
    bl.entry (w.volume k) d name = true

/-- A rename that does not get that far fails, and changes nothing. -/
lemma frename_not_linkable (h : ∀ k, ¬ w.Linkable bl k path newPath) :
    ∃ e, e ≠ 0 ∧ w.ext4Frename bl path newPath = (e, w) := by
  unfold ext4Frename
  split
  · rename_i hw
    exact ⟨_, writable_error hw, rfl⟩
  · rename_i i hw
    split
    · rename_i hf
      exact ⟨_, Volume.find_error_ne hf, rfl⟩
    · rename_i f hf
      split
      · exact ⟨ENOENT, by decide, rfl⟩
      · rename_i k hm
        split
        · rename_i hl
          exact ⟨_, Volume.hardlinkLoop_error hl, rfl⟩
        · rename_i d name hl
          -- the only step left is the one that asks for room
          have hb : ¬ bl.entry (w.volume k) d name = true := fun hb =>
            h k ⟨i, f, d, name, hw, hf, hm, hl, hb⟩
          simp only [Volume.linkRenamed, if_neg hb]
          exact ⟨ENOSPC, by decide, rfl⟩

/-- A path leads to the inode, on the volume of the partition. -/
def FileAt (bl : BlockLayer) (path : Str) (p : PartRef) (c : Ino) (w : World) : Prop :=
  ∃ i f, w.getMount path = some i ∧ (w.sMp i).bdev = p ∧
    find bl none (w.names path i) (w.volume i) = .ok f ∧ f.inode = c

/-- A new name at the path has its place in the directory, on the volume of the partition. -/
def PlaceAt (path : Str) (p : PartRef) (d : Ino) (w : World) : Prop :=
  ∃ j name, w.getMount path = some j ∧ (w.sMp j).bdev = p ∧
    hardlinkLoop (w.names path j) rootIndex (w.volume j) = .ok (d, name)

/-- After a rename every entry of every volume was there before, or it refers to the file that the
old path leads to on the same volume, or it is the `..` of this file and refers to the directory of
the new path on the same volume. -/
def EntersOwn (bl : BlockLayer) (path newPath : Str) (w w' : World) : Prop :=
  ∀ ⦃p d n c⦄, (w'.volumes p).findEntry d n = some c → (w.volumes p).findEntry d n = some c ∨
    w.FileAt bl path p c ∨ n = Path.dotDot ∧ w.FileAt bl path p d ∧ w.PlaceAt newPath p c

/-- The outcomes of a rename: it does not get as far as the new entry, or the entry is made, and then
taken back, left alone or made up for by the removal of the old one. -/
lemma frename_effect (bl : BlockLayer) (path newPath : Str) (w : World) :
    (∀ j, ¬ w.Linkable bl j path newPath) ∧ (w.ext4Frename bl path newPath).2 = w ∨
    ∃ i f j d name v, w.writable path = .ok i ∧
      find bl none (w.names path i) (w.volume i) = .ok f ∧ w.getMount newPath = some j ∧
      hardlinkLoop (w.names newPath j) rootIndex (w.volume j) = .ok (d, name) ∧
      bl.entry (w.volume j) d name = true ∧
      linkRenamed bl d f.inode ((w.volume i).IsDir f.inode) name (w.volume j) = .ok v ∧
      ((w.ext4Frename bl path newPath).2 = w ∧ i = j ∨
        (w.ext4Frename bl path newPath).2 = w.setVolume j v ∨
        ∃ v', removeOrig bl f d ((w.setVolume j v).volume i) = .ok v' ∧
          (w.ext4Frename bl path newPath).2 = (w.setVolume j v).setVolume i v') := by
  unfold ext4Frename
  split
  · rename_i hw
    refine .inl ⟨?_, rfl⟩
    rintro j ⟨i, f, d, name, hw', -⟩
    rw [hw] at hw'
    cases hw'
  · rename_i i hw
    split
    · rename_i hf
      refine .inl ⟨?_, rfl⟩
      rintro j ⟨i', f, d, name, hw', hf', -⟩
      cases hw.symm.trans hw'
      rw [hf] at hf'
      cases hf'
    · rename_i f hf
      split
      · rename_i hj
        refine .inl ⟨?_, rfl⟩
        rintro j ⟨i', f', d, name, -, -, hj', -⟩
        rw [hj] at hj'
        cases hj'
      · rename_i j hj
        split
        · rename_i hl
          refine .inl ⟨?_, rfl⟩
          rintro j' ⟨i', f', d, name, -, -, hj', hl', -⟩
          cases hj.symm.trans hj'
          rw [hl] at hl'
          cases hl'
        · rename_i d name hl
          split
          · rename_i hr
            refine .inl ⟨?_, rfl⟩
            rintro j' ⟨i', f', d', name', -, -, hj', hl', hb⟩
            cases hj.symm.trans hj'
            cases hl.symm.trans hl'
            rw [linkRenamed, if_pos hb] at hr
            cases hr
          · rename_i v hr
            have hb : bl.entry (w.volume j) d name = true := by
              unfold linkRenamed at hr
              split at hr
              · assumption
              · cases hr
            refine .inr ⟨i, f, j, d, name, v, hw, hf, hj, hl, hb, hr, ?_⟩
            dsimp only
            split
            · split
              · rename_i hij
                exact .inl ⟨rfl, hij⟩
              · exact .inr (.inl rfl)
            · rename_i v' ho
              exact .inr (.inr ⟨v', ho, rfl⟩)

/-- The entries of a directory that is moved, in the volume it is on. -/
lemma removeOrig_entries {f : Found} {d : Ino} {v v' : Volume} (h : removeOrig bl f d v = .ok v')
    {a c : Ino} {n : Str} (e : v'.findEntry a n = some c) :
    v.findEntry a n = some c ∨ n = Path.dotDot ∧ a = f.inode ∧ c = d := by
  unfold removeOrig at h
  split at h
  · cases h
  · rename_i v₁ hr
    split at h
    · cases h
    · rename_i v₂ hd
      obtain ⟨-, gone, same, -⟩ := removeEntry_ok hd
      have e₂ : v₂.findEntry a n = some c := by
        split at h
        · cases h
          rwa [findEntry_linksDec] at e
        · cases h
          exact e
      have e₁ : v₁.findEntry a n = some c := by
        by_cases hp : a = f.parent ∧ n = f.name
        · rw [hp.1, hp.2, gone] at e₂
          cases e₂
        · rwa [same a n hp] at e₂
      unfold resetParent at hr
      split at hr
      · split at hr
        · cases hr
          by_cases hp : a = f.inode ∧ n = Path.dotDot
          · rw [hp.1, hp.2, findEntry_addEntry_self] at e₁
            exact .inr ⟨hp.2, hp.1, (Option.some.inj e₁).symm⟩
          · rw [findEntry_addEntry_of_ne hp] at e₁
            exact .inl e₁
        · cases hr
      · cases hr
        exact .inl e₁

/-- A rename enters files of one volume in directories of that volume exactly if it does not get as
far as the new entry, or lwext4 takes both paths to one partition. -/
theorem entersOwn_frename_iff :
    EntersOwn bl path newPath w (w.ext4Frename bl path newPath).2 ↔
      ∀ i j, w.writable path = .ok i → w.Linkable bl j path newPath →
        (w.sMp i).bdev = (w.sMp j).bdev := by
  rcases frename_effect bl path newPath w with
    ⟨no, hw⟩ | ⟨i, f, j, d, name, v, hi, hf, hj, hl, hb, hr, out⟩
  · rw [hw]
    exact ⟨fun _ _ j _ lk => absurd lk (no j), fun _ _ _ _ _ e => .inl e⟩
  · obtain ⟨hk, hd, -⟩ := linkRenamed_ok hr
    have hm := (writable_ok.mp hi).1
    have linked : w.Linkable bl j path newPath := ⟨i, f, d, name, hi, hf, hj, hl, hb⟩
    have self : (w.setVolume j v).volumes (w.sMp j).bdev = v := Function.update_self _ _ _
    have other : ∀ {p}, p ≠ (w.sMp j).bdev → (w.setVolume j v).volumes p = w.volumes p :=
      fun h => Function.update_of_ne h _ _
    constructor
    · intro own i' j' hi' lk
      cases hi.symm.trans hi'
      obtain ⟨-, -, -, -, -, -, hj', -⟩ := lk
      cases hj.symm.trans hj'
      by_contra ne
      -- the new entry is in the one volume, and its file in the other
      have e : ((w.ext4Frename bl path newPath).2.volumes (w.sMp j).bdev).findEntry d name =
          some f.inode := by
        rcases out with ⟨-, rfl⟩ | h | ⟨v', -, h⟩
        · exact absurd rfl ne
        · rw [h, self, hd]
        · rw [h]
          show (Function.update (w.setVolume j v).volumes (w.sMp i).bdev v' _).findEntry d name = _
          rw [Function.update_of_ne (Ne.symm ne), self, hd]
      have elsewhere : ∀ c, ¬ w.FileAt bl path (w.sMp j).bdev c := by
        rintro c ⟨i', -, hi', hp, -⟩
        cases hm.symm.trans hi'
        exact ne hp
      rcases own e with e | h | ⟨-, h, -⟩
      · have free : (w.volumes (w.sMp j).bdev).findEntry d name = none := hardlinkLoop_ok hl
        rw [free] at e
        cases e
      · exact elsewhere _ h
      · exact elsewhere _ h
    · intro one p a n c e
      have hp := one i j hi linked
      have file : w.FileAt bl path (w.sMp j).bdev f.inode := ⟨i, f, hm, hp, hf, rfl⟩
      have place : w.PlaceAt newPath (w.sMp j).bdev d := ⟨j, name, hj, rfl, hl⟩
      have link : ∀ {p}, ((w.setVolume j v).volumes p).findEntry a n = some c →
          (w.volumes p).findEntry a n = some c ∨ w.FileAt bl path p c := by
        intro p e
        by_cases hp : p = (w.sMp j).bdev
        · subst hp
          rw [self] at e
          by_cases hn : a = d ∧ n = name
          · rw [hn.1, hn.2, hd] at e
            cases e
            exact .inr file
          · rw [hk a n hn] at e
            exact .inl e
        · rw [other hp] at e
          exact .inl e
      rcases out with ⟨h, -⟩ | h | ⟨v', ho, h⟩
      · rw [h] at e
        exact .inl e
      · rw [h] at e
        exact (link e).imp_right .inl
      · rw [h] at e
        by_cases hpi : p = (w.sMp i).bdev
        · subst hpi
          have e' : v'.findEntry a n = some c := by
            have e : (Function.update (w.setVolume j v).volumes (w.sMp i).bdev v'
              (w.sMp i).bdev).findEntry a n = some c := e
            rwa [Function.update_self] at e
          rcases removeOrig_entries ho e' with e₁ | ⟨rfl, rfl, rfl⟩
          · exact (link e₁).imp_right .inl
          · exact .inr (.inr ⟨rfl, hp ▸ file, hp ▸ place⟩)
        · have e₁ : (Function.update (w.setVolume j v).volumes (w.sMp i).bdev v' p).findEntry a n =
            some c := e
          rw [Function.update_of_ne hpi] at e₁
          exact (link e₁).imp_right .inl

end World
end Lwext4
end Evfs
