import Evfs.Lwext4.InUse
import Evfs.Lwext4.Renaming

/-!
# Where a link is made

`ext4_flink` and `ext4_fsymlink` make an entry on at most one volume: `Gains` says that a volume has
an entry that it had not before, and `LinkMade` when that comes about, in terms of what the two
functions ask for on their way. `ext4_flink` compares the mount points of its two paths,
`ext4_fsymlink` has only one path to look at: its target is a text.
-/

namespace Evfs
namespace Lwext4
open Lib
namespace Volume
variable {bl : BlockLayer} {v v₁ v' : Volume} {ftype : Option FileType}

/-- There is an entry that was not there before, or that is one of a new directory. -/
def Gains (v v' : Volume) : Prop :=
  ∃ d n c, v'.findEntry d n = some c ∧
    (v.findEntry d n = none ∨ v.used d = false ∧ v'.used d = true)

/-- With the same entries and the same inodes in use there is nothing new. -/
lemma not_gains (hu : v'.used = v.used) (he : ∀ d n, v'.findEntry d n = v.findEntry d n) :
    ¬ v.Gains v' := by
  rintro ⟨d, n, c, e, free | ⟨unused, used⟩⟩
  · rw [he, free] at e
    cases e
  · rw [hu, unused] at used
    cases used

/-- What was gained stays when entries and inodes in use do. -/
lemma Gains.congr (g : v.Gains v₁) (hu : v'.used = v₁.used)
    (he : ∀ d n, v'.findEntry d n = v₁.findEntry d n) : v.Gains v' := by
  obtain ⟨d, n, c, e, new⟩ := g
  refine ⟨d, n, c, (he d n).trans e, new.imp_right fun h => ⟨h.1, ?_⟩⟩
  rw [hu]
  exact h.2

/-- An entry that is made is there. -/
lemma link_entry {d c : Ino} {name : Str} (h : link bl d c name v = .ok v') :
    ∃ x, v'.findEntry d name = some x := by
  rw [findEntry_link h]
  split
  · exact ⟨_, rfl⟩
  · split
    · exact ⟨_, rfl⟩
    · exact ⟨_, if_pos ⟨rfl, rfl⟩⟩

/-- A new name of an inode. -/
lemma gains_link {d c : Ino} {name : Str} (h : link bl d c name v = .ok v')
    (free : v.findEntry d name = none) : v.Gains v' := by
  obtain ⟨x, e⟩ := link_entry h
  exact ⟨d, name, x, e, .inl free⟩

/-- An entry that `O_CREAT` makes is gained, whatever is made after it. -/
lemma gains_enter {name : Str} {d c : Ino} {creat : Bool} {type : FileType}
    (h : enter bl creat type name d v = .ok (c, v₁)) (free : v.findEntry d name = none)
    (next : v' = v₁ ∨ v₁.Gains v') (grows : Grows (fun _ => False) v₁ v') : v.Gains v' := by
  obtain ⟨-, e⟩ | ⟨-, v₂, ha, hl⟩ := enter_steps h
  · rw [free] at e
    cases e
  obtain ⟨unused, hu, hi⟩ := allocInode_ok ha
  have used : v₁.used = Function.update v.used c true := (link_same hl).1.trans hu
  rcases next with rfl | ⟨a, n, x, e, new⟩
  · obtain ⟨x, e⟩ := link_entry hl
    exact ⟨d, name, x, e, .inl free⟩
  · refine ⟨a, n, x, e, ?_⟩
    by_cases hac : a = c
    · -- the inode that was allocated was free before
      subst hac
      exact .inr ⟨unused, grows.used (by rw [used, Function.update_self])⟩
    · rcases new with hn | ⟨hu₁, hu'⟩
      · rw [findEntry_link hl] at hn
        simp only [hac, false_and, and_false, if_false] at hn
        split at hn
        · cases hn
        · rw [findEntry, hi, Function.update_of_ne hac] at hn
          exact .inl hn
      · rw [used, Function.update_of_ne hac] at hu₁
        exact .inr ⟨hu₁, hu'⟩

/-- The steps that open a path are those of the loop. -/
lemma Opens.openLoop {creat : Bool} {names : List Str} {ref parent : Ino} {f : Found}
    (o : Opens bl creat ftype names ref parent v f v') :
    Volume.openLoop bl creat ftype names ref parent v = .ok (f, v') := by
  induction o with
  | last hok he ht => simp only [Volume.openLoop, if_pos hok, he, if_pos ht]
  | slash hd =>
    have no : ¬ NameOk [] := fun h => h.1 rfl
    simp only [Volume.openLoop, if_neg no, hd, and_self, if_true]
  | next hok he hd _ ih => simp only [Volume.openLoop, if_pos hok, he, if_pos hd, ih]

/-- What is found is opened with `O_CREAT` too, and nothing is made. -/
lemma Opens.found {creat : Bool} {names : List Str} {ref parent : Ino} {f : Found}
    (o : Opens bl false ftype names ref parent v f v') :
    Opens bl creat ftype names ref parent v f v' := by
  induction o with
  | last hok he ht =>
    obtain ⟨rfl, e⟩ := enter_false he
    exact .last hok (enter_some e) ht
  | slash hd => exact .slash hd
  | next hok he hd _ ih =>
    obtain ⟨rfl, e⟩ := enter_false he
    exact .next hok (enter_some e) hd ih

/-- A path that is opened is found, or entries of it are made. -/
lemma Opens.gains {creat : Bool} {names : List Str} {ref parent : Ino} {f : Found}
    (o : Opens bl creat ftype names ref parent v f v') :
    (v' = v ∧ Opens bl false ftype names ref parent v f v) ∨ v.Gains v' := by
  induction o with
  | @last name ref parent c v v' hok he ht =>
    cases hf : v.findEntry ref name with
    | none => exact .inr (gains_enter he hf (.inl rfl) .refl)
    | some x =>
      cases (enter_some hf).symm.trans he
      exact .inl ⟨rfl, .last hok (enter_some hf) ht⟩
  | slash hd => exact .inl ⟨rfl, .slash hd⟩
  | @next name next names ref parent c v v₁ v' f hok he hd o ih =>
    cases hf : v.findEntry ref name with
    | none => exact .inr (gains_enter he hf (ih.imp_left And.left) (.opens o))
    | some x =>
      cases (enter_some hf).symm.trans he
      rcases ih with ⟨rfl, o'⟩ | g
      · exact .inl ⟨rfl, .next hok (enter_some hf) hd o'⟩
      · exact .inr g

/-- Opening with `O_CREAT` makes an entry exactly where the path is not found without. -/
lemma gains_genericOpen_iff {names : List Str} {f : Found}
    (h : genericOpen bl true ftype names v = .ok (f, v')) :
    v.Gains v' ↔ ∀ f, find bl ftype names v ≠ .ok f := by
  constructor
  · intro g f' hf
    have o : Opens bl true ftype names rootIndex rootIndex v f' v :=
      (openLoop_opens (find_ok hf)).found
    cases h.symm.trans o.openLoop
    exact not_gains rfl (fun _ _ => rfl) g
  · intro no
    rcases (openLoop_opens h).gains with ⟨-, o⟩ | g
    · refine absurd ?_ (no f)
      simp only [find, genericOpen, o.openLoop, Except.map]
    · exact g

/-! ### The two functions on a volume -/

/-- `ext4_flink` gets as far as the new entry: the old path leads to a file, and the new one is free
and has room. -/
def FlinkMade (bl : BlockLayer) (names newNames : List Str) (v : Volume) : Prop :=
  ∃ f d name, find bl none names v = .ok f ∧ ¬ v.IsDir f.inode ∧
    hardlinkLoop newNames rootIndex v = .ok (d, name) ∧ bl.entry v d name = true

/-- A text can be stored as the target of a symbolic link. -/
def Storable (bl : BlockLayer) (target : Str) (i : Ino) (v : Volume) : Prop :=
  target.length ≤ v.blockSize ∧ (60 ≤ target.length → target.length ≤ bl.room v i 0 target.length)

/-- `ext4_fsymlink` makes an entry: the path is not that of a link, it can be made one, and the
target can be stored in it. -/
def FsymlinkMade (bl : BlockLayer) (target : Str) (names : List Str) (v : Volume) : Prop :=
  (∀ f, find bl (some .symlink) names v ≠ .ok f) ∧
    ∃ f v', genericOpen bl true (some .symlink) names v = .ok (f, v') ∧
      (target ≠ [] → Storable bl target f.inode v')

/-- An aborted transaction gains nothing. -/
lemma not_gains_error {r : Except ErrorCode Volume} {e : ErrorCode} (h : r = .error e) :
    ¬ v.Gains (World.trans v r).2 := by
  rw [h]
  exact not_gains rfl fun _ _ => rfl

/-- `ext4_flink` makes an entry exactly if it gets that far. -/
lemma gains_flink_iff {names newNames : List Str} :
    v.Gains (World.trans v (flink bl names newNames v)).2 ↔ FlinkMade bl names newNames v := by
  constructor
  · intro g
    cases h : flink bl names newNames v with
    | error e => exact absurd g (not_gains_error h)
    | ok v' =>
      unfold flink at h
      split at h
      · cases h
      · rename_i f hf
        split at h
        · cases h
        · rename_i hd
          split at h
          · cases h
          · rename_i d name hl
            refine ⟨f, d, name, hf, hd, hl, ?_⟩
            unfold link at h
            split at h
            · assumption
            · cases h
  · rintro ⟨f, d, name, hf, hd, hl, hb⟩
    have h : link bl d f.inode name v = .ok ((v.addEntry bl d name f.inode).linksInc f.inode) := by
      rw [link, if_pos hb, if_neg hd]
    have e : flink bl names newNames v = .ok ((v.addEntry bl d name f.inode).linksInc f.inode) := by
      simp only [flink, hf, if_neg hd, hl, h]
    rw [e]
    exact gains_link h (hardlinkLoop_ok hl)

/-- What `ext4_fsymlink` does to a path that it opens. -/
lemma fsymlink_opened (target : Str) {names : List Str} {f : Found}
    (h : genericOpen bl true (some .symlink) names v = .ok (f, v₁)) :
    ((target ≠ [] → Storable bl target f.inode v₁) ∧ ∃ v', fsymlink bl target names v = .ok v' ∧
      v'.used = v₁.used ∧ ∀ d n, v'.findEntry d n = v₁.findEntry d n) ∨
    (¬ (target ≠ [] → Storable bl target f.inode v₁) ∧
      ∃ e, fsymlink bl target names v = .error e) := by
  simp only [fsymlink, h]
  split
  · rename_i ht
    exact .inl ⟨fun no => absurd ht no, _, rfl, rfl, fun _ _ => rfl⟩
  · rename_i ht
    split
    · rename_i hl
      exact .inr ⟨fun ok => absurd (ok ht).1 (not_le.mpr hl), _, rfl⟩
    · rename_i hl
      split
      · rename_i hr
        exact .inr ⟨fun ok => absurd ((ok ht).2 hr.1) (not_le.mpr hr.2), _, rfl⟩
      · rename_i hr
        refine .inl ⟨fun _ => ⟨not_lt.mp hl, fun h60 => not_lt.mp fun lt => hr ⟨h60, lt⟩⟩, _, rfl,
          rfl, fun d n => findEntry_modify (by intro _; rfl) d n⟩

/-- `ext4_fsymlink` makes an entry exactly if it finds none and its transaction is not aborted. -/
lemma gains_fsymlink_iff {target : Str} {names : List Str} :
    v.Gains (World.trans v (fsymlink bl target names v)).2 ↔ FsymlinkMade bl target names v := by
  cases h : genericOpen bl true (some .symlink) names v with
  | error e =>
    constructor
    · intro g
      exact absurd g (not_gains_error (e := e) (by simp only [fsymlink, h]))
    · rintro ⟨-, f, v', h', -⟩
      rw [h] at h'
      cases h'
  | ok r =>
    obtain ⟨f, v₁⟩ := r
    have made : FsymlinkMade bl target names v ↔
        v.Gains v₁ ∧ (target ≠ [] → Storable bl target f.inode v₁) := by
      rw [gains_genericOpen_iff h]
      constructor
      · rintro ⟨no, f', v', h', ok⟩
        cases h.symm.trans h'
        exact ⟨no, ok⟩
      · exact fun ⟨no, ok⟩ => ⟨no, f, v₁, h, ok⟩
    rw [made]
    rcases fsymlink_opened target h with ⟨ok, v', e, hu, he⟩ | ⟨no, e, he⟩
    · rw [e]
      exact ⟨fun g => ⟨g.congr hu.symm fun d n => (he d n).symm, ok⟩, fun g => g.1.congr hu he⟩
    · exact ⟨fun g => absurd g (not_gains_error he), fun g => absurd g.2 no⟩

end Volume

/-! ### The two functions -/

namespace World
variable {bl : BlockLayer} {w : World} {existing newlink : Str} {i : Fin 4} {p : PartRef}

/-- `link` or `symlink` makes an entry on the volume in the slot. -/
def LinkMade (bl : BlockLayer) (symbolic : Bool) (existing newlink : Str) (i : Fin 4) (w : World) :
    Prop :=
  if symbolic then
    w.writable newlink = .ok i ∧
      Volume.FsymlinkMade bl existing (w.names newlink i) (w.volume i)
  else
    w.writable existing = .ok i ∧ w.getMount newlink = some i ∧
      Volume.FlinkMade bl (w.names existing i) (w.names newlink i) (w.volume i)

/-- A volume that is replaced is the only one to gain something. -/
lemma gains_setVolume_iff {v : Volume} : (w.volumes p).Gains ((w.setVolume i v).volumes p) ↔
    (w.volume i).Gains v ∧ (w.sMp i).bdev = p := by
  by_cases hp : (w.sMp i).bdev = p
  · subst hp
    show Volume.Gains _ (Function.update w.volumes (w.sMp i).bdev v _) ↔ _
    rw [Function.update_self]
    exact ⟨fun g => ⟨g, rfl⟩, And.left⟩
  · have e : (w.setVolume i v).volumes p = w.volumes p := Function.update_of_ne (Ne.symm hp) _ _
    rw [e]
    exact ⟨fun g => absurd g (Volume.not_gains rfl fun _ _ => rfl), fun g => absurd g.2 hp⟩

/-- The volume that `ext4_flink` makes an entry on. -/
lemma gains_ext4Flink_iff : (w.volumes p).Gains ((w.ext4Flink bl existing newlink).2.volumes p) ↔
    ∃ i, w.LinkMade bl false existing newlink i ∧ (w.sMp i).bdev = p := by
  unfold ext4Flink LinkMade
  split
  · rename_i hw
    constructor
    · exact fun g => absurd g (Volume.not_gains rfl fun _ _ => rfl)
    · rintro ⟨i, ⟨hi, -⟩, -⟩
      rw [hw] at hi
      cases hi
  · rename_i i hw
    split
    · rename_i hm
      constructor
      · exact fun g => absurd g (Volume.not_gains rfl fun _ _ => rfl)
      · rintro ⟨j, ⟨hj, hm', -⟩, -⟩
        cases hw.symm.trans hj
        exact absurd hm' hm
    · rename_i hm
      show Volume.Gains _ ((w.setVolume i _).volumes p) ↔ _
      rw [gains_setVolume_iff, Volume.gains_flink_iff]
      constructor
      · exact fun ⟨g, hp⟩ => ⟨i, ⟨hw, not_not.mp hm, g⟩, hp⟩
      · rintro ⟨j, ⟨hj, -, g⟩, hp⟩
        cases hw.symm.trans hj
        exact ⟨g, hp⟩

/-- The volume that `ext4_fsymlink` makes an entry on. -/
lemma gains_ext4Fsymlink_iff :
    (w.volumes p).Gains ((w.ext4Fsymlink bl existing newlink).2.volumes p) ↔
      ∃ i, w.LinkMade bl true existing newlink i ∧ (w.sMp i).bdev = p := by
  unfold ext4Fsymlink changeTrans LinkMade
  cases hw : w.writable newlink with
  | error e =>
    rw [change_error hw]
    constructor
    · exact fun g => absurd g (Volume.not_gains rfl fun _ _ => rfl)
    · rintro ⟨i, ⟨hi, -⟩, -⟩
      cases hi
  | ok i =>
    rw [change_eq hw, gains_setVolume_iff, Volume.gains_fsymlink_iff]
    constructor
    · exact fun ⟨g, hp⟩ => ⟨i, ⟨rfl, g⟩, hp⟩
    · rintro ⟨j, ⟨hj, g⟩, hp⟩
      cases hj
      exact ⟨g, hp⟩

end World
end Lwext4
end Evfs
