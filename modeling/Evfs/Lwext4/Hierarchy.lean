import Evfs.Lib.Hierarchy
import Evfs.Lwext4.InUse
import Evfs.Lwext4.Subtree

/-!
# The hierarchy of a volume

The inodes and directories of a volume are a hierarchy in the sense of `Lib.Hierarchy`. A volume is
`Clean` when that is consistent: this is what `e2fsck` looks for in the directory tree. Every function
that changes directories is an operation of hierarchies (`hierarchy_link`, `hierarchy_unlink`), so
that what it does leaves a volume clean.
-/

namespace Evfs
namespace Lwext4
open Lib

/-- `EXT4_LINK_MAX`. From there on the count of an indexed directory is not kept any more. -/
def linkMax : Nat := 65000

/-- Inodes are numbered from `1` on, as far as the volume has them. -/
def BlockLayer.Numbers (bl : BlockLayer) : Prop :=
  ∀ ⦃v d i⦄, bl.inode v d = some i → v.Has i

namespace Volume

/-- The root and the special names; the inodes in `R` are in use without having a name. -/
def layout (R : Set Ino) : Layout Ino Str where
  root := rootIndex
  self := Path.dot
  up := Path.dotDot
  reserved := R
  self_ne_up := by decide

def hierarchy (v : Volume) : Hierarchy Ino Str where
  used := {i | v.used i = true}
  dirs := {i | v.used i = true ∧ v.IsDir i}
  entry q := v.findEntry q.1 q.2
  links i := (v.inodes i).links

/-- What a check of the directory tree would not complain about. -/
structure Clean (R : Set Ino) (v : Volume) : Prop where
  consistent : v.hierarchy.Consistent (layout R)
  has {d} : v.used d = true → v.IsDir d → v.Has d
  named {d name c} : v.findEntry d name = some c → name ≠ []

/-- There is room for one more link everywhere. -/
def Roomy (v : Volume) : Prop := ∀ i, (v.inodes i).links + 1 < linkMax

variable {bl : BlockLayer} {R : Set Ino} {v v' : Volume} {d c i : Ino} {name : Str}
  {names : List Str}

/-- An inode may change as long as there is room for one more link to it. -/
lemma Roomy.modify {f : Inode → Inode} (room : v.Roomy) (h : (f (v.inodes i)).links + 1 < linkMax) :
    (v.modify i f).Roomy := by
  intro j
  by_cases hj : j = i
  · subst hj
    rwa [inodes_modify_self]
  · rw [inodes_modify_of_ne hj]
    exact room j

/-! ### What the parts of an operation do -/

/-- Types and the inodes in use make the directories. -/
lemma dirs_congr (hu : v'.used = v.used) (ht : ∀ a, (v'.inodes a).type = (v.inodes a).type) :
    v'.hierarchy.dirs = v.hierarchy.dirs := by
  simp only [hierarchy, IsDir, hu, ht]

/-- A change of one inode, seen from the hierarchy. -/
lemma hierarchy_modify {f : Inode → Inode} (ht : ∀ n, (f n).type = n.type) :
    (v.modify i f).hierarchy = { v.hierarchy with
      entry := fun q => if q.1 = i then (f (v.inodes i)).entries.lookup q.2 else v.findEntry q.1 q.2
      links := Function.update v.hierarchy.links i (f (v.inodes i)).links } := by
  apply Hierarchy.ext
  case used => rfl
  case dirs => exact dirs_congr rfl (inodes_modify_congr _ ht)
  case entry =>
    funext q
    by_cases hq : q.1 = i
    · simp only [hierarchy, findEntry, hq, inodes_modify_self, if_true]
    · simp only [hierarchy, findEntry, inodes_modify_of_ne hq, if_neg hq]
  case links =>
    refine Function.eq_update_iff.mpr ⟨?_, fun a ha => ?_⟩
    · simp only [hierarchy, inodes_modify_self]
    · simp only [hierarchy, inodes_modify_of_ne ha]

/-- A change of what does not belong to the hierarchy. -/
lemma hierarchy_other {f : Inode → Inode} (ht : ∀ n, (f n).type = n.type)
    (he : ∀ n, (f n).entries = n.entries) (hl : ∀ n, (f n).links = n.links) :
    (v.modify i f).hierarchy = v.hierarchy := by
  rw [hierarchy_modify ht]
  apply Hierarchy.ext
  case used => rfl
  case dirs => rfl
  case entry =>
    funext q
    simp only [he]
    split
    · rename_i hq
      rw [← hq]
      rfl
    · rfl
  case links =>
    rw [hl]
    exact Function.update_eq_self _ _

/-- A change of a link count. -/
lemma hierarchy_links {f : Inode → Inode} (ht : ∀ n, (f n).type = n.type)
    (he : ∀ n, (f n).entries = n.entries) : (v.modify i f).hierarchy = { v.hierarchy with
      links := Function.update v.hierarchy.links i (f (v.inodes i)).links } := by
  rw [hierarchy_modify ht]
  apply Hierarchy.ext
  case used => rfl
  case dirs => rfl
  case entry =>
    funext q
    simp only [he]
    split
    · rename_i hq
      rw [← hq]
      rfl
    · rfl
  case links => rfl

/-- An entry that is added leads somewhere from now on. -/
lemma hierarchy_addEntry : (v.addEntry bl d name c).hierarchy = { v.hierarchy with
    entry := Function.update v.hierarchy.entry (d, name) (some c) } := by
  apply Hierarchy.ext
  case used => rfl
  case dirs => exact dirs_congr rfl type_addEntry
  case entry =>
    refine Function.eq_update_iff.mpr ⟨findEntry_addEntry_self, fun q hq => ?_⟩
    exact findEntry_addEntry_of_ne fun e => hq (Prod.ext e.1 e.2)
  case links =>
    funext a
    exact inodes_modify_congr Inode.links (by intro _; rfl) a

/-- One that is removed leads nowhere. -/
lemma hierarchy_removeEntry (h : v.removeEntry d name = .ok v') : v'.hierarchy = { v.hierarchy with
    entry := Function.update v.hierarchy.entry (d, name) none } := by
  obtain ⟨-, gone, same, types⟩ := removeEntry_ok h
  unfold removeEntry at h
  split at h
  · cases h
    apply Hierarchy.ext
    case used => rfl
    case dirs => exact dirs_congr rfl types
    case entry =>
      refine Function.eq_update_iff.mpr ⟨gone, fun q hq => same q.1 q.2 fun e => hq ?_⟩
      exact Prod.ext e.1 e.2
    case links =>
      funext a
      exact inodes_modify_congr Inode.links (by intro _; rfl) a
  · cases h

/-- A link is counted, as long as there is room. -/
lemma hierarchy_linksInc (room : (v.inodes i).links + 1 < linkMax) :
    (v.linksInc i).hierarchy = { v.hierarchy with
      links := Function.update v.hierarchy.links i (v.hierarchy.links i + 1) } := by
  have e : ((v.inodes i).links + 1) % 2 ^ 16 = (v.inodes i).links + 1 :=
    Nat.mod_eq_of_lt (room.trans (by decide))
  rw [linksInc, hierarchy_links (by intro _; rfl) (by intro _; rfl)]
  simp only [e]
  rfl

/-- A link less is counted. -/
lemma hierarchy_linksDec : (v.linksDec i).hierarchy = { v.hierarchy with
    links := Function.update v.hierarchy.links i
      (if v.IsDir i ∧ v.hierarchy.links i ≤ 2 then v.hierarchy.links i
        else v.hierarchy.links i - 1) } :=
  hierarchy_links (fun _ => rfl) fun _ => rfl

/-- A freed inode is not in use any more. -/
lemma hierarchy_freeInode : (v.freeInode i).hierarchy = { v.hierarchy with
    used := v.hierarchy.used \ {i}
    dirs := v.hierarchy.dirs \ {i} } := by
  have used : ∀ a, (v.freeInode i).used a = true ↔ v.used a = true ∧ a ≠ i := by
    intro a
    by_cases ha : a = i
    · simp [freeInode, ha]
    · simp [freeInode, ha]
  apply Hierarchy.ext
  case used =>
    ext a
    exact used a
  case dirs =>
    ext a
    show (v.freeInode i).used a = true ∧ _ ↔ (v.used a = true ∧ v.IsDir a) ∧ a ≠ i
    rw [used]
    exact and_right_comm
  case entry => rfl
  case links => rfl

/-- Data do not matter. -/
lemma hierarchy_truncInode {size : Nat} : (v.truncInode i size).hierarchy = v.hierarchy :=
  hierarchy_other (fun _ => rfl) (fun _ => rfl) fun _ => rfl

/-- An emptied directory has no entries. -/
lemma hierarchy_truncDir : (v.truncDir i).hierarchy = { v.hierarchy with
    entry := fun q => if q.1 = i then none else v.hierarchy.entry q } := by
  rw [truncDir, hierarchy_modify (by intro _; rfl)]
  apply Hierarchy.ext
  case used => rfl
  case dirs => rfl
  case entry => rfl
  case links => exact Function.update_eq_self _ _

/-! ### Clean volumes -/

/-- What is free is not in use. -/
lemma not_used (h : v.used c = false) : c ∉ v.hierarchy.used := Bool.eq_false_iff.mp h

namespace Clean

/-- The hierarchy is all that counts. -/
lemma congr (cl : v.Clean R) (h : v'.hierarchy = v.hierarchy)
    (hn : v'.inodesCount = v.inodesCount) : v'.Clean R where
  consistent := h ▸ cl.consistent
  has {d} hu hd := by
    have hd' : d ∈ v.hierarchy.dirs := h ▸ ⟨hu, hd⟩
    show 1 ≤ d ∧ d ≤ v'.inodesCount
    rw [hn]
    exact cl.has hd'.1 hd'.2
  named {d name c} e := by
    have e' : v.hierarchy.entry (d, name) = some c := h ▸ e
    exact cl.named e'

/-- What is no entry, type or count may change. -/
lemma modify (cl : v.Clean R) {f : Inode → Inode} (ht : ∀ n, (f n).type = n.type)
    (he : ∀ n, (f n).entries = n.entries) (hl : ∀ n, (f n).links = n.links) :
    (v.modify i f).Clean R :=
  cl.congr (hierarchy_other ht he hl) rfl

/-- What is found in a directory that is in use. -/
lemma used (cl : v.Clean R) (e : v.findEntry d name = some c) : v.used c = true :=
  cl.consistent.target (q := (d, name)) e

/-- Entries are in directories. -/
lemma holder (cl : v.Clean R) (e : v.findEntry d name = some c) : d ∈ v.hierarchy.dirs :=
  cl.consistent.holder (q := (d, name)) e

/-- The root is a directory. -/
lemma root (cl : v.Clean R) : rootIndex ∈ v.hierarchy.dirs := cl.consistent.root

/-- A directory is not free. -/
lemma ne_free (cl : v.Clean R) (hd : d ∈ v.hierarchy.dirs) (hu : v.used c = false) : d ≠ c := by
  rintro rfl
  exact not_used hu (cl.consistent.dirs_used hd)

/-- What is free has no entries. -/
lemma free (cl : v.Clean R) (hu : v.used d = false) (n : Str) : v.findEntry d n = none :=
  cl.consistent.free (fun h => not_used hu (cl.consistent.dirs_used h)) n

/-- A name that is free in a directory is not one of the special ones. -/
lemma plain (cl : v.Clean R) (hd : d ∈ v.hierarchy.dirs) (e : v.findEntry d name = none) :
    Hierarchy.Plain (layout R) (d, name) := by
  constructor
  · rintro rfl
    exact Option.some_ne_none _ ((cl.consistent.self hd).symm.trans e)
  · rintro rfl
    rcases cl.consistent.up_dir hd with ⟨rfl, eu⟩ | ⟨_, -, -, eu⟩
    · exact Option.some_ne_none _ (eu.symm.trans e)
    · exact Option.some_ne_none _ (eu.symm.trans e)

end Clean

/-! ### New entries -/

/-- An entry does not count itself. -/
lemma links_addEntry (a : Ino) : ((v.addEntry bl d name c).inodes a).links = (v.inodes a).links :=
  inodes_modify_congr Inode.links (by intro _; rfl) a

/-- `ext4_link` of a file is an entry and a link. -/
lemma hierarchy_link_file (h : link bl d c name v = .ok v') (hc : ¬ v.IsDir c)
    (room : (v.inodes c).links + 1 < linkMax) : v'.hierarchy = { v.hierarchy with
      entry := Function.update v.hierarchy.entry (d, name) (some c)
      links := Function.update v.hierarchy.links c (v.hierarchy.links c + 1) } := by
  unfold link at h
  split at h
  · cases h
    rw [hierarchy_linksInc (by rwa [links_addEntry]), hierarchy_addEntry]
  · cases h

/-- `ext4_link` of a directory is three entries and the links that go with them. -/
lemma hierarchy_link_dir (h : link bl d c name v = .ok v') (hc : v.IsDir c) (hdc : d ≠ c)
    (room : (v.inodes d).links + 1 < linkMax) : v'.hierarchy = { v.hierarchy with
      entry := Function.update (Function.update (Function.update v.hierarchy.entry (d, name)
        (some c)) (c, Path.dot) (some c)) (c, Path.dotDot) (some d)
      links := Function.update (Function.update v.hierarchy.links c 2) d
        (v.hierarchy.links d + 1) } := by
  unfold link at h
  split at h
  · split at h
    · cases h
      rw [hierarchy_linksInc, hierarchy_links (by intro _; rfl) (by intro _; rfl),
        hierarchy_addEntry, hierarchy_addEntry, hierarchy_addEntry]
      · simp only [Function.update_of_ne hdc]
      · rw [inodes_modify_of_ne hdc, links_addEntry, links_addEntry, links_addEntry]
        exact room
    · cases h
  · cases h

/-- The number of inodes is fixed. -/
lemma inodesCount_link (h : link bl d c name v = .ok v') : v'.inodesCount = v.inodesCount := by
  unfold link at h
  repeat' split at h
  all_goals cases h
  all_goals rfl

/-- A new inode has a number that the volume has. -/
lemma has_allocInode (num : bl.Numbers) {type : FileType}
    (h : allocInode bl type v = .ok (c, v')) : v.Has c ∧ v'.inodesCount = v.inodesCount := by
  unfold allocInode at h
  split at h
  · cases h
  · rename_i hi
    cases h
    exact ⟨num hi, rfl⟩

/-- A new inode is in use, without a name so far. -/
lemma hierarchy_allocInode (cl : v.Clean R) {type : FileType}
    (h : allocInode bl type v = .ok (c, v')) : v'.hierarchy = { v.hierarchy with
      used := insert c v.hierarchy.used
      dirs := if type = .dir then insert c v.hierarchy.dirs else v.hierarchy.dirs
      links := Function.update v.hierarchy.links c 0 } := by
  obtain ⟨free, hu, hi⟩ := allocInode_ok h
  have used : ∀ a, v'.used a = true ↔ a = c ∨ v.used a = true := by
    intro a
    rw [hu]
    by_cases ha : a = c
    · simp [ha]
    · simp [ha]
  have new : v'.inodes c = { type, mode := defaultMode type } := by
    rw [hi, Function.update_self]
  have other : ∀ {a}, a ≠ c → v'.inodes a = v.inodes a := fun ha => by
    rw [hi, Function.update_of_ne ha]
  apply Hierarchy.ext
  case used =>
    ext a
    exact used a
  case dirs =>
    ext a
    show v'.used a = true ∧ (v'.inodes a).type = .dir ↔ _
    rw [used]
    by_cases ha : a = c
    · subst ha
      rw [new]
      by_cases ht : type = .dir
      · simp [ht]
      · simp [ht, hierarchy, free]
    · rw [other ha]
      by_cases ht : type = .dir
      · simp [ht, ha, hierarchy, IsDir]
      · simp [ht, ha, hierarchy, IsDir]
  case entry =>
    funext q
    show (v'.inodes q.1).entries.lookup q.2 = v.findEntry q.1 q.2
    by_cases hq : q.1 = c
    · rw [hq, new]
      exact (cl.free free q.2).symm
    · rw [other hq]
      rfl
  case links =>
    refine Function.eq_update_iff.mpr ⟨?_, fun a ha => ?_⟩
    · exact congrArg Inode.links new
    · exact congrArg Inode.links (other ha)

namespace Clean

/-- Another name of a file. -/
theorem link (cl : v.Clean R) (hd : d ∈ v.hierarchy.dirs) (free : v.findEntry d name = none)
    (ok : name ≠ []) (hu : v.used c = true) (hc : ¬ v.IsDir c) (room : v.Roomy)
    (h : link bl d c name v = .ok v') : v'.Clean R := by
  have he : v'.hierarchy = v.hierarchy.addName (d, name) c (v.hierarchy.links c) := by
    rw [hierarchy_link_file h hc (room c)]
    apply Hierarchy.ext
    case used =>
      have hu' : c ∈ v.hierarchy.used := hu
      exact (Set.insert_eq_self.mpr hu').symm
    case dirs => rfl
    case entry => rfl
    case links => rfl
  refine ⟨?_, fun {a} hu' ht => ?_, fun {a n x} e => ?_⟩
  · rw [he]
    exact cl.consistent.addName (cl.plain hd free) hd free (fun h => hc h.2)
      (cl.consistent.exact hu)
  · have ha : a ∈ v'.hierarchy.dirs := ⟨hu', ht⟩
    rw [he] at ha
    show 1 ≤ a ∧ a ≤ v'.inodesCount
    rw [inodesCount_link h]
    exact cl.has ha.1 ha.2
  · rw [findEntry_link h] at e
    simp only [hc, false_and, if_false] at e
    split at e
    · rename_i hn
      rwa [hn.2]
    · exact cl.named e

end Clean

/-- A new file or directory. -/
lemma hierarchy_make (cl : v.Clean R) {type : FileType} {v₁ : Volume} (hd : d ∈ v.hierarchy.dirs)
    (room : (v.inodes d).links + 1 < linkMax) (ha : allocInode bl type v = .ok (c, v₁))
    (h : link bl d c name v₁ = .ok v') : v'.hierarchy =
      if type = .dir then v.hierarchy.addDir (layout R) (d, name) c
      else v.hierarchy.addName (d, name) c 0 := by
  obtain ⟨hu, hu₁, hi⟩ := allocInode_ok ha
  have hdc := cl.ne_free hd hu
  have ht : (v₁.inodes c).type = type := by rw [hi, Function.update_self]
  have hl : (v₁.inodes c).links = 0 := by rw [hi, Function.update_self]
  have hd₁ : (v₁.inodes d).links = (v.inodes d).links := by rw [hi, Function.update_of_ne hdc]
  split
  · rename_i hdir
    rw [hierarchy_link_dir h (ht.trans hdir) hdc (by rwa [hd₁]), hierarchy_allocInode cl ha]
    apply Hierarchy.ext
    case used => rfl
    case dirs => exact if_pos hdir
    case entry => rfl
    case links =>
      simp only [Function.update_of_ne hdc, Function.update_idem]
      rfl
  · rename_i hdir
    rw [hierarchy_link_file h (fun e => hdir (ht.symm.trans e)) (by rw [hl]; decide),
      hierarchy_allocInode cl ha]
    apply Hierarchy.ext
    case used => rfl
    case dirs => exact if_neg hdir
    case entry => rfl
    case links =>
      simp only [Function.update_self, Function.update_idem]
      rfl

namespace Clean

/-- A new file or directory leaves the volume clean. -/
theorem make (cl : v.Clean R) (num : bl.Numbers) {type : FileType} {v₁ : Volume}
    (hd : d ∈ v.hierarchy.dirs) (free : v.findEntry d name = none) (ok : name ≠ [])
    (room : (v.inodes d).links + 1 < linkMax) (ha : allocInode bl type v = .ok (c, v₁))
    (h : Volume.link bl d c name v₁ = .ok v') : v'.Clean R := by
  obtain ⟨hu, -, -⟩ := allocInode_ok ha
  have hc := not_used hu
  have plain := cl.plain hd free
  have made := hierarchy_make cl hd room ha h
  have consistent : v'.hierarchy.Consistent (layout R) ∧
      v'.hierarchy.dirs ⊆ insert c v.hierarchy.dirs := by
    split at made
    · rw [made]
      exact ⟨cl.consistent.addDir plain hd free hc, subset_rfl⟩
    · rw [made]
      have none : Counts v.hierarchy.entry c 0 :=
        Counts.zero_iff.mpr fun q e => hc (cl.consistent.target e)
      exact ⟨cl.consistent.addName plain hd free (fun h => hc (cl.consistent.dirs_used h)) none,
        Set.subset_insert _ _⟩
  obtain ⟨has, hn⟩ := has_allocInode num ha
  refine ⟨consistent.1, fun {a} hu' ht' => ?_, fun {a n x} e => ?_⟩
  · show 1 ≤ a ∧ a ≤ v'.inodesCount
    rw [inodesCount_link h, hn]
    rcases consistent.2 ⟨hu', ht'⟩ with rfl | hv
    · exact has
    · exact cl.has hv.1 hv.2
  · rw [findEntry_link h] at e
    split at e
    · rename_i hn
      rw [hn.2.2]
      decide
    · split at e
      · rename_i hn
        rw [hn.2.2]
        decide
      · split at e
        · rename_i hn
          rwa [hn.2]
        · have old : v₁.findEntry a n = v.findEntry a n :=
            congrFun (congrArg Hierarchy.entry (hierarchy_allocInode cl ha)) (a, n)
          rw [old] at e
          exact cl.named e

/-- The entry was there, or it is made. -/
lemma enter (cl : v.Clean R) (num : bl.Numbers) {creat : Bool} {type : FileType}
    (hd : d ∈ v.hierarchy.dirs) (ok : name ≠ [])
    (room : v.findEntry d name = none → (v.inodes d).links + 1 < linkMax)
    (h : enter bl creat type name d v = .ok (c, v')) : v'.Clean R ∧ v'.used c = true := by
  rcases enter_steps h with ⟨rfl, e⟩ | ⟨free, v₁, ha, hl⟩
  · exact ⟨cl, cl.used e⟩
  · refine ⟨cl.make num hd free ok (room free) ha hl, ?_⟩
    obtain ⟨-, hu, -⟩ := allocInode_ok ha
    rw [(link_same hl).1, hu, Function.update_self]

/-- A walk from a directory may add a link to it. Where it has made a directory it goes on in there,
so that nothing else gets another link. -/
lemma openLoop (cl : v.Clean R) (num : bl.Numbers) {creat : Bool} {ftype : Option FileType}
    {parent : Ino} {f : Found} (hd : d ∈ v.hierarchy.dirs)
    (dots : ∀ n ∈ names, n ≠ Path.dot ∧ n ≠ Path.dotDot)
    (room : v.Roomy ∨ (v.inodes d).links + 1 < linkMax ∧
      ∀ n, n ≠ Path.dot → n ≠ Path.dotDot → v.findEntry d n = none)
    (h : openLoop bl creat ftype names d parent v = .ok (f, v')) :
    v'.Clean R ∧ v'.used f.inode = true := by
  replace h := openLoop_opens h
  induction h with
  | @last name ref _ _ v _ hn he _ =>
    refine cl.enter num hd hn.1 (fun _ => ?_) he
    rcases room with room | ⟨room, -⟩
    · exact room _
    · exact room
  | slash _ => exact ⟨cl, cl.consistent.dirs_used hd⟩
  | @next name next names ref parent c v v₁ v' f hn he hdir _ ih =>
    have dots' : ∀ n ∈ next :: names, n ≠ Path.dot ∧ n ≠ Path.dotDot := fun n hm =>
      dots n (List.mem_cons_of_mem _ hm)
    have link : (v.inodes ref).links + 1 < linkMax := by
      rcases room with room | ⟨room, -⟩
      · exact room _
      · exact room
    obtain ⟨cl₁, hu⟩ := cl.enter num hd hn.1 (fun _ => link) he
    refine ih cl₁ ⟨hu, hdir⟩ dots' ?_
    rcases enter_steps he with ⟨rfl, e⟩ | ⟨free, v₂, ha, hl⟩
    · rcases room with room | ⟨-, none⟩
      · exact .inl room
      · obtain ⟨h₁, h₂⟩ := dots name List.mem_cons_self
        rw [none _ h₁ h₂] at e
        cases e
    · right
      have made := hierarchy_make cl hd link ha hl
      rw [if_pos rfl] at made
      have hcr := (cl.ne_free hd (allocInode_ok ha).1).symm
      have two : (v₁.inodes c).links = 2 := by
        have e := congrFun (congrArg Hierarchy.links made) c
        simpa [hierarchy, Hierarchy.addDir, hcr] using e
      refine ⟨by rw [two]; decide, fun n h₁ h₂ => ?_⟩
      have e := congrFun (congrArg Hierarchy.entry made) (c, n)
      refine e.trans ?_
      have empty := cl.free (allocInode_ok ha).1 n
      simp [Hierarchy.addDir, layout, h₁, h₂, hcr, hierarchy, empty]

/-- A path leads to a directory by its last separator, or to an entry. -/
lemma found (cl : v.Clean R) {ftype : Option FileType} {f : Found}
    (h : find bl ftype names v = .ok f) :
    f.inode ∈ v.hierarchy.dirs ∧ f.name = [] ∨
      v.findEntry f.parent f.name = some f.inode ∧ f.name ∈ names ∧ f.name ≠ [] := by
  have walk : ∀ {names d parent v₁}, d ∈ v.hierarchy.dirs →
      Opens bl false ftype names d parent v f v₁ →
      f.inode ∈ v.hierarchy.dirs ∧ f.name = [] ∨
        v.findEntry f.parent f.name = some f.inode ∧ f.name ∈ names ∧ f.name ≠ [] := by
    intro names d parent v₁ hd o
    clear h
    induction o with
    | last hn he _ => exact .inr ⟨(enter_false he).2, List.mem_cons_self, hn.1⟩
    | slash _ => exact .inl ⟨hd, rfl⟩
    | next _ he hdir _ ih =>
      obtain ⟨rfl, e⟩ := enter_false he
      rcases ih cl ⟨cl.used e, hdir⟩ with h | ⟨e, hm, hn⟩
      · exact .inl h
      · exact .inr ⟨e, List.mem_cons_of_mem _ hm, hn⟩
  exact walk cl.root (openLoop_opens (find_ok h))

/-- Where a hard link is made. -/
lemma hardlink (cl : v.Clean R) {ref : Ino} (hr : ref ∈ v.hierarchy.dirs)
    (h : hardlinkLoop names ref v = .ok (d, name)) : d ∈ v.hierarchy.dirs ∧ name ≠ [] := by
  induction names generalizing ref with
  | nil => cases h
  | cons n names ih =>
    cases names with
    | nil =>
      simp only [hardlinkLoop] at h
      split at h
      · rename_i ok
        split at h
        · cases h
        · cases h
          exact ⟨hr, ok.1⟩
      · split at h
        · cases h
        · cases h
    | cons next names =>
      simp only [hardlinkLoop] at h
      split at h
      · split at h
        · rename_i e
          split at h
          · rename_i hd
            exact ih ⟨cl.used e, hd⟩ h
          · cases h
        · cases h
      · cases h

/-! ### Functions that remove nothing -/

/-- So does a change of mode or times. -/
lemma setInode (cl : v.Clean R) {f : Inode → Inode} (h : setInode bl f names v = .ok v')
    (ht : ∀ n, (f n).type = n.type) (he : ∀ n, (f n).entries = n.entries)
    (hl : ∀ n, (f n).links = n.links) : v'.Clean R := by
  unfold Volume.setInode at h
  split at h
  · cases h
  · cases h
    exact cl.modify ht he hl

/-- So does opening a path, whatever has to be made for it. -/
lemma genericOpen (cl : v.Clean R) (num : bl.Numbers) (room : v.Roomy) {creat : Bool}
    {ftype : Option FileType} {f : Found} (dots : ∀ n ∈ names, n ≠ Path.dot ∧ n ≠ Path.dotDot)
    (h : genericOpen bl creat ftype names v = .ok (f, v')) : v'.Clean R :=
  (cl.openLoop num cl.root dots (.inl room) h).1

/-- So does `ext4_dir_mk`. -/
lemma dirMk (cl : v.Clean R) (num : bl.Numbers) (room : v.Roomy)
    (dots : ∀ n ∈ names, n ≠ Path.dot ∧ n ≠ Path.dotDot) (h : dirMk bl names v = .ok v') :
    v'.Clean R := by
  unfold Volume.dirMk at h
  split at h
  · cases h
    exact cl
  · cases ho : Volume.genericOpen bl true (some .dir) names v with
    | error e =>
      rw [ho] at h
      cases h
    | ok r =>
      rw [ho] at h
      cases h
      exact cl.genericOpen num room dots ho

/-- So does `ext4_fsymlink`. -/
lemma fsymlink (cl : v.Clean R) (num : bl.Numbers) (room : v.Roomy) {target : Str}
    (dots : ∀ n ∈ names, n ≠ Path.dot ∧ n ≠ Path.dotDot)
    (h : fsymlink bl target names v = .ok v') : v'.Clean R := by
  unfold Volume.fsymlink at h
  split at h
  · cases h
  · rename_i ho
    have cl₁ := cl.genericOpen num room dots ho
    repeat' split at h
    all_goals cases h
    · exact cl₁
    · exact cl₁.modify (by intro _; rfl) (by intro _; rfl) (by intro _; rfl)

/-- So does `ext4_fopen2`. -/
lemma fopen2 (cl : v.Clean R) (num : bl.Numbers) (room : v.Roomy) {creat trunc : Bool}
    (dots : ∀ n ∈ names, n ≠ Path.dot ∧ n ≠ Path.dotDot)
    (h : fopen2 bl creat trunc names v = .ok (i, v')) : v'.Clean R := by
  obtain ⟨f, v₁, ho, rfl, rfl⟩ := fopen2_ok h
  have cl₁ := cl.genericOpen num room dots ho
  split
  · exact cl₁.modify (by intro _; rfl) (by intro _; rfl) (by intro _; rfl)
  · exact cl₁

/-- So does `ext4_flink`. -/
lemma flink (cl : v.Clean R) (room : v.Roomy) {newNames : List Str}
    (h : flink bl names newNames v = .ok v') : v'.Clean R := by
  unfold Volume.flink at h
  split at h
  · cases h
  · rename_i f hf
    split at h
    · cases h
    · rename_i hfile
      split at h
      · cases h
      · rename_i d name hl
        obtain ⟨hd, hn⟩ := cl.hardlink cl.root hl
        have hu : v.used f.inode = true := by
          rcases cl.found hf with ⟨h, -⟩ | ⟨e, -⟩
          · exact h.1
          · exact cl.used e
        exact cl.link hd (hardlinkLoop_ok hl) hn hu hfile room h

end Clean

end Volume
end Lwext4
end Evfs
