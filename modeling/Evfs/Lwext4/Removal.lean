import Evfs.Lwext4.Hierarchy
import Mathlib.Data.List.Induction

/-!
# Taking names away from a clean volume

`ext4_fremove` leaves a clean volume clean, and so does `ext4_frename` unless it moves a directory below
itself, where nothing leads to it any more (`frename_iff`). It does not ask for that. One path leads to
a directory of a clean volume, so that the paths tell (`prefix_iff`).
-/

namespace Evfs
namespace Lwext4
open Lib
namespace Volume

/-- The second inode has a name in the first one. -/
def Inside (v : Volume) (a b : Ino) : Prop :=
  ∃ n, n ≠ Path.dot ∧ n ≠ Path.dotDot ∧ v.findEntry a n = some b

variable {bl : BlockLayer} {R : Set Ino} {v v' : Volume} {d c i : Ino} {name : Str}
  {names : List Str}

/-- A child in the hierarchy is a name in the directory other than the dots. -/
lemma child_iff : v.hierarchy.Child (layout R) d c ↔ v.Inside d c := by
  constructor
  · rintro ⟨q, ⟨h₁, h₂⟩, rfl, e⟩
    exact ⟨q.2, h₁, h₂, e⟩
  · rintro ⟨n, h₁, h₂, e⟩
    exact ⟨(d, n), ⟨h₁, h₂⟩, rfl, e⟩

/-- The two relations agree. -/
lemma child_eq : v.hierarchy.Child (layout R) = v.Inside := by
  funext a b
  exact propext child_iff

/-- What is inside a directory is among its children. -/
lemma inside_iff : v.Inside d c ↔ ∃ n, (⟨n, c⟩ : Σ _ : Str, Ino) ∈ v.children d := by
  constructor
  · rintro ⟨n, h₁, h₂, e⟩
    refine ⟨n, List.mem_filter.mpr ⟨UnorderedMap.mem_entries_iff.mpr e, ?_⟩⟩
    exact decide_eq_true ⟨h₁, h₂⟩
  · rintro ⟨n, h⟩
    obtain ⟨hm, hn⟩ := List.mem_filter.mp h
    obtain ⟨h₁, h₂⟩ := of_decide_eq_true hn
    exact ⟨n, h₁, h₂, UnorderedMap.mem_entries_iff.mp hm⟩

/-- A directory without children has nothing inside. -/
lemma children_eq_nil : v.children d = [] ↔ ∀ c, ¬ v.Inside d c := by
  rw [List.eq_nil_iff_forall_not_mem]
  constructor
  · intro h c inside
    obtain ⟨n, hm⟩ := inside_iff.mp inside
    exact h _ hm
  · exact fun h e he => h e.2 (inside_iff.mpr ⟨e.1, he⟩)

/-! ### Unlinking -/

/-- Removing an entry leaves the link counts alone. -/
lemma links_removeEntry (h : v.removeEntry d name = .ok v') (a : Ino) :
    (v'.inodes a).links = (v.inodes a).links := by
  have e := congrFun (congrArg Hierarchy.links (hierarchy_removeEntry h)) a
  exact e

/-- Unlinking a file drops its name and one link. -/
lemma hierarchy_unlink_file (h : unlink d c name v = .ok v') (hc : ¬ v.IsDir c) :
    v'.hierarchy = { v.hierarchy with
      entry := Function.update v.hierarchy.entry (d, name) none
      links := Function.update v.hierarchy.links c (v.hierarchy.links c - 1) } := by
  unfold unlink at h
  split at h
  · cases h
  · split at h
    · cases h
    · rename_i v₁ hr
      have hc' : ¬ v₁.IsDir c := fun e => hc (((removeEntry_ok hr).2.2.2 c).symm.trans e)
      rw [if_neg hc'] at h
      cases h
      rw [hierarchy_linksDec, if_neg (fun e => hc' e.1), hierarchy_removeEntry hr]

/-- The directory itself keeps its two links. -/
lemma hierarchy_unlink_dir (h : unlink d c name v = .ok v') (hc : v.IsDir c) (hdc : d ≠ c)
    (two : (v.inodes c).links ≤ 2) (three : 3 ≤ (v.inodes d).links) :
    v'.hierarchy = { v.hierarchy with
      entry := Function.update v.hierarchy.entry (d, name) none
      links := Function.update v.hierarchy.links d (v.hierarchy.links d - 1) } := by
  unfold unlink at h
  split at h
  · cases h
  · split at h
    · cases h
    · rename_i v₁ hr
      have hc' : v₁.IsDir c := ((removeEntry_ok hr).2.2.2 c).trans hc
      have links := links_removeEntry hr
      rw [if_pos hc'] at h
      cases h
      have kept : ((v₁.linksDec d).inodes c).links ≤ 2 := by
        rw [linksDec, inodes_modify_of_ne hdc.symm, links]
        exact two
      have hc'' : (v₁.linksDec d).IsDir c := (type_linksDec c).trans hc'
      have three' : ¬ (v₁.IsDir d ∧ v₁.hierarchy.links d ≤ 2) := by
        rintro ⟨-, h⟩
        have e : v₁.hierarchy.links d = (v.inodes d).links := links d
        omega
      rw [hierarchy_linksDec, if_pos ⟨hc'', kept⟩, Function.update_eq_self, hierarchy_linksDec,
        if_neg three', hierarchy_removeEntry hr]

/-- Unlinking keeps the number of inodes. -/
lemma inodesCount_unlink (h : unlink d c name v = .ok v') : v'.inodesCount = v.inodesCount := by
  unfold unlink at h
  split at h
  · cases h
  · split at h
    · cases h
    · rename_i hr
      unfold removeEntry at hr
      split at hr
      · cases hr
        cases h
        split <;> rfl
      · cases hr

/-- Truncating a file leaves the hierarchy alone. -/
lemma truncated (i : Ino) (p : Prop) [Decidable p] :
    (if p then v.truncInode i 0 else v).hierarchy = v.hierarchy ∧
      (∀ a, (if p then v.truncInode i 0 else v).IsDir a ↔ v.IsDir a) ∧
      (if p then v.truncInode i 0 else v).inodesCount = v.inodesCount := by
  split
  · refine ⟨hierarchy_truncInode, fun a => ?_, rfl⟩
    have e : ((v.truncInode i 0).inodes a).type = (v.inodes a).type :=
      inodes_modify_congr Inode.type (by intro _; rfl) a
    unfold IsDir
    rw [e]
  · exact ⟨rfl, fun _ => .rfl, rfl⟩

namespace Clean

/-- The directories are those that there were. -/
lemma of_dirs (cl : v.Clean R) (consistent : v'.hierarchy.Consistent (layout R))
    (dirs : v'.hierarchy.dirs ⊆ v.hierarchy.dirs)
    (named : ∀ {q x}, v'.hierarchy.entry q = some x → q.2 ≠ [])
    (hn : v'.inodesCount = v.inodesCount) : v'.Clean R where
  consistent := consistent
  has {d} hu ht := by
    show 1 ≤ d ∧ d ≤ v'.inodesCount
    rw [hn]
    have hd := dirs ⟨hu, ht⟩
    exact cl.has hd.1 hd.2
  named {d name c} e := named (q := (d, name)) e

/-- The special names lead to directories. -/
lemma plain_of_file (cl : v.Clean R) (e : v.findEntry d name = some c) (hc : ¬ v.IsDir c) :
    Hierarchy.Plain (layout R) (d, name) := by
  have hd := cl.holder e
  constructor
  · rintro rfl
    cases e.symm.trans (cl.consistent.self hd)
    exact hc hd.2
  · rintro rfl
    rcases cl.consistent.up_dir hd with ⟨-, eu⟩ | ⟨q, -, eq, eu⟩
    · cases e.symm.trans eu
      exact hc cl.root.2
    · cases e.symm.trans eu
      exact hc (cl.consistent.holder eq).2

/-- A name less, and the inode of the last one is free. -/
lemma drop (cl : v.Clean R) {l : Nat} (plain : Hierarchy.Plain (layout R) (d, name))
    (e : v.findEntry d name = some c) (hc : ¬ v.IsDir c) (hl : (v.inodes c).links = l + 1)
    (h : v'.hierarchy = v.hierarchy.dropName (d, name) c l)
    (hn : v'.inodesCount = v.inodesCount) : v'.Clean R := by
  refine cl.of_dirs ?_ ?_ (fun {q x} hq => ?_) hn
  · rw [h]
    exact cl.consistent.dropName plain e (fun h => hc h.2) hl
  · rw [h]
    exact subset_rfl
  · rw [h] at hq
    by_cases hqe : q = (d, name)
    · have gone : (v.hierarchy.dropName (d, name) c l).entry q = none := by
        rw [hqe]
        exact Function.update_self _ _ _
      rw [gone] at hq
      cases hq
    · exact cl.named ((Function.update_of_ne hqe _ _).symm.trans hq)

/-- `ext4_fremove` keeps a clean volume clean. -/
theorem fremove (cl : v.Clean R) (h : fremove bl names v = .ok v') : v'.Clean R := by
  unfold Volume.fremove at h
  split at h
  · cases h
  · rename_i c d name hf
    split at h
    · cases h
      exact cl
    · rename_i hc
      split at h
      · cases h
      · rename_i v₂ hu
        cases h
        obtain ⟨e, -⟩ := (cl.found hf).resolve_left fun h => hc h.1.2
        obtain ⟨l, hl⟩ : ∃ l, (v.inodes c).links = l + 1 :=
          Nat.exists_eq_succ_of_ne_zero ((cl.consistent.exact (cl.used e)).pos (p := (d, name)) e).ne'
        obtain ⟨same, types, count⟩ := @truncated v c ((v.inodes c).links = 1) _
        generalize (if (v.inodes c).links = 1 then v.truncInode c 0 else v) = v₁ at *
        have he := hierarchy_unlink_file hu fun h => hc ((types c).mp h)
        rw [same] at he
        have hl₂ : (v₂.inodes c).links = l := by
          have e₂ := congrFun (congrArg Hierarchy.links he) c
          refine e₂.trans ((Function.update_self _ _ _).trans ?_)
          exact congrArg (· - 1) hl
        have hn := (inodesCount_unlink hu).trans count
        refine cl.drop (cl.plain_of_file e hc) e hc hl ?_ ?_
        · rw [hl₂]
          have links : v₂.hierarchy.links = Function.update v.hierarchy.links c l := by
            rw [he, ← Nat.add_sub_cancel l 1, ← hl]
            rfl
          split
          · rename_i h0
            rw [hierarchy_freeInode]
            apply Hierarchy.ext
            case used => rw [he]; exact (if_pos h0).symm
            case dirs =>
              rw [he]
              exact Set.sdiff_singleton_eq_self fun h => hc h.2
            case entry => rw [he]; rfl
            case links => exact links
          · rename_i h0
            apply Hierarchy.ext
            case used => rw [he]; exact (if_neg h0).symm
            case dirs => rw [he]; rfl
            case entry => rw [he]; rfl
            case links => exact links
        · split
          · exact hn
          · exact hn

end Clean

/-! ### Where paths lead -/

/-- The names lead from one directory to another one. -/
def Along (v : Volume) : Ino → List Str → Ino → Prop
  | a, [], b => a = b
  | a, n :: ns, b => ∃ c, v.findEntry a n = some c ∧ v.Along c ns b

/-- A way of two parts. -/
lemma along_append {a b : Ino} {ns ms : List Str} :
    v.Along a (ns ++ ms) b ↔ ∃ c, v.Along a ns c ∧ v.Along c ms b := by
  induction ns generalizing a with
  | nil => exact ⟨fun h => ⟨a, rfl, h⟩, fun ⟨_, e, h⟩ => e ▸ h⟩
  | cons n ns ih =>
    constructor
    · rintro ⟨c, e, h⟩
      obtain ⟨x, h₁, h₂⟩ := ih.mp h
      exact ⟨x, ⟨c, e, h₁⟩, h₂⟩
    · rintro ⟨x, ⟨c, e, h₁⟩, h₂⟩
      exact ⟨c, e, ih.mpr ⟨x, h₁, h₂⟩⟩

/-- A way with its last name apart. -/
lemma along_concat {a b : Ino} {n : Str} {ns : List Str} :
    v.Along a (ns ++ [n]) b ↔ ∃ c, v.Along a ns c ∧ v.findEntry c n = some b := by
  rw [along_append]
  refine exists_congr fun c => and_congr_right fun _ => ?_
  exact ⟨fun ⟨_, e, h⟩ => h ▸ e, fun e => ⟨b, e, rfl⟩⟩

/-- What is inside is reached by a way without dots. -/
lemma along_of_inside {a b : Ino} (h : Relation.ReflTransGen v.Inside a b) :
    ∃ ns, (∀ n ∈ ns, n ≠ Path.dot ∧ n ≠ Path.dotDot) ∧ v.Along a ns b := by
  induction h with
  | refl => exact ⟨[], nofun, rfl⟩
  | tail _ st ih =>
    obtain ⟨ns, dots, h⟩ := ih
    obtain ⟨n, h₁, h₂, e⟩ := st
    refine ⟨ns ++ [n], fun m hm => ?_, along_concat.mpr ⟨_, h, e⟩⟩
    rcases List.mem_append.mp hm with hm | hm
    · exact dots m hm
    · rw [List.mem_singleton.mp hm]
      exact ⟨h₁, h₂⟩

/-- A way without dots leads inside. -/
lemma inside_of_along {a b : Ino} {ns : List Str}
    (dots : ∀ n ∈ ns, n ≠ Path.dot ∧ n ≠ Path.dotDot) (h : v.Along a ns b) :
    Relation.ReflTransGen v.Inside a b := by
  induction ns generalizing a with
  | nil =>
    obtain rfl : a = b := h
    exact .refl
  | cons n ns ih =>
    obtain ⟨c, e, h⟩ := h
    obtain ⟨h₁, h₂⟩ := dots n List.mem_cons_self
    exact .head ⟨n, h₁, h₂, e⟩ (ih (fun m hm => dots m (List.mem_cons_of_mem _ hm)) h)

/-- A way leads to one inode. -/
lemma along_functional {a b b' : Ino} {ns : List Str} (h : v.Along a ns b) (h' : v.Along a ns b') :
    b = b' := by
  induction ns generalizing a with
  | nil => exact h.symm.trans h'
  | cons n ns ih =>
    obtain ⟨c, e, h⟩ := h
    obtain ⟨c', e', h'⟩ := h'
    cases e.symm.trans e'
    exact ih h h'

/-- What ext4 finds is where the way leads. -/
lemma along_find {ftype : Option FileType} {f : Found} (h : find bl ftype names v = .ok f)
    (hn : f.name ≠ []) : v.Along rootIndex names f.inode := by
  have walk : ∀ {names d parent v₁}, Opens bl false ftype names d parent v f v₁ →
      v.Along d names f.inode := by
    intro names d parent v₁ o
    clear h
    induction o with
    | last _ he _ => exact ⟨_, (enter_false he).2, rfl⟩
    | slash _ => exact absurd rfl hn
    | next _ he _ _ ih =>
      obtain ⟨rfl, e⟩ := enter_false he
      exact ⟨_, e, ih hn⟩
  exact walk (openLoop_opens (find_ok h))

/-- The walk of a hard link goes to the directory of the last name. -/
lemma along_hardlink {ref : Ino} (h : hardlinkLoop names ref v = .ok (d, name)) :
    v.Along ref names.dropLast d := by
  induction names generalizing ref with
  | nil => cases h
  | cons n names ih =>
    cases names with
    | nil =>
      simp only [hardlinkLoop] at h
      repeat' split at h
      all_goals cases h
      all_goals exact rfl
    | cons next names =>
      simp only [hardlinkLoop] at h
      split at h
      · split at h
        · rename_i e
          split at h
          · exact ⟨_, e, ih h⟩
          · cases h
        · cases h
      · cases h

namespace Clean

/-- One path leads to a directory from the root. -/
lemma along_unique (cl : v.Clean R) {ns ms : List Str} (hd : d ∈ v.hierarchy.dirs)
    (hns : ∀ n ∈ ns, n ≠ Path.dot ∧ n ≠ Path.dotDot)
    (hms : ∀ n ∈ ms, n ≠ Path.dot ∧ n ≠ Path.dotDot) (h : v.Along rootIndex ns d)
    (h' : v.Along rootIndex ms d) : ns = ms := by
  have noRoot : ∀ {a n}, n ≠ Path.dot ∧ n ≠ Path.dotDot → v.findEntry a n ≠ some rootIndex :=
    fun {a n} hn => cl.consistent.rootName (q := (a, n)) hn
  induction ns using List.reverseRecOn generalizing d ms with
  | nil =>
    obtain rfl : rootIndex = d := h
    rcases List.eq_nil_or_concat ms with rfl | ⟨ms, m, rfl⟩
    · rfl
    · rw [List.concat_eq_append] at h' hms
      obtain ⟨c, -, e⟩ := along_concat.mp h'
      exact absurd e (noRoot (hms m (by simp)))
  | append_singleton ns n ih =>
    obtain ⟨a, ha, e⟩ := along_concat.mp h
    rcases List.eq_nil_or_concat ms with rfl | ⟨ms, m, rfl⟩
    · obtain rfl : rootIndex = d := h'
      exact absurd e (noRoot (hns n (by simp)))
    · rw [List.concat_eq_append] at h' hms ⊢
      obtain ⟨b, hb, e'⟩ := along_concat.mp h'
      obtain ⟨rfl, rfl⟩ := Prod.mk.inj (cl.consistent.once (q := (a, n)) (r := (b, m))
        (hns n (by simp)) (hms m (by simp)) e e' hd)
      rw [ih (cl.holder e) (fun x hx => hns x (by simp [hx])) (fun x hx => hms x (by simp [hx])) ha hb]

/-- What gets a name is below what is renamed when the new path goes on from the old one. -/
lemma prefix_iff (cl : v.Clean R) {f : Found} {newNames : List Str}
    (dots : ∀ n ∈ names, n ≠ Path.dot ∧ n ≠ Path.dotDot)
    (dots' : ∀ n ∈ newNames, n ≠ Path.dot ∧ n ≠ Path.dotDot)
    (hf : find bl none names v = .ok f) (hn : f.name ≠ [])
    (hl : hardlinkLoop newNames rootIndex v = .ok (d, name)) :
    names <+: newNames.dropLast ↔ Relation.ReflTransGen v.Inside f.inode d := by
  have there := along_hardlink hl
  have dots'' : ∀ n ∈ newNames.dropLast, n ≠ Path.dot ∧ n ≠ Path.dotDot := fun n hm =>
    dots' n (List.dropLast_subset _ hm)
  constructor
  · rintro ⟨ns, e⟩
    rw [← e] at there dots''
    obtain ⟨x, hx, h⟩ := along_append.mp there
    obtain rfl := along_functional hx (along_find hf hn)
    exact inside_of_along (fun n hm => dots'' n (List.mem_append_right _ hm)) h
  · intro h
    obtain ⟨ns, hns, along⟩ := along_of_inside h
    refine ⟨ns, cl.along_unique (cl.hardlink cl.root hl).1 (fun n hm => ?_) dots''
      (along_append.mpr ⟨_, along_find hf hn, along⟩) there⟩
    rcases List.mem_append.mp hm with hm | hm
    · exact dots n hm
    · exact hns n hm

end Clean

/-! ### Renaming -/

/-- Renaming a file enters its new name. -/
lemma hierarchy_linkRenamed_file (h : linkRenamed bl d c false name v = .ok v') :
    v'.hierarchy = { v.hierarchy with
      entry := Function.update v.hierarchy.entry (d, name) (some c) } ∧
    v'.inodesCount = v.inodesCount := by
  unfold linkRenamed at h
  split at h
  · cases h
    exact ⟨hierarchy_addEntry, rfl⟩
  · cases h

/-- Renaming a directory enters its new name and counts its link. -/
lemma hierarchy_linkRenamed_dir (h : linkRenamed bl d c true name v = .ok v')
    (room : (v.inodes d).links + 1 < linkMax) : v'.hierarchy = { v.hierarchy with
      entry := Function.update v.hierarchy.entry (d, name) (some c)
      links := Function.update v.hierarchy.links d (v.hierarchy.links d + 1) } ∧
    v'.inodesCount = v.inodesCount := by
  unfold linkRenamed at h
  split at h
  · cases h
    rw [if_pos rfl, hierarchy_linksInc (by rwa [links_addEntry]), hierarchy_addEntry]
    exact ⟨rfl, rfl⟩
  · cases h

/-- A file has no entry for the directory above. -/
lemma resetParent_file (h : resetParent bl c d v = .ok v') (hc : ¬ v.IsDir c) : v' = v := by
  unfold resetParent at h
  rw [if_neg hc] at h
  cases h
  rfl

/-- A directory gets a new one. -/
lemma resetParent_dir (h : resetParent bl c d v = .ok v') (hc : v.IsDir c) :
    v' = v.addEntry bl c Path.dotDot d := by
  unfold resetParent at h
  rw [if_pos hc] at h
  split at h
  · cases h
    rfl
  · cases h

/-- Removing an entry keeps the number of inodes. -/
lemma inodesCount_removeEntry (h : v.removeEntry d name = .ok v') :
    v'.inodesCount = v.inodesCount := by
  unfold removeEntry at h
  split at h
  · cases h
    rfl
  · cases h

namespace Clean

/-- A file gets another name for the one it has. -/
lemma moveFile (cl : v.Clean R) {p : Ino} {old : Str} {v₁ v₂ : Volume}
    (e : v.findEntry p old = some c) (hc : ¬ v.IsDir c) (hd : d ∈ v.hierarchy.dirs)
    (free : v.findEntry d name = none) (ok : name ≠ [])
    (hl : linkRenamed bl d c false name v = .ok v₁) (hr : v₁.removeEntry p old = .ok v₂) :
    v₂.Clean R := by
  obtain ⟨he₁, hn₁⟩ := hierarchy_linkRenamed_file hl
  have he₂ := hierarchy_removeEntry hr
  have hu := cl.used e
  have hc' : c ∉ v.hierarchy.dirs := fun h => hc h.2
  have count := cl.consistent.exact hu
  have ne : (p, old) ≠ (d, name) := by
    intro h
    obtain ⟨rfl, rfl⟩ := Prod.mk.inj h
    rw [free] at e
    cases e
  have he : v₂.hierarchy = (v.hierarchy.addName (d, name) c (v.inodes c).links).dropName (p, old) c
      (v.inodes c).links := by
    rw [he₂, he₁]
    apply Hierarchy.ext
    case used =>
      have h0 : (v.inodes c).links ≠ 0 := (count.pos (p := (p, old)) e).ne'
      have hu' : c ∈ v.hierarchy.used := hu
      exact ((if_neg h0).trans (Set.insert_eq_self.mpr hu')).symm
    case dirs => rfl
    case entry => rfl
    case links =>
      show v.hierarchy.links = Function.update (Function.update v.hierarchy.links c _) c _
      rw [Function.update_idem]
      exact (Function.update_eq_self _ _).symm
  have named := cl.consistent.addName (cl.plain hd free) hd free hc' count
  refine cl.of_dirs ?_ ?_ (fun {q x} hq => ?_) ((inodesCount_removeEntry hr).trans hn₁)
  · rw [he]
    refine named.dropName (cl.plain_of_file e hc) ?_ hc' (Function.update_self _ _ _)
    exact (Function.update_of_ne ne _ _).trans e
  · rw [he]
    exact subset_rfl
  · rw [he₂, he₁] at hq
    simp only [Function.update_apply] at hq
    split at hq
    · cases hq
    · split at hq
      · rename_i hq'
        rwa [hq']
      · exact cl.named hq

/-- A directory gets another name for the one it has, and another `..` with it. Below itself nothing
leads to it any more. -/
lemma moveDir (cl : v.Clean R) {p : Ino} {old : Str} {v₁ v₂ : Volume}
    (plain : Hierarchy.Plain (layout R) (p, old)) (e : v.findEntry p old = some c)
    (hc : v.IsDir c) (hd : d ∈ v.hierarchy.dirs) (free : v.findEntry d name = none)
    (ok : name ≠ []) (room : (v.inodes d).links + 1 < linkMax)
    (hl : linkRenamed bl d c true name v = .ok v₁)
    (hr : (v₁.addEntry bl c Path.dotDot d).removeEntry p old = .ok v₂) :
    (v₂.linksDec p).Clean R ↔ ¬ Relation.ReflTransGen v.Inside c d := by
  obtain ⟨he₁, hn₁⟩ := hierarchy_linkRenamed_dir hl room
  have he₂ := hierarchy_removeEntry hr
  rw [hierarchy_addEntry, he₁] at he₂
  have hcd : c ∈ v.hierarchy.dirs := ⟨cl.used e, hc⟩
  have three : 3 ≤ v.hierarchy.links p := cl.consistent.three_le plain e hcd
  have he : (v₂.linksDec p).hierarchy = v.hierarchy.moveDir (layout R) (p, old) (d, name) c := by
    have more : ¬ (v₂.IsDir p ∧ v₂.hierarchy.links p ≤ 2) := by
      rintro ⟨-, h⟩
      rw [he₂] at h
      simp only [Function.update_apply] at h
      split at h
      · rename_i hp
        rw [← hp] at h
        exact absurd h (by omega)
      · exact absurd h (by omega)
    rw [hierarchy_linksDec, if_neg more, he₂]
    rfl
  rw [← @child_eq R]
  constructor
  · intro cl' below
    have dir : c ∈ (v₂.linksDec p).hierarchy.dirs := he ▸ hcd
    have hangs := cl'.consistent.hangs dir
    rw [he] at hangs
    exact cl.consistent.lost_moveDir plain e hcd hd below hangs
  · intro apart
    refine cl.of_dirs ?_ ?_ (fun {q x} hq => ?_) ((inodesCount_removeEntry hr).trans hn₁)
    · rw [he]
      exact cl.consistent.moveDir plain (cl.plain hd free) e hcd hd free apart
    · rw [he]
      exact subset_rfl
    · rw [hierarchy_linksDec, he₂] at hq
      simp only [Function.update_apply] at hq
      split at hq
      · cases hq
      · split at hq
        · rename_i hq'
          rw [hq']
          show Path.dotDot ≠ []
          decide
        · split at hq
          · rename_i hq'
            rwa [hq']
          · exact cl.named hq

/-- `ext4_frename` on one volume. -/
theorem frename_iff (cl : v.Clean R) (room : v.Roomy) {f : Found} {newNames : List Str}
    {v₁ : Volume} (dots : ∀ n ∈ names, n ≠ Path.dot ∧ n ≠ Path.dotDot)
    (dots' : ∀ n ∈ newNames, n ≠ Path.dot ∧ n ≠ Path.dotDot)
    (hf : find bl none names v = .ok f)
    (hl : hardlinkLoop newNames rootIndex v = .ok (d, name))
    (hr : linkRenamed bl d f.inode (v.IsDir f.inode) name v = .ok v₁)
    (ho : World.removeOrig bl f d v₁ = .ok v') : v'.Clean R ↔ ¬ names <+: newNames.dropLast := by
  obtain ⟨hd, ok⟩ := cl.hardlink cl.root hl
  have free := hardlinkLoop_ok hl
  obtain ⟨same, -, types⟩ := linkRenamed_ok hr
  have dir : v₁.IsDir f.inode ↔ v.IsDir f.inode := by
    unfold IsDir
    rw [types]
  unfold World.removeOrig at ho
  split at ho
  · cases ho
  · rename_i v₂ hp
    split at ho
    · cases ho
    · rename_i v₃ hm
      have dir₃ : v₃.IsDir f.inode ↔ v.IsDir f.inode := by
        unfold IsDir
        rw [(removeEntry_ok hm).2.2.2, (resetParent_ok hp).2, types]
      cases ho
      rcases cl.found hf with ⟨-, hn⟩ | ⟨e, hmem, hn⟩
      · -- no directory has an entry without a name
        obtain ⟨x, hx⟩ := UnorderedMap.exists_lookup (removeEntry_ok hm).1
        have hx' : v₂.findEntry f.parent f.name = some x := hx
        rw [hn, (resetParent_ok hp).1 _ _ (by decide), same _ _ (fun h => ok h.2.symm)] at hx'
        exact absurd rfl (cl.named hx')
      · rw [cl.prefix_iff dots dots' hf hn hl]
        by_cases hc : v.IsDir f.inode
        · rw [if_pos (dir₃.mpr hc)]
          rw [resetParent_dir hp (dir.mpr hc)] at hm
          have plain : Hierarchy.Plain (layout R) (f.parent, f.name) := dots _ hmem
          exact cl.moveDir plain e hc hd free ok (room d) (by simpa [hc] using hr) hm
        · rw [if_neg fun h => hc (dir₃.mp h)]
          rw [resetParent_file hp fun h => hc (dir.mp h)] at hm
          refine iff_of_true (cl.moveFile e hc hd free ok (by simpa [hc] using hr) hm) fun below => ?_
          -- nothing is below a file
          rcases Relation.ReflTransGen.cases_head below with rfl | ⟨_, ⟨_, -, -, e'⟩, -⟩
          · exact hc hd.2
          · exact hc (cl.holder e').2

end Clean

end Volume
end Lwext4
end Evfs
