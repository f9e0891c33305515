import Evfs.Lwext4.Removal
import Mathlib.Order.Interval.Finset.Nat

/-!
# Removing directories from a clean volume

`ext4_dir_rm` removes everything below a directory and gives the inodes up whatever their link counts
are, so that it leaves a clean volume clean where the files below have one name each (`SingleBelow`).
`Pruned` is what it has done to a directory once everything below is removed; directories go by their
heights, which are bounded on a clean volume (`exists_heights`).
-/

namespace Evfs
namespace Lwext4
open Lib
namespace Volume

/-- The files below a directory have one name each. -/
def SingleBelow (v : Volume) (d : Ino) : Prop :=
  ∀ x, Relation.TransGen v.Inside d x → ¬ v.IsDir x → (v.inodes x).links = 1

variable {bl : BlockLayer} {R : Set Ino} {v v' : Volume} {d c i : Ino} {name : Str}
  {names : List Str}

/-! ### Removing directories -/

/-- Freeing an inode drops its links with it. -/
lemma hierarchy_giveUp : ((v.modify c fun n => { n with links := 0 }).freeInode c).hierarchy =
    { v.hierarchy with
      used := v.hierarchy.used \ {c}
      dirs := v.hierarchy.dirs \ {c}
      links := Function.update v.hierarchy.links c 0 } := by
  rw [hierarchy_freeInode, hierarchy_links (by intro _; rfl) (by intro _; rfl)]

/-- The entry of the directory that is removed is there. -/
lemma exists_unlink (e : v.findEntry d name = some c) (empty : v.hasChildren c = false) :
    ∃ v', unlink d c name v = .ok v' := by
  cases h : unlink d c name v with
  | ok v' => exact ⟨v', rfl⟩
  | error err =>
    rcases unlink_error h with ⟨h, -⟩ | ⟨h, -⟩
    · rw [empty] at h
      cases h
    · exact absurd (UnorderedMap.mem_of_lookup e) h

/-- An empty directory has no children. -/
lemma not_child (empty : ∀ x, ¬ v.Inside c x) {x : Ino} : ¬ v.hierarchy.Child (layout R) c x := by
  rw [child_eq]
  exact empty x

/-- Unlinking keeps the types. -/
lemma type_unlink (h : unlink d c name v = .ok v') (a : Ino) :
    (v'.inodes a).type = (v.inodes a).type := by
  unfold unlink at h
  split at h
  · cases h
  · split at h
    · cases h
    · rename_i hr
      cases h
      rw [type_linksDec]
      split
      · rw [type_linksDec, (removeEntry_ok hr).2.2.2]
      · rw [(removeEntry_ok hr).2.2.2]

/-- So does removing a child. -/
lemma type_removeChild {e : Σ _ : Str, Ino} (a : Ino) :
    ((removeChild d e v).inodes a).type = (v.inodes a).type := by
  unfold removeChild
  split
  · rfl
  · rename_i v₁ hu
    have h := @inodes_modify_congr v₁ _ Inode.type e.2 (fun n => { n with links := 0 })
      (fun _ => rfl) a
    refine h.trans ((type_unlink hu a).trans ?_)
    split
    · exact inodes_modify_congr Inode.type (by intro _; rfl) a
    · exact inodes_modify_congr Inode.type (by intro _; rfl) a

namespace Clean

/-- An empty directory less. -/
lemma dropDir (cl : v.Clean R) (plain : Hierarchy.Plain (layout R) (d, name))
    (e : v.findEntry d name = some c) (hc : v.IsDir c) (empty : ∀ x, ¬ v.Inside c x)
    (h : v'.hierarchy = v.hierarchy.dropDir (layout R) (d, name) c)
    (hn : v'.inodesCount = v.inodesCount) : v'.Clean R := by
  refine cl.of_dirs ?_ ?_ (fun {q x} hq => ?_) hn
  · rw [h]
    exact cl.consistent.dropDir plain e ⟨cl.used e, hc⟩ (not_child empty)
  · rw [h]
    exact Set.sdiff_subset
  · rw [h, Hierarchy.Consistent.entry_dropDir (not_child empty)] at hq
    split at hq
    · cases hq
    · exact cl.named hq

/-- What is known of an empty directory and the one above. -/
lemma empty_dir (cl : v.Clean R) (plain : Hierarchy.Plain (layout R) (d, name))
    (e : v.findEntry d name = some c) (hc : v.IsDir c) (empty : ∀ x, ¬ v.Inside c x) :
    d ≠ c ∧ (v.inodes c).links = 2 ∧ 3 ≤ (v.inodes d).links :=
  have hcd : c ∈ v.hierarchy.dirs := ⟨cl.used e, hc⟩
  ⟨cl.consistent.ne_above plain e hcd, cl.consistent.links_empty plain e hcd (not_child empty),
    cl.consistent.three_le plain e hcd⟩

/-- `ext4_dir_rm` removes an empty directory from the one above. -/
lemma removeChild_dir (cl : v.Clean R) (plain : Hierarchy.Plain (layout R) (d, name))
    (e : v.findEntry d name = some c) (hc : v.IsDir c) (empty : ∀ x, ¬ v.Inside c x) :
    (removeChild d ⟨name, c⟩ v).hierarchy = v.hierarchy.dropDir (layout R) (d, name) c ∧
      (removeChild d ⟨name, c⟩ v).inodesCount = v.inodesCount := by
  obtain ⟨hdc, two, three⟩ := cl.empty_dir plain e hc empty
  have none := @hasChildren_truncated v c
  rw [if_pos hc] at none
  have e₁ : (v.truncDir c).findEntry d name = some c := by
    rw [findEntry, truncDir, inodes_modify_of_ne hdc]
    exact e
  obtain ⟨v₂, hu⟩ := exists_unlink e₁ none
  have hc₁ : (v.truncDir c).IsDir c := (inodes_modify_congr Inode.type (by intro _; rfl) c).trans hc
  have links : ∀ a, ((v.truncDir c).inodes a).links = (v.inodes a).links := fun a =>
    inodes_modify_congr Inode.links (by intro _; rfl) a
  have he := hierarchy_unlink_dir hu hc₁ hdc (by rw [links, two]) (by rwa [links])
  rw [hierarchy_truncDir] at he
  unfold Volume.removeChild
  simp only
  rw [if_pos hc, hu]
  refine ⟨?_, (inodesCount_unlink hu).trans rfl⟩
  rw [hierarchy_giveUp, he]
  apply Hierarchy.ext
  case used => rfl
  case dirs => rfl
  case entry =>
    funext r
    rw [Hierarchy.Consistent.entry_dropDir (not_child empty)]
    simp only [Function.update_apply]
    by_cases h₁ : r = (d, name)
    · rw [if_pos h₁, if_pos (.inl h₁)]
    · simp only [h₁, if_false, false_or]
  case links => rfl

/-- A file that is removed with its directory, which has one name. -/
lemma removeChild_file (e : v.findEntry d name = some c) (hc : ¬ v.IsDir c) :
    (removeChild d ⟨name, c⟩ v).hierarchy = v.hierarchy.dropName (d, name) c 0 ∧
      (removeChild d ⟨name, c⟩ v).inodesCount = v.inodesCount := by
  have none := @hasChildren_truncated v c
  rw [if_neg hc] at none
  have e₁ : (v.truncInode c 0).findEntry d name = some c :=
    (findEntry_modify (by intro _; rfl) d name).trans e
  obtain ⟨v₂, hu⟩ := exists_unlink e₁ none
  have hc₁ : ¬ (v.truncInode c 0).IsDir c := fun h =>
    hc ((inodes_modify_congr Inode.type (by intro _; rfl) c).symm.trans h)
  have he := hierarchy_unlink_file hu hc₁
  rw [hierarchy_truncInode] at he
  unfold Volume.removeChild
  simp only
  rw [if_neg hc, hu]
  refine ⟨?_, (inodesCount_unlink hu).trans rfl⟩
  rw [hierarchy_giveUp, he]
  apply Hierarchy.ext
  case used => rfl
  case dirs => exact Set.sdiff_singleton_eq_self fun h => hc h.2
  case entry => rfl
  case links => exact Function.update_idem _ _ _

end Clean

/-! ### Removing trees -/

/-- What is in a directory has been removed, and what is below that, and nothing else. The directories
above go by their heights. -/
structure Pruned (R : Set Ino) (height : Ino → ℕ) (d : Ino) (v v' : Volume) : Prop where
  clean : v'.Clean R
  entries {a n x} : v'.findEntry a n = some x → v.findEntry a n = some x
  type a : (v'.inodes a).type = (v.inodes a).type
  above {a n} : height d < height a → v'.findEntry a n = v.findEntry a n
  dots {n} : n = Path.dot ∨ n = Path.dotDot → v'.findEntry d n = v.findEntry d n
  count : v'.inodesCount = v.inodesCount

/-- Directories are deeper than those in them. -/
def Heights (height : Ino → ℕ) (v : Volume) : Prop :=
  ∀ ⦃a b⦄, v.Inside a b → v.IsDir b → height b < height a

/-- A directory is empty after that. -/
lemma emptyDir_empty {height : Ino → ℕ} {fuel : Nat} (hh : Heights height v) (hd : v.IsDir d)
    (hf : fuel ≠ 0) (x : Ino) : ¬ (emptyDir fuel d v).Inside d x := by
  obtain ⟨k, rfl⟩ := Nat.exists_eq_succ_of_ne_zero hf
  refine children_eq_nil.mp (children_emptyDir fun e he hde => ?_) x
  have own : v.Inside d e.2 := inside_iff.mpr ⟨e.1, he⟩
  rw [hde] at own
  exact lt_irrefl _ (hh own hd)

namespace Pruned
variable {height : Ino → ℕ} {v'' : Volume}

lemma refl (cl : v.Clean R) : Pruned R height d v v :=
  ⟨cl, id, fun _ => rfl, fun _ => rfl, fun _ => rfl, rfl⟩

lemma trans (p : Pruned R height d v v') (p' : Pruned R height d v' v'') :
    Pruned R height d v v'' where
  clean := p'.clean
  entries e := p.entries (p'.entries e)
  type a := (p'.type a).trans (p.type a)
  above h := (p'.above h).trans (p.above h)
  dots h := (p'.dots h).trans (p.dots h)
  count := p'.count.trans p.count

/-- What is still inside was inside. -/
lemma inside (p : Pruned R height d v v') {a b : Ino} (h : v'.Inside a b) : v.Inside a b := by
  obtain ⟨n, h₁, h₂, e⟩ := h
  exact ⟨n, h₁, h₂, p.entries e⟩

/-- The same inodes are directories. -/
lemma dir_iff (p : Pruned R height d v v') {a : Ino} : v'.IsDir a ↔ v.IsDir a := by
  unfold IsDir
  rw [p.type]

/-- The heights are as good as before. -/
lemma heights (p : Pruned R height d v v') (h : Heights height v) : Heights height v' :=
  fun _ _ hi hd => h (p.inside hi) (p.dir_iff.mp hd)

/-- The directory itself stays in use. -/
lemma mem_dirs (p : Pruned R height d v v') (cl : v.Clean R) (hd : d ∈ v.hierarchy.dirs) :
    d ∈ v'.hierarchy.dirs := by
  have e : v'.findEntry d Path.dot = some d := (p.dots (.inl rfl)).trans (cl.consistent.self hd)
  exact p.clean.holder e

/-- The names that are left are as many as the counts say. -/
lemma single (p : Pruned R height d v v') (cl : v.Clean R) (h : v.SingleBelow c) :
    v'.SingleBelow c := by
  intro x below hx
  obtain ⟨a, -, n, -, -, e⟩ := Relation.TransGen.tail'_iff.mp below
  have one := h x (Relation.TransGen.mono (fun _ _ => p.inside) _ _ below) fun h =>
    hx (p.dir_iff.mpr h)
  have count := p.clean.consistent.exact (p.clean.used e)
  have le := (cl.consistent.exact (cl.used (p.entries e))).mono count fun q hq => p.entries hq
  have pos := count.pos (p := (a, n)) e
  have e₁ : v.hierarchy.links x = 1 := one
  show v'.hierarchy.links x = 1
  omega

/-- One child less, which is a file of one name or an empty directory. -/
lemma removeChild (cl : v.Clean R) (plain : Hierarchy.Plain (layout R) (d, name))
    (e : v.findEntry d name = some c) (empty : ∀ x, ¬ v.Inside c x)
    (single : ¬ v.IsDir c → (v.inodes c).links = 1) (lt : v.IsDir c → height c < height d) :
    Pruned R height d v (removeChild d ⟨name, c⟩ v) ∧
      ∀ n, n ≠ name → (removeChild d ⟨name, c⟩ v).findEntry d n = v.findEntry d n := by
  by_cases hc : v.IsDir c
  · obtain ⟨he, hn⟩ := cl.removeChild_dir plain e hc empty
    have hdc := (cl.empty_dir plain e hc empty).1
    have entry : ∀ a n, (Volume.removeChild d ⟨name, c⟩ v).findEntry a n =
        if (a, n) = (d, name) ∨ a = c then none else v.findEntry a n := fun a n =>
      (congrFun (congrArg Hierarchy.entry he) (a, n)).trans
        (Hierarchy.Consistent.entry_dropDir (not_child empty) (a, n))
    have keep : ∀ {a n}, (a, n) ≠ (d, name) → a ≠ c →
        (Volume.removeChild d ⟨name, c⟩ v).findEntry a n = v.findEntry a n := fun h₁ h₂ => by
      rw [entry, if_neg (not_or.mpr ⟨h₁, h₂⟩)]
    refine ⟨⟨cl.dropDir plain e hc empty he hn, fun {a n x} h => ?_, type_removeChild, fun {a n} h => ?_,
      fun {n} h => ?_, hn⟩, fun n hne => keep (fun h => hne (Prod.mk.inj h).2) hdc⟩
    · rw [entry] at h
      split at h
      · cases h
      · exact h
    · refine keep (fun h' => ?_) fun h' => ?_
      · rw [(Prod.mk.inj h').1] at h
        exact lt_irrefl _ h
      · rw [h'] at h
        exact lt_asymm h (lt hc)
    · refine keep (fun h' => ?_) hdc
      rcases h with rfl | rfl
      · exact plain.1 (Prod.mk.inj h').2.symm
      · exact plain.2 (Prod.mk.inj h').2.symm
  · obtain ⟨he, hn⟩ := Clean.removeChild_file e hc
    have keep : ∀ {a n}, (a, n) ≠ (d, name) →
        (Volume.removeChild d ⟨name, c⟩ v).findEntry a n = v.findEntry a n := fun h =>
      (congrFun (congrArg Hierarchy.entry he) _).trans (Function.update_of_ne h _ _)
    have gone : (Volume.removeChild d ⟨name, c⟩ v).findEntry d name = none :=
      (congrFun (congrArg Hierarchy.entry he) (d, name)).trans (Function.update_self _ _ _)
    refine ⟨⟨cl.drop plain e hc (single hc) he hn, fun {a n x} h => ?_, type_removeChild,
      fun {a n} h => ?_, fun {n} h => ?_, hn⟩, fun n hne => keep fun h => hne (Prod.mk.inj h).2⟩
    · by_cases hq : (a, n) = (d, name)
      · obtain ⟨rfl, rfl⟩ := Prod.mk.inj hq
        rw [gone] at h
        cases h
      · rwa [keep hq] at h
    · refine keep fun h' => ?_
      rw [(Prod.mk.inj h').1] at h
      exact lt_irrefl _ h
    · refine keep fun h' => ?_
      rcases h with rfl | rfl
      · exact plain.1 (Prod.mk.inj h').2.symm
      · exact plain.2 (Prod.mk.inj h').2.symm

/-- What is removed from a directory is removed from below the one above. -/
lemma below (p : Pruned R height c v v') (lt : height c < height d) : Pruned R height d v v' where
  clean := p.clean
  entries := p.entries
  type := p.type
  above h := p.above (lt.trans h)
  dots _ := p.above lt
  count := p.count

/-- One child after the other. -/
lemma foldl {f : Volume → (Σ _ : Str, Ino) → Volume}
    (one : ∀ {v name c}, v.Clean R → d ∈ v.hierarchy.dirs → Heights height v → v.SingleBelow d →
      Hierarchy.Plain (layout R) (d, name) → v.findEntry d name = some c →
      Pruned R height d v (f v ⟨name, c⟩) ∧
        ∀ n, n ≠ name → (f v ⟨name, c⟩).findEntry d n = v.findEntry d n)
    {l : List (Σ _ : Str, Ino)} (cl : v.Clean R) (hd : d ∈ v.hierarchy.dirs)
    (hh : Heights height v) (single : v.SingleBelow d)
    (hl : ∀ e ∈ l, Hierarchy.Plain (layout R) (d, e.1) ∧ v.findEntry d e.1 = some e.2)
    (nd : l.Pairwise fun e e' => e.1 ≠ e'.1) : Pruned R height d v (l.foldl f v) := by
  induction l generalizing v with
  | nil => exact .refl cl
  | cons e l ih =>
    obtain ⟨plain, he⟩ := hl e List.mem_cons_self
    obtain ⟨hne, nd⟩ := List.pairwise_cons.mp nd
    obtain ⟨p, keep⟩ := one cl hd hh single plain he
    refine p.trans (ih p.clean (p.mem_dirs cl hd) (p.heights hh) (p.single cl single) ?_ nd)
    intro e' he'
    obtain ⟨plain', h'⟩ := hl e' (List.mem_cons_of_mem _ he')
    exact ⟨plain', (keep _ (hne e' he').symm).trans h'⟩

/-- Emptying a directory prunes what is below it. -/
theorem emptyDir {fuel : Nat} (cl : v.Clean R) (hd : d ∈ v.hierarchy.dirs) (hh : Heights height v)
    (enough : height d < fuel) (single : v.SingleBelow d) :
    Pruned R height d v (emptyDir fuel d v) := by
  induction fuel generalizing d v with
  | zero => exact absurd enough (Nat.not_lt_zero _)
  | succ fuel ih =>
    refine foldl ?_ cl hd hh single (fun e he => ?_) ?_
    · intro v name c cl hd hh single plain e
      have inside : v.Inside d c := ⟨name, plain.1, plain.2, e⟩
      -- the child is emptied first if it is a directory
      obtain ⟨p, empty, lt, same⟩ : Pruned R height d v
            (if v.IsDir c then Volume.emptyDir fuel c v else v) ∧
          (∀ x, ¬ (if v.IsDir c then Volume.emptyDir fuel c v else v).Inside c x) ∧
          (v.IsDir c → height c < height d) ∧
          ∀ n, (if v.IsDir c then Volume.emptyDir fuel c v else v).findEntry d n =
            v.findEntry d n := by
        by_cases hc : v.IsDir c
        · have lt := hh inside hc
          have deep : height c < fuel := by omega
          have single' : v.SingleBelow c := fun x below => single x (.head inside below)
          have p := ih cl ⟨cl.used e, hc⟩ hh deep single'
          simp only [if_pos hc]
          exact ⟨p.below lt, emptyDir_empty hh hc (Nat.ne_zero_of_lt deep), fun _ => lt,
            fun n => p.above lt⟩
        · simp only [if_neg hc]
          refine ⟨.refl cl, fun x hx => ?_, fun h => absurd h hc, fun _ => trivial⟩
          obtain ⟨n, -, -, e'⟩ := hx
          exact hc (cl.holder e').2
      have e' := (same name).trans e
      have inside' : (if v.IsDir c then Volume.emptyDir fuel c v else v).Inside d c :=
        ⟨name, plain.1, plain.2, e'⟩
      obtain ⟨p', keep⟩ := removeChild p.clean plain e' empty
        (p.single cl single c (.single inside')) fun h => lt (p.dir_iff.mp h)
      exact ⟨p.trans p', fun n hn => (keep n hn).trans (same n)⟩
    · obtain ⟨hm, hn⟩ := List.mem_filter.mp he
      have plain : e.1 ≠ Path.dot ∧ e.1 ≠ Path.dotDot := of_decide_eq_true hn
      exact ⟨plain, UnorderedMap.mem_entries_iff.mp hm⟩
    · exact (List.nodupKeys_iff_pairwise.mp (v.inodes d).entries.nodupKeys).filter _

end Pruned

/-- What is unlinked was an entry. -/
lemma name_of_unlink (h : unlink d c name v = .ok v') : name ∈ (v.inodes d).entries := by
  unfold unlink at h
  split at h
  · cases h
  · split at h
    · cases h
    · rename_i hr
      exact (removeEntry_ok hr).1

/-- A lookup for a directory ends at one, or the path is the root's. -/
lemma find_dir {f : Found} (h : find bl (some .dir) names v = .ok f) :
    v.IsDir f.inode ∨ f.name = [] := by
  have walk : ∀ {names d parent v₁}, Opens bl false (some .dir) names d parent v f v₁ →
      v.IsDir f.inode ∨ f.name = [] := by
    intro names d parent v₁ o
    clear h
    induction o with
    | last _ he ht =>
      obtain ⟨rfl, -⟩ := enter_false he
      exact .inl ht.symm
    | slash _ => exact .inr rfl
    | next _ he _ _ ih =>
      obtain ⟨rfl, -⟩ := enter_false he
      exact ih
  exact walk (openLoop_opens (find_ok h))

namespace Clean

/-- On a clean volume the fuel is enough. -/
lemma exists_heights (cl : v.Clean R) : ∃ height : Ino → ℕ,
    (∀ d ∈ v.hierarchy.dirs, height d < v.inodesCount) ∧ Heights height v := by
  obtain ⟨height, low, lt⟩ := cl.consistent.exists_height (Finset.Icc 1 v.inodesCount)
    fun d hd => Finset.mem_Icc.mpr (cl.has hd.1 hd.2)
  refine ⟨height, fun d hd => ?_, fun a b inside hb => lt a b ?_ ?_⟩
  · have h := low d hd
    rwa [Nat.card_Icc, Nat.add_sub_cancel] at h
  · rwa [child_eq]
  · obtain ⟨n, -, -, e⟩ := inside
    exact ⟨cl.used e, hb⟩

/-- `ext4_dir_rm`, also where it stops before the directory itself. -/
theorem dirRm (cl : v.Clean R) (dots : ∀ n ∈ names, n ≠ Path.dot ∧ n ≠ Path.dotDot)
    (single : ∀ f, find bl (some .dir) names v = .ok f → v.SingleBelow f.inode) :
    (dirRm bl names v).2.Clean R := by
  obtain ⟨height, low, hh⟩ := cl.exists_heights
  cases hf : find bl (some .dir) names v with
  | error err =>
    simp only [Volume.dirRm, hf]
    exact cl
  | ok f =>
    obtain ⟨d, parent, name⟩ := f
    have hd : d ∈ v.hierarchy.dirs := by
      rcases cl.found hf with ⟨h, -⟩ | ⟨e, -, hn⟩
      · exact h
      · exact ⟨cl.used e, (find_dir hf).resolve_right hn⟩
    have p : Pruned R height d v (emptyDir v.inodesCount d v) :=
      .emptyDir cl hd hh (low d hd) (single _ hf)
    simp only [Volume.dirRm, hf]
    split
    · exact p.clean
    · rename_i v₂ hu
      rcases cl.found hf with ⟨-, hn⟩ | ⟨e, hmem, -⟩
      · -- there is no entry without a name to be unlinked
        have hn' : name = [] := hn
        obtain ⟨x, hx⟩ := UnorderedMap.exists_lookup (name_of_unlink hu)
        exact absurd hn' (p.clean.named hx)
      · have plain : Hierarchy.Plain (layout R) (parent, name) := dots _ hmem
        have lt : height d < height parent := hh ⟨name, plain.1, plain.2, e⟩ hd.2
        have up : v.findEntry d Path.dotDot = some parent := cl.consistent.up plain e hd
        rw [up, Option.getD_some] at hu
        have empty := emptyDir_empty hh hd.2 (Nat.ne_zero_of_lt (low d hd))
        generalize emptyDir v.inodesCount d v = v₁ at *
        have e₁ : v₁.findEntry parent name = some d := (p.above lt).trans e
        have hd₁ : v₁.IsDir d := p.dir_iff.mpr hd.2
        obtain ⟨ne, two, three⟩ := p.clean.empty_dir plain e₁ hd₁ empty
        have he := hierarchy_unlink_dir hu hd₁ ne two.le three
        have links : (v₂.inodes d).links = 2 := by
          have h := congrFun (congrArg Hierarchy.links he) d
          exact (h.trans (Function.update_of_ne ne.symm _ _)).trans two
        rw [if_pos links]
        have hn : v₂.inodesCount = v₁.inodesCount := inodesCount_unlink hu
        refine p.clean.dropDir plain e₁ hd₁ empty ?_ hn
        rw [hierarchy_giveUp, hierarchy_truncDir, he]
        apply Hierarchy.ext
        case used => rfl
        case dirs => rfl
        case entry =>
          funext r
          rw [Hierarchy.Consistent.entry_dropDir (not_child empty)]
          simp only [Function.update_apply]
          by_cases h₁ : r.1 = d
          · rw [if_pos h₁, if_pos (.inr h₁)]
          · simp only [h₁, if_false, or_false]
        case links => rfl

end Clean

end Volume
end Lwext4
end Evfs
