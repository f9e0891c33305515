import Evfs.Lwext4.Walk
import Mathlib.Logic.Relation

/-!
# Removing a directory

`ext4_dir_rm` removes what is below a directory before it removes the directory itself. All it does
on the way is to take entries away (`Shrinks`), and in a directory tree it takes away every entry of
the directory it is called for (`children_dirRm`), so that it is never stopped by what is left.
-/

namespace Evfs
namespace Lwext4
open Lib
namespace Volume

/-- The inode numbers of a volume. -/
def Has (v : Volume) (i : Ino) : Prop := 1 ≤ i ∧ i ≤ v.inodesCount

instance (v : Volume) (i : Ino) : Decidable (v.Has i) := inferInstanceAs (Decidable (_ ∧ _))

/-- An entry of a directory other than `.` and `..`. -/
def Child (v : Volume) (d c : Ino) : Prop := v.Has d ∧ ∃ name, ⟨name, c⟩ ∈ v.children d

/-- A directory tree: entries lead to inodes of the volume, and nothing is below itself. -/
structure IsTree (v : Volume) : Prop where
  root : v.Has rootIndex
  entry {d name c} : v.Has d → v.findEntry d name = some c → v.Has c
  acyclic {d} : ¬ Relation.TransGen v.Child d d

/-- Entries are taken away at most. -/
def Shrinks (v v' : Volume) : Prop :=
  ∀ a name, name ∈ (v'.inodes a).entries → name ∈ (v.inodes a).entries

variable {bl : BlockLayer} {v v' v'' : Volume} {d c i : Ino} {name : Str} {names : List Str}
  {e : Σ _ : Str, Ino}

namespace IsTree

/-- No child is its own directory. -/
lemma ne (t : v.IsTree) (h : v.Child d c) : c ≠ d := by
  rintro rfl
  exact t.acyclic (.single h)

/-- A tree in which the inode numbers grow on the way down. -/
lemma of_lt (root : v.Has rootIndex)
    (h : ∀ d ≤ v.inodesCount, ∀ e ∈ (v.inodes d).entries.entries, v.Has e.2 ∧
      (e.1 ≠ Path.dot ∧ e.1 ≠ Path.dotDot → d < e.2)) : v.IsTree where
  root := root
  entry hd hc := (h _ hd.2 _ (UnorderedMap.mem_entries_iff.mpr hc)).1
  acyclic {d} hd := by
    have child : ∀ {a b}, v.Child a b → a < b := by
      rintro a b ⟨ha, name, hb⟩
      obtain ⟨hm, hn⟩ := List.mem_filter.mp hb
      exact (h a ha.2 _ hm).2 (of_decide_eq_true hn)
    have lt : ∀ {a b}, Relation.TransGen v.Child a b → a < b := by
      intro a b hab
      induction hab with
      | single hc => exact child hc
      | tail _ hc ih => exact ih.trans (child hc)
    exact lt_irrefl _ (lt hd)

/-- In a tree, a lookup from an inode that is there ends at one. -/
lemma openLoop (t : v.IsTree) {ftype : Option FileType} {parent : Ino} {f : Found}
    (hd : v.Has d) (h : openLoop bl false ftype names d parent v = .ok (f, v')) :
    v.Has f.inode := by
  replace h := openLoop_opens h
  induction h with
  | last _ he _ => exact t.entry hd (enter_false he).2
  | slash _ => exact hd
  | next _ he _ _ ih =>
    obtain ⟨rfl, e⟩ := enter_false he
    exact ih t (t.entry hd e)

/-- What a path leads to is an inode of the volume. -/
lemma find (t : v.IsTree) {ftype : Option FileType} {f : Found}
    (h : find bl ftype names v = .ok f) : v.Has f.inode := t.openLoop t.root (find_ok h)

end IsTree

namespace Shrinks

lemma refl : Shrinks v v := fun _ _ => id

lemma trans (s : Shrinks v v') (s' : Shrinks v' v'') : Shrinks v v'' :=
  fun a n h => s a n (s' a n h)

/-- An inode left with no more entries. -/
lemma modify {f : Inode → Inode} (h : ∀ n name, name ∈ (f n).entries → name ∈ n.entries) :
    Shrinks v (v.modify i f) := by
  intro a n hn
  by_cases ha : a = i
  · rw [ha, inodes_modify_self] at hn
    rw [ha]
    exact h _ _ hn
  · rwa [inodes_modify_of_ne ha] at hn

/-- A change of other fields. -/
lemma modify_same {f : Inode → Inode} (h : ∀ n, (f n).entries = n.entries) :
    Shrinks v (v.modify i f) := .modify fun n _ hn => by rwa [h] at hn

/-- A loop of shrinking steps. -/
lemma foldl {α : Type} {f : Volume → α → Volume} (h : ∀ v e, Shrinks v (f v e)) (l : List α) :
    Shrinks v (l.foldl f v) := by
  induction l generalizing v with
  | nil => exact .refl
  | cons e l ih => exact (h v e).trans ih

/-- Removing an entry. -/
lemma removeEntry (h : v.removeEntry d name = .ok v') : Shrinks v v' := by
  unfold Volume.removeEntry at h
  split at h
  · cases h
    exact .modify fun n a hn => (AList.mem_erase.mp hn).2
  · cases h

/-- One link less. -/
lemma linksDec : Shrinks v (v.linksDec i) := .modify_same (by intro _; rfl)

/-- Truncating a directory. -/
lemma truncDir : Shrinks v (v.truncDir i) :=
  .modify fun _ a hn => absurd hn (AList.notMem_empty a)

/-- Truncating an inode. -/
lemma truncInode {size : Nat} : Shrinks v (v.truncInode i size) := .modify_same (by intro _; rfl)

/-- An inode that nothing links to any more. -/
lemma freeInode : Shrinks v ((v.modify i fun n => { n with links := 0 }).freeInode i) :=
  Shrinks.modify_same (f := fun n => { n with links := 0 }) fun _ => rfl

end Shrinks

/-- `ext4_unlink` takes the entry away. -/
lemma unlink_ok (h : unlink d c name v = .ok v') :
    Shrinks v v' ∧ name ∉ (v'.inodes d).entries := by
  unfold unlink at h
  split at h
  · cases h
  · split at h
    · cases h
    · rename_i v₁ hr
      cases h
      have gone : name ∉ (v₁.inodes d).entries := by
        have e := (removeEntry_ok hr).2.1
        exact fun hm => (AList.lookup_eq_none.mp e) hm
      have s : Shrinks v₁ ((if v₁.IsDir c then v₁.linksDec d else v₁).linksDec c) := by
        refine Shrinks.trans ?_ .linksDec
        split
        · exact .linksDec
        · exact .refl
      exact ⟨(Shrinks.removeEntry hr).trans s, fun hm => gone (s _ _ hm)⟩

/-- It is refused where something is left below, or where there is no such entry. -/
lemma unlink_error {err : ErrorCode} (h : unlink d c name v = .error err) :
    v.hasChildren c = true ∧ err = ENOTEMPTY ∨
      name ∉ (v.inodes d).entries ∧ err = ENOENT := by
  unfold unlink at h
  split at h
  · rename_i hc
    cases h
    exact .inl ⟨hc, rfl⟩
  · split at h
    · rename_i hr
      unfold removeEntry at hr
      split at hr
      · cases hr
      · rename_i hn
        cases hr
        cases h
        exact .inr ⟨hn, rfl⟩
    · cases h

/-- The child as it is before it is unlinked. -/
lemma shrinks_truncated (c : Ino) :
    Shrinks v (if v.IsDir c then v.truncDir c else v.truncInode c 0) := by
  split
  · exact .truncDir
  · exact .truncInode

/-- What is truncated has no children. -/
lemma hasChildren_truncated (c : Ino) :
    (if v.IsDir c then v.truncDir c else v.truncInode c 0).hasChildren c = false := by
  split
  · simp only [hasChildren, children, truncDir, inodes_modify_self]
    exact decide_eq_false fun h => h.2 rfl
  · rename_i hd
    refine decide_eq_false fun h => hd ?_
    exact (inodes_modify_congr Inode.type (by intro _; rfl) c).symm.trans h.1

/-- Removing a child. -/
lemma shrinks_removeChild : Shrinks v (removeChild d e v) := by
  unfold removeChild
  split
  · exact .refl
  · rename_i hu
    exact ((shrinks_truncated e.2).trans (unlink_ok hu).1).trans .freeInode

/-- A child other than the directory itself is removed. -/
lemma removeChild_gone (ne : e.2 ≠ d) : e.1 ∉ ((removeChild d e v).inodes d).entries := by
  unfold removeChild
  split
  · rename_i hu
    rcases unlink_error hu with ⟨hc, -⟩ | ⟨hn, -⟩
    · rw [hasChildren_truncated] at hc
      cases hc
    · -- the entry was not there before either, since only the child was made shorter
      intro hm
      apply hn
      split
      · rwa [truncDir, inodes_modify_of_ne ne.symm]
      · rwa [truncInode, inodes_modify_of_ne ne.symm]
  · rename_i hu
    exact fun hm => (unlink_ok hu).2 (Shrinks.freeInode _ _ hm)

/-- Emptying a directory. -/
lemma shrinks_emptyDir {fuel : Nat} : Shrinks v (emptyDir fuel d v) := by
  induction fuel generalizing d v with
  | zero => exact .refl
  | succ fuel ih =>
    refine .foldl (fun v e => ?_) _
    apply Shrinks.trans _ shrinks_removeChild
    split
    · exact ih
    · exact .refl

/-- What the loop has removed stays removed. -/
lemma foldl_gone {f : Volume → (Σ _ : Str, Ino) → Volume} (s : ∀ v e, Shrinks v (f v e))
    (gone : ∀ v e, e.2 ≠ d → e.1 ∉ ((f v e).inodes d).entries) {l : List (Σ _ : Str, Ino)}
    (own : ∀ e ∈ l, e.2 ≠ d) : ∀ e ∈ l, e.1 ∉ ((l.foldl f v).inodes d).entries := by
  induction l generalizing v with
  | nil => nofun
  | cons a l ih =>
    intro e he
    rcases List.mem_cons.mp he with rfl | he
    · intro hm
      exact gone v e (own e List.mem_cons_self) (Shrinks.foldl s l _ _ hm)
    · exact ih (fun e he => own e (List.mem_cons_of_mem _ he)) e he

/-- An entry other than the dots is a child. -/
lemma mem_children {n : Str} (hn : n ∈ (v.inodes d).entries) (h₁ : n ≠ Path.dot)
    (h₂ : n ≠ Path.dotDot) : ∃ c, (⟨n, c⟩ : Σ _ : Str, Ino) ∈ v.children d := by
  obtain ⟨c, hc⟩ := UnorderedMap.exists_lookup hn
  refine ⟨c, List.mem_filter.mpr ⟨UnorderedMap.mem_entries_iff.mpr hc, ?_⟩⟩
  exact decide_eq_true ⟨h₁, h₂⟩

/-- No child is left when all those there were are gone. -/
lemma Shrinks.children_eq_nil (s : Shrinks v v')
    (gone : ∀ e ∈ v.children d, e.1 ∉ (v'.inodes d).entries) : v'.children d = [] := by
  refine List.filter_eq_nil_iff.mpr fun e he hd => ?_
  obtain ⟨h₁, h₂⟩ := of_decide_eq_true hd
  have hm : e.1 ∈ (v'.inodes d).entries := AList.mem_keys.mpr (List.mem_keys_of_mem he)
  obtain ⟨c, hc⟩ := mem_children (s _ _ hm) h₁ h₂
  exact gone _ hc hm

/-- An emptied directory has no children left. -/
lemma children_emptyDir {fuel : Nat} (own : ∀ e ∈ v.children d, e.2 ≠ d) :
    (emptyDir (fuel + 1) d v).children d = [] := by
  apply shrinks_emptyDir.children_eq_nil
  refine foldl_gone (fun v e => ?_) (fun v e ne => removeChild_gone ne) own
  apply Shrinks.trans _ shrinks_removeChild
  split
  · exact shrinks_emptyDir
  · exact .refl

/-- In a tree `ext4_dir_rm` takes away every entry of the directory, and is not stopped by what is
below. -/
theorem children_dirRm {f : Found} (t : v.IsTree) (hf : find bl (some .dir) names v = .ok f) :
    (dirRm bl names v).2.children f.inode = [] ∧ (dirRm bl names v).1 ≠ ENOTEMPTY := by
  have has := t.find hf
  have own : ∀ e ∈ v.children f.inode, e.2 ≠ f.inode := fun e he => t.ne ⟨has, e.1, he⟩
  obtain ⟨fuel, hfuel⟩ := Nat.exists_eq_add_of_lt (Nat.lt_of_lt_of_le Nat.zero_lt_one
    (has.1.trans has.2))
  have empty : (emptyDir v.inodesCount f.inode v).children f.inode = [] := by
    rw [hfuel, Nat.zero_add]
    exact children_emptyDir own
  have noChildren : (emptyDir v.inodesCount f.inode v).hasChildren f.inode = false :=
    decide_eq_false fun h => h.2 empty
  -- the unlink of the directory itself adds nothing, so it stays empty
  have kept : ∀ {v'}, Shrinks (emptyDir v.inodesCount f.inode v) v' →
      v'.children f.inode = [] := by
    intro v' s
    apply s.children_eq_nil
    rw [empty]
    nofun
  obtain ⟨d, parent, name⟩ := f
  simp only [dirRm, hf]
  split
  · rename_i err hu
    refine ⟨empty, ?_⟩
    rcases unlink_error hu with ⟨h, -⟩ | ⟨-, rfl⟩
    · rw [noChildren] at h
      cases h
    · exact (show ENOENT ≠ ENOTEMPTY by decide)
  · rename_i v₁ hu
    refine ⟨kept ((unlink_ok hu).1.trans ?_), (show (0 : ErrorCode) ≠ ENOTEMPTY by decide)⟩
    split
    · exact Shrinks.truncDir.trans .freeInode
    · exact .refl

end Volume
end Lwext4
end Evfs
