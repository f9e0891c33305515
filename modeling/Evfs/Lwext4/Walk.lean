import Evfs.Lwext4.Volume

/-!
# Walks through directories

What `openLoop` does when it creates nothing: it leaves the volume alone and follows entries. A path
whose last entry is removed leads nowhere (`openLoop_lost`), whatever else the removal brings along.
-/

namespace Evfs
namespace Lwext4
open Lib
namespace Volume
variable {bl : BlockLayer} {v v' : Volume} {ftype : Option FileType}

/-- The inode that is changed. -/
@[simp] lemma inodes_modify_self {i : Ino} {f : Inode → Inode} :
    (v.modify i f).inodes i = f (v.inodes i) := Function.update_self _ _ _

/-- The other inodes. -/
lemma inodes_modify_of_ne {i j : Ino} {f : Inode → Inode} (h : j ≠ i) :
    (v.modify i f).inodes j = v.inodes j := Function.update_of_ne h _ _

/-- A change that keeps a field of every inode keeps it of all. -/
lemma inodes_modify_congr {α : Type} (g : Inode → α) {i : Ino} {f : Inode → Inode}
    (h : ∀ n, g (f n) = g n) (j : Ino) : g ((v.modify i f).inodes j) = g (v.inodes j) := by
  by_cases hj : j = i
  · rw [hj, inodes_modify_self, h]
  · rw [inodes_modify_of_ne hj]

/-- The entry that is added is found. -/
lemma findEntry_addEntry_self {d c : Ino} {name : Str} :
    (v.addEntry bl d name c).findEntry d name = some c := by
  simp only [findEntry, addEntry, inodes_modify_self, UnorderedMap.lookup_insertAt_self]

/-- The other entries are as before. -/
lemma findEntry_addEntry_of_ne {d a c : Ino} {name n : Str} (h : ¬ (a = d ∧ n = name)) :
    (v.addEntry bl d name c).findEntry a n = v.findEntry a n := by
  unfold findEntry addEntry
  by_cases ha : a = d
  · subst ha
    rw [inodes_modify_self]
    exact UnorderedMap.lookup_insertAt_ne fun e => h ⟨rfl, e⟩
  · rw [inodes_modify_of_ne ha]

/-- Adding an entry keeps the types. -/
lemma type_addEntry {d c : Ino} {name : Str} (a : Ino) :
    ((v.addEntry bl d name c).inodes a).type = (v.inodes a).type :=
  inodes_modify_congr Inode.type (by intro _; rfl) a

/-- So does one link more. -/
lemma type_linksInc {d : Ino} (a : Ino) : ((v.linksInc d).inodes a).type = (v.inodes a).type :=
  inodes_modify_congr Inode.type (by intro _; rfl) a

/-- And one link less. -/
lemma type_linksDec {d : Ino} (a : Ino) : ((v.linksDec d).inodes a).type = (v.inodes a).type :=
  inodes_modify_congr Inode.type (by intro _; rfl) a

/-- One link more keeps the entries. -/
lemma findEntry_linksInc {d a : Ino} {n : Str} : (v.linksInc d).findEntry a n = v.findEntry a n :=
  congrArg (AList.lookup n) (inodes_modify_congr Inode.entries (by intro _; rfl) a)

/-- So does one link less. -/
lemma findEntry_linksDec {d a : Ino} {n : Str} : (v.linksDec d).findEntry a n = v.findEntry a n :=
  congrArg (AList.lookup n) (inodes_modify_congr Inode.entries (by intro _; rfl) a)

/-- What `ext4_dir_remove_entry` does to the entries. -/
lemma removeEntry_ok {d : Ino} {name : Str} (h : v.removeEntry d name = .ok v') :
    name ∈ (v.inodes d).entries ∧ v'.findEntry d name = none ∧
      (∀ a n, ¬ (a = d ∧ n = name) → v'.findEntry a n = v.findEntry a n) ∧
      ∀ a, (v'.inodes a).type = (v.inodes a).type := by
  unfold removeEntry at h
  split at h
  · rename_i hn
    cases h
    refine ⟨hn, ?_, fun a n hne => ?_, fun a => inodes_modify_congr Inode.type (by intro _; rfl) a⟩
    · simp only [findEntry, inodes_modify_self, AList.lookup_erase]
    · unfold findEntry
      by_cases ha : a = d
      · subst ha
        rw [inodes_modify_self]
        exact AList.lookup_erase_ne fun e => hne ⟨rfl, e⟩
      · rw [inodes_modify_of_ne ha]
  · cases h

/-! ### Looking up -/

/-- A name that is there is entered. -/
lemma enter_some {creat : Bool} {type : FileType} {name : Str} {ref c : Ino}
    (h : v.findEntry ref name = some c) : enter bl creat type name ref v = .ok (c, v) := by
  simp only [enter, h]

/-- A name that is not is `ENOENT`, where nothing is created. -/
lemma enter_none {type : FileType} {name : Str} {ref : Ino} (h : v.findEntry ref name = none) :
    enter bl false type name ref v = .error ENOENT := by
  simp only [enter, h]
  rfl

/-- Where nothing is created, the volume is as before. -/
lemma enter_false {type : FileType} {name : Str} {ref c : Ino}
    (h : enter bl false type name ref v = .ok (c, v')) : v' = v ∧ v.findEntry ref name = some c := by
  cases hf : v.findEntry ref name with
  | none =>
    rw [enter_none hf] at h
    cases h
  | some d =>
    rw [enter_some hf] at h
    cases h
    exact ⟨rfl, rfl⟩

/-- The steps of an `openLoop` that finds something. -/
inductive Opens (bl : BlockLayer) (creat : Bool) (ftype : Option FileType) :
    List Str → Ino → Ino → Volume → Found → Volume → Prop where
  | last {name : Str} {ref parent child : Ino} {v v' : Volume} :
    NameOk name →
    enter bl creat (ftype.getD .regFile) name ref v = .ok (child, v') →
    ftype.getD (v'.inodes child).type = (v'.inodes child).type →
    Opens bl creat ftype [name] ref parent v ⟨child, ref, name⟩ v'
  /-- The path ends in a separator. -/
  | slash {ref parent : Ino} {v : Volume} :
    ftype.getD .dir = .dir →
    Opens bl creat ftype [[]] ref parent v ⟨ref, parent, []⟩ v
  | next {name next : Str} {names : List Str} {ref parent child : Ino} {v v₁ v' : Volume}
    {f : Found} :
    NameOk name →
    enter bl creat .dir name ref v = .ok (child, v₁) →
    v₁.IsDir child →
    Opens bl creat ftype (next :: names) child ref v₁ f v' →
    Opens bl creat ftype (name :: next :: names) ref parent v f v'

/-- A walk that succeeds, name by name. -/
lemma openLoop_opens {creat : Bool} {names : List Str} {ref parent : Ino} {f : Found}
    (h : openLoop bl creat ftype names ref parent v = .ok (f, v')) :
    Opens bl creat ftype names ref parent v f v' := by
  induction names generalizing ref parent v with
  | nil => cases h
  | cons name names ih =>
    cases names with
    | nil =>
      simp only [openLoop] at h
      split at h
      · rename_i hok
        split at h
        · cases h
        · rename_i he
          split at h
          · rename_i ht
            cases h
            exact .last hok he ht
          · cases h
      · split at h
        · rename_i hnil
          cases h
          rw [hnil.1]
          exact .slash hnil.2
        · cases h
    | cons next names =>
      simp only [openLoop] at h
      split at h
      · rename_i hok
        split at h
        · cases h
        · rename_i he
          split at h
          · rename_i hd
            exact .next hok he hd (ih h)
          · cases h
      · cases h

/-- Without `O_CREAT` the volume stays as it is. -/
lemma openLoop_false {names : List Str} {ref parent : Ino} {f : Found}
    (h : openLoop bl false ftype names ref parent v = .ok (f, v')) : v' = v := by
  replace h := openLoop_opens h
  induction h with
  | last _ he _ => exact (enter_false he).1
  | slash _ => rfl
  | next _ he _ _ ih => exact ih.trans (enter_false he).1

/-- A lookup that succeeds is a walk that creates nothing. -/
lemma find_ok {names : List Str} {f : Found} (h : find bl ftype names v = .ok f) :
    openLoop bl false ftype names rootIndex rootIndex v = .ok (f, v) := by
  unfold find genericOpen at h
  cases ho : openLoop bl false ftype names rootIndex rootIndex v with
  | error e =>
    rw [ho] at h
    cases h
  | ok r =>
    obtain ⟨g, v'⟩ := r
    rw [ho] at h
    cases h
    rw [openLoop_false ho]

/-- A lookup fails where the walk does. -/
lemma find_error {names : List Str} {e : ErrorCode}
    (h : openLoop bl false ftype names rootIndex rootIndex v = .error e) :
    find bl ftype names v = .error e := by
  unfold find genericOpen
  rw [h]
  rfl

/-- A path that leads to a file has no trailing separator. -/
lemma openLoop_regFile {creat : Bool} {names : List Str} {ref parent : Ino} {r : Found × Volume}
    (h : openLoop bl creat (some .regFile) names ref parent v = .ok r) :
    names.getLast? ≠ some [] := by
  obtain ⟨f, v'⟩ := r
  replace h := openLoop_opens h
  induction h with
  | last hok _ _ => exact fun e => hok.1 (Option.some.inj e)
  | slash hd => exact absurd hd (by decide)
  | next _ _ _ _ ih =>
    rw [List.getLast?_cons_cons]
    exact ih

/-- The last name of a path without trailing separator is the one found. -/
lemma openLoop_name {creat : Bool} {names : List Str} {ref parent : Ino} {f : Found}
    (h : openLoop bl creat ftype names ref parent v = .ok (f, v'))
    (hl : names.getLast? ≠ some []) : f.name ∈ names ∧ f.name ≠ [] := by
  replace h := openLoop_opens h
  induction h with
  | last hok _ _ => exact ⟨List.mem_cons_self, hok.1⟩
  | slash _ => exact absurd rfl hl
  | next _ _ _ _ ih =>
    obtain ⟨hm, hn⟩ := ih (by rwa [List.getLast?_cons_cons] at hl)
    exact ⟨List.mem_cons_of_mem _ hm, hn⟩

/-- Once the entry that a path ends in is gone, the path leads nowhere. -/
lemma openLoop_lost {names : List Str} {ref parent parent' : Ino} {f : Found} {w : Volume}
    {ftype' : Option FileType} (h : openLoop bl false ftype names ref parent v = .ok (f, w))
    (hn : f.name ≠ []) (gone : v'.findEntry f.parent f.name = none)
    (keep : ∀ a n c, n ∈ names → ¬ (a = f.parent ∧ n = f.name) → v.findEntry a n = some c →
      v'.findEntry a n = some c)
    (type : ∀ a, (v'.inodes a).type = (v.inodes a).type) :
    openLoop bl false ftype' names ref parent' v' = .error ENOENT := by
  replace h := openLoop_opens h
  induction h generalizing parent' with
  | last hok _ _ => rw [openLoop, if_pos hok, enter_none gone]
  | slash _ => exact absurd rfl hn
  | @next name next names ref parent c v v₁ w f hok he hd _ ih =>
    obtain ⟨rfl, hf⟩ := enter_false he
    rw [openLoop, if_pos hok]
    by_cases hl : ref = f.parent ∧ name = f.name
    · -- the walk comes by the removed entry before its end
      rw [hl.1, hl.2, enter_none gone]
    · rw [enter_some (keep _ _ _ List.mem_cons_self hl hf)]
      have hd' : v'.IsDir c := (type c).trans hd
      simp only [if_pos hd']
      exact ih hn gone (fun a n c hm => keep a n c (List.mem_cons_of_mem _ hm)) type

end Volume
end Lwext4
end Evfs
