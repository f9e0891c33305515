import Evfs.Lwext4.Confined
import Evfs.Lwext4.Renaming

/-!
# Files in use

`Leads` is a path to a regular file over inodes that are all in use. The functions that remove
nothing only add to a volume (`Grows`): an inode in use stays in use and keeps its type and its
entries, and a regular file its data. So a path that leads to a file still does after them.
-/

namespace Evfs
namespace Lwext4
open Lib
namespace Volume

/-- From a directory on, the names lead to a regular file, and every inode on the way is in use. -/
inductive Leads (v : Volume) : Ino → List Str → Ino → Prop where
  | file {d name i} : v.used d = true → NameOk name → v.findEntry d name = some i →
    v.used i = true → (v.inodes i).type = .regFile → Leads v d [name] i
  | dir {d name c next names i} : v.used d = true → NameOk name → v.findEntry d name = some c →
    v.IsDir c → Leads v c (next :: names) i → Leads v d (name :: next :: names) i

/-- The inodes on the way of a path, as far as it goes, are in use. -/
def InUse (v : Volume) : Ino → List Str → Prop
  | d, [] => v.used d = true
  | d, name :: names =>
    v.used d = true ∧
      match v.findEntry d name with
      | some c => v.InUse c names
      | none => True

instance decidableInUse (v : Volume) : (d : Ino) → (names : List Str) → Decidable (v.InUse d names)
  | d, [] => inferInstanceAs (Decidable (v.used d = true))
  | d, name :: names =>
    match h : v.findEntry d name with
    | some c =>
      have := decidableInUse v c names
      decidable_of_iff (v.used d = true ∧ v.InUse c names) (by rw [InUse, h])
    | none => decidable_of_iff (v.used d = true) (by rw [InUse, h, and_true])

/-- Nothing in use is lost but the data of the regular files in `P`. -/
structure Grows (P : Ino → Prop) (v v' : Volume) : Prop where
  used {a} : v.used a = true → v'.used a = true
  type {a} : v.used a = true → (v'.inodes a).type = (v.inodes a).type
  entries {a name c} : v.used a = true → v.findEntry a name = some c → v'.findEntry a name = some c
  data {a} : v.used a = true → (v.inodes a).type = .regFile → ¬ P a →
    (v'.inodes a).data = (v.inodes a).data

variable {bl : BlockLayer} {v v' v'' : Volume} {P Q : Ino → Prop} {d c i : Ino} {name : Str}
  {names : List Str}

namespace Grows

/-- A volume grows from itself. -/
lemma refl : Grows P v v := ⟨id, fun _ => rfl, fun _ => id, fun _ _ _ => rfl⟩

lemma trans (g : Grows P v v') (g' : Grows P v' v'') : Grows P v v'' where
  used h := g'.used (g.used h)
  type h := (g'.type (g.used h)).trans (g.type h)
  entries h e := g'.entries (g.used h) (g.entries h e)
  data h r n := (g'.data (g.used h) ((g.type h).trans r) n).trans (g.data h r n)

/-- More files may change. -/
lemma mono (g : Grows P v v') (imp : ∀ a, P a → Q a) : Grows Q v v' :=
  { g with data := fun h r n => g.data h r fun p => n (imp _ p) }

/-- A change of one inode that keeps its type and entries. -/
lemma modify {f : Inode → Inode} (ht : (f (v.inodes i)).type = (v.inodes i).type)
    (he : (f (v.inodes i)).entries = (v.inodes i).entries)
    (hd : (v.inodes i).type = .regFile → ¬ P i → (f (v.inodes i)).data = (v.inodes i).data) :
    Grows P v (v.modify i f) := by
  constructor
  case used => exact id
  case type =>
    intro a _
    by_cases h : a = i
    · rw [h, inodes_modify_self, ht]
    · rw [inodes_modify_of_ne h]
  case entries =>
    intro a n c _ e
    unfold findEntry at e ⊢
    by_cases h : a = i
    · rw [h] at e
      rw [h, inodes_modify_self, he, e]
    · rw [inodes_modify_of_ne h, e]
  case data =>
    intro a _ r np
    by_cases h : a = i
    · rw [h] at r np
      rw [h, inodes_modify_self, hd r np]
    · rw [inodes_modify_of_ne h]

end Grows

/-- A path that leads to an inode still does in a volume grown from it. -/
lemma Leads.grows (g : Grows P v v') (l : Leads v d names i) : Leads v' d names i := by
  induction l with
  | file hd hn he hi ht =>
    exact .file (g.used hd) hn (g.entries hd he) (g.used hi) ((g.type hi).trans ht)
  | @dir d name c next names i hd hn he hc l ih =>
    have hc' : v.used c = true := by cases l <;> assumption
    exact .dir (g.used hd) hn (g.entries hd he) ((g.type hc').trans hc) ih

/-- What a path leads to is in use. -/
lemma Leads.used (l : Leads v d names i) : v.used i = true := by
  induction l with
  | file _ _ _ hi _ => exact hi
  | dir _ _ _ _ _ ih => exact ih

/-- What a path leads to is a regular file. -/
lemma Leads.regFile (l : Leads v d names i) : (v.inodes i).type = .regFile := by
  induction l with
  | file _ _ _ _ ht => exact ht
  | dir _ _ _ _ _ ih => exact ih

/-- The first name of the path is an entry. -/
lemma Leads.entry (l : Leads v d (name :: names) i) : ∃ c, v.findEntry d name = some c := by
  cases l with
  | file _ _ e _ _ => exact ⟨_, e⟩
  | dir _ _ e _ _ => exact ⟨_, e⟩

/-- What a path leads to is found. -/
lemma Leads.openLoop (bl : BlockLayer) (l : Leads v d names i) (parent : Ino) :
    ∃ f, openLoop bl false (some .regFile) names d parent v = .ok (f, v) ∧ f.inode = i := by
  induction l generalizing parent with
  | @file d name i _ hn he _ ht =>
    refine ⟨⟨i, d, name⟩, ?_, rfl⟩
    rw [Volume.openLoop, if_pos hn, enter_some he]
    exact if_pos ht.symm
  | @dir d name c next names i _ hn he hc _ ih =>
    obtain ⟨f, e, hf⟩ := ih d
    refine ⟨f, ?_, hf⟩
    rw [Volume.openLoop, if_pos hn, enter_some he]
    simp only [if_pos hc]
    exact e

/-- ext4 finds what the path leads to. -/
lemma Leads.find (bl : BlockLayer) (l : Leads v rootIndex names i) :
    ∃ f, Volume.find bl (some .regFile) names v = .ok f ∧ f.inode = i := by
  obtain ⟨f, e, hf⟩ := l.openLoop bl rootIndex
  refine ⟨f, ?_, hf⟩
  unfold Volume.find genericOpen
  rw [e]
  rfl

/-! ### New entries -/

/-- Changing an inode but for its entries leaves every lookup alone. -/
lemma findEntry_modify {f : Inode → Inode} (h : ∀ n, (f n).entries = n.entries) (a : Ino)
    (n : Str) : (v.modify i f).findEntry a n = v.findEntry a n :=
  congrArg (AList.lookup n) (inodes_modify_congr Inode.entries h a)

/-- A lookup after adding an entry. -/
lemma findEntry_addEntry_eq (a : Ino) (n : Str) :
    (v.addEntry bl d name c).findEntry a n = if a = d ∧ n = name then some c else v.findEntry a n := by
  split
  · rename_i h
    rw [h.1, h.2, findEntry_addEntry_self]
  · rename_i h
    exact findEntry_addEntry_of_ne h

/-- What `ext4_link` adds: the entry, and the `.` and `..` of a directory. -/
lemma findEntry_link (h : link bl d c name v = .ok v') (a : Ino) (n : Str) :
    v'.findEntry a n =
      if v.IsDir c ∧ a = c ∧ n = Path.dotDot then some d
      else if v.IsDir c ∧ a = c ∧ n = Path.dot then some c
      else if a = d ∧ n = name then some c
      else v.findEntry a n := by
  unfold link at h
  split at h
  · split at h
    · rename_i hc
      split at h
      · cases h
        rw [findEntry_linksInc, findEntry_modify (by intro _; rfl), findEntry_addEntry_eq,
          findEntry_addEntry_eq, findEntry_addEntry_eq]
        simp only [hc, true_and]
      · cases h
    · rename_i hc
      cases h
      rw [findEntry_linksInc, findEntry_addEntry_eq]
      simp only [hc, false_and, if_false]
  · cases h

/-- `ext4_link` changes entries and link counts only. -/
lemma link_congr {α : Type} (g : Inode → α) (he : ∀ n e, g { n with entries := e } = g n)
    (hl : ∀ n l, g { n with links := l } = g n) (h : link bl d c name v = .ok v') :
    v'.used = v.used ∧ ∀ a, g (v'.inodes a) = g (v.inodes a) := by
  unfold link at h
  split at h
  · split at h
    · split at h
      · cases h
        refine ⟨rfl, fun a => ?_⟩
        rw [linksInc, inodes_modify_congr g fun n => hl n _,
          inodes_modify_congr g fun n => hl n _, addEntry,
          inodes_modify_congr g fun n => he n _, addEntry,
          inodes_modify_congr g fun n => he n _, addEntry,
          inodes_modify_congr g fun n => he n _]
      · cases h
    · cases h
      refine ⟨rfl, fun a => ?_⟩
      rw [linksInc, inodes_modify_congr g fun n => hl n _, addEntry,
        inodes_modify_congr g fun n => he n _]
  · cases h

/-- Linking allocates nothing and leaves types and data alone. -/
lemma link_same (h : link bl d c name v = .ok v') : v'.used = v.used ∧
    ∀ a, (v'.inodes a).type = (v.inodes a).type ∧ (v'.inodes a).data = (v.inodes a).data := by
  obtain ⟨hu, same⟩ :=
    link_congr (fun n => (n.type, n.data)) (fun _ _ => rfl) (fun _ _ => rfl) h
  exact ⟨hu, fun a => Prod.mk.inj (same a)⟩

/-- A new name of a file. -/
lemma Grows.link (h : link bl d c name v = .ok v') (free : v.findEntry d name = none)
    (hc : ¬ v.IsDir c) : Grows P v v' where
  used hu := by rw [(link_same h).1, hu]
  type _ := ((link_same h).2 _).1
  entries {a n x} _ e := by
    rw [findEntry_link h, e]
    simp only [hc, false_and, if_false]
    split
    · rename_i ha
      rw [ha.1, ha.2, free] at e
      cases e
    · rfl
  data _ _ _ := ((link_same h).2 _).2

/-- The inode that is taken was free. -/
lemma allocInode_ok {type : FileType} (h : allocInode bl type v = .ok (c, v')) :
    v.used c = false ∧ v'.used = Function.update v.used c true ∧
      v'.inodes = Function.update v.inodes c { type, mode := defaultMode type } := by
  unfold allocInode at h
  split at h
  · cases h
  · rename_i hi
    cases h
    exact ⟨bl.inode_free hi, rfl, rfl⟩

/-- The entry was there, or an inode was allocated and linked. -/
lemma enter_steps {creat : Bool} {type : FileType}
    (h : enter bl creat type name d v = .ok (c, v')) :
    (v' = v ∧ v.findEntry d name = some c) ∨ (v.findEntry d name = none ∧
      ∃ v₁, allocInode bl type v = .ok (c, v₁) ∧ link bl d c name v₁ = .ok v') := by
  unfold enter at h
  split at h
  · rename_i hf
    cases h
    exact .inl ⟨rfl, hf⟩
  · rename_i hf
    split at h
    · split at h
      · cases h
      · rename_i c₁ v₁ ha
        split at h
        · cases h
        · rename_i v₂ hl
          cases h
          exact .inr ⟨hf, v₁, ha, hl⟩
    · cases h

/-- An entry that `O_CREAT` made: its inode is a new one. -/
structure Made (name : Str) (d c : Ino) (v v' : Volume) : Prop where
  free : v.used c = false
  used : v'.used = Function.update v.used c true
  same {a} : a ≠ c → (v'.inodes a).type = (v.inodes a).type ∧ (v'.inodes a).data = (v.inodes a).data
  entry {a n} : a ≠ c → v'.findEntry a n = if a = d ∧ n = name then some c else v.findEntry a n
  new {n x} : v'.findEntry c n = some x → n = Path.dot ∨ n = Path.dotDot ∨ (c = d ∧ n = name)

/-- The entry was there, or it was made. -/
lemma enter_ok {creat : Bool} {type : FileType} (h : enter bl creat type name d v = .ok (c, v')) :
    (v' = v ∧ v.findEntry d name = some c) ∨
      (v.findEntry d name = none ∧ Made name d c v v') := by
  obtain here | ⟨hf, v₁, ha, hl⟩ := enter_steps h
  · exact .inl here
  · obtain ⟨free, hu, hi⟩ := allocInode_ok ha
    obtain ⟨hu', same⟩ := link_same hl
    -- the inode is allocated empty, and linked under the name
    have other : ∀ {a}, a ≠ c → v₁.inodes a = v.inodes a := fun hac => by
      rw [hi, Function.update_of_ne hac]
    have new : v₁.inodes c = { type, mode := defaultMode type } := by
      rw [hi, Function.update_self]
    refine .inr ⟨hf, free, hu'.trans hu, fun {a} hac => ?_, fun {a n} hac => ?_,
      fun {n x} e => ?_⟩
    · rw [(same a).1, (same a).2, other hac]
      exact ⟨rfl, rfl⟩
    · rw [findEntry_link hl]
      simp only [hac, false_and, and_false, if_false]
      rw [findEntry, other hac]
      rfl
    · rw [findEntry_link hl] at e
      have empty : v₁.findEntry c n = none := by
        rw [findEntry, new]
        rfl
      rw [empty] at e
      split at e
      · rename_i h₁
        exact .inr (.inl h₁.2.2)
      · split at e
        · rename_i h₁
          exact .inl h₁.2.2
        · split at e
          · rename_i h₁
            exact .inr (.inr h₁)
          · cases e

/-- What was in use is not what is made. -/
lemma Made.ne (m : Made name d c v v') {a : Ino} (h : v.used a = true) : a ≠ c := by
  rintro rfl
  rw [m.free] at h
  cases h

/-- Making an entry loses nothing that is in use. -/
lemma Made.grows (m : Made name d c v v') (free : v.findEntry d name = none) : Grows P v v' := by
  constructor
  case used =>
    intro a h
    rw [m.used, Function.update_of_ne (m.ne h), h]
  case type => exact fun h => (m.same (m.ne h)).1
  case entries =>
    intro a n x h e
    rw [m.entry (m.ne h), e]
    split
    · rename_i ha
      rw [ha.1, ha.2, free] at e
      cases e
    · rfl
  case data => exact fun h _ _ => (m.same (m.ne h)).2

/-- Entering one name of a path grows the volume. -/
lemma Grows.enter {creat : Bool} {type : FileType}
    (h : enter bl creat type name d v = .ok (c, v')) : Grows P v v' := by
  rcases enter_ok h with ⟨rfl, -⟩ | ⟨free, m⟩
  · exact .refl
  · exact m.grows free

/-- Looking up and creating loses nothing that is in use. -/
lemma Grows.opens {creat : Bool} {ftype : Option FileType} {parent : Ino} {f : Found}
    (o : Opens bl creat ftype names d parent v f v') : Grows P v v' := by
  induction o with
  | last _ he _ => exact .enter he
  | slash _ => exact .refl
  | next _ he _ _ ih => exact (Grows.enter he).trans ih

/-- Walking a path grows the volume, whatever is created on the way. -/
lemma Grows.openLoop {creat : Bool} {ftype : Option FileType} {parent : Ino} {f : Found}
    (h : openLoop bl creat ftype names d parent v = .ok (f, v')) : Grows P v v' :=
  .opens (openLoop_opens h)

/-- The directory where the way starts is in use. -/
lemma InUse.used {names : List Str} (u : v.InUse d names) : v.used d = true := by
  cases names with
  | nil => exact u
  | cons name names => exact u.1

/-- The rest of the way, below an entry that is found. -/
lemma InUse.found {names : List Str} (u : v.InUse d (name :: names))
    (e : v.findEntry d name = some c) : v.InUse c names := by
  have h := u.2
  rwa [e] at h

/-- What `O_CREAT` opens is led to from then on; it was led to before, or its inode was free. -/
lemma InUse.openLoop {creat : Bool} {parent : Ino} {f : Found} (u : v.InUse d names)
    (dots : ∀ n ∈ names, n ≠ Path.dot ∧ n ≠ Path.dotDot)
    (h : openLoop bl creat (some .regFile) names d parent v = .ok (f, v')) :
    Leads v' d names f.inode ∧ (v.used f.inode = false ∨ Leads v d names f.inode) := by
  replace h := openLoop_opens h
  induction h with
  | @last name ref parent c v v' hn he hc =>
    have hd := u.used
    rcases enter_ok he with ⟨rfl, e⟩ | ⟨free, m⟩
    · have l := Leads.file hd hn e (u.found e) hc.symm
      exact ⟨l, .inr l⟩
    · have g : Grows (fun _ => False) v v' := m.grows free
      refine ⟨.file (g.used hd) hn ?_ ?_ hc.symm, .inl m.free⟩
      · rw [m.entry (m.ne hd), if_pos ⟨rfl, rfl⟩]
      · rw [m.used, Function.update_self]
  | slash hd => exact absurd hd (by decide)
  | @next name next names ref parent c v v₁ v' f hn he hdir o ih =>
    have hd := u.used
    have dots' : ∀ n ∈ next :: names, n ≠ Path.dot ∧ n ≠ Path.dotDot := fun n hm =>
      dots n (List.mem_cons_of_mem _ hm)
    have g : Grows (fun _ => False) v₁ v' := .opens o
    rcases enter_ok he with ⟨rfl, e⟩ | ⟨free, m⟩
    · obtain ⟨l, before⟩ := ih (u.found e) dots'
      have hc := (u.found e).used
      refine ⟨.dir (g.used hd) hn (g.entries hd e) ((g.type hc).trans hdir) l, ?_⟩
      exact before.imp_right (.dir hd hn e hdir)
    · have g₁ : Grows (fun _ => False) v v₁ := m.grows free
      have hc : v₁.used c = true := by rw [m.used, Function.update_self]
      have e : v₁.findEntry ref name = some c := by
        rw [m.entry (m.ne hd), if_pos ⟨rfl, rfl⟩]
      -- a directory that was just made has no entry of that name
      have none : v₁.findEntry c next = none := by
        cases hx : v₁.findEntry c next with
        | none => rfl
        | some x =>
          obtain ⟨h₁, h₂⟩ := dots next (by simp)
          rcases m.new hx with rfl | rfl | ⟨rfl, -⟩
          · exact absurd rfl h₁
          · exact absurd rfl h₂
          · exact absurd rfl (m.ne hd)
      have u₁ : v₁.InUse c (next :: names) := ⟨hc, by rw [none]; trivial⟩
      obtain ⟨l, before⟩ := ih u₁ dots'
      refine ⟨.dir (g.used (g₁.used hd)) hn (g.entries (g₁.used hd) e)
        ((g.type hc).trans hdir) l, .inl ?_⟩
      rcases before with hf | l
      · exact Bool.eq_false_iff.mpr fun hu => Bool.eq_false_iff.mp hf (g₁.used hu)
      · obtain ⟨x, e⟩ := l.entry
        rw [none] at e
        cases e

/-! ### The operations that remove nothing -/

/-- A path that is opened as a file or a link leads to one. -/
lemma openLoop_type {creat : Bool} {type : FileType} {parent : Ino} {f : Found}
    (hne : type ≠ .dir) (h : Volume.openLoop bl creat (some type) names d parent v = .ok (f, v')) :
    (v'.inodes f.inode).type = type := by
  replace h := openLoop_opens h
  induction h with
  | last _ _ ht => exact ht.symm
  | slash hd => exact absurd hd hne
  | next _ _ _ _ ih => exact ih

/-- An open walks the path and truncates what it finds when asked to. -/
lemma fopen2_ok {creat trunc : Bool} (h : fopen2 bl creat trunc names v = .ok (i, v')) :
    ∃ f v₁, openLoop bl creat (some .regFile) names rootIndex rootIndex v = .ok (f, v₁) ∧
      i = f.inode ∧ v' = if trunc then v₁.truncInode i 0 else v₁ := by
  unfold fopen2 at h
  split at h
  · cases h
  · rename_i f v₁ ho
    cases h
    exact ⟨f, v₁, ho, rfl, rfl⟩

/-- New data of one inode. -/
lemma Grows.setData {g : Inode → List UInt8} :
    Grows (· = i) v (v.modify i fun n => { n with data := g n }) :=
  .modify rfl rfl fun _ n => absurd rfl n

/-- Truncating one inode. -/
lemma Grows.truncInode {size : Nat} : Grows (· = i) v (v.truncInode i size) := .setData

/-- What a write does that does not start behind the end of the file. -/
lemma fwrite_eq {pos : Nat} {data : List UInt8} (h : pos ≤ (v.inodes i).data.length) :
    (v.fwrite bl i pos data).2 = v.modify i fun n =>
      { n with data := splice n.data pos (data.take (v.fwrite bl i pos data).1) } := by
  have e : data.take (v.fwrite bl i pos data).1 = data.take (bl.room v i pos data.length) := by
    show data.take (data.take (bl.room v i pos data.length)).length = _
    rw [List.length_take, ← List.take_take, List.take_length]
  rw [e]
  exact if_pos h

/-- Such a write changes the data of its file. -/
lemma Grows.fwrite {pos : Nat} {data : List UInt8} (h : pos ≤ (v.inodes i).data.length) :
    Grows (· = i) v (v.fwrite bl i pos data).2 := by
  rw [fwrite_eq h]
  exact .setData

/-- The data of the file after such a write. -/
lemma data_fwrite {pos : Nat} {data : List UInt8} (h : pos ≤ (v.inodes i).data.length) :
    ((v.fwrite bl i pos data).2.inodes i).data =
      splice (v.inodes i).data pos (data.take (v.fwrite bl i pos data).1) := by
  rw [fwrite_eq h, inodes_modify_self]

/-- `ext4_fopen2` takes the data of the file it opens, and that only with `O_TRUNC`. -/
lemma Grows.fopen2 {creat trunc : Bool} (h : fopen2 bl creat trunc names v = .ok (i, v')) :
    Grows (fun a => trunc = true ∧ a = i) v v' := by
  obtain ⟨f, v₁, ho, rfl, rfl⟩ := fopen2_ok h
  apply (Grows.openLoop ho).trans
  split
  · rename_i ht
    exact Grows.truncInode.mono fun a ha => ⟨ht, ha⟩
  · exact .refl

/-- A file opened with `O_TRUNC` is empty. -/
lemma data_fopen2 {creat : Bool} (h : fopen2 bl creat true names v = .ok (i, v')) :
    (v'.inodes i).data = [] := by
  obtain ⟨f, v₁, -, rfl, rfl⟩ := fopen2_ok h
  rw [if_pos rfl, truncInode, inodes_modify_self, List.take_zero]

/-- Setting an attribute. -/
lemma Grows.setInode {f : Inode → Inode} (h : setInode bl f names v = .ok v')
    (ht : ∀ n, (f n).type = n.type) (he : ∀ n, (f n).entries = n.entries)
    (hd : ∀ n, (f n).data = n.data) : Grows P v v' := by
  unfold Volume.setInode at h
  split at h
  · cases h
  · cases h
    exact .modify (ht _) (he _) fun _ _ => hd _

/-- Making a directory. -/
lemma Grows.dirMk (h : dirMk bl names v = .ok v') : Grows P v v' := by
  unfold Volume.dirMk at h
  split at h
  · cases h
    exact .refl
  · cases ho : genericOpen bl true (some .dir) names v with
    | error e =>
      rw [ho] at h
      cases h
    | ok r =>
      rw [ho] at h
      cases h
      exact Grows.openLoop ho

/-- The data a symbolic link gets is not that of a file. -/
lemma Grows.fsymlink {target : Str} (h : fsymlink bl target names v = .ok v') : Grows P v v' := by
  unfold Volume.fsymlink at h
  split at h
  · cases h
  · rename_i f v₁ ho
    have g : Grows P v v₁ := .openLoop ho
    have ht : (v₁.inodes f.inode).type = .symlink := openLoop_type (by decide) ho
    repeat' split at h
    all_goals cases h
    · exact g
    · refine g.trans (.modify rfl rfl fun hr _ => ?_)
      rw [ht] at hr
      cases hr

/-- Making a hard link. -/
lemma Grows.flink {newNames : List Str} (h : flink bl names newNames v = .ok v') :
    Grows P v v' := by
  unfold Volume.flink at h
  split at h
  · cases h
  · split at h
    · cases h
    · rename_i hd
      split at h
      · cases h
      · rename_i hl
        exact .link h (hardlinkLoop_ok hl) hd

end Volume
end Lwext4
end Evfs
