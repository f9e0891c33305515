import Mathlib.Data.Fintype.Card
import Mathlib.Data.Set.Card
import Mathlib.Logic.Function.Basic
import Mathlib.Logic.Relation

/-!
# Hierarchies of directories

A hierarchy is what a file system has of its inodes: which are in use, which of them are directories,
what the entries of directories lead to, and a link count for each. Two names are special, the one by
which a directory refers to itself and the one by which it refers to the directory above.

`Consistent` is what a check of a file system establishes: no entry dangles, every directory hangs in
the tree by one name, which is in the directory above, every link count is the number of entries that
lead to the inode, and no inode is in use for nothing. The operations below keep it so, a directory
being moved to where it is not below itself.
-/

namespace Lib

section Counts
variable {π ι : Type} {f : π → Option ι} {p : π} {i : ι} {o : Option ι} {m n : ℕ}

/-- The number of places that lead to a thing. -/
def Counts (f : π → Option ι) (i : ι) (n : ℕ) : Prop := {p | f p = some i}.encard = n

namespace Counts

/-- The count up to equality. -/
lemma congr (h : Counts f i n) (e : m = n) : Counts f i m := by rwa [e]

/-- A thing has one count. -/
lemma unique (h : Counts f i m) (h' : Counts f i n) : m = n := by
  rw [Counts] at h h'
  exact_mod_cast h.symm.trans h'

/-- Fewer places. -/
lemma mono {g : π → Option ι} (h : Counts f i m) (h' : Counts g i n)
    (sub : ∀ p, g p = some i → f p = some i) : n ≤ m := by
  have le : (n : ℕ∞) ≤ m := by
    rw [← h, ← h']
    exact Set.encard_le_encard sub
  exact_mod_cast le

/-- A place that leads to the thing is counted. -/
lemma pos (h : Counts f i n) (hp : f p = some i) : 0 < n := by
  have ne : {p | f p = some i}.Nonempty := ⟨p, hp⟩
  have h1 := Set.one_le_encard_iff_nonempty.mpr ne
  rw [h] at h1
  exact_mod_cast h1

/-- Nothing leads to a thing counted zero times. -/
lemma zero_iff : Counts f i 0 ↔ ∀ p, f p ≠ some i := by
  rw [Counts, Nat.cast_zero, Set.encard_eq_zero, Set.eq_empty_iff_forall_notMem]
  exact .rfl

variable [DecidableEq ι]

/-- One place against the others. -/
lemma encard_split (f : π → Option ι) (i : ι) (p : π) : {r | f r = some i}.encard =
    {r | r ≠ p ∧ f r = some i}.encard + if f p = some i then 1 else 0 := by
  have hn : p ∉ {r | r ≠ p ∧ f r = some i} := fun h => h.1 rfl
  split
  · rename_i hp
    rw [← Set.encard_insert_of_notMem hn]
    congr 1
    ext r
    show f r = some i ↔ r = p ∨ r ≠ p ∧ f r = some i
    by_cases hr : r = p
    · rw [hr]
      exact iff_of_true hp (.inl rfl)
    · simp only [hr, false_or, ne_eq, not_false_eq_true, true_and]
  · rename_i hp
    rw [add_zero]
    congr 1
    ext r
    exact ⟨fun h => ⟨fun e => hp (e ▸ h), h⟩, And.right⟩

variable [DecidableEq π]

/-- A place that leads somewhere else from now on. -/
lemma update (h : Counts f i n) (p : π) (o : Option ι) : Counts (Function.update f p o) i
    (n + (if o = some i then 1 else 0) - if f p = some i then 1 else 0) := by
  have others : {r | r ≠ p ∧ Function.update f p o r = some i} = {r | r ≠ p ∧ f r = some i} := by
    ext r
    refine and_congr_right fun hr => ?_
    rw [Function.update_of_ne hr]
  rw [Counts, encard_split f i p] at h
  rw [Counts, encard_split _ i p, others, Function.update_self]
  generalize {r | r ≠ p ∧ f r = some i}.encard = k at h ⊢
  cases k with
  | top =>
    rw [top_add] at h
    exact absurd h (ENat.top_ne_natCast n)
  | coe k =>
    obtain rfl : k + (if f p = some i then 1 else 0) = n := by
      split_ifs at h ⊢
      · exact_mod_cast h
      · exact_mod_cast h
    norm_cast
    split_ifs
    · omega
    · omega
    · omega
    · omega

end Counts
end Counts

/-- What is fixed: the root, the two special names, and what may be in use without a name. -/
structure Layout (ι ν : Type) where
  root : ι
  self : ν
  up : ν
  reserved : Set ι
  self_ne_up : self ≠ up

@[ext]
structure Hierarchy (ι ν : Type) where
  used : Set ι
  dirs : Set ι
  /-- What a name leads to in a directory. -/
  entry : ι × ν → Option ι
  links : ι → ℕ

/-- A path of another relation, as long as something holds on the way back. -/
lemma reflTransGen_keep {ι : Type} {r r' : ι → ι → Prop} {P : ι → Prop} {a b : ι}
    (back : ∀ {a b}, r a b → P b → P a ∧ r' a b) (t : Relation.ReflTransGen r a b) (hb : P b) :
    Relation.ReflTransGen r' a b := by
  induction t with
  | refl => exact .refl
  | tail _ st ih =>
    obtain ⟨hc, st'⟩ := back st hb
    exact (ih hc).tail st'

namespace Hierarchy
variable {ι ν : Type}

/-- A place that is not one of the special ones. -/
def Plain (L : Layout ι ν) (q : ι × ν) : Prop := q.2 ≠ L.self ∧ q.2 ≠ L.up

section Defs
variable (L : Layout ι ν) (h : Hierarchy ι ν)

/-- The second one has a name in the first one. -/
def Child (a b : ι) : Prop := ∃ q, Plain L q ∧ q.1 = a ∧ h.entry q = some b

structure Consistent : Prop where
  root : L.root ∈ h.dirs
  dirs_used {i} : i ∈ h.dirs → i ∈ h.used
  holder {q i} : h.entry q = some i → q.1 ∈ h.dirs
  target {q i} : h.entry q = some i → i ∈ h.used
  self {d} : d ∈ h.dirs → h.entry (d, L.self) = some d
  rootUp : h.entry (L.root, L.up) = some L.root
  rootName {q} : Plain L q → h.entry q ≠ some L.root
  up {q d} : Plain L q → h.entry q = some d → d ∈ h.dirs → h.entry (d, L.up) = some q.1
  once {q r d} : Plain L q → Plain L r → h.entry q = some d → h.entry r = some d → d ∈ h.dirs →
    q = r
  hangs {d} : d ∈ h.dirs → Relation.ReflTransGen (h.Child L) L.root d
  exact {i} : i ∈ h.used → Counts h.entry i (h.links i)
  named {i} : i ∈ h.used → i ∈ L.reserved ∨ 0 < h.links i

/-! ### Operations -/

variable [DecidableEq ι] [DecidableEq ν]

/-- Another name of a thing that is no directory, which has `l` names or is a new one. -/
def addName (q : ι × ν) (i : ι) (l : ℕ) : Hierarchy ι ν where
  used := insert i h.used
  dirs := h.dirs
  entry := Function.update h.entry q (some i)
  links := Function.update h.links i (l + 1)

/-- A name less, of which `l` are left. Without a name the thing is given up. -/
def dropName (q : ι × ν) (i : ι) (l : ℕ) : Hierarchy ι ν where
  used := if l = 0 then h.used \ {i} else h.used
  dirs := h.dirs
  entry := Function.update h.entry q none
  links := Function.update h.links i l

/-- A new directory. -/
def addDir (q : ι × ν) (d : ι) : Hierarchy ι ν where
  used := insert d h.used
  dirs := insert d h.dirs
  entry := Function.update (Function.update (Function.update h.entry q (some d)) (d, L.self) (some d))
    (d, L.up) (some q.1)
  links := Function.update (Function.update h.links d 2) q.1 (h.links q.1 + 1)

/-- A directory less. -/
def dropDir (q : ι × ν) (d : ι) : Hierarchy ι ν where
  used := h.used \ {d}
  dirs := h.dirs \ {d}
  entry := Function.update (Function.update (Function.update h.entry q none) (d, L.self) none)
    (d, L.up) none
  links := Function.update (Function.update h.links q.1 (h.links q.1 - 1)) d 0

/-- A directory gets another name, which may be in another directory. -/
def moveDir (q r : ι × ν) (d : ι) : Hierarchy ι ν where
  used := h.used
  dirs := h.dirs
  entry := Function.update (Function.update (Function.update h.entry r (some d)) (d, L.up)
    (some r.1)) q none
  links := Function.update (Function.update h.links r.1 (h.links r.1 + 1)) q.1
    (Function.update h.links r.1 (h.links r.1 + 1) q.1 - 1)

end Defs

namespace Consistent
variable {L : Layout ι ν} {h : Hierarchy ι ν} {q r : ι × ν} {a b d i : ι} {l : ℕ}

/-- A name other than the two special ones leads to a child. -/
lemma child (plain : Plain L q) (e : h.entry q = some i) : h.Child L q.1 i := ⟨q, plain, rfl, e⟩

/-- A plain name is not the one for the directory itself. -/
lemma plain_self (plain : Plain L q) : (d, L.self) ≠ q := fun e => plain.1 (by rw [← e])

/-- A plain name is not the one for the directory above. -/
lemma plain_up (plain : Plain L q) : (d, L.up) ≠ q := fun e => plain.2 (by rw [← e])

/-- The two special names differ. -/
lemma self_up : (a, L.self) ≠ (b, L.up) := fun e => L.self_ne_up (Prod.mk.inj e).2

section
variable (c : h.Consistent L)
include c

/-- What is no directory has no entries. -/
lemma free (hd : d ∉ h.dirs) (n : ν) : h.entry (d, n) = none := by
  cases e : h.entry (d, n) with
  | none => rfl
  | some i => exact absurd (c.holder e) hd

/-- A directory is in one directory. -/
lemma parent (hd : d ∈ h.dirs) (ha : h.Child L a d) (hb : h.Child L b d) : a = b := by
  obtain ⟨q, hq, rfl, e⟩ := ha
  obtain ⟨r, hr, rfl, e'⟩ := hb
  rw [c.once hq hr e e' hd]

/-- What has a child is a directory. -/
lemma dir_of_child (ha : h.Child L a b) : a ∈ h.dirs := by
  obtain ⟨q, -, rfl, e⟩ := ha
  exact c.holder e

/-- No directory is below itself. -/
theorem acyclic (hd : d ∈ h.dirs) : ¬ Relation.TransGen (h.Child L) d d := by
  have hangs := c.hangs hd
  induction hangs with
  | refl =>
    intro t
    obtain ⟨a, -, q, hq, -, e⟩ := Relation.TransGen.tail'_iff.mp t
    exact c.rootName hq e
  | tail _ st ih =>
    intro t
    obtain ⟨a, below, st'⟩ := Relation.TransGen.tail'_iff.mp t
    -- the way back to the directory goes through the one above it
    obtain rfl := c.parent hd st st'
    exact ih (c.dir_of_child st) (.head' st below)

/-- Every directory but the root has its name. -/
lemma name_of_ne (hd : d ∈ h.dirs) (ne : d ≠ L.root) :
    ∃ q, Plain L q ∧ h.entry q = some d := by
  rcases Relation.ReflTransGen.cases_tail (c.hangs hd) with e | ⟨_, -, q, hq, -, e⟩
  · exact absurd e ne
  · exact ⟨q, hq, e⟩

/-- The directory above is the root's own or the one that holds the name. -/
lemma up_dir (hd : d ∈ h.dirs) :
    d = L.root ∧ h.entry (d, L.up) = some L.root ∨
      ∃ q, Plain L q ∧ h.entry q = some d ∧ h.entry (d, L.up) = some q.1 := by
  by_cases ne : d = L.root
  · subst ne
    exact .inl ⟨rfl, c.rootUp⟩
  · obtain ⟨q, hq, e⟩ := c.name_of_ne hd ne
    exact .inr ⟨q, hq, e, c.up hq e hd⟩

/-- No plain name leads to the root. -/
lemma ne_root (plain : Plain L q) (e : h.entry q = some d) : d ≠ L.root := by
  rintro rfl
  exact c.rootName plain e

/-- No directory holds its own name. -/
lemma ne_above (plain : Plain L q) (e : h.entry q = some d) (hd : d ∈ h.dirs) :
    q.1 ≠ d := by
  intro he
  have st : h.Child L d d := ⟨q, plain, he, e⟩
  exact c.acyclic hd (.single st)

/-- Only its name and its own entry lead to an empty directory. -/
lemma leads_empty (plain : Plain L q) (e : h.entry q = some d) (hd : d ∈ h.dirs)
    (empty : ∀ {x}, ¬ h.Child L d x) (hr : h.entry r = some d) : r = q ∨ r = (d, L.self) := by
  by_cases h₁ : r.2 = L.self
  · have he := c.self (c.holder hr)
    rw [← h₁] at he
    cases hr.symm.trans he
    exact .inr (Prod.ext rfl h₁)
  · by_cases h₂ : r.2 = L.up
    · have hr' : h.entry (r.1, L.up) = some d := by rwa [← h₂]
      rcases c.up_dir (c.holder hr) with ⟨-, eu⟩ | ⟨s, hs, es, eu⟩
      · rw [hr'] at eu
        exact absurd (Option.some.inj eu) (c.ne_root plain e)
      · rw [hr'] at eu
        have st : h.Child L d r.1 := ⟨s, hs, (Option.some.inj eu).symm, es⟩
        exact absurd st empty
    · exact .inl (c.once ⟨h₁, h₂⟩ plain hr e hd)

/-- How deep a directory is, of finitely many. -/
lemma exists_height (S : Finset ι) (hS : ∀ d ∈ h.dirs, d ∈ S) : ∃ height : ι → ℕ,
    (∀ d ∈ h.dirs, height d < S.card) ∧
      ∀ a b, h.Child L a b → b ∈ h.dirs → height b < height a := by
  classical
  let below a := S.filter fun x => Relation.TransGen (h.Child L) a x
  have own : ∀ {d}, d ∈ h.dirs → d ∉ below d := fun hd h =>
    c.acyclic hd (Finset.mem_filter.mp h).2
  refine ⟨fun a => (below a).card, fun d hd => ?_, fun a b st hb => ?_⟩
  · refine Finset.card_lt_card ⟨Finset.filter_subset _ _, fun h => own hd ?_⟩
    exact h (hS d hd)
  · refine Finset.card_lt_card ⟨fun x hx => ?_, fun h => own hb (h ?_)⟩
    · obtain ⟨hx, t⟩ := Finset.mem_filter.mp hx
      exact Finset.mem_filter.mpr ⟨hx, .head st t⟩
    · exact Finset.mem_filter.mpr ⟨hS b hb, .single st⟩

end

/-- A name that is added leaves the others. -/
lemma child_update {h' : Hierarchy ι ν} (free : h.entry q = none)
    (same : ∀ {r}, Plain L r → r ≠ q → h'.entry r = h.entry r) (st : h.Child L a b) :
    h'.Child L a b := by
  obtain ⟨r, hr, ha, e⟩ := st
  have ne : r ≠ q := by
    rintro rfl
    rw [free] at e
    cases e
  exact ⟨r, hr, ha, (same hr ne).trans e⟩

variable [DecidableEq ι] [DecidableEq ν]

/-- A new name for something that is not a directory keeps the hierarchy consistent. -/
theorem addName (c : h.Consistent L) (plain : Plain L q) (hq : q.1 ∈ h.dirs)
    (free : h.entry q = none) (hi : i ∉ h.dirs) (hl : Counts h.entry i l) :
    (h.addName q i l).Consistent L := by
  have other : ∀ {r}, r ≠ q → (h.addName q i l).entry r = h.entry r := fun hr =>
    Function.update_of_ne hr _ _
  have new : (h.addName q i l).entry q = some i := Function.update_self _ _ _
  have cases : ∀ {r x}, (h.addName q i l).entry r = some x → r = q ∧ x = i ∨ h.entry r = some x := by
    intro r x e
    by_cases hr : r = q
    · subst hr
      rw [new] at e
      exact .inl ⟨rfl, (Option.some.inj e).symm⟩
    · rw [other hr] at e
      exact .inr e
  have old : ∀ {r d}, (h.addName q i l).entry r = some d → d ∈ h.dirs → h.entry r = some d := by
    intro r d e hd
    rcases cases e with ⟨-, rfl⟩ | e
    · exact absurd hd hi
    · exact e
  constructor
  case root => exact c.root
  case dirs_used => exact fun hd => Set.mem_insert_of_mem _ (c.dirs_used hd)
  case holder =>
    intro r x e
    rcases cases e with ⟨rfl, -⟩ | e
    · exact hq
    · exact c.holder e
  case target =>
    intro r x e
    rcases cases e with ⟨-, rfl⟩ | e
    · exact Set.mem_insert _ _
    · exact Set.mem_insert_of_mem _ (c.target e)
  case self => exact fun hd => (other (plain_self plain)).trans (c.self hd)
  case rootUp => exact (other (plain_up plain)).trans c.rootUp
  case rootName => exact fun hr e => c.rootName hr (old e c.root)
  case up => exact fun hr e hd => (other (plain_up plain)).trans (c.up hr (old e hd) hd)
  case once => exact fun hr hr' e e' hd => c.once hr hr' (old e hd) (old e' hd) hd
  case hangs =>
    exact fun hd => Relation.ReflTransGen.mono
      (fun _ _ => child_update free fun _ hr => other hr) _ _ (c.hangs hd)
  case exact =>
    intro x hx
    by_cases hxi : x = i
    · subst hxi
      refine (hl.update q (some x)).congr ?_
      simp [Hierarchy.addName, free]
    · have hu := Set.mem_of_mem_insert_of_ne hx hxi
      refine ((c.exact hu).update q (some i)).congr ?_
      simp [Hierarchy.addName, free, hxi, Ne.symm hxi]
  case named =>
    intro x hx
    by_cases hxi : x = i
    · subst hxi
      exact .inr (by simp [Hierarchy.addName])
    · have hu := Set.mem_of_mem_insert_of_ne hx hxi
      simpa [Hierarchy.addName, hxi] using c.named hu

/-- Dropping a name of something that is not a directory keeps the hierarchy consistent. -/
theorem dropName (c : h.Consistent L) (plain : Plain L q) (e : h.entry q = some i)
    (hi : i ∉ h.dirs) (hl : h.links i = l + 1) : (h.dropName q i l).Consistent L := by
  have other : ∀ {r}, r ≠ q → (h.dropName q i l).entry r = h.entry r := fun hr =>
    Function.update_of_ne hr _ _
  have old : ∀ {r x}, (h.dropName q i l).entry r = some x → h.entry r = some x := by
    intro r x e
    by_cases hr : r = q
    · subst hr
      have gone : (h.dropName r i l).entry r = none := Function.update_self _ _ _
      rw [gone] at e
      cases e
    · rwa [other hr] at e
  have left : Counts (h.dropName q i l).entry i l := by
    have h₁ := c.exact (c.target e)
    rw [hl] at h₁
    refine (h₁.update q none).congr ?_
    simp [e]
  have hu : ∀ {x}, x ∈ (h.dropName q i l).used ↔ x ∈ h.used ∧ (x = i → l ≠ 0) := by
    intro x
    unfold Hierarchy.dropName
    split
    · simp [*]
    · simp [*]
  constructor
  case root => exact c.root
  case dirs_used =>
    intro d hd
    refine hu.mpr ⟨c.dirs_used hd, ?_⟩
    rintro rfl
    exact absurd hd hi
  case holder => exact fun e => c.holder (old e)
  case target =>
    intro r x e'
    refine hu.mpr ⟨c.target (old e'), ?_⟩
    rintro rfl rfl
    exact Counts.zero_iff.mp left r e'
  case self => exact fun hd => (other (plain_self plain)).trans (c.self hd)
  case rootUp => exact (other (plain_up plain)).trans c.rootUp
  case rootName => exact fun hr e => c.rootName hr (old e)
  case up => exact fun hr e hd => (other (plain_up plain)).trans (c.up hr (old e) hd)
  case once => exact fun hr hr' e e' hd => c.once hr hr' (old e) (old e') hd
  case hangs =>
    intro d hd
    refine reflTransGen_keep (P := (· ∈ h.dirs)) ?_ (c.hangs hd) hd
    rintro a b st hb
    refine ⟨c.dir_of_child st, ?_⟩
    obtain ⟨r, hr, rfl, e'⟩ := st
    have ne : r ≠ q := by
      rintro rfl
      rw [e] at e'
      cases e'
      exact hi hb
    exact ⟨r, hr, rfl, (other ne).trans e'⟩
  case exact =>
    intro x hx
    by_cases hxi : x = i
    · subst hxi
      refine left.congr ?_
      simp [Hierarchy.dropName]
    · refine ((c.exact (hu.mp hx).1).update q none).congr ?_
      simp [Hierarchy.dropName, e, hxi, Ne.symm hxi]
  case named =>
    intro x hx
    obtain ⟨hx, h0⟩ := hu.mp hx
    by_cases hxi : x = i
    · subst hxi
      refine .inr ?_
      simpa [Hierarchy.dropName, Nat.pos_iff_ne_zero] using h0 rfl
    · simpa [Hierarchy.dropName, hxi] using c.named hx

/-- The entries with a new directory. -/
lemma entry_addDir (s : ι × ν) : (h.addDir L q d).entry s =
    if s = (d, L.up) then some q.1 else if s = (d, L.self) then some d else if s = q then some d
      else h.entry s := by
  simp only [Hierarchy.addDir, Function.update_apply]

/-- Where an entry comes from. -/
lemma cases_addDir {s : ι × ν} {x : ι} (e : (h.addDir L q d).entry s = some x) :
    s = (d, L.up) ∧ x = q.1 ∨ (s = (d, L.self) ∨ s = q) ∧ x = d ∨ h.entry s = some x := by
  rw [entry_addDir] at e
  split at e
  · rename_i hs
    exact .inl ⟨hs, (Option.some.inj e).symm⟩
  · split at e
    · rename_i hs
      exact .inr (.inl ⟨.inl hs, (Option.some.inj e).symm⟩)
    · split at e
      · rename_i hs
        exact .inr (.inl ⟨.inr hs, (Option.some.inj e).symm⟩)
      · exact .inr (.inr e)

section New
variable (c : h.Consistent L) (plain : Plain L q) (hq : q.1 ∈ h.dirs) (free : h.entry q = none)
  (hd : d ∉ h.used)
include c hd

/-- A name is the new one, or an old one of something else. -/
lemma plain_addDir {s : ι × ν} {x : ι} (hs : Plain L s)
    (e : (h.addDir L q d).entry s = some x) : s = q ∧ x = d ∨ h.entry s = some x ∧ x ≠ d := by
  rcases cases_addDir e with ⟨rfl, -⟩ | ⟨rfl | rfl, rfl⟩ | old
  · exact absurd rfl (plain_up hs)
  · exact absurd rfl (plain_self hs)
  · exact .inl ⟨rfl, rfl⟩
  · refine .inr ⟨old, ?_⟩
    rintro rfl
    exact hd (c.target old)

include free in
/-- What was there stays. -/
lemma keep_addDir {s : ι × ν} {x : ι} (e : h.entry s = some x) :
    (h.addDir L q d).entry s = some x := by
  have notNew : ∀ n, s ≠ (d, n) := by
    rintro n rfl
    exact hd (c.dirs_used (c.holder e))
  have ne : s ≠ q := by
    rintro rfl
    rw [free] at e
    cases e
  rw [entry_addDir, if_neg (notNew _), if_neg (notNew _), if_neg ne, e]

include plain hq free in
/-- The new directory has two links, and the one above it has one more. -/
lemma counts_addDir {x : ι} (hx : x ∈ insert d h.used) :
    Counts (h.addDir L q d).entry x ((h.addDir L q d).links x) := by
  have hd' : d ∉ h.dirs := fun h => hd (c.dirs_used h)
  have ne : q.1 ≠ d := fun e => hd' (e ▸ hq)
  by_cases hxd : x = d
  · subst hxd
    have none : Counts h.entry x 0 := Counts.zero_iff.mpr fun r e => hd (c.target e)
    refine (((none.update q (some x)).update (x, L.self) (some x)).update (x, L.up)
      (some q.1)).congr ?_
    simp [Hierarchy.addDir, free, ne, ne.symm, c.free hd', plain_self plain, plain_up plain,
      self_up.symm]
  · have hu := Set.mem_of_mem_insert_of_ne hx hxd
    refine ((((c.exact hu).update q (some d)).update (d, L.self) (some d)).update (d, L.up)
      (some q.1)).congr ?_
    by_cases hxq : x = q.1
    · subst hxq
      simp [Hierarchy.addDir, free, ne.symm, c.free hd', plain_self plain, plain_up plain,
        self_up.symm]
    · simp [Hierarchy.addDir, free, hxd, hxq, Ne.symm hxd, Ne.symm hxq, c.free hd',
        plain_self plain, plain_up plain, self_up.symm]

include plain hq free in
/-- A new directory keeps the hierarchy consistent. -/
theorem addDir : (h.addDir L q d).Consistent L := by
  have hd' : d ∉ h.dirs := fun h => hd (c.dirs_used h)
  have newUp : (h.addDir L q d).entry (d, L.up) = some q.1 := by
    rw [entry_addDir, if_pos rfl]
  have new : (h.addDir L q d).entry q = some d := by
    rw [entry_addDir, if_neg (plain_up plain).symm, if_neg (plain_self plain).symm, if_pos rfl]
  have old : ∀ {r x}, h.entry r = some x → (h.addDir L q d).entry r = some x :=
    keep_addDir c free hd
  constructor
  case root => exact Set.mem_insert_of_mem _ c.root
  case dirs_used => exact fun hx => Set.insert_subset_insert (fun _ => c.dirs_used) hx
  case holder =>
    intro r x e
    rcases cases_addDir e with ⟨rfl, -⟩ | ⟨rfl | rfl, -⟩ | e
    · exact Set.mem_insert _ _
    · exact Set.mem_insert _ _
    · exact Set.mem_insert_of_mem _ hq
    · exact Set.mem_insert_of_mem _ (c.holder e)
  case target =>
    intro r x e
    rcases cases_addDir e with ⟨-, rfl⟩ | ⟨-, rfl⟩ | e
    · exact Set.mem_insert_of_mem _ (c.dirs_used hq)
    · exact Set.mem_insert _ _
    · exact Set.mem_insert_of_mem _ (c.target e)
  case self =>
    intro x hx
    rcases hx with rfl | hx
    · rw [entry_addDir, if_neg self_up, if_pos rfl]
    · exact old (c.self hx)
  case rootUp => exact old c.rootUp
  case rootName =>
    intro r hr e
    rcases plain_addDir c hd hr e with ⟨-, e⟩ | ⟨e, -⟩
    · exact hd' (e ▸ c.root)
    · exact c.rootName hr e
  case up =>
    intro r x hr e hx
    rcases plain_addDir c hd hr e with ⟨rfl, rfl⟩ | ⟨e, ne⟩
    · exact newUp
    · exact old (c.up hr e (Set.mem_of_mem_insert_of_ne hx ne))
  case once =>
    intro r s x hr hs e e' hx
    rcases plain_addDir c hd hr e with ⟨rfl, rfl⟩ | ⟨e, ne⟩
    · rcases plain_addDir c hd hs e' with ⟨rfl, -⟩ | ⟨-, ne⟩
      · rfl
      · exact absurd rfl ne
    · rcases plain_addDir c hd hs e' with ⟨-, rfl⟩ | ⟨e', -⟩
      · exact absurd rfl ne
      · exact c.once hr hs e e' (Set.mem_of_mem_insert_of_ne hx ne)
  case hangs =>
    have below : ∀ {x}, x ∈ h.dirs → Relation.ReflTransGen ((h.addDir L q d).Child L) L.root x := by
      intro x hx
      refine Relation.ReflTransGen.mono (fun a b st => ?_) _ _ (c.hangs hx)
      obtain ⟨r, hr, ha, e⟩ := st
      exact ⟨r, hr, ha, old e⟩
    intro x hx
    rcases hx with rfl | hx
    · exact (below hq).tail (child plain new)
    · exact below hx
  case exact => exact counts_addDir c plain hq free hd
  case named =>
    intro x hx
    have ne : q.1 ≠ d := fun e => hd' (e ▸ hq)
    by_cases hxd : x = d
    · subst hxd
      exact .inr (by simp [Hierarchy.addDir, ne.symm])
    · have hu := Set.mem_of_mem_insert_of_ne hx hxd
      by_cases hxq : x = q.1
      · exact .inr (by simp [Hierarchy.addDir, hxq])
      · simpa [Hierarchy.addDir, hxd, hxq] using c.named hu

end New

/-- What is above a directory has its own two links and one from there. -/
lemma three_le (c : h.Consistent L) (plain : Plain L q) (e : h.entry q = some d)
    (hd : d ∈ h.dirs) : 3 ≤ h.links q.1 := by
  have hq := c.holder e
  have ne := c.ne_above plain e hd
  have n := ((c.exact (c.dirs_used hq)).update (q.1, L.self) none).update (d, L.up) none
  obtain ⟨s, h₁, h₂, hs⟩ : ∃ s, s ≠ (q.1, L.self) ∧ s ≠ (d, L.up) ∧ h.entry s = some q.1 := by
    rcases c.up_dir hq with ⟨er, eu⟩ | ⟨r, hr, er, -⟩
    · exact ⟨(q.1, L.up), self_up.symm, fun e => ne (Prod.mk.inj e).1, by rw [eu, er]⟩
    · exact ⟨r, (plain_self hr).symm, (plain_up hr).symm, er⟩
  have pos := n.pos (p := s) (by rw [Function.update_of_ne h₂, Function.update_of_ne h₁, hs])
  simp [c.self hq, c.up plain e hd, Function.update_of_ne self_up.symm] at pos
  omega

/-- With an empty directory all that is in it is gone. -/
lemma entry_dropDir (empty : ∀ {x}, ¬ h.Child L d x) (r : ι × ν) :
    (h.dropDir L q d).entry r = if r = q ∨ r.1 = d then none else h.entry r := by
  show Function.update (Function.update (Function.update h.entry q none) (d, L.self) none)
    (d, L.up) none r = _
  by_cases h₃ : r = (d, L.up)
  · rw [h₃, Function.update_self, if_pos (.inr rfl)]
  · rw [Function.update_of_ne h₃]
    by_cases h₂ : r = (d, L.self)
    · rw [h₂, Function.update_self, if_pos (.inr rfl)]
    · rw [Function.update_of_ne h₂]
      by_cases h₁ : r = q
      · rw [h₁, Function.update_self, if_pos (.inl rfl)]
      · rw [Function.update_of_ne h₁]
        split
        · rename_i hr
          have hrd := hr.resolve_left h₁
          cases e : h.entry r with
          | none => rfl
          | some x =>
            -- a name in the directory would be neither of the two
            have plain : Plain L r := ⟨fun h => h₂ (Prod.ext hrd h), fun h => h₃ (Prod.ext hrd h)⟩
            exact absurd ⟨r, plain, hrd, e⟩ empty
        · rfl

section Empty
variable (c : h.Consistent L) (plain : Plain L q) (e : h.entry q = some d) (hd : d ∈ h.dirs)
  (empty : ∀ {x}, ¬ h.Child L d x)
include c plain e hd empty

/-- An empty directory has the two links of its name and itself. -/
lemma links_empty : h.links d = 2 := by
  have n := ((c.exact (c.dirs_used hd)).update q none).update (d, L.self) none
  have zero : Counts (Function.update (Function.update h.entry q none) (d, L.self) none) d 0 := by
    refine Counts.zero_iff.mpr fun r hr => ?_
    by_cases h₁ : r = (d, L.self)
    · rw [h₁, Function.update_self] at hr
      cases hr
    · rw [Function.update_of_ne h₁] at hr
      by_cases h₂ : r = q
      · rw [h₂, Function.update_self] at hr
        cases hr
      · rw [Function.update_of_ne h₂] at hr
        exact (c.leads_empty plain e hd empty hr).elim h₂ h₁
  have eq := n.unique zero
  have two : 2 ≤ h.links d := by
    have n₁ := (c.exact (c.dirs_used hd)).update q none
    have pos := n₁.pos (p := (d, L.self))
      (by rw [Function.update_of_ne (plain_self plain), c.self hd])
    simp [e] at pos
    omega
  simp [e, c.self hd, Function.update_of_ne (plain_self plain)] at eq
  omega

/-- Dropping an empty directory keeps the hierarchy consistent. -/
theorem dropDir : (h.dropDir L q d).Consistent L := by
  have ne := c.ne_above plain e hd
  have nr := c.ne_root plain e
  have old : ∀ {r x}, (h.dropDir L q d).entry r = some x → r ≠ q ∧ r.1 ≠ d ∧ h.entry r = some x := by
    intro r x hr
    rw [entry_dropDir empty] at hr
    split at hr
    · cases hr
    · rename_i hn
      obtain ⟨h₁, h₂⟩ := not_or.mp hn
      exact ⟨h₁, h₂, hr⟩
  have keep : ∀ {r}, r ≠ q → r.1 ≠ d → (h.dropDir L q d).entry r = h.entry r := fun h₁ h₂ => by
    rw [entry_dropDir empty, if_neg (not_or.mpr ⟨h₁, h₂⟩)]
  constructor
  case root => exact ⟨c.root, Ne.symm nr⟩
  case dirs_used => exact fun hx => ⟨c.dirs_used hx.1, hx.2⟩
  case holder =>
    intro r x hr
    obtain ⟨-, h₂, hr⟩ := old hr
    exact ⟨c.holder hr, h₂⟩
  case target =>
    intro r x hr
    obtain ⟨h₁, h₂, e'⟩ := old hr
    refine ⟨c.target e', fun hx => ?_⟩
    rw [hx] at e'
    rcases c.leads_empty plain e hd empty e' with rfl | rfl
    · exact h₁ rfl
    · exact h₂ rfl
  case self => exact fun hx => (keep (plain_self plain) hx.2).trans (c.self hx.1)
  case rootUp => exact (keep (plain_up plain) (Ne.symm nr)).trans c.rootUp
  case rootName => exact fun hr he => c.rootName hr (old he).2.2
  case up =>
    intro r x hr he hx
    exact (keep (plain_up plain) hx.2).trans (c.up hr (old he).2.2 hx.1)
  case once => exact fun hr hs he he' hx => c.once hr hs (old he).2.2 (old he').2.2 hx.1
  case hangs =>
    intro x hx
    refine reflTransGen_keep (P := fun x => x ∈ h.dirs ∧ x ≠ d) ?_ (c.hangs hx.1) hx
    rintro a b st ⟨hb, hbd⟩
    have had : a ≠ d := by
      rintro rfl
      exact empty st
    refine ⟨⟨c.dir_of_child st, had⟩, ?_⟩
    obtain ⟨r, hr, rfl, e'⟩ := st
    have ne : r ≠ q := by
      rintro rfl
      cases e.symm.trans e'
      exact hbd rfl
    exact ⟨r, hr, rfl, (keep ne had).trans e'⟩
  case exact =>
    intro x hx
    have hxd : d ≠ x := fun h => hx.2 h.symm
    refine ((((c.exact hx.1).update q none).update (d, L.self) none).update (d, L.up) none).congr ?_
    by_cases hxq : x = q.1
    · subst hxq
      simp [Hierarchy.dropDir, e, ne, ne.symm, c.self hd, c.up plain e hd, plain_self plain,
        plain_up plain, self_up.symm]
    · simp [Hierarchy.dropDir, e, hxd, hxd.symm, hxq, Ne.symm hxq, c.self hd, c.up plain e hd,
        plain_self plain, plain_up plain, self_up.symm]
  case named =>
    intro x hx
    have hxd : x ≠ d := hx.2
    by_cases hxq : x = q.1
    · subst hxq
      have three := c.three_le plain e hd
      refine .inr ?_
      simp [Hierarchy.dropDir, hxd]
      omega
    · simpa [Hierarchy.dropDir, hxd, hxq] using c.named hx.1

end Empty

/-- A move takes one link from the old directory above and gives one to the new. -/
lemma links_moveDir {x : ι} : (h.moveDir L q r d).links x =
    h.links x + (if r.1 = x then 1 else 0) - if q.1 = x then 1 else 0 := by
  unfold Hierarchy.moveDir
  simp only
  by_cases h₁ : q.1 = x
  · rw [h₁, Function.update_self, if_pos rfl]
    by_cases h₂ : r.1 = x
    · rw [h₂, Function.update_self, if_pos rfl]
    · rw [Function.update_of_ne (Ne.symm h₂), if_neg h₂, add_zero]
  · rw [Function.update_of_ne (Ne.symm h₁), if_neg h₁, Nat.sub_zero]
    by_cases h₂ : r.1 = x
    · rw [h₂, Function.update_self, if_pos rfl]
    · rw [Function.update_of_ne (Ne.symm h₂), if_neg h₂, add_zero]

/-- The entries after a move. -/
lemma entry_moveDir (s : ι × ν) : (h.moveDir L q r d).entry s =
    if s = q then none else if s = (d, L.up) then some r.1 else if s = r then some d
      else h.entry s := by
  simp only [Hierarchy.moveDir, Function.update_apply]

/-- The names after a move. -/
lemma plain_moveDir {s : ι × ν} {x : ι} (hs : Plain L s)
    (e : (h.moveDir L q r d).entry s = some x) : s ≠ q ∧ (s = r ∧ x = d ∨ h.entry s = some x) := by
  rw [entry_moveDir] at e
  split at e
  · cases e
  · rename_i hq
    rw [if_neg (plain_up hs).symm] at e
    split at e
    · rename_i hr
      exact ⟨hq, .inl ⟨hr, (Option.some.inj e).symm⟩⟩
    · exact ⟨hq, .inr e⟩

/-- Where an entry comes from. -/
lemma cases_moveDir {s : ι × ν} {x : ι} (e : (h.moveDir L q r d).entry s = some x) :
    s = (d, L.up) ∧ x = r.1 ∨ s = r ∧ x = d ∨ h.entry s = some x := by
  rw [entry_moveDir] at e
  split at e
  · cases e
  · split at e
    · rename_i hs
      exact .inl ⟨hs, (Option.some.inj e).symm⟩
    · split at e
      · rename_i hs
        exact .inr (.inl ⟨hs, (Option.some.inj e).symm⟩)
      · exact .inr (.inr e)

/-- The other entries stay. -/
lemma keep_moveDir {s : ι × ν} {x : ι} (free : h.entry r = none) (hs : h.entry s = some x)
    (h₁ : s ≠ q) (h₂ : s ≠ (d, L.up)) : (h.moveDir L q r d).entry s = some x := by
  have h₃ : s ≠ r := by
    rintro rfl
    rw [free] at hs
    cases hs
  rw [entry_moveDir, if_neg h₁, if_neg h₂, if_neg h₃, hs]

/-- The new name leads to the directory. -/
lemma new_moveDir (plain' : Plain L r) (e : h.entry q = some d) (free : h.entry r = none) :
    (h.moveDir L q r d).entry r = some d := by
  have rq : r ≠ q := by
    rintro rfl
    rw [free] at e
    cases e
  rw [entry_moveDir, if_neg rq, if_neg (plain_up plain').symm, if_pos rfl]

section Move
variable (c : h.Consistent L) (plain : Plain L q) (plain' : Plain L r) (e : h.entry q = some d)
  (hd : d ∈ h.dirs) (hr : r.1 ∈ h.dirs) (free : h.entry r = none)
include c plain' e hr free

/-- Every directory still hangs below the root. -/
lemma hangs_moveDir (apart : ¬ Relation.ReflTransGen (h.Child L) d r.1) {x : ι}
    (hx : x ∈ h.dirs) : Relation.ReflTransGen ((h.moveDir L q r d).Child L) L.root x := by
  have stays : ∀ {a b}, h.Child L a b → b ≠ d → (h.moveDir L q r d).Child L a b := by
    rintro a b ⟨s, hs, ha, es⟩ hb
    refine ⟨s, hs, ha, keep_moveDir free es ?_ (plain_up hs).symm⟩
    rintro rfl
    cases e.symm.trans es
    exact hb rfl
  -- the way to the directory that gets the name does not come by the one that is moved
  have above : Relation.ReflTransGen ((h.moveDir L q r d).Child L) L.root r.1 := by
    refine reflTransGen_keep (P := fun x => ¬ Relation.ReflTransGen (h.Child L) d x) ?_
      (c.hangs hr) apart
    intro a b st hb
    refine ⟨fun ha => hb (ha.tail st), stays st ?_⟩
    rintro rfl
    exact hb .refl
  have way := c.hangs hx
  induction way with
  | refl => exact .refl
  | @tail a b _ st ih =>
    by_cases hb : b = d
    · subst hb
      exact above.tail (child plain' (new_moveDir plain' e free))
    · exact (ih (c.dir_of_child st)).tail (stays st hb)

include plain hd in
/-- Moving a directory to where it is not below itself keeps the hierarchy consistent. -/
theorem moveDir (apart : ¬ Relation.ReflTransGen (h.Child L) d r.1) :
    (h.moveDir L q r d).Consistent L := by
  have nr := c.ne_root plain e
  have rq : r ≠ q := by
    rintro rfl
    rw [free] at e
    cases e
  have newUp : (h.moveDir L q r d).entry (d, L.up) = some r.1 := by
    rw [entry_moveDir, if_neg (plain_up plain), if_pos rfl]
  have plainCases : ∀ {s x}, Plain L s → (h.moveDir L q r d).entry s = some x →
      s = r ∧ x = d ∨ h.entry s = some x ∧ x ≠ d := by
    intro s x hs e'
    obtain ⟨h₁, h₂ | e'⟩ := plain_moveDir hs e'
    · exact .inl h₂
    · refine .inr ⟨e', fun hx => h₁ ?_⟩
      rw [hx] at e'
      exact c.once hs plain e' e hd
  constructor
  case root => exact c.root
  case dirs_used => exact c.dirs_used
  case holder =>
    intro s x hs
    rcases cases_moveDir hs with ⟨rfl, -⟩ | ⟨rfl, -⟩ | hs
    · exact hd
    · exact hr
    · exact c.holder hs
  case target =>
    intro s x hs
    rcases cases_moveDir hs with ⟨-, rfl⟩ | ⟨-, rfl⟩ | hs
    · exact c.dirs_used hr
    · exact c.dirs_used hd
    · exact c.target hs
  case self => exact fun hx => keep_moveDir free (c.self hx) (plain_self plain) self_up
  case rootUp =>
    exact keep_moveDir free c.rootUp (plain_up plain) fun e => nr (Prod.mk.inj e).1.symm
  case rootName =>
    intro s hs e'
    rcases plainCases hs e' with ⟨-, e⟩ | ⟨e', -⟩
    · exact nr e.symm
    · exact c.rootName hs e'
  case up =>
    intro s x hs e' hx
    rcases plainCases hs e' with ⟨rfl, rfl⟩ | ⟨e', ne⟩
    · exact newUp
    · exact keep_moveDir free (c.up hs e' hx) (plain_up plain) fun e => ne (Prod.mk.inj e).1
  case once =>
    intro s t x hs ht es et hx
    rcases plainCases hs es with ⟨rfl, rfl⟩ | ⟨es, ne⟩
    · rcases plainCases ht et with ⟨rfl, -⟩ | ⟨-, ne⟩
      · rfl
      · exact absurd rfl ne
    · rcases plainCases ht et with ⟨-, rfl⟩ | ⟨et, -⟩
      · exact absurd rfl ne
      · exact c.once hs ht es et hx
  case hangs => exact hangs_moveDir c plain' e hr free apart
  case exact =>
    intro x hx
    refine ((((c.exact hx).update r (some d)).update (d, L.up) (some r.1)).update q none).congr ?_
    have eu := c.up plain e hd
    rw [links_moveDir, Function.update_of_ne (plain_up plain).symm, Function.update_of_ne rq.symm,
      Function.update_of_ne (plain_up plain'), e, eu, free]
    simp only [Option.some.injEq, reduceCtorEq, if_false]
    omega
  case named =>
    intro x hx
    rw [links_moveDir]
    by_cases hxq : q.1 = x
    · have three := c.three_le plain e hd
      rw [hxq] at three
      rw [if_pos hxq]
      omega
    · rw [if_neg hxq]
      exact (c.named hx).imp_right fun h => by omega

end Move

/-- Where a directory goes below itself, no names lead to it any more. -/
theorem lost_moveDir (c : h.Consistent L) (plain : Plain L q) (e : h.entry q = some d)
    (hd : d ∈ h.dirs) (hr : r.1 ∈ h.dirs)
    (below : Relation.ReflTransGen (h.Child L) d r.1) :
    ¬ Relation.ReflTransGen ((h.moveDir L q r d).Child L) L.root d := by
  have notBelow : ¬ Relation.ReflTransGen (h.Child L) d L.root := by
    intro t
    rcases Relation.ReflTransGen.cases_tail t with e' | ⟨_, -, s, hs, -, e'⟩
    · exact c.ne_root plain e e'.symm
    · exact c.rootName hs e'
  intro way
  -- whatever is below the directory has its name below it
  have back : ∀ {x}, Relation.ReflTransGen ((h.moveDir L q r d).Child L) L.root x → x ∈ h.dirs →
      ¬ Relation.ReflTransGen (h.Child L) d x := by
    intro x way hx
    induction way with
    | refl => exact notBelow
    | @tail a b _ st ih =>
      obtain ⟨s, hs, rfl, es⟩ := st
      obtain ⟨hsq, ⟨rfl, rfl⟩ | eo⟩ := plain_moveDir hs es
      · exact absurd below (ih hr)
      · intro t
        rcases Relation.ReflTransGen.cases_tail t with rfl | ⟨a, t, st⟩
        · exact hsq (c.once hs plain eo e hx)
        · obtain rfl := c.parent hx st ⟨s, hs, rfl, eo⟩
          exact ih (c.holder eo) t
  exact back way hd .refl

end Consistent
end Hierarchy
end Lib
