import Evfs.Common.FileDescriptorContainer
import Evfs.Lib.Run

/-!
# The descriptor container against its history

The operations of a `file_descriptor_container` as steps, among the insertions into other containers
of the process and the changes of iteration orders. A history says by itself which descriptors each
path has (`listAfter`) and which paths are marked (`markedAfter`), and `Holds` that a container has
just these entries. `Faithful` is what a container owes after a history: the two maps list the same
descriptors, each under the path it was inserted with, and `remove` gives a path back exactly for the
last descriptor of one that is marked.
-/

namespace Evfs
open Lib

/-- What happens to a container, or to the counter all containers share. -/
inductive ContainerLabel where
  | insert (path : Str) (fd : Int)
  | remove (fd : Int) (unlink : Option Str)
  | mark (path : Str)
  | foreign
  | rehash

namespace FileDescriptorContainer

/-- One step of a container and the counter. -/
inductive ContainerStep : FileDescriptorContainer × Int → ContainerLabel →
    FileDescriptorContainer × Int → Prop where
  | insert {c idx} (path : Str) (handle : FileHandle) :
    ContainerStep (c, idx) (.insert path idx) (c.insert idx path handle, nextIdx idx)
  | remove {c idx} (fd : Int) :
    ContainerStep (c, idx) (.remove fd (c.remove fd).1) ((c.remove fd).2, idx)
  | mark {c idx path} : path ∈ c.byPath →
    ContainerStep (c, idx) (.mark path) (c.markForUnlink path, idx)
  | foreign {c idx} : ContainerStep (c, idx) .foreign (c, nextIdx idx)
  | rehash {c c' idx} : UnorderedMap.Reorder c.byPath c'.byPath →
    UnorderedMap.Reorder c.byId c'.byId → ContainerStep (c, idx) .rehash (c', idx)

/-! ### What a history says -/

/-- The insertions so far, into this container and others. -/
def insertions : List ContainerLabel → Nat
  | [] => 0
  | .insert _ _ :: h => insertions h + 1
  | .foreign :: h => insertions h + 1
  | _ :: h => insertions h

/-- The path that a descriptor was inserted with. -/
def pathOf (fd : Int) : List ContainerLabel → Option Str
  | [] => none
  | .insert path i :: h => if i = fd then some path else pathOf fd h
  | _ :: h => pathOf fd h

/-- The descriptors that were inserted under a path and not removed. -/
def listAfter (k : Str) : List ContainerLabel → List Int
  | [] => []
  | .insert path fd :: h =>
    if Path.lexicallyNormal path = k then listAfter k h ++ [fd] else listAfter k h
  | .remove fd _ :: h => (listAfter k h).erase fd
  | _ :: h => listAfter k h

/-- Was the path marked while it had a descriptor, and has it had one ever since? -/
def markedAfter (k : Str) : List ContainerLabel → Bool
  | [] => false
  | .mark path :: h => (path = k ∧ listAfter k h ≠ []) || markedAfter k h
  | .remove fd _ :: h => markedAfter k h && (listAfter k h).erase fd ≠ []
  | _ :: h => markedAfter k h

/-- The entry of a path that the history asks for. -/
def entryAfter (k : Str) (h : List ContainerLabel) : Option FileDescriptor :=
  if listAfter k h = [] then none else some ⟨listAfter k h, markedAfter k h⟩

/-- The entries of a container are those that the history asks for. -/
def Holds (h : List ContainerLabel) (c : FileDescriptorContainer) : Prop :=
  ∀ k, c.byPath.lookup k = entryAfter k h

/-- What a container holds after a history, and what `remove` makes of it. -/
structure Faithful (h : List ContainerLabel) (c : FileDescriptorContainer) : Prop where
  /-- Each path has the descriptors and the mark of the history, and no entry is empty. -/
  holds : Holds h c
  keys {fd} : fd ∈ c.byId ↔ ∃ k d, c.byPath.lookup k = some d ∧ fd ∈ d.indexes
  once {fd} : fd ∈ c.byId → ∃ path d, pathOf fd h = some path ∧
    c.byPath.lookup (Path.lexicallyNormal path) = some d ∧ d.indexes.count fd = 1 ∧
    ∀ k d', c.byPath.lookup k = some d' → fd ∈ d'.indexes → k = Path.lexicallyNormal path
  nonempty {k d} : c.byPath.lookup k = some d → d.indexes ≠ []
  /-- A path is given back with its last descriptor exactly if it was marked. -/
  unlink {fd path} : (c.remove fd).1 = some path ↔
    listAfter path h = [fd] ∧ markedAfter path h = true
  others {fd k} : fd ∉ listAfter k h → (c.remove fd).2.byPath.lookup k = c.byPath.lookup k

/-- The tables after a history: the representation invariant, with the paths of the insertions. -/
structure Traced (h : List ContainerLabel) (s : FileDescriptorContainer × Int) : Prop where
  idx : s.2 = 3 + insertions h
  wf : s.1.Wf s.2
  holds : Holds h s.1
  path {k fd} : fd ∈ listAfter k h → ∃ path, pathOf fd h = some path ∧ k = Path.lexicallyNormal path

variable {c c' : FileDescriptorContainer} {idx : Int} {h : List ContainerLabel} {fd : Int}
  {k path : Str}

/-- A path without descriptors is not marked. -/
lemma markedAfter_of_nil (e : listAfter k h = []) : markedAfter k h = false := by
  induction h with
  | nil => rfl
  | cons l h ih =>
    cases l with
    | insert path fd =>
      simp only [listAfter] at e
      split at e
      · simp at e
      · exact ih e
    | remove fd unlink =>
      have e : (listAfter k h).erase fd = [] := e
      simp only [markedAfter, e, ne_eq, not_true_eq_false, decide_false, Bool.and_false]
    | mark path => simp [markedAfter, ih e, show listAfter k h = [] from e]
    | foreign => exact ih e
    | rehash => exact ih e

/-- The entry of a path that is open. -/
lemma entryAfter_eq_some {d : FileDescriptor} :
    entryAfter k h = some d ↔ listAfter k h ≠ [] ∧ d = ⟨listAfter k h, markedAfter k h⟩ := by
  unfold entryAfter
  split
  · rename_i e
    exact iff_of_false nofun fun h => h.1 e
  · rename_i ne
    exact ⟨fun e => ⟨ne, (Option.some.inj e).symm⟩, fun h => h.2 ▸ rfl⟩

namespace Holds

/-- The entry of a path that has a descriptor. -/
lemma lookup (ho : Holds h c) (hi : fd ∈ listAfter k h) :
    c.byPath.lookup k = some ⟨listAfter k h, markedAfter k h⟩ :=
  (ho k).trans (entryAfter_eq_some.mpr ⟨List.ne_nil_of_mem hi, rfl⟩)

/-- An entry lists the descriptors of its path. -/
lemma of_lookup {d : FileDescriptor} (ho : Holds h c) (e : c.byPath.lookup k = some d) :
    listAfter k h ≠ [] ∧ d = ⟨listAfter k h, markedAfter k h⟩ :=
  entryAfter_eq_some.mp ((ho k).symm.trans e)

/-- A path has an entry exactly if it has a descriptor. -/
lemma mem (ho : Holds h c) : k ∈ c.byPath ↔ listAfter k h ≠ [] := by
  rw [← AList.lookup_isSome, ho k, entryAfter]
  split <;> rename_i e <;> simp [e]

/-- The descriptors with a handle are those that were inserted and not removed. -/
lemma mem_byId (ho : Holds h c) (wf : c.Wf idx) : fd ∈ c.byId ↔ ∃ k, fd ∈ listAfter k h := by
  constructor
  · intro hi
    obtain ⟨k, d, e, hd⟩ := wf.listed hi
    obtain ⟨-, rfl⟩ := ho.of_lookup e
    exact ⟨k, hd⟩
  · rintro ⟨k, hi⟩
    exact wf.handled (ho.lookup hi) hi

/-- An empty container has no history. -/
lemma init : Holds [] {} := fun _ => rfl

/-- Only what the entries are matters, not their order, nor labels that the history does not count. -/
lemma congr {h' : List ContainerLabel} (ho : Holds h c)
    (hp : ∀ k, c'.byPath.lookup k = c.byPath.lookup k) (hl : ∀ k, listAfter k h' = listAfter k h)
    (hm : ∀ k, markedAfter k h' = markedAfter k h) : Holds h' c' := by
  intro k
  rw [hp, ho k, entryAfter, entryAfter, hl, hm]

/-- A descriptor is added to the list of its path, which keeps its mark. -/
lemma insert (ho : Holds h c) {handle : FileHandle} :
    Holds (.insert path idx :: h) (c.insert idx path handle) := by
  intro k
  by_cases hk : k = Path.lexicallyNormal path
  · subst hk
    have e : entryAfter (Path.lexicallyNormal path) (.insert path idx :: h) =
        some ⟨listAfter (Path.lexicallyNormal path) h ++ [idx],
          markedAfter (Path.lexicallyNormal path) h⟩ :=
      entryAfter_eq_some.mpr (by simp [listAfter, markedAfter])
    rw [lookup_insert, ho, e, entryAfter]
    -- a path without descriptors has no entry, so no mark either
    split
    · rename_i e0
      rw [e0, markedAfter_of_nil e0]
      rfl
    · rfl
  · rw [lookup_insert_ne hk, ho k, entryAfter, entryAfter]
    simp [listAfter, markedAfter, Ne.symm hk]

/-- A descriptor is taken off every list, and a path that is left without any loses its mark. -/
lemma remove {unlink : Option Str} (ho : Holds h c) (wf : c.Wf idx) :
    Holds (.remove fd unlink :: h) (c.remove fd).2 := by
  intro k
  have hl : listAfter k (.remove fd unlink :: h) = (listAfter k h).erase fd := rfl
  have hm : markedAfter k (.remove fd unlink :: h) =
      (markedAfter k h && decide ((listAfter k h).erase fd ≠ [])) := rfl
  rw [wf.lookup_remove, ho k, entryAfter, entryAfter, hl, hm]
  by_cases h₀ : listAfter k h = []
  · rw [h₀, List.erase_nil]
    rfl
  · rw [if_neg h₀, Option.bind_some, FileDescriptor.without]
    by_cases h₁ : (listAfter k h).erase fd = []
    · rw [if_pos h₁]
      exact if_pos (List.isEmpty_iff.mpr h₁)
    · rw [if_neg h₁, decide_eq_true h₁, Bool.and_true]
      exact if_neg fun h' => h₁ (List.isEmpty_iff.mp h')

/-- A path that has a descriptor is marked; nothing happens to one that has none. -/
lemma mark (ho : Holds h c) : Holds (.mark path :: h) (c.markForUnlink path) := by
  intro k
  have hl : listAfter k (.mark path :: h) = listAfter k h := rfl
  have hm : markedAfter k (.mark path :: h) =
      (decide (path = k ∧ listAfter k h ≠ []) || markedAfter k h) := rfl
  rw [entryAfter, hl, hm]
  by_cases hk : k = path
  · subst hk
    by_cases e0 : listAfter k h = []
    · have e : c.byPath.lookup k = none := (ho k).trans (if_pos e0)
      rw [markForUnlink, e, if_pos e0]
      exact e
    · have e : c.byPath.lookup k = some ⟨listAfter k h, markedAfter k h⟩ := (ho k).trans (if_neg e0)
      rw [lookup_markForUnlink e, if_neg e0]
      simp [e0, FileDescriptor.markForUnlink]
  · rw [lookup_markForUnlink_ne hk, ho k, entryAfter]
    simp [Ne.symm hk]

/-- `remove` gives back the path of its last descriptor, if the path was marked. -/
lemma unlink (ho : Holds h c) (wf : c.Wf idx) : (c.remove fd).1 = some path ↔
    listAfter path h = [fd] ∧ markedAfter path h = true := by
  rw [wf.unlink]
  constructor
  · rintro ⟨d, e, one, marked⟩
    obtain ⟨-, rfl⟩ := ho.of_lookup e
    exact ⟨one, marked⟩
  · rintro ⟨one, marked⟩
    exact ⟨_, ho.lookup (one ▸ List.mem_singleton_self fd), one, marked⟩

end Holds

namespace Traced

/-- The invariant says what the container owes. -/
lemma faithful (tr : Traced h (c, idx)) : Faithful h c where
  holds := tr.holds
  keys := by
    intro fd
    constructor
    · exact tr.wf.listed
    · intro ⟨k, d, e, hi⟩
      exact tr.wf.handled e hi
  once := by
    intro fd hfd
    obtain ⟨k, hi⟩ := (tr.holds.mem_byId tr.wf).mp hfd
    obtain ⟨path, hp, rfl⟩ := tr.path hi
    have e := tr.holds.lookup hi
    refine ⟨path, _, hp, e, List.count_eq_one_of_mem (tr.wf.nodup e) hi, ?_⟩
    intro k d' e' hi'
    exact tr.wf.unique e' e hi' hi
  nonempty := tr.wf.nonempty
  unlink := tr.holds.unlink tr.wf
  others := by
    intro fd k no
    refine tr.wf.others fun d e hi => no ?_
    obtain ⟨-, rfl⟩ := tr.holds.of_lookup e
    exact hi

/-- One step keeps the record of the history. -/
lemma step {s s' : FileDescriptorContainer × Int} {l : ContainerLabel} (tr : Traced h s)
    (bound : 3 + insertions (l :: h) < 2 ^ 31) (st : ContainerStep s l s') :
    Traced (l :: h) s' := by
  have hx := tr.idx
  cases st with
  | @insert c idx path handle =>
    simp only at hx
    simp only [insertions] at bound
    have hn : nextIdx idx = idx + 1 := nextIdx_eq (by omega) (by omega)
    constructor
    case idx =>
      simp only [insertions, hn]
      omega
    case wf => exact tr.wf.insert (by simp only [hn]; omega)
    case holds => exact tr.holds.insert
    case path =>
      intro k fd hi
      -- the new number is not one of those listed
      have ne : fd ∈ listAfter k h → idx ≠ fd := fun hi =>
        (tr.wf.fresh ((tr.holds.mem_byId tr.wf).mpr ⟨k, hi⟩)).ne'
      have old : fd ∈ listAfter k h → ∃ path', pathOf fd (.insert path idx :: h) = some path' ∧
          k = Path.lexicallyNormal path' := fun hi => by
        obtain ⟨path', hp, hk⟩ := tr.path hi
        exact ⟨path', by simp only [pathOf, if_neg (ne hi), hp], hk⟩
      simp only [listAfter] at hi
      split at hi
      · rename_i hk
        rcases List.mem_append.mp hi with hi | hi
        · exact old hi
        · rw [List.mem_singleton.mp hi]
          exact ⟨path, by simp only [pathOf, if_true], hk.symm⟩
      · exact old hi
  | remove fd =>
    exact ⟨hx, tr.wf.remove, tr.holds.remove tr.wf, fun hi => tr.path (List.mem_of_mem_erase hi)⟩
  | mark hm => exact ⟨hx, tr.wf.markForUnlink, tr.holds.mark, tr.path⟩
  | @foreign c idx =>
    simp only at hx
    simp only [insertions] at bound
    have hn : nextIdx idx = idx + 1 := nextIdx_eq (by omega) (by omega)
    refine ⟨?_, tr.wf.mono (by simp only [hn]; omega), ?_, tr.path⟩
    · simp only [insertions, hn]
      omega
    · exact tr.holds.congr (fun _ => rfl) (fun _ => rfl) fun _ => rfl
  | rehash hp hi =>
    refine ⟨hx, tr.wf.congr (fun k => hp.lookup k) (fun i => hi.mem), ?_, tr.path⟩
    exact tr.holds.congr (fun k => hp.lookup k) (fun _ => rfl) fun _ => rfl

end Traced

/-- A step takes no insertion back. -/
lemma insertions_le (l : ContainerLabel) : insertions h ≤ insertions (l :: h) := by
  cases l with
  | insert path fd => exact Nat.le_succ _
  | foreign => exact Nat.le_succ _
  | remove fd unlink => exact Nat.le_refl _
  | mark path => exact Nat.le_refl _
  | rehash => exact Nat.le_refl _

/-- After every sequence of operations with fewer than `2 ^ 31 - 3` insertions in the process, the
container holds what its history says. -/
theorem faithful_history (tr : Trace ContainerStep ({}, 3) h (c, idx))
    (bound : insertions h < 2 ^ 31 - 3) : Faithful h c := by
  have traced : ∀ {h s}, Trace ContainerStep ({}, 3) h s → insertions h < 2 ^ 31 - 3 →
      Traced h s := by
    intro h s tr
    induction tr with
    | nil =>
      intro _
      exact ⟨rfl, Wf.init, Holds.init, fun hi => absurd hi List.not_mem_nil⟩
    | @snoc h s l s' _ st ih =>
      intro bound
      have le := insertions_le (h := h) l
      exact (ih (by omega)).step (by omega) st
  exact (traced tr bound).faithful

def handleF : FileHandle := ⟨0, "/a".toList, "/a/f".toList, 0⟩

/-- Two descriptors of one path, spelled in two ways, a mark, and the first one removed: with the
second one the path is given back. -/
theorem faithful_history_shared :
    Faithful [.remove 3 none, .mark "/a/f".toList, .insert "/a//f".toList 4, .insert "/a/f".toList 3]
        (((({} : FileDescriptorContainer).insert 3 "/a/f".toList handleF).insert 4 "/a//f".toList
          handleF).markForUnlink "/a/f".toList |>.remove 3).2 ∧
      ((((({} : FileDescriptorContainer).insert 3 "/a/f".toList handleF).insert 4 "/a//f".toList
        handleF).markForUnlink "/a/f".toList |>.remove 3).2.remove 4).1 = some "/a/f".toList := by
  have tr : Trace ContainerStep ({}, 3)
      [.remove 3 none, .mark "/a/f".toList, .insert "/a//f".toList 4, .insert "/a/f".toList 3]
      (_, 5) :=
    .snoc (.snoc (.snoc (.snoc .nil (.insert "/a/f".toList handleF))
      (.insert "/a//f".toList handleF)) (.mark (by decide))) (.remove 3)
  have f := faithful_history tr (by decide)
  exact ⟨f, f.unlink.mpr (by decide)⟩

end FileDescriptorContainer
end Evfs
