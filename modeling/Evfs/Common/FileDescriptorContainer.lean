import Evfs.Common.Filesystem
import Evfs.Common.Path

/-!
# The descriptor container

Port of `lib/common/file_descriptor.hpp` and `lib/common/file_descriptor_container.hpp`. The counter
`idx` is a static member, shared by every container of the process, so it is passed in and out; its
increment is that of a 32-bit `int`. `remove` is the loop of the source over the entries of
`by_path`, which edits the entries it passes and stops at the first one left empty.

`Wf` is the representation invariant. Under it `FileDescriptorContainer.remove` touches the one entry
that lists the descriptor (`Wf.lookup_remove`), and gives back the path of a marked entry with its
last descriptor (`Wf.unlink`).
-/

namespace Evfs
open Lib

/-- `file_descriptor`: the descriptors of one path. -/
structure FileDescriptor where
  indexes : List Int := []
  markedForUnlink : Bool := false
  deriving DecidableEq

namespace FileDescriptor

def add (d : FileDescriptor) (id : Int) : FileDescriptor := { d with indexes := d.indexes ++ [id] }

def isEmpty (d : FileDescriptor) : Bool := d.indexes.isEmpty

/-- The entry without a descriptor (`remove`, which returns `is_empty` of it). -/
def remove (d : FileDescriptor) (id : Int) : FileDescriptor :=
  { d with indexes := d.indexes.erase id }

def markForUnlink (d : FileDescriptor) : FileDescriptor := { d with markedForUnlink := true }

/-- What is left of an entry without a descriptor, if anything is. -/
def without (d : FileDescriptor) (id : Int) : Option FileDescriptor :=
  if (d.remove id).isEmpty then none else some (d.remove id)

/-- What is left of a path's entry without a descriptor. -/
lemma without_eq_some {d d' : FileDescriptor} {id : Int} :
    d.without id = some d' ↔ d' = d.remove id ∧ d'.indexes ≠ [] := by
  unfold without
  split
  · rename_i h
    refine iff_of_false nofun ?_
    rintro ⟨rfl, ne⟩
    exact ne (List.isEmpty_iff.mp h)
  · rename_i h
    constructor
    · rintro ⟨⟩
      exact ⟨rfl, fun e => h (List.isEmpty_iff.mpr e)⟩
    · rintro ⟨rfl, -⟩
      rfl

/-- An entry without the descriptor stays as it is. -/
lemma without_of_notMem {d : FileDescriptor} {id : Int} (ne : d.indexes ≠ [])
    (no : id ∉ d.indexes) : d.without id = some d := by
  have e : d.remove id = d := by rw [remove, List.erase_of_not_mem no]
  exact without_eq_some.mpr ⟨e.symm, ne⟩

/-- An entry that is left empty was that of one descriptor. -/
lemma eq_singleton_of_remove {d : FileDescriptor} {id : Int} (hi : id ∈ d.indexes)
    (last : (d.remove id).isEmpty = true) : d.indexes = [id] := by
  have e : d.indexes.erase id = [] := List.isEmpty_iff.mp last
  exact (List.erase_eq_nil_iff.mp e).resolve_left (List.ne_nil_of_mem hi)

end FileDescriptor

/-- `file_descriptor_container`. -/
structure FileDescriptorContainer where
  byPath : UnorderedMap Str FileDescriptor := ∅
  byId : UnorderedMap Int FileHandle := ∅

/-- `idx++`. -/
def nextIdx (idx : Int) : Int := (idx + 1).bmod (2 ^ 32)

/-- Below `INT_MAX` the next index is one more. -/
lemma nextIdx_eq {i : Int} (lo : 0 ≤ i) (hi : i + 1 < 2 ^ 31) : nextIdx i = i + 1 := by
  unfold nextIdx
  rw [Int.bmod_eq_of_le] <;> omega

namespace FileDescriptorContainer

/-- `insert`, which returns the descriptor `idx`. -/
def insert (c : FileDescriptorContainer) (idx : Int) (path : Str) (handle : FileHandle) :
    FileDescriptorContainer :=
  let key := Path.lexicallyNormal path
  let value := (c.byPath.lookup key).getD {}
  { byPath := (UnorderedMap.emplace c.byPath key {}).replace key (value.add idx)
    byId := UnorderedMap.emplace c.byId idx handle }

/-- The loop of `remove`: the entries left, and the path and mark of the one erased. -/
def removeLoop (index : Int) : List (Σ _ : Str, FileDescriptor) →
    List (Σ _ : Str, FileDescriptor) × Option (Str × Bool)
  | [] => ([], none)
  | ⟨path, value⟩ :: rest =>
    if (value.remove index).isEmpty then (rest, some (path, (value.remove index).markedForUnlink))
    else (⟨path, value.remove index⟩ :: (removeLoop index rest).1, (removeLoop index rest).2)

/-- Removing only drops paths. -/
lemma keys_removeLoop (index : Int) (l : List (Σ _ : Str, FileDescriptor)) :
    (removeLoop index l).1.keys.Sublist l.keys := by
  induction l with
  | nil => exact .slnil
  | cons e l ih =>
    obtain ⟨path, value⟩ := e
    rw [removeLoop]
    split
    · exact .cons _ (.refl _)
    · exact .cons_cons _ ih

/-- The entries that the loop leaves. -/
def loopEntries (c : FileDescriptorContainer) (index : Int) : UnorderedMap Str FileDescriptor :=
  ⟨(removeLoop index c.byPath.entries).1, (keys_removeLoop index _).nodup c.byPath.nodupKeys⟩

/-- `remove`: the path to unlink, if any. -/
def remove (c : FileDescriptorContainer) (index : Int) : Option Str × FileDescriptorContainer :=
  if index ∈ c.byId then
    (match (removeLoop index c.byPath.entries).2 with
      | some (p, true) => some p
      | _ => none,
    { byPath := c.loopEntries index, byId := c.byId.erase index })
  else (none, c)

/-- `operator[](path).mark_for_unlink()` on an existing entry. -/
def markForUnlink (c : FileDescriptorContainer) (path : Str) : FileDescriptorContainer :=
  match c.byPath.lookup path with
  | some d => { c with byPath := c.byPath.replace path d.markForUnlink }
  | none => c

/-- The entries list the descriptors of `byId`, each once, and none is empty; the counter is ahead
of them. -/
structure Wf (c : FileDescriptorContainer) (idx : Int) : Prop where
  nonempty {k d} : c.byPath.lookup k = some d → d.indexes ≠ []
  nodup {k d} : c.byPath.lookup k = some d → d.indexes.Nodup
  unique {k d k' d' i} : c.byPath.lookup k = some d → c.byPath.lookup k' = some d' →
    i ∈ d.indexes → i ∈ d'.indexes → k = k'
  listed {i} : i ∈ c.byId → ∃ k d, c.byPath.lookup k = some d ∧ i ∈ d.indexes
  handled {k d i} : c.byPath.lookup k = some d → i ∈ d.indexes → i ∈ c.byId
  fresh {i} : i ∈ c.byId → i < idx

/-- The empty container is well-formed. -/
lemma Wf.init {idx : Int} : Wf {} idx where
  nonempty e := by cases e
  nodup e := by cases e
  unique e := by cases e
  listed h := by cases h
  handled e := by cases e
  fresh h := by cases h

/-- Well-formed below a larger index. -/
lemma Wf.mono {c : FileDescriptorContainer} {idx idx' : Int} (wf : c.Wf idx) (h : idx ≤ idx') :
    c.Wf idx' :=
  { wf with fresh := fun hi => lt_of_lt_of_le (wf.fresh hi) h }

/-- Only what the maps hold matters, not the order they are iterated in. -/
lemma Wf.congr {c c' : FileDescriptorContainer} {idx : Int} (wf : c.Wf idx)
    (hp : ∀ k, c'.byPath.lookup k = c.byPath.lookup k) (hi : ∀ i, i ∈ c'.byId ↔ i ∈ c.byId) :
    c'.Wf idx where
  nonempty e := wf.nonempty (by rwa [hp] at e)
  nodup e := wf.nodup (by rwa [hp] at e)
  unique e e' := wf.unique (by rwa [hp] at e) (by rwa [hp] at e')
  listed h := by
    obtain ⟨k, d, e, h⟩ := wf.listed ((hi _).mp h)
    exact ⟨k, d, by rwa [hp], h⟩
  handled e h := (hi _).mpr (wf.handled (by rwa [hp] at e) h)
  fresh h := wf.fresh ((hi _).mp h)

section Insert
variable {c : FileDescriptorContainer} {idx : Int} {path : Str} {handle : FileHandle}

/-- The path's entry after inserting. -/
lemma lookup_insert :
    (c.insert idx path handle).byPath.lookup (Path.lexicallyNormal path)
      = some (((c.byPath.lookup (Path.lexicallyNormal path)).getD {}).add idx) :=
  UnorderedMap.lookup_replace (UnorderedMap.mem_emplace.mpr (.inl rfl))

/-- The other paths' entries after inserting. -/
lemma lookup_insert_ne {k : Str} (h : k ≠ Path.lexicallyNormal path) :
    (c.insert idx path handle).byPath.lookup k = c.byPath.lookup k := by
  rw [insert, UnorderedMap.lookup_replace_ne h, UnorderedMap.lookup_emplace_ne h]

/-- The new descriptor's handle. -/
lemma lookup_insert_byId (wf : c.Wf idx) :
    (c.insert idx path handle).byId.lookup idx = some handle := by
  apply UnorderedMap.lookup_emplace
  intro h
  exact absurd (wf.fresh h) (lt_irrefl _)

/-- The other descriptors' handles after inserting. -/
lemma lookup_insert_byId_ne {i : Int} (h : i ≠ idx) :
    (c.insert idx path handle).byId.lookup i = c.byId.lookup i :=
  UnorderedMap.lookup_emplace_ne h

/-- The open descriptors after inserting. -/
lemma mem_insert_byId {i : Int} :
    i ∈ (c.insert idx path handle).byId ↔ i = idx ∨ i ∈ c.byId :=
  UnorderedMap.mem_emplace

/-- The entry of a path after an insertion: the descriptor is added to it, or it stays. -/
lemma lookup_insert_cases {k : Str} {d : FileDescriptor}
    (e : (c.insert idx path handle).byPath.lookup k = some d) :
    (k = Path.lexicallyNormal path ∧ d = ((c.byPath.lookup k).getD {}).add idx) ∨
      c.byPath.lookup k = some d := by
  by_cases hk : k = Path.lexicallyNormal path
  · subst hk
    rw [lookup_insert] at e
    exact .inl ⟨rfl, (Option.some.inj e).symm⟩
  · rw [lookup_insert_ne hk] at e
    exact .inr e

/-- The descriptors that a path lists after an insertion. -/
lemma mem_indexes_insert {k : Str} {d : FileDescriptor} {i : Int}
    (e : (c.insert idx path handle).byPath.lookup k = some d) (h : i ∈ d.indexes) :
    (i = idx ∧ k = Path.lexicallyNormal path) ∨ ∃ d', c.byPath.lookup k = some d' ∧ i ∈ d'.indexes := by
  obtain ⟨hk, rfl⟩ | e := lookup_insert_cases e
  · rcases List.mem_append.mp h with h | h
    · cases hl : c.byPath.lookup k with
      | none => simp [hl] at h
      | some d' => exact .inr ⟨d', rfl, by simpa [hl] using h⟩
    · exact .inl ⟨List.mem_singleton.mp h, hk⟩
  · exact .inr ⟨d, e, h⟩

/-- `insert` keeps the representation invariant. -/
lemma Wf.insert {idx' : Int} (wf : c.Wf idx) (lt : idx < idx') :
    (c.insert idx path handle).Wf idx' := by
  have new : ∀ {k d}, c.byPath.lookup k = some d → idx ∉ d.indexes := fun e h =>
    lt_irrefl _ (wf.fresh (wf.handled e h))
  constructor
  case nonempty =>
    intro k d e
    obtain ⟨-, rfl⟩ | e := lookup_insert_cases e
    · simp [FileDescriptor.add]
    · exact wf.nonempty e
  case nodup =>
    intro k d e
    obtain ⟨-, rfl⟩ | e := lookup_insert_cases e
    · cases hl : c.byPath.lookup k with
      | none => simp [FileDescriptor.add]
      | some d' =>
        refine List.nodup_append.mpr ⟨wf.nodup hl, List.nodup_singleton _, ?_⟩
        rintro i hi j hj rfl
        exact new hl (List.mem_singleton.mp hj ▸ hi)
    · exact wf.nodup e
  case unique =>
    intro k d k' d' i e e' h h'
    -- the new descriptor is listed once, the others where they were
    rcases mem_indexes_insert e h with ⟨rfl, rfl⟩ | ⟨d₁, e₁, h₁⟩
    · rcases mem_indexes_insert e' h' with ⟨-, rfl⟩ | ⟨d₂, e₂, h₂⟩
      · rfl
      · exact absurd h₂ (new e₂)
    · rcases mem_indexes_insert e' h' with ⟨rfl, -⟩ | ⟨d₂, e₂, h₂⟩
      · exact absurd h₁ (new e₁)
      · exact wf.unique e₁ e₂ h₁ h₂
  case listed =>
    intro i h
    rcases mem_insert_byId.mp h with rfl | h
    · exact ⟨_, _, lookup_insert, by simp [FileDescriptor.add]⟩
    · obtain ⟨k, d, e, hd⟩ := wf.listed h
      by_cases hk : k = Path.lexicallyNormal path
      · subst hk
        exact ⟨_, _, lookup_insert, by simp [FileDescriptor.add, e, hd]⟩
      · exact ⟨k, d, by rwa [lookup_insert_ne hk], hd⟩
  case handled =>
    intro k d i e h
    rcases mem_indexes_insert e h with ⟨rfl, -⟩ | ⟨d', e', h'⟩
    · exact mem_insert_byId.mpr (.inl rfl)
    · exact mem_insert_byId.mpr (.inr (wf.handled e' h'))
  case fresh =>
    intro i h
    rcases mem_insert_byId.mp h with rfl | h
    · exact lt
    · exact lt_trans (wf.fresh h) lt

end Insert

section Remove
variable {c : FileDescriptorContainer} {idx index : Int} {k : Str} {d : FileDescriptor}

/-- Entries that do not list the descriptor are passed unchanged. -/
lemma removeLoop_of_notMem {l : List (Σ _ : Str, FileDescriptor)}
    (ne : ∀ e ∈ l, e.2.indexes ≠ []) (no : ∀ e ∈ l, index ∉ e.2.indexes) :
    removeLoop index l = (l, none) := by
  induction l with
  | nil => rfl
  | cons e l ih =>
    obtain ⟨path, value⟩ := e
    have ev : value.remove index = value := by
      rw [FileDescriptor.remove, List.erase_of_not_mem (no _ List.mem_cons_self)]
    have hv : value.isEmpty = false := List.isEmpty_eq_false_iff.mpr (ne _ List.mem_cons_self)
    rw [removeLoop, ev, hv, ih (fun e h => ne e (List.mem_cons_of_mem _ h))
      (fun e h => no e (List.mem_cons_of_mem _ h))]
    rfl

/-- The loop edits the entry that lists the descriptor and no other. -/
lemma removeLoop_of_mem {l : List (Σ _ : Str, FileDescriptor)} (nd : l.NodupKeys)
    (ne : ∀ e ∈ l, e.2.indexes ≠ []) (un : ∀ e ∈ l, index ∈ e.2.indexes → e.1 = k)
    (hd : ⟨k, d⟩ ∈ l) (hi : index ∈ d.indexes) :
    removeLoop index l =
      if (d.remove index).isEmpty then (l.kerase k, some (k, d.markedForUnlink))
      else (l.kreplace k (d.remove index), none) := by
  induction l with
  | nil => cases hd
  | cons e l ih =>
    obtain ⟨path, value⟩ := e
    obtain ⟨hp, nd⟩ := List.nodupKeys_cons.mp nd
    -- the entry that lists the descriptor: none behind it does
    by_cases hk : k = path
    · subst hk
      have ev : value = d := by
        rcases List.mem_cons.mp hd with e | h
        · cases e; rfl
        · exact absurd (List.mem_keys_of_mem h) hp
      subst ev
      rw [removeLoop]
      split
      · have e : List.kerase k ((⟨k, value⟩ : Σ _ : Str, FileDescriptor) :: l) = l :=
          List.kerase_cons_eq rfl
        rw [e]
        rfl
      · rw [UnorderedMap.kreplace_cons_eq, removeLoop_of_notMem]
        · exact fun e h => ne e (List.mem_cons_of_mem _ h)
        · intro e h h'
          have e' : e.1 = k := un e (List.mem_cons_of_mem _ h) h'
          exact hp (List.mem_map.mpr ⟨e, h, e'⟩)
    · have hn : index ∉ value.indexes := fun h => hk (un _ List.mem_cons_self h).symm
      have hd' : ⟨k, d⟩ ∈ l := by
        rcases List.mem_cons.mp hd with e | h
        · cases e; exact absurd rfl hk
        · exact h
      have ev : value.remove index = value := by
        rw [FileDescriptor.remove, List.erase_of_not_mem hn]
      -- another entry is passed, and it is not empty
      have hv : value.isEmpty = false := List.isEmpty_eq_false_iff.mpr (ne _ List.mem_cons_self)
      rw [removeLoop, ev, hv, ih nd (fun e h => ne e (List.mem_cons_of_mem _ h))
        (fun e h => un e (List.mem_cons_of_mem _ h)) hd', List.kerase_cons_ne hk,
        UnorderedMap.kreplace_cons_ne hk]
      cases (d.remove index).isEmpty <;> rfl

/-- The loop leaves only entries that were there, and empties none of them. -/
lemma removeLoop_entries {l : List (Σ _ : Str, FileDescriptor)} {e : Σ _ : Str, FileDescriptor}
    (ne : ∀ e ∈ l, e.2.indexes ≠ []) (h : e ∈ (removeLoop index l).1) : e.2.indexes ≠ [] := by
  induction l with
  | nil => cases h
  | cons e' l ih =>
    obtain ⟨path, value⟩ := e'
    rw [removeLoop] at h
    split at h
    · exact ne e (List.mem_cons_of_mem _ h)
    · rename_i hv
      rcases List.mem_cons.mp h with h | h
      · subst h
        exact fun h => hv (List.isEmpty_iff.mpr h)
      · exact ih (fun e h => ne e (List.mem_cons_of_mem _ h)) h

/-- The keys left by `remove` were there before. -/
lemma mem_byPath_remove (h : k ∈ (c.remove index).2.byPath) : k ∈ c.byPath := by
  unfold remove at h
  split at h
  · exact (keys_removeLoop index c.byPath.entries).subset h
  · exact h

/-- `remove` of an unknown descriptor does nothing. -/
lemma remove_of_notMem (h : index ∉ c.byId) : c.remove index = (none, c) := if_neg h

/-- Removing stops at the one path that has the descriptor. -/
lemma Wf.removeLoop (wf : c.Wf idx) (e : c.byPath.lookup k = some d) (hi : index ∈ d.indexes) :
    removeLoop index c.byPath.entries =
      if (d.remove index).isEmpty then (c.byPath.entries.kerase k, some (k, d.markedForUnlink))
      else (c.byPath.entries.kreplace k (d.remove index), none) := by
  apply removeLoop_of_mem c.byPath.nodupKeys
  · exact fun e h => wf.nonempty (UnorderedMap.mem_entries_iff.mp h)
  · exact fun e' h h' => wf.unique (UnorderedMap.mem_entries_iff.mp h) e h' hi
  · exact UnorderedMap.mem_entries_iff.mpr e
  · exact hi

/-- Removing the last descriptor of a path erases its entry and tells the mark. -/
lemma Wf.remove_last (wf : c.Wf idx) (e : c.byPath.lookup k = some d) (hi : index ∈ d.indexes)
    (last : (d.remove index).isEmpty) :
    c.remove index = (if d.markedForUnlink then some k else none,
      { byPath := c.byPath.erase k, byId := c.byId.erase index }) := by
  have h := wf.removeLoop e hi
  rw [if_pos last] at h
  have he : c.loopEntries index = c.byPath.erase k := AList.ext (congrArg Prod.fst h)
  rw [remove, if_pos (wf.handled e hi), h, he]
  cases d.markedForUnlink <;> rfl

/-- Removing another descriptor only shortens its list. -/
lemma Wf.remove_shared (wf : c.Wf idx) (e : c.byPath.lookup k = some d) (hi : index ∈ d.indexes)
    (more : ¬ (d.remove index).isEmpty) :
    c.remove index = (none,
      { byPath := c.byPath.replace k (d.remove index), byId := c.byId.erase index }) := by
  have h := wf.removeLoop e hi
  rw [if_neg more] at h
  have he : c.loopEntries index = c.byPath.replace k (d.remove index) :=
    AList.ext (congrArg Prod.fst h)
  rw [remove, if_pos (wf.handled e hi), h, he]

/-- `remove` leaves the entries alone that do not list the descriptor. -/
lemma Wf.others (wf : c.Wf idx) (no : ∀ d, c.byPath.lookup k = some d → index ∉ d.indexes) :
    (c.remove index).2.byPath.lookup k = c.byPath.lookup k := by
  by_cases h : index ∈ c.byId
  · obtain ⟨k', d, e, hi⟩ := wf.listed h
    have ne : k ≠ k' := by
      intro e'
      exact no d (e' ▸ e) hi
    by_cases last : (d.remove index).isEmpty = true
    · rw [wf.remove_last e hi last]
      exact AList.lookup_erase_ne ne
    · rw [wf.remove_shared e hi last]
      exact UnorderedMap.lookup_replace_ne ne
  · rw [remove_of_notMem h]

/-- Every path keeps what is left of its entry without the descriptor. -/
lemma Wf.lookup_remove (wf : c.Wf idx) : (c.remove index).2.byPath.lookup k =
    (c.byPath.lookup k).bind fun d => d.without index := by
  by_cases no : ∀ d, c.byPath.lookup k = some d → index ∉ d.indexes
  · rw [wf.others no]
    cases e : c.byPath.lookup k with
    | none => rfl
    | some d => exact (FileDescriptor.without_of_notMem (wf.nonempty e) (no d e)).symm
  · push Not at no
    obtain ⟨d, e, hi⟩ := no
    rw [e, Option.bind_some, FileDescriptor.without]
    split
    · rename_i last
      rw [wf.remove_last e hi last, AList.lookup_erase]
    · rename_i more
      rw [wf.remove_shared e hi more]
      exact UnorderedMap.lookup_replace (UnorderedMap.mem_of_lookup e)

/-- An entry left is an old one without the descriptor. -/
lemma Wf.lookup_remove_elim (wf : c.Wf idx) {d' : FileDescriptor}
    (e' : (c.remove index).2.byPath.lookup k = some d') :
    ∃ d, c.byPath.lookup k = some d ∧ d' = d.remove index ∧ d'.indexes ≠ [] := by
  rw [wf.lookup_remove] at e'
  obtain ⟨d, e, h⟩ := Option.bind_eq_some_iff.mp e'
  exact ⟨d, e, FileDescriptor.without_eq_some.mp h⟩

/-- `remove` gives back the path of a last descriptor, if it is marked. -/
lemma Wf.unlink (wf : c.Wf idx) {path : Str} : (c.remove index).1 = some path ↔
    ∃ d, c.byPath.lookup path = some d ∧ d.indexes = [index] ∧ d.markedForUnlink = true := by
  constructor
  · intro hr
    by_cases h : index ∈ c.byId
    · obtain ⟨k, d, e, hi⟩ := wf.listed h
      by_cases last : (d.remove index).isEmpty = true
      · rw [wf.remove_last e hi last] at hr
        cases hm : d.markedForUnlink with
        | false => simp [hm] at hr
        | true =>
          simp only [hm, if_true, Option.some.injEq] at hr
          exact ⟨d, hr ▸ e, FileDescriptor.eq_singleton_of_remove hi last, hm⟩
      · rw [wf.remove_shared e hi last] at hr
        cases hr
    · rw [remove_of_notMem h] at hr
      cases hr
  · intro ⟨d, e, hs, hm⟩
    have hi : index ∈ d.indexes := by rw [hs]; exact List.mem_singleton_self index
    have last : (d.remove index).isEmpty = true := by
      simp [FileDescriptor.remove, FileDescriptor.isEmpty, hs]
    rw [wf.remove_last e hi last, hm]
    rfl

/-- The handles after removing. -/
lemma byId_remove (h : index ∈ c.byId) : (c.remove index).2.byId = c.byId.erase index := by
  rw [remove, if_pos h]

/-- A handle left by `remove` was there before. -/
lemma lookup_byId_remove {i : Int} {fil : FileHandle}
    (e : (c.remove index).2.byId.lookup i = some fil) : c.byId.lookup i = some fil := by
  by_cases h : index ∈ c.byId
  · rw [byId_remove h] at e
    exact UnorderedMap.lookup_erase_elim e
  · rwa [remove_of_notMem h] at e

/-- The open descriptors after removing. -/
lemma mem_byId_remove {i : Int} : i ∈ (c.remove index).2.byId ↔ i ≠ index ∧ i ∈ c.byId := by
  by_cases h : index ∈ c.byId
  · rw [byId_remove h, AList.mem_erase]
  · rw [remove_of_notMem h]
    refine ⟨fun hi => ⟨?_, hi⟩, And.right⟩
    rintro rfl
    exact h hi

/-- `remove` keeps the representation invariant. -/
lemma Wf.remove (wf : c.Wf idx) : (c.remove index).2.Wf idx := by
  constructor
  case nonempty =>
    intro k' d' e'
    obtain ⟨d, -, -, ne⟩ := wf.lookup_remove_elim e'
    exact ne
  case nodup =>
    intro k' d' e'
    obtain ⟨d, e, rfl, -⟩ := wf.lookup_remove_elim e'
    exact (wf.nodup e).erase _
  case unique =>
    intro k₁ d₁ k₂ d₂ i e₁ e₂ h₁ h₂
    obtain ⟨d₁', e₁', rfl, -⟩ := wf.lookup_remove_elim e₁
    obtain ⟨d₂', e₂', rfl, -⟩ := wf.lookup_remove_elim e₂
    exact wf.unique e₁' e₂' (List.mem_of_mem_erase h₁) (List.mem_of_mem_erase h₂)
  case listed =>
    intro i h
    obtain ⟨hn, h⟩ := mem_byId_remove.mp h
    obtain ⟨k', d', e', h'⟩ := wf.listed h
    have keep : i ∈ (d'.remove index).indexes := (List.mem_erase_of_ne hn).mpr h'
    refine ⟨k', _, ?_, keep⟩
    rw [wf.lookup_remove, e']
    exact FileDescriptor.without_eq_some.mpr ⟨rfl, List.ne_nil_of_mem keep⟩
  case handled =>
    intro k' d' i e' h'
    obtain ⟨d, e, rfl, -⟩ := wf.lookup_remove_elim e'
    refine mem_byId_remove.mpr ⟨?_, wf.handled e (List.mem_of_mem_erase h')⟩
    rintro rfl
    exact (wf.nodup e).not_mem_erase h'
  case fresh => exact fun h => wf.fresh (mem_byId_remove.mp h).2

end Remove

section Mark
variable {c : FileDescriptorContainer} {idx : Int} {path k : Str} {d : FileDescriptor}

/-- The path's entry after marking. -/
lemma lookup_markForUnlink (e : c.byPath.lookup path = some d) :
    (c.markForUnlink path).byPath.lookup path = some d.markForUnlink := by
  rw [markForUnlink, e]
  exact UnorderedMap.lookup_replace (UnorderedMap.mem_of_lookup e)

/-- The other paths' entries after marking. -/
lemma lookup_markForUnlink_ne (h : k ≠ path) :
    (c.markForUnlink path).byPath.lookup k = c.byPath.lookup k := by
  rw [markForUnlink]
  split
  · exact UnorderedMap.lookup_replace_ne h
  · rfl

/-- Marking keeps the handles. -/
@[simp] lemma byId_markForUnlink : (c.markForUnlink path).byId = c.byId := by
  rw [markForUnlink]
  split <;> rfl

/-- Marking changes no list. -/
lemma lookup_markForUnlink_elim (e : (c.markForUnlink path).byPath.lookup k = some d) :
    ∃ d', c.byPath.lookup k = some d' ∧ d'.indexes = d.indexes := by
  by_cases h : k = path
  · subst h
    cases e' : c.byPath.lookup k with
    | none =>
      rw [markForUnlink, e'] at e
      rw [e'] at e
      cases e
    | some d' =>
      rw [lookup_markForUnlink e'] at e
      obtain rfl := Option.some.inj e
      exact ⟨d', rfl, rfl⟩
  · rw [lookup_markForUnlink_ne h] at e
    exact ⟨d, e, rfl⟩

/-- Marking keeps the container well-formed. -/
lemma Wf.markForUnlink (wf : c.Wf idx) : (c.markForUnlink path).Wf idx := by
  constructor
  case nonempty =>
    intro k d e
    obtain ⟨d', e', h⟩ := lookup_markForUnlink_elim e
    exact h ▸ wf.nonempty e'
  case nodup =>
    intro k d e
    obtain ⟨d', e', h⟩ := lookup_markForUnlink_elim e
    exact h ▸ wf.nodup e'
  case unique =>
    intro k d k' d' i e e' h h'
    obtain ⟨d₁, e₁, h₁⟩ := lookup_markForUnlink_elim e
    obtain ⟨d₂, e₂, h₂⟩ := lookup_markForUnlink_elim e'
    exact wf.unique e₁ e₂ (h₁ ▸ h) (h₂ ▸ h')
  case listed =>
    intro i h
    rw [byId_markForUnlink] at h
    obtain ⟨k, d, e, hd⟩ := wf.listed h
    by_cases hk : k = path
    · subst hk
      exact ⟨k, _, lookup_markForUnlink e, hd⟩
    · exact ⟨k, d, by rwa [lookup_markForUnlink_ne hk], hd⟩
  case handled =>
    intro k d i e h
    obtain ⟨d', e', h'⟩ := lookup_markForUnlink_elim e
    rw [byId_markForUnlink]
    exact wf.handled e' (h' ▸ h)
  case fresh =>
    intro i h
    rw [byId_markForUnlink] at h
    exact wf.fresh h

end Mark

/-! ### Marks -/

/-- The path is marked for unlink. -/
def Marked (c : FileDescriptorContainer) (path : Str) : Prop :=
  ∃ d, c.byPath.lookup path = some d ∧ d.markedForUnlink = true

section Marked
variable {c c' : FileDescriptorContainer} {index : Int} {path k : Str}

/-- Marks depend on the paths' entries only. -/
lemma Marked.congr (hp : ∀ k, c'.byPath.lookup k = c.byPath.lookup k) (m : c'.Marked path) :
    c.Marked path := by
  obtain ⟨d, e, hm⟩ := m
  exact ⟨d, hp path ▸ e, hm⟩

/-- A new descriptor gets the mark of its path, if there is one. -/
lemma Marked.of_insert {handle : FileHandle} (m : (c.insert index k handle).Marked path) :
    c.Marked path := by
  obtain ⟨d, e, hm⟩ := m
  obtain ⟨-, rfl⟩ | e := lookup_insert_cases e
  · cases hl : c.byPath.lookup path with
    | none =>
      rw [hl] at hm
      cases hm
    | some d =>
      rw [hl] at hm
      exact ⟨d, hl, hm⟩
  · exact ⟨d, e, hm⟩

/-- The loop of `remove` sets no marks. -/
lemma removeLoop_marked {l : List (Σ _ : Str, FileDescriptor)} {e : Σ _ : Str, FileDescriptor}
    (h : e ∈ (removeLoop index l).1) (hm : e.2.markedForUnlink = true) :
    ∃ d : FileDescriptor, ⟨e.1, d⟩ ∈ l ∧ d.markedForUnlink = true := by
  induction l with
  | nil => cases h
  | cons e' l ih =>
    obtain ⟨k, value⟩ := e'
    rw [removeLoop] at h
    split at h
    · exact ⟨e.2, List.mem_cons_of_mem _ h, hm⟩
    · rcases List.mem_cons.mp h with rfl | h
      · exact ⟨value, List.mem_cons_self, hm⟩
      · obtain ⟨d, hd, hm⟩ := ih h
        exact ⟨d, List.mem_cons_of_mem _ hd, hm⟩

/-- Its result is the mark of an entry. -/
lemma removeLoop_result {l : List (Σ _ : Str, FileDescriptor)} {b : Bool}
    (h : (removeLoop index l).2 = some (k, b)) :
    ∃ d : FileDescriptor, ⟨k, d⟩ ∈ l ∧ d.markedForUnlink = b := by
  induction l with
  | nil => cases h
  | cons e' l ih =>
    obtain ⟨path, value⟩ := e'
    rw [removeLoop] at h
    split at h
    · cases h
      exact ⟨value, List.mem_cons_self, rfl⟩
    · obtain ⟨d, hd, hm⟩ := ih h
      exact ⟨d, List.mem_cons_of_mem _ hd, hm⟩

/-- What is marked after removing was marked before. -/
lemma Marked.of_remove (m : (c.remove index).2.Marked path) : c.Marked path := by
  obtain ⟨d, e, hm⟩ := m
  unfold remove at e
  split at e
  · obtain ⟨d', hd, hm⟩ := removeLoop_marked (UnorderedMap.mem_entries_iff.mpr e) hm
    exact ⟨d', UnorderedMap.mem_entries_iff.mp hd, hm⟩
  · exact ⟨d, e, hm⟩

/-- Only a marked path is to be unlinked. -/
lemma marked_of_remove (h : (c.remove index).1 = some path) : c.Marked path := by
  unfold remove at h
  split at h
  · simp only at h
    split at h
    · rename_i p hr
      cases h
      obtain ⟨d, hd, hm⟩ := removeLoop_result hr
      exact ⟨d, UnorderedMap.mem_entries_iff.mp hd, hm⟩
    · cases h
  · cases h

/-- Marking one path marks no other. -/
lemma Marked.of_markForUnlink (m : (c.markForUnlink k).Marked path) (h : path ≠ k) :
    c.Marked path := by
  obtain ⟨d, e, hm⟩ := m
  rw [lookup_markForUnlink_ne h] at e
  exact ⟨d, e, hm⟩

end Marked

end FileDescriptorContainer
end Evfs
