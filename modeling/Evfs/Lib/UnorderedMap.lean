import Mathlib.Data.List.AList

/-!
# Unordered maps

A hash map with unique keys and an unspecified iteration order, as a Mathlib `AList`: the entry
list is the order in which the map happens to be iterated. `Reorder` relates two maps that hold the
same entries in different orders. The lemmas are those that `AList` lacks for in-place updates
(`replace`), together with the behaviour of the point operations under `Reorder`.
-/

namespace Lib

/-- A map whose entry list is its current iteration order. -/
abbrev UnorderedMap (κ υ : Type) := AList (fun _ : κ => υ)

namespace UnorderedMap
variable {κ υ : Type}

/-- The same entries, iterated in another order. -/
def Reorder (m m' : UnorderedMap κ υ) : Prop := m.entries.Perm m'.entries

/-- A reordered map has the same keys. -/
lemma Reorder.mem {m m' : UnorderedMap κ υ} {k : κ} (r : Reorder m m') : k ∈ m' ↔ k ∈ m :=
  (AList.mem_of_perm r).symm

/-- Any entry may come first. -/
lemma exists_reorder_head {m : UnorderedMap κ υ} {e : Σ _ : κ, υ} (h : e ∈ m.entries) :
    ∃ (m' : UnorderedMap κ υ) (l : List (Σ _ : κ, υ)), Reorder m m' ∧ m'.entries = e :: l := by
  obtain ⟨a, b, hl⟩ := List.append_of_mem h
  have hp : m.entries.Perm (e :: (a ++ b)) := by
    rw [hl]
    exact List.perm_middle
  exact ⟨⟨e :: (a ++ b), (List.perm_nodupKeys hp).mp m.nodupKeys⟩, a ++ b, hp, rfl⟩

variable [DecidableEq κ]

/-- And the same values. -/
lemma Reorder.lookup {m m' : UnorderedMap κ υ} (r : Reorder m m') (k : κ) :
    m'.lookup k = m.lookup k :=
  (AList.perm_lookup r).symm

/-- Insertion of a new entry at a place in the order; the entry of a key that is there is changed where
it is. -/
def insertAt (m : UnorderedMap κ υ) (i : Nat) (k : κ) (v : υ) : UnorderedMap κ υ :=
  if h : k ∈ m then m.replace k v
  else ⟨m.entries.take i ++ ⟨k, v⟩ :: m.entries.drop i, by
    refine (List.perm_nodupKeys List.perm_middle).mpr (List.nodupKeys_cons.mpr ?_)
    rw [List.take_append_drop]
    exact ⟨h, m.nodupKeys⟩⟩

/-- Insertion that leaves an existing entry alone. -/
def emplace (m : UnorderedMap κ υ) (k : κ) (v : υ) : UnorderedMap κ υ :=
  if k ∈ m then m else m.insert k v

/-- What is looked up is there. -/
lemma mem_of_lookup {m : UnorderedMap κ υ} {k : κ} {v : υ} (e : m.lookup k = some v) : k ∈ m := by
  rw [← AList.lookup_isSome, e]
  rfl

/-- What is there is looked up. -/
lemma exists_lookup {m : UnorderedMap κ υ} {k : κ} (h : k ∈ m) : ∃ v, m.lookup k = some v :=
  Option.isSome_iff_exists.mp (AList.lookup_isSome.mpr h)

/-- The entries are what can be looked up. -/
lemma mem_entries_iff {m : UnorderedMap κ υ} {k : κ} {v : υ} :
    (⟨k, v⟩ : Σ _ : κ, υ) ∈ m.entries ↔ m.lookup k = some v :=
  (AList.mem_lookup_iff (s := m)).symm

/-- The keys after `emplace`. -/
lemma mem_emplace {m : UnorderedMap κ υ} {k k' : κ} {v : υ} :
    k' ∈ emplace m k v ↔ k' = k ∨ k' ∈ m := by
  rw [emplace]
  split
  · rename_i h
    exact ⟨.inr, fun h' => h'.elim (fun e => e ▸ h) id⟩
  · exact AList.mem_insert _

/-- Emplacing a key that is there changes nothing. -/
lemma lookup_emplace_of_mem {m : UnorderedMap κ υ} {k k' : κ} {v : υ} (h : k ∈ m) :
    (emplace m k v).lookup k' = m.lookup k' := by
  rw [emplace, if_pos h]

/-- Emplacing a new key enters its value. -/
lemma lookup_emplace {m : UnorderedMap κ υ} {k : κ} {v : υ} (h : k ∉ m) :
    (emplace m k v).lookup k = some v := by
  rw [emplace, if_neg h, AList.lookup_insert]

/-- The other keys after `emplace`. -/
lemma lookup_emplace_ne {m : UnorderedMap κ υ} {k k' : κ} {v : υ} (h : k' ≠ k) :
    (emplace m k v).lookup k' = m.lookup k' := by
  rw [emplace]
  split
  · rfl
  · exact AList.lookup_insert_ne h

/-- An emplaced entry is the new one or was there before. -/
lemma lookup_emplace_elim {m : UnorderedMap κ υ} {k k' : κ} {v w : υ}
    (e : (emplace m k v).lookup k' = some w) : m.lookup k' = some w ∨ (k' = k ∧ w = v) := by
  by_cases h : k' = k
  · subst h
    by_cases hm : k' ∈ m
    · exact .inl (by rwa [lookup_emplace_of_mem hm] at e)
    · rw [lookup_emplace hm] at e
      exact .inr ⟨rfl, (Option.some.inj e).symm⟩
  · exact .inl (by rwa [lookup_emplace_ne h] at e)

/-- An entry after an insertion is the new one or was there before. -/
lemma lookup_insert_elim {m : UnorderedMap κ υ} {k k' : κ} {v w : υ}
    (e : (m.insert k v).lookup k' = some w) : (k' = k ∧ w = v) ∨ m.lookup k' = some w := by
  by_cases h : k' = k
  · subst h
    rw [AList.lookup_insert] at e
    exact .inl ⟨rfl, (Option.some.inj e).symm⟩
  · exact .inr (by rwa [AList.lookup_insert_ne h] at e)

/-- An entry left by an erasure was there before. -/
lemma lookup_erase_elim {m : UnorderedMap κ υ} {k k' : κ} {w : υ}
    (e : (m.erase k).lookup k' = some w) : m.lookup k' = some w := by
  by_cases h : k' = k
  · subst h
    rw [AList.lookup_erase] at e
    cases e
  · rwa [AList.lookup_erase_ne h] at e

/-- Insertion and erasure on the map as a partial function. -/
lemma lookup_insert_eq (m : UnorderedMap κ υ) (k : κ) (v : υ) :
    (m.insert k v).lookup = Function.update m.lookup k (some v) := by
  funext k'
  by_cases h : k' = k
  · subst h
    rw [AList.lookup_insert, Function.update_self]
  · rw [AList.lookup_insert_ne h, Function.update_of_ne h]

/-- Every lookup after `erase`. -/
lemma lookup_erase_eq (m : UnorderedMap κ υ) (k : κ) :
    (m.erase k).lookup = Function.update m.lookup k none := by
  funext k'
  by_cases h : k' = k
  · subst h
    rw [AList.lookup_erase, Function.update_self]
  · rw [AList.lookup_erase_ne h, Function.update_of_ne h]

/-- Every lookup after `emplace`. -/
lemma lookup_emplace_eq (m : UnorderedMap κ υ) (k : κ) (v : υ) :
    (emplace m k v).lookup =
      if (m.lookup k).isSome then m.lookup else Function.update m.lookup k (some v) := by
  rw [emplace]
  split
  · rename_i h
    rw [if_pos (AList.lookup_isSome.mpr h)]
  · rename_i h
    rw [if_neg (mt AList.lookup_isSome.mp h)]
    exact lookup_insert_eq ..

/-- Replacing the first entry. -/
lemma kreplace_cons_eq {k : κ} {v w : υ} {l : List (Σ _ : κ, υ)} :
    List.kreplace k v (⟨k, w⟩ :: l) = ⟨k, v⟩ :: l :=
  List.lookmap_cons_some _ _ (by simp)

/-- Replacing further on. -/
lemma kreplace_cons_ne {k k' : κ} {v w : υ} {l : List (Σ _ : κ, υ)} (h : k ≠ k') :
    List.kreplace k v (⟨k', w⟩ :: l) = ⟨k', w⟩ :: List.kreplace k v l :=
  List.lookmap_cons_none _ _ (by simp [h])

/-- The replaced value. -/
lemma lookup_replace {m : UnorderedMap κ υ} {k : κ} {v : υ} (h : k ∈ m) :
    (m.replace k v).lookup k = some v := by
  obtain ⟨l, nd⟩ := m
  change List.dlookup k (List.kreplace k v l) = some v
  have hk : k ∈ l.keys := h
  clear nd h
  induction l with
  | nil => cases hk
  | cons e l ih =>
    obtain ⟨k', w⟩ := e
    by_cases h' : k = k'
    · subst h'
      rw [kreplace_cons_eq, List.dlookup_cons_eq]
    · rw [kreplace_cons_ne h', List.dlookup_cons_ne _ _ h']
      exact ih ((List.mem_cons.mp hk).resolve_left h')

/-- The other keys after `replace`. -/
lemma lookup_replace_ne {m : UnorderedMap κ υ} {k k' : κ} {v : υ} (h : k' ≠ k) :
    (m.replace k v).lookup k' = m.lookup k' := by
  obtain ⟨l, nd⟩ := m
  change List.dlookup k' (List.kreplace k v l) = List.dlookup k' l
  clear nd
  induction l with
  | nil => rfl
  | cons e l ih =>
    obtain ⟨a, w⟩ := e
    by_cases ha : k = a
    · subst ha
      rw [kreplace_cons_eq, List.dlookup_cons_ne _ _ h, List.dlookup_cons_ne _ _ h]
    · rw [kreplace_cons_ne ha]
      by_cases ha' : k' = a
      · subst ha'
        rw [List.dlookup_cons_eq, List.dlookup_cons_eq]
      · rw [List.dlookup_cons_ne _ _ ha', List.dlookup_cons_ne _ _ ha', ih]

/-- The place of a new entry is one of the order only. -/
lemma reorder_insertAt {m : UnorderedMap κ υ} {i : Nat} {k : κ} {v : υ} (h : k ∉ m) :
    Reorder (m.insert k v) (m.insertAt i k v) := by
  unfold Reorder insertAt
  rw [AList.entries_insert_of_notMem h, dif_neg h]
  refine .trans ?_ List.perm_middle.symm
  rw [List.take_append_drop]

/-- An insertion at a place is found. -/
lemma lookup_insertAt_self {m : UnorderedMap κ υ} {i : Nat} {k : κ} {v : υ} :
    (m.insertAt i k v).lookup k = some v := by
  by_cases h : k ∈ m
  · rw [insertAt, dif_pos h, lookup_replace h]
  · rw [(reorder_insertAt h).lookup, AList.lookup_insert]

/-- An insertion at a place leaves the other entries. -/
lemma lookup_insertAt_ne {m : UnorderedMap κ υ} {i : Nat} {k k' : κ} {v : υ} (h : k' ≠ k) :
    (m.insertAt i k v).lookup k' = m.lookup k' := by
  by_cases hm : k ∈ m
  · rw [insertAt, dif_pos hm, lookup_replace_ne h]
  · rw [(reorder_insertAt hm).lookup, AList.lookup_insert_ne h]

end UnorderedMap
end Lib
