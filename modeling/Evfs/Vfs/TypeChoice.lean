import Evfs.Common.Vfs

/-!
# The type chosen by a mount

`mount` takes the type of a partition from the first entry of the factory map whose codes contain the
partition's own, and its factory from the entry of that name. Which entry comes first is for the order
of registration and the iteration order of the map to say, unless only one registration can be meant.
-/

namespace Evfs
open Lib

namespace Pimpl
variable {σ : Type}

/-- A request to register a type. -/
abbrev Registration := FsType × Option Factory

/-- `register_filesystem` for one request after another. -/
def registerAll (regs : List Registration) (s : Pimpl σ) : Pimpl σ :=
  regs.foldl (fun s r => (registerFilesystem r.1 r.2 s).2) s

/-- The type and the factory that `mount` uses for a partition with this code. -/
def selects (factories : UnorderedMap Str Registration) (code : UInt8) : Option Registration :=
  (getFsTypeFromMbrCode factories code).map fun type =>
    (type, (factories.lookup type.name).bind Prod.snd)

/-- The partition behind a name, with its code. -/
def partitionOf (diskMgr : DiskManager) (diskName : Str) :
    Except Fault (Option (PartRef × UInt8)) :=
  match splitDiskName diskName with
  | .error f => .error f
  | .ok (diskn, partn) =>
    match diskMgr.get diskn, partn with
    | some disk, some partn => .ok ((disk.borrowPartition partn).map fun ref =>
        (ref, (disk.partitions.getD ref.index {}).type))
    | _, _ => .ok none

/-- A mount is determined by the partition and by what is selected for its code. -/
lemma mount_eq_selects (B : Backend σ) (name root fstype : Str) (flags : Flags) (s : Pimpl σ) :
    mount B name root fstype flags s = match partitionOf s.diskMgr name with
      | .error f => .error f
      | .ok none => .ok (EINVAL, s)
      | .ok (some (disk, code)) =>
        match selects s.fsFactories code with
        | none => .ok (EINVAL, s)
        | some (_, none) => .error .nullDeref
        | some (type, some factory) =>
          match createFilesystem B factory disk s with
          | .error f => .error f
          | .ok (fs, s) => .ok (mountFs B fs type disk root flags s) := by
  unfold mount fsDiscovery partitionOf selects
  cases splitDiskName name with
  | error f => rfl
  | ok r =>
    obtain ⟨diskn, partn⟩ := r
    cases hd : s.diskMgr.get diskn with
    | none => simp only [hd]
    | some disk =>
      cases partn with
      | none => simp only [hd]
      | some nr =>
        simp only [hd]
        cases disk.borrowPartition nr with
        | none => rfl
        | some ref =>
          simp only [Option.map_some]
          cases getFsTypeFromMbrCode s.fsFactories (disk.partitions.getD ref.index {}).type with
          | none => rfl
          | some type =>
            simp only [Option.map_some]
            cases s.fsFactories.lookup type.name with
            | none => rfl
            | some r =>
              obtain ⟨t, factory⟩ := r
              cases factory with
              | none => rfl
              | some factory => rfl

/-! ## What is registered -/

/-- The first request for a name is kept. -/
lemma lookup_registerAll (regs : List Registration) (s : Pimpl σ) (name : Str) :
    (registerAll regs s).fsFactories.lookup name =
      ((s.fsFactories.lookup name).or (regs.find? fun r => r.1.name = name)) := by
  induction regs generalizing s with
  | nil => exact (Option.or_none).symm
  | cons r regs ih =>
    rw [registerAll, List.foldl_cons, ← registerAll, ih, registerFilesystem]
    by_cases hm : r.1.name ∈ s.fsFactories
    · rw [if_pos hm]
      by_cases hn : r.1.name = name
      · obtain ⟨v, hv⟩ := UnorderedMap.exists_lookup hm
        rw [← hn, hv]
        rfl
      · rw [List.find?_cons_of_neg (by simpa using hn)]
    · rw [if_neg hm]
      by_cases hn : r.1.name = name
      · subst hn
        rw [List.find?_cons_of_pos (by simp), AList.lookup_eq_none.mpr hm, AList.lookup_insert]
        rfl
      · rw [AList.lookup_insert_ne (Ne.symm hn), List.find?_cons_of_neg (by simpa using hn)]

/-- Entries stand under the name of their type. -/
def Named (factories : UnorderedMap Str Registration) : Prop :=
  ∀ name r, factories.lookup name = some r → r.1.name = name

/-- Reordering keeps the names. -/
lemma Named.reorder {m m' : UnorderedMap Str Registration} (h : Named m)
    (p : UnorderedMap.Reorder m m') : Named m' :=
  fun name r hr => h name r (by rwa [p.lookup] at hr)

/-- What is selected is an entry with the code. -/
lemma Named.of_selects {m : UnorderedMap Str Registration} {code : UInt8} {r : Registration}
    (h : Named m) (hs : selects m code = some r) :
    m.lookup r.1.name = some r ∧ code ∈ r.1.codes := by
  rw [selects, getFsTypeFromMbrCode, Option.map_map] at hs
  cases hf : m.entries.find? fun e => e.2.1.codes.contains code with
  | none =>
    rw [hf] at hs
    cases hs
  | some e =>
    obtain ⟨name, r'⟩ := e
    have hl : m.lookup name = some r' :=
      UnorderedMap.mem_entries_iff.mp (List.mem_of_find?_eq_some hf)
    have hn := h name r' hl
    rw [hf, Option.map_some, Function.comp_apply, Option.some_inj] at hs
    subst hn
    simp only [hl, Option.bind_some] at hs
    subst hs
    exact ⟨hl, by simpa using List.find?_some hf⟩

/-- Nothing is selected where no entry has the code. -/
lemma selects_isSome {m : UnorderedMap Str Registration} {code : UInt8} {name : Str}
    {r : Registration} (hl : m.lookup name = some r) (hc : code ∈ r.1.codes) :
    ∃ r', selects m code = some r' := by
  rw [← Option.isSome_iff_exists, selects, getFsTypeFromMbrCode, Option.isSome_map,
    Option.isSome_map, List.find?_isSome]
  exact ⟨⟨name, r⟩, UnorderedMap.mem_entries_iff.mpr hl, by simpa using hc⟩

/-- Of the entries with the code, each one is selected in some order. -/
lemma exists_reorder_selects {m : UnorderedMap Str Registration} {code : UInt8} {r : Registration}
    (hl : m.lookup r.1.name = some r) (hc : code ∈ r.1.codes) :
    ∃ m', UnorderedMap.Reorder m m' ∧ selects m' code = some r := by
  obtain ⟨m', l, hp, he⟩ := UnorderedMap.exists_reorder_head (UnorderedMap.mem_entries_iff.mpr hl)
  refine ⟨m', hp, ?_⟩
  have hl' : m'.lookup r.1.name = some r := by rwa [hp.lookup]
  rw [selects, getFsTypeFromMbrCode, he, List.find?_cons_of_pos (by simpa using hc)]
  simp only [Option.map_some, hl', Option.bind_some]

/-! ## Two orders -/

variable {s : Pimpl σ} {regs : List Registration} {code : UInt8}

/-- The same is selected in whatever order the requests came and the map is iterated. -/
def ChosenAlike (s : Pimpl σ) (regs : List Registration) (code : UInt8) : Prop :=
  ∀ regs₁ regs₂, regs₁.Perm regs → regs₂.Perm regs →
    ∀ m₁ m₂, UnorderedMap.Reorder (registerAll regs₁ s).fsFactories m₁ →
      UnorderedMap.Reorder (registerAll regs₂ s).fsFactories m₂ →
      selects m₁ code = selects m₂ code

/-- The first registration of a name is kept. -/
lemma lookup_registered (h : s.fsFactories = ∅) (name : Str) :
    (registerAll regs s).fsFactories.lookup name = regs.find? fun r => r.1.name = name := by
  rw [lookup_registerAll, h]
  rfl

/-- Everything is registered under its own name. -/
lemma named_registerAll (h : s.fsFactories = ∅) : Named (registerAll regs s).fsFactories := by
  intro name r hr
  rw [lookup_registered h] at hr
  simpa using List.find?_some hr

/-- A request that comes first and has the code may be selected. -/
lemma exists_selects {r : Registration} (h : s.fsFactories = ∅) (hr : r ∈ regs)
    (hc : code ∈ r.1.codes) :
    ∃ regs₁ m₁, regs₁.Perm regs ∧ UnorderedMap.Reorder (registerAll regs₁ s).fsFactories m₁ ∧
      selects m₁ code = some r := by
  obtain ⟨a, b, rfl⟩ := List.append_of_mem hr
  have hl : (registerAll (r :: (a ++ b)) s).fsFactories.lookup r.1.name = some r := by
    rw [lookup_registered h, List.find?_cons_of_pos (by simp)]
  obtain ⟨m₁, hp, hs⟩ := exists_reorder_selects hl hc
  exact ⟨r :: (a ++ b), m₁, List.perm_middle.symm, hp, hs⟩

/-- What is found was registered. -/
lemma mem_of_lookup_registered {name : Str} {r : Registration} (h : s.fsFactories = ∅)
    (hl : (registerAll regs s).fsFactories.lookup name = some r) : r ∈ regs ∧ r.1.name = name := by
  rw [lookup_registered h] at hl
  exact ⟨List.mem_of_find?_eq_some hl, by simpa using List.find?_some hl⟩

/-- A request that is the only one for its name is kept. -/
lemma lookup_only {r : Registration} (h : s.fsFactories = ∅) (hr : r ∈ regs)
    (hone : ∀ q ∈ regs, q.1.name = r.1.name → q = r) :
    (registerAll regs s).fsFactories.lookup r.1.name = some r := by
  have hex : ∃ q ∈ regs, decide (q.1.name = r.1.name) = true := ⟨r, hr, by simp⟩
  obtain ⟨q, hq⟩ := Option.isSome_iff_exists.mp (List.find?_isSome.mpr hex)
  rw [← lookup_registered (s := s) h] at hq
  obtain ⟨hmem, hn⟩ := mem_of_lookup_registered h hq
  rw [hq, hone q hmem hn]

/-- A request with the code is the only one that has it and the only one for its name. -/
def OnlyOne (regs : List Registration) (code : UInt8) (r : Registration) : Prop :=
  ∀ q ∈ regs, code ∈ q.1.codes ∨ q.1.name = r.1.name → q = r

section orders
variable {regs' : List Registration} {m : UnorderedMap Str Registration} {r : Registration}

/-- What is selected is some request with the code. -/
lemma mem_of_selects (h : s.fsFactories = ∅) (p : regs'.Perm regs)
    (hm : UnorderedMap.Reorder (registerAll regs' s).fsFactories m)
    (hs : selects m code = some r) : r ∈ regs ∧ code ∈ r.1.codes := by
  obtain ⟨hl, hc⟩ := ((named_registerAll h).reorder hm).of_selects hs
  rw [hm.lookup] at hl
  exact ⟨p.mem_iff.mp (mem_of_lookup_registered h hl).1, hc⟩

/-- The only request is selected. -/
lemma OnlyOne.selects (h : s.fsFactories = ∅) (p : regs'.Perm regs)
    (hm : UnorderedMap.Reorder (registerAll regs' s).fsFactories m) (hr : r ∈ regs)
    (hc : code ∈ r.1.codes) (hone : OnlyOne regs code r) : selects m code = some r := by
  have hl : (registerAll regs' s).fsFactories.lookup r.1.name = some r :=
    lookup_only h (p.mem_iff.mpr hr) fun q hq hn => hone q (p.mem_iff.mp hq) (.inr hn)
  rw [← hm.lookup] at hl
  obtain ⟨r', hs⟩ := selects_isSome hl hc
  obtain ⟨hmem, hc'⟩ := mem_of_selects h p hm hs
  rw [hs, hone r' hmem (.inl hc')]

/-- Nothing is selected for a code that no request has. -/
lemma selects_eq_none (h : s.fsFactories = ∅) (p : regs'.Perm regs)
    (hm : UnorderedMap.Reorder (registerAll regs' s).fsFactories m)
    (hno : ∀ r ∈ regs, code ∉ r.1.codes) : selects m code = none := by
  rw [Option.eq_none_iff_forall_ne_some]
  intro r hs
  obtain ⟨hmem, hc⟩ := mem_of_selects h p hm hs
  exact hno r hmem hc

/-- Where the order does not matter, a request with the code is the only one. -/
lemma ChosenAlike.onlyOne (ha : ChosenAlike s regs code) (h : s.fsFactories = ∅) (hr : r ∈ regs)
    (hc : code ∈ r.1.codes) : OnlyOne regs code r := by
  intro q hq hor
  obtain ⟨regs₁, m₁, p₁, hm₁, hs₁⟩ := exists_selects h hr hc
  cases hor with
  | inl hcq =>
    obtain ⟨regs₂, m₂, p₂, hm₂, hs₂⟩ := exists_selects h hq hcq
    have hs := ha regs₁ regs₂ p₁ p₂ m₁ m₂ hm₁ hm₂
    rw [hs₁, hs₂, Option.some_inj] at hs
    exact hs.symm
  | inr hn =>
    -- a request for the same name that comes first keeps the other one out
    obtain ⟨a, b, rfl⟩ := List.append_of_mem hq
    have hl : (registerAll (q :: (a ++ b)) s).fsFactories.lookup q.1.name = some q := by
      rw [lookup_registered h, List.find?_cons_of_pos (by simp)]
    have hs := ha regs₁ (q :: (a ++ b)) p₁ List.perm_middle.symm m₁ _ hm₁ (List.Perm.refl _)
    rw [hs₁] at hs
    have hlr := ((named_registerAll h).of_selects hs.symm).1
    rw [← hn, hl, Option.some_inj] at hlr
    exact hlr

end orders

/-- The choice is the same in every order exactly when a request with the code is the only one that
has it and the only one for its name. -/
theorem chosenAlike_iff (h : s.fsFactories = ∅) :
    ChosenAlike s regs code ↔
      ∀ r ∈ regs, code ∈ r.1.codes →
        ∀ q ∈ regs, code ∈ q.1.codes ∨ q.1.name = r.1.name → q = r := by
  constructor
  · intro ha r hr hc
    exact ha.onlyOne h hr hc
  · intro hone regs₁ regs₂ p₁ p₂ m₁ m₂ hm₁ hm₂
    by_cases hex : ∃ r ∈ regs, code ∈ r.1.codes
    · obtain ⟨r, hr, hc⟩ := hex
      have hr' : OnlyOne regs code r := hone r hr hc
      rw [hr'.selects h p₁ hm₁ hr hc, hr'.selects h p₂ hm₂ hr hc]
    · have hno : ∀ r ∈ regs, code ∉ r.1.codes := fun r hr hc => hex ⟨r, hr, hc⟩
      rw [selects_eq_none h p₁ hm₁ hno, selects_eq_none h p₂ hm₂ hno]

/-- A system before any registration. -/
def fresh : Pimpl Unit where
  world := ()

/-- Two types with different names. -/
theorem chosenAlike_distinct :
    ChosenAlike fresh [(FsType.ext4, some .lwext4), (FsType.vfat, none)] 0x83 :=
  (chosenAlike_iff rfl).mpr (by decide)

/-- Of two types for Linux partitions, the one registered first is chosen, or the other one. -/
theorem not_chosenAlike_linux :
    ¬ ChosenAlike fresh [(FsType.ext4, some .lwext4), (FsType.ext3, some .lwext4)] 0x83 := by
  intro h
  have hs := h [(FsType.ext4, some .lwext4), (FsType.ext3, some .lwext4)]
    [(FsType.ext3, some .lwext4), (FsType.ext4, some .lwext4)] (List.Perm.refl _)
    (List.Perm.swap _ _ _) _ _ (List.Perm.refl _) (List.Perm.refl _)
  exact absurd hs (by decide)

end Pimpl
end Evfs
