import Evfs.Tools.WriteRead

/-!
# Writing several entries

The `write_partition_entry` of an array reads, changes and writes sector 0 once for each entry and
stops at the first error. What it wrote before stays.
-/

namespace Evfs
namespace Fdisk

section inOrder
variable {δ : Type} {dev : Storage δ} {d d' : δ} {entries : List PartitionConf} {e : ErrorCode}

/-- These entries have been written, one after another. -/
inductive Written (dev : Storage δ) : δ → List PartitionConf → δ → Prop where
  | nil {d : δ} : Written dev d [] d
  | cons {d d₁ d' : δ} {entry : PartitionConf} {entries : List PartitionConf} :
    writePartitionEntry dev entry d = .ok (0, d₁) →
    Written dev d₁ entries d' →
    Written dev d (entry :: entries) d'

/-- Sector 0 with some entries written into it. -/
def withEntries (entries : List PartitionConf) (sector : List UInt8) : List UInt8 :=
  entries.foldl (fun sector entry => withEntry entry sector) sector

/-- The next entry is written after a success. -/
lemma writeInOrder_cons (entry : PartitionConf) :
    writeInOrder dev (entry :: entries) d = match writePartitionEntry dev entry d with
      | .error f => .error f
      | .ok (e, d₁) => if e = 0 then writeInOrder dev entries d₁ else .ok (e, d₁) := by
  rw [writeInOrder]
  cases writePartitionEntry dev entry d with
  | error f => rfl
  | ok r => rfl

/-- A run that returns has written a prefix of the entries, and then all of them or none more. -/
lemma writeInOrder_returns (h : writeInOrder dev entries d = .ok (e, d')) :
    ∃ k d₁, k ≤ entries.length ∧ Written dev d (entries.take k) d₁ ∧
      (k = entries.length → e = 0 ∧ d' = d₁) ∧
      ∀ entry, entries[k]? = some entry →
        e ≠ 0 ∧ writePartitionEntry dev entry d₁ = .ok (e, d') := by
  induction entries generalizing d with
  | nil =>
    cases h
    exact ⟨0, d', le_refl _, .nil, fun _ => ⟨rfl, rfl⟩, nofun⟩
  | cons entry entries ih =>
    rw [writeInOrder_cons] at h
    cases hw : writePartitionEntry dev entry d with
    | error f =>
      rw [hw] at h
      cases h
    | ok r =>
      obtain ⟨e₁, d₁⟩ := r
      rw [hw] at h
      simp only at h
      split at h
      · rename_i he
        subst he
        obtain ⟨k, d₂, hk, hwritten, hall, hstop⟩ := ih h
        refine ⟨k + 1, d₂, Nat.succ_le_succ hk, .cons hw hwritten, ?_, hstop⟩
        exact fun hlen => hall (Nat.succ.inj hlen)
      · rename_i he
        cases h
        refine ⟨0, d, Nat.zero_le _, .nil, nofun, ?_⟩
        intro entry' h'
        cases h'
        exact ⟨he, hw⟩

/-- What has been written is in sector 0, and nothing else has changed. -/
lemma Written.sectors (h : Written dev d entries d') :
    dev.sectors d' =
      Function.update (dev.sectors d) 0 (withEntries entries (dev.sectors d 0)) := by
  induction h with
  | nil => exact (Function.update_eq_self 0 _).symm
  | cons hw _ ih =>
    obtain ⟨hne, -⟩ | ⟨-, -, -, -, hd⟩ := writePartitionEntry_effect hw
    · exact absurd rfl hne
    · rw [ih, hd, Function.update_self, Function.update_idem]
      rfl

/-- The array is written in order up to the first error: what comes before it is in sector 0, and the
call succeeds exactly when nothing is left. -/
theorem writePartitionEntries_inOrder {entries : Vector PartitionConf 4}
    (h : writePartitionEntries dev entries d = .ok (e, d')) :
    ∃ k ≤ 4, ∃ d₁, Written dev d (entries.toList.take k) d₁ ∧ (e = 0 ↔ k = 4) ∧
      (∀ entry, entries.toList[k]? = some entry →
        writePartitionEntry dev entry d₁ = .ok (e, d')) ∧
      dev.sectors d' = Function.update (dev.sectors d) 0
        (withEntries (entries.toList.take k) (dev.sectors d 0)) := by
  have hlen : entries.toList.length = 4 := entries.length_toList
  obtain ⟨k, d₁, hk, hwritten, hall, hstop⟩ := writeInOrder_returns h
  rw [hlen] at hk hall
  refine ⟨k, hk, d₁, hwritten, ?_, fun entry he => (hstop entry he).2, ?_⟩
  · constructor
    · intro he
      by_contra hne
      have hlt : k < entries.toList.length := by omega
      exact (hstop _ (List.getElem?_eq_getElem hlt)).1 he
    · exact fun h4 => (hall h4).1
  · rw [← hwritten.sectors]
    by_cases h4 : k = 4
    · rw [(hall h4).2]
    · -- the entry that failed has changed nothing
      have hlt : k < entries.toList.length := by omega
      obtain ⟨he, hw⟩ := hstop _ (List.getElem?_eq_getElem hlt)
      obtain ⟨-, hd⟩ | ⟨h0, -⟩ := writePartitionEntry_effect hw
      · exact hd
      · exact absurd h0 he

end inOrder

/-- The second entry has no sectors. -/
def secondEmpty : Vector PartitionConf 4 :=
  #v[⟨0, 1, 10, 0x83, false⟩, ⟨1, 11, 0, 0x83, false⟩, ⟨2, 11, 10, 0x83, false⟩,
    ⟨3, 21, 10, 0x83, false⟩]

/-- A list with an empty entry. -/
theorem writePartitionEntries_secondEmpty :
    ∃ e d', writePartitionEntries (Storage.ram 512 128) secondEmpty blankDisk = .ok (e, d') ∧
      ∃ k ≤ 4, ∃ d₁, Written (Storage.ram 512 128) blankDisk (secondEmpty.toList.take k) d₁ ∧
        (e = 0 ↔ k = 4) ∧
        (∀ entry, secondEmpty.toList[k]? = some entry →
          writePartitionEntry (Storage.ram 512 128) entry d₁ = .ok (e, d')) ∧
        (Storage.ram 512 128).sectors d' =
          Function.update ((Storage.ram 512 128).sectors blankDisk) 0
            (withEntries (secondEmpty.toList.take k)
              ((Storage.ram 512 128).sectors blankDisk 0)) := by
  have hmap : (writePartitionEntries (Storage.ram 512 128) secondEmpty blankDisk).map Prod.fst =
      .ok EINVAL := by decide +kernel
  cases h : writePartitionEntries (Storage.ram 512 128) secondEmpty blankDisk with
  | error f =>
    rw [h] at hmap
    cases hmap
  | ok r => exact ⟨r.1, r.2, rfl, writePartitionEntries_inOrder h⟩

/-- The invalid second entry is refused, the first one stays written. -/
theorem writePartitionEntries_not_allOrNothing :
    (writePartitionEntries (Storage.ram 512 128) secondEmpty blankDisk).map (fun r =>
        (r.1, tableOf ((Storage.ram 512 128).sectors r.2 0))) =
      .ok ( EINVAL, [⟨0x83, false, 1, 10⟩, ⟨0, false, 0, 0⟩, ⟨0, false, 0, 0⟩, ⟨0, false, 0, 0⟩]) ∧
      tableOf ((Storage.ram 512 128).sectors blankDisk 0) =
        [⟨0, false, 0, 0⟩, ⟨0, false, 0, 0⟩, ⟨0, false, 0, 0⟩, ⟨0, false, 0, 0⟩] := by
  exact ⟨by decide +kernel, by decide +kernel⟩

end Fdisk
end Evfs
