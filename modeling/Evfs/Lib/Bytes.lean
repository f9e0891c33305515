import Mathlib.Data.Nat.Digits.Defs

/-!
# Buffers of bytes

A buffer is a list. An access outside of it is an error of the caller's choice, a part of it lies
between two others, and a number is stored in some bytes with the least one first. Two numbers may
share a byte, each in its own bits.
-/

namespace Lib
namespace Bytes

section access
variable {α ε : Type}

/-- The element at an offset. -/
def load (e : ε) (buf : List α) (offs : Nat) : Except ε α :=
  if h : offs < buf.length then .ok buf[offs] else .error e

/-- A new element at an offset. -/
def store (e : ε) (buf : List α) (offs : Nat) (b : α) : Except ε (List α) :=
  if offs < buf.length then .ok (buf.set offs b) else .error e

/-- The elements from an offset on replaced by those given. -/
def patch (buf : List α) (offs : Nat) (bs : List α) : List α :=
  buf.take offs ++ bs ++ buf.drop (offs + bs.length)

variable {e : ε} {buf pre part post bs : List α} {offs k : Nat} {b : α}

/-- A load inside the buffer. -/
lemma load_of_lt (h : offs < buf.length) : load e buf offs = .ok buf[offs] := by
  rw [load, dif_pos h]

/-- A store inside the buffer. -/
lemma store_of_lt (h : offs < buf.length) : store e buf offs b = .ok (buf.set offs b) := by
  rw [store, if_pos h]

/-- A store outside it. -/
lemma store_of_le (h : buf.length ≤ offs) : store e buf offs b = .error e := by
  rw [store, if_neg (not_lt.mpr h)]

/-- A store into a part of the buffer leaves the rest alone. -/
lemma store_part (h : k < part.length) :
    store e (pre ++ part ++ post) (pre.length + k) b = .ok (pre ++ part.set k b ++ post) := by
  have hlt : pre.length + k < (pre ++ part ++ post).length := by
    rw [List.length_append, List.length_append]
    omega
  rw [store_of_lt hlt, List.append_assoc, List.append_assoc, List.set_append_right _ _ (by omega),
    Nat.add_sub_cancel_left, List.set_append_left _ _ h]

/-- An element of a part of the buffer. -/
lemma getElem?_part (h : k < part.length) :
    (pre ++ part ++ post)[pre.length + k]? = part[k]? := by
  rw [List.append_assoc, List.getElem?_append_right (Nat.le_add_right _ _), Nat.add_sub_cancel_left]
  exact List.getElem?_append_left h

/-- A patch inside the buffer keeps its length. -/
lemma length_patch (h : offs + bs.length ≤ buf.length) : (patch buf offs bs).length = buf.length := by
  rw [patch, List.length_append, List.length_append, List.length_take, List.length_drop]
  omega

/-- What was written is found from the offset on, and nothing else changes. -/
lemma getElem?_patch (h : offs ≤ buf.length) : (patch buf offs bs)[k]? =
    if offs ≤ k ∧ k < offs + bs.length then bs[k - offs]? else buf[k]? := by
  have hlen : (buf.take offs).length = offs := List.length_take_of_le h
  rw [patch, List.append_assoc]
  split
  · rename_i hk
    rw [List.getElem?_append_right (by omega), hlen, List.getElem?_append_left (by omega)]
  · rename_i hk
    by_cases hk' : k < offs
    · rw [List.getElem?_append_left (by omega), List.getElem?_take_of_lt hk']
    · rw [List.getElem?_append_right (by omega), List.getElem?_append_right (by omega), hlen,
        List.getElem?_drop]
      congr 1
      omega

/-- What was written is found from the offset on. -/
lemma getElem?_patch_inside (h : offs + bs.length ≤ buf.length) (hk : k < bs.length) :
    (patch buf offs bs)[offs + k]? = bs[k]? := by
  rw [getElem?_patch (by omega), if_pos (by omega), Nat.add_sub_cancel_left]

/-- Nothing else changes. -/
lemma getElem?_patch_outside (h : offs + bs.length ≤ buf.length)
    (hk : k < offs ∨ offs + bs.length ≤ k) : (patch buf offs bs)[k]? = buf[k]? := by
  rw [getElem?_patch (by omega), if_neg (by omega)]

end access

section numbers

/-- The number stored in some bytes, the least one first. -/
def ofLe (bs : List UInt8) : Nat := Nat.ofDigits 256 (bs.map UInt8.toNat)

/-- A number stored in `w` bytes, what does not fit dropped. -/
def toLe : (w n : Nat) → List UInt8
  | 0, _ => []
  | w + 1, n => UInt8.ofNat n :: toLe w (n / 256)

/-- A word of `w` bytes. -/
lemma length_toLe (w n : Nat) : (toLe w n).length = w := by
  induction w generalizing n with
  | zero => rfl
  | succ w ih => rw [toLe, List.length_cons, ih]

/-- The lowest byte comes first. -/
lemma ofLe_cons (b : UInt8) (bs : List UInt8) : ofLe (b :: bs) = b.toNat + 256 * ofLe bs :=
  Nat.ofDigits_cons

/-- What is read of a stored number: its remainder. -/
lemma ofLe_toLe (w n : Nat) : ofLe (toLe w n) = n % 256 ^ w := by
  induction w generalizing n with
  | zero => exact (Nat.mod_one n).symm
  | succ w ih =>
    have h : (UInt8.ofNat n).toNat = n % 256 := UInt8.toNat_ofNat'
    rw [toLe, ofLe_cons, ih, h, pow_succ', Nat.mod_mul]

end numbers

section fields
variable {b k : Nat}

/-- A mask keeps the bits of one field. -/
lemma and_mask (x k n : Nat) : x &&& (2 ^ n - 1) * 2 ^ k = x / 2 ^ k % 2 ^ n * 2 ^ k := by
  rw [← Nat.and_two_pow_sub_one_eq_mod, ← Nat.shiftRight_eq_div_pow, ← Nat.shiftLeft_eq,
    ← Nat.shiftLeft_eq, Nat.shiftLeft_and_distrib]
  apply Nat.eq_of_testBit_eq
  intro i
  simp only [Nat.testBit_and, Nat.testBit_shiftLeft, Nat.testBit_shiftRight]
  cases Nat.lt_or_ge i k with
  | inl h => simp only [ge_iff_le, not_le.mpr h, decide_false, Bool.false_and, Bool.and_false]
  | inr h => rw [Nat.add_sub_cancel' h, decide_eq_true h, Bool.true_and, Bool.true_and]

/-- Fields that lie side by side are joined. -/
lemma or_low (a : Nat) (h : b < 2 ^ k) : a * 2 ^ k ||| b = a * 2 ^ k + b := by
  rw [Nat.mul_comm]
  exact (Nat.two_pow_add_eq_or_of_lt h a).symm

/-- They have no bit in common. -/
lemma and_low (a : Nat) (h : b < 2 ^ k) : a * 2 ^ k &&& b = 0 := by
  apply Nat.eq_of_testBit_eq
  intro i
  rw [Nat.testBit_and, Nat.testBit_mul_two_pow, Nat.zero_testBit]
  cases Nat.lt_or_ge i k with
  | inl hi => rw [decide_eq_false (not_le.mpr hi), Bool.false_and, Bool.false_and]
  | inr hi =>
    have hb : b < 2 ^ i := lt_of_lt_of_le h (Nat.pow_le_pow_right (by decide) hi)
    rw [Nat.testBit_lt_two_pow hb, Bool.and_false]

end fields

end Bytes
end Lib
