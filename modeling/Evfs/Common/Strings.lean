import Evfs.Common.Defs
import Mathlib.Data.List.TakeWhile

/-!
# Numbers in strings

`std::to_string` and `std::stoi`, which partition names go through. `stoi` skips white space, takes
an optional sign and the longest run of digits, and throws when there is no digit or the value does
not fit an `int`.
-/

namespace Evfs

/-- Decimal digits (`std::to_string`). -/
def toString' (n : Nat) : Str := Nat.toDigits 10 n

/-- White space of the "C" locale (`isspace`). -/
def isSpace (c : Char) : Bool :=
  c = ' ' ∨ c = '\t' ∨ c = '\n' ∨ c = '\r' ∨ c.toNat = 11 ∨ c.toNat = 12

/-- An optional sign and what follows it. -/
def splitSign : Str → Int × Str
  | '-' :: s => (-1, s)
  | '+' :: s => (1, s)
  | s => (1, s)

/-- The `int` a string starts with (`std::stoi`). -/
def stoi (s : Str) : Except Fault Int :=
  let (sign, t) := splitSign (s.dropWhile isSpace)
  let ds := t.takeWhile Char.isDigit
  let v := sign * Nat.ofDigitChars 10 ds 0
  if ds = [] ∨ v < -2 ^ 31 ∨ 2 ^ 31 ≤ v then .error .stoi else .ok v

/-- The digits of a number are digits. -/
lemma isDigit_of_mem_toDigits {n : Nat} {c : Char} (h : c ∈ Nat.toDigits 10 n) :
    c.isDigit = true :=
  Nat.isDigit_of_mem_toDigits (by decide) (by decide) h

/-- Digits lie between `0` and `9`. -/
lemma toNat_of_isDigit {c : Char} (h : c.isDigit = true) : 48 ≤ c.toNat ∧ c.toNat ≤ 57 := by
  have h' : c.val ≥ '0'.val ∧ c.val ≤ '9'.val := by
    simpa only [Char.isDigit, Bool.and_eq_true, decide_eq_true_eq] using h
  exact ⟨UInt32.le_iff_toNat_le.mp h'.1, UInt32.le_iff_toNat_le.mp h'.2⟩

/-- A string that starts with a digit has neither leading space nor sign. -/
lemma splitSign_dropWhile_digit {c : Char} {s : Str} (h : c.isDigit = true) :
    splitSign ((c :: s).dropWhile isSpace) = (1, c :: s) := by
  have hc := toNat_of_isDigit h
  have hne : ∀ d : Char, d.toNat < 48 → c ≠ d := by
    rintro d hd rfl
    omega
  have hs : isSpace c = false := by
    simp [isSpace, hne ' ' (by decide), hne '\t' (by decide), hne '\n' (by decide),
      hne '\r' (by decide)]
    omega
  rw [List.dropWhile_cons, hs]
  unfold splitSign
  split
  · rename_i e
    exact absurd (List.cons.inj e).1 (hne '-' (by decide))
  · rename_i e
    exact absurd (List.cons.inj e).1 (hne '+' (by decide))
  · rfl

/-- `stoi` reads a number back. -/
theorem stoi_toString {n : Nat} (h : n < 2 ^ 31) : stoi (toString' n) = .ok n := by
  have hd : ∀ c ∈ Nat.toDigits 10 n, c.isDigit = true := fun _ => isDigit_of_mem_toDigits
  obtain ⟨c, s, e⟩ := List.exists_cons_of_ne_nil (Nat.toDigits_ne_nil (b := 10) (n := n))
  have ht : (Nat.toDigits 10 n).takeWhile Char.isDigit = Nat.toDigits 10 n :=
    List.takeWhile_eq_self_iff.mpr hd
  have hc : splitSign ((Nat.toDigits 10 n).dropWhile isSpace) = (1, Nat.toDigits 10 n) := by
    rw [e]
    exact splitSign_dropWhile_digit (hd c (by rw [e]; exact List.mem_cons_self))
  simp only [stoi, toString', hc, ht, Nat.ofDigitChars_ten_toDigits]
  rw [if_neg]
  · simp
  · rw [e]
    simp
    omega

end Evfs
