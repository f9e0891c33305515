import Mathlib.Algebra.BigOperators.Group.List.Basic

/-!
# Mixed radix numbers

Digits with a base each, the least one first, as the parts of an address or of a date are.
-/

namespace Lib
namespace MixedRadix

/-- The digits of a number, what does not fit dropped. -/
def digits : (bases : List Nat) → Nat → List Nat
  | [], _ => []
  | b :: bases, n => n % b :: digits bases (n / b)

/-- The number with these digits. -/
def value : (bases ds : List Nat) → Nat
  | b :: bases, d :: ds => d + b * value bases ds
  | _, _ => 0

variable {bases : List Nat}

/-- Digits give back a number as far as they go. -/
lemma value_digits (bases : List Nat) (n : Nat) : value bases (digits bases n) = n % bases.prod := by
  induction bases generalizing n with
  | nil => exact (Nat.mod_one n).symm
  | cons b bases ih => rw [digits, value, ih, List.prod_cons, Nat.mod_mul]

end MixedRadix
end Lib
