import Mathlib.Tactic

/-! # Integers as doubles

A double has 53 significant bits. `roundDouble` is the double next to a natural number, the even
one where two are equally near, and `shortestDecimal` the number with the fewest significant digits
that is rounded to a given double, which is what is printed for it. Both are for integers far below
the largest double, so there is no overflow.
-/

set_option autoImplicit false

namespace Codec

/-- The nearest double, ties to even. -/
def roundDouble (n : Nat) : Nat :=
  -- the distance of neighbouring doubles
  let unit := 2 ^ (n.log2 - 52)
  let quotient := n / unit
  let rest := n % unit
  if 2 * rest < unit ∨ (2 * rest = unit ∧ quotient % 2 = 0) then quotient * unit
  else (quotient + 1) * unit

/-- The multiple of `10 ^ zeros` that is rounded to `x`, if there is one; of two the nearer one. -/
def decimalOf (x zeros : Nat) : Option Nat :=
  let unit := 10 ^ zeros
  let low := x / unit * unit
  let high := low + unit
  if roundDouble low = x then
    if roundDouble high = x ∧ (high - x < x - low ∨ (high - x = x - low ∧ x / unit % 2 = 1)) then
      some high
    else some low
  else if roundDouble high = x then some high
  else none

/-- The shortest decimal for a double below `10 ^ 21`. -/
def shortestDecimal (x : Nat) : Nat := ((List.range 22).reverse.findSome? (decimalOf x)).getD x

/-- **Integers up to `2 ^ 53` are doubles.** -/
theorem roundDouble_of_le {n : Nat} (h : n ≤ 2 ^ 53) : roundDouble n = n := by
  rcases Nat.eq_or_lt_of_le h with rfl | hlt
  · decide +kernel
  · have hunit : 2 ^ (n.log2 - 52) = 1 := by
      by_cases hzero : n = 0
      · subst hzero
        rfl
      · have hlog : n.log2 < 53 := (Nat.log2_lt hzero).mpr hlt
        rw [Nat.sub_eq_zero_of_le (by omega), Nat.pow_zero]
    unfold roundDouble
    simp only [hunit]
    rw [if_pos (Or.inl (by omega)), Nat.div_one, Nat.mul_one]

/-- The first integer that is no double, and one whose shortest decimal ends with zeros. -/
example : roundDouble 9007199254740993 = 9007199254740992 ∧
    shortestDecimal (roundDouble 9223372036854775807) = 9223372036854776000 := by decide +kernel

end Codec
