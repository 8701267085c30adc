/-!
# Rounding a quotient

Every decimal text of this library is a quotient of two natural numbers rounded to a whole
number of units. There is one rule: to the nearest, a half to the even neighbour.

## Main statements

* `roundDiv_le`, `le_roundDiv` — the result is within half a unit of the quotient
* `roundDiv_even` — a half goes to the even neighbour
-/

namespace Fluxion.Decimal

/-- `num / den` to the nearest whole number, a half to the even neighbour. -/
def roundDiv (num den : Nat) : Nat :=
  if den < 2 * (num % den) ∨ (2 * (num % den) = den ∧ num / den % 2 = 1) then num / den + 1
  else num / den

variable {num den : Nat}

theorem roundDiv_le : 2 * (roundDiv num den * den) ≤ 2 * num + den := by
  have hq : num / den * den + num % den = num := by
    rw [Nat.mul_comm]; exact Nat.div_add_mod num den
  unfold roundDiv
  split
  · rw [Nat.add_mul]; omega
  · omega

theorem le_roundDiv (h : 0 < den) : 2 * num ≤ 2 * (roundDiv num den * den) + den := by
  have hq : num / den * den + num % den = num := by
    rw [Nat.mul_comm]; exact Nat.div_add_mod num den
  have hr : num % den < den := Nat.mod_lt num h
  unfold roundDiv
  split
  · rw [Nat.add_mul]; omega
  · omega

theorem roundDiv_even (h : 2 * (num % den) = den) : roundDiv num den % 2 = 0 := by
  unfold roundDiv
  split <;> omega

/-- A whole quotient is left alone. -/
theorem roundDiv_mul_self (h : 0 < den) (n : Nat) : roundDiv (n * den) den = n := by
  simp [roundDiv, Nat.mul_div_cancel n h]
  omega

end Fluxion.Decimal
