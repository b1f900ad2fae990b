/-! Division of unbounded integers with the two roundings the pool programs use. Both are total: a
zero divisor is excluded by the callers, which name it as a fault. -/
namespace PoolSwap

/-- The greatest integer at or below `a / b`. -/
def floorDiv (a b : Int) : Int := Int.fdiv a b

/-- The least integer at or above `a / b`. -/
def ceilDiv (a b : Int) : Int := -Int.fdiv (-a) b

/-- `floorDiv a b` is the greatest `n` with `n * b ≤ a`. -/
theorem le_floorDiv_iff {a b n : Int} (hb : 0 < b) : n ≤ floorDiv a b ↔ n * b ≤ a := by
  rw [floorDiv, Int.fdiv_eq_ediv_of_nonneg a (Int.le_of_lt hb)]
  exact Int.le_ediv_iff_mul_le hb

/-- `ceilDiv a b` is the least `n` with `a ≤ n * b`. -/
theorem ceilDiv_le_iff {a b n : Int} (hb : 0 < b) : ceilDiv a b ≤ n ↔ a ≤ n * b := by
  have h : -n ≤ floorDiv (-a) b ↔ -n * b ≤ -a := le_floorDiv_iff hb
  rw [floorDiv, Int.neg_mul] at h
  rw [ceilDiv]
  omega

/-- The integer nearest to `num / den`, the even one of two equally near. -/
def roundHalfEven (num den : Nat) : Nat :=
  let whole := num / den
  let twice := 2 * (num % den)
  if twice < den then whole
  else if den < twice then whole + 1
  else whole + whole % 2

/-- The number of decimal digits of `n`, one for zero. -/
def digitCount (n : Nat) : Nat := (Nat.toDigits 10 n).length

end PoolSwap
