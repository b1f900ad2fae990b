import PoolSwap.Fault

/-! Prices as callers give them, exact integers or doubles. Integers stay exact until a double joins
them or they are divided; a double too large for its form is a fault only where an integer becomes
one. -/
namespace PoolSwap

inductive Quantity where
  | int (n : Int)
  | float (x : Float)

namespace Quantity

def toFloat : Quantity → Checked Float
  | int n => Checked.ofOption .tooLarge (Binary64.ofInt? n)
  | float x => .ok x

/-- `10 ^ exponent`, an integer unless the exponent is negative. -/
def powerOfTen (exponent : Int) : Quantity :=
  if exponent < 0 then float ((Binary64.nearest? 1 (Nat.pow 10 (-exponent).toNat)).getD 0.0)
  else int (Nat.pow 10 exponent.toNat)

def mul : Quantity → Quantity → Checked Quantity
  | int a, int b => .ok (int (a * b))
  | a, b => do pure (float ((← a.toFloat) * (← b.toFloat)))

/-- The quotient as a double, rounded once. -/
def div : Quantity → Quantity → Checked Float
  | int a, int b => do
    Checked.divisor b
    let a := if b < 0 then -a else a
    Checked.ofOption .tooLarge (Binary64.nearestInt? a b.natAbs)
  | a, b => do
    let x ← a.toFloat
    let y ← b.toFloat
    if y == 0.0 then .error (.breach .divisionByZero) else pure (x / y)

end Quantity

namespace Binary64

def sqrt (x : Float) : Checked Float :=
  if x < 0.0 then .error (.breach .noValue) else .ok x.sqrt

def toInt (x : Float) : Checked Int :=
  if x.isNaN then .error (.breach .noValue)
  else if x.isInf then .error (.breach .tooLarge)
  else .ok (truncate x)

/-- The square as the power function gives it, a fault when it is above the doubles: that of a finite
double from `2 ^ 512` on, in magnitude. -/
def square (x : Float) : Checked Float :=
  if 1535 <<< 52 ≤ magnitude x ∧ magnitude x < 2047 <<< 52 then .error (.breach .tooLarge)
  else .ok (Float.pow x 2.0)

end Binary64
end PoolSwap
