import PoolSwap.Number.Numeral

/-! Decimal arithmetic with 28 significant digits: results round half to even. -/
namespace PoolSwap

/-- The number `coefficient * 10 ^ exponent`. -/
structure Decimal where
  coefficient : Int
  exponent : Int
deriving Repr, DecidableEq

namespace Decimal

def precision : Nat := 28

/-- The exponents a written decimal may have. -/
def maxExponent : Int := 999999999999999999
def minExponent : Int := -1999999999999999997

/-- The finite decimal a text denotes. Infinities, undefined numbers and exponents out of range
denote none. -/
def ofText? (s : String) : Option Decimal := do
  let cs := ((Blank.strip Blank.isBlank s.toList).filter (· ≠ '_')).map Numeral.asciiDigit
  let (negative, cs) := Numeral.takeSign cs
  let w ← Numeral.unsigned? cs
  let top := if w.coefficient = 0 then w.exponent else w.exponent + digitCount w.coefficient - 1
  if w.exponent < minExponent ∨ maxExponent < top then none
  else some ⟨if negative then -(w.coefficient : Int) else w.coefficient, w.exponent⟩

def ofInt (n : Int) : Decimal := ⟨n, 0⟩

def round (d : Decimal) : Decimal :=
  let excess := digitCount d.coefficient.natAbs - precision
  if excess = 0 then d
  else
    let kept := roundHalfEven d.coefficient.natAbs (Nat.pow 10 excess)
    ⟨if d.coefficient < 0 then -(kept : Int) else kept, d.exponent + excess⟩

def atLeastOne (d : Decimal) : Bool :=
  if d.coefficient ≤ 0 then false
  else if 0 ≤ d.exponent then true
  else decide (0 < d.exponent + digitCount d.coefficient.natAbs)

/-- Whether the number is too close to zero for `1 - d` to differ from one after rounding. -/
def isNegligible (d : Decimal) : Bool :=
  d.coefficient = 0 || d.exponent + digitCount d.coefficient.natAbs < -(precision : Int) - 1

/-- `1 - d` rounded, for a number in `[0, 1)`. -/
def complement (d : Decimal) : Decimal :=
  if d.isNegligible then ⟨1, 0⟩
  else round ⟨Nat.pow 10 (-d.exponent).toNat - d.coefficient, d.exponent⟩

def mul (a b : Decimal) : Decimal := round ⟨a.coefficient * b.coefficient, a.exponent + b.exponent⟩

def floor (d : Decimal) : Int :=
  if 0 ≤ d.exponent then d.coefficient * Nat.pow 10 d.exponent.toNat
  else floorDiv d.coefficient (Nat.pow 10 (-d.exponent).toNat)

end Decimal
end PoolSwap
