import PoolSwap.ConstantProduct
import PoolSwap.Number.Decimal

/-! The least output a trade accepts, below the quoted one by a fraction in `[0, 1)`. -/
namespace PoolSwap.Slippage

/-- The decimal that the text of a slippage denotes, when it is in `[0, 1)`. -/
def fraction? (slippage : Scalar) : Option Decimal := do
  let s ← Decimal.ofText? slippage.plainText
  if s.coefficient < 0 ∨ s.atLeastOne then none else some s

def floorOf (amount : Int) (s : Decimal) : Int :=
  (Decimal.mul (Decimal.ofInt amount) s.complement).floor

/-- The least accepted output for a slippage given as a fraction. Doubles count as their shortest
text, so that five thousandths are exactly that. -/
def apply (amount : Int) (slippage : Scalar) : Checked Int :=
  match fraction? slippage with
  | some s => .ok (floorOf amount s)
  | none => .error (.invalidSlippage slippage.plainText)

/-- An amount changed by a slippage in basis points: raised and rounded up, or lowered and rounded
down. -/
def applyBps (amount bps : Int) (roundUp : Bool) : Checked Int :=
  let unit := ConstantProduct.bpsDenominator
  if roundUp then .ok (ceilDiv (amount * (unit + bps)) unit)
  else if 0 ≤ bps ∧ bps < unit then .ok (floorDiv (amount * (unit - bps)) unit)
  else do
    let shown ← Checked.ofOption .tooLarge (Binary64.nearestInt? bps unit.toNat)
    .error (.invalidSlippage (Shortest.text Shortest.plain shown))

end PoolSwap.Slippage
