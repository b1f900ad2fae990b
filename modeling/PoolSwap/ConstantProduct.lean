import PoolSwap.Fault

/-! The constant-product rule: the fee comes off the input first, the rest moves the reserves along
a curve of constant product, and every division truncates in favour of the pool. -/
namespace PoolSwap.ConstantProduct

def bpsDenominator : Int := 10000

def defaultFeeNumerator : Int := 25
def defaultFeeDenominator : Int := 10000

def fee (amountIn feeNumerator feeDenominator : Int) : Checked Int :=
  Checked.floorDiv (amountIn * feeNumerator) feeDenominator

/-- What an input buys. A pool whose input side is empty even after the input gives nothing. -/
def output (amountIn reserveIn reserveOut feeNumerator feeDenominator : Int) : Checked Int := do
  let net := amountIn - (← fee amountIn feeNumerator feeDenominator)
  let grown := reserveIn + net
  if grown = 0 then pure 0 else Checked.floorDiv (reserveOut * net) grown

/-- Steps an amount down while one unit less still leaves `net` after the fee. -/
def leastSufficient (net feeNumerator feeDenominator : Int) (amount : Int) : Int :=
  let less := amount - 1
  if _h : 1 < amount ∧ net ≤ less - floorDiv (less * feeNumerator) feeDenominator then
    leastSufficient net feeNumerator feeDenominator less
  else amount
termination_by amount.toNat
decreasing_by omega

/-- The smallest input that buys an amount. A fee of the whole input or more leaves nothing, so no
input is enough. -/
def input (amountOut reserveIn reserveOut feeNumerator feeDenominator : Int) : Checked Int := do
  if amountOut ≤ 0 then pure 0
  else if reserveOut ≤ amountOut then
    .error (.argument (.outputNotBelowReserve amountOut reserveOut))
  else
    let net ← Checked.ceilDiv (reserveIn * amountOut) (reserveOut - amountOut)
    let gross ← Checked.ceilDiv (net * feeDenominator) (feeDenominator - feeNumerator)
    let kept ← fee gross feeNumerator feeDenominator
    if gross - kept < net then .error (.breach .noValue)
    else pure (leastSufficient net feeNumerator feeDenominator gross)

/-- The shortfall of an output against the price before the trade, in basis points rounded down and
never negative. -/
def impactBps (amountIn amountOut reserveIn reserveOut : Int) : Int :=
  if reserveIn = 0 ∨ reserveOut = 0 ∨ amountIn = 0 then 0
  else
    let ideal := amountIn * reserveOut
    max 0 (floorDiv ((ideal - amountOut * reserveIn) * bpsDenominator) ideal)

/-- The impact of an input as a fraction, one hundredth for a percent. -/
def impact (amountIn reserveIn reserveOut feeNumerator feeDenominator : Int) : Checked Float := do
  let amountOut ← output amountIn reserveIn reserveOut feeNumerator feeDenominator
  let bps := impactBps amountIn amountOut reserveIn reserveOut
  Checked.ofOption .tooLarge (Binary64.nearestInt? bps bpsDenominator.toNat)

end PoolSwap.ConstantProduct
