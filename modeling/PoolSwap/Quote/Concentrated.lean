import PoolSwap.Quote
import PoolSwap.Quote.Walk

/-! Quotes of concentrated pools. Fees that the mints withhold come off the input before the walk
and off the output after it, so the quoted output is what arrives. Liquidity outside the loaded
window is never guessed. -/
namespace PoolSwap.ConcentratedPool

/-- The price limit in force: the one asked for, which must lie ahead of the current price, or the
last price inside the tick bounds. -/
def limitInForce (s : ConcentratedPool) (direction : Direction) (limit : Option Int) :
    Checked Int :=
  match limit, direction with
  | none, .zeroForOne => .ok (Tick.minSqrtPrice + 1)
  | none, .oneForZero => .ok (Tick.maxSqrtPrice - 1)
  | some l, .zeroForOne =>
    if Tick.minSqrtPrice < l ∧ l < s.sqrtPrice then .ok l
    else .error (.argument (.limitOutOfReach l true s.sqrtPrice))
  | some l, .oneForZero =>
    if s.sqrtPrice < l ∧ l < Tick.maxSqrtPrice then .ok l
    else .error (.argument (.limitOutOfReach l false s.sqrtPrice))

def transferFees (s : ConcentratedPool) : Direction → Option TransferFee × Option TransferFee
  | .zeroForOne => (s.transferFeeA, s.transferFeeB)
  | .oneForZero => (s.transferFeeB, s.transferFeeA)

/-- The shortfall of an output against the price before the trade, in basis points rounded down and
never negative. -/
def impactBps (amountIn amountOut sqrtPrice : Int) (direction : Direction) : Checked Int :=
  let square := sqrtPrice * sqrtPrice
  let unit : Int := Tick.unitPrice * Tick.unitPrice
  if amountIn = 0 then .ok 0
  else match direction with
    | .zeroForOne =>
      if square = 0 then .ok 0
      else
        let ideal := amountIn * square
        .ok (max 0 (floorDiv ((ideal - amountOut * unit) * ConstantProduct.bpsDenominator) ideal))
    | .oneForZero => do
      Checked.divisor square
      let ideal := amountIn * unit
      pure (max 0 (floorDiv ((ideal - amountOut * square) * ConstantProduct.bpsDenominator) ideal))

def route (s : ConcentratedPool) (direction : Direction) (window : Int × Int) (limit : Int) :
    Route :=
  ⟨s.poolId, direction, window.1, window.2, limit, s.feeRate⟩

def position (s : ConcentratedPool) (remaining : Int) : Position :=
  ⟨s.tickCurrent, s.sqrtPrice, s.liquidity, remaining⟩

def walkAlong (s : ConcentratedPool) (r : Route) (poolInput : Int) : Walk :=
  r.walk (r.ticksInOrder s.activeTicks) (s.position poolInput)

/-- Whether a route has neither liquidity at its start nor a tick ahead. -/
def isDry (s : ConcentratedPool) (r : Route) : Bool :=
  s.liquidity = 0 &&
    !(r.ticksInOrder s.activeTicks).any fun t => r.isAhead t.index s.tickCurrent

def quote (s : ConcentratedPool) (amount slippage : Scalar) (mintIn : Option Address)
    (limit : Option Int) : Checked Quote := do
  let amountIn ← Quote.tradeAmount amount
  let (direction, paid, received) ← directionFor s.mintA s.mintB mintIn
  let _ ← Slippage.apply 0 slippage
  let limitInForce ← s.limitInForce direction limit
  let (feePaid, feeReceived) := s.transferFees direction
  let withheldIn := transferFeeOn feePaid amountIn
  let poolInput := amountIn - withheldIn
  if poolInput = 0 then
    pure {
      kind := .concentrated, mintIn := paid, mintOut := received, amountIn,
      amountOut := 0, minAmountOut := 0, fee := 0, impactBps := 0, arraysCrossed := [],
      sqrtPriceAfter := some s.sqrtPrice, transferFees := withheldIn,
      sqrtPriceLimit := limit.getD 0 }
  else match s.coveredRange with
  | none => .error (.insufficientLiquidityData s.tickCurrent poolInput .currentTickNotCovered)
  | some window =>
    let r := s.route direction window limitInForce
    if s.isDry r then .error (.insufficientLiquidity (.noneInRange s.poolId))
    else
      let w := s.walkAlong r poolInput
      let stop ← w.ending
      let withheldOut := transferFeeOn feeReceived w.grossOut
      let amountOut := w.grossOut - withheldOut
      let impact ← impactBps poolInput w.grossOut s.sqrtPrice direction
      let minAmountOut ← Slippage.apply amountOut slippage
      pure {
        kind := .concentrated, mintIn := paid, mintOut := received, amountIn, amountOut,
        minAmountOut, fee := w.fees, impactBps := impact,
        arraysCrossed := w.arraysCrossed s.tickSpacing,
        sqrtPriceAfter := some stop.sqrtPrice, transferFees := withheldIn + withheldOut,
        sqrtPriceLimit := limit.getD 0 }

end PoolSwap.ConcentratedPool
