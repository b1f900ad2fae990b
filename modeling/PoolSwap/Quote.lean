import PoolSwap.Pool.Snapshot
import PoolSwap.Slippage

/-! Quotes of exact-input trades: what an input buys, the least output the trader accepts, and what
the trade costs. -/
namespace PoolSwap

structure Quote where
  kind : PoolKind
  mintIn : Address
  mintOut : Address
  amountIn : Int
  amountOut : Int
  minAmountOut : Int
  fee : Int
  impactBps : Int
  /-- Starts of the tick arrays a walk went through, in walk order. -/
  arraysCrossed : List Int
  sqrtPriceAfter : Option Int
  /-- Fees that the two mints withhold, on the way in and on the way out. -/
  transferFees : Int
  /-- The price limit asked for, zero without one. -/
  sqrtPriceLimit : Int
deriving DecidableEq

namespace Quote

def tradeAmount : Scalar → Checked Int
  | .int n =>
    if n < 0 then .error (.argument (.negativeAmount n))
    else if Tick.maxU64 < n then .error (.argument (.beyond64Bits "amount_in" n))
    else .ok n
  | other => .error (.wrongType (.amount other.kind))

end Quote
end PoolSwap
