import PoolSwap.Quote.Concentrated
import PoolSwap.Quote.Standard

/-! Quotes against states as callers hand them in. -/
namespace PoolSwap.PoolSnapshot

/-- A quote against a pool of either kind; only concentrated pools take a price limit. -/
def quote (state : Supplied PoolSnapshot) (amount slippage : Scalar) (mintIn : Option Address)
    (limit : Option Int) : Checked Quote := do
  let _ ← Quote.tradeAmount amount
  match state with
  | .value (.standard s) =>
    if limit.isSome then .error (.argument .limitOnStandardPool)
    else s.quote amount slippage mintIn
  | .value (.concentrated s) => s.quote amount slippage mintIn limit
  | .other kind => .error (.wrongType (.poolState kind))

/-- A quote by the rule of standard pools. Other states lack reserves. -/
def quoteByReserves (state : Supplied PoolSnapshot) (amount slippage : Scalar)
    (mintIn : Option Address) : Checked Quote := do
  match state with
  | .value (.standard s) => s.quote amount slippage mintIn
  | .value (.concentrated s) =>
    let _ ← Quote.tradeAmount amount
    let _ ← directionFor s.mintA s.mintB mintIn
    .error (.breach .noSuchField)
  | .other _ =>
    let _ ← Quote.tradeAmount amount
    .error (.breach .noSuchField)

/-- A quote by the rule of concentrated pools. Other states lack ticks. -/
def quoteByTicks (state : Supplied PoolSnapshot) (amount slippage : Scalar)
    (mintIn : Option Address) (limit : Option Int) : Checked Quote := do
  match state with
  | .value (.concentrated s) => s.quote amount slippage mintIn limit
  | .value (.standard s) =>
    let _ ← Quote.tradeAmount amount
    let _ ← directionFor s.mintA s.mintB mintIn
    let _ ← Slippage.apply 0 slippage
    .error (.breach .noSuchField)
  | .other _ =>
    let _ ← Quote.tradeAmount amount
    .error (.breach .noSuchField)

end PoolSwap.PoolSnapshot
