import PoolSwap.Quote

/-! Quotes of standard pools. -/
namespace PoolSwap.StandardPool

def quote (s : StandardPool) (amount slippage : Scalar) (mintIn : Option Address) :
    Checked Quote := do
  let amountIn ← Quote.tradeAmount amount
  let (_, paid, received) ← directionFor s.mintA s.mintB mintIn
  let (reserveIn, reserveOut, _) ← s.reservesFor paid
  if !s.isFunded then .error (.insufficientLiquidity (.emptyReserve s.poolId))
  else
    let fee ← ConstantProduct.fee amountIn s.feeNumerator s.feeDenominator
    let amountOut ←
      ConstantProduct.output amountIn reserveIn reserveOut s.feeNumerator s.feeDenominator
    let minAmountOut ← Slippage.apply amountOut slippage
    pure {
      kind := .standard, mintIn := paid, mintOut := received,
      amountIn, amountOut, minAmountOut, fee,
      impactBps := ConstantProduct.impactBps amountIn amountOut reserveIn reserveOut,
      arraysCrossed := [], sqrtPriceAfter := none, transferFees := 0, sqrtPriceLimit := 0 }

end PoolSwap.StandardPool
