import PoolSwap.Instruction
import PoolSwap.Pool.Keys

/-! The swap instructions of both kinds of pools. -/
namespace PoolSwap

namespace StandardKeys

def swapTag : UInt8 := 9

/-- Swaps an exact input between two token accounts of the owner. -/
def swapInstruction (k : StandardKeys) (owner source destination : Address)
    (amountIn minAmountOut : Int) : Checked Instruction := do
  let amount ← fieldBytes .fieldWidth 8 amountIn
  let minimum ← fieldBytes .fieldWidth 8 minAmountOut
  pure {
    programId := k.programId
    data := swapTag :: amount ++ minimum
    accounts := [
      .readonly .tokenProgram, .writable k.id, .readonly k.authority, .writable k.openOrders,
      .writable k.vaultA, .writable k.vaultB, .readonly k.marketProgramId, .writable k.marketId,
      .writable k.marketBids, .writable k.marketAsks, .writable k.marketEventQueue,
      .writable k.marketBaseVault, .writable k.marketQuoteVault, .writable k.marketAuthority,
      .writable source, .writable destination, .signer owner] }

end StandardKeys

namespace ConcentratedKeys

def swapDiscriminator : Bytes := (sha256.digest "global:swap_v2".toUTF8.toList).take 8

/-- The amounts, the price limit and whether the amount is the input. -/
def swapData (amount threshold limit : Int) (isBaseInput : Bool) : Checked Bytes := do
  let amountBytes ← fieldBytes .fieldWidth 8 amount
  let thresholdBytes ← fieldBytes .fieldWidth 8 threshold
  let limitBytes ← fieldBytes .tooLarge 16 limit
  pure (swapDiscriminator ++ amountBytes ++ thresholdBytes ++ limitBytes ++
    [if isBaseInput then 1 else 0])

def sides (k : ConcentratedKeys) : Direction → (Address × Address) × (Address × Address)
  | .zeroForOne => ((k.vaultA, k.mintA), (k.vaultB, k.mintB))
  | .oneForZero => ((k.vaultB, k.mintB), (k.vaultA, k.mintA))

/-- Swaps between two token accounts of the owner. The bitmap account and the tick arrays follow the
accounts that every swap has. -/
def swapInstruction (k : ConcentratedKeys) (owner source destination : Address)
    (direction : Direction) (amount threshold limit : Int) (isBaseInput : Bool) :
    Checked Instruction := do
  let data ← swapData amount threshold limit isBaseInput
  let ((vaultIn, mintIn), (vaultOut, mintOut)) := k.sides direction
  pure {
    programId := k.programId
    data
    accounts := [
      .signer owner, .readonly k.ammConfig, .writable k.id, .writable source, .writable destination,
      .writable vaultIn, .writable vaultOut, .writable k.observationId, .readonly .tokenProgram,
      .readonly .token2022Program, .readonly .memoProgram, .readonly mintIn, .readonly mintOut] ++
      k.exBitmap.toList.map .writable ++ k.tickArrays.map .writable }

end ConcentratedKeys
end PoolSwap
