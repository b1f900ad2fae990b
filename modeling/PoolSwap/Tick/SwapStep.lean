import PoolSwap.Tick.Price

/-! One step of an exact-input trade inside a range of constant liquidity. Amounts the trader pays
round up, amounts the trader gets round down, and prices round against the trade. -/
namespace PoolSwap

/-- Which way a trade goes: token 0 in lowers the price, token 1 in raises it. -/
inductive Direction where
  | zeroForOne
  | oneForZero
deriving DecidableEq, Repr

def Direction.ofBool (zeroForOne : Bool) : Direction :=
  if zeroForOne then .zeroForOne else .oneForZero

namespace Liquidity

def scaleFloor (a b denominator : Int) : Checked Int := Checked.floorDiv (a * b) denominator

def scaleCeil (a b denominator : Int) : Checked Int := Checked.ceilDiv (a * b) denominator

def add (liquidity delta : Int) : Checked Int :=
  let result := liquidity + delta
  if result < 0 ∨ Tick.maxU128 < result then
    .error (.argument (.liquidityOutOfRange liquidity delta))
  else .ok result

/-- The amount of token 0 between two square-root prices: `L * 2⁶⁴ * |a - b| / (a * b)`. -/
def amount0 (a b liquidity : Int) (roundUp : Bool) : Checked Int := do
  let low := min a b
  let high := max a b
  let scaled := liquidity * Tick.unitPrice
  if roundUp then Checked.ceilDiv (← scaleCeil scaled (high - low) high) low
  else Checked.floorDiv (← scaleFloor scaled (high - low) high) low

/-- The amount of token 1 between two square-root prices: `L * |a - b| / 2⁶⁴`. -/
def amount1 (a b liquidity : Int) (roundUp : Bool) : Int :=
  let width := max a b - min a b
  if roundUp then ceilDiv (liquidity * width) Tick.unitPrice
  else floorDiv (liquidity * width) Tick.unitPrice

/-- The square-root price an input moves to: rounded up on the way down and down on the way up, so
that it never overshoots. -/
def nextSqrtPrice (s liquidity amountIn : Int) (direction : Direction) : Checked Int :=
  if s ≤ 0 ∨ liquidity ≤ 0 then .error (.argument .noPriceOrLiquidity)
  else if amountIn = 0 then .ok s
  else match direction with
    | .zeroForOne =>
      let scaled := liquidity * Tick.unitPrice
      scaleCeil scaled s (scaled + amountIn * s)
    | .oneForZero => do
      let rise ← Checked.floorDiv (amountIn * Tick.unitPrice) liquidity
      pure (s + rise)

end Liquidity

structure SwapStep where
  sqrtPriceNext : Int
  amountIn : Int
  amountOut : Int
  fee : Int
deriving DecidableEq, Repr

namespace SwapStep

def feeRateUnit : Int := 1000000

def inputBetween (current target liquidity : Int) : Direction → Checked Int
  | .zeroForOne => Liquidity.amount0 target current liquidity true
  | .oneForZero => .ok (Liquidity.amount1 current target liquidity true)

def outputBetween (current target liquidity : Int) : Direction → Checked Int
  | .zeroForOne => .ok (Liquidity.amount1 target current liquidity false)
  | .oneForZero => Liquidity.amount0 current target liquidity false

/-- The input to reach the target; nothing when it is beyond 64 bits, as no input is. -/
def fullInput? (current target liquidity : Int) (direction : Direction) : Checked (Option Int) := do
  let amount ← inputBetween current target liquidity direction
  pure (if amount ≤ Tick.maxU64 then some amount else none)

/-- The price after a step: the target if the input less the fee pays for it, else the price that
input moves to. -/
def nextPrice (full : Option Int) (current target liquidity net : Int) (direction : Direction) :
    Checked Int :=
  if full.any (· ≤ net) then .ok target
  else Liquidity.nextSqrtPrice current liquidity net direction

/-- A step toward a target price. A step that reaches it pays the fee on its input; one that stops
short keeps all it did not trade as fee. -/
def compute (current target liquidity remaining feeRate : Int) (direction : Direction) :
    Checked SwapStep := do
  let net := floorDiv (remaining * (feeRateUnit - feeRate)) feeRateUnit
  let full ← fullInput? current target liquidity direction
  let next ← nextPrice full current target liquidity net direction
  if next = target then
    let amountOut ← outputBetween current next liquidity direction
    let amountIn ← Checked.ofOption .wrongKind full
    let fee ← Liquidity.scaleCeil amountIn feeRate (feeRateUnit - feeRate)
    pure ⟨next, amountIn, amountOut, fee⟩
  else
    let amountIn ← inputBetween current next liquidity direction
    let amountOut ← outputBetween current next liquidity direction
    pure ⟨next, amountIn, amountOut, remaining - amountIn⟩

end SwapStep
end PoolSwap
