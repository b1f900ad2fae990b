import PoolSwap.Number.Quantity

/-! Ticks and square-root prices. A tick is a step of one basis point in price; its square-root
price has 64 fraction bits. The table holds the price factors of the powers of two, and tick prices
are their truncated products. -/
namespace PoolSwap.Tick

def minTick : Int := -443636
def maxTick : Int := 443636

/-- The square-root prices of the outermost ticks. -/
def minSqrtPrice : Int := 4295048016
def maxSqrtPrice : Int := 79226673521066979257578248091

/-- One as a square-root price. -/
def unitPrice : Nat := 1 <<< 64

def maxU64 : Int := 0xffffffffffffffff
def maxU128 : Int := 0xffffffffffffffffffffffffffffffff

/-- The square-root price of tick `-2 ^ i`, for each bit `i` of a tick. -/
def bitRatios : List Nat :=
  [0xfffcb933bd6fb800, 0xfff97272373d4000, 0xfff2e50f5f657000, 0xffe5caca7e10f000, 0xffcb9843d60f7000,
    0xff973b41fa98e800, 0xff2ea16466c9b000, 0xfe5dee046a9a3800, 0xfcbe86c7900bb000, 0xf987a7253ac65800,
    0xf3392b0822bb6000, 0xe7159475a2caf000, 0xd097f3bdfd2f2000, 0xa9f746462d9f8000, 0x70d869a156f31c00,
    0x31be135f97ed3200, 0x9aa508b5b85a500, 0x5d6af8dedc582c, 0x2216e584f5fa]

/-- Multiplies the ratios of the set bits of `n`, with 64 fraction bits after each product. -/
def ratioProduct (n : Nat) : List Nat → Nat → Nat
  | [], acc => acc
  | ratio :: rest, acc =>
    ratioProduct (n / 2) rest (if n % 2 = 1 then acc * ratio / unitPrice else acc)

def sqrtPrice (tick : Int) : Int :=
  let ratio := ratioProduct tick.natAbs bitRatios unitPrice
  if 0 < tick then (((1 <<< 128) - 1) / ratio : Nat) else ratio

def sqrtPrice? (tick : Int) : Checked Int :=
  if tick < minTick ∨ maxTick < tick then .error (.argument (.tickOutOfRange tick minTick maxTick))
  else .ok (sqrtPrice tick)

/-- Halves a range of ticks whose lower end is priced at or below `s`, down to one step. -/
def bisect (s lower upper : Int) : Int × Int :=
  if h : 1 < upper - lower then
    let middle := (lower + upper) / 2
    if sqrtPrice middle ≤ s then bisect s middle upper else bisect s lower middle
  else (lower, upper)
termination_by (upper - lower).toNat
decreasing_by all_goals omega

/-- The greatest tick priced at or below a square-root price. -/
def atSqrtPrice? (s : Int) : Checked Int :=
  if s < minSqrtPrice ∨ maxSqrtPrice ≤ s then .error (.argument (.sqrtPriceOutOfRange s))
  else
    let (lower, upper) := bisect s minTick maxTick
    .ok (if sqrtPrice upper ≤ s then upper else lower)

def arraySize : Int := 60

def alignTo (tick spacing : Int) : Int := floorDiv tick spacing * spacing

theorem alignTo_le {spacing : Int} (hs : 0 < spacing) (tick : Int) :
    alignTo tick spacing ≤ tick :=
  (le_floorDiv_iff hs).1 (Int.le_refl _)

theorem lt_alignTo_add {spacing : Int} (hs : 0 < spacing) (tick : Int) :
    tick < alignTo tick spacing + spacing := by
  have h : ¬ floorDiv tick spacing + 1 ≤ floorDiv tick spacing := by omega
  rw [le_floorDiv_iff hs, Int.add_mul, Int.one_mul] at h
  exact Int.not_le.1 h

def arrayStart (tick spacing : Int) : Int := alignTo tick (spacing * arraySize)

def alignTo? (tick spacing : Int) : Checked Int := do
  Checked.divisor spacing
  pure (alignTo tick spacing)

def arrayStart? (tick spacing : Int) : Checked Int := alignTo? tick (spacing * arraySize)

/-- The square-root price of a price of token 0 in token 1, both in whole tokens of the given
decimals. -/
def sqrtPriceOfPrice (price : Quantity) (decimals0 decimals1 : Int) : Checked Int := do
  let scaled ← (← price.mul (.powerOfTen decimals1)).div (.powerOfTen decimals0)
  Binary64.toInt ((← Binary64.sqrt scaled) * 18446744073709551616.0)

def priceOfSqrtPrice (s decimals0 decimals1 : Int) : Checked Float := do
  let root ← Checked.ofOption .tooLarge (Binary64.nearestInt? s unitPrice)
  let price ← Binary64.square root
  (← (Quantity.float price).mul (.powerOfTen decimals0)).div (.powerOfTen decimals1)

end PoolSwap.Tick
