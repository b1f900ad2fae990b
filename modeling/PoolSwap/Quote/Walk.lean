import PoolSwap.Pool.Snapshot

/-! The walk of a trade through the ticks of a concentrated pool. Each leg goes toward the next
initialized tick, the edge of the loaded window or the price limit; a walk is the list of its legs
and how it ended. -/
namespace PoolSwap

structure Position where
  tick : Int
  sqrtPrice : Int
  liquidity : Int
  /-- Input not yet used. -/
  remaining : Int
deriving DecidableEq, Repr

structure Leg where
  start : Position
  step : SwapStep
  crossed : Option Tick
  stop : Position
deriving DecidableEq, Repr

structure Walk where
  legs : List Leg
  ending : Checked Position

/-- What does not change during a walk. -/
structure Route where
  poolId : Address
  direction : Direction
  /-- The window of loaded ticks, without its upper end. -/
  lower : Int
  upper : Int
  sqrtPriceLimit : Int
  feeRate : Int

namespace Route

/-- Whether a tick is still to be crossed from a position. Going down, the current tick is. -/
def isAhead (r : Route) (index tick : Int) : Bool :=
  match r.direction with
  | .zeroForOne => index ≤ tick
  | .oneForZero => tick < index

def ticksInOrder (r : Route) (ascending : List Tick) : List Tick :=
  match r.direction with
  | .zeroForOne => (ascending.filter fun t => r.lower ≤ t.index).reverse
  | .oneForZero => ascending.filter fun t => t.index < r.upper

def edge (r : Route) : Int :=
  match r.direction with
  | .zeroForOne => r.lower
  | .oneForZero => r.upper

/-- The price limit, if it comes before a price on the way. -/
def target (r : Route) (sqrtPrice : Int) : Int :=
  match r.direction with
  | .zeroForOne => max sqrtPrice r.sqrtPriceLimit
  | .oneForZero => min sqrtPrice r.sqrtPriceLimit

def liquidityBehind (r : Route) (p : Position) (t : Tick) : Checked Int :=
  match r.direction with
  | .zeroForOne => Liquidity.add p.liquidity (-t.liquidityNet)
  | .oneForZero => Liquidity.add p.liquidity t.liquidityNet

/-- The position after a step, which crosses `next` when it reached the price `boundary` of the tick
`bound`. -/
def advance (r : Route) (p : Position) (next : Option Tick) (bound boundary : Int)
    (step : SwapStep) : Checked Position := do
  let remaining := p.remaining - (step.amountIn + step.fee)
  if step.sqrtPriceNext = boundary then
    let liquidity ← match next with
      | some t => r.liquidityBehind p t
      | none => pure p.liquidity
    let tick := match r.direction with
      | .zeroForOne => bound - 1
      | .oneForZero => bound
    pure ⟨tick, step.sqrtPriceNext, liquidity, remaining⟩
  else if step.sqrtPriceNext = p.sqrtPrice then
    pure { p with remaining }
  else
    let tick ← Tick.atSqrtPrice? step.sqrtPriceNext
    pure ⟨tick, step.sqrtPriceNext, p.liquidity, remaining⟩

/-- The tick a leg goes toward: the next tick, or the edge of the window. -/
def bound (r : Route) (next : Option Tick) : Int :=
  let tick := match next with
    | some t => t.index
    | none => r.edge
  min (max tick Tick.minTick) Tick.maxTick

def leg (r : Route) (p : Position) (next : Option Tick) : Checked Leg := do
  let bound := r.bound next
  let boundary := Tick.sqrtPrice bound
  let step ← SwapStep.compute p.sqrtPrice (r.target boundary) p.liquidity p.remaining r.feeRate
    r.direction
  let stop ← r.advance p next bound boundary step
  pure ⟨p, step, if step.sqrtPriceNext = boundary then next else none, stop⟩

def blocked (r : Route) (p : Position) : Option Fault :=
  if p.remaining = 0 then none
  else if p.sqrtPrice = r.sqrtPriceLimit ∨ p.tick ≤ Tick.minTick ∨ Tick.maxTick ≤ p.tick then
    some (.insufficientLiquidity (.priceBound r.poolId p.remaining))
  else if p.tick < r.lower ∨ r.upper ≤ p.tick then
    some (.insufficientLiquidityData p.tick p.remaining (.beyondWindow r.lower r.upper))
  else none

def afterLeg (l : Leg) (w : Walk) : Walk := { w with legs := l :: w.legs }

/-- Walks until the input is used up. After the last tick one more leg goes to the edge of the
window, and there the walk ends in any case: beyond the edge it is blocked. -/
def walk (r : Route) : List Tick → Position → Walk
  | [], p =>
    if p.remaining ≤ 0 then ⟨[], .ok p⟩
    else match r.leg p none with
      | .error f => ⟨[], .error f⟩
      | .ok l => match r.blocked l.stop with
        | some f => ⟨[l], .error f⟩
        | none => ⟨[l], .ok l.stop⟩
  | t :: rest, p =>
    if p.remaining ≤ 0 then ⟨[], .ok p⟩
    else if !r.isAhead t.index p.tick then r.walk rest p
    else match r.leg p (some t) with
      | .error f => ⟨[], .error f⟩
      | .ok l => match r.blocked l.stop with
        | some f => ⟨[l], .error f⟩
        | none => afterLeg l (r.walk rest l.stop)

end Route

namespace Walk

/-- An amount of every step, all together. -/
def total (amount : SwapStep → Int) (w : Walk) : Int :=
  w.legs.foldr (fun l rest => amount l.step + rest) 0

@[simp] theorem total_nil (amount : SwapStep → Int) (ending : Checked Position) :
    total amount ⟨[], ending⟩ = 0 := rfl

@[simp] theorem total_cons (amount : SwapStep → Int) (l : Leg) (legs : List Leg)
    (ending : Checked Position) :
    total amount ⟨l :: legs, ending⟩ = amount l.step + total amount ⟨legs, ending⟩ := rfl

@[simp] theorem total_afterLeg (amount : SwapStep → Int) (l : Leg) (w : Walk) :
    total amount (Route.afterLeg l w) = amount l.step + total amount w := rfl

def grossOut (w : Walk) : Int := w.total (·.amountOut)

def traded (w : Walk) : Int := w.total (·.amountIn)

def fees (w : Walk) : Int := w.total (·.fee)

/-- The starts of the tick arrays that the legs began in, each once. -/
def arraysCrossed (w : Walk) (spacing : Int) : List Int :=
  (w.legs.map fun l => Tick.arrayStart l.start.tick spacing).eraseDups

end Walk
end PoolSwap
