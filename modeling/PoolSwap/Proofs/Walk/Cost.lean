import PoolSwap.Proofs.Walk.Account

/-! What the legs of a walk cost. A leg takes in a fixed amount to reach its goal: any input beyond
it is carried on from the same place, and any input up to it is used up on the leg. No leg under way
fails. -/
namespace PoolSwap

def Position.withInput (p : Position) (input : Int) : Position := { p with remaining := input }

namespace Route

/-- What the leg from a position takes in to reach its goal. -/
def cost (r : Route) (ticks : List Tick) (p : Position) : Int :=
  SwapStep.cost p.sqrtPrice (r.goal ticks p) p.liquidity r.feeRate r.direction

/-- A route whose limit lies inside the tick bounds. -/
structure InBounds (r : Route) : Prop where
  lt_limit : Tick.minSqrtPrice < r.sqrtPriceLimit
  limit_lt : r.sqrtPriceLimit < Tick.maxSqrtPrice

variable {r : Route} {p : Position} {next : Option Tick} {bound boundary input : Int}
  {step : SwapStep}

/-- Input is only carried along. -/
theorem advance_withInput (r : Route) (p : Position) (next : Option Tick)
    (bound boundary : Int) (step : SwapStep) (input : Int) :
    r.advance (p.withInput input) next bound boundary step =
      (r.advance p next bound boundary step).map
        (·.withInput (input - (step.amountIn + step.fee))) := by
  unfold advance
  dsimp only
  by_cases hreach : step.sqrtPriceNext = boundary
  · rw [if_pos hreach, if_pos hreach]
    cases next with
    | none => rfl
    | some t =>
      have hbehind : r.liquidityBehind (p.withInput input) t = r.liquidityBehind p t := by
        unfold liquidityBehind
        cases r.direction <;> rfl
      dsimp only
      rw [hbehind]
      cases r.liquidityBehind p t <;> rfl
  · rw [if_neg hreach, if_neg hreach]
    change (if step.sqrtPriceNext = p.sqrtPrice then _ else _) = _
    by_cases hstay : step.sqrtPriceNext = p.sqrtPrice
    · rw [if_pos hstay, if_pos hstay]
      rfl
    · rw [if_neg hstay, if_neg hstay]
      cases Tick.atSqrtPrice? step.sqrtPriceNext <;> rfl

theorem exists_advance (hcross : ∃ liquidity, r.liquidityPast p next = .ok liquidity)
    (hmin : Tick.minSqrtPrice ≤ step.sqrtPriceNext)
    (hmax : step.sqrtPriceNext < Tick.maxSqrtPrice) (bound boundary : Int) :
    ∃ q, r.advance p next bound boundary step = .ok q := by
  obtain ⟨liquidity, hcross⟩ := hcross
  obtain ⟨tick, htick⟩ := Tick.exists_atSqrtPrice hmin hmax
  unfold advance
  dsimp only
  split
  · cases next with
    | none => exact ⟨_, rfl⟩
    | some t => exact ⟨_, Checked.bind_eq_ok.2 ⟨liquidity, hcross, rfl⟩⟩
  · split
    · exact ⟨_, rfl⟩
    · exact ⟨_, Checked.bind_eq_ok.2 ⟨tick, htick, rfl⟩⟩

end Route

namespace ConcentratedPool

variable {s : ConcentratedPool} {r : Route} {p : Position} {l l' : Leg} {ticks : List Tick}
  {input : Int}

theorem OnCourse.withInput (h : s.OnCourse r p) (input : Int) :
    s.OnCourse r (p.withInput input) :=
  ⟨h.lower_le, h.lt_upper, h.minTick_le, h.lt_maxTick, h.price_le, h.le_price, h.liquidity_eq,
    h.tick_passed, h.start_leads, h.leads_limit⟩

theorem UnderWay.withInput (h : s.UnderWay r p) (hnonneg : 0 ≤ input)
    (hle : input ≤ p.remaining) : s.UnderWay r (p.withInput input) where
  left_nonneg := hnonneg
  left_le := hle.trans h.left_le
  onCourse hpos := (h.onCourse (hpos.trans_le hle)).withInput input
  start_leads := h.start_leads
  leads_limit := h.leads_limit

theorem UnderWay.cost_nonneg (hs : s.Consistent) (hr : s.Offers r) (hp : s.UnderWay r p)
    (hleft : 0 < p.remaining) (ticks : List Tick) : 0 ≤ r.cost ticks p :=
  ((hp.onCourse hleft).range hs hr ticks).cost_nonneg

/-- The step from a position under way stays between the prices of the outermost ticks. -/
theorem UnderWay.taken_inBounds (hs : s.Consistent) (hr : s.Offers r) (hbounds : r.InBounds)
    (hp : s.UnderWay r p) (hleft : 0 < p.remaining) (ticks : List Tick) :
    let step := SwapStep.taken p.sqrtPrice (r.goal ticks p) p.liquidity p.remaining r.feeRate
      r.direction
    Tick.minSqrtPrice < step.sqrtPriceNext ∧ step.sqrtPriceNext < Tick.maxSqrtPrice := by
  intro step
  have hsettles := ((hp.onCourse hleft).range hs hr ticks).taken_settles hp.left_nonneg
  have hstart := hp.start_leads.trans hsettles.leads
  have hlimit := hsettles.within.trans (r.target_leads_limit _)
  have hlow := hs.minSqrtPrice_lt
  have hhigh := hs.lt_maxSqrtPrice
  have hlow' := hbounds.lt_limit
  have hhigh' := hbounds.limit_lt
  unfold Direction.Leads at hstart hlimit
  cases hd : r.direction <;> simp only [step, hd] at hstart hlimit ⊢ <;> omega

/-- No leg under way fails. -/
theorem UnderWay.exists_leg (hs : s.Consistent) (hr : s.Offers r) (hbounds : r.InBounds)
    (hp : s.UnderWay r p) (hleft : 0 < p.remaining) :
    ∃ l, r.leg p (r.nextTick (r.ticksInOrder s.activeTicks) p.tick) = .ok l := by
  have hcourse := hp.onCourse hleft
  have hrange := hcourse.range hs hr (r.ticksInOrder s.activeTicks)
  have hcross : ∃ liquidity,
      r.liquidityPast p (r.nextTick (r.ticksInOrder s.activeTicks) p.tick) = .ok liquidity := by
    cases hnext : r.nextTick (r.ticksInOrder s.activeTicks) p.tick with
    | none => exact ⟨_, rfl⟩
    | some t => exact ⟨_, liquidityBehind_eq hs hnext hcourse.liquidity_eq⟩
  obtain ⟨hlow, hhigh⟩ := hp.taken_inBounds hs hr hbounds hleft (r.ticksInOrder s.activeTicks)
  obtain ⟨stop, hstop⟩ := Route.exists_advance hcross hlow.le hhigh
    (r.bound (r.nextTick (r.ticksInOrder s.activeTicks) p.tick))
    (Tick.sqrtPrice (r.bound (r.nextTick (r.ticksInOrder s.activeTicks) p.tick)))
  exact ⟨_, Route.leg_of_advance (hrange.compute_eq hp.left_nonneg hp.left_le) hstop⟩

/-- An input up to the cost of a leg is used up on it. -/
theorem UnderWay.leg_of_le_cost (hs : s.Consistent) (hr : s.Offers r) (hp : s.UnderWay r p)
    (hleft : 0 < p.remaining) (hleg : r.leg p (r.nextTick ticks p.tick) = .ok l)
    (hcost : p.remaining ≤ r.cost ticks p) : l.stop.remaining = 0 := by
  have hrange := (hp.onCourse hleft).range hs hr ticks
  rw [Route.leg_stop_remaining hleg, hp.step_eq hs hr hleft hleg, sub_eq_zero]
  rcases hcost.lt_or_eq with hlt | heq
  · rw [hrange.taken_eq_short hlt, SwapStep.short_spent]
  · rw [hrange.taken_eq_full heq.ge]
    exact heq

theorem UnderWay.cost_lt (hs : s.Consistent) (hr : s.Offers r) (hp : s.UnderWay r p)
    (hleft : 0 < p.remaining) (hleg : r.leg p (r.nextTick ticks p.tick) = .ok l)
    (hmore : l.stop.remaining ≠ 0) : r.cost ticks p < p.remaining :=
  lt_of_not_ge fun hcost => hmore (hp.leg_of_le_cost hs hr hleft hleg hcost)

theorem UnderWay.step_eq_full (hs : s.Consistent) (hr : s.Offers r) (hp : s.UnderWay r p)
    (hleft : 0 < p.remaining) (hleg : r.leg p (r.nextTick ticks p.tick) = .ok l)
    (hcost : r.cost ticks p ≤ p.remaining) :
    l.step = SwapStep.full p.sqrtPrice (r.goal ticks p) p.liquidity r.feeRate r.direction := by
  rw [hp.step_eq hs hr hleft hleg]
  exact ((hp.onCourse hleft).range hs hr ticks).taken_eq_full hcost

theorem UnderWay.leg_of_cost_le (hs : s.Consistent) (hr : s.Offers r) (hp : s.UnderWay r p)
    (hleft : 0 < p.remaining) (hleg : r.leg p (r.nextTick ticks p.tick) = .ok l)
    (hcost : r.cost ticks p ≤ p.remaining) :
    l.stop.remaining = p.remaining - r.cost ticks p := by
  rw [Route.leg_stop_remaining hleg, hp.step_eq_full hs hr hleft hleg hcost]
  rfl

/-- Inputs beyond the cost of a leg take the same step and leave it with what they are beyond. -/
theorem UnderWay.leg_withInput (hs : s.Consistent) (hr : s.Offers r) (hp : s.UnderWay r p)
    (hp' : s.UnderWay r (p.withInput input)) (hleft : 0 < p.remaining) (hleft' : 0 < input)
    (hleg : r.leg p (r.nextTick ticks p.tick) = .ok l)
    (hleg' : r.leg (p.withInput input) (r.nextTick ticks p.tick) = .ok l')
    (hcost : r.cost ticks p ≤ p.remaining) (hcost' : r.cost ticks p ≤ input) :
    l'.step = l.step ∧ l'.stop = l.stop.withInput (input - r.cost ticks p) := by
  have hfull := hp.step_eq_full hs hr hleft hleg hcost
  have hfull' := hp'.step_eq_full hs hr hleft' hleg' hcost'
  have hsame : l'.step = l.step := hfull'.trans hfull.symm
  have hadvance := (Route.leg_eq_ok hleg').2.2
  rw [hsame, Route.advance_withInput, (Route.leg_eq_ok hleg).2.2, hfull] at hadvance
  exact ⟨hsame, (Except.ok.inj hadvance).symm⟩

end ConcentratedPool
end PoolSwap
