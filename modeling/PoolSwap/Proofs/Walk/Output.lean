import PoolSwap.Proofs.Walk.Course

/-! The output of a walk. At any prices and liquidity that a pool can have, wherever its ticks lie,
no step gives out a negative amount, so a walk never does. -/
namespace PoolSwap

namespace SwapStep

variable {a b target liquidity remaining feeRate out : Int} {d : Direction} {step : SwapStep}

theorem outputBetween_nonneg (ha : 0 < a) (hb : 0 < b) (hliquidity : 0 ≤ liquidity)
    (h : outputBetween a b liquidity d = .ok out) : 0 ≤ out := by
  cases d
  · cases h
    have hwidth : 0 ≤ max b a - min b a := Int.sub_nonneg.2 min_le_max
    exact floorDiv_nonneg Liquidity.unit_pos (mul_nonneg hliquidity hwidth)
  · rw [outputBetween, Liquidity.amount0_eq ha hb] at h
    cases h
    have hwidth : 0 ≤ max a b - min a b := Int.sub_nonneg.2 min_le_max
    have hunit := Liquidity.unit_pos
    exact floorDiv_nonneg (mul_pos ha hb) (by positivity)

theorem nextPrice_pos {full : Option Int} {net next : Int} (ha : 0 < a) (htarget : 0 < target)
    (hnet : 0 ≤ net) (h : nextPrice full a target liquidity net d = .ok next) : 0 < next := by
  unfold nextPrice at h
  split at h
  case isTrue =>
    cases h
    exact htarget
  case isFalse =>
    have hliquidity := liquidity_pos_of_nextSqrtPrice h
    rw [nextSqrtPrice_eq ha hliquidity hnet] at h
    cases h
    exact priceAfter_pos ha hliquidity hnet

/-- Between prices, whichever of them is ahead, a step ends at a price and gives out no negative
amount. -/
theorem compute_nonneg (ha : 0 < a) (htarget : 0 < target) (hliquidity : 0 ≤ liquidity)
    (hfee : feeRate ≤ feeRateUnit) (hr : 0 ≤ remaining)
    (h : compute a target liquidity remaining feeRate d = .ok step) :
    0 < step.sqrtPriceNext ∧ 0 ≤ step.amountOut := by
  have hnet : 0 ≤ floorDiv (remaining * (feeRateUnit - feeRate)) feeRateUnit :=
    floorDiv_nonneg (by decide) (mul_nonneg hr (Int.sub_nonneg.2 hfee))
  obtain ⟨_, -, hnext, hout, -⟩ := compute_eq_ok h
  have hpos := nextPrice_pos ha htarget hnet hnext
  exact ⟨hpos, outputBetween_nonneg ha hpos hliquidity hout⟩

end SwapStep

/-- A position at a price, with liquidity that a pool can have. -/
structure Position.Sound (p : Position) : Prop where
  sqrtPrice_pos : 0 < p.sqrtPrice
  liquidity_nonneg : 0 ≤ p.liquidity

namespace Route

variable {r : Route} {ticks : List Tick} {p : Position} {next : Option Tick} {l : Leg} {w : Walk}

theorem liquidityPast_nonneg (hp : p.Sound) {liquidity : Int}
    (h : r.liquidityPast p next = .ok liquidity) : 0 ≤ liquidity := by
  cases next with
  | none =>
    cases h
    exact hp.liquidity_nonneg
  | some t =>
    change r.liquidityBehind p t = .ok liquidity at h
    unfold liquidityBehind at h
    split at h <;> exact (Liquidity.add_eq_ok.1 h).2.1

section Leg

variable (hlimit : 0 < r.sqrtPriceLimit) (hfee : r.feeRate ≤ SwapStep.feeRateUnit) (hp : p.Sound)
include hlimit hfee hp

theorem leg_nonneg (hleft : 0 < p.remaining) (h : r.leg p next = .ok l) :
    l.stop.Sound ∧ 0 ≤ l.step.amountOut := by
  obtain ⟨-, hstep, hstop⟩ := leg_eq_ok h
  obtain ⟨hprice, hout⟩ := SwapStep.compute_nonneg hp.sqrtPrice_pos (r.target_pos hlimit next)
    hp.liquidity_nonneg hfee hleft.le hstep
  refine ⟨⟨leg_stop_sqrtPrice h ▸ hprice, ?_⟩, hout⟩
  rcases advance_eq_ok hstop with ⟨-, liquidity, hliquidity, hq⟩ | ⟨-, -, hq⟩ | ⟨-, _, -, hq⟩
  · rw [hq]
    exact liquidityPast_nonneg hp hliquidity
  all_goals
    rw [hq]
    exact hp.liquidity_nonneg

/-- A run gives out no negative amount, wherever the ticks lie. -/
theorem Runs.grossOut_nonneg (h : r.Runs ticks p w) : 0 ≤ w.grossOut := by
  induction h with
  | done | failed => exact le_rfl
  | stuck hleft hleg =>
    have hout := (leg_nonneg hlimit hfee hp hleft hleg).2
    simpa [Walk.grossOut] using hout
  | onward hleft hleg _ _ ih =>
    obtain ⟨hstop, hout⟩ := leg_nonneg hlimit hfee hp hleft hleg
    unfold Walk.grossOut
    rw [Walk.total_afterLeg]
    exact add_nonneg hout (ih hstop)

end Leg

end Route
end PoolSwap
