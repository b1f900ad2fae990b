import PoolSwap.Proofs.Quote.Capacity
import PoolSwap.Proofs.Walk.Length

/-! What a trade in order comes to. Its walk is short and none of its legs fails, so the trade is
quoted or falls short of liquidity, and nothing else happens. -/
namespace PoolSwap

theorem Shortfall.fault_cases (shortfall : Shortfall) (missing : Int) :
    (∃ cause, shortfall.fault missing = .insufficientLiquidity cause) ∨
      ∃ tick cause, shortfall.fault missing = .insufficientLiquidityData tick missing cause := by
  cases shortfall with
  | noLiquidity | priceBound => exact .inl ⟨_, rfl⟩
  | missingArrays tick cause => exact .inr ⟨tick, cause, rfl⟩

namespace ConcentratedPool

variable {s : ConcentratedPool} {slippage : Scalar} {mintIn : Option Address}
  {limit : Option Int} {d : Direction} {bound amountIn : Int} {paid received : Address}

theorem UnderWay.head {r : Route} {start p : Position} (hs : s.Consistent) (hr : s.Offers r)
    (hstart : s.UnderWay r start) (h : r.Head (r.ticksInOrder s.activeTicks) start p) :
    s.UnderWay r p := by
  induction h with
  | first => exact hstart
  | onward _ hleft hleg hopen _ ih => exact ih.leg hs hr hleft hleg hopen

/-- A trade in order is quoted or falls short of liquidity or of tick arrays. Its loop takes at most
one leg more than there are ticks of the window ahead, and at every head with input left the tick
ahead has a price, the leg toward it succeeds and so does the search for the tick it ends in. -/
theorem quote_or_shortfall (hs : s.Consistent) (hfees : s.FeesSound)
    (hdirection : directionFor s.mintA s.mintB mintIn = .ok (d, paid, received))
    (hslippage : (Slippage.fraction? slippage).isSome)
    (hnonneg : 0 ≤ amountIn) (hmax : amountIn ≤ Tick.maxU64)
    (hlimit : s.limitInForce d limit = .ok bound) :
    ((∃ q, s.quote (.int amountIn) slippage mintIn limit = .ok q) ∨
      (∃ cause, s.quote (.int amountIn) slippage mintIn limit =
        .error (.insufficientLiquidity cause)) ∨
      ∃ tick missing cause, s.quote (.int amountIn) slippage mintIn limit =
        .error (.insufficientLiquidityData tick missing cause)) ∧
    ∀ window, s.coveredRange = some window →
      let r := s.route d window bound
      let ticks := r.ticksInOrder s.activeTicks
      let start := s.position (s.poolInput d amountIn)
      let w := s.walkAlong r (s.poolInput d amountIn)
      r.Runs ticks start w ∧
      w.legs.length ≤ r.aheadCount (s.windowTicks window) s.tickCurrent + 1 ∧
      ∀ p, r.Head ticks start p → 0 < p.remaining →
        Tick.sqrtPrice? (r.bound (r.nextTick ticks p.tick)) =
          .ok (Tick.sqrtPrice (r.bound (r.nextTick ticks p.tick))) ∧
        ∃ l tick, r.leg p (r.nextTick ticks p.tick) = .ok l ∧
          Tick.searchSqrtPrice? l.step.sqrtPriceNext = .ok tick := by
  obtain ⟨hnonneg', hmax'⟩ := poolInput_inRange (hfees.paid d) hnonneg hmax
  refine ⟨?_, fun window hwindow => ?_⟩
  · obtain ⟨capacity, shortfall, -, hwalked⟩ := hs.walked_capacity hlimit
    obtain ⟨hwithin, hbeyond⟩ := hwalked _ hnonneg' hmax'
    have hquote := quote_eq_walked hslippage hnonneg hmax hdirection hlimit
    rcases le_or_gt (s.poolInput d amountIn) capacity with hle | hlt
    · obtain ⟨w, stop, hok⟩ := hwithin hle
      rw [hquote, hok]
      exact .inl (exists_priced hs hslippage d paid received amountIn limit w stop)
    · rw [hquote, hbeyond hlt]
      rcases shortfall.fault_cases (s.poolInput d amountIn - capacity) with
        ⟨cause, hfault⟩ | ⟨tick, cause, hfault⟩
      · exact .inr (.inl ⟨cause, congrArg Except.error hfault⟩)
      · exact .inr (.inr ⟨tick, _, cause, congrArg Except.error hfault⟩)
  · intro r ticks start w
    have hruns : r.Runs ticks start w := r.walk_runs ticks start
    have hroute : s.routeFor d bound = r := by rw [routeFor, hwindow]; rfl
    have hr : s.Offers r := hroute ▸ hs.offers hlimit
    have hbounds : r.InBounds := hroute ▸ hs.inBounds hlimit
    refine ⟨hruns, ?_, fun p hp hleft => ?_⟩
    · rw [← aheadCount_window hwindow]
      exact hruns.legs_length_le
    · have hcourse := hs.onCourse_start hlimit hwindow (s.poolInput d amountIn)
      have hstart : s.UnderWay r start :=
        ⟨hnonneg', hmax', fun _ => hcourse, hcourse.start_leads, hcourse.leads_limit⟩
      have hway := hstart.head hs hr hp
      obtain ⟨l, hleg⟩ := hway.exists_leg hs hr hbounds hleft
      obtain ⟨hlow, hhigh⟩ := hway.taken_inBounds hs hr hbounds hleft ticks
      obtain ⟨tick, htick⟩ := Tick.exists_atSqrtPrice hlow.le hhigh
      obtain ⟨hmin, hmax⟩ := r.bound_inRange (r.nextTick ticks p.tick)
      refine ⟨Tick.sqrtPrice?_eq hmin hmax, l, tick, hleg, ?_⟩
      rw [Tick.searchSqrtPrice?_eq, hway.step_eq hs hr hleft hleg]
      exact htick

/-- A trade far beyond the lower position, with two ticks ahead. -/
theorem quote_or_shortfall_nested :
    nested.Consistent ∧ nested.FeesSound ∧
    directionFor nested.mintA nested.mintB none = .ok (.zeroForOne, .ofNat 2, .ofNat 3) ∧
    (Slippage.fraction? (.int 0)).isSome ∧
    nested.limitInForce .zeroForOne none = .ok (Tick.minSqrtPrice + 1) ∧
    nested.coveredRange = some (-60, 60) ∧
    (∀ q, nested.quote (.int 20000) (.int 0) none none ≠ .ok q) ∧
    (∃ tick missing cause, nested.quote (.int 20000) (.int 0) none none =
      .error (.insufficientLiquidityData tick missing cause)) ∧
    (nested.walkAlong (nested.route .zeroForOne (-60, 60) (Tick.minSqrtPrice + 1))
      19800).legs.length ≤ 3 := by
  have hlimit : nested.limitInForce .zeroForOne none = .ok (Tick.minSqrtPrice + 1) := rfl
  have hwindow : nested.coveredRange = some (-60, 60) := by decide
  have hdirection : directionFor nested.mintA nested.mintB none =
      .ok (.zeroForOne, .ofNat 2, .ofNat 3) := rfl
  have hslippage : (Slippage.fraction? (.int 0)).isSome := by decide +kernel
  have hfar : nested.quote (.int 20000) (.int 0) none none =
      .error (.insufficientLiquidityData (-61) 16789 (.beyondWindow (-60) 60)) := by
    simp only [quote, walkAlong, isDry, nested_activeTicks]
    decide +kernel
  obtain ⟨houtcome, hloop⟩ := quote_or_shortfall nested_consistent nested_feesSound hdirection
    hslippage (by decide : (0 : Int) ≤ 20000) (by decide) hlimit
  obtain ⟨-, hlength, -⟩ := hloop _ hwindow
  have hinput : nested.poolInput .zeroForOne 20000 = 19800 := by decide
  have hahead : (nested.route .zeroForOne (-60, 60) (Tick.minSqrtPrice + 1)).aheadCount
      (nested.windowTicks (-60, 60)) nested.tickCurrent = 2 := by
    rw [windowTicks, nested_activeTicks]
    decide
  rw [hahead, hinput] at hlength
  refine ⟨nested_consistent, nested_feesSound, hdirection, hslippage, hlimit, hwindow,
    fun q hq => ?_, ?_, hlength⟩
  · cases hfar.symm.trans hq
  · rcases houtcome with ⟨q, hq⟩ | ⟨cause, hdry⟩ | hshort
    · cases hfar.symm.trans hq
    · cases hfar.symm.trans hdry
    · exact hshort

end ConcentratedPool
end PoolSwap
