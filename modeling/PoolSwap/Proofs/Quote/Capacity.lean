import PoolSwap.Proofs.Quote.SpotPrice
import PoolSwap.Proofs.Walk.Capacity

/-! What a pool can take in. For each direction and limit there is one capacity: a trade is quoted
exactly if what reaches the pool is within it, and else it falls short by what is beyond it. -/
namespace PoolSwap.ConcentratedPool

variable {s : ConcentratedPool} {slippage : Scalar} {mintIn : Option Address}
  {limit : Option Int} {d : Direction} {bound amountIn : Int} {paid received : Address}

theorem Consistent.inBounds (hs : s.Consistent) (hlimit : s.limitInForce d limit = .ok bound) :
    (s.routeFor d bound).InBounds where
  lt_limit := (hs.limitInForce_spec hlimit).2.1
  limit_lt := (hs.limitInForce_spec hlimit).2.2

/-- The walks of a pool from its price to a limit share one capacity. -/
theorem Consistent.walked_capacity (hs : s.Consistent)
    (hlimit : s.limitInForce d limit = .ok bound) :
    ∃ capacity, ∃ shortfall : Shortfall, 0 ≤ capacity ∧ ∀ input, 0 ≤ input → input ≤ Tick.maxU64 →
      (input ≤ capacity → ∃ w stop, s.walked d bound input = .ok (w, stop)) ∧
      (capacity < input → s.walked d bound input = .error (shortfall.fault (input - capacity))) := by
  cases hwindow : s.coveredRange with
  | none =>
    refine ⟨0, .missingArrays s.tickCurrent .currentTickNotCovered, le_rfl,
      fun input hnonneg _ => ⟨fun hle => ?_, fun hlt => ?_⟩⟩
    · exact ⟨_, _, if_pos (le_antisymm hle hnonneg)⟩
    · unfold walked
      rw [if_neg hlt.ne', hwindow, sub_zero]
      rfl
  | some window =>
    cases hdry : s.isDry (s.route d window bound) with
    | true =>
      refine ⟨0, .noLiquidity s.poolId, le_rfl,
        fun input hnonneg _ => ⟨fun hle => ?_, fun hlt => ?_⟩⟩
      · exact ⟨_, _, if_pos (le_antisymm hle hnonneg)⟩
      · unfold walked
        rw [if_neg hlt.ne', hwindow]
        dsimp only
        rw [hdry]
        rfl
    | false =>
      -- No input is larger than 64 bits, so the walk of the largest one meets every leg.
      obtain ⟨largest, hlargest, -⟩ := exists_walkFor hwindow hdry Tick.maxU64
      have hstart := hs.underWay_start hlimit (by decide) le_rfl hlargest
      obtain ⟨capacity, shortfall, hcapacity, hmeets⟩ :=
        hstart.exists_capacity hs (hs.offers hlimit) (hs.inBounds hlimit) (walkFor_runs hlargest)
      refine ⟨capacity, shortfall, hcapacity, fun input hnonneg hmax => ?_⟩
      obtain ⟨w, hwalk, hwalked⟩ := exists_walkFor hwindow hdry input
      have hmeet := hmeets input w hnonneg hmax (walkFor_runs hwalk)
      rw [hwalked]
      refine ⟨fun hle => ?_, fun hlt => ?_⟩
      · obtain ⟨stop, hending⟩ := hmeet.within hle
        exact ⟨w, stop, by rw [hending]; rfl⟩
      · rw [hmeet.beyond hlt]
        rfl

theorem exists_priced (hs : s.Consistent) (hslippage : (Slippage.fraction? slippage).isSome)
    (d : Direction) (paid received : Address) (amountIn : Int) (limit : Option Int) (w : Walk)
    (stop : Position) :
    ∃ q, s.priced d paid received amountIn slippage limit w stop = .ok q := by
  obtain ⟨impact, himpact⟩ :=
    exists_impactBps hs.sqrtPrice_pos (s.poolInput d amountIn) w.grossOut d
  obtain ⟨least, hleast⟩ := Slippage.exists_apply hslippage
    (w.grossOut - transferFeeOn (s.transferFees d).2 w.grossOut)
  exact ⟨_, Checked.bind_eq_ok.2 ⟨impact, himpact, Checked.bind_eq_ok.2 ⟨least, hleast, rfl⟩⟩⟩

/-- With a trade that is in order, all that can fail is its walk. -/
theorem quote_eq_walked (hslippage : (Slippage.fraction? slippage).isSome)
    (hnonneg : 0 ≤ amountIn) (hmax : amountIn ≤ Tick.maxU64)
    (hdirection : directionFor s.mintA s.mintB mintIn = .ok (d, paid, received))
    (hlimit : s.limitInForce d limit = .ok bound) :
    s.quote (.int amountIn) slippage mintIn limit =
      s.walked d bound (s.poolInput d amountIn) >>= fun walked =>
        s.priced d paid received amountIn slippage limit walked.1 walked.2 := by
  obtain ⟨least, hleast⟩ := Slippage.exists_apply hslippage 0
  rw [quote_eq_priced, Quote.tradeAmount_eq_ok.2 ⟨rfl, hnonneg, hmax⟩, hdirection, hleast]
  change (s.limitInForce d limit >>= _) = _
  rw [hlimit]
  rfl

/-- For each direction and limit there is one capacity, and trades are quoted exactly if what
reaches the pool is within it. All others fail for one reason, at one place, and fall short by what
they are beyond the capacity. -/
theorem quote_iff_le_capacity (hs : s.Consistent) (hin : FeeSound (s.transferFees d).1)
    (hlimit : s.limitInForce d limit = .ok bound) :
    ∃ capacity, ∃ shortfall : Shortfall, 0 ≤ capacity ∧
      ∀ mintIn paid received slippage amountIn,
        directionFor s.mintA s.mintB mintIn = .ok (d, paid, received) →
        (Slippage.fraction? slippage).isSome → 0 ≤ amountIn → amountIn ≤ Tick.maxU64 →
        let poolInput := s.poolInput d amountIn
        ((∃ q, s.quote (.int amountIn) slippage mintIn limit = .ok q) ↔ poolInput ≤ capacity) ∧
        (capacity < poolInput → s.quote (.int amountIn) slippage mintIn limit =
          .error (shortfall.fault (poolInput - capacity))) := by
  obtain ⟨capacity, shortfall, hcapacity, hwalked⟩ := hs.walked_capacity hlimit
  refine ⟨capacity, shortfall, hcapacity, ?_⟩
  intro mintIn paid received slippage amountIn hdirection hslippage hnonneg hmax poolInput
  obtain ⟨hnonneg', hmax'⟩ := poolInput_inRange hin hnonneg hmax
  obtain ⟨hwithin, hbeyond⟩ := hwalked poolInput hnonneg' hmax'
  have hquote := quote_eq_walked hslippage hnonneg hmax hdirection hlimit
  have herror : capacity < poolInput → s.quote (.int amountIn) slippage mintIn limit =
      .error (shortfall.fault (poolInput - capacity)) := fun hlt => by
    rw [hquote, hbeyond hlt]
    rfl
  refine ⟨⟨fun ⟨q, hq⟩ => ?_, fun hle => ?_⟩, herror⟩
  · by_contra hlt
    cases hq.symm.trans (herror (not_le.1 hlt))
  · obtain ⟨w, stop, hok⟩ := hwithin hle
    rw [hquote, hok]
    exact exists_priced hs hslippage d paid received amountIn limit w stop

/-- A trade far beyond the lower position. What it falls short by gives the capacity, which an input
of 3042 just meets after the fee of the mint. -/
theorem quote_iff_le_capacity_nested :
    nested.Consistent ∧ FeeSound (nested.transferFees .zeroForOne).1 ∧
    nested.limitInForce .zeroForOne none = .ok (Tick.minSqrtPrice + 1) ∧
    nested.quote (.int 20000) (.int 0) none none =
      .error (.insufficientLiquidityData (-61) 16789 (.beyondWindow (-60) 60)) ∧
    nested.poolInput .zeroForOne 20000 - 16789 = nested.poolInput .zeroForOne 3042 ∧
    (∃ q, nested.quote (.int 3042) (.int 0) none none = .ok q) ∧
    nested.quote (.int 3043) (.int 0) none none =
      .error (.insufficientLiquidityData (-61) 1 (.beyondWindow (-60) 60)) := by
  have hin := nested_feesSound.paid .zeroForOne
  have hlimit : nested.limitInForce .zeroForOne none = .ok (Tick.minSqrtPrice + 1) := rfl
  have hdirection : directionFor nested.mintA nested.mintB none =
      .ok (.zeroForOne, .ofNat 2, .ofNat 3) := rfl
  have hslippage : (Slippage.fraction? (.int 0)).isSome := by decide +kernel
  have hfar : nested.quote (.int 20000) (.int 0) none none =
      .error (.insufficientLiquidityData (-61) 16789 (.beyondWindow (-60) 60)) := by
    simp only [quote, walkAlong, isDry, nested_activeTicks]
    decide +kernel
  obtain ⟨capacity, shortfall, -, hquotes⟩ :=
    quote_iff_le_capacity nested_consistent hin hlimit
  have hquote := fun amountIn => hquotes _ _ _ (.int 0) amountIn hdirection hslippage
  have hinput : nested.poolInput .zeroForOne 20000 = 19800 := by decide
  have hinput' : nested.poolInput .zeroForOne 3042 = 3011 := by decide
  have hinput'' : nested.poolInput .zeroForOne 3043 = 3012 := by decide
  obtain ⟨hiff, hbeyond⟩ := hquote 20000 (by decide) (by decide)
  have hlt : capacity < 19800 := by
    by_contra hle
    obtain ⟨q, hq⟩ := hiff.2 (hinput ▸ not_lt.1 hle)
    cases hfar.symm.trans hq
  rw [hinput] at hbeyond
  have hfault := Except.error.inj (hfar.symm.trans (hbeyond hlt))
  cases shortfall with
  | noLiquidity | priceBound => cases hfault
  | missingArrays tick cause =>
    obtain ⟨rfl, hmissing, rfl⟩ := Fault.insufficientLiquidityData.inj hfault
    obtain rfl : capacity = 3011 := by omega
    refine ⟨nested_consistent, hin, hlimit, hfar, by rw [hinput, hinput']; rfl, ?_, ?_⟩
    · exact (hquote 3042 (by decide) (by decide)).1.2 hinput'.le
    · rw [(hquote 3043 (by decide) (by decide)).2 (by rw [hinput'']; decide), hinput'']
      rfl

end PoolSwap.ConcentratedPool
