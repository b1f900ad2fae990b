import PoolSwap.Proofs.Quote.Fields
import PoolSwap.Proofs.Walk.Account

/-! The account of a quote: where the input of a trade goes, and where its output comes from. -/
namespace PoolSwap.ConcentratedPool

structure FeesSound (s : ConcentratedPool) : Prop where
  feeA : FeeSound s.transferFeeA
  feeB : FeeSound s.transferFeeB

/-- The route of the walks up to a limit. Only a walk without input has no window. -/
def routeFor (s : ConcentratedPool) (d : Direction) (bound : Int) : Route :=
  s.route d (s.coveredRange.getD (0, 0)) bound

variable {s : ConcentratedPool} {amount slippage : Scalar} {mintIn : Option Address}
  {limit : Option Int} {d : Direction} {bound poolInput : Int} {w : Walk} {stop : Position}
  {q : Quote}

theorem FeesSound.paid (h : s.FeesSound) (d : Direction) : FeeSound (s.transferFees d).1 := by
  cases d
  · exact h.feeA
  · exact h.feeB

theorem FeesSound.received (h : s.FeesSound) (d : Direction) : FeeSound (s.transferFees d).2 := by
  cases d
  · exact h.feeB
  · exact h.feeA

theorem nested_feesSound : nested.FeesSound where
  feeA := by
    rintro f ⟨⟩
    exact ⟨by decide, by decide, by decide⟩
  feeB := by rintro f ⟨⟩

theorem walkFor_runs (h : s.walkFor d bound poolInput = some w) :
    (s.routeFor d bound).Runs ((s.routeFor d bound).ticksInOrder s.activeTicks)
      (s.position poolInput) w := by
  unfold walkFor at h
  split at h
  case isTrue hzero =>
    cases h
    exact .done (show poolInput ≤ 0 from hzero.le)
  case isFalse =>
    obtain ⟨window, hwindow, rfl⟩ := Option.map_eq_some_iff.1 h
    unfold routeFor
    rw [hwindow]
    exact Route.walk_runs _ _ _

theorem exists_window_of_walkFor (hne : poolInput ≠ 0)
    (h : s.walkFor d bound poolInput = some w) :
    ∃ window, s.coveredRange = some window ∧ s.routeFor d bound = s.route d window bound := by
  rw [walkFor, if_neg hne] at h
  obtain ⟨window, hwindow, -⟩ := Option.map_eq_some_iff.1 h
  exact ⟨window, hwindow, by rw [routeFor, hwindow]; rfl⟩

theorem Consistent.offers (hs : s.Consistent) (hlimit : s.limitInForce d limit = .ok bound) :
    s.Offers (s.routeFor d bound) where
  feeRate_eq := rfl
  limit_pos := (show 0 < Tick.minSqrtPrice by decide).trans (hs.limitInForce_spec hlimit).2.1

theorem Consistent.underWay_start (hs : s.Consistent) (hlimit : s.limitInForce d limit = .ok bound)
    (hnonneg : 0 ≤ poolInput) (hmax : poolInput ≤ Tick.maxU64)
    (hwalk : s.walkFor d bound poolInput = some w) :
    s.UnderWay (s.routeFor d bound) (s.position poolInput) where
  left_nonneg := hnonneg
  left_le := hmax
  onCourse hpos := by
    have hpos : 0 < poolInput := hpos
    obtain ⟨window, hwindow, hroute⟩ := exists_window_of_walkFor hpos.ne' hwalk
    exact hroute ▸ hs.onCourse_start hlimit hwindow poolInput
  start_leads := d.leads_refl _
  leads_limit := (hs.limitInForce_spec hlimit).1

theorem poolInput_inRange (hin : FeeSound (s.transferFees d).1) {amountIn : Int}
    (hnonneg : 0 ≤ amountIn) (hmax : amountIn ≤ Tick.maxU64) :
    0 ≤ s.poolInput d amountIn ∧ s.poolInput d amountIn ≤ Tick.maxU64 := by
  have hfee := transferFeeOn_nonneg hin hnonneg
  have hrest := sub_transferFeeOn_nonneg hin hnonneg
  unfold poolInput
  omega

theorem Quoted.underWay (hs : s.Consistent) (hin : FeeSound (s.transferFees d).1)
    (hq : s.Quoted amount slippage mintIn limit d bound w stop q) :
    s.UnderWay (s.routeFor d bound) (s.position (s.poolInput d q.amountIn)) := by
  obtain ⟨-, hnonneg, hmax⟩ := Quote.tradeAmount_eq_ok.1 hq.amountIn_eq
  obtain ⟨hnonneg', hmax'⟩ := poolInput_inRange hin hnonneg hmax
  exact hs.underWay_start hq.limit_eq hnonneg' hmax' hq.walk_eq

theorem Quoted.legs (hs : s.Consistent) (hin : FeeSound (s.transferFees d).1)
    (hq : s.Quoted amount slippage mintIn limit d bound w stop q) :
    ∀ l ∈ w.legs, s.LegKept (s.routeFor d bound)
      ((s.routeFor d bound).ticksInOrder s.activeTicks) l :=
  (hq.underWay hs hin).legs hs (hs.offers hq.limit_eq) (walkFor_runs hq.walk_eq)

theorem Quoted.endsAt (hs : s.Consistent) (hin : FeeSound (s.transferFees d).1)
    (hq : s.Quoted amount slippage mintIn limit d bound w stop q) :
    s.EndsAt (s.routeFor d bound) (s.position (s.poolInput d q.amountIn)) w stop :=
  (hq.underWay hs hin).endsAt hs (hs.offers hq.limit_eq) (walkFor_runs hq.walk_eq) hq.ending_eq

/-- A quote through the upper tick of the inner position, with a fee on its input. -/
theorem nested_quote : nested.quote (.int 2000) (.int 0) none none = .ok {
    kind := .concentrated, mintIn := .ofNat 2, mintOut := .ofNat 3, amountIn := 2000,
    amountOut := 1971, minAmountOut := 1971, fee := 6, impactBps := 45, arraysCrossed := [0, -60],
    sqrtPriceAfter := some 18428810997543547201, transferFees := 20, sqrtPriceLimit := 0 } := by
  simp only [quote, walkAlong, isDry, nested_activeTicks]
  decide +kernel

/-- Of the input that reaches the pool, all is traded or paid as fee, and the fee is at least its
share. The output of the pool is the quoted one and what the mint withholds of it. The input left
is never negative, and the price moves in the direction of the trade alone, up to the limit. -/
theorem quote_accounts (hs : s.Consistent) (hfees : s.FeesSound)
    (hquote : s.quote amount slippage mintIn limit = .ok q) :
    ∃ d bound w price, directionFor s.mintA s.mintB mintIn = .ok (d, q.mintIn, q.mintOut) ∧
      s.limitInForce d limit = .ok bound ∧
      s.walkFor d bound (s.poolInput d q.amountIn) = some w ∧
      w.traded + q.fee = s.poolInput d q.amountIn ∧
      (∀ l ∈ w.legs, 0 ≤ l.start.remaining ∧ 0 ≤ l.stop.remaining ∧
        d.Leads l.start.sqrtPrice l.stop.sqrtPrice) ∧
      ceilDiv (s.poolInput d q.amountIn * s.feeRate) SwapStep.feeRateUnit ≤ q.fee ∧
      w.grossOut = q.amountOut + transferFeeOn (s.transferFees d).2 w.grossOut ∧
      0 ≤ q.amountOut ∧ q.sqrtPriceAfter = some price ∧
      d.Leads s.sqrtPrice price ∧ d.Leads price bound := by
  obtain ⟨d, bound, w, stop, hq⟩ := quote_eq_ok hquote
  have hlegs := hq.legs hs (hfees.paid d)
  have hend := hq.endsAt hs (hfees.paid d)
  have hspent : w.traded + q.fee = s.poolInput d q.amountIn := hq.fee_eq ▸ hend.spent
  refine ⟨d, bound, w, stop.sqrtPrice, hq.mints_eq, hq.limit_eq, hq.walk_eq, hspent, ?_, ?_, ?_, ?_,
    hq.sqrtPriceAfter_eq, hend.stop_underWay.start_leads, hend.stop_underWay.leads_limit⟩
  · intro l hl
    have hkept := hlegs l hl
    have hpaid := hkept.settles.spent_le
    have hleft := hkept.stop_remaining
    refine ⟨hkept.start_underWay.left_nonneg, by omega, ?_⟩
    rw [hkept.stop_sqrtPrice]
    exact hkept.settles.leads
  · have hshare := fees_share hlegs
    rw [ceilDiv_le_iff SwapStep.feeRateUnit_pos, ← hspent, hq.fee_eq]
    exact hshare
  · rw [hq.amountOut_eq]
    omega
  · rw [hq.amountOut_eq]
    exact sub_transferFeeOn_nonneg (hfees.received d) (grossOut_nonneg hlegs)

/-- The account of the quote through a tick. -/
theorem quote_accounts_nested :
    nested.Consistent ∧ nested.FeesSound ∧
    (∃ q, nested.quote (.int 2000) (.int 0) none none = .ok q ∧ q.fee = 6 ∧ q.amountOut = 1971) ∧
    ∃ w, nested.walkFor .zeroForOne (Tick.minSqrtPrice + 1) 1980 = some w ∧
      w.traded + 6 = 1980 ∧ ceilDiv (1980 * 2500) 1000000 ≤ 6 ∧ w.grossOut = 1971 := by
  obtain ⟨d, bound, w, price, hmints, hlimit, hwalk, hspent, -, hshare, hgross, -⟩ :=
    quote_accounts nested_consistent nested_feesSound nested_quote
  cases hmints
  cases hlimit
  exact ⟨nested_consistent, nested_feesSound, ⟨_, nested_quote, rfl, rfl⟩, w, hwalk, hspent,
    hshare, hgross⟩

end PoolSwap.ConcentratedPool
