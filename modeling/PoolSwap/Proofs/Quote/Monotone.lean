import PoolSwap.Proofs.Quote.Account
import PoolSwap.Proofs.Walk.Monotone

/-! Quotes of larger trades. Transfer fees leave more of a larger amount, on the way in and on the
way out, so that a larger trade never yields less. -/
namespace PoolSwap.ConcentratedPool

variable {s : ConcentratedPool} {slippage slippage' : Scalar} {mintIn : Option Address}
  {limit : Option Int} {d d' : Direction} {bound bound' x y : Int} {w w' : Walk}
  {stop stop' : Position} {paid received : Address} {q q' : Quote} {amount amount' : Scalar}

theorem Quoted.walk_le (hs : s.Consistent) (hin : FeeSound (s.transferFees d).1)
    (hq : s.Quoted amount slippage mintIn limit d bound w stop q)
    (hq' : s.Quoted amount' slippage' mintIn limit d bound w' stop' q')
    (hle : q.amountIn ≤ q'.amountIn) :
    w.grossOut ≤ w'.grossOut ∧ d.Leads stop.sqrtPrice stop'.sqrtPrice := by
  have hinput : s.poolInput d q.amountIn ≤ s.poolInput d q'.amountIn :=
    sub_transferFeeOn_le hin hle
  exact (hq.underWay hs hin).run_withInput hs (hs.offers hq.limit_eq) (walkFor_runs hq.walk_eq)
    (walkFor_runs hq'.walk_eq) (hq'.underWay hs hin) hinput hq.ending_eq hq'.ending_eq

/-- A larger input yields no less output and moves the price at least as far. -/
theorem quote_le_quote (hs : s.Consistent) (hfees : s.FeesSound)
    (hdirection : directionFor s.mintA s.mintB mintIn = .ok (d, paid, received))
    (hxy : x ≤ y) (hquote : s.quote (.int x) slippage mintIn limit = .ok q)
    (hquote' : s.quote (.int y) slippage' mintIn limit = .ok q') :
    q.amountOut ≤ q'.amountOut ∧ ∃ price price', q.sqrtPriceAfter = some price ∧
      q'.sqrtPriceAfter = some price' ∧ d.Leads s.sqrtPrice price ∧ d.Leads price price' := by
  obtain ⟨d₁, bound, w, stop, hq⟩ := quote_eq_ok hquote
  obtain ⟨d₂, bound', w', stop', hq'⟩ := quote_eq_ok hquote'
  obtain rfl : d₁ = d := congrArg Prod.fst (Except.ok.inj (hq.mints_eq.symm.trans hdirection))
  obtain rfl : d₂ = d₁ := congrArg Prod.fst (Except.ok.inj (hq'.mints_eq.symm.trans hdirection))
  obtain rfl : bound' = bound := Except.ok.inj (hq'.limit_eq.symm.trans hq.limit_eq)
  have hx := Scalar.int.inj (Quote.tradeAmount_eq_ok.1 hq.amountIn_eq).1
  have hy := Scalar.int.inj (Quote.tradeAmount_eq_ok.1 hq'.amountIn_eq).1
  obtain ⟨hgross, hprice⟩ := hq.walk_le hs (hfees.paid d₂) hq' (by omega)
  refine ⟨?_, stop.sqrtPrice, stop'.sqrtPrice, hq.sqrtPriceAfter_eq, hq'.sqrtPriceAfter_eq,
    (hq.endsAt hs (hfees.paid d₂)).stop_underWay.start_leads, hprice⟩
  rw [hq.amountOut_eq, hq'.amountOut_eq]
  exact sub_transferFeeOn_le (hfees.received d₂) hgross

/-- A trade inside the inner position, and one that leaves it. -/
theorem quote_le_quote_nested :
    nested.Consistent ∧ nested.FeesSound ∧
    directionFor nested.mintA nested.mintB none = .ok (.zeroForOne, .ofNat 2, .ofNat 3) ∧
    (∃ q q', nested.quote (.int 1500) (.int 0) none none = .ok q ∧
      nested.quote (.int 2000) (.int 0) none none = .ok q' ∧
      q.amountOut = 1480 ∧ q'.amountOut = 1971 ∧ q.amountOut ≤ q'.amountOut ∧
      ∃ price price', q.sqrtPriceAfter = some price ∧ q'.sqrtPriceAfter = some price' ∧
        price' ≤ price) := by
  have hdirection : directionFor nested.mintA nested.mintB none =
      .ok (.zeroForOne, .ofNat 2, .ofNat 3) := rfl
  have hquote : nested.quote (.int 1500) (.int 0) none none = .ok {
      kind := .concentrated, mintIn := .ofNat 2, mintOut := .ofNat 3, amountIn := 1500,
      amountOut := 1480, minAmountOut := 1480, fee := 4, impactBps := 33, arraysCrossed := [0],
      sqrtPriceAfter := some 18437642024430157929, transferFees := 15, sqrtPriceLimit := 0 } := by
    simp only [quote, walkAlong, isDry, nested_activeTicks]
    decide +kernel
  obtain ⟨hout, price, price', hprice, hprice', -, hle⟩ := quote_le_quote nested_consistent
    nested_feesSound hdirection (by decide : (1500 : Int) ≤ 2000) hquote nested_quote
  exact ⟨nested_consistent, nested_feesSound, hdirection, _, _, hquote, nested_quote, rfl, rfl,
    hout, price, price', hprice, hprice', hle⟩

end PoolSwap.ConcentratedPool
