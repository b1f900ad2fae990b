import PoolSwap.Proofs.Quote.Capacity
import PoolSwap.Proofs.Walk.Output

/-! Fees that the mints withhold. They stand around the trade and not inside it: a quote is that of
what reaches the pool without such fees, less the fee on what the pool gives out. -/
namespace PoolSwap

/-- A quote of what reaches a pool, as a trade whose mints withhold a fee of the amount paid and one
of the amount received. -/
def Quote.withheld (q : Quote) (amountIn : Int) (fees : Option TransferFee × Option TransferFee)
    (slippage : Scalar) : Checked Quote := do
  let withheldOut := transferFeeOn fees.2 q.amountOut
  let minAmountOut ← Slippage.apply (q.amountOut - withheldOut) slippage
  pure { q with
    amountIn, minAmountOut, amountOut := q.amountOut - withheldOut,
    transferFees := transferFeeOn fees.1 amountIn + withheldOut }

theorem Quote.exists_withheld {slippage : Scalar}
    (hslippage : (Slippage.fraction? slippage).isSome) (q : Quote) (amountIn : Int)
    (fees : Option TransferFee × Option TransferFee) :
    ∃ least, Slippage.apply (q.amountOut - transferFeeOn fees.2 q.amountOut) slippage = .ok least ∧
      q.withheld amountIn fees slippage = .ok { q with
        amountIn, amountOut := q.amountOut - transferFeeOn fees.2 q.amountOut,
        minAmountOut := least,
        transferFees := transferFeeOn fees.1 amountIn + transferFeeOn fees.2 q.amountOut } := by
  obtain ⟨least, hleast⟩ :=
    Slippage.exists_apply hslippage (q.amountOut - transferFeeOn fees.2 q.amountOut)
  exact ⟨least, hleast, Checked.bind_eq_ok.2 ⟨least, hleast, rfl⟩⟩

namespace ConcentratedPool

/-- A pool of mints that withhold nothing. -/
def withoutFees (s : ConcentratedPool) : ConcentratedPool :=
  { s with transferFeeA := none, transferFeeB := none }

variable {s : ConcentratedPool} {slippage : Scalar} {mintIn : Option Address}
  {limit : Option Int} {d : Direction} {bound poolInput amountIn : Int} {w : Walk} {stop : Position}
  {paid received : Address} {q : Quote}

section WithoutFees

variable (s d)

@[simp] theorem withoutFees_transferFees : s.withoutFees.transferFees d = (none, none) := by
  cases d <;> rfl

@[simp] theorem withoutFees_walked (bound poolInput : Int) :
    s.withoutFees.walked d bound poolInput = s.walked d bound poolInput := rfl

@[simp] theorem withoutFees_poolInput (amountIn : Int) :
    s.withoutFees.poolInput d amountIn = amountIn := by
  simp [poolInput, transferFeeOn]

end WithoutFees

/-- The price of a walk is that of the walk without fees, less what the mints withhold. -/
theorem priced_eq_withheld (hslippage : (Slippage.fraction? slippage).isSome) (d : Direction)
    (paid received : Address) (amountIn : Int) (limit : Option Int) (w : Walk) (stop : Position) :
    s.priced d paid received amountIn slippage limit w stop =
      s.withoutFees.priced d paid received (s.poolInput d amountIn) slippage limit w stop >>=
        fun q => q.withheld amountIn (s.transferFees d) slippage := by
  obtain ⟨least, hleast⟩ := Slippage.exists_apply hslippage w.grossOut
  have hleast : Slippage.apply w.grossOut slippage = pure least := hleast
  have hnone : transferFeeOn none w.grossOut = 0 := rfl
  simp only [priced, Quote.withheld, withoutFees_transferFees, withoutFees_poolInput, hnone,
    sub_zero, bind_assoc, hleast, pure_bind]
  rfl

/-- A quote of a trade in order is that of what reaches the pool, less what the mints withhold. -/
theorem quote_eq_withheld (hfees : FeeSound (s.transferFees d).1)
    (hslippage : (Slippage.fraction? slippage).isSome) (hnonneg : 0 ≤ amountIn)
    (hmax : amountIn ≤ Tick.maxU64)
    (hdirection : directionFor s.mintA s.mintB mintIn = .ok (d, paid, received))
    (hlimit : s.limitInForce d limit = .ok bound) :
    s.quote (.int amountIn) slippage mintIn limit =
      s.withoutFees.quote (.int (s.poolInput d amountIn)) slippage mintIn limit >>=
        fun q => q.withheld amountIn (s.transferFees d) slippage := by
  obtain ⟨hnonneg', hmax'⟩ := poolInput_inRange hfees hnonneg hmax
  have hfree := quote_eq_walked (s := s.withoutFees) hslippage hnonneg' hmax' hdirection hlimit
  rw [withoutFees_poolInput, withoutFees_walked] at hfree
  rw [quote_eq_walked hslippage hnonneg hmax hdirection hlimit, hfree, bind_assoc]
  exact bind_congr fun (w, stop) => priced_eq_withheld hslippage d paid received amountIn limit w stop

theorem limitInForce_pos (hprice : 0 < s.sqrtPrice) (h : s.limitInForce d limit = .ok bound) :
    0 < bound := by
  have hmin : 0 < Tick.minSqrtPrice := by decide
  unfold limitInForce at h
  split at h
  case h_1 =>
    cases h
    omega
  case h_2 =>
    cases h
    decide
  case h_3 l =>
    split at h
    case isTrue hl =>
      cases h
      omega
    case isFalse => cases h
  case h_4 l =>
    split at h
    case isTrue hl =>
      cases h
      omega
    case isFalse => cases h

/-- A quoted output is never negative, wherever the ticks of the pool lie. -/
theorem Quoted.grossOut_nonneg {amount : Scalar} (hprice : 0 < s.sqrtPrice)
    (hliquidity : 0 ≤ s.liquidity) (hfee : s.feeRate ≤ SwapStep.feeRateUnit)
    (hq : s.Quoted amount slippage mintIn limit d bound w stop q) : 0 ≤ w.grossOut :=
  (walkFor_runs hq.walk_eq).grossOut_nonneg
    (show 0 < (s.routeFor d bound).sqrtPriceLimit from limitInForce_pos hprice hq.limit_eq) hfee
    ⟨hprice, hliquidity⟩

/-- Of a trade without fees of the mints, the output is that of the walk. -/
theorem withoutFees_amountOut_nonneg {amount : Scalar} (hprice : 0 < s.sqrtPrice)
    (hliquidity : 0 ≤ s.liquidity) (hfee : s.feeRate ≤ SwapStep.feeRateUnit)
    (h : s.withoutFees.quote amount slippage mintIn limit = .ok q) : 0 ≤ q.amountOut := by
  obtain ⟨d, bound, w, stop, hq⟩ := quote_eq_ok h
  have hnone : transferFeeOn none w.grossOut = 0 := rfl
  rw [hq.amountOut_eq, withoutFees_transferFees, hnone, sub_zero]
  exact hq.grossOut_nonneg (s := s.withoutFees) hprice hliquidity hfee

/-- The fees of the mints factor through the quote without them. A trade is quoted exactly if what
reaches the pool is, with the same fault else, and the two quotes differ by what the mints withhold
and by the least output, which is that of the output that arrives. -/
theorem quote_factors (hprice : 0 < s.sqrtPrice) (hliquidity : 0 ≤ s.liquidity)
    (hfee : s.feeRate < SwapStep.feeRateUnit) (hfees : s.FeesSound)
    (hslippage : (Slippage.fraction? slippage).isSome) (hnonneg : 0 ≤ amountIn)
    (hmax : amountIn ≤ Tick.maxU64)
    (hdirection : directionFor s.mintA s.mintB mintIn = .ok (d, paid, received))
    (hlimit : s.limitInForce d limit = .ok bound) :
    let withheldIn := transferFeeOn (s.transferFees d).1 amountIn
    let free := s.withoutFees.quote (.int (amountIn - withheldIn)) slippage mintIn limit
    0 ≤ amountIn - withheldIn ∧
    (∀ f, s.quote (.int amountIn) slippage mintIn limit = .error f ↔ free = .error f) ∧
    ∀ q₀, free = .ok q₀ →
      let withheldOut := transferFeeOn (s.transferFees d).2 q₀.amountOut
      0 ≤ q₀.amountOut - withheldOut ∧
      ∃ least, Slippage.apply (q₀.amountOut - withheldOut) slippage = .ok least ∧
        s.quote (.int amountIn) slippage mintIn limit = .ok { q₀ with
          amountIn, amountOut := q₀.amountOut - withheldOut, minAmountOut := least,
          transferFees := withheldIn + withheldOut } := by
  intro withheldIn free
  have hquote : s.quote (.int amountIn) slippage mintIn limit =
      free >>= fun q => q.withheld amountIn (s.transferFees d) slippage :=
    quote_eq_withheld (hfees.paid d) hslippage hnonneg hmax hdirection hlimit
  have hwithheld := fun q : Quote => q.exists_withheld hslippage amountIn (s.transferFees d)
  refine ⟨sub_transferFeeOn_nonneg (hfees.paid d) hnonneg, fun f => ?_, fun q₀ hfree => ?_⟩
  · rw [hquote, Checked.bind_eq_error]
    refine or_iff_left fun ⟨q₀, _, herror⟩ => ?_
    obtain ⟨least, -, hok⟩ := hwithheld q₀
    cases hok.symm.trans herror
  · obtain ⟨least, hleast, hok⟩ := hwithheld q₀
    have hout := withoutFees_amountOut_nonneg hprice hliquidity hfee.le hfree
    refine ⟨sub_transferFeeOn_nonneg (hfees.received d) hout, least, hleast, ?_⟩
    rw [hquote]
    exact Checked.bind_eq_ok.2 ⟨q₀, hfree, hok⟩

/-- The pool `nested` with a fee on the mint received too, of no more than 30. -/
def nestedWithheld : ConcentratedPool := { nested with transferFeeB := some ⟨200, 30⟩ }

theorem nestedWithheld_feesSound : nestedWithheld.FeesSound where
  feeA := nested_feesSound.feeA
  feeB := by
    rintro f ⟨⟩
    exact ⟨by decide, by decide, by decide⟩

theorem nestedWithheld_free :
    nestedWithheld.withoutFees.quote (.int 1980) (.int 0) none none = .ok {
      kind := .concentrated, mintIn := .ofNat 2, mintOut := .ofNat 3, amountIn := 1980,
      amountOut := 1971, minAmountOut := 1971, fee := 6, impactBps := 45,
      arraysCrossed := [0, -60], sqrtPriceAfter := some 18428810997543547201,
      transferFees := 0, sqrtPriceLimit := 0 } := by
  have hticks : nestedWithheld.withoutFees.activeTicks = nested.activeTicks := rfl
  simp only [quote, walkAlong, isDry, hticks, nested_activeTicks]
  decide +kernel

/-- A trade of 2000, of which 20 are withheld before the walk and 30 after it. -/
theorem quote_factors_nested :
    (0 : Int) ≤ 2000 - 20 ∧
    (∀ f, nestedWithheld.quote (.int 2000) (.int 0) none none ≠ .error f) ∧
    nestedWithheld.quote (.int 2000) (.int 0) none none = .ok {
      kind := .concentrated, mintIn := .ofNat 2, mintOut := .ofNat 3, amountIn := 2000,
      amountOut := 1941, minAmountOut := 1941, fee := 6, impactBps := 45,
      arraysCrossed := [0, -60], sqrtPriceAfter := some 18428810997543547201,
      transferFees := 50, sqrtPriceLimit := 0 } := by
  have hin : transferFeeOn (nestedWithheld.transferFees .zeroForOne).1 2000 = 20 := by decide
  have hout : transferFeeOn (nestedWithheld.transferFees .zeroForOne).2 1971 = 30 := by decide
  have hdirection : directionFor nestedWithheld.mintA nestedWithheld.mintB none =
      .ok (.zeroForOne, .ofNat 2, .ofNat 3) := rfl
  have hslippage : (Slippage.fraction? (.int 0)).isSome := by decide +kernel
  have hlimit : nestedWithheld.limitInForce .zeroForOne none = .ok (Tick.minSqrtPrice + 1) := rfl
  have hfactors := quote_factors (by decide) (by decide) (by decide) nestedWithheld_feesSound
    hslippage (show (0 : Int) ≤ 2000 by decide) (by decide) hdirection hlimit
  dsimp only at hfactors
  rw [hin, show (2000 : Int) - 20 = 1980 by decide] at hfactors
  obtain ⟨hinput, hfault, hquote⟩ := hfactors
  obtain ⟨-, least, hleast, hok⟩ := hquote _ nestedWithheld_free
  dsimp only at hleast hok
  rw [hout, show (1971 : Int) - 30 = 1941 by decide] at hleast hok
  have hleast' : Slippage.apply 1941 (.int 0) = .ok 1941 := by decide +kernel
  obtain rfl := Except.ok.inj (hleast'.symm.trans hleast)
  refine ⟨hinput, fun f hf => ?_, hok⟩
  cases nestedWithheld_free.symm.trans ((hfault f).1 hf)

end ConcentratedPool
end PoolSwap
