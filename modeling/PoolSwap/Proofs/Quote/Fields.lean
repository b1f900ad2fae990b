import PoolSwap.Proofs.Checked
import PoolSwap.Proofs.Slippage.Floor
import PoolSwap.Quote.Concentrated

/-! The fields of a quote of a concentrated pool, by the walk it is made from. -/
namespace PoolSwap

theorem Quote.tradeAmount_eq_ok {amount : Scalar} {n : Int} :
    tradeAmount amount = .ok n ↔ amount = .int n ∧ 0 ≤ n ∧ n ≤ Tick.maxU64 := by
  constructor
  · intro h
    unfold tradeAmount at h
    split at h
    case h_1 m =>
      split at h
      case isTrue => cases h
      case isFalse hnonneg =>
        split at h
        case isTrue => cases h
        case isFalse hle =>
          cases h
          exact ⟨rfl, not_lt.1 hnonneg, not_lt.1 hle⟩
    case h_2 => cases h
  · rintro ⟨rfl, hnonneg, hle⟩
    simp only [tradeAmount, if_neg (not_lt.2 hnonneg), if_neg (not_lt.2 hle)]

/-- A fee of at most the whole amount, as the token program admits. -/
structure TransferFee.Sound (f : TransferFee) : Prop where
  basisPoints_nonneg : 0 ≤ f.basisPoints
  basisPoints_le : f.basisPoints ≤ 10000
  maximum_nonneg : 0 ≤ f.maximum

def FeeSound (fee : Option TransferFee) : Prop := ∀ f, fee = some f → f.Sound

section TransferFee

variable {fee : Option TransferFee} {x y : Int}

/-- What is left of an amount after a transfer: the amount less its share, or less the maximum. -/
theorem TransferFee.Sound.sub_on {f : TransferFee} (hf : f.Sound) (x : Int) :
    x - f.on x = if f.basisPoints = 0 then x
      else max (x - ceilDiv (x * f.basisPoints) 10000) (x - f.maximum) := by
  have hmax := hf.maximum_nonneg
  unfold on
  by_cases hb : f.basisPoints = 0
  · simp [hb]
  · by_cases hx : x = 0
    · simp [hx, hb, ceilDiv, hmax]
    · simp only [hb, hx, or_self, if_false]
      omega

theorem transferFeeOn_nonneg (hfee : FeeSound fee) (hx : 0 ≤ x) : 0 ≤ transferFeeOn fee x := by
  cases fee with
  | none => exact le_rfl
  | some f =>
    have hf := hfee f rfl
    unfold transferFeeOn TransferFee.on
    dsimp only
    split
    · exact le_rfl
    · exact le_min (ceilDiv_nonneg (by decide) (mul_nonneg hx hf.basisPoints_nonneg))
        hf.maximum_nonneg

theorem sub_transferFeeOn_le (hfee : FeeSound fee) (hxy : x ≤ y) :
    x - transferFeeOn fee x ≤ y - transferFeeOn fee y := by
  cases fee with
  | none => simpa [transferFeeOn] using hxy
  | some f =>
    have hf := hfee f rfl
    have hb := hf.basisPoints_le
    unfold transferFeeOn
    dsimp only
    rw [hf.sub_on, hf.sub_on]
    split
    · exact hxy
    · -- The share of the difference is at most the difference.
      have hshare : ceilDiv (y * f.basisPoints) 10000 ≤
          ceilDiv (x * f.basisPoints) 10000 + (y - x) := by
        rw [ceilDiv_le_iff (by decide)]
        have hup := le_ceilDiv_mul (show (0 : Int) < 10000 by decide) (x * f.basisPoints)
        have hrest : (y - x) * f.basisPoints ≤ (y - x) * 10000 :=
          mul_le_mul_of_nonneg_left hb (by omega)
        linarith
      exact max_le_max (by omega) (by omega)

theorem transferFeeOn_zero (fee : Option TransferFee) : transferFeeOn fee 0 = 0 := by
  cases fee <;> simp [transferFeeOn, TransferFee.on]

theorem sub_transferFeeOn_nonneg (hfee : FeeSound fee) (hx : 0 ≤ x) :
    0 ≤ x - transferFeeOn fee x := by
  have h := sub_transferFeeOn_le hfee hx
  rwa [transferFeeOn_zero, sub_zero] at h

end TransferFee

namespace ConcentratedPool

def poolInput (s : ConcentratedPool) (d : Direction) (amountIn : Int) : Int :=
  amountIn - transferFeeOn (s.transferFees d).1 amountIn

/-- The walk of a pool input up to a limit: none without input, and in a window else. -/
def walkFor (s : ConcentratedPool) (d : Direction) (bound poolInput : Int) : Option Walk :=
  if poolInput = 0 then some ⟨[], .ok (s.position poolInput)⟩
  else s.coveredRange.map fun window => s.walkAlong (s.route d window bound) poolInput

/-- How each field of a quote comes from the trade asked for and the walk. -/
structure Quoted (s : ConcentratedPool) (amount slippage : Scalar) (mintIn : Option Address)
    (limit : Option Int) (d : Direction) (bound : Int) (w : Walk) (stop : Position) (q : Quote) :
    Prop where
  kind_eq : q.kind = .concentrated
  amountIn_eq : Quote.tradeAmount amount = .ok q.amountIn
  mints_eq : directionFor s.mintA s.mintB mintIn = .ok (d, q.mintIn, q.mintOut)
  limit_eq : s.limitInForce d limit = .ok bound
  walk_eq : s.walkFor d bound (s.poolInput d q.amountIn) = some w
  ending_eq : w.ending = .ok stop
  amountOut_eq : q.amountOut = w.grossOut - transferFeeOn (s.transferFees d).2 w.grossOut
  minAmountOut_eq : Slippage.apply q.amountOut slippage = .ok q.minAmountOut
  fee_eq : q.fee = w.fees
  impactBps_eq : impactBps (s.poolInput d q.amountIn) w.grossOut s.sqrtPrice d = .ok q.impactBps
  arraysCrossed_eq : q.arraysCrossed = w.arraysCrossed s.tickSpacing
  sqrtPriceAfter_eq : q.sqrtPriceAfter = some stop.sqrtPrice
  transferFees_eq : q.transferFees = transferFeeOn (s.transferFees d).1 q.amountIn +
    transferFeeOn (s.transferFees d).2 w.grossOut
  sqrtPriceLimit_eq : q.sqrtPriceLimit = limit.getD 0

/-- The walk of a pool input and the position where it ends well, or what keeps it from that. -/
def walked (s : ConcentratedPool) (d : Direction) (bound poolInput : Int) :
    Checked (Walk × Position) :=
  if poolInput = 0 then .ok (⟨[], .ok (s.position poolInput)⟩, s.position poolInput)
  else match s.coveredRange with
  | none => .error (.insufficientLiquidityData s.tickCurrent poolInput .currentTickNotCovered)
  | some window =>
    let r := s.route d window bound
    if s.isDry r then .error (.insufficientLiquidity (.noneInRange s.poolId))
    else
      let w := s.walkAlong r poolInput
      w.ending.map fun stop => (w, stop)

/-- The quote that a walk comes to. -/
def priced (s : ConcentratedPool) (d : Direction) (paid received : Address) (amountIn : Int)
    (slippage : Scalar) (limit : Option Int) (w : Walk) (stop : Position) : Checked Quote := do
  let withheldIn := transferFeeOn (s.transferFees d).1 amountIn
  let withheldOut := transferFeeOn (s.transferFees d).2 w.grossOut
  let amountOut := w.grossOut - withheldOut
  let impact ← impactBps (s.poolInput d amountIn) w.grossOut s.sqrtPrice d
  let minAmountOut ← Slippage.apply amountOut slippage
  pure {
    kind := .concentrated, mintIn := paid, mintOut := received, amountIn, amountOut,
    minAmountOut, fee := w.fees, impactBps := impact,
    arraysCrossed := w.arraysCrossed s.tickSpacing,
    sqrtPriceAfter := some stop.sqrtPrice, transferFees := withheldIn + withheldOut,
    sqrtPriceLimit := limit.getD 0 }

variable {s : ConcentratedPool} {amount slippage : Scalar} {mintIn : Option Address}
  {limit : Option Int} {d : Direction} {bound poolInput : Int} {w : Walk} {stop : Position}
  {q : Quote}

/-- A walk without input comes to the quote of nothing. -/
theorem priced_of_poolInput_zero {amountIn : Int} (hzero : s.poolInput d amountIn = 0)
    (hslippage : Slippage.apply 0 slippage = .ok 0) (paid received : Address)
    (limit : Option Int) :
    s.priced d paid received amountIn slippage limit ⟨[], .ok (s.position 0)⟩ (s.position 0) =
      .ok {
        kind := .concentrated, mintIn := paid, mintOut := received, amountIn,
        amountOut := 0, minAmountOut := 0, fee := 0, impactBps := 0, arraysCrossed := [],
        sqrtPriceAfter := some s.sqrtPrice,
        transferFees := transferFeeOn (s.transferFees d).1 amountIn,
        sqrtPriceLimit := limit.getD 0 } := by
  have hnothing : (⟨[], .ok (s.position 0)⟩ : Walk).grossOut = 0 := rfl
  have himpact : impactBps 0 0 s.sqrtPrice d = .ok 0 := rfl
  simp only [priced, hnothing, transferFeeOn_zero, sub_zero, add_zero, hzero, himpact, hslippage]
  rfl

theorem priced_sqrtPriceAfter {paid received : Address} {amountIn : Int}
    (h : s.priced d paid received amountIn slippage limit w stop = .ok q) :
    q.sqrtPriceAfter = some stop.sqrtPrice := by
  obtain ⟨impact, -, h⟩ := Checked.bind_eq_ok.1 h
  obtain ⟨minAmountOut, -, h⟩ := Checked.bind_eq_ok.1 h
  rw [← Checked.pure_eq_ok.1 h]

/-- A quote is a walk and its price. -/
theorem quote_eq_priced (s : ConcentratedPool) (amount slippage : Scalar) (mintIn : Option Address)
    (limit : Option Int) : s.quote amount slippage mintIn limit = (do
      let amountIn ← Quote.tradeAmount amount
      let (d, paid, received) ← directionFor s.mintA s.mintB mintIn
      let _ ← Slippage.apply 0 slippage
      let bound ← s.limitInForce d limit
      let (w, stop) ← s.walked d bound (s.poolInput d amountIn)
      s.priced d paid received amountIn slippage limit w stop) := by
  unfold quote
  refine bind_congr fun amountIn => bind_congr fun ⟨d, paid, received⟩ => ?_
  cases hslippage : Slippage.apply 0 slippage with
  | error => rfl
  | ok least =>
    obtain rfl := Slippage.apply_zero hslippage
    refine bind_congr fun _ => bind_congr fun bound => ?_
    change (if s.poolInput d amountIn = 0 then _ else _) = _
    unfold walked
    by_cases hzero : s.poolInput d amountIn = 0
    · rw [if_pos hzero, if_pos hzero, hzero]
      exact (priced_of_poolInput_zero hzero hslippage paid received limit).symm
    · rw [if_neg hzero, if_neg hzero]
      cases s.coveredRange with
      | none => rfl
      | some window =>
        dsimp only
        split
        case isTrue => rfl
        case isFalse =>
          change ((s.walkAlong (s.route d window bound) (s.poolInput d amountIn)).ending >>= _) = _
          cases (s.walkAlong (s.route d window bound) (s.poolInput d amountIn)).ending <;> rfl

theorem walked_eq_ok (h : s.walked d bound poolInput = .ok (w, stop)) :
    s.walkFor d bound poolInput = some w ∧ w.ending = .ok stop := by
  unfold walked at h
  unfold walkFor
  by_cases hzero : poolInput = 0
  · rw [if_pos hzero] at h ⊢
    cases h
    exact ⟨rfl, rfl⟩
  · rw [if_neg hzero] at h ⊢
    cases hwindow : s.coveredRange with
    | none =>
      rw [hwindow] at h
      cases h
    | some window =>
      rw [hwindow] at h
      dsimp only at h
      split at h
      case isTrue => cases h
      case isFalse =>
        obtain ⟨stop', hending, heq⟩ := Checked.map_eq_ok.1 h
        cases heq
        exact ⟨rfl, hending⟩

theorem exists_window_of_walked (hne : poolInput ≠ 0)
    (h : s.walked d bound poolInput = .ok (w, stop)) :
    ∃ window, s.coveredRange = some window ∧ s.isDry (s.route d window bound) = false := by
  unfold walked at h
  rw [if_neg hne] at h
  cases hwindow : s.coveredRange with
  | none =>
    rw [hwindow] at h
    cases h
  | some window =>
    rw [hwindow] at h
    dsimp only at h
    split at h
    case isTrue => cases h
    case isFalse hdry => exact ⟨window, rfl, by simpa using hdry⟩

/-- With liquidity in a window, all that can fail is the walk. -/
theorem exists_walkFor {window : Int × Int} (hwindow : s.coveredRange = some window)
    (hdry : s.isDry (s.route d window bound) = false) (poolInput : Int) :
    ∃ w, s.walkFor d bound poolInput = some w ∧
      s.walked d bound poolInput = w.ending.map fun stop => (w, stop) := by
  unfold walkFor walked
  rw [hwindow]
  by_cases hzero : poolInput = 0
  · exact ⟨_, if_pos hzero, if_pos hzero⟩
  · refine ⟨_, if_neg hzero, ?_⟩
    rw [if_neg hzero]
    dsimp only
    rw [hdry]
    rfl

/-- A quote is made exactly if each of its stages succeeds. -/
theorem quote_eq_ok_iff : s.quote amount slippage mintIn limit = .ok q ↔
    ∃ amountIn d paid received bound w stop, Quote.tradeAmount amount = .ok amountIn ∧
      directionFor s.mintA s.mintB mintIn = .ok (d, paid, received) ∧
      Slippage.apply 0 slippage = .ok 0 ∧ s.limitInForce d limit = .ok bound ∧
      s.walked d bound (s.poolInput d amountIn) = .ok (w, stop) ∧
      s.priced d paid received amountIn slippage limit w stop = .ok q := by
  rw [quote_eq_priced]
  constructor
  · intro h
    obtain ⟨amountIn, hamount, h⟩ := Checked.bind_eq_ok.1 h
    obtain ⟨⟨d, paid, received⟩, hdirection, h⟩ := Checked.bind_eq_ok.1 h
    obtain ⟨least, hslippage, h⟩ := Checked.bind_eq_ok.1 h
    obtain ⟨bound, hlimit, h⟩ := Checked.bind_eq_ok.1 h
    obtain ⟨⟨w, stop⟩, hwalked, hpriced⟩ := Checked.bind_eq_ok.1 h
    rw [Slippage.apply_zero hslippage] at hslippage
    exact ⟨amountIn, d, paid, received, bound, w, stop, hamount, hdirection, hslippage, hlimit,
      hwalked, hpriced⟩
  · rintro ⟨amountIn, d, paid, received, bound, w, stop, hamount, hdirection, hslippage, hlimit,
      hwalked, hpriced⟩
    rw [hamount, hdirection, hslippage]
    change (s.limitInForce d limit >>= _) = _
    rw [hlimit]
    change (s.walked d bound (s.poolInput d amountIn) >>= _) = _
    rw [hwalked]
    exact hpriced

theorem quote_eq_ok (h : s.quote amount slippage mintIn limit = .ok q) :
    ∃ d bound w stop, s.Quoted amount slippage mintIn limit d bound w stop q := by
  obtain ⟨amountIn, d, paid, received, bound, w, stop, hamount, hdirection, -, hlimit, hwalked,
    h⟩ := quote_eq_ok_iff.1 h
  obtain ⟨impact, himpact, h⟩ := Checked.bind_eq_ok.1 h
  obtain ⟨minAmountOut, hmin, h⟩ := Checked.bind_eq_ok.1 h
  cases Checked.pure_eq_ok.1 h
  obtain ⟨hwalk, hending⟩ := walked_eq_ok hwalked
  exact ⟨d, bound, w, stop, {
    kind_eq := rfl
    amountIn_eq := hamount
    mints_eq := hdirection
    limit_eq := hlimit
    walk_eq := hwalk
    ending_eq := hending
    amountOut_eq := rfl
    minAmountOut_eq := hmin
    fee_eq := rfl
    impactBps_eq := himpact
    arraysCrossed_eq := rfl
    sqrtPriceAfter_eq := rfl
    transferFees_eq := rfl
    sqrtPriceLimit_eq := rfl }⟩

end ConcentratedPool
end PoolSwap
