import PoolSwap.Proofs.Quote.Account

/-! No trade beats the price before it. Each step buys at prices between its start and its end, both
behind the price before the trade, and its roundings only raise what it pays. -/
namespace PoolSwap

namespace Direction

/-- At a square-root price, an input is worth an output if the input times this weight is the output
times the other. -/
def paidWeight (sqrtPrice : Int) : Direction → Int
  | .zeroForOne => sqrtPrice * sqrtPrice
  | .oneForZero => Tick.unitPrice * Tick.unitPrice

def boughtWeight (sqrtPrice : Int) : Direction → Int
  | .zeroForOne => Tick.unitPrice * Tick.unitPrice
  | .oneForZero => sqrtPrice * sqrtPrice

variable {d : Direction} {sqrtPrice : Int}

theorem paidWeight_pos (h : 0 < sqrtPrice) : 0 < d.paidWeight sqrtPrice := by
  cases d
  · exact mul_pos h h
  · exact mul_pos Liquidity.unit_pos Liquidity.unit_pos

theorem boughtWeight_nonneg : 0 ≤ d.boughtWeight sqrtPrice := by
  cases d
  · exact mul_self_nonneg _
  · exact mul_self_nonneg sqrtPrice

end Direction

/-- The output of a move is worth at most its input, at any price that the move leads away from. -/
theorem SwapStep.output_worth_le {start a b liquidity : Int} {d : Direction} (hstart : 0 < start)
    (ha : 0 < a) (hb : 0 < b) (hl : 0 ≤ liquidity) (hsa : d.Leads start a) (hab : d.Leads a b) :
    output a b liquidity d * d.boughtWeight start ≤ input a b liquidity d * d.paidWeight start := by
  have hin := input_nonneg ha hb hab hl
  have hout := output_nonneg ha hb hab hl
  cases d
  · have hsa : a ≤ start := hsa
    have hab : b ≤ a := hab
    have hbought := floorDiv_mul_le Liquidity.unit_pos (liquidity * (a - b))
    have hpaid := le_ceilDiv_mul (mul_pos ha hb) (liquidity * Tick.unitPrice * (a - b))
    calc
      output a b liquidity .zeroForOne * (Tick.unitPrice * Tick.unitPrice) =
          output a b liquidity .zeroForOne * Tick.unitPrice * Tick.unitPrice := by
        rw [mul_assoc]
      _ ≤ liquidity * (a - b) * Tick.unitPrice :=
        mul_le_mul_of_nonneg_right hbought Liquidity.unit_pos.le
      _ = liquidity * Tick.unitPrice * (a - b) := by ring
      _ ≤ input a b liquidity .zeroForOne * (a * b) := hpaid
      _ ≤ input a b liquidity .zeroForOne * (start * start) :=
        mul_le_mul_of_nonneg_left (mul_le_mul hsa (hab.trans hsa) hb.le hstart.le) hin
  · have hsa : start ≤ a := hsa
    have hab : a ≤ b := hab
    have hbought := floorDiv_mul_le (mul_pos ha hb) (liquidity * Tick.unitPrice * (b - a))
    have hpaid := le_ceilDiv_mul Liquidity.unit_pos (liquidity * (b - a))
    calc
      output a b liquidity .oneForZero * (start * start) ≤
          output a b liquidity .oneForZero * (a * b) :=
        mul_le_mul_of_nonneg_left (mul_le_mul hsa (hsa.trans hab) hstart.le ha.le) hout
      _ ≤ liquidity * Tick.unitPrice * (b - a) := hbought
      _ = liquidity * (b - a) * Tick.unitPrice := by ring
      _ ≤ input a b liquidity .oneForZero * Tick.unitPrice * Tick.unitPrice :=
        mul_le_mul_of_nonneg_right hpaid Liquidity.unit_pos.le
      _ = input a b liquidity .oneForZero * (Tick.unitPrice * Tick.unitPrice) := by
        rw [mul_assoc]

namespace ConcentratedPool

/-- The shortfall of an output against the price before the trade, in basis points, unclamped. -/
def shortfallBps (amountIn amountOut sqrtPrice : Int) (d : Direction) : Int :=
  let ideal := amountIn * d.paidWeight sqrtPrice
  floorDiv ((ideal - amountOut * d.boughtWeight sqrtPrice) * ConstantProduct.bpsDenominator) ideal

theorem impactBps_eq {amountIn sqrtPrice : Int} (hin : amountIn ≠ 0) (hprice : 0 < sqrtPrice)
    (amountOut : Int) (d : Direction) :
    impactBps amountIn amountOut sqrtPrice d =
      .ok (max 0 (shortfallBps amountIn amountOut sqrtPrice d)) := by
  have hsquare : sqrtPrice * sqrtPrice ≠ 0 := (mul_pos hprice hprice).ne'
  unfold impactBps
  rw [if_neg hin]
  cases d
  · simp only [if_neg hsquare]
    rfl
  · simp only [Checked.divisor, if_neg hsquare]
    rfl

theorem exists_impactBps {sqrtPrice : Int} (hprice : 0 < sqrtPrice) (amountIn amountOut : Int)
    (d : Direction) : ∃ bps, impactBps amountIn amountOut sqrtPrice d = .ok bps := by
  by_cases hin : amountIn = 0
  · exact ⟨0, if_pos hin⟩
  · exact ⟨_, impactBps_eq hin hprice amountOut d⟩

theorem shortfallBps_inRange {amountIn amountOut sqrtPrice : Int} {d : Direction}
    (hin : 0 < amountIn) (hprice : 0 < sqrtPrice) (hout : 0 ≤ amountOut)
    (hworth : amountOut * d.boughtWeight sqrtPrice ≤ amountIn * d.paidWeight sqrtPrice) :
    0 ≤ shortfallBps amountIn amountOut sqrtPrice d ∧
      shortfallBps amountIn amountOut sqrtPrice d ≤ ConstantProduct.bpsDenominator := by
  have hideal : 0 < amountIn * d.paidWeight sqrtPrice := mul_pos hin (Direction.paidWeight_pos hprice)
  have hbought : 0 ≤ amountOut * d.boughtWeight sqrtPrice :=
    mul_nonneg hout Direction.boughtWeight_nonneg
  have hunit : (0 : Int) ≤ ConstantProduct.bpsDenominator := by decide
  refine ⟨floorDiv_nonneg hideal (mul_nonneg (by omega) hunit), ?_⟩
  refine le_of_mul_le_mul_right ((floorDiv_mul_le hideal _).trans ?_) hideal
  rw [mul_comm ConstantProduct.bpsDenominator]
  exact mul_le_mul_of_nonneg_right (by omega) hunit

variable {s : ConcentratedPool} {r : Route} {ticks : List Tick} {w : Walk}
  {amount slippage : Scalar} {mintIn : Option Address} {limit : Option Int} {d : Direction}
  {paid received : Address} {q : Quote}

theorem Consistent.sqrtPrice_pos (hs : s.Consistent) : 0 < s.sqrtPrice :=
  (show 0 < Tick.minSqrtPrice by decide).trans hs.minSqrtPrice_lt

theorem grossOut_worth_le (hs : s.Consistent) (h : ∀ l ∈ w.legs, s.LegKept r ticks l) :
    w.grossOut * r.direction.boughtWeight s.sqrtPrice ≤
      w.traded * r.direction.paidWeight s.sqrtPrice := by
  refine Walk.total_mul_le_total_mul fun l hl => ?_
  have hkept := h l hl
  rw [hkept.settles.amountOut_eq, hkept.settles.amountIn_eq]
  exact SwapStep.output_worth_le hs.sqrtPrice_pos hkept.range.start_pos hkept.settles.next_pos
    hkept.range.liquidity_nonneg hkept.start_underWay.start_leads hkept.settles.leads

/-- At the price before the trade, what the pool pays out is worth at most what reaches it. The
price impact is therefore a fraction without being clamped. -/
theorem quote_worth_le (hs : s.Consistent)
    (hdirection : directionFor s.mintA s.mintB mintIn = .ok (d, paid, received))
    (hin : FeeSound (s.transferFees d).1)
    (hquote : s.quote amount slippage mintIn limit = .ok q) :
    let poolInput := s.poolInput d q.amountIn
    ∃ bound w, s.limitInForce d limit = .ok bound ∧ s.walkFor d bound poolInput = some w ∧
      (match d with
        | .zeroForOne => w.grossOut * 2 ^ 128 ≤ poolInput * (s.sqrtPrice * s.sqrtPrice)
        | .oneForZero => w.grossOut * (s.sqrtPrice * s.sqrtPrice) ≤ poolInput * 2 ^ 128) ∧
      (poolInput ≠ 0 → q.impactBps = shortfallBps poolInput w.grossOut s.sqrtPrice d) ∧
      0 ≤ q.impactBps ∧ q.impactBps ≤ 10000 := by
  intro poolInput
  obtain ⟨d', bound, w, stop, hq⟩ := quote_eq_ok hquote
  obtain rfl : d' = d := congrArg Prod.fst (Except.ok.inj (hq.mints_eq.symm.trans hdirection))
  have hlegs := hq.legs hs hin
  have hprice := hs.sqrtPrice_pos
  have hnonneg : 0 ≤ poolInput := (hq.underWay hs hin).left_nonneg
  have hworth : w.grossOut * d'.boughtWeight s.sqrtPrice ≤
      poolInput * d'.paidWeight s.sqrtPrice := by
    have hspent : w.traded + w.fees = poolInput := (hq.endsAt hs hin).spent
    have hfees := fees_nonneg hlegs
    exact (grossOut_worth_le hs hlegs).trans
      (mul_le_mul_of_nonneg_right (by omega) (Direction.paidWeight_pos hprice).le)
  have himpact : impactBps poolInput w.grossOut s.sqrtPrice d' = .ok q.impactBps := hq.impactBps_eq
  refine ⟨bound, w, hq.limit_eq, hq.walk_eq, by cases d' <;> exact hworth, ?_⟩
  by_cases hzero : poolInput = 0
  · unfold impactBps at himpact
    rw [if_pos hzero] at himpact
    have hnone := Except.ok.inj himpact
    exact ⟨absurd hzero, hnone.le, hnone ▸ by decide⟩
  · obtain ⟨hlow, hhigh⟩ := shortfallBps_inRange (hnonneg.lt_of_ne' hzero) hprice
      (grossOut_nonneg hlegs) hworth
    rw [impactBps_eq hzero hprice, max_eq_right hlow] at himpact
    have heq := Except.ok.inj himpact
    exact ⟨fun _ => heq.symm, heq ▸ hlow, heq ▸ hhigh⟩

/-- A trade upward, inside the inner position. -/
theorem quote_worth_le_nested :
    nested.Consistent ∧ FeeSound (nested.transferFees .oneForZero).1 ∧
    (∃ q, nested.quote (.int 2000) (.int 0) (some (.ofNat 3)) none = .ok q ∧ q.impactBps = 35) ∧
    ∃ w, nested.walkFor .oneForZero (Tick.maxSqrtPrice - 1) 2000 = some w ∧
      w.grossOut * (2 ^ 64 * 2 ^ 64) ≤ 2000 * 2 ^ 128 ∧
      35 = shortfallBps 2000 w.grossOut (2 ^ 64) .oneForZero := by
  have hdirection : directionFor nested.mintA nested.mintB (some (.ofNat 3)) =
      .ok (.oneForZero, .ofNat 3, .ofNat 2) := by decide
  have hquote : nested.quote (.int 2000) (.int 0) (some (.ofNat 3)) none = .ok {
      kind := .concentrated, mintIn := .ofNat 3, mintOut := .ofNat 2, amountIn := 2000,
      amountOut := 1973, minAmountOut := 1973, fee := 5, impactBps := 35, arraysCrossed := [0],
      sqrtPriceAfter := some 18459011158518568467, transferFees := 20, sqrtPriceLimit := 0 } := by
    simp only [quote, walkAlong, isDry, nested_activeTicks]
    decide +kernel
  have hin := nested_feesSound.paid .oneForZero
  obtain ⟨bound, w, hlimit, hwalk, hworth, himpact, -⟩ :=
    quote_worth_le nested_consistent hdirection hin hquote
  cases hlimit
  exact ⟨nested_consistent, hin, ⟨_, hquote, rfl⟩, w, hwalk, hworth, himpact (by decide)⟩

end ConcentratedPool
end PoolSwap
