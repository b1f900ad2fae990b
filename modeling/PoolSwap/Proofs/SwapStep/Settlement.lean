import PoolSwap.Proofs.SwapStep.Holdings

/-! How a swap step settles, against exact amounts. It reaches its target exactly if the input less
the fee, rounded down, covers the exact cost of the range, rounded up, and only then is the cost of
the whole range used as an amount. -/
namespace PoolSwap

namespace SwapStep

variable {a b target liquidity remaining feeRate : Int} {d : Direction}

/-- The input of a move is what the holdings of the token paid in grow by, rounded up. -/
theorem input_eq_ceil (ha : 0 < a) (hb : 0 < b) (liquidity : Int) (d : Direction) :
    input a b liquidity d = ⌈holdings liquidity b d - holdings liquidity a d⌉ := by
  have ha' : (0 : ℚ) < a := by exact_mod_cast ha
  have hb' : (0 : ℚ) < b := by exact_mod_cast hb
  have hunit := unit_pos_rat
  cases d
  · rw [input, ceilDiv_eq_ceil (mul_pos ha hb)]
    congr 1
    simp only [holdings]
    push_cast
    field_simp
  · rw [input, ceilDiv_eq_ceil Liquidity.unit_pos]
    congr 1
    simp only [holdings]
    push_cast
    ring

/-- The output of a move is what the holdings of the other token shrink by, rounded down. -/
theorem output_eq_floor (ha : 0 < a) (hb : 0 < b) (liquidity : Int) (d : Direction) :
    output a b liquidity d =
      ⌊holdings liquidity a d.reverse - holdings liquidity b d.reverse⌋ := by
  have ha' : (0 : ℚ) < a := by exact_mod_cast ha
  have hb' : (0 : ℚ) < b := by exact_mod_cast hb
  have hunit := unit_pos_rat
  cases d
  · rw [output, floorDiv_eq_floor Liquidity.unit_pos]
    congr 1
    simp only [holdings, Direction.reverse]
    push_cast
    ring
  · rw [output, floorDiv_eq_floor (mul_pos ha hb)]
    congr 1
    simp only [holdings, Direction.reverse]
    push_cast
    field_simp

/-- A step reaches its target exactly if what the fee leaves pays for the whole range. -/
theorem Range.taken_reaches_iff (h : Range a target liquidity feeRate d) (hr : 0 ≤ remaining) :
    (taken a target liquidity remaining feeRate d).sqrtPriceNext = target ↔
      input a target liquidity d ≤ net remaining feeRate := by
  unfold taken
  split
  case isTrue hs => exact iff_of_true rfl hs
  case isFalse hs =>
    obtain ⟨-, -, -, hne, -⟩ := h.short_spec hr (not_le.1 hs)
    exact iff_of_false hne hs

/-- A step that reaches its target has its whole cost within 64 bits. -/
theorem Range.fullInput?_of_reaches (h : Range a target liquidity feeRate d) (hr : 0 ≤ remaining)
    (hmax : remaining ≤ Tick.maxU64) (hs : input a target liquidity d ≤ net remaining feeRate) :
    fullInput? a target liquidity d = .ok (some (input a target liquidity d)) := by
  have hnet := h.net_le hr
  rw [h.fullInput?_eq, if_pos (by omega)]

/-- The price that an input moves to is strictly before a target that the input does not pay for. -/
theorem Range.nextSqrtPrice_before (h : Range a target liquidity feeRate d) (hr : 0 ≤ remaining)
    (hs : net remaining feeRate < input a target liquidity d) :
    let next := (taken a target liquidity remaining feeRate d).sqrtPriceNext
    Liquidity.nextSqrtPrice a liquidity (net remaining feeRate) d = .ok next ∧
      d.Before next target := by
  obtain ⟨-, -, hwithin, hne, -⟩ := h.short_spec hr hs
  unfold taken
  rw [if_neg (not_le.2 hs)]
  refine ⟨nextSqrtPrice_eq h.start_pos (h.liquidity_pos hr hs) (h.net_nonneg hr), ?_⟩
  exact Direction.before_iff.2 fun hback => hne (hwithin.antisymm hback)

/-- A step in a range always succeeds. It stays between its start and its target, spends no more than
is left, all of it if it stops short, and pays at least its fee, exactly that if it gets there. It
gets there exactly if the input less the fee covers the exact cost. The input moves the price strictly
less far than to a target that it does not pay for, so the cost of a range is an amount of the step
only where it fits. -/
theorem compute_settles (ha : 0 < a) (htarget : 0 < target) (hleads : d.Leads a target)
    (hliquidity : 0 ≤ liquidity) (hfee : 0 ≤ feeRate) (hfee' : feeRate < feeRateUnit)
    (hr : 0 ≤ remaining) (hmax : remaining ≤ Tick.maxU64) :
    ∃ step, compute a target liquidity remaining feeRate d = .ok step ∧
      d.Leads a step.sqrtPriceNext ∧ d.Leads step.sqrtPriceNext target ∧
      0 ≤ step.amountIn ∧ 0 ≤ step.amountOut ∧ 0 ≤ step.fee ∧
      step.amountIn + step.fee ≤ remaining ∧
      (step.sqrtPriceNext ≠ target → step.amountIn + step.fee = remaining) ∧
      ⌈(step.amountIn * feeRate : ℚ) / (feeRateUnit - feeRate)⌉ ≤ step.fee ∧
      (step.sqrtPriceNext = target →
        step.fee = ⌈(step.amountIn * feeRate : ℚ) / (feeRateUnit - feeRate)⌉ ∧
        fullInput? a target liquidity d = .ok (some step.amountIn)) ∧
      (∀ full, fullInput? a target liquidity d = .ok full →
        full.any (· ≤ net remaining feeRate) = false →
        Liquidity.nextSqrtPrice a liquidity (net remaining feeRate) d = .ok step.sqrtPriceNext ∧
          d.Before step.sqrtPriceNext target) ∧
      (step.sqrtPriceNext = target ↔
        ⌈holdings liquidity target d - holdings liquidity a d⌉ ≤
          ⌊(remaining * (feeRateUnit - feeRate) : ℚ) / feeRateUnit⌋) := by
  have h : Range a target liquidity feeRate d := ⟨ha, htarget, hleads, hliquidity, hfee, hfee'⟩
  have hsettles := h.taken_settles hr
  -- Integer divisions are the roundings of exact quotients.
  have hshare (amountIn : Int) : ceilDiv (amountIn * feeRate) (feeRateUnit - feeRate) =
      ⌈(amountIn * feeRate : ℚ) / (feeRateUnit - feeRate)⌉ := by
    rw [ceilDiv_eq_ceil h.kept_pos]
    push_cast
    rfl
  have hnet : net remaining feeRate = ⌊(remaining * (feeRateUnit - feeRate) : ℚ) / feeRateUnit⌋ := by
    rw [net, floorDiv_eq_floor feeRateUnit_pos]
    push_cast
    rfl
  refine ⟨_, h.compute_eq hr hmax, hsettles.leads, hsettles.within, hsettles.amountIn_nonneg,
    hsettles.amountOut_nonneg, hsettles.fee_nonneg, hsettles.spent_le, fun hshort => ?_, ?_,
    fun hreached => ?_, fun full hfull hlacks => ?_, ?_⟩
  · have hs := mt (h.taken_reaches_iff hr).2 hshort
    rw [taken, if_neg hs]
    exact short_spent a liquidity remaining feeRate d
  · rw [← hshare, ceilDiv_le_iff h.kept_pos]
    linarith [hsettles.fee_share]
  · have hs := (h.taken_reaches_iff hr).1 hreached
    rw [taken, if_pos hs, ← hshare]
    exact ⟨rfl, h.fullInput?_of_reaches hr hmax hs⟩
  · refine h.nextSqrtPrice_before hr (not_le.1 fun hs => ?_)
    cases hfull.symm.trans (h.fullInput?_of_reaches hr hmax hs)
    simp [hs] at hlacks
  · rw [h.taken_reaches_iff hr, input_eq_ceil ha htarget, hnet]

/-- A step whose range costs more than 64 bits stops short and spends all of its input. -/
theorem compute_settles_costly :
    (0 : Int) < 18446744073709551616 ∧ (0 : Int) < 36893488147419103232 ∧
    Direction.oneForZero.Leads 18446744073709551616 36893488147419103232 ∧
    (0 : Int) ≤ 1267650600228229401496703205376 ∧ (0 : Int) ≤ 2500 ∧ (2500 : Int) < feeRateUnit ∧
    (0 : Int) ≤ 18446744073709551615 ∧ (18446744073709551615 : Int) ≤ Tick.maxU64 ∧
    fullInput? 18446744073709551616 36893488147419103232 1267650600228229401496703205376
      .oneForZero = .ok none ∧
    ∃ step, compute 18446744073709551616 36893488147419103232 1267650600228229401496703205376
        18446744073709551615 2500 .oneForZero = .ok step ∧
      step.sqrtPriceNext = 18446744073977315983 ∧
      Direction.oneForZero.Before step.sqrtPriceNext 36893488147419103232 ∧
      step.amountIn + step.fee = 18446744073709551615 := by
  have hfull : fullInput? 18446744073709551616 36893488147419103232
      1267650600228229401496703205376 .oneForZero = .ok none := by decide
  obtain ⟨step, hstep, -, -, -, -, -, -, hspent, -, -, hbefore, -⟩ := compute_settles
    (show (0 : Int) < 18446744073709551616 by decide)
    (show (0 : Int) < 36893488147419103232 by decide)
    (show Direction.oneForZero.Leads 18446744073709551616 36893488147419103232 by decide)
    (show (0 : Int) ≤ 1267650600228229401496703205376 by decide) (show (0 : Int) ≤ 2500 by decide)
    (show (2500 : Int) < feeRateUnit by decide) (show (0 : Int) ≤ 18446744073709551615 by decide)
    (show (18446744073709551615 : Int) ≤ Tick.maxU64 by decide)
  obtain ⟨hnext, hbefore⟩ := hbefore none hfull rfl
  refine ⟨by decide, by decide, by decide, by decide, by decide, by decide, by decide, by decide,
    hfull, step, hstep, ?_, hbefore, hspent (Direction.Before.ne hbefore)⟩
  have hmoved : Liquidity.nextSqrtPrice 18446744073709551616 1267650600228229401496703205376
      (net 18446744073709551615 2500) .oneForZero = .ok 18446744073977315983 := by decide
  exact Except.ok.inj (hnext.symm.trans hmoved)

end SwapStep
end PoolSwap
