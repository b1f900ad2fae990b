import PoolSwap.Proofs.SwapStep.Exact

/-! The contract of a swap step. A step inside a range of liquidity always succeeds; it stays
between its start and its target, never uses more than the input left, and pays at least its share
of fee. -/
namespace PoolSwap.SwapStep

open Liquidity

/-- What a step relies on: positive prices with the target ahead, and a fee below the whole. -/
structure Range (a target liquidity feeRate : Int) (d : Direction) : Prop where
  start_pos : 0 < a
  target_pos : 0 < target
  leads : d.Leads a target
  liquidity_nonneg : 0 ≤ liquidity
  feeRate_nonneg : 0 ≤ feeRate
  feeRate_lt : feeRate < feeRateUnit

def net (remaining feeRate : Int) : Int :=
  floorDiv (remaining * (feeRateUnit - feeRate)) feeRateUnit

def full (a target liquidity feeRate : Int) (d : Direction) : SwapStep :=
  ⟨target, input a target liquidity d, output a target liquidity d,
    ceilDiv (input a target liquidity d * feeRate) (feeRateUnit - feeRate)⟩

/-- What a step takes in to reach its target: the input and the fee on it. -/
def cost (a target liquidity feeRate : Int) (d : Direction) : Int :=
  (full a target liquidity feeRate d).amountIn + (full a target liquidity feeRate d).fee

def short (a liquidity remaining feeRate : Int) (d : Direction) : SwapStep :=
  let next := priceAfter a liquidity (net remaining feeRate) d
  ⟨next, input a next liquidity d, output a next liquidity d,
    remaining - input a next liquidity d⟩

/-- The step taken, by whether the input pays for the whole range. -/
def taken (a target liquidity remaining feeRate : Int) (d : Direction) : SwapStep :=
  if input a target liquidity d ≤ net remaining feeRate then full a target liquidity feeRate d
  else short a liquidity remaining feeRate d

variable {a target liquidity remaining more feeRate : Int} {d : Direction}

theorem feeRateUnit_pos : 0 < feeRateUnit := by decide

theorem Range.kept_pos (h : Range a target liquidity feeRate d) : 0 < feeRateUnit - feeRate :=
  Int.sub_pos.2 h.feeRate_lt

theorem Range.net_nonneg (h : Range a target liquidity feeRate d) (hr : 0 ≤ remaining) :
    0 ≤ net remaining feeRate :=
  floorDiv_nonneg feeRateUnit_pos (mul_nonneg hr h.kept_pos.le)

theorem Range.net_le (h : Range a target liquidity feeRate d) (hr : 0 ≤ remaining) :
    net remaining feeRate ≤ remaining := by
  have hfloor := floorDiv_mul_le feeRateUnit_pos (remaining * (feeRateUnit - feeRate))
  have hfee : 0 ≤ remaining * feeRate := mul_nonneg hr h.feeRate_nonneg
  refine le_of_mul_le_mul_right (hfloor.trans ?_) feeRateUnit_pos
  rw [mul_sub]
  omega

theorem Range.net_le_net (h : Range a target liquidity feeRate d) (hr : remaining ≤ more) :
    net remaining feeRate ≤ net more feeRate :=
  floorDiv_le_floorDiv feeRateUnit_pos (mul_le_mul_of_nonneg_right hr h.kept_pos.le)

/-- The input left after the fee reaches the target exactly if the whole input covers its cost. -/
theorem Range.input_le_net_iff (h : Range a target liquidity feeRate d) :
    input a target liquidity d ≤ net remaining feeRate ↔
      cost a target liquidity feeRate d ≤ remaining := by
  unfold net cost full
  rw [le_floorDiv_iff feeRateUnit_pos, ← le_sub_iff_add_le', ceilDiv_le_iff h.kept_pos]
  constructor <;> intro hle <;> linarith

theorem Range.cost_nonneg (h : Range a target liquidity feeRate d) :
    0 ≤ cost a target liquidity feeRate d := by
  have hin := input_nonneg h.start_pos h.target_pos h.leads h.liquidity_nonneg
  exact add_nonneg hin (ceilDiv_nonneg h.kept_pos (mul_nonneg hin h.feeRate_nonneg))

theorem Range.taken_eq_full (h : Range a target liquidity feeRate d)
    (hcost : cost a target liquidity feeRate d ≤ remaining) :
    taken a target liquidity remaining feeRate d = full a target liquidity feeRate d :=
  if_pos (h.input_le_net_iff.2 hcost)

theorem Range.taken_eq_short (h : Range a target liquidity feeRate d)
    (hcost : remaining < cost a target liquidity feeRate d) :
    taken a target liquidity remaining feeRate d = short a liquidity remaining feeRate d :=
  if_neg (mt h.input_le_net_iff.1 (not_le.2 hcost))

theorem short_spent (a liquidity remaining feeRate : Int) (d : Direction) :
    (short a liquidity remaining feeRate d).amountIn +
      (short a liquidity remaining feeRate d).fee = remaining :=
  add_sub_cancel _ _

theorem Range.liquidity_pos (h : Range a target liquidity feeRate d) (hr : 0 ≤ remaining)
    (hs : net remaining feeRate < input a target liquidity d) : 0 < liquidity := by
  refine lt_of_le_of_ne h.liquidity_nonneg ?_
  rintro rfl
  have hnone : input a target 0 d = 0 := by cases d <;> simp [input, ceilDiv]
  have := h.net_nonneg hr
  omega

theorem Range.short_spec (h : Range a target liquidity feeRate d) (hr : 0 ≤ remaining)
    (hs : net remaining feeRate < input a target liquidity d) :
    let next := (short a liquidity remaining feeRate d).sqrtPriceNext
    0 < next ∧ d.Leads a next ∧ d.Leads next target ∧ next ≠ target ∧
      input a next liquidity d ≤ net remaining feeRate := by
  have hl := h.liquidity_pos hr hs
  have hn := h.net_nonneg hr
  have ha := h.start_pos
  intro next
  have hpast : ¬ d.Leads target next := fun hle =>
    absurd ((input_le_iff ha h.target_pos hl hn).2 hle) (not_le.2 hs)
  have hstart : d.Leads a next :=
    (input_le_iff ha ha hl hn).1 (by rw [input_self]; exact hn)
  have hbefore : d.Leads next target := (d.leads_total target next).resolve_left hpast
  have hpos : 0 < next := by
    cases d
    · exact h.target_pos.trans_le hbefore
    · exact ha.trans_le hstart
  refine ⟨hpos, hstart, hbefore, ?_, (input_le_iff ha hpos hl hn).2 (d.leads_refl next)⟩
  intro heq
  exact hpast (heq ▸ d.leads_refl next)

theorem Range.fullInput?_eq (h : Range a target liquidity feeRate d) :
    fullInput? a target liquidity d =
      .ok (if input a target liquidity d ≤ Tick.maxU64 then some (input a target liquidity d)
        else none) := by
  simp only [fullInput?, inputBetween_eq h.start_pos h.target_pos h.leads]
  rfl

/-- A step whose input does not pay for the range goes where the input moves the price. -/
theorem Range.compute_eq_short (h : Range a target liquidity feeRate d) (hr : 0 ≤ remaining)
    (hs : net remaining feeRate < input a target liquidity d) :
    compute a target liquidity remaining feeRate d =
      .ok (short a liquidity remaining feeRate d) := by
  have ha := h.start_pos
  obtain ⟨hpos, hstart, -, hne, -⟩ := h.short_spec hr hs
  have hnext : nextPrice (if input a target liquidity d ≤ Tick.maxU64 then
      some (input a target liquidity d) else none) a target liquidity
      (net remaining feeRate) d =
      .ok (short a liquidity remaining feeRate d).sqrtPriceNext := by
    unfold nextPrice
    rw [if_neg (by split <;> simp [not_le.2 hs]),
      nextSqrtPrice_eq ha (h.liquidity_pos hr hs) (h.net_nonneg hr)]
    rfl
  unfold compute
  rw [← net, h.fullInput?_eq]
  simp only [bind, Except.bind, hnext, if_neg hne, inputBetween_eq ha hpos hstart,
    outputBetween_eq ha hpos hstart]
  rfl

/-- A step in a range never fails. -/
theorem Range.compute_eq (h : Range a target liquidity feeRate d) (hr : 0 ≤ remaining)
    (hmax : remaining ≤ Tick.maxU64) :
    compute a target liquidity remaining feeRate d =
      .ok (taken a target liquidity remaining feeRate d) := by
  have hnet := h.net_le hr
  unfold taken
  by_cases hs : input a target liquidity d ≤ net remaining feeRate
  · have hsmall : input a target liquidity d ≤ Tick.maxU64 := by omega
    have hnext : nextPrice (some (input a target liquidity d)) a target liquidity
        (net remaining feeRate) d = .ok target := by
      simp [nextPrice, hs]
    unfold compute
    rw [← net, h.fullInput?_eq]
    simp only [if_pos hs, if_pos hsmall, bind, Except.bind, hnext,
      outputBetween_eq h.start_pos h.target_pos h.leads, Checked.ofOption, scaleCeil,
      Checked.ceilDiv_eq h.kept_pos.ne', if_true]
    rfl
  · rw [if_neg hs]
    exact h.compute_eq_short hr (not_le.1 hs)

/-- A step that ends elsewhere than at its target went where its input moves the price. With an
input beyond 64 bits that may be past the target. -/
theorem Range.short_of_compute {step : SwapStep} (h : Range a target liquidity feeRate d)
    (hr : 0 ≤ remaining) (hstep : compute a target liquidity remaining feeRate d = .ok step)
    (hne : step.sqrtPriceNext ≠ target) :
    0 < liquidity ∧ step = short a liquidity remaining feeRate d := by
  have ha := h.start_pos
  have hn := h.net_nonneg hr
  obtain ⟨full, -, hnext, hout, -, hshort⟩ := compute_eq_ok hstep
  obtain ⟨hin, hfee⟩ := hshort hne
  have hmoved : nextSqrtPrice a liquidity (net remaining feeRate) d = .ok step.sqrtPriceNext := by
    unfold nextPrice at hnext
    split at hnext
    case isTrue =>
      cases hnext
      exact absurd rfl hne
    case isFalse => exact hnext
  have hl := liquidity_pos_of_nextSqrtPrice hmoved
  rw [nextSqrtPrice_eq ha hl hn] at hmoved
  have hprice := Except.ok.inj hmoved
  have hpos := priceAfter_pos (d := d) ha hl hn
  have hleads := leads_priceAfter (d := d) ha hl hn
  rw [hprice] at hpos hleads
  rw [inputBetween_eq ha hpos hleads] at hin
  rw [outputBetween_eq ha hpos hleads] at hout
  refine ⟨hl, ?_⟩
  unfold short
  dsimp only
  rw [hprice, Except.ok.inj hin, Except.ok.inj hout, ← hfee]

theorem Range.leads_of_compute {step : SwapStep} (h : Range a target liquidity feeRate d)
    (hr : 0 ≤ remaining) (hstep : compute a target liquidity remaining feeRate d = .ok step) :
    d.Leads a step.sqrtPriceNext := by
  by_cases hreach : step.sqrtPriceNext = target
  · exact hreach ▸ h.leads
  · obtain ⟨hl, rfl⟩ := h.short_of_compute hr hstep hreach
    exact leads_priceAfter h.start_pos hl (h.net_nonneg hr)

/-- A step that stops before two targets is the same toward both. -/
theorem Range.compute_eq_of_before {other : Int} {step : SwapStep}
    (h : Range a target liquidity feeRate d) (h' : Range a other liquidity feeRate d)
    (hr : 0 ≤ remaining) (hstep : compute a target liquidity remaining feeRate d = .ok step)
    (hbefore : d.Before step.sqrtPriceNext target) (hbefore' : d.Before step.sqrtPriceNext other) :
    compute a other liquidity remaining feeRate d = .ok step := by
  obtain ⟨hl, rfl⟩ := h.short_of_compute hr hstep hbefore.ne
  refine h'.compute_eq_short hr (not_le.1 fun hle => Direction.before_iff.1 hbefore' ?_)
  exact (input_le_iff h.start_pos h'.target_pos hl (h.net_nonneg hr)).1 hle

/-- What a step promises. -/
structure Settles (a target liquidity remaining feeRate : Int) (d : Direction)
    (step : SwapStep) : Prop where
  next_pos : 0 < step.sqrtPriceNext
  leads : d.Leads a step.sqrtPriceNext
  within : d.Leads step.sqrtPriceNext target
  amountIn_eq : step.amountIn = input a step.sqrtPriceNext liquidity d
  amountOut_eq : step.amountOut = output a step.sqrtPriceNext liquidity d
  amountIn_nonneg : 0 ≤ step.amountIn
  amountOut_nonneg : 0 ≤ step.amountOut
  fee_nonneg : 0 ≤ step.fee
  spent_le : step.amountIn + step.fee ≤ remaining
  fee_share : (step.amountIn + step.fee) * feeRate ≤ step.fee * feeRateUnit

theorem Range.full_settles (h : Range a target liquidity feeRate d)
    (hs : input a target liquidity d ≤ net remaining feeRate) :
    Settles a target liquidity remaining feeRate d (full a target liquidity feeRate d) := by
  have hin := input_nonneg h.start_pos h.target_pos h.leads h.liquidity_nonneg
  have hkept := h.kept_pos
  have hfee := le_ceilDiv_mul hkept (input a target liquidity d * feeRate)
  refine {
    next_pos := h.target_pos
    leads := h.leads
    within := d.leads_refl target
    amountIn_eq := rfl
    amountOut_eq := rfl
    amountIn_nonneg := hin
    amountOut_nonneg := output_nonneg h.start_pos h.target_pos h.leads h.liquidity_nonneg
    fee_nonneg := ceilDiv_nonneg hkept (mul_nonneg hin h.feeRate_nonneg)
    spent_le := h.input_le_net_iff.1 hs
    fee_share := ?_ }
  simp only [full]
  linarith

theorem Range.short_settles (h : Range a target liquidity feeRate d) (hr : 0 ≤ remaining)
    (hs : net remaining feeRate < input a target liquidity d) :
    Settles a target liquidity remaining feeRate d (short a liquidity remaining feeRate d) := by
  obtain ⟨hpos, hstart, hwithin, -, hnet⟩ := h.short_spec hr hs
  have hpaid : input a (short a liquidity remaining feeRate d).sqrtPriceNext liquidity d *
      feeRateUnit ≤ remaining * (feeRateUnit - feeRate) := (le_floorDiv_iff feeRateUnit_pos).1 hnet
  have hle := hnet.trans (h.net_le hr)
  refine {
    next_pos := hpos
    leads := hstart
    within := hwithin
    amountIn_eq := rfl
    amountOut_eq := rfl
    amountIn_nonneg := input_nonneg h.start_pos hpos hstart h.liquidity_nonneg
    amountOut_nonneg := output_nonneg h.start_pos hpos hstart h.liquidity_nonneg
    fee_nonneg := Int.sub_nonneg.2 hle
    spent_le := (short_spent a liquidity remaining feeRate d).le
    fee_share := ?_ }
  simp only [short] at hpaid ⊢
  linarith

theorem Range.taken_settles (h : Range a target liquidity feeRate d) (hr : 0 ≤ remaining) :
    Settles a target liquidity remaining feeRate d
      (taken a target liquidity remaining feeRate d) := by
  unfold taken
  split
  case isTrue hs => exact h.full_settles hs
  case isFalse hs => exact h.short_settles hr (not_le.1 hs)

/-- More input takes a step that reaches its target to the same step. -/
theorem Range.taken_eq_of_le (h : Range a target liquidity feeRate d) (hmore : remaining ≤ more)
    (hs : input a target liquidity d ≤ net remaining feeRate) :
    taken a target liquidity more feeRate d = taken a target liquidity remaining feeRate d := by
  unfold taken
  rw [if_pos hs, if_pos (hs.trans (h.net_le_net hmore))]

theorem Range.taken_leads (h : Range a target liquidity feeRate d) (hr : 0 ≤ remaining)
    (hmore : remaining ≤ more) :
    d.Leads (taken a target liquidity remaining feeRate d).sqrtPriceNext
      (taken a target liquidity more feeRate d).sqrtPriceNext := by
  by_cases hs : input a target liquidity d ≤ net remaining feeRate
  · rw [h.taken_eq_of_le hmore hs]
    exact d.leads_refl _
  · have hshort := h.short_spec hr (not_le.1 hs)
    unfold taken
    rw [if_neg hs]
    split
    case isTrue => exact hshort.2.2.1
    case isFalse hs' =>
      have hmore0 := hr.trans hmore
      have hnet := hshort.2.2.2.2.trans (h.net_le_net hmore)
      exact (input_le_iff h.start_pos hshort.1 (h.liquidity_pos hr (not_le.1 hs))
        (h.net_nonneg hmore0)).1 hnet

theorem Range.taken_amountOut_le (h : Range a target liquidity feeRate d) (hr : 0 ≤ remaining)
    (hmore : remaining ≤ more) :
    (taken a target liquidity remaining feeRate d).amountOut ≤
      (taken a target liquidity more feeRate d).amountOut := by
  have hfew := h.taken_settles hr
  have hmany := h.taken_settles (hr.trans hmore)
  rw [hfew.amountOut_eq, hmany.amountOut_eq]
  exact output_le_output h.start_pos hfew.next_pos hmany.next_pos hfew.leads
    (h.taken_leads hr hmore) h.liquidity_nonneg

end PoolSwap.SwapStep
