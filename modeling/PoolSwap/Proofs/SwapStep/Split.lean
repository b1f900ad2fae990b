import PoolSwap.Proofs.SwapStep.Settlement

/-! A swap step taken in parts. Inputs and fees round up and outputs round down in each part, and a
part leaves no more input to the next ones than the whole step has left there, so the parts together
buy no more, cost no less and go no further than the whole step. -/
namespace PoolSwap.SwapStep

variable {a b target liquidity remaining feeRate : Int} {d : Direction} {step : SwapStep}

section Adjacent

variable (ha : 0 < a) (hb : 0 < b) (htarget : 0 < target)
include ha hb htarget

/-- Two moves in a row take in at least what one move over both does. -/
theorem input_le_add (liquidity : Int) (d : Direction) :
    input a target liquidity d ≤ input a b liquidity d + input b target liquidity d := by
  rw [input_eq_ceil ha htarget, input_eq_ceil ha hb, input_eq_ceil hb htarget]
  refine le_trans (Int.ceil_le_ceil (le_of_eq ?_)) (Int.ceil_add_le _ _)
  ring

/-- Two moves in a row give out at most what one move over both does. -/
theorem output_add_le (liquidity : Int) (d : Direction) :
    output a b liquidity d + output b target liquidity d ≤ output a target liquidity d := by
  rw [output_eq_floor ha htarget, output_eq_floor ha hb, output_eq_floor hb htarget]
  refine (Int.le_floor_add _ _).trans (Int.floor_le_floor (le_of_eq ?_))
  ring

end Adjacent

theorem Range.cost_le_add (h : Range a target liquidity feeRate d) (hb : 0 < b) :
    cost a target liquidity feeRate d ≤
      cost a b liquidity feeRate d + cost b target liquidity feeRate d := by
  have hkept := h.kept_pos
  have hin := input_le_add h.start_pos hb h.target_pos liquidity d
  have hfee := (ceilDiv_le_ceilDiv hkept (mul_le_mul_of_nonneg_right hin h.feeRate_nonneg)).trans
    (le_of_eq_of_le (by rw [add_mul]) (ceilDiv_add_le hkept))
  unfold cost full
  linarith

/-- What a whole part leaves of an input, less the fee, goes no further with the input of the part
than the input less the fee. -/
theorem Range.input_add_net_le (h : Range a target liquidity feeRate d) (remaining : Int) :
    input a target liquidity d + net (remaining - cost a target liquidity feeRate d) feeRate ≤
      net remaining feeRate := by
  have hrest := floorDiv_mul_le feeRateUnit_pos
    ((remaining - cost a target liquidity feeRate d) * (feeRateUnit - feeRate))
  have hfee := le_ceilDiv_mul h.kept_pos (input a target liquidity d * feeRate)
  change _ ≤ floorDiv _ _
  rw [le_floorDiv_iff feeRateUnit_pos, add_mul]
  unfold net cost full at *
  linarith

/-- What a step takes in of its input less the fee. -/
theorem Range.taken_input_le (h : Range a target liquidity feeRate d) (hr : 0 ≤ remaining) :
    input a (taken a target liquidity remaining feeRate d).sqrtPriceNext liquidity d ≤
      net remaining feeRate := by
  unfold taken
  split
  case isTrue hs => exact hs
  case isFalse hs => exact (h.short_spec hr (not_le.1 hs)).2.2.2.2

/-- A step goes as far as any price that its input less the fee pays for. -/
theorem Range.leads_taken (h : Range a target liquidity feeRate d) (hr : 0 ≤ remaining)
    (hb : 0 < b) (hbt : d.Leads b target) (hpaid : input a b liquidity d ≤ net remaining feeRate) :
    d.Leads b (taken a target liquidity remaining feeRate d).sqrtPriceNext := by
  unfold taken
  split
  case isTrue => exact hbt
  case isFalse hs =>
    exact (input_le_iff h.start_pos hb (h.liquidity_pos hr (not_le.1 hs)) (h.net_nonneg hr)).1 hpaid

/-- A step that stops short has spent its input, and one that gets there the cost of its range. -/
theorem Range.taken_spent (h : Range a target liquidity feeRate d) (hr : 0 ≤ remaining) :
    let step := taken a target liquidity remaining feeRate d
    step.amountIn + step.fee =
      if step.sqrtPriceNext = target then cost a target liquidity feeRate d else remaining := by
  intro step
  by_cases hs : input a target liquidity d ≤ net remaining feeRate
  · rw [if_pos ((h.taken_reaches_iff hr).2 hs)]
    have hfull : step = full a target liquidity feeRate d := if_pos hs
    rw [hfull]
    rfl
  · rw [if_neg (mt (h.taken_reaches_iff hr).1 hs)]
    have hshort : step = short a liquidity remaining feeRate d := if_neg hs
    rw [hshort]
    exact short_spent a liquidity remaining feeRate d

/-- A price on the way divides a range in two. -/
theorem Range.split (h : Range a target liquidity feeRate d) (hab : d.Leads a b)
    (hbt : d.Leads b target) :
    Range a b liquidity feeRate d ∧ Range b target liquidity feeRate d := by
  have hb : 0 < b := by
    cases d
    · exact h.target_pos.trans_le hbt
    · exact h.start_pos.trans_le hab
  exact ⟨⟨h.start_pos, hb, hab, h.liquidity_nonneg, h.feeRate_nonneg, h.feeRate_lt⟩,
    ⟨hb, h.target_pos, hbt, h.liquidity_nonneg, h.feeRate_nonneg, h.feeRate_lt⟩⟩

section TwoParts

variable (h : Range a target liquidity feeRate d) (hfirst : Range a b liquidity feeRate d)
  (hsecond : Range b target liquidity feeRate d) (hcost : cost a b liquidity feeRate d ≤ remaining)
include h hfirst hsecond hcost

/-- With what is left after a whole part, the next part goes no further than the whole step. -/
theorem Range.second_leads_taken :
    d.Leads (taken b target liquidity (remaining - cost a b liquidity feeRate d) feeRate
      d).sqrtPriceNext (taken a target liquidity remaining feeRate d).sqrtPriceNext := by
  have hr : 0 ≤ remaining := hfirst.cost_nonneg.trans hcost
  have hrest : 0 ≤ remaining - cost a b liquidity feeRate d := Int.sub_nonneg.2 hcost
  have hsettles := hsecond.taken_settles hrest
  refine h.leads_taken hr hsettles.next_pos hsettles.within ?_
  calc
    _ ≤ input a b liquidity d + input b _ liquidity d :=
      input_le_add h.start_pos hsecond.start_pos hsettles.next_pos liquidity d
    _ ≤ input a b liquidity d + net (remaining - cost a b liquidity feeRate d) feeRate :=
      Int.add_le_add_left (hsecond.taken_input_le hrest) _
    _ ≤ net remaining feeRate := hfirst.input_add_net_le remaining

theorem Range.output_add_second_le :
    output a b liquidity d + (taken b target liquidity
        (remaining - cost a b liquidity feeRate d) feeRate d).amountOut ≤
      (taken a target liquidity remaining feeRate d).amountOut := by
  have hr : 0 ≤ remaining := hfirst.cost_nonneg.trans hcost
  have hsettles := hsecond.taken_settles (Int.sub_nonneg.2 hcost)
  have hwhole := h.taken_settles hr
  rw [hsettles.amountOut_eq, hwhole.amountOut_eq]
  exact (output_add_le h.start_pos hsecond.start_pos hsettles.next_pos liquidity d).trans
    (output_le_output h.start_pos hsettles.next_pos hwhole.next_pos
      (hfirst.leads.trans hsettles.leads) (h.second_leads_taken hfirst hsecond hcost)
      h.liquidity_nonneg)

/-- A whole part and the next one spend no less than the whole step: all of the input, or the costs
of both parts. -/
theorem Range.taken_spent_le :
    let second := taken b target liquidity (remaining - cost a b liquidity feeRate d) feeRate d
    let whole := taken a target liquidity remaining feeRate d
    whole.amountIn + whole.fee ≤
      cost a b liquidity feeRate d + (second.amountIn + second.fee) := by
  intro second whole
  have hr : 0 ≤ remaining := hfirst.cost_nonneg.trans hcost
  have hwhole := h.taken_settles hr
  rw [hsecond.taken_spent (Int.sub_nonneg.2 hcost)]
  split
  case isTrue hreach =>
    have hleads := h.second_leads_taken hfirst hsecond hcost
    rw [hreach] at hleads
    rw [h.taken_spent hr, if_pos (hwhole.within.antisymm hleads)]
    exact h.cost_le_add hsecond.start_pos
  case isFalse =>
    have hspent := hwhole.spent_le
    linarith

end TwoParts

/-- Steps toward targets in a row, each with the price and the input that the one before it left, up
to the first that misses its target. -/
def stepsToward (liquidity feeRate : Int) (d : Direction) :
    Int → Int → List Int → Checked (List SwapStep)
  | _, _, [] => .ok []
  | price, remaining, target :: later => do
    let step ← compute price target liquidity remaining feeRate d
    if step.sqrtPriceNext = target then
      let rest ← stepsToward liquidity feeRate d step.sqrtPriceNext
        (remaining - (step.amountIn + step.fee)) later
      pure (step :: rest)
    else pure [step]

/-- The price where steps in a row end that start at a price. -/
def lastPrice (price : Int) (parts : List SwapStep) : Int :=
  parts.foldl (fun _ step => step.sqrtPriceNext) price

def bought (parts : List SwapStep) : Int := (parts.map (·.amountOut)).sum

def spent (parts : List SwapStep) : Int := (parts.map fun step => step.amountIn + step.fee).sum

/-- Whether steps in a row from a price fall behind one step in every respect. -/
structure FallsBehind (d : Direction) (price : Int) (parts : List SwapStep) (whole : SwapStep) :
    Prop where
  bought_le : bought parts ≤ whole.amountOut
  le_spent : whole.amountIn + whole.fee ≤ spent parts
  leads : d.Leads price (lastPrice price parts)
  leads_whole : d.Leads (lastPrice price parts) whole.sqrtPriceNext

theorem fallsBehind_singleton (hleads : d.Leads a step.sqrtPriceNext) :
    FallsBehind d a [step] step where
  bought_le := by simp [bought]
  le_spent := by simp [spent]
  leads := hleads
  leads_whole := d.leads_refl _

/-- Targets in the order of a trade, from a price to the last target. -/
def OnTheWay (d : Direction) (price : Int) (via : List Int) (target : Int) : Prop :=
  (price :: (via ++ [target])).Pairwise d.Leads

section Parts

variable {via : List Int} {part : SwapStep} {parts : List SwapStep}

theorem OnTheWay.of_cons (h : OnTheWay d a (b :: via) target) :
    d.Leads a b ∧ OnTheWay d b via target := by
  obtain ⟨ha, hrest⟩ := List.pairwise_cons.1 h
  exact ⟨ha b List.mem_cons_self, hrest⟩

theorem OnTheWay.leads (h : OnTheWay d a via target) : d.Leads a target :=
  (List.pairwise_cons.1 h).1 target (by simp)

theorem stepsToward_of_reaches {later : List Int}
    (hstep : compute a b liquidity remaining feeRate d = .ok step) (hreach : step.sqrtPriceNext = b)
    (hrest : stepsToward liquidity feeRate d b (remaining - (step.amountIn + step.fee)) later =
      .ok parts) :
    stepsToward liquidity feeRate d a remaining (b :: later) = .ok (step :: parts) := by
  rw [stepsToward, hstep]
  change (if _ then _ else _) = _
  rw [if_pos hreach, hreach, hrest]
  rfl

theorem stepsToward_of_misses {later : List Int}
    (hstep : compute a b liquidity remaining feeRate d = .ok step)
    (hmiss : step.sqrtPriceNext ≠ b) :
    stepsToward liquidity feeRate d a remaining (b :: later) = .ok [step] := by
  rw [stepsToward, hstep]
  exact if_neg hmiss

/-- A part in front of others that fall behind a step falls behind where it and the step do. -/
theorem FallsBehind.cons {second whole : SwapStep}
    (h : FallsBehind d part.sqrtPriceNext parts second) (hleads : d.Leads a part.sqrtPriceNext)
    (hout : part.amountOut + second.amountOut ≤ whole.amountOut)
    (hspent : whole.amountIn + whole.fee ≤
      part.amountIn + part.fee + (second.amountIn + second.fee))
    (hbehind : d.Leads second.sqrtPriceNext whole.sqrtPriceNext) :
    FallsBehind d a (part :: parts) whole where
  bought_le := by
    have hrest := h.bought_le
    simp only [bought, List.map_cons, List.sum_cons] at hrest ⊢
    omega
  le_spent := by
    have hrest := h.le_spent
    simp only [spent, List.map_cons, List.sum_cons] at hrest ⊢
    omega
  leads := hleads.trans h.leads
  leads_whole := h.leads_whole.trans hbehind

/-- A step that stops short on its way to a price is the step toward any price beyond. -/
theorem Range.taken_eq_of_misses (h : Range a target liquidity feeRate d)
    (hfirst : Range a b liquidity feeRate d) (hbt : d.Leads b target) (hr : 0 ≤ remaining)
    (hmax : remaining ≤ Tick.maxU64) (hs : net remaining feeRate < input a b liquidity d) :
    taken a b liquidity remaining feeRate d = taken a target liquidity remaining feeRate d := by
  have hbefore := (hfirst.nextSqrtPrice_before hr hs).2
  have hsame := hfirst.compute_eq_of_before h hr (hfirst.compute_eq hr hmax) hbefore
    (hbefore.trans_leads hbt)
  exact Except.ok.inj (hsame.symm.trans (h.compute_eq hr hmax))

/-- The induction is on the targets in between: the first of them is reached, and the rest falls
behind the step from there, or it is missed, and the first part is the whole step. -/
theorem exists_parts (hr : 0 ≤ remaining) (hmax : remaining ≤ Tick.maxU64)
    (h : Range a target liquidity feeRate d) (hway : OnTheWay d a via target) :
    ∃ parts, stepsToward liquidity feeRate d a remaining (via ++ [target]) = .ok parts ∧
      FallsBehind d a parts (taken a target liquidity remaining feeRate d) := by
  induction via generalizing a remaining with
  | nil =>
    refine ⟨_, ?_, fallsBehind_singleton (h.taken_settles hr).leads⟩
    rw [List.nil_append, stepsToward, h.compute_eq hr hmax]
    simp [stepsToward, bind, Except.bind, pure, Except.pure]
  | cons b via ih =>
    obtain ⟨hab, hway⟩ := hway.of_cons
    obtain ⟨hfirst, hsecond⟩ := h.split hab hway.leads
    have hstep := hfirst.compute_eq hr hmax
    by_cases hs : input a b liquidity d ≤ net remaining feeRate
    · have hcost := hfirst.input_le_net_iff.1 hs
      have hpaid := hfirst.cost_nonneg
      rw [hfirst.taken_eq_full hcost] at hstep
      obtain ⟨parts, hparts, hbehind⟩ := ih (Int.sub_nonneg.2 hcost) (by omega) hsecond hway
      exact ⟨_, stepsToward_of_reaches hstep rfl hparts, hbehind.cons hab
        (h.output_add_second_le hfirst hsecond hcost) (h.taken_spent_le hfirst hsecond hcost)
        (h.second_leads_taken hfirst hsecond hcost)⟩
    · have hs := not_le.1 hs
      have hmiss := mt (hfirst.taken_reaches_iff hr).1 (not_le.2 hs)
      refine ⟨_, stepsToward_of_misses hstep hmiss, ?_⟩
      rw [h.taken_eq_of_misses hfirst hway.leads hr hmax hs]
      exact fallsBehind_singleton (h.taken_settles hr).leads

/-- A step split at prices on its way never does better than the whole step. Its parts buy no more
in all, take in at least as much with their fees, and end between the start and the end of the whole
step. -/
theorem parts_conservative (hliquidity : 0 ≤ liquidity) (ha : 0 < a) (htarget : 0 < target)
    (hfee : 0 ≤ feeRate) (hfee' : feeRate < feeRateUnit) (hr : 0 ≤ remaining)
    (hmax : remaining ≤ Tick.maxU64) (hway : OnTheWay d a via target) :
    ∃ parts whole, stepsToward liquidity feeRate d a remaining (via ++ [target]) = .ok parts ∧
      compute a target liquidity remaining feeRate d = .ok whole ∧
      bought parts ≤ whole.amountOut ∧ whole.amountIn + whole.fee ≤ spent parts ∧
      d.Leads a (lastPrice a parts) ∧ d.Leads (lastPrice a parts) whole.sqrtPriceNext := by
  have h : Range a target liquidity feeRate d :=
    ⟨ha, htarget, hway.leads, hliquidity, hfee, hfee'⟩
  obtain ⟨parts, hparts, hbehind⟩ := exists_parts hr hmax h hway
  exact ⟨parts, _, hparts, h.compute_eq hr hmax, hbehind.bought_le, hbehind.le_spent,
    hbehind.leads, hbehind.leads_whole⟩

/-- A step down, split at two prices. The last part stops short of where the whole step does, and the
parts have bought three less for the same input. -/
theorem parts_conservative_short :
    let start : Int := 18446744073709551616
    let via : List Int := [18437523468038803493, 18423701200537837524]
    let target : Int := 18409889295333041127
    (0 : Int) ≤ 3000000 ∧ 0 < start ∧ 0 < target ∧ (0 : Int) ≤ 2500 ∧
    (2500 : Int) < feeRateUnit ∧ (0 : Int) ≤ 5000 ∧ (5000 : Int) ≤ Tick.maxU64 ∧
    OnTheWay .zeroForOne start via target ∧
    ∃ parts whole, stepsToward 3000000 2500 .zeroForOne start 5000 (via ++ [target]) = .ok parts ∧
      compute start target 3000000 5000 2500 .zeroForOne = .ok whole ∧
      parts.length = 3 ∧ bought parts = 4975 ∧ whole.amountOut = 4978 ∧
      bought parts ≤ whole.amountOut ∧ whole.amountIn + whole.fee ≤ spent parts ∧
      lastPrice start parts ≤ start ∧ whole.sqrtPriceNext ≤ lastPrice start parts := by
  intro start via target
  have hway : OnTheWay .zeroForOne start via target := by
    unfold OnTheWay
    decide
  have hparts : stepsToward 3000000 2500 .zeroForOne start 5000 (via ++ [target]) = .ok
      [⟨18437523468038803493, 1501, 1499, 4⟩, ⟨18423701200537837524, 2252, 2247, 6⟩,
        ⟨18416141621240978331, 1233, 1229, 4⟩] := by decide
  have hwhole : compute start target 3000000 5000 2500 .zeroForOne = .ok
      ⟨18416130326396971052, 4987, 4978, 13⟩ := by decide
  obtain ⟨parts, whole, hparts', hwhole', hbought, hspent, hstart, hend⟩ :=
    parts_conservative (show (0 : Int) ≤ 3000000 by decide) (show 0 < start by decide)
      (show 0 < target by decide) (show (0 : Int) ≤ 2500 by decide)
      (show (2500 : Int) < feeRateUnit by decide) (show (0 : Int) ≤ 5000 by decide)
      (show (5000 : Int) ≤ Tick.maxU64 by decide) hway
  cases hparts.symm.trans hparts'
  cases hwhole.symm.trans hwhole'
  exact ⟨by decide, by decide, by decide, by decide, by decide, by decide, by decide, hway, _, _,
    hparts, hwhole, rfl, by decide, rfl, hbought, hspent, hstart, hend⟩

end Parts

end PoolSwap.SwapStep
