import PoolSwap.Proofs.Quote.Account
import PoolSwap.Proofs.Walk.Window

/-! Quotes with more arrays loaded. A quote that ends before the edge of the window does not hang on
the arrays outside it. -/
namespace PoolSwap.ConcentratedPool

variable {s : ConcentratedPool} {slippage : Scalar} {mintIn : Option Address}
  {limit : Option Int} {d : Direction} {bound poolInput amountIn : Int} {w : Walk} {stop : Position}
  {paid received : Address} {q : Quote} {window window' : Int × Int} {arrays : List TickArray}
  {hascending : (arrays.map (·.start)).Pairwise (· < ·)}

theorem isDry_eq_false_iff {r : Route} : s.isDry r = false ↔
    (s.liquidity = 0 →
      ∃ t ∈ r.ticksInOrder s.activeTicks, r.isAhead t.index s.tickCurrent = true) := by
  simp [isDry]

section MoreArrays

variable (hs : s.Consistent) (hs' : (s.withArrays arrays hascending).Consistent)
  (hmore : s.arrays ⊆ arrays)
include hs hs' hmore

theorem widens_withArrays (hwindow : s.coveredRange = some window)
    (hlower : window'.1 ≤ window.1) (hupper : window.2 ≤ window'.2) (d : Direction) (bound : Int) :
    s.Widens (s.withArrays arrays hascending) (s.route d window bound) window' where
  lower_le := hlower
  le_upper := hupper
  kept := activeTicks_subset_withArrays hmore
  same _ ht hlow hhigh := mem_activeTicks_of_withArrays hmore hs' hwindow hs.aligned ht hlow hhigh

/-- A walk that ends before the edge of the window is the walk with more arrays. -/
theorem walked_withArrays (hlimit : s.limitInForce d limit = .ok bound)
    (hmax : poolInput ≤ Tick.maxU64) (h : s.walked d bound poolInput = .ok (w, stop))
    (hedge : ∀ window, s.coveredRange = some window →
      stop.sqrtPrice ≠ Tick.sqrtPrice (d.lastTick window)) :
    (s.withArrays arrays hascending).walked d bound poolInput = .ok (w, stop) := by
  by_cases hzero : poolInput = 0
  · unfold walked at h ⊢
    rw [if_pos hzero] at h ⊢
    exact h
  · obtain ⟨window, hwindow, hdry⟩ := exists_window_of_walked hzero h
    obtain ⟨window', hwindow', hlower, hupper⟩ :=
      exists_coveredRange_withArrays hmore hs' hwindow hs.aligned
    have hwidens := widens_withArrays hs hs' hmore hwindow hlower hupper d bound
    have hdry' : (s.withArrays arrays hascending).isDry
        ((s.withArrays arrays hascending).route d window' bound) = false := by
      rw [isDry_eq_false_iff] at hdry ⊢
      intro hnone
      obtain ⟨t, ht, hahead⟩ := hdry hnone
      exact ⟨t, hwidens.mem_ticksInOrder ht, hahead⟩
    obtain ⟨w', hwalk', hwalked'⟩ := exists_walkFor hwindow' hdry' poolInput
    obtain ⟨hwalk, hending⟩ := walked_eq_ok h
    have hruns := walkFor_runs hwalk
    have hruns' := walkFor_runs hwalk'
    suffices hsame : w' = w by
      rw [hwalked', hsame, hending]
      rfl
    rcases le_or_gt poolInput 0 with hdone | hpos
    · rw [hruns.eq_of_done hdone, hruns'.eq_of_done hdone]
      rfl
    · have hp := hs.underWay_start hlimit hpos.le hmax hwalk
      have hp' := hs'.underWay_start hlimit hpos.le hmax hwalk'
      have hr := hs.offers hlimit
      have hr' := hs'.offers hlimit
      have hstop := hedge window hwindow
      unfold routeFor at hruns hruns' hp hp' hr hr'
      rw [hwindow] at hruns hp hr
      rw [hwindow'] at hruns' hp' hr'
      refine hruns'.unique (hwidens.runs hs hs' hr hr' hp hp' hruns hending ?_)
      rw [Route.bound_none]
      exact hstop

end MoreArrays

/-- A quote that ends before the edge of the window stays the same with more arrays loaded, wherever
they lie. -/
theorem quote_withArrays (hs : s.Consistent) (hs' : (s.withArrays arrays hascending).Consistent)
    (hmore : s.arrays ⊆ arrays)
    (hdirection : directionFor s.mintA s.mintB mintIn = .ok (d, paid, received))
    (hinput : s.poolInput d amountIn ≤ Tick.maxU64)
    (hquote : s.quote (.int amountIn) slippage mintIn limit = .ok q)
    (hedge : ∀ window, s.coveredRange = some window →
      q.sqrtPriceAfter ≠ some (Tick.sqrtPrice (d.lastTick window))) :
    (s.withArrays arrays hascending).quote (.int amountIn) slippage mintIn limit = .ok q := by
  obtain ⟨amount, d', paid', received', bound, w, stop, hamount, hdirection', hslippage, hlimit,
    hwalked, hpriced⟩ := quote_eq_ok_iff.1 hquote
  obtain rfl : amountIn = amount := Scalar.int.inj (Quote.tradeAmount_eq_ok.1 hamount).1
  obtain rfl : d' = d := congrArg Prod.fst (Except.ok.inj (hdirection'.symm.trans hdirection))
  have hwalked' : (s.withArrays arrays hascending).walked d' bound (s.poolInput d' amountIn) =
      .ok (w, stop) := by
    apply walked_withArrays hs hs' hmore hlimit hinput hwalked
    intro window hwindow hstop
    exact hedge window hwindow (hstop ▸ priced_sqrtPriceAfter hpriced)
  exact quote_eq_ok_iff.2 ⟨amountIn, d', paid', received', bound, w, stop, hamount, hdirection',
    hslippage, hlimit, hwalked', hpriced⟩

/-- The arrays of `nested` between one next to them and one apart. -/
def nestedAmong : List TickArray :=
  ⟨-120, [⟨-100, 500000, 500000⟩, ⟨-70, -500000, 500000⟩], none⟩ :: nested.arrays ++
    [⟨180, [⟨190, 700000, 700000⟩, ⟨200, -700000, 700000⟩], none⟩]

theorem nestedAmong_ascending : (nestedAmong.map (·.start)).Pairwise (· < ·) := by decide

theorem nestedAmong_activeTicks :
    (nested.withArrays nestedAmong nestedAmong_ascending).activeTicks =
      [⟨-100, 500000, 500000⟩, ⟨-70, -500000, 500000⟩, ⟨-40, 1000000, 1000000⟩,
        ⟨-10, 2000000, 2000000⟩, ⟨30, -3000000, 3000000⟩, ⟨190, 700000, 700000⟩,
        ⟨200, -700000, 700000⟩] :=
  List.mergeSort_of_pairwise (by decide)

theorem nestedAmong_consistent :
    (nested.withArrays nestedAmong nestedAmong_ascending).Consistent := by
  apply nested_consistent.withArrays (by decide) (by decide) (by decide) (by decide)
  intro tick
  have hcurrent : nested.tickCurrent = 0 := rfl
  have hliquidity : nested.liquidity = 3000000 := rfl
  simp only [liquidityAt, nestedAmong_activeTicks, withArrays_tickCurrent, withArrays_liquidity,
    hcurrent, hliquidity, netBetween_cons, netBetween_nil, Tick.maxU128]
  omega

/-- The quote through the inner position of `nested`, among the other arrays. -/
theorem quote_withArrays_nested :
    nested.Consistent ∧ (nested.withArrays nestedAmong nestedAmong_ascending).Consistent ∧
    nested.arrays ⊆ nestedAmong ∧
    directionFor nested.mintA nested.mintB none = .ok (.zeroForOne, .ofNat 2, .ofNat 3) ∧
    nested.poolInput .zeroForOne 2000 ≤ Tick.maxU64 ∧
    nested.coveredRange = some (-60, 60) ∧
    18428810997543547201 ≠ Tick.sqrtPrice (Direction.lastTick .zeroForOne (-60, 60)) ∧
    (nested.withArrays nestedAmong nestedAmong_ascending).coveredRange = some (-120, 60) ∧
    (nested.withArrays nestedAmong nestedAmong_ascending).quote (.int 2000) (.int 0) none none =
      .ok {
      kind := .concentrated, mintIn := .ofNat 2, mintOut := .ofNat 3, amountIn := 2000,
      amountOut := 1971, minAmountOut := 1971, fee := 6, impactBps := 45, arraysCrossed := [0, -60],
      sqrtPriceAfter := some 18428810997543547201, transferFees := 20, sqrtPriceLimit := 0 } := by
  have hmore : nested.arrays ⊆ nestedAmong := by decide
  have hdirection : directionFor nested.mintA nested.mintB none =
      .ok (.zeroForOne, .ofNat 2, .ofNat 3) := rfl
  have hinput : nested.poolInput .zeroForOne 2000 ≤ Tick.maxU64 := by decide
  have hwindow : nested.coveredRange = some (-60, 60) := by decide
  have hedge : 18428810997543547201 ≠
      Tick.sqrtPrice (Direction.lastTick .zeroForOne (-60, 60)) := by decide
  have hquote := quote_withArrays nested_consistent nestedAmong_consistent hmore hdirection hinput
    nested_quote (by
      intro window hwindow' hstop
      cases hwindow.symm.trans hwindow'
      exact hedge (Option.some.inj hstop))
  exact ⟨nested_consistent, nestedAmong_consistent, hmore, hdirection, hinput, hwindow, hedge,
    by decide, hquote⟩

/-- The array above, in which all liquidity ends. -/
def overpaidAmong : List TickArray :=
  overpaid.arrays ++ [⟨60, [⟨100, -9444732965739290427392, 9444732965739290427392⟩], none⟩]

theorem overpaidAmong_ascending : (overpaidAmong.map (·.start)).Pairwise (· < ·) := by decide

theorem overpaidAmong_activeTicks :
    (overpaid.withArrays overpaidAmong overpaidAmong_ascending).activeTicks =
      [⟨100, -9444732965739290427392, 9444732965739290427392⟩] :=
  List.mergeSort_of_pairwise (by decide)

theorem overpaidAmong_consistent :
    (overpaid.withArrays overpaidAmong overpaidAmong_ascending).Consistent := by
  apply overpaid_consistent.withArrays (by decide) (by decide) (by decide) (by decide)
  intro tick
  have hcurrent : overpaid.tickCurrent = 0 := rfl
  have hliquidity : overpaid.liquidity = 9444732965739290427392 := rfl
  simp only [liquidityAt, overpaidAmong_activeTicks, withArrays_tickCurrent, withArrays_liquidity,
    hcurrent, hliquidity, netBetween_cons, netBetween_nil, Tick.maxU128]
  omega

/-- More than 64 bits reach the pool here. Toward the edge the step stops at the price of the tick
above, far beyond it; toward that tick it is at its target, for which no amount fits 64 bits. -/
theorem overpaid_quote_withArrays :
    overpaid.Consistent ∧ (overpaid.withArrays overpaidAmong overpaidAmong_ascending).Consistent ∧
    overpaid.arrays ⊆ overpaidAmong ∧
    directionFor overpaid.mintA overpaid.mintB (some (.ofNat 3)) =
      .ok (.oneForZero, .ofNat 3, .ofNat 2) ∧
    (15779849380663340032 : Int) ≤ Tick.maxU64 ∧
    Tick.maxU64 < overpaid.poolInput .oneForZero 15779849380663340032 ∧
    overpaid.coveredRange = some (0, 60) ∧
    18539204128674375874 ≠ Tick.sqrtPrice (Direction.lastTick .oneForZero (0, 60)) ∧
    overpaid.quote (.int 15779849380663340032) (.int 0) (some (.ofNat 3)) none = .ok {
      kind := .concentrated, mintIn := .ofNat 3, mintOut := .ofNat 2,
      amountIn := 15779849380663340032, amountOut := 47103452935699667067,
      minAmountOut := 47103452935699667067, fee := 0, impactBps := 49, arraysCrossed := [0],
      sqrtPriceAfter := some 18539204128674375874, transferFees := -31559698761326680064,
      sqrtPriceLimit := 0 } ∧
    (overpaid.withArrays overpaidAmong overpaidAmong_ascending).quote (.int 15779849380663340032)
      (.int 0) (some (.ofNat 3)) none = .error (.breach .wrongKind) := by
  refine ⟨overpaid_consistent, overpaidAmong_consistent, by decide, by decide, by decide,
    by decide, by decide, by decide, ?_, ?_⟩
  · simp only [quote, walkAlong, isDry, overpaid_activeTicks]
    decide +kernel
  · simp only [quote, walkAlong, isDry, overpaidAmong_activeTicks]
    decide +kernel

end PoolSwap.ConcentratedPool
