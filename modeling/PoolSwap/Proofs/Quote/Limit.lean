import PoolSwap.Proofs.Quote.Account
import PoolSwap.Proofs.Walk.Limit

/-! Quotes with a price limit. A limit that the price does not reach changes nothing in a quote but
the limit it names, and no quote of an amount of 64 bits goes beyond its limit. -/
namespace PoolSwap

/-- Whether a trade ended at a price strictly before another. -/
def Quote.StopsBefore (q : Quote) (d : Direction) (mark : Int) : Prop :=
  ∃ price, q.sqrtPriceAfter = some price ∧ d.Before price mark

namespace ConcentratedPool

variable {s : ConcentratedPool} {slippage : Scalar} {mintIn : Option Address}
  {limit limit' : Option Int} {d : Direction} {bound bound' mark poolInput amountIn : Int}
  {w : Walk} {stop : Position} {paid received : Address} {q q' : Quote}

/-- A walk that ends before the mark is the walk under every limit that does not come before the
mark. -/
theorem walked_withLimit (hs : s.Consistent) (hlimit : s.limitInForce d limit = .ok bound)
    (hlimit' : s.limitInForce d limit' = .ok bound') (hnear : d.Leads mark bound)
    (hfar : d.Leads mark bound') (h : s.walked d bound poolInput = .ok (w, stop))
    (hbefore : d.Before stop.sqrtPrice mark) : s.walked d bound' poolInput = .ok (w, stop) := by
  by_cases hzero : poolInput = 0
  · unfold walked at h ⊢
    rw [if_pos hzero] at h ⊢
    exact h
  · obtain ⟨window, hwindow, hdry⟩ := exists_window_of_walked hzero h
    have hdry' : s.isDry (s.route d window bound') = false := hdry
    obtain ⟨w', hwalk', hwalked'⟩ := exists_walkFor hwindow hdry' poolInput
    obtain ⟨hwalk, hending⟩ := walked_eq_ok h
    have hruns := walkFor_runs hwalk
    have hcourse : s.OnCourse (s.routeFor d bound) (s.position poolInput) := by
      unfold routeFor
      rw [hwindow]
      exact hs.onCourse_start hlimit hwindow poolInput
    have hruns' := OnCourse.runs_withLimit hs (hs.offers hlimit) (hs.offers hlimit') hnear hfar
      hruns (fun _ => hcourse) hending hbefore
    have hsame : w' = w := (walkFor_runs hwalk').unique hruns'
    rw [hwalked', hsame, hending]
    rfl

theorem priced_withLimit
    (h : s.priced d paid received amountIn slippage limit w stop = .ok q) (limit' : Option Int) :
    s.priced d paid received amountIn slippage limit' w stop =
      .ok { q with sqrtPriceLimit := limit'.getD 0 } := by
  obtain ⟨impact, himpact, h⟩ := Checked.bind_eq_ok.1 h
  obtain ⟨minAmountOut, hmin, h⟩ := Checked.bind_eq_ok.1 h
  rw [← Checked.pure_eq_ok.1 h]
  exact Checked.bind_eq_ok.2 ⟨impact, himpact, Checked.bind_eq_ok.2 ⟨minAmountOut, hmin, rfl⟩⟩

theorem quote_sqrtPriceLimit {amount : Scalar}
    (h : s.quote amount slippage mintIn limit = .ok q) : q.sqrtPriceLimit = limit.getD 0 := by
  obtain ⟨_, _, _, _, hq⟩ := quote_eq_ok h
  exact hq.sqrtPriceLimit_eq

/-- A quote that stops before the mark is, but for the limit it names, the quote under every limit
that does not come before the mark. -/
theorem quote_withLimit (hs : s.Consistent)
    (hdirection : directionFor s.mintA s.mintB mintIn = .ok (d, paid, received))
    (hlimit : s.limitInForce d limit = .ok bound) (hlimit' : s.limitInForce d limit' = .ok bound')
    (hnear : d.Leads mark bound) (hfar : d.Leads mark bound')
    (hquote : s.quote (.int amountIn) slippage mintIn limit = .ok q)
    (hbefore : q.StopsBefore d mark) :
    s.quote (.int amountIn) slippage mintIn limit' =
      .ok { q with sqrtPriceLimit := limit'.getD 0 } := by
  obtain ⟨amount, d', paid', received', bound₁, w, stop, hamount, hdirection', hslippage, hlimit₁,
    hwalked, hpriced⟩ := quote_eq_ok_iff.1 hquote
  obtain rfl : d' = d := congrArg Prod.fst (Except.ok.inj (hdirection'.symm.trans hdirection))
  obtain rfl : bound₁ = bound := Except.ok.inj (hlimit₁.symm.trans hlimit)
  obtain ⟨price, hprice, hbefore⟩ := hbefore
  obtain rfl : stop.sqrtPrice = price :=
    Option.some.inj ((priced_sqrtPriceAfter hpriced).symm.trans hprice)
  exact quote_eq_ok_iff.2 ⟨amount, d', paid', received', bound', w, stop, hamount, hdirection',
    hslippage, hlimit', walked_withLimit hs hlimit hlimit' hnear hfar hwalked hbefore,
    priced_withLimit hpriced limit'⟩

theorem limitInForce_some {l : Int} (h : s.limitInForce d (some l) = .ok bound) : bound = l := by
  cases d <;> unfold limitInForce at h <;> dsimp only at h <;> split at h <;> cases h <;> rfl

/-- Without a limit asked for, the price may go up to the last one inside the tick bounds. -/
theorem exists_limitInForce_none (hmin : Tick.minSqrtPrice < mark)
    (hmax : mark < Tick.maxSqrtPrice) (d : Direction) :
    ∃ far, s.limitInForce d none = .ok far ∧ d.Leads mark far := by
  cases d
  · exact ⟨_, rfl, hmin⟩
  · exact ⟨_, rfl, Int.le_sub_one_of_lt hmax⟩

theorem Quoted.leads_limit {amount : Scalar} (hs : s.Consistent)
    (hmax : s.poolInput d q.amountIn ≤ Tick.maxU64)
    (hq : s.Quoted amount slippage mintIn limit d bound w stop q) :
    d.Leads stop.sqrtPrice bound := by
  have hruns := walkFor_runs hq.walk_eq
  rcases le_or_gt (s.poolInput d q.amountIn) 0 with hdone | hpos
  · have hending := hq.ending_eq
    rw [hruns.eq_of_done hdone] at hending
    cases hending
    exact (hs.limitInForce_spec hq.limit_eq).1
  · have hstart := hs.underWay_start hq.limit_eq hpos.le hmax hq.walk_eq
    exact (hstart.endsAt hs (hs.offers hq.limit_eq) hruns hq.ending_eq).stop_underWay.leads_limit

/-- A price limit that is not reached changes nothing: with and without it the same trades end
before it, and their quotes differ only in the limit they name. While what reaches the pool fits 64
bits, no trade goes beyond the limit. -/
theorem quote_iff_unlimited {l : Int} (hs : s.Consistent)
    (hdirection : directionFor s.mintA s.mintB mintIn = .ok (d, paid, received))
    (hlimit : s.limitInForce d (some l) = .ok bound) :
    ((∃ q, s.quote (.int amountIn) slippage mintIn (some l) = .ok q ∧ q.StopsBefore d l) ↔
      ∃ q, s.quote (.int amountIn) slippage mintIn none = .ok q ∧ q.StopsBefore d l) ∧
    (∀ q q', s.quote (.int amountIn) slippage mintIn (some l) = .ok q →
      s.quote (.int amountIn) slippage mintIn none = .ok q' →
      q.StopsBefore d l ∨ q'.StopsBefore d l →
      q = { q' with sqrtPriceLimit := l } ∧ q'.sqrtPriceLimit = 0) ∧
    (s.poolInput d amountIn ≤ Tick.maxU64 →
      ∀ q, s.quote (.int amountIn) slippage mintIn (some l) = .ok q →
        ∃ price, q.sqrtPriceAfter = some price ∧ d.Leads price l) := by
  obtain rfl := limitInForce_some hlimit
  obtain ⟨-, hmin, hmax⟩ := hs.limitInForce_spec hlimit
  obtain ⟨far, hlimit', hfar⟩ := exists_limitInForce_none (s := s) hmin hmax d
  have hnear := d.leads_refl bound
  have hfree : ∀ q, s.quote (.int amountIn) slippage mintIn (some bound) = .ok q →
      q.StopsBefore d bound →
      s.quote (.int amountIn) slippage mintIn none = .ok { q with sqrtPriceLimit := 0 } :=
    fun q hq hbefore => quote_withLimit hs hdirection hlimit hlimit' hnear hfar hq hbefore
  have hlimited : ∀ q, s.quote (.int amountIn) slippage mintIn none = .ok q →
      q.StopsBefore d bound →
      s.quote (.int amountIn) slippage mintIn (some bound) =
        .ok { q with sqrtPriceLimit := bound } :=
    fun q hq hbefore => quote_withLimit hs hdirection hlimit' hlimit hfar hnear hq hbefore
  refine ⟨⟨fun ⟨q, hq, hbefore⟩ => ⟨_, hfree q hq hbefore, hbefore⟩,
    fun ⟨q, hq, hbefore⟩ => ⟨_, hlimited q hq hbefore, hbefore⟩⟩, ?_, ?_⟩
  · intro q q' hq hq' hbefore
    have hnamed : bound = q.sqrtPriceLimit := (quote_sqrtPriceLimit hq).symm
    rcases hbefore with hbefore | hbefore
    · obtain rfl := Except.ok.inj (hq'.symm.trans (hfree q hq hbefore))
      refine ⟨?_, rfl⟩
      rw [hnamed]
    · exact ⟨Except.ok.inj (hq.symm.trans (hlimited q' hq' hbefore)), quote_sqrtPriceLimit hq'⟩
  · intro hinput q hquote
    obtain ⟨d', bound', w, stop, hq⟩ := quote_eq_ok hquote
    obtain rfl : d' = d := congrArg Prod.fst (Except.ok.inj (hq.mints_eq.symm.trans hdirection))
    obtain rfl : bound' = bound := Except.ok.inj (hq.limit_eq.symm.trans hlimit)
    have hamount := Scalar.int.inj (Quote.tradeAmount_eq_ok.1 hq.amountIn_eq).1
    exact ⟨stop.sqrtPrice, hq.sqrtPriceAfter_eq, hq.leads_limit hs (hamount ▸ hinput)⟩

/-- A limit in the leg below the inner position, one below the price where the trade ends. -/
theorem quote_iff_unlimited_nested :
    nested.Consistent ∧
    directionFor nested.mintA nested.mintB none = .ok (.zeroForOne, .ofNat 2, .ofNat 3) ∧
    nested.limitInForce .zeroForOne (some 18428810997543547200) = .ok 18428810997543547200 ∧
    nested.poolInput .zeroForOne 2000 ≤ Tick.maxU64 ∧
    ∃ q q', nested.quote (.int 2000) (.int 0) none (some 18428810997543547200) = .ok q ∧
      nested.quote (.int 2000) (.int 0) none none = .ok q' ∧
      q.StopsBefore .zeroForOne 18428810997543547200 ∧
      q = { q' with sqrtPriceLimit := 18428810997543547200 } ∧ q'.sqrtPriceLimit = 0 ∧
      ∃ price, q.sqrtPriceAfter = some price ∧ 18428810997543547200 ≤ price := by
  have hdirection : directionFor nested.mintA nested.mintB none =
      .ok (.zeroForOne, .ofNat 2, .ofNat 3) := rfl
  have hlimit : nested.limitInForce .zeroForOne (some 18428810997543547200) =
      .ok 18428810997543547200 := by decide
  have hinput : nested.poolInput .zeroForOne 2000 ≤ Tick.maxU64 := by decide
  obtain ⟨hiff, hsame, hnear⟩ :=
    @quote_iff_unlimited nested (.int 0) none .zeroForOne _ 2000 _ _ _ nested_consistent
      hdirection hlimit
  obtain ⟨q, hq, hbefore⟩ := hiff.2
    ⟨_, nested_quote, 18428810997543547201, rfl, (by decide : _ < _)⟩
  obtain ⟨hquote, hnone⟩ := hsame q _ hq nested_quote (.inl hbefore)
  exact ⟨nested_consistent, hdirection, hlimit, hinput, q, _, hq, nested_quote, hbefore, hquote,
    hnone, hnear hinput q hq⟩

/-- More than 64 bits reach the pool here. No amount that fits 64 bits moves the price to the limit,
so the step is not held to it, and the trade ends beyond. -/
theorem overpaid_quote_beyond_limit :
    overpaid.Consistent ∧
    directionFor overpaid.mintA overpaid.mintB (some (.ofNat 3)) =
      .ok (.oneForZero, .ofNat 3, .ofNat 2) ∧
    overpaid.limitInForce .oneForZero (some 18496744073709551616) = .ok 18496744073709551616 ∧
    (15779849380663340032 : Int) ≤ Tick.maxU64 ∧
    Tick.maxU64 < overpaid.poolInput .oneForZero 15779849380663340032 ∧
    overpaid.quote (.int 15779849380663340032) (.int 0) (some (.ofNat 3))
      (some 18496744073709551616) = .ok {
      kind := .concentrated, mintIn := .ofNat 3, mintOut := .ofNat 2,
      amountIn := 15779849380663340032, amountOut := 47103452935699667067,
      minAmountOut := 47103452935699667067, fee := 0, impactBps := 49, arraysCrossed := [0],
      sqrtPriceAfter := some 18539204128674375874, transferFees := -31559698761326680064,
      sqrtPriceLimit := 18496744073709551616 } ∧
    ¬ Direction.oneForZero.Leads 18539204128674375874 18496744073709551616 := by
  refine ⟨overpaid_consistent, by decide, by decide, by decide, by decide, ?_, by decide⟩
  simp only [quote, walkAlong, isDry, overpaid_activeTicks]
  decide +kernel

end ConcentratedPool
end PoolSwap
