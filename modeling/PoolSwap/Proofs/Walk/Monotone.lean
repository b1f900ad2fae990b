import PoolSwap.Proofs.Walk.Cost

/-! Walks with more input. As long as the smaller input goes on, both walks take the same legs. On
the leg where it is used up the larger one buys no less, and the price goes at least as far. -/
namespace PoolSwap.ConcentratedPool

variable {s : ConcentratedPool} {r : Route} {p stop stop' : Position} {l l' : Leg} {w w' : Walk}
  {more : Int}

theorem UnderWay.leg_le_withInput (hs : s.Consistent) (hr : s.Offers r) (hp : s.UnderWay r p)
    (hp' : s.UnderWay r (p.withInput more)) (hpos : 0 < p.remaining) (hle : p.remaining ≤ more)
    {ticks : List Tick} (hleg : r.leg p (r.nextTick ticks p.tick) = .ok l)
    (hleg' : r.leg (p.withInput more) (r.nextTick ticks p.tick) = .ok l') :
    l.step.amountOut ≤ l'.step.amountOut ∧
      r.direction.Leads l.stop.sqrtPrice l'.stop.sqrtPrice := by
  have hrange := (hp.onCourse hpos).range hs hr ticks
  have hstep' : l'.step = SwapStep.taken p.sqrtPrice (r.goal ticks p) p.liquidity more r.feeRate
      r.direction := hp'.step_eq hs hr (hpos.trans_le hle) hleg'
  rw [Route.leg_stop_sqrtPrice hleg, Route.leg_stop_sqrtPrice hleg', hp.step_eq hs hr hpos hleg,
    hstep']
  exact ⟨hrange.taken_amountOut_le hp.left_nonneg hle, hrange.taken_leads hp.left_nonneg hle⟩

/-- More input buys no less and moves the price no less. -/
theorem UnderWay.run_withInput (hs : s.Consistent) (hr : s.Offers r)
    (h : r.Runs (r.ticksInOrder s.activeTicks) p w)
    (h' : r.Runs (r.ticksInOrder s.activeTicks) (p.withInput more) w') (hp : s.UnderWay r p)
    (hp' : s.UnderWay r (p.withInput more)) (hle : p.remaining ≤ more)
    (hend : w.ending = .ok stop) (hend' : w'.ending = .ok stop') :
    w.grossOut ≤ w'.grossOut ∧ r.direction.Leads stop.sqrtPrice stop'.sqrtPrice := by
  induction h generalizing more w' with
  | done =>
    cases hend
    exact ⟨grossOut_nonneg (hp'.legs hs hr h'), (hp'.endsAt hs hr h' hend').leads⟩
  | failed | stuck => cases hend
  | @onward p l w hpos hleg hopen hruns ih =>
    cases h' with
    | done hdone => exact absurd (hpos.trans_le hle) (not_lt.2 hdone)
    | failed | stuck => cases hend'
    | @onward _ l' w' hpos' hleg' hopen' hruns' =>
      have hnext := hp.leg hs hr hpos hleg hopen
      have hnext' := hp'.leg hs hr hpos' hleg' hopen'
      simp only [Walk.grossOut, Walk.total_afterLeg] at ih ⊢
      by_cases hleft : l.stop.remaining = 0
      · -- The smaller input ends here, and the larger one is at least as far.
        obtain ⟨hmore, hfurther⟩ := hp.leg_le_withInput hs hr hp' hpos hle hleg hleg'
        rw [hruns.eq_of_done hleft.le] at hend ⊢
        cases hend
        have hrest := grossOut_nonneg (hnext'.legs hs hr hruns')
        have hon := (hnext'.endsAt hs hr hruns' hend').leads
        refine ⟨?_, hfurther.trans hon⟩
        simp only [Walk.grossOut, Walk.total_nil] at hrest ⊢
        omega
      · have hcost := hp.cost_lt hs hr hpos hleg hleft
        obtain ⟨hstep, hstop⟩ := hp.leg_withInput hs hr hp' hpos hpos' hleg hleg' hcost.le
          (hcost.le.trans hle)
        have hrest := hp.leg_of_cost_le hs hr hpos hleg hcost.le
        rw [hstop] at hruns' hnext'
        have hlater := ih hruns' hnext hnext' (by omega) hend hend'
        rw [hstep]
        exact ⟨by omega, hlater.2⟩

end PoolSwap.ConcentratedPool
