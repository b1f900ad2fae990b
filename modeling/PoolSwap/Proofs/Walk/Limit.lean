import PoolSwap.Proofs.Walk.Account

/-! Walks under another price limit. Up to a mark that neither of two limits comes before, a limit
changes nothing: a leg that stops before the mark goes toward the same target under both limits, or
stops short of both targets. This needs no bound on the input. -/
namespace PoolSwap

namespace Route

/-- A route with another price limit. -/
def withLimit (r : Route) (limit : Int) : Route := { r with sqrtPriceLimit := limit }

variable {r : Route} {p : Position} {next : Option Tick} {l : Leg} {limit mark price : Int}

theorem target_eq_of_before (hlimit : r.direction.Leads mark r.sqrtPriceLimit)
    (hprice : r.direction.Before price mark) : r.target price = price := by
  unfold Direction.Leads Direction.Before target at *
  cases hd : r.direction <;> simp only [hd] at * <;> omega

theorem blocked_withLimit (hnear : p.sqrtPrice ≠ r.sqrtPriceLimit) (hfar : p.sqrtPrice ≠ limit) :
    (r.withLimit limit).blocked p = r.blocked p := by
  unfold blocked withLimit
  simp only [hnear, hfar]

section Leg

variable (hnear : r.direction.Leads mark r.sqrtPriceLimit) (hfar : r.direction.Leads mark limit)
  (hrange : SwapStep.Range p.sqrtPrice (r.target (Tick.sqrtPrice (r.bound next))) p.liquidity
    r.feeRate r.direction)
  (hrange' : SwapStep.Range p.sqrtPrice
    ((r.withLimit limit).target (Tick.sqrtPrice (r.bound next))) p.liquidity r.feeRate r.direction)
include hnear hfar hrange hrange'

/-- A leg that stops before the mark is the same under both limits. -/
theorem leg_withLimit (hleft : 0 < p.remaining) (hleg : r.leg p next = .ok l)
    (hbefore : r.direction.Before l.stop.sqrtPrice mark) :
    (r.withLimit limit).leg p next = .ok l := by
  obtain ⟨-, hstep, hstop⟩ := leg_eq_ok hleg
  rw [leg_stop_sqrtPrice hleg] at hbefore
  have hstep' : SwapStep.compute p.sqrtPrice
      ((r.withLimit limit).target (Tick.sqrtPrice (r.bound next))) p.liquidity p.remaining
      r.feeRate r.direction = .ok l.step := by
    by_cases hgoal : r.direction.Leads mark (Tick.sqrtPrice (r.bound next))
    · exact hrange.compute_eq_of_before hrange' hleft.le hstep
        (hbefore.trans_leads (leads_target hgoal hnear))
        (hbefore.trans_leads (leads_target (r := r.withLimit limit) hgoal hfar))
    · have hgoal := Direction.before_iff.2 hgoal
      rw [target_eq_of_before hnear hgoal] at hstep
      rw [target_eq_of_before (r := r.withLimit limit) hfar hgoal]
      exact hstep
  have hleg' := leg_of_advance (r := r.withLimit limit) hstep' hstop
  exact hleg'.trans ((leg_of_advance hstep hstop).symm.trans hleg)

end Leg

end Route

namespace ConcentratedPool

variable {s : ConcentratedPool} {r : Route} {p stop : Position} {w : Walk} {limit mark : Int}

theorem OnCourse.withLimit (h : s.OnCourse r p) (hlimit : r.direction.Leads p.sqrtPrice limit) :
    s.OnCourse (r.withLimit limit) p :=
  ⟨h.lower_le, h.lt_upper, h.minTick_le, h.lt_maxTick, h.price_le, h.le_price, h.liquidity_eq,
    h.tick_passed, h.start_leads, hlimit⟩

section Runs

variable (hs : s.Consistent) (hr : s.Offers r)
include hs hr

/-- A run moves the price in its direction, whatever its input. -/
theorem OnCourse.run_leads (h : r.Runs (r.ticksInOrder s.activeTicks) p w)
    (hp : 0 < p.remaining → s.OnCourse r p) (hend : w.ending = .ok stop) :
    r.direction.Leads p.sqrtPrice stop.sqrtPrice := by
  induction h with
  | done =>
    cases hend
    exact r.direction.leads_refl _
  | failed | stuck => cases hend
  | onward hleft hleg hopen _ ih =>
    have hcourse := hp hleft
    have hstep := (hcourse.range hs hr _).leads_of_compute hleft.le (Route.leg_eq_ok hleg).2.1
    have hrest := ih (fun hmore => hcourse.leg hs hleg hopen hmore.ne') hend
    exact (Route.leg_stop_sqrtPrice hleg ▸ hstep).trans hrest

/-- A run that ends before the mark is a run under both limits. -/
theorem OnCourse.runs_withLimit (hr' : s.Offers (r.withLimit limit))
    (hnear : r.direction.Leads mark r.sqrtPriceLimit) (hfar : r.direction.Leads mark limit)
    (h : r.Runs (r.ticksInOrder s.activeTicks) p w) (hp : 0 < p.remaining → s.OnCourse r p)
    (hend : w.ending = .ok stop) (hbefore : r.direction.Before stop.sqrtPrice mark) :
    (r.withLimit limit).Runs ((r.withLimit limit).ticksInOrder s.activeTicks) p w := by
  induction h with
  | done hdone => exact .done hdone
  | failed | stuck => cases hend
  | @onward p l w hleft hleg hopen hruns ih =>
    have hcourse := hp hleft
    have hnext : 0 < l.stop.remaining → s.OnCourse r l.stop :=
      fun hmore => hcourse.leg hs hleg hopen hmore.ne'
    have hstop : r.direction.Before l.stop.sqrtPrice mark :=
      (OnCourse.run_leads hs hr hruns hnext hend).trans_before hbefore
    have hstep := (hcourse.range hs hr (r.ticksInOrder s.activeTicks)).leads_of_compute hleft.le
      (Route.leg_eq_ok hleg).2.1
    rw [← Route.leg_stop_sqrtPrice hleg] at hstep
    have hcourse' : s.OnCourse (r.withLimit limit) p :=
      hcourse.withLimit ((hstep.trans_before hstop).trans_leads hfar).leads
    have hleg' := Route.leg_withLimit hnear hfar (hcourse.range hs hr _)
      (hcourse'.range hs hr' (r.ticksInOrder s.activeTicks)) hleft hleg hstop
    have hopen' : (r.withLimit limit).blocked l.stop = none := by
      rw [Route.blocked_withLimit (hstop.trans_leads hnear).ne (hstop.trans_leads hfar).ne]
      exact hopen
    exact .onward hleft hleg' hopen' (ih hnext hend)

end Runs

end ConcentratedPool
end PoolSwap
