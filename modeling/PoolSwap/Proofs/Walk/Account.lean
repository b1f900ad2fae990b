import PoolSwap.Proofs.SwapStep.Contract
import PoolSwap.Proofs.Walk.Course

/-! The account of a walk. Every leg on the course takes the step that its input pays for, so no
leg fails, each keeps the contract of its step, and a walk that ends well uses its input up. -/
namespace PoolSwap

/-- The price that the leg from a position goes toward. -/
def Route.goal (r : Route) (ticks : List Tick) (p : Position) : Int :=
  r.target (Tick.sqrtPrice (r.bound (r.nextTick ticks p.tick)))

namespace Walk

variable {f g : SwapStep → Int} {w : Walk} {a b : Int}

theorem total_nonneg (h : ∀ l ∈ w.legs, 0 ≤ f l.step) : 0 ≤ w.total f := by
  obtain ⟨legs, ending⟩ := w
  induction legs with
  | nil => exact le_rfl
  | cons l legs ih =>
    have hrest := ih fun l' hl => h l' (List.mem_cons_of_mem l hl)
    rw [total_cons]
    exact add_nonneg (h l List.mem_cons_self) hrest

theorem total_add (f g : SwapStep → Int) (w : Walk) :
    w.total (fun step => f step + g step) = w.total f + w.total g := by
  obtain ⟨legs, ending⟩ := w
  induction legs with
  | nil => rfl
  | cons l legs ih =>
    simp only [total_cons, ih]
    omega

theorem total_mul_le_total_mul (h : ∀ l ∈ w.legs, f l.step * a ≤ g l.step * b) :
    w.total f * a ≤ w.total g * b := by
  obtain ⟨legs, ending⟩ := w
  induction legs with
  | nil => simp
  | cons l legs ih =>
    have hrest := ih fun l' hl => h l' (List.mem_cons_of_mem l hl)
    simp only [total_cons, add_mul]
    exact add_le_add (h l List.mem_cons_self) hrest

end Walk

namespace ConcentratedPool

/-- A route at the fee rate of a pool, with a limit that is a price. -/
structure Offers (s : ConcentratedPool) (r : Route) : Prop where
  feeRate_eq : r.feeRate = s.feeRate
  limit_pos : 0 < r.sqrtPriceLimit

/-- A position that a walk can go on from, or where its input is used up. -/
structure UnderWay (s : ConcentratedPool) (r : Route) (p : Position) : Prop where
  left_nonneg : 0 ≤ p.remaining
  left_le : p.remaining ≤ Tick.maxU64
  onCourse : 0 < p.remaining → s.OnCourse r p
  start_leads : r.direction.Leads s.sqrtPrice p.sqrtPrice
  leads_limit : r.direction.Leads p.sqrtPrice r.sqrtPriceLimit

/-- A leg that starts under way and keeps the contract of its step. -/
structure LegKept (s : ConcentratedPool) (r : Route) (ticks : List Tick) (l : Leg) : Prop where
  start_underWay : s.UnderWay r l.start
  range : SwapStep.Range l.start.sqrtPrice (r.goal ticks l.start) l.start.liquidity r.feeRate
    r.direction
  settles : SwapStep.Settles l.start.sqrtPrice (r.goal ticks l.start) l.start.liquidity
    l.start.remaining r.feeRate r.direction l.step
  stop_remaining : l.stop.remaining = l.start.remaining - (l.step.amountIn + l.step.fee)
  stop_sqrtPrice : l.stop.sqrtPrice = l.step.sqrtPriceNext

variable {s : ConcentratedPool} {r : Route} {p stop : Position} {l : Leg} {w : Walk}

theorem OnCourse.range (hs : s.Consistent) (hr : s.Offers r) (hp : s.OnCourse r p)
    (ticks : List Tick) :
    SwapStep.Range p.sqrtPrice (r.goal ticks p) p.liquidity r.feeRate r.direction where
  start_pos := (Tick.sqrtPrice_pos hp.minTick_le hp.lt_maxTick.le).trans_le hp.price_le
  target_pos := r.target_pos hr.limit_pos _
  leads := Route.leads_target (hp.leads_boundary ticks) hp.leads_limit
  liquidity_nonneg := hp.liquidity_eq ▸ hs.liquidityAt_nonneg p.tick
  feeRate_nonneg := hr.feeRate_eq ▸ hs.feeRate_nonneg
  feeRate_lt := hr.feeRate_eq ▸ hs.feeRate_lt

theorem UnderWay.step_eq (hs : s.Consistent) (hr : s.Offers r) (hp : s.UnderWay r p)
    (hleft : 0 < p.remaining) {ticks : List Tick}
    (hleg : r.leg p (r.nextTick ticks p.tick) = .ok l) :
    l.step = SwapStep.taken p.sqrtPrice (r.goal ticks p) p.liquidity p.remaining r.feeRate
      r.direction := by
  have hrange := (hp.onCourse hleft).range hs hr ticks
  have hstep := (Route.leg_eq_ok hleg).2.1
  exact Except.ok.inj (hstep.symm.trans (hrange.compute_eq hp.left_nonneg hp.left_le))

theorem UnderWay.legKept (hs : s.Consistent) (hr : s.Offers r) (hp : s.UnderWay r p)
    (hleft : 0 < p.remaining) {ticks : List Tick}
    (hleg : r.leg p (r.nextTick ticks p.tick) = .ok l) : s.LegKept r ticks l := by
  have hrange := (hp.onCourse hleft).range hs hr ticks
  have hstart := (Route.leg_eq_ok hleg).1
  refine ⟨hstart ▸ hp, hstart ▸ hrange, ?_, ?_, Route.leg_stop_sqrtPrice hleg⟩
  · rw [hstart, hp.step_eq hs hr hleft hleg]
    exact hrange.taken_settles hp.left_nonneg
  · rw [hstart]
    exact Route.leg_stop_remaining hleg

theorem UnderWay.leg (hs : s.Consistent) (hr : s.Offers r) (hp : s.UnderWay r p)
    (hleft : 0 < p.remaining)
    (hleg : r.leg p (r.nextTick (r.ticksInOrder s.activeTicks) p.tick) = .ok l)
    (hopen : r.blocked l.stop = none) : s.UnderWay r l.stop := by
  have hkept := hp.legKept hs hr hleft hleg
  have hsettles := hkept.settles
  have hstop := hkept.stop_remaining
  rw [(Route.leg_eq_ok hleg).1] at hsettles hstop
  have hspent := hsettles.spent_le
  have hin := hsettles.amountIn_nonneg
  have hfee := hsettles.fee_nonneg
  have hmax := hp.left_le
  exact {
    left_nonneg := by omega
    left_le := by omega
    onCourse := fun hmore => (hp.onCourse hleft).leg hs hleg hopen hmore.ne'
    start_leads := hkept.stop_sqrtPrice ▸ hp.start_leads.trans hsettles.leads
    leads_limit := hkept.stop_sqrtPrice ▸ hsettles.within.trans (r.target_leads_limit _) }

theorem UnderWay.legs (hs : s.Consistent) (hr : s.Offers r)
    (h : r.Runs (r.ticksInOrder s.activeTicks) p w) (hp : s.UnderWay r p) :
    ∀ l ∈ w.legs, s.LegKept r (r.ticksInOrder s.activeTicks) l := by
  induction h with
  | done | failed => simp
  | stuck hleft hleg =>
    intro l' hl
    rw [List.mem_singleton.1 hl]
    exact hp.legKept hs hr hleft hleg
  | onward hleft hleg hopen _ ih =>
    intro l' hl
    rcases List.mem_cons.1 hl with rfl | hl
    · exact hp.legKept hs hr hleft hleg
    · exact ih (hp.leg hs hr hleft hleg hopen) l' hl

/-- What a run that ends well has done with its input. -/
structure EndsAt (s : ConcentratedPool) (r : Route) (p : Position) (w : Walk) (stop : Position) :
    Prop where
  stop_underWay : s.UnderWay r stop
  stop_remaining : stop.remaining = 0
  spent : w.traded + w.fees = p.remaining
  leads : r.direction.Leads p.sqrtPrice stop.sqrtPrice

theorem UnderWay.endsAt (hs : s.Consistent) (hr : s.Offers r)
    (h : r.Runs (r.ticksInOrder s.activeTicks) p w) (hp : s.UnderWay r p)
    (hend : w.ending = .ok stop) : s.EndsAt r p w stop := by
  induction h with
  | done hdone =>
    cases hend
    have hzero := le_antisymm hdone hp.left_nonneg
    exact ⟨hp, hzero, by simp [Walk.traded, Walk.fees, hzero], r.direction.leads_refl _⟩
  | failed | stuck => cases hend
  | onward hleft hleg hopen _ ih =>
    have hkept := hp.legKept hs hr hleft hleg
    have hsettles := hkept.settles
    have hstop := hkept.stop_remaining
    rw [(Route.leg_eq_ok hleg).1] at hsettles hstop
    have hrest := ih (hp.leg hs hr hleft hleg hopen) hend
    have hspent := hrest.spent
    refine ⟨hrest.stop_underWay, hrest.stop_remaining, ?_, ?_⟩
    · simp only [Walk.traded, Walk.fees, Walk.total_afterLeg] at hspent ⊢
      omega
    · exact (hkept.stop_sqrtPrice ▸ hsettles.leads).trans hrest.leads

section Sums

variable {ticks : List Tick} (h : ∀ l ∈ w.legs, s.LegKept r ticks l)
include h

theorem grossOut_nonneg : 0 ≤ w.grossOut :=
  Walk.total_nonneg fun l hl => (h l hl).settles.amountOut_nonneg

theorem fees_nonneg : 0 ≤ w.fees :=
  Walk.total_nonneg fun l hl => (h l hl).settles.fee_nonneg

theorem fees_share : (w.traded + w.fees) * r.feeRate ≤ w.fees * SwapStep.feeRateUnit := by
  unfold Walk.traded Walk.fees
  rw [← Walk.total_add]
  exact Walk.total_mul_le_total_mul fun l hl => (h l hl).settles.fee_share

end Sums

end ConcentratedPool
end PoolSwap
