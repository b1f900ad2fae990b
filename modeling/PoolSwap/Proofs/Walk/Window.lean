import PoolSwap.Proofs.Pool.Window
import PoolSwap.Proofs.Walk.Cost

/-! Walks in a wider window. A walk that ends before the edge of its window takes the same legs with
more arrays loaded: the next tick is the same up to the edge, and a leg that stops short of the edge
is the same toward any goal beyond. -/
namespace PoolSwap

/-- The last tick of a window in a direction, inside the tick bounds. -/
def Direction.lastTick (d : Direction) (window : Int × Int) : Int :=
  let edge := match d with
    | .zeroForOne => window.1
    | .oneForZero => window.2
  min (max edge Tick.minTick) Tick.maxTick

namespace Route

/-- A route with another window. -/
def withWindow (r : Route) (window : Int × Int) : Route :=
  { r with lower := window.1, upper := window.2 }

variable {r : Route} {p stop : Position} {next : Option Tick} {t : Tick} {l : Leg}
  {window : Int × Int} {step : SwapStep}

theorem bound_none (r : Route) : r.bound none = r.direction.lastTick (r.lower, r.upper) := by
  unfold bound edge Direction.lastTick
  cases r.direction <;> rfl

@[simp] theorem leg_withWindow (r : Route) (window : Int × Int) (p : Position) (t : Tick) :
    (r.withWindow window).leg p (some t) = r.leg p (some t) := rfl

theorem target_leads (r : Route) (price : Int) : r.direction.Leads (r.target price) price := by
  unfold target Direction.Leads
  cases r.direction
  · exact le_max_left _ _
  · exact min_le_left _ _

/-- A target at the limit is the same for any goal beyond. -/
theorem target_eq_of_leads {near far : Int} (hbeyond : r.direction.Leads near far)
    (hlimit : r.target near ≠ near) : r.target far = r.target near := by
  unfold target Direction.Leads at *
  cases hd : r.direction <;> simp only [hd] at * <;> omega

theorem target_leads_target {near far : Int} (hbeyond : r.direction.Leads near far) :
    r.direction.Leads (r.target near) (r.target far) := by
  unfold target Direction.Leads at *
  cases hd : r.direction <;> simp only [hd] at * <;> omega

/-- A step that reaches neither of two goals ends in the same place. -/
theorem advance_eq_of_ne {next' : Option Tick} {bound bound' boundary boundary' : Int}
    (hne : step.sqrtPriceNext ≠ boundary) (hne' : step.sqrtPriceNext ≠ boundary') :
    r.advance p next bound boundary step = r.advance p next' bound' boundary' step := by
  unfold advance
  dsimp only
  rw [if_neg hne, if_neg hne']

/-- A leg whose step reaches neither the edge nor another goal is the same toward that goal. -/
theorem leg_withWindow_of_ne (hleg : r.leg p none = .ok l)
    (hstep : SwapStep.compute p.sqrtPrice
      (r.target (Tick.sqrtPrice ((r.withWindow window).bound next))) p.liquidity p.remaining
      r.feeRate r.direction = .ok l.step)
    (hne : l.step.sqrtPriceNext ≠ Tick.sqrtPrice (r.bound none))
    (hne' : l.step.sqrtPriceNext ≠ Tick.sqrtPrice ((r.withWindow window).bound next)) :
    (r.withWindow window).leg p next = .ok l := by
  obtain ⟨hstart, -, hstop⟩ := leg_eq_ok hleg
  have hcrossed := leg_crossed hleg
  rw [if_neg hne] at hcrossed
  have hadvance : r.advance p next ((r.withWindow window).bound next)
      (Tick.sqrtPrice ((r.withWindow window).bound next)) l.step = .ok l.stop :=
    (advance_eq_of_ne hne' hne).trans hstop
  have hleg' : (r.withWindow window).leg p next = .ok ⟨p, l.step,
      if l.step.sqrtPriceNext = Tick.sqrtPrice ((r.withWindow window).bound next) then next
      else none, l.stop⟩ := leg_of_advance hstep hadvance
  rw [hleg', if_neg hne', ← hcrossed, ← hstart]

end Route

namespace ConcentratedPool

/-- Two pools that differ in what lies outside the window of a route, and a wider window. -/
structure Widens (s s' : ConcentratedPool) (r : Route) (window : Int × Int) : Prop where
  lower_le : window.1 ≤ r.lower
  le_upper : r.upper ≤ window.2
  kept : s.activeTicks ⊆ s'.activeTicks
  same : ∀ t ∈ s'.activeTicks, r.lower ≤ t.index → t.index < r.upper → t ∈ s.activeTicks

variable {s s' : ConcentratedPool} {r : Route} {p stop : Position} {t : Tick} {l : Leg} {w : Walk}
  {window : Int × Int} {tick : Int}

theorem Widens.mem_ticksInOrder (h : s.Widens s' r window) (ht : t ∈ r.ticksInOrder s.activeTicks) :
    t ∈ (r.withWindow window).ticksInOrder s'.activeTicks := by
  have hlower := h.lower_le
  have hupper := h.le_upper
  obtain ⟨ht, hedge⟩ := Route.mem_ticksInOrder.1 ht
  refine Route.mem_ticksInOrder.2 ⟨h.kept ht, ?_⟩
  change match r.direction with
    | .zeroForOne => window.1 ≤ t.index
    | .oneForZero => t.index < window.2
  cases hd : r.direction <;> simp only [hd] at hedge ⊢ <;> omega

/-- A tick to be crossed is the next one in the wider window too. -/
theorem Widens.nextTick_eq (h : s.Widens s' r window) (hs : s.Consistent) (hs' : s'.Consistent)
    (hlow : r.lower ≤ tick) (hhigh : tick < r.upper)
    (hnext : r.nextTick (r.ticksInOrder s.activeTicks) tick = some t) :
    (r.withWindow window).nextTick ((r.withWindow window).ticksInOrder s'.activeTicks) tick =
      some t := by
  obtain ⟨ht, hahead, halone⟩ := Route.nextTick_eq_some hs hnext
  have hin : t ∈ r.ticksInOrder s.activeTicks := Route.nextTick_mem hnext
  cases hnext' : (r.withWindow window).nextTick
      ((r.withWindow window).ticksInOrder s'.activeTicks) tick with
  | none =>
    have hbehind : r.isAhead t.index tick = false :=
      Route.nextTick_eq_none_iff.1 hnext' t (h.mem_ticksInOrder hin)
    cases hahead.symm.trans hbehind
  | some u =>
    obtain ⟨hu, hahead', halone'⟩ := Route.nextTick_eq_some hs' hnext'
    rcases r.direction.leads_total t.index u.index with hlead | hlead
    · rw [halone' t (h.kept ht) hahead hlead]
    · -- A tick on the way to one in the window is in the window.
      have hedge := (Route.mem_ticksInOrder.1 hin).2
      have hahead'' : r.isAhead u.index tick = true := hahead'
      have hinside : r.lower ≤ u.index ∧ u.index < r.upper := by
        unfold Direction.Leads at hlead
        unfold Route.isAhead at hahead''
        cases hd : r.direction <;> simp only [hd, decide_eq_true_eq] at hedge hlead hahead'' <;>
          omega
      rw [halone u (h.same u hu hinside.1 hinside.2) hahead' hlead]

/-- Without a tick up to the edge, the wider window has the next one at the edge or beyond. -/
theorem Widens.leads_bound (h : s.Widens s' r window) (hlow : r.lower ≤ tick)
    (hhigh : tick < r.upper)
    (hnext : r.nextTick (r.ticksInOrder s.activeTicks) tick = none) :
    r.direction.Leads (r.bound none) ((r.withWindow window).bound ((r.withWindow window).nextTick
      ((r.withWindow window).ticksInOrder s'.activeTicks) tick)) := by
  have hlower := h.lower_le
  have hupper := h.le_upper
  cases hnext' : (r.withWindow window).nextTick
      ((r.withWindow window).ticksInOrder s'.activeTicks) tick with
  | none =>
    rw [Route.bound_none, Route.bound_none]
    change r.direction.Leads (r.direction.lastTick (r.lower, r.upper))
      (r.direction.lastTick window)
    unfold Direction.Leads Direction.lastTick
    cases r.direction <;> dsimp only <;> omega
  | some u =>
    have hu := (Route.mem_ticksInOrder.1 (Route.nextTick_mem hnext')).1
    have hahead : r.isAhead u.index tick = true := Route.nextTick_isAhead hnext'
    have houtside : ¬ (r.lower ≤ u.index ∧ u.index < r.upper) := by
      intro hinside
      have hin : u ∈ r.ticksInOrder s.activeTicks := by
        refine Route.mem_ticksInOrder.2 ⟨h.same u hu hinside.1 hinside.2, ?_⟩
        cases r.direction
        · exact hinside.1
        · exact hinside.2
      cases hahead.symm.trans (Route.nextTick_eq_none_iff.1 hnext u hin)
    rw [Route.bound_none]
    unfold Direction.Leads Direction.lastTick Route.bound
    unfold Route.isAhead at hahead
    cases hd : r.direction <;> simp only [hd, decide_eq_true_eq] at hahead ⊢ <;> omega

theorem Widens.blocked_eq_none (h : s.Widens s' r window) (hopen : r.blocked p = none) :
    (r.withWindow window).blocked p = none := by
  rw [Route.blocked_eq_none_iff] at hopen ⊢
  refine hopen.imp_right fun ⟨hlimit, hmin, hmax, hlow, hhigh⟩ => ?_
  exact ⟨hlimit, hmin, hmax, h.lower_le.trans hlow, hhigh.trans_le h.le_upper⟩

section Runs

variable (h : s.Widens s' r window) (hs : s.Consistent) (hs' : s'.Consistent) (hr : s.Offers r)
  (hr' : s'.Offers (r.withWindow window))
include h hs hs' hr hr'

/-- A leg that stops short of the edge is the same in the wider window. -/
theorem Widens.leg_eq (hp : s.UnderWay r p) (hp' : s'.UnderWay (r.withWindow window) p)
    (hleft : 0 < p.remaining) (hnext : r.nextTick (r.ticksInOrder s.activeTicks) p.tick = none)
    (hleg : r.leg p none = .ok l) (hedge : l.stop.sqrtPrice ≠ Tick.sqrtPrice (r.bound none)) :
    (r.withWindow window).leg p ((r.withWindow window).nextTick
      ((r.withWindow window).ticksInOrder s'.activeTicks) p.tick) = .ok l := by
  have hcourse := hp.onCourse hleft
  have hrange := hcourse.range hs hr (r.ticksInOrder s.activeTicks)
  have hrange' := (hp'.onCourse hleft).range hs' hr'
    ((r.withWindow window).ticksInOrder s'.activeTicks)
  have hbound := h.leads_bound hcourse.lower_le hcourse.lt_upper hnext
  have hstep := hp.step_eq hs hr hleft (hnext.symm ▸ hleg)
  unfold Route.goal at hrange hrange' hstep
  rw [hnext] at hrange hstep
  revert hbound hrange'
  generalize (r.withWindow window).nextTick
    ((r.withWindow window).ticksInOrder s'.activeTicks) p.tick = next
  intro hrange' hbound
  obtain ⟨hmin, hmax⟩ := r.bound_inRange none
  obtain ⟨hmin', hmax'⟩ := (r.withWindow window).bound_inRange next
  have hbeyond := Tick.leads_sqrtPrice hmin hmax hmin' hmax' hbound
  have hwithin := (hrange.taken_settles hp.left_nonneg).within
  rw [Route.leg_stop_sqrtPrice hleg] at hedge
  rw [← hstep] at hwithin
  apply Route.leg_withWindow_of_ne hleg ?_ hedge
  · -- A goal beyond what the step reached is not what it reached.
    intro hreach
    exact hedge ((hwithin.trans (r.target_leads _)).antisymm (hreach ▸ hbeyond))
  · have hcompute := (Route.leg_eq_ok hleg).2.1
    by_cases hreach : l.step.sqrtPriceNext = r.target (Tick.sqrtPrice (r.bound none))
    · have htarget := Route.target_eq_of_leads hbeyond (hreach ▸ hedge)
      change SwapStep.compute _ (r.target _) _ _ _ _ = _
      rw [htarget]
      exact hcompute
    · have hbefore : r.direction.Before l.step.sqrtPriceNext _ :=
        Direction.before_iff.2 fun hle => hreach (hwithin.antisymm hle)
      exact hrange.compute_eq_of_before hrange' hp.left_nonneg hcompute hbefore
        (hbefore.trans_leads (Route.target_leads_target hbeyond))

theorem Widens.runs (hp : s.UnderWay r p) (hp' : s'.UnderWay (r.withWindow window) p)
    (hruns : r.Runs (r.ticksInOrder s.activeTicks) p w) (hend : w.ending = .ok stop)
    (hedge : stop.sqrtPrice ≠ Tick.sqrtPrice (r.bound none)) :
    (r.withWindow window).Runs ((r.withWindow window).ticksInOrder s'.activeTicks) p w := by
  induction hruns with
  | done hdone => exact .done hdone
  | failed | stuck => cases hend
  | @onward p l w hleft hleg hopen hruns ih =>
    have hleg' : (r.withWindow window).leg p ((r.withWindow window).nextTick
        ((r.withWindow window).ticksInOrder s'.activeTicks) p.tick) = .ok l := by
      cases hnext : r.nextTick (r.ticksInOrder s.activeTicks) p.tick with
      | some t =>
        have hcourse := hp.onCourse hleft
        rw [h.nextTick_eq hs hs' hcourse.lower_le hcourse.lt_upper hnext, Route.leg_withWindow,
          ← hnext]
        exact hleg
      | none =>
        rw [hnext] at hleg
        -- The last leg uses the input up, so the walk stops where it does.
        have hdone : l.stop.remaining = 0 := by
          by_contra hmore
          obtain ⟨t, -, hsome, -⟩ := Route.leg_onward hleg hopen hmore
          cases hsome
        rw [hruns.eq_of_done hdone.le] at hend
        cases hend
        exact h.leg_eq hs hs' hr hr' hp hp' hleft hnext hleg hedge
    have hopen' := h.blocked_eq_none hopen
    exact .onward hleft hleg' hopen'
      (ih (hp.leg hs hr hleft hleg hopen) (hp'.leg hs' hr' hleft hleg' hopen') hend)

end Runs

end ConcentratedPool
end PoolSwap
