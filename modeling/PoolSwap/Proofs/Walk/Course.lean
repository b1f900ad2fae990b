import PoolSwap.Proofs.Pool.Profile
import PoolSwap.Proofs.SwapStep.Exact
import PoolSwap.Proofs.Walk.Loop
import PoolSwap.Quote.Concentrated

/-! The course of a walk. At every head of its loop the price lies in the current tick, the
liquidity is that of the profile there, and the price lies between its start and the limit. -/
namespace PoolSwap

theorem ConcentratedPool.liquidityAt_add (s : ConcentratedPool) {a b : Int} (hab : a ≤ b) :
    s.liquidityAt a + netBetween s.activeTicks a b = s.liquidityAt b := by
  unfold liquidityAt
  rcases le_total s.tickCurrent a with ha | ha
  · have hsum := netBetween_add s.activeTicks ha hab
    rw [netBetween_of_le _ ha, netBetween_of_le _ (ha.trans hab)]
    omega
  · rcases le_total s.tickCurrent b with hb | hb
    · have hsum := netBetween_add s.activeTicks ha hb
      rw [netBetween_of_le _ ha, netBetween_of_le _ hb]
      omega
    · have hsum := netBetween_add s.activeTicks hab hb
      rw [netBetween_of_le _ ha, netBetween_of_le _ hb]
      omega

/-- The nearest tick whose price lies ahead of those in a tick. -/
def Direction.ahead (d : Direction) (tick : Int) : Int :=
  match d with
  | .zeroForOne => tick
  | .oneForZero => tick + 1

namespace Route

variable {r : Route} {s : ConcentratedPool} {p : Position} {t u : Tick} {tick : Int}

theorem mem_ticksInOrder {ticks : List Tick} : t ∈ r.ticksInOrder ticks ↔
    t ∈ ticks ∧ match r.direction with
      | .zeroForOne => r.lower ≤ t.index
      | .oneForZero => t.index < r.upper := by
  unfold ticksInOrder
  split <;> simp [*]

theorem ticksInOrder_pairwise (r : Route) (h : s.Consistent) :
    (r.ticksInOrder s.activeTicks).Pairwise fun a b => ¬ r.direction.Leads b.index a.index := by
  unfold ticksInOrder
  split <;> rename_i hd <;> simp only [hd, Direction.Leads, not_le]
  · exact List.pairwise_reverse.2 (h.activeTicks_pairwise.filter _)
  · exact h.activeTicks_pairwise.filter _

/-- The next tick is ahead, and no other active tick lies on the way to it. -/
theorem nextTick_eq_some (h : s.Consistent)
    (hnext : r.nextTick (r.ticksInOrder s.activeTicks) tick = some t) :
    t ∈ s.activeTicks ∧ r.isAhead t.index tick = true ∧
      ∀ u ∈ s.activeTicks, r.isAhead u.index tick = true →
        r.direction.Leads u.index t.index → u = t := by
  obtain ⟨hahead, before, after, hsplit, hbehind⟩ := List.find?_eq_some_iff_append.1 hnext
  have ht : t ∈ r.ticksInOrder s.activeTicks := by simp [hsplit]
  refine ⟨(mem_ticksInOrder.1 ht).1, hahead, fun u hu hua hut => ?_⟩
  have hin : u ∈ r.ticksInOrder s.activeTicks := by
    refine mem_ticksInOrder.2 ⟨hu, ?_⟩
    have hedge := (mem_ticksInOrder.1 ht).2
    cases hd : r.direction <;> simp only [hd, Direction.Leads] at hedge hut ⊢ <;> omega
  rw [hsplit] at hin
  rcases List.mem_append.1 hin with hin | hin
  · have := hbehind u hin
    simp [hua] at this
  · rcases List.mem_cons.1 hin with heq | hin
    · exact heq
    · have hsorted := ticksInOrder_pairwise (r := r) h
      rw [hsplit] at hsorted
      exact absurd hut ((List.pairwise_cons.1 (List.pairwise_append.1 hsorted).2.1).1 u hin)

theorem bound_eq_index (h : s.Consistent) (ht : t ∈ s.activeTicks) :
    r.bound (some t) = t.index := by
  obtain ⟨hmin, hmax⟩ := h.activeTicks_inRange ht
  simp only [bound, max_eq_left hmin, min_eq_left hmax]

theorem bound_inRange (r : Route) (next : Option Tick) :
    Tick.minTick ≤ r.bound next ∧ r.bound next ≤ Tick.maxTick :=
  ⟨le_min (le_max_right _ _) (by decide), min_le_right _ _⟩

theorem target_pos (hlimit : 0 < r.sqrtPriceLimit) (next : Option Tick) :
    0 < r.target (Tick.sqrtPrice (r.bound next)) := by
  obtain ⟨hmin, hmax⟩ := r.bound_inRange next
  rcases r.target_eq_or (Tick.sqrtPrice (r.bound next)) with h | h
  · exact lt_of_lt_of_eq (Tick.sqrtPrice_pos hmin hmax) h.symm
  · exact lt_of_lt_of_eq hlimit h.symm

theorem target_leads_limit (r : Route) (sqrtPrice : Int) :
    r.direction.Leads (r.target sqrtPrice) r.sqrtPriceLimit := by
  unfold target Direction.Leads
  cases r.direction
  · exact le_max_right _ _
  · exact min_le_right _ _

theorem leads_target {a b : Int} (hb : r.direction.Leads a b)
    (hlimit : r.direction.Leads a r.sqrtPriceLimit) : r.direction.Leads a (r.target b) := by
  unfold target Direction.Leads at *
  cases hd : r.direction <;> simp only [hd] at *
  · exact max_le hb hlimit
  · exact le_min hb hlimit

theorem leads_of_isAhead {index : Int} (h : r.isAhead index tick = true) :
    r.direction.Leads tick index := by
  unfold isAhead at h
  cases hd : r.direction <;> simp only [hd, decide_eq_true_eq] at h
  · exact h
  · exact h.le

theorem leads_past (h : r.isAhead t.index tick = true) :
    r.direction.Leads tick (r.direction.past t.index) := by
  unfold isAhead Direction.Leads Direction.past at *
  cases hd : r.direction <;> simp only [hd, decide_eq_true_eq] at * <;> omega

/-- The boundary a leg goes toward is the nearest one ahead of the current tick, or beyond it. -/
theorem leads_bound (hlower : r.lower ≤ tick) (hupper : tick < r.upper)
    (hmin : Tick.minTick ≤ tick) (hmax : tick < Tick.maxTick) (ticks : List Tick) :
    r.direction.Leads (r.direction.ahead tick) (r.bound (r.nextTick ticks tick)) := by
  have hrange : Tick.minTick ≤ Tick.maxTick := by decide
  unfold bound Direction.Leads Direction.ahead
  cases hnext : r.nextTick ticks tick with
  | none =>
    unfold edge
    cases hd : r.direction <;> dsimp only <;> omega
  | some t =>
    have hahead := nextTick_isAhead hnext
    unfold isAhead at hahead
    cases hd : r.direction <;> simp only [hd, decide_eq_true_eq] at hahead ⊢ <;> omega

end Route

theorem Tick.leads_sqrtPrice {d : Direction} {a b : Int} (ha : Tick.minTick ≤ a)
    (ha' : a ≤ Tick.maxTick) (hb : Tick.minTick ≤ b) (hb' : b ≤ Tick.maxTick) (h : d.Leads a b) :
    d.Leads (Tick.sqrtPrice a) (Tick.sqrtPrice b) := by
  cases d
  · exact Tick.sqrtPrice_le_sqrtPrice hb h ha'
  · exact Tick.sqrtPrice_le_sqrtPrice ha h hb'

/-- The price of a tick lies in the tick behind it, going down at the upper end. -/
theorem Tick.sqrtPrice_past (d : Direction) {index : Int} (hmin : Tick.minTick ≤ d.past index)
    (hmax : d.past index < Tick.maxTick) :
    Tick.sqrtPrice (d.past index) ≤ Tick.sqrtPrice index ∧
      Tick.sqrtPrice index ≤ Tick.sqrtPrice (d.past index + 1) := by
  cases d <;> simp only [Direction.past, sub_add_cancel] at *
  · exact ⟨Tick.sqrtPrice_le_sqrtPrice hmin (by omega) (by omega), le_rfl⟩
  · exact ⟨le_rfl, Tick.sqrtPrice_le_sqrtPrice hmin (by omega) (by omega)⟩

namespace ConcentratedPool

/-- A position on the course of a route. -/
structure OnCourse (s : ConcentratedPool) (r : Route) (p : Position) : Prop where
  lower_le : r.lower ≤ p.tick
  lt_upper : p.tick < r.upper
  minTick_le : Tick.minTick ≤ p.tick
  lt_maxTick : p.tick < Tick.maxTick
  price_le : Tick.sqrtPrice p.tick ≤ p.sqrtPrice
  le_price : p.sqrtPrice ≤ Tick.sqrtPrice (p.tick + 1)
  liquidity_eq : p.liquidity = s.liquidityAt p.tick
  tick_passed : r.direction.Leads s.tickCurrent p.tick
  start_leads : r.direction.Leads s.sqrtPrice p.sqrtPrice
  leads_limit : r.direction.Leads p.sqrtPrice r.sqrtPriceLimit

variable {s : ConcentratedPool} {r : Route} {p : Position} {t : Tick} {l : Leg}

theorem OnCourse.leads_boundary (hp : s.OnCourse r p) (ticks : List Tick) :
    r.direction.Leads p.sqrtPrice (Tick.sqrtPrice (r.bound (r.nextTick ticks p.tick))) := by
  have hmin := hp.minTick_le
  have hmax := hp.lt_maxTick
  have hprice : r.direction.Leads p.sqrtPrice (Tick.sqrtPrice (r.direction.ahead p.tick)) := by
    cases r.direction
    · exact hp.price_le
    · exact hp.le_price
  have hrange : Tick.minTick ≤ r.direction.ahead p.tick ∧
      r.direction.ahead p.tick ≤ Tick.maxTick := by
    cases r.direction <;> simp only [Direction.ahead] <;> omega
  obtain ⟨hbmin, hbmax⟩ := r.bound_inRange (r.nextTick ticks p.tick)
  have hbound := Route.leads_bound hp.lower_le hp.lt_upper hmin hmax ticks
  exact hprice.trans (Tick.leads_sqrtPrice hrange.1 hrange.2 hbmin hbmax hbound)

/-- Crossing the next tick makes of the liquidity what the profile is behind it. -/
theorem liquidityBehind_eq (h : s.Consistent)
    (hnext : r.nextTick (r.ticksInOrder s.activeTicks) p.tick = some t)
    (hp : p.liquidity = s.liquidityAt p.tick) :
    r.liquidityBehind p t = .ok (s.liquidityAt (r.direction.past t.index)) := by
  obtain ⟨ht, hahead, halone⟩ := Route.nextTick_eq_some h hnext
  have hnonneg := h.liquidityAt_nonneg (r.direction.past t.index)
  have hmax := h.liquidityAt_le (r.direction.past t.index)
  unfold Route.liquidityBehind
  simp only [Route.isAhead, Direction.Leads, Direction.past] at *
  cases hd : r.direction <;> simp only [hd, decide_eq_true_eq] at hahead halone hnonneg hmax ⊢
  · have hnet : netBetween s.activeTicks (t.index - 1) p.tick = t.liquidityNet :=
      netBetween_eq_of_alone h.activeTicks_nodup ht (by omega) hahead
        fun u hu hlow hhigh => halone u hu hhigh (by omega)
    have hsum := s.liquidityAt_add (show t.index - 1 ≤ p.tick by omega)
    exact Liquidity.add_eq_ok.2 ⟨by omega, hnonneg, hmax⟩
  · have hnet : netBetween s.activeTicks p.tick t.index = t.liquidityNet :=
      netBetween_eq_of_alone h.activeTicks_nodup ht hahead le_rfl
        fun u hu hlow hhigh => halone u hu hlow hhigh
    have hsum := s.liquidityAt_add (show p.tick ≤ t.index by omega)
    exact Liquidity.add_eq_ok.2 ⟨by omega, hnonneg, hmax⟩

/-- A leg that goes on leads from one position on the course to another. -/
theorem OnCourse.leg (hs : s.Consistent) (hp : s.OnCourse r p)
    (hleg : r.leg p (r.nextTick (r.ticksInOrder s.activeTicks) p.tick) = .ok l)
    (hopen : r.blocked l.stop = none) (hleft : l.stop.remaining ≠ 0) : s.OnCourse r l.stop := by
  obtain ⟨t, liquidity, hnext, hcross, htarget, hstop⟩ := Route.leg_onward hleg hopen hleft
  obtain ⟨ht, hahead, -⟩ := Route.nextTick_eq_some hs hnext
  have hboundary := hp.leads_boundary (r.ticksInOrder s.activeTicks)
  have hroom := (Route.blocked_eq_none_iff.1 hopen).resolve_left hleft
  rw [hnext, Route.bound_eq_index hs ht] at htarget hstop hboundary
  rw [hstop] at hroom ⊢
  obtain ⟨-, hmin, hmax, hlower, hupper⟩ := hroom
  exact {
    lower_le := hlower
    lt_upper := hupper
    minTick_le := hmin.le
    lt_maxTick := hmax
    price_le := (Tick.sqrtPrice_past r.direction hmin.le hmax).1
    le_price := (Tick.sqrtPrice_past r.direction hmin.le hmax).2
    liquidity_eq := Except.ok.inj
      (hcross.symm.trans (liquidityBehind_eq hs hnext hp.liquidity_eq))
    tick_passed := hp.tick_passed.trans (Route.leads_past hahead)
    start_leads := hp.start_leads.trans hboundary
    leads_limit := htarget ▸ r.target_leads_limit _ }

theorem Consistent.limitInForce_spec (h : s.Consistent) {d : Direction} {limit : Option Int}
    {bound : Int} (hlimit : s.limitInForce d limit = .ok bound) :
    d.Leads s.sqrtPrice bound ∧ Tick.minSqrtPrice < bound ∧ bound < Tick.maxSqrtPrice := by
  have hmin := h.minSqrtPrice_lt
  have hmax := h.lt_maxSqrtPrice
  unfold limitInForce at hlimit
  split at hlimit
  case h_1 => cases hlimit; exact ⟨hmin, by omega, by omega⟩
  case h_2 => cases hlimit; exact ⟨Int.le_sub_one_of_lt hmax, by omega, by omega⟩
  case h_3 l =>
    split at hlimit
    case isTrue hl => cases hlimit; exact ⟨hl.2.le, hl.1, hl.2.trans hmax⟩
    case isFalse => cases hlimit
  case h_4 l =>
    split at hlimit
    case isTrue hl => cases hlimit; exact ⟨hl.1.le, hmin.trans hl.1, hl.2⟩
    case isFalse => cases hlimit

variable {d : Direction} {limit : Option Int} {bound : Int} {window : Int × Int}

theorem Consistent.onCourse_start (h : s.Consistent) (hlimit : s.limitInForce d limit = .ok bound)
    (hwindow : s.coveredRange = some window) (remaining : Int) :
    s.OnCourse (s.route d window bound) (s.position remaining) where
  lower_le := (coveredRange_around hwindow).1
  lt_upper := (coveredRange_around hwindow).2
  minTick_le := h.minTick_le
  lt_maxTick := h.lt_maxTick
  price_le := h.price_le
  le_price := h.le_price
  liquidity_eq := by simp [position, liquidityAt, netBetween_of_le]
  tick_passed := d.leads_refl _
  start_leads := d.leads_refl _
  leads_limit := (h.limitInForce_spec hlimit).1

theorem OnCourse.head (hs : s.Consistent) {start : Position} (hstart : s.OnCourse r start)
    (h : r.Head (r.ticksInOrder s.activeTicks) start p) : s.OnCourse r p := by
  induction h with
  | first => exact hstart
  | onward _ _ hleg hopen hleft ih => exact ih.leg hs hleg hopen hleft

/-- At every head of the loop, the liquidity is that at the start, changed by the ticks of the
window between the start and there, and the price lies in the current tick. -/
theorem head_on_profile (hs : s.Consistent) (hlimit : s.limitInForce d limit = .ok bound)
    (hwindow : s.coveredRange = some window) (poolInput : Int) :
    let r := s.route d window bound
    let Head := r.Head (r.ticksInOrder s.activeTicks) (s.position poolInput)
    (∀ l ∈ (s.walkAlong r poolInput).legs, Head l.start) ∧
    ∀ p, Head p →
      (p.liquidity = match d with
        | .zeroForOne => s.liquidity - netBetween (s.windowTicks window) p.tick s.tickCurrent
        | .oneForZero => s.liquidity + netBetween (s.windowTicks window) s.tickCurrent p.tick) ∧
      Tick.sqrtPrice p.tick ≤ p.sqrtPrice ∧ p.sqrtPrice ≤ Tick.sqrtPrice (p.tick + 1) ∧
      window.1 ≤ p.tick ∧ p.tick < window.2 ∧
      Tick.minTick ≤ p.tick ∧ p.tick < Tick.maxTick ∧
      d.Leads s.tickCurrent p.tick ∧ d.Leads s.sqrtPrice p.sqrtPrice ∧
      d.Leads p.sqrtPrice bound := by
  intro r Head
  have hstart := hs.onCourse_start hlimit hwindow poolInput
  refine ⟨(r.walk_runs _ _).start_head .first, fun p hp => ?_⟩
  have hcourse : s.OnCourse r p := hstart.head hs hp
  refine ⟨?_, hcourse.price_le, hcourse.le_price, hcourse.lower_le, hcourse.lt_upper,
    hcourse.minTick_le, hcourse.lt_maxTick, hcourse.tick_passed, hcourse.start_leads,
    hcourse.leads_limit⟩
  have hpassed : d.Leads s.tickCurrent p.tick := hcourse.tick_passed
  rw [hcourse.liquidity_eq, liquidityAt]
  cases d
  · have hbehind : netBetween (s.windowTicks window) p.tick s.tickCurrent =
        netBetween s.activeTicks p.tick s.tickCurrent :=
      s.netBetween_windowTicks hcourse.lower_le hstart.lt_upper
    simp only [hbehind, netBetween_of_le _ hpassed, add_zero]
  · have hbehind : netBetween (s.windowTicks window) s.tickCurrent p.tick =
        netBetween s.activeTicks s.tickCurrent p.tick :=
      s.netBetween_windowTicks hstart.lower_le hcourse.lt_upper
    simp only [hbehind, netBetween_of_le _ hpassed, sub_zero]

/-- The head behind the upper tick of the inner position. -/
theorem head_on_profile_nested :
    nested.Consistent ∧ nested.limitInForce .zeroForOne none = .ok (Tick.minSqrtPrice + 1) ∧
    nested.coveredRange = some (-60, 60) ∧
    (1000000 : Int) = 3000000 - netBetween (nested.windowTicks (-60, 60)) (-11) 0 ∧
    Tick.sqrtPrice (-11) ≤ 18437523468038803493 ∧
    18437523468038803493 ≤ Tick.sqrtPrice (-10) := by
  have hlimit : nested.limitInForce .zeroForOne none = .ok (Tick.minSqrtPrice + 1) := rfl
  have hwindow : nested.coveredRange = some (-60, 60) := by decide
  obtain ⟨hlegs, hheads⟩ := head_on_profile nested_consistent hlimit hwindow 1980
  have hstarts : (nested.walkAlong (nested.route .zeroForOne (-60, 60) (Tick.minSqrtPrice + 1))
      1980).legs.map (·.start) =
      [nested.position 1980, ⟨-11, 18437523468038803493, 1000000, 475⟩] := by
    rw [walkAlong, nested_activeTicks]
    decide +kernel
  obtain ⟨l, hl, hstart⟩ : ∃ l ∈ (nested.walkAlong (nested.route .zeroForOne (-60, 60)
      (Tick.minSqrtPrice + 1)) 1980).legs,
      l.start = ⟨-11, 18437523468038803493, 1000000, 475⟩ :=
    List.mem_map.1 (hstarts ▸ by simp)
  obtain ⟨hliquidity, hprice, hprice', -⟩ := hheads _ (hstart ▸ hlegs l hl)
  exact ⟨nested_consistent, hlimit, hwindow, hliquidity, hprice, hprice'⟩

end ConcentratedPool
end PoolSwap
