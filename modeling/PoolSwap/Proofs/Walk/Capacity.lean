import PoolSwap.Proofs.Walk.Cost

/-! How much a walk can take in. The costs of its legs up to where it is blocked add up to one
capacity: every input up to it ends well, and every input beyond it falls short by the rest, at the
same place and for the same reason. -/
namespace PoolSwap

/-- Why a trade falls short, apart from by how much. -/
inductive Shortfall where
  | noLiquidity (pool : Address)
  | priceBound (pool : Address)
  | missingArrays (tick : Int) (cause : MissingData)
deriving DecidableEq

def Shortfall.fault : Shortfall → Int → Fault
  | noLiquidity pool, _ => .insufficientLiquidity (.noneInRange pool)
  | priceBound pool, missing => .insufficientLiquidity (.priceBound pool missing)
  | missingArrays tick cause, missing => .insufficientLiquidityData tick missing cause

/-- A walk of an input ends well up to a capacity and falls short by what is beyond it. -/
structure Walk.Meets (w : Walk) (input capacity : Int) (shortfall : Shortfall) : Prop where
  within : input ≤ capacity → ∃ stop, w.ending = .ok stop
  beyond : capacity < input → w.ending = .error (shortfall.fault (input - capacity))

theorem Walk.Meets.afterLeg {w : Walk} {input cost capacity : Int} {shortfall : Shortfall}
    (h : w.Meets (input - cost) capacity shortfall) (l : Leg) :
    (Route.afterLeg l w).Meets input (cost + capacity) shortfall where
  within hle := h.within (by omega)
  beyond hlt := by
    rw [← sub_sub]
    exact h.beyond (by omega)

namespace Route

variable {r : Route} {p : Position} {f : Fault} {input : Int}

/-- Where a walk is blocked does not hang on how much input is left. -/
theorem blocked_withInput (h : r.blocked p = some f) : ∃ shortfall : Shortfall,
    ∀ input, input ≠ 0 → r.blocked (p.withInput input) = some (shortfall.fault input) := by
  unfold blocked at h
  split at h
  case isTrue => cases h
  case isFalse =>
    split at h
    case isTrue hlimit =>
      refine ⟨.priceBound r.poolId, fun input hinput => ?_⟩
      unfold blocked
      exact (if_neg hinput).trans (if_pos hlimit)
    case isFalse hlimit =>
      split at h
      case isTrue hwindow =>
        refine ⟨.missingArrays p.tick (.beyondWindow r.lower r.upper), fun input hinput => ?_⟩
        unfold blocked
        exact (if_neg hinput).trans ((if_neg hlimit).trans (if_pos hwindow))
      case isFalse => cases h

theorem blocked_withInput_eq_none (h : r.blocked p = none) (hleft : p.remaining ≠ 0)
    (input : Int) : r.blocked (p.withInput input) = none :=
  blocked_eq_none_iff.2 (.inr ((blocked_eq_none_iff.1 h).resolve_left hleft))

theorem blocked_of_done (h : p.remaining = 0) : r.blocked p = none :=
  blocked_eq_none_iff.2 (.inl h)

end Route

namespace ConcentratedPool

variable {s : ConcentratedPool} {r : Route} {p : Position} {w : Walk} {l : Leg} {f : Fault}
  {input : Int}

section Leg

variable (hs : s.Consistent) (hr : s.Offers r) (hbounds : r.InBounds)
  (hp : s.UnderWay r p) (hleft : 0 < p.remaining)
include hs hr hbounds hp hleft

/-- A run whose input the first leg uses up ends well. -/
theorem UnderWay.run_of_le_cost (h : r.Runs (r.ticksInOrder s.activeTicks) p w)
    (hcost : p.remaining ≤ r.cost (r.ticksInOrder s.activeTicks) p) :
    ∃ stop, w.ending = .ok stop := by
  cases h with
  | done => exact ⟨p, rfl⟩
  | failed _ hleg =>
    obtain ⟨l, hleg'⟩ := hp.exists_leg hs hr hbounds hleft
    cases hleg.symm.trans hleg'
  | stuck _ hleg hblocked =>
    have hdone := hp.leg_of_le_cost hs hr hleft hleg hcost
    cases hblocked.symm.trans (Route.blocked_of_done hdone)
  | @onward _ l _ _ hleg _ hruns =>
    have hdone := hp.leg_of_le_cost hs hr hleft hleg hcost
    rw [hruns.eq_of_done hdone.le]
    exact ⟨l.stop, rfl⟩

/-- A run whose input goes beyond the first leg takes that leg and stops or goes on behind it as
every other such run. -/
theorem UnderWay.run_of_cost_lt (hleg : r.leg p (r.nextTick (r.ticksInOrder s.activeTicks) p.tick) =
      .ok l) (hcost : r.cost (r.ticksInOrder s.activeTicks) p < p.remaining)
    (hcost' : r.cost (r.ticksInOrder s.activeTicks) p < input) (hle : input ≤ p.remaining)
    (h : r.Runs (r.ticksInOrder s.activeTicks) (p.withInput input) w) :
    let rest := l.stop.withInput (input - r.cost (r.ticksInOrder s.activeTicks) p)
    (∃ f, r.blocked rest = some f ∧ w.ending = .error f) ∨
      r.blocked rest = none ∧ ∃ l' later, w = Route.afterLeg l' later ∧
        r.Runs (r.ticksInOrder s.activeTicks) rest later := by
  intro rest
  have hpos : 0 < input := (hp.cost_nonneg hs hr hleft _).trans_lt hcost'
  have hp' := hp.withInput hpos.le hle
  have hstop : ∀ l', r.leg (p.withInput input)
      (r.nextTick (r.ticksInOrder s.activeTicks) p.tick) = .ok l' → l'.stop = rest :=
    fun l' hleg' => (hp.leg_withInput hs hr hp' hleft hpos hleg hleg' hcost.le hcost'.le).2
  cases h with
  | done hdone => exact absurd hpos (not_lt.2 hdone)
  | failed _ hleg' =>
    obtain ⟨l', hleg''⟩ := hp'.exists_leg hs hr hbounds hpos
    cases hleg'.symm.trans hleg''
  | stuck _ hleg' hblocked =>
    rw [hstop _ hleg'] at hblocked
    exact .inl ⟨_, hblocked, rfl⟩
  | onward _ hleg' hopen hruns =>
    rw [hstop _ hleg'] at hopen hruns
    exact .inr ⟨hopen, _, _, rfl, hruns⟩

end Leg

/-- Along a run, the inputs up to the one it started with share one capacity. -/
theorem UnderWay.exists_capacity (hs : s.Consistent) (hr : s.Offers r) (hbounds : r.InBounds)
    (h : r.Runs (r.ticksInOrder s.activeTicks) p w) (hp : s.UnderWay r p) :
    ∃ capacity shortfall, 0 ≤ capacity ∧ ∀ input w', 0 ≤ input → input ≤ p.remaining →
      r.Runs (r.ticksInOrder s.activeTicks) (p.withInput input) w' →
      w'.Meets input capacity shortfall := by
  induction h with
  | @done p hdone =>
    refine ⟨0, .noLiquidity r.poolId, le_rfl, fun input w' hnonneg hle hruns => ?_⟩
    have hzero : input ≤ 0 := hle.trans hdone
    rw [hruns.eq_of_done hzero]
    exact ⟨fun _ => ⟨_, rfl⟩, fun hlt => absurd hlt (not_lt.2 hzero)⟩
  | failed hleft hleg =>
    obtain ⟨l, hleg'⟩ := hp.exists_leg hs hr hbounds hleft
    cases hleg.symm.trans hleg'
  | @stuck p l f hleft hleg hblocked =>
    have hmore : l.stop.remaining ≠ 0 := fun hdone => by
      cases hblocked.symm.trans (Route.blocked_of_done hdone)
    have hcost := hp.cost_lt hs hr hleft hleg hmore
    obtain ⟨shortfall, hshortfall⟩ := Route.blocked_withInput hblocked
    refine ⟨r.cost (r.ticksInOrder s.activeTicks) p, shortfall, hp.cost_nonneg hs hr hleft _,
      fun input w' hnonneg hle hruns => ⟨fun hwithin => ?_, fun hbeyond => ?_⟩⟩
    · rcases hnonneg.eq_or_lt with rfl | hpos
      · rw [hruns.eq_of_done le_rfl]
        exact ⟨_, rfl⟩
      · exact (hp.withInput hnonneg hle).run_of_le_cost hs hr hbounds hpos hruns hwithin
    · have hfault := hshortfall _ (sub_pos.2 hbeyond).ne'
      rcases hp.run_of_cost_lt hs hr hbounds hleft hleg hcost hbeyond hle hruns with
        ⟨f', hblocked', hending⟩ | ⟨hopen, -⟩
      · rw [hending, Option.some.inj (hblocked'.symm.trans hfault)]
      · cases hopen.symm.trans hfault
  | @onward p l w hleft hleg hopen hruns ih =>
    obtain ⟨capacity, shortfall, hcapacity, hmeets⟩ := ih (hp.leg hs hr hleft hleg hopen)
    have hnonneg := hp.cost_nonneg hs hr hleft (r.ticksInOrder s.activeTicks)
    refine ⟨r.cost (r.ticksInOrder s.activeTicks) p + capacity, shortfall, by omega,
      fun input w' hinput hle hruns' => ?_⟩
    rcases hinput.eq_or_lt with rfl | hpos
    · rw [hruns'.eq_of_done le_rfl]
      exact ⟨fun _ => ⟨_, rfl⟩, fun hlt => by omega⟩
    · rcases le_or_gt input (r.cost (r.ticksInOrder s.activeTicks) p) with hwithin | hbeyond
      · exact ⟨fun _ => (hp.withInput hinput hle).run_of_le_cost hs hr hbounds hpos hruns' hwithin,
          fun hlt => by omega⟩
      · have hcost := hbeyond.trans_le hle
        have hrest := hp.leg_of_cost_le hs hr hleft hleg hcost.le
        have hopen' := Route.blocked_withInput_eq_none hopen (by omega)
          (input - r.cost (r.ticksInOrder s.activeTicks) p)
        rcases hp.run_of_cost_lt hs hr hbounds hleft hleg hcost hbeyond hle hruns' with
          ⟨f', hblocked', -⟩ | ⟨-, l', later, rfl, hlater⟩
        · cases hopen'.symm.trans hblocked'
        · exact (hmeets _ later (by omega) (by omega) hlater).afterLeg l'

end ConcentratedPool
end PoolSwap
