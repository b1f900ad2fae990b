import PoolSwap.Proofs.Walk.Course

/-! How long a walk can get. A leg that goes on leaves the tick it crossed behind and brings none
back ahead, so there are at most as many such legs as ticks ahead at the start, and one more. -/
namespace PoolSwap

namespace Route

variable {r : Route} {ticks : List Tick} {p : Position} {l : Leg} {w : Walk}

def aheadCount (r : Route) (ticks : List Tick) (tick : Int) : Nat :=
  ticks.countP fun t => r.isAhead t.index tick

theorem aheadCount_lt {tick tick' : Int} {t : Tick} (ht : t ∈ ticks)
    (hahead : r.isAhead t.index tick = true) (hbehind : r.isAhead t.index tick' = false)
    (hkept : ∀ u ∈ ticks, r.isAhead u.index tick' = true → r.isAhead u.index tick = true) :
    r.aheadCount ticks tick' < r.aheadCount ticks tick := by
  obtain ⟨before, after, rfl⟩ := List.mem_iff_append.1 ht
  have hleft := List.countP_mono_left fun u hu => hkept u (List.mem_append_left _ hu)
  have hright := List.countP_mono_left fun u hu =>
    hkept u (List.mem_append_right _ (List.mem_cons_of_mem t hu))
  simp only [aheadCount, List.countP_append, List.countP_cons, hahead, hbehind] at hleft hright ⊢
  simp only [if_true, Bool.false_eq_true, if_false]
  omega

/-- A leg that goes on leaves fewer ticks ahead. -/
theorem aheadCount_stop_lt (h : r.leg p (r.nextTick ticks p.tick) = .ok l)
    (hopen : r.blocked l.stop = none) (hleft : l.stop.remaining ≠ 0) :
    r.aheadCount ticks l.stop.tick < r.aheadCount ticks p.tick := by
  obtain ⟨t, _, hnext, -, -, hstop⟩ := leg_onward h hopen hleft
  have hroom := (blocked_eq_none_iff.1 hopen).resolve_left hleft
  have hahead := nextTick_isAhead hnext
  refine aheadCount_lt (nextTick_mem hnext) hahead ?_ fun u _ => isAhead_of_leg h hopen hleft
  rw [hstop, hnext] at hroom ⊢
  exact not_isAhead_past hahead hroom.2.1 hroom.2.2.1 (.inl rfl)

theorem Runs.legs_length_le (h : r.Runs ticks p w) :
    w.legs.length ≤ r.aheadCount ticks p.tick + 1 := by
  induction h with
  | done | failed => exact Nat.zero_le _
  | stuck => exact Nat.succ_le_succ (Nat.zero_le _)
  | @onward p l w _ hleg hopen hruns ih =>
    simp only [afterLeg, List.length_cons]
    by_cases hdone : l.stop.remaining = 0
    · simp [hruns.eq_of_done hdone.le]
    · have hfewer := aheadCount_stop_lt hleg hopen hdone
      omega

end Route

namespace ConcentratedPool

/-- From the current tick, the ticks ahead on a route are those of its window. -/
theorem aheadCount_window {s : ConcentratedPool} {window : Int × Int}
    (hwindow : s.coveredRange = some window) (d : Direction) (bound : Int) :
    let r := s.route d window bound
    r.aheadCount (r.ticksInOrder s.activeTicks) s.tickCurrent =
      r.aheadCount (s.windowTicks window) s.tickCurrent := by
  obtain ⟨hlower, hupper⟩ := coveredRange_around hwindow
  unfold Route.ticksInOrder windowTicks
  cases d <;> dsimp only [route]
  · rw [Route.aheadCount, List.countP_reverse, List.countP_filter, Route.aheadCount,
      List.countP_filter]
    refine List.countP_congr fun t _ => ?_
    simp only [Route.isAhead, Bool.and_eq_true, decide_eq_true_eq]
    omega
  · rw [Route.aheadCount, List.countP_filter, Route.aheadCount, List.countP_filter]
    refine List.countP_congr fun t _ => ?_
    simp only [Route.isAhead, Bool.and_eq_true, decide_eq_true_eq]
    omega

end ConcentratedPool
end PoolSwap
