import PoolSwap.Proofs.Walk.Crossed
import PoolSwap.Proofs.Walk.Course
import Mathlib.Data.List.Chain

/-! The legs of a walk as a chain. Every leg but the last one crosses a tick, the next leg begins
behind that tick, and so the ticks where the legs begin only move ahead. -/
namespace PoolSwap

section Neighbours

variable {R : α → α → Prop} {as : List α} {a : α}

theorem getLast?_or_exists_next (h : as.IsChain R) (ha : a ∈ as) :
    as.getLast? = some a ∨ ∃ b ∈ as, R a b := by
  obtain ⟨before, after, rfl⟩ := List.mem_iff_append.1 ha
  cases after with
  | nil => exact .inl (by simp)
  | cons b after =>
    exact .inr ⟨b, by simp, (List.isChain_append_cons_cons.1 h).2.1⟩

theorem head?_or_exists_previous (h : as.IsChain R) (ha : a ∈ as) :
    as.head? = some a ∨ ∃ b ∈ as, R b a := by
  have hreverse : as.reverse.IsChain fun b c => R c b :=
    List.isChain_reverse.2 h
  simpa using getLast?_or_exists_next hreverse (List.mem_reverse.2 ha)

end Neighbours

namespace Route

/-- A leg that begins behind the tick that another one crossed. -/
def Follows (r : Route) (l l' : Leg) : Prop :=
  ∃ t, l.crossed = some t ∧ l'.start.tick = r.direction.past t.index

variable {r : Route} {ticks : List Tick} {s : ConcentratedPool} {p stop : Position} {l : Leg}
  {w : Walk} {t : Tick}

theorem Runs.leg_of_mem (h : r.Runs ticks p w) : ∀ l ∈ w.legs,
    0 < l.start.remaining ∧ r.leg l.start (r.nextTick ticks l.start.tick) = .ok l := by
  induction h with
  | done | failed => simp
  | stuck hleft hleg =>
    intro l' hl
    rw [List.mem_singleton.1 hl, (leg_eq_ok hleg).1]
    exact ⟨hleft, hleg⟩
  | onward hleft hleg _ _ ih =>
    intro l' hl
    rcases List.mem_cons.1 hl with rfl | hl
    · rw [(leg_eq_ok hleg).1]
      exact ⟨hleft, hleg⟩
    · exact ih l' hl

theorem Runs.start_of_head? (h : r.Runs ticks p w) (hl : w.legs.head? = some l) : l.start = p := by
  cases h with
  | done | failed => cases hl
  | stuck _ hleg | onward _ hleg =>
    cases hl
    exact (leg_eq_ok hleg).1

theorem Runs.exists_head? (h : r.Runs ticks p w) (hleft : 0 < p.remaining)
    (hend : w.ending = .ok stop) : ∃ l, w.legs.head? = some l := by
  cases h with
  | done hdone => exact absurd hleft (not_lt.2 hdone)
  | failed | stuck => cases hend
  | onward => exact ⟨_, rfl⟩

/-- A run that ends well ends where its last leg does. -/
theorem Runs.exists_getLast? (h : r.Runs ticks p w) (hleft : 0 < p.remaining)
    (hend : w.ending = .ok stop) : ∃ l, w.legs.getLast? = some l ∧ l.stop = stop := by
  induction h with
  | done hdone => exact absurd hleft (not_lt.2 hdone)
  | failed | stuck => cases hend
  | @onward _ l w _ hleg hopen hruns ih =>
    by_cases hmore : 0 < l.stop.remaining
    · obtain ⟨l', hl', hstop⟩ := ih hmore hend
      refine ⟨l', ?_, hstop⟩
      rw [afterLeg, List.getLast?_cons, hl']
      rfl
    · rw [hruns.eq_of_done (not_lt.1 hmore)] at hend ⊢
      cases hend
      exact ⟨l, rfl, rfl⟩

/-- A tick that a leg crosses is the next one at its start, and lies ahead of it. -/
theorem crossed_spec (h : r.leg p (r.nextTick ticks p.tick) = .ok l) (ht : l.crossed = some t) :
    t ∈ ticks ∧ r.isAhead t.index p.tick = true := by
  have hnext : r.nextTick ticks p.tick = some t :=
    Option.mem_toList.1 ((crossed_sublist_next h).subset (by simp [ht]))
  exact ⟨nextTick_mem hnext, nextTick_isAhead hnext⟩

/-- A leg that goes on has crossed a tick and ends behind it. -/
theorem leg_onward_crossed (hs : s.Consistent)
    (h : r.leg p (r.nextTick (r.ticksInOrder s.activeTicks) p.tick) = .ok l)
    (hopen : r.blocked l.stop = none) (hleft : l.stop.remaining ≠ 0) :
    ∃ t, l.crossed = some t ∧ l.stop.tick = r.direction.past t.index := by
  obtain ⟨t, _, hnext, -, -, hstop⟩ := leg_onward h hopen hleft
  have hreach : l.step.sqrtPriceNext = Tick.sqrtPrice (r.bound (some t)) := by
    rw [← leg_stop_sqrtPrice h, hstop, hnext]
  have hin := (mem_ticksInOrder.1 (nextTick_mem hnext)).1
  refine ⟨t, ?_, ?_⟩
  · rw [leg_crossed h, hnext, if_pos hreach]
  · rw [hstop, hnext, bound_eq_index hs hin]

section Chain

variable (hs : s.Consistent) (h : r.Runs (r.ticksInOrder s.activeTicks) p w)
include hs h

theorem Runs.isChain : w.legs.IsChain r.Follows := by
  induction h with
  | done | failed => exact .nil
  | stuck => exact .singleton _
  | @onward _ l w _ hleg hopen hruns ih =>
    refine List.isChain_cons.2 ⟨fun l' hl' => ?_, ih⟩
    have hstart := hruns.start_of_head? hl'
    have hleft := hruns.left_of_mem (List.mem_of_mem_head? hl')
    obtain ⟨t, hcrossed, hstop⟩ := leg_onward_crossed hs hleg hopen hleft.ne'
    exact ⟨t, hcrossed, by rw [hstart, hstop]⟩

theorem Runs.leads_start : ∀ l ∈ w.legs, r.direction.Leads p.tick l.start.tick := by
  induction h with
  | done | failed => simp
  | stuck _ hleg =>
    intro l' hl
    rw [List.mem_singleton.1 hl, (leg_eq_ok hleg).1]
    exact r.direction.leads_refl _
  | @onward p l w _ hleg hopen hruns ih =>
    intro l' hl
    rcases List.mem_cons.1 hl with rfl | hl
    · rw [(leg_eq_ok hleg).1]
      exact r.direction.leads_refl _
    · have hleft := hruns.left_of_mem hl
      obtain ⟨t, hcrossed, hstop⟩ := leg_onward_crossed hs hleg hopen hleft.ne'
      have hahead := leads_past (crossed_spec hleg hcrossed).2
      exact (hstop ▸ hahead).trans (ih l' hl)

/-- All later legs begin behind the tick that a leg crossed. -/
theorem Runs.pairwise : w.legs.Pairwise fun l l' =>
    ∃ t, l.crossed = some t ∧ r.direction.Leads (r.direction.past t.index) l'.start.tick := by
  induction h with
  | done | failed => exact .nil
  | stuck => exact List.pairwise_singleton _ _
  | @onward _ l w _ hleg hopen hruns ih =>
    refine List.pairwise_cons.2 ⟨fun l' hl => ?_, ih⟩
    have hleft := hruns.left_of_mem hl
    obtain ⟨t, hcrossed, hstop⟩ := leg_onward_crossed hs hleg hopen hleft.ne'
    exact ⟨t, hcrossed, hstop ▸ hruns.leads_start hs l' hl⟩

theorem Runs.starts_pairwise :
    w.legs.Pairwise fun l l' => r.direction.Leads l.start.tick l'.start.tick := by
  refine (h.pairwise hs).imp_of_mem fun hl _ ⟨t, hcrossed, hpast⟩ => ?_
  exact (leads_past (crossed_spec (h.leg_of_mem _ hl).2 hcrossed).2).trans hpast

theorem Runs.leads_last (hlast : w.legs.getLast? = some l) :
    ∀ l' ∈ w.legs, r.direction.Leads l'.start.tick l.start.tick := by
  obtain ⟨before, hlegs⟩ := List.getLast?_eq_some_iff.1 hlast
  have hstarts := h.starts_pairwise hs
  rw [hlegs] at hstarts ⊢
  intro l' hl'
  rcases List.mem_append.1 hl' with hl' | hl'
  · exact (List.pairwise_append.1 hstarts).2.2 l' hl' l (List.mem_singleton_self l)
  · rw [List.mem_singleton.1 hl']
    exact r.direction.leads_refl _

/-- Each leg begins no later than one that crosses a tick, or else behind that tick. -/
theorem Runs.before_or_past {l' : Leg} (hl : l ∈ w.legs) (hcrossed : l.crossed = some t)
    (hl' : l' ∈ w.legs) : r.direction.Leads l'.start.tick l.start.tick ∨
      r.direction.Leads (r.direction.past t.index) l'.start.tick := by
  obtain ⟨before, after, hlegs⟩ := List.mem_iff_append.1 hl
  have hstarts := h.starts_pairwise hs
  have hpasts := h.pairwise hs
  rw [hlegs] at hl' hstarts hpasts
  rcases List.mem_append.1 hl' with hl' | hl'
  · exact .inl ((List.pairwise_append.1 hstarts).2.2 l' hl' l List.mem_cons_self)
  · rcases List.mem_cons.1 hl' with rfl | hl'
    · exact .inl (r.direction.leads_refl _)
    · have hafter := (List.pairwise_cons.1 (List.pairwise_append.1 hpasts).2.1).1 l' hl'
      obtain ⟨t', hcrossed', hpast⟩ := hafter
      cases hcrossed.symm.trans hcrossed'
      exact .inr hpast

end Chain

end Route
end PoolSwap
