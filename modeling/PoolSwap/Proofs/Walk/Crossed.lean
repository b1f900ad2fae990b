import PoolSwap.Proofs.Walk.Loop

/-! The ticks that a walk crosses. It crosses them in the order in which they come, and all of them
lie ahead of its start. -/
namespace PoolSwap

namespace Walk

/-- The ticks crossed, in the order of the legs that crossed them. -/
def crossed (w : Walk) : List Tick := w.legs.filterMap (·.crossed)

@[simp] theorem crossed_nil (ending : Checked Position) : crossed ⟨[], ending⟩ = [] := rfl

@[simp] theorem crossed_cons (l : Leg) (legs : List Leg) (ending : Checked Position) :
    crossed ⟨l :: legs, ending⟩ = l.crossed.toList ++ crossed ⟨legs, ending⟩ := by
  unfold crossed
  cases h : l.crossed <;> simp [h]

@[simp] theorem crossed_afterLeg (l : Leg) (w : Walk) :
    crossed (Route.afterLeg l w) = l.crossed.toList ++ w.crossed :=
  crossed_cons l w.legs w.ending

end Walk

namespace Route

variable {r : Route} {ticks : List Tick} {p : Position} {next : Option Tick} {l : Leg} {w : Walk}

/-- A leg crosses no other tick than the one it goes toward. -/
theorem crossed_sublist_next (h : r.leg p next = .ok l) :
    l.crossed.toList.Sublist next.toList := by
  rw [leg_crossed h]
  split
  · exact .refl _
  · exact List.nil_sublist _

theorem crossed_sublist (r : Route) (ticks : List Tick) (p : Position) :
    (r.walk ticks p).crossed.Sublist ticks := by
  induction ticks generalizing p with
  | nil =>
    unfold walk
    split
    case isTrue => exact List.nil_sublist _
    case isFalse =>
      split
      case h_1 => exact List.nil_sublist _
      case h_2 l hleg => split <;> simpa using crossed_sublist_next hleg
  | cons t rest ih =>
    unfold walk
    split
    case isTrue => exact List.nil_sublist _
    case isFalse =>
      split
      case isTrue => exact (ih p).cons t
      case isFalse =>
        split
        case h_1 => exact List.nil_sublist _
        case h_2 l hleg =>
          have hfirst := crossed_sublist_next hleg
          split
          case h_1 => simpa using hfirst.append (List.nil_sublist rest)
          case h_2 => simpa using hfirst.append (ih l.stop)

/-- A run crosses only ticks ahead of its position: a leg that goes on brings none back ahead. -/
theorem Runs.isAhead_of_crossed (h : r.Runs ticks p w) :
    ∀ t ∈ w.crossed, r.isAhead t.index p.tick = true := by
  have hnext : ∀ {p l}, r.leg p (r.nextTick ticks p.tick) = .ok l →
      ∀ t ∈ l.crossed.toList, r.isAhead t.index p.tick = true := by
    intro p l hleg t ht
    exact nextTick_isAhead (Option.mem_toList.1 ((crossed_sublist_next hleg).subset ht))
  -- A tick that a later leg crosses is ahead of the end of this one, hence of its start.
  induction h with
  | done | failed => nofun
  | stuck _ hleg =>
    intro t ht
    exact hnext hleg t (by simpa using ht)
  | @onward _ l _ _ hleg hopen hruns ih =>
    intro t ht
    rw [Walk.crossed_afterLeg] at ht
    rcases List.mem_append.1 ht with ht | ht
    · exact hnext hleg t ht
    · obtain ⟨l', hl', -⟩ := List.mem_filterMap.1 ht
      exact isAhead_of_leg hleg hopen (hruns.left_of_mem hl').ne' (ih t ht)

end Route
end PoolSwap
