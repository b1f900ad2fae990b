import PoolSwap.Proofs.SwapStep.Exact
import PoolSwap.Quote.Walk
import Mathlib.Tactic.Linarith

/-! The walk as a loop. The loop looks up the next tick anew at each of its heads and remembers
nothing but its position; the walk hands the ticks on as a list. Both take the same legs. -/
namespace PoolSwap

theorem SwapStep.spent_of_ne {a target liquidity remaining feeRate : Int} {d : Direction}
    {step : SwapStep} (h : compute a target liquidity remaining feeRate d = .ok step)
    (hne : step.sqrtPriceNext ≠ target) : step.amountIn + step.fee = remaining := by
  obtain ⟨_, -, -, -, -, hshort⟩ := compute_eq_ok h
  rw [(hshort hne).2]
  exact add_sub_cancel _ _

/-- The current tick after a trade has reached the price of a tick. -/
def Direction.past (d : Direction) (tick : Int) : Int :=
  match d with
  | .zeroForOne => tick - 1
  | .oneForZero => tick

namespace Route

def nextTick (r : Route) (ticks : List Tick) (tick : Int) : Option Tick :=
  ticks.find? fun t => r.isAhead t.index tick

/-- The runs of the loop. At its head it stops without input; else it takes a leg toward the next
tick and goes on from where that ends, unless it is blocked there. -/
inductive Runs (r : Route) (ticks : List Tick) : Position → Walk → Prop
  | done : p.remaining ≤ 0 → Runs r ticks p ⟨[], .ok p⟩
  | failed : 0 < p.remaining → r.leg p (r.nextTick ticks p.tick) = .error f →
      Runs r ticks p ⟨[], .error f⟩
  | stuck : 0 < p.remaining → r.leg p (r.nextTick ticks p.tick) = .ok l →
      r.blocked l.stop = some f → Runs r ticks p ⟨[l], .error f⟩
  | onward : 0 < p.remaining → r.leg p (r.nextTick ticks p.tick) = .ok l →
      r.blocked l.stop = none → Runs r ticks l.stop w → Runs r ticks p (afterLeg l w)

/-- The heads of the loop: its start, and the end of each leg with input left that is not blocked. -/
inductive Head (r : Route) (ticks : List Tick) (start : Position) : Position → Prop
  | first : Head r ticks start start
  | onward : Head r ticks start p → 0 < p.remaining →
      r.leg p (r.nextTick ticks p.tick) = .ok l → r.blocked l.stop = none →
      l.stop.remaining ≠ 0 → Head r ticks start l.stop

variable {r : Route} {ticks rest : List Tick} {p q start : Position} {next : Option Tick}
  {l : Leg} {w : Walk} {t : Tick}

theorem nextTick_mem {tick : Int} (h : r.nextTick ticks tick = some t) : t ∈ ticks :=
  List.mem_of_find?_eq_some h

theorem nextTick_isAhead {tick : Int} (h : r.nextTick ticks tick = some t) :
    r.isAhead t.index tick = true := by
  simpa using List.find?_some h

theorem nextTick_eq_none_iff {tick : Int} :
    r.nextTick ticks tick = none ↔ ∀ t ∈ ticks, r.isAhead t.index tick = false := by
  simp [nextTick]

theorem blocked_eq_none_iff : r.blocked p = none ↔ p.remaining = 0 ∨
    (p.sqrtPrice ≠ r.sqrtPriceLimit ∧ Tick.minTick < p.tick ∧ p.tick < Tick.maxTick ∧
      r.lower ≤ p.tick ∧ p.tick < r.upper) := by
  unfold blocked
  split
  case isTrue h => simp [h]
  case isFalse h =>
    split
    case isTrue hlimit =>
      simp only [reduceCtorEq, false_iff]
      omega
    case isFalse hlimit =>
      split <;> simp only [reduceCtorEq, false_iff, true_iff] <;> omega

def liquidityPast (r : Route) (p : Position) : Option Tick → Checked Int
  | some t => r.liquidityBehind p t
  | none => .ok p.liquidity

/-- The three ways on from a step: across the tick it went toward, nowhere, or to a price between
ticks. -/
theorem advance_eq_ok {bound boundary : Int} {step : SwapStep}
    (h : r.advance p next bound boundary step = .ok q) :
    (step.sqrtPriceNext = boundary ∧ ∃ liquidity, r.liquidityPast p next = .ok liquidity ∧
      q = ⟨r.direction.past bound, boundary, liquidity,
        p.remaining - (step.amountIn + step.fee)⟩) ∨
    (step.sqrtPriceNext ≠ boundary ∧ step.sqrtPriceNext = p.sqrtPrice ∧
      q = { p with remaining := p.remaining - (step.amountIn + step.fee) }) ∨
    (step.sqrtPriceNext ≠ boundary ∧ ∃ tick, Tick.atSqrtPrice? step.sqrtPriceNext = .ok tick ∧
      q = ⟨tick, step.sqrtPriceNext, p.liquidity,
        p.remaining - (step.amountIn + step.fee)⟩) := by
  unfold advance at h
  dsimp only at h
  by_cases hreach : step.sqrtPriceNext = boundary
  · rw [if_pos hreach] at h
    refine .inl ⟨hreach, ?_⟩
    subst hreach
    cases next with
    | none => exact ⟨p.liquidity, rfl, (Checked.pure_eq_ok.1 h).symm⟩
    | some t =>
      obtain ⟨liquidity, hliquidity, h⟩ := Checked.bind_eq_ok.1 h
      exact ⟨liquidity, hliquidity, (Checked.pure_eq_ok.1 h).symm⟩
  · rw [if_neg hreach] at h
    split at h
    case isTrue hstay => exact .inr (.inl ⟨hreach, hstay, (Checked.pure_eq_ok.1 h).symm⟩)
    case isFalse =>
      obtain ⟨tick, htick, h⟩ := Checked.bind_eq_ok.1 h
      exact .inr (.inr ⟨hreach, tick, htick, (Checked.pure_eq_ok.1 h).symm⟩)

theorem leg_eq_ok (h : r.leg p next = .ok l) :
    l.start = p ∧
    SwapStep.compute p.sqrtPrice (r.target (Tick.sqrtPrice (r.bound next))) p.liquidity
      p.remaining r.feeRate r.direction = .ok l.step ∧
    r.advance p next (r.bound next) (Tick.sqrtPrice (r.bound next)) l.step = .ok l.stop := by
  simp only [leg, Checked.bind_eq_ok, Checked.pure_eq_ok] at h
  obtain ⟨step, hstep, stop, hstop, rfl⟩ := h
  exact ⟨rfl, hstep, hstop⟩

theorem leg_crossed (h : r.leg p next = .ok l) : l.crossed =
    if l.step.sqrtPriceNext = Tick.sqrtPrice (r.bound next) then next else none := by
  simp only [leg, Checked.bind_eq_ok, Checked.pure_eq_ok] at h
  obtain ⟨step, -, stop, -, rfl⟩ := h
  rfl

theorem leg_of_advance {step : SwapStep}
    (hstep : SwapStep.compute p.sqrtPrice (r.target (Tick.sqrtPrice (r.bound next))) p.liquidity
      p.remaining r.feeRate r.direction = .ok step)
    (hstop : r.advance p next (r.bound next) (Tick.sqrtPrice (r.bound next)) step = .ok q) :
    r.leg p next = .ok
      ⟨p, step, if step.sqrtPriceNext = Tick.sqrtPrice (r.bound next) then next else none, q⟩ := by
  unfold leg
  exact Checked.bind_eq_ok.2 ⟨step, hstep, Checked.bind_eq_ok.2 ⟨q, hstop, rfl⟩⟩

theorem leg_stop_sqrtPrice (h : r.leg p next = .ok l) :
    l.stop.sqrtPrice = l.step.sqrtPriceNext := by
  rcases advance_eq_ok (leg_eq_ok h).2.2 with ⟨hreach, _, _, hq⟩ | ⟨-, hstay, hq⟩ | ⟨-, _, -, hq⟩
  · rw [hq, hreach]
  · rw [hq, hstay]
  · rw [hq]

theorem leg_stop_remaining (h : r.leg p next = .ok l) :
    l.stop.remaining = p.remaining - (l.step.amountIn + l.step.fee) := by
  rcases advance_eq_ok (leg_eq_ok h).2.2 with ⟨-, _, _, hq⟩ | ⟨-, -, hq⟩ | ⟨-, _, -, hq⟩ <;> rw [hq]

theorem target_eq_or (r : Route) (sqrtPrice : Int) :
    r.target sqrtPrice = sqrtPrice ∨ r.target sqrtPrice = r.sqrtPriceLimit := by
  unfold target
  split
  · exact max_choice _ _
  · exact min_choice _ _

/-- With input left and nothing in the way, a leg ended behind the tick it went toward. -/
theorem leg_onward (h : r.leg p next = .ok l) (hopen : r.blocked l.stop = none)
    (hleft : l.stop.remaining ≠ 0) :
    ∃ t liquidity, next = some t ∧ r.liquidityBehind p t = .ok liquidity ∧
      r.target (Tick.sqrtPrice (r.bound next)) = Tick.sqrtPrice (r.bound next) ∧
      l.stop = ⟨r.direction.past (r.bound next), Tick.sqrtPrice (r.bound next), liquidity,
        p.remaining - (l.step.amountIn + l.step.fee)⟩ := by
  obtain ⟨-, hstep, hstop⟩ := leg_eq_ok h
  have hroom := (blocked_eq_none_iff.1 hopen).resolve_left hleft
  have hprice := leg_stop_sqrtPrice h
  have hspent := leg_stop_remaining h
  have hnext : l.step.sqrtPriceNext = r.target (Tick.sqrtPrice (r.bound next)) := by
    by_contra hne
    have := SwapStep.spent_of_ne hstep hne
    omega
  have htarget : r.target (Tick.sqrtPrice (r.bound next)) = Tick.sqrtPrice (r.bound next) :=
    (r.target_eq_or _).resolve_right fun hlimit =>
      hroom.1 (hprice.trans (hnext.trans hlimit))
  rcases advance_eq_ok hstop with ⟨-, liquidity, hliquidity, hq⟩ | ⟨hne, -⟩ | ⟨hne, -⟩
  · cases next with
    | some t => exact ⟨t, liquidity, rfl, hliquidity, htarget, hq⟩
    | none =>
      -- Behind the edge of the window, or at a tick bound, the walk is blocked.
      rw [hq] at hroom
      obtain ⟨-, hmin, hmax, hlower, hupper⟩ := hroom
      simp only [bound, edge, Direction.past] at hmin hmax hlower hupper
      cases hd : r.direction <;> simp only [hd] at hmin hmax hlower hupper <;> omega
  · exact absurd (hnext.trans htarget) hne
  · exact absurd (hnext.trans htarget) hne

theorem walk_of_done (h : p.remaining ≤ 0) : r.walk ticks p = ⟨[], .ok p⟩ := by
  cases ticks <;> simp [walk, h]

/-- A tick that was not ahead, or is the one just crossed, is not ahead behind it. -/
theorem not_isAhead_past (hahead : r.isAhead t.index p.tick = true)
    (hmin : Tick.minTick < r.direction.past (r.bound (some t)))
    (hmax : r.direction.past (r.bound (some t)) < Tick.maxTick) {index : Int}
    (h : index = t.index ∨ r.isAhead index p.tick = false) :
    r.isAhead index (r.direction.past (r.bound (some t))) = false := by
  unfold isAhead bound Direction.past at *
  cases hd : r.direction <;>
    simp only [hd, decide_eq_true_eq, decide_eq_false_iff_not] at * <;> omega

/-- A leg that goes on brings no tick back ahead. -/
theorem isAhead_of_leg (hleg : r.leg p (r.nextTick ticks p.tick) = .ok l)
    (hopen : r.blocked l.stop = none) (hleft : l.stop.remaining ≠ 0) {index : Int}
    (h : r.isAhead index l.stop.tick = true) : r.isAhead index p.tick = true := by
  obtain ⟨t, _, hnext, -, -, hstop⟩ := leg_onward hleg hopen hleft
  have hroom := (blocked_eq_none_iff.1 hopen).resolve_left hleft
  rw [hstop, hnext] at hroom h
  by_contra hbehind
  have := not_isAhead_past (nextTick_isAhead hnext) hroom.2.1 hroom.2.2.1
    (.inr (Bool.eq_false_iff.2 hbehind))
  exact absurd h (Bool.eq_false_iff.1 this)

/-- Passing the ticks on as a list is looking up the next one at each head: what was dropped from
the list is behind the position. -/
theorem walk_runs_of_dropped (dropped rest : List Tick) (p : Position)
    (hbehind : ∀ t ∈ dropped, r.isAhead t.index p.tick = false) :
    r.Runs (dropped ++ rest) p (r.walk rest p) := by
  induction rest generalizing dropped p with
  | nil =>
    have hnext : r.nextTick (dropped ++ []) p.tick = none := by
      simpa [nextTick_eq_none_iff] using hbehind
    unfold walk
    split
    case isTrue hdone => exact .done hdone
    case isFalse hleft =>
      have hpos := not_le.1 hleft
      split
      case h_1 f hleg => exact .failed hpos (hnext ▸ hleg)
      case h_2 l hleg =>
        split
        case h_1 f hblocked => exact .stuck hpos (hnext ▸ hleg) hblocked
        case h_2 hblocked =>
          refine .onward hpos (hnext ▸ hleg) hblocked (.done ?_)
          by_contra hmore
          obtain ⟨t, -, hsome, -⟩ := leg_onward hleg hblocked (by omega)
          cases hsome
  | cons t rest ih =>
    unfold walk
    split
    case isTrue hdone => exact .done hdone
    case isFalse hleft =>
      have hpos := not_le.1 hleft
      rw [List.append_cons]
      split
      case isTrue hbehind' =>
        refine ih (dropped ++ [t]) p fun u hu => ?_
        rcases List.mem_append.1 hu with hu | hu
        · exact hbehind u hu
        · rw [List.mem_singleton.1 hu]
          simpa using hbehind'
      case isFalse hahead' =>
        have hahead : r.isAhead t.index p.tick = true := by simpa using hahead'
        have hnext : r.nextTick (dropped ++ [t] ++ rest) p.tick = some t := by
          have hnone : dropped.find? (fun t => r.isAhead t.index p.tick) = none := by
            simpa using hbehind
          simp [nextTick, List.find?_append, hnone, hahead]
        split
        case h_1 f hleg => exact .failed hpos (hnext ▸ hleg)
        case h_2 l hleg =>
          split
          case h_1 f hblocked => exact .stuck hpos (hnext ▸ hleg) hblocked
          case h_2 hblocked =>
            refine .onward hpos (hnext ▸ hleg) hblocked ?_
            by_cases hmore : l.stop.remaining ≤ 0
            · rw [walk_of_done hmore]
              exact .done hmore
            · obtain ⟨u, _, hu, -, -, hstop⟩ := leg_onward hleg hblocked (by omega)
              cases hu
              have hroom := (blocked_eq_none_iff.1 hblocked).resolve_left (by omega)
              rw [hstop] at hroom
              refine ih (dropped ++ [t]) l.stop fun u hu => ?_
              rw [hstop]
              refine not_isAhead_past hahead hroom.2.1 hroom.2.2.1 ?_
              rcases List.mem_append.1 hu with hu | hu
              · exact .inr (hbehind u hu)
              · exact .inl (congrArg Tick.index (List.mem_singleton.1 hu))

theorem walk_runs (r : Route) (ticks : List Tick) (p : Position) :
    r.Runs ticks p (r.walk ticks p) :=
  walk_runs_of_dropped [] ticks p (by simp)

theorem Runs.eq_of_done (h : r.Runs ticks p w) (hdone : p.remaining ≤ 0) : w = ⟨[], .ok p⟩ := by
  cases h with
  | done => rfl
  | failed hpos | stuck hpos | onward hpos => omega

/-- A run takes legs only with input left. -/
theorem Runs.left_of_mem (h : r.Runs ticks p w) (hl : l ∈ w.legs) : 0 < p.remaining := by
  cases h with
  | done | failed => cases hl
  | stuck hleft | onward hleft => exact hleft

/-- From one position there is one run. -/
theorem Runs.unique {w' : Walk} (h : r.Runs ticks p w) (h' : r.Runs ticks p w') : w = w' := by
  induction h generalizing w' with
  | done hdone => exact (h'.eq_of_done hdone).symm
  | failed hpos hleg =>
    cases h' with
    | done hdone => exact absurd hpos (not_lt.2 hdone)
    | failed _ hleg' => rw [Except.error.inj (hleg.symm.trans hleg')]
    | stuck _ hleg' | onward _ hleg' => cases hleg.symm.trans hleg'
  | stuck hpos hleg hblocked =>
    cases h' with
    | done hdone => exact absurd hpos (not_lt.2 hdone)
    | failed _ hleg' => cases hleg.symm.trans hleg'
    | stuck _ hleg' hblocked' =>
      cases hleg.symm.trans hleg'
      rw [Option.some.inj (hblocked.symm.trans hblocked')]
    | onward _ hleg' hopen' =>
      cases hleg.symm.trans hleg'
      cases hblocked.symm.trans hopen'
  | onward hpos hleg hopen _ ih =>
    cases h' with
    | done hdone => exact absurd hpos (not_lt.2 hdone)
    | failed _ hleg' => cases hleg.symm.trans hleg'
    | stuck _ hleg' hblocked' =>
      cases hleg.symm.trans hleg'
      cases hopen.symm.trans hblocked'
    | onward _ hleg' _ hruns' =>
      cases hleg.symm.trans hleg'
      rw [ih hruns']

theorem Runs.start_head (h : r.Runs ticks p w) (hp : r.Head ticks start p) :
    ∀ l ∈ w.legs, r.Head ticks start l.start := by
  induction h with
  | done | failed => simp
  | stuck _ hleg =>
    intro l' hl
    rw [List.mem_singleton.1 hl, (leg_eq_ok hleg).1]
    exact hp
  | @onward p l w hpos hleg hopen hruns ih =>
    intro l' hl
    rcases List.mem_cons.1 hl with rfl | hl
    · rw [(leg_eq_ok hleg).1]
      exact hp
    · exact ih (.onward hp hpos hleg hopen (hruns.left_of_mem hl).ne') l' hl

end Route
end PoolSwap
