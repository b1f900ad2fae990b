import PoolSwap.Pool.Snapshot
import PoolSwap.Proofs.Tick.Order
import Mathlib.Data.List.Nodup

/-! The liquidity profile of a pool: how much liquidity is active at each tick. The pool program
keeps the profile within 128 bits, and the ticks of a snapshot determine it around the current
tick. -/
namespace PoolSwap

/-- The liquidity that the ticks above `low`, up to `high`, add on the way up. -/
def netBetween (ticks : List Tick) (low high : Int) : Int :=
  ((ticks.filter fun t => low < t.index ∧ t.index ≤ high).map (·.liquidityNet)).sum

section NetBetween

variable {ticks : List Tick} {a b c low high : Int}

theorem netBetween_of_le (ticks : List Tick) (h : high ≤ low) : netBetween ticks low high = 0 := by
  have hnone : (ticks.filter fun t => low < t.index ∧ t.index ≤ high) = [] := by
    simp only [List.filter_eq_nil_iff, decide_eq_true_eq]
    intro t _
    omega
  rw [netBetween, hnone]
  rfl

theorem netBetween_nil (low high : Int) : netBetween [] low high = 0 := rfl

theorem netBetween_cons (t : Tick) (ticks : List Tick) (low high : Int) :
    netBetween (t :: ticks) low high =
      (if low < t.index ∧ t.index ≤ high then t.liquidityNet else 0) +
        netBetween ticks low high := by
  simp only [netBetween, List.filter_cons, decide_eq_true_eq]
  split <;> simp

theorem netBetween_add (ticks : List Tick) (hab : a ≤ b) (hbc : b ≤ c) :
    netBetween ticks a b + netBetween ticks b c = netBetween ticks a c := by
  induction ticks with
  | nil => rfl
  | cons t rest ih =>
    simp only [netBetween_cons]
    split <;> split <;> split <;> omega

theorem netBetween_filter {keep : Tick → Bool}
    (h : ∀ t ∈ ticks, low < t.index → t.index ≤ high → keep t = true) :
    netBetween (ticks.filter keep) low high = netBetween ticks low high := by
  unfold netBetween
  rw [List.filter_filter]
  congr 2
  refine List.filter_congr fun t ht => ?_
  by_cases hbetween : low < t.index ∧ t.index ≤ high
  · simp [hbetween, h t ht hbetween.1 hbetween.2]
  · simp [hbetween]

/-- A tick alone in its range adds its own liquidity. -/
theorem netBetween_eq_of_alone {t : Tick} (hnodup : ticks.Nodup) (ht : t ∈ ticks)
    (hlow : low < t.index) (hhigh : t.index ≤ high)
    (halone : ∀ u ∈ ticks, low < u.index → u.index ≤ high → u = t) :
    netBetween ticks low high = t.liquidityNet := by
  have hfilter : (ticks.filter fun u => low < u.index ∧ u.index ≤ high) =
      ticks.filter (· = t) := by
    refine List.filter_congr fun u hu => ?_
    by_cases heq : u = t
    · simp [heq, hlow, hhigh]
    · have : ¬ (low < u.index ∧ u.index ≤ high) := fun h => heq (halone u hu h.1 h.2)
      simp [heq, this]
  rw [netBetween, hfilter, List.filter_eq, List.count_eq_one_of_mem hnodup ht]
  simp

end NetBetween

namespace Tick

/-- Whether a list has the ticks of another in ascending order, those of one index in the order in
which they stand there. -/
structure Orders (sorted ticks : List Tick) : Prop where
  ascending : sorted.Pairwise fun a b => a.index ≤ b.index
  perm : sorted.Perm ticks
  stable : ∀ index, sorted.filter (·.index = index) = ticks.filter (·.index = index)

theorem orders_mergeSort (ticks : List Tick) : Orders (ticks.mergeSort Tick.le) ticks := by
  have htrans : ∀ a b c, Tick.le a b → Tick.le b c → Tick.le a c := fun a b c hab hbc => by
    simp only [Tick.le, decide_eq_true_eq] at *
    omega
  have htotal : ∀ a b, Tick.le a b || Tick.le b a := fun a b => by
    simp only [Tick.le, Bool.or_eq_true, decide_eq_true_eq]
    omega
  have hperm := List.mergeSort_perm ticks Tick.le
  refine ⟨?_, hperm, fun index => ?_⟩
  · simpa only [Tick.le, decide_eq_true_eq] using List.pairwise_mergeSort htrans htotal ticks
  · -- Ticks of one index are a sorted part of the list, and a stable sort keeps such parts.
    have hsame : (ticks.filter (·.index = index)).Pairwise fun a b => Tick.le a b := by
      refine List.pairwise_iff_forall_sublist.2 fun {a b} hsub => ?_
      have ha := (List.mem_filter.1 (hsub.subset (.head _))).2
      have hb := (List.mem_filter.1 (hsub.subset (.tail _ (.head _)))).2
      simp only [Tick.le, decide_eq_true_eq] at *
      omega
    have hkept := (List.sublist_mergeSort htrans htotal hsame List.filter_sublist).filter
      (·.index = index)
    rw [List.filter_filter] at hkept
    simp only [Bool.and_self] at hkept
    exact (hkept.eq_of_length (hperm.filter _).length_eq.symm).symm

/-- Distinct ticks in ascending order are so strictly. -/
theorem Orders.strict {sorted ticks : List Tick} (h : Orders sorted ticks)
    (hdistinct : (ticks.map (·.index)).Nodup) :
    sorted.Pairwise fun a b => a.index < b.index := by
  have hne : sorted.Pairwise fun a b => a.index ≠ b.index :=
    List.pairwise_map.1 ((h.perm.map Tick.index).nodup_iff.2 hdistinct)
  exact h.ascending.imp₂ (fun _ _ hab hne => lt_of_le_of_ne hab hne) hne

theorem Orders.eq_of_strict {sorted ticks expected : List Tick} (h : Orders sorted ticks)
    (hexpected : expected.Pairwise fun a b => a.index < b.index) (hperm : expected.Perm ticks) :
    sorted = expected := by
  have hdistinct : (ticks.map (·.index)).Nodup := by
    have hne : (expected.map (·.index)).Nodup :=
      List.pairwise_map.2 (hexpected.imp fun hab => ne_of_lt hab)
    exact (hperm.map (·.index)).nodup_iff.1 hne
  refine List.Perm.eq_of_pairwise (fun a b _ _ hab hba => ?_) (h.strict hdistinct) hexpected
    (h.perm.trans hperm.symm)
  exact absurd hab hba.asymm

end Tick

namespace ConcentratedPool

/-- The liquidity active at a tick, by the ticks between it and the current one. -/
def liquidityAt (s : ConcentratedPool) (tick : Int) : Int :=
  s.liquidity + netBetween s.activeTicks s.tickCurrent tick -
    netBetween s.activeTicks tick s.tickCurrent

def windowTicks (s : ConcentratedPool) (window : Int × Int) : List Tick :=
  s.activeTicks.filter fun t => window.1 ≤ t.index ∧ t.index < window.2

/-- What the pool program guarantees of a snapshot. The price lies in the current tick, which has a
tick above it; the upper end belongs to it too, where a trade downward has just crossed a tick.
Crossing any run of ticks from the current one keeps the liquidity within 128 bits. -/
structure Consistent (s : ConcentratedPool) : Prop where
  feeRate_nonneg : 0 ≤ s.feeRate
  feeRate_lt : s.feeRate < SwapStep.feeRateUnit
  minSqrtPrice_lt : Tick.minSqrtPrice < s.sqrtPrice
  lt_maxSqrtPrice : s.sqrtPrice < Tick.maxSqrtPrice
  minTick_le : Tick.minTick ≤ s.tickCurrent
  lt_maxTick : s.tickCurrent < Tick.maxTick
  price_le : Tick.sqrtPrice s.tickCurrent ≤ s.sqrtPrice
  le_price : s.sqrtPrice ≤ Tick.sqrtPrice (s.tickCurrent + 1)
  aligned : ∀ a ∈ s.arrays, s.span ∣ a.start
  inside : ∀ a ∈ s.arrays, ∀ t ∈ a.ticks, a.start ≤ t.index ∧ t.index < a.stop s.tickSpacing
  inRange : ∀ a ∈ s.arrays, ∀ t ∈ a.ticks, Tick.minTick ≤ t.index ∧ t.index ≤ Tick.maxTick
  distinct : ((s.arrays.flatMap (·.ticks)).map (·.index)).Nodup
  liquidityAt_nonneg : ∀ tick, 0 ≤ s.liquidityAt tick
  liquidityAt_le : ∀ tick, s.liquidityAt tick ≤ Tick.maxU128

/-- A pool with one position from tick -40 to 30 and one inside it from -10 to 30. -/
def nested : ConcentratedPool where
  poolId := .ofNat 1
  mintA := .ofNat 2
  mintB := .ofNat 3
  sqrtPrice := Tick.unitPrice
  tickCurrent := 0
  liquidity := 3000000
  tickSpacing := 1
  feeRate := 2500
  arrays := [⟨-60, [⟨-40, 1000000, 1000000⟩, ⟨-10, 2000000, 2000000⟩], none⟩,
    ⟨0, [⟨30, -3000000, 3000000⟩], none⟩]
  decimalsA := 6
  decimalsB := 6
  transferFeeA := some ⟨100, 5000⟩
  transferFeeB := none
  starts_ascending := by decide
  spacing_pos := by decide

theorem nested_activeTicks : nested.activeTicks =
    [⟨-40, 1000000, 1000000⟩, ⟨-10, 2000000, 2000000⟩, ⟨30, -3000000, 3000000⟩] :=
  List.mergeSort_of_pairwise (by decide)

theorem nested_liquidityAt (tick : Int) : nested.liquidityAt tick =
    if tick < -40 then 0 else if tick < -10 then 1000000 else if tick < 30 then 3000000 else 0 := by
  have hcurrent : nested.tickCurrent = 0 := rfl
  have hliquidity : nested.liquidity = 3000000 := rfl
  simp only [liquidityAt, nested_activeTicks, hcurrent, hliquidity, netBetween_cons,
    netBetween_nil]
  omega

theorem nested_consistent : nested.Consistent where
  feeRate_nonneg := by decide
  feeRate_lt := by decide
  minSqrtPrice_lt := by decide
  lt_maxSqrtPrice := by decide
  minTick_le := by decide
  lt_maxTick := by decide
  price_le := by decide
  le_price := by decide
  aligned := by decide
  inside := by decide
  inRange := by decide
  distinct := by decide
  liquidityAt_nonneg tick := by
    rw [nested_liquidityAt]
    split_ifs <;> decide
  liquidityAt_le tick := by
    rw [nested_liquidityAt]
    split_ifs <;> decide

variable {s : ConcentratedPool} {t : Tick}

/-- A pool whose second mint adds twice the amount to a transfer instead of keeping some of it. -/
def overpaid : ConcentratedPool where
  poolId := .ofNat 1
  mintA := .ofNat 2
  mintB := .ofNat 3
  sqrtPrice := Tick.unitPrice
  tickCurrent := 0
  liquidity := 9444732965739290427392
  tickSpacing := 1
  feeRate := 0
  arrays := [⟨0, [], none⟩]
  decimalsA := 6
  decimalsB := 6
  transferFeeA := none
  transferFeeB := some ⟨-20000, 0⟩
  starts_ascending := by decide
  spacing_pos := Int.one_pos

theorem overpaid_activeTicks : overpaid.activeTicks = [] :=
  List.mergeSort_of_pairwise (by decide)

theorem overpaid_liquidityAt (tick : Int) : overpaid.liquidityAt tick = 9444732965739290427392 := by
  simp only [liquidityAt, overpaid_activeTicks, netBetween_nil]
  rfl

theorem overpaid_consistent : overpaid.Consistent where
  feeRate_nonneg := by decide
  feeRate_lt := by decide
  minSqrtPrice_lt := by decide
  lt_maxSqrtPrice := by decide
  minTick_le := by decide
  lt_maxTick := by decide
  price_le := by decide
  le_price := by decide
  aligned := by decide
  inside := by decide
  inRange := by decide
  distinct := by decide
  liquidityAt_nonneg tick := by
    rw [overpaid_liquidityAt]
    decide
  liquidityAt_le tick := by
    rw [overpaid_liquidityAt]
    decide

theorem mem_activeTicks :
    t ∈ s.activeTicks ↔ (∃ a ∈ s.arrays, t ∈ a.ticks) ∧ t.isActive = true := by
  simp [activeTicks]

theorem netBetween_windowTicks (s : ConcentratedPool) {window : Int × Int} {low high : Int}
    (hlow : window.1 ≤ low) (hhigh : high < window.2) :
    netBetween (s.windowTicks window) low high = netBetween s.activeTicks low high := by
  refine netBetween_filter fun t _ hlow' hhigh' => ?_
  rw [decide_eq_true_eq]
  omega

theorem activeTicks_orders (s : ConcentratedPool) :
    Tick.Orders s.activeTicks ((s.arrays.flatMap (·.ticks)).filter Tick.isActive) :=
  Tick.orders_mergeSort _

theorem activeTicks_sorted (s : ConcentratedPool) :
    s.activeTicks.Pairwise fun a b => a.index ≤ b.index :=
  s.activeTicks_orders.ascending

theorem Consistent.activeTicks_pairwise (h : s.Consistent) :
    s.activeTicks.Pairwise fun a b => a.index < b.index :=
  s.activeTicks_orders.strict (h.distinct.sublist (List.filter_sublist.map _))

theorem Consistent.activeTicks_nodup (h : s.Consistent) : s.activeTicks.Nodup :=
  h.activeTicks_pairwise.imp fun hab heq => by simp [heq] at hab

theorem Consistent.activeTicks_inRange (h : s.Consistent) (ht : t ∈ s.activeTicks) :
    Tick.minTick ≤ t.index ∧ t.index ≤ Tick.maxTick := by
  obtain ⟨⟨a, ha, hta⟩, -⟩ := mem_activeTicks.1 ht
  exact h.inRange a ha t hta

theorem span_pos (s : ConcentratedPool) : 0 < s.span :=
  mul_pos (by decide) s.spacing_pos

theorem extendDown_le {span : Int} (hspan : 0 < span) (lower : Int) (arrays : List TickArray) :
    extendDown span lower arrays ≤ lower := by
  induction arrays generalizing lower with
  | nil => exact le_rfl
  | cons a rest ih =>
    unfold extendDown
    split
    · exact (ih a.start).trans (by omega)
    · exact le_rfl

theorem le_extendUp {span : Int} (hspan : 0 < span) (upper : Int) (arrays : List TickArray) :
    upper ≤ extendUp span upper arrays := by
  induction arrays generalizing upper with
  | nil => exact le_rfl
  | cons a rest ih =>
    unfold extendUp
    split
    · exact le_trans (by omega) (ih (a.start + span))
    · exact le_rfl

/-- The covered range extends, over the arrays on both sides, that of the array of the current
tick. -/
theorem coveredRange_split {window : Int × Int} (h : s.coveredRange = some window) :
    ∃ before a after, s.arrays = before ++ a :: after ∧ a.start ≤ s.tickCurrent ∧
      s.tickCurrent < a.start + s.span ∧
      window = (extendDown s.span a.start before.reverse,
        extendUp s.span (a.start + s.span) after) := by
  unfold coveredRange at h
  split at h
  case h_1 => cases h
  case h_2 a after hdrop =>
    cases h
    have hcovers : s.covers a s.tickCurrent = true := by
      have hhead := List.head?_dropWhile_not (fun a => !s.covers a s.tickCurrent) s.arrays
      simpa [hdrop] using hhead
    simp only [covers, decide_eq_true_eq] at hcovers
    refine ⟨_, a, after, ?_, hcovers.1, hcovers.2, rfl⟩
    rw [← hdrop]
    exact List.takeWhile_append_dropWhile.symm

theorem coveredRange_around {lower upper : Int} (h : s.coveredRange = some (lower, upper)) :
    lower ≤ s.tickCurrent ∧ s.tickCurrent < upper := by
  obtain ⟨before, a, after, -, hlow, hhigh, hwindow⟩ := coveredRange_split h
  cases hwindow
  exact ⟨(extendDown_le s.span_pos _ _).trans hlow, hhigh.trans_le (le_extendUp s.span_pos _ _)⟩

end ConcentratedPool
end PoolSwap
