import PoolSwap.Proofs.Pool.Window
import Mathlib.Algebra.Ring.Divisibility.Basic

/-! The window of a pool in terms of its arrays. Around the current tick it is made up of whole arrays,
one after another, and it ends where no array adjoins it. No other range does both. -/
namespace PoolSwap.ConcentratedPool

variable {s : ConcentratedPool} {window other : Int × Int} {start tick : Int}

def Loads (s : ConcentratedPool) (start : Int) : Prop := ∃ a ∈ s.arrays, a.start = start

instance (s : ConcentratedPool) (start : Int) : Decidable (s.Loads start) :=
  inferInstanceAs (Decidable (∃ a ∈ s.arrays, a.start = start))

/-- A range around the current tick that loaded arrays make up and that none adjoins. -/
structure IsMaximalCover (s : ConcentratedPool) (window : Int × Int) : Prop where
  lower_le : window.1 ≤ s.tickCurrent
  lt_upper : s.tickCurrent < window.2
  whole : s.span ∣ window.2 - window.1
  loaded : ∀ k : Nat, window.1 + k * s.span < window.2 → s.Loads (window.1 + k * s.span)
  not_below : ¬s.Loads (window.1 - s.span)
  not_above : ¬s.Loads window.2

theorem covered_of_loads (h : s.Loads start) (hlow : start ≤ tick)
    (hhigh : tick < start + s.span) : s.Covered tick := by
  obtain ⟨a, ha, rfl⟩ := h
  exact ⟨a, ha, covers_iff.2 ⟨hlow, hhigh⟩⟩

theorem covered_of_loads_before (h : s.Loads (start - s.span)) : s.Covered (start - 1) := by
  have hspan := s.span_pos
  apply covered_of_loads h
  · omega
  · omega

theorem covered_self_of_loads (h : s.Loads start) : s.Covered start := by
  have hspan := s.span_pos
  apply covered_of_loads h le_rfl
  omega

/-- A window starts where an array does: else the tick below it would be covered too. -/
theorem IsWindow.loads_lower (h : s.IsWindow window) : s.Loads window.1 := by
  have hlower := h.lower_le
  obtain ⟨a, ha, hcovers⟩ := h.covered window.1 le_rfl (hlower.trans_lt h.lt_upper)
  rw [covers_iff] at hcovers
  refine ⟨a, ha, le_antisymm hcovers.1 (not_lt.1 fun hlt => h.gap_below ?_)⟩
  exact ⟨a, ha, covers_iff.2 ⟨by omega, by omega⟩⟩

/-- A window ends where an array does: else its end would be covered too. -/
theorem IsWindow.loads_upper (h : s.IsWindow window) : s.Loads (window.2 - s.span) := by
  have hlower := h.lower_le
  have hupper := h.lt_upper
  obtain ⟨a, ha, hcovers⟩ := h.covered (window.2 - 1) (by omega) (by omega)
  rw [covers_iff] at hcovers
  have hend : a.start + s.span ≤ window.2 := by
    by_contra hbeyond
    apply h.gap_above
    exact ⟨a, ha, covers_iff.2 ⟨by omega, not_le.1 hbeyond⟩⟩
  exact ⟨a, ha, by omega⟩

namespace IsMaximalCover

theorem loads_lower (h : s.IsMaximalCover window) : s.Loads window.1 := by
  have hfirst := h.loaded 0
  simp only [Nat.cast_zero, zero_mul, add_zero] at hfirst
  exact hfirst (h.lower_le.trans_lt h.lt_upper)

/-- All starts that lie whole spans above the lower end of a cover are loaded. -/
theorem loads_of_dvd (h : s.IsMaximalCover window) (hdvd : s.span ∣ start - window.1)
    (hlow : window.1 ≤ start) (hhigh : start < window.2) : s.Loads start := by
  obtain ⟨m, hm⟩ := hdvd
  have hnonneg : 0 ≤ m := nonneg_of_mul_nonneg_right (hm ▸ Int.sub_nonneg.2 hlow) s.span_pos
  obtain ⟨k, rfl⟩ := Int.eq_ofNat_of_zero_le hnonneg
  have hstart : start = window.1 + k * s.span := by linarith
  rw [hstart] at hhigh ⊢
  exact h.loaded k hhigh

/-- Of two covers with one lower end, neither ends below the other: an array would adjoin it. -/
theorem upper_le_upper (h : s.IsMaximalCover window) (h' : s.IsMaximalCover other)
    (hlower : window.1 = other.1) : window.2 ≤ other.2 := by
  by_contra hlt
  have hbegin := h'.lower_le
  have hend := h'.lt_upper
  apply h'.not_above
  apply h.loads_of_dvd
  · rw [hlower]
    exact h'.whole
  · omega
  · omega

end IsMaximalCover

section Aligned

variable (haligned : ∀ a ∈ s.arrays, s.span ∣ a.start)
include haligned

theorem dvd_of_loads (h : s.Loads start) : s.span ∣ start := by
  obtain ⟨a, ha, rfl⟩ := h
  exact haligned a ha

/-- Where an array could start, no other array covers the tick. -/
theorem loads_of_covered (hdvd : s.span ∣ start) (h : s.Covered start) : s.Loads start := by
  obtain ⟨a, ha, hcovers⟩ := h
  rw [covers_iff] at hcovers
  refine ⟨a, ha, le_antisymm hcovers.1 (not_lt.1 fun hlt => ?_)⟩
  have hnext := add_span_le (haligned a ha) hdvd hlt
  omega

theorem IsWindow.isMaximalCover (h : s.IsWindow window) : s.IsMaximalCover window where
  lower_le := h.lower_le
  lt_upper := h.lt_upper
  whole := by
    have hlower := dvd_of_loads haligned h.loads_lower
    have hupper := dvd_of_loads haligned h.loads_upper
    exact Int.dvd_sub (dvd_sub_self_right.1 hupper) hlower
  loaded k hk := by
    have hspan := s.span_pos
    have hdvd := dvd_of_loads haligned h.loads_lower
    apply loads_of_covered haligned (Int.dvd_add hdvd (Int.dvd_mul_left _ _))
    apply h.covered _ _ hk
    exact le_add_of_nonneg_right (by positivity)
  not_below hbelow := h.gap_below (covered_of_loads_before hbelow)
  not_above habove := h.gap_above (covered_self_of_loads habove)

namespace IsMaximalCover

/-- No cover begins above another one: the array below it would be loaded. -/
theorem lower_le_lower (h : s.IsMaximalCover window) (h' : s.IsMaximalCover other) :
    window.1 ≤ other.1 := by
  by_contra hlt
  have hspan := s.span_pos
  have hdvd := dvd_of_loads haligned h.loads_lower
  have hdvd' := dvd_of_loads haligned h'.loads_lower
  have hnext := add_span_le hdvd' hdvd (not_le.1 hlt)
  have hlower := h.lower_le
  have hupper := h'.lt_upper
  apply h.not_below
  apply h'.loads_of_dvd
  · exact Int.dvd_sub (Int.dvd_sub hdvd (Int.dvd_refl _)) hdvd'
  · omega
  · omega

theorem unique (h : s.IsMaximalCover window) (h' : s.IsMaximalCover other) : window = other := by
  have hlower : window.1 = other.1 :=
    le_antisymm (lower_le_lower haligned h h') (lower_le_lower haligned h' h)
  apply Prod.ext hlower
  exact le_antisymm (h.upper_le_upper h' hlower) (h'.upper_le_upper h hlower.symm)

/-- The span that holds the current tick is one of the loaded ones. -/
theorem covered_tickCurrent (h : s.IsMaximalCover window) : s.Covered s.tickCurrent := by
  obtain ⟨hdvd, hlow, hhigh⟩ := s.arrayStart_around s.tickCurrent
  have hlower := h.lower_le
  have hdvd' := dvd_of_loads haligned h.loads_lower
  have hbegin : window.1 ≤ Tick.arrayStart s.tickCurrent s.tickSpacing := by
    by_contra hlt
    have hnext := add_span_le hdvd hdvd' (not_le.1 hlt)
    omega
  have hloads := h.loads_of_dvd (Int.dvd_sub hdvd hdvd') hbegin (hlow.trans_lt h.lt_upper)
  exact covered_of_loads hloads hlow hhigh

end IsMaximalCover

theorem coveredRange_eq_some_iff : s.coveredRange = some window ↔ s.IsMaximalCover window := by
  constructor
  · intro h
    exact (coveredRange_isWindow haligned h).isMaximalCover haligned
  · intro h
    cases hwindow : s.coveredRange with
    | none =>
      exact absurd (h.covered_tickCurrent haligned) (coveredRange_eq_none_iff.1 hwindow)
    | some other =>
      have hother := (coveredRange_isWindow haligned hwindow).isMaximalCover haligned
      rw [hother.unique haligned h]

/-- A pool of aligned arrays has no window exactly if no array holds the current tick. Else its window
is the one range around the current tick that is made up of loaded arrays without a gap, with none at
the start before it and none at its end. -/
theorem coveredRange_maximal :
    (s.coveredRange = none ↔
      ¬∃ a ∈ s.arrays, a.start ≤ s.tickCurrent ∧ s.tickCurrent < a.start + s.span) ∧
    ∀ lower upper, s.coveredRange = some (lower, upper) ↔
      lower ≤ s.tickCurrent ∧ s.tickCurrent < upper ∧ s.span ∣ upper - lower ∧
      (∀ k : Nat, lower + k * s.span < upper → ∃ a ∈ s.arrays, a.start = lower + k * s.span) ∧
      (¬∃ a ∈ s.arrays, a.start = lower - s.span) ∧ ¬∃ a ∈ s.arrays, a.start = upper := by
  constructor
  · simp only [coveredRange_eq_none_iff, Covered, covers_iff]
  · intro lower upper
    rw [coveredRange_eq_some_iff haligned]
    constructor
    · intro h
      exact ⟨h.lower_le, h.lt_upper, h.whole, h.loaded, h.not_below, h.not_above⟩
    · rintro ⟨hlower, hupper, hwhole, hloaded, hbelow, habove⟩
      exact ⟨hlower, hupper, hwhole, hloaded, hbelow, habove⟩

end Aligned

/-- The arrays of `nested` with one more that adjoins them below, and two more behind gaps. -/
def nestedScattered : List TickArray :=
  [⟨-240, [], none⟩, ⟨-120, [], none⟩] ++ nested.arrays ++ [⟨120, [], none⟩]

theorem nestedScattered_ascending : (nestedScattered.map (·.start)).Pairwise (· < ·) := by decide

/-- The arrays behind the gaps are left out, and a tick in a gap has no window. -/
theorem coveredRange_maximal_scattered :
    let s := nested.withArrays nestedScattered nestedScattered_ascending
    let stray : ConcentratedPool := { s with tickCurrent := 60 }
    (∀ a ∈ s.arrays, s.span ∣ a.start) ∧ (∀ a ∈ stray.arrays, stray.span ∣ a.start) ∧
    s.coveredRange = some (-120, 60) ∧ stray.coveredRange = none := by
  intro s stray
  have haligned : ∀ a ∈ s.arrays, s.span ∣ a.start := by decide
  have hstray : ∀ a ∈ stray.arrays, stray.span ∣ a.start := by decide
  refine ⟨haligned, hstray, ?_, (coveredRange_maximal hstray).1.2 (by decide)⟩
  rw [(coveredRange_maximal haligned).2]
  refine ⟨by decide, by decide, by decide, fun k hk => ?_, by decide, by decide⟩
  obtain rfl | rfl | rfl : k = 0 ∨ k = 1 ∨ k = 2 := by
    change (-120 : Int) + k * 60 < 60 at hk
    omega
  · decide
  · decide
  · decide

end PoolSwap.ConcentratedPool
