import PoolSwap.Proofs.Pool.Profile
import Mathlib.Data.List.TakeWhile

/-! The window of a pool: the ticks around the current one that its arrays cover without a gap. With
more arrays it only grows, and inside it no tick comes in. -/
namespace PoolSwap.ConcentratedPool

variable {s : ConcentratedPool} {a b : TickArray} {lower upper span tick : Int}
  {arrays : List TickArray} {window : Int × Int} {t : Tick}

theorem covers_iff : s.covers a tick = true ↔ a.start ≤ tick ∧ tick < a.start + s.span := by
  simp only [covers, decide_eq_true_eq]

def Covered (s : ConcentratedPool) (tick : Int) : Prop :=
  ∃ a ∈ s.arrays, s.covers a tick = true

theorem nodup_starts (s : ConcentratedPool) : (s.arrays.map (·.start)).Nodup :=
  s.starts_ascending.imp fun hlt => hlt.ne

/-- The whole spans below a tick end in the span that holds it. -/
theorem arrayStart_around (s : ConcentratedPool) (tick : Int) :
    s.span ∣ Tick.arrayStart tick s.tickSpacing ∧ Tick.arrayStart tick s.tickSpacing ≤ tick ∧
      tick < Tick.arrayStart tick s.tickSpacing + s.span := by
  have hspan : s.tickSpacing * Tick.arraySize = s.span := Int.mul_comm _ _
  unfold Tick.arrayStart
  rw [hspan]
  exact ⟨Int.dvd_mul_left _ _, Tick.alignTo_le s.span_pos _, Tick.lt_alignTo_add s.span_pos _⟩

section Extend

/-- What an extension downward takes in is covered by the arrays it goes over. -/
theorem exists_of_extendDown_le (hlow : extendDown span lower arrays ≤ tick)
    (hhigh : tick < lower) : ∃ a ∈ arrays, a.start ≤ tick ∧ tick < a.start + span := by
  induction arrays generalizing lower with
  | nil => exact absurd hlow (not_le.2 hhigh)
  | cons a rest ih =>
    unfold extendDown at hlow
    split at hlow
    case isTrue hjoin =>
      by_cases hbelow : tick < a.start
      · obtain ⟨b, hb, hcovers⟩ := ih hlow hbelow
        exact ⟨b, List.mem_cons_of_mem a hb, hcovers⟩
      · exact ⟨a, List.mem_cons_self, not_lt.1 hbelow, by omega⟩
    case isFalse => exact absurd hlow (not_le.2 hhigh)

theorem exists_of_lt_extendUp (hlow : upper ≤ tick) (hhigh : tick < extendUp span upper arrays) :
    ∃ a ∈ arrays, a.start ≤ tick ∧ tick < a.start + span := by
  induction arrays generalizing upper with
  | nil => exact absurd hlow (not_le.2 hhigh)
  | cons a rest ih =>
    unfold extendUp at hhigh
    split at hhigh
    case isTrue hjoin =>
      by_cases hbeyond : a.start + span ≤ tick
      · obtain ⟨b, hb, hcovers⟩ := ih hbeyond hhigh
        exact ⟨b, List.mem_cons_of_mem a hb, hcovers⟩
      · exact ⟨a, List.mem_cons_self, by omega, not_le.1 hbeyond⟩
    case isFalse => exact absurd hlow (not_le.2 hhigh)

/-- An extension downward over arrays that do not overlap stops at a gap. -/
theorem extendDown_gap (hspan : 0 < span) (hend : ∀ a ∈ arrays, a.start + span ≤ lower)
    (hapart : arrays.Pairwise fun a b => b.start + span ≤ a.start) :
    ∀ a ∈ arrays, extendDown span lower arrays ≤ a.start ∨
      a.start + span < extendDown span lower arrays := by
  induction arrays generalizing lower with
  | nil => simp
  | cons a rest ih =>
    obtain ⟨hfirst, hrest⟩ := List.pairwise_cons.1 hapart
    have ha := hend a List.mem_cons_self
    unfold extendDown
    split
    case isTrue =>
      intro b hb
      rcases List.mem_cons.1 hb with rfl | hb
      · exact .inl (extendDown_le hspan _ _)
      · exact ih hfirst hrest b hb
    case isFalse hgap =>
      intro b hb
      rcases List.mem_cons.1 hb with rfl | hb
      · exact .inr (lt_of_le_of_ne ha hgap)
      · have := hfirst b hb
        exact .inr (by omega)

theorem extendUp_gap (hspan : 0 < span) (hbegin : ∀ a ∈ arrays, upper ≤ a.start)
    (hapart : arrays.Pairwise fun a b => a.start + span ≤ b.start) :
    ∀ a ∈ arrays, a.start + span ≤ extendUp span upper arrays ∨
      extendUp span upper arrays < a.start := by
  induction arrays generalizing upper with
  | nil => simp
  | cons a rest ih =>
    obtain ⟨hfirst, hrest⟩ := List.pairwise_cons.1 hapart
    have ha := hbegin a List.mem_cons_self
    unfold extendUp
    split
    case isTrue =>
      intro b hb
      rcases List.mem_cons.1 hb with rfl | hb
      · exact .inl (le_extendUp hspan _ _)
      · exact ih hfirst hrest b hb
    case isFalse hgap =>
      intro b hb
      rcases List.mem_cons.1 hb with rfl | hb
      · exact .inr (lt_of_le_of_ne ha fun heq => hgap heq.symm)
      · have := hfirst b hb
        exact .inr (by omega)

end Extend

theorem add_span_le {span a b : Int} (ha : span ∣ a) (hb : span ∣ b) (hlt : a < b) :
    a + span ≤ b := by
  have hstep := Int.le_of_dvd (Int.sub_pos.2 hlt) (Int.dvd_sub hb ha)
  omega

section Aligned

variable (haligned : ∀ a ∈ s.arrays, s.span ∣ a.start)
include haligned

theorem start_add_span_le (ha : a ∈ s.arrays) (hb : b ∈ s.arrays) (hlt : a.start < b.start) :
    a.start + s.span ≤ b.start :=
  add_span_le (haligned a ha) (haligned b hb) hlt

/-- The ranges of aligned arrays do not overlap. -/
theorem arrays_apart : s.arrays.Pairwise fun a b => a.start + s.span ≤ b.start :=
  (List.pairwise_map.1 s.starts_ascending).imp_of_mem fun ha hb => start_add_span_le haligned ha hb

theorem eq_of_covers (ha : a ∈ s.arrays) (hb : b ∈ s.arrays) (hat : s.covers a tick = true)
    (hbt : s.covers b tick = true) : a = b := by
  rw [covers_iff] at hat hbt
  refine List.inj_on_of_nodup_map s.nodup_starts ha hb ?_
  rcases lt_trichotomy a.start b.start with hlt | heq | hlt
  · have := start_add_span_le haligned ha hb hlt
    omega
  · exact heq
  · have := start_add_span_le haligned hb ha hlt
    omega

end Aligned

/-- A range around the current tick that the arrays cover and that ends at gaps. -/
structure IsWindow (s : ConcentratedPool) (window : Int × Int) : Prop where
  lower_le : window.1 ≤ s.tickCurrent
  lt_upper : s.tickCurrent < window.2
  covered : ∀ tick, window.1 ≤ tick → tick < window.2 → s.Covered tick
  gap_below : ¬ s.Covered (window.1 - 1)
  gap_above : ¬ s.Covered window.2

theorem not_covered_of_forall (h : ∀ a ∈ s.arrays, tick < a.start ∨ a.start + s.span ≤ tick) :
    ¬ s.Covered tick := by
  rintro ⟨a, ha, hcovers⟩
  rw [covers_iff] at hcovers
  have := h a ha
  omega

theorem coveredRange_isWindow (haligned : ∀ a ∈ s.arrays, s.span ∣ a.start)
    (h : s.coveredRange = some window) : s.IsWindow window := by
  obtain ⟨hlower, hupper⟩ := coveredRange_around h
  obtain ⟨before, a, after, hsplit, -, -, rfl⟩ := coveredRange_split h
  have hspan := s.span_pos
  have hmem : ∀ b, b ∈ s.arrays ↔ b ∈ before ∨ b = a ∨ b ∈ after := by
    intro b
    rw [hsplit, List.mem_append, List.mem_cons]
  have hapart := arrays_apart haligned
  rw [hsplit] at hapart
  obtain ⟨hbefore, hrest, hacross⟩ := List.pairwise_append.1 hapart
  obtain ⟨hafter, hrest⟩ := List.pairwise_cons.1 hrest
  have hend : ∀ b ∈ before, b.start + s.span ≤ a.start :=
    fun b hb => hacross b hb a List.mem_cons_self
  have hdown := extendDown_le hspan a.start before.reverse
  have hup := le_extendUp hspan (a.start + s.span) after
  refine ⟨hlower, hupper, ?_, ?_, ?_⟩
  · -- A tick lies below the array of the current tick, in it, or above it.
    intro tick hlow hhigh
    by_cases hbelow : tick < a.start
    · obtain ⟨b, hb, hcovers⟩ := exists_of_extendDown_le hlow hbelow
      exact ⟨b, (hmem b).2 (.inl (List.mem_reverse.1 hb)), covers_iff.2 hcovers⟩
    · by_cases habove : a.start + s.span ≤ tick
      · obtain ⟨b, hb, hcovers⟩ := exists_of_lt_extendUp habove hhigh
        exact ⟨b, (hmem b).2 (.inr (.inr hb)), covers_iff.2 hcovers⟩
      · exact ⟨a, (hmem a).2 (.inr (.inl rfl)), covers_iff.2 ⟨not_lt.1 hbelow, not_le.1 habove⟩⟩
  · apply not_covered_of_forall
    intro b hb
    dsimp only
    rcases (hmem b).1 hb with hb | rfl | hb
    · have hgap := extendDown_gap hspan (fun c hc => hend c (List.mem_reverse.1 hc))
        (List.pairwise_reverse.2 hbefore) b (List.mem_reverse.2 hb)
      omega
    · omega
    · have := hafter b hb
      omega
  · apply not_covered_of_forall
    intro b hb
    dsimp only
    rcases (hmem b).1 hb with hb | rfl | hb
    · have := hend b hb
      omega
    · omega
    · have hgap := extendUp_gap hspan hafter hrest b hb
      omega

theorem coveredRange_eq_none_iff : s.coveredRange = none ↔ ¬ s.Covered s.tickCurrent := by
  constructor
  · intro hnone
    unfold coveredRange at hnone
    split at hnone
    case h_1 hdrop =>
      rw [List.dropWhile_eq_nil_iff] at hdrop
      simpa [Covered] using hdrop
    case h_2 => cases hnone
  · intro hopen
    cases hwindow : s.coveredRange with
    | none => rfl
    | some window =>
      obtain ⟨before, a, after, hsplit, hlow, hhigh, -⟩ := coveredRange_split hwindow
      exact absurd ⟨a, by simp [hsplit], covers_iff.2 ⟨hlow, hhigh⟩⟩ hopen

/-- A pool with other arrays loaded. -/
def withArrays (s : ConcentratedPool) (arrays : List TickArray)
    (hascending : (arrays.map (·.start)).Pairwise (· < ·)) : ConcentratedPool :=
  { s with arrays, starts_ascending := hascending }

section WithArrays

variable (s) (arrays) (hascending : (arrays.map (·.start)).Pairwise (· < ·))

@[simp] theorem withArrays_tickCurrent :
    (s.withArrays arrays hascending).tickCurrent = s.tickCurrent := rfl

@[simp] theorem withArrays_liquidity :
    (s.withArrays arrays hascending).liquidity = s.liquidity := rfl

end WithArrays

theorem Consistent.withArrays {hascending : (arrays.map (·.start)).Pairwise (· < ·)}
    (hs : s.Consistent) (haligned : ∀ a ∈ arrays, s.span ∣ a.start)
    (hinside : ∀ a ∈ arrays, ∀ t ∈ a.ticks, a.start ≤ t.index ∧ t.index < a.stop s.tickSpacing)
    (hinRange : ∀ a ∈ arrays, ∀ t ∈ a.ticks, Tick.minTick ≤ t.index ∧ t.index ≤ Tick.maxTick)
    (hdistinct : ((arrays.flatMap (·.ticks)).map (·.index)).Nodup)
    (hliquidity : ∀ tick, 0 ≤ (s.withArrays arrays hascending).liquidityAt tick ∧
      (s.withArrays arrays hascending).liquidityAt tick ≤ Tick.maxU128) :
    (s.withArrays arrays hascending).Consistent where
  feeRate_nonneg := hs.feeRate_nonneg
  feeRate_lt := hs.feeRate_lt
  minSqrtPrice_lt := hs.minSqrtPrice_lt
  lt_maxSqrtPrice := hs.lt_maxSqrtPrice
  minTick_le := hs.minTick_le
  lt_maxTick := hs.lt_maxTick
  price_le := hs.price_le
  le_price := hs.le_price
  aligned := haligned
  inside := hinside
  inRange := hinRange
  distinct := hdistinct
  liquidityAt_nonneg tick := (hliquidity tick).1
  liquidityAt_le tick := (hliquidity tick).2

section MoreArrays

variable {hascending : (arrays.map (·.start)).Pairwise (· < ·)} (hmore : s.arrays ⊆ arrays)
include hmore

theorem Covered.withArrays (h : s.Covered tick) :
    (s.withArrays arrays hascending).Covered tick := by
  obtain ⟨a, ha, hcovers⟩ := h
  exact ⟨a, hmore ha, hcovers⟩

theorem activeTicks_subset_withArrays :
    s.activeTicks ⊆ (s.withArrays arrays hascending).activeTicks := fun t ht => by
  obtain ⟨⟨a, ha, hta⟩, hactive⟩ := mem_activeTicks.1 ht
  exact mem_activeTicks.2 ⟨⟨a, hmore ha, hta⟩, hactive⟩

variable (hs' : (s.withArrays arrays hascending).Consistent)
  (hwindow : s.coveredRange = some window)
include hs' hwindow

/-- With more arrays the window is at least as wide: a gap in it would have been one before. -/
theorem exists_coveredRange_withArrays (haligned : ∀ a ∈ s.arrays, s.span ∣ a.start) :
    ∃ window', (s.withArrays arrays hascending).coveredRange = some window' ∧
      window'.1 ≤ window.1 ∧ window.2 ≤ window'.2 := by
  have hold := coveredRange_isWindow haligned hwindow
  have hcovered : ∀ tick, window.1 ≤ tick → tick < window.2 →
      (s.withArrays arrays hascending).Covered tick :=
    fun tick hlow hhigh => (hold.covered tick hlow hhigh).withArrays hmore
  cases hwindow' : (s.withArrays arrays hascending).coveredRange with
  | none =>
    exact absurd (hcovered s.tickCurrent hold.lower_le hold.lt_upper)
      (coveredRange_eq_none_iff.1 hwindow')
  | some window' =>
    have hnew := coveredRange_isWindow hs'.aligned hwindow'
    have hlower : window'.1 ≤ s.tickCurrent := hnew.lower_le
    have hupper : s.tickCurrent < window'.2 := hnew.lt_upper
    refine ⟨window', rfl, ?_, ?_⟩
    · by_contra hlt
      have := hold.lt_upper
      exact hnew.gap_below (hcovered _ (by omega) (by omega))
    · by_contra hlt
      have := hold.lower_le
      exact hnew.gap_above (hcovered _ (by omega) (by omega))

/-- No tick of another array lies in the window. -/
theorem mem_activeTicks_of_withArrays (haligned : ∀ a ∈ s.arrays, s.span ∣ a.start)
    (ht : t ∈ (s.withArrays arrays hascending).activeTicks) (hlow : window.1 ≤ t.index)
    (hhigh : t.index < window.2) : t ∈ s.activeTicks := by
  obtain ⟨⟨b, hb, htb⟩, hactive⟩ := mem_activeTicks.1 ht
  obtain ⟨a, ha, hcovers⟩ := (coveredRange_isWindow haligned hwindow).covered _ hlow hhigh
  obtain rfl : a = b := eq_of_covers hs'.aligned (hmore ha) hb hcovers
    (covers_iff.2 (hs'.inside b hb t htb))
  exact mem_activeTicks.2 ⟨⟨a, ha, htb⟩, hactive⟩

end MoreArrays

end PoolSwap.ConcentratedPool
