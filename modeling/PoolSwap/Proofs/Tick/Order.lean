import PoolSwap.Tick.Price
import Mathlib.Order.Interval.Set.OrdConnected
import Mathlib.Order.SuccPred.Archimedean
import Mathlib.Data.Int.SuccPred
import Mathlib.Tactic.Linarith
import Mathlib.Tactic.Ring

/-! Tick prices are strictly increasing. A product of ratios is truncated after each factor, so two
neighbouring ticks are compared at the bit where a carry ends: there the products differ by a gap,
and the ratios of the remaining bits shrink that gap without closing it. -/
namespace PoolSwap.Tick

/-- An amount multiplied by every ratio of a list, truncated after each. -/
def shrink : List Nat → Nat → Nat
  | [], gap => gap
  | ratio :: rest, gap => shrink rest (gap * ratio / unitPrice)

/-- At each bit, the carry out of the bits below replaces the product `acc` of their ratios by the
ratio of the bit alone. This leaves a gap of at least two after all remaining ratios. -/
def CarryGaps : List Nat → Nat → Prop
  | [], _ => True
  | ratio :: rest, acc =>
    ratio ≤ acc ∧ ratio ≤ unitPrice ∧ 2 ≤ shrink rest (acc - ratio) ∧
      CarryGaps rest (acc * ratio / unitPrice)

instance : ∀ ratios acc, Decidable (CarryGaps ratios acc)
  | [], _ => .isTrue trivial
  | ratio :: rest, acc =>
    have := instDecidableCarryGaps rest (acc * ratio / unitPrice)
    inferInstanceAs (Decidable (_ ∧ _ ∧ _ ∧ _))

theorem unitPrice_pos : 0 < unitPrice := by decide

theorem mul_div_unitPrice_le {ratio : Nat} (h : ratio ≤ unitPrice) (acc : Nat) :
    acc * ratio / unitPrice ≤ acc :=
  Nat.div_le_of_le_mul (by rw [Nat.mul_comm unitPrice]; exact Nat.mul_le_mul_left acc h)

/-- A gap between two factors survives a product, up to its own truncated product. -/
theorem ratioProduct_add_le (n : Nat) (ratios : List Nat) {low gap high : Nat}
    (h : low + gap ≤ high) :
    ratioProduct n ratios low + ratioProduct n ratios gap ≤ ratioProduct n ratios high := by
  induction ratios generalizing n low gap high with
  | nil => exact h
  | cons ratio rest ih =>
    simp only [ratioProduct]
    split
    · apply ih
      refine Nat.div_add_div_le_add_div.trans (Nat.div_le_div_right ?_)
      rw [← Nat.add_mul]
      exact Nat.mul_le_mul_right ratio h
    · exact ih _ h

theorem shrink_le_ratioProduct (n : Nat) {ratios : List Nat}
    (hr : ∀ ratio ∈ ratios, ratio ≤ unitPrice) {low high : Nat} (h : low ≤ high) :
    shrink ratios low ≤ ratioProduct n ratios high := by
  induction ratios generalizing n low high with
  | nil => exact h
  | cons ratio rest ih =>
    have hrest : ∀ ratio ∈ rest, ratio ≤ unitPrice := fun m hm => hr m (List.mem_cons_of_mem _ hm)
    have hstep : low * ratio / unitPrice ≤ high * ratio / unitPrice :=
      Nat.div_le_div_right (Nat.mul_le_mul_right ratio h)
    simp only [ratioProduct, shrink]
    split
    · exact ih _ hrest hstep
    · exact ih _ hrest (hstep.trans (mul_div_unitPrice_le (hr ratio List.mem_cons_self) high))

theorem CarryGaps.ratio_le {ratios : List Nat} {acc : Nat} (h : CarryGaps ratios acc) :
    ∀ ratio ∈ ratios, ratio ≤ unitPrice := by
  induction ratios generalizing acc with
  | nil => simp
  | cons ratio rest ih =>
    intro m hm
    cases List.mem_cons.1 hm with
    | inl h0 => exact h0 ▸ h.2.1
    | inr h0 => exact ih h.2.2.2 m h0

/-- Adding one to `n` flips its low run of ones. While the run lasts, the one product collects its
ratios in `acc` and the other has none; at the zero that ends it both go on with the same bits. -/
theorem ratioProduct_succ_add_two_le {ratios : List Nat} {acc n : Nat}
    (h : CarryGaps ratios acc) (hn : n + 1 < 2 ^ ratios.length) :
    ratioProduct (n + 1) ratios unitPrice + 2 ≤ ratioProduct n ratios acc := by
  induction ratios generalizing acc n with
  | nil => simp at hn
  | cons ratio rest ih =>
    obtain ⟨hacc, hunit, hgap, hrest⟩ := h
    have hone : unitPrice * ratio / unitPrice = ratio := Nat.mul_div_cancel_left _ unitPrice_pos
    rw [List.length_cons, Nat.pow_succ] at hn
    simp only [ratioProduct, hone]
    rcases Nat.mod_two_eq_zero_or_one n with h0 | h1
    · rw [if_neg (show ¬ n % 2 = 1 by omega), if_pos (show (n + 1) % 2 = 1 by omega),
        show (n + 1) / 2 = n / 2 by omega]
      have hsum := ratioProduct_add_le (n / 2) rest (show ratio + (acc - ratio) ≤ acc by omega)
      have hleft := shrink_le_ratioProduct (n / 2) hrest.ratio_le (le_refl (acc - ratio))
      omega
    · rw [if_pos h1, if_neg (show ¬ (n + 1) % 2 = 1 by omega),
        show (n + 1) / 2 = n / 2 + 1 by omega]
      exact ih hrest (by omega)

theorem carryGaps_bitRatios : CarryGaps bitRatios unitPrice := by decide

/-- The inverse price of a positive tick, and the price of its negative. -/
def ratio (n : Nat) : Nat := ratioProduct n bitRatios unitPrice

theorem ratio_succ_add_two_le {n : Nat} (hn : n < 443636) : ratio (n + 1) + 2 ≤ ratio n :=
  ratioProduct_succ_add_two_le carryGaps_bitRatios (by
    have : 2 ^ bitRatios.length = 524288 := by decide
    omega)

theorem ratio_zero : ratio 0 = unitPrice := by decide

theorem ratio_le_unitPrice {n : Nat} (hn : n ≤ 443636) : ratio n ≤ unitPrice := by
  induction n with
  | zero => exact ratio_zero.le
  | succ n ih =>
    have := ratio_succ_add_two_le (show n < 443636 by omega)
    have := ih (by omega)
    omega

theorem ratio_pos {n : Nat} (hn : n ≤ 443636) : 0 < ratio n := by
  rcases Nat.lt_or_eq_of_le hn with h | rfl
  · have := ratio_succ_add_two_le h
    omega
  · decide

theorem sqrtPrice_neg (n : Nat) : sqrtPrice (-n) = ratio n := by
  simp [sqrtPrice, ratio]

theorem sqrtPrice_pos_tick (n : Nat) : sqrtPrice (n + 1) = (((1 <<< 128) - 1) / ratio (n + 1) : Nat) := by
  have h : 0 < (n : Int) + 1 := by omega
  have habs : ((n : Int) + 1).natAbs = n + 1 := by omega
  simp only [sqrtPrice, h, habs, ratio, if_true]

/-- The inverses of two ratios that differ by two differ by one, as no ratio is above the unit. -/
theorem div_add_one_le_div {low high : Nat} (hlow : 0 < low) (h : low + 2 ≤ high)
    (hhigh : high ≤ unitPrice) : ((1 <<< 128) - 1) / high + 1 ≤ ((1 <<< 128) - 1) / low := by
  rw [Nat.le_div_iff_mul_le hlow]
  have hfit : ((1 <<< 128) - 1) / high * high ≤ 2 ^ 128 - 1 := Nat.div_mul_le_self _ _
  have hlarge : ((1 <<< 128) - 1) / unitPrice ≤ ((1 <<< 128) - 1) / high :=
    Nat.div_le_div_left hhigh (by omega)
  have hunit : ((1 <<< 128) - 1) / unitPrice = unitPrice - 1 := by decide
  have hpos := unitPrice_pos
  generalize ((1 <<< 128) - 1) / high = q at hfit hlarge ⊢
  have hmul : (q + 1) * low ≤ (q + 1) * (high - 2) := Nat.mul_le_mul_left _ (by omega)
  have hexpand : (q + 1) * (high - 2) + (2 * q + 2) = q * high + high := by
    obtain ⟨rest, rfl⟩ := Nat.exists_eq_add_of_le (show 2 ≤ high by omega)
    rw [Nat.add_sub_cancel_left]
    ring
  omega

theorem sqrtPrice_lt_succ {tick : Int} (hlow : minTick ≤ tick) (hhigh : tick < maxTick) :
    sqrtPrice tick < sqrtPrice (tick + 1) := by
  simp only [minTick, maxTick] at hlow hhigh
  rcases Int.lt_trichotomy tick 0 with hneg | rfl | hpos
  · obtain ⟨n, rfl⟩ : ∃ n : Nat, tick = -((n + 1 : Nat) : Int) := ⟨(-tick - 1).toNat, by omega⟩
    rw [show -((n + 1 : Nat) : Int) + 1 = -(n : Int) by omega, sqrtPrice_neg, sqrtPrice_neg]
    have := ratio_succ_add_two_le (show n < 443636 by omega)
    omega
  · decide
  · obtain ⟨n, rfl⟩ : ∃ n : Nat, tick = (n : Int) + 1 := ⟨(tick - 1).toNat, by omega⟩
    rw [show (n : Int) + 1 + 1 = ((n + 1 : Nat) : Int) + 1 by omega, sqrtPrice_pos_tick,
      sqrtPrice_pos_tick]
    have := div_add_one_le_div (ratio_pos (show n + 1 + 1 ≤ 443636 by omega))
      (ratio_succ_add_two_le (by omega)) (ratio_le_unitPrice (by omega))
    omega

theorem sqrtPrice_lt_sqrtPrice {a b : Int} (ha : minTick ≤ a) (hab : a < b) (hb : b ≤ maxTick) :
    sqrtPrice a < sqrtPrice b := by
  have hmono : StrictMonoOn sqrtPrice (Set.Icc minTick maxTick) := by
    refine strictMonoOn_of_lt_succ Set.ordConnected_Icc fun tick _ htick hsucc => ?_
    rw [Int.succ_eq_succ] at *
    exact sqrtPrice_lt_succ htick.1 (Int.lt_of_add_one_le hsucc.2)
  exact hmono ⟨ha, hab.le.trans hb⟩ ⟨ha.trans hab.le, hb⟩ hab

theorem sqrtPrice_le_sqrtPrice {a b : Int} (ha : minTick ≤ a) (hab : a ≤ b) (hb : b ≤ maxTick) :
    sqrtPrice a ≤ sqrtPrice b := by
  rcases hab.lt_or_eq with hlt | rfl
  · exact (sqrtPrice_lt_sqrtPrice ha hlt hb).le
  · exact le_rfl

theorem sqrtPrice_minTick : sqrtPrice minTick = minSqrtPrice := by decide

theorem sqrtPrice_maxTick : sqrtPrice maxTick = maxSqrtPrice := by decide

theorem minSqrtPrice_le_sqrtPrice {tick : Int} (hlow : minTick ≤ tick) (hhigh : tick ≤ maxTick) :
    minSqrtPrice ≤ sqrtPrice tick :=
  sqrtPrice_minTick ▸ sqrtPrice_le_sqrtPrice le_rfl hlow hhigh

theorem sqrtPrice_pos {tick : Int} (hlow : minTick ≤ tick) (hhigh : tick ≤ maxTick) :
    0 < sqrtPrice tick :=
  (by decide : 0 < minSqrtPrice).trans_le (minSqrtPrice_le_sqrtPrice hlow hhigh)

theorem exists_atSqrtPrice {s : Int} (hmin : minSqrtPrice ≤ s) (hmax : s < maxSqrtPrice) :
    ∃ tick, atSqrtPrice? s = .ok tick :=
  ⟨_, if_neg (by omega)⟩

theorem sqrtPrice?_eq {tick : Int} (hlow : minTick ≤ tick) (hhigh : tick ≤ maxTick) :
    sqrtPrice? tick = .ok (sqrtPrice tick) :=
  if_neg (by omega)

/-- A bisection that fails at a middle outside the tick bounds. -/
def bisect? (s lower upper : Int) : Checked (Int × Int) :=
  if h : 1 < upper - lower then do
    let price ← sqrtPrice? ((lower + upper) / 2)
    if price ≤ s then bisect? s ((lower + upper) / 2) upper
    else bisect? s lower ((lower + upper) / 2)
  else .ok (lower, upper)
termination_by (upper - lower).toNat
decreasing_by all_goals omega

theorem bisect_of_wide {s lower upper : Int} (hwide : 1 < upper - lower) :
    bisect s lower upper = if sqrtPrice ((lower + upper) / 2) ≤ s
      then bisect s ((lower + upper) / 2) upper else bisect s lower ((lower + upper) / 2) := by
  rw [bisect, dif_pos hwide]

/-- Between tick bounds, every middle is a tick. -/
theorem bisect?_eq (s : Int) {lower upper : Int} (hlower : minTick ≤ lower)
    (hupper : upper ≤ maxTick) : bisect? s lower upper = .ok (bisect s lower upper) := by
  induction lower, upper using bisect.induct s with
  | case1 lower upper hwide middle hle ih =>
    rw [bisect?, dif_pos hwide, sqrtPrice?_eq (by omega) (by omega), bisect_of_wide hwide]
    exact (if_pos hle).trans ((ih (by omega) hupper).trans (congrArg _ (if_pos hle).symm))
  | case2 lower upper hwide middle hgt ih =>
    rw [bisect?, dif_pos hwide, sqrtPrice?_eq (by omega) (by omega), bisect_of_wide hwide]
    exact (if_neg hgt).trans ((ih hlower (by omega)).trans (congrArg _ (if_neg hgt).symm))
  | case3 lower upper hnarrow => rw [bisect?, dif_neg hnarrow, bisect, dif_neg hnarrow]

theorem bisect_inside (s : Int) {lower upper : Int} (h : lower ≤ upper) :
    lower ≤ (bisect s lower upper).2 ∧ (bisect s lower upper).2 ≤ upper := by
  induction lower, upper using bisect.induct s with
  | case1 lower upper hwide middle hle ih =>
    rw [bisect_of_wide hwide, if_pos hle]
    obtain ⟨hmin, hmax⟩ := ih (by omega)
    exact ⟨le_trans (by omega) hmin, hmax⟩
  | case2 lower upper hwide middle hgt ih =>
    rw [bisect_of_wide hwide, if_neg hgt]
    obtain ⟨hmin, hmax⟩ := ih (by omega)
    exact ⟨hmin, hmax.trans (by omega)⟩
  | case3 lower upper hnarrow =>
    rw [bisect, dif_neg hnarrow]
    exact ⟨h, le_rfl⟩

/-- The search for the tick of a square-root price, failing at each tick outside the bounds that it
asks the price of. -/
def searchSqrtPrice? (s : Int) : Checked Int :=
  if s < minSqrtPrice ∨ maxSqrtPrice ≤ s then .error (.argument (.sqrtPriceOutOfRange s))
  else do
    let (lower, upper) ← bisect? s minTick maxTick
    let price ← sqrtPrice? upper
    pure (if price ≤ s then upper else lower)

/-- The search asks for prices of ticks in bounds only. -/
theorem searchSqrtPrice?_eq (s : Int) : searchSqrtPrice? s = atSqrtPrice? s := by
  have hrange : minTick ≤ maxTick := by decide
  obtain ⟨hmin, hmax⟩ := bisect_inside s hrange
  unfold searchSqrtPrice? atSqrtPrice?
  rw [bisect?_eq s le_rfl le_rfl]
  change (if _ then _ else sqrtPrice? (bisect s minTick maxTick).2 >>= _) = _
  rw [sqrtPrice?_eq hmin hmax]
  rfl

end PoolSwap.Tick
