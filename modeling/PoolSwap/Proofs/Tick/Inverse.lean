import PoolSwap.Proofs.Checked
import PoolSwap.Proofs.Tick.Order

/-! The tick of a square-root price. Bisection keeps the price between those of its two ends until
they are neighbours, and as tick prices are strictly increasing no other tick holds the price. -/
namespace PoolSwap.Tick

/-- Whether a square-root price lies in a tick: from its own price up to that of the next one. -/
def Holds (tick s : Int) : Prop := sqrtPrice tick ≤ s ∧ s < sqrtPrice (tick + 1)

instance (tick s : Int) : Decidable (Holds tick s) :=
  inferInstanceAs (Decidable (_ ∧ _))

/-- Two ticks with a square-root price between their prices. -/
structure Brackets (s lower upper : Int) : Prop where
  lt : lower < upper
  price_le : sqrtPrice lower ≤ s
  lt_price : s < sqrtPrice upper

variable {s s' tick tick' lower upper : Int}

/-- A bisection ends with neighbours inside its range that still have the price between them. -/
theorem Brackets.bisect (h : Brackets s lower upper) :
    Brackets s (bisect s lower upper).1 (bisect s lower upper).2 ∧
      (bisect s lower upper).2 = (bisect s lower upper).1 + 1 ∧
      lower ≤ (bisect s lower upper).1 ∧ (bisect s lower upper).2 ≤ upper := by
  induction lower, upper using Tick.bisect.induct s with
  | case1 lower upper hwide middle hle ih =>
    rw [bisect_of_wide hwide, if_pos hle]
    obtain ⟨hbrackets, hnext, hlow, hhigh⟩ := ih ⟨by omega, hle, h.lt_price⟩
    exact ⟨hbrackets, hnext, le_trans (by omega) hlow, hhigh⟩
  | case2 lower upper hwide middle hgt ih =>
    rw [bisect_of_wide hwide, if_neg hgt]
    obtain ⟨hbrackets, hnext, hlow, hhigh⟩ := ih ⟨by omega, h.price_le, not_le.1 hgt⟩
    exact ⟨hbrackets, hnext, hlow, hhigh.trans (by omega)⟩
  | case3 lower upper hnarrow =>
    have hlt := h.lt
    rw [Tick.bisect, dif_neg hnarrow]
    exact ⟨h, by dsimp only; omega, le_rfl, le_rfl⟩

/-- Of two prices in ticks, the lower one lies in the lower tick, or in the same one. -/
theorem Holds.le (h : Holds tick s) (h' : Holds tick' s') (hmax : tick < maxTick)
    (hmin : minTick ≤ tick') (hs : s ≤ s') : tick ≤ tick' := by
  by_contra hlt
  have hstep := sqrtPrice_le_sqrtPrice (show minTick ≤ tick' + 1 by omega)
    (show tick' + 1 ≤ tick by omega) hmax.le
  have hprice := h.1
  have hprice' := h'.2
  omega

theorem Holds.inRange (h : Holds tick s) (hmin : minTick ≤ tick) (hmax : tick < maxTick) :
    minSqrtPrice ≤ s ∧ s < maxSqrtPrice := by
  have hlow := minSqrtPrice_le_sqrtPrice hmin hmax.le
  have hhigh := sqrtPrice_le_sqrtPrice (show minTick ≤ tick + 1 by omega)
    (show tick + 1 ≤ maxTick by omega) le_rfl
  rw [sqrtPrice_maxTick] at hhigh
  exact ⟨hlow.trans h.1, h.2.trans_le hhigh⟩

theorem holds_sqrtPrice (hmin : minTick ≤ tick) (hmax : tick < maxTick) :
    Holds tick (sqrtPrice tick) :=
  ⟨le_rfl, sqrtPrice_lt_succ hmin hmax⟩

theorem atSqrtPrice?_eq_error_iff {f : Fault} : atSqrtPrice? s = .error f ↔
    (s < minSqrtPrice ∨ maxSqrtPrice ≤ s) ∧ f = .argument (.sqrtPriceOutOfRange s) := by
  unfold atSqrtPrice?
  split
  case isTrue hout =>
    rw [Except.error.injEq]
    exact ⟨fun h => ⟨hout, h.symm⟩, fun h => h.2.symm⟩
  case isFalse hin => exact iff_of_false nofun fun h => hin h.1

/-- A price in the supported range lies in the tick that the search comes to. -/
theorem exists_holds (hmin : minSqrtPrice ≤ s) (hmax : s < maxSqrtPrice) :
    ∃ tick, atSqrtPrice? s = .ok tick ∧ minTick ≤ tick ∧ tick < maxTick ∧ Holds tick s := by
  have hbounds : Brackets s minTick maxTick :=
    ⟨by decide, sqrtPrice_minTick.trans_le hmin, hmax.trans_eq sqrtPrice_maxTick.symm⟩
  obtain ⟨hends, hnext, hlow, hhigh⟩ := hbounds.bisect
  have hlt := hends.lt
  refine ⟨(Tick.bisect s minTick maxTick).1, ?_, hlow, by omega, hends.price_le,
    hnext ▸ hends.lt_price⟩
  unfold atSqrtPrice?
  rw [if_neg (not_or.2 ⟨not_lt.2 hmin, not_le.2 hmax⟩)]
  exact congrArg Except.ok (if_neg (not_le.2 hends.lt_price))

/-- The search finds the one tick that holds the price. -/
theorem atSqrtPrice?_eq_ok_iff :
    atSqrtPrice? s = .ok tick ↔ minTick ≤ tick ∧ tick < maxTick ∧ Holds tick s := by
  constructor
  · intro h
    have hin : ¬ (s < minSqrtPrice ∨ maxSqrtPrice ≤ s) := fun hout =>
      nomatch h.symm.trans (atSqrtPrice?_eq_error_iff.2 ⟨hout, rfl⟩)
    rw [not_or, not_lt, not_le] at hin
    obtain ⟨tick', hfound, hholds⟩ := exists_holds hin.1 hin.2
    obtain rfl := Except.ok.inj (hfound.symm.trans h)
    exact hholds
  · rintro ⟨hmin, hmax, hholds⟩
    obtain ⟨hlow, hhigh⟩ := hholds.inRange hmin hmax
    obtain ⟨tick', hfound, hmin', hmax', hholds'⟩ := exists_holds hlow hhigh
    have hle := hholds.le hholds' hmax hmin' le_rfl
    have hge := hholds'.le hholds hmax' hmin le_rfl
    rw [hfound, le_antisymm hle hge]

/-- Tick prices and the search for the tick of a price are inverse to each other. The prices are
strictly increasing over all ticks, between the two outermost ones. The search fails exactly outside
these, never for a price that it asks for on its way, and else finds the one tick that holds the
price, so it undoes the price of a tick and keeps the order of prices. -/
theorem search_inverts_sqrtPrice :
    (∀ a b, minTick ≤ a → a < b → b ≤ maxTick →
      ∃ low high, sqrtPrice? a = .ok low ∧ sqrtPrice? b = .ok high ∧ low < high) ∧
    sqrtPrice? minTick = .ok minSqrtPrice ∧ sqrtPrice? maxTick = .ok maxSqrtPrice ∧
    (∀ s f, searchSqrtPrice? s = .error f ↔
      (s < minSqrtPrice ∨ maxSqrtPrice ≤ s) ∧ f = .argument (.sqrtPriceOutOfRange s)) ∧
    (∀ s, atSqrtPrice? s = searchSqrtPrice? s) ∧
    (∀ s, minSqrtPrice ≤ s → s < maxSqrtPrice → ∃ tick, atSqrtPrice? s = .ok tick) ∧
    (∀ s tick, atSqrtPrice? s = .ok tick ↔ minTick ≤ tick ∧ tick < maxTick ∧ Holds tick s) ∧
    (∀ tick, minTick ≤ tick → tick < maxTick → (sqrtPrice? tick >>= atSqrtPrice?) = .ok tick) ∧
    (∀ s s' tick tick', s ≤ s' → atSqrtPrice? s = .ok tick → atSqrtPrice? s' = .ok tick' →
      tick ≤ tick') := by
  have hrange : minTick ≤ maxTick := by decide
  refine ⟨fun a b ha hab hb => ?_, ?_, ?_, fun s f => ?_, fun s => (searchSqrtPrice?_eq s).symm,
    fun s hmin hmax => ?_, fun s tick => atSqrtPrice?_eq_ok_iff, fun tick hmin hmax => ?_,
    fun s s' tick tick' hs htick htick' => ?_⟩
  · exact ⟨_, _, sqrtPrice?_eq ha (hab.le.trans hb), sqrtPrice?_eq (ha.trans hab.le) hb,
      sqrtPrice_lt_sqrtPrice ha hab hb⟩
  · rw [sqrtPrice?_eq le_rfl hrange, sqrtPrice_minTick]
  · rw [sqrtPrice?_eq hrange le_rfl, sqrtPrice_maxTick]
  · rw [searchSqrtPrice?_eq]
    exact atSqrtPrice?_eq_error_iff
  · exact exists_atSqrtPrice hmin hmax
  · exact Checked.bind_eq_ok.2 ⟨_, sqrtPrice?_eq hmin hmax.le,
      atSqrtPrice?_eq_ok_iff.2 ⟨hmin, hmax, holds_sqrtPrice hmin hmax⟩⟩
  · obtain ⟨-, hmax, hholds⟩ := atSqrtPrice?_eq_ok_iff.1 htick
    obtain ⟨hmin, -, hholds'⟩ := atSqrtPrice?_eq_ok_iff.1 htick'
    exact hholds.le hholds' hmax hmin hs

/-- The last prices of the lowest tick, where prices have 32 bits, and of the highest one. -/
theorem search_inverts_sqrtPrice_outermost :
    atSqrtPrice? 4295262762 = .ok (-443636) ∧ atSqrtPrice? 4295262763 = .ok (-443635) ∧
    atSqrtPrice? (maxSqrtPrice - 1) = .ok 443635 := by
  obtain ⟨-, -, -, -, -, -, hfound, -⟩ := search_inverts_sqrtPrice
  exact ⟨(hfound _ _).2 (by decide), (hfound _ _).2 (by decide), (hfound _ _).2 (by decide)⟩

end PoolSwap.Tick
