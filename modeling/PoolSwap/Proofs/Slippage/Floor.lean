import PoolSwap.Proofs.Number.Decimal
import PoolSwap.Slippage

/-! The least accepted output of a slippage, as the floor of a product that is rounded twice. It lies
between nothing and the output, grows with the output and shrinks as the slippage grows, and it is
exact where 28 digits are enough. -/
namespace PoolSwap.Slippage

variable {s t : Decimal} {slippage : Scalar} {n m least : Int}

/-- The accepted slippages are those whose text denotes a decimal in `[0, 1)`. -/
theorem fraction?_eq_some_iff : fraction? slippage = some s ↔
    Decimal.ofText? slippage.plainText = some s ∧ 0 ≤ s.value ∧ s.value < 1 := by
  have hinside (d : Decimal) : (d.coefficient < 0 ∨ d.atLeastOne) ↔ ¬(0 ≤ d.value ∧ d.value < 1) := by
    rw [Decimal.atLeastOne_iff, Decimal.value_nonneg_iff, not_and_or, not_le, not_lt]
  refine Option.bind_eq_some_iff.trans ⟨?_, ?_⟩
  · rintro ⟨d, htext, h⟩
    split at h
    case isTrue => cases h
    case isFalse hd =>
      cases h
      exact ⟨htext, not_not.1 (mt (hinside _).2 hd)⟩
  · rintro ⟨htext, hvalue⟩
    exact ⟨s, htext, if_neg (mt (hinside s).1 (not_not.2 hvalue))⟩

theorem apply_eq (h : fraction? slippage = some s) (n : Int) :
    apply n slippage = .ok (floorOf n s) := by
  unfold apply
  rw [h]

theorem exists_apply (h : (fraction? slippage).isSome) (amount : Int) :
    ∃ least, apply amount slippage = .ok least := by
  obtain ⟨s, hs⟩ := Option.isSome_iff_exists.1 h
  exact ⟨_, apply_eq hs amount⟩

theorem exists_fraction (h : apply n slippage = .ok least) :
    ∃ s, fraction? slippage = some s ∧ least = floorOf n s := by
  unfold apply at h
  split at h
  case h_1 s hs =>
    cases h
    exact ⟨s, hs, rfl⟩
  case h_2 => cases h

theorem floorOf_zero (s : Decimal) : floorOf 0 s = 0 := by
  unfold floorOf Decimal.mul
  have hshort : digitCount (0 : Int).natAbs ≤ Decimal.precision := by decide
  rw [Decimal.ofInt, zero_mul, Decimal.round_of_short hshort]
  simp [Decimal.floor, floorDiv]

theorem apply_zero (h : apply 0 slippage = .ok least) : least = 0 := by
  obtain ⟨s, -, rfl⟩ := exists_fraction h
  exact floorOf_zero s

section Floor

variable (hs : 0 ≤ s.value) (hlt : s.value < 1) (hn : 0 ≤ n)
include hs hlt hn

/-- The second rounding is that of the amount times the rounded complement. -/
theorem exists_product : ∃ p : Decimal, 0 ≤ p.coefficient ∧ p.value = n * s.complement.value ∧
    floorOf n s = ⌊p.round.value⌋ := by
  refine ⟨⟨n * s.complement.coefficient, 0 + s.complement.exponent⟩, ?_, ?_, Decimal.floor_eq _⟩
  · exact mul_nonneg hn (Decimal.value_nonneg_iff.1 (Decimal.complement_value_nonneg hs hlt))
  · rw [Decimal.value, Decimal.value, zero_add, Int.cast_mul, mul_assoc]

theorem floorOf_nonneg : 0 ≤ floorOf n s := by
  obtain ⟨p, hp, -, heq⟩ := exists_product hs hlt hn
  rw [heq]
  exact Int.floor_nonneg.2 (Decimal.value_nonneg_iff.2 (Decimal.round_nonneg hp))

theorem floorOf_le (hdigits : n < 10 ^ Decimal.precision) : floorOf n s ≤ n := by
  obtain ⟨p, hp, hvalue, heq⟩ := exists_product hs hlt hn
  obtain ⟨k, rfl⟩ := Int.eq_ofNat_of_zero_le hn
  have hle : p.value ≤ k * 10 ^ (0 : Int) := by
    rw [hvalue, zpow_zero, Int.cast_natCast]
    exact mul_le_mul_of_nonneg_left (Decimal.complement_value_le_one hs hlt) (Nat.cast_nonneg k)
  have hround := Decimal.round_value_le hp (by exact_mod_cast hdigits) hle
  rw [zpow_zero, mul_one] at hround
  rw [heq]
  exact (Int.floor_mono hround).trans_eq (Int.floor_natCast k)

theorem floorOf_mono (hnm : n ≤ m) : floorOf n s ≤ floorOf m s := by
  obtain ⟨p, hp, hvalue, heq⟩ := exists_product hs hlt hn
  obtain ⟨p', hp', hvalue', heq'⟩ := exists_product hs hlt (hn.trans hnm)
  rw [heq, heq']
  refine Int.floor_mono (Decimal.round_value_le_round_value hp hp' ?_)
  rw [hvalue, hvalue']
  exact mul_le_mul_of_nonneg_right (by exact_mod_cast hnm)
    (Decimal.complement_value_nonneg hs hlt)

/-- Where the share that is left and the product have at most 28 digits, nothing is rounded. -/
theorem floorOf_of_fits {k : Nat} {e : Int} (hk : 1 - s.value = k * 10 ^ e)
    (hfits : n * k < 10 ^ Decimal.precision) : floorOf n s = ⌊n * (1 - s.value)⌋ := by
  rcases hn.eq_or_lt with rfl | hpos
  · rw [floorOf_zero, Int.cast_zero, zero_mul, Int.floor_zero]
  · obtain ⟨p, hp, hvalue, heq⟩ := exists_product hs hlt hn
    obtain ⟨j, rfl⟩ := Int.eq_ofNat_of_zero_le hn
    have hfits : j * k < 10 ^ Decimal.precision := by exact_mod_cast hfits
    have hshort : k < 10 ^ Decimal.precision :=
      (Nat.le_mul_of_pos_left k (by exact_mod_cast hpos)).trans_lt hfits
    rw [Decimal.complement_value_of_fits hs hlt hshort hk, hk, ← mul_assoc] at hvalue
    rw [heq, hk, Decimal.round_value_of_fits hp hfits (by exact_mod_cast hvalue), ← mul_assoc]
    push_cast
    rfl

end Floor

theorem floorOf_anti (hs : 0 ≤ s.value) (hst : s.value ≤ t.value) (ht : t.value < 1) (hn : 0 ≤ n) :
    floorOf n t ≤ floorOf n s := by
  obtain ⟨p, hp, hvalue, heq⟩ := exists_product hs (hst.trans_lt ht) hn
  obtain ⟨p', hp', hvalue', heq'⟩ := exists_product (hs.trans hst) ht hn
  rw [heq, heq']
  refine Int.floor_mono (Decimal.round_value_le_round_value hp' hp ?_)
  rw [hvalue, hvalue']
  exact mul_le_mul_of_nonneg_left (Decimal.complement_value_anti hs hst ht) (by exact_mod_cast hn)

/-- The least accepted output of an amount of at most 28 digits lies between zero and the amount. -/
theorem apply_inside (h : apply n slippage = .ok least) (hn : 0 ≤ n)
    (hdigits : n < 10 ^ Decimal.precision) : 0 ≤ least ∧ least ≤ n := by
  obtain ⟨s, hs, rfl⟩ := exists_fraction h
  obtain ⟨-, hnonneg, hlt⟩ := fraction?_eq_some_iff.1 hs
  exact ⟨floorOf_nonneg hnonneg hlt hn, floorOf_le hnonneg hlt hn hdigits⟩

end PoolSwap.Slippage
