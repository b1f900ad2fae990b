import PoolSwap.Number.Decimal
import PoolSwap.Proofs.Rounding
import Mathlib.Algebra.Order.Floor.Ring
import Mathlib.Algebra.Order.Field.Power
import Mathlib.Data.Nat.Digits.Defs
import Mathlib.Data.Rat.Floor

/-! Decimals as rationals. Rounding to 28 digits never passes a number that has so few digits, keeps
the order of numbers and moves none by more than half a unit of the last digit. -/
namespace PoolSwap

section RoundHalfEven

variable {num den num' den' k : Nat}

theorem roundHalfEven_le (h : num ≤ k * den) : roundHalfEven num den ≤ k := by
  rcases Nat.eq_zero_or_pos den with rfl | hden
  · simp_all [roundHalfEven]
  have hwhole : num / den ≤ k := Nat.div_le_of_le_mul (by rwa [Nat.mul_comm])
  rcases hwhole.lt_or_eq with hlt | heq
  · unfold roundHalfEven
    dsimp only
    split_ifs <;> omega
  · -- The quotient is all of `k`, so nothing is left to round.
    have hexact := Nat.div_add_mod num den
    rw [heq, Nat.mul_comm] at hexact
    have hrest : num % den = 0 := by omega
    simp [roundHalfEven, hrest, hden, heq]

theorem le_roundHalfEven (hden : 0 < den) (h : k * den ≤ num) : k ≤ roundHalfEven num den := by
  have hwhole : k ≤ num / den := (Nat.le_div_iff_mul_le hden).2 h
  unfold roundHalfEven
  dsimp only
  split_ifs <;> omega

/-- The rounded quotient is the quotient or the next integer, and never the farther of the two. -/
theorem roundHalfEven_cases (num den : Nat) :
    (roundHalfEven num den = num / den ∧ 2 * (num % den) ≤ den) ∨
      (roundHalfEven num den = num / den + 1 ∧ den ≤ 2 * (num % den)) := by
  unfold roundHalfEven
  dsimp only
  split_ifs <;> omega

theorem roundHalfEven_near (hden : 0 < den) (num : Nat) :
    2 * num ≤ (2 * roundHalfEven num den + 1) * den ∧
      2 * roundHalfEven num den * den ≤ 2 * num + den := by
  have hexact := Nat.div_add_mod num den
  have hlt := Nat.mod_lt num hden
  have hnonneg := Nat.zero_le (num % den)
  rcases roundHalfEven_cases num den with ⟨heq, hrest⟩ | ⟨heq, hrest⟩ <;> rw [heq] <;>
    constructor <;> linarith

theorem roundHalfEven_le_roundHalfEven (hden : 0 < den) (hden' : 0 < den')
    (h : num * den' ≤ num' * den) : roundHalfEven num den ≤ roundHalfEven num' den' := by
  have hwhole : num / den ≤ num' / den' := by
    rw [Nat.le_div_iff_mul_le hden', ← Nat.mul_le_mul_right_iff hden, Nat.mul_right_comm]
    exact (Nat.mul_le_mul_right den' (Nat.div_mul_le_self num den)).trans h
  rcases hwhole.lt_or_eq with hlt | heq
  · unfold roundHalfEven
    dsimp only
    split_ifs <;> omega
  · -- With equal quotients the remainders decide, as shares of their divisors.
    have hrest : num % den * den' ≤ num' % den' * den := by
      have hnum : num * den' = den * den' * (num' / den') + num % den * den' := by
        rw [← heq]
        nth_rewrite 1 [← Nat.div_add_mod num den]
        ring
      have hnum' : num' * den = den * den' * (num' / den') + num' % den' * den := by
        nth_rewrite 1 [← Nat.div_add_mod num' den']
        ring
      omega
    have hlow : 2 * (num % den) < den ↔ 2 * (num % den * den') < den * den' := by
      rw [← Nat.mul_lt_mul_right hden', Nat.mul_assoc]
    have hlow' : 2 * (num' % den') < den' ↔ 2 * (num' % den' * den) < den * den' := by
      rw [← Nat.mul_lt_mul_right hden, Nat.mul_assoc, Nat.mul_comm den' den]
    have hhigh : den < 2 * (num % den) ↔ den * den' < 2 * (num % den * den') := by
      rw [← Nat.mul_lt_mul_right hden', Nat.mul_assoc]
    have hhigh' : den' < 2 * (num' % den') ↔ den * den' < 2 * (num' % den' * den) := by
      rw [← Nat.mul_lt_mul_right hden, Nat.mul_assoc, Nat.mul_comm den' den]
    unfold roundHalfEven
    simp only [hlow, hlow', hhigh, hhigh', heq]
    split_ifs <;> omega

end RoundHalfEven

theorem digitCount_le_iff {n k : Nat} (hk : 0 < k) : digitCount n ≤ k ↔ n < 10 ^ k :=
  Nat.length_toDigits_le_iff (by decide) hk

theorem lt_digitCount_pow {k : Nat} (hk : 0 < k) : k < digitCount (Nat.pow 10 k) :=
  Nat.lt_of_not_le fun h => Nat.lt_irrefl _ ((digitCount_le_iff hk).1 h)

namespace Decimal

def value (d : Decimal) : ℚ := d.coefficient * 10 ^ d.exponent

variable {d a b : Decimal} {c den k n : Nat} {place e : Int}

theorem value_nonneg_iff : 0 ≤ d.value ↔ 0 ≤ d.coefficient := by
  unfold value
  rw [mul_nonneg_iff_of_pos_right (by positivity), Int.cast_nonneg_iff]

theorem floor_eq (d : Decimal) : d.floor = ⌊d.value⌋ := by
  unfold floor value
  split
  case isTrue hexponent =>
    obtain ⟨m, hm⟩ := Int.eq_ofNat_of_zero_le hexponent
    rw [hm, Int.toNat_natCast, zpow_natCast]
    exact_mod_cast (Int.floor_intCast _).symm
  case isFalse hexponent =>
    obtain ⟨m, hm⟩ := Int.eq_ofNat_of_zero_le (show 0 ≤ -d.exponent by omega)
    have hpos : (0 : Int) < Nat.pow 10 m := by exact_mod_cast Nat.pow_pos (by decide)
    rw [show d.exponent = -(m : Int) by omega, neg_neg, Int.toNat_natCast, zpow_neg, zpow_natCast,
      floorDiv_eq_floor hpos, ← div_eq_mul_inv, Nat.pow_eq]
    push_cast
    rfl

theorem round_of_short (h : digitCount d.coefficient.natAbs ≤ precision) : d.round = d := by
  unfold round
  exact if_pos (Nat.sub_eq_zero_of_le h)

theorem round_nonneg (hd : 0 ≤ d.coefficient) : 0 ≤ d.round.coefficient := by
  unfold round
  dsimp only
  split
  · exact hd
  · rw [if_neg (not_lt.2 hd)]
    exact Int.natCast_nonneg _

/-- A number of more digits than are kept: `c / den` units of the last place that is, with all its
kept digits in the quotient. -/
structure Overflows (d : Decimal) (c den : Nat) (place : Int) : Prop where
  den_pos : 0 < den
  least : 10 ^ (precision - 1) * den ≤ c
  lt : c < 10 ^ precision * den
  value_eq : d.value * den = c * 10 ^ place
  round_eq : d.round.value = roundHalfEven c den * 10 ^ place

theorem overflows_of_digits {excess : Nat} (hc : d.coefficient = c) (hexcess : 0 < excess)
    (hlong : digitCount c = precision + excess) :
    d.Overflows c (10 ^ excess) (d.exponent + excess) where
  den_pos := Nat.pow_pos (by decide)
  least := by
    by_contra hlt
    rw [not_le, ← pow_add] at hlt
    have hle := (digitCount_le_iff (Nat.add_pos_right _ hexcess)).2 hlt
    have hprecision : 0 < precision := by decide
    omega
  lt := by
    rw [← pow_add]
    exact (digitCount_le_iff (Nat.add_pos_right _ hexcess)).1 hlong.le
  value_eq := by
    rw [value, hc, zpow_add₀ (by norm_num), zpow_natCast]
    push_cast
    ring
  round_eq := by
    have hcount : digitCount d.coefficient.natAbs - precision = excess := by
      rw [hc, Int.natAbs_natCast]
      omega
    have hround : d.round = ⟨roundHalfEven c (10 ^ excess), d.exponent + excess⟩ := by
      unfold round
      dsimp only
      rw [hcount, if_neg hexcess.ne', hc, if_neg (not_lt.2 (Int.natCast_nonneg c)),
        Int.natAbs_natCast]
      rfl
    rw [hround, value, Int.cast_natCast]

/-- A number either has few enough digits and stays, or is rounded to the digits that are kept. -/
theorem short_or_overflows (hd : 0 ≤ d.coefficient) :
    (∃ k : Nat, k < 10 ^ precision ∧ d.value = k * 10 ^ d.exponent ∧ d.round = d) ∨
      ∃ c den place, d.Overflows c den place := by
  obtain ⟨c, hc⟩ := Int.eq_ofNat_of_zero_le hd
  rcases le_or_gt (digitCount c) precision with hshort | hlong
  · exact .inl ⟨c, (digitCount_le_iff (by decide)).1 hshort, by rw [value, hc, Int.cast_natCast],
      round_of_short (by rwa [hc])⟩
  · obtain ⟨excess, hexcess⟩ := Nat.exists_eq_add_of_lt hlong
    exact .inr ⟨_, _, _, overflows_of_digits hc (Nat.succ_pos excess) hexcess⟩

/-- A multiple of a power of ten is one of every lesser power. -/
theorem exists_units (h : place ≤ e) (k : Nat) :
    ∃ j : Nat, (k : ℚ) * 10 ^ e = (k * 10 ^ j : Nat) * 10 ^ place := by
  obtain ⟨j, hj⟩ := Int.eq_ofNat_of_zero_le (sub_nonneg.2 h)
  refine ⟨j, ?_⟩
  rw [show e = j + place by omega, zpow_add₀ (by norm_num), zpow_natCast]
  push_cast
  ring

/-- Where the digits that are kept run out, the next power of ten begins. -/
theorem carry_le (h : place < e) :
    (10 ^ precision : ℚ) * 10 ^ place ≤ (10 ^ (precision - 1) : Nat) * 10 ^ e := by
  have hten : (10 : ℚ) ≠ 0 := by norm_num
  calc (10 : ℚ) ^ precision * 10 ^ place = 10 ^ (precision - 1) * 10 ^ (place + 1) := by
        rw [zpow_add₀ hten, zpow_one, show precision = precision - 1 + 1 from rfl, pow_succ,
          Nat.add_sub_cancel]
        ring
    _ ≤ (10 ^ (precision - 1) : Nat) * 10 ^ e := by
        push_cast
        gcongr
        · norm_num
        · omega

theorem lt_of_place_lt (hk : k < 10 ^ precision) (h : place < e) :
    (k : ℚ) * 10 ^ place < (10 ^ (precision - 1) : Nat) * 10 ^ e := by
  refine lt_of_lt_of_le ?_ (carry_le h)
  gcongr
  exact_mod_cast hk

namespace Overflows

variable (h : d.Overflows c den place)
include h

theorem value_le_iff : d.value ≤ k * 10 ^ place ↔ c ≤ k * den := by
  have hden : (0 : ℚ) < den := by exact_mod_cast h.den_pos
  rw [← mul_le_mul_iff_of_pos_right hden, h.value_eq, mul_right_comm,
    mul_le_mul_iff_of_pos_right (by positivity)]
  exact_mod_cast Iff.rfl

theorem le_value_iff : k * 10 ^ place ≤ d.value ↔ k * den ≤ c := by
  have hden : (0 : ℚ) < den := by exact_mod_cast h.den_pos
  rw [← mul_le_mul_iff_of_pos_right hden, h.value_eq, mul_right_comm,
    mul_le_mul_iff_of_pos_right (by positivity)]
  exact_mod_cast Iff.rfl

/-- A long number of a lesser place is below all long numbers of a greater one. -/
theorem value_lt (hlt : place < e) : d.value < (10 ^ (precision - 1) : Nat) * 10 ^ e := by
  have hden : (0 : ℚ) < den := by exact_mod_cast h.den_pos
  refine lt_of_lt_of_le ?_ (carry_le hlt)
  rw [← mul_lt_mul_iff_of_pos_right hden, h.value_eq, mul_right_comm]
  gcongr
  exact_mod_cast h.lt

end Overflows

/-- Rounding never passes a number of at most 28 digits. -/
theorem round_value_le (hd : 0 ≤ d.coefficient) (hk : k < 10 ^ precision)
    (h : d.value ≤ k * 10 ^ e) : d.round.value ≤ k * 10 ^ e := by
  rcases short_or_overflows hd with ⟨_, -, -, hround⟩ | ⟨c, den, place, hlong⟩
  · rwa [hround]
  · -- The rounded number is a multiple of a power of ten that divides the bound.
    have hplace : place ≤ e := by
      by_contra hlt
      have := (hlong.le_value_iff.2 hlong.least).trans h
      exact this.not_gt (lt_of_place_lt hk (not_le.1 hlt))
    obtain ⟨j, hj⟩ := exists_units hplace k
    rw [hj, hlong.value_le_iff] at h
    rw [hj, hlong.round_eq]
    gcongr
    exact roundHalfEven_le h

theorem le_round_value (hd : 0 ≤ d.coefficient) (hk : k < 10 ^ precision)
    (h : k * 10 ^ e ≤ d.value) : k * 10 ^ e ≤ d.round.value := by
  rcases short_or_overflows hd with ⟨_, -, -, hround⟩ | ⟨c, den, place, hlong⟩
  · rwa [hround]
  · rw [hlong.round_eq]
    rcases le_or_gt place e with hplace | hplace
    · obtain ⟨j, hj⟩ := exists_units hplace k
      rw [hj, hlong.le_value_iff] at h
      rw [hj]
      gcongr
      exact le_roundHalfEven hlong.den_pos h
    · refine (lt_of_place_lt hk hplace).le.trans ?_
      gcongr
      exact le_roundHalfEven hlong.den_pos hlong.least

/-- A number that has a form of at most 28 digits keeps its value. -/
theorem round_value_of_fits (hd : 0 ≤ d.coefficient) (hk : k < 10 ^ precision)
    (h : d.value = k * 10 ^ e) : d.round.value = k * 10 ^ e :=
  le_antisymm (round_value_le hd hk h.le) (le_round_value hd hk h.ge)

/-- Rounding keeps the order of numbers, however many digits each of them has. -/
theorem round_value_le_round_value (ha : 0 ≤ a.coefficient) (hb : 0 ≤ b.coefficient)
    (h : a.value ≤ b.value) : a.round.value ≤ b.round.value := by
  rcases short_or_overflows ha with ⟨k, hk, heq, hround⟩ | ⟨c, den, place, hlong⟩
  · rw [hround, heq]
    exact le_round_value hb hk (heq ▸ h)
  rcases short_or_overflows hb with ⟨k, hk, heq, hround⟩ | ⟨c', den', place', hlong'⟩
  · rw [hround, heq]
    exact round_value_le ha hk (heq ▸ h)
  rcases lt_trichotomy place place' with hlt | rfl | hlt
  · -- The least long number of the greater place is short, so both roundings stop at it.
    exact (round_value_le ha (by decide) (hlong.value_lt hlt).le).trans
      (le_round_value hb (by decide) (hlong'.le_value_iff.2 hlong'.least))
  · have hden : (0 : ℚ) < den := by exact_mod_cast hlong.den_pos
    have hden' : (0 : ℚ) < den' := by exact_mod_cast hlong'.den_pos
    have hvalues : (c * 10 ^ place * den' : ℚ) ≤ c' * 10 ^ place * den := by
      rw [← hlong.value_eq, ← hlong'.value_eq, mul_right_comm]
      gcongr
    rw [mul_right_comm, mul_right_comm (c' : ℚ),
      mul_le_mul_iff_of_pos_right (by positivity)] at hvalues
    rw [hlong.round_eq, hlong'.round_eq]
    gcongr
    exact roundHalfEven_le_roundHalfEven hlong.den_pos hlong'.den_pos (by exact_mod_cast hvalues)
  · exact absurd ((hlong.le_value_iff.2 hlong.least).trans h) (not_le.2 (hlong'.value_lt hlt))

/-- Rounding moves a number by half a unit of its last kept digit at most. -/
theorem abs_round_value_sub_le (hd : 0 ≤ d.coefficient) :
    |d.round.value - d.value| * (2 * 10 ^ (precision - 1)) ≤ d.value := by
  rcases short_or_overflows hd with ⟨k, -, heq, hround⟩ | ⟨c, den, place, hlong⟩
  · rw [hround, sub_self, abs_zero, zero_mul, heq]
    positivity
  · have hden : (0 : ℚ) < den := by exact_mod_cast hlong.den_pos
    have hvalue : d.value = c / den * 10 ^ place := by
      rw [div_mul_eq_mul_div, ← hlong.value_eq, mul_div_cancel_right₀ _ hden.ne']
    have hnear : |(roundHalfEven c den : ℚ) - c / den| ≤ 1 / 2 := by
      obtain ⟨hlow, hhigh⟩ := roundHalfEven_near hlong.den_pos c
      have hlow : (2 * c : ℚ) ≤ (2 * roundHalfEven c den + 1) * den := by exact_mod_cast hlow
      have hhigh : (2 * roundHalfEven c den * den : ℚ) ≤ 2 * c + den := by exact_mod_cast hhigh
      rw [abs_le, le_sub_iff_add_le, sub_le_iff_le_add, ← sub_le_iff_le_add',
        le_div_iff₀ hden, ← le_sub_iff_add_le', div_le_iff₀ hden]
      constructor <;> linarith
    calc |d.round.value - d.value| * (2 * 10 ^ (precision - 1))
        = |(roundHalfEven c den : ℚ) - c / den| * 10 ^ place * (2 * 10 ^ (precision - 1)) := by
          rw [hlong.round_eq, hvalue, ← sub_mul, abs_mul,
            abs_of_pos (show (0 : ℚ) < 10 ^ place by positivity)]
      _ ≤ 1 / 2 * 10 ^ place * (2 * 10 ^ (precision - 1)) := by gcongr
      _ = (10 ^ (precision - 1) : Nat) * 10 ^ place := by
          push_cast
          ring
      _ ≤ d.value := hlong.le_value_iff.2 hlong.least

/-- A number is at least one as the place of its first digit shows. -/
theorem atLeastOne_iff : d.atLeastOne = true ↔ 1 ≤ d.value := by
  unfold atLeastOne value
  split
  case isTrue hneg =>
    refine ⟨nofun, fun h => ?_⟩
    have hneg : (d.coefficient : ℚ) ≤ 0 := by exact_mod_cast hneg
    have := mul_nonpos_of_nonpos_of_nonneg hneg (show (0 : ℚ) ≤ 10 ^ d.exponent by positivity)
    linarith
  case isFalse hpos =>
    have hone : (1 : ℚ) ≤ d.coefficient := by exact_mod_cast not_le.1 hpos
    split
    case isTrue hexponent =>
      refine ⟨fun _ => ?_, fun _ => rfl⟩
      exact one_le_mul_of_one_le_of_one_le hone (one_le_zpow₀ (by norm_num) hexponent)
    case isFalse hexponent =>
      obtain ⟨m, hm⟩ := Int.eq_ofNat_of_zero_le (show 0 ≤ -d.exponent by omega)
      have hdigits : d.coefficient.natAbs < 10 ^ m ↔ digitCount d.coefficient.natAbs ≤ m :=
        (digitCount_le_iff (by omega)).symm
      have hcoefficient : (10 ^ m : ℚ) ≤ d.coefficient ↔ 10 ^ m ≤ d.coefficient.natAbs := by
        rw [← Int.natAbs_of_nonneg (show 0 ≤ d.coefficient by omega), Int.cast_natCast,
          Int.natAbs_natCast]
        exact_mod_cast Iff.rfl
      rw [decide_eq_true_iff, show d.exponent = -(m : Int) by omega, zpow_neg, zpow_natCast,
        ← div_eq_mul_inv, le_div_iff₀ (by positivity), one_mul, hcoefficient, ← not_lt, hdigits]
      omega

/-- A positive number below one is its coefficient over a power of ten. -/
theorem exists_places (hpos : 0 < d.coefficient) (h : d.value < 1) :
    ∃ c n : Nat, d.coefficient = c ∧ d.exponent = -(n : Int) ∧ 0 < c ∧ c < 10 ^ n := by
  obtain ⟨c, hc⟩ := Int.eq_ofNat_of_zero_le hpos.le
  rw [value, hc, Int.cast_natCast] at h
  have hone : (1 : ℚ) ≤ c := by exact_mod_cast (show 1 ≤ c by omega)
  have hexponent : d.exponent < 0 := by
    by_contra hnonneg
    exact absurd h (not_lt.2 (one_le_mul_of_one_le_of_one_le hone
      (one_le_zpow₀ (by norm_num) (not_lt.1 hnonneg))))
  obtain ⟨n, hn⟩ := Int.eq_ofNat_of_zero_le (show 0 ≤ -d.exponent by omega)
  have hn : d.exponent = -(n : Int) := by omega
  refine ⟨c, n, hc, hn, by omega, ?_⟩
  rw [hn, zpow_neg, zpow_natCast, ← div_eq_mul_inv, div_lt_one (by positivity)] at h
  exact_mod_cast h

/-- What a number below `10 ^ -30` leaves of one rounds to one. -/
theorem round_value_of_nearly_one {m : Nat} (hpos : 0 < c) (hsmall : c < 10 ^ m) :
    (round ⟨(10 ^ (m + 30) - c : Nat), -(m + 30 : Nat)⟩).value = 1 := by
  have hten : 10 ^ (m + 30) = 10 ^ precision * 10 ^ (m + 2) := by
    rw [← pow_add, show precision + (m + 2) = m + 30 by simp only [precision]; omega]
  have hlast : 10 ^ (m + 30) = 10 * 10 ^ (m + 29) := by rw [← pow_succ']
  have hgrow : 10 ^ m ≤ 10 ^ (m + 29) := Nat.pow_le_pow_right (by decide) (by omega)
  have hunit : 10 ^ (m + 2) = 100 * 10 ^ m := by ring
  have hdigits : digitCount (10 ^ (m + 30) - c) = precision + (m + 2) := by
    have hle := (digitCount_le_iff (n := 10 ^ (m + 30) - c) (show 0 < m + 30 by omega)).2 (by omega)
    have hnot := mt (digitCount_le_iff (n := 10 ^ (m + 30) - c) (show 0 < m + 29 by omega)).1
      (by omega)
    simp only [precision]
    omega
  have hlong := overflows_of_digits
    (d := ⟨(10 ^ (m + 30) - c : Nat), -(m + 30 : Nat)⟩) rfl (by omega) hdigits
  have hround : roundHalfEven (10 ^ (m + 30) - c) (10 ^ (m + 2)) = 10 ^ precision := by
    refine le_antisymm (roundHalfEven_le (by omega)) ?_
    obtain ⟨hnear, -⟩ := roundHalfEven_near hlong.den_pos (10 ^ (m + 30) - c)
    by_contra hlt
    have hbound := Nat.mul_le_mul_right (10 ^ (m + 2)) (show
      2 * roundHalfEven (10 ^ (m + 30) - c) (10 ^ (m + 2)) + 1 ≤ 2 * 10 ^ precision - 1 by omega)
    rw [Nat.sub_mul, Nat.mul_assoc 2, ← hten] at hbound
    omega
  have hplace : (-(m + 30 : Nat) + (m + 2 : Nat) : Int) = -(precision : Nat) := by
    simp only [precision]
    omega
  rw [hlong.round_eq, hround, hplace, zpow_neg, zpow_natCast, Nat.cast_pow, Nat.cast_ofNat,
    mul_inv_cancel₀ (by positivity)]

/-- The complement of a number is what it leaves of one, rounded once. -/
theorem exists_complement (hd : 0 ≤ d.value) (h : d.value < 1) : ∃ r : Decimal,
    0 ≤ r.coefficient ∧ r.value = 1 - d.value ∧ d.complement.value = r.round.value := by
  rcases (value_nonneg_iff.1 hd).eq_or_lt with hzero | hpos
  · refine ⟨⟨1, 0⟩, by decide, ?_, ?_⟩
    · simp [value, ← hzero]
    · rw [complement, if_pos (by simp [isNegligible, ← hzero])]
      rfl
  · obtain ⟨c, n, hc, hn, hcpos, hlt⟩ := exists_places hpos h
    have hcomplement : d.complement =
        if d.isNegligible then ⟨1, 0⟩ else round ⟨(10 ^ n - c : Nat), -n⟩ := by
      unfold complement
      rw [hc, hn, neg_neg, Int.toNat_natCast]
      push_cast [hlt.le]
      rfl
    refine ⟨⟨(10 ^ n - c : Nat), -n⟩, Int.natCast_nonneg _, ?_, ?_⟩
    · rw [value, value, hc, hn]
      push_cast [hlt.le]
      rw [sub_mul, zpow_neg, zpow_natCast, mul_inv_cancel₀ (by positivity)]
    · rw [hcomplement]
      split
      case isTrue hneg =>
        have hsmall : -(n : Int) + digitCount c < -(precision : Int) - 1 := by
          simpa [isNegligible, hc, hn, hcpos.ne'] using hneg
        have hcount : 0 < digitCount c := Nat.length_toDigits_pos
        simp only [precision] at hsmall
        obtain ⟨m, rfl⟩ : ∃ m, n = m + 30 := ⟨n - 30, by omega⟩
        rw [round_value_of_nearly_one hcpos ((digitCount_le_iff (by omega)).1 (by omega))]
        simp [value]
      case isFalse => rfl

theorem complement_value_nonneg (hd : 0 ≤ d.value) (h : d.value < 1) : 0 ≤ d.complement.value := by
  obtain ⟨r, hr, -, heq⟩ := exists_complement hd h
  rw [heq]
  exact value_nonneg_iff.2 (round_nonneg hr)

theorem complement_value_le_one (hd : 0 ≤ d.value) (h : d.value < 1) : d.complement.value ≤ 1 := by
  obtain ⟨r, hr, hvalue, heq⟩ := exists_complement hd h
  have hle : r.value ≤ (1 : Nat) * 10 ^ (0 : Int) := by
    rw [hvalue]
    simpa using hd
  simpa [heq] using round_value_le hr (by decide) hle

/-- The greater of two numbers leaves the lesser complement. -/
theorem complement_value_anti (ha : 0 ≤ a.value) (hab : a.value ≤ b.value) (hb : b.value < 1) :
    b.complement.value ≤ a.complement.value := by
  obtain ⟨r, hr, hvalue, heq⟩ := exists_complement ha (hab.trans_lt hb)
  obtain ⟨r', hr', hvalue', heq'⟩ := exists_complement (ha.trans hab) hb
  rw [heq, heq']
  refine round_value_le_round_value hr' hr ?_
  rw [hvalue, hvalue']
  exact sub_le_sub_left hab 1

theorem abs_complement_value_sub_le (hd : 0 ≤ d.value) (h : d.value < 1) :
    |d.complement.value - (1 - d.value)| * (2 * 10 ^ (precision - 1)) ≤ 1 - d.value := by
  obtain ⟨r, hr, hvalue, heq⟩ := exists_complement hd h
  rw [heq, ← hvalue]
  exact abs_round_value_sub_le hr

/-- What fits in 28 digits is left exactly. -/
theorem complement_value_of_fits (hd : 0 ≤ d.value) (h : d.value < 1) (hk : k < 10 ^ precision)
    (heq : 1 - d.value = k * 10 ^ e) : d.complement.value = 1 - d.value := by
  obtain ⟨r, hr, hvalue, hround⟩ := exists_complement hd h
  rw [hround, heq]
  exact round_value_of_fits hr hk (hvalue.trans heq)

end Decimal
end PoolSwap
