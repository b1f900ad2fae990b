import Mathlib
import PoolSwap.Proofs.Checked
import PoolSwap.Proofs.Number.Decimal
import PoolSwap.Tick.Price

/-! Doubles of moderate size. The double nearest to a ratio is not far above it, so ratios well below
the greatest double have one, and a price that an account holds becomes a double without a fault. -/
namespace PoolSwap

namespace Binary64

variable {num den k : Nat}

open Float.Model in
/-- The bits of a finite double are those it was made of. -/
theorem toBits_ofBits {bits : UInt64} (h : bits.toNat < 0x7ff <<< 52) :
    (Float.ofBits bits).toBits = bits := by
  have hnumber : @UnpackedFloat.isNaNBits Format.binary64 bits.toBitVec = false := by
    unfold UnpackedFloat.isNaNBits
    rw [decide_eq_false_iff_not]
    rintro ⟨hexponent, -⟩
    rw [UnpackedFloat.unpackExponent_def] at hexponent
    have hbits := congrArg BitVec.toNat hexponent
    rw [BitVec.extractLsb'_toNat] at hbits
    change bits.toNat >>> 52 % 2048 = 2047 at hbits
    omega
  have hpack := @UnpackedFloat.pack_unpack Format.binary64 bits.toBitVec (by decide)
  rw [hnumber] at hpack
  exact congrArg UInt64.ofBitVec hpack

theorem magnitude_ofBits {bits : Nat} (h : bits < 0x7ff <<< 52) :
    magnitude (Float.ofBits bits.toUInt64) = bits := by
  have hbits : bits.toUInt64.toNat = bits := Nat.mod_eq_of_lt (by omega)
  unfold magnitude
  rw [toBits_ofBits (by rwa [hbits]), hbits]
  exact Nat.mod_eq_of_lt (by omega)

theorem magnitude_zero : magnitude 0.0 = 0 := by decide +kernel

/-- The exponent of a ratio, up to one. -/
theorem lastPlace_bounds (num den : Nat) :
    max ((num.log2 : Int) - den.log2 - 53) (-1074) ≤ lastPlace num den ∧
      lastPlace num den ≤ max ((num.log2 : Int) - den.log2 - 53) (-1074) + 1 := by
  unfold lastPlace
  dsimp only
  split <;> constructor <;> omega

theorem log2_le_add (hnum : num ≠ 0) (h : num < den * 2 ^ k) : num.log2 ≤ den.log2 + k := by
  have hden : den < 2 ^ (den.log2 + 1) := Nat.lt_log2_self
  refine Nat.le_of_lt_succ ((Nat.log2_lt hnum).2 (h.trans_le ?_))
  calc den * 2 ^ k ≤ 2 ^ (den.log2 + 1) * 2 ^ k := Nat.mul_le_mul_right _ hden.le
    _ = 2 ^ (den.log2 + k + 1) := by rw [← pow_add]; congr 1; omega

/-- The significand of a ratio has at most two bits more than it needs. -/
theorem significand_le (hden : den ≠ 0) {q : Int} (hq : (num.log2 : Int) - den.log2 - 53 ≤ q) :
    (if q < 0 then roundHalfEven (num <<< (-q).toNat) den
      else roundHalfEven num (den <<< q.toNat)) ≤ 2 ^ 54 := by
  have hlow : 2 ^ den.log2 ≤ den := Nat.log2_self_le hden
  have hhigh : num ≤ 2 ^ (num.log2 + 1) := Nat.lt_log2_self.le
  split
  case isTrue hneg =>
    refine roundHalfEven_le ?_
    rw [Nat.shiftLeft_eq]
    calc num * 2 ^ (-q).toNat ≤ 2 ^ (num.log2 + 1) * 2 ^ (-q).toNat := Nat.mul_le_mul_right _ hhigh
      _ = 2 ^ (num.log2 + 1 + (-q).toNat) := (pow_add ..).symm
      _ ≤ 2 ^ (54 + den.log2) := Nat.pow_le_pow_right (by decide) (by omega)
      _ = 2 ^ 54 * 2 ^ den.log2 := pow_add ..
      _ ≤ 2 ^ 54 * den := Nat.mul_le_mul_left _ hlow
  case isFalse hneg =>
    refine roundHalfEven_le ?_
    rw [Nat.shiftLeft_eq]
    calc num ≤ 2 ^ (num.log2 + 1) := hhigh
      _ ≤ 2 ^ (54 + (den.log2 + q.toNat)) := Nat.pow_le_pow_right (by decide) (by omega)
      _ = 2 ^ 54 * (2 ^ den.log2 * 2 ^ q.toNat) := by rw [pow_add, pow_add]
      _ ≤ 2 ^ 54 * (den * 2 ^ q.toNat) :=
        Nat.mul_le_mul_left _ (Nat.mul_le_mul_right _ hlow)

/-- A ratio below a power of two has a nearest double, whose magnitude has an exponent not far above
that of the power. -/
theorem exists_nearest? (hden : den ≠ 0) (hk : k < 1021) (h : num < den * 2 ^ k) :
    ∃ x, nearest? num den = some x ∧ magnitude x ≤ (k + 1026) <<< 52 := by
  by_cases hnum : num = 0
  · exact ⟨0.0, if_pos hnum, magnitude_zero ▸ Nat.zero_le _⟩
  obtain ⟨hlow, hhigh⟩ := lastPlace_bounds num den
  have hlog := log2_le_add hnum h
  have hsignificand := significand_le hden (le_trans (le_max_left _ _) hlow)
  have hbits : ((lastPlace num den + 1074).toNat <<< 52) +
      (if lastPlace num den < 0 then roundHalfEven (num <<< (-lastPlace num den).toNat) den
        else roundHalfEven num (den <<< (lastPlace num den).toNat)) ≤ (k + 1026) <<< 52 := by
    rw [Nat.shiftLeft_eq (lastPlace num den + 1074).toNat, Nat.shiftLeft_eq (k + 1026)]
    omega
  have hfinite : (k + 1026) <<< 52 < 0x7ff <<< 52 := by
    rw [Nat.shiftLeft_eq, Nat.shiftLeft_eq]
    omega
  unfold nearest?
  rw [if_neg hnum]
  dsimp only
  rw [if_pos (hbits.trans_lt hfinite)]
  refine ⟨_, rfl, ?_⟩
  rwa [magnitude_ofBits (hbits.trans_lt hfinite)]

/-- Every power of ten with an exponent of eight bits is a double other than zero. -/
theorem exists_ofInt?_pow {d : Nat} (h : d < 256) :
    ∃ x, ofInt? (Nat.pow 10 d : Nat) = some x ∧ (x == 0.0) = false := by
  have hall : ∀ d < 256, (ofInt? (Nat.pow 10 d : Nat)).any (!· == 0.0) := by decide +kernel
  have hany := hall d h
  cases hx : ofInt? (Nat.pow 10 d : Nat) with
  | none =>
    rw [hx] at hany
    cases hany
  | some x =>
    rw [hx] at hany
    exact ⟨x, rfl, by simpa using hany⟩

theorem exists_square {x : Float} (h : magnitude x < 1535 <<< 52) : ∃ y, square x = .ok y :=
  ⟨_, if_neg fun hlarge => absurd hlarge.1 (Nat.not_le.2 h)⟩

end Binary64

namespace Quantity

open Checked Binary64

theorem toFloat_powerOfTen {d : Nat} {x : Float} (h : ofInt? (Nat.pow 10 d : Nat) = some x) :
    (powerOfTen d).toFloat = .ok x := by
  unfold powerOfTen
  rw [if_neg (by omega), Int.toNat_natCast]
  change ofOption .tooLarge (ofInt? (Nat.pow 10 d : Nat)) = _
  rw [h]
  rfl

variable {x y : Float} {q : Quantity}

theorem float_mul_eq_ok (h : q.toFloat = .ok y) : (float x).mul q = .ok (float (x * y)) := by
  cases q <;> exact bind_eq_ok.2 ⟨x, rfl, bind_eq_ok.2 ⟨y, h, rfl⟩⟩

theorem float_div_eq_ok (h : q.toFloat = .ok y) (hnonzero : (y == 0.0) = false) :
    (float x).div q = .ok (x / y) := by
  cases q <;> exact bind_eq_ok.2 ⟨x, rfl, bind_eq_ok.2 ⟨y, h, if_neg (by simp [hnonzero])⟩⟩

end Quantity

open Checked Binary64 Quantity in
/-- The price that a square-root price of 128 bits stands for is a double, for any decimals of eight
bits. -/
theorem Tick.exists_priceOfSqrtPrice {s decimals0 decimals1 : Nat} (hs : s < 2 ^ 128)
    (h0 : decimals0 < 256) (h1 : decimals1 < 256) :
    ∃ price, priceOfSqrtPrice s decimals0 decimals1 = .ok price := by
  have hratio : s < unitPrice * 2 ^ 64 := hs.trans_eq (by decide)
  obtain ⟨root, hroot, hsmall⟩ := exists_nearest? (by decide) (by decide : 64 < 1021) hratio
  obtain ⟨square, hsquare⟩ := exists_square (Nat.lt_of_le_of_lt hsmall (by decide))
  obtain ⟨scale0, hscale0, -⟩ := exists_ofInt?_pow h0
  obtain ⟨scale1, hscale1, hnonzero⟩ := exists_ofInt?_pow h1
  refine ⟨square * scale0 / scale1, bind_eq_ok.2 ⟨root, ?_, bind_eq_ok.2 ⟨square, hsquare, ?_⟩⟩⟩
  · unfold nearestInt?
    rw [Int.natAbs_natCast, hroot, Option.map_some, if_neg (by omega)]
    rfl
  · exact bind_eq_ok.2 ⟨_, float_mul_eq_ok (toFloat_powerOfTen hscale0),
      float_div_eq_ok (toFloat_powerOfTen hscale1) hnonzero⟩

end PoolSwap
