import PoolSwap.Number.Division
import Mathlib.Data.Rat.Floor
import Mathlib.Tactic.Linarith
import Mathlib.Tactic.Ring

/-! Laws of the two roundings. Each follows from the inequality that characterizes a quotient, so
that no later proof opens a division. -/
namespace PoolSwap

variable {a b c n : Int}

theorem floorDiv_mul_le (hb : 0 < b) (a : Int) : floorDiv a b * b ≤ a :=
  (le_floorDiv_iff hb).1 le_rfl

theorem le_ceilDiv_mul (hb : 0 < b) (a : Int) : a ≤ ceilDiv a b * b :=
  (ceilDiv_le_iff hb).1 le_rfl

theorem floorDiv_eq_iff (hb : 0 < b) : floorDiv a b = n ↔ n * b ≤ a ∧ a < (n + 1) * b := by
  have hle : n ≤ floorDiv a b ↔ n * b ≤ a := le_floorDiv_iff hb
  have hlt : n + 1 ≤ floorDiv a b ↔ (n + 1) * b ≤ a := le_floorDiv_iff hb
  rw [← hle, ← not_le, ← hlt]
  omega

theorem floorDiv_eq_floor (hb : 0 < b) (a : Int) : floorDiv a b = ⌊(a : ℚ) / b⌋ := by
  have hb' : (0 : ℚ) < b := by exact_mod_cast hb
  refine eq_of_forall_le_iff fun n => ?_
  rw [le_floorDiv_iff hb, Int.le_floor, le_div_iff₀ hb']
  exact_mod_cast Iff.rfl

theorem ceilDiv_eq_ceil (hb : 0 < b) (a : Int) : ceilDiv a b = ⌈(a : ℚ) / b⌉ := by
  have hb' : (0 : ℚ) < b := by exact_mod_cast hb
  refine eq_of_forall_ge_iff fun n => ?_
  rw [ceilDiv_le_iff hb, Int.ceil_le, div_le_iff₀ hb']
  exact_mod_cast Iff.rfl

theorem floorDiv_le_floorDiv (hb : 0 < b) (h : a ≤ c) : floorDiv a b ≤ floorDiv c b :=
  (le_floorDiv_iff hb).2 ((floorDiv_mul_le hb a).trans h)

theorem ceilDiv_le_ceilDiv (hb : 0 < b) (h : a ≤ c) : ceilDiv a b ≤ ceilDiv c b :=
  (ceilDiv_le_iff hb).2 (h.trans (le_ceilDiv_mul hb c))

theorem ceilDiv_add_le (hb : 0 < b) : ceilDiv (a + c) b ≤ ceilDiv a b + ceilDiv c b := by
  rw [ceilDiv_le_iff hb, add_mul]
  exact add_le_add (le_ceilDiv_mul hb a) (le_ceilDiv_mul hb c)

theorem floorDiv_nonneg (hb : 0 < b) (ha : 0 ≤ a) : 0 ≤ floorDiv a b :=
  (le_floorDiv_iff hb).2 (by simpa using ha)

theorem ceilDiv_nonneg (hb : 0 < b) (ha : 0 ≤ a) : 0 ≤ ceilDiv a b := by
  have h := ha.trans (le_ceilDiv_mul hb a)
  exact nonneg_of_mul_nonneg_left h hb

theorem ceilDiv_mul_self (hb : 0 < b) (a : Int) : ceilDiv (a * b) b = a := by
  refine le_antisymm ((ceilDiv_le_iff hb).2 le_rfl) ?_
  exact le_of_mul_le_mul_right (le_ceilDiv_mul hb (a * b)) hb

/-- Rounding up twice loses nothing against rounding up once. -/
theorem ceilDiv_ceilDiv (hb : 0 < b) (hc : 0 < c) (a : Int) :
    ceilDiv (ceilDiv a b) c = ceilDiv a (b * c) := by
  refine eq_of_forall_ge_iff fun n => ?_
  rw [ceilDiv_le_iff hc, ceilDiv_le_iff hb, ceilDiv_le_iff (mul_pos hb hc), mul_assoc, mul_comm c b]

theorem floorDiv_floorDiv (hb : 0 < b) (hc : 0 < c) (a : Int) :
    floorDiv (floorDiv a b) c = floorDiv a (b * c) := by
  refine eq_of_forall_le_iff fun n => ?_
  rw [le_floorDiv_iff hc, le_floorDiv_iff hb, le_floorDiv_iff (mul_pos hb hc), mul_assoc,
    mul_comm c b]

end PoolSwap
