import PoolSwap.Proofs.Slippage.Floor

/-! How far the least accepted output is from the exact one. The share that is left and its product
with the amount are each rounded to 28 digits before the floor is taken. For amounts of 64 bits that
moves the product by less than two units of its eighth decimal, so the floor is the exact one unless
the exact product is that close to an integer, and then it is at most one off, to either side. -/
namespace PoolSwap.Slippage

variable {s : Decimal} {slippage : Scalar} {n : Int}

/-- Numbers that are close have equal floors, or an integer is between them. -/
theorem floor_of_close {x y δ : ℚ} (h : |y - x| ≤ δ) (hδ : δ < 1) :
    ⌊y⌋ = ⌊x⌋ ∨ ⌊y⌋ = ⌊x⌋ + 1 ∧ ⌊x⌋ + 1 - x ≤ δ ∨ ⌊y⌋ = ⌊x⌋ - 1 ∧ x - ⌊x⌋ ≤ δ := by
  obtain ⟨hlow, hhigh⟩ := abs_le.1 h
  have hx := Int.floor_le x
  have hx' := Int.lt_floor_add_one x
  rcases lt_or_ge y ⌊x⌋ with hbelow | hwithin
  · refine .inr (.inr ⟨Int.floor_eq_iff.2 ⟨?_, ?_⟩, ?_⟩)
    · push_cast
      linarith
    · push_cast
      linarith
    · linarith
  · rcases lt_or_ge y (⌊x⌋ + 1) with hbefore | habove
    · exact .inl (Int.floor_eq_iff.2 ⟨hwithin, hbefore⟩)
    · refine .inr (.inl ⟨Int.floor_eq_iff.2 ⟨?_, ?_⟩, ?_⟩)
      · push_cast
        linarith
      · push_cast
        linarith
      · linarith

/-- The product of an amount of 64 bits, rounded twice, is close to the exact one. -/
theorem abs_product_sub_le (hs : 0 ≤ s.value) (hlt : s.value < 1) (hn : 0 ≤ n) (hmax : n < 2 ^ 64)
    {p : Decimal} (hp : 0 ≤ p.coefficient) (hvalue : p.value = n * s.complement.value) :
    |p.round.value - n * (1 - s.value)| ≤ 2 / 10 ^ 8 := by
  have hamount : (0 : ℚ) ≤ n := by exact_mod_cast hn
  have hbound : (n : ℚ) ≤ 2 ^ 64 := by exact_mod_cast hmax.le
  have hkept := Decimal.abs_complement_value_sub_le hs hlt
  have hround := Decimal.abs_round_value_sub_le hp
  have hone : n * s.complement.value ≤ n * 1 :=
    mul_le_mul_of_nonneg_left (Decimal.complement_value_le_one hs hlt) hamount
  have hshare : n * (|s.complement.value - (1 - s.value)| * (2 * 10 ^ (Decimal.precision - 1))) ≤
      n * 1 := mul_le_mul_of_nonneg_left (by linarith) hamount
  calc |p.round.value - n * (1 - s.value)|
      ≤ |p.round.value - p.value| + |p.value - n * (1 - s.value)| := abs_sub_le _ _ _
    _ = |p.round.value - p.value| + n * |s.complement.value - (1 - s.value)| := by
        rw [hvalue, ← mul_sub, abs_mul, abs_of_nonneg hamount]
    _ ≤ 2 / 10 ^ 8 := by
        norm_num [Decimal.precision] at hround hshare ⊢
        linarith

/-- The least accepted output of an amount of 64 bits is the exact one, rounded down, or one off it
where the exact one is within two units of the eighth decimal of an integer. It is the exact one
wherever the product of the amount and of the share that is left has at most 28 digits. -/
theorem apply_near_exact (hs : Decimal.ofText? slippage.plainText = some s) (hnonneg : 0 ≤ s.value)
    (hlt : s.value < 1) (hn : 0 ≤ n) (hmax : n < 2 ^ 64) :
    let exact : ℚ := n * (1 - s.value)
    ∃ least, apply n slippage = .ok least ∧
      (least = ⌊exact⌋ ∨
        least = ⌊exact⌋ + 1 ∧ ⌊exact⌋ + 1 - exact ≤ 2 / 10 ^ 8 ∨
        least = ⌊exact⌋ - 1 ∧ exact - ⌊exact⌋ ≤ 2 / 10 ^ 8) ∧
      ∀ (k : Nat) (e : Int), 1 - s.value = k * 10 ^ e → n * k < 10 ^ 28 → least = ⌊exact⌋ := by
  refine ⟨floorOf n s, apply_eq (fraction?_eq_some_iff.2 ⟨hs, hnonneg, hlt⟩) n, ?_, ?_⟩
  · obtain ⟨p, hp, hvalue, heq⟩ := exists_product hnonneg hlt hn
    rw [heq]
    exact floor_of_close (abs_product_sub_le hnonneg hlt hn hmax hp hvalue) (by norm_num)
  · intro k e hk hfits
    exact floorOf_of_fits hnonneg hlt hn hk hfits

/-- A slippage that leaves 922337203685477581 parts of `2 ^ 63`, written out. -/
def dyadic : Decimal :=
  ⟨899999999999999999978315956550289911319850943982601165771484375, -63⟩

def dyadicText : Scalar :=
  .text "0.899999999999999999978315956550289911319850943982601165771484375"

/-- Of `2 ^ 63` it leaves an integer, of which one is lost to the rounding of the share. -/
theorem apply_near_exact_dyadic :
    Decimal.ofText? dyadicText.plainText = some dyadic ∧ 0 ≤ dyadic.value ∧ dyadic.value < 1 ∧
    (0 : Int) ≤ 2 ^ 63 ∧ (2 ^ 63 : Int) < 2 ^ 64 ∧
    let exact : ℚ := (2 ^ 63 : Int) * (1 - dyadic.value)
    exact = 922337203685477581 ∧
    ∃ least, apply (2 ^ 63) dyadicText = .ok least ∧ least = ⌊exact⌋ - 1 ∧
      exact - ⌊exact⌋ ≤ 2 / 10 ^ 8 := by
  have htext : Decimal.ofText? dyadicText.plainText = some dyadic := by decide +kernel
  have hnonneg : 0 ≤ dyadic.value := by norm_num [Decimal.value, dyadic]
  have hlt : dyadic.value < 1 := by norm_num [Decimal.value, dyadic]
  have hexact : ((2 ^ 63 : Int) * (1 - dyadic.value) : ℚ) = 922337203685477581 := by
    norm_num [Decimal.value, dyadic]
  refine ⟨htext, hnonneg, hlt, by decide, by decide, hexact, ?_⟩
  obtain ⟨least, hleast, hnear, -⟩ := apply_near_exact htext hnonneg hlt
    (show (0 : Int) ≤ 2 ^ 63 by decide) (by decide)
  have hbelow : apply (2 ^ 63) dyadicText = .ok 922337203685477580 := by decide +kernel
  obtain rfl := Except.ok.inj (hbelow.symm.trans hleast)
  rw [hexact] at hnear ⊢
  rcases hnear with heq | ⟨heq, -⟩ | hnear
  · norm_num at heq
  · norm_num at heq
  · exact ⟨_, hbelow, hnear⟩

/-- A share of 0.7 with an error in its seventeenth decimal, as a slippage of 0.3 that was added up
from doubles leaves it: a product just below an integer is rounded up to it. -/
theorem apply_above_exact : ∃ s,
    Decimal.ofText? (Scalar.text "0.30000000000000004").plainText = some s ∧
    0 ≤ s.value ∧ s.value < 1 ∧
    apply 18442500000000000001 (.text "0.30000000000000004") = .ok 12909749999999999263 ∧
    ⌊(18442500000000000001 : ℚ) * (1 - s.value)⌋ = 12909749999999999262 := by
  refine ⟨⟨30000000000000004, -17⟩, by decide +kernel, ?_, ?_, by decide +kernel, ?_⟩
  · norm_num [Decimal.value]
  · norm_num [Decimal.value]
  · norm_num [Decimal.value, Int.floor_eq_iff]

end PoolSwap.Slippage
