import PoolSwap.Proofs.SwapStep.Holdings
import Mathlib.Order.Bounds.Basic

/-! The amounts of both tokens between two prices, against exact rationals. Each is an exact amount
rounded once, although one of them divides twice, so the amounts inherit what holds of the exact ones:
they do not depend on the order of the prices, grow with the interval, and add up over adjacent
intervals as far as rounding lets them. -/
namespace PoolSwap.Liquidity

/-- What a range of liquidity between two prices holds of a token. A token is named by the direction
that pays it in. -/
def between (liquidity a b : Int) : Direction → ℚ
  | .zeroForOne => liquidity * 2 ^ 64 * |(a : ℚ) - b| / (a * b)
  | .oneForZero => liquidity * |(a : ℚ) - b| / 2 ^ 64

def rounded (roundUp : Bool) (x : ℚ) : Int := if roundUp then ⌈x⌉ else ⌊x⌋

/-- The amount of a token between two prices. -/
def amount (a b liquidity : Int) (roundUp : Bool) : Direction → Checked Int
  | .zeroForOne => amount0 a b liquidity roundUp
  | .oneForZero => .ok (amount1 a b liquidity roundUp)

/-- The price that an input moves a price to, without rounding. -/
def exactPrice (price liquidity input : Int) : Direction → ℚ
  | .zeroForOne => liquidity * 2 ^ 64 * price / (liquidity * 2 ^ 64 + input * price)
  | .oneForZero => price + input * 2 ^ 64 / liquidity

variable {a b c d price liquidity input : Int} {token : Direction} {roundUp : Bool} {x y : ℚ}

theorem unitPrice_cast : (Tick.unitPrice : ℚ) = 2 ^ 64 := by
  exact_mod_cast (show Tick.unitPrice = 2 ^ 64 by decide)

section Rounded

theorem rounded_le_rounded (roundUp : Bool) (h : x ≤ y) : rounded roundUp x ≤ rounded roundUp y := by
  cases roundUp
  · exact Int.floor_le_floor h
  · exact Int.ceil_le_ceil h

theorem rounded_down_add_le (x y : ℚ) :
    rounded false x + rounded false y ≤ rounded false (x + y) := Int.le_floor_add x y

theorem rounded_up_add_le (x y : ℚ) :
    rounded true (x + y) ≤ rounded true x + rounded true y := Int.ceil_add_le x y

end Rounded

section Between

variable (ha : 0 < a)
include ha

theorem between_nonneg (hb : 0 < b) (hl : 0 ≤ liquidity) (token : Direction) :
    0 ≤ between liquidity a b token := by
  have ha' : (0 : ℚ) < a := by exact_mod_cast ha
  have hb' : (0 : ℚ) < b := by exact_mod_cast hb
  have hl' : (0 : ℚ) ≤ liquidity := by exact_mod_cast hl
  cases token <;> simp only [between] <;> positivity

/-- Exact amounts add up over adjacent intervals. -/
theorem between_add (hab : a ≤ b) (hbc : b ≤ c) (liquidity : Int) (token : Direction) :
    between liquidity a b token + between liquidity b c token = between liquidity a c token := by
  have ha' : (0 : ℚ) < a := by exact_mod_cast ha
  have hab' : (a : ℚ) ≤ b := by exact_mod_cast hab
  have hbc' : (b : ℚ) ≤ c := by exact_mod_cast hbc
  have hb' : (0 : ℚ) < b := ha'.trans_le hab'
  have hc' : (0 : ℚ) < c := hb'.trans_le hbc'
  have habs {p q : ℚ} (h : p ≤ q) : |p - q| = q - p := by
    rw [abs_sub_comm]
    exact abs_of_nonneg (sub_nonneg.2 h)
  cases token
  · simp only [between, habs hab', habs hbc', habs (hab'.trans hbc')]
    field_simp
    ring
  · simp only [between, habs hab', habs hbc', habs (hab'.trans hbc')]
    ring

/-- Exact amounts grow with the interval. -/
theorem between_le_between (hab : a ≤ b) (hbc : b ≤ c) (hcd : c ≤ d) (hl : 0 ≤ liquidity)
    (token : Direction) : between liquidity b c token ≤ between liquidity a d token := by
  have hb := ha.trans_le hab
  have hc := hb.trans_le hbc
  have hlow := between_nonneg ha hb hl token
  have hhigh := between_nonneg hc (hc.trans_le hcd) hl token
  rw [← between_add ha (hab.trans hbc) hcd, ← between_add ha hab hbc]
  linarith

end Between

section Amount

variable (ha : 0 < a) (hb : 0 < b)
include ha hb

/-- The amount that is computed is the exact one, rounded once. -/
theorem amount_eq (liquidity : Int) (roundUp : Bool) (token : Direction) :
    amount a b liquidity roundUp token = .ok (rounded roundUp (between liquidity a b token)) := by
  have hwidth : ((max a b - min a b : Int) : ℚ) = |(a : ℚ) - b| := by
    rw [max_sub_min_eq_abs, abs_sub_comm]
    push_cast
    rfl
  cases token
  · have hexact : ((liquidity * Tick.unitPrice * (max a b - min a b) : Int) : ℚ) / (a * b : Int) =
        between liquidity a b .zeroForOne := by
      rw [Int.cast_mul, Int.cast_mul, hwidth, Int.cast_natCast, unitPrice_cast, Int.cast_mul]
      rfl
    rw [amount, amount0_eq ha hb, ceilDiv_eq_ceil (mul_pos ha hb), floorDiv_eq_floor (mul_pos ha hb),
      hexact]
    rfl
  · have hexact : ((liquidity * (max a b - min a b) : Int) : ℚ) / (Tick.unitPrice : Int) =
        between liquidity a b .oneForZero := by
      rw [Int.cast_mul, hwidth, Int.cast_natCast, unitPrice_cast]
      rfl
    rw [amount, amount1, ceilDiv_eq_ceil unit_pos, floorDiv_eq_floor unit_pos, hexact]
    rfl

end Amount

/-- The order of the prices makes no difference, whatever they are. -/
theorem amount_comm (a b liquidity : Int) (roundUp : Bool) (token : Direction) :
    amount b a liquidity roundUp token = amount a b liquidity roundUp token := by
  cases token
  · simp only [amount, amount0, min_comm, max_comm]
  · simp only [amount, amount1, min_comm, max_comm]

section Adjacent

variable (ha : 0 < a) (hab : a ≤ b) (hbc : b ≤ c)
include ha hab hbc

/-- Two amounts that were rounded down come to no more than the amount of both intervals together. -/
theorem amount_down_add_le (liquidity : Int) (token : Direction) :
    ∃ first second whole, amount a b liquidity false token = .ok first ∧
      amount b c liquidity false token = .ok second ∧
      amount a c liquidity false token = .ok whole ∧ first + second ≤ whole := by
  have hb := ha.trans_le hab
  have hc := hb.trans_le hbc
  refine ⟨_, _, _, amount_eq ha hb .., amount_eq hb hc .., amount_eq ha hc .., ?_⟩
  rw [← between_add ha hab hbc]
  exact rounded_down_add_le _ _

/-- Two amounts that were rounded up come to no less. -/
theorem amount_up_le_add (liquidity : Int) (token : Direction) :
    ∃ first second whole, amount a b liquidity true token = .ok first ∧
      amount b c liquidity true token = .ok second ∧
      amount a c liquidity true token = .ok whole ∧ whole ≤ first + second := by
  have hb := ha.trans_le hab
  have hc := hb.trans_le hbc
  refine ⟨_, _, _, amount_eq ha hb .., amount_eq hb hc .., amount_eq ha hc .., ?_⟩
  rw [← between_add ha hab hbc]
  exact rounded_up_add_le _ _

/-- An interval inside another one has no larger amount. -/
theorem amount_le_amount (hcd : c ≤ d) (hl : 0 ≤ liquidity) (roundUp : Bool) (token : Direction) :
    ∃ inner outer, amount b c liquidity roundUp token = .ok inner ∧
      amount a d liquidity roundUp token = .ok outer ∧ inner ≤ outer := by
  have hb := ha.trans_le hab
  have hc := hb.trans_le hbc
  refine ⟨_, _, amount_eq hb hc .., amount_eq ha (hc.trans_le hcd) .., ?_⟩
  exact rounded_le_rounded roundUp (between_le_between ha hab hbc hcd hl token)

end Adjacent

section Price

variable (hprice : 0 < price) (hl : 0 < liquidity) (hinput : 0 ≤ input)
include hprice hl hinput

/-- On the way down the next price is the exact one rounded up, on the way up rounded down. -/
theorem priceAfter_eq_rounded (token : Direction) :
    SwapStep.priceAfter price liquidity input token =
      rounded (token = .zeroForOne) (exactPrice price liquidity input token) := by
  have hscaled : 0 < liquidity * Tick.unitPrice := mul_pos hl unit_pos
  have hden : 0 < liquidity * Tick.unitPrice + input * price := by positivity
  cases token
  · rw [SwapStep.priceAfter, ceilDiv_eq_ceil hden]
    push_cast
    rw [unitPrice_cast]
    rfl
  · rw [SwapStep.priceAfter, floorDiv_eq_floor hl, ← Int.floor_intCast_add]
    push_cast
    rw [unitPrice_cast]
    rfl

/-- An input pays for the move to the price that it leads to. -/
theorem amount_priceAfter_le (token : Direction) :
    ∃ cost, amount (SwapStep.priceAfter price liquidity input token) price liquidity true token =
      .ok cost ∧ cost ≤ input := by
  have hnext := SwapStep.priceAfter_pos (d := token) hprice hl hinput
  have hpaid := (SwapStep.input_le_iff hprice hnext hl hinput).2 (token.leads_refl _)
  refine ⟨_, ?_, hpaid⟩
  rw [← SwapStep.inputBetween_eq hprice hnext (SwapStep.leads_priceAfter hprice hl hinput)]
  cases token
  · rfl
  · rw [amount_comm]
    rfl

end Price

theorem isLeast_ceil (x : ℚ) : IsLeast { n : Int | x ≤ n } ⌈x⌉ :=
  ⟨Int.le_ceil x, fun _ h => Int.ceil_le.2 h⟩

theorem isGreatest_floor (x : ℚ) : IsGreatest { n : Int | n ≤ x } ⌊x⌋ :=
  ⟨Int.floor_le x, fun _ h => Int.le_floor.2 h⟩

/-- Amounts between two positive prices are the exact ones, rounded down or up once. They are the same
in both orders of the prices and grow with the interval. Over adjacent intervals those that were rounded
down come to at most the amount of the whole, and those that were rounded up to at least that. The price
after an input is the exact one, rounded so that the input pays for the move. -/
theorem amounts_rounded_once :
    (∀ a b liquidity, 0 < a → 0 < b → 0 ≤ liquidity →
      amount0 a b liquidity true = .ok ⌈(liquidity * 2 ^ 64 * |(a : ℚ) - b| / (a * b) : ℚ)⌉ ∧
      amount0 a b liquidity false = .ok ⌊(liquidity * 2 ^ 64 * |(a : ℚ) - b| / (a * b) : ℚ)⌋ ∧
      amount1 a b liquidity true = ⌈(liquidity * |(a : ℚ) - b| / 2 ^ 64 : ℚ)⌉ ∧
      amount1 a b liquidity false = ⌊(liquidity * |(a : ℚ) - b| / 2 ^ 64 : ℚ)⌋ ∧
      ∀ roundUp token, amount b a liquidity roundUp token = amount a b liquidity roundUp token) ∧
    (∀ a b c d liquidity, 0 < a → a ≤ b → b ≤ c → c ≤ d → 0 ≤ liquidity →
      ∀ roundUp token, ∃ inner outer, amount b c liquidity roundUp token = .ok inner ∧
        amount a d liquidity roundUp token = .ok outer ∧ inner ≤ outer) ∧
    (∀ a b c liquidity, 0 < a → a ≤ b → b ≤ c → 0 ≤ liquidity → ∀ roundUp token,
      ∃ first second whole, amount a b liquidity roundUp token = .ok first ∧
        amount b c liquidity roundUp token = .ok second ∧
        amount a c liquidity roundUp token = .ok whole ∧
        if roundUp then whole ≤ first + second else first + second ≤ whole) ∧
    ∀ price liquidity input, 0 < price → 0 < liquidity → 0 ≤ input →
      (∃ next cost, nextSqrtPrice price liquidity input .zeroForOne = .ok next ∧
        IsLeast { n : Int | (liquidity * 2 ^ 64 * price / (liquidity * 2 ^ 64 + input * price) : ℚ) ≤ n }
          next ∧
        amount0 next price liquidity true = .ok cost ∧ cost ≤ input) ∧
      ∃ next, nextSqrtPrice price liquidity input .oneForZero = .ok next ∧
        IsGreatest { n : Int | n ≤ (price + input * 2 ^ 64 / liquidity : ℚ) } next ∧
        amount1 next price liquidity true ≤ input := by
  refine ⟨?_, ?_, ?_, ?_⟩
  · intro a b liquidity ha hb _
    have hamount := amount_eq ha hb liquidity
    exact ⟨hamount true .zeroForOne, hamount false .zeroForOne,
      Except.ok.inj (hamount true .oneForZero), Except.ok.inj (hamount false .oneForZero),
      amount_comm a b liquidity⟩
  · intro a b c d liquidity ha hab hbc hcd hl
    exact amount_le_amount ha hab hbc hcd hl
  · intro a b c liquidity ha hab hbc _ roundUp token
    cases roundUp
    · exact amount_down_add_le ha hab hbc liquidity token
    · exact amount_up_le_add ha hab hbc liquidity token
  · intro price liquidity input hprice hl hinput
    have hnext (token) := SwapStep.nextSqrtPrice_eq (d := token) hprice hl hinput
    have hrounded := priceAfter_eq_rounded hprice hl hinput
    constructor
    · obtain ⟨cost, hcost, hle⟩ := amount_priceAfter_le hprice hl hinput .zeroForOne
      exact ⟨_, cost, hnext _, hrounded .zeroForOne ▸ isLeast_ceil _, hcost, hle⟩
    · obtain ⟨cost, hcost, hle⟩ := amount_priceAfter_le hprice hl hinput .oneForZero
      exact ⟨_, hnext _, hrounded .oneForZero ▸ isGreatest_floor _, Except.ok.inj hcost ▸ hle⟩

/-- Two adjacent intervals whose amounts lose one to rounding, and the price after an input that the
move to it does not use up. -/
theorem amounts_rounded_once_adjacent :
    let a : Int := 18428315757951600128
    let b : Int := 18440000000000000000
    let c : Int := 18446744073709551616
    let liquidity : Int := 3000001
    (0 < a ∧ a ≤ b ∧ b ≤ c ∧ 0 < liquidity) ∧
    ⌊(liquidity * 2 ^ 64 * |(a : ℚ) - c| / (a * c) : ℚ)⌋ = 3000 ∧
    (∃ first second whole, amount0 a b liquidity false = .ok first ∧
      amount0 b c liquidity false = .ok second ∧ amount0 a c liquidity false = .ok whole ∧
      first + second = 2999 ∧ first + second ≤ whole) ∧
    ∃ cost, IsLeast { n : Int | (liquidity * 2 ^ 64 * c / (liquidity * 2 ^ 64 + (1980 : Int) * c) : ℚ) ≤ n }
        18434577256775685309 ∧
      amount0 18434577256775685309 c liquidity true = .ok cost ∧ cost ≤ 1980 := by
  intro a b c liquidity
  have ha : 0 < a := by decide
  have hab : a ≤ b := by decide
  have hbc : b ≤ c := by decide
  have hl : 0 < liquidity := by decide
  obtain ⟨hexact, -, hadjacent, hprice⟩ := amounts_rounded_once
  obtain ⟨-, hdown, -⟩ := hexact a c liquidity ha (by decide) hl.le
  have hwhole : amount0 a c liquidity false = .ok 3000 := by decide
  obtain ⟨first, second, whole, hfirst, hsecond, hthird, hle⟩ :=
    hadjacent a b c liquidity ha hab hbc hl.le false .zeroForOne
  have hfirst' : amount0 a b liquidity false = .ok 1902 := by decide
  have hsecond' : amount0 b c liquidity false = .ok 1097 := by decide
  obtain ⟨⟨next, cost, hnext, hleast, hcost, hpaid⟩, -⟩ :=
    hprice c liquidity 1980 (by decide) hl (by decide)
  have hnext' : nextSqrtPrice c liquidity 1980 .zeroForOne = .ok 18434577256775685309 := by decide
  cases hnext.symm.trans hnext'
  cases hfirst.symm.trans hfirst'
  cases hsecond.symm.trans hsecond'
  exact ⟨⟨ha, hab, hbc, hl⟩, Except.ok.inj (hdown.symm.trans hwhole),
    ⟨_, _, whole, hfirst', hsecond', hthird, by decide, hle⟩, cost, hleast, hcost, hpaid⟩

end PoolSwap.Liquidity
