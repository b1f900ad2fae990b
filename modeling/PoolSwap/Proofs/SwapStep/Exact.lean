import PoolSwap.Proofs.Checked
import PoolSwap.Proofs.Rounding
import PoolSwap.Tick.SwapStep
import Mathlib.Tactic.Positivity

/-! A swap step in closed form. Between positive prices no division fails, two roundings in a row
are one, and the price an input moves to is the furthest one that the input pays for. -/
namespace PoolSwap

namespace Direction

/-- Whether a trade in this direction moves the price from `a` to `b`, or leaves it. -/
def Leads (d : Direction) (a b : Int) : Prop :=
  match d with
  | .zeroForOne => b ≤ a
  | .oneForZero => a ≤ b

instance (d : Direction) (a b : Int) : Decidable (d.Leads a b) := by
  unfold Leads
  cases d <;> infer_instance

theorem leads_refl (d : Direction) (a : Int) : d.Leads a a := by
  cases d <;> exact le_refl a

theorem Leads.trans {d : Direction} {a b c : Int} (hab : d.Leads a b) (hbc : d.Leads b c) :
    d.Leads a c := by
  cases d
  · exact le_trans hbc hab
  · exact le_trans hab hbc

theorem Leads.antisymm {d : Direction} {a b : Int} (hab : d.Leads a b) (hba : d.Leads b a) :
    a = b := by
  cases d
  · exact le_antisymm hba hab
  · exact le_antisymm hab hba

theorem leads_total (d : Direction) (a b : Int) : d.Leads a b ∨ d.Leads b a := by
  cases d
  · exact le_total b a
  · exact le_total a b

/-- Whether a trade in this direction comes to `a` strictly before `b`. -/
def Before (d : Direction) (a b : Int) : Prop :=
  match d with
  | .zeroForOne => b < a
  | .oneForZero => a < b

theorem before_iff {d : Direction} {a b : Int} : d.Before a b ↔ ¬ d.Leads b a := by
  cases d
  · exact not_le.symm
  · exact not_le.symm

theorem Leads.trans_before {d : Direction} {a b c : Int} (hab : d.Leads a b) (hbc : d.Before b c) :
    d.Before a c := by
  cases d
  · exact lt_of_lt_of_le hbc hab
  · exact lt_of_le_of_lt hab hbc

theorem Before.trans_leads {d : Direction} {a b c : Int} (hab : d.Before a b) (hbc : d.Leads b c) :
    d.Before a c := by
  cases d
  · exact lt_of_le_of_lt hbc hab
  · exact lt_of_lt_of_le hab hbc

theorem Before.leads {d : Direction} {a b : Int} (h : d.Before a b) : d.Leads a b :=
  (d.leads_total a b).resolve_right (before_iff.1 h)

theorem Before.ne {d : Direction} {a b : Int} (h : d.Before a b) : a ≠ b := fun heq =>
  before_iff.1 h (heq ▸ d.leads_refl a)

/-- The way back. -/
def reverse : Direction → Direction
  | .zeroForOne => .oneForZero
  | .oneForZero => .zeroForOne

@[simp] theorem reverse_reverse (d : Direction) : d.reverse.reverse = d := by
  cases d <;> rfl

theorem eq_or_eq_reverse (d e : Direction) : e = d ∨ e = d.reverse := by
  cases d <;> cases e <;> simp [reverse]

theorem reverse_ne (d : Direction) : d.reverse ≠ d := by
  cases d <;> simp [reverse]

end Direction

namespace Liquidity

variable {a b liquidity : Int}

theorem unit_pos : (0 : Int) < Tick.unitPrice := by decide

theorem add_eq_ok {delta result : Int} : add liquidity delta = .ok result ↔
    result = liquidity + delta ∧ 0 ≤ result ∧ result ≤ Tick.maxU128 := by
  unfold add
  dsimp only
  split
  case isTrue hout =>
    simp only [reduceCtorEq, false_iff]
    omega
  case isFalse hin =>
    rw [Except.ok.injEq]
    omega

theorem amount0_eq (ha : 0 < a) (hb : 0 < b) (liquidity : Int) (roundUp : Bool) :
    amount0 a b liquidity roundUp =
      .ok (if roundUp then ceilDiv (liquidity * Tick.unitPrice * (max a b - min a b)) (a * b)
        else floorDiv (liquidity * Tick.unitPrice * (max a b - min a b)) (a * b)) := by
  have hlow : 0 < min a b := lt_min ha hb
  have hhigh : 0 < max a b := lt_max_of_lt_left ha
  have hboth : max a b * min a b = a * b := max_mul_min a b
  cases roundUp
  · simp only [amount0, scaleFloor, Checked.floorDiv_eq hhigh.ne', Checked.floorDiv_eq hlow.ne',
      ← hboth, ← floorDiv_floorDiv hhigh hlow]
    rfl
  · simp only [amount0, scaleCeil, Checked.ceilDiv_eq hhigh.ne', Checked.ceilDiv_eq hlow.ne',
      ← hboth, ← ceilDiv_ceilDiv hhigh hlow]
    rfl

end Liquidity

namespace SwapStep

open Liquidity

def input (a b liquidity : Int) : Direction → Int
  | .zeroForOne => ceilDiv (liquidity * Tick.unitPrice * (a - b)) (a * b)
  | .oneForZero => ceilDiv (liquidity * (b - a)) Tick.unitPrice

def output (a b liquidity : Int) : Direction → Int
  | .zeroForOne => floorDiv (liquidity * (a - b)) Tick.unitPrice
  | .oneForZero => floorDiv (liquidity * Tick.unitPrice * (b - a)) (a * b)

/-- The price that an input moves the price `a` to. -/
def priceAfter (a liquidity amount : Int) : Direction → Int
  | .zeroForOne =>
    ceilDiv (liquidity * Tick.unitPrice * a) (liquidity * Tick.unitPrice + amount * a)
  | .oneForZero => a + floorDiv (amount * Tick.unitPrice) liquidity

variable {a b c liquidity amount : Int} {d : Direction}

theorem inputBetween_eq (ha : 0 < a) (hb : 0 < b) (h : d.Leads a b) (liquidity : Int) :
    inputBetween a b liquidity d = .ok (input a b liquidity d) := by
  cases d
  · have hba : b ≤ a := h
    simp only [inputBetween, amount0_eq hb ha, max_eq_right hba, min_eq_left hba, if_true, input,
      mul_comm b a]
  · have hab : a ≤ b := h
    simp only [inputBetween, amount1, max_eq_right hab, min_eq_left hab, if_true, input]

theorem outputBetween_eq (ha : 0 < a) (hb : 0 < b) (h : d.Leads a b) (liquidity : Int) :
    outputBetween a b liquidity d = .ok (output a b liquidity d) := by
  cases d
  · have hba : b ≤ a := h
    simp only [outputBetween, amount1, max_eq_right hba, min_eq_left hba, output]
    rfl
  · have hab : a ≤ b := h
    simp only [outputBetween, amount0_eq ha hb, max_eq_right hab, min_eq_left hab, output]
    rfl

theorem nextSqrtPrice_eq (ha : 0 < a) (hl : 0 < liquidity) (hn : 0 ≤ amount) :
    nextSqrtPrice a liquidity amount d = .ok (priceAfter a liquidity amount d) := by
  have hscaled : 0 < liquidity * Tick.unitPrice := mul_pos hl unit_pos
  have hguard : ¬ (a ≤ 0 ∨ liquidity ≤ 0) := by omega
  simp only [nextSqrtPrice, if_neg hguard]
  split
  case isTrue h0 =>
    subst h0
    cases d
    · rw [priceAfter, zero_mul, add_zero, mul_comm _ a, ceilDiv_mul_self hscaled]
    · simp [priceAfter, floorDiv]
  case isFalse =>
    cases d
    · have hden : 0 < liquidity * Tick.unitPrice + amount * a := by positivity
      simp only [scaleCeil, Checked.ceilDiv_eq hden.ne', priceAfter]
    · simp only [Checked.floorDiv_eq hl.ne', priceAfter]
      rfl

/-- An input moves the price only where there is liquidity. -/
theorem liquidity_pos_of_nextSqrtPrice (h : nextSqrtPrice a liquidity amount d = .ok b) :
    0 < liquidity := by
  by_contra hdry
  unfold nextSqrtPrice at h
  rw [if_pos (Or.inr (not_lt.1 hdry))] at h
  cases h

/-- What a step is made of: the price that it ends at, the output up to there, and the input and the
fee of the whole range or of the part that it goes through. -/
theorem compute_eq_ok {target remaining feeRate : Int} {step : SwapStep}
    (h : compute a target liquidity remaining feeRate d = .ok step) :
    ∃ full, fullInput? a target liquidity d = .ok full ∧
      nextPrice full a target liquidity (floorDiv (remaining * (feeRateUnit - feeRate)) feeRateUnit)
        d = .ok step.sqrtPriceNext ∧
      outputBetween a step.sqrtPriceNext liquidity d = .ok step.amountOut ∧
      (step.sqrtPriceNext = target → full = some step.amountIn ∧
        scaleCeil step.amountIn feeRate (feeRateUnit - feeRate) = .ok step.fee) ∧
      (step.sqrtPriceNext ≠ target → inputBetween a step.sqrtPriceNext liquidity d =
        .ok step.amountIn ∧ step.fee = remaining - step.amountIn) := by
  unfold compute at h
  obtain ⟨full, hfull, h⟩ := Checked.bind_eq_ok.1 h
  obtain ⟨next, hnext, h⟩ := Checked.bind_eq_ok.1 h
  split at h
  case isTrue hreach =>
    obtain ⟨amountOut, hout, h⟩ := Checked.bind_eq_ok.1 h
    obtain ⟨amountIn, hin, h⟩ := Checked.bind_eq_ok.1 h
    obtain ⟨fee, hfee, h⟩ := Checked.bind_eq_ok.1 h
    cases Checked.pure_eq_ok.1 h
    refine ⟨full, hfull, hnext, hout, fun _ => ⟨?_, hfee⟩, fun hne => absurd hreach hne⟩
    cases full <;> cases hin
    rfl
  case isFalse hne =>
    obtain ⟨amountIn, hin, h⟩ := Checked.bind_eq_ok.1 h
    obtain ⟨amountOut, hout, h⟩ := Checked.bind_eq_ok.1 h
    cases Checked.pure_eq_ok.1 h
    exact ⟨full, hfull, hnext, hout, fun hreach => absurd hreach hne, fun _ => ⟨hin, rfl⟩⟩

/-- An input pays for a move exactly if it moves the price at least as far. -/
theorem input_le_iff (ha : 0 < a) (hb : 0 < b) (hl : 0 < liquidity) (hn : 0 ≤ amount) :
    input a b liquidity d ≤ amount ↔ d.Leads b (priceAfter a liquidity amount d) := by
  cases d
  · have hscaled : 0 < liquidity * Tick.unitPrice := mul_pos hl unit_pos
    have hden : 0 < liquidity * Tick.unitPrice + amount * a := by positivity
    change ceilDiv _ _ ≤ _ ↔ ceilDiv _ _ ≤ _
    rw [ceilDiv_le_iff (mul_pos ha hb), ceilDiv_le_iff hden]
    constructor <;> intro h <;> nlinarith
  · change ceilDiv _ _ ≤ _ ↔ b ≤ a + floorDiv _ _
    rw [ceilDiv_le_iff unit_pos, ← sub_le_iff_le_add', le_floorDiv_iff hl, mul_comm liquidity]

theorem input_self (a liquidity : Int) : input a a liquidity d = 0 := by
  cases d <;> simp [input, ceilDiv]

/-- An input never moves the price back. -/
theorem leads_priceAfter (ha : 0 < a) (hl : 0 < liquidity) (hn : 0 ≤ amount) :
    d.Leads a (priceAfter a liquidity amount d) :=
  (input_le_iff ha ha hl hn).1 (by rw [input_self]; exact hn)

theorem priceAfter_pos (ha : 0 < a) (hl : 0 < liquidity) (hn : 0 ≤ amount) :
    0 < priceAfter a liquidity amount d := by
  cases d
  · have hscaled : 0 < liquidity * Tick.unitPrice := mul_pos hl unit_pos
    have hden : 0 < liquidity * Tick.unitPrice + amount * a := by positivity
    have hup := le_ceilDiv_mul hden (liquidity * Tick.unitPrice * a)
    exact pos_of_mul_pos_left ((mul_pos hscaled ha).trans_le hup) hden.le
  · have hle : Direction.oneForZero.Leads a (priceAfter a liquidity amount .oneForZero) :=
      leads_priceAfter ha hl hn
    exact ha.trans_le hle

theorem input_nonneg (ha : 0 < a) (hb : 0 < b) (h : d.Leads a b) (hl : 0 ≤ liquidity) :
    0 ≤ input a b liquidity d := by
  cases d
  · have hwidth : 0 ≤ a - b := Int.sub_nonneg.2 h
    have hunit := unit_pos
    exact ceilDiv_nonneg (mul_pos ha hb) (by positivity)
  · have hwidth : 0 ≤ b - a := Int.sub_nonneg.2 h
    exact ceilDiv_nonneg unit_pos (mul_nonneg hl hwidth)

theorem output_nonneg (ha : 0 < a) (hb : 0 < b) (h : d.Leads a b) (hl : 0 ≤ liquidity) :
    0 ≤ output a b liquidity d := by
  cases d
  · have hwidth : 0 ≤ a - b := Int.sub_nonneg.2 h
    exact floorDiv_nonneg unit_pos (mul_nonneg hl hwidth)
  · have hwidth : 0 ≤ b - a := Int.sub_nonneg.2 h
    have hunit := unit_pos
    exact floorDiv_nonneg (mul_pos ha hb) (by positivity)

theorem output_le_output (ha : 0 < a) (hb : 0 < b) (hc : 0 < c) (hab : d.Leads a b)
    (hbc : d.Leads b c) (hl : 0 ≤ liquidity) :
    output a b liquidity d ≤ output a c liquidity d := by
  cases d
  · have hcb : c ≤ b := hbc
    exact floorDiv_le_floorDiv unit_pos (mul_le_mul_of_nonneg_left (by omega) hl)
  · have hab : a ≤ b := hab
    have hbc : b ≤ c := hbc
    have hunit := unit_pos
    have hout : output a b liquidity .oneForZero * (a * b) ≤
        liquidity * Tick.unitPrice * (b - a) := floorDiv_mul_le (mul_pos ha hb) _
    refine (le_floorDiv_iff (mul_pos ha hc)).2 ?_
    generalize output a b liquidity .oneForZero = out at hout ⊢
    -- Each unit of output costs at most the whole range in price, so the rest of the move pays too.
    have hrate : out * a ≤ liquidity * Tick.unitPrice := by
      have hfull : out * a * b ≤ liquidity * Tick.unitPrice * b := by
        calc
          out * a * b = out * (a * b) := by ring
          _ ≤ liquidity * Tick.unitPrice * (b - a) := hout
          _ ≤ liquidity * Tick.unitPrice * b :=
            mul_le_mul_of_nonneg_left (by omega) (by positivity)
      exact le_of_mul_le_mul_right hfull hb
    calc
      out * (a * c) = out * (a * b) + out * a * (c - b) := by ring
      _ ≤ liquidity * Tick.unitPrice * (b - a) + liquidity * Tick.unitPrice * (c - b) :=
        add_le_add hout (mul_le_mul_of_nonneg_right hrate (by omega))
      _ = liquidity * Tick.unitPrice * (c - a) := by ring

end SwapStep
end PoolSwap
