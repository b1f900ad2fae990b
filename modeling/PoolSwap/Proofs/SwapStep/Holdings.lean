import PoolSwap.Proofs.SwapStep.Contract
import Mathlib.Algebra.Order.Field.Rat
import Mathlib.Tactic.FieldSimp
import Mathlib.Tactic.NormNum

/-! What a range of liquidity holds of either token at a price. A step pays in at least what the
holdings of one token grow by and takes out at most what those of the other shrink by, so that no
run of steps takes value out of the range. A token is named by the direction that pays it in. -/
namespace PoolSwap.SwapStep

/-- A step asked for: all of it but its liquidity and the price it starts from. -/
structure Request where
  direction : Direction
  target : Int
  remaining : Int
  feeRate : Int
deriving DecidableEq, Repr

structure Request.Sound (q : Request) : Prop where
  target_pos : 0 < q.target
  remaining_nonneg : 0 ≤ q.remaining
  remaining_le : q.remaining ≤ Tick.maxU64
  feeRate_nonneg : 0 ≤ q.feeRate
  feeRate_lt : q.feeRate < feeRateUnit

def Request.step (q : Request) (liquidity price : Int) : Checked SwapStep :=
  compute price q.target liquidity q.remaining q.feeRate q.direction

/-- Steps in a row at one liquidity, each from the price where the one before it ended, and the price
at the end. -/
def steps (liquidity : Int) : Int → List Request → Checked (List (Direction × SwapStep) × Int)
  | price, [] => .ok ([], price)
  | price, q :: later => do
    let step ← q.step liquidity price
    let (rest, last) ← steps liquidity step.sqrtPriceNext later
    pure ((q.direction, step) :: rest, last)

/-- Requests in a row, each with its target on its side of the price where it starts. -/
def Admissible (liquidity : Int) : Int → List Request → Prop
  | _, [] => True
  | price, q :: later => q.Sound ∧ q.direction.Leads price q.target ∧
    ∀ step, q.step liquidity price = .ok step → Admissible liquidity step.sqrtPriceNext later

/-- All that steps paid in of a token, with the fees. -/
def paidIn (token : Direction) (moves : List (Direction × SwapStep)) : Int :=
  ((moves.filter fun m => m.1 = token).map fun m => m.2.amountIn + m.2.fee).sum

def paidOut (token : Direction) (moves : List (Direction × SwapStep)) : Int :=
  ((moves.filter fun m => m.1 ≠ token).map fun m => m.2.amountOut).sum

/-- What liquidity at a price holds of a token. -/
def holdings (liquidity price : Int) : Direction → ℚ
  | .zeroForOne => liquidity * Tick.unitPrice / price
  | .oneForZero => liquidity * price / Tick.unitPrice

variable {a b liquidity price : Int} {d token : Direction} {q : Request} {step : SwapStep}

theorem unit_pos_rat : (0 : ℚ) < Tick.unitPrice := by exact_mod_cast Liquidity.unit_pos

/-- The holdings of the token paid in grow by at most the input of a move. -/
theorem holdings_sub_le_input (ha : 0 < a) (hb : 0 < b) (liquidity : Int) (d : Direction) :
    holdings liquidity b d - holdings liquidity a d ≤ input a b liquidity d := by
  have ha' : (0 : ℚ) < a := by exact_mod_cast ha
  have hb' : (0 : ℚ) < b := by exact_mod_cast hb
  have hunit := unit_pos_rat
  cases d
  · have hup : ((liquidity * Tick.unitPrice * (a - b) : Int) : ℚ) ≤
        (input a b liquidity .zeroForOne * (a * b) : Int) := by
      exact_mod_cast le_ceilDiv_mul (mul_pos ha hb) _
    push_cast at hup
    calc
      holdings liquidity b .zeroForOne - holdings liquidity a .zeroForOne =
          liquidity * Tick.unitPrice * (a - b) / (a * b) := by
        unfold holdings
        field_simp
      _ ≤ input a b liquidity .zeroForOne := (div_le_iff₀ (mul_pos ha' hb')).2 hup
  · have hup : ((liquidity * (b - a) : Int) : ℚ) ≤
        (input a b liquidity .oneForZero * Tick.unitPrice : Int) := by
      exact_mod_cast le_ceilDiv_mul Liquidity.unit_pos _
    push_cast at hup
    calc
      holdings liquidity b .oneForZero - holdings liquidity a .oneForZero =
          liquidity * (b - a) / Tick.unitPrice := by
        unfold holdings
        field_simp
      _ ≤ input a b liquidity .oneForZero := (div_le_iff₀ hunit).2 hup

/-- The holdings of the other token shrink by at least its output. -/
theorem output_le_holdings_sub (ha : 0 < a) (hb : 0 < b) (liquidity : Int) (d : Direction) :
    output a b liquidity d ≤ holdings liquidity a d.reverse - holdings liquidity b d.reverse := by
  have ha' : (0 : ℚ) < a := by exact_mod_cast ha
  have hb' : (0 : ℚ) < b := by exact_mod_cast hb
  have hunit := unit_pos_rat
  cases d
  · have hdown : ((output a b liquidity .zeroForOne * Tick.unitPrice : Int) : ℚ) ≤
        (liquidity * (a - b) : Int) := by
      exact_mod_cast floorDiv_mul_le Liquidity.unit_pos _
    push_cast at hdown
    calc
      (output a b liquidity .zeroForOne : ℚ) ≤ liquidity * (a - b) / Tick.unitPrice :=
        (le_div_iff₀ hunit).2 hdown
      _ = holdings liquidity a .oneForZero - holdings liquidity b .oneForZero := by
        unfold holdings
        field_simp
  · have hdown : ((output a b liquidity .oneForZero * (a * b) : Int) : ℚ) ≤
        (liquidity * Tick.unitPrice * (b - a) : Int) := by
      exact_mod_cast floorDiv_mul_le (mul_pos ha hb) _
    push_cast at hdown
    calc
      (output a b liquidity .oneForZero : ℚ) ≤
          liquidity * Tick.unitPrice * (b - a) / (a * b) :=
        (le_div_iff₀ (mul_pos ha' hb')).2 hdown
      _ = holdings liquidity a .zeroForOne - holdings liquidity b .zeroForOne := by
        unfold holdings
        field_simp

theorem Request.Sound.range (hq : q.Sound) (hl : 0 ≤ liquidity) (hprice : 0 < price)
    (hside : q.direction.Leads price q.target) :
    Range price q.target liquidity q.feeRate q.direction where
  start_pos := hprice
  target_pos := hq.target_pos
  leads := hside
  liquidity_nonneg := hl
  feeRate_nonneg := hq.feeRate_nonneg
  feeRate_lt := hq.feeRate_lt

theorem Request.Sound.exists_step (hq : q.Sound) (hl : 0 ≤ liquidity) (hprice : 0 < price)
    (hside : q.direction.Leads price q.target) :
    ∃ step, q.step liquidity price = .ok step ∧
      Settles price q.target liquidity q.remaining q.feeRate q.direction step := by
  have hrange := hq.range hl hprice hside
  exact ⟨_, hrange.compute_eq hq.remaining_nonneg hq.remaining_le,
    hrange.taken_settles hq.remaining_nonneg⟩

section Payments

variable (m : Direction × SwapStep) (moves : List (Direction × SwapStep))

theorem paidIn_cons : paidIn token (m :: moves) =
    (if m.1 = token then m.2.amountIn + m.2.fee else 0) + paidIn token moves := by
  by_cases h : m.1 = token <;> simp [paidIn, h]

theorem paidOut_cons : paidOut token (m :: moves) =
    (if m.1 = token then 0 else m.2.amountOut) + paidOut token moves := by
  by_cases h : m.1 = token <;> simp [paidOut, h]

end Payments

/-- A step pays for the change of the holdings of both tokens. -/
theorem Settles.pays {target remaining feeRate : Int}
    (h : Settles a target liquidity remaining feeRate d step) (ha : 0 < a) (token : Direction) :
    holdings liquidity step.sqrtPriceNext token - holdings liquidity a token ≤
      ((if d = token then step.amountIn + step.fee else 0 : Int) : ℚ) -
        ((if d = token then 0 else step.amountOut : Int) : ℚ) := by
  rcases d.eq_or_eq_reverse token with rfl | rfl
  · have hin := holdings_sub_le_input ha h.next_pos liquidity token
    have hfee : (0 : ℚ) ≤ step.fee := by exact_mod_cast h.fee_nonneg
    rw [← h.amountIn_eq] at hin
    simp only [if_true, Int.cast_add, Int.cast_zero]
    linarith
  · have hout := output_le_holdings_sub ha h.next_pos liquidity d
    rw [← h.amountOut_eq] at hout
    simp only [if_neg d.reverse_ne.symm, Int.cast_zero]
    linarith

/-- The payments of steps in a row add up, and so do the changes of the holdings. -/
theorem exists_steps (hl : 0 ≤ liquidity) (hprice : 0 < price) {requests : List Request}
    (hrequests : Admissible liquidity price requests) :
    ∃ moves last, steps liquidity price requests = .ok (moves, last) ∧
      moves.map (·.1) = requests.map (·.direction) ∧ 0 < last ∧
      ∀ token, holdings liquidity last token - holdings liquidity price token ≤
        (paidIn token moves : ℚ) - paidOut token moves := by
  induction requests generalizing price with
  | nil => exact ⟨[], price, rfl, rfl, hprice, fun token => by simp [paidIn, paidOut]⟩
  | cons q later ih =>
    obtain ⟨hsound, hside, hlater⟩ := hrequests
    obtain ⟨step, hstep, hsettles⟩ := hsound.exists_step hl hprice hside
    obtain ⟨rest, last, hrest, hmap, hlast, hpays⟩ := ih hsettles.next_pos (hlater step hstep)
    refine ⟨(q.direction, step) :: rest, last, ?_, by simp [hmap], hlast, fun token => ?_⟩
    · rw [steps, hstep]
      simp only [bind, Except.bind, hrest]
      rfl
    · have hfirst := hsettles.pays hprice token
      have hothers := hpays token
      rw [paidIn_cons, paidOut_cons, Int.cast_add, Int.cast_add]
      linarith

/-- No run of steps takes value out of a range. Of either token, the steps pay in at least what the
range holds more at the last price than at the first, less what they take out. A run that returns to
its first price takes out no more than it paid in. -/
theorem steps_keep_value (hl : 0 ≤ liquidity) (hprice : 0 < price) {requests : List Request}
    (hrequests : Admissible liquidity price requests) :
    ∃ moves last, steps liquidity price requests = .ok (moves, last) ∧
      moves.map (·.1) = requests.map (·.direction) ∧ 0 < last ∧
      (liquidity : ℚ) * 2 ^ 64 * (1 / last - 1 / price) ≤
        paidIn .zeroForOne moves - paidOut .zeroForOne moves ∧
      (liquidity : ℚ) * (last - price) / 2 ^ 64 ≤
        paidIn .oneForZero moves - paidOut .oneForZero moves ∧
      (last = price → ∀ token, paidOut token moves ≤ paidIn token moves) := by
  obtain ⟨moves, last, hsteps, hmap, hlast, hpays⟩ := exists_steps hl hprice hrequests
  have hunit : (Tick.unitPrice : ℚ) = 2 ^ 64 := by
    exact_mod_cast (show Tick.unitPrice = 2 ^ 64 by decide)
  refine ⟨moves, last, hsteps, hmap, hlast, ?_, ?_, ?_⟩
  · have h0 := hpays .zeroForOne
    simp only [holdings, hunit] at h0
    refine le_of_eq_of_le ?_ h0
    ring
  · have h1 := hpays .oneForZero
    simp only [holdings, hunit] at h1
    refine le_of_eq_of_le ?_ h1
    ring
  · rintro rfl token
    have h := hpays token
    rw [sub_self, sub_nonneg] at h
    exact_mod_cast h

/-- A step down and two steps up, which return to the first price. -/
theorem steps_keep_value_return :
    let requests : List Request := [⟨.zeroForOne, 9223372036854775808, 2000, 2500⟩,
      ⟨.oneForZero, 36893488147419103232, 900, 100⟩,
      ⟨.oneForZero, 18446744073709551616, 5000, 2500⟩]
    (0 : Int) ≤ 3000000 ∧ (0 : Int) < 18446744073709551616 ∧
    Admissible 3000000 18446744073709551616 requests ∧
    ∃ moves, steps 3000000 18446744073709551616 requests = .ok (moves, 18446744073709551616) ∧
      paidIn .zeroForOne moves = 2000 ∧ paidOut .zeroForOne moves = 1994 ∧
      paidIn .oneForZero moves = 1998 ∧ paidOut .oneForZero moves = 1993 ∧
      ∀ token, paidOut token moves ≤ paidIn token moves := by
  intro requests
  have hfirst : (Request.mk .zeroForOne 9223372036854775808 2000 2500).step 3000000
      18446744073709551616 = .ok ⟨18434485141090726284, 1995, 1993, 5⟩ := by decide
  have hsecond : (Request.mk .oneForZero 36893488147419103232 900 100).step 3000000
      18434485141090726284 = .ok ⟨18440013015398147912, 899, 899, 1⟩ := by decide
  have hrequests : Admissible 3000000 18446744073709551616 requests := by
    refine ⟨⟨by decide, by decide, by decide, by decide, by decide⟩, by decide, fun step h => ?_⟩
    obtain rfl := Except.ok.inj (hfirst.symm.trans h)
    refine ⟨⟨by decide, by decide, by decide, by decide, by decide⟩, by decide, fun step h => ?_⟩
    obtain rfl := Except.ok.inj (hsecond.symm.trans h)
    exact ⟨⟨by decide, by decide, by decide, by decide, by decide⟩, by decide, fun _ _ => trivial⟩
  have hsteps : steps 3000000 18446744073709551616 requests = .ok
      ([(.zeroForOne, ⟨18434485141090726284, 1995, 1993, 5⟩),
        (.oneForZero, ⟨18440013015398147912, 899, 899, 1⟩),
        (.oneForZero, ⟨18446744073709551616, 1095, 1095, 3⟩)], 18446744073709551616) := by decide
  obtain ⟨moves, last, hmoves, -, -, -, -, hreturn⟩ :=
    steps_keep_value (show (0 : Int) ≤ 3000000 by decide)
      (show (0 : Int) < 18446744073709551616 by decide) hrequests
  cases hsteps.symm.trans hmoves
  exact ⟨by decide, by decide, hrequests, _, hsteps, by decide, by decide, by decide, by decide,
    hreturn rfl⟩

end PoolSwap.SwapStep
