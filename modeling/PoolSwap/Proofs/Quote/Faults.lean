import PoolSwap.Proofs.Walk.Loop
import PoolSwap.Quote.Concentrated

/-! The faults of quotes that name missing tick arrays. The arithmetic of a walk fails by itself
alone; only what stands around it, the lookup of the window and the check behind each leg, asks for
more arrays. -/
namespace PoolSwap

/-- Faults of an operation by itself, whatever it is part of. -/
inductive Fault.IsLocal : Fault → Prop
  | breach (rule : Breach) : IsLocal (.breach rule)
  | argument (cause : BadArgument) : IsLocal (.argument cause)

open Checked Fault

section Arithmetic

theorem divisor_isLocal (n : Int) : FailsWith IsLocal (divisor n) := by
  unfold divisor
  split
  · exact failsWith_error (.breach _)
  · exact failsWith_ok _

theorem floorDiv_isLocal (a b : Int) : FailsWith IsLocal (Checked.floorDiv a b) :=
  (divisor_isLocal b).bind fun _ => failsWith_ok _

theorem ceilDiv_isLocal (a b : Int) : FailsWith IsLocal (Checked.ceilDiv a b) :=
  (divisor_isLocal b).bind fun _ => failsWith_ok _

theorem ofOption_isLocal (rule : Breach) (a : Option α) : FailsWith IsLocal (ofOption rule a) := by
  cases a with
  | none => exact failsWith_error (.breach _)
  | some a => exact failsWith_ok a

namespace Liquidity

theorem add_isLocal (liquidity delta : Int) : FailsWith IsLocal (add liquidity delta) := by
  unfold add
  dsimp only
  split
  · exact failsWith_error (.argument _)
  · exact failsWith_ok _

theorem amount0_isLocal (a b liquidity : Int) (roundUp : Bool) :
    FailsWith IsLocal (amount0 a b liquidity roundUp) := by
  cases roundUp
  · exact (floorDiv_isLocal _ _).bind fun _ => floorDiv_isLocal _ _
  · exact (ceilDiv_isLocal _ _).bind fun _ => ceilDiv_isLocal _ _

theorem nextSqrtPrice_isLocal (s liquidity amountIn : Int) (d : Direction) :
    FailsWith IsLocal (nextSqrtPrice s liquidity amountIn d) := by
  unfold nextSqrtPrice
  split
  · exact failsWith_error (.argument _)
  · split
    · exact failsWith_ok _
    · cases d
      · exact ceilDiv_isLocal _ _
      · exact (floorDiv_isLocal _ _).bind fun _ => failsWith_ok _

end Liquidity

namespace SwapStep

variable (current target liquidity : Int) (d : Direction)

theorem inputBetween_isLocal : FailsWith IsLocal (inputBetween current target liquidity d) := by
  cases d
  · exact Liquidity.amount0_isLocal target current liquidity true
  · exact failsWith_ok _

theorem outputBetween_isLocal : FailsWith IsLocal (outputBetween current target liquidity d) := by
  cases d
  · exact failsWith_ok _
  · exact Liquidity.amount0_isLocal current target liquidity false

theorem nextPrice_isLocal (full : Option Int) (net : Int) :
    FailsWith IsLocal (nextPrice full current target liquidity net d) := by
  unfold nextPrice
  split
  · exact failsWith_ok _
  · exact Liquidity.nextSqrtPrice_isLocal _ _ _ _

theorem compute_isLocal (remaining feeRate : Int) :
    FailsWith IsLocal (compute current target liquidity remaining feeRate d) := by
  have hfull : FailsWith IsLocal (fullInput? current target liquidity d) :=
    (inputBetween_isLocal _ _ _ _).bind fun _ => failsWith_ok _
  refine hfull.bind fun full => (nextPrice_isLocal _ _ _ _ _ _).bind fun next => ?_
  split
  · exact (outputBetween_isLocal _ _ _ _).bind fun _ => (ofOption_isLocal _ _).bind fun _ =>
      (ceilDiv_isLocal _ _).bind fun _ => failsWith_ok _
  · exact (inputBetween_isLocal _ _ _ _).bind fun _ =>
      (outputBetween_isLocal _ _ _ _).bind fun _ => failsWith_ok _

end SwapStep

theorem Tick.atSqrtPrice?_isLocal (s : Int) : FailsWith IsLocal (atSqrtPrice? s) := by
  unfold atSqrtPrice?
  split
  · exact failsWith_error (.argument _)
  · exact failsWith_ok _

end Arithmetic

namespace Route

variable (r : Route) (p : Position) (next : Option Tick)

theorem advance_isLocal (bound boundary : Int) (step : SwapStep) :
    FailsWith IsLocal (r.advance p next bound boundary step) := by
  unfold advance
  dsimp only
  split
  · have hcross (t : Tick) : FailsWith IsLocal (r.liquidityBehind p t) := by
      unfold liquidityBehind
      split <;> exact Liquidity.add_isLocal _ _
    cases next with
    | none => exact (failsWith_ok _).bind fun _ => failsWith_ok _
    | some t => exact (hcross t).bind fun _ => failsWith_ok _
  · split
    · exact failsWith_ok _
    · exact (Tick.atSqrtPrice?_isLocal _).bind fun _ => failsWith_ok _

theorem leg_isLocal : FailsWith IsLocal (r.leg p next) :=
  (SwapStep.compute_isLocal _ _ _ _ _ _).bind fun _ => (advance_isLocal _ _ _ _ _ _).bind fun _ =>
    failsWith_ok _

end Route

/-- Whether a fault that asks for tick arrays does so for an allowed cause. -/
def Fault.AsksFor (allowed : MissingData → Prop) (f : Fault) : Prop :=
  ∀ tick remaining cause, f = .insufficientLiquidityData tick remaining cause → allowed cause

theorem Fault.IsLocal.asksFor {allowed : MissingData → Prop} {f : Fault} (h : f.IsLocal) :
    f.AsksFor allowed := by
  rintro _ _ _ rfl
  cases h

namespace Route

variable {r : Route} {ticks : List Tick} {p : Position} {w : Walk} {f : Fault}

theorem blocked_asksFor (h : r.blocked p = some f) :
    f.AsksFor (· = .beyondWindow r.lower r.upper) := by
  unfold blocked at h
  repeat' split at h
  all_goals cases h
  · rintro _ _ _ ⟨⟩
  · rintro _ _ _ ⟨⟩
    rfl

/-- A run asks for tick arrays only where it has left the window. -/
theorem Runs.asksFor (h : r.Runs ticks p w) :
    FailsWith (AsksFor (· = .beyondWindow r.lower r.upper)) w.ending := by
  induction h with
  | done => exact failsWith_ok _
  | failed _ hleg => exact failsWith_error (leg_isLocal _ _ _ _ hleg).asksFor
  | stuck _ _ hblocked => exact failsWith_error (blocked_asksFor hblocked)
  | onward _ _ _ _ ih => exact ih

end Route

section Quote

variable {allowed : MissingData → Prop}

theorem Quote.tradeAmount_asksFor (amount : Scalar) :
    FailsWith (AsksFor allowed) (tradeAmount amount) := by
  unfold tradeAmount
  split
  · split
    · exact failsWith_error (IsLocal.argument _).asksFor
    · split
      · exact failsWith_error (IsLocal.argument _).asksFor
      · exact failsWith_ok _
  · exact failsWith_error nofun

theorem directionFor_asksFor (mintA mintB : Address) (mintIn : Option Address) :
    FailsWith (AsksFor allowed) (directionFor mintA mintB mintIn) := by
  unfold directionFor
  split
  · exact failsWith_ok _
  · split
    · exact failsWith_ok _
    · split
      · exact failsWith_ok _
      · exact failsWith_error nofun

theorem Slippage.apply_asksFor (amount : Int) (slippage : Scalar) :
    FailsWith (AsksFor allowed) (apply amount slippage) := by
  unfold apply
  split
  · exact failsWith_ok _
  · exact failsWith_error nofun

end Quote

namespace ConcentratedPool

variable {s : ConcentratedPool} {amount slippage : Scalar} {mintIn : Option Address}
  {limit : Option Int} {tick remaining : Int} {cause : MissingData}

theorem limitInForce_isLocal (d : Direction) (limit : Option Int) :
    FailsWith IsLocal (s.limitInForce d limit) := by
  unfold limitInForce
  repeat' split
  all_goals first | exact failsWith_ok _ | exact failsWith_error (.argument _)

theorem impactBps_isLocal (amountIn amountOut sqrtPrice : Int) (d : Direction) :
    FailsWith IsLocal (impactBps amountIn amountOut sqrtPrice d) := by
  unfold impactBps
  dsimp only
  split
  · exact failsWith_ok _
  · cases d
    · dsimp only
      split <;> exact failsWith_ok _
    · exact (divisor_isLocal _).bind fun _ => failsWith_ok _

/-- A quote asks for tick arrays because none covers the current tick, or because its walk has left
the window. -/
theorem cause_of_quote (h : s.quote amount slippage mintIn limit =
    .error (.insufficientLiquidityData tick remaining cause)) :
    (s.coveredRange = none ∧ cause = .currentTickNotCovered) ∨
      ∃ window, s.coveredRange = some window ∧ cause = .beyondWindow window.1 window.2 := by
  suffices hquote : FailsWith (AsksFor fun cause =>
      (s.coveredRange = none ∧ cause = .currentTickNotCovered) ∨
        ∃ window, s.coveredRange = some window ∧ cause = .beyondWindow window.1 window.2)
      (s.quote amount slippage mintIn limit) from hquote _ h _ _ _ rfl
  refine (Quote.tradeAmount_asksFor _).bind fun amountIn =>
    (directionFor_asksFor _ _ _).bind fun (d, paid, received) =>
    (Slippage.apply_asksFor _ _).bind fun _ =>
    ((limitInForce_isLocal _ _).mono fun _ hlocal => hlocal.asksFor).bind fun bound => ?_
  dsimp only
  split
  case isTrue => exact failsWith_ok _
  case isFalse =>
    split
    case h_1 hnone =>
      refine failsWith_error ?_
      rintro _ _ _ ⟨⟩
      exact .inl ⟨hnone, rfl⟩
    case h_2 window hwindow =>
      split
      case isTrue => exact failsWith_error nofun
      case isFalse =>
        have hwalk := (Route.walk_runs (s.route d window bound)
          ((s.route d window bound).ticksInOrder s.activeTicks)
          (s.position (amountIn - transferFeeOn (s.transferFees d).1 amountIn))).asksFor
        refine .bind (hwalk.mono fun f hf _ _ _ heq => ?_) fun stop =>
          ((impactBps_isLocal _ _ _ _).mono fun _ hlocal => hlocal.asksFor).bind fun _ =>
          (Slippage.apply_asksFor _ _).bind fun _ => failsWith_ok _
        exact .inr ⟨window, hwindow, hf _ _ _ heq⟩

end ConcentratedPool
end PoolSwap
