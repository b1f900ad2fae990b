import PoolSwap.Proofs.Layout.Reader
import PoolSwap.Proofs.Plan.Shape

/-! The formats in which programs read the data of a swap. A format takes its data apart from the
front, so data that is read to its end stands for one swap only. -/
namespace PoolSwap

theorem ConcentratedKeys.swapDiscriminator_eq :
    swapDiscriminator = [43, 4, 237, 11, 26, 201, 30, 98] := by
  decide +kernel

theorem ConcentratedKeys.length_swapDiscriminator : swapDiscriminator.length = 8 := by
  rw [swapDiscriminator_eq]
  rfl

namespace FieldReader

/-- Bytes that must be the given ones. -/
def expect (expected : Bytes) : FieldReader Unit := do
  let head ← bytes expected.length
  if head = expected then pure () else failure

/-- A byte that is zero or one. -/
def flag : FieldReader Bool := do
  match ← unsigned 1 with
  | 0 => pure false
  | 1 => pure true
  | _ => failure

theorem run_expect (expected rest : Bytes) :
    (expect expected).run (expected ++ rest) = some ((), rest) :=
  run_bind_eq_some.2 ⟨expected, rest, bytes_append rfl rest, by rw [if_pos rfl]; rfl⟩

theorem run_flag (b : Bool) (rest : Bytes) :
    flag.run ((if b then 1 else 0) :: rest) = some (b, rest) := by
  cases b with
  | false =>
    exact run_bind_eq_some.2 ⟨0, rest, @unsigned_append 1 0 (by decide) rest, rfl⟩
  | true =>
    exact run_bind_eq_some.2 ⟨1, rest, @unsigned_append 1 1 (by decide) rest, rfl⟩

end FieldReader

/-- What a program is told about a swap. -/
structure SwapTerms where
  amount : Int
  threshold : Int
  /-- The price limit and whether the amount is the one paid. Standard pools are told neither. -/
  limit : Option (Int × Bool)
deriving DecidableEq

namespace PoolKind

open FieldReader

/-- Reads the data of a swap as the program of a kind of pools does. -/
def swapFormat : PoolKind → FieldReader SwapTerms
  | .standard => do
    expect [9]
    let amount ← unsigned 8
    let threshold ← unsigned 8
    pure ⟨amount, threshold, none⟩
  | .concentrated => do
    expect [43, 4, 237, 11, 26, 201, 30, 98]
    let amount ← unsigned 8
    let threshold ← unsigned 8
    let limit ← unsigned 16
    let isBaseInput ← flag
    pure ⟨amount, threshold, some (limit, isBaseInput)⟩

def swapSize : PoolKind → Nat
  | .standard => 1 + 8 + 8
  | .concentrated => 8 + 8 + 8 + 16 + 1

end PoolKind

open LittleEndian

section Data

variable {owner source destination : Address} {d : Direction} {amountIn minAmountOut limitPrice : Int}
  {swap : Instruction}

theorem StandardKeys.exists_data {k : StandardKeys}
    (h : k.swapInstruction owner source destination amountIn minAmountOut = .ok swap) :
    ∃ amount threshold : Nat, (amountIn = amount ∧ amount < capacity 8) ∧
      (minAmountOut = threshold ∧ threshold < capacity 8) ∧
      swap.data = swapTag :: encode 8 amount ++ encode 8 threshold := by
  obtain ⟨_, hamountBytes, h⟩ := Checked.bind_eq_ok.1 h
  obtain ⟨_, hthresholdBytes, h⟩ := Checked.bind_eq_ok.1 h
  obtain ⟨amount, hamount, hamountFits, rfl⟩ := fieldBytes_eq_ok.1 hamountBytes
  obtain ⟨threshold, hthreshold, hthresholdFits, rfl⟩ := fieldBytes_eq_ok.1 hthresholdBytes
  cases h
  exact ⟨amount, threshold, ⟨hamount, hamountFits⟩, ⟨hthreshold, hthresholdFits⟩, rfl⟩

theorem ConcentratedKeys.exists_data {k : ConcentratedKeys} {isBaseInput : Bool}
    (h : k.swapInstruction owner source destination d amountIn minAmountOut limitPrice isBaseInput =
      .ok swap) :
    ∃ amount threshold limit : Nat, (amountIn = amount ∧ amount < capacity 8) ∧
      (minAmountOut = threshold ∧ threshold < capacity 8) ∧
      (limitPrice = limit ∧ limit < capacity 16) ∧
      swap.data = swapDiscriminator ++ encode 8 amount ++ encode 8 threshold ++ encode 16 limit ++
        [if isBaseInput then 1 else 0] := by
  obtain ⟨_, hdata, h⟩ := Checked.bind_eq_ok.1 h
  obtain ⟨_, hamountBytes, hdata⟩ := Checked.bind_eq_ok.1 hdata
  obtain ⟨_, hthresholdBytes, hdata⟩ := Checked.bind_eq_ok.1 hdata
  obtain ⟨_, hlimitBytes, hdata⟩ := Checked.bind_eq_ok.1 hdata
  obtain ⟨amount, hamount, hamountFits, rfl⟩ := fieldBytes_eq_ok.1 hamountBytes
  obtain ⟨threshold, hthreshold, hthresholdFits, rfl⟩ := fieldBytes_eq_ok.1 hthresholdBytes
  obtain ⟨limit, hlimit, hlimitFits, rfl⟩ := fieldBytes_eq_ok.1 hlimitBytes
  cases hdata
  cases h
  exact ⟨amount, threshold, limit, ⟨hamount, hamountFits⟩, ⟨hthreshold, hthresholdFits⟩,
    ⟨hlimit, hlimitFits⟩, rfl⟩

end Data

namespace SwapRequest

open FieldReader

variable {q : SwapRequest} {k : PoolKeys} {d : Direction} {source destination : Address}
  {swap : Instruction}

def terms (q : SwapRequest) : PoolKind → SwapTerms
  | .standard => ⟨q.amountIn, q.minAmountOut, none⟩
  | .concentrated => ⟨q.amountIn, q.minAmountOut, some (q.sqrtPriceLimit, true)⟩

/-- The program reads the terms of the request, and nothing is left over. -/
theorem run_swapFormat (h : q.swapInstruction k d source destination = .ok swap) :
    k.kind.swapFormat.run swap.data = some (q.terms k.kind, []) := by
  cases k with
  | standard k =>
    obtain ⟨amount, threshold, hamount, hthreshold, hdata⟩ := StandardKeys.exists_data h
    have hlast : unsigned 8 (encode 8 threshold) = some (threshold, []) := by
      simpa using unsigned_append hthreshold.2 []
    rw [hdata, PoolKeys.kind, terms, hamount.1, hthreshold.1]
    exact run_bind_eq_some.2 ⟨_, _, run_expect [9] _,
      run_bind_eq_some.2 ⟨_, _, unsigned_append hamount.2 _,
      run_bind_eq_some.2 ⟨_, _, hlast, rfl⟩⟩⟩
  | concentrated k =>
    obtain ⟨amount, threshold, limit, hamount, hthreshold, hlimit, hdata⟩ :=
      ConcentratedKeys.exists_data h
    rw [hdata, ConcentratedKeys.swapDiscriminator_eq, PoolKeys.kind, terms, hamount.1, hthreshold.1,
      hlimit.1]
    simp only [List.append_assoc]
    exact run_bind_eq_some.2 ⟨_, _, run_expect _ _,
      run_bind_eq_some.2 ⟨_, _, unsigned_append hamount.2 _,
      run_bind_eq_some.2 ⟨_, _, unsigned_append hthreshold.2 _,
      run_bind_eq_some.2 ⟨_, _, unsigned_append hlimit.2 _,
      run_bind_eq_some.2 ⟨_, _, run_flag true [], rfl⟩⟩⟩⟩⟩

theorem length_swap_data (h : q.swapInstruction k d source destination = .ok swap) :
    swap.data.length = k.kind.swapSize := by
  cases k with
  | standard k =>
    obtain ⟨amount, threshold, -, -, hdata⟩ := StandardKeys.exists_data h
    rw [hdata]
    simp [PoolKeys.kind, PoolKind.swapSize]
  | concentrated k =>
    obtain ⟨amount, threshold, limit, -, -, -, hdata⟩ := ConcentratedKeys.exists_data h
    rw [hdata]
    simp [PoolKeys.kind, PoolKind.swapSize, ConcentratedKeys.length_swapDiscriminator]

end SwapRequest
end PoolSwap
