import PoolSwap.Proofs.ConstantProduct.Fills

/-! The least input that buys an amount. An input buys an amount exactly if the fee leaves enough of
it, and the fee leaves no less of a larger input, so stepping down from an input that is enough ends
at the smallest one. -/
namespace PoolSwap.ConstantProduct

variable {feeNumerator feeDenominator reserveIn reserveOut amountOut needed amount x y z : Int}

/-- What the fee leaves is the rest of the input, rounded up. -/
theorem net_eq_ceilDiv (hpos : 0 < feeDenominator) (x : Int) : net feeNumerator feeDenominator x =
    ceilDiv (x * (feeDenominator - feeNumerator)) feeDenominator := by
  refine eq_of_forall_ge_iff fun n => ?_
  have hfee : x - n ≤ PoolSwap.floorDiv (x * feeNumerator) feeDenominator ↔
      (x - n) * feeDenominator ≤ x * feeNumerator := le_floorDiv_iff hpos
  rw [ceilDiv_le_iff hpos, net, sub_le_comm, hfee]
  constructor <;> intro h <;> linarith

theorem net_zero (feeNumerator feeDenominator : Int) : net feeNumerator feeDenominator 0 = 0 := by
  simp [net, PoolSwap.floorDiv]

/-- What has to be left of an input after the fee to buy an amount. -/
def neededNet (amountOut reserveIn reserveOut : Int) : Int :=
  PoolSwap.ceilDiv (reserveIn * amountOut) (reserveOut - amountOut)

/-- The input of which the fee would leave that much, if it were not rounded. -/
def grossUp (needed feeNumerator feeDenominator : Int) : Int :=
  PoolSwap.ceilDiv (needed * feeDenominator) (feeDenominator - feeNumerator)

theorem neededNet_pos (hin : 1 ≤ reserveIn) (hpos : 0 < amountOut) (hlt : amountOut < reserveOut) :
    1 ≤ neededNet amountOut reserveIn reserveOut := by
  have hpaid : 0 < reserveIn * amountOut := mul_pos (by omega) hpos
  have hsome : ¬neededNet amountOut reserveIn reserveOut ≤ 0 := by
    rw [neededNet, ceilDiv_le_iff (by omega), zero_mul]
    exact not_le.2 hpaid
  omega

section Fee

variable (hnum : 0 ≤ feeNumerator) (hden : feeNumerator < feeDenominator)
include hnum hden

theorem net_le_net (h : y ≤ z) :
    net feeNumerator feeDenominator y ≤ net feeNumerator feeDenominator z := by
  have hpos : 0 < feeDenominator := by omega
  rw [net_eq_ceilDiv hpos y, net_eq_ceilDiv hpos z, ceilDiv_le_iff hpos]
  have hshare : y * (feeDenominator - feeNumerator) ≤ z * (feeDenominator - feeNumerator) :=
    mul_le_mul_of_nonneg_right h (by omega)
  exact hshare.trans (le_ceilDiv_mul hpos _)

/-- The fee leaves enough of the grossed-up input, so stepping up is never called for. -/
theorem le_net_grossUp (needed : Int) :
    needed ≤ net feeNumerator feeDenominator (grossUp needed feeNumerator feeDenominator) := by
  have hpos : 0 < feeDenominator := by omega
  have hkept : 0 < feeDenominator - feeNumerator := by omega
  rw [net_eq_ceilDiv hpos]
  refine le_of_mul_le_mul_right ?_ hpos
  exact (le_ceilDiv_mul hkept _).trans (le_ceilDiv_mul hpos _)

/-- Stepping down keeps enough, and ends where one unit less is too little. -/
theorem leastSufficient_spec (hneeded : 1 ≤ needed)
    (hamount : needed ≤ net feeNumerator feeDenominator amount) :
    let least := leastSufficient needed feeNumerator feeDenominator amount
    needed ≤ net feeNumerator feeDenominator least ∧
      net feeNumerator feeDenominator (least - 1) < needed := by
  fun_induction leastSufficient needed feeNumerator feeDenominator amount with
  | case1 amount less hless ih => exact ih hless.2
  | case2 amount less hstop =>
    -- The walk also stops at zero, but there the fee leaves nothing, which is never enough.
    refine ⟨hamount, not_le.1 fun (hle : needed ≤ net feeNumerator feeDenominator less) =>
      hstop ⟨?_, hle⟩⟩
    by_contra hone
    have hnone : net feeNumerator feeDenominator less ≤ net feeNumerator feeDenominator 0 :=
      net_le_net hnum hden (by omega)
    rw [net_zero] at hnone
    omega

/-- The least sufficient amount tells which amounts are enough. -/
theorem leastSufficient_le_iff (hneeded : 1 ≤ needed)
    (hamount : needed ≤ net feeNumerator feeDenominator amount) :
    leastSufficient needed feeNumerator feeDenominator amount ≤ y ↔
      needed ≤ net feeNumerator feeDenominator y := by
  obtain ⟨henough, hless⟩ := leastSufficient_spec hnum hden hneeded hamount
  constructor
  · exact fun hle => henough.trans (net_le_net hnum hden hle)
  · intro hy
    by_contra hlt
    have hbelow := net_le_net hnum hden (show y ≤ _ - 1 from Int.le_sub_one_of_lt (not_le.1 hlt))
    omega

/-- An input buys an amount exactly if the fee leaves enough of it. -/
theorem le_output_iff (hx : 0 ≤ x) (hin : 1 ≤ reserveIn) (hlt : amountOut < reserveOut) :
    amountOut ≤ PoolSwap.floorDiv (reserveOut * net feeNumerator feeDenominator x)
        (reserveIn + net feeNumerator feeDenominator x) ↔
      neededNet amountOut reserveIn reserveOut ≤ net feeNumerator feeDenominator x := by
  have hnet := net_nonneg hnum hden hx
  rw [le_floorDiv_iff (by omega), neededNet, ceilDiv_le_iff (by omega)]
  constructor <;> intro h <;> linarith

theorem input_eq (hpos : 0 < amountOut) (hlt : amountOut < reserveOut) :
    input amountOut reserveIn reserveOut feeNumerator feeDenominator =
      .ok (leastSufficient (neededNet amountOut reserveIn reserveOut) feeNumerator feeDenominator
        (grossUp (neededNet amountOut reserveIn reserveOut) feeNumerator feeDenominator)) := by
  have henough := le_net_grossUp hnum hden (neededNet amountOut reserveIn reserveOut)
  unfold input fee
  rw [if_neg (not_le.2 hpos), if_neg (not_le.2 hlt)]
  simp only [bind, Except.bind, Checked.ceilDiv_eq (show reserveOut - amountOut ≠ 0 by omega),
    Checked.ceilDiv_eq (show feeDenominator - feeNumerator ≠ 0 by omega),
    Checked.floorDiv_eq (show feeDenominator ≠ 0 by omega)]
  exact if_neg (not_lt.2 henough)

/-- A larger input buys no less. -/
theorem output_le_output (hy : 0 ≤ y) (hyz : y ≤ z) (hin : 1 ≤ reserveIn) (hout : 1 ≤ reserveOut)
    {less more : Int} (hless : output y reserveIn reserveOut feeNumerator feeDenominator = .ok less)
    (hmore : output z reserveIn reserveOut feeNumerator feeDenominator = .ok more) :
    less ≤ more := by
  obtain ⟨_, hless', -, hlt, -⟩ := exists_output hnum hden hy hin hout
  obtain rfl := Except.ok.inj (hless.symm.trans hless')
  have hbought := Except.ok.inj (hless.symm.trans (output_eq hnum hden hy hin reserveOut))
  have hz := hy.trans hyz
  rw [output_eq hnum hden hz hin] at hmore
  rw [← Except.ok.inj hmore, le_output_iff hnum hden hz hin hlt]
  exact ((le_output_iff hnum hden hy hin hlt).1 hbought.le).trans (net_le_net hnum hden hyz)

end Fee

/-- The least input for an amount below the reserve buys it, and so does every larger input but no
smaller one. An amount of the reserve or more is refused, and no input buys it. -/
theorem input_le_iff_le_output (hin : 1 ≤ reserveIn) (hnum : 0 ≤ feeNumerator)
    (hden : feeNumerator < feeDenominator) :
    (0 < amountOut → amountOut < reserveOut →
      ∃ x, input amountOut reserveIn reserveOut feeNumerator feeDenominator = .ok x ∧ 1 ≤ x ∧
        (∀ y, 0 ≤ y → ∃ out, output y reserveIn reserveOut feeNumerator feeDenominator = .ok out ∧
          (x ≤ y ↔ amountOut ≤ out)) ∧
        ∀ y z less more, 0 ≤ y → y ≤ z →
          output y reserveIn reserveOut feeNumerator feeDenominator = .ok less →
          output z reserveIn reserveOut feeNumerator feeDenominator = .ok more → less ≤ more) ∧
    (max reserveOut 1 ≤ amountOut →
      input amountOut reserveIn reserveOut feeNumerator feeDenominator =
        .error (.argument (.outputNotBelowReserve amountOut reserveOut)) ∧
      ∀ y, 0 ≤ y → ∃ out, output y reserveIn reserveOut feeNumerator feeDenominator = .ok out ∧
        out < amountOut) := by
  constructor
  · intro hpos hlt
    have hneeded := neededNet_pos hin hpos hlt
    have hleast : ∀ y, leastSufficient (neededNet amountOut reserveIn reserveOut) feeNumerator
        feeDenominator (grossUp (neededNet amountOut reserveIn reserveOut) feeNumerator
          feeDenominator) ≤ y ↔
        neededNet amountOut reserveIn reserveOut ≤ net feeNumerator feeDenominator y := fun y =>
      leastSufficient_le_iff hnum hden hneeded (le_net_grossUp hnum hden _)
    refine ⟨_, input_eq hnum hden hpos hlt, ?_, fun y hy => ?_, fun y z less more hy hyz => ?_⟩
    · -- Nothing is left of no input, so the least one is not below one.
      have hsome := mt (hleast 0).1 (by rw [net_zero]; omega)
      omega
    · exact ⟨_, output_eq hnum hden hy hin reserveOut,
        (hleast y).trans (le_output_iff hnum hden hy hin hlt).symm⟩
    · exact output_le_output hnum hden hy hyz hin (by omega)
  · intro hall
    obtain ⟨hreserve, hpos⟩ := max_le_iff.1 hall
    refine ⟨?_, fun y hy => ⟨_, output_eq hnum hden hy hin reserveOut, ?_⟩⟩
    · unfold input
      rw [if_neg (by omega), if_pos hreserve]
    · have hnet := net_nonneg hnum hden hy
      refine not_le.1 fun hle => ?_
      have hpaid := (le_floorDiv_iff (by omega)).1 hle
      have hshare := mul_le_mul_of_nonneg_right hreserve hnet
      have hlost : 0 < amountOut * reserveIn := mul_pos (by omega) (by omega)
      linarith

/-- With a fee of all but a ten-thousandth, an amount that needs two units after the fee takes just
over ten thousand. -/
theorem input_le_iff_le_output_nearlyAll :
    (1 : Int) ≤ 1000 ∧ (0 : Int) ≤ 9999 ∧ (9999 : Int) < 10000 ∧ (0 : Int) < 3 ∧ (3 : Int) < 2000 ∧
    output 10000 1000 2000 9999 10000 = .ok 1 ∧ output 10001 1000 2000 9999 10000 = .ok 3 ∧
    input 3 1000 2000 9999 10000 = .ok 10001 ∧ max (2000 : Int) 1 ≤ 2000 ∧
    input 2000 1000 2000 9999 10000 = .error (.argument (.outputNotBelowReserve 2000 2000)) := by
  have hbelow : output 10000 1000 2000 9999 10000 = .ok 1 := by decide
  have hat : output 10001 1000 2000 9999 10000 = .ok 3 := by decide
  have hin : (1 : Int) ≤ 1000 := by decide
  have hnum : (0 : Int) ≤ 9999 := by decide
  have hden : (9999 : Int) < 10000 := by decide
  obtain ⟨x, hx, -, hbuys, -⟩ :=
    (input_le_iff_le_output hin hnum hden).1 (show (0 : Int) < 3 by decide)
      (show (3 : Int) < 2000 by decide)
  obtain ⟨out, hout, hmore⟩ := hbuys 10001 (by decide)
  obtain ⟨out', hout', hless⟩ := hbuys 10000 (by decide)
  cases hat.symm.trans hout
  cases hbelow.symm.trans hout'
  obtain rfl : x = 10001 := by omega
  exact ⟨hin, hnum, hden, by decide, by decide, hbelow, hat, hx, by decide,
    ((input_le_iff_le_output hin hnum hden).2 (by decide)).1⟩

end PoolSwap.ConstantProduct
