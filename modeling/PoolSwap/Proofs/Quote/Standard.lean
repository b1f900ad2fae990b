import PoolSwap.Proofs.ConstantProduct.Fills
import PoolSwap.Proofs.Node.StandardPool
import PoolSwap.Proofs.Quote.Fields
import PoolSwap.Quote.Supplied

/-! Quotes of standard pools. A trade against two funded reserves is always quoted, never at a better
price than the reserves offer, and the impact is what the price falls short by. -/
namespace PoolSwap

namespace ConstantProduct

variable {feeNumerator feeDenominator x out reserveIn reserveOut : Int}

theorem fee_inside (hnum : 0 ≤ feeNumerator) (hden : feeNumerator < feeDenominator)
    (hx : 0 ≤ x) :
    ∃ kept, fee x feeNumerator feeDenominator = .ok kept ∧ 0 ≤ kept ∧ kept ≤ x := by
  have hnonneg := net_nonneg hnum hden hx
  have hle := net_le hnum hden hx
  unfold net at hnonneg hle
  exact ⟨_, Checked.floorDiv_eq (show feeDenominator ≠ 0 by omega) _, by omega, by omega⟩

/-- An output that the input less the fee pays for is never better than the price of the reserves. -/
theorem output_le_spot (hnum : 0 ≤ feeNumerator) (hden : feeNumerator < feeDenominator)
    (hx : 0 ≤ x) (hnonneg : 0 ≤ out) (hlt : out < reserveOut)
    (hrate : out * (reserveIn + net feeNumerator feeDenominator x) ≤
      reserveOut * net feeNumerator feeDenominator x) : out * reserveIn ≤ x * reserveOut := by
  have hnet := net_nonneg hnum hden hx
  have hle := net_le hnum hden hx
  have hkept : 0 ≤ out * net feeNumerator feeDenominator x := mul_nonneg hnonneg hnet
  have hwhole : reserveOut * net feeNumerator feeDenominator x ≤ reserveOut * x :=
    mul_le_mul_of_nonneg_left hle (by omega)
  linarith

section Impact

variable (hx : 0 < x) (hin : 1 ≤ reserveIn) (hout : 1 ≤ reserveOut)
  (hspot : out * reserveIn ≤ x * reserveOut)
include hx hin hout hspot

/-- The impact is the whole number of basis points that the output falls short of the price by. -/
theorem impactBps_eq_iff (i : Int) : impactBps x out reserveIn reserveOut = i ↔
    x * reserveOut * (9999 - i) < 10000 * out * reserveIn ∧
      10000 * out * reserveIn ≤ x * reserveOut * (10000 - i) := by
  have hideal : 0 < x * reserveOut := mul_pos hx (by omega)
  have hshort : 0 ≤ PoolSwap.floorDiv ((x * reserveOut - out * reserveIn) * bpsDenominator)
      (x * reserveOut) :=
    floorDiv_nonneg hideal (mul_nonneg (sub_nonneg.2 hspot) (by decide))
  unfold impactBps
  rw [if_neg (show ¬ (reserveIn = 0 ∨ reserveOut = 0 ∨ x = 0) by omega), max_eq_right hshort,
    floorDiv_eq_iff hideal, bpsDenominator]
  constructor <;> rintro ⟨hlow, hhigh⟩ <;> constructor <;> linarith

theorem impactBps_le (hnonneg : 0 ≤ out) : impactBps x out reserveIn reserveOut ≤ 10000 := by
  have hideal : 0 < x * reserveOut := mul_pos hx (by omega)
  obtain ⟨-, hhigh⟩ := (impactBps_eq_iff hx hin hout hspot _).1 rfl
  have hgot : 0 ≤ 10000 * out * reserveIn := mul_nonneg (by omega) (by omega)
  exact sub_nonneg.1 (nonneg_of_mul_nonneg_right (hgot.trans hhigh) hideal)

end Impact

theorem impactBps_nonneg (x out reserveIn reserveOut : Int) :
    0 ≤ impactBps x out reserveIn reserveOut := by
  unfold impactBps
  split
  · exact le_rfl
  · exact le_max_left _ _

theorem impactBps_zero (out reserveIn reserveOut : Int) :
    impactBps 0 out reserveIn reserveOut = 0 := if_pos (.inr (.inr rfl))

end ConstantProduct

namespace StandardPool

variable {S : StandardPool} {slippage : Scalar} {mintIn : Option Address} {d : Direction}
  {paid received : Address} {x : Int}

def reserves (S : StandardPool) : ConstantProduct.Reserves := ⟨S.reserveA, S.reserveB⟩

theorem reservesFor_eq (h : directionFor S.mintA S.mintB mintIn = .ok (d, paid, received)) :
    S.reservesFor paid = .ok (S.reserves.paid d, S.reserves.bought d, received) := by
  unfold directionFor at h
  split at h
  case h_1 =>
    cases h
    exact if_pos rfl
  case h_2 mint =>
    split at h
    case isTrue =>
      cases h
      exact if_pos rfl
    case isFalse hne =>
      split at h
      case isTrue heq =>
        cases h
        exact (if_neg (heq ▸ hne)).trans (if_pos rfl)
      case isFalse => cases h

/-- What a quote of an input promises against the reserves it is made for. -/
structure Promises (S : StandardPool) (d : Direction) (x : Int) (q : Quote) : Prop where
  amountIn_eq : q.amountIn = x
  fee_nonneg : 0 ≤ q.fee
  fee_le : q.fee ≤ x
  minAmountOut_nonneg : 0 ≤ q.minAmountOut
  minAmountOut_le : q.minAmountOut ≤ q.amountOut
  amountOut_lt : q.amountOut < S.reserves.bought d
  spot : q.amountOut * S.reserves.paid d ≤ x * S.reserves.bought d
  impactBps_nonneg : 0 ≤ q.impactBps
  impactBps_le : q.impactBps ≤ 10000
  impactBps_eq_iff : 0 < x → ∀ i, q.impactBps = i ↔
    x * S.reserves.bought d * (9999 - i) < 10000 * q.amountOut * S.reserves.paid d ∧
      10000 * q.amountOut * S.reserves.paid d ≤ x * S.reserves.bought d * (10000 - i)

theorem isFunded_iff (d : Direction) : S.isFunded = true ↔
    1 ≤ S.reserves.paid d ∧ 1 ≤ S.reserves.bought d := by
  rw [← ConstantProduct.Reserves.funded_iff d]
  unfold isFunded
  rw [decide_eq_true_eq]
  exact ⟨fun h => ⟨h.1, h.2⟩, fun h => ⟨h.a_pos, h.b_pos⟩⟩

/-- The quote of an input that leaves a fee, an output and a least accepted one. -/
def quoteOf (S : StandardPool) (d : Direction) (paid received : Address)
    (x fee amountOut minAmountOut : Int) : Quote where
  kind := .standard
  mintIn := paid
  mintOut := received
  amountIn := x
  amountOut := amountOut
  minAmountOut := minAmountOut
  fee := fee
  impactBps := ConstantProduct.impactBps x amountOut (S.reserves.paid d) (S.reserves.bought d)
  arraysCrossed := []
  sqrtPriceAfter := none
  transferFees := 0
  sqrtPriceLimit := 0

section Quote

variable (hdirection : directionFor S.mintA S.mintB mintIn = .ok (d, paid, received))
  (hnonneg : 0 ≤ x) (hmax : x ≤ Tick.maxU64)
include hdirection hnonneg hmax

theorem quote_eq (slippage : Scalar) : S.quote (.int x) slippage mintIn =
    if !S.isFunded then .error (.insufficientLiquidity (.emptyReserve S.poolId))
    else (do
      let fee ← ConstantProduct.fee x S.feeNumerator S.feeDenominator
      let amountOut ← ConstantProduct.output x (S.reserves.paid d) (S.reserves.bought d)
        S.feeNumerator S.feeDenominator
      let minAmountOut ← Slippage.apply amountOut slippage
      pure (S.quoteOf d paid received x fee amountOut minAmountOut)) := by
  unfold quote
  rw [Quote.tradeAmount_eq_ok.2 ⟨rfl, hnonneg, hmax⟩, hdirection]
  change (S.reservesFor paid >>= _) = _
  rw [reservesFor_eq hdirection]
  rfl

/-- With both reserves funded, a trade is quoted. -/
theorem exists_quote (hslippage : (Slippage.fraction? slippage).isSome)
    (hfunded : S.isFunded = true) (hdigits : S.reserves.bought d < 10 ^ Decimal.precision) :
    ∃ q, S.quote (.int x) slippage mintIn = .ok q ∧ S.Promises d x q := by
  obtain ⟨hin, hout⟩ := (isFunded_iff d).1 hfunded
  obtain ⟨kept, hkept, hfee, hfee'⟩ :=
    ConstantProduct.fee_inside S.fee_nonneg S.fee_lt_one hnonneg
  obtain ⟨out, houtput, hpos, hlt, hrate⟩ :=
    ConstantProduct.exists_output S.fee_nonneg S.fee_lt_one hnonneg hin hout
  have hspot := ConstantProduct.output_le_spot S.fee_nonneg S.fee_lt_one hnonneg hpos hlt hrate
  obtain ⟨least, hleast⟩ := Slippage.exists_apply hslippage out
  obtain ⟨hleast_nonneg, hleast_le⟩ := Slippage.apply_inside hleast hpos (hlt.trans hdigits)
  refine ⟨S.quoteOf d paid received x kept out least, ?_, ?_⟩
  · rw [quote_eq hdirection hnonneg hmax, hfunded]
    exact Checked.bind_eq_ok.2 ⟨kept, hkept, Checked.bind_eq_ok.2
      ⟨out, houtput, Checked.bind_eq_ok.2 ⟨least, hleast, rfl⟩⟩⟩
  · exact {
      amountIn_eq := rfl
      fee_nonneg := hfee
      fee_le := hfee'
      minAmountOut_nonneg := hleast_nonneg
      minAmountOut_le := hleast_le
      amountOut_lt := hlt
      spot := hspot
      impactBps_nonneg := ConstantProduct.impactBps_nonneg _ _ _ _
      impactBps_le := by
        rcases hnonneg.eq_or_lt with rfl | hx
        · exact (ConstantProduct.impactBps_zero _ _ _).trans_le (by decide)
        · exact ConstantProduct.impactBps_le hx hin hout hspot hpos
      impactBps_eq_iff := fun hx => ConstantProduct.impactBps_eq_iff hx hin hout hspot }

end Quote

end StandardPool

namespace Node

/-- The data of a pool account with a fee of a quarter percent that owes 5 and 7 to the protocol. -/
def owingPool : Bytes :=
  LittleEndian.encode 8 6 ++ List.replicate 24 0 ++ LittleEndian.encode 8 6 ++
  LittleEndian.encode 8 6 ++ List.replicate 128 0 ++ LittleEndian.encode 8 25 ++
  LittleEndian.encode 8 10000 ++ LittleEndian.encode 8 5 ++ LittleEndian.encode 8 7 ++
  List.replicate 128 0 ++
  ([4, 5, 2, 3, 6, 7, 8, 9, 10].map fun n => (Address.ofNat n).bytes).flatten ++
  List.replicate 64 0 ++ (Address.ofNat 11).bytes ++ List.replicate 32 0

def vault (amount : Nat) : Account :=
  ⟨.tokenProgram, List.replicate 64 0 ++ LittleEndian.encode 8 amount ++ List.replicate 93 0⟩

/-- A node that holds that pool with 1000005 and 2000007 in its vaults. -/
def owing : Node where
  accounts a :=
    if a = .ofNat 1 then some ⟨.standardPoolProgram, owingPool⟩
    else if a = .ofNat 4 then some (vault 1000005)
    else if a = .ofNat 5 then some (vault 2000007)
    else none
  epoch := 0
  blockhash := .ofNat 0
  sending := .error ""
  simulating := .error ""
  failures := []
  calls := []

/-- The pool as it is read. -/
def owed : StandardPool where
  poolId := .ofNat 1
  mintA := .ofNat 2
  mintB := .ofNat 3
  reserveA := 1000000
  reserveB := 2000000
  feeNumerator := 25
  feeDenominator := 10000
  denominator_pos := by decide
  fee_nonneg := by decide
  fee_lt_one := by decide
  reserveA_nonneg := by decide
  reserveB_nonneg := by decide

/-- What its account says. -/
def owingAccount : StandardPoolAccount where
  status := 6
  baseDecimal := 6
  quoteDecimal := 6
  swapFeeNumerator := 25
  swapFeeDenominator := 10000
  baseNeedTakePnl := 5
  quoteNeedTakePnl := 7
  baseVault := .ofNat 4
  quoteVault := .ofNat 5
  baseMint := .ofNat 2
  quoteMint := .ofNat 3
  lpMint := .ofNat 6
  openOrders := .ofNat 7
  marketId := .ofNat 8
  marketProgramId := .ofNat 9
  targetOrders := .ofNat 10
  owner := .ofNat 11

/-- The pool is read from every node that holds its account and its vaults. -/
theorem read_owed {n : Node} (hreach : ∀ m, n.reach m = .ok ())
    (hpool : n.accounts (.ofNat 1) = some ⟨.standardPoolProgram, owingPool⟩)
    (hbase : n.accounts (.ofNat 4) = some (vault 1000005))
    (hquote : n.accounts (.ofNat 5) = some (vault 2000007)) :
    (n.ask (readStandardPool (.ofNat 1) .standardPoolProgram)).1 = .ok owed := by
  have hdecode : StandardPoolAccount.decode owingPool (some (Address.ofNat 1).text) =
      .ok owingAccount := by decide +kernel
  refine dataOf_bind_eq_ok.2 ⟨hreach _, _, hpool, rfl, ?_⟩
  refine liftChecked_bind_eq_ok.2 ⟨owingAccount, hdecode, ?_⟩
  refine multipleAccounts_bind_eq_ok.2 ⟨hreach _, ?_⟩
  refine liftChecked_bind_eq_ok.2 ⟨1000005, ?_, ?_⟩
  · change vaultAmount _ _ (n.accounts (.ofNat 4)) = _
    rw [hbase]
    exact vaultAmount_of_token (by decide +kernel)
  refine liftChecked_bind_eq_ok.2 ⟨2000007, ?_, rfl⟩
  change vaultAmount _ _ (n.accounts (.ofNat 5)) = _
  rw [hquote]
  exact vaultAmount_of_token (by decide +kernel)

theorem owing_read : (owing.ask (readStandardPool (.ofNat 1) .standardPoolProgram)).1 = .ok owed :=
  read_owed (fun _ => rfl) rfl rfl rfl

end Node

/-- A quote of a pool that was read from a node fails only for an empty reserve, and else promises no
more than the reserves offer. -/
theorem quote_readStandardPool {n : Node} {poolId program : Address} {S : StandardPool}
    (hread : (n.ask (Node.readStandardPool poolId program)).1 = .ok S) :
    (∃ pool base quote, n.HoldsPool poolId S pool base quote) ∧
    S.reserveA < 2 ^ 64 ∧ S.reserveB < 2 ^ 64 ∧
    ∀ mintIn d paid received slippage x,
      directionFor S.mintA S.mintB mintIn = .ok (d, paid, received) →
      (Slippage.fraction? slippage).isSome → 0 ≤ x → x ≤ Tick.maxU64 →
      let quote := PoolSnapshot.quote (.value (.standard S)) (.int x) slippage mintIn none
      (∀ f, quote = .error f ↔ (S.reserveA = 0 ∨ S.reserveB = 0) ∧
        f = .insufficientLiquidity (.emptyReserve S.poolId)) ∧
      ∀ q, quote = .ok q → S.Promises d x q := by
  obtain ⟨pool, base, quote, hholds⟩ := Node.readStandardPool_holds hread
  have hcapacity : (LittleEndian.capacity 8 : Int) = 2 ^ 64 := by decide
  obtain ⟨hA, hB⟩ := hholds.reserves_lt
  rw [hcapacity] at hA hB
  refine ⟨⟨pool, base, quote, hholds⟩, hA, hB, ?_⟩
  intro mintIn d paid received slippage x hdirection hslippage hnonneg hmax quote
  have hquote : quote = S.quote (.int x) slippage mintIn := by
    simp only [quote, PoolSnapshot.quote, Quote.tradeAmount_eq_ok.2 ⟨rfl, hnonneg, hmax⟩]
    rfl
  have hfunded : S.isFunded = false ↔ S.reserveA = 0 ∨ S.reserveB = 0 := by
    have hA' := S.reserveA_nonneg
    have hB' := S.reserveB_nonneg
    unfold StandardPool.isFunded
    rw [decide_eq_false_iff_not]
    omega
  rw [hquote]
  cases hempty : S.isFunded with
  | false =>
    have herror : S.quote (.int x) slippage mintIn =
        .error (.insufficientLiquidity (.emptyReserve S.poolId)) := by
      rw [StandardPool.quote_eq hdirection hnonneg hmax, hempty]
      rfl
    rw [herror]
    refine ⟨fun f => ⟨fun h => ⟨hfunded.1 hempty, (Except.error.inj h).symm⟩, ?_⟩, nofun⟩
    rintro ⟨-, rfl⟩
    rfl
  | true =>
    have hdigits : S.reserves.bought d < 10 ^ Decimal.precision := by
      cases d
      · exact hB.trans (by decide)
      · exact hA.trans (by decide)
    obtain ⟨q, hq, hpromises⟩ :=
      StandardPool.exists_quote hdirection hnonneg hmax hslippage hempty hdigits
    rw [hq]
    refine ⟨fun f => ⟨nofun, fun ⟨hzero, _⟩ => ?_⟩, fun q' hq' => Except.ok.inj hq' ▸ hpromises⟩
    cases hempty.symm.trans (hfunded.2 hzero)

/-- A sale of ten thousand of the first mint, with half a percent of slippage. -/
theorem PoolSnapshot.quote_owed :
    quote (.value (.standard Node.owed)) (.int 10000) (.text "0.005") none none =
      .ok (Node.owed.quoteOf .zeroForOne (.ofNat 2) (.ofNat 3) 10000 25 19752 19653) := by
  decide +kernel

theorem quote_readStandardPool_owing :
    (Node.owing.ask (Node.readStandardPool (.ofNat 1) .standardPoolProgram)).1 = .ok Node.owed ∧
    directionFor Node.owed.mintA Node.owed.mintB none = .ok (.zeroForOne, .ofNat 2, .ofNat 3) ∧
    (Slippage.fraction? (.text "0.005")).isSome ∧
    ∃ q, PoolSnapshot.quote (.value (.standard Node.owed)) (.int 10000) (.text "0.005") none none =
        .ok q ∧ q.fee = 25 ∧ q.amountOut = 19752 ∧ q.minAmountOut = 19653 ∧
      Node.owed.Promises .zeroForOne 10000 q := by
  have hdirection : directionFor Node.owed.mintA Node.owed.mintB none =
      .ok (.zeroForOne, .ofNat 2, .ofNat 3) := rfl
  have hslippage : (Slippage.fraction? (.text "0.005")).isSome := by decide +kernel
  obtain ⟨-, -, -, hquotes⟩ := quote_readStandardPool Node.owing_read
  obtain ⟨-, hpromises⟩ :=
    hquotes none _ _ _ (.text "0.005") 10000 hdirection hslippage (by decide) (by decide)
  exact ⟨Node.owing_read, hdirection, hslippage, _, PoolSnapshot.quote_owed, rfl, rfl, rfl,
    hpromises _ PoolSnapshot.quote_owed⟩

end PoolSwap
