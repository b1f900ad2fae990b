import PoolSwap.Tick.SwapStep

/-! Snapshots of pools. A standard pool is its two reserves and its fee; a concentrated pool is its
price, its liquidity and the tick arrays loaded around its current tick. -/
namespace PoolSwap

inductive PoolKind where
  | standard
  | concentrated
deriving DecidableEq, Repr

def PoolKind.name : PoolKind → String
  | standard => "standard"
  | concentrated => "concentrated"

def PoolKind.ofName? (name : String) : Option PoolKind :=
  [standard, concentrated].find? (·.name = name)

structure StandardPool where
  poolId : Address
  mintA : Address
  mintB : Address
  reserveA : Int
  reserveB : Int
  feeNumerator : Int
  feeDenominator : Int
  denominator_pos : 0 < feeDenominator
  fee_nonneg : 0 ≤ feeNumerator
  fee_lt_one : feeNumerator < feeDenominator
  reserveA_nonneg : 0 ≤ reserveA
  reserveB_nonneg : 0 ≤ reserveB
deriving DecidableEq

namespace StandardPool

/-- A snapshot of a pool whose fee is a fraction below one and whose reserves are not negative. -/
def make? (poolId mintA mintB : Address) (reserveA reserveB feeNumerator feeDenominator : Int) :
    Except BadArgument StandardPool :=
  if hd : 0 < feeDenominator then
    if hf : 0 ≤ feeNumerator ∧ feeNumerator < feeDenominator then
      if hr : 0 ≤ reserveA ∧ 0 ≤ reserveB then
        .ok ⟨poolId, mintA, mintB, reserveA, reserveB, feeNumerator, feeDenominator,
          hd, hf.1, hf.2, hr.1, hr.2⟩
      else .error .negativeReserves
    else .error (.feeFraction feeNumerator feeDenominator)
  else .error (.feeDenominator feeDenominator)

def isFunded (s : StandardPool) : Bool := 0 < s.reserveA ∧ 0 < s.reserveB

/-- The reserves on the paying and the paid side, and the mint that is paid out. -/
def reservesFor (s : StandardPool) (mintIn : Address) : Checked (Int × Int × Address) :=
  if mintIn = s.mintA then .ok (s.reserveA, s.reserveB, s.mintB)
  else if mintIn = s.mintB then .ok (s.reserveB, s.reserveA, s.mintA)
  else .error (.unknownMint mintIn)

end StandardPool

/-- A price boundary with the change of liquidity on crossing it upward. -/
structure Tick where
  index : Int
  liquidityNet : Int
  liquidityGross : Int
deriving DecidableEq, Repr

def Tick.isActive (t : Tick) : Bool := t.liquidityGross ≠ 0 || t.liquidityNet ≠ 0

def Tick.le (a b : Tick) : Bool := a.index ≤ b.index

structure TickArray where
  start : Int
  ticks : List Tick
  /-- Absent for an array that does not exist and only stands for its empty range. -/
  address : Option Address
deriving DecidableEq

def TickArray.stop (a : TickArray) (spacing : Int) : Int := a.start + Tick.arraySize * spacing

/-- A fee that a mint withholds from every transfer, in basis points up to a maximum. -/
structure TransferFee where
  basisPoints : Int
  maximum : Int
deriving DecidableEq, Repr

def TransferFee.on (f : TransferFee) (amount : Int) : Int :=
  if f.basisPoints = 0 ∨ amount = 0 then 0
  else min (ceilDiv (amount * f.basisPoints) 10000) f.maximum

def transferFeeOn (fee : Option TransferFee) (amount : Int) : Int :=
  match fee with
  | some f => f.on amount
  | none => 0

structure ConcentratedPool where
  poolId : Address
  mintA : Address
  mintB : Address
  sqrtPrice : Int
  tickCurrent : Int
  liquidity : Int
  tickSpacing : Int
  feeRate : Int
  arrays : List TickArray
  decimalsA : Int
  decimalsB : Int
  transferFeeA : Option TransferFee
  transferFeeB : Option TransferFee
  starts_ascending : (arrays.map (·.start)).Pairwise (· < ·)
  spacing_pos : 0 < tickSpacing
deriving DecidableEq

namespace ConcentratedPool

/-- A snapshot with arrays in ascending order and a positive spacing. -/
def make? (poolId mintA mintB : Address) (sqrtPrice tickCurrent liquidity tickSpacing feeRate : Int)
    (arrays : List TickArray) (decimalsA decimalsB : Int)
    (transferFeeA transferFeeB : Option TransferFee) : Except BadArgument ConcentratedPool :=
  if ha : (arrays.map (·.start)).Pairwise (· < ·) then
    if hs : 0 < tickSpacing then
      .ok ⟨poolId, mintA, mintB, sqrtPrice, tickCurrent, liquidity, tickSpacing, feeRate, arrays,
        decimalsA, decimalsB, transferFeeA, transferFeeB, ha, hs⟩
    else .error (.tickSpacing tickSpacing)
  else .error .unorderedTickArrays

def span (s : ConcentratedPool) : Int := Tick.arraySize * s.tickSpacing

def covers (s : ConcentratedPool) (a : TickArray) (tick : Int) : Bool :=
  a.start ≤ tick ∧ tick < a.start + s.span

/-- Extends a range downward over arrays, nearest first, that end where it begins. -/
def extendDown (span : Int) (lower : Int) : List TickArray → Int
  | [] => lower
  | a :: rest => if a.start + span = lower then extendDown span a.start rest else lower

/-- Extends a range upward over arrays, nearest first, that begin where it ends. -/
def extendUp (span : Int) (upper : Int) : List TickArray → Int
  | [] => upper
  | a :: rest => if a.start = upper then extendUp span (a.start + span) rest else upper

/-- The contiguous range of ticks, without its upper end, that the loaded arrays cover around the
current tick. -/
def coveredRange (s : ConcentratedPool) : Option (Int × Int) :=
  match s.arrays.dropWhile fun a => !s.covers a s.tickCurrent with
  | [] => none
  | a :: after =>
    let before := s.arrays.takeWhile fun a => !s.covers a s.tickCurrent
    some (extendDown s.span a.start before.reverse, extendUp s.span (a.start + s.span) after)

/-- The ticks of all arrays where liquidity changes, in ascending order. -/
def activeTicks (s : ConcentratedPool) : List Tick :=
  ((s.arrays.flatMap (·.ticks)).filter Tick.isActive).mergeSort Tick.le

end ConcentratedPool

inductive PoolSnapshot where
  | standard (s : StandardPool)
  | concentrated (s : ConcentratedPool)
deriving DecidableEq

namespace PoolSnapshot

def kind : PoolSnapshot → PoolKind
  | standard _ => .standard
  | concentrated _ => .concentrated

def valueKind : PoolSnapshot → ValueKind
  | standard _ => .standardPool
  | concentrated _ => .concentratedPool

def poolId : PoolSnapshot → Address
  | standard s => s.poolId
  | concentrated s => s.poolId

def mintA : PoolSnapshot → Address
  | standard s => s.mintA
  | concentrated s => s.mintA

def mintB : PoolSnapshot → Address
  | standard s => s.mintB
  | concentrated s => s.mintB

end PoolSnapshot

/-- Whether a trade pays the mint of side A, with the mints paid and received. Without a mint it
does. -/
def directionFor (mintA mintB : Address) (mintIn : Option Address) :
    Checked (Direction × Address × Address) :=
  match mintIn with
  | none => .ok (.zeroForOne, mintA, mintB)
  | some mint =>
    if mint = mintA then .ok (.zeroForOne, mintA, mintB)
    else if mint = mintB then .ok (.oneForZero, mintB, mintA)
    else .error (.unsupportedMintPair (.notInPair mint mintA mintB))

end PoolSwap
