import PoolSwap.Layout.Field

/-! Accounts of standard pools and the token accounts that hold their reserves. -/
namespace PoolSwap

/-- A standard pool account. Only the fields a trade needs are read. -/
structure StandardPoolAccount where
  status : Nat
  baseDecimal : Nat
  quoteDecimal : Nat
  swapFeeNumerator : Nat
  swapFeeDenominator : Nat
  /-- Profits that the pool still owes to the protocol. -/
  baseNeedTakePnl : Nat
  quoteNeedTakePnl : Nat
  baseVault : Address
  quoteVault : Address
  baseMint : Address
  quoteMint : Address
  lpMint : Address
  openOrders : Address
  marketId : Address
  marketProgramId : Address
  targetOrders : Address
  owner : Address
deriving DecidableEq

namespace StandardPoolAccount

def size : Nat := 752

def layout : FieldReader StandardPoolAccount := do
  let status ← FieldReader.unsigned 8
  FieldReader.skip 24
  let baseDecimal ← FieldReader.unsigned 8
  let quoteDecimal ← FieldReader.unsigned 8
  FieldReader.skip 128
  let swapFeeNumerator ← FieldReader.unsigned 8
  let swapFeeDenominator ← FieldReader.unsigned 8
  let baseNeedTakePnl ← FieldReader.unsigned 8
  let quoteNeedTakePnl ← FieldReader.unsigned 8
  FieldReader.skip 128
  let baseVault ← FieldReader.address
  let quoteVault ← FieldReader.address
  let baseMint ← FieldReader.address
  let quoteMint ← FieldReader.address
  let lpMint ← FieldReader.address
  let openOrders ← FieldReader.address
  let marketId ← FieldReader.address
  let marketProgramId ← FieldReader.address
  let targetOrders ← FieldReader.address
  FieldReader.skip 64
  let owner ← FieldReader.address
  FieldReader.skip 32
  pure {
    status, baseDecimal, quoteDecimal, swapFeeNumerator, swapFeeDenominator, baseNeedTakePnl,
    quoteNeedTakePnl, baseVault, quoteVault, baseMint, quoteMint, lpMint, openOrders, marketId,
    marketProgramId, targetOrders, owner }

def decode (raw : Bytes) (address : Option String) : Checked StandardPoolAccount :=
  if raw.length ≠ size then
    .error (.stateRead address (.size raw.length size "AMM v4 pool"))
  else Layout.read layout raw "AMM v4 pool" address

end StandardPoolAccount

namespace TokenAccount

/-- The size of a token account; extensions may follow. -/
def size : Nat := 165

/-- Mint, owner, amount, and fields that are not read. -/
def layout : FieldReader Nat := do
  FieldReader.skip 64
  let amount ← FieldReader.unsigned 8
  FieldReader.skip 93
  pure amount

def decodeAmount (raw : Bytes) (address : Option String) : Checked Nat :=
  if raw.length < size then .error (.stateRead address (.notTokenAccount raw.length))
  else Layout.read layout raw "token account" address

end TokenAccount
end PoolSwap
