import PoolSwap.Layout.Field
import PoolSwap.Pool.Snapshot

/-! Accounts of concentrated pools: the pool, its fee configuration and its tick arrays. -/
namespace PoolSwap

structure ConcentratedPoolAccount where
  ammConfig : Address
  mint0 : Address
  mint1 : Address
  vault0 : Address
  vault1 : Address
  observationKey : Address
  decimals0 : Nat
  decimals1 : Nat
  tickSpacing : Nat
  liquidity : Nat
  sqrtPrice : Nat
  tickCurrent : Int
deriving DecidableEq

namespace ConcentratedPoolAccount

def discriminator : Bytes := Layout.discriminator "PoolState"

def layout : FieldReader ConcentratedPoolAccount := do
  FieldReader.skip 9
  let ammConfig ← FieldReader.address
  FieldReader.skip 32
  let mint0 ← FieldReader.address
  let mint1 ← FieldReader.address
  let vault0 ← FieldReader.address
  let vault1 ← FieldReader.address
  let observationKey ← FieldReader.address
  let decimals0 ← FieldReader.unsigned 1
  let decimals1 ← FieldReader.unsigned 1
  let tickSpacing ← FieldReader.unsigned 2
  let liquidity ← FieldReader.unsigned 16
  let sqrtPrice ← FieldReader.unsigned 16
  let tickCurrent ← FieldReader.signed 4
  pure {
    ammConfig, mint0, mint1, vault0, vault1, observationKey, decimals0, decimals1, tickSpacing,
    liquidity, sqrtPrice, tickCurrent }

def decode (raw : Bytes) (address : Option String) : Checked ConcentratedPoolAccount := do
  Layout.requireDiscriminator discriminator raw "CLMM pool" address
  Layout.read layout raw "CLMM pool" address

end ConcentratedPoolAccount

namespace FeeConfigAccount

def discriminator : Bytes := Layout.discriminator "AmmConfig"

/-- The trade fee rate, after an index, an owner and the protocol's rate. -/
def layout : FieldReader Nat := do
  FieldReader.skip 47
  let tradeFeeRate ← FieldReader.unsigned 4
  FieldReader.skip 66
  pure tradeFeeRate

def decodeFeeRate (raw : Bytes) (address : Option String) : Checked Nat := do
  Layout.requireDiscriminator discriminator raw "CLMM amm config" address
  Layout.read layout raw "CLMM amm config" address

end FeeConfigAccount

namespace TickArray

def discriminator : Bytes := Layout.discriminator "TickArrayState"

def size : Nat := 10240

/-- One slot: tick, signed net and unsigned gross liquidity, and fields that are not read. -/
def slotLayout : FieldReader Tick := do
  let index ← FieldReader.signed 4
  let liquidityNet ← FieldReader.signed 16
  let liquidityGross ← FieldReader.unsigned 16
  FieldReader.skip 132
  pure ⟨index, liquidityNet, liquidityGross⟩

def layout : FieldReader (Int × List Tick) := do
  FieldReader.skip 40
  let start ← FieldReader.signed 4
  let slots ← slotLayout.times 60
  FieldReader.skip 116
  pure (start, slots)

def decode (raw : Bytes) (address : Option Address) : Checked TickArray := do
  let label := address.map (·.text)
  Layout.requireDiscriminator discriminator raw "CLMM tick array" label
  if raw.length < size then .error (.stateRead label (.truncatedTickArray raw.length))
  else
    let (start, slots) ← Layout.read layout raw "CLMM tick array" label
    pure ⟨start, (slots.filter (·.liquidityGross ≠ 0)).mergeSort Tick.le, address⟩

end TickArray
end PoolSwap
