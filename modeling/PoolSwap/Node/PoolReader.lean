import PoolSwap.Layout.ConcentratedPool
import PoolSwap.Layout.Mint
import PoolSwap.Node

/-! Reading the state of a pool from a node. What an account lacks or holds wrongly is a fault that
names the account; a lost connection stays what it is. -/
namespace PoolSwap

/-- The seed that a tick index becomes: four bytes, most significant first. -/
def Address.tickSeed (start : Int) : Checked Bytes :=
  if -0x80000000 ≤ start ∧ start < 0x80000000 then
    .ok (LittleEndian.encodeSigned 4 start).reverse
  else .error (.breach .tooLarge)

def Address.ofTickArray (pool : Address) (start : Int) (program : Address) : Checked Address := do
  let seed ← tickSeed start
  pure (.derive ["tick_array".toUTF8.toList, pool.bytes, seed] program)

def Address.ofTickArrayBitmap (pool program : Address) : Address :=
  .derive ["pool_tick_array_bitmap_extension".toUTF8.toList, pool.bytes] program

namespace Node

def liftChecked (c : Checked α) : Query α :=
  match c with
  | .ok a => pure a
  | .error f => throw f

/-- Both token programs own mints and token accounts. -/
def tokenAccountOwners : List Address := [.tokenProgram, .token2022Program]

def requireOwner (what : String) (address : Address) (account : Account) (expected : List Address) :
    Checked Unit :=
  if account.owner ∈ expected then .ok ()
  else .error (.stateRead (some address.text)
    (.owner what address.text account.owner.text (expected.map (·.text))))

def dataOf (what : String) (address program : Address) : Query Bytes := do
  match ← accountInfo address with
  | none => throw (.stateRead (some address.text) (.notFound what address.text))
  | some account =>
    liftChecked (requireOwner what address account [program])
    pure account.data

def vaultAmount (pool vault : Address) (account : Option Account) : Checked Nat := do
  match account with
  | none => .error (.stateRead (some vault.text) (.notFoundInPool "Vault" vault.text pool.text))
  | some account =>
    requireOwner "Vault" vault account tokenAccountOwners
    TokenAccount.decodeAmount account.data (some vault.text)

/-- Reads a standard pool and both its vaults. Profits that the pool still owes to the protocol are
not part of the reserves. -/
def readStandardPool (poolId program : Address) : Query StandardPool := do
  let raw ← dataOf "AMM v4 pool" poolId program
  let pool ← liftChecked (StandardPoolAccount.decode raw (some poolId.text))
  let vaults ← multipleAccounts [pool.baseVault, pool.quoteVault]
  let base ← liftChecked (vaultAmount poolId pool.baseVault (vaults.getD 0 none))
  let quote ← liftChecked (vaultAmount poolId pool.quoteVault (vaults.getD 1 none))
  match StandardPool.make? poolId pool.baseMint pool.quoteMint
      (max 0 ((base : Int) - pool.baseNeedTakePnl)) (max 0 ((quote : Int) - pool.quoteNeedTakePnl))
      pool.swapFeeNumerator pool.swapFeeDenominator with
  | .ok state => pure state
  | .error cause => throw (.stateRead (some poolId.text) (.feeSettings poolId.text cause))

/-- The starts of the array of the current tick and of a number of arrays after it in the direction
of the trade, in ascending order. -/
def windowStarts (tickCurrent spacing : Int) (direction : Direction) (window : Nat) : List Int :=
  let first := Tick.arrayStart tickCurrent spacing
  let span := Tick.arraySize * spacing
  match direction with
  | .zeroForOne => (List.range (window + 1)).reverse.map fun (i : Nat) => first - i * span
  | .oneForZero => (List.range (window + 1)).map fun (i : Nat) => first + i * span

/-- The transfer fees of a mint of a pool. Only one token program knows them. -/
def mintFees (pool mint : Address) (account : Option Account) :
    Checked (Option TransferFeeConfig) := do
  match account with
  | none => .error (.stateRead (some mint.text) (.notFoundInPool "Mint" mint.text pool.text))
  | some account =>
    requireOwner "Mint" mint account tokenAccountOwners
    if account.owner = .token2022Program then
      Mint.decodeTransferFee account.data (some mint.text)
    else pure none

/-- The tick array of a start; one that does not exist is empty. -/
def tickArrayAt (program : Address) (start : Int) (address : Address) (account : Option Account) :
    Checked TickArray := do
  match account with
  | none => pure ⟨start, [], none⟩
  | some account =>
    requireOwner "Tick array" address account [program]
    let array ← TickArray.decode account.data (some address)
    if array.start = start then pure array
    else .error (.stateRead (some address.text) (.tickArrayStart address.text array.start start))

def feeRateOf (config program : Address) (account : Option Account) : Checked Nat := do
  match account with
  | none => .error (.stateRead (some config.text) (.notFound "AMM config" config.text))
  | some account =>
    requireOwner "AMM config" config account [program]
    FeeConfigAccount.decodeFeeRate account.data (some config.text)

/-- Reads a concentrated pool, its fee configuration, both mints and the tick arrays that a trade
goes through. -/
def readConcentratedPool (poolId : Address) (direction : Direction) (window : Int)
    (program : Address) : Query ConcentratedPool := do
  if window < 0 then throw (.argument (.negativeWindow window))
  let raw ← dataOf "CLMM pool" poolId program
  let pool ← liftChecked (ConcentratedPoolAccount.decode raw (some poolId.text))
  if pool.tickSpacing = 0 then
    throw (.stateRead (some poolId.text) (.tickSpacing poolId.text pool.tickSpacing))
  let starts := windowStarts pool.tickCurrent pool.tickSpacing direction window.toNat
  let addresses ← liftChecked (starts.mapM fun s => Address.ofTickArray poolId s program)
  let accounts ← multipleAccounts (pool.ammConfig :: pool.mint0 :: pool.mint1 :: addresses)
  let feeRate ← liftChecked (feeRateOf pool.ammConfig program (accounts.getD 0 none))
  let fees0 ← liftChecked (mintFees poolId pool.mint0 (accounts.getD 1 none))
  let fees1 ← liftChecked (mintFees poolId pool.mint1 (accounts.getD 2 none))
  let epoch ← if fees0.isSome || fees1.isSome then currentEpoch else pure 0
  let arrays ← liftChecked (((starts.zip addresses).zip (accounts.drop 3)).mapM
    fun ((start, address), account) => tickArrayAt program start address account)
  -- The price is only logged.
  let _ ← liftChecked (Tick.priceOfSqrtPrice pool.sqrtPrice pool.decimals0 pool.decimals1)
  match ConcentratedPool.make? poolId pool.mint0 pool.mint1 pool.sqrtPrice pool.tickCurrent
      pool.liquidity pool.tickSpacing feeRate arrays pool.decimals0 pool.decimals1
      (fees0.map (·.inEpoch epoch)) (fees1.map (·.inEpoch epoch)) with
  | .ok state => pure state
  | .error cause => throw (.argument cause)

def defaultWindow : Int := 5

def readPool (kind : String) (poolId : Address) (direction : Option Direction)
    (window : Option Int) (program : Option Address) : Query PoolSnapshot := do
  match PoolKind.ofName? kind with
  | some .standard =>
    if direction.isSome || window.isSome then throw (.breach .wrongKind)
    let state ← readStandardPool poolId (program.getD .standardPoolProgram)
    pure (.standard state)
  | some .concentrated =>
    let state ← readConcentratedPool poolId (direction.getD .zeroForOne) (window.getD defaultWindow)
      (program.getD .concentratedPoolProgram)
    pure (.concentrated state)
  | none => throw (.wrongType (.poolType (Quoted.encode kind)))

end Node

namespace ConcentratedPool

/-- The first `limit` of some items; a negative limit leaves that many off the end. -/
def takeLimit (limit : Option Int) (items : List α) : List α :=
  match limit with
  | none => items
  | some n => if 0 ≤ n then items.take n.toNat else items.take (items.length - (-n).toNat)

/-- The existing tick arrays from the current one on, in the direction of the trade. -/
def arrayAddresses (s : ConcentratedPool) (direction : Direction) (limit : Option Int) :
    List Address :=
  let current := Tick.arrayStart s.tickCurrent s.tickSpacing
  let arrays : List TickArray := match direction with
    | .zeroForOne => s.arrays.reverse.filter (·.start ≤ current)
    | .oneForZero => s.arrays.filter (current ≤ ·.start)
  takeLimit limit (arrays.filterMap (·.address))

end ConcentratedPool
end PoolSwap
