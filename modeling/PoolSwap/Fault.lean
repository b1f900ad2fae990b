import PoolSwap.Address
import PoolSwap.Supplied

/-! The ways an operation can fail. A fault names its cause; the wording of all causes is here. -/
namespace PoolSwap

inductive BadArgument where
  | outputNotBelowReserve (amount reserve : Int)
  | tickOutOfRange (tick least greatest : Int)
  | sqrtPriceOutOfRange (sqrtPrice : Int)
  | liquidityOutOfRange (liquidity delta : Int)
  | noPriceOrLiquidity
  | feeDenominator (denominator : Int)
  | feeFraction (numerator denominator : Int)
  | negativeReserves
  | unorderedTickArrays
  | tickSpacing (spacing : Int)
  | negativeAmount (amount : Int)
  | notPositiveAmount (amount : Int)
  | negativeMinimum (amount : Int)
  /-- An amount, named by its role, is beyond 64 bits. -/
  | beyond64Bits (role : String) (amount : Int)
  | limitOnStandardPool
  | limitPriceOnStandardPool
  | limitOutOfReach (limit : Int) (below : Bool) (sqrtPrice : Int)
  | missingSigners (signers : List Address)
  | negativeWindow (window : Int)
  | page (n : Int)
  | pageSize (n greatest : Int)
  | sortOrder (order : String)
  | defaultSlippage (bps : Int)
  | configuredWindow (window : Int)
  | maxPriceImpact (bps : Int)
  | secretLength (n : Nat)
deriving DecidableEq

inductive DiscoveryCause where
  | status (status : Int) (path : String)
  | requestFailed (path reason : String)
  | timedOut (path : String)
  | reportedFailure (path shown : String)
  | malformedPage
  | malformedList (path : String)
  | noPools (kind mintA mintB : String)
  | malformedEntry
  | entryLacks (field : String)
  | malformedKeys
  | keysLack (field : String)
  | malformedAddress (field shown : String)
  | unsupportedProgram (pool program : String)
deriving DecidableEq

inductive ReadCause where
  /-- A fixed layout has another size. -/
  | size (size expected : Nat) (what : String)
  | notTokenAccount (size : Nat)
  | notA (what : String)
  | layout (what : String)
  | truncatedTickArray (size : Nat)
  | notMint (size : Nat)
  | accountType (found : Nat)
  | notFound (what address : String)
  | notFoundInPool (what address pool : String)
  | owner (what address owner : String) (expected : List String)
  | feeSettings (pool : String) (cause : BadArgument)
  | tickSpacing (pool : String) (spacing : Int)
  | tickArrayStart (array : String) (found expected : Int)
deriving DecidableEq

inductive SubmissionCause where
  | noKeypair
  | rejected
  | simulationFailed
deriving DecidableEq

/-- What a walk over tick arrays ran out of. -/
inductive MissingData where
  | currentTickNotCovered
  | beyondWindow (lower upper : Int)
deriving DecidableEq

inductive MissingLiquidity where
  | emptyReserve (pool : Address)
  | noneInRange (pool : Address)
  | priceBound (pool : Address) (remaining : Int)
deriving DecidableEq

inductive MissingKeys where
  | notSupplied
  | noTickArrays (pool : Address)
  | unsupported (kind : ValueKind)
  | notPublished (pool : String)
deriving DecidableEq

inductive StaleKeys where
  | kinds (pool : Address) (keys state : ValueKind)
  | otherPool (keys state : Address)
  | tickArrays (unknown : List Address) (pool : Address)
deriving DecidableEq

inductive MintMismatch where
  | notInPair (mintIn mintA mintB : Address)
  | notThePair (pool mintA mintB mintIn mintOut : Address)
deriving DecidableEq

inductive PlanExcess where
  | bytes (size limit : Nat)
  | accounts (count limit : Nat)
deriving DecidableEq

inductive WrongType where
  | amount (kind : ValueKind)
  | poolState (kind : ValueKind)
  | poolType (shown : String)
deriving DecidableEq

inductive Fault where
  | breach (rule : Breach)
  | argument (cause : BadArgument)
  | wrongType (cause : WrongType)
  | unknownMint (mint : Address)
  | noSession
  | connection (reason : String)
  | discovery (cause : DiscoveryCause)
  | stateRead (address : Option String) (cause : ReadCause)
  | submission (reason : String) (cause : SubmissionCause)
  | insufficientLiquidityData (tick remaining : Int) (cause : MissingData)
  | insufficientLiquidity (cause : MissingLiquidity)
  | invalidSlippage (shown : String)
  | missingPoolKeys (cause : MissingKeys)
  | stalePoolKeys (cause : StaleKeys)
  | unsupportedMintPair (cause : MintMismatch)
  | planTooLarge (cause : PlanExcess)
deriving DecidableEq

def shownAddresses (addresses : List Address) : String :=
  Payload.bracketed (addresses.map fun a => Quoted.encode a.text)

def addressLabel (address : Option String) : String := address.getD valueWords.absent

namespace BadArgument

def message : BadArgument → String
  | outputNotBelowReserve amount reserve =>
    s!"amount_out {amount} must be below reserve_out {reserve}"
  | tickOutOfRange tick least greatest => s!"tick {tick} outside [{least}, {greatest}]"
  | sqrtPriceOutOfRange s => s!"sqrt price {s} outside the supported range"
  | liquidityOutOfRange liquidity delta => s!"liquidity {liquidity} + {delta} out of u128 range"
  | noPriceOrLiquidity => "sqrt price and liquidity must be positive"
  | feeDenominator d => s!"fee_denominator must be positive, got {d}"
  | feeFraction n d => s!"fee fraction {n}/{d} must be in [0, 1)"
  | negativeReserves => "reserves must be non-negative"
  | unorderedTickArrays => "tick_arrays must be ordered by start_tick_index ascending"
  | tickSpacing n => s!"tick_spacing must be positive, got {n}"
  | negativeAmount n => s!"amount_in must be non-negative, got {n}"
  | notPositiveAmount n => s!"amount_in must be positive, got {n}"
  | negativeMinimum n => s!"min_amount_out must be non-negative, got {n}"
  | beyond64Bits role n => s!"{role} {n} does not fit in a u64"
  | limitOnStandardPool => "sqrt_price_limit_x64 is only supported for concentrated pools"
  | limitPriceOnStandardPool => "limit_price is only supported for concentrated pools"
  | limitOutOfReach limit below sqrtPrice =>
    let side := if below then "below" else "above"
    s!"sqrt_price_limit_x64 {limit} must be {side} the current sqrt price {sqrtPrice} " ++
      "and inside the tick bounds"
  | missingSigners signers => "Missing signers for plan: " ++ shownAddresses signers
  | negativeWindow n => s!"window must be non-negative, got {n}"
  | page n => s!"page must be >= 1, got {n}"
  | pageSize n greatest => s!"page_size must be in [1, {greatest}], got {n}"
  | sortOrder order => "sort_type must be 'asc' or 'desc', got " ++ Quoted.encode order
  | defaultSlippage n => s!"DEFAULT_SLIPPAGE_BPS must be in [0, 10000), got {n}"
  | configuredWindow n => s!"TICK_ARRAY_WINDOW must be non-negative, got {n}"
  | maxPriceImpact n => s!"MAX_PRICE_IMPACT_BPS must be non-negative, got {n}"
  | secretLength n => s!"Invalid key length {n}; expected 64-byte secret key"

end BadArgument

namespace DiscoveryCause

/-- The text of a cause. Where a value of an entry is of the wrong kind (`malformedEntry` and
`malformedKeys`), it is the part before the words in which the host describes the value. -/
def message : DiscoveryCause → String
  | status n path => s!"Raydium API returned {n} for {path}"
  | requestFailed path reason => s!"Raydium API request to {path} failed: {reason}"
  | timedOut path => s!"Raydium API request to {path} timed out"
  | reportedFailure path shown => s!"Raydium API reported failure for {path}: {shown}"
  | malformedPage => "Raydium API returned a malformed pool page"
  | malformedList path => s!"Raydium API returned a malformed list for {path}"
  | noPools kind mintA mintB => s!"No {kind} pools found for {mintA}/{mintB}"
  | malformedEntry => "Malformed pool entry: "
  | entryLacks field => "Malformed pool entry: " ++ Quoted.encode field
  | malformedKeys => "Malformed pool keys entry: missing "
  | keysLack field => "Malformed pool keys entry: missing " ++ Quoted.encode field
  | malformedAddress field shown => s!"Malformed address for {field}: {shown}"
  | unsupportedProgram pool program => s!"Pool {pool} belongs to unsupported program {program}"

end DiscoveryCause

namespace ReadCause

/-- The text of a cause. A `layout` that does not fit has the part before the words of the parser. -/
def message (address : Option String) : ReadCause → String
  | size n expected what =>
    s!"Account {addressLabel address} is {n} bytes, expected {expected} for an {what}"
  | notTokenAccount n => s!"Account {addressLabel address} is not a token account ({n} bytes)"
  | notA what => s!"Account {addressLabel address} is not a {what}"
  | layout what => s!"{what} layout mismatch at {addressLabel address}: "
  | truncatedTickArray n => s!"Tick array {addressLabel address} is truncated ({n} bytes)"
  | notMint n => s!"Account {addressLabel address} is not a mint ({n} bytes)"
  | accountType n => s!"Account {addressLabel address} has account type {n}, expected a mint"
  | notFound what a => s!"{what} {a} not found"
  | notFoundInPool what a pool => s!"{what} {a} of pool {pool} not found"
  | owner what a found expected =>
    s!"{what} {a} is owned by {found}, expected " ++ ", ".intercalate expected
  | feeSettings pool cause => s!"Pool {pool} has invalid fee settings: " ++ cause.message
  | tickSpacing pool n => s!"Pool {pool} has tick spacing {n}"
  | tickArrayStart array found expected =>
    s!"Tick array {array} starts at {found}, expected {expected}"

end ReadCause

namespace Fault

/-- The text of a fault. A broken rule of numbers or encodings and a lost connection have none. -/
def message? : Fault → Option String
  | breach _ => none
  | connection _ => none
  | argument cause => some cause.message
  | wrongType (.amount kind) => some ("amount_in must be an int, got " ++ kind.name)
  | wrongType (.poolState kind) => some ("Unsupported pool state: " ++ kind.name)
  | wrongType (.poolType shown) => some ("Unsupported pool type: " ++ shown)
  | unknownMint mint => some mint.text
  | noSession => some "PoolDirectory has no session; use 'async with' or pass one in"
  | discovery cause => some cause.message
  | stateRead address cause => some (cause.message address)
  | submission _ .noKeypair => some "No wallet keypair loaded"
  | submission reason .rejected => some ("Transaction rejected: " ++ reason)
  | submission reason .simulationFailed => some ("Simulation failed: " ++ reason)
  | insufficientLiquidityData tick _ .currentTickNotCovered =>
    some s!"Current tick {tick} is not covered by the loaded tick arrays"
  | insufficientLiquidityData _ remaining (.beyondWindow lower upper) =>
    some s!"Swap needs tick arrays beyond [{lower}, {upper}) with {remaining} input left"
  | insufficientLiquidity (.emptyReserve pool) => some s!"Pool {pool.text} has an empty reserve"
  | insufficientLiquidity (.noneInRange pool) =>
    some s!"Pool {pool.text} has no liquidity in the loaded range"
  | insufficientLiquidity (.priceBound pool remaining) =>
    some s!"Pool {pool.text} hit the price bound with {remaining} input left"
  | invalidSlippage shown => some ("Slippage must be in [0, 1), got " ++ shown)
  | missingPoolKeys .notSupplied => some "No pool keys supplied"
  | missingPoolKeys (.noTickArrays pool) =>
    some s!"Concentrated pool {pool.text} has no tick array addresses"
  | missingPoolKeys (.unsupported kind) => some ("Unsupported pool keys: " ++ kind.name)
  | missingPoolKeys (.notPublished pool) => some ("No pool keys published for " ++ pool)
  | stalePoolKeys (.kinds pool keys state) =>
    some s!"Pool keys for {pool.text} are {keys.name}, pool state is {state.name}"
  | stalePoolKeys (.otherPool keys state) =>
    some s!"Pool keys for {keys.text} do not match the pool state of {state.text}"
  | stalePoolKeys (.tickArrays unknown pool) =>
    some ("Tick arrays " ++ shownAddresses unknown ++
      s!" are not in the loaded pool state of {pool.text}")
  | unsupportedMintPair (.notInPair mintIn mintA mintB) =>
    some s!"Mint {mintIn.text} is not part of pool pair {mintA.text}/{mintB.text}"
  | unsupportedMintPair (.notThePair pool mintA mintB mintIn mintOut) =>
    some (s!"Pool {pool.text} trades {mintA.text}/{mintB.text}, not " ++
      s!"{mintIn.text}->{mintOut.text}")
  | planTooLarge (.bytes size limit) =>
    some s!"Swap transaction is {size} bytes, limit is {limit}"
  | planTooLarge (.accounts count limit) =>
    some s!"Swap transaction references {count} accounts, limit is {limit}"

end Fault

abbrev Checked := Except Fault

namespace Checked

def divisor (n : Int) : Checked Unit :=
  if n = 0 then .error (.breach .divisionByZero) else .ok ()

def floorDiv (a b : Int) : Checked Int := do
  divisor b
  pure (PoolSwap.floorDiv a b)

def ceilDiv (a b : Int) : Checked Int := do
  divisor b
  pure (PoolSwap.ceilDiv a b)

def ofOption (rule : Breach) : Option α → Checked α
  | some a => .ok a
  | none => .error (.breach rule)

def ofRule : Except Breach α → Checked α
  | .ok a => .ok a
  | .error rule => .error (.breach rule)

end Checked
end PoolSwap
