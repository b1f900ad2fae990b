import PoolSwap.Number.Numeral
import PoolSwap.Number.Quantity
import PoolSwap.Pool.Snapshot
import PoolSwap.Text.LowerCase

/-! What the pool directory publishes: summaries of pools, and the accounts a trade with a pool has
to name. Both are read from the entries of the directory's answers. -/
namespace PoolSwap

structure StandardKeys where
  programId : Address
  id : Address
  mintA : Address
  mintB : Address
  vaultA : Address
  vaultB : Address
  authority : Address
  openOrders : Address
  targetOrders : Address
  marketProgramId : Address
  marketId : Address
  marketAuthority : Address
  marketBaseVault : Address
  marketQuoteVault : Address
  marketBids : Address
  marketAsks : Address
  marketEventQueue : Address
deriving DecidableEq

structure ConcentratedKeys where
  programId : Address
  id : Address
  mintA : Address
  mintB : Address
  vaultA : Address
  vaultB : Address
  ammConfig : Address
  observationId : Address
  /-- The account with the bits of far tick arrays. -/
  exBitmap : Option Address
  mintProgramA : Option Address
  mintProgramB : Option Address
  /-- In the direction of the trade, from the array of the current tick on. -/
  tickArrays : List Address
deriving DecidableEq

inductive PoolKeys where
  | standard (k : StandardKeys)
  | concentrated (k : ConcentratedKeys)
deriving DecidableEq

namespace PoolKeys

def kind : PoolKeys → PoolKind
  | standard _ => .standard
  | concentrated _ => .concentrated

def valueKind : PoolKeys → ValueKind
  | standard _ => .standardKeys
  | concentrated _ => .concentratedKeys

def programId : PoolKeys → Address
  | standard k => k.programId
  | concentrated k => k.programId

def id : PoolKeys → Address
  | standard k => k.id
  | concentrated k => k.id

def mintA : PoolKeys → Address
  | standard k => k.mintA
  | concentrated k => k.mintA

def mintB : PoolKeys → Address
  | standard k => k.mintB
  | concentrated k => k.mintB

end PoolKeys

/-- An entry of a pool listing. Identifiers are passed on as the directory gave them. -/
structure PoolEntry where
  id : Payload
  kind : String
  programId : Payload
  mintA : Payload
  mintB : Payload
  decimalsA : Int
  decimalsB : Int
  price : Option Float
  tvl : Option Float
  feeRate : Option Float

namespace Payload

/-- A required field. A record without it lacks it, and no other value has fields. -/
def required (lacks : String → DiscoveryCause) (malformed : DiscoveryCause) (p : Payload)
    (name : String) : Checked Payload :=
  match p with
  | .record fields =>
    match lookup name fields with
    | some v => .ok v
    | none => .error (.discovery (lacks name))
  | _ => .error (.discovery malformed)

/-- The integer a value stands for: doubles are cut toward zero, texts are read. -/
def toInt? : Payload → Checked (Option Int)
  | .bool b => .ok (some (if b then 1 else 0))
  | .int n => .ok (some n)
  | .float x =>
    if x.isNaN then .ok none
    else if x.isInf then .error (.breach .tooLarge)
    else .ok (some (Binary64.truncate x))
  | .text s => .ok (Numeral.integer? s)
  | _ => .ok none

/-- The double a value stands for, nothing if it stands for none. -/
def toFloat? : Payload → Checked (Option Float)
  | .bool b => .ok (some (if b then 1.0 else 0.0))
  | .int n => (Checked.ofOption .tooLarge (Binary64.ofInt? n)).map some
  | .float x => .ok (some x)
  | .text s => .ok (Numeral.float? s)
  | _ => .ok none

end Payload

namespace PoolEntry

def entryField : Payload → String → Checked Payload :=
  Payload.required .entryLacks .malformedEntry

def numberAt (entry : Payload) (name : String) : Checked (Option Float) :=
  ((entry.field? name).getD .null).toFloat?

def decimals (mint : Payload) : Checked Int := do
  match ← ((mint.field? "decimals").getD (.int 0)).toInt? with
  | some n => pure n
  | none => .error (.discovery .malformedEntry)

/-- The kind that an entry names, in lower case. An integer too long to be written names none. -/
def kindOf (levels : Nat) (entry : Payload) : Checked String :=
  match ((entry.field? "type").getD (.text "")).plainText levels with
  | .ok text => .ok (LowerCase.ofText text)
  | .error .tooManyDigits => .error (.discovery .malformedEntry)
  | .error rule => .error (.breach rule)

/-- Reads a listing entry. Prices that stand for no number are left out. -/
def ofEntry (levels : Nat) (entry : Payload) : Checked PoolEntry := do
  let mintA ← entryField entry "mintA"
  let mintB ← entryField entry "mintB"
  let id ← entryField entry "id"
  let kind ← kindOf levels entry
  let programId ← entryField entry "programId"
  let addressA ← entryField mintA "address"
  let addressB ← entryField mintB "address"
  let decimalsA ← decimals mintA
  let decimalsB ← decimals mintB
  let price ← numberAt entry "price"
  let tvl ← numberAt entry "tvl"
  let feeRate ← numberAt entry "feeRate"
  pure ⟨id, kind, programId, addressA, addressB, decimalsA, decimalsB, price, tvl, feeRate⟩

end PoolEntry

namespace PoolKeys

def entryField : Payload → String → Checked Payload :=
  Payload.required .keysLack .malformedKeys

section Levels

variable (levels : Nat)

/-- Refuses a value that is no address; its text is part of the message. -/
def refuseAddress (label : String) (p : Payload) : Checked Address := do
  let text ← Checked.ofRule (p.shown levels)
  .error (.discovery (.malformedAddress label text))

def address (label : String) (p : Payload) : Checked Address :=
  match p with
  | .text s => match Address.ofText? s with
    | some a => .ok a
    | none => refuseAddress levels label p
  | _ => refuseAddress levels label p

def addressIn (p : Payload) (name label : String) : Checked Address := do
  address levels label (← entryField p name)

def addressAt (entry : Payload) (name : String) : Checked Address :=
  addressIn levels entry name name

def addressWithin (entry : Payload) (name inner label : String) : Checked Address := do
  addressIn levels (← entryField entry name) inner label

/-- An address in a field that may be absent, null or empty. -/
def optionalAddress (label : String) (p : Option Payload) : Checked (Option Address) :=
  match p.filter Payload.isGiven with
  | some v => (address levels label v).map some
  | none => .ok none

def mintProgram (entry : Payload) (mint : String) : Checked (Option Address) := do
  optionalAddress levels (mint ++ ".programId") ((← entryField entry mint).field? "programId")

def concentratedOfEntry (programId : Address) (vault entry : Payload) :
    Checked ConcentratedKeys := do
  let exBitmap := entry.field? "exBitmapAccount"
  let id ← addressAt levels entry "id"
  let mintA ← addressWithin levels entry "mintA" "address" "mintA"
  let mintB ← addressWithin levels entry "mintB" "address" "mintB"
  let vaultA ← addressIn levels vault "A" "vault.A"
  let vaultB ← addressIn levels vault "B" "vault.B"
  let ammConfig ← addressWithin levels entry "config" "id" "config.id"
  let observationId ← addressAt levels entry "observationId"
  let exBitmap ← optionalAddress levels "exBitmapAccount" exBitmap
  let mintProgramA ← mintProgram levels entry "mintA"
  let mintProgramB ← mintProgram levels entry "mintB"
  pure {
    programId, id, mintA, mintB, vaultA, vaultB, ammConfig, observationId, exBitmap,
    mintProgramA, mintProgramB, tickArrays := [] }

def standardOfEntry (programId : Address) (vault entry : Payload) : Checked StandardKeys := do
  let id ← addressAt levels entry "id"
  let mintA ← addressWithin levels entry "mintA" "address" "mintA"
  let mintB ← addressWithin levels entry "mintB" "address" "mintB"
  let vaultA ← addressIn levels vault "A" "vault.A"
  let vaultB ← addressIn levels vault "B" "vault.B"
  let authority ← addressAt levels entry "authority"
  let openOrders ← addressAt levels entry "openOrders"
  let targetOrders ← addressAt levels entry "targetOrders"
  let marketProgramId ← addressAt levels entry "marketProgramId"
  let marketId ← addressAt levels entry "marketId"
  let marketAuthority ← addressAt levels entry "marketAuthority"
  let marketBaseVault ← addressAt levels entry "marketBaseVault"
  let marketQuoteVault ← addressAt levels entry "marketQuoteVault"
  let marketBids ← addressAt levels entry "marketBids"
  let marketAsks ← addressAt levels entry "marketAsks"
  let marketEventQueue ← addressAt levels entry "marketEventQueue"
  pure {
    programId, id, mintA, mintB, vaultA, vaultB, authority, openOrders, targetOrders,
    marketProgramId, marketId, marketAuthority, marketBaseVault, marketQuoteVault, marketBids,
    marketAsks, marketEventQueue }

/-- Reads an entry of published keys. The program that owns the pool decides its kind, and other
programs are refused. -/
def ofEntry (entry : Payload) : Checked PoolKeys := do
  let programId ← addressAt levels entry "programId"
  if programId ≠ .standardPoolProgram ∧ programId ≠ .concentratedPoolProgram then
    let pool ← Checked.ofRule (((entry.field? "id").getD .null).plainText levels)
    .error (.discovery (.unsupportedProgram pool programId.text))
  else
    let vault ← entryField entry "vault"
    if programId = .concentratedPoolProgram then
      concentrated <$> concentratedOfEntry levels programId vault entry
    else standard <$> standardOfEntry levels programId vault entry

end Levels

end PoolKeys
end PoolSwap
