import PoolSwap.Codec.Base64
import PoolSwap.Directory
import PoolSwap.KeyCache
import PoolSwap.Node.PoolReader
import PoolSwap.Plan
import PoolSwap.Quote.Supplied
import PoolSwap.Wallet

/-! A client that trades for one wallet: it finds a pool, reads its state, quotes, plans, signs and
sends. It holds no pool state between calls; pool keys may stay in a cache. -/
namespace PoolSwap

namespace Node

/-- Looks up which of the owner's token accounts exist, then plans the swap. -/
def assemble (keys : Option (Supplied PoolKeys)) (q : SwapRequest) : Query SwapPlan := do
  match keys with
  | none => throw (.missingPoolKeys .notSupplied)
  | some k =>
    let (source, destination) ←
      liftChecked (PoolKeys.suppliedUserAccounts k q.owner q.mintIn q.mintOut)
    let existing ← existingAccounts [source, destination]
    liftChecked (q.plan (some k) existing)

end Node

structure Client where
  node : Node
  directory : Directory
  keypair : Option Keypair
  config : Config
  cache : Option (KeyCache PoolKeys)
  now : Int
  /-- How the network moves on from one query to the next. -/
  drift : Node → Node := id

/-- The node as the next query finds it. Its log is what the client asked of it. -/
def Client.present (c : Client) : Node := { c.drift c.node with calls := c.node.calls }

structure SimulationReport where
  success : Bool
  error : Option String
  logs : Payload
  unitsConsumed : Payload

structure SwapReport where
  success : Bool
  error : Option String
  poolId : Address
  quote : Quote
  dryRun : Bool
  keysCacheHit : Bool
  operations : List OperationKind
  transactionSize : Nat
  accountCount : Nat
  signature : Option String
  /-- The signed transaction in base 64. -/
  transaction : Option String

namespace Client

abbrev Action := ExceptT Fault (StateM Client)

def checked (c : Checked α) : Action α :=
  match c with
  | .ok a => pure a
  | .error f => throw f

/-- Asks the node; its log stays in the client. -/
def askNode (q : Node.Query α) : Action α := do
  let c ← get
  let (answer, node) := q.run.run c.present
  set { c with node }
  checked answer

/-- Asks the directory; its log stays in the client. -/
def askDirectory (q : Directory.Query α) : Action α := do
  let c ← get
  let (answer, directory) := q.run.run c.directory
  set { c with directory }
  checked answer

def noKeypair : Fault := .submission "no_keypair" .noKeypair

def loadedKeypair : Action Keypair := do
  match (← get).keypair with
  | some k => pure k
  | none => throw noKeypair

def owner : Action Address := do
  let k ← loadedKeypair
  pure k.address

def pools (q : Directory.Listing) : Action (List PoolEntry) :=
  askDirectory (Directory.pools q)

def publishedKeys (poolId : String) : Action PoolKeys := do
  match ← askDirectory (Directory.keysById [poolId]) with
  | keys :: _ => pure keys
  | [] => throw (.missingPoolKeys (.notPublished poolId))

/-- The keys of a pool, and whether they came from the cache. -/
def keysFor (poolId : String) : Action (PoolKeys × Bool) := do
  let c ← get
  match c.cache with
  | none =>
    let keys ← publishedKeys poolId
    pure (keys, false)
  | some cache =>
    let (cached, cache) := cache.get? c.now poolId
    set { c with cache := some cache }
    match cached with
    | some keys => pure (keys, true)
    | none =>
      let keys ← publishedKeys poolId
      let cache ← checked (cache.set c.now poolId (some keys))
      modify fun c => { c with cache := some cache }
      pure (keys, false)

/-- Keys that name the tick arrays a trade goes through, and the bitmap account. -/
def completeKeys (k : ConcentratedKeys) (state : ConcentratedPool) (direction : Direction) :
    ConcentratedKeys :=
  { k with
    exBitmap := some (k.exBitmap.getD (.ofTickArrayBitmap k.id k.programId))
    tickArrays := state.arrayAddresses direction none }

def readPool (poolId : String) (mintIn : Option Address) :
    Action (PoolKeys × PoolSnapshot × Bool) := do
  let (keys, hit) ← keysFor poolId
  match keys with
  | .concentrated k =>
    let direction := Direction.ofBool (mintIn.all (· = k.mintA))
    let window := (← get).config.tickArrayWindow
    let state ← askNode (Node.readConcentratedPool k.id direction window k.programId)
    pure (.concentrated (completeKeys k state direction), .concentrated state, hit)
  | .standard k =>
    let state ← askNode (Node.readStandardPool k.id k.programId)
    pure (.standard k, .standard state, hit)

def limitQuantity : Scalar → Checked Quantity
  | .int n => .ok (.int n)
  | .bool b => .ok (.int (if b then 1 else 0))
  | .float x => .ok (.float x)
  | _ => .error (.breach .wrongKind)

/-- The square-root price of a price limit, given in whole tokens; only concentrated pools take
one. -/
def sqrtPriceLimit (state : Supplied PoolSnapshot) (limitPrice : Scalar) : Checked (Option Int) :=
  match limitPrice, state with
  | .absent, _ => .ok none
  | price, .value (.concentrated s) => do
    let quantity ← limitQuantity price
    let limit ← Tick.sqrtPriceOfPrice quantity s.decimalsA s.decimalsB
    pure (some limit)
  | _, _ => .error (.argument .limitPriceOnStandardPool)

/-- A quote with the slippage asked for, or with the configured one. -/
def quoteWith (config : Config) (state : Supplied PoolSnapshot) (amountIn slippage : Scalar)
    (mintIn : Option Address) (limitPrice : Scalar) : Checked Quote := do
  let limit ← sqrtPriceLimit state limitPrice
  match slippage with
  | .absent =>
    let q ← PoolSnapshot.quote state amountIn (.int 0) mintIn limit
    let minAmountOut ← Slippage.applyBps q.amountOut config.defaultSlippageBps false
    pure { q with minAmountOut }
  | given => PoolSnapshot.quote state amountIn given mintIn limit

def quote (state : Supplied PoolSnapshot) (amountIn slippage : Scalar) (mintIn : Option Address)
    (limitPrice : Scalar) : Action Quote := do
  checked (quoteWith (← get).config state amountIn slippage mintIn limitPrice)

/-- The plan of a quoted swap, checked against a snapshot if one is given. -/
def planSwap (keys : Option (Supplied PoolKeys)) (q : Quote) (state : Option PoolSnapshot) :
    Action SwapPlan := do
  let owner ← owner
  let config := (← get).config
  askNode (Node.assemble keys {
    owner, mintIn := q.mintIn, mintOut := q.mintOut, amountIn := q.amountIn,
    minAmountOut := q.minAmountOut, computeBudget := config.budget,
    state := state.map .value, wrapNative := true, payer := none,
    sqrtPriceLimit := q.sqrtPriceLimit })

def sign (plan : SwapPlan) : Action Transaction := do
  let keypair ← loadedKeypair
  let blockhash ← askNode Node.latestBlockhash
  checked (plan.sign [keypair] blockhash)

def submit (plan : SwapPlan) : Action String := do
  let tx ← sign plan
  askNode (Node.send tx.encode (← get).config.skipPreflight)

def simulate (plan : SwapPlan) : Action SimulationReport := do
  let tx ← sign plan
  let s ← askNode (Node.simulate tx.encode)
  let succeeded := match s.error with
    | .null => true
    | _ => false
  let levels := (← get).directory.levels
  let error ← if s.error.isGiven then some <$> checked (Checked.ofRule (s.error.plainText levels))
    else pure none
  pure ⟨succeeded, error, s.logs, s.unitsConsumed⟩

def exceedsImpact (config : Config) (q : Quote) : Bool :=
  config.maxPriceImpactBps ≠ 0 && config.maxPriceImpactBps < q.impactBps

/-- Loads a pool, quotes, refuses a price impact beyond the configured one, plans and signs; then
sends the plan unless it is a dry run. -/
def swap (poolId : String) (mintIn : Option Address) (amountIn slippage : Scalar)
    (dryRun : Option Bool) (limitPrice : Scalar) : Action SwapReport := do
  let config := (← get).config
  let dryRun := dryRun.getD config.dryRun
  let (keys, state, hit) ← readPool poolId mintIn
  let q ← quote (.value state) amountIn slippage mintIn limitPrice
  let result : SwapReport := {
    success := false, error := none, poolId := keys.id, quote := q, dryRun, keysCacheHit := hit,
    operations := [], transactionSize := 0, accountCount := 0, signature := none,
    transaction := none }
  if exceedsImpact config q then
    let error := s!"price impact {q.impactBps} bps exceeds max {config.maxPriceImpactBps}"
    pure { result with error := some error }
  else
    let plan ← planSwap (some (.value keys)) q (some state)
    let tx ← sign plan
    let bytes := tx.encode
    let built := { result with
      success := true
      operations := plan.kinds
      transactionSize := bytes.length
      accountCount := tx.message.table.addresses.length
      transaction := some (Base64.encode bytes) }
    if dryRun then pure built
    else
      let signature ← submit plan
      pure { built with signature := some signature }

end Client
end PoolSwap
