import PoolSwap.Instruction.Swap
import PoolSwap.Message

/-! Swap plans: the ordered operations of one swap, which must land in one transaction. Accounts are
created before the swap uses them, and a wrapped native account is closed afterwards only if the
plan created it. -/
namespace PoolSwap

inductive OperationKind where
  | computeBudget
  | createAccount
  | wrapNative
  | swap
  | unwrapNative
deriving DecidableEq, Repr

def OperationKind.name : OperationKind → String
  | computeBudget => "compute_budget"
  | createAccount => "create_account"
  | wrapNative => "wrap_native"
  | swap => "swap"
  | unwrapNative => "unwrap_native"

structure Operation where
  kind : OperationKind
  instructions : List Instruction
  description : String
deriving DecidableEq

structure SwapPlan where
  payer : Address
  operations : List Operation
  signers : List Address
  sourceAccount : Address
  destinationAccount : Address
  amountIn : Int
  minAmountOut : Int
deriving DecidableEq

namespace SwapPlan

def instructions (p : SwapPlan) : List Instruction := p.operations.flatMap (·.instructions)

def kinds (p : SwapPlan) : List OperationKind := p.operations.map (·.kind)

def message (p : SwapPlan) (blockhash : Address) : Message := ⟨p.payer, p.instructions, blockhash⟩

def blankMessage (p : SwapPlan) : Message := p.message (.ofNat 0)

/-- Signs the plan, for which every signer's keypair must be at hand. -/
def sign (p : SwapPlan) (keypairs : List Keypair) (blockhash : Address) : Checked Transaction :=
  let missing := p.signers.filter fun s => !keypairs.any (·.address = s)
  if missing.isEmpty then Transaction.sign (p.message blockhash) keypairs
  else .error (.argument (.missingSigners missing))

def maxBytes : Nat := 1232
def maxAccounts : Nat := 64

/-- The size of the signed transaction: a count, the signatures and the message. -/
def size (p : SwapPlan) : Nat :=
  1 + Transaction.signatureSize * p.blankMessage.table.signers.length + p.blankMessage.encode.length

def checkSize (p : SwapPlan) : Checked Unit :=
  let accounts := p.blankMessage.table.addresses.length
  if maxBytes < p.size then .error (.planTooLarge (.bytes p.size maxBytes))
  else if maxAccounts < accounts then .error (.planTooLarge (.accounts accounts maxAccounts))
  else .ok ()

end SwapPlan

namespace PoolKeys

/-- The token programs of both mints; mints that name none use the first one. -/
def mintPrograms : PoolKeys → Address × Address
  | concentrated k => (k.mintProgramA.getD .tokenProgram, k.mintProgramB.getD .tokenProgram)
  | standard _ => (.tokenProgram, .tokenProgram)

def directionOf (k : PoolKeys) (mintIn mintOut : Address) : Checked Direction :=
  if mintIn = k.mintA ∧ mintOut = k.mintB then .ok .zeroForOne
  else if mintIn = k.mintB ∧ mintOut = k.mintA then .ok .oneForZero
  else .error (.unsupportedMintPair (.notThePair k.id k.mintA k.mintB mintIn mintOut))

/-- The token programs of the mints paid and received. -/
def orientedPrograms (k : PoolKeys) : Direction → Address × Address
  | .zeroForOne => k.mintPrograms
  | .oneForZero => k.mintPrograms.swap

def userAccounts (k : PoolKeys) (owner mintIn mintOut : Address) : Checked (Address × Address) := do
  let direction ← k.directionOf mintIn mintOut
  let (programIn, programOut) := k.orientedPrograms direction
  pure (.ofTokenAccount owner mintIn programIn, .ofTokenAccount owner mintOut programOut)

/-- Concentrated pools need the tick arrays of the trade. -/
def checkComplete : PoolKeys → Checked Unit
  | standard _ => .ok ()
  | concentrated k =>
    if k.tickArrays.isEmpty then .error (.missingPoolKeys (.noTickArrays k.id)) else .ok ()

/-- Keys are fresh when they name the pool of a snapshot and only tick arrays it holds. -/
def requireFresh (k : PoolKeys) (state : PoolSnapshot) : Checked Unit :=
  let sameKind := k.kind = state.kind
  if !sameKind then .error (.stalePoolKeys (.kinds k.id k.valueKind state.valueKind))
  else if state.poolId ≠ k.id ∨ state.mintA ≠ k.mintA ∨ state.mintB ≠ k.mintB then
    .error (.stalePoolKeys (.otherPool k.id state.poolId))
  else match k, state with
    | concentrated c, .concentrated s =>
      let known := s.arrays.filterMap (·.address)
      let unknown := c.tickArrays.filter (· ∉ known)
      if unknown.isEmpty then .ok () else .error (.stalePoolKeys (.tickArrays unknown k.id))
    | _, _ => .ok ()

end PoolKeys

structure SwapRequest where
  owner : Address
  mintIn : Address
  mintOut : Address
  amountIn : Int
  minAmountOut : Int
  computeBudget : Option ComputeBudget
  state : Option (Supplied PoolSnapshot)
  /-- Whether native tokens are wrapped before and unwrapped after the swap. -/
  wrapNative : Bool
  /-- Pays for the transaction; the owner if absent. -/
  payer : Option Address
  /-- Zero for no limit. -/
  sqrtPriceLimit : Int

namespace SwapRequest

def checkAmounts (q : SwapRequest) (keys : PoolKeys) : Checked Unit :=
  if q.amountIn ≤ 0 then .error (.argument (.notPositiveAmount q.amountIn))
  else if q.minAmountOut < 0 then .error (.argument (.negativeMinimum q.minAmountOut))
  else if Tick.maxU64 < q.amountIn then .error (.argument (.beyond64Bits "amount_in" q.amountIn))
  else if Tick.maxU64 < q.minAmountOut then
    .error (.argument (.beyond64Bits "min_amount_out" q.minAmountOut))
  else if q.sqrtPriceLimit ≠ 0 ∧ keys.kind = .standard then
    .error (.argument .limitOnStandardPool)
  else .ok ()

def checkState (q : SwapRequest) (keys : PoolKeys) : Checked Unit :=
  match q.state with
  | none => .ok ()
  | some (.value state) => keys.requireFresh state
  | some (.other kind) =>
    match keys.kind with
    | .standard => .error (.stalePoolKeys (.kinds keys.id keys.valueKind kind))
    | .concentrated => .error (.breach .noSuchField)

def payerOrOwner (q : SwapRequest) : Address := q.payer.getD q.owner

def creation (q : SwapRequest) (existing : List Address) (account mint program : Address) :
    List Operation :=
  if account ∈ existing then []
  else [⟨.createAccount, [.createTokenAccount q.payerOrOwner q.owner mint program],
    s!"create token account {account.text} for {mint.text}"⟩]

/-- Whether a side of the swap is in wrapped native tokens that the plan handles. -/
def isNative (q : SwapRequest) (mint : Address) : Bool := q.wrapNative && mint = .nativeMint

def wrapping (q : SwapRequest) (source : Address) : Checked (List Operation) :=
  if q.isNative q.mintIn then do
    let instructions ← Instruction.wrapNative q.owner source q.amountIn
    pure [⟨.wrapNative, instructions, s!"wrap {q.amountIn} lamports"⟩]
  else .ok []

def swapInstruction (q : SwapRequest) (keys : PoolKeys) (direction : Direction)
    (source destination : Address) : Checked Instruction :=
  match keys with
  | .standard k => k.swapInstruction q.owner source destination q.amountIn q.minAmountOut
  | .concentrated k => k.swapInstruction q.owner source destination direction q.amountIn
      q.minAmountOut q.sqrtPriceLimit true

def unwrapping (q : SwapRequest) (existing : List Address) (account mint : Address) :
    List Operation :=
  if q.isNative mint ∧ account ∉ existing then
    [⟨.unwrapNative, [.closeAccount account q.owner q.owner .tokenProgram],
      s!"close wrapped SOL account {account.text}"⟩]
  else []

def operations (q : SwapRequest) (keys : PoolKeys) (direction : Direction)
    (source destination : Address) (existing : List Address) : Checked (List Operation) := do
  let (programIn, programOut) := keys.orientedPrograms direction
  let budget ← ComputeBudget.instructions q.computeBudget
  let budgeting := if budget.isEmpty then [] else [⟨.computeBudget, budget, "compute budget"⟩]
  let creations := q.creation existing source q.mintIn programIn ++
    q.creation existing destination q.mintOut programOut
  let wrap ← q.wrapping source
  let instruction ← q.swapInstruction keys direction source destination
  let swap : Operation := ⟨.swap, [instruction],
    s!"swap {q.amountIn} {q.mintIn.text} -> {q.mintOut.text}"⟩
  pure (budgeting ++ creations ++ wrap ++ [swap] ++ q.unwrapping existing source q.mintIn ++
    q.unwrapping existing destination q.mintOut)

def plan (q : SwapRequest) (keys : Option (Supplied PoolKeys)) (existing : List Address) :
    Checked SwapPlan :=
  match keys with
  | none => .error (.missingPoolKeys .notSupplied)
  | some (.other kind) => .error (.missingPoolKeys (.unsupported kind))
  | some (.value keys) => do
    keys.checkComplete
    let direction ← keys.directionOf q.mintIn q.mintOut
    q.checkState keys
    q.checkAmounts keys
    let (source, destination) ← keys.userAccounts q.owner q.mintIn q.mintOut
    let operations ← q.operations keys direction source destination existing
    let payer := q.payerOrOwner
    let signers := if payer = q.owner then [payer] else [payer, q.owner]
    let plan : SwapPlan := {
      payer, operations, signers, sourceAccount := source, destinationAccount := destination,
      amountIn := q.amountIn, minAmountOut := q.minAmountOut }
    plan.checkSize
    pure plan

end SwapRequest

def PoolKeys.suppliedUserAccounts (keys : Supplied PoolKeys) (owner mintIn mintOut : Address) :
    Checked (Address × Address) :=
  match keys with
  | .value k => k.userAccounts owner mintIn mintOut
  | .other _ => .error (.breach .noSuchField)

end PoolSwap
