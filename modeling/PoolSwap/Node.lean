import PoolSwap.Message

/-! A node of the network as a value: the accounts it holds, how it answers a sent or simulated
transaction, and the calls made to it so far. A query changes the node by its log alone, which it
keeps when it fails. -/
namespace PoolSwap

structure Account where
  owner : Address
  data : Bytes
deriving DecidableEq

inductive Method where
  | accountInfo
  | multipleAccounts
  | epochInfo
  | latestBlockhash
  | sendTransaction
  | simulateTransaction
deriving DecidableEq, Repr

def Method.name : Method → String
  | accountInfo => "get_account_info"
  | multipleAccounts => "get_multiple_accounts"
  | epochInfo => "get_epoch_info"
  | latestBlockhash => "get_latest_blockhash"
  | sendTransaction => "send_raw_transaction"
  | simulateTransaction => "simulate_transaction"

def Method.all : List Method :=
  [accountInfo, multipleAccounts, epochInfo, latestBlockhash, sendTransaction, simulateTransaction]

def Method.ofName? (name : String) : Option Method := all.find? (·.name = name)

inductive Call where
  | accountInfo (address : Address)
  | multipleAccounts (addresses : List Address)
  | epochInfo
  | latestBlockhash
  | sendTransaction (bytes : Bytes) (skipPreflight : Bool)
  | simulateTransaction (bytes : Bytes) (verifySignatures : Bool)
deriving DecidableEq

def Call.method : Call → Method
  | accountInfo _ => .accountInfo
  | multipleAccounts _ => .multipleAccounts
  | epochInfo => .epochInfo
  | latestBlockhash => .latestBlockhash
  | sendTransaction _ _ => .sendTransaction
  | simulateTransaction _ _ => .simulateTransaction

structure Simulation where
  error : Payload
  logs : Payload
  unitsConsumed : Payload

structure Node where
  accounts : Address → Option Account
  epoch : Int
  blockhash : Address
  sending : Except String String
  /-- The outcome of a simulation, or why it is refused. -/
  simulating : Except String Simulation
  /-- Methods that cannot be reached, each with the reason. -/
  failures : List (Method × String)
  /-- The calls made so far, the latest first. -/
  calls : List Call

namespace Node

abbrev Query := ExceptT Fault (StateM Node)

def setAccount (n : Node) (address : Address) (account : Option Account) : Node :=
  { n with accounts := fun a => if a = address then account else n.accounts a }

/-- Logs a call, and fails if its method cannot be reached. -/
def record (call : Call) : Query Unit := do
  modify fun n => { n with calls := call :: n.calls }
  match (← get).failures.find? (·.1 = call.method) with
  | some (_, reason) => throw (.connection reason)
  | none => pure ()

def accountInfo (address : Address) : Query (Option Account) := do
  record (.accountInfo address)
  return (← get).accounts address

def multipleAccounts (addresses : List Address) : Query (List (Option Account)) := do
  record (.multipleAccounts addresses)
  return addresses.map (← get).accounts

def currentEpoch : Query Int := do
  record .epochInfo
  return (← get).epoch

def latestBlockhash : Query Address := do
  record .latestBlockhash
  return (← get).blockhash

def send (bytes : Bytes) (skipPreflight : Bool) : Query String := do
  record (.sendTransaction bytes skipPreflight)
  match (← get).sending with
  | .ok signature => pure signature
  | .error reason => throw (.submission reason .rejected)

def simulate (bytes : Bytes) : Query Simulation := do
  record (.simulateTransaction bytes false)
  match (← get).simulating with
  | .ok simulation => pure simulation
  | .error reason => throw (.submission reason .simulationFailed)

/-- Which of some accounts exist, each asked for once. -/
def existingAccounts (addresses : List Address) : Query (List Address) := do
  let distinct := addresses.eraseDups
  if distinct.isEmpty then pure []
  else
    let found ← multipleAccounts distinct
    pure (((distinct.zip found).filter (·.2.isSome)).map Prod.fst)

end Node
end PoolSwap
