import PoolSwap.Instruction

/-! Legacy messages: all accounts of some instructions in one table, signers and writable accounts
first, and the instructions with positions in that table. -/
namespace PoolSwap

structure AccountTable where
  uses : List AccountUse
deriving DecidableEq

namespace AccountTable

/-- All uses of accounts by some instructions; programs are read. -/
def usesOf (instructions : List Instruction) : List AccountUse :=
  instructions.flatMap (·.accounts) ++ instructions.map fun i => .readonly i.programId

def merged (uses : List AccountUse) (a : Address) : AccountUse :=
  let own := uses.filter (·.address = a)
  ⟨a, own.any (·.isSigner), own.any (·.isWritable)⟩

def ascending (uses : List AccountUse) : List AccountUse :=
  uses.mergeSort fun a b => a.address.le b.address

/-- The payer, then writable signers, readonly signers, writable accounts and readonly accounts,
each group in ascending order. -/
def compile (payer : Address) (instructions : List Instruction) : AccountTable :=
  let uses := usesOf instructions
  let addresses := (uses.map (·.address)).eraseDups.filter (· ≠ payer)
  let others := addresses.map (merged uses)
  let group := fun (signer writable : Bool) =>
    ascending (others.filter fun u => u.isSigner = signer && u.isWritable = writable)
  ⟨.writableSigner payer :: group true true ++ group true false ++ group false true ++
    group false false⟩

def addresses (t : AccountTable) : List Address := t.uses.map (·.address)

def signers (t : AccountTable) : List Address :=
  (t.uses.filter (·.isSigner)).map (·.address)

/-- Counts of signers, of readonly signers and of other readonly accounts. -/
def header (t : AccountTable) : Bytes :=
  let readonlySigners := t.uses.countP fun u => u.isSigner && !u.isWritable
  let readonlyOthers := t.uses.countP fun u => !u.isSigner && !u.isWritable
  [UInt8.ofNat t.signers.length, UInt8.ofNat readonlySigners, UInt8.ofNat readonlyOthers]

def position (t : AccountTable) (a : Address) : UInt8 := UInt8.ofNat (t.addresses.idxOf a)

end AccountTable

structure Message where
  payer : Address
  instructions : List Instruction
  blockhash : Address
deriving DecidableEq

namespace Message

def table (m : Message) : AccountTable := .compile m.payer m.instructions

def instructionBytes (t : AccountTable) (i : Instruction) : Bytes :=
  t.position i.programId :: compactLength i.accounts.length ++
    i.accounts.map (fun u => t.position u.address) ++ compactLength i.data.length ++ i.data

def encode (m : Message) : Bytes :=
  let t := m.table
  t.header ++ compactLength t.addresses.length ++ t.addresses.flatMap (·.bytes) ++
    m.blockhash.bytes ++ compactLength m.instructions.length ++
    m.instructions.flatMap (instructionBytes t)

end Message

/-- A private key's seed with the address that its public key is. -/
structure Keypair where
  seed : Bytes
  length_seed : seed.length = 32
  address : Address
  bytes_address : address.bytes = Edwards25519.publicKey seed

namespace Keypair

def ofSeed (seed : Bytes) (h : seed.length = 32) : Keypair :=
  ⟨seed, h, ⟨Edwards25519.publicKey seed, Edwards25519.length_publicKey seed⟩, rfl⟩

def ofSeed? (seed : Bytes) : Option Keypair :=
  if h : seed.length = 32 then some (ofSeed seed h) else none

def sign (k : Keypair) (message : Bytes) : Bytes := Edwards25519.sign k.seed message

end Keypair

/-- A message with the signatures of its signers, in account order. -/
structure Transaction where
  message : Message
  signatures : List Bytes

namespace Transaction

def signatureSize : Nat := 64

/-- The signature of an account, whose keypair must be at hand. -/
def signatureOf (keypairs : List Keypair) (message : Bytes) (a : Address) : Checked Bytes :=
  match keypairs.find? (·.address = a) with
  | some k => .ok (k.sign message)
  | none => .error (.breach .wrongSigners)

/-- Signs a message with the keypairs of its signers: all of them, and no others. -/
def sign (message : Message) (keypairs : List Keypair) : Checked Transaction := do
  let signers := message.table.signers
  if ∀ k ∈ keypairs, k.address ∈ signers then
    return ⟨message, ← signers.mapM (signatureOf keypairs message.encode)⟩
  else throw (.breach .wrongSigners)

def encode (t : Transaction) : Bytes :=
  compactLength t.signatures.length ++ t.signatures.flatten ++ t.message.encode

end Transaction
end PoolSwap
