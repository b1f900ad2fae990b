import PoolSwap.Fault

/-! Instructions to programs, and the ones that concern token accounts and the compute budget. -/
namespace PoolSwap

structure AccountUse where
  address : Address
  isSigner : Bool
  isWritable : Bool
deriving DecidableEq

namespace AccountUse

def readonly (a : Address) : AccountUse := ⟨a, false, false⟩
def writable (a : Address) : AccountUse := ⟨a, false, true⟩
def signer (a : Address) : AccountUse := ⟨a, true, false⟩
def writableSigner (a : Address) : AccountUse := ⟨a, true, true⟩

end AccountUse

structure Instruction where
  programId : Address
  accounts : List AccountUse
  data : Bytes
deriving DecidableEq

/-- The bytes of an integer that must fit a field of some width. -/
def fieldBytes (rule : Breach) (width : Nat) (n : Int) : Checked Bytes :=
  if 0 ≤ n ∧ n < LittleEndian.capacity width then .ok (LittleEndian.encode width n.toNat)
  else .error (.breach rule)

def Address.ofTokenAccount (owner mint tokenProgram : Address) : Address :=
  .derive [owner.bytes, tokenProgram.bytes, mint.bytes] .associatedTokenProgram

namespace Instruction

/-- Creates an owner's token account, or does nothing if it exists. -/
def createTokenAccount (payer owner mint tokenProgram : Address) : Instruction where
  programId := .associatedTokenProgram
  accounts := [
    .writableSigner payer, .writable (.ofTokenAccount owner mint tokenProgram), .readonly owner,
    .readonly mint, .readonly .system, .readonly tokenProgram]
  data := [1]

def transferNative (source destination : Address) (lamports : Int) : Checked Instruction := do
  let amount ← fieldBytes .wrongKind 8 lamports
  pure ⟨.system, [.writableSigner source, .writable destination], LittleEndian.encode 4 2 ++ amount⟩

def syncNative (account : Address) : Instruction := ⟨.tokenProgram, [.writable account], [17]⟩

def wrapNative (owner account : Address) (lamports : Int) : Checked (List Instruction) := do
  let transfer ← transferNative owner account lamports
  pure [transfer, syncNative account]

def closeAccount (account destination owner tokenProgram : Address) : Instruction :=
  ⟨tokenProgram, [.writable account, .writable destination, .signer owner], [9]⟩

end Instruction

/-- Limits on computation and its price that a transaction may state. -/
structure ComputeBudget where
  unitLimit : Option Int
  unitPrice : Option Int
deriving DecidableEq, Repr

namespace ComputeBudget

def setting (tag : UInt8) (width : Nat) (value : Option Int) : Checked (List Instruction) :=
  match value with
  | none => .ok []
  | some n => do
    let bytes ← fieldBytes .tooLarge width n
    pure [⟨.computeBudgetProgram, [], tag :: bytes⟩]

def instructions (budget : Option ComputeBudget) : Checked (List Instruction) :=
  match budget with
  | none => .ok []
  | some b => do
    let limit ← setting 2 4 b.unitLimit
    let price ← setting 3 8 b.unitPrice
    pure (limit ++ price)

end ComputeBudget
end PoolSwap
