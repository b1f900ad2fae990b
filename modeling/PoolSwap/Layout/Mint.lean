import PoolSwap.Layout.StandardPool
import PoolSwap.Pool.Snapshot

/-! The transfer fees of a mint. A mint may be followed by extensions, each a type and a length in
front of its value; one of them holds the fees of two periods. -/
namespace PoolSwap

structure TransferFeeConfig where
  olderEpoch : Nat
  older : TransferFee
  newerEpoch : Nat
  newer : TransferFee
deriving DecidableEq, Repr

def TransferFeeConfig.inEpoch (c : TransferFeeConfig) (epoch : Int) : TransferFee :=
  if c.newerEpoch ≤ epoch then c.newer else c.older

namespace Mint

def baseSize : Nat := 82

/-- Mints with extensions are padded to the size of a token account and marked by a byte. -/
def mintMark : Nat := 1

def uninitializedType : Nat := 0
def transferFeeType : Nat := 1

def headerSize : Nat := 4

/-- The type and the value length of an extension. -/
def headerLayout : FieldReader (Nat × Nat) := do
  let type ← FieldReader.unsigned 2
  let length ← FieldReader.unsigned 2
  pure (type, length)

def feeLayout : FieldReader (Nat × TransferFee) := do
  let epoch ← FieldReader.unsigned 8
  let maximum ← FieldReader.unsigned 8
  let basisPoints ← FieldReader.unsigned 2
  pure (epoch, ⟨basisPoints, maximum⟩)

/-- Two authorities, the withheld amount, and the older and newer fee. -/
def configLayout : FieldReader TransferFeeConfig := do
  FieldReader.skip 72
  let (olderEpoch, older) ← feeLayout
  let (newerEpoch, newer) ← feeLayout
  pure ⟨olderEpoch, older, newerEpoch, newer⟩

/-- The first fee extension among the extensions at the front of some bytes. An unused type ends
them. -/
def scan (address : Option String) (rest : Bytes) : Checked (Option TransferFeeConfig) :=
  if _h : rest.length < headerSize then .ok none
  else match headerLayout.front? rest with
    | none => .ok none
    | some (type, length) =>
      if type = uninitializedType then .ok none
      else if type = transferFeeType then
        (Layout.read configLayout ((rest.drop headerSize).take length) "transfer fee config"
          address).map some
      else scan address (rest.drop (headerSize + length))
termination_by rest.length
decreasing_by
  simp only [headerSize] at *
  simp only [List.length_drop]; omega

def decodeTransferFee (raw : Bytes) (address : Option String) :
    Checked (Option TransferFeeConfig) :=
  if raw.length < baseSize then .error (.stateRead address (.notMint raw.length))
  else match raw.drop TokenAccount.size with
    | [] => .ok none
    | mark :: rest =>
      if mark.toNat ≠ mintMark then .error (.stateRead address (.accountType mark.toNat))
      else scan address rest

end Mint
end PoolSwap
