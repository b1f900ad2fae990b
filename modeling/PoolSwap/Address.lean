import PoolSwap.Codec.Base58
import PoolSwap.Hash.Edwards25519

/-! Account addresses: 32 bytes, written in base 58, and the addresses that programs derive from
seeds. -/
namespace PoolSwap

structure Address where
  bytes : Bytes
  length_bytes : bytes.length = 32
deriving DecidableEq

namespace Address

def ofBytes? (bs : Bytes) : Option Address :=
  if h : bs.length = 32 then some ⟨bs, h⟩ else none

/-- The address whose bytes are the big-endian digits of a number below 2²⁵⁶. -/
def ofNat (n : Nat) : Address := ⟨(LittleEndian.encode 32 n).reverse, by simp⟩

def text (a : Address) : String := Base58.encode a.bytes

def maxTextLength : Nat := 44

def ofText? (s : String) : Option Address :=
  if maxTextLength < s.length then none else (Base58.decode? s).bind ofBytes?

/-- The address of a text known to be one; of any other text, the address of all zeros. -/
def named (s : String) : Address := (ofText? s).getD (ofNat 0)

def le (a b : Address) : Bool := Base58.ofBigEndian a.bytes ≤ Base58.ofBigEndian b.bytes

def system : Address := ofNat 0
def tokenProgram : Address := named "TokenkegQfeZyiNwAJbNbGKPFXCWuBvf9Ss623VQ5DA"
def token2022Program : Address := named "TokenzQdBNbLqP5VEhdkAS6EPFLC1PHnBqCXEpPxuEb"
def associatedTokenProgram : Address := named "ATokenGPvbdGVxr1b2hvZbsiqW5xWH25efTNsLJA8knL"
def memoProgram : Address := named "MemoSq4gqABAXKb96qnH8TysNcWxMyWCqXgDLGmfcHr"
def computeBudgetProgram : Address := named "ComputeBudget111111111111111111111111111111"
def standardPoolProgram : Address := named "675kPX9MHTjS2zt1qfr1NYHuzeLXfQM9H24wFSUt1Mp8"
def concentratedPoolProgram : Address := named "CAMMCzo5YL8w4VFF8KVHrK22GGUsp5VTaW7grrKgrWqK"

def nativeMint : Address := named "So11111111111111111111111111111111111111112"

def candidate (seeds : List Bytes) (program : Address) (bump : Nat) : Bytes :=
  sha256.digest (seeds.flatten ++ [UInt8.ofNat bump] ++ program.bytes ++
    "ProgramDerivedAddress".toUTF8.toList)

/-- The first candidate from a bump downward that is no curve point, so that no key signs for it. -/
def deriveFrom? (seeds : List Bytes) (program : Address) : Nat → Option Address
  | 0 => none
  | bump + 1 =>
    let bs := candidate seeds program bump
    if Edwards25519.isPoint bs then deriveFrom? seeds program bump else ofBytes? bs

def derive (seeds : List Bytes) (program : Address) : Address :=
  (deriveFrom? seeds program 256).getD (ofNat 0)

end Address
end PoolSwap
