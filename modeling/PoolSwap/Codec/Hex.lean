import PoolSwap.Codec.LittleEndian

/-! Bytes as pairs of hexadecimal digits. -/
namespace PoolSwap.Hex

def digits : Array Char := "0123456789abcdef".toList.toArray

def digit (n : Nat) : Char := digits.getD (n % 16) '0'

def encode (bs : Bytes) : String :=
  String.ofList (bs.flatMap fun b => [digit (b.toNat / 16), digit b.toNat])

def ofNat (width n : Nat) : String :=
  String.ofList ((List.range width).reverse.map fun i => digit (n / Nat.pow 16 i))

def digitValue? (c : Char) : Option Nat :=
  if c.isDigit then some (c.toNat - 48)
  else if 'a' ≤ c ∧ c ≤ 'f' then some (c.toNat - 87)
  else if 'A' ≤ c ∧ c ≤ 'F' then some (c.toNat - 55)
  else none

def decodeChars? : List Char → Option Bytes
  | [] => some []
  | high :: low :: rest => do
    let h ← digitValue? high
    let l ← digitValue? low
    let tail ← decodeChars? rest
    some (UInt8.ofNat (16 * h + l) :: tail)
  | [_] => none

def decode? (s : String) : Option Bytes := decodeChars? s.toList

end PoolSwap.Hex
