import PoolSwap.Codec.LittleEndian

/-! Base 64 text: three bytes become four digits, and a short last group is padded. -/
namespace PoolSwap.Base64

def digits : Array Char :=
  "ABCDEFGHIJKLMNOPQRSTUVWXYZabcdefghijklmnopqrstuvwxyz0123456789+/".toList.toArray

def digit (n : Nat) : Char := digits.getD (n % 64) 'A'

def encodeChars : Bytes → List Char
  | [] => []
  | [a] => [digit (a.toNat / 4), digit (a.toNat * 16), '=', '=']
  | [a, b] =>
    let n := a.toNat * 256 + b.toNat
    [digit (n / 1024), digit (n / 16), digit (n * 4), '=']
  | a :: b :: c :: rest =>
    let n := (a.toNat * 256 + b.toNat) * 256 + c.toNat
    digit (n / 262144) :: digit (n / 4096) :: digit (n / 64) :: digit n :: encodeChars rest

def encode (bs : Bytes) : String := String.ofList (encodeChars bs)

end PoolSwap.Base64
