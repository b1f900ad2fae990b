import PoolSwap.Codec.LittleEndian

/-! Base 58 text of bytes: a leading zero byte is a leading digit zero, and the rest is the digits
of one big-endian number. -/
namespace PoolSwap

/-- The digits of a number to a base of at least two, least first; none for zero. -/
def radixDigits (base : Nat) (n : Nat) : List Nat :=
  if _h : n = 0 ∨ base < 2 then [] else n % base :: radixDigits base (n / base)
termination_by n
decreasing_by exact Nat.div_lt_self (by omega) (by omega)

namespace Base58

/-- The digits in ascending order; 0, O, I and l are left out as too much alike. -/
def digits : Array Char :=
  "123456789ABCDEFGHJKLMNPQRSTUVWXYZabcdefghijkmnopqrstuvwxyz".toList.toArray

def digitValue? (c : Char) : Option Nat := digits.idxOf? c

def ofBigEndian (bs : Bytes) : Nat := bs.foldl (fun n b => 256 * n + b.toNat) 0

def toBigEndian (n : Nat) : Bytes := ((radixDigits 256 n).map UInt8.ofNat).reverse

def encode (bs : Bytes) : String :=
  let zeros := (bs.takeWhile (· = 0)).length
  let number := ((radixDigits 58 (ofBigEndian bs)).map fun d => digits.getD d '1').reverse
  String.ofList (List.replicate zeros '1' ++ number)

def decode? (s : String) : Option Bytes := do
  let values ← s.toList.mapM digitValue?
  let zeros := (values.takeWhile (· = 0)).length
  let number := values.foldl (fun n d => 58 * n + d) 0
  some (List.replicate zeros 0 ++ toBigEndian number)

end Base58
end PoolSwap
