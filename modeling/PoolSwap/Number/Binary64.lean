import PoolSwap.Number.Division

/-! Doubles as exact numbers: the double nearest to a ratio of integers, and the integer significand
and exponent of a double. -/
namespace PoolSwap.Binary64

/-- The unit of the last place `2 ^ q` for a ratio, kept within the range of doubles. -/
def lastPlace (num den : Nat) : Int :=
  let q := max ((num.log2 : Int) - den.log2 - 53) (-1074)
  let scaled := if q < 0 then (num <<< (-q).toNat) / den else num / (den <<< q.toNat)
  if scaled < 1 <<< 53 then q else q + 1

/-- The double nearest to `num / den`, ties to the even significand, or nothing when that would
need a larger exponent than doubles have. -/
def nearest? (num den : Nat) : Option Float :=
  if num = 0 then some 0.0
  else
    let q := lastPlace num den
    let m := if q < 0 then roundHalfEven (num <<< (-q).toNat) den
      else roundHalfEven num (den <<< q.toNat)
    let bits := ((q + 1074).toNat <<< 52) + m
    if bits < 0x7ff <<< 52 then some (Float.ofBits bits.toUInt64) else none

def nearestInt? (num : Int) (den : Nat) : Option Float :=
  (nearest? num.natAbs den).map fun x => if num < 0 then -x else x

def ofInt? (n : Int) : Option Float := nearestInt? n 1

/-- Whether the sign bit is set, as it is on the negative zero. -/
def isNegative (x : Float) : Bool := x.toBits ≥ 0x8000000000000000

/-- The bits of a double without its sign. They are in the order of the magnitudes. -/
def magnitude (x : Float) : Nat := x.toBits.toNat % 0x8000000000000000

/-- The magnitude of a finite double as `m * 2 ^ q`, with the least `q` that doubles of its size
have. -/
def parts (x : Float) : Nat × Int :=
  let bits : Nat := x.toBits.toNat
  let exponent : Nat := (bits >>> 52) % 0x800
  let fraction := bits % (1 <<< 52)
  if exponent = 0 then (fraction, -1074) else (fraction + (1 <<< 52), (exponent : Int) - 1075)

/-- The integer part of a finite double, cut toward zero. -/
def truncate (x : Float) : Int :=
  let (m, q) := parts x
  let magnitude : Nat := if q < 0 then m >>> (-q).toNat else m <<< q.toNat
  if isNegative x then -(magnitude : Int) else magnitude

def infinity : Float := Float.ofBits 0x7ff0000000000000

def notANumber : Float := Float.ofBits 0x7ff8000000000000

end PoolSwap.Binary64
