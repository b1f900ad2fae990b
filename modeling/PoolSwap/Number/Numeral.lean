import PoolSwap.Number.Binary64
import PoolSwap.Text.Blank
import PoolSwap.Text.DecimalDigit

/-! Numbers as users write them: integers, doubles and exact decimals, in the digits of any script.
Integers and doubles take an underscore between two digits; decimals ignore underscores anywhere. -/
namespace PoolSwap.Numeral

/-- The digits of all scripts as ASCII digits. -/
def asciiDigit (c : Char) : Char :=
  match DecimalDigit.value? c with
  | some d => Char.ofNat (48 + d)
  | none => c

/-- Drops underscores, each of which must stand between two digits. -/
def joinDigits : Option Char → List Char → Option (List Char)
  | _, [] => some []
  | before, '_' :: rest =>
    if before.any Char.isDigit && rest.head?.any Char.isDigit then joinDigits none rest else none
  | _, c :: rest => (joinDigits (some c) rest).map (c :: ·)

/-- The characters of an integer or double without blanks around it and underscores in it. -/
def plain? (s : String) : Option (List Char) :=
  joinDigits none ((Blank.strip Blank.isNumeralBlank s.toList).map asciiDigit)

def ofDigits (ds : List Char) : Nat := ds.foldl (fun n c => 10 * n + (c.toNat - 48)) 0

def takeSign : List Char → Bool × List Char
  | '-' :: rest => (true, rest)
  | '+' :: rest => (false, rest)
  | cs => (false, cs)

def maxIntegerDigits : Nat := 4300

def integer? (s : String) : Option Int := do
  let (negative, ds) := takeSign (← plain? s)
  if !ds.isEmpty && ds.all Char.isDigit && ds.length ≤ maxIntegerDigits then
    some (if negative then -(ofDigits ds : Int) else ofDigits ds)
  else none

/-- A decimal `coefficient * 10 ^ exponent` as written, with its number of coefficient digits. -/
structure Written where
  coefficient : Nat
  exponent : Int
deriving Repr, DecidableEq

def exponent? : List Char → Option Int
  | [] => some 0
  | c :: rest =>
    if c = 'e' ∨ c = 'E' then
      let (negative, ds) := takeSign rest
      if !ds.isEmpty && ds.all Char.isDigit then
        some (if negative then -(ofDigits ds : Int) else ofDigits ds)
      else none
    else none

/-- An unsigned decimal: digits around an optional point, at least one of them, and an optional
exponent. -/
def unsigned? (cs : List Char) : Option Written :=
  let whole := cs.takeWhile Char.isDigit
  let afterWhole := cs.dropWhile Char.isDigit
  let fraction := match afterWhole with
    | '.' :: rest => rest.takeWhile Char.isDigit
    | _ => []
  let tail := match afterWhole with
    | '.' :: rest => rest.dropWhile Char.isDigit
    | rest => rest
  let ds := whole ++ fraction
  if ds.isEmpty then none
  else (exponent? tail).map fun e => ⟨ofDigits ds, e - fraction.length⟩

/-- The nearest double, infinite when the decimal is above the doubles. -/
def Written.toFloat (w : Written) : Float :=
  let size := w.exponent + digitCount w.coefficient
  if w.coefficient = 0 ∨ size < -400 then 0.0
  else if 400 < size then Binary64.infinity
  else (Binary64.nearest? (w.coefficient * Nat.pow 10 w.exponent.toNat)
    (Nat.pow 10 (-w.exponent).toNat)).getD Binary64.infinity

/-- The double a text denotes, infinities and the undefined number among them. -/
def float? (s : String) : Option Float := do
  let (negative, cs) := takeSign (← plain? s)
  let word := String.ofList (cs.map Char.toLower)
  let magnitude ←
    if word = "inf" ∨ word = "infinity" then some Binary64.infinity
    else if word = "nan" then some Binary64.notANumber
    else (unsigned? cs).map Written.toFloat
  some (if negative then -magnitude else magnitude)

end PoolSwap.Numeral
