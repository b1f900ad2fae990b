import PoolSwap.Number.Binary64

/-! The shortest decimal text of a double: the fewest digits that read back as the same double, and
of those the nearest to it. -/
namespace PoolSwap.Shortest

/-- A positive decimal `0.d₁d₂… * 10 ^ point`, with its digits as one number. -/
structure Digits where
  digits : Nat
  point : Int

/-- Which decimal texts of doubles are positional, and how an exponent is written. -/
structure TextFormat where
  /-- Least and greatest place of the decimal point that is written without an exponent. -/
  positionalFrom : Int
  positionalTo : Int
  exponentWidth : Nat

/-- Plain numbers keep a fraction digit, exponents a sign and two digits. -/
def plain : TextFormat := ⟨-3, 16, 2⟩

/-- The range of reals that round to `m * 2 ^ q`, scaled by `4 * 2 ^ -q`; its ends belong to it when
`m` is even. -/
def interval (m : Nat) (q : Int) : Nat × Nat :=
  (if m = 1 <<< 52 ∧ -1074 < q then 4 * m - 1 else 4 * m - 2, 4 * m + 2)

def inside (m : Nat) (range : Nat × Nat) (num den : Nat) : Bool :=
  if m % 2 = 0 then range.1 * den ≤ num ∧ num ≤ range.2 * den
  else range.1 * den < num ∧ num < range.2 * den

/-- The place `k` of the decimal point of `num / den`: the least with `num / den < 10 ^ k`, searched
downward from an upper bound. -/
def pointPlace (num den : Nat) : Nat → Int → Int
  | 0, k => k
  | fuel + 1, k =>
    let below := k - 1
    let smaller :=
      if below < 0 then num * Nat.pow 10 (-below).toNat < den
      else num < den * Nat.pow 10 below.toNat
    if smaller then pointPlace num den fuel below else k

/-- The nearer of the two `n`-digit neighbours of a double that reads back as it. -/
def atLength? (m : Nat) (q : Int) (point : Int) (n : Nat) : Option Nat :=
  let grid := point - n
  -- the value in units of the grid is `top / bottom`
  let top := (m <<< q.toNat) * Nat.pow 10 (-grid).toNat
  let bottom := (1 <<< (-q).toNat) * Nat.pow 10 grid.toNat
  let low := top / bottom
  let range := interval m q
  -- a grid point `d` is `d * bottom / top * m` units of the last place
  let fits := fun (d : Nat) => inside m range (4 * d * bottom * m) top
  let nearest := roundHalfEven top bottom
  let other := if nearest = low then low + 1 else low
  if fits nearest then some nearest
  else if fits other then some other
  else none

def search (m : Nat) (q : Int) (point : Int) : Nat → Nat → Nat × Nat
  | 0, n => (m, n)
  | fuel + 1, n =>
    match atLength? m q point n with
    | some d => (d, n)
    | none => search m q point fuel (n + 1)

def stripZeros (d : Nat) : Nat → Nat
  | 0 => d
  | fuel + 1 => if d ≠ 0 ∧ d % 10 = 0 then stripZeros (d / 10) fuel else d

def ofParts (m : Nat) (q : Int) : Digits :=
  let num := m <<< q.toNat
  let den := 1 <<< (-q).toNat
  let upper := ((num.log2 : Int) - den.log2 + 1) * 30103 / 100000 + 2
  let point := pointPlace num den 4 upper
  let (d, n) := search m q point 17 1
  -- a carry to the next power of ten moves the point
  if d = Nat.pow 10 n then ⟨1, point + 1⟩ else ⟨stripZeros d 17, point⟩

def padLeft (width : Nat) (s : String) : String :=
  String.ofList (List.replicate (width - s.length) '0') ++ s

def Digits.text (format : TextFormat) (d : Digits) : String :=
  let ds := toString d.digits
  let n : Int := ds.length
  if format.positionalFrom ≤ d.point ∧ d.point ≤ format.positionalTo then
    if d.point ≤ 0 then "0." ++ String.ofList (List.replicate (-d.point).toNat '0') ++ ds
    else if n ≤ d.point then
      ds ++ String.ofList (List.replicate (d.point - n).toNat '0') ++ ".0"
    else
      String.ofList (ds.toList.take d.point.toNat) ++ "." ++
        String.ofList (ds.toList.drop d.point.toNat)
  else
    let exponent := d.point - 1
    let mantissa := match ds.toList with
      | c :: rest@(_ :: _) => String.ofList (c :: '.' :: rest)
      | cs => String.ofList cs
    mantissa ++ "e" ++ (if exponent < 0 then "-" else "+") ++
      padLeft format.exponentWidth (toString exponent.natAbs)

def text (format : TextFormat) (x : Float) : String :=
  if x.isNaN then "nan"
  else
    let sign := if Binary64.isNegative x then "-" else ""
    if x.isInf then sign ++ "inf"
    else
      let (m, q) := Binary64.parts x
      if m = 0 then sign ++ "0.0" else sign ++ (ofParts m q).text format

end PoolSwap.Shortest
