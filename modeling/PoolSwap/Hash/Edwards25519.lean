import PoolSwap.Hash.Sha2

/-! The twisted Edwards curve over the field of 2²⁵⁵ - 19 elements, and its deterministic
signatures. -/
namespace PoolSwap.Edwards25519

def fieldSize : Nat := (1 <<< 255) - 19

def order : Nat := (1 <<< 252) + 27742317777372353535851937790883648493

/-- `base ^ exponent` modulo `modulus`, by squaring. -/
def powMod (modulus base exponent : Nat) : Nat :=
  if h : exponent = 0 then 1 % modulus
  else
    let root := powMod modulus (base * base % modulus) (exponent / 2)
    if exponent % 2 = 1 then root * base % modulus else root
termination_by exponent
decreasing_by omega

def subField (a b : Nat) : Nat := (a + fieldSize - b % fieldSize) % fieldSize

def invField (a : Nat) : Nat := powMod fieldSize a (fieldSize - 2)

/-- The coefficient of the curve `-x² + y² = 1 + d x² y²`. -/
def d : Nat := subField 0 (121665 * invField 121666)

/-- A point `(x / z, y / z)` with `t = x y / z`. -/
structure Point where
  x : Nat
  y : Nat
  z : Nat
  t : Nat

def Point.zero : Point := ⟨0, 1, 1, 0⟩

def Point.base : Point :=
  let x := 15112221349535400772501151409588531511454012693041857206046113283949847762202
  let y := 46316835694926478169428394003475163141307993866256225615783033603165251855960
  ⟨x, y, 1, x * y % fieldSize⟩

def Point.add (p q : Point) : Point :=
  let a := subField p.y p.x * subField q.y q.x
  let b := (p.y + p.x) * (q.y + q.x)
  let c := 2 * d * p.t % fieldSize * q.t
  let e := 2 * p.z * q.z
  let f := subField b a
  let g := subField e c
  let h := (e + c) % fieldSize
  let i := (b + a) % fieldSize
  ⟨f * g % fieldSize, h * i % fieldSize, g * h % fieldSize, f * i % fieldSize⟩

def Point.mul (p : Point) (n : Nat) : Point :=
  if h : n = 0 then Point.zero
  else
    let half := (p.add p).mul (n / 2)
    if n % 2 = 1 then half.add p else half
termination_by n
decreasing_by omega

/-- The ordinate, with the parity of the abscissa in the top bit. -/
def Point.encode (p : Point) : Bytes :=
  let inverse := invField p.z
  let x := p.x * inverse % fieldSize
  let y := p.y * inverse % fieldSize
  LittleEndian.encode 32 (y + (x % 2) <<< 255)

/-- Whether 32 bytes name a point: `(y² - 1) / (d y² + 1)` must be a square. -/
def isPoint (bs : Bytes) : Bool :=
  let y := LittleEndian.decode bs % (1 <<< 255)
  let square := y * y % fieldSize
  let ratio := subField square 1 * (d * square + 1) % fieldSize
  powMod fieldSize ratio ((fieldSize - 1) / 2) ≠ fieldSize - 1

/-- The secret scalar and the nonce key of a 32-byte seed. -/
def expand (seed : Bytes) : Nat × Bytes :=
  let h := sha512.digest seed
  let n := LittleEndian.decode (h.take 32)
  (n % (1 <<< 254) / 8 * 8 + (1 <<< 254), h.drop 32)

def publicKey (seed : Bytes) : Bytes := (Point.base.mul (expand seed).1).encode

theorem length_publicKey (seed : Bytes) : (publicKey seed).length = 32 :=
  LittleEndian.length_encode _ _

def sign (seed message : Bytes) : Bytes :=
  let (scalar, nonceKey) := expand seed
  let nonce := LittleEndian.decode (sha512.digest (nonceKey ++ message)) % order
  let commitment := (Point.base.mul nonce).encode
  let challenge := LittleEndian.decode
    (sha512.digest (commitment ++ (Point.base.mul scalar).encode ++ message)) % order
  commitment ++ LittleEndian.encode 32 ((nonce + challenge * scalar) % order)

end PoolSwap.Edwards25519
