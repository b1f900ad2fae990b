/-! Fixed-width integers as bytes, least significant first, and readers that take fields off the
front of a byte list. A reader undoes the writer of its field and leaves the rest. -/
namespace PoolSwap

abbrev Bytes := List UInt8

namespace LittleEndian

/-- The `width` bytes of `n`; higher digits are dropped. -/
def encode : Nat → Nat → Bytes
  | 0, _ => []
  | width + 1, n => UInt8.ofNat (n % 256) :: encode width (n / 256)

def decode : Bytes → Nat
  | [] => 0
  | b :: bs => b.toNat + 256 * decode bs

/-- The least number that does not fit in `width` bytes. -/
def capacity (width : Nat) : Nat := Nat.pow 256 width

/-- Two's complement of `width` bytes. -/
def encodeSigned (width : Nat) (n : Int) : Bytes := encode width (n % capacity width).toNat

def decodeSigned (bs : Bytes) : Int :=
  let n : Int := decode bs
  if 2 * n < capacity bs.length then n else n - capacity bs.length

theorem capacity_succ (width : Nat) : capacity (width + 1) = 256 * capacity width :=
  Nat.pow_succ'

@[simp] theorem length_encode (width n : Nat) : (encode width n).length = width := by
  induction width generalizing n with
  | zero => rfl
  | succ width ih => simp [encode, ih]

theorem decode_encode (width n : Nat) : decode (encode width n) = n % capacity width := by
  induction width generalizing n with
  | zero => simp [encode, decode, capacity, Nat.mod_one]
  | succ width ih =>
    have low : (UInt8.ofNat (n % 256)).toNat = n % 256 := by
      rw [UInt8.toNat_ofNat']
      exact Nat.mod_mod_of_dvd _ (by decide)
    rw [encode, decode, ih, low, capacity_succ, Nat.mod_mul]

theorem decode_lt (bs : Bytes) : decode bs < capacity bs.length := by
  induction bs with
  | nil => simp [decode, capacity]
  | cons b bs ih =>
    have hb : b.toNat < 256 := b.toNat_lt
    rw [decode, List.length_cons, capacity_succ]
    omega

theorem encode_decode (bs : Bytes) : encode bs.length (decode bs) = bs := by
  induction bs with
  | nil => rfl
  | cons b bs ih =>
    have hb : b.toNat < 256 := b.toNat_lt
    have low : (b.toNat + 256 * decode bs) % 256 = b.toNat := by omega
    have high : (b.toNat + 256 * decode bs) / 256 = decode bs := by omega
    rw [List.length_cons, encode, decode, low, high, ih, UInt8.ofNat_toNat]

end LittleEndian

abbrev FieldReader := StateT Bytes Option

namespace FieldReader

def bytes (n : Nat) : FieldReader Bytes := fun s =>
  let head := s.take n
  if head.length = n then some (head, s.drop n) else none

def skip (n : Nat) : FieldReader Unit := do
  let _ ← bytes n
  pure ()

def unsigned (width : Nat) : FieldReader Nat := LittleEndian.decode <$> bytes width

def signed (width : Nat) : FieldReader Int := LittleEndian.decodeSigned <$> bytes width

def times (field : FieldReader α) : Nat → FieldReader (List α)
  | 0 => pure []
  | n + 1 => do
    let head ← field
    let tail ← times field n
    pure (head :: tail)

theorem bytes_append {head : Bytes} {n : Nat} (h : head.length = n) (rest : Bytes) :
    bytes n (head ++ rest) = some (head, rest) := by
  subst h
  simp [bytes]

/-- Reading undoes writing and leaves what follows. -/
theorem unsigned_append {width n : Nat} (h : n < LittleEndian.capacity width) (rest : Bytes) :
    unsigned width (LittleEndian.encode width n ++ rest) = some (n, rest) := by
  have head : bytes width (LittleEndian.encode width n ++ rest) =
      some (LittleEndian.encode width n, rest) := bytes_append (by simp) rest
  have value : LittleEndian.decode (LittleEndian.encode width n) = n := by
    rw [LittleEndian.decode_encode, Nat.mod_eq_of_lt h]
  simp [unsigned, Functor.map, StateT.map, head, value]

/-- The value at the front of some bytes; what follows is not looked at. -/
def front? (field : FieldReader α) (s : Bytes) : Option α := (field.run s).map Prod.fst

end FieldReader

/-- Lengths below 2²¹ in groups of seven bits, least first; all but the last group are marked. -/
def compactLength (n : Nat) : Bytes :=
  if n < 0x80 then [UInt8.ofNat n]
  else if n < 0x4000 then [UInt8.ofNat (n % 128 + 128), UInt8.ofNat (n / 128)]
  else [UInt8.ofNat (n % 128 + 128), UInt8.ofNat (n / 128 % 128 + 128), UInt8.ofNat (n / 16384)]

end PoolSwap
