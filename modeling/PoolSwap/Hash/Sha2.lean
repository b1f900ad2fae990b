import PoolSwap.Codec.LittleEndian

/-! The SHA-2 digests. Both sizes are one construction over words of `w` bits: pad to whole blocks
of sixteen words, then mix each block into eight words of state. -/
namespace PoolSwap.Sha2

/-- Three rotations whose results are combined; in a schedule the last one is a shift. -/
structure Mix where
  first : Nat
  second : Nat
  third : Nat

structure Variant (w : Nat) where
  roundConstants : Array (BitVec w)
  start : Array (BitVec w)
  choiceMix : Mix
  majorityMix : Mix
  earlyMix : Mix
  lateMix : Mix

variable {w : Nat}

def Mix.rotations (m : Mix) (x : BitVec w) : BitVec w :=
  x.rotateRight m.first ^^^ x.rotateRight m.second ^^^ x.rotateRight m.third

def Mix.withShift (m : Mix) (x : BitVec w) : BitVec w :=
  x.rotateRight m.first ^^^ x.rotateRight m.second ^^^ (x >>> m.third)

def word (bs : Bytes) : BitVec w := BitVec.ofNat w (LittleEndian.decode bs.reverse)

def wordBytes (x : BitVec w) : Bytes := (LittleEndian.encode (w / 8) x.toNat).reverse

def toWords : Nat → Bytes → List (BitVec w)
  | 0, _ => []
  | n + 1, bs => word (bs.take (w / 8)) :: toWords n (bs.drop (w / 8))

/-- A one bit, zeros, and the bit length in two words, up to a multiple of sixteen words. -/
def pad (w : Nat) (message : Bytes) : Bytes :=
  let block := 2 * w
  let size := message.length
  let zeros := (2 * block - 1 - w / 4 - size % block) % block
  message ++ 0x80 :: List.replicate zeros 0 ++ (LittleEndian.encode (w / 4) (8 * size)).reverse

/-- A block followed by words mixed from it, as many as there are rounds. -/
def Variant.schedule (v : Variant w) (block : Array (BitVec w)) : Array (BitVec w) :=
  (List.range (v.roundConstants.size - 16)).foldl (fun ws i =>
    let early := v.earlyMix.withShift (ws.getD (i + 1) 0)
    let late := v.lateMix.withShift (ws.getD (i + 14) 0)
    ws.push (ws.getD i 0 + early + ws.getD (i + 9) 0 + late)) block

def Variant.round (v : Variant w) (s : Array (BitVec w)) (constant scheduled : BitVec w) :
    Array (BitVec w) :=
  let a := s.getD 0 0
  let b := s.getD 1 0
  let c := s.getD 2 0
  let e := s.getD 4 0
  let choice := (e &&& s.getD 5 0) ^^^ (~~~e &&& s.getD 6 0)
  let majority := (a &&& b) ^^^ (a &&& c) ^^^ (b &&& c)
  let t := s.getD 7 0 + v.choiceMix.rotations e + choice + constant + scheduled
  #[t + v.majorityMix.rotations a + majority, a, b, c, s.getD 3 0 + t, e, s.getD 5 0, s.getD 6 0]

def Variant.compress (v : Variant w) (s block : Array (BitVec w)) : Array (BitVec w) :=
  let mixed := ((v.schedule block).zip v.roundConstants).foldl
    (fun r (scheduled, constant) => v.round r constant scheduled) s
  s.zipWith (· + ·) mixed

def Variant.absorb (v : Variant w) (s : Array (BitVec w)) : Nat → Bytes → Array (BitVec w)
  | 0, _ => s
  | n + 1, bs => v.absorb (v.compress s (toWords 16 (bs.take (2 * w))).toArray) n (bs.drop (2 * w))

def Variant.digest (v : Variant w) (message : Bytes) : Bytes :=
  let padded := pad w message
  (v.absorb v.start (padded.length / (2 * w)) padded).toList.flatMap wordBytes

end PoolSwap.Sha2

namespace PoolSwap

/-- Words of 32 bits: the constants are fractional bits of the cube roots of the first 64 primes,
the start those of the square roots of the first eight. -/
def sha256 : Sha2.Variant 32 where
  roundConstants :=
    #[0x428a2f98, 0x71374491, 0xb5c0fbcf, 0xe9b5dba5, 0x3956c25b, 0x59f111f1, 0x923f82a4, 0xab1c5ed5,
      0xd807aa98, 0x12835b01, 0x243185be, 0x550c7dc3, 0x72be5d74, 0x80deb1fe, 0x9bdc06a7, 0xc19bf174,
      0xe49b69c1, 0xefbe4786, 0x0fc19dc6, 0x240ca1cc, 0x2de92c6f, 0x4a7484aa, 0x5cb0a9dc, 0x76f988da,
      0x983e5152, 0xa831c66d, 0xb00327c8, 0xbf597fc7, 0xc6e00bf3, 0xd5a79147, 0x06ca6351, 0x14292967,
      0x27b70a85, 0x2e1b2138, 0x4d2c6dfc, 0x53380d13, 0x650a7354, 0x766a0abb, 0x81c2c92e, 0x92722c85,
      0xa2bfe8a1, 0xa81a664b, 0xc24b8b70, 0xc76c51a3, 0xd192e819, 0xd6990624, 0xf40e3585, 0x106aa070,
      0x19a4c116, 0x1e376c08, 0x2748774c, 0x34b0bcb5, 0x391c0cb3, 0x4ed8aa4a, 0x5b9cca4f, 0x682e6ff3,
      0x748f82ee, 0x78a5636f, 0x84c87814, 0x8cc70208, 0x90befffa, 0xa4506ceb, 0xbef9a3f7, 0xc67178f2]
  start :=
    #[0x6a09e667, 0xbb67ae85, 0x3c6ef372, 0xa54ff53a, 0x510e527f, 0x9b05688c, 0x1f83d9ab, 0x5be0cd19]
  choiceMix := ⟨6, 11, 25⟩
  majorityMix := ⟨2, 13, 22⟩
  earlyMix := ⟨7, 18, 3⟩
  lateMix := ⟨17, 19, 10⟩

/-- Words of 64 bits: the constants are fractional bits of the cube roots of the first 80 primes. -/
def sha512 : Sha2.Variant 64 where
  roundConstants :=
    #[0x428a2f98d728ae22, 0x7137449123ef65cd, 0xb5c0fbcfec4d3b2f, 0xe9b5dba58189dbbc,
      0x3956c25bf348b538, 0x59f111f1b605d019, 0x923f82a4af194f9b, 0xab1c5ed5da6d8118,
      0xd807aa98a3030242, 0x12835b0145706fbe, 0x243185be4ee4b28c, 0x550c7dc3d5ffb4e2,
      0x72be5d74f27b896f, 0x80deb1fe3b1696b1, 0x9bdc06a725c71235, 0xc19bf174cf692694,
      0xe49b69c19ef14ad2, 0xefbe4786384f25e3, 0x0fc19dc68b8cd5b5, 0x240ca1cc77ac9c65,
      0x2de92c6f592b0275, 0x4a7484aa6ea6e483, 0x5cb0a9dcbd41fbd4, 0x76f988da831153b5,
      0x983e5152ee66dfab, 0xa831c66d2db43210, 0xb00327c898fb213f, 0xbf597fc7beef0ee4,
      0xc6e00bf33da88fc2, 0xd5a79147930aa725, 0x06ca6351e003826f, 0x142929670a0e6e70,
      0x27b70a8546d22ffc, 0x2e1b21385c26c926, 0x4d2c6dfc5ac42aed, 0x53380d139d95b3df,
      0x650a73548baf63de, 0x766a0abb3c77b2a8, 0x81c2c92e47edaee6, 0x92722c851482353b,
      0xa2bfe8a14cf10364, 0xa81a664bbc423001, 0xc24b8b70d0f89791, 0xc76c51a30654be30,
      0xd192e819d6ef5218, 0xd69906245565a910, 0xf40e35855771202a, 0x106aa07032bbd1b8,
      0x19a4c116b8d2d0c8, 0x1e376c085141ab53, 0x2748774cdf8eeb99, 0x34b0bcb5e19b48a8,
      0x391c0cb3c5c95a63, 0x4ed8aa4ae3418acb, 0x5b9cca4f7763e373, 0x682e6ff3d6b2b8a3,
      0x748f82ee5defb2fc, 0x78a5636f43172f60, 0x84c87814a1f0ab72, 0x8cc702081a6439ec,
      0x90befffa23631e28, 0xa4506cebde82bde9, 0xbef9a3f7b2c67915, 0xc67178f2e372532b,
      0xca273eceea26619c, 0xd186b8c721c0c207, 0xeada7dd6cde0eb1e, 0xf57d4f7fee6ed178,
      0x06f067aa72176fba, 0x0a637dc5a2c898a6, 0x113f9804bef90dae, 0x1b710b35131c471b,
      0x28db77f523047d84, 0x32caab7b40c72493, 0x3c9ebe0a15c9bebc, 0x431d67c49c100d4c,
      0x4cc5d4becb3e42b6, 0x597f299cfc657e2a, 0x5fcb6fab3ad6faec, 0x6c44198c4a475817]
  start :=
    #[0x6a09e667f3bcc908, 0xbb67ae8584caa73b, 0x3c6ef372fe94f82b, 0xa54ff53a5f1d36f1,
      0x510e527fade682d1, 0x9b05688c2b3e6c1f, 0x1f83d9abfb41bd6b, 0x5be0cd19137e2179]
  choiceMix := ⟨14, 18, 41⟩
  majorityMix := ⟨28, 34, 39⟩
  earlyMix := ⟨1, 8, 7⟩
  lateMix := ⟨19, 61, 6⟩

end PoolSwap
