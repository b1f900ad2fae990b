import PoolSwap.Hash.Sha2

/-! The length of a digest. Every round and every block keeps the state at eight words. -/
namespace PoolSwap

namespace Sha2

variable {w : Nat}

@[simp] theorem length_wordBytes (x : BitVec w) : (wordBytes x).length = w / 8 := by
  simp [wordBytes]

namespace Variant

variable {v : Variant w} {s block : Array (BitVec w)}

theorem size_foldl_round (mixed : List (BitVec w × BitVec w)) (hs : s.size = 8) :
    (mixed.foldl (fun r (scheduled, constant) => v.round r constant scheduled) s).size = 8 := by
  induction mixed generalizing s with
  | nil => exact hs
  | cons m mixed ih => exact ih rfl

theorem size_compress (hs : s.size = 8) : (v.compress s block).size = 8 := by
  rw [compress, Array.size_zipWith, ← Array.foldl_toList, size_foldl_round _ hs, hs, Nat.min_self]

theorem size_absorb {n : Nat} {bs : Bytes} (hs : s.size = 8) : (v.absorb s n bs).size = 8 := by
  induction n generalizing s bs with
  | zero => exact hs
  | succ n ih => exact ih (size_compress hs)

/-- A digest holds eight words. -/
theorem length_digest (hs : v.start.size = 8) (message : Bytes) :
    (v.digest message).length = 8 * (w / 8) := by
  have hwords (padded : Bytes) (n : Nat) : (v.absorb v.start n padded).toList.length = 8 :=
    size_absorb hs
  simp only [digest, List.length_flatMap, length_wordBytes, List.map_const', List.sum_replicate_nat,
    hwords]

end Variant
end Sha2

/-- Kinds of accounts and instructions are told apart by the first eight bytes of a digest. -/
theorem sha256.length_take (message : Bytes) : ((sha256.digest message).take 8).length = 8 := by
  rw [List.length_take, Sha2.Variant.length_digest rfl]
  rfl

end PoolSwap
