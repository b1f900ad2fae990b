import PoolSwap.Fault

/-! A cache of bounded size whose entries expire. A full cache makes room by dropping the entry that
expires first, the oldest of several. Moments are readings of a clock of any kind `τ`; the clock of a
client counts whole milliseconds. -/
namespace PoolSwap

structure CacheEntry (α : Type) (τ : Type := Int) where
  key : String
  /-- The last moment at which the entry counts. -/
  expiresAt : τ
  /-- An entry may hold nothing; it takes a place but reads as absent. -/
  value : Option α

structure KeyCache (α : Type) (τ : Type := Int) where
  timeToLive : τ
  maxSize : Int
  /-- In the order in which the keys came in. -/
  entries : List (CacheEntry α τ)

namespace KeyCache

variable {α τ : Type}

def defaultTimeToLive : Int := 30000
def defaultMaxSize : Int := 256

def empty (timeToLive : τ) (maxSize : Int) : KeyCache α τ := ⟨timeToLive, maxSize, []⟩

def size (c : KeyCache α τ) : Nat := c.entries.length

def find? (c : KeyCache α τ) (key : String) : Option (CacheEntry α τ) :=
  c.entries.find? (·.key = key)

def erase (c : KeyCache α τ) (key : String) : KeyCache α τ :=
  { c with entries := c.entries.filter (·.key ≠ key) }

def clear (c : KeyCache α τ) : KeyCache α τ := { c with entries := [] }

def put (entry : CacheEntry α τ) : List (CacheEntry α τ) → List (CacheEntry α τ)
  | [] => [entry]
  | e :: rest => if e.key = entry.key then entry :: rest else e :: put entry rest

theorem find?_put (entry : CacheEntry α τ) (key : String) (entries : List (CacheEntry α τ)) :
    (put entry entries).find? (·.key = key) =
      if entry.key = key then some entry else entries.find? (·.key = key) := by
  induction entries with
  | nil => by_cases h : entry.key = key <;> simp [put, h]
  | cons e rest ih =>
    by_cases hk : e.key = entry.key <;> by_cases h : entry.key = key <;>
      simp_all [put, List.find?_cons]

section Clock

variable [LT τ] [DecidableLT τ]

/-- What a key reads as; a read drops an entry that has expired. -/
def get? (c : KeyCache α τ) (now : τ) (key : String) : Option α × KeyCache α τ :=
  match c.find? key with
  | none => (none, c)
  | some e => if e.expiresAt < now then (none, c.erase key) else (e.value, c)

def contains (c : KeyCache α τ) (now : τ) (key : String) : Bool × KeyCache α τ :=
  let (value, c) := c.get? now key
  (value.isSome, c)

def firstToExpire : List (CacheEntry α τ) → Option (CacheEntry α τ)
  | [] => none
  | e :: rest =>
    match firstToExpire rest with
    | some f => some (if f.expiresAt < e.expiresAt then f else e)
    | none => some e

/-- Sets a key after making room for it. A cache without any room has nothing to drop. -/
def set [Add τ] (c : KeyCache α τ) (now : τ) (key : String) (value : Option α) :
    Checked (KeyCache α τ) := do
  let roomy ←
    if (c.find? key).isNone ∧ c.maxSize ≤ c.size then
      match firstToExpire c.entries with
      | some e => pure (c.erase e.key)
      | none => .error (.breach .noValue)
    else pure c
  pure { roomy with entries := put ⟨key, now + c.timeToLive, value⟩ roomy.entries }

end Clock

end KeyCache
end PoolSwap
