import PoolSwap.Proofs.Hash.Sha2
import PoolSwap.Proofs.Layout.Reader

/-! Formats of accounts: named fields one after another, each of a fixed size. A reader that takes
such fields off the front of some bytes undoes their writing, and needs no more than their size. -/
namespace PoolSwap

namespace LittleEndian

/-- The numbers that fit in the two's complement of some bytes. -/
def FitsSigned (width : Nat) (n : Int) : Prop :=
  -(capacity width : Int) ≤ 2 * n ∧ 2 * n < capacity width

instance (width : Nat) (n : Int) : Decidable (FitsSigned width n) :=
  inferInstanceAs (Decidable (_ ∧ _))

theorem capacity_pos (width : Nat) : 0 < capacity width := Nat.pow_pos (by decide)

theorem fitsSigned_zero (width : Nat) : FitsSigned width 0 := by
  have hpos : (0 : Int) < capacity width := Int.ofNat_lt.2 (capacity_pos width)
  exact ⟨by omega, by omega⟩

theorem fitsSigned_four_iff {n : Int} : FitsSigned 4 n ↔ -0x80000000 ≤ n ∧ n < 0x80000000 := by
  have hcapacity : (capacity 4 : Int) = 0x100000000 := rfl
  rw [FitsSigned, hcapacity]
  omega

theorem decodeSigned_encodeSigned {width : Nat} {n : Int} (h : FitsSigned width n) :
    decodeSigned (encodeSigned width n) = n := by
  obtain ⟨hlow, hhigh⟩ := h
  have hpos : (0 : Int) < capacity width := Int.ofNat_lt.2 (capacity_pos width)
  have hnonneg := Int.emod_nonneg n (Int.ne_of_gt hpos)
  have hlt := Int.emod_lt_of_pos n hpos
  have hdecode : (decode (encodeSigned width n) : Int) = n % capacity width := by
    rw [encodeSigned, decode_encode, Nat.mod_eq_of_lt (by omega), Int.toNat_of_nonneg hnonneg]
  have hlength : (encodeSigned width n).length = width := length_encode _ _
  unfold decodeSigned
  simp only [hdecode, hlength]
  -- A negative number is written as itself plus the capacity.
  rcases Int.lt_or_le n 0 with hneg | hpos
  · have hmod : n % capacity width = n + capacity width := by
      rw [← Int.add_emod_right, Int.emod_eq_of_lt (by omega) (by omega)]
    rw [hmod, if_neg (by omega)]
    omega
  · rw [Int.emod_eq_of_lt hpos (by omega), if_pos hhigh]

end LittleEndian

theorem Address.ofBytes?_bytes (a : Address) : ofBytes? a.bytes = some a :=
  dif_pos a.length_bytes

namespace Layout

/-- What a field of an account holds. -/
inductive Kind where
  | unsigned (width : Nat)
  | signed (width : Nat)
  | address
  | raw (size : Nat)

namespace Kind

def size : Kind → Nat
  | unsigned width => width
  | signed width => width
  | address => 32
  | raw size => size

/-- The values of a field that fit in it. -/
def Value : Kind → Type
  | unsigned width => { n : Nat // n < LittleEndian.capacity width }
  | signed width => { n : Int // LittleEndian.FitsSigned width n }
  | address => Address
  | raw size => { bs : Bytes // bs.length = size }

def zero : (k : Kind) → k.Value
  | unsigned width => ⟨0, LittleEndian.capacity_pos width⟩
  | signed width => ⟨0, LittleEndian.fitsSigned_zero width⟩
  | address => Address.ofNat 0
  | raw size => ⟨List.replicate size 0, List.length_replicate⟩

def encode : (k : Kind) → k.Value → Bytes
  | unsigned width, n => LittleEndian.encode width n.1
  | signed width, n => LittleEndian.encodeSigned width n.1
  | address, a => a.bytes
  | raw _, bs => bs.1

@[simp] theorem length_encode : (k : Kind) → (x : k.Value) → (k.encode x).length = k.size
  | unsigned _, _ => LittleEndian.length_encode _ _
  | signed _, _ => LittleEndian.length_encode _ _
  | address, a => a.length_bytes
  | raw _, bs => bs.2

end Kind

/-- The fields of an account in their order. -/
abbrev Format := List (String × Kind)

/-- A fitting value for every field. -/
abbrev Values := String → (k : Kind) → k.Value

namespace Values

def unsigned (v : Values) (name : String) (width : Nat) : Nat := (v name (.unsigned width)).1

def signed (v : Values) (name : String) (width : Nat) : Int := (v name (.signed width)).1

def address (v : Values) (name : String) : Address := v name .address

end Values

namespace Format

def encode (f : Format) (v : Values) : Bytes :=
  f.flatMap fun (name, kind) => kind.encode (v name kind)

@[simp] theorem encode_nil (v : Values) : encode [] v = [] := rfl

@[simp] theorem encode_cons (name : String) (kind : Kind) (f : Format) (v : Values) :
    encode ((name, kind) :: f) v = kind.encode (v name kind) ++ encode f v := rfl

def size (f : Format) : Nat := f.foldr (fun field n => field.2.size + n) 0

@[simp] theorem length_encode (f : Format) (v : Values) : (f.encode v).length = f.size := by
  induction f with
  | nil => rfl
  | cons field f ih =>
    obtain ⟨name, kind⟩ := field
    rw [encode_cons, List.length_append, Kind.length_encode, ih]
    rfl

end Format
end Layout

namespace FieldReader

open Layout

section Written

variable {n : Nat} {s rest : Bytes}

theorem run_unsigned (x : (Kind.unsigned n).Value) (rest : Bytes) :
    (unsigned n).run (Kind.encode _ x ++ rest) = some (x.1, rest) :=
  unsigned_append x.2 rest

theorem run_signed (x : (Kind.signed n).Value) (rest : Bytes) :
    (signed n).run (Kind.encode _ x ++ rest) = some (x.1, rest) := by
  have hbytes : (bytes n).run (Kind.encode (.signed n) x ++ rest) =
      some (Kind.encode (.signed n) x, rest) := bytes_append (Kind.length_encode _ x) rest
  have hvalue : LittleEndian.decodeSigned (Kind.encode (.signed n) x) = x.1 :=
    LittleEndian.decodeSigned_encodeSigned x.2
  unfold signed
  rw [StateT.run_map, hbytes, Option.map_eq_map, Option.map_some, hvalue]

theorem run_address (a : Kind.address.Value) (rest : Bytes) :
    address.run (Kind.encode _ a ++ rest) = some (a, rest) := by
  have hbytes : (bytes 32).run (Kind.encode _ a ++ rest) = some (Kind.encode _ a, rest) :=
    bytes_append (Kind.length_encode _ a) rest
  have haddress : Address.ofBytes? (Kind.encode _ a) = some a := Address.ofBytes?_bytes a
  refine run_bind_eq_some.2 ⟨_, rest, hbytes, ?_⟩
  rw [haddress]
  rfl

theorem run_bytes (n : Nat) (s : Bytes) :
    (bytes n).run s = if n ≤ s.length then some (s.take n, s.drop n) else none := by
  change (if (s.take n).length = n then some (s.take n, s.drop n) else none) = _
  have hlength : (s.take n).length = n ↔ n ≤ s.length := by
    rw [List.length_take]
    omega
  simp only [hlength]

theorem run_skip (n : Nat) (s : Bytes) :
    (skip n).run s = if n ≤ s.length then some ((), s.drop n) else none := by
  unfold skip
  rw [StateT.run_bind, run_bytes]
  split <;> rfl

/-- Bytes can be skipped a part at a time. -/
theorem run_skip_append {skipped : Bytes} (h : skipped.length ≤ n) :
    (skip n).run (skipped ++ rest) = (skip (n - skipped.length)).run rest := by
  simp only [run_skip, List.length_append, List.drop_append, List.drop_eq_nil_of_le h,
    List.nil_append, Nat.sub_le_iff_le_add']

end Written

section Sequence

variable {n : Nat} {s rest : Bytes} {next : α → FieldReader β}

theorem run_bind_of_eq {field : FieldReader α} {a : α} (h : field.run s = some (a, rest)) :
    (field >>= next).run s = (next a).run rest := by
  rw [StateT.run_bind, h]
  rfl

theorem run_unsigned_bind {next : Nat → FieldReader β} (x : (Kind.unsigned n).Value) :
    (unsigned n >>= next).run (Kind.encode _ x ++ rest) = (next x.1).run rest :=
  run_bind_of_eq (run_unsigned x rest)

theorem run_signed_bind {next : Int → FieldReader β} (x : (Kind.signed n).Value) :
    (signed n >>= next).run (Kind.encode _ x ++ rest) = (next x.1).run rest :=
  run_bind_of_eq (run_signed x rest)

theorem run_address_bind {next : Address → FieldReader β} (a : Kind.address.Value) :
    (address >>= next).run (Kind.encode _ a ++ rest) = (next a).run rest :=
  run_bind_of_eq (run_address a rest)

variable {next : Unit → FieldReader β}

theorem run_skip_append_bind {skipped : Bytes} (h : skipped.length ≤ n) :
    (skip n >>= next).run (skipped ++ rest) = (skip (n - skipped.length) >>= next).run rest := by
  rw [StateT.run_bind, run_skip_append h, StateT.run_bind]

theorem run_skip_field_bind {k : Kind} (h : k.size ≤ n) (x : k.Value) :
    (skip n >>= next).run (k.encode x ++ rest) = (skip (n - k.size) >>= next).run rest := by
  rw [run_skip_append_bind (by rwa [Kind.length_encode]), Kind.length_encode]

theorem run_skip_zero_bind : (skip 0 >>= next).run s = (next ()).run s :=
  run_bind_of_eq (run_skip 0 s)

end Sequence

/-- A reader of fields that take some number of bytes in all, whatever they hold. -/
class FixedSize (field : FieldReader α) (size : outParam Nat) : Prop where
  run_of_le : ∀ s : Bytes, size ≤ s.length → ∃ a, field.run s = some (a, s.drop size)
  run_of_lt : ∀ s : Bytes, s.length < size → field.run s = none

section FixedSize

variable {n m : Nat} {field : FieldReader α} {next : α → FieldReader β}

instance : FixedSize (bytes n) n where
  run_of_le s h := ⟨s.take n, by rw [run_bytes, if_pos h]⟩
  run_of_lt s h := by rw [run_bytes, if_neg (Nat.not_le.2 h)]

instance (a : α) : FixedSize (pure a : FieldReader α) 0 where
  run_of_le _ _ := ⟨a, rfl⟩
  run_of_lt _ h := absurd h (Nat.not_lt_zero _)

instance [FixedSize field n] (f : α → β) : FixedSize (f <$> field) n where
  run_of_le s h := by
    obtain ⟨a, hrun⟩ : ∃ a, field.run s = some (a, s.drop n) := FixedSize.run_of_le s h
    exact ⟨f a, by rw [StateT.run_map, hrun]; rfl⟩
  run_of_lt s h := by
    have hnone : field.run s = none := FixedSize.run_of_lt s h
    rw [StateT.run_map, hnone]
    rfl

instance [FixedSize field n] [∀ a, FixedSize (next a) m] : FixedSize (field >>= next) (n + m) where
  run_of_le s h := by
    obtain ⟨a, hrun⟩ : ∃ a, field.run s = some (a, s.drop n) := FixedSize.run_of_le s (by omega)
    obtain ⟨b, hrest⟩ : ∃ b, (next a).run (s.drop n) = some (b, (s.drop n).drop m) :=
      FixedSize.run_of_le (s.drop n) (by rw [List.length_drop]; omega)
    exact ⟨b, by rw [run_bind_of_eq hrun, hrest, List.drop_drop]⟩
  run_of_lt s h := by
    rw [StateT.run_bind]
    rcases Nat.lt_or_ge s.length n with hshort | hlong
    · have hnone : field.run s = none := FixedSize.run_of_lt s hshort
      rw [hnone]
      rfl
    · obtain ⟨a, hrun⟩ : ∃ a, field.run s = some (a, s.drop n) := FixedSize.run_of_le s hlong
      rw [hrun]
      exact FixedSize.run_of_lt (s.drop n) (by rw [List.length_drop]; omega)

instance : FixedSize (skip n) (n + 0) := inferInstanceAs (FixedSize (bytes n >>= fun _ => pure ()) _)

instance : FixedSize (unsigned n) n := inferInstanceAs (FixedSize (LittleEndian.decode <$> bytes n) _)

instance : FixedSize (signed n) n :=
  inferInstanceAs (FixedSize (LittleEndian.decodeSigned <$> bytes n) _)

theorem FixedSize.of_eq [FixedSize field n] (h : n = m) : FixedSize field m := h ▸ ‹_›

instance : FixedSize address 32 where
  run_of_le s h := by
    have hlength : (s.take 32).length = 32 := List.length_take_of_le h
    have hrun := run_address ⟨s.take 32, hlength⟩ (s.drop 32)
    change address.run (s.take 32 ++ s.drop 32) = _ at hrun
    rw [List.take_append_drop] at hrun
    exact ⟨_, hrun⟩
  run_of_lt s h := by
    unfold address
    rw [StateT.run_bind, run_bytes, if_neg (Nat.not_le.2 h)]
    rfl

end FixedSize
end FieldReader

namespace Layout

variable {layout : FieldReader α} {size : Nat} {raw : Bytes}

theorem exists_read [FieldReader.FixedSize layout size] (h : size ≤ raw.length) (what : String)
    (address : Option String) : ∃ a, read layout raw what address = .ok a := by
  obtain ⟨a, hrun⟩ : ∃ a, layout.run raw = some (a, raw.drop size) :=
    FieldReader.FixedSize.run_of_le raw h
  exact ⟨a, by rw [read, FieldReader.front?_eq_some.2 ⟨_, hrun⟩]⟩

theorem read_of_lt [FieldReader.FixedSize layout size] (h : raw.length < size) (what : String)
    (address : Option String) :
    read layout raw what address = .error (.stateRead address (.layout what)) := by
  have hnone : layout.run raw = none := FieldReader.FixedSize.run_of_lt raw h
  rw [read, FieldReader.front?, hnone]
  rfl

theorem read_eq_ok_of_run {a : α} {rest : Bytes} (h : layout.run raw = some (a, rest))
    (what : String) (address : Option String) : read layout raw what address = .ok a := by
  rw [read, FieldReader.front?_eq_some.2 ⟨rest, h⟩]

theorem length_discriminator (name : String) : (discriminator name).length = 8 :=
  sha256.length_take _

theorem requireDiscriminator_append (name : String) (skipped rest : Bytes) (what : String)
    (address : Option String) : requireDiscriminator (discriminator name)
      (discriminator name ++ skipped ++ rest) what address = .ok () := by
  rw [List.append_assoc]
  exact if_pos (List.take_left' (length_discriminator name))

end Layout
end PoolSwap
