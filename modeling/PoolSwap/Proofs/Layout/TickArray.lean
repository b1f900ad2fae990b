import PoolSwap.Proofs.Layout.Accounts
import PoolSwap.Proofs.Pool.Profile

/-! Accounts of tick arrays. Behind a mark, a pool and a start they hold sixty slots of one size, and
the decoder keeps the slots with liquidity, in the order of their ticks. -/
namespace PoolSwap

open Layout

namespace FieldReader

variable {field : FieldReader α} {n : Nat}

/-- Reading a field as often as one was written gives all that was written. -/
theorem run_times {encode : β → Bytes} {value : β → α}
    (h : ∀ x rest, field.run (encode x ++ rest) = some (value x, rest)) (xs : List β)
    (rest : Bytes) :
    (field.times xs.length).run (xs.flatMap encode ++ rest) = some (xs.map value, rest) := by
  induction xs with
  | nil => rfl
  | cons x xs ih =>
    rw [List.flatMap_cons, List.append_assoc, List.length_cons, times, run_bind_of_eq (h x _),
      run_bind_of_eq ih]
    rfl

theorem fixedSize_times [FixedSize field n] (count : Nat) :
    FixedSize (field.times count) (count * n) := by
  induction count with
  | zero =>
    rw [Nat.zero_mul]
    exact inferInstanceAs (FixedSize (pure [] : FieldReader (List α)) 0)
  | succ count ih =>
    have hsize : n + (count * n + 0) = (count + 1) * n := by ring
    rw [times]
    exact .of_eq hsize

instance [FixedSize field n] (count : Nat) : FixedSize (field.times count) (count * n) :=
  fixedSize_times count

theorem FixedSize.le_length [FixedSize field n] {s rest : Bytes} {a : α}
    (h : field.run s = some (a, rest)) : n ≤ s.length := by
  refine Nat.le_of_not_lt fun hshort => ?_
  have hnone : field.run s = none := run_of_lt s hshort
  cases hnone.symm.trans h

end FieldReader

namespace TickArray

/-- What a slot holds. After the tick and its liquidity come fees and rewards, which are not read. -/
structure Slot where
  tick : i32.Value
  liquidityNet : i128.Value
  liquidityGross : u128.Value
  unread : (Kind.raw 132).Value

def Slot.encode (x : Slot) : Bytes :=
  i32.encode x.tick ++ i128.encode x.liquidityNet ++ u128.encode x.liquidityGross ++
    (Kind.raw 132).encode x.unread

def Slot.value (x : Slot) : Tick := ⟨x.tick.1, x.liquidityNet.1, x.liquidityGross.1⟩

/-- What an account holds. Its last bytes count the slots in use and are not read. -/
structure Contents where
  poolId : Kind.address.Value
  start : i32.Value
  slots : Vector Slot 60
  unread : (Kind.raw 116).Value

namespace Contents

def encode (c : Contents) : Bytes :=
  discriminator ++ Kind.address.encode c.poolId ++ i32.encode c.start ++
    c.slots.toList.flatMap Slot.encode ++ (Kind.raw 116).encode c.unread

/-- The slots with liquidity, in the order of the slots. -/
def initialized (c : Contents) : List Tick :=
  (c.slots.toList.map Slot.value).filter (·.liquidityGross ≠ 0)

end Contents

theorem discriminator_eq : discriminator = [192, 155, 85, 205, 49, 249, 129, 42] := by
  decide +kernel

theorem run_slotLayout (x : Slot) (rest : Bytes) :
    slotLayout.run (x.encode ++ rest) = some (x.value, rest) := by
  simp (disch := decide) only [slotLayout, Slot.encode, List.append_assoc,
    FieldReader.run_signed_bind, FieldReader.run_unsigned_bind, FieldReader.run_skip_field_bind,
    Kind.size, Nat.reduceSub, FieldReader.run_skip_zero_bind]
  rfl

instance : FieldReader.FixedSize slotLayout 168 := by
  unfold slotLayout
  exact .of_eq rfl

instance : FieldReader.FixedSize layout 10240 := by
  unfold layout
  exact .of_eq rfl

theorem run_layout (c : Contents) (rest : Bytes) :
    layout.run (c.encode ++ rest) = some ((c.start.1, c.slots.toList.map Slot.value), rest) := by
  have hmark : discriminator.length = 8 := length_discriminator _
  have hslots := FieldReader.run_times run_slotLayout c.slots.toList
    ((Kind.raw 116).encode c.unread ++ rest)
  rw [Vector.length_toList] at hslots
  simp only [Contents.encode, List.append_assoc]
  rw [layout, FieldReader.run_skip_append_bind (by rw [hmark]; decide), hmark]
  simp (disch := decide) only [FieldReader.run_skip_field_bind, FieldReader.run_signed_bind,
    Kind.size, Nat.reduceSub, FieldReader.run_skip_zero_bind, FieldReader.run_bind_of_eq hslots]
  rfl

/-- The decoder undoes the writing of an account, save that it sorts the slots with liquidity. -/
theorem decode_encode (c : Contents) (rest : Bytes) (address : Option Address) :
    decode (c.encode ++ rest) address =
      .ok ⟨c.start.1, c.initialized.mergeSort Tick.le, address⟩ := by
  have hrun := run_layout c rest
  have hsize : size ≤ (c.encode ++ rest).length := FieldReader.FixedSize.le_length hrun
  have hmark : requireDiscriminator discriminator (c.encode ++ rest) "CLMM tick array"
      (address.map (·.text)) = .ok () := by
    simp only [Contents.encode, List.append_assoc]
    exact if_pos (List.take_left' (length_discriminator _))
  refine Checked.bind_eq_ok.2 ⟨(), hmark, ?_⟩
  rw [if_neg (Nat.not_lt.2 hsize)]
  exact Checked.bind_eq_ok.2 ⟨_, read_eq_ok_of_run hrun _ _, rfl⟩

variable {raw : Bytes} {address : Option Address} {a : TickArray}

theorem decode_eq_error (h : raw.take 8 ≠ discriminator ∨ raw.length < 10240)
    (address : Option Address) :
    ∃ cause, decode raw address = .error (.stateRead (address.map (·.text)) cause) := by
  by_cases hmark : raw.take 8 = discriminator
  · have hshort : raw.length < size := h.resolve_left (not_not.2 hmark)
    exact ⟨_, Checked.bind_eq_error.2 (.inr ⟨(), if_pos hmark, if_pos hshort⟩)⟩
  · exact ⟨_, Checked.bind_eq_error.2 (.inl (if_neg hmark))⟩

/-- An account is accepted by its mark and its size alone. -/
theorem exists_decode_iff : (∃ a, decode raw address = .ok a) ↔
    raw.take 8 = discriminator ∧ 10240 ≤ raw.length := by
  constructor
  · rintro ⟨a, h⟩
    by_contra hnot
    rw [not_and_or, Nat.not_le] at hnot
    obtain ⟨cause, herror⟩ := decode_eq_error hnot address
    cases herror.symm.trans h
  · rintro ⟨hmark, hsize⟩
    obtain ⟨⟨start, slots⟩, hread⟩ : ∃ read, Layout.read layout raw "CLMM tick array"
        (address.map (·.text)) = .ok read := exists_read hsize _ _
    have hlong : ¬raw.length < size := Nat.not_lt.2 hsize
    refine ⟨⟨start, (slots.filter (·.liquidityGross ≠ 0)).mergeSort Tick.le, address⟩,
      Checked.bind_eq_ok.2 ⟨(), if_pos hmark, ?_⟩⟩
    rw [if_neg hlong]
    exact Checked.bind_eq_ok.2 ⟨_, hread, rfl⟩

theorem liquidityGross_ne_zero_of_decode (h : decode raw address = .ok a) {t : Tick}
    (ht : t ∈ a.ticks) : t.liquidityGross ≠ 0 := by
  obtain ⟨_, -, h⟩ := Checked.bind_eq_ok.1 h
  split at h
  case isTrue => cases h
  case isFalse =>
    obtain ⟨⟨start, slots⟩, -, h⟩ := Checked.bind_eq_ok.1 h
    cases h
    simpa using (List.mem_filter.1 (List.mem_mergeSort.1 ht)).2

end TickArray

/-- No account is taken for two kinds of account, as each of them has a mark of its own. -/
theorem accepted_as_one_kind (raw : Bytes) : [
    ∃ address a, ConcentratedPoolAccount.decode raw address = .ok a,
    ∃ address a, FeeConfigAccount.decodeFeeRate raw address = .ok a,
    ∃ address a, TickArray.decode raw address = .ok a].Pairwise fun p q => ¬(p ∧ q) := by
  have hpool : (∃ address a, ConcentratedPoolAccount.decode raw address = .ok a) →
      raw.take 8 = [247, 237, 227, 245, 215, 195, 222, 70] := fun ⟨address, h⟩ =>
    ((ConcentratedPoolAccount.decodes.decode_eq_ok_iff raw address).1 h).2.trans
      ConcentratedPoolAccount.discriminator_eq
  have hfee : (∃ address a, FeeConfigAccount.decodeFeeRate raw address = .ok a) →
      raw.take 8 = [218, 244, 33, 104, 203, 203, 43, 111] := fun ⟨address, h⟩ =>
    ((FeeConfigAccount.decodes.decode_eq_ok_iff raw address).1 h).2.trans
      FeeConfigAccount.discriminator_eq
  have harray : (∃ address a, TickArray.decode raw address = .ok a) →
      raw.take 8 = [192, 155, 85, 205, 49, 249, 129, 42] := fun ⟨_, h⟩ =>
    (TickArray.exists_decode_iff.1 h).1.trans TickArray.discriminator_eq
  have hdistinct {p q : Prop} {mark mark' : Bytes} (hne : mark ≠ mark')
      (hp : p → raw.take 8 = mark) (hq : q → raw.take 8 = mark') : ¬(p ∧ q) :=
    fun h => hne ((hp h.1).symm.trans (hq h.2))
  simp only [List.pairwise_cons, List.mem_cons, List.not_mem_nil, or_false, forall_eq_or_imp,
    forall_eq]
  exact ⟨⟨hdistinct (by decide) hpool hfee, hdistinct (by decide) hpool harray⟩,
    hdistinct (by decide) hfee harray, nofun, .nil⟩

/-- The arrays that were decoded have no tick that a pool leaves out. -/
theorem ConcentratedPool.activeTicks_orders_of_decode {s : ConcentratedPool}
    (h : ∀ a ∈ s.arrays, ∃ raw address, TickArray.decode raw address = .ok a) :
    Tick.Orders s.activeTicks (s.arrays.flatMap (·.ticks)) := by
  have hactive : (s.arrays.flatMap (·.ticks)).filter Tick.isActive =
      s.arrays.flatMap (·.ticks) := by
    refine List.filter_eq_self.2 fun t ht => ?_
    obtain ⟨a, ha, hta⟩ := List.mem_flatMap.1 ht
    obtain ⟨raw, address, hdecode⟩ := h a ha
    simp [Tick.isActive, TickArray.liquidityGross_ne_zero_of_decode hdecode hta]
  exact hactive ▸ s.activeTicks_orders

/-- The decoder of tick arrays keeps the slots with liquidity, sorted by their ticks, and refuses the
accounts that have another mark than tick arrays or are too short. A pool of decoded arrays has all
their ticks, in strictly ascending order if they are distinct. -/
theorem tickArrays_keep_initialized :
    (∀ (c : TickArray.Contents) (rest : Bytes) (address : Option Address), ∃ ticks,
      TickArray.decode (c.encode ++ rest) address = .ok ⟨c.start.1, ticks, address⟩ ∧
      Tick.Orders ticks c.initialized) ∧
    (∀ (raw : Bytes) (address : Option Address),
      ((∃ a, TickArray.decode raw address = .ok a) ↔
        raw.take 8 = TickArray.discriminator ∧ 10240 ≤ raw.length) ∧
      (raw.take 8 ≠ TickArray.discriminator ∨ raw.length < 10240 → ∃ cause,
        TickArray.decode raw address = .error (.stateRead (address.map (·.text)) cause))) ∧
    TickArray.discriminator = [192, 155, 85, 205, 49, 249, 129, 42] ∧
    ∀ s : ConcentratedPool, (∀ a ∈ s.arrays, ∃ raw address, TickArray.decode raw address = .ok a) →
      ((s.arrays.flatMap (·.ticks)).map (·.index)).Nodup →
      s.activeTicks.Pairwise (fun a b => a.index < b.index) ∧
        s.activeTicks.Perm (s.arrays.flatMap (·.ticks)) := by
  refine ⟨fun c rest address => ?_, fun raw address => ?_, TickArray.discriminator_eq,
    fun s hdecoded hdistinct => ?_⟩
  · exact ⟨_, TickArray.decode_encode c rest address, Tick.orders_mergeSort _⟩
  · exact ⟨TickArray.exists_decode_iff, fun h => TickArray.decode_eq_error h address⟩
  · have horders := ConcentratedPool.activeTicks_orders_of_decode hdecoded
    exact ⟨horders.strict hdistinct, horders.perm⟩

namespace TickArray

def Slot.empty : Slot := ⟨Kind.zero _, Kind.zero _, Kind.zero _, Kind.zero _⟩

/-- The lower array of the pool `nested`, with its slots in another order than their ticks. -/
def nestedLower : Contents where
  poolId := .ofNat 1
  start := ⟨-60, by decide +kernel⟩
  slots := ((Vector.replicate 60 Slot.empty).set 3
      ⟨⟨-10, by decide +kernel⟩, ⟨2000000, by decide +kernel⟩, ⟨2000000, by decide +kernel⟩,
        Kind.zero _⟩).set 50
      ⟨⟨-40, by decide +kernel⟩, ⟨1000000, by decide +kernel⟩, ⟨1000000, by decide +kernel⟩,
        Kind.zero _⟩
  unread := Kind.zero _

/-- The upper array of the pool `nested`. -/
def nestedUpper : Contents where
  poolId := .ofNat 1
  start := ⟨0, by decide +kernel⟩
  slots := (Vector.replicate 60 Slot.empty).set 30
    ⟨⟨30, by decide +kernel⟩, ⟨-3000000, by decide +kernel⟩, ⟨3000000, by decide +kernel⟩,
      Kind.zero _⟩
  unread := Kind.zero _

theorem nestedLower_decode : decode (nestedLower.encode ++ []) none =
    .ok ⟨-60, [⟨-40, 1000000, 1000000⟩, ⟨-10, 2000000, 2000000⟩], none⟩ := by
  have hinitialized : nestedLower.initialized =
      [⟨-10, 2000000, 2000000⟩, ⟨-40, 1000000, 1000000⟩] := by decide +kernel
  have hsorted : nestedLower.initialized.mergeSort Tick.le =
      [⟨-40, 1000000, 1000000⟩, ⟨-10, 2000000, 2000000⟩] := by
    refine (Tick.orders_mergeSort _).eq_of_strict (by decide) ?_
    rw [hinitialized]
    exact List.Perm.swap _ _ _
  rw [decode_encode, hsorted]
  rfl

theorem nestedUpper_decode : decode (nestedUpper.encode ++ []) none =
    .ok ⟨0, [⟨30, -3000000, 3000000⟩], none⟩ := by
  have hinitialized : nestedUpper.initialized = [⟨30, -3000000, 3000000⟩] := by decide +kernel
  rw [decode_encode, hinitialized, List.mergeSort_singleton]
  rfl

end TickArray

/-- The pool `nested` has the ticks of two accounts that were decoded. -/
theorem tickArrays_keep_initialized_nested :
    (∀ a ∈ ConcentratedPool.nested.arrays, ∃ raw address,
      TickArray.decode raw address = .ok a) ∧
    ((ConcentratedPool.nested.arrays.flatMap (·.ticks)).map (·.index)).Nodup ∧
    ConcentratedPool.nested.activeTicks.Pairwise (fun a b => a.index < b.index) ∧
    ConcentratedPool.nested.activeTicks.Perm
      [⟨-40, 1000000, 1000000⟩, ⟨-10, 2000000, 2000000⟩, ⟨30, -3000000, 3000000⟩] ∧
    ([] : Bytes).length < 10240 ∧
    ∃ cause, TickArray.decode [] none = .error (.stateRead none cause) := by
  have hdecoded : ∀ a ∈ ConcentratedPool.nested.arrays, ∃ raw address,
      TickArray.decode raw address = .ok a := by
    intro a ha
    rcases List.mem_pair.1 ha with rfl | rfl
    · exact ⟨_, _, TickArray.nestedLower_decode⟩
    · exact ⟨_, _, TickArray.nestedUpper_decode⟩
  have hdistinct : ((ConcentratedPool.nested.arrays.flatMap (·.ticks)).map (·.index)).Nodup := by
    decide
  have hshort : ([] : Bytes).length < 10240 := by decide
  obtain ⟨-, hrefused, -, hpool⟩ := tickArrays_keep_initialized
  obtain ⟨hstrict, hperm⟩ := hpool _ hdecoded hdistinct
  exact ⟨hdecoded, hdistinct, hstrict, hperm, hshort, (hrefused [] none).2 (.inr hshort)⟩

end PoolSwap
