import PoolSwap.Proofs.Layout.Accounts
import PoolSwap.Proofs.Node.StandardPool
import PoolSwap.Proofs.Number.Binary64
import PoolSwap.Proofs.Pool.Window
import PoolSwap.Proofs.Quote.Faults

/-! Concentrated pools as a node holds them. Reading one loads consecutive tick arrays around its
current tick, an empty one in place of each that does not exist, so its window has no gaps. -/
namespace PoolSwap

/-- A number of starts, each a span after the one before. -/
def consecutive (base span : Int) (count : Nat) : List Int :=
  (List.range count).map fun (i : Nat) => base + i * span

/-- The lowest start of a window that extends over some spans in a direction. -/
def Direction.lowest (d : Direction) (first span : Int) (window : Nat) : Int :=
  match d with
  | .zeroForOne => first - window * span
  | .oneForZero => first

theorem Direction.lowest_around {first span tick : Int} (d : Direction) (window : Nat)
    (hspan : 0 < span) (hlow : first ≤ tick) (hhigh : tick < first + span) :
    d.lowest first span window ≤ tick ∧ tick < d.lowest first span window + (window + 1) * span := by
  have hspans : 0 ≤ (window : Int) * span := mul_nonneg (Int.natCast_nonneg _) hspan.le
  cases d <;> simp only [lowest, add_mul, one_mul] <;> omega

namespace ConcentratedPool

variable {s : ConcentratedPool} {base : Int} {count : Nat}

theorem make?_eq_ok {poolId mintA mintB : Address}
    {sqrtPrice tickCurrent liquidity tickSpacing feeRate : Int} {arrays : List TickArray}
    {decimalsA decimalsB : Int} {transferFeeA transferFeeB : Option TransferFee}
    (h : make? poolId mintA mintB sqrtPrice tickCurrent liquidity tickSpacing feeRate arrays
      decimalsA decimalsB transferFeeA transferFeeB = .ok s) :
    s.poolId = poolId ∧ s.tickCurrent = tickCurrent ∧ s.tickSpacing = tickSpacing ∧
      s.arrays = arrays := by
  unfold make? at h
  split at h
  case isFalse => cases h
  case isTrue =>
    split at h
    case isFalse => cases h
    case isTrue =>
      cases h
      exact ⟨rfl, rfl, rfl, rfl⟩

theorem covered_of_consecutive (hstarts : s.arrays.map (·.start) = consecutive base s.span count)
    (tick : Int) : s.Covered tick ↔ base ≤ tick ∧ tick < base + count * s.span := by
  have hspan := s.span_pos
  constructor
  · rintro ⟨a, ha, hcovers⟩
    rw [covers_iff] at hcovers
    obtain ⟨i, hi, hstart⟩ := List.mem_map.1 (hstarts ▸ List.mem_map_of_mem ha)
    have hi : ((i : Int) + 1) * s.span ≤ count * s.span :=
      mul_le_mul_of_nonneg_right (by exact_mod_cast List.mem_range.1 hi) hspan.le
    have hnonneg : 0 ≤ (i : Int) * s.span := mul_nonneg (Int.natCast_nonneg i) hspan.le
    rw [add_mul, one_mul] at hi
    omega
  · rintro ⟨hlow, hhigh⟩
    -- The array of the tick is told by the whole spans below it.
    have hfloor := Int.ediv_mul_le (tick - base) hspan.ne'
    have hceil := Int.lt_ediv_add_one_mul_self (tick - base) hspan
    have hnonneg : 0 ≤ (tick - base) / s.span := Int.ediv_nonneg (by omega) hspan.le
    obtain ⟨i, hi⟩ := Int.eq_ofNat_of_zero_le hnonneg
    rw [hi, add_mul, one_mul] at hceil
    rw [hi] at hfloor
    have hcount : i < count := by
      have hlt : (i : Int) * s.span < count * s.span := by omega
      exact_mod_cast lt_of_mul_lt_mul_right hlt hspan.le
    have hmem : base + i * s.span ∈ s.arrays.map (·.start) :=
      hstarts ▸ List.mem_map.2 ⟨i, List.mem_range.2 hcount, rfl⟩
    obtain ⟨a, ha, hstart⟩ := List.mem_map.1 hmem
    exact ⟨a, ha, covers_iff.2 (by omega)⟩

/-- Consecutive arrays around the current tick are the window as a whole. -/
theorem coveredRange_of_consecutive
    (hstarts : s.arrays.map (·.start) = consecutive base s.span count) (hbase : s.span ∣ base)
    (hlow : base ≤ s.tickCurrent) (hhigh : s.tickCurrent < base + count * s.span) :
    s.coveredRange = some (base, base + count * s.span) := by
  have hcovered := covered_of_consecutive hstarts
  have haligned : ∀ a ∈ s.arrays, s.span ∣ a.start := by
    intro a ha
    obtain ⟨i, -, hi⟩ := List.mem_map.1 (hstarts ▸ List.mem_map_of_mem ha)
    exact hi ▸ Int.dvd_add hbase (Int.dvd_mul_left _ _)
  cases hwindow : s.coveredRange with
  | none => exact absurd ((hcovered _).2 ⟨hlow, hhigh⟩) (coveredRange_eq_none_iff.1 hwindow)
  | some window =>
    obtain ⟨lower, upper⟩ := window
    have his := coveredRange_isWindow haligned hwindow
    have hlower := his.lower_le
    have hupper := his.lt_upper
    have hbottom := (hcovered _).1 (his.covered lower le_rfl (by omega))
    have htop := (hcovered _).1 (his.covered (upper - 1) (by omega) (by omega))
    have hbelow := mt (hcovered _).2 his.gap_below
    have habove := mt (hcovered _).2 his.gap_above
    dsimp only at *
    have hlowerEq : lower = base := by omega
    have hupperEq : upper = base + count * s.span := by omega
    rw [hlowerEq, hupperEq]

end ConcentratedPool

theorem TickArray.address_of_decode {raw : Bytes} {address : Option Address} {a : TickArray}
    (h : decode raw address = .ok a) : a.address = address := by
  obtain ⟨_, -, h⟩ := Checked.bind_eq_ok.1 h
  split at h
  case isTrue => cases h
  case isFalse =>
    obtain ⟨_, -, h⟩ := Checked.bind_eq_ok.1 h
    cases h
    rfl

namespace Node

variable {n : Node} {poolId program : Address} {d : Direction} {window : Nat}
  {S : ConcentratedPool}

theorem windowStarts_eq (tickCurrent spacing : Int) (d : Direction) (window : Nat) :
    windowStarts tickCurrent spacing d window =
      consecutive (d.lowest (Tick.arrayStart tickCurrent spacing) (Tick.arraySize * spacing) window)
        (Tick.arraySize * spacing) (window + 1) := by
  cases d
  case zeroForOne =>
    refine List.ext_getElem (by simp [windowStarts, consecutive]) fun i hi hi' => ?_
    simp only [windowStarts, consecutive, Direction.lowest, List.getElem_map, List.getElem_reverse,
      List.getElem_range, List.length_map, List.length_range, List.length_reverse] at hi hi' ⊢
    have hcast : ((window + 1 - 1 - i : Nat) : Int) = window - i := by omega
    rw [hcast, sub_mul]
    omega
  case oneForZero => rfl

/-- Whether a tick array is what the account at an address holds, or stands empty for none there. -/
def ArrayFrom (program address : Address) (a : TickArray) : Option Account → Prop
  | none => a = ⟨a.start, [], none⟩
  | some account => account.owner = program ∧ a.address = some address ∧
    TickArray.decode account.data (some address) = .ok a

/-- Whether an address is the one derived for the tick array of a pool at a start, which must be a
signed 32-bit number. Its seeds are a word, the pool and the start, most significant byte first. -/
def ArrayAddress (poolId program : Address) (start : Int) (address : Address) : Prop :=
  (-0x80000000 ≤ start ∧ start < 0x80000000) ∧
    address = .derive ["tick_array".toUTF8.toList, poolId.bytes,
      (LittleEndian.encodeSigned 4 start).reverse] program

theorem ofTickArray_eq_ok {start : Int} {address : Address} :
    Address.ofTickArray poolId start program = .ok address ↔
      ArrayAddress poolId program start address := by
  unfold Address.ofTickArray Address.tickSeed ArrayAddress
  split
  case isTrue hfits => exact ⟨fun h => ⟨hfits, by cases h; rfl⟩, fun h => h.2 ▸ rfl⟩
  case isFalse hunfit => exact ⟨nofun, fun h => absurd h.1 hunfit⟩

/-- Whether a node holds a tick array at the address derived for its start. -/
def HoldsArray (n : Node) (poolId program : Address) (a : TickArray) : Prop :=
  ∃ address, ArrayAddress poolId program a.start address ∧
    ArrayFrom program address a (n.accounts address)

theorem tickArrayAt_eq_ok {start : Int} {address : Address} {account : Option Account}
    {a : TickArray} (h : tickArrayAt program start address account = .ok a) :
    a.start = start ∧ ArrayFrom program address a account := by
  cases account with
  | none =>
    cases h
    exact ⟨rfl, rfl⟩
  | some account =>
    obtain ⟨_, howner, h⟩ := Checked.bind_eq_ok.1 h
    obtain ⟨array, harray, h⟩ := Checked.bind_eq_ok.1 h
    split at h
    case isFalse => cases h
    case isTrue hstart =>
      cases h
      exact ⟨hstart, requireOwner_eq_ok.1 howner, TickArray.address_of_decode harray, harray⟩

/-- Each array that is loaded stands for the start it was asked for. -/
theorem holds_of_mapM {starts : List Int} {addresses : List Address} {arrays : List TickArray}
    (haddresses : starts.mapM (fun start => Address.ofTickArray poolId start program) =
      .ok addresses)
    (harrays : ((starts.zip addresses).zip (addresses.map n.accounts)).mapM
      (fun ((start, address), account) => tickArrayAt program start address account) = .ok arrays) :
    arrays.map (·.start) = starts ∧ ∀ a ∈ arrays, n.HoldsArray poolId program a := by
  replace haddresses := Checked.forall₂_of_mapM haddresses
  replace harrays := Checked.forall₂_of_mapM harrays
  induction haddresses generalizing arrays with
  | nil =>
    cases harrays
    exact ⟨rfl, nofun⟩
  | cons haddress _ ih =>
    cases harrays with
    | cons harray hrest =>
      obtain ⟨hstart, hfrom⟩ := tickArrayAt_eq_ok harray
      obtain ⟨hstarts, hholds⟩ := ih hrest
      exact ⟨congrArg₂ List.cons hstart hstarts,
        List.forall_mem_cons.2 ⟨⟨_, ofTickArray_eq_ok.1 (hstart ▸ haddress), hfrom⟩, hholds⟩⟩

theorem exists_of_ite_bind {c : Prop} [Decidable c] {x y : Query α} {f : α → Query β} {b : β}
    (h : (n.ask (if c then x >>= f else y >>= f)).1 = .ok b) :
    ∃ a n', (ask n' (f a)).1 = .ok b := by
  split at h
  all_goals
    obtain ⟨a, -, h⟩ := ask_bind_eq_ok.1 h
    exact ⟨a, _, h⟩

/-- A pool that was read has the arrays of its window, each as the node holds it. -/
theorem readConcentratedPool_eq_ok
    (h : (n.ask (readConcentratedPool poolId d window program)).1 = .ok S) : S.poolId = poolId ∧
      S.arrays.map (·.start) = windowStarts S.tickCurrent S.tickSpacing d window ∧
      ∀ a ∈ S.arrays, n.HoldsArray poolId program a := by
  unfold readConcentratedPool at h
  rw [if_neg (by omega)] at h
  obtain ⟨-, account, -, -, h⟩ := dataOf_bind_eq_ok.1 h
  obtain ⟨pool, -, h⟩ := liftChecked_bind_eq_ok.1 h
  split at h
  case isTrue => cases h
  obtain ⟨addresses, haddresses, h⟩ := liftChecked_bind_eq_ok.1 h
  obtain ⟨-, h⟩ := multipleAccounts_bind_eq_ok.1 h
  obtain ⟨feeRate, -, h⟩ := liftChecked_bind_eq_ok.1 h
  obtain ⟨fees0, -, h⟩ := liftChecked_bind_eq_ok.1 h
  obtain ⟨fees1, -, h⟩ := liftChecked_bind_eq_ok.1 h
  obtain ⟨epoch, _, h⟩ := exists_of_ite_bind h
  obtain ⟨arrays, harrays, h⟩ := liftChecked_bind_eq_ok.1 h
  obtain ⟨price, -, h⟩ := liftChecked_bind_eq_ok.1 h
  split at h
  case h_2 => cases h
  case h_1 state hmake =>
    cases h
    obtain ⟨hpoolId, htick, hspacing, hloaded⟩ := ConcentratedPool.make?_eq_ok hmake
    rw [htick, hspacing, hloaded]
    exact ⟨hpoolId, holds_of_mapM haddresses harrays⟩

theorem poolId_of_read {window : Int}
    (h : (n.ask (readConcentratedPool poolId d window program)).1 = .ok S) : S.poolId = poolId := by
  by_cases hnegative : window < 0
  · unfold readConcentratedPool at h
    rw [if_pos hnegative] at h
    cases h
  · obtain ⟨count, rfl⟩ := Int.eq_ofNat_of_zero_le (not_lt.1 hnegative)
    exact (readConcentratedPool_eq_ok h).1

/-- A pool that was read has consecutive tick arrays from the one of its current tick on, in the
direction it was read for. Each is what the node holds at its derived address, or stands empty for
one that does not exist. Together they are the window of the pool, so no quote lacks the array of
the current tick. -/
theorem read_contiguous (h : (n.ask (readConcentratedPool poolId d window program)).1 = .ok S) :
    let first := Tick.arrayStart S.tickCurrent S.tickSpacing
    let lower := d.lowest first S.span window
    let upper := lower + (window + 1) * S.span
    (S.span ∣ first ∧ first ≤ S.tickCurrent ∧ S.tickCurrent < first + S.span) ∧
    S.arrays.map (·.start) = consecutive lower S.span (window + 1) ∧
    (∀ a ∈ S.arrays, n.HoldsArray poolId program a) ∧
    (S.coveredRange = some (lower, upper) ∧ lower ≤ S.tickCurrent ∧ S.tickCurrent < upper) ∧
    ∀ amount slippage mintIn limit tick remaining, S.quote amount slippage mintIn limit ≠
      .error (.insufficientLiquidityData tick remaining .currentTickNotCovered) := by
  intro first lower upper
  obtain ⟨-, hloaded, hholds⟩ := readConcentratedPool_eq_ok h
  obtain ⟨hfirst, hlow, hhigh⟩ := S.arrayStart_around S.tickCurrent
  have hstarts : S.arrays.map (·.start) = consecutive lower S.span (window + 1) :=
    hloaded.trans (windowStarts_eq _ _ _ _)
  obtain ⟨hlower, hupper⟩ := d.lowest_around window S.span_pos hlow hhigh
  have hbase : S.span ∣ lower := by
    cases d
    · exact Int.dvd_sub hfirst (Int.dvd_mul_left _ _)
    · exact hfirst
  have hwindow : S.coveredRange = some (lower, upper) :=
    ConcentratedPool.coveredRange_of_consecutive hstarts hbase hlower hupper
  refine ⟨⟨hfirst, hlow, hhigh⟩, hstarts, hholds, ⟨hwindow, hlower, hupper⟩, ?_⟩
  intro amount slippage mintIn limit tick remaining hquote
  rcases ConcentratedPool.cause_of_quote hquote with ⟨hnone, -⟩ | ⟨_, -, hcause⟩
  · cases hnone.symm.trans hwindow
  · cases hcause

end Node
namespace Address

variable {seeds : List Bytes} {program a : Address} {bump : Nat}

theorem not_isPoint_of_deriveFrom? (h : deriveFrom? seeds program bump = some a) :
    Edwards25519.isPoint a.bytes = false := by
  induction bump with
  | zero => cases h
  | succ bump ih =>
    unfold deriveFrom? at h
    dsimp only at h
    split at h
    case isTrue => exact ih h
    case isFalse hpoint =>
      unfold ofBytes? at h
      split at h
      case isTrue =>
        cases h
        simpa using hpoint
      case isFalse => cases h

/-- A derived address is no curve point, so it differs from those that keys sign for. -/
theorem derive_ne (seeds : List Bytes) (program : Address)
    (hpoint : Edwards25519.isPoint a.bytes = true) (hzero : a ≠ ofNat 0) :
    derive seeds program ≠ a := by
  rintro rfl
  unfold derive at hpoint hzero
  cases h : deriveFrom? seeds program 256 with
  | none =>
    rw [h] at hzero
    exact hzero rfl
  | some a =>
    rw [h, Option.getD_some, not_isPoint_of_deriveFrom? h] at hpoint
    cases hpoint

end Address

namespace Layout

variable {field : FieldReader α} {skipped rest : Bytes} {a : α} {size : Nat}

/-- Reading what follows a discriminator and other bytes that are skipped. -/
theorem read_append (name : String) (hsize : 8 + skipped.length = size)
    (h : field.run rest = some (a, [])) (what : String) (address : Option String) :
    read (do FieldReader.skip size; field) (discriminator name ++ skipped ++ rest) what address =
      .ok a := by
  have hlength : (discriminator name ++ skipped).length = size := by
    rw [List.length_append, length_discriminator, hsize]
  have hskip : (FieldReader.skip size).run (discriminator name ++ skipped ++ rest) =
      some ((), rest) :=
    FieldReader.run_bind_eq_some.2 ⟨_, _, FieldReader.bytes_append hlength rest, rfl⟩
  have hrun : (do FieldReader.skip size; field).run (discriminator name ++ skipped ++ rest) =
      some (a, []) :=
    FieldReader.run_bind_eq_some.2 ⟨(), rest, hskip, h⟩
  exact read_eq_ok_of_run hrun what address

end Layout

namespace Node

/-- What follows the discriminator of a pool with spacing one at tick -61. -/
def pooledPool : Bytes :=
  (Address.ofNat 5).bytes ++ List.replicate 32 0 ++ (Address.ofNat 7).bytes ++
  (Address.ofNat 8).bytes ++ List.replicate 96 0 ++ [6, 9] ++ LittleEndian.encode 2 1 ++
  LittleEndian.encode 16 1000000 ++ LittleEndian.encode 16 18390000000000000000 ++
  LittleEndian.encodeSigned 4 (-61)

/-- A tick array from -120 on with one tick. -/
def pooledTicks : Bytes :=
  LittleEndian.encodeSigned 4 (-120) ++ LittleEndian.encodeSigned 4 (-100) ++
  LittleEndian.encodeSigned 16 (-5) ++ LittleEndian.encode 16 5 ++ List.replicate 10160 0

def pooledArray : Account :=
  ⟨.concentratedPoolProgram, TickArray.discriminator ++ List.replicate 32 0 ++ pooledTicks⟩

/-- A node with that pool, and with the same account wherever there may be tick arrays. -/
def pooled (array : Option Account) : Node where
  accounts a :=
    if a = .ofNat 2 then some ⟨.concentratedPoolProgram,
      ConcentratedPoolAccount.discriminator ++ [0] ++ pooledPool⟩
    else if a = .ofNat 5 then some ⟨.concentratedPoolProgram,
      FeeConfigAccount.discriminator ++ List.replicate 39 0 ++
        (LittleEndian.encode 4 2500 ++ List.replicate 66 0)⟩
    else if a = .ofNat 7 ∨ a = .ofNat 8 then some ⟨.tokenProgram, []⟩
    else array
  epoch := 0
  blockhash := .ofNat 0
  sending := .error ""
  simulating := .error ""
  failures := []
  calls := []

def pooledAccount : ConcentratedPoolAccount :=
  ⟨.ofNat 5, .ofNat 7, .ofNat 8, .ofNat 0, .ofNat 0, .ofNat 0, 6, 9, 1, 1000000,
    18390000000000000000, -61⟩

theorem pooled_decode (address : Option String) : ConcentratedPoolAccount.decode
    (ConcentratedPoolAccount.discriminator ++ [0] ++ pooledPool) address = .ok pooledAccount := by
  refine Checked.bind_eq_ok.2 ⟨(), Layout.requireDiscriminator_append _ _ _ _ _, ?_⟩
  refine Layout.read_append _ ?_ ?_ _ _
  · rfl
  · decide +kernel

theorem pooled_decodeFeeRate (address : Option String) : FeeConfigAccount.decodeFeeRate
    (FeeConfigAccount.discriminator ++ List.replicate 39 0 ++
      (LittleEndian.encode 4 2500 ++ List.replicate 66 0)) address = .ok 2500 := by
  refine Checked.bind_eq_ok.2 ⟨(), Layout.requireDiscriminator_append _ _ _ _ _, ?_⟩
  refine Layout.read_append _ ?_ ?_ _ _
  · rfl
  · decide +kernel

theorem pooled_mintFees (mint : Address) :
    mintFees (.ofNat 2) mint (some ⟨.tokenProgram, []⟩) = .ok none := by
  refine Checked.bind_eq_ok.2 ⟨(), if_pos List.mem_cons_self, ?_⟩
  rw [if_neg (by decide +kernel)]
  rfl

theorem pooled_decodeTicks (address : Option Address) : TickArray.decode
    (TickArray.discriminator ++ List.replicate 32 0 ++ pooledTicks) address =
      .ok ⟨-120, [⟨-100, -5, 5⟩], address⟩ := by
  let slots : List Tick := ⟨-100, -5, 5⟩ :: List.replicate 59 ⟨0, 0, 0⟩
  have hread : Layout.read TickArray.layout
      (TickArray.discriminator ++ List.replicate 32 0 ++ pooledTicks) "CLMM tick array"
      (address.map (·.text)) = .ok (-120, slots) := by
    refine Layout.read_append _ ?_ ?_ _ _
    · rfl
    · decide +kernel
  have hlength : (TickArray.discriminator ++ List.replicate 32 0 ++ pooledTicks).length = 10240 := by
    have hticks : pooledTicks.length = 10200 := by decide +kernel
    rw [List.length_append, List.length_append, TickArray.discriminator,
      Layout.length_discriminator, hticks, List.length_replicate]
  have hkept : (slots.filter (·.liquidityGross ≠ 0)).mergeSort Tick.le = [⟨-100, -5, 5⟩] :=
    List.mergeSort_singleton _
  refine Checked.bind_eq_ok.2 ⟨(), Layout.requireDiscriminator_append _ _ _ _ _, ?_⟩
  rw [hlength, if_neg (by decide)]
  exact Checked.bind_eq_ok.2 ⟨_, hread, hkept ▸ rfl⟩

theorem pooled_tickArrayAt (address : Address) :
    tickArrayAt .concentratedPoolProgram (-120) address (some pooledArray) =
      .ok ⟨-120, [⟨-100, -5, 5⟩], some address⟩ :=
  Checked.bind_eq_ok.2 ⟨(), requireOwner_eq_ok.2 rfl,
    Checked.bind_eq_ok.2 ⟨_, pooled_decodeTicks _, if_pos rfl⟩⟩

theorem pooled_accounts {array : Option Account} (h : ∀ k ∈ [2, 5, 7, 8], a ≠ Address.ofNat k) :
    (pooled array).accounts a = array := by
  simp only [List.forall_mem_cons] at h
  simp [pooled, h]

/-- The address of a tick array of the pool. -/
def pooledAddress (start : Int) : Address :=
  .derive ["tick_array".toUTF8.toList, (Address.ofNat 2).bytes,
    (LittleEndian.encodeSigned 4 start).reverse] .concentratedPoolProgram

theorem pooledAddress_eq {start : Int} (hlow : -0x80000000 ≤ start) (hhigh : start < 0x80000000) :
    Address.ofTickArray (.ofNat 2) start .concentratedPoolProgram = .ok (pooledAddress start) :=
  ofTickArray_eq_ok.2 ⟨⟨hlow, hhigh⟩, rfl⟩

theorem pooled_array (array : Option Account) (start : Int) :
    (pooled array).accounts (pooledAddress start) = array := by
  refine pooled_accounts fun k hk => Address.derive_ne _ _ ?_ ?_
  · revert k
    decide +kernel
  · revert k
    decide +kernel

theorem mapM_pooledAddress {starts : List Int}
    (h : ∀ start ∈ starts, -0x80000000 ≤ start ∧ start < 0x80000000) :
    (starts.mapM fun start => Address.ofTickArray (.ofNat 2) start .concentratedPoolProgram) =
      .ok (starts.map pooledAddress) := by
  induction starts with
  | nil => rfl
  | cons start starts ih =>
    obtain ⟨hstart, hrest⟩ := List.forall_mem_cons.1 h
    rw [List.mapM_cons]
    exact Checked.bind_eq_ok.2 ⟨_, pooledAddress_eq hstart.1 hstart.2,
      Checked.bind_eq_ok.2 ⟨_, ih hrest, rfl⟩⟩

/-- The pool as it is read with some tick arrays. -/
def pooledState (arrays : List TickArray)
    (hascending : (arrays.map (·.start)).Pairwise (· < ·)) : ConcentratedPool where
  poolId := .ofNat 2
  mintA := .ofNat 7
  mintB := .ofNat 8
  sqrtPrice := 18390000000000000000
  tickCurrent := -61
  liquidity := 1000000
  tickSpacing := 1
  feeRate := 2500
  arrays
  decimalsA := 6
  decimalsB := 9
  transferFeeA := none
  transferFeeB := none
  starts_ascending := hascending
  spacing_pos := Int.one_pos

/-- The pool is read if the account stands for each tick array of the window. -/
theorem pooled_read (array : Option Account) (d : Direction) (window : Nat)
    (arrays : List TickArray)
    (hrange : ∀ start ∈ windowStarts (-61) 1 d window, -0x80000000 ≤ start ∧ start < 0x80000000)
    (harrays : (((windowStarts (-61) 1 d window).zip
      ((windowStarts (-61) 1 d window).map pooledAddress)).zip
        ((windowStarts (-61) 1 d window).map fun _ => array)).mapM
      (fun ((start, address), account) =>
        tickArrayAt .concentratedPoolProgram start address account) = .ok arrays)
    (hascending : (arrays.map (·.start)).Pairwise (· < ·)) :
    ((pooled array).ask (readConcentratedPool (.ofNat 2) d window .concentratedPoolProgram)).1 =
      .ok (pooledState arrays hascending) := by
  have hheld : ((windowStarts (-61) 1 d window).map pooledAddress).map (pooled array).accounts =
      (windowStarts (-61) 1 d window).map fun _ => array := by
    simp only [List.map_map, Function.comp_def, pooled_array]
  rw [← hheld] at harrays
  have hmake : ConcentratedPool.make? (.ofNat 2) (.ofNat 7) (.ofNat 8) 18390000000000000000 (-61)
      1000000 1 2500 arrays 6 9 none none = .ok (pooledState arrays hascending) := by
    unfold ConcentratedPool.make?
    rw [dif_pos hascending, dif_pos Int.one_pos]
    rfl
  unfold readConcentratedPool
  rw [if_neg (by omega)]
  refine dataOf_bind_eq_ok.2 ⟨rfl, _, rfl, rfl, ?_⟩
  refine liftChecked_bind_eq_ok.2 ⟨_, pooled_decode _, ?_⟩
  rw [if_neg (by decide)]
  refine liftChecked_bind_eq_ok.2 ⟨_, mapM_pooledAddress hrange, ?_⟩
  refine multipleAccounts_bind_eq_ok.2 ⟨rfl, ?_⟩
  refine liftChecked_bind_eq_ok.2
    ⟨2500, Checked.bind_eq_ok.2 ⟨(), requireOwner_eq_ok.2 rfl, pooled_decodeFeeRate _⟩, ?_⟩
  refine liftChecked_bind_eq_ok.2 ⟨none, pooled_mintFees _, ?_⟩
  refine liftChecked_bind_eq_ok.2 ⟨none, pooled_mintFees _, ?_⟩
  rw [if_neg (by decide)]
  refine ask_bind_eq_ok.2 ⟨0, rfl, ?_⟩
  refine liftChecked_bind_eq_ok.2 ⟨arrays, harrays, ?_⟩
  obtain ⟨price, hprice⟩ : ∃ price, Tick.priceOfSqrtPrice pooledAccount.sqrtPrice
      pooledAccount.decimals0 pooledAccount.decimals1 = .ok price :=
    Tick.exists_priceOfSqrtPrice (by decide) (by decide) (by decide)
  refine liftChecked_bind_eq_ok.2 ⟨price, hprice, ?_⟩
  split
  case h_1 state hstate => rw [Except.ok.inj (hstate.symm.trans hmake)]; rfl
  case h_2 cause hcause => cases hcause.symm.trans hmake

/-- The one array of a window that extends no further, as it is read. -/
def pooledArrays : List TickArray :=
  [⟨-120, [⟨-100, -5, 5⟩], some (pooledAddress (-120))⟩]

theorem pooledArrays_ascending : (pooledArrays.map (·.start)).Pairwise (· < ·) :=
  List.pairwise_singleton _ _

theorem pooled_read_first (d : Direction) :
    ((pooled (some pooledArray)).ask
        (readConcentratedPool (.ofNat 2) d (0 : Nat) .concentratedPoolProgram)).1 =
      .ok (pooledState pooledArrays pooledArrays_ascending) := by
  have hstarts : windowStarts (-61) 1 d 0 = [-120] := by
    cases d <;> decide
  refine pooled_read _ d 0 pooledArrays ?_ ?_ _
  · rw [hstarts]
    decide
  · rw [hstarts]
    simp only [List.map_cons, List.map_nil, List.zip_cons_cons, List.zip_nil_right,
      List.mapM_cons, List.mapM_nil, pooled_tickArrayAt]
    rfl

/-- A window of three arrays that do not exist, and one of a single array that does. -/
theorem read_contiguous_pooled :
    (∃ S, ((pooled none).ask
        (readConcentratedPool (.ofNat 2) .zeroForOne (2 : Nat) .concentratedPoolProgram)).1 = .ok S ∧
      S.arrays.map (·.start) = [-240, -180, -120] ∧ S.coveredRange = some (-240, -60)) ∧
    ∃ S, ((pooled (some pooledArray)).ask
        (readConcentratedPool (.ofNat 2) .oneForZero (0 : Nat) .concentratedPoolProgram)).1 = .ok S ∧
      S.coveredRange = some (-120, -60) ∧
      ∃ a ∈ S.arrays, a = ⟨-120, [⟨-100, -5, 5⟩], some (pooledAddress (-120))⟩ ∧
        (pooled (some pooledArray)).HoldsArray (.ofNat 2) .concentratedPoolProgram a := by
  constructor
  · have hread := pooled_read none .zeroForOne 2
      [⟨-240, [], none⟩, ⟨-180, [], none⟩, ⟨-120, [], none⟩] (by decide) rfl (by decide)
    obtain ⟨-, hstarts, -, ⟨hwindow, -, -⟩, -⟩ := read_contiguous hread
    exact ⟨_, hread, hstarts, hwindow⟩
  · have hread := pooled_read_first .oneForZero
    obtain ⟨-, -, hholds, ⟨hwindow, -, -⟩, -⟩ := read_contiguous hread
    exact ⟨_, hread, hwindow, _, List.mem_singleton_self _, rfl,
      hholds _ (List.mem_singleton_self _)⟩

end Node

end PoolSwap
