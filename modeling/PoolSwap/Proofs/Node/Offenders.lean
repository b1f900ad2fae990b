import PoolSwap.Proofs.Node.ConcentratedPool

/-! How reading a concentrated pool can fail on a node that answers. A fault names the account that is
to blame: one that does not exist, that the wrong program owns or that its decoder rejects. The one
exception is a pool so far out that a start of its window has no seed to derive an address from. -/
namespace PoolSwap

/-- Faults of reading the account at an address. -/
def Fault.Names (address : Option String) (fault : Fault) : Prop :=
  ∃ cause, fault = .stateRead address cause

open Checked Fault

section Decoders

variable (raw : Bytes) (address : Option String)

theorem Layout.requireDiscriminator_names (expected : Bytes) (what : String) :
    FailsWith (Names address) (requireDiscriminator expected raw what address) := by
  unfold requireDiscriminator
  split
  · exact failsWith_ok _
  · exact failsWith_error ⟨_, rfl⟩

theorem Layout.read_names (layout : FieldReader α) (what : String) :
    FailsWith (Names address) (read layout raw what address) := by
  unfold read
  split
  · exact failsWith_ok _
  · exact failsWith_error ⟨_, rfl⟩

theorem ConcentratedPoolAccount.decode_names : FailsWith (Names address) (decode raw address) :=
  (Layout.requireDiscriminator_names raw address _ _).bind fun _ =>
    Layout.read_names raw address _ _

open FieldReader LittleEndian in
/-- The price of a pool that was read and the decimals of its mints fit in their fields, so the price
in whole tokens is a double. -/
theorem ConcentratedPoolAccount.exists_price {raw : Bytes} {address : Option String}
    {pool : ConcentratedPoolAccount} (h : decode raw address = .ok pool) :
    ∃ price, Tick.priceOfSqrtPrice pool.sqrtPrice pool.decimals0 pool.decimals1 = .ok price := by
  obtain ⟨_, -, h⟩ := bind_eq_ok.1 h
  obtain ⟨rest, h⟩ := Layout.read_eq_ok h
  -- Eight fields stand before the decimals, and two between these and the price.
  iterate 8 obtain ⟨_, _, -, h⟩ := run_bind_eq_some.1 h
  obtain ⟨_, _, hdecimals0, h⟩ := run_bind_eq_some.1 h
  obtain ⟨_, _, hdecimals1, h⟩ := run_bind_eq_some.1 h
  iterate 2 obtain ⟨_, _, -, h⟩ := run_bind_eq_some.1 h
  obtain ⟨_, _, hsqrtPrice, h⟩ := run_bind_eq_some.1 h
  obtain ⟨_, _, -, h⟩ := run_bind_eq_some.1 h
  cases h
  exact Tick.exists_priceOfSqrtPrice (unsigned_lt hsqrtPrice) (unsigned_lt hdecimals0)
    (unsigned_lt hdecimals1)

theorem FeeConfigAccount.decodeFeeRate_names :
    FailsWith (Names address) (decodeFeeRate raw address) :=
  (Layout.requireDiscriminator_names raw address _ _).bind fun _ =>
    Layout.read_names raw address _ _

theorem TickArray.decode_names (array : Option Address) :
    FailsWith (Names (array.map (·.text))) (decode raw array) := by
  refine (Layout.requireDiscriminator_names raw _ _ _).bind fun _ => ?_
  split
  · exact failsWith_error ⟨_, rfl⟩
  · exact (Layout.read_names raw _ _ _).bind fun _ => failsWith_ok _

theorem Mint.scan_names : FailsWith (Names address) (scan address raw) := by
  fun_induction scan address raw with
  | case1 => exact failsWith_ok _
  | case2 => exact failsWith_ok _
  | case3 => exact failsWith_ok _
  | case4 rest => exact (Layout.read_names _ address _ _).map some
  | case5 _ _ _ _ _ _ _ ih => exact ih

theorem Mint.decodeTransferFee_names : FailsWith (Names address) (decodeTransferFee raw address) := by
  unfold decodeTransferFee
  split
  · exact failsWith_error ⟨_, rfl⟩
  · split
    · exact failsWith_ok _
    · split
      · exact failsWith_error ⟨_, rfl⟩
      · exact scan_names _ address

end Decoders

namespace Node

variable {n : Node} {poolId program address : Address} {d : Direction} {window : Nat}
  {pool : ConcentratedPoolAccount} {account : Option Account}

/-- Whether an account exists, has one of some owners and can be read. -/
def Usable (account : Option Account) (owners : List Address) (readable : Account → Prop) : Prop :=
  ∃ a, account = some a ∧ a.owner ∈ owners ∧ readable a

/-- Whether a node has a pool at an address, one that a reader goes on with. -/
def HasPool (n : Node) (poolId program : Address) (pool : ConcentratedPoolAccount) : Prop :=
  Usable (n.accounts poolId) [program] fun a =>
    ConcentratedPoolAccount.decode a.data (some poolId.text) = .ok pool ∧ pool.tickSpacing ≠ 0

/-- The accounts that keep a pool from being read. A tick array does so only if it exists. -/
inductive Offends (n : Node) (poolId program : Address) (d : Direction) (window : Nat) :
    Address → Prop
  | pool (h : ¬∃ pool, n.HasPool poolId program pool) : Offends n poolId program d window poolId
  | feeConfig {pool : ConcentratedPoolAccount} (hpool : n.HasPool poolId program pool)
      (h : ¬Usable (n.accounts pool.ammConfig) [program] fun a =>
        ∃ rate, FeeConfigAccount.decodeFeeRate a.data (some pool.ammConfig.text) = .ok rate) :
      Offends n poolId program d window pool.ammConfig
  | mint {pool : ConcentratedPoolAccount} {mint : Address} (hpool : n.HasPool poolId program pool)
      (hmint : mint ∈ [pool.mint0, pool.mint1])
      (h : ¬Usable (n.accounts mint) tokenAccountOwners fun a => a.owner = .token2022Program →
        ∃ fees, Mint.decodeTransferFee a.data (some mint.text) = .ok fees) :
      Offends n poolId program d window mint
  | tickArray {pool : ConcentratedPoolAccount} {start : Int} {address : Address}
      (hpool : n.HasPool poolId program pool)
      (hstart : start ∈ windowStarts pool.tickCurrent pool.tickSpacing d window)
      (haddress : ArrayAddress poolId program start address)
      (hexists : n.accounts address ≠ none)
      (h : ¬Usable (n.accounts address) [program] fun a =>
        ∃ array, TickArray.decode a.data (some address) = .ok array ∧ array.start = start) :
      Offends n poolId program d window address

/-- Whether a node has a pool with a start in its window that no signed 32-bit number is. -/
def Overflows (n : Node) (poolId program : Address) (d : Direction) (window : Nat) : Prop :=
  ∃ pool, n.HasPool poolId program pool ∧
    ∃ start ∈ windowStarts pool.tickCurrent pool.tickSpacing d window,
      ¬LittleEndian.FitsSigned 4 start

/-- How reading a pool can fail. -/
inductive ReadFault (n : Node) (poolId program : Address) (d : Direction) (window : Nat) :
    Fault → Prop
  | offender {address : Address} {cause : ReadCause}
      (h : n.Offends poolId program d window address) :
      ReadFault n poolId program d window (.stateRead (some address.text) cause)
  | overflow (h : n.Overflows poolId program d window) :
      ReadFault n poolId program d window (.breach .tooLarge)

section Roles

theorem requireOwner_names (what : String) (address : Address) (a : Account)
    (owners : List Address) :
    FailsWith (Names (some address.text)) (requireOwner what address a owners) := by
  unfold requireOwner
  split
  · exact failsWith_ok _
  · exact failsWith_error ⟨_, rfl⟩

theorem feeRateOf_names (config program : Address) (account : Option Account) :
    FailsWith (Names (some config.text)) (feeRateOf config program account) := by
  cases account with
  | none => exact failsWith_error ⟨_, rfl⟩
  | some a =>
    exact (requireOwner_names _ _ _ _).bind fun _ => FeeConfigAccount.decodeFeeRate_names _ _

theorem exists_feeRateOf {config : Address} (h : Usable account [program] fun a =>
      ∃ rate, FeeConfigAccount.decodeFeeRate a.data (some config.text) = .ok rate) :
    ∃ rate, feeRateOf config program account = .ok rate := by
  obtain ⟨a, rfl, howner, rate, hrate⟩ := h
  exact ⟨rate, bind_eq_ok.2 ⟨(), if_pos howner, hrate⟩⟩

theorem mintFees_names (poolId mint : Address) (account : Option Account) :
    FailsWith (Names (some mint.text)) (mintFees poolId mint account) := by
  cases account with
  | none => exact failsWith_error ⟨_, rfl⟩
  | some a =>
    refine (requireOwner_names _ _ _ _).bind fun _ => ?_
    split
    · exact Mint.decodeTransferFee_names _ _
    · exact failsWith_ok _

theorem exists_mintFees {mint : Address} (h : Usable account tokenAccountOwners fun a =>
      a.owner = .token2022Program →
        ∃ fees, Mint.decodeTransferFee a.data (some mint.text) = .ok fees) :
    ∃ fees, mintFees poolId mint account = .ok fees := by
  obtain ⟨a, rfl, howner, hread⟩ := h
  by_cases htoken : a.owner = .token2022Program
  · obtain ⟨fees, hfees⟩ := hread htoken
    exact ⟨fees, bind_eq_ok.2 ⟨(), if_pos howner, (if_pos htoken).trans hfees⟩⟩
  · exact ⟨none, bind_eq_ok.2 ⟨(), if_pos howner, if_neg htoken⟩⟩

theorem tickArrayAt_names (program : Address) (start : Int) (address : Address)
    (account : Option Account) :
    FailsWith (Names (some address.text)) (tickArrayAt program start address account) := by
  cases account with
  | none => exact failsWith_ok _
  | some a =>
    refine (requireOwner_names _ _ _ _).bind fun _ => ?_
    refine (TickArray.decode_names a.data (some address)).bind fun _ => ?_
    split
    · exact failsWith_ok _
    · exact failsWith_error ⟨_, rfl⟩

theorem exists_tickArrayAt {start : Int} (h : account ≠ none → Usable account [program] fun a =>
      ∃ array, TickArray.decode a.data (some address) = .ok array ∧ array.start = start) :
    ∃ array, tickArrayAt program start address account = .ok array := by
  cases account with
  | none => exact ⟨_, rfl⟩
  | some a =>
    obtain ⟨_, ⟨⟩, howner, array, harray, hstart⟩ := h nofun
    exact ⟨array, bind_eq_ok.2 ⟨(), if_pos howner,
      bind_eq_ok.2 ⟨array, harray, if_pos hstart⟩⟩⟩

end Roles

section Asked

variable {kind : Fault → Prop} {what : String} {β : Type}

theorem failsWith_liftChecked_bind {c : Checked α} {f : α → Query β} (hc : FailsWith kind c)
    (hf : ∀ a, c = .ok a → FailsWith kind (n.ask (f a)).1) :
    FailsWith kind (n.ask (liftChecked c >>= f)).1 := by
  refine failsWith_ask_bind ?_ ?_
  · rwa [ask_liftChecked]
  · rwa [ask_liftChecked]

theorem failsWith_ite_bind {c : Prop} [Decidable c] {x y : Query α} {f : α → Query β}
    (hx : FailsWith kind (n.ask x).1) (hy : FailsWith kind (n.ask y).1)
    (hf : ∀ n' a, FailsWith kind (ask n' (f a)).1) :
    FailsWith kind (n.ask (if c then x >>= f else y >>= f)).1 := by
  split
  · exact failsWith_ask_bind hx fun a _ => hf _ a
  · exact failsWith_ask_bind hy fun a _ => hf _ a

theorem failsWith_currentEpoch (hreach : n.reach .epochInfo = .ok ()) :
    FailsWith kind (n.ask currentEpoch).1 := by
  rw [ask_currentEpoch_of_reach hreach]
  exact failsWith_ok _

theorem ask_dataOf {a : Account} (hreach : n.reach .accountInfo = .ok ())
    (haccount : n.accounts address = some a) (howner : a.owner = program) :
    n.ask (dataOf what address program) = (.ok a.data, n.logged (.accountInfo address)) := by
  have hrequired : requireOwner what address a [program] = .ok () := requireOwner_eq_ok.2 howner
  unfold dataOf
  rw [ask_bind_of_ok (ask_accountInfo_of_reach hreach address), haccount]
  dsimp only
  rw [ask_bind, ask_liftChecked, hrequired]
  rfl

/-- Data of an account can be read exactly if it exists and the program owns it. -/
theorem failsWith_dataOf_bind {f : Bytes → Query β} (hreach : n.reach .accountInfo = .ok ())
    (hbad : ¬Usable (n.accounts address) [program] (fun _ => True) →
      ∀ cause, kind (.stateRead (some address.text) cause))
    (hf : ∀ a, n.accounts address = some a → a.owner = program →
      FailsWith kind ((n.logged (.accountInfo address)).ask (f a.data)).1) :
    FailsWith kind (n.ask (dataOf what address program >>= f)).1 := by
  unfold dataOf
  rw [bind_assoc, ask_bind_of_ok (ask_accountInfo_of_reach hreach address)]
  cases haccount : n.accounts address with
  | none => exact failsWith_error (hbad (by rw [haccount]; exact nofun) _)
  | some a =>
    simp only [bind_assoc, pure_bind]
    refine failsWith_liftChecked_bind ?_ fun _ howner => hf a haccount (requireOwner_eq_ok.1 howner)
    intro fault h
    obtain ⟨cause, rfl⟩ := requireOwner_names _ _ _ _ fault h
    refine hbad (fun husable => ?_) cause
    obtain ⟨a', ha', howner, -⟩ := husable
    obtain rfl := Option.some.inj (haccount.symm.trans ha')
    cases h.symm.trans (if_pos howner)

end Asked

/-- An operation that fails only for one account does so for an account that offends. -/
theorem ReadFault.of_names {x : Checked α} {usable : Prop}
    (hnames : FailsWith (Names (some address.text)) x) (hok : usable → ∃ a, x = .ok a)
    (hbad : ¬usable → n.Offends poolId program d window address) :
    FailsWith (n.ReadFault poolId program d window) x := by
  intro fault h
  obtain ⟨cause, rfl⟩ := hnames fault h
  refine .offender (hbad fun husable => ?_)
  obtain ⟨a, ha⟩ := hok husable
  cases h.symm.trans ha

section Window

theorem consecutive_ascending {base span : Int} (hspan : 0 < span) (count : Nat) :
    (consecutive base span count).Pairwise (· < ·) := by
  refine List.pairwise_map.2 (List.pairwise_lt_range.imp fun {i j} hlt => ?_)
  have hij : (i : Int) * span < j * span := mul_lt_mul_of_pos_right (Int.ofNat_lt.2 hlt) hspan
  omega

theorem ofTickArray_eq_error {start : Int} {fault : Fault} :
    Address.ofTickArray poolId start program = .error fault ↔
      ¬LittleEndian.FitsSigned 4 start ∧ fault = .breach .tooLarge := by
  unfold Address.ofTickArray Address.tickSeed
  rw [LittleEndian.fitsSigned_four_iff]
  split
  case isTrue hfits => exact ⟨nofun, fun h => absurd hfits h.1⟩
  case isFalse hunfit => exact ⟨fun h => ⟨hunfit, by cases h; rfl⟩, fun h => h.2 ▸ rfl⟩

/-- The addresses of a window fail as soon as one of its starts has no seed. -/
theorem mapM_ofTickArray_eq_error {starts : List Int} {fault : Fault} :
    (starts.mapM fun start => Address.ofTickArray poolId start program) = .error fault ↔
      (∃ start ∈ starts, ¬LittleEndian.FitsSigned 4 start) ∧ fault = .breach .tooLarge := by
  constructor
  · intro h
    obtain ⟨start, hstart, h⟩ := exists_of_mapM_eq_error h
    obtain ⟨hunfit, hfault⟩ := ofTickArray_eq_error.1 h
    exact ⟨⟨start, hstart, hunfit⟩, hfault⟩
  · rintro ⟨⟨start, hstart, hunfit⟩, rfl⟩
    cases hall : starts.mapM fun start => Address.ofTickArray poolId start program with
    | error fault =>
      obtain ⟨_, -, h⟩ := exists_of_mapM_eq_error hall
      rw [(ofTickArray_eq_error.1 h).2]
    | ok addresses =>
      obtain ⟨i, rfl⟩ := List.get_of_mem hstart
      have haddresses := forall₂_of_mapM hall
      have haddress := haddresses.get i.2 (haddresses.length_eq ▸ i.2)
      cases haddress.symm.trans (ofTickArray_eq_error.2 ⟨hunfit, rfl⟩)

/-- An account that is asked for an array stands at the address of one of the starts. -/
theorem mem_zip_accounts {starts : List Int} {addresses : List Address}
    (haddresses : starts.mapM (fun start => Address.ofTickArray poolId start program) =
      .ok addresses) {start : Int}
    (hmem : ((start, address), account) ∈ (starts.zip addresses).zip (addresses.map n.accounts)) :
    start ∈ starts ∧ Address.ofTickArray poolId start program = .ok address ∧
      account = n.accounts address := by
  replace haddresses := forall₂_of_mapM haddresses
  induction haddresses with
  | nil => cases hmem
  | cons haddress _ ih =>
    rcases List.mem_cons.1 hmem with h | h
    · cases h
      exact ⟨List.mem_cons_self, haddress, rfl⟩
    · obtain ⟨hstart, h⟩ := ih h
      exact ⟨List.mem_cons_of_mem _ hstart, h⟩

end Window

/-- The tick arrays of a pool can only fail as one that exists offends. -/
theorem mapM_tickArrayAt_failsWith {addresses : List Address} (hpool : n.HasPool poolId program pool)
    (haddresses : (windowStarts pool.tickCurrent pool.tickSpacing d window).mapM
      (fun start => Address.ofTickArray poolId start program) = .ok addresses) :
    FailsWith (n.ReadFault poolId program d window)
      ((((windowStarts pool.tickCurrent pool.tickSpacing d window).zip addresses).zip
        (addresses.map n.accounts)).mapM
        fun ((start, address), account) => tickArrayAt program start address account) := by
  intro fault h
  obtain ⟨⟨⟨start, address⟩, account⟩, hmem, h⟩ := exists_of_mapM_eq_error h
  obtain ⟨hstart, haddress, rfl⟩ := mem_zip_accounts haddresses hmem
  refine ReadFault.of_names (tickArrayAt_names _ _ _ _) exists_tickArrayAt (fun hbad => ?_) fault h
  obtain ⟨hexists, hbad⟩ := Classical.not_imp.1 hbad
  exact .tickArray hpool hstart (ofTickArray_eq_ok.1 haddress) hexists hbad

/-- The arrays of a window make a state, so a pool whose accounts are read is read. -/
theorem exists_make? {addresses : List Address} {arrays : List TickArray} {spacing : Nat}
    {tickCurrent : Int} (hspacing : spacing ≠ 0)
    (haddresses : (windowStarts tickCurrent spacing d window).mapM
      (fun start => Address.ofTickArray poolId start program) = .ok addresses)
    (harrays : (((windowStarts tickCurrent spacing d window).zip addresses).zip
        (addresses.map n.accounts)).mapM
        (fun ((start, address), account) => tickArrayAt program start address account) = .ok arrays)
    (mintA mintB : Address) (sqrtPrice liquidity feeRate decimalsA decimalsB : Int)
    (feeA feeB : Option TransferFee) :
    ∃ S, ConcentratedPool.make? poolId mintA mintB sqrtPrice tickCurrent liquidity spacing feeRate
      arrays decimalsA decimalsB feeA feeB = .ok S := by
  have hpositive : (0 : Int) < spacing := by omega
  have hspan : 0 < Tick.arraySize * (spacing : Int) := mul_pos (by decide) hpositive
  have hascending : (arrays.map (·.start)).Pairwise (· < ·) := by
    rw [(holds_of_mapM haddresses harrays).1, windowStarts_eq]
    exact consecutive_ascending hspan _
  exact ⟨_, (dif_pos hascending).trans (dif_pos hpositive)⟩

/-- Reading a pool can only fail as an account offends or as a start has no seed. -/
theorem readConcentratedPool_failsWith (hreach : ∀ m, n.reach m = .ok ()) :
    FailsWith (n.ReadFault poolId program d window)
      (n.ask (readConcentratedPool poolId d window program)).1 := by
  unfold readConcentratedPool
  rw [if_neg (by omega)]
  refine failsWith_dataOf_bind (hreach _) (fun hbad cause => .offender (.pool ?_))
    fun a haccount howner => ?_
  · rintro ⟨pool, a, haccount, howner, -⟩
    exact hbad ⟨a, haccount, howner, trivial⟩
  have hdecodes : ∀ pool, n.HasPool poolId program pool →
      ConcentratedPoolAccount.decode a.data (some poolId.text) = .ok pool ∧ pool.tickSpacing ≠ 0 := by
    rintro pool ⟨a', haccount', -, hdecodes⟩
    rwa [Option.some.inj (haccount.symm.trans haccount')]
  refine failsWith_liftChecked_bind (.of_names (ConcentratedPoolAccount.decode_names _ _)
    (fun ⟨pool, hpool⟩ => ⟨pool, (hdecodes pool hpool).1⟩) .pool) fun pool hpool => ?_
  split
  case isTrue hzero =>
    refine failsWith_error (.offender (.pool ?_))
    rintro ⟨other, hother⟩
    obtain ⟨hother, hnonzero⟩ := hdecodes other hother
    obtain rfl := Except.ok.inj (hpool.symm.trans hother)
    exact hnonzero hzero
  case isFalse hspacing =>
    have hhas : n.HasPool poolId program pool :=
      ⟨a, haccount, List.mem_singleton.2 howner, hpool, hspacing⟩
    refine failsWith_liftChecked_bind ?_ fun addresses haddresses => ?_
    · intro fault h
      obtain ⟨hunfit, rfl⟩ := mapM_ofTickArray_eq_error.1 h
      exact .overflow ⟨pool, hhas, hunfit⟩
    rw [ask_bind_of_ok
      (ask_multipleAccounts_of_reach (n := n.logged (.accountInfo poolId)) (hreach _) _)]
    refine failsWith_liftChecked_bind (.of_names (feeRateOf_names _ _ _) exists_feeRateOf
      (.feeConfig hhas)) fun feeRate _ => ?_
    refine failsWith_liftChecked_bind (.of_names (mintFees_names _ _ _) exists_mintFees
      (.mint hhas List.mem_cons_self)) fun fees0 _ => ?_
    refine failsWith_liftChecked_bind (.of_names (mintFees_names _ _ _) exists_mintFees
      (.mint hhas (List.mem_cons_of_mem _ List.mem_cons_self))) fun fees1 _ => ?_
    refine failsWith_ite_bind (failsWith_currentEpoch (hreach .epochInfo)) (failsWith_ok _)
      fun n' epoch => ?_
    refine failsWith_liftChecked_bind (mapM_tickArrayAt_failsWith hhas haddresses)
      fun arrays harrays => ?_
    obtain ⟨price, hprice⟩ := ConcentratedPoolAccount.exists_price hpool
    refine failsWith_liftChecked_bind (hprice ▸ failsWith_ok price) fun _ _ => ?_
    obtain ⟨S, hmake⟩ := exists_make? hspacing haddresses harrays pool.mint0 pool.mint1
      pool.sqrtPrice pool.liquidity feeRate pool.decimals0 pool.decimals1
      (fees0.map (·.inEpoch epoch)) (fees1.map (·.inEpoch epoch))
    rw [hmake]
    exact failsWith_ok _

/-- A pool with an unfit start fails on it before anything else is asked for. -/
theorem readConcentratedPool_overflows (hreach : n.reach .accountInfo = .ok ())
    (h : n.Overflows poolId program d window) :
    (n.ask (readConcentratedPool poolId d window program)).1 = .error (.breach .tooLarge) := by
  obtain ⟨pool, ⟨a, haccount, howner, hpool, hspacing⟩, hunfit⟩ := h
  have howner : a.owner = program := List.mem_singleton.1 howner
  have haddresses : (windowStarts pool.tickCurrent pool.tickSpacing d window).mapM
      (fun start => Address.ofTickArray poolId start program) = .error (.breach .tooLarge) :=
    mapM_ofTickArray_eq_error.2 ⟨hunfit, rfl⟩
  unfold readConcentratedPool
  rw [if_neg (by omega), ask_bind_of_ok (ask_dataOf hreach haccount howner), ask_bind,
    ask_liftChecked, hpool]
  dsimp only
  rw [if_neg hspacing, ask_bind, ask_liftChecked, Int.toNat_natCast, haddresses]

/-- A node that answers reads a pool, or the fault names an account that is to blame. It is another
fault exactly if the pool is there and a start of its window is no signed 32-bit number. -/
theorem read_names_offender (hreach : ∀ m, n.reach m = .ok ()) :
    (∀ fault, (n.ask (readConcentratedPool poolId d window program)).1 = .error fault →
      (∃ address cause, fault = .stateRead (some address.text) cause ∧
        n.Offends poolId program d window address) ∨ fault = .breach .tooLarge) ∧
    ((n.ask (readConcentratedPool poolId d window program)).1 = .error (.breach .tooLarge) ↔
      n.Overflows poolId program d window) := by
  have hfails : FailsWith (n.ReadFault poolId program d window)
      (n.ask (readConcentratedPool poolId d window program)).1 :=
    readConcentratedPool_failsWith hreach
  refine ⟨fun fault h => ?_, fun h => ?_, readConcentratedPool_overflows (hreach _)⟩
  · cases hfails fault h with
    | offender hoffends => exact .inl ⟨_, _, rfl, hoffends⟩
    | overflow => exact .inr rfl
  · cases hfails _ h with
    | overflow hoverflows => exact hoverflows

/-- The fields of a pool with spacing one at the lowest tick that its account can hold. -/
def lowestValues : Layout.Values
  | "tick_spacing", .unsigned 2 => ⟨1, by decide⟩
  | "tick_current", .signed 4 => ⟨-0x80000000, LittleEndian.fitsSigned_four_iff.2 (by decide)⟩
  | _, kind => kind.zero

def lowestAccount : Account :=
  ⟨.concentratedPoolProgram,
    ConcentratedPoolAccount.discriminator ++ ConcentratedPoolAccount.format.encode lowestValues⟩

/-- A node with that pool alone. -/
def lowest : Node where
  accounts a := if a = .ofNat 2 then some lowestAccount else none
  epoch := 0
  blockhash := .ofNat 0
  sending := .error ""
  simulating := .error ""
  failures := []
  calls := []

/-- The array of the lowest tick starts 52 ticks below it. -/
theorem lowest_overflows : lowest.Overflows (.ofNat 2) .concentratedPoolProgram .zeroForOne 5 := by
  have haccount : lowest.accounts (.ofNat 2) = some lowestAccount := by
    simp only [lowest, if_true]
  have hdecode := ConcentratedPoolAccount.decodes.decode_encode lowestValues []
    (some (Address.ofNat 2).text) trivial
  rw [List.append_nil] at hdecode
  refine ⟨ConcentratedPoolAccount.ofValues lowestValues,
    ⟨_, haccount, List.mem_singleton_self _, hdecode, Nat.one_ne_zero⟩, -2147483700, ?_, ?_⟩
  · decide
  · rw [LittleEndian.fitsSigned_four_iff]
    decide

theorem read_names_offender_lowest : (∀ m, lowest.reach m = .ok ()) ∧
    lowest.Overflows (.ofNat 2) .concentratedPoolProgram .zeroForOne 5 ∧
    (lowest.ask (readConcentratedPool (.ofNat 2) .zeroForOne (5 : Nat)
      .concentratedPoolProgram)).1 = .error (.breach .tooLarge) :=
  ⟨fun _ => rfl, lowest_overflows, (read_names_offender fun _ => rfl).2.2 lowest_overflows⟩

/-- Some bytes of a pool make reading it fail with a fault that names no account. -/
theorem lowest_names_none : (∀ m, lowest.reach m = .ok ()) ∧ ∃ fault,
    (lowest.ask (readConcentratedPool (.ofNat 2) .zeroForOne defaultWindow
      .concentratedPoolProgram)).1 = .error fault ∧
    ∀ address cause, fault ≠ .stateRead address cause :=
  ⟨fun _ => rfl, _, readConcentratedPool_overflows rfl lowest_overflows, nofun⟩

end Node

end PoolSwap
