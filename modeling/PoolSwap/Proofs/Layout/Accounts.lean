import PoolSwap.Layout.ConcentratedPool
import PoolSwap.Proofs.Checked
import PoolSwap.Proofs.Layout.Format

/-! The formats of the accounts of pools, field by field, and the decoders that read them. -/
namespace PoolSwap

namespace Layout

abbrev u8 : Kind := .unsigned 1
abbrev u16 : Kind := .unsigned 2
abbrev u32 : Kind := .unsigned 4
abbrev u64 : Kind := .unsigned 8
abbrev u128 : Kind := .unsigned 16
abbrev i32 : Kind := .signed 4
abbrev i128 : Kind := .signed 16

/-- Whether a decoder reads the accounts of a format behind a mark. It undoes their writing, with any
values in the fields and any tolerated bytes at the end, accepts no other bytes than it should, and
else fails with a fault that names the account. -/
structure Decodes (decode : Bytes → Option String → Checked α) (mark : Bytes) (format : Format)
    (tolerated : Bytes → Prop) (value : Values → α) (accepted : Bytes → Prop) : Prop where
  distinct : (format.map Prod.fst).Nodup
  decode_encode : ∀ v rest address, tolerated rest →
    decode (mark ++ format.encode v ++ rest) address = .ok (value v)
  decode_eq_ok_iff : ∀ raw address, (∃ a, decode raw address = .ok a) ↔ accepted raw
  decode_eq_error : ∀ raw address, ¬accepted raw →
    ∃ cause, decode raw address = .error (.stateRead address cause)

section Decodes

variable {layout : FieldReader α} {size : Nat} {format : Format} {value : Values → α}

/-- A decoder that asks for a discriminator before it reads an account. -/
theorem decodes_of_discriminator [FieldReader.FixedSize layout size] (name what : String)
    (distinct : (format.map Prod.fst).Nodup)
    (hrun : ∀ v rest, layout.run (discriminator name ++ (format.encode v ++ rest)) =
      some (value v, rest)) :
    Decodes (fun raw address => do
      requireDiscriminator (discriminator name) raw what address
      read layout raw what address) (discriminator name) format (fun _ => True) value
      fun raw => size ≤ raw.length ∧ raw.take 8 = discriminator name where
  distinct := distinct
  decode_encode v rest address _ := by
    refine Checked.bind_eq_ok.2 ⟨(), requireDiscriminator_append _ _ _ _ _, ?_⟩
    rw [List.append_assoc]
    exact read_eq_ok_of_run (hrun v rest) what address
  decode_eq_ok_iff raw address := by
    constructor
    · rintro ⟨a, h⟩
      obtain ⟨_, hrequired, h⟩ := Checked.bind_eq_ok.1 h
      unfold requireDiscriminator at hrequired
      split at hrequired
      case isFalse => cases hrequired
      case isTrue hmark =>
        refine ⟨Nat.le_of_not_lt fun hshort => ?_, hmark⟩
        cases (read_of_lt hshort what address).symm.trans h
    · rintro ⟨hsize, hmark⟩
      obtain ⟨a, hread⟩ : ∃ a, read layout raw what address = .ok a :=
        exists_read hsize what address
      exact ⟨a, Checked.bind_eq_ok.2 ⟨(), if_pos hmark, hread⟩⟩
  decode_eq_error raw address hnot := by
    by_cases hmark : raw.take 8 = discriminator name
    · have hshort : raw.length < size := Nat.lt_of_not_le fun hsize => hnot ⟨hsize, hmark⟩
      exact ⟨_, Checked.bind_eq_error.2 (.inr ⟨(), if_pos hmark, read_of_lt hshort what address⟩)⟩
    · exact ⟨_, Checked.bind_eq_error.2 (.inl (if_neg hmark))⟩

end Decodes

end Layout

open Layout

namespace StandardPoolAccount

def format : Format := [
  ("status", u64), ("nonce", u64), ("max_order", u64), ("depth", u64), ("base_decimal", u64),
  ("quote_decimal", u64), ("state", u64), ("reset_flag", u64), ("min_size", u64),
  ("vol_max_cut_ratio", u64), ("amount_wave_ratio", u64), ("base_lot_size", u64),
  ("quote_lot_size", u64), ("min_price_multiplier", u64), ("max_price_multiplier", u64),
  ("system_decimal_value", u64), ("min_separate_numerator", u64),
  ("min_separate_denominator", u64), ("trade_fee_numerator", u64), ("trade_fee_denominator", u64),
  ("pnl_numerator", u64), ("pnl_denominator", u64), ("swap_fee_numerator", u64),
  ("swap_fee_denominator", u64), ("base_need_take_pnl", u64), ("quote_need_take_pnl", u64),
  ("quote_total_pnl", u64), ("base_total_pnl", u64), ("pool_open_time", u64),
  ("punish_pc_amount", u64), ("punish_coin_amount", u64), ("orderbook_to_init_time", u64),
  ("swap_base_in_amount", u128), ("swap_quote_out_amount", u128), ("swap_base2quote_fee", u64),
  ("swap_quote_in_amount", u128), ("swap_base_out_amount", u128), ("swap_quote2base_fee", u64),
  ("base_vault", .address), ("quote_vault", .address), ("base_mint", .address),
  ("quote_mint", .address), ("lp_mint", .address), ("open_orders", .address),
  ("market_id", .address), ("market_program_id", .address), ("target_orders", .address),
  ("withdraw_queue", .address), ("lp_vault", .address), ("owner", .address), ("lp_reserve", u64),
  ("padding_0", u64), ("padding_1", u64), ("padding_2", u64)]

/-- The fields that are read. -/
def ofValues (v : Values) : StandardPoolAccount where
  status := v.unsigned "status" 8
  baseDecimal := v.unsigned "base_decimal" 8
  quoteDecimal := v.unsigned "quote_decimal" 8
  swapFeeNumerator := v.unsigned "swap_fee_numerator" 8
  swapFeeDenominator := v.unsigned "swap_fee_denominator" 8
  baseNeedTakePnl := v.unsigned "base_need_take_pnl" 8
  quoteNeedTakePnl := v.unsigned "quote_need_take_pnl" 8
  baseVault := v.address "base_vault"
  quoteVault := v.address "quote_vault"
  baseMint := v.address "base_mint"
  quoteMint := v.address "quote_mint"
  lpMint := v.address "lp_mint"
  openOrders := v.address "open_orders"
  marketId := v.address "market_id"
  marketProgramId := v.address "market_program_id"
  targetOrders := v.address "target_orders"
  owner := v.address "owner"

theorem run_layout (v : Values) (rest : Bytes) :
    layout.run (format.encode v ++ rest) = some (ofValues v, rest) := by
  simp (disch := decide) only [layout, format, Format.encode_cons, Format.encode_nil,
    List.append_assoc, List.nil_append, FieldReader.run_unsigned_bind, FieldReader.run_address_bind,
    FieldReader.run_skip_field_bind, Kind.size, Nat.reduceSub, FieldReader.run_skip_zero_bind]
  rfl

set_option synthInstance.maxSize 1000 in
instance : FieldReader.FixedSize layout 752 := by
  unfold layout
  exact .of_eq rfl

theorem decodes : Decodes decode [] format (· = []) ofValues (·.length = 752) where
  distinct := by decide
  decode_encode v rest address hrest := by
    have hlength : (format.encode v).length = size := Format.length_encode format v
    rw [hrest, List.append_nil, List.nil_append, decode, if_neg (Decidable.not_not.2 hlength)]
    have hrun := run_layout v []
    rw [List.append_nil] at hrun
    exact read_eq_ok_of_run hrun _ address
  decode_eq_ok_iff raw address := by
    unfold decode
    split
    case isTrue hother => exact ⟨nofun, fun hsize => absurd hsize hother⟩
    case isFalse hsize =>
      rw [Decidable.not_not] at hsize
      exact ⟨fun _ => hsize, fun _ => exists_read (Nat.le_of_eq hsize.symm) _ address⟩
  decode_eq_error raw address hother := ⟨_, if_pos hother⟩

end StandardPoolAccount

namespace TokenAccount

def format : Format := [("mint", .address), ("owner", .address), ("amount", u64), ("rest", .raw 93)]

theorem run_layout (v : Values) (rest : Bytes) :
    layout.run (format.encode v ++ rest) = some (v.unsigned "amount" 8, rest) := by
  simp (disch := decide) only [layout, format, Format.encode_cons, Format.encode_nil,
    List.append_assoc, List.nil_append, FieldReader.run_unsigned_bind,
    FieldReader.run_skip_field_bind, Kind.size, Nat.reduceSub, FieldReader.run_skip_zero_bind]
  rfl

instance : FieldReader.FixedSize layout 165 := by
  unfold layout
  exact .of_eq rfl

theorem decodes : Decodes decodeAmount [] format (fun _ => True) (·.unsigned "amount" 8)
    (165 ≤ ·.length) where
  distinct := by decide
  decode_encode v rest address _ := by
    have hlength : size ≤ (format.encode v ++ rest).length := by
      rw [List.length_append, Format.length_encode]
      exact Nat.le_add_right _ _
    rw [List.nil_append, decodeAmount, if_neg (Nat.not_lt.2 hlength)]
    exact read_eq_ok_of_run (run_layout v rest) _ address
  decode_eq_ok_iff raw address := by
    unfold decodeAmount
    split
    case isTrue hshort => exact ⟨nofun, fun hsize => absurd hshort (Nat.not_lt.2 hsize)⟩
    case isFalse hsize =>
      have hsize : 165 ≤ raw.length := Nat.not_lt.1 hsize
      exact ⟨fun _ => hsize, fun _ => exists_read hsize _ address⟩
  decode_eq_error raw address hshort := ⟨_, if_pos (Nat.lt_of_not_le hshort)⟩

end TokenAccount

namespace ConcentratedPoolAccount

def format : Format := [
  ("bump", u8), ("amm_config", .address), ("owner", .address), ("token_mint_0", .address),
  ("token_mint_1", .address), ("token_vault_0", .address), ("token_vault_1", .address),
  ("observation_key", .address), ("mint_decimals_0", u8), ("mint_decimals_1", u8),
  ("tick_spacing", u16), ("liquidity", u128), ("sqrt_price_x64", u128), ("tick_current", i32)]

/-- The fields that are read. -/
def ofValues (v : Values) : ConcentratedPoolAccount where
  ammConfig := v.address "amm_config"
  mint0 := v.address "token_mint_0"
  mint1 := v.address "token_mint_1"
  vault0 := v.address "token_vault_0"
  vault1 := v.address "token_vault_1"
  observationKey := v.address "observation_key"
  decimals0 := v.unsigned "mint_decimals_0" 1
  decimals1 := v.unsigned "mint_decimals_1" 1
  tickSpacing := v.unsigned "tick_spacing" 2
  liquidity := v.unsigned "liquidity" 16
  sqrtPrice := v.unsigned "sqrt_price_x64" 16
  tickCurrent := v.signed "tick_current" 4

theorem discriminator_eq : discriminator = [247, 237, 227, 245, 215, 195, 222, 70] := by
  decide +kernel

theorem run_layout (v : Values) (rest : Bytes) :
    layout.run (discriminator ++ (format.encode v ++ rest)) = some (ofValues v, rest) := by
  have hmark : discriminator.length = 8 := length_discriminator _
  rw [layout, FieldReader.run_skip_append_bind (by rw [hmark]; decide), hmark]
  simp (disch := decide) only [format, Format.encode_cons, Format.encode_nil, List.append_assoc,
    List.nil_append, FieldReader.run_unsigned_bind, FieldReader.run_signed_bind,
    FieldReader.run_address_bind, FieldReader.run_skip_field_bind, Kind.size, Nat.reduceSub,
    FieldReader.run_skip_zero_bind]
  rfl

set_option synthInstance.maxSize 1000 in
instance : FieldReader.FixedSize layout 273 := by
  unfold layout
  exact .of_eq rfl

theorem decodes : Decodes decode discriminator format (fun _ => True) ofValues
    fun raw => 273 ≤ raw.length ∧ raw.take 8 = discriminator :=
  decodes_of_discriminator _ _ (by decide) run_layout

end ConcentratedPoolAccount

namespace FeeConfigAccount

def format : Format := [
  ("bump", u8), ("index", u16), ("owner", .address), ("protocol_fee_rate", u32),
  ("trade_fee_rate", u32), ("tick_spacing", u16), ("fund_fee_rate", u32), ("padding_u32", u32),
  ("fund_owner", .address), ("padding_0", u64), ("padding_1", u64), ("padding_2", u64)]

theorem discriminator_eq : discriminator = [218, 244, 33, 104, 203, 203, 43, 111] := by
  decide +kernel

theorem run_layout (v : Values) (rest : Bytes) :
    layout.run (discriminator ++ (format.encode v ++ rest)) =
      some (v.unsigned "trade_fee_rate" 4, rest) := by
  have hmark : discriminator.length = 8 := length_discriminator _
  rw [layout, FieldReader.run_skip_append_bind (by rw [hmark]; decide), hmark]
  simp (disch := decide) only [format, Format.encode_cons, Format.encode_nil, List.append_assoc,
    List.nil_append, FieldReader.run_unsigned_bind, FieldReader.run_skip_field_bind, Kind.size,
    Nat.reduceSub, FieldReader.run_skip_zero_bind]
  rfl

instance : FieldReader.FixedSize layout 117 := by
  unfold layout
  exact .of_eq rfl

theorem decodes : Decodes decodeFeeRate discriminator format (fun _ => True)
    (·.unsigned "trade_fee_rate" 4) fun raw => 117 ≤ raw.length ∧ raw.take 8 = discriminator :=
  decodes_of_discriminator _ _ (by decide) run_layout

end FeeConfigAccount

/-- The decoders of the fixed accounts undo their writing, whatever stands in the fields that they do
not read, and accept an account by its size and its discriminator alone. The discriminators are the
eight bytes that mark accounts of their kind. -/
theorem accounts_decode :
    Decodes StandardPoolAccount.decode [] StandardPoolAccount.format (· = [])
      StandardPoolAccount.ofValues (·.length = 752) ∧
    Decodes TokenAccount.decodeAmount [] TokenAccount.format (fun _ => True)
      (·.unsigned "amount" 8) (165 ≤ ·.length) ∧
    Decodes ConcentratedPoolAccount.decode ConcentratedPoolAccount.discriminator
      ConcentratedPoolAccount.format (fun _ => True) ConcentratedPoolAccount.ofValues
      (fun raw => 273 ≤ raw.length ∧ raw.take 8 = ConcentratedPoolAccount.discriminator) ∧
    Decodes FeeConfigAccount.decodeFeeRate FeeConfigAccount.discriminator FeeConfigAccount.format
      (fun _ => True) (·.unsigned "trade_fee_rate" 4)
      (fun raw => 117 ≤ raw.length ∧ raw.take 8 = FeeConfigAccount.discriminator) ∧
    ConcentratedPoolAccount.discriminator = [247, 237, 227, 245, 215, 195, 222, 70] ∧
    FeeConfigAccount.discriminator = [218, 244, 33, 104, 203, 203, 43, 111] :=
  ⟨StandardPoolAccount.decodes, TokenAccount.decodes, ConcentratedPoolAccount.decodes,
    FeeConfigAccount.decodes, ConcentratedPoolAccount.discriminator_eq,
    FeeConfigAccount.discriminator_eq⟩

end PoolSwap
