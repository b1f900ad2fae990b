import PoolSwap.Layout.Mint
import PoolSwap.Proofs.Layout.Accounts

/-! The transfer fees of a mint, among its other extensions. The scan goes from entry to entry by the
lengths that these declare, whatever the bytes are. Either it comes to a fee entry, which it reads or
refuses by its size, or the entries end before. -/
namespace PoolSwap.Mint

open Layout

/-- What stands in front of an entry: its type and the length of its value. -/
def header (type length : u16.Value) : Bytes := u16.encode type ++ u16.encode length

/-- An extension of a mint. -/
structure Entry where
  type : u16.Value
  value : Bytes
  length_lt : value.length < LittleEndian.capacity 2

def Entry.encode (e : Entry) : Bytes := header e.type ⟨e.value.length, e.length_lt⟩ ++ e.value

/-- The fee from an epoch on. -/
structure Period where
  epoch : u64.Value
  maximum : u64.Value
  basisPoints : u16.Value

namespace Period

def encode (p : Period) : Bytes :=
  u64.encode p.epoch ++ u64.encode p.maximum ++ u16.encode p.basisPoints

def fee (p : Period) : TransferFee := ⟨p.basisPoints.1, p.maximum.1⟩

end Period

/-- What a fee entry holds. The authorities and the amount withheld so far are not read. -/
structure FeeRecord where
  configAuthority : Kind.address.Value
  withdrawAuthority : Kind.address.Value
  withheld : u64.Value
  older : Period
  newer : Period

namespace FeeRecord

def encode (r : FeeRecord) : Bytes :=
  Kind.address.encode r.configAuthority ++ Kind.address.encode r.withdrawAuthority ++
    u64.encode r.withheld ++ r.older.encode ++ r.newer.encode

def config (r : FeeRecord) : TransferFeeConfig :=
  ⟨r.older.epoch.1, r.older.fee, r.newer.epoch.1, r.newer.fee⟩

end FeeRecord

section Layouts

theorem run_headerLayout (type length : u16.Value) (rest : Bytes) :
    headerLayout.run (header type length ++ rest) = some ((type.1, length.1), rest) := by
  simp only [headerLayout, header, List.append_assoc, FieldReader.run_unsigned_bind]
  rfl

theorem run_feeLayout (p : Period) (rest : Bytes) :
    feeLayout.run (p.encode ++ rest) = some ((p.epoch.1, p.fee), rest) := by
  simp only [feeLayout, Period.encode, List.append_assoc, FieldReader.run_unsigned_bind]
  rfl

theorem run_configLayout (r : FeeRecord) (rest : Bytes) :
    configLayout.run (r.encode ++ rest) = some (r.config, rest) := by
  simp (disch := decide) only [configLayout, FeeRecord.encode, List.append_assoc,
    FieldReader.run_skip_field_bind, Kind.size, Nat.reduceSub, FieldReader.run_skip_zero_bind]
  rw [FieldReader.run_bind_of_eq (run_feeLayout r.older _),
    FieldReader.run_bind_of_eq (run_feeLayout r.newer _)]
  rfl

instance : FieldReader.FixedSize feeLayout 18 := by
  unfold feeLayout
  exact .of_eq rfl

instance : FieldReader.FixedSize configLayout 108 := by
  unfold configLayout
  exact .of_eq rfl

end Layouts

/-- Where a scan gets to: where it starts, or behind an entry that is neither unused nor a fee entry. -/
inductive Reaches : Bytes → Bytes → Prop
  | refl (s : Bytes) : Reaches s s
  | skip {type length : u16.Value} {rest s : Bytes} (other : 2 ≤ type.1)
      (onward : Reaches (rest.drop length.1) s) : Reaches (header type length ++ rest) s

/-- Where a scan ends without a fee entry: no header is left, or the next entry is unused or runs past
the end. -/
inductive Ends : Bytes → Prop
  | short {s : Bytes} (h : s.length < 4) : Ends s
  | unused {type : u16.Value} (h : type.1 = 0) (length : u16.Value) (rest : Bytes) :
      Ends (header type length ++ rest)
  | overrun {type length : u16.Value} {rest : Bytes} (other : 2 ≤ type.1)
      (h : rest.length < length.1) : Ends (header type length ++ rest)

/-- A fee entry at the front of some bytes, with its declared length and all that follows its header. -/
inductive FeeEntry : Bytes → Nat → Bytes → Prop
  | mk {type : u16.Value} (h : type.1 = 1) (length : u16.Value) (rest : Bytes) :
      FeeEntry (header type length ++ rest) length.1 rest

/-- Bytes whose scan comes to a fee entry that is cut off, by its length or by the end. -/
inductive Cut (s : Bytes) : Prop
  | mk {t rest : Bytes} {n : Nat} (reached : Reaches s t) (fee : FeeEntry t n rest)
      (short : n < 108 ∨ rest.length < 108) : Cut s

/-- Accounts whose fees cannot be read: no mints, accounts of another type, and mints with a fee entry
that is cut off. -/
inductive Refused (raw : Bytes) : Prop
  | short (h : raw.length < 82) : Refused raw
  | mark {mark : UInt8} (h : raw[165]? = some mark) (other : mark ≠ 1) : Refused raw
  | cut (h : Cut (raw.drop 166)) : Refused raw

section Scan

variable {address : Option String} {s t rest : Bytes} {type length : u16.Value}

/-- Enough bytes for a header hold one. -/
theorem exists_header (h : 4 ≤ s.length) : ∃ type length rest, s = header type length ++ rest := by
  have hunsigned (bs : Bytes) (hlong : 2 ≤ bs.length) :
      ∃ x : u16.Value, bs = u16.encode x ++ bs.drop 2 := by
    have hlength : (bs.take 2).length = 2 := List.length_take_of_le hlong
    have hlt := LittleEndian.decode_lt (bs.take 2)
    have hencode := LittleEndian.encode_decode (bs.take 2)
    rw [hlength] at hlt hencode
    refine ⟨⟨_, hlt⟩, ?_⟩
    change bs = LittleEndian.encode 2 (LittleEndian.decode (bs.take 2)) ++ bs.drop 2
    rw [hencode, List.take_append_drop]
  obtain ⟨type, htype⟩ := hunsigned s (by omega)
  obtain ⟨length, hlength⟩ := hunsigned (s.drop 2) (by rw [List.length_drop]; omega)
  refine ⟨type, length, (s.drop 2).drop 2, ?_⟩
  rw [header, List.append_assoc, ← hlength, ← htype]

theorem length_header (type length : u16.Value) : (header type length).length = headerSize := by
  simp [header, Kind.size, headerSize]

/-- One round of the scan. -/
theorem scan_header (type length : u16.Value) (rest : Bytes) :
    scan address (header type length ++ rest) =
      if type.1 = 0 then .ok none
      else if type.1 = 1 then (Layout.read configLayout (rest.take length.1) "transfer fee config"
        address).map some
      else scan address (rest.drop length.1) := by
  have hfront : headerLayout.front? (header type length ++ rest) = some (type.1, length.1) :=
    FieldReader.front?_eq_some.2 ⟨rest, run_headerLayout type length rest⟩
  have hlong : ¬(header type length ++ rest).length < headerSize := by
    rw [List.length_append, length_header]
    omega
  have hdrop (n : Nat) : (header type length ++ rest).drop (headerSize + n) = rest.drop n := by
    rw [← List.drop_drop, List.drop_left' (length_header type length)]
  rw [scan, dif_neg hlong, hfront]
  simp only [hdrop, uninitializedType, transferFeeType]
  rw [List.drop_left' (length_header type length)]

theorem scan_of_other (other : 2 ≤ type.1) :
    scan address (header type length ++ rest) = scan address (rest.drop length.1) := by
  rw [scan_header, if_neg (by omega), if_neg (by omega)]

theorem scan_of_short (h : s.length < headerSize) : scan address s = .ok none := by
  rw [scan, dif_pos h]

theorem scan_of_ends (h : Ends s) : scan address s = .ok none := by
  cases h with
  | short h => exact scan_of_short h
  | unused h length rest => rw [scan_header, if_pos h]
  | overrun other h =>
    rw [scan_of_other other]
    apply scan_of_short
    rw [List.length_drop, headerSize]
    omega

theorem scan_of_feeEntry {n : Nat} (h : FeeEntry s n rest) : scan address s =
    (Layout.read configLayout (rest.take n) "transfer fee config" address).map some := by
  cases h with
  | mk h length rest => rw [scan_header, if_neg (by omega), if_pos h]

/-- What a scan returns is decided where it gets to. -/
theorem scan_of_reaches (h : Reaches s t) : scan address s = scan address t := by
  induction h with
  | refl => rfl
  | skip other onward ih => rw [scan_of_other other, ih]

/-- Every entry shortens what is left, so a scan of any bytes comes to an end or to a fee entry. -/
theorem exists_reached (s : Bytes) :
    ∃ t, Reaches s t ∧ (Ends t ∨ ∃ n rest, FeeEntry t n rest) := by
  induction hsize : s.length using Nat.strongRecOn generalizing s with
  | _ size ih =>
    by_cases hshort : s.length < 4
    · exact ⟨s, .refl s, .inl (.short hshort)⟩
    obtain ⟨type, length, rest, rfl⟩ := exists_header (Nat.not_lt.1 hshort)
    by_cases hunused : type.1 = 0
    · exact ⟨_, .refl _, .inl (.unused hunused length rest)⟩
    by_cases hfee : type.1 = 1
    · exact ⟨_, .refl _, .inr ⟨_, _, .mk hfee length rest⟩⟩
    have hother : 2 ≤ type.1 := by omega
    have hless : (rest.drop length.1).length < size := by
      rw [List.length_append, length_header, headerSize] at hsize
      rw [List.length_drop]
      omega
    obtain ⟨t, honward, hend⟩ := ih _ hless _ rfl
    exact ⟨t, .skip hother honward, hend⟩

theorem scan_of_cut (h : Cut s) :
    scan address s = .error (.stateRead address (.layout "transfer fee config")) := by
  obtain @⟨t, rest, n, hreach, hfee, hcut⟩ := h
  have hshort : (rest.take n).length < 108 := by
    rw [List.length_take]
    omega
  rw [scan_of_reaches hreach, scan_of_feeEntry hfee, read_of_lt hshort]
  rfl

theorem exists_scan_of_not_cut (h : ¬Cut s) : ∃ found, scan address s = .ok found := by
  obtain ⟨t, hreach, hends | ⟨n, rest, hfee⟩⟩ := exists_reached s
  · exact ⟨none, (scan_of_reaches hreach).trans (scan_of_ends hends)⟩
  · have hlong : 108 ≤ (rest.take n).length := by
      rw [List.length_take]
      refine Nat.le_of_not_lt fun hshort => h ⟨hreach, hfee, ?_⟩
      omega
    obtain ⟨c, hread⟩ : ∃ c, read configLayout (rest.take n) "transfer fee config" address = .ok c :=
      exists_read hlong _ _
    refine ⟨some c, ?_⟩
    rw [scan_of_reaches hreach, scan_of_feeEntry hfee, hread]
    rfl

theorem not_cut_nil : ¬Cut [] := by
  intro h
  have hnone : scan none [] = .ok none := scan_of_short (by decide)
  cases (scan_of_cut h).symm.trans hnone

/-- A whole fee entry is read as it was written. -/
theorem scan_of_record {n : Nat} {r : FeeRecord} (h : FeeEntry s n (r.encode ++ rest))
    (hn : r.encode.length ≤ n) : scan address s = .ok (some r.config) := by
  have htake : (r.encode ++ rest).take n = r.encode ++ rest.take (n - r.encode.length) := by
    rw [List.take_append, List.take_of_length_le hn]
  rw [scan_of_feeEntry h, htake, read_eq_ok_of_run (run_configLayout r _)]
  rfl

theorem reaches_entries {entries : List Entry} (hother : ∀ e ∈ entries, 2 ≤ e.type.1)
    (rest : Bytes) : Reaches (entries.flatMap Entry.encode ++ rest) rest := by
  induction entries with
  | nil => exact .refl rest
  | cons e entries ih =>
    rw [List.forall_mem_cons] at hother
    rw [List.flatMap_cons, Entry.encode, List.append_assoc, List.append_assoc]
    apply Reaches.skip hother.1
    rw [List.drop_left]
    exact ih hother.2

end Scan

section Decode

variable {raw base : Bytes} {address : Option String}

theorem decodeTransferFee_of_short (h : raw.length < 82) : decodeTransferFee raw address =
    .error (.stateRead address (.notMint raw.length)) := if_pos h

/-- A mint without extensions has no fees. -/
theorem decodeTransferFee_of_plain (hlong : 82 ≤ raw.length) (h : raw.length ≤ 165) :
    decodeTransferFee raw address = .ok none := by
  have hmint : ¬raw.length < baseSize := Nat.not_lt.2 hlong
  have hdrop : raw.drop TokenAccount.size = [] := List.drop_eq_nil_of_le h
  rw [decodeTransferFee, if_neg hmint, hdrop]

theorem decodeTransferFee_of_extended (hbase : base.length = 165) (mark : UInt8) (rest : Bytes) :
    decodeTransferFee (base ++ mark :: rest) address =
      if mark = 1 then scan address rest
      else .error (.stateRead address (.accountType mark.toNat)) := by
  have hlong : ¬(base ++ mark :: rest).length < baseSize := by
    rw [List.length_append, hbase, baseSize]
    omega
  have hdrop : (base ++ mark :: rest).drop TokenAccount.size = mark :: rest := List.drop_left' hbase
  have hmark : mark.toNat = mintMark ↔ mark = 1 := UInt8.toNat_inj (b := 1)
  rw [decodeTransferFee, if_neg hlong, hdrop]
  dsimp only
  by_cases h : mark = 1
  · rw [if_pos h, if_neg (Decidable.not_not.2 (hmark.2 h))]
  · rw [if_neg h, if_pos (mt hmark.1 h)]

theorem eq_append_of_lt (h : 165 < raw.length) :
    raw = raw.take 165 ++ raw[165] :: raw.drop 166 := by
  rw [← List.drop_eq_getElem_cons h, List.take_append_drop]

/-- The fees of an account are refused exactly for one of the three reasons. -/
theorem decodeTransferFee_total (raw : Bytes) (address : Option String) :
    (Refused raw → ∃ cause, decodeTransferFee raw address = .error (.stateRead address cause)) ∧
    (¬Refused raw → ∃ found, decodeTransferFee raw address = .ok found) := by
  by_cases hshort : raw.length < 82
  · exact ⟨fun _ => ⟨_, decodeTransferFee_of_short hshort⟩, fun h => absurd (.short hshort) h⟩
  by_cases hplain : raw.length ≤ 165
  · refine ⟨fun h => ?_, fun _ => ⟨_, decodeTransferFee_of_plain (Nat.not_lt.1 hshort) hplain⟩⟩
    cases h with
    | short h => exact absurd h hshort
    | mark h =>
      rw [List.getElem?_eq_none hplain] at h
      cases h
    | cut h =>
      rw [List.drop_eq_nil_of_le (by omega)] at h
      exact absurd h not_cut_nil
  have hextended : 165 < raw.length := Nat.not_le.1 hplain
  have hbase : (raw.take 165).length = 165 := List.length_take_of_le (Nat.le_of_lt hextended)
  have hdecode : decodeTransferFee raw address = if raw[165] = 1 then scan address (raw.drop 166)
      else .error (.stateRead address (.accountType raw[165].toNat)) := by
    rw [← decodeTransferFee_of_extended hbase, ← eq_append_of_lt hextended]
  have hmark : raw[165]? = some raw[165] := List.getElem?_eq_getElem hextended
  by_cases hmint : raw[165] = 1
  · rw [hdecode, if_pos hmint]
    refine ⟨fun h => ?_, fun h => exists_scan_of_not_cut fun hcut => h (.cut hcut)⟩
    cases h with
    | short h => exact absurd h hshort
    | mark h other =>
      cases hmark.symm.trans h
      exact absurd hmint other
    | cut h => exact ⟨_, scan_of_cut h⟩
  · rw [hdecode, if_neg hmint]
    exact ⟨fun _ => ⟨_, rfl⟩, fun h => absurd (.mark hmark hmint) h⟩

end Decode

/-- The fees of a mint are found behind any other extensions, and are those that were written. They are
missing where the entries end before, at an unused one, at the last bytes or at one that runs past the
end. For any other bytes the scan comes to one of these places too, and the account is refused exactly if
it is no mint or its fee entry is cut off. -/
theorem transferFee_found_or_refused (address : Option String) :
    (∀ (base : Bytes) (entries : List Entry) (fee : Entry) (record : FeeRecord)
      (spare trailing : Bytes), base.length = 165 → (∀ e ∈ entries, 2 ≤ e.type.1) →
      fee.type.1 = 1 → fee.value = record.encode ++ spare →
      decodeTransferFee (base ++ 1 :: (entries.flatMap Entry.encode ++ (fee.encode ++ trailing)))
        address = .ok (some record.config)) ∧
    (∀ (record : FeeRecord) (epoch : Int), record.config.inEpoch epoch =
      if record.newer.epoch.1 ≤ epoch then record.newer.fee else record.older.fee) ∧
    (∀ (base rest t : Bytes), base.length = 165 → Reaches rest t → Ends t →
      decodeTransferFee (base ++ 1 :: rest) address = .ok none) ∧
    (∀ raw, 82 ≤ raw.length → raw.length ≤ 165 → decodeTransferFee raw address = .ok none) ∧
    (∀ rest, ∃ t, Reaches rest t ∧ (Ends t ∨ ∃ n after, FeeEntry t n after)) ∧
    ∀ raw,
      (Refused raw → ∃ cause, decodeTransferFee raw address = .error (.stateRead address cause)) ∧
      (¬Refused raw → ∃ found, decodeTransferFee raw address = .ok found) := by
  refine ⟨?_, fun _ _ => rfl, ?_, fun _ => decodeTransferFee_of_plain, exists_reached,
    fun raw => decodeTransferFee_total raw address⟩
  · intro base entries fee record spare trailing hbase hother hfee hvalue
    have hentry : FeeEntry (fee.encode ++ trailing) fee.value.length
        (record.encode ++ (spare ++ trailing)) := by
      rw [← List.append_assoc, ← hvalue, Entry.encode, List.append_assoc]
      exact .mk hfee ⟨fee.value.length, fee.length_lt⟩ (fee.value ++ trailing)
    have hwhole : record.encode.length ≤ fee.value.length := by
      rw [hvalue, List.length_append]
      omega
    rw [decodeTransferFee_of_extended hbase, if_pos rfl, scan_of_reaches (reaches_entries hother _),
      scan_of_record hentry hwhole]
  · intro base rest t hbase hreach hends
    rw [decodeTransferFee_of_extended hbase, if_pos rfl, scan_of_reaches hreach, scan_of_ends hends]

/-- The fees of two periods. -/
def raised : FeeRecord where
  configAuthority := .ofNat 1
  withdrawAuthority := .ofNat 2
  withheld := ⟨5, by decide +kernel⟩
  older := ⟨⟨10, by decide +kernel⟩, ⟨1000, by decide +kernel⟩, ⟨50, by decide +kernel⟩⟩
  newer := ⟨⟨20, by decide +kernel⟩, ⟨2000, by decide +kernel⟩, ⟨75, by decide +kernel⟩⟩

theorem feeType_lt_capacity : 1 < LittleEndian.capacity 2 := by decide

/-- The fee entry of `raised`, two bytes longer than it has to be. -/
def raisedEntry : Entry where
  type := ⟨1, feeType_lt_capacity⟩
  value := raised.encode ++ [9, 9]
  length_lt := by decide +kernel

/-- Two other entries, one of them empty. -/
def others : List Entry :=
  [⟨⟨2, by decide +kernel⟩, [], by decide +kernel⟩,
    ⟨⟨16, by decide +kernel⟩, [1, 0, 7], by decide +kernel⟩]

/-- Fees behind two entries, none behind the same entries and a header that is cut off, and an account
that is too short for a mint. -/
theorem transferFee_found_or_refused_behind :
    let base : Bytes := List.replicate 165 0
    (base.length = 165 ∧ (∀ e ∈ others, 2 ≤ e.type.1) ∧ raisedEntry.type.1 = 1 ∧
      raisedEntry.value = raised.encode ++ [9, 9]) ∧
    decodeTransferFee (base ++ 1 :: (others.flatMap Entry.encode ++ (raisedEntry.encode ++ [1, 0])))
      none = .ok (some ⟨10, ⟨50, 1000⟩, 20, ⟨75, 2000⟩⟩) ∧
    decodeTransferFee (base ++ 1 :: (others.flatMap Entry.encode ++ [1, 0, 108])) none = .ok none ∧
    decodeTransferFee (List.replicate 82 0) none = .ok none ∧
    Refused (List.replicate 81 0) ∧
    ∃ cause, decodeTransferFee (List.replicate 81 0) none = .error (.stateRead none cause) := by
  intro base
  have hbase : base.length = 165 := List.length_replicate
  have hothers : ∀ e ∈ others, 2 ≤ e.type.1 := by decide +kernel
  have hrefused : Refused (List.replicate 81 0) := .short (by decide)
  obtain ⟨hfound, -, hmissing, hplain, -, htotal⟩ := transferFee_found_or_refused none
  refine ⟨⟨hbase, hothers, rfl, rfl⟩, ?_, ?_, hplain _ (by decide) (by decide), hrefused,
    (htotal _).1 hrefused⟩
  · exact hfound base others raisedEntry raised [9, 9] [1, 0] hbase hothers rfl rfl
  · exact hmissing base _ _ hbase (reaches_entries hothers [1, 0, 108]) (.short (by decide))

end PoolSwap.Mint
