import PoolSwap.Pool.Keys
import PoolSwap.Proofs.Payload.Shown
import Mathlib.Tactic.Simproc.ExistsAndEq

/-! Reading the entries of a directory. Keys are read from exactly the entries that publish every
account of a pool of one of the two programs, and summaries from exactly those with the fields of
one. Every other entry is refused as malformed, unless a number in it is too large for the form it
is read into, or a value in it that is to be written cannot be. -/
namespace PoolSwap

namespace Payload

/-- The value at the end of a path of field names. -/
def at? (p : Payload) : List String → Option Payload
  | [] => some p
  | name :: path => (p.field? name).bind (·.at? path)

def address? : Payload → Option Address
  | .text s => Address.ofText? s
  | _ => none

def addressAt? (p : Payload) (path : List String) : Option Address := (p.at? path).bind address?

/-- The address in a value that may be absent, null or empty. -/
def IsOptional (p : Option Payload) (a : Option Address) : Prop :=
  match p.filter isGiven with
  | some v => ∃ b, v.address? = some b ∧ a = some b
  | none => a = none

variable {p v : Payload} {name : String} {path : List String} {lacks : String → DiscoveryCause}
  {malformed : DiscoveryCause} {a : Address}

theorem required_eq_ok : required lacks malformed p name = .ok v ↔ p.field? name = some v := by
  cases p with
  | record fields =>
    unfold required field?
    dsimp only
    cases lookup name fields <;> simp
  | _ => simp [required, field?]

theorem at?_cons_eq_some :
    p.at? (name :: path) = some v ↔ ∃ w, p.field? name = some w ∧ w.at? path = some v :=
  Option.bind_eq_some_iff

theorem at?_of_field? (h : p.field? name = some v) : p.at? (name :: path) = v.at? path := by
  rw [at?, h, Option.bind_some]

theorem at?_singleton : p.at? [name] = p.field? name := Option.bind_fun_some _

@[simp] theorem addressAt?_nil (p : Payload) : p.addressAt? [] = p.address? := rfl

theorem addressAt?_cons_eq_some : p.addressAt? (name :: path) = some a ↔
    ∃ w, p.field? name = some w ∧ w.addressAt? path = some a := by
  unfold addressAt?
  rw [at?, Option.bind_assoc, Option.bind_eq_some_iff]

theorem isSome_field?_of_addressAt? (h : p.addressAt? (name :: path) = some a) :
    (p.field? name).isSome := by
  obtain ⟨w, hw, -⟩ := addressAt?_cons_eq_some.1 h
  rw [hw]
  rfl

end Payload

/-- Faults that an answer of the directory is refused with. -/
inductive Fault.IsDiscovery : Fault → Prop
  | discovery (cause : DiscoveryCause) : IsDiscovery (.discovery cause)

open Checked Fault Payload

theorem Payload.required_isDiscovery (lacks : String → DiscoveryCause) (malformed : DiscoveryCause)
    (p : Payload) (name : String) : FailsWith IsDiscovery (required lacks malformed p name) := by
  unfold required
  split
  · split
    · exact failsWith_ok _
    · exact failsWith_error (.discovery _)
  · exact failsWith_error (.discovery _)

/-- The accounts that keys name, each with the path where an entry publishes it. -/
def StandardKeys.accounts (k : StandardKeys) : List (List String × Address) :=
  [(["programId"], k.programId), (["id"], k.id), (["mintA", "address"], k.mintA),
    (["mintB", "address"], k.mintB), (["vault", "A"], k.vaultA), (["vault", "B"], k.vaultB),
    (["authority"], k.authority), (["openOrders"], k.openOrders),
    (["targetOrders"], k.targetOrders), (["marketProgramId"], k.marketProgramId),
    (["marketId"], k.marketId), (["marketAuthority"], k.marketAuthority),
    (["marketBaseVault"], k.marketBaseVault), (["marketQuoteVault"], k.marketQuoteVault),
    (["marketBids"], k.marketBids), (["marketAsks"], k.marketAsks),
    (["marketEventQueue"], k.marketEventQueue)]

namespace ConcentratedKeys

def accounts (k : ConcentratedKeys) : List (List String × Address) :=
  [(["programId"], k.programId), (["id"], k.id), (["mintA", "address"], k.mintA),
    (["mintB", "address"], k.mintB), (["vault", "A"], k.vaultA), (["vault", "B"], k.vaultB),
    (["config", "id"], k.ammConfig), (["observationId"], k.observationId)]

def optionalAccounts (k : ConcentratedKeys) : List (List String × Option Address) :=
  [(["exBitmapAccount"], k.exBitmap), (["mintA", "programId"], k.mintProgramA),
    (["mintB", "programId"], k.mintProgramB)]

end ConcentratedKeys

namespace PoolKeys

/-- Whether an entry publishes keys: they are those of its program, and name exactly the accounts in
its fields. Tick arrays are not published. -/
inductive PublishedBy (entry : Payload) : PoolKeys → Prop
  | standard {k : StandardKeys} (program : k.programId = .standardPoolProgram)
      (accounts : ∀ x ∈ k.accounts, entry.addressAt? x.1 = some x.2) :
      PublishedBy entry (.standard k)
  | concentrated {k : ConcentratedKeys} (program : k.programId = .concentratedPoolProgram)
      (accounts : ∀ x ∈ k.accounts, entry.addressAt? x.1 = some x.2)
      (optional : ∀ x ∈ k.optionalAccounts, IsOptional (entry.at? x.1) x.2)
      (tickArrays : k.tickArrays = []) : PublishedBy entry (.concentrated k)

variable {levels : Nat} {entry vault v : Payload} {keys : PoolKeys} {a programId : Address}
  {o : Option Address} {label name inner : String} {path : List String}

section Read

theorem address_eq_ok {p : Payload} : address levels label p = .ok a ↔ p.address? = some a := by
  have hrefused : refuseAddress levels label p ≠ .ok a := by
    unfold refuseAddress
    simp [bind_eq_ok]
  cases p with
  | text s =>
    unfold address Payload.address?
    dsimp only
    cases Address.ofText? s <;> simp [hrefused]
  | _ => simp [address, Payload.address?, hrefused]

theorem addressIn_eq_ok :
    addressIn levels entry name label = .ok a ↔ entry.addressAt? [name] = some a := by
  unfold addressIn entryField
  simp only [bind_eq_ok, required_eq_ok, address_eq_ok, addressAt?_cons_eq_some, addressAt?_nil]

theorem addressAt_eq_ok :
    addressAt levels entry name = .ok a ↔ entry.addressAt? [name] = some a := addressIn_eq_ok

theorem addressWithin_eq_ok :
    addressWithin levels entry name inner label = .ok a ↔ entry.addressAt? [name, inner] = some a := by
  unfold addressWithin entryField
  simp only [bind_eq_ok, required_eq_ok, addressIn_eq_ok, addressAt?_cons_eq_some]

theorem addressAt?_vault (hvault : entry.field? "vault" = some vault) {side : String} :
    entry.addressAt? ["vault", side] = some a ↔ vault.addressAt? [side] = some a := by
  rw [addressAt?_cons_eq_some, hvault]
  simp only [Option.some.injEq, exists_eq_left']

theorem optionalAddress_eq_ok {p : Option Payload} :
    optionalAddress levels label p = .ok o ↔ IsOptional p o := by
  unfold optionalAddress IsOptional
  cases p.filter isGiven with
  | some v =>
    simp only [map_eq_ok, address_eq_ok]
    exact exists_congr fun b => and_congr_right fun _ => eq_comm
  | none => exact Except.ok.injEq none o ▸ eq_comm

theorem optionalAddress_field_eq_ok :
    optionalAddress levels label (entry.field? name) = .ok o ↔ IsOptional (entry.at? [name]) o := by
  rw [optionalAddress_eq_ok, at?_singleton]

theorem mintProgram_eq_ok {mint : String} : mintProgram levels entry mint = .ok o ↔
    (entry.field? mint).isSome ∧ IsOptional (entry.at? [mint, "programId"]) o := by
  unfold mintProgram entryField
  simp only [bind_eq_ok, required_eq_ok, optionalAddress_eq_ok, at?,
    Option.bind_fun_some]
  cases entry.field? mint with
  | some v => simp
  | none => simp

/-- Keys of the standard program are read account by account. -/
theorem standardOfEntry_eq_ok {k : StandardKeys} (hvault : entry.field? "vault" = some vault)
    (hprogram : entry.addressAt? ["programId"] = some programId) :
    standardOfEntry levels programId vault entry = .ok k ↔
      k.programId = programId ∧ ∀ x ∈ k.accounts, entry.addressAt? x.1 = some x.2 := by
  cases k
  unfold standardOfEntry
  simp only [bind_eq_ok, addressAt_eq_ok, addressWithin_eq_ok, addressIn_eq_ok, pure_eq_ok,
    StandardKeys.mk.injEq, existsAndEq, StandardKeys.accounts, List.forall_mem_cons,
    addressAt?_vault hvault, and_true]
  grind

theorem concentratedOfEntry_eq_ok {k : ConcentratedKeys}
    (hvault : entry.field? "vault" = some vault)
    (hprogram : entry.addressAt? ["programId"] = some programId) :
    concentratedOfEntry levels programId vault entry = .ok k ↔
      k.programId = programId ∧ (∀ x ∈ k.accounts, entry.addressAt? x.1 = some x.2) ∧
        (∀ x ∈ k.optionalAccounts, IsOptional (entry.at? x.1) x.2) ∧ k.tickArrays = [] := by
  cases k
  unfold concentratedOfEntry
  simp only [bind_eq_ok, addressAt_eq_ok, addressWithin_eq_ok, addressIn_eq_ok,
    optionalAddress_field_eq_ok, mintProgram_eq_ok, pure_eq_ok, ConcentratedKeys.mk.injEq,
    existsAndEq, ConcentratedKeys.accounts, ConcentratedKeys.optionalAccounts,
    List.forall_mem_cons, addressAt?_vault hvault]
  grind [isSome_field?_of_addressAt?]

theorem program_ne : Address.standardPoolProgram ≠ .concentratedPoolProgram := by decide +kernel

/-- Keys are read for one of the two programs only. -/
theorem ofEntry_eq_ok_iff : ofEntry levels entry = .ok keys ↔
    ∃ programId, entry.addressAt? ["programId"] = some programId ∧
      ∃ vault, entry.field? "vault" = some vault ∧
        ((programId = .concentratedPoolProgram ∧
            ∃ k, concentratedOfEntry levels programId vault entry = .ok k ∧ concentrated k = keys) ∨
          (programId = .standardPoolProgram ∧
            ∃ k, standardOfEntry levels programId vault entry = .ok k ∧ standard k = keys)) := by
  unfold ofEntry entryField
  simp only [bind_eq_ok, addressAt_eq_ok]
  refine exists_congr fun programId => and_congr_right fun _ => ?_
  by_cases hc : programId = .concentratedPoolProgram
  · simp only [hc, program_ne.symm, bind_eq_ok, required_eq_ok, Functor.map, map_eq_ok, ne_eq,
      not_true_eq_false, and_false, if_false, if_true, true_and, false_and, or_false]
  by_cases hs : programId = .standardPoolProgram
  · simp only [hs, program_ne, bind_eq_ok, required_eq_ok, Functor.map, map_eq_ok, ne_eq,
      not_true_eq_false, false_and, if_false, true_and, false_or]
  · simp [hc, hs, bind_eq_ok]

/-- Keys are read from exactly the entries that publish them. -/
theorem ofEntry_eq_ok : ofEntry levels entry = .ok keys ↔ keys.PublishedBy entry := by
  rw [ofEntry_eq_ok_iff]
  constructor
  · rintro ⟨programId, hprogram, vault, hvault, ⟨hc, k, hk, rfl⟩ | ⟨hs, k, hk, rfl⟩⟩
    · obtain ⟨rfl, haccounts, hoptional, harrays⟩ :=
        (concentratedOfEntry_eq_ok hvault hprogram).1 hk
      exact .concentrated hc haccounts hoptional harrays
    · obtain ⟨rfl, haccounts⟩ := (standardOfEntry_eq_ok hvault hprogram).1 hk
      exact .standard hs haccounts
  · rintro (@⟨k, hs, haccounts⟩ | @⟨k, hc, haccounts, hoptional, harrays⟩)
    · have hprogram := haccounts (["programId"], k.programId) (by simp [StandardKeys.accounts])
      obtain ⟨vault, hvault, -⟩ := addressAt?_cons_eq_some.1 <|
        haccounts (["vault", "A"], k.vaultA) (by simp [StandardKeys.accounts])
      exact ⟨_, hprogram, vault, hvault, .inr
        ⟨hs, k, (standardOfEntry_eq_ok hvault hprogram).2 ⟨rfl, haccounts⟩, rfl⟩⟩
    · have hprogram := haccounts (["programId"], k.programId) (by simp [ConcentratedKeys.accounts])
      obtain ⟨vault, hvault, -⟩ := addressAt?_cons_eq_some.1 <|
        haccounts (["vault", "A"], k.vaultA) (by simp [ConcentratedKeys.accounts])
      exact ⟨_, hprogram, vault, hvault, .inl ⟨hc, k,
        (concentratedOfEntry_eq_ok hvault hprogram).2 ⟨rfl, haccounts, hoptional, harrays⟩, rfl⟩⟩

end Read

/-! Every other entry is refused. -/
section Refused

/-- Where an entry gives the accounts of a pool of either program. -/
def accountPaths : List (List String) :=
  [["programId"], ["id"], ["mintA", "address"], ["mintB", "address"], ["vault", "A"], ["vault", "B"],
    ["config", "id"], ["observationId"], ["exBitmapAccount"], ["mintA", "programId"],
    ["mintB", "programId"], ["authority"], ["openOrders"], ["targetOrders"], ["marketProgramId"],
    ["marketId"], ["marketAuthority"], ["marketBaseVault"], ["marketQuoteVault"], ["marketBids"],
    ["marketAsks"], ["marketEventQueue"]]

/-- Why no keys are read from an entry: it is malformed, or the message that refuses it would show
what it gives for an account and cannot. What is absent counts as null. -/
inductive Refusal (levels : Nat) (entry : Payload) : Fault → Prop
  | discovery (cause : DiscoveryCause) : Refusal levels entry (.discovery cause)
  | unshowable {path : List String} {rule : Breach} (mem : path ∈ accountPaths)
      (h : ((entry.at? path).getD .null).Unshowable levels rule) :
      Refusal levels entry (.breach rule)

theorem entryField_refusal (levels : Nat) (entry p : Payload) (name : String) :
    FailsWith (Refusal levels entry) (entryField p name) :=
  (required_isDiscovery _ _ p name).mono fun _ ⟨cause⟩ => .discovery cause

theorem address_refusal (levels : Nat) (label : String) (hpath : path ∈ accountPaths)
    (hv : entry.at? path = some v) :
    FailsWith (Refusal levels entry) (address levels label v) := by
  have hrefused : FailsWith (Refusal levels entry) (refuseAddress levels label v) := by
    refine .bind (failsWith_ofRule fun rule h => .unshowable hpath ?_) fun _ =>
      failsWith_error (.discovery _)
    rw [hv]
    exact unshowable_of_shown h
  unfold address
  split
  · split
    · exact failsWith_ok _
    · exact hrefused
  · exact hrefused

theorem addressIn_refusal (levels : Nat) (label : String) (hv : entry.field? name = some v)
    (hpath : [name, inner] ∈ accountPaths) :
    FailsWith (Refusal levels entry) (addressIn levels v inner label) := by
  refine .bind_of_ok (entryField_refusal levels entry v inner) fun w hw => ?_
  refine address_refusal levels label hpath ?_
  rw [at?_of_field? hv, at?_singleton, required_eq_ok.1 hw]

theorem addressAt_refusal (levels : Nat) (entry : Payload) (hpath : [name] ∈ accountPaths) :
    FailsWith (Refusal levels entry) (addressAt levels entry name) := by
  refine .bind_of_ok (entryField_refusal levels entry entry name) fun v hv => ?_
  exact address_refusal levels name hpath (at?_singleton.trans (required_eq_ok.1 hv))

theorem addressWithin_refusal (levels : Nat) (entry : Payload) (label : String)
    (hpath : [name, inner] ∈ accountPaths) :
    FailsWith (Refusal levels entry) (addressWithin levels entry name inner label) :=
  .bind_of_ok (entryField_refusal levels entry entry name) fun _ hv =>
    addressIn_refusal levels label (required_eq_ok.1 hv) hpath

theorem optionalAddress_refusal (levels : Nat) (label : String) (hpath : path ∈ accountPaths) :
    FailsWith (Refusal levels entry) (optionalAddress levels label (entry.at? path)) := by
  unfold optionalAddress
  split
  case h_1 v hv =>
    exact .map (address_refusal levels label hpath (Option.filter_eq_some_iff.1 hv).1) _
  case h_2 => exact failsWith_ok _

theorem mintProgram_refusal (levels : Nat) (entry : Payload) {mint : String}
    (hpath : [mint, "programId"] ∈ accountPaths) :
    FailsWith (Refusal levels entry) (mintProgram levels entry mint) := by
  refine .bind_of_ok (entryField_refusal levels entry entry mint) fun v hv => ?_
  rw [← at?_singleton, ← at?_of_field? (required_eq_ok.1 hv)]
  exact optionalAddress_refusal levels _ hpath

theorem standardOfEntry_refusal (levels : Nat) (programId : Address)
    (hvault : entry.field? "vault" = some vault) :
    FailsWith (Refusal levels entry) (standardOfEntry levels programId vault entry) := by
  unfold standardOfEntry
  repeat' first
    | apply addressAt_refusal
    | apply addressWithin_refusal
    | apply addressIn_refusal levels _ hvault
    | exact failsWith_ok _
    | refine .bind ?_ fun _ => ?_
    | decide

theorem concentratedOfEntry_refusal (levels : Nat) (programId : Address)
    (hvault : entry.field? "vault" = some vault) :
    FailsWith (Refusal levels entry) (concentratedOfEntry levels programId vault entry) := by
  unfold concentratedOfEntry
  rw [← at?_singleton]
  repeat' first
    | apply addressAt_refusal
    | apply addressWithin_refusal
    | apply addressIn_refusal levels _ hvault
    | apply optionalAddress_refusal
    | apply mintProgram_refusal
    | exact failsWith_ok _
    | refine .bind ?_ fun _ => ?_
    | decide

/-- An entry that publishes no keys is refused as malformed, unless a value to be shown cannot be. -/
theorem ofEntry_refusal (levels : Nat) (entry : Payload) :
    FailsWith (Refusal levels entry) (ofEntry levels entry) := by
  refine .bind (addressAt_refusal levels entry (by decide)) fun programId => ?_
  split
  · have hid : ["id"] ∈ accountPaths := by decide
    refine .bind (failsWith_ofRule fun rule h => .unshowable hid ?_) fun _ =>
      failsWith_error (.discovery _)
    rw [at?_singleton]
    exact unshowable_of_plainText h
  · refine .bind_of_ok (entryField_refusal levels entry entry _) fun vault hvault => ?_
    split
    · exact .map (concentratedOfEntry_refusal levels _ (required_eq_ok.1 hvault)) _
    · exact .map (standardOfEntry_refusal levels _ (required_eq_ok.1 hvault)) _

end Refused

end PoolKeys

namespace PoolEntry

/-- Whether an entry names a kind, by the text of its value in lower case. Without one the kind is
empty. -/
def NamesKind (levels : Nat) (entry : Payload) (kind : String) : Prop :=
  ∃ text, ((entry.at? ["type"]).getD (.text "")).plainText levels = .ok text ∧
    kind = LowerCase.ofText text

/-- Whether a summary is that of an entry. Identifiers may be values of any kind; decimals stand for
zero where they are absent, and amounts of any kind for their numbers. -/
structure Summarizes (levels : Nat) (entry : Payload) (e : PoolEntry) : Prop where
  id : entry.at? ["id"] = some e.id
  programId : entry.at? ["programId"] = some e.programId
  mintA : entry.at? ["mintA", "address"] = some e.mintA
  mintB : entry.at? ["mintB", "address"] = some e.mintB
  kind : NamesKind levels entry e.kind
  decimalsA : ((entry.at? ["mintA", "decimals"]).getD (.int 0)).toInt? = .ok (some e.decimalsA)
  decimalsB : ((entry.at? ["mintB", "decimals"]).getD (.int 0)).toInt? = .ok (some e.decimalsB)
  price : ((entry.at? ["price"]).getD .null).toFloat? = .ok e.price
  tvl : ((entry.at? ["tvl"]).getD .null).toFloat? = .ok e.tvl
  feeRate : ((entry.at? ["feeRate"]).getD .null).toFloat? = .ok e.feeRate

/-- Entries with a number too large for its form: infinite decimals, or an amount that is an integer
beyond all doubles. -/
inductive Oversized (entry : Payload) : Prop
  | decimals {mint : String} {x : Float} (mem : mint ∈ ["mintA", "mintB"])
      (published : entry.at? [mint, "decimals"] = some (.float x)) (infinite : x.isInf) :
      Oversized entry
  | amount {name : String} {n : Int} (mem : name ∈ ["price", "tvl", "feeRate"])
      (published : entry.at? [name] = some (.int n)) (beyond : Binary64.ofInt? n = none) :
      Oversized entry

/-- Why an entry has no summary: it is malformed, a number in it is too large, or its kind is a value
that is nested too deep. -/
inductive Refusal (levels : Nat) (entry : Payload) : Fault → Prop
  | discovery (cause : DiscoveryCause) : Refusal levels entry (.discovery cause)
  | tooLarge (oversized : Oversized entry) : Refusal levels entry (.breach .tooLarge)
  | tooDeep {kind : Payload} (published : entry.at? ["type"] = some kind)
      (deep : kind.Unshowable levels .tooDeep) : Refusal levels entry (.breach .tooDeep)

variable {levels : Nat} {entry mint : Payload} {e : PoolEntry} {n : Int} {name kind : String}

theorem decimals_eq_ok : decimals mint = .ok n ↔
    ((mint.field? "decimals").getD (.int 0)).toInt? = .ok (some n) := by
  unfold decimals
  rw [bind_eq_ok]
  constructor
  · rintro ⟨_ | n', hn, h⟩
    · cases h
    · cases h
      exact hn
  · exact fun h => ⟨some n, h, rfl⟩

theorem kindOf_eq_ok : kindOf levels entry = .ok kind ↔ NamesKind levels entry kind := by
  unfold kindOf NamesKind
  rw [at?_singleton]
  cases ((entry.field? "type").getD (.text "")).plainText levels with
  | ok text => simp [eq_comm]
  | error rule => cases rule <;> simp

/-- Summaries are read from exactly the entries that have them. -/
theorem ofEntry_eq_ok : ofEntry levels entry = .ok e ↔ e.Summarizes levels entry := by
  cases e
  unfold ofEntry entryField numberAt
  simp only [bind_eq_ok, required_eq_ok, kindOf_eq_ok, decimals_eq_ok, pure_eq_ok, mk.injEq,
    existsAndEq]
  constructor
  · rintro ⟨a, ha, b, hb, hid, hkind, hprogram, hmintA, hmintB, hdecimalsA, hdecimalsB, hprice, htvl,
      hfee, -⟩
    constructor <;> simp only [at?_of_field? ha, at?_of_field? hb, at?_singleton] <;> assumption
  · rintro ⟨hid, hprogram, hmintA, hmintB, hkind, hdecimalsA, hdecimalsB, hprice, htvl, hfee⟩
    obtain ⟨a, ha, -⟩ := at?_cons_eq_some.1 hmintA
    obtain ⟨b, hb, -⟩ := at?_cons_eq_some.1 hmintB
    simp only [at?_of_field? ha, at?_of_field? hb, at?_singleton] at *
    exact ⟨a, ha, b, hb, hid, hkind, hprogram, hmintA, hmintB, hdecimalsA, hdecimalsB, hprice, htvl,
      hfee, by simp only [and_self]⟩

theorem toInt?_eq_error {p : Payload} {fault : Fault} (h : p.toInt? = .error fault) :
    fault = .breach .tooLarge ∧ ∃ x : Float, p = .float x ∧ x.isInf := by
  unfold toInt? at h
  split at h <;> try cases h
  split at h <;> try cases h
  split at h
  · cases h
    exact ⟨rfl, _, rfl, ‹_›⟩
  · cases h

theorem toFloat?_eq_error {p : Payload} {fault : Fault} (h : p.toFloat? = .error fault) :
    fault = .breach .tooLarge ∧ ∃ n, p = .int n ∧ Binary64.ofInt? n = none := by
  unfold toFloat? at h
  split at h <;> try cases h
  rename_i n
  cases hn : Binary64.ofInt? n with
  | some x =>
    rw [hn] at h
    cases h
  | none =>
    rw [hn] at h
    cases h
    exact ⟨rfl, n, rfl, hn⟩

theorem decimals_refusal (hmint : entry.field? name = some mint) (mem : name ∈ ["mintA", "mintB"]) :
    FailsWith (Refusal levels entry) (decimals mint) := by
  refine .bind (fun fault h => ?_) fun n => ?_
  · obtain ⟨rfl, x, hx, infinite⟩ := toInt?_eq_error h
    refine .tooLarge (.decimals mem ?_ infinite)
    rw [at?_of_field? hmint, at?_singleton]
    cases hfield : mint.field? "decimals" with
    | none =>
      rw [hfield] at hx
      cases hx
    | some p =>
      rw [hfield] at hx
      exact congrArg some hx
  · cases n with
    | some n => exact failsWith_ok n
    | none => exact failsWith_error (.discovery _)

theorem numberAt_refusal (mem : name ∈ ["price", "tvl", "feeRate"]) :
    FailsWith (Refusal levels entry) (numberAt entry name) := by
  intro fault h
  obtain ⟨rfl, n, hn, beyond⟩ := toFloat?_eq_error h
  refine .tooLarge (.amount mem ?_ beyond)
  rw [at?_singleton]
  cases hfield : entry.field? name with
  | none =>
    rw [hfield] at hn
    cases hn
  | some p =>
    rw [hfield] at hn
    exact congrArg some hn

theorem kindOf_refusal (levels : Nat) (entry : Payload) :
    FailsWith (Refusal levels entry) (kindOf levels entry) := by
  unfold kindOf
  cases htype : entry.field? "type" with
  | none => exact failsWith_ok _
  | some v =>
    rw [Option.getD_some]
    split
    · exact failsWith_ok _
    · exact failsWith_error (.discovery _)
    case h_3 rule hlong h =>
      have hv := unshowable_of_plainText h
      cases hv with
      | tooDeep within =>
        exact failsWith_error (.tooDeep (at?_singleton.trans htype) (.tooDeep within))
      | tooManyDigits => exact absurd rfl hlong

/-- An entry that has no summary is refused as malformed, unless a number in it is too large or its
kind is nested too deep. -/
theorem ofEntry_refusal (levels : Nat) (entry : Payload) :
    FailsWith (Refusal levels entry) (ofEntry levels entry) := by
  -- The two mints are kept, for the path of a decimal that is too large.
  have hfield : ∀ (p : Payload) (name : String),
      FailsWith (Refusal levels entry) (entryField p name) :=
    fun p name => (required_isDiscovery _ _ p name).mono fun _ ⟨cause⟩ => .discovery cause
  refine .bind_of_ok (hfield _ _) fun a ha => .bind_of_ok (hfield _ _) fun b hb => ?_
  refine .bind (hfield _ _) fun _ => .bind (kindOf_refusal levels entry) fun _ => ?_
  refine .bind (hfield _ _) fun _ => ?_
  refine .bind (hfield _ _) fun _ => .bind (hfield _ _) fun _ => ?_
  refine .bind (decimals_refusal (required_eq_ok.1 ha) (by simp)) fun _ => ?_
  refine .bind (decimals_refusal (required_eq_ok.1 hb) (by simp)) fun _ => ?_
  refine .bind (numberAt_refusal (by simp)) fun _ => ?_
  refine .bind (numberAt_refusal (by simp)) fun _ => ?_
  exact .bind (numberAt_refusal (by simp)) fun _ => failsWith_ok _

end PoolEntry
end PoolSwap
