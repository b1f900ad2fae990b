import PoolSwap.Plan
import PoolSwap.Proofs.Checked

/-! The shape of a plan: which operations it has, in which order and with which instructions. A
request asks about existing accounts only whether its own two token accounts are among them. -/
namespace PoolSwap

/-- The place of a kind of operation in a plan. -/
def OperationKind.rank : OperationKind → Nat
  | computeBudget => 0
  | createAccount => 1
  | wrapNative => 2
  | swap => 3
  | unwrapNative => 4

/-- What an operation does, without its description. -/
structure Step where
  kind : OperationKind
  instructions : List Instruction
deriving DecidableEq

def Operation.step (o : Operation) : Step := ⟨o.kind, o.instructions⟩

theorem SwapPlan.instructions_eq (p : SwapPlan) :
    p.instructions = (p.operations.map (·.step)).flatMap (·.instructions) := by
  rw [List.flatMap_map]
  rfl

/-- A step that a plan has only under a condition. -/
def Step.onlyIf (c : Prop) [Decidable c] (s : Step) : List Step := if c then [s] else []

namespace Step

variable {c : Prop} [Decidable c] {s t : Step}

@[simp] theorem mem_onlyIf : t ∈ s.onlyIf c ↔ c ∧ t = s := by
  unfold onlyIf
  split <;> simp_all

theorem kinds_onlyIf : ((s.onlyIf c).map (·.kind)).Sublist [s.kind] := by
  unfold onlyIf
  split <;> simp

end Step

theorem fieldBytes_eq_ok {rule : Breach} {width : Nat} {n : Int} {bs : Bytes} :
    fieldBytes rule width n = .ok bs ↔
      ∃ k : Nat, n = k ∧ k < LittleEndian.capacity width ∧ bs = LittleEndian.encode width k := by
  unfold fieldBytes
  split
  case isTrue hfits =>
    refine ⟨fun h => ?_, ?_⟩
    · cases h
      exact ⟨n.toNat, by omega, by omega, rfl⟩
    · rintro ⟨k, rfl, -, rfl⟩
      rfl
  case isFalse hfits =>
    refine ⟨nofun, ?_⟩
    rintro ⟨k, rfl, hk, -⟩
    exact absurd ⟨Int.natCast_nonneg k, by exact_mod_cast hk⟩ hfits

namespace Instruction

/-- The request to create an owner's token account. -/
def creating (payer account owner mint tokenProgram : Address) : Instruction where
  programId := .associatedTokenProgram
  accounts := [
    .writableSigner payer, .writable account, .readonly owner, .readonly mint, .readonly .system,
    .readonly tokenProgram]
  data := [1]

/-- The instructions that move lamports into a wrapped native account and make it count them. -/
def wrapping (owner account : Address) (lamports : Nat) : List Instruction :=
  [⟨.system, [.writableSigner owner, .writable account],
      [2, 0, 0, 0] ++ LittleEndian.encode 8 lamports⟩,
    ⟨.tokenProgram, [.writable account], [17]⟩]

/-- The request to close a wrapped account and pay its lamports out. -/
def closing (account destination owner : Address) : Instruction :=
  ⟨.tokenProgram, [.writable account, .writable destination, .signer owner], [9]⟩

theorem createTokenAccount_eq (payer owner mint tokenProgram : Address) :
    createTokenAccount payer owner mint tokenProgram =
      creating payer (.derive [owner.bytes, tokenProgram.bytes, mint.bytes] .associatedTokenProgram)
        owner mint tokenProgram := rfl

theorem closeAccount_eq (account destination owner : Address) :
    closeAccount account destination owner .tokenProgram = closing account destination owner := rfl

theorem wrapNative_eq_ok {owner account : Address} {lamports : Int} {is : List Instruction} :
    wrapNative owner account lamports = .ok is ↔
      ∃ k : Nat, lamports = k ∧ k < LittleEndian.capacity 8 ∧ is = wrapping owner account k := by
  simp only [wrapNative, transferNative, Checked.bind_eq_ok, Checked.pure_eq_ok, fieldBytes_eq_ok]
  constructor
  · rintro ⟨_, ⟨_, ⟨k, hk, hfits, rfl⟩, rfl⟩, rfl⟩
    exact ⟨k, hk, hfits, rfl⟩
  · rintro ⟨k, hk, hfits, rfl⟩
    exact ⟨_, ⟨_, ⟨k, hk, hfits, rfl⟩, rfl⟩, rfl⟩

end Instruction

namespace ComputeBudget

/-- Whether the limits of a budget fit the fields that state them. -/
def Encodable (b : ComputeBudget) : Prop :=
  (∀ n ∈ b.unitLimit, 0 ≤ n ∧ n < LittleEndian.capacity 4) ∧
    ∀ n ∈ b.unitPrice, 0 ≤ n ∧ n < LittleEndian.capacity 8

/-- The instructions of a budget, one for each limit that it states. -/
def stating (b : ComputeBudget) : List Instruction :=
  (b.unitLimit.toList.map fun n =>
    ⟨.computeBudgetProgram, [], 2 :: LittleEndian.encode 4 n.toNat⟩) ++
  b.unitPrice.toList.map fun n =>
    ⟨.computeBudgetProgram, [], 3 :: LittleEndian.encode 8 n.toNat⟩

theorem setting_eq_ok {tag : UInt8} {width : Nat} {value : Option Int} {is : List Instruction} :
    setting tag width value = .ok is ↔
      (∀ n ∈ value, 0 ≤ n ∧ n < LittleEndian.capacity width) ∧ is = value.toList.map fun n =>
        ⟨.computeBudgetProgram, [], tag :: LittleEndian.encode width n.toNat⟩ := by
  cases value with
  | none => simp [setting, eq_comm]
  | some n =>
    simp only [setting, Checked.bind_eq_ok, Checked.pure_eq_ok, fieldBytes_eq_ok,
      Option.mem_some_iff, forall_eq', Option.toList_some, List.map_cons, List.map_nil]
    constructor
    · rintro ⟨_, ⟨k, rfl, hk, rfl⟩, rfl⟩
      exact ⟨⟨Int.natCast_nonneg k, by exact_mod_cast hk⟩, rfl⟩
    · rintro ⟨⟨hnonneg, hfits⟩, rfl⟩
      exact ⟨_, ⟨n.toNat, by omega, by omega, rfl⟩, rfl⟩

theorem instructions_eq_ok {budget : Option ComputeBudget} {is : List Instruction} :
    instructions budget = .ok is ↔
      (∀ b ∈ budget, b.Encodable) ∧ is = budget.toList.flatMap stating := by
  cases budget with
  | none => simp [instructions, eq_comm]
  | some b =>
    simp only [instructions, Checked.bind_eq_ok, Checked.pure_eq_ok, setting_eq_ok,
      Option.mem_some_iff, forall_eq', Option.toList_some, List.flatMap_singleton]
    constructor
    · rintro ⟨_, ⟨hlimit, rfl⟩, _, ⟨hprice, rfl⟩, rfl⟩
      exact ⟨⟨hlimit, hprice⟩, rfl⟩
    · rintro ⟨⟨hlimit, hprice⟩, rfl⟩
      exact ⟨_, ⟨hlimit, rfl⟩, _, ⟨hprice, rfl⟩, rfl⟩

end ComputeBudget

namespace SwapRequest

variable {q : SwapRequest} {k : PoolKeys} {keys : Option (Supplied PoolKeys)} {d : Direction}
  {existing held : List Address} {source destination : Address} {operations : List Operation}
  {p : SwapPlan}

/-- The owner's account that a request pays from. -/
def sourceOf (q : SwapRequest) (k : PoolKeys) (d : Direction) : Address :=
  .derive [q.owner.bytes, (k.orientedPrograms d).1.bytes, q.mintIn.bytes] .associatedTokenProgram

/-- The owner's account that a request receives into. -/
def destinationOf (q : SwapRequest) (k : PoolKeys) (d : Direction) : Address :=
  .derive [q.owner.bytes, (k.orientedPrograms d).2.bytes, q.mintOut.bytes] .associatedTokenProgram

/-- A plan of some operations, before its size is checked. -/
def drafted (q : SwapRequest) (source destination : Address) (operations : List Operation) :
    SwapPlan where
  payer := q.payerOrOwner
  operations
  signers := if q.payerOrOwner = q.owner then [q.payerOrOwner] else [q.payerOrOwner, q.owner]
  sourceAccount := source
  destinationAccount := destination
  amountIn := q.amountIn
  minAmountOut := q.minAmountOut

/-- The plan of a request before its size is looked at. -/
def draft (q : SwapRequest) (keys : Option (Supplied PoolKeys)) (existing : List Address) :
    Checked SwapPlan :=
  match keys with
  | none => .error (.missingPoolKeys .notSupplied)
  | some (.other kind) => .error (.missingPoolKeys (.unsupported kind))
  | some (.value k) => do
    k.checkComplete
    let direction ← k.directionOf q.mintIn q.mintOut
    q.checkState k
    q.checkAmounts k
    let (source, destination) ← k.userAccounts q.owner q.mintIn q.mintOut
    let operations ← q.operations k direction source destination existing
    pure (q.drafted source destination operations)

theorem plan_eq_draft (q : SwapRequest) (keys : Option (Supplied PoolKeys))
    (existing : List Address) : q.plan keys existing = (do
      let p ← q.draft keys existing
      p.checkSize
      pure p) := by
  unfold plan draft
  split
  case h_1 => rfl
  case h_2 => rfl
  case h_3 k =>
    simp only [bind_assoc, pure_bind, drafted]

theorem draft_eq_ok : q.draft keys existing = .ok p ↔ ∃ k d operations,
    keys = some (.value k) ∧ k.checkComplete = .ok () ∧ k.directionOf q.mintIn q.mintOut = .ok d ∧
    q.checkState k = .ok () ∧ q.checkAmounts k = .ok () ∧
    q.operations k d (q.sourceOf k d) (q.destinationOf k d) existing = .ok operations ∧
    p = q.drafted (q.sourceOf k d) (q.destinationOf k d) operations := by
  unfold draft
  split
  case h_1 => exact ⟨nofun, fun ⟨_, _, _, h, _⟩ => nomatch h⟩
  case h_2 => exact ⟨nofun, fun ⟨_, _, _, h, _⟩ => nomatch h⟩
  case h_3 k =>
    simp only [Checked.bind_eq_ok, PoolKeys.userAccounts, Checked.pure_eq_ok]
    constructor
    · rintro ⟨_, hcomplete, d, hd, _, hstate, _, hamounts, _, ⟨d', hd', rfl⟩, ops, hops, rfl⟩
      obtain rfl : d = d' := by simpa [hd] using hd'
      exact ⟨k, d, ops, rfl, hcomplete, hd, hstate, hamounts, hops, rfl⟩
    · rintro ⟨_, d, ops, ⟨⟩, hcomplete, hd, hstate, hamounts, hops, rfl⟩
      exact ⟨(), hcomplete, d, hd, (), hstate, (), hamounts, _, ⟨d, hd, rfl⟩, ops, hops, rfl⟩

theorem plan_eq_ok_iff_draft :
    q.plan keys existing = .ok p ↔ q.draft keys existing = .ok p ∧ p.checkSize = .ok () := by
  rw [plan_eq_draft]
  simp only [Checked.bind_eq_ok, Checked.pure_eq_ok]
  constructor
  · rintro ⟨_, hdraft, _, hsize, rfl⟩
    exact ⟨hdraft, hsize⟩
  · rintro ⟨hdraft, hsize⟩
    exact ⟨p, hdraft, (), hsize, rfl⟩

/-- A plan is one that all checks let pass. -/
theorem plan_eq_ok : q.plan keys existing = .ok p ↔ ∃ k d operations,
    keys = some (.value k) ∧ k.checkComplete = .ok () ∧ k.directionOf q.mintIn q.mintOut = .ok d ∧
    q.checkState k = .ok () ∧ q.checkAmounts k = .ok () ∧
    q.operations k d (q.sourceOf k d) (q.destinationOf k d) existing = .ok operations ∧
    p = q.drafted (q.sourceOf k d) (q.destinationOf k d) operations ∧
    p.checkSize = .ok () := by
  rw [plan_eq_ok_iff_draft, draft_eq_ok]
  simp only [← exists_and_right, and_assoc]

theorem isNative_iff {mint : Address} :
    q.isNative mint = true ↔ q.wrapNative = true ∧ mint = .nativeMint := by
  simp [isNative]

end SwapRequest

namespace Step

variable (q : SwapRequest) (existing : List Address) (account mint program : Address)

/-- The creation of an owner's token account. -/
def create : Step :=
  ⟨.createAccount, [.creating q.payerOrOwner account q.owner mint program]⟩

/-- The move of lamports of the owner into a wrapped account. -/
def wrap (lamports : Nat) : Step := ⟨.wrapNative, Instruction.wrapping q.owner account lamports⟩

/-- The closing of a wrapped account, whose lamports go to the owner. -/
def close : Step := ⟨.unwrapNative, [.closing account q.owner q.owner]⟩

theorem of_creation
    (haccount : account = .derive [q.owner.bytes, program.bytes, mint.bytes] .associatedTokenProgram) :
    (q.creation existing account mint program).map (·.step) =
      (create q account mint program).onlyIf (account ∉ existing) := by
  unfold SwapRequest.creation onlyIf
  rw [Instruction.createTokenAccount_eq, ← haccount]
  split <;> simp_all [Operation.step, create]

theorem of_unwrapping : (q.unwrapping existing account mint).map (·.step) =
    (close q account).onlyIf (q.wrapNative = true ∧ mint = .nativeMint ∧ account ∉ existing) := by
  unfold SwapRequest.unwrapping onlyIf
  simp only [SwapRequest.isNative_iff, and_assoc, Instruction.closeAccount_eq]
  split <;> rfl

theorem of_wrapping {operations : List Operation}
    (h : q.wrapping account = .ok operations) : operations.map (·.step) =
      (wrap q account q.amountIn.toNat).onlyIf (q.wrapNative = true ∧ q.mintIn = .nativeMint) := by
  unfold SwapRequest.wrapping at h
  unfold onlyIf
  simp only [← SwapRequest.isNative_iff]
  split at h
  case isTrue hnative =>
    obtain ⟨instructions, hwrap, h⟩ := Checked.bind_eq_ok.1 h
    obtain ⟨lamports, hlamports, -, rfl⟩ := Instruction.wrapNative_eq_ok.1 hwrap
    cases h
    rw [if_pos hnative, hlamports]
    rfl
  case isFalse hnative =>
    cases h
    rw [if_neg hnative]
    rfl

end Step

namespace SwapRequest

variable {q : SwapRequest} {k : PoolKeys} {d : Direction} {existing : List Address}
  {operations : List Operation} {budget : List Instruction} {swap : Instruction}

theorem checkAmounts_eq_ok (h : q.checkAmounts k = .ok ()) :
    (0 < q.amountIn ∧ q.amountIn ≤ Tick.maxU64) ∧
      0 ≤ q.minAmountOut ∧ q.minAmountOut ≤ Tick.maxU64 := by
  unfold checkAmounts at h
  split at h
  case isTrue => cases h
  split at h
  case isTrue => cases h
  split at h
  case isTrue => cases h
  split at h
  case isTrue => cases h
  omega

/-- The steps of a request in order, given the instructions of its budget and its swap. -/
def steps (q : SwapRequest) (k : PoolKeys) (d : Direction) (existing : List Address)
    (budget : List Instruction) (swap : Instruction) : List Step :=
  let source := q.sourceOf k d
  let destination := q.destinationOf k d
  let programs := k.orientedPrograms d
  (Step.mk .computeBudget budget).onlyIf (budget ≠ []) ++
  (Step.create q source q.mintIn programs.1).onlyIf (source ∉ existing) ++
  (Step.create q destination q.mintOut programs.2).onlyIf (destination ∉ existing) ++
  (Step.wrap q source q.amountIn.toNat).onlyIf (q.wrapNative = true ∧ q.mintIn = .nativeMint) ++
  [⟨.swap, [swap]⟩] ++
  (Step.close q source).onlyIf
    (q.wrapNative = true ∧ q.mintIn = .nativeMint ∧ source ∉ existing) ++
  (Step.close q destination).onlyIf
    (q.wrapNative = true ∧ q.mintOut = .nativeMint ∧ destination ∉ existing)

theorem operations_steps
    (h : q.operations k d (q.sourceOf k d) (q.destinationOf k d) existing = .ok operations) :
    ∃ budget swap, ComputeBudget.instructions q.computeBudget = .ok budget ∧
      q.swapInstruction k d (q.sourceOf k d) (q.destinationOf k d) = .ok swap ∧
      operations.map (·.step) = q.steps k d existing budget swap := by
  obtain ⟨budget, hbudget, h⟩ := Checked.bind_eq_ok.1 h
  obtain ⟨wrap, hwrap, h⟩ := Checked.bind_eq_ok.1 h
  obtain ⟨swap, hswap, h⟩ := Checked.bind_eq_ok.1 h
  cases h
  refine ⟨budget, swap, hbudget, hswap, ?_⟩
  have hbudgeting : ((if budget.isEmpty then [] else
      [⟨.computeBudget, budget, "compute budget"⟩] : List Operation).map (·.step)) =
        (Step.mk .computeBudget budget).onlyIf (budget ≠ []) := by
    cases budget <;> rfl
  have hsource := Step.of_creation q existing (q.sourceOf k d) q.mintIn (k.orientedPrograms d).1 rfl
  have hdestination :=
    Step.of_creation q existing (q.destinationOf k d) q.mintOut (k.orientedPrograms d).2 rfl
  simp only [steps, List.map_append, ← hsource, ← hdestination, Step.of_unwrapping,
    Step.of_wrapping q _ hwrap, hbudgeting, List.append_assoc]
  rfl

/-- The operations of a request exist when its budget, its amount and its swap can be encoded. -/
theorem exists_operations {lamports : Nat} {source destination : Address}
    (hbudget : ComputeBudget.instructions q.computeBudget = .ok budget)
    (hamount : q.amountIn = lamports) (hfits : lamports < LittleEndian.capacity 8)
    (hswap : q.swapInstruction k d source destination = .ok swap) :
    ∃ operations, q.operations k d source destination existing = .ok operations := by
  have hwrap : ∃ wrap, q.wrapping source = .ok wrap := by
    unfold wrapping
    split
    case isTrue =>
      exact ⟨_, Checked.bind_eq_ok.2
        ⟨_, Instruction.wrapNative_eq_ok.2 ⟨lamports, hamount, hfits, rfl⟩, rfl⟩⟩
    case isFalse => exact ⟨_, rfl⟩
  obtain ⟨wrap, hwrap⟩ := hwrap
  exact ⟨_, Checked.bind_eq_ok.2 ⟨budget, hbudget, Checked.bind_eq_ok.2 ⟨wrap, hwrap,
    Checked.bind_eq_ok.2 ⟨swap, hswap, rfl⟩⟩⟩⟩

/-- Steps stand in the order of their kinds. -/
theorem kinds_steps : ((q.steps k d existing budget swap).map (·.kind)).Sublist
    ([.computeBudget] ++ [.createAccount] ++ [.createAccount] ++ [.wrapNative] ++ [.swap] ++
      [.unwrapNative] ++ [.unwrapNative]) := by
  simp only [steps, List.map_append]
  refine .append (.append (.append (.append (.append (.append ?_ ?_) ?_) ?_) ?_) ?_) ?_
  case refine_5 => exact .refl _
  all_goals exact Step.kinds_onlyIf

theorem pairwise_steps :
    (q.steps k d existing budget swap).Pairwise fun s t => s.kind.rank ≤ t.kind.rank := by
  have hkinds : ((q.steps k d existing budget swap).map (·.kind)).Pairwise (·.rank ≤ ·.rank) :=
    .sublist kinds_steps (by decide)
  simpa only [List.pairwise_map] using hkinds

end SwapRequest
end PoolSwap
