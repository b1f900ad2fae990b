import PoolSwap.Client
import PoolSwap.Proofs.Node.StandardPool
import PoolSwap.Proofs.Plan.Accounts
import PoolSwap.Proofs.Plan.Signing

/-! Plans for the accounts that a node holds. A plan depends on the existing accounts only through
its own two, so looking these up is enough. -/
namespace PoolSwap.SwapRequest

variable {q : SwapRequest} {k : PoolKeys} {d : Direction} {keys : Option (Supplied PoolKeys)}
  {existing held : List Address} {p : SwapPlan} {n : Node}

theorem operations_congr {source destination : Address}
    (h : ∀ a ∈ [source, destination], a ∈ existing ↔ a ∈ held) :
    q.operations k d source destination existing = q.operations k d source destination held := by
  have hsource : source ∈ existing ↔ source ∈ held := h source (by simp)
  have hdestination : destination ∈ existing ↔ destination ∈ held := h destination (by simp)
  simp only [operations, creation, unwrapping, hsource, hdestination]

theorem plan_congr (h : ∀ a ∈ [p.sourceAccount, p.destinationAccount], a ∈ existing ↔ a ∈ held)
    (hplan : q.plan keys existing = .ok p) : q.plan keys held = .ok p := by
  obtain ⟨k, d, operations, hkeys, hcomplete, hd, hstate, hamounts, hoperations, rfl, hsize⟩ :=
    plan_eq_ok.1 hplan
  have hheld : q.operations k d (q.sourceOf k d) (q.destinationOf k d) held = .ok operations :=
    (operations_congr h).symm.trans hoperations
  exact plan_eq_ok.2
    ⟨k, d, operations, hkeys, hcomplete, hd, hstate, hamounts, hheld, rfl, hsize⟩

/-- Amounts that plans accept fit into eight bytes. -/
theorem toNat_lt_capacity {n : Int} (h : n ≤ Tick.maxU64) : n.toNat < LittleEndian.capacity 8 := by
  have hcapacity : LittleEndian.capacity 8 = Tick.maxU64.toNat + 1 := by decide
  unfold Tick.maxU64 at *
  omega

theorem userAccounts_of_plan (h : q.plan keys existing = .ok p) :
    ∃ k, keys = some (.value k) ∧
      k.userAccounts q.owner q.mintIn q.mintOut = .ok (p.sourceAccount, p.destinationAccount) := by
  obtain ⟨k, d, operations, hkeys, -, hd, -, -, -, rfl, -⟩ := plan_eq_ok.1 h
  exact ⟨k, hkeys, Checked.bind_eq_ok.2 ⟨d, hd, rfl⟩⟩

/-- The plan assembled with a node is the plan for the accounts that it holds. -/
theorem ask_assemble : (n.ask (Node.assemble keys q)).1 = .ok p ↔
    n.reach .multipleAccounts = .ok () ∧ ∃ existing,
      (∀ a ∈ [p.sourceAccount, p.destinationAccount], a ∈ existing ↔ (n.accounts a).isSome) ∧
      q.plan keys existing = .ok p := by
  constructor
  · intro h
    match keys with
    | none => cases h
    | some keys =>
      obtain ⟨⟨source, destination⟩, haccounts, h⟩ := Node.liftChecked_bind_eq_ok.1 h
      obtain ⟨hreach, h⟩ := (Node.existingAccounts_bind_eq_ok (by simp)).1 h
      rw [Node.ask_liftChecked] at h
      obtain ⟨k, hkeys, hplanned⟩ := userAccounts_of_plan h
      cases hkeys
      cases haccounts.symm.trans hplanned
      exact ⟨hreach, _, fun a ha => by simp [List.mem_filter, List.mem_eraseDups, ha], h⟩
  · rintro ⟨hreach, existing, hexisting, hplan⟩
    obtain ⟨k, rfl, haccounts⟩ := userAccounts_of_plan hplan
    refine Node.liftChecked_bind_eq_ok.2 ⟨_, haccounts, ?_⟩
    refine (Node.existingAccounts_bind_eq_ok (by simp)).2 ⟨hreach, ?_⟩
    rw [Node.ask_liftChecked]
    refine plan_congr (fun a ha => ?_) hplan
    rw [hexisting a ha, List.mem_filter, List.mem_eraseDups]
    exact (and_iff_right ha).symm

/-- A plan takes the steps of its request between the owner's accounts for its two mints, and is
safe for the accounts that exist before it. Its instructions are those written out for each step: a
wrap moves as many lamports as its bytes say, which are the amount paid. A node's answer decides
which accounts exist: the plan assembled with it is the one where the accounts it holds exist. -/
theorem plan_steps_safe (q : SwapRequest) (keys : Option (Supplied PoolKeys)) (p : SwapPlan) :
    (∀ existing, q.plan keys existing = .ok p →
      (∃ k d swap, keys = some (.value k) ∧ k.directionOf q.mintIn q.mintOut = .ok d ∧
        p.sourceAccount = .derive [q.owner.bytes, (k.orientedPrograms d).1.bytes, q.mintIn.bytes]
          .associatedTokenProgram ∧
        p.destinationAccount = .derive [q.owner.bytes, (k.orientedPrograms d).2.bytes,
          q.mintOut.bytes] .associatedTokenProgram ∧
        (0 < q.amountIn ∧ q.amountIn ≤ Tick.maxU64) ∧
        (LittleEndian.decode (LittleEndian.encode 8 q.amountIn.toNat) : Int) = q.amountIn ∧
        (∀ b ∈ q.computeBudget, b.Encodable) ∧
        q.swapInstruction k d p.sourceAccount p.destinationAccount = .ok swap ∧
        swap.programId = k.programId ∧
        (∃ i, (swap.accounts.drop i).take 2 =
          [.writable p.sourceAccount, .writable p.destinationAccount]) ∧
        p.operations.map (·.step) = q.steps k d existing
          (q.computeBudget.toList.flatMap ComputeBudget.stating) swap) ∧
      p.Safe existing) ∧
    ∀ n : Node, (n.ask (Node.assemble keys q)).1 = .ok p ↔
      n.reach .multipleAccounts = .ok () ∧ ∃ existing,
        (∀ a ∈ [p.sourceAccount, p.destinationAccount],
          a ∈ existing ↔ (n.accounts a).isSome) ∧
        q.plan keys existing = .ok p := by
  refine ⟨fun existing h => ?_, fun n => ask_assemble⟩
  obtain ⟨k, d, operations, hkeys, -, hd, -, hamounts, hoperations, rfl, -⟩ := plan_eq_ok.1 h
  obtain ⟨budget, swap, hbudget, hswap, hsteps⟩ := operations_steps hoperations
  obtain ⟨hfits, rfl⟩ := ComputeBudget.instructions_eq_ok.1 hbudget
  obtain ⟨hprogram, haccounts, -⟩ := swapInstruction_uses hswap
  have hamount := (checkAmounts_eq_ok hamounts).1
  refine ⟨⟨k, d, swap, hkeys, hd, rfl, rfl, hamount, ?_, hfits, hswap, hprogram, haccounts,
    hsteps⟩, safe_of_steps hbudget hswap rfl rfl hsteps⟩
  rw [LittleEndian.decode_encode, Nat.mod_eq_of_lt (toNat_lt_capacity hamount.2)]
  exact Int.toNat_of_nonneg (Int.le_of_lt hamount.1)

/-- A pool of native tokens and a request to pay it in them. -/
def nativePool : StandardKeys where
  programId := .standardPoolProgram
  id := .ofNat 1
  mintA := .nativeMint
  mintB := .ofNat 2
  vaultA := .ofNat 5
  vaultB := .ofNat 6
  authority := .ofNat 7
  openOrders := .ofNat 8
  targetOrders := .ofNat 9
  marketProgramId := .ofNat 10
  marketId := .ofNat 11
  marketAuthority := .ofNat 12
  marketBaseVault := .ofNat 13
  marketQuoteVault := .ofNat 14
  marketBids := .ofNat 15
  marketAsks := .ofNat 16
  marketEventQueue := .ofNat 17

def payingNative : SwapRequest where
  owner := .ofNat 4
  mintIn := .nativeMint
  mintOut := .ofNat 2
  amountIn := 1000
  minAmountOut := 1
  computeBudget := none
  state := none
  wrapNative := true
  payer := none
  sqrtPriceLimit := 0

/-- The owner's accounts that it pays from and into. -/
def nativeAccount : Address := payingNative.sourceOf (.standard nativePool) .zeroForOne

def boughtAccount : Address := payingNative.destinationOf (.standard nativePool) .zeroForOne

theorem payingNative_steps (swap : Instruction) :
    payingNative.steps (.standard nativePool) .zeroForOne [] [] swap =
      [.create payingNative nativeAccount .nativeMint .tokenProgram,
        .create payingNative boughtAccount (.ofNat 2) .tokenProgram,
        .wrap payingNative nativeAccount 1000, ⟨.swap, [swap]⟩,
        .close payingNative nativeAccount] := by
  have hwraps : payingNative.wrapNative = true ∧ payingNative.mintIn = .nativeMint := ⟨rfl, rfl⟩
  have hother : payingNative.mintOut ≠ .nativeMint := by decide +kernel
  simp only [steps, Step.onlyIf, hwraps, hother, List.not_mem_nil, not_false_eq_true, if_true,
    ne_eq, not_true_eq_false, if_false, false_and, and_false, and_self]
  rfl

/-- The other addresses that the plan uses. -/
def nativeAddresses : List Address :=
  [nativeAccount, boughtAccount, .nativeMint, .ofNat 2, .system, .tokenProgram,
    .associatedTokenProgram, nativePool.programId, nativePool.id, nativePool.authority,
    nativePool.openOrders, nativePool.vaultA, nativePool.vaultB, nativePool.marketProgramId,
    nativePool.marketId, nativePool.marketBids, nativePool.marketAsks, nativePool.marketEventQueue,
    nativePool.marketBaseVault, nativePool.marketQuoteVault, nativePool.marketAuthority]

theorem payingNative_swap : ∃ swap, payingNative.swapInstruction (.standard nativePool) .zeroForOne
    nativeAccount boughtAccount = .ok swap ∧
    swap.programId ∈ payingNative.owner :: nativeAddresses ∧
    (∀ u ∈ swap.accounts, u.address ∈ payingNative.owner :: nativeAddresses) ∧
    swap.accounts.length = 17 ∧ swap.data.length = 17 := by
  refine ⟨_, rfl, ?_, ?_, rfl, ?_⟩
  · simp [nativeAddresses]
  · simp [nativeAddresses, AccountUse.readonly, AccountUse.writable, AccountUse.signer]
  · simp

/-- The instructions of a payment in native tokens. -/
def nativeInstructions (swap : Instruction) : List Instruction :=
  let owner := payingNative.owner
  [.creating owner nativeAccount owner .nativeMint .tokenProgram,
    .creating owner boughtAccount owner (.ofNat 2) .tokenProgram] ++
  Instruction.wrapping owner nativeAccount 1000 ++ [swap, .closing nativeAccount owner owner]

theorem payingNative_draft {swap : Instruction}
    (hswap : payingNative.swapInstruction (.standard nativePool) .zeroForOne nativeAccount
      boughtAccount = .ok swap) :
    ∃ p, payingNative.draft (some (.value (.standard nativePool))) [] = .ok p ∧
      p.payer = payingNative.owner ∧ p.instructions = nativeInstructions swap := by
  have hamount : payingNative.amountIn = (1000 : Nat) := rfl
  obtain ⟨operations, hoperations⟩ : ∃ operations, payingNative.operations (.standard nativePool)
      .zeroForOne nativeAccount boughtAccount [] = .ok operations :=
    exists_operations rfl hamount (by decide) hswap
  obtain ⟨budget, swap', hbudget, hswap', hsteps⟩ := operations_steps hoperations
  cases hbudget
  cases hswap.symm.trans hswap'
  rw [payingNative_steps] at hsteps
  exact ⟨_, draft_eq_ok.2 ⟨.standard nativePool, .zeroForOne, operations, rfl, rfl,
    if_pos ⟨rfl, rfl⟩, rfl, rfl, hoperations, rfl⟩, rfl,
    (SwapPlan.instructions_eq _).trans (congrArg (·.flatMap (·.instructions)) hsteps)⟩

theorem payingNative_plan :
    ∃ p, payingNative.plan (some (.value (.standard nativePool))) [] = .ok p := by
  obtain ⟨swap, hswap, hprogram, haccounts, haccountCount, hdata⟩ := payingNative_swap
  obtain ⟨p, hdraft, hpayer, hinstructions⟩ := payingNative_draft hswap
  have huses : ∀ u ∈ AccountTable.usesOf p.instructions, u.address ∈ p.payer :: nativeAddresses := by
    rw [hpayer, hinstructions]
    simp only [AccountTable.usesOf, nativeInstructions, Instruction.creating, Instruction.wrapping,
      Instruction.closing, AccountUse.readonly, List.flatMap_append, List.flatMap_cons,
      List.map_append, List.map_cons, List.forall_mem_append, List.forall_mem_cons, hprogram]
    simpa [nativeAddresses, AccountUse.writable, AccountUse.signer, AccountUse.writableSigner]
      using haccounts
  have hle := size_le_of_draft hdraft huses
  have hsum : (p.instructions.map Message.instructionSize).sum = 86 := by
    rw [hinstructions]
    simp [haccountCount, hdata, nativeInstructions, Instruction.creating, Instruction.wrapping,
      Instruction.closing, Message.instructionSize, compactLength]
  have hcount : nativeAddresses.length = 21 := rfl
  rw [hsum, hcount] at hle
  have hshort : p.size ≤ SwapPlan.maxBytes := Nat.le_trans hle (by decide)
  exact ⟨p, plan_eq_ok_iff_draft.2 ⟨hdraft, SwapPlan.checkSize_eq_ok.2 hshort⟩⟩

/-- Both accounts are created, the one paid from is filled with the amount and closed at the end. -/
theorem plan_steps_safe_native :
    ∃ p, payingNative.plan (some (.value (.standard nativePool))) [] = .ok p ∧ p.Safe [] ∧
      (p.operations.map (·.step)).filter (·.kind ≠ .swap) =
        [Step.create payingNative p.sourceAccount .nativeMint .tokenProgram,
          Step.create payingNative p.destinationAccount (.ofNat 2) .tokenProgram,
          Step.wrap payingNative p.sourceAccount 1000, Step.close payingNative p.sourceAccount] := by
  obtain ⟨p, hp⟩ := payingNative_plan
  obtain ⟨⟨k, d, swap, hkeys, hd, hsource, hdestination, -, -, -, -, -, -, hsteps⟩, hsafe⟩ :=
    (plan_steps_safe payingNative (some (.value (.standard nativePool))) p).1 [] hp
  cases hkeys
  have hforward : PoolKeys.directionOf (.standard nativePool) payingNative.mintIn
      payingNative.mintOut = .ok .zeroForOne := if_pos ⟨rfl, rfl⟩
  cases hforward.symm.trans hd
  have hbudget : payingNative.computeBudget.toList.flatMap ComputeBudget.stating = [] := rfl
  refine ⟨p, hp, hsafe, ?_⟩
  rw [hsteps, hsource, hdestination, hbudget, payingNative_steps]
  rfl

end PoolSwap.SwapRequest
