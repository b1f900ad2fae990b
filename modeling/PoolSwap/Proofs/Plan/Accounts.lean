import PoolSwap.Proofs.Plan.Shape

/-! What a plan does to token accounts. The steps of a plan are ordered by rank, so a creation stands
before everything that uses the account, and only a step that closes a wrapped account closes any. -/
namespace PoolSwap

/-- An instruction of the form that closes the first of its accounts. -/
def Instruction.Closes (i : Instruction) (account : Address) : Prop :=
  i.data = [9] ∧ ∃ u, i.accounts.head? = some u ∧ u.address = account

/-- An operation that creates a token account, at the address derived from what it is for. -/
def Operation.Creates (o : Operation) (account : Address) : Prop :=
  ∃ payer owner mint program, o.instructions = [.creating payer account owner mint program] ∧
    account = .derive [owner.bytes, program.bytes, mint.bytes] .associatedTokenProgram

section Closes

variable {account : Address} {i : Instruction}

theorem ComputeBudget.not_closes {budget : Option ComputeBudget} {is : List Instruction}
    (h : instructions budget = .ok is) (hi : i ∈ is) : ¬ i.Closes account := by
  obtain ⟨-, rfl⟩ := instructions_eq_ok.1 h
  obtain ⟨b, -, hi⟩ := List.mem_flatMap.1 hi
  intro hcloses
  have hlength := congrArg List.length hcloses.1
  rcases List.mem_append.1 hi with hi | hi <;> obtain ⟨n, -, rfl⟩ := List.mem_map.1 hi <;>
    simp at hlength

theorem Instruction.not_closes_of_mem_wrapping {owner source : Address} {lamports : Nat}
    (hi : i ∈ wrapping owner source lamports) : ¬ i.Closes account := by
  intro hcloses
  have hdata := hcloses.1
  rcases List.mem_cons.1 hi with rfl | hi
  · have hlength := congrArg List.length hdata
    simp at hlength
  · obtain rfl := List.mem_singleton.1 hi
    cases hdata

theorem Instruction.closes_closing {a b c : Address} (h : (closing a b c).Closes account) :
    account = a := by
  obtain ⟨-, u, hu, rfl⟩ := h
  cases hu
  rfl

/-- A swap instruction goes to the pool's program, names the account paid from right before the one
received into, and has data longer than a tag. -/
theorem SwapRequest.swapInstruction_uses {q : SwapRequest} {k : PoolKeys} {d : Direction}
    {source destination : Address} {swap : Instruction}
    (h : q.swapInstruction k d source destination = .ok swap) :
    swap.programId = k.programId ∧
      (∃ i, (swap.accounts.drop i).take 2 = [.writable source, .writable destination]) ∧
      1 < swap.data.length := by
  cases k with
  | standard k =>
    obtain ⟨amount, hamount, h⟩ := Checked.bind_eq_ok.1 h
    obtain ⟨minimum, hminimum, h⟩ := Checked.bind_eq_ok.1 h
    obtain ⟨_, -, -, rfl⟩ := fieldBytes_eq_ok.1 hamount
    cases h
    refine ⟨rfl, ⟨14, rfl⟩, ?_⟩
    simp only [List.length_cons, List.length_append, LittleEndian.length_encode]
    omega
  | concentrated k =>
    obtain ⟨data, hdata, h⟩ := Checked.bind_eq_ok.1 h
    obtain ⟨amount, hamount, hdata⟩ := Checked.bind_eq_ok.1 hdata
    obtain ⟨threshold, hthreshold, hdata⟩ := Checked.bind_eq_ok.1 hdata
    obtain ⟨limit, hlimit, hdata⟩ := Checked.bind_eq_ok.1 hdata
    obtain ⟨_, -, -, rfl⟩ := fieldBytes_eq_ok.1 hamount
    cases hdata
    cases h
    refine ⟨rfl, ⟨3, rfl⟩, ?_⟩
    simp only [List.length_append, LittleEndian.length_encode]
    omega

end Closes

/-- What a plan may do to token accounts, given those that exist before it. -/
structure SwapPlan.Safe (p : SwapPlan) (existing : List Address) : Prop where
  /-- Only accounts that the plan has created are closed. -/
  closes : ∀ {before o after}, p.operations = before ++ o :: after →
    ∀ {i}, i ∈ o.instructions → ∀ {account}, i.Closes account →
      account ∉ existing ∧ ∃ c ∈ before, c.Creates account
  /-- The plan's two accounts are there for all that follows their creation. -/
  finds : ∀ {before o after}, p.operations = before ++ o :: after →
    OperationKind.createAccount.rank < o.kind.rank →
      ∀ account ∈ [p.sourceAccount, p.destinationAccount],
        account ∈ existing ∨ ∃ c ∈ before, c.Creates account

namespace SwapRequest

variable {q : SwapRequest} {k : PoolKeys} {d : Direction} {existing : List Address}
  {operations before after : List Operation} {o : Operation} {budget : List Instruction}
  {swap : Instruction}

theorem mem_before {c : Operation}
    (hordered : (before ++ o :: after).Pairwise fun a b => a.kind.rank ≤ b.kind.rank)
    (hc : c ∈ before ++ o :: after) (hlt : c.kind.rank < o.kind.rank) : c ∈ before := by
  rcases List.mem_append.1 hc with hbefore | hrest
  · exact hbefore
  · rcases List.mem_cons.1 hrest with rfl | hafter
    · exact absurd hlt (Nat.lt_irrefl _)
    · have hle := (List.pairwise_cons.1 (List.pairwise_append.1 hordered).2.1).1 c hafter
      exact absurd hlt (Nat.not_lt.2 hle)

section Steps

variable (hsteps : (before ++ o :: after).map (·.step) = q.steps k d existing budget swap)
include hsteps

/-- A creation stands before every later kind of operation. -/
theorem exists_creation {account mint program : Address}
    (hcreate : Step.create q account mint program ∈ q.steps k d existing budget swap)
    (haccount : account = .derive [q.owner.bytes, program.bytes, mint.bytes] .associatedTokenProgram)
    (hlater : OperationKind.createAccount.rank < o.kind.rank) :
    ∃ c ∈ before, c.Creates account := by
  have hordered : ((before ++ o :: after).map (·.step)).Pairwise
      fun s t => s.kind.rank ≤ t.kind.rank := hsteps ▸ pairwise_steps
  rw [List.pairwise_map] at hordered
  obtain ⟨c, hc, hstep⟩ := List.mem_map.1 (hsteps ▸ hcreate)
  have hkind : c.kind = .createAccount := congrArg Step.kind hstep
  have hinstructions := congrArg Step.instructions hstep
  refine ⟨c, mem_before hordered hc (hkind ▸ hlater), ?_⟩
  exact ⟨q.payerOrOwner, q.owner, mint, program, hinstructions, haccount⟩

theorem exists_creation_source (hlater : OperationKind.createAccount.rank < o.kind.rank)
    (hmissing : q.sourceOf k d ∉ existing) : ∃ c ∈ before, c.Creates (q.sourceOf k d) := by
  have hcreate : Step.create q (q.sourceOf k d) q.mintIn (k.orientedPrograms d).1 ∈
      q.steps k d existing budget swap := by simp [steps, hmissing]
  exact exists_creation hsteps hcreate rfl hlater

theorem exists_creation_destination (hlater : OperationKind.createAccount.rank < o.kind.rank)
    (hmissing : q.destinationOf k d ∉ existing) : ∃ c ∈ before, c.Creates (q.destinationOf k d) := by
  have hcreate : Step.create q (q.destinationOf k d) q.mintOut (k.orientedPrograms d).2 ∈
      q.steps k d existing budget swap := by simp [steps, hmissing]
  exact exists_creation hsteps hcreate rfl hlater

end Steps

/-- Of all steps, only the closing of a missing wrapped account closes an account. -/
theorem closes_of_mem_steps {s : Step} {i : Instruction} {account : Address}
    (hbudget : ComputeBudget.instructions q.computeBudget = .ok budget)
    (hswap : q.swapInstruction k d (q.sourceOf k d) (q.destinationOf k d) = .ok swap)
    (hs : s ∈ q.steps k d existing budget swap) (hi : i ∈ s.instructions)
    (hcloses : i.Closes account) :
    s.kind = .unwrapNative ∧ account ∉ existing ∧
      (account = q.sourceOf k d ∨ account = q.destinationOf k d) := by
  have hdata := hcloses.1
  simp only [steps, List.mem_append, Step.mem_onlyIf, List.mem_singleton] at hs
  rcases hs with (((((⟨-, rfl⟩ | ⟨-, rfl⟩) | ⟨-, rfl⟩) | ⟨-, rfl⟩) | rfl) |
    ⟨⟨-, -, hsource⟩, rfl⟩) | ⟨⟨-, -, hdestination⟩, rfl⟩
  · exact absurd hcloses (ComputeBudget.not_closes hbudget hi)
  · obtain rfl := List.mem_singleton.1 hi
    cases hdata
  · obtain rfl := List.mem_singleton.1 hi
    cases hdata
  · exact absurd hcloses (Instruction.not_closes_of_mem_wrapping hi)
  · obtain rfl := List.mem_singleton.1 hi
    have hlength := (swapInstruction_uses hswap).2.2
    rw [hdata] at hlength
    exact absurd hlength (by decide)
  · obtain rfl := List.mem_singleton.1 hi
    obtain rfl := Instruction.closes_closing hcloses
    exact ⟨rfl, hsource, .inl rfl⟩
  · obtain rfl := List.mem_singleton.1 hi
    obtain rfl := Instruction.closes_closing hcloses
    exact ⟨rfl, hdestination, .inr rfl⟩

/-- A plan that takes the steps of a request is safe for the accounts that exist before it. -/
theorem safe_of_steps {p : SwapPlan}
    (hbudget : ComputeBudget.instructions q.computeBudget = .ok budget)
    (hswap : q.swapInstruction k d (q.sourceOf k d) (q.destinationOf k d) = .ok swap)
    (hsource : p.sourceAccount = q.sourceOf k d)
    (hdestination : p.destinationAccount = q.destinationOf k d)
    (hsteps : p.operations.map (·.step) = q.steps k d existing budget swap) : p.Safe existing where
  closes {before o after} hsplit {i} hi {account} hcloses := by
    rw [hsplit] at hsteps
    have hmem : o.step ∈ q.steps k d existing budget swap :=
      hsteps ▸ List.mem_map_of_mem (by simp)
    obtain ⟨hkind, hmissing, haccount⟩ := closes_of_mem_steps hbudget hswap hmem hi hcloses
    have hlater : OperationKind.createAccount.rank < o.kind.rank := by
      rw [show o.kind = .unwrapNative from hkind]
      decide
    refine ⟨hmissing, ?_⟩
    rcases haccount with rfl | rfl
    · exact exists_creation_source hsteps hlater hmissing
    · exact exists_creation_destination hsteps hlater hmissing
  finds {before o after} hsplit hlater account haccount := by
    rw [hsplit] at hsteps
    by_cases hexists : account ∈ existing
    · exact .inl hexists
    rw [hsource, hdestination] at haccount
    simp only [List.mem_cons, List.not_mem_nil, or_false] at haccount
    rcases haccount with rfl | rfl
    · exact .inr (exists_creation_source hsteps hlater hexists)
    · exact .inr (exists_creation_destination hsteps hlater hexists)

end SwapRequest
end PoolSwap
