import PoolSwap.Proofs.Instruction.Format
import PoolSwap.Proofs.Plan.Signing
import PoolSwap.Proofs.SwapStep.Exact

/-! The orientation of a plan's swap. The token programs, the owner's accounts, the vaults and the
mints are each picked by the direction; all of them belong to the same side of the pool. -/
namespace PoolSwap

/-- What a pool keeps for one of its mints. -/
structure PoolSide where
  mint : Address
  vault : Address
  tokenProgram : Address
deriving DecidableEq

namespace PoolKeys

def sideA : PoolKeys → PoolSide
  | standard k => ⟨k.mintA, k.vaultA, .tokenProgram⟩
  | concentrated k => ⟨k.mintA, k.vaultA, k.mintProgramA.getD .tokenProgram⟩

def sideB : PoolKeys → PoolSide
  | standard k => ⟨k.mintB, k.vaultB, .tokenProgram⟩
  | concentrated k => ⟨k.mintB, k.vaultB, k.mintProgramB.getD .tokenProgram⟩

/-- The sides paid into and received from. -/
def sides (k : PoolKeys) : Direction → PoolSide × PoolSide
  | .zeroForOne => (k.sideA, k.sideB)
  | .oneForZero => (k.sideB, k.sideA)

variable {k : PoolKeys} {d : Direction} {mintIn mintOut : Address}

theorem mints_of_directionOf (h : k.directionOf mintIn mintOut = .ok d) :
    (k.sides d).1.mint = mintIn ∧ (k.sides d).2.mint = mintOut := by
  have hA : k.sideA.mint = k.mintA := by cases k <;> rfl
  have hB : k.sideB.mint = k.mintB := by cases k <;> rfl
  unfold directionOf at h
  split at h
  case isTrue hmints =>
    cases h
    exact ⟨hA.trans hmints.1.symm, hB.trans hmints.2.symm⟩
  case isFalse =>
    split at h
    case isTrue hmints =>
      cases h
      exact ⟨hB.trans hmints.1.symm, hA.trans hmints.2.symm⟩
    case isFalse => cases h

theorem orientedPrograms_eq :
    k.orientedPrograms d = ((k.sides d).1.tokenProgram, (k.sides d).2.tokenProgram) := by
  cases k <;> cases d <;> rfl

end PoolKeys

theorem PoolKeys.sides_reverse (k : PoolKeys) (d : Direction) :
    k.sides d.reverse = (k.sides d).swap := by
  cases d <;> rfl

/-- Between two distinct mints, the other direction is that of the exchanged mints. -/
theorem PoolKeys.directionOf_reverse {k : PoolKeys} {mintIn mintOut : Address} {d d' : Direction}
    (hne : k.mintA ≠ k.mintB) (h : k.directionOf mintIn mintOut = .ok d)
    (h' : k.directionOf mintOut mintIn = .ok d') : d' = d.reverse := by
  have hmints := mints_of_directionOf h
  have hmints' := mints_of_directionOf h'
  have hsides : k.sideA.mint ≠ k.sideB.mint := by cases k <;> exact hne
  match d, d' with
  | .zeroForOne, .oneForZero => rfl
  | .oneForZero, .zeroForOne => rfl
  | .zeroForOne, .zeroForOne => exact absurd (hmints.1.trans hmints'.2.symm) hsides
  | .oneForZero, .oneForZero => exact absurd (hmints'.2.trans hmints.1.symm) hsides

/-- Exchanges the entry at a place with the one after it. -/
def exchangeAt : Nat → List α → List α
  | 0, a :: b :: as => b :: a :: as
  | 0, as => as
  | _ + 1, [] => []
  | n + 1, a :: as => a :: exchangeAt n as

namespace PoolKind

/-- Where a swap names the account paid from, right before the one received into. -/
def userPlace : PoolKind → Nat
  | .standard => 14
  | .concentrated => 3

/-- Where a swap names an account for the side paid into, right before the one for the other side:
the owner's accounts, and for concentrated pools also the vaults and the mints. -/
def pairPlaces : PoolKind → List Nat
  | .standard => [14]
  | .concentrated => [3, 5, 11]

end PoolKind

namespace Instruction

/-- The same swap with the two sides of the pool exchanged. -/
def exchanged (i : Instruction) (kind : PoolKind) : Instruction :=
  { i with accounts := kind.pairPlaces.foldr exchangeAt i.accounts }

/-- A swap instruction that pays into one side of a pool and receives from the other. -/
structure Trades (i : Instruction) (k : PoolKeys) (source destination : Address)
    (paid received : PoolSide) : Prop where
  program : i.programId = k.programId
  users : (i.accounts.drop k.kind.userPlace).take 2 = [.writable source, .writable destination]
  vaults : ∀ c, k = .concentrated c →
    (i.accounts.drop 5).take 2 = [.writable paid.vault, .writable received.vault]
  rest : ∀ c, k = .concentrated c → i.accounts.drop 11 =
    [.readonly paid.mint, .readonly received.mint] ++ (c.exBitmap.toList ++ c.tickArrays).map .writable

end Instruction

/-- The swap instructions of a plan. -/
def SwapPlan.swaps (p : SwapPlan) : List Instruction :=
  (p.operations.filter (·.kind = .swap)).flatMap (·.instructions)

namespace SwapRequest

variable {q q' : SwapRequest} {k : PoolKeys} {d : Direction} {keys keys' : Option (Supplied PoolKeys)}
  {existing existing' : List Address} {source destination : Address} {swap swap' : Instruction}
  {p p' : SwapPlan}

/-- The request for the way back. -/
def reversed (q : SwapRequest) : SwapRequest := { q with mintIn := q.mintOut, mintOut := q.mintIn }

theorem sourceOf_eq : q.sourceOf k d =
    .derive [q.owner.bytes, (k.sides d).1.tokenProgram.bytes, q.mintIn.bytes]
      .associatedTokenProgram := by
  rw [sourceOf, PoolKeys.orientedPrograms_eq]

theorem destinationOf_eq : q.destinationOf k d =
    .derive [q.owner.bytes, (k.sides d).2.tokenProgram.bytes, q.mintOut.bytes]
      .associatedTokenProgram := by
  rw [destinationOf, PoolKeys.orientedPrograms_eq]

theorem sourceOf_reversed : q.reversed.sourceOf k d.reverse = q.destinationOf k d := by
  rw [sourceOf_eq, destinationOf_eq, PoolKeys.sides_reverse]
  rfl

theorem destinationOf_reversed : q.reversed.destinationOf k d.reverse = q.sourceOf k d := by
  rw [sourceOf_eq, destinationOf_eq, PoolKeys.sides_reverse]
  rfl

theorem trades_of_swapInstruction (h : q.swapInstruction k d source destination = .ok swap) :
    swap.Trades k source destination (k.sides d).1 (k.sides d).2 := by
  cases k with
  | standard k =>
    obtain ⟨_, -, h⟩ := Checked.bind_eq_ok.1 h
    obtain ⟨_, -, h⟩ := Checked.bind_eq_ok.1 h
    cases h
    exact ⟨rfl, rfl, nofun, nofun⟩
  | concentrated k =>
    obtain ⟨_, -, h⟩ := Checked.bind_eq_ok.1 h
    cases h
    have hrest : k.exBitmap.toList.map AccountUse.writable ++ k.tickArrays.map .writable =
        (k.exBitmap.toList ++ k.tickArrays).map .writable := List.map_append.symm
    refine ⟨rfl, rfl, ?_, ?_⟩
    · rintro _ ⟨⟩
      cases d <;> rfl
    · rintro _ ⟨⟩
      rw [← hrest]
      cases d <;> rfl

/-- The swap of the way back names the same accounts, those of the two sides exchanged. -/
theorem swapInstruction_reversed (h : q.swapInstruction k d source destination = .ok swap) :
    q.reversed.swapInstruction k d.reverse destination source = .ok (swap.exchanged k.kind) := by
  cases k with
  | standard k =>
    obtain ⟨_, hamount, h⟩ := Checked.bind_eq_ok.1 h
    obtain ⟨_, hthreshold, h⟩ := Checked.bind_eq_ok.1 h
    cases h
    exact Checked.bind_eq_ok.2 ⟨_, hamount, Checked.bind_eq_ok.2 ⟨_, hthreshold, rfl⟩⟩
  | concentrated k =>
    obtain ⟨_, hdata, h⟩ := Checked.bind_eq_ok.1 h
    cases h
    refine Checked.bind_eq_ok.2 ⟨_, hdata, ?_⟩
    cases d <;> rfl

theorem filter_onlyIf {c : Prop} [Decidable c] {s : Step} (h : s.kind ≠ .swap) :
    (s.onlyIf c).filter (·.kind = .swap) = [] := by
  unfold Step.onlyIf
  split <;> simp [h]

theorem filter_steps {budget : List Instruction} :
    (q.steps k d existing budget swap).filter (·.kind = .swap) = [⟨.swap, [swap]⟩] := by
  have hbudget := filter_onlyIf (c := budget ≠ []) (s := ⟨.computeBudget, budget⟩) nofun
  simp only [steps, List.filter_append, hbudget]
  repeat rw [filter_onlyIf (by simp [Step.create, Step.wrap, Step.close])]
  rfl

/-- The two accounts of a plan and its swap are those of one direction. -/
theorem exists_swap_of_plan (h : q.plan keys existing = .ok p) : ∃ k d swap,
    keys = some (.value k) ∧ k.directionOf q.mintIn q.mintOut = .ok d ∧
    q.checkAmounts k = .ok () ∧
    (p.sourceAccount = q.sourceOf k d ∧ p.destinationAccount = q.destinationOf k d) ∧
    q.swapInstruction k d (q.sourceOf k d) (q.destinationOf k d) = .ok swap ∧ p.swaps = [swap] := by
  obtain ⟨k, d, operations, hkeys, -, hd, -, hamounts, hoperations, rfl, -⟩ := plan_eq_ok.1 h
  obtain ⟨budget, swap, -, hswap, hsteps⟩ := operations_steps hoperations
  refine ⟨k, d, swap, hkeys, hd, hamounts, ⟨rfl, rfl⟩, hswap, ?_⟩
  have hfilter : (operations.filter (·.kind = .swap)).map (·.step) = [⟨.swap, [swap]⟩] := by
    rw [← filter_steps, ← hsteps, List.filter_map]
    rfl
  calc (operations.filter (·.kind = .swap)).flatMap (·.instructions)
      = ((operations.filter (·.kind = .swap)).map (·.step)).flatMap (·.instructions) := by
        rw [List.flatMap_map]
        rfl
    _ = [swap] := by rw [hfilter]; rfl

theorem sqrtPriceLimit_eq_zero (h : q.checkAmounts k = .ok ()) (hk : k.kind = .standard) :
    q.sqrtPriceLimit = 0 := by
  unfold checkAmounts at h
  repeat' split at h
  case isFalse hlimit => exact not_not.1 fun hne => hlimit ⟨hne, hk⟩
  all_goals cases h

/-- Swaps with the same data state the same terms. -/
theorem terms_of_data (hamounts : q.checkAmounts k = .ok ()) {k' : PoolKeys} {d' : Direction}
    (hamounts' : q'.checkAmounts k' = .ok ()) {source' destination' : Address}
    (hswap : q.swapInstruction k d source destination = .ok swap)
    (hswap' : q'.swapInstruction k' d' source' destination' = .ok swap')
    (hdata : swap'.data = swap.data) : k'.kind = k.kind ∧ q'.amountIn = q.amountIn ∧
      q'.minAmountOut = q.minAmountOut ∧ q'.sqrtPriceLimit = q.sqrtPriceLimit := by
  have hkind : k'.kind = k.kind := by
    have hlength := congrArg List.length hdata
    rw [length_swap_data hswap, length_swap_data hswap'] at hlength
    revert hlength
    cases k'.kind <;> cases k.kind <;> simp [PoolKind.swapSize]
  have hread := run_swapFormat hswap'
  rw [hdata, hkind, run_swapFormat hswap] at hread
  have hterms : q.terms k.kind = q'.terms k.kind := congrArg Prod.fst (Option.some.inj hread)
  refine ⟨hkind, ?_⟩
  cases hk : k.kind with
  | standard =>
    rw [hk, terms, terms] at hterms
    injection hterms with hamount hthreshold
    have hlimit := sqrtPriceLimit_eq_zero hamounts hk
    have hlimit' := sqrtPriceLimit_eq_zero hamounts' (hkind.trans hk)
    exact ⟨hamount.symm, hthreshold.symm, hlimit'.trans hlimit.symm⟩
  | concentrated =>
    rw [hk, terms, terms] at hterms
    injection hterms with hamount hthreshold hlimit
    injection hlimit with hlimit
    exact ⟨hamount.symm, hthreshold.symm, (congrArg Prod.fst hlimit).symm⟩

/-- A plan swaps once. Its program reads the terms of the request from the swap's data, which no
request with other terms shares. The swap pays from the owner's account for the mint paid, derived
from the owner, the token program and the mint, into that mint's side of the pool, and receives from
the other side. The way back, where it is accepted too, swaps with the same data between the same
accounts, with exactly those of the two sides exchanged. -/
theorem plan_orientation (h : q.plan keys existing = .ok p) :
    ∃ k swap paid received, keys = some (.value k) ∧ p.swaps = [swap] ∧
      (paid = k.sideA ∧ received = k.sideB ∨ paid = k.sideB ∧ received = k.sideA) ∧
      (paid.mint = q.mintIn ∧ received.mint = q.mintOut) ∧
      k.kind.swapFormat.run swap.data = some (q.terms k.kind, []) ∧
      p.sourceAccount =
        .derive [q.owner.bytes, paid.tokenProgram.bytes, q.mintIn.bytes] .associatedTokenProgram ∧
      p.destinationAccount = .derive
        [q.owner.bytes, received.tokenProgram.bytes, q.mintOut.bytes] .associatedTokenProgram ∧
      swap.Trades k p.sourceAccount p.destinationAccount paid received ∧
      (∀ q' keys' existing' p', SwapRequest.plan q' keys' existing' = .ok p' →
        ∀ swap' ∈ p'.swaps, swap'.data = swap.data → q'.amountIn = q.amountIn ∧
          q'.minAmountOut = q.minAmountOut ∧ q'.sqrtPriceLimit = q.sqrtPriceLimit) ∧
      (k.mintA ≠ k.mintB → ∀ existing' p', q.reversed.plan keys existing' = .ok p' →
        p'.sourceAccount = p.destinationAccount ∧ p'.destinationAccount = p.sourceAccount ∧
        p'.swaps = [swap.exchanged k.kind]) := by
  obtain ⟨k, d, swap, hkeys, hd, hamounts, ⟨hsource, hdestination⟩, hswap, hswaps⟩ :=
    exists_swap_of_plan h
  refine ⟨k, swap, (k.sides d).1, (k.sides d).2, hkeys, hswaps, ?_, PoolKeys.mints_of_directionOf hd,
    run_swapFormat hswap, hsource.trans sourceOf_eq, hdestination.trans destinationOf_eq, ?_,
    fun q' keys' existing' p' h' swap' hmem hdata => ?_, fun hne existing' p' h' => ?_⟩
  · cases d with
    | zeroForOne => exact .inl ⟨rfl, rfl⟩
    | oneForZero => exact .inr ⟨rfl, rfl⟩
  · rw [hsource, hdestination]
    exact trades_of_swapInstruction hswap
  · obtain ⟨k', d', other, -, -, hamounts', -, hswap', hswaps'⟩ := exists_swap_of_plan h'
    rw [hswaps'] at hmem
    obtain rfl := List.mem_singleton.1 hmem
    exact (terms_of_data hamounts hamounts' hswap hswap' hdata).2
  · obtain ⟨k', d', back, hkeys', hd', -, ⟨hsource', hdestination'⟩, hback, hbacks⟩ :=
      exists_swap_of_plan h'
    cases hkeys.symm.trans hkeys'
    obtain rfl := PoolKeys.directionOf_reverse hne hd hd'
    rw [sourceOf_reversed] at hsource' hback
    rw [destinationOf_reversed] at hdestination' hback
    rw [swapInstruction_reversed hswap] at hback
    cases hback
    exact ⟨hsource'.trans hdestination.symm, hdestination'.trans hsource.symm, hbacks⟩

theorem exists_plan_reversed :
    ∃ p, sponsored.reversed.plan (some (.value (.concentrated (pairPool [.ofNat 20]))))
      (sponsored.reversed.held (.concentrated (pairPool [.ofNat 20])) .oneForZero) = .ok p := by
  have hback : PoolKeys.directionOf (.concentrated (pairPool [.ofNat 20])) sponsored.reversed.mintIn
      sponsored.reversed.mintOut = .ok .oneForZero := by decide +kernel
  obtain ⟨p, hp, hinstructions⟩ := exists_draft_held (q := sponsored.reversed) (n := 1000)
    (k := .concentrated (pairPool [.ofNat 20])) rfl hback rfl rfl rfl (by decide) rfl nofun rfl
  have hsize := (size_of_draft hp hinstructions).2
  refine ⟨p, plan_eq_ok_iff_draft.2 ⟨hp, SwapPlan.checkSize_eq_ok.2 (Nat.le_trans hsize ?_)⟩⟩
  simp [pairPool, ConcentratedKeys.length_swapDiscriminator, SwapPlan.maxBytes]

/-- A sale of the first mint, and the way back. -/
theorem plan_orientation_sponsored : ∃ p p' swap,
    sponsored.plan (some (.value (.concentrated (pairPool [.ofNat 20]))))
      (sponsored.held (.concentrated (pairPool [.ofNat 20])) .zeroForOne) = .ok p ∧
    sponsored.reversed.plan (some (.value (.concentrated (pairPool [.ofNat 20]))))
      (sponsored.reversed.held (.concentrated (pairPool [.ofNat 20])) .oneForZero) = .ok p' ∧
    p.swaps = [swap] ∧ p'.swaps = [swap.exchanged .concentrated] ∧
    p.destinationAccount = .derive
      [ownerKeypair.address.bytes, Address.token2022Program.bytes, (Address.ofNat 3).bytes]
      .associatedTokenProgram ∧
    PoolKind.concentrated.swapFormat.run swap.data = some (⟨1000, 1, some (0, true)⟩, []) ∧
    (swap.accounts.drop 5).take 2 = [.writable (.ofNat 6), .writable (.ofNat 7)] := by
  obtain ⟨p, hdraft, -, hsize⟩ := exists_draft_sponsored [.ofNat 20] (by simp)
  have hshort : p.size ≤ SwapPlan.maxBytes := Nat.le_trans hsize (by decide)
  have hplan := plan_eq_ok_iff_draft.2 ⟨hdraft, SwapPlan.checkSize_eq_ok.2 hshort⟩
  obtain ⟨p', hback⟩ := exists_plan_reversed
  obtain ⟨k, swap, paid, received, hkeys, hswaps, hsides, ⟨hmint, -⟩, hread, -, hdestination, htrades,
    -, hreversed⟩ := plan_orientation hplan
  cases hkeys
  have hne : Address.ofNat 2 ≠ .ofNat 3 := by decide +kernel
  obtain ⟨-, -, hswaps'⟩ := hreversed hne _ p' hback
  rcases hsides with ⟨rfl, rfl⟩ | ⟨rfl, rfl⟩
  case inl =>
    exact ⟨p, p', swap, hplan, hback, hswaps, hswaps', hdestination, hread, htrades.vaults _ rfl⟩
  case inr => exact absurd hmint.symm hne

end SwapRequest
end PoolSwap
