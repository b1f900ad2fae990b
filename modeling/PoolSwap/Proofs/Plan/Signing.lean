import Mathlib.Data.List.Perm.Subperm
import PoolSwap.Proofs.Distinct
import PoolSwap.Proofs.Instruction.Format
import PoolSwap.Proofs.Plan.Shape
import PoolSwap.Proofs.Plan.Size

/-! The signatures of a plan. Its message asks for those of its signers and for no other, so the size
that is checked before anyone signs is that of the signed transaction. -/
namespace PoolSwap

theorem Edwards25519.length_sign (seed message : Bytes) : (sign seed message).length = 64 := by
  simp [sign, Point.encode]

namespace AccountTable

variable {payer owner a : Address} {instructions : List Instruction}

/-- Whether some instruction wants a signature of an account. -/
def WantsSignature (instructions : List Instruction) (a : Address) : Prop :=
  ∃ i ∈ instructions, ∃ u ∈ i.accounts, u.isSigner = true ∧ u.address = a

theorem merged_isSigner : (merged (usesOf instructions) a).isSigner = true ↔
    WantsSignature instructions a := by
  simp only [merged, usesOf, WantsSignature, List.any_eq_true, List.mem_filter, List.mem_append,
    List.mem_flatMap, List.mem_map, decide_eq_true_eq]
  constructor
  · rintro ⟨u, ⟨⟨i, hi, hu⟩ | ⟨i, -, rfl⟩, ha⟩, hsigner⟩
    · exact ⟨i, hi, u, hu, hsigner, ha⟩
    · cases hsigner
  · rintro ⟨i, hi, u, hu, hsigner, ha⟩
    exact ⟨u, ⟨.inl ⟨i, hi, hu⟩, ha⟩, hsigner⟩

/-- The accounts besides the payer that sign, in no particular order. -/
def cosigners (payer : Address) (instructions : List Instruction) : List Address :=
  ((others payer instructions).filter (·.isSigner)).map (·.address)

theorem mem_cosigners :
    a ∈ cosigners payer instructions ↔ a ≠ payer ∧ WantsSignature instructions a := by
  rw [← merged_isSigner]
  simp only [cosigners, others, List.mem_map, List.mem_filter, List.mem_eraseDups,
    decide_eq_true_eq]
  constructor
  · rintro ⟨_, ⟨⟨b, ⟨-, hb⟩, rfl⟩, hsigner⟩, rfl⟩
    exact ⟨hb, hsigner⟩
  · rintro ⟨ha, hsigner⟩
    obtain ⟨i, hi, u, hu, -, rfl⟩ := merged_isSigner.1 hsigner
    have huse : u ∈ usesOf instructions :=
      List.mem_append_left _ (List.mem_flatMap.2 ⟨i, hi, hu⟩)
    exact ⟨_, ⟨⟨u.address, ⟨⟨u, huse, rfl⟩, ha⟩, rfl⟩, hsigner⟩, rfl⟩

theorem map_address_others : (others payer instructions).map (·.address) =
    ((usesOf instructions).map (·.address)).eraseDups.filter (· ≠ payer) := by
  rw [others, List.map_map]
  exact List.map_id _

theorem nodup_others : ((others payer instructions).map (·.address)).Nodup :=
  map_address_others ▸ (nodup_eraseDups _).filter _

/-- A table has no more accounts than any list of addresses that has all of them. -/
theorem length_others_le {addresses : List Address}
    (h : ∀ u ∈ usesOf instructions, u.address ∈ payer :: addresses) :
    (others payer instructions).length ≤ addresses.length := by
  have hsubset : (others payer instructions).map (·.address) ⊆ addresses := by
    rw [map_address_others]
    intro a ha
    obtain ⟨ha, hne⟩ := List.mem_filter.1 ha
    obtain ⟨u, hu, rfl⟩ := List.mem_map.1 (List.mem_eraseDups.1 ha)
    exact List.mem_of_ne_of_mem (of_decide_eq_true hne) (h u hu)
  simpa only [List.length_map] using (List.subperm_of_subset nodup_others hsubset).length_le

theorem nodup_cosigners : (cosigners payer instructions).Nodup :=
  nodup_others.sublist (List.filter_sublist.map _)

/-- The payer signs first. -/
theorem exists_signers (payer : Address) (instructions : List Instruction) :
    ∃ rest, (compile payer instructions).signers = payer :: rest ∧
      rest.Perm (cosigners payer instructions) := by
  refine ⟨_, rfl, ?_⟩
  exact ((List.perm_cons _).1 compile_perm).filter (·.isSigner) |>.map (·.address)

/-- The accounts that sign stand in front of the others. -/
theorem take_signers (payer : Address) (instructions : List Instruction) :
    (compile payer instructions).addresses.take (compile payer instructions).signers.length =
      (compile payer instructions).signers := by
  let others := (((usesOf instructions).map (·.address)).eraseDups.filter (· ≠ payer)).map
    (merged (usesOf instructions))
  let group (signer writable : Bool) :=
    ascending (others.filter fun u => u.isSigner = signer && u.isWritable = writable)
  have hgroup (signer writable : Bool) : ∀ u ∈ group signer writable, u.isSigner = signer := by
    intro u hu
    have hu := (List.mem_filter.1 (List.mem_mergeSort.1 hu)).2
    simp only [Bool.and_eq_true, decide_eq_true_eq] at hu
    exact hu.1
  let front := AccountUse.writableSigner payer :: group true true ++ group true false
  have huses : (compile payer instructions).uses =
      front ++ (group false true ++ group false false) := List.append_assoc _ _ _
  have hfront : front.filter (·.isSigner) = front := by
    refine List.filter_eq_self.2 fun u hu => ?_
    rcases List.mem_append.1 hu with hu | hu
    · rcases List.mem_cons.1 hu with rfl | hu
      · rfl
      · exact hgroup _ _ u hu
    · exact hgroup _ _ u hu
  have hback : (group false true ++ group false false).filter (·.isSigner) = [] := by
    refine List.filter_eq_nil_iff.2 fun u hu => ?_
    rcases List.mem_append.1 hu with hu | hu
    · simp [hgroup _ _ u hu]
    · simp [hgroup _ _ u hu]
  have hsigners : (compile payer instructions).signers = front.map (·.address) := by
    rw [signers, huses, List.filter_append, hfront, hback, List.append_nil]
  have haddresses : (compile payer instructions).addresses = front.map (·.address) ++
      (group false true ++ group false false).map (·.address) := by
    rw [addresses, huses]
    exact List.map_append
  rw [hsigners, haddresses]
  exact List.take_left' rfl

/-- Where the instructions want signatures of the owner and of no one else but the payer, these two
sign. -/
theorem signers_eq (hall : ∀ a, WantsSignature instructions a → a = payer ∨ a = owner)
    (howner : WantsSignature instructions owner) :
    (compile payer instructions).signers = if payer = owner then [payer] else [payer, owner] := by
  obtain ⟨rest, hsigners, hrest⟩ := exists_signers payer instructions
  have hmem (a : Address) : a ∈ rest ↔ a ≠ payer ∧ WantsSignature instructions a :=
    hrest.mem_iff.trans mem_cosigners
  rw [hsigners]
  split
  case isTrue heq =>
    have hnone : rest = [] := by
      refine List.eq_nil_iff_forall_not_mem.2 fun a ha => ?_
      obtain ⟨hne, hwants⟩ := (hmem a).1 ha
      exact (hall a hwants).elim hne fun h => hne (h.trans heq.symm)
    rw [hnone]
  case isFalse hne =>
    have hone : rest.Perm [owner] := by
      refine (List.perm_ext_iff_of_nodup (hrest.nodup_iff.2 nodup_cosigners)
        (List.pairwise_singleton _ owner)).2 fun a => ?_
      rw [hmem, List.mem_singleton]
      constructor
      · rintro ⟨ha, hwants⟩
        exact (hall a hwants).resolve_left ha
      · rintro rfl
        exact ⟨Ne.symm hne, howner⟩
    rw [List.perm_singleton.1 hone]

end AccountTable

namespace Transaction

variable {m : Message} {keypairs : List Keypair} {signature bytes : Bytes} {tx : Transaction}
  {a : Address}

theorem signatureOf_eq_ok : signatureOf keypairs bytes a = .ok signature ↔
    ∃ k, keypairs.find? (·.address = a) = some k ∧ k.sign bytes = signature := by
  unfold signatureOf
  cases keypairs.find? (·.address = a) with
  | none => exact ⟨nofun, nofun⟩
  | some k => simp

theorem length_of_signatureOf (h : signatureOf keypairs bytes a = .ok signature) :
    signature.length = signatureSize := by
  obtain ⟨k, -, rfl⟩ := signatureOf_eq_ok.1 h
  exact Edwards25519.length_sign _ _

/-- A message is signed by all of its signers and by no one else. -/
theorem sign_eq_ok : sign m keypairs = .ok tx ↔
    (∀ k ∈ keypairs, k.address ∈ m.table.signers) ∧ ∃ signatures,
      m.table.signers.mapM (signatureOf keypairs m.encode) = .ok signatures ∧
        tx = ⟨m, signatures⟩ := by
  unfold sign
  dsimp only
  split
  case isTrue hall =>
    simp only [Checked.bind_eq_ok, Checked.pure_eq_ok, eq_comm (a := tx)]
    exact ⟨fun h => ⟨hall, h⟩, And.right⟩
  case isFalse hall => exact ⟨nofun, fun h => absurd h.1 hall⟩

theorem exists_sign_of_perm (h : (keypairs.map (·.address)).Perm m.table.signers) :
    ∃ tx, sign m keypairs = .ok tx := by
  have hmem (a : Address) : a ∈ m.table.signers ↔ ∃ k ∈ keypairs, k.address = a :=
    h.mem_iff.symm.trans List.mem_map
  have hsigned : ∀ a ∈ m.table.signers, ∃ signature,
      signatureOf keypairs m.encode a = .ok signature := by
    intro a ha
    obtain ⟨k, hk, hka⟩ := (hmem a).1 ha
    have hfound : (keypairs.find? (·.address = a)).isSome :=
      List.find?_isSome.2 ⟨k, hk, decide_eq_true hka⟩
    obtain ⟨k', hk'⟩ := Option.isSome_iff_exists.1 hfound
    exact ⟨_, signatureOf_eq_ok.2 ⟨k', hk', rfl⟩⟩
  obtain ⟨signatures, hsignatures⟩ := Checked.exists_mapM_eq_ok hsigned
  exact ⟨_, sign_eq_ok.2 ⟨fun k hk => (hmem _).2 ⟨k, hk, rfl⟩, signatures, hsignatures, rfl⟩⟩

theorem message_of_sign (h : sign m keypairs = .ok tx) : tx.message = m := by
  obtain ⟨-, _, -, rfl⟩ := sign_eq_ok.1 h
  rfl

/-- A signed transaction holds a count, the signatures and the message. -/
theorem length_encode_of_sign (h : sign m keypairs = .ok tx) :
    tx.encode.length = (compactLength m.table.signers.length).length +
      signatureSize * m.table.signers.length + m.encode.length := by
  obtain ⟨-, signatures, hsignatures, rfl⟩ := sign_eq_ok.1 h
  have hcount : signatures.length = m.table.signers.length :=
    (Checked.forall₂_of_mapM hsignatures).length_eq.symm
  have hlengths : signatures.map List.length =
      List.replicate m.table.signers.length signatureSize := by
    refine List.eq_replicate_iff.2 ⟨(List.length_map _).trans hcount, ?_⟩
    simp only [List.mem_map]
    rintro _ ⟨signature, hsignature, rfl⟩
    obtain ⟨a, -, hsigned⟩ := Checked.exists_of_mem_mapM hsignatures hsignature
    exact length_of_signatureOf hsigned
  have hlength : signatures.flatten.length = signatureSize * m.table.signers.length := by
    rw [List.length_flatten, hlengths, List.sum_replicate_nat, Nat.mul_comm]
  rw [encode, List.length_append, List.length_append, hlength, hcount]

end Transaction

namespace ComputeBudget

theorem accounts_of_setting {tag : UInt8} {width : Nat} {value : Option Int}
    {is : List Instruction} (h : setting tag width value = .ok is) : ∀ i ∈ is, i.accounts = [] := by
  cases value with
  | none =>
    cases h
    simp
  | some n =>
    obtain ⟨bytes, -, h⟩ := Checked.bind_eq_ok.1 h
    cases h
    simp

/-- Instructions for the compute budget name no account. -/
theorem accounts_of_instructions {budget : Option ComputeBudget} {is : List Instruction}
    (h : instructions budget = .ok is) : ∀ i ∈ is, i.accounts = [] := by
  cases budget with
  | none =>
    cases h
    simp
  | some b =>
    obtain ⟨limit, hlimit, h⟩ := Checked.bind_eq_ok.1 h
    obtain ⟨price, hprice, h⟩ := Checked.bind_eq_ok.1 h
    cases h
    intro i hi
    rcases List.mem_append.1 hi with hi | hi
    · exact accounts_of_setting hlimit i hi
    · exact accounts_of_setting hprice i hi

end ComputeBudget

namespace SwapRequest

variable {q : SwapRequest} {k : PoolKeys} {d : Direction} {keys : Option (Supplied PoolKeys)}
  {existing : List Address} {source destination : Address} {operations : List Operation}
  {p : SwapPlan} {budget : List Instruction} {swap i : Instruction} {u : AccountUse}

/-- A swap instruction wants the signature of the owner alone. -/
theorem swapInstruction_signers (h : q.swapInstruction k d source destination = .ok swap) :
    swap.accounts.filter (·.isSigner) = [.signer q.owner] := by
  cases k with
  | standard k =>
    obtain ⟨_, -, h⟩ := Checked.bind_eq_ok.1 h
    obtain ⟨_, -, h⟩ := Checked.bind_eq_ok.1 h
    cases h
    rfl
  | concentrated k =>
    obtain ⟨_, -, h⟩ := Checked.bind_eq_ok.1 h
    have hwritable (as : List Address) :
        (as.map AccountUse.writable).filter (·.isSigner) = [] := by
      simp [AccountUse.writable]
    cases h
    simp only [List.filter_append, hwritable, List.append_nil]
    rfl

/-- Of the steps of a request, each wants signatures of the payer and the owner at most. -/
theorem signer_of_mem_steps {s : Step}
    (hbudget : ComputeBudget.instructions q.computeBudget = .ok budget)
    (hswap : q.swapInstruction k d (q.sourceOf k d) (q.destinationOf k d) = .ok swap)
    (hs : s ∈ q.steps k d existing budget swap) (hi : i ∈ s.instructions) (hu : u ∈ i.accounts)
    (hsigner : u.isSigner = true) : u.address = q.payerOrOwner ∨ u.address = q.owner := by
  have hmem : u ∈ i.accounts.filter (·.isSigner) := List.mem_filter.2 ⟨hu, hsigner⟩
  simp only [steps, List.mem_append, Step.mem_onlyIf, List.mem_singleton] at hs
  rcases hs with (((((⟨-, rfl⟩ | ⟨-, rfl⟩) | ⟨-, rfl⟩) | ⟨-, rfl⟩) | rfl) | ⟨-, rfl⟩) | ⟨-, rfl⟩
  case inl.inl.inl.inl.inl.inl =>
    rw [ComputeBudget.accounts_of_instructions hbudget i hi] at hu
    cases hu
  case inl.inl.inl.inl.inl.inr | inl.inl.inl.inl.inr =>
    obtain rfl := List.mem_singleton.1 hi
    obtain rfl := List.mem_singleton.1 hmem
    exact .inl rfl
  case inl.inl.inl.inr =>
    rcases List.mem_cons.1 hi with rfl | hi
    · obtain rfl := List.mem_singleton.1 hmem
      exact .inr rfl
    · obtain rfl := List.mem_singleton.1 hi
      cases hmem
  case inl.inl.inr =>
    obtain rfl := List.mem_singleton.1 hi
    rw [swapInstruction_signers hswap] at hmem
    obtain rfl := List.mem_singleton.1 hmem
    exact .inr rfl
  case inl.inr | inr =>
    obtain rfl := List.mem_singleton.1 hi
    obtain rfl := List.mem_singleton.1 hmem
    exact .inr rfl

/-- The message of a plan wants the signatures of its signers, in their order. -/
theorem signers_eq_of_draft (h : q.draft keys existing = .ok p) (blockhash : Address) :
    (p.message blockhash).table.signers = p.signers := by
  obtain ⟨k, d, operations, -, -, -, -, -, hoperations, rfl⟩ := draft_eq_ok.1 h
  obtain ⟨budget, swap, hbudget, hswap, hsteps⟩ := operations_steps hoperations
  have htable : ((q.drafted (q.sourceOf k d) (q.destinationOf k d) operations).message
      blockhash).table = .compile q.payerOrOwner
        ((q.steps k d existing budget swap).flatMap (·.instructions)) := by
    refine congrArg (AccountTable.compile q.payerOrOwner) ((SwapPlan.instructions_eq _).trans ?_)
    exact congrArg _ hsteps
  rw [htable]
  refine AccountTable.signers_eq ?_ ?_
  · rintro _ ⟨i, hi, u, hu, hsigner, rfl⟩
    obtain ⟨s, hs, hi⟩ := List.mem_flatMap.1 hi
    exact signer_of_mem_steps hbudget hswap hs hi hu hsigner
  · have howner : AccountUse.signer q.owner ∈ swap.accounts.filter (·.isSigner) := by
      rw [swapInstruction_signers hswap]
      exact List.mem_singleton_self _
    have hmem : swap ∈ (q.steps k d existing budget swap).flatMap (·.instructions) :=
      List.mem_flatMap.2 ⟨⟨.swap, [swap]⟩, by simp [steps], List.mem_singleton_self _⟩
    exact ⟨swap, hmem, _, (List.mem_filter.1 howner).1, rfl, rfl⟩

end SwapRequest

/-- A rule that something breaks when it is encoded. -/
def Fault.IsBreach (f : Fault) : Prop := ∃ rule, f = .breach rule

section Breaches

open Checked

theorem fieldBytes_breaches (rule : Breach) (width : Nat) (n : Int) :
    FailsWith Fault.IsBreach (fieldBytes rule width n) := by
  unfold fieldBytes
  split
  · exact failsWith_ok _
  · exact failsWith_error ⟨rule, rfl⟩

theorem ComputeBudget.setting_breaches (tag : UInt8) (width : Nat) (value : Option Int) :
    FailsWith Fault.IsBreach (setting tag width value) := by
  cases value with
  | none => exact failsWith_ok _
  | some n => exact (fieldBytes_breaches _ _ _).bind fun _ => failsWith_ok _

theorem ComputeBudget.instructions_breaches (budget : Option ComputeBudget) :
    FailsWith Fault.IsBreach (instructions budget) := by
  cases budget with
  | none => exact failsWith_ok _
  | some b =>
    exact (setting_breaches _ _ _).bind fun _ => (setting_breaches _ _ _).bind fun _ => failsWith_ok _

namespace SwapRequest

variable (q : SwapRequest) (k : PoolKeys) (d : Direction) (source destination : Address)

theorem wrapping_breaches : FailsWith Fault.IsBreach (q.wrapping source) := by
  have htransfer : FailsWith Fault.IsBreach
      (Instruction.transferNative q.owner source q.amountIn) :=
    (fieldBytes_breaches _ _ _).bind fun _ => failsWith_ok _
  unfold wrapping
  split
  · exact (htransfer.bind fun _ => failsWith_ok _).bind fun _ => failsWith_ok _
  · exact failsWith_ok _

theorem swapInstruction_breaches :
    FailsWith Fault.IsBreach (q.swapInstruction k d source destination) := by
  cases k with
  | standard k =>
    exact (fieldBytes_breaches _ _ _).bind fun _ => (fieldBytes_breaches _ _ _).bind fun _ =>
      failsWith_ok _
  | concentrated k =>
    have hdata : FailsWith Fault.IsBreach (ConcentratedKeys.swapData q.amountIn q.minAmountOut
        q.sqrtPriceLimit true) :=
      (fieldBytes_breaches _ _ _).bind fun _ => (fieldBytes_breaches _ _ _).bind fun _ =>
        (fieldBytes_breaches _ _ _).bind fun _ => failsWith_ok _
    exact hdata.bind fun _ => failsWith_ok _

/-- Operations are refused only for what cannot be encoded. -/
theorem operations_breaches (existing : List Address) :
    FailsWith Fault.IsBreach (q.operations k d source destination existing) :=
  (ComputeBudget.instructions_breaches _).bind fun _ => (wrapping_breaches _ _).bind fun _ =>
    (swapInstruction_breaches _ _ _ _ _).bind fun _ => failsWith_ok _

/-- No check but that of its size refuses a plan for being too large. -/
theorem draft_breaches (keys : Option (Supplied PoolKeys)) (existing : List Address) :
    FailsWith (fun f => ∀ cause, f ≠ .planTooLarge cause) (q.draft keys existing) := by
  unfold draft
  split
  case h_1 | h_2 => exact failsWith_error nofun
  case h_3 k =>
    refine .bind ?complete fun _ => .bind ?direction fun d => .bind ?state fun _ =>
      .bind ?amounts fun _ => .bind (.bind ?direction fun _ => failsWith_ok _)
        fun ⟨source, destination⟩ => .bind ?operations fun _ => failsWith_ok _
    case complete =>
      rintro _ h cause rfl
      unfold PoolKeys.checkComplete at h
      repeat' split at h
      all_goals cases h
    case direction =>
      rintro _ h cause rfl
      unfold PoolKeys.directionOf at h
      repeat' split at h
      all_goals cases h
    case state =>
      rintro _ h cause rfl
      unfold checkState PoolKeys.requireFresh at h
      dsimp only at h
      repeat' split at h
      all_goals cases h
    case amounts =>
      rintro _ h cause rfl
      unfold checkAmounts at h
      repeat' split at h
      all_goals cases h
    case operations =>
      rintro _ h cause rfl
      obtain ⟨rule, hrule⟩ := operations_breaches _ _ _ _ _ _ _ h
      cases hrule

end SwapRequest

end Breaches

theorem SwapPlan.checkSize_eq_error {p : SwapPlan} {fault : Fault} : p.checkSize = .error fault ↔
    maxBytes < p.size ∧ fault = .planTooLarge (.bytes p.size maxBytes) := by
  by_cases hsize : maxBytes < p.size
  · rw [checkSize, if_pos hsize]
    exact ⟨fun h => ⟨hsize, (Except.error.inj h).symm⟩, fun h => h.2 ▸ rfl⟩
  · rw [checkSize_eq_ok.2 (Nat.not_lt.1 hsize)]
    exact ⟨nofun, fun h => absurd h.1 hsize⟩

namespace SwapRequest

variable {q : SwapRequest} {keys : Option (Supplied PoolKeys)} {existing : List Address}
  {p : SwapPlan} {cause : PlanExcess}

/-- A request is refused for its size exactly if its plan is too long, and then for its bytes. -/
theorem plan_eq_tooLarge : q.plan keys existing = .error (.planTooLarge cause) ↔
    ∃ p, q.draft keys existing = .ok p ∧ SwapPlan.maxBytes < p.size ∧
      cause = .bytes p.size SwapPlan.maxBytes := by
  rw [plan_eq_draft]
  constructor
  · intro h
    rcases Checked.bind_eq_error.1 h with h | ⟨p, hdraft, h⟩
    · exact absurd rfl (draft_breaches q keys existing _ h cause)
    · rcases Checked.bind_eq_error.1 h with h | ⟨_, -, h⟩
      · obtain ⟨hsize, hcause⟩ := SwapPlan.checkSize_eq_error.1 h
        cases hcause
        exact ⟨p, hdraft, hsize, rfl⟩
      · cases h
  · rintro ⟨p, hdraft, hsize, rfl⟩
    have hcheck := SwapPlan.checkSize_eq_error.2 ⟨hsize, rfl⟩
    exact Checked.bind_eq_error.2 (.inr ⟨p, hdraft, Checked.bind_eq_error.2 (.inl hcheck)⟩)

end SwapRequest

namespace SwapPlan

variable {p : SwapPlan} {keypairs : List Keypair} {blockhash s : Address} {tx : Transaction}

theorem sign_eq_sign (h : ∀ s ∈ p.signers, s ∈ keypairs.map (·.address)) (blockhash : Address) :
    p.sign keypairs blockhash = Transaction.sign (p.message blockhash) keypairs := by
  have hnone : (p.signers.filter fun s => !keypairs.any (·.address = s)) = [] := by
    refine List.filter_eq_nil_iff.2 fun s hs => ?_
    obtain ⟨k, hk, rfl⟩ := List.mem_map.1 (h s hs)
    simpa using ⟨k, hk, rfl⟩
  simp only [sign, hnone]
  rfl

theorem sign_eq_error (hs : s ∈ p.signers) (hmissing : s ∉ keypairs.map (·.address))
    (blockhash : Address) : ∃ missing, s ∈ missing ∧
      p.sign keypairs blockhash = .error (.argument (.missingSigners missing)) := by
  have hmem : s ∈ p.signers.filter fun s => !keypairs.any (·.address = s) := by
    refine List.mem_filter.2 ⟨hs, ?_⟩
    simpa using fun k hk heq => hmissing (List.mem_map.2 ⟨k, hk, heq⟩)
  refine ⟨_, hmem, ?_⟩
  unfold sign
  dsimp only
  rw [if_neg]
  simpa using List.ne_nil_of_mem hmem

/-- The message has one size for all blockhashes, so the size is known before it is signed. -/
theorem length_encode_of_sign (hsigners : (p.message blockhash).table.signers = p.signers)
    (hfew : p.signers.length < 0x80)
    (hsign : Transaction.sign (p.message blockhash) keypairs = .ok tx) :
    tx.encode.length = p.size := by
  have hblank : p.blankMessage.table.signers = p.signers := hsigners
  have hmessage : (p.message blockhash).encode.length = p.blankMessage.encode.length := by
    rw [Message.length_encode, Message.length_encode]
    rfl
  have hcount : (compactLength p.signers.length).length = 1 := by
    rw [compactLength, if_pos hfew]
    rfl
  rw [Transaction.length_encode_of_sign hsign, hsigners, hcount, hmessage, size, hblank]

end SwapPlan

namespace SwapRequest

variable {q : SwapRequest} {keys : Option (Supplied PoolKeys)} {existing : List Address}
  {p : SwapPlan}

theorem signers_of_draft (h : q.draft keys existing = .ok p) : p.payer = q.payerOrOwner ∧
    p.signers = if q.payerOrOwner = q.owner then [q.payerOrOwner] else [q.payerOrOwner, q.owner] := by
  obtain ⟨k, d, operations, -, -, -, -, -, -, rfl⟩ := draft_eq_ok.1 h
  exact ⟨rfl, rfl⟩

/-- With the keypairs of its signers a plan is signed, and its transaction has the predicted size. -/
theorem exists_sign_of_draft {keypairs : List Keypair} (h : q.draft keys existing = .ok p)
    (hkeypairs : (keypairs.map (·.address)).Perm p.signers) (blockhash : Address) :
    ∃ tx, p.sign keypairs blockhash = .ok tx ∧ tx.message = p.message blockhash ∧
      tx.encode.length = p.size := by
  have hfew : p.signers.length < 0x80 := by
    rw [(signers_of_draft h).2]
    split <;> simp
  have hsigners := signers_eq_of_draft h blockhash
  obtain ⟨tx, htx⟩ := Transaction.exists_sign_of_perm (m := p.message blockhash)
    (hsigners ▸ hkeypairs)
  refine ⟨tx, ?_, Transaction.message_of_sign htx, SwapPlan.length_encode_of_sign hsigners hfew htx⟩
  rw [SwapPlan.sign_eq_sign (fun s hs => hkeypairs.mem_iff.2 hs), htx]

/-- A plan is a draft that is short enough. Whatever the blockhash, its message wants the signatures
of its signers and of no one else, the payer's first; with their keypairs it is signed and has the
size that was checked, and without one of them it is not. A draft that would be too long when signed
is refused for its size in bytes, and nothing is refused for its number of accounts. -/
theorem plan_signs_and_fits (q : SwapRequest) (keys : Option (Supplied PoolKeys))
    (existing : List Address) :
    (∀ p, q.plan keys existing = .ok p ↔
      q.draft keys existing = .ok p ∧ p.size ≤ SwapPlan.maxBytes) ∧
    (∀ p, q.draft keys existing = .ok p →
      p.payer = q.payerOrOwner ∧
      p.signers = (if p.payer = q.owner then [p.payer] else [p.payer, q.owner]) ∧
      ∀ blockhash,
        (p.message blockhash).table.signers = p.signers ∧
        (p.message blockhash).table.addresses.take p.signers.length = p.signers ∧
        (p.size ≤ SwapPlan.maxBytes →
          (p.message blockhash).table.addresses.length ≤ SwapPlan.maxAccounts) ∧
        ∀ keypairs,
          ((keypairs.map (·.address)).Perm p.signers → ∃ tx,
            p.sign keypairs blockhash = .ok tx ∧ tx.message = p.message blockhash ∧
            tx.encode.length = p.size) ∧
          ∀ s ∈ p.signers, s ∉ keypairs.map (·.address) → ∃ missing, s ∈ missing ∧
            p.sign keypairs blockhash = .error (.argument (.missingSigners missing))) ∧
    ∀ cause, q.plan keys existing = .error (.planTooLarge cause) ↔
      ∃ p, q.draft keys existing = .ok p ∧ SwapPlan.maxBytes < p.size ∧
        cause = .bytes p.size SwapPlan.maxBytes := by
  refine ⟨fun p => ?_, fun p hdraft => ?_, fun cause => plan_eq_tooLarge⟩
  · rw [plan_eq_ok_iff_draft, SwapPlan.checkSize_eq_ok]
  · obtain ⟨hpayer, hsigners⟩ := signers_of_draft hdraft
    refine ⟨hpayer, hpayer ▸ hsigners, fun blockhash => ?_⟩
    have htable := signers_eq_of_draft hdraft blockhash
    refine ⟨htable, ?_, fun hsize => ?_, fun keypairs => ⟨fun hkeypairs => ?_, ?_⟩⟩
    · rw [← htable]
      exact AccountTable.take_signers _ _
    · exact SwapPlan.length_addresses_le hsize blockhash
    · exact exists_sign_of_draft hdraft hkeypairs blockhash
    · exact fun s hs hmissing => SwapPlan.sign_eq_error hs hmissing blockhash

/-- A pool of two mints, with its trades going through some tick arrays. -/
def pairPool (tickArrays : List Address) : ConcentratedKeys where
  programId := .concentratedPoolProgram
  id := .ofNat 1
  mintA := .ofNat 2
  mintB := .ofNat 3
  vaultA := .ofNat 6
  vaultB := .ofNat 7
  ammConfig := .ofNat 8
  observationId := .ofNat 9
  exBitmap := some (.ofNat 10)
  mintProgramA := none
  mintProgramB := some .token2022Program
  tickArrays

def ownerKeypair : Keypair := .ofSeed (List.replicate 32 1) List.length_replicate

def payerKeypair : Keypair := .ofSeed (List.replicate 32 2) List.length_replicate

/-- A sale of its first mint, in a transaction that another account pays for. -/
def sponsored : SwapRequest where
  owner := ownerKeypair.address
  mintIn := .ofNat 2
  mintOut := .ofNat 3
  amountIn := 1000
  minAmountOut := 1
  computeBudget := none
  state := none
  wrapNative := false
  payer := some payerKeypair.address
  sqrtPriceLimit := 0

/-- The owner's accounts of a request. -/
def held (q : SwapRequest) (k : PoolKeys) (d : Direction) : List Address :=
  [q.sourceOf k d, q.destinationOf k d]

/-- A plan needs nothing but its swap if the owner's accounts exist, no budget is asked for and nothing
is wrapped. -/
theorem exists_draft_held {k : PoolKeys} {d : Direction} {swap : Instruction} {n : Nat}
    (hcomplete : k.checkComplete = .ok ()) (hd : k.directionOf q.mintIn q.mintOut = .ok d)
    (hstate : q.checkState k = .ok ()) (hamounts : q.checkAmounts k = .ok ())
    (hamount : q.amountIn = n) (hfits : n < LittleEndian.capacity 8)
    (hbudget : q.computeBudget = none) (hwrap : ¬(q.wrapNative = true ∧ q.mintIn = .nativeMint))
    (hswap : q.swapInstruction k d (q.sourceOf k d) (q.destinationOf k d) = .ok swap) :
    ∃ p, q.draft (some (.value k)) (q.held k d) = .ok p ∧ p.instructions = [swap] := by
  have hnone : ComputeBudget.instructions q.computeBudget = .ok [] := by rw [hbudget]; rfl
  obtain ⟨operations, hoperations⟩ := exists_operations hnone hamount hfits hswap
  refine ⟨_, draft_eq_ok.2 ⟨k, d, operations, rfl, hcomplete, hd, hstate, hamounts, hoperations,
    rfl⟩, ?_⟩
  obtain ⟨budget, swap', hbudget', hswap', hsteps⟩ := operations_steps hoperations
  cases hnone.symm.trans hbudget'
  cases hswap.symm.trans hswap'
  rw [SwapPlan.instructions_eq]
  change (operations.map (·.step)).flatMap (·.instructions) = [swap]
  rw [hsteps]
  simp [steps, Step.onlyIf, held, hwrap]

theorem length_compactLength_le (n : Nat) : (compactLength n).length ≤ 3 := by
  unfold compactLength
  split
  · simp
  · split <;> simp

/-- A bound for the size of a plan, from addresses among which are all that it uses. -/
theorem size_le_of_draft {addresses : List Address} (h : q.draft keys existing = .ok p)
    (haddresses : ∀ u ∈ AccountTable.usesOf p.instructions, u.address ∈ p.payer :: addresses) :
    p.size ≤ 202 + 32 * addresses.length + (p.instructions.map Message.instructionSize).sum := by
  have hsigners : (AccountTable.others p.payer p.instructions).countP (·.isSigner) + 1 ≤ 2 := by
    have htable : (p.message (.ofNat 0)).table.signers.length = _ := AccountTable.length_signers
    rw [signers_eq_of_draft h, (signers_of_draft h).2] at htable
    refine htable ▸ ?_
    split <;> simp
  have hothers := AccountTable.length_others_le haddresses
  have hcompact := length_compactLength_le
    ((AccountTable.others p.payer p.instructions).length + 1)
  have hcompact' := length_compactLength_le p.instructions.length
  rw [SwapPlan.size_eq, SwapPlan.transactionSize]
  omega

/-- The size of a plan that only swaps, told from its swap. -/
theorem size_of_draft {swap : Instruction} (h : q.draft keys existing = .ok p)
    (hinstructions : p.instructions = [swap]) : swap.accounts.length ≤ p.size ∧
      p.size ≤ 241 + 33 * swap.accounts.length + swap.data.length := by
  have hsum : (p.instructions.map Message.instructionSize).sum = Message.instructionSize swap := by
    simp [hinstructions]
  constructor
  · rw [SwapPlan.size_eq, SwapPlan.transactionSize, hsum, Message.instructionSize]
    omega
  · have haddresses : ∀ u ∈ AccountTable.usesOf p.instructions,
        u.address ∈ p.payer :: (AccountTable.usesOf p.instructions).map (·.address) :=
      fun u hu => List.mem_cons_of_mem _ (List.mem_map_of_mem hu)
    have hle := size_le_of_draft h haddresses
    have huses : (AccountTable.usesOf p.instructions).length = swap.accounts.length + 1 := by
      simp [AccountTable.usesOf, hinstructions]
    have hcompact := length_compactLength_le swap.accounts.length
    have hcompact' := length_compactLength_le swap.data.length
    rw [hsum, Message.instructionSize, List.length_map, huses] at hle
    omega

/-- The size of the sponsored sale, told from the number of tick arrays that it goes through. -/
theorem exists_draft_sponsored (tickArrays : List Address) (h : tickArrays ≠ []) :
    ∃ p, sponsored.draft (some (.value (.concentrated (pairPool tickArrays))))
        (sponsored.held (.concentrated (pairPool tickArrays)) .zeroForOne) = .ok p ∧
      14 + tickArrays.length ≤ p.size ∧ p.size ≤ 744 + 33 * tickArrays.length := by
  obtain ⟨p, hp, hinstructions⟩ := exists_draft_held (q := sponsored) (n := 1000)
    (k := .concentrated (pairPool tickArrays)) (d := .zeroForOne)
    (by simpa [PoolKeys.checkComplete, pairPool] using h) (if_pos ⟨rfl, rfl⟩) rfl rfl rfl
    (by decide) rfl nofun rfl
  refine ⟨p, hp, Nat.le_trans ?_ (size_of_draft hp hinstructions).1,
    Nat.le_trans (size_of_draft hp hinstructions).2 ?_⟩
  · simp [pairPool]
    omega
  · simp only [pairPool, ConcentratedKeys.length_swapDiscriminator, LittleEndian.length_encode,
      List.length_append, List.length_map, List.length_cons, List.length_nil, Option.toList_some]
    omega

theorem payerKeypair_ne_ownerKeypair : payerKeypair.address ≠ ownerKeypair.address := by
  decide +kernel

/-- A transaction with a payer of its own, and one that would go through too many tick arrays. -/
theorem plan_signs_and_fits_sponsored :
    (∃ p, sponsored.plan (some (.value (.concentrated (pairPool [.ofNat 20, .ofNat 21]))))
        (sponsored.held (.concentrated (pairPool [.ofNat 20, .ofNat 21])) .zeroForOne) = .ok p ∧
      p.signers = [payerKeypair.address, ownerKeypair.address] ∧
      (∃ tx, p.sign [ownerKeypair, payerKeypair] (.ofNat 30) = .ok tx ∧
        tx.encode.length = p.size ∧ tx.encode.length ≤ 1232) ∧
      ∃ missing, ownerKeypair.address ∈ missing ∧ p.sign [payerKeypair] (.ofNat 30) =
        .error (.argument (.missingSigners missing))) ∧
    ∃ size, 1232 < size ∧
      sponsored.plan (some (.value (.concentrated (pairPool (List.replicate 1300 (.ofNat 20))))))
        (sponsored.held (.concentrated (pairPool (List.replicate 1300 (.ofNat 20)))) .zeroForOne) =
          .error (.planTooLarge (.bytes size 1232)) := by
  constructor
  · obtain ⟨p, hdraft, -, hsize⟩ := exists_draft_sponsored [.ofNat 20, .ofNat 21] (by simp)
    obtain ⟨hplan, hsigned, -⟩ := plan_signs_and_fits sponsored
      (some (.value (.concentrated (pairPool [.ofNat 20, .ofNat 21]))))
      (sponsored.held (.concentrated (pairPool [.ofNat 20, .ofNat 21])) .zeroForOne)
    obtain ⟨hpayer, hsigners, hmessage⟩ := hsigned p hdraft
    have hsize : p.size ≤ SwapPlan.maxBytes := Nat.le_trans hsize (by decide)
    have htwo : p.signers = [payerKeypair.address, ownerKeypair.address] := by
      rw [hsigners, hpayer]
      exact if_neg payerKeypair_ne_ownerKeypair
    obtain ⟨-, -, -, hkeypairs⟩ := hmessage (.ofNat 30)
    obtain ⟨tx, hsign, -, hlength⟩ := (hkeypairs [ownerKeypair, payerKeypair]).1 (by
      rw [htwo]
      exact .swap _ _ _)
    refine ⟨p, (hplan p).2 ⟨hdraft, hsize⟩, htwo, ⟨tx, hsign, hlength, hlength ▸ hsize⟩, ?_⟩
    exact (hkeypairs [payerKeypair]).2 ownerKeypair.address (by simp [htwo])
      (by simpa using payerKeypair_ne_ownerKeypair.symm)
  · obtain ⟨p, hdraft, hsize, -⟩ :=
      exists_draft_sponsored (List.replicate 1300 (.ofNat 20)) (List.cons_ne_nil _ _)
    rw [List.length_replicate] at hsize
    have hlong : SwapPlan.maxBytes < p.size := Nat.lt_of_lt_of_le (by decide) hsize
    obtain ⟨-, -, htoo⟩ := plan_signs_and_fits sponsored
      (some (.value (.concentrated (pairPool (List.replicate 1300 (.ofNat 20))))))
      (sponsored.held (.concentrated (pairPool (List.replicate 1300 (.ofNat 20)))) .zeroForOne)
    exact ⟨p.size, hlong, (htoo _).2 ⟨p, hdraft, hlong, rfl⟩⟩

end SwapRequest

end PoolSwap
