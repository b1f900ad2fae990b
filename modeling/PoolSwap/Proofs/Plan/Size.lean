import Mathlib.Algebra.Ring.Nat
import Mathlib.Data.List.Perm.Basic
import PoolSwap.Plan

/-! The size of a plan's transaction. Sorting the accounts of a table moves them around and neither
adds nor drops one, so their count and the signers' count are those of the unsorted accounts. -/
namespace PoolSwap

namespace AccountTable

variable {payer : Address} {instructions : List Instruction}

/-- The accounts other than the payer that some instructions use, in no particular order. -/
def others (payer : Address) (instructions : List Instruction) : List AccountUse :=
  (((usesOf instructions).map (·.address)).eraseDups.filter (· ≠ payer)).map
    (merged (usesOf instructions))

theorem perm_groups (uses : List AccountUse) :
    (uses.filter (fun u => u.isSigner = true && u.isWritable = true) ++
      uses.filter (fun u => u.isSigner = true && u.isWritable = false) ++
      uses.filter (fun u => u.isSigner = false && u.isWritable = true) ++
      uses.filter (fun u => u.isSigner = false && u.isWritable = false)).Perm uses := by
  rw [List.perm_iff_count]
  intro u
  rcases u with ⟨a, _ | _, _ | _⟩ <;> simp [List.count_filter, List.count_eq_zero_of_not_mem]

/-- A table holds the payer and the other accounts. -/
theorem compile_perm :
    (compile payer instructions).uses.Perm (.writableSigner payer :: others payer instructions) := by
  refine List.Perm.cons _ (List.Perm.trans ?_ (perm_groups _))
  exact (((List.mergeSort_perm _ _).append (List.mergeSort_perm _ _)).append
    (List.mergeSort_perm _ _)).append (List.mergeSort_perm _ _)

theorem length_addresses :
    (compile payer instructions).addresses.length = (others payer instructions).length + 1 := by
  rw [addresses, List.length_map, compile_perm.length_eq, List.length_cons]

theorem length_signers : (compile payer instructions).signers.length =
    (others payer instructions).countP (·.isSigner) + 1 := by
  rw [signers, List.length_map, ← List.countP_eq_length_filter, compile_perm.countP_eq]
  exact List.countP_cons_of_pos rfl

end AccountTable

namespace Message

def instructionSize (i : Instruction) : Nat :=
  1 + (compactLength i.accounts.length).length + i.accounts.length +
    (compactLength i.data.length).length + i.data.length

theorem length_instructionBytes (t : AccountTable) (i : Instruction) :
    (instructionBytes t i).length = instructionSize i := by
  simp only [instructionBytes, instructionSize, List.length_append, List.length_cons,
    List.length_map]
  omega

/-- A message holds three counts, its accounts, the blockhash and its instructions. -/
theorem length_encode (m : Message) :
    let accounts := (AccountTable.others m.payer m.instructions).length + 1
    m.encode.length = 35 + (compactLength accounts).length + 32 * accounts +
      (compactLength m.instructions.length).length +
      (m.instructions.map instructionSize).sum := by
  have haddresses (as : List Address) : (as.flatMap (·.bytes)).length = 32 * as.length := by
    simp [List.length_flatMap, Address.length_bytes, Nat.mul_comm]
  have hinstructions (is : List Instruction) :
      (is.flatMap (instructionBytes m.table)).length = (is.map instructionSize).sum := by
    simp only [List.length_flatMap, length_instructionBytes]
  have hcount : m.table.addresses.length = _ := AccountTable.length_addresses
  simp only [encode, List.length_append, hinstructions, haddresses, hcount, AccountTable.header,
    m.blockhash.length_bytes, List.length_cons, List.length_nil]
  omega

end Message

namespace SwapPlan

/-- The size of a signed transaction, told from its instructions without sorting its accounts. -/
def transactionSize (payer : Address) (instructions : List Instruction) : Nat :=
  let others := AccountTable.others payer instructions
  1 + 64 * (others.countP (·.isSigner) + 1) + 35 + (compactLength (others.length + 1)).length +
    32 * (others.length + 1) + (compactLength instructions.length).length +
    (instructions.map Message.instructionSize).sum

theorem size_eq (p : SwapPlan) : p.size = transactionSize p.payer p.instructions := by
  have hsigners : p.blankMessage.table.signers.length = _ := AccountTable.length_signers
  have hencode : p.blankMessage.encode.length = _ := p.blankMessage.length_encode
  rw [size, hsigners, hencode]
  simp only [transactionSize, blankMessage, message, Transaction.signatureSize]
  omega

/-- Accounts take 32 bytes each, so a transaction that is short enough has few enough of them. -/
theorem length_addresses_le {p : SwapPlan} (h : p.size ≤ maxBytes) (blockhash : Address) :
    (p.message blockhash).table.addresses.length ≤ maxAccounts := by
  have haccounts : (p.message blockhash).table.addresses.length = _ :=
    AccountTable.length_addresses
  have hsize := p.size_eq
  simp only [transactionSize] at hsize
  simp only [message, maxBytes, maxAccounts] at *
  omega

theorem checkSize_eq_ok {p : SwapPlan} : p.checkSize = .ok () ↔ p.size ≤ maxBytes := by
  unfold checkSize
  split
  case isTrue htoo => exact ⟨nofun, fun hle => absurd htoo (Nat.not_lt.2 hle)⟩
  case isFalse hfits =>
    have hle := Nat.not_lt.1 hfits
    have hfew : ¬ maxAccounts < p.blankMessage.table.addresses.length :=
      Nat.not_lt.2 (length_addresses_le hle _)
    exact ⟨fun _ => hle, fun _ => if_neg hfew⟩

end SwapPlan
end PoolSwap
