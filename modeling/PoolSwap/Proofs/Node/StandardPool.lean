import PoolSwap.Node.PoolReader
import PoolSwap.Proofs.Layout.Reader
import PoolSwap.Proofs.Node.Query

/-! Standard pools as a node holds them: reading one is a function of the accounts of the pool and
of its vaults. -/
namespace PoolSwap

theorem StandardPool.make?_eq_ok {poolId mintA mintB : Address}
    {reserveA reserveB feeNumerator feeDenominator : Int} {S : StandardPool}
    (h : make? poolId mintA mintB reserveA reserveB feeNumerator feeDenominator = .ok S) :
    S.poolId = poolId ∧ S.mintA = mintA ∧ S.mintB = mintB ∧ S.reserveA = reserveA ∧
      S.reserveB = reserveB ∧ S.feeNumerator = feeNumerator ∧
      S.feeDenominator = feeDenominator := by
  unfold make? at h
  split at h
  case isFalse => cases h
  case isTrue =>
    split at h
    case isFalse => cases h
    case isTrue =>
      split at h
      case isFalse => cases h
      case isTrue =>
        cases h
        exact ⟨rfl, rfl, rfl, rfl, rfl, rfl, rfl⟩

namespace Node

variable {n : Node} {poolId program : Address} {S : StandardPool}

theorem ask_liftChecked (n : Node) (c : Checked α) : n.ask (liftChecked c) = (c, n) := by
  cases c <;> rfl

theorem liftChecked_bind_eq_ok {c : Checked α} {f : α → Query β} {b : β} :
    (n.ask (liftChecked c >>= f)).1 = .ok b ↔ ∃ a, c = .ok a ∧ (n.ask (f a)).1 = .ok b := by
  rw [ask_bind_eq_ok, ask_liftChecked]

theorem requireOwner_eq_ok {what : String} {address : Address} {account : Account} :
    requireOwner what address account [program] = .ok () ↔ account.owner = program := by
  simp only [requireOwner, List.mem_singleton]
  split
  case isTrue howner => exact ⟨fun _ => howner, fun _ => rfl⟩
  case isFalse hother => exact ⟨nofun, fun howner => absurd howner hother⟩

/-- Data is read of an account that exists and that the program owns. -/
theorem dataOf_bind_eq_ok {what : String} {address : Address} {f : Bytes → Query β} {b : β} :
    (n.ask (dataOf what address program >>= f)).1 = .ok b ↔ n.reach .accountInfo = .ok () ∧
      ∃ account, n.accounts address = some account ∧ account.owner = program ∧
        ((n.logged (.accountInfo address)).ask (f account.data)).1 = .ok b := by
  unfold dataOf
  rw [bind_assoc, accountInfo_bind_eq_ok]
  refine and_congr_right fun _ => ?_
  cases haccount : n.accounts address with
  | none => exact ⟨nofun, nofun⟩
  | some account =>
    simp only [bind_assoc, liftChecked_bind_eq_ok, pure_bind]
    constructor
    · rintro ⟨_, howner, h⟩
      exact ⟨account, rfl, requireOwner_eq_ok.1 howner, h⟩
    · rintro ⟨_, ⟨⟩, howner, h⟩
      exact ⟨(), requireOwner_eq_ok.2 howner, h⟩

/-- How the fields of a standard pool come from the accounts of a node. -/
structure HoldsPool (n : Node) (poolId : Address) (S : StandardPool) (pool : StandardPoolAccount)
    (base quote : Nat) : Prop where
  pool_eq : ∃ account, n.accounts poolId = some account ∧
    StandardPoolAccount.decode account.data (some poolId.text) = .ok pool
  base_eq : ∃ account, n.accounts pool.baseVault = some account ∧
    TokenAccount.decodeAmount account.data (some pool.baseVault.text) = .ok base
  quote_eq : ∃ account, n.accounts pool.quoteVault = some account ∧
    TokenAccount.decodeAmount account.data (some pool.quoteVault.text) = .ok quote
  poolId_eq : S.poolId = poolId
  mintA_eq : S.mintA = pool.baseMint
  mintB_eq : S.mintB = pool.quoteMint
  reserveA_eq : S.reserveA = max 0 ((base : Int) - pool.baseNeedTakePnl)
  reserveB_eq : S.reserveB = max 0 ((quote : Int) - pool.quoteNeedTakePnl)
  feeNumerator_eq : S.feeNumerator = pool.swapFeeNumerator
  feeDenominator_eq : S.feeDenominator = pool.swapFeeDenominator

theorem vaultAmount_eq_ok {pool vault : Address} {account : Option Account} {amount : Nat}
    (h : vaultAmount pool vault account = .ok amount) :
    ∃ a, account = some a ∧ TokenAccount.decodeAmount a.data (some vault.text) = .ok amount := by
  cases account with
  | none => cases h
  | some a =>
    obtain ⟨_, -, h⟩ := Checked.bind_eq_ok.1 h
    exact ⟨a, rfl, h⟩

theorem vaultAmount_of_token {pool vault : Address} {data : Bytes} {amount : Nat}
    (h : TokenAccount.decodeAmount data (some vault.text) = .ok amount) :
    vaultAmount pool vault (some ⟨.tokenProgram, data⟩) = .ok amount :=
  Checked.bind_eq_ok.2 ⟨(), if_pos List.mem_cons_self, h⟩

theorem readStandardPool_holds (h : (n.ask (readStandardPool poolId program)).1 = .ok S) :
    ∃ pool base quote, n.HoldsPool poolId S pool base quote := by
  obtain ⟨-, account, haccount, -, h⟩ := dataOf_bind_eq_ok.1 h
  obtain ⟨pool, hpool, h⟩ := liftChecked_bind_eq_ok.1 h
  obtain ⟨-, h⟩ := multipleAccounts_bind_eq_ok.1 h
  obtain ⟨base, hbase, h⟩ := liftChecked_bind_eq_ok.1 h
  obtain ⟨quote, hquote, h⟩ := liftChecked_bind_eq_ok.1 h
  split at h
  case h_1 state hmake =>
    cases h
    obtain ⟨hpoolId, hmintA, hmintB, hreserveA, hreserveB, hnumerator, hdenominator⟩ :=
      StandardPool.make?_eq_ok hmake
    exact ⟨pool, base, quote, ⟨account, haccount, hpool⟩, vaultAmount_eq_ok hbase,
      vaultAmount_eq_ok hquote, hpoolId, hmintA, hmintB, hreserveA, hreserveB, hnumerator,
      hdenominator⟩
  case h_2 => cases h

variable {pool : StandardPoolAccount} {base quote : Nat}

/-- Reserves are at most the amounts in the vaults, so they fit in 64 bits. -/
theorem HoldsPool.reserves_lt (h : n.HoldsPool poolId S pool base quote) :
    S.reserveA < LittleEndian.capacity 8 ∧ S.reserveB < LittleEndian.capacity 8 := by
  obtain ⟨_, -, hbase⟩ := h.base_eq
  obtain ⟨_, -, hquote⟩ := h.quote_eq
  have hbase' := TokenAccount.decodeAmount_lt hbase
  have hquote' := TokenAccount.decodeAmount_lt hquote
  rw [h.reserveA_eq, h.reserveB_eq]
  omega

end Node
end PoolSwap
