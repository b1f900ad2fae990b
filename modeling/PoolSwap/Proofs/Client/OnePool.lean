import PoolSwap.Proofs.Client.Keys
import PoolSwap.Proofs.Client.Swap

/-! A swap has to do with one pool: that of the keys it looks up. It asks for the account of no other
pool, quotes a state of that pool, and sends a swap with that pool alone. -/
namespace PoolSwap

/-- Where a swap names its pool. -/
def PoolKind.poolPlace : PoolKind → Nat
  | .standard => 1
  | .concentrated => 2

theorem SwapRequest.pool_of_swapInstruction {q : SwapRequest} {k : PoolKeys} {d : Direction}
    {source destination : Address} {swap : Instruction}
    (h : q.swapInstruction k d source destination = .ok swap) :
    swap.accounts[k.kind.poolPlace]? = some (.writable k.id) := by
  cases k with
  | standard k =>
    obtain ⟨_, -, h⟩ := Checked.bind_eq_ok.1 h
    obtain ⟨_, -, h⟩ := Checked.bind_eq_ok.1 h
    cases h
    rfl
  | concentrated k =>
    obtain ⟨_, -, h⟩ := Checked.bind_eq_ok.1 h
    cases d <;>
    · cases h
      rfl

/-- A call that asks for no single account but those with some text. -/
def Node.AsksFor (text : String) (call : Call) : Prop :=
  ∀ address, call = .accountInfo address → address.text = text

theorem Node.LooksAt.asksFor {address : Address} {call : Call} {text : String}
    (h : LooksAt address call) (htext : address.text = text) : AsksFor text call := by
  rintro other rfl
  rcases h with hbatched | heq
  · exact absurd hbatched (show Method.accountInfo ∉ batched by decide)
  · cases heq
    exact htext

namespace Client

open Node (AsksFor Logs Makes)

variable {c : Client} {x : Action α} {f : α → Action β} {p : Call → Prop} {o : Order}
  {text : String} {hit : Bool}

/-- What an action asks of the node, from a client on. -/
def Asks (p : Call → Prop) (c : Client) (x : Action α) : Prop :=
  Logs p c.node.calls (c.act x).2.node.calls

theorem Asks.bind (hx : Asks p c x)
    (hf : ∀ a c', c.act x = (.ok a, c') → Asks p c' (f a)) : Asks p c (x >>= f) := by
  unfold Asks at *
  rw [act_bind]
  revert hx
  cases hact : c.act x with
  | mk answer c' =>
    cases answer with
    | error fault => exact id
    | ok a => exact fun hx => hx.trans (hf a c' hact)

theorem asks_get_bind {f : Client → Action β} (h : Asks p c (f c)) : Asks p c (get >>= f) := by
  unfold Asks
  rw [act_bind, act_get]
  exact h

theorem asks_askNode {q : Node.Query α} (h : Makes p q) : Asks p c (askNode q) := by
  unfold Asks
  rw [act_askNode]
  exact (h c.present).logs

theorem asks_pure (a : α) : Asks p c (pure a) := .refl p _

theorem Retains.asks (h : Retains Node.batched x) : Asks (AsksFor text) c x := by
  refine (h c).grows.mono fun call hcall address haddress => ?_
  subst haddress
  exact absurd hcall (show Method.accountInfo ∉ Node.batched by decide)

theorem readPool_asks {poolId : String} {mintIn : Option Address}
    (hkeys : ∀ keys hit, (c.act (keysFor poolId)).1 = .ok (keys, hit) → keys.id.text = text) :
    Asks (AsksFor text) c (readPool poolId mintIn) := by
  refine (keysFor_retains poolId).asks.bind fun ⟨keys, hit⟩ c₁ hact => ?_
  have hid : keys.id.text = text := hkeys keys hit (congrArg Prod.fst hact)
  cases keys with
  | standard k =>
    have hread := (Node.readStandardPool_looksAt k.id k.programId).mono fun _ h => h.asksFor hid
    exact (asks_askNode hread).bind fun _ _ _ => asks_pure _
  | concentrated k =>
    refine asks_get_bind ?_
    have hread := (Node.readConcentratedPool_looksAt k.id (.ofBool (mintIn.all (· = k.mintA)))
      c₁.config.tickArrayWindow k.programId).mono fun _ h => h.asksFor hid
    exact (asks_askNode hread).bind fun _ _ _ => asks_pure _

theorem submit_asks (plan : SwapPlan) : Asks (AsksFor text) c (submit plan) := by
  refine (sign_retains plan).asks.bind fun tx c₁ _ => asks_get_bind (asks_askNode ?_)
  exact Node.makes_send nofun

/-- A swap asks for the account of the pool whose keys it looks up, and of no other. -/
theorem swap_asks
    (hkeys : ∀ keys hit, (c.act (keysFor o.poolId)).1 = .ok (keys, hit) → keys.id.text = text) :
    Asks (AsksFor text) c (swap o.poolId o.mintIn o.amountIn o.slippage o.dryRun o.limitPrice) := by
  unfold swap
  refine asks_get_bind ((readPool_asks hkeys).bind fun ⟨keys, state, hit⟩ c₁ _ => ?_)
  have hquote : Asks (AsksFor text) c₁
      (quote (.value state) o.amountIn o.slippage o.mintIn o.limitPrice) := by
    unfold Asks
    rw [act_quote]
    exact .refl _ _
  refine hquote.bind fun q c₂ _ => ?_
  split
  · exact asks_pure _
  · refine (planSwap_retains _ _ _).asks.bind fun plan c₃ _ => ?_
    refine (sign_retains plan).asks.bind fun tx c₄ _ => ?_
    split
    · exact asks_pure _
    · exact (submit_asks plan).bind fun _ _ _ => asks_pure _

/-- A pool that is read is that of the keys found for it. -/
theorem poolId_of_readPool {poolId : String} {mintIn : Option Address} {keys : PoolKeys}
    {state : PoolSnapshot} {hit : Bool}
    (h : (c.act (readPool poolId mintIn)).1 = .ok (keys, state, hit)) :
    ∃ found, (c.act (keysFor poolId)).1 = .ok (found, hit) ∧ keys.id = found.id ∧
      state.poolId = found.id := by
  obtain ⟨⟨found, hit'⟩, hfound, h⟩ := act_bind_eq_ok.1 h
  cases found with
  | standard k =>
    obtain ⟨s, hs, h⟩ := act_bind_eq_ok.1 h
    cases h
    rw [act_askNode] at hs
    obtain ⟨_, _, _, hholds⟩ := Node.readStandardPool_holds hs
    exact ⟨_, hfound, rfl, hholds.poolId_eq⟩
  | concentrated k =>
    obtain ⟨_, hget, h⟩ := act_bind_eq_ok.1 h
    obtain ⟨s, hs, h⟩ := act_bind_eq_ok.1 h
    cases hget
    cases h
    rw [act_askNode] at hs
    exact ⟨_, hfound, rfl, Node.poolId_of_read hs⟩

/-- A swap reports the pool it read, and the quote of its state. -/
theorem report_of_swap {report : SwapReport}
    (h : (c.act (swap o.poolId o.mintIn o.amountIn o.slippage o.dryRun
      o.limitPrice)).1 = .ok report) :
    ∃ keys state hit, (c.act (readPool o.poolId o.mintIn)).1 = .ok (keys, state, hit) ∧
      report.poolId = keys.id ∧
      quoteWith c.config (.value state) o.amountIn o.slippage o.mintIn o.limitPrice =
        .ok report.quote := by
  unfold swap at h
  obtain ⟨_, hget, h⟩ := act_bind_eq_ok.1 h
  obtain ⟨⟨keys, state, hit⟩, hread, h⟩ := act_bind_eq_ok.1 h
  obtain ⟨q, hquote, h⟩ := act_bind_eq_ok.1 h
  rw [act_quote, (readPool_looksUp _ _ _).config_eq] at hquote
  cases hget
  refine ⟨keys, state, hit, hread, ?_⟩
  split at h
  · cases h
    exact ⟨rfl, hquote⟩
  · obtain ⟨plan, -, h⟩ := act_bind_eq_ok.1 h
    obtain ⟨tx, -, h⟩ := act_bind_eq_ok.1 h
    split at h
    · cases h
      exact ⟨rfl, hquote⟩
    · obtain ⟨signature, -, h⟩ := act_bind_eq_ok.1 h
      cases h
      exact ⟨rfl, hquote⟩

/-- A run that clears all guards sends a swap with the pool of its keys. -/
theorem SwapRun.Clears.exists_swap {r : SwapRun} (h : r.Clears c o) :
    ∃ swap, r.plan.swaps = [swap] ∧ swap ∈ r.sent.message.instructions ∧
      swap.accounts[r.keys.kind.poolPlace]? = some (.writable r.keys.id) := by
  obtain ⟨keypair, hguarded⟩ := h.exists_guarded
  obtain ⟨swap, _, hswaps, hmem, -⟩ := hguarded.swaps
  obtain ⟨existing, hplan⟩ := hguarded.planned
  obtain ⟨k, d, swap', hkeys, -, -, -, hswap, hswaps'⟩ := SwapRequest.exists_swap_of_plan hplan
  cases hkeys
  cases hswaps.symm.trans hswaps'
  exact ⟨swap, hswaps, hmem, SwapRequest.pool_of_swapInstruction hswap⟩

/-- A transaction that is sent is that of a run that clears all guards. -/
theorem clears_of_sent {calls : List Call} {bytes : Bytes} {skipPreflight : Bool}
    (hcalls : (c.act (swap o.poolId o.mintIn o.amountIn o.slippage o.dryRun
      o.limitPrice)).2.node.calls = calls ++ c.node.calls)
    (hsent : .sendTransaction bytes skipPreflight ∈ calls) :
    ∃ run : SwapRun, run.Clears c o ∧ bytes = run.sent.encode := by
  have hno : Method.sendTransaction ∉ Node.lookups := by decide
  rcases swap_cases c o with ⟨hkeeps, -⟩ | ⟨run, hclears⟩
  · exact absurd (hkeeps.grows.all hcalls _ hsent) hno
  · obtain ⟨earlier, hlog, hlookups⟩ := hclears.exists_calls
    obtain rfl := List.append_cancel_right (hcalls.symm.trans hlog)
    rcases List.mem_cons.1 hsent with heq | hmem
    · cases heq
      exact ⟨run, hclears, rfl⟩
    · exact absurd (hlookups _ hmem) hno

/-- A swap that has to do with the pool of one text only. Every account it asks for alone, the state
it quotes and the transactions it sends are that pool's. -/
structure StaysWith (c : Client) (o : Order) (text : String) : Prop where
  calls : ∃ calls, (c.act (swap o.poolId o.mintIn o.amountIn o.slippage o.dryRun
      o.limitPrice)).2.node.calls = calls ++ c.node.calls ∧
    (∀ address, .accountInfo address ∈ calls → address.text = text) ∧
    ∀ bytes skipPreflight, .sendTransaction bytes skipPreflight ∈ calls →
      ∃ (run : SwapRun) (swap : Instruction), run.Clears c o ∧ bytes = run.sent.encode ∧
        run.state.poolId.text = text ∧ run.plan.swaps = [swap] ∧
        swap ∈ run.sent.message.instructions ∧
        ∃ pool, swap.accounts[run.keys.kind.poolPlace]? = some (.writable pool) ∧
          pool.text = text
  report : ∀ report, (c.act (swap o.poolId o.mintIn o.amountIn o.slippage o.dryRun
      o.limitPrice)).1 = .ok report → report.poolId.text = text ∧
    ∃ state : PoolSnapshot, state.poolId.text = text ∧
      quoteWith c.config (.value state) o.amountIn o.slippage o.mintIn o.limitPrice =
        .ok report.quote

theorem staysWith_of_keysFor
    (hkeys : ∀ keys hit, (c.act (keysFor o.poolId)).1 = .ok (keys, hit) → keys.id.text = text) :
    c.StaysWith o text := by
  obtain ⟨calls, hcalls, hasks⟩ := swap_asks hkeys
  have hread : ∀ keys state hit, (c.act (readPool o.poolId o.mintIn)).1 = .ok (keys, state, hit) →
      keys.id.text = text ∧ state.poolId.text = text := by
    intro keys state hit h
    obtain ⟨found, hfound, hid, hstate⟩ := poolId_of_readPool h
    rw [hid, hstate]
    exact ⟨hkeys _ _ hfound, hkeys _ _ hfound⟩
  refine ⟨⟨calls, hcalls, fun address h => hasks _ h address rfl, fun bytes skip hsent => ?_⟩,
    fun report h => ?_⟩
  · obtain ⟨run, hclears, hbytes⟩ := clears_of_sent hcalls hsent
    obtain ⟨swap, hswaps, hmem, hpool⟩ := hclears.exists_swap
    obtain ⟨hid, hstate⟩ := hread _ _ _ (congrArg Prod.fst hclears.load_eq)
    exact ⟨run, swap, hclears, hbytes, hstate, hswaps, hmem, _, hpool, hid⟩
  · obtain ⟨keys, state, hit, hloaded, hpoolId, hquote⟩ := report_of_swap h
    obtain ⟨hid, hstate⟩ := hread _ _ _ hloaded
    exact ⟨hpoolId ▸ hid, state, hstate, hquote⟩

/-- However the cache of a client came about, the keys it finds for a pool are those of the first entry
that the directory answered a request for that pool with, now or before. So as far as these entries
are those of the pools asked for, the keys found for a pool and those cached for it are its own, and
a swap reads, quotes and trades no other pool. -/
theorem keys_of_first_entry {lookups : List Lookup} (h : After lookups c) :
    (∀ poolId keys hit, (c.act (keysFor poolId)).1 = .ok (keys, hit) →
      Lookup.Published (lookups ++ [⟨poolId, c⟩]) poolId keys) ∧
    ((∀ l ∈ lookups, l.Faithful) →
      (∀ cache ∈ c.cache, cache.Holds fun poolId keys => keys.id.text = poolId) ∧
      (∀ poolId, Lookup.Faithful ⟨poolId, c⟩ → ∀ keys hit,
        (c.act (keysFor poolId)).1 = .ok (keys, hit) → keys.id.text = poolId) ∧
      ∀ o : Order, Lookup.Faithful ⟨o.poolId, c⟩ → c.StaysWith o o.poolId) := by
  have hpublished : ∀ poolId keys hit, (c.act (keysFor poolId)).1 = .ok (keys, hit) →
      Lookup.Published (lookups ++ [⟨poolId, c⟩]) poolId keys :=
    fun poolId => (finds_of_cacheHolds h.cacheHolds poolId).found
  refine ⟨hpublished, fun hfaithful => ?_⟩
  have hown : ∀ poolId, Lookup.Faithful ⟨poolId, c⟩ → ∀ keys hit,
      (c.act (keysFor poolId)).1 = .ok (keys, hit) → keys.id.text = poolId := by
    intro poolId hnow keys hit hfound
    refine (hpublished poolId keys hit hfound).text_id fun l hl => ?_
    rcases List.mem_append.1 hl with hl | hl
    · exact hfaithful l hl
    · exact List.mem_singleton.1 hl ▸ hnow
  exact ⟨fun cache hcache => (h.cacheHolds cache hcache).mono fun _ _ hkeys =>
    hkeys.text_id hfaithful, hown, fun o hnow => staysWith_of_keysFor (hown o.poolId hnow)⟩

/-- An entry of a standard pool; its other accounts are all the same. -/
def standardEntry (id : String) : Payload :=
  let account : Payload := .text "11111111111111111111111111111111"
  let mint : Payload := .record [("address", account)]
  .record [("programId", .text "675kPX9MHTjS2zt1qfr1NYHuzeLXfQM9H24wFSUt1Mp8"), ("id", .text id),
    ("mintA", mint), ("mintB", mint), ("vault", .record [("A", account), ("B", account)]),
    ("authority", account), ("openOrders", account), ("targetOrders", account),
    ("marketProgramId", account), ("marketId", account), ("marketAuthority", account),
    ("marketBaseVault", account), ("marketQuoteVault", account), ("marketBids", account),
    ("marketAsks", account), ("marketEventQueue", account)]

/-- A client whose directory is about to answer with some entries, one at a time. -/
def awaiting (cache : Option (KeyCache PoolKeys)) (entries : List Payload) : Client :=
  { pooled with
    cache
    directory := .onSession "" (entries.map fun entry =>
      .answer 200 (.value (.record [("success", .bool true), ("data", .list [entry])]))) }

/-- The pool of the keys that are found, and whether they came from the cache. -/
def foundId (answer : Checked (PoolKeys × Bool)) : Option (String × Bool) :=
  match answer with
  | .ok (keys, hit) => some (keys.id.text, hit)
  | .error _ => none

theorem exists_of_foundId {answer : Checked (PoolKeys × Bool)}
    (h : foundId answer = some (text, hit)) :
    ∃ keys, answer = .ok (keys, hit) ∧ keys.id.text = text := by
  cases answer with
  | error fault => cases h
  | ok found =>
    obtain ⟨rfl, rfl⟩ := Prod.mk.inj (Option.some.inj h)
    exact ⟨found.1, rfl, rfl⟩

def ownId : String := "11111111111111111111111111111112"

def otherId : String := "11111111111111111111111111111113"

/-- A client with an empty cache. Its directory has the entry of another pool for the second
lookup. -/
def uncached : Client :=
  awaiting (some (.empty 30000 256)) [standardEntry ownId, standardEntry otherId]

theorem keys_of_first_entry_cached : ∃ c, c = (uncached.act (keysFor ownId)).2 ∧
    After [⟨ownId, uncached⟩] c ∧ Lookup.Faithful ⟨ownId, uncached⟩ ∧ Lookup.Faithful ⟨ownId, c⟩ ∧
    ∃ keys, (c.act (keysFor ownId)).1 = .ok (keys, true) ∧ keys.id.text = ownId := by
  have hstart : After [] uncached := by
    refine .start ?_
    rintro _ ⟨⟩
    rfl
  have hafter := hstart.lookup ownId
  have hfirst : Lookup.Faithful ⟨ownId, uncached⟩ := by
    rintro - _ ⟨⟩
    rfl
  have hfound : foundId ((uncached.act (keysFor ownId)).2.act (keysFor ownId)).1 =
      some (ownId, true) := by decide +kernel
  obtain ⟨keys, hkeys, -⟩ := exists_of_foundId hfound
  have hsecond : Lookup.Faithful ⟨ownId, (uncached.act (keysFor ownId)).2⟩ :=
    Lookup.faithful_of_hit hkeys
  have hfaithful : ∀ l ∈ [(⟨ownId, uncached⟩ : Lookup)], l.Faithful :=
    fun l hl => List.mem_singleton.1 hl ▸ hfirst
  exact ⟨_, rfl, hafter, hfirst, hsecond, keys, hkeys,
    ((keys_of_first_entry hafter).2 hfaithful).2.1 ownId hsecond keys true hkeys⟩

/-- Keys of another pool are taken for those of the pool asked for. -/
theorem keys_of_other_pool : ∃ keys,
    ((awaiting none [standardEntry otherId]).act (keysFor ownId)).1 = .ok (keys, false) ∧
      keys.id.text ≠ ownId := by
  have hfound : foundId ((awaiting none [standardEntry otherId]).act (keysFor ownId)).1 =
      some (otherId, false) := by decide +kernel
  obtain ⟨keys, hkeys, hid⟩ := exists_of_foundId hfound
  exact ⟨keys, hkeys, hid ▸ by decide⟩

end Client
end PoolSwap
