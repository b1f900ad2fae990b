import PoolSwap.Client
import PoolSwap.Proofs.Node.ConcentratedPool

/-! Pools as a client reads them. The keys of a concentrated pool are completed from the state that
was read, so that state has every tick array they name. -/
namespace PoolSwap

namespace PoolKeys

variable {s : ConcentratedPool} {k : ConcentratedKeys}

/-- Keys are fresh for a state that has their pool, their mints and every tick array they name. -/
theorem requireFresh_eq_ok : (concentrated k).requireFresh (.concentrated s) = .ok () ↔
    (s.poolId = k.id ∧ s.mintA = k.mintA ∧ s.mintB = k.mintB) ∧
      ∀ a ∈ k.tickArrays, ∃ array ∈ s.arrays, array.address = some a := by
  change (if s.poolId ≠ k.id ∨ s.mintA ≠ k.mintA ∨ s.mintB ≠ k.mintB then _ else
    if (k.tickArrays.filter (· ∉ s.arrays.filterMap (·.address))).isEmpty then _ else _) = _ ↔ _
  split
  case isTrue hother =>
    refine ⟨nofun, fun ⟨⟨hid, hmintA, hmintB⟩, _⟩ => ?_⟩
    simp [hid, hmintA, hmintB] at hother
  case isFalse hsame =>
    rw [not_or, not_or, not_not, not_not, not_not] at hsame
    have hknown : (k.tickArrays.filter (· ∉ s.arrays.filterMap (·.address))).isEmpty = true ↔
        ∀ a ∈ k.tickArrays, ∃ array ∈ s.arrays, array.address = some a := by
      simp [List.filter_eq_nil_iff]
    rw [and_iff_right hsame, ← hknown]
    split
    case isTrue hempty => exact ⟨fun _ => hempty, fun _ => rfl⟩
    case isFalse hunknown => exact ⟨nofun, fun hempty => absurd hempty hunknown⟩

end PoolKeys

namespace ConcentratedPool

theorem exists_of_mem_arrayAddresses {s : ConcentratedPool} {d : Direction} {a : Address}
    (h : a ∈ s.arrayAddresses d none) : ∃ array ∈ s.arrays, array.address = some a := by
  obtain ⟨array, harray, haddress⟩ := List.mem_filterMap.1 h
  refine ⟨array, ?_, haddress⟩
  cases d
  · exact List.mem_reverse.1 (List.mem_filter.1 harray).1
  · exact (List.mem_filter.1 harray).1

end ConcentratedPool

namespace Client

/-- Keys completed from a state are fresh for it as soon as they are those of its pool. -/
theorem completeKeys_requireFresh (k : ConcentratedKeys) (s : ConcentratedPool) (d : Direction) :
    (PoolKeys.concentrated (completeKeys k s d)).requireFresh (.concentrated s) = .ok () ↔
      s.poolId = k.id ∧ s.mintA = k.mintA ∧ s.mintB = k.mintB := by
  rw [PoolKeys.requireFresh_eq_ok]
  exact and_iff_left fun a ha => ConcentratedPool.exists_of_mem_arrayAddresses ha

/-- What an action comes to, and the client after it. -/
def act (c : Client) (x : Action α) : Checked α × Client := x.run.run c

variable {c : Client} {x : Action α} {f : α → Action β} {b : β}

theorem act_bind_eq_ok : (c.act (x >>= f)).1 = .ok b ↔
    ∃ a, (c.act x).1 = .ok a ∧ ((c.act x).2.act (f a)).1 = .ok b :=
  Checked.run_bind_eq_ok

theorem act_askNode (c : Client) (q : Node.Query α) :
    c.act (askNode q) = ((c.present.ask q).1, { c with node := (c.present.ask q).2 }) := by
  change act _ (checked (c.present.ask q).1) = _
  cases (c.present.ask q).1 <;> rfl

theorem fst_act_askNode (c : Client) (q : Node.Query α) :
    (c.act (askNode q)).1 = (c.present.ask q).1 :=
  congrArg Prod.fst (act_askNode c q)

/-- A concentrated pool that is read comes with the keys found for it, completed from the state that
the node answers. -/
theorem readPool_eq_ok {poolId : String} {mintIn : Option Address} {keys : PoolKeys}
    {s : ConcentratedPool} {hit : Bool} :
    (c.act (readPool poolId mintIn)).1 = .ok (keys, .concentrated s, hit) ↔
      ∃ k d c', (c.act (keysFor poolId)) = (.ok (.concentrated k, hit), c') ∧
        d = .ofBool (mintIn.all (· = k.mintA)) ∧
        (c'.present.ask
          (Node.readConcentratedPool k.id d c'.config.tickArrayWindow k.programId)).1 = .ok s ∧
        keys = .concentrated (completeKeys k s d) := by
  constructor
  · intro h
    obtain ⟨⟨found, hit'⟩, hkeys, h⟩ := act_bind_eq_ok.1 h
    cases found with
    | standard k =>
      obtain ⟨state, -, h⟩ := act_bind_eq_ok.1 h
      cases h
    | concentrated k =>
      obtain ⟨_, hget, h⟩ := act_bind_eq_ok.1 h
      cases hget
      obtain ⟨state, hstate, h⟩ := act_bind_eq_ok.1 h
      cases h
      rw [act_askNode] at hstate
      exact ⟨k, _, _, Prod.ext hkeys rfl, rfl, hstate, rfl⟩
  · rintro ⟨k, d, c', hkeys, rfl, hstate, rfl⟩
    refine act_bind_eq_ok.2 ⟨(.concentrated k, hit), by rw [hkeys], ?_⟩
    rw [hkeys]
    refine act_bind_eq_ok.2 ⟨c', rfl, act_bind_eq_ok.2 ⟨s, ?_, rfl⟩⟩
    rw [act_askNode]
    exact hstate

/-- The keys of the pool that the node `pooled` holds. -/
def pooledKeys : ConcentratedKeys where
  programId := .concentratedPoolProgram
  id := .ofNat 2
  mintA := .ofNat 7
  mintB := .ofNat 8
  vaultA := .ofNat 9
  vaultB := .ofNat 10
  ammConfig := .ofNat 5
  observationId := .ofNat 14
  exBitmap := none
  mintProgramA := none
  mintProgramB := none
  tickArrays := []

/-- A client of that node with these keys in its cache. -/
def pooled : Client where
  node := Node.pooled (some Node.pooledArray)
  directory := .unopened defaultApiUrl []
  keypair := none
  config := { tickArrayWindow := 0 }
  cache := some ⟨30000, 256, [⟨"pool", 30000, some (.concentrated pooledKeys)⟩]⟩
  now := 0

theorem pooled_readPool : (pooled.act (readPool "pool" none)).1 =
    .ok (.concentrated (completeKeys pooledKeys
      (Node.pooledState Node.pooledArrays Node.pooledArrays_ascending) .zeroForOne),
      .concentrated (Node.pooledState Node.pooledArrays Node.pooledArrays_ascending), true) :=
  readPool_eq_ok.2
    ⟨pooledKeys, .zeroForOne, pooled, rfl, rfl, Node.pooled_read_first .zeroForOne, rfl⟩

end Client
end PoolSwap
