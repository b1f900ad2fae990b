import PoolSwap.Proofs.Client.Pool
import PoolSwap.Proofs.Pool.Arrays
import PoolSwap.Proofs.Quote.Account
import PoolSwap.Proofs.Walk.Crossed

/-! The tick arrays of a quoted trade. The walk crosses ticks in onward arrays alone and in their
order, so the arrays that a trade names are those it goes through. -/
namespace PoolSwap

theorem Route.ticksInOrder_leads (r : Route) (s : ConcentratedPool) :
    (r.ticksInOrder s.activeTicks).Pairwise fun t u => r.direction.Leads t.index u.index := by
  unfold ticksInOrder
  split <;> rename_i hd <;> simp only [hd, Direction.Leads]
  · exact List.pairwise_reverse.2 (s.activeTicks_sorted.filter _)
  · exact s.activeTicks_sorted.filter _

namespace ConcentratedPool

variable {s : ConcentratedPool} {d : Direction} {bound poolInput : Int} {w : Walk} {a : TickArray}
  {t : Tick} {listed : List TickArray}

theorem crossed_leads (h : s.walkFor d bound poolInput = some w) :
    w.crossed.Pairwise fun t u => d.Leads t.index u.index := by
  unfold walkFor at h
  split at h
  case isTrue =>
    cases h
    exact .nil
  case isFalse =>
    obtain ⟨window, -, rfl⟩ := Option.map_eq_some_iff.1 h
    exact ((s.route d window bound).ticksInOrder_leads s).sublist (Route.crossed_sublist _ _ _)

/-- The array of a tick that is crossed holds the current tick or lies beyond it. -/
theorem onward_of_crossed (h : s.walkFor d bound poolInput = some w) (ht : t ∈ w.crossed)
    (hinside : a.start ≤ t.index ∧ t.index < a.stop s.tickSpacing) : s.Onward d a := by
  have hahead := (walkFor_runs h).isAhead_of_crossed t ht
  have hhigh : t.index < a.start + s.span := hinside.2
  rw [onward_iff]
  cases d <;> simp only [Route.isAhead, routeFor, route, position] at hahead ⊢
  · exact hinside.1.trans (of_decide_eq_true hahead)
  · exact (of_decide_eq_true hahead).trans hhigh

section Inside

variable (haligned : ∀ a ∈ s.arrays, s.span ∣ a.start)
  (hinside : ∀ a ∈ s.arrays, ∀ t ∈ a.ticks, a.start ≤ t.index ∧ t.index < a.stop s.tickSpacing)
include haligned hinside

/-- The existing arrays of the ticks that a walk crosses are listed in the order of the walk. -/
theorem crossed_sublist_listed (hlisted : s.Lists d listed)
    (h : s.walkFor d bound poolInput = some w) :
    ((s.arraysHolding w.crossed).filter (·.address.isSome)).Sublist listed := by
  have hordered := arraysHolding_pairwise haligned hinside (crossed_leads h)
  refine hlisted.sublist (hordered.filter _) fun a ha => ?_
  obtain ⟨ha, hexists⟩ := List.mem_filter.1 ha
  obtain ⟨ha, t, ht, hta⟩ := (mem_arraysHolding haligned hinside).1 ha
  exact (hlisted.mem_iff a).2 ⟨ha, hexists, onward_of_crossed h ht (hinside a ha t hta)⟩

/-- The tick arrays that a trade names are those it goes through. They are the existing ones from
that of the current tick on, in the order of the trade, and the arrays of the ticks that a quote
crosses stand among them in the order in which it crosses them. Completed keys name exactly these
arrays, and are fresh for the state they come from, as far as tick arrays go. -/
theorem arrayAddresses_cover_walk :
    (∀ d, ∃ listed, s.Lists d listed ∧
      (s.arrayAddresses d none).map some = listed.map (·.address) ∧
      (∀ a ∈ listed, s.covers a s.tickCurrent = true → listed.head? = some a) ∧
      ∀ amount slippage mintIn limit paid received q,
        directionFor s.mintA s.mintB mintIn = .ok (d, paid, received) →
        s.quote amount slippage mintIn limit = .ok q →
        ∃ bound w, s.limitInForce d limit = .ok bound ∧
          s.walkFor d bound (s.poolInput d q.amountIn) = some w ∧
          q.arraysCrossed = w.arraysCrossed s.tickSpacing ∧
          (∀ a, a ∈ s.arraysHolding w.crossed ↔ a ∈ s.arrays ∧ ∃ t ∈ w.crossed, t ∈ a.ticks) ∧
          ((s.arraysHolding w.crossed).filter (·.address.isSome)).Sublist listed) ∧
    (∀ d k, (Client.completeKeys k s d).tickArrays = s.arrayAddresses d none ∧
      ((PoolKeys.concentrated (Client.completeKeys k s d)).requireFresh (.concentrated s) = .ok () ↔
        s.poolId = k.id ∧ s.mintA = k.mintA ∧ s.mintB = k.mintB)) ∧
    ∀ (c : Client) poolId mintIn keys hit,
      (c.act (Client.readPool poolId mintIn)).1 = .ok (keys, .concentrated s, hit) →
      ∃ k, (c.act (Client.keysFor poolId)).1 = .ok (.concentrated k, hit) ∧
        keys = .concentrated (Client.completeKeys k s (.ofBool (mintIn.all (· = k.mintA)))) ∧
        (keys.requireFresh (.concentrated s) = .ok () ↔ s.mintA = k.mintA ∧ s.mintB = k.mintB) := by
  refine ⟨fun d => ?_, fun d k => ⟨rfl, Client.completeKeys_requireFresh k s d⟩, ?_⟩
  · obtain ⟨listed, hlisted, haddresses⟩ := exists_lists haligned d
    refine ⟨listed, hlisted, haddresses, fun a => hlisted.head?_eq_some haligned, ?_⟩
    intro amount slippage mintIn limit paid received q hdirection hquote
    obtain ⟨d', bound, w, stop, hq⟩ := quote_eq_ok hquote
    obtain rfl : d' = d := congrArg Prod.fst (Except.ok.inj (hq.mints_eq.symm.trans hdirection))
    exact ⟨bound, w, hq.limit_eq, hq.walk_eq, hq.arraysCrossed_eq,
      fun a => mem_arraysHolding haligned hinside,
      crossed_sublist_listed haligned hinside hlisted hq.walk_eq⟩
  · intro c poolId mintIn keys hit h
    obtain ⟨k, d, c', hkeys, rfl, hstate, rfl⟩ := Client.readPool_eq_ok.1 h
    refine ⟨k, congrArg Prod.fst hkeys, rfl, ?_⟩
    rw [Client.completeKeys_requireFresh]
    exact and_iff_right (Node.poolId_of_read hstate)

end Inside

/-- The arrays of `nested` with addresses. -/
def nestedListed : List TickArray :=
  [⟨-60, [⟨-40, 1000000, 1000000⟩, ⟨-10, 2000000, 2000000⟩], some (.ofNat 4)⟩,
    ⟨0, [⟨30, -3000000, 3000000⟩], some (.ofNat 5)⟩]

theorem nestedListed_ascending : (nestedListed.map (·.start)).Pairwise (· < ·) := by decide

theorem nestedListed_activeTicks :
    (nested.withArrays nestedListed nestedListed_ascending).activeTicks =
      [⟨-40, 1000000, 1000000⟩, ⟨-10, 2000000, 2000000⟩, ⟨30, -3000000, 3000000⟩] :=
  List.mergeSort_of_pairwise (by decide)

theorem nestedListed_quote :
    (nested.withArrays nestedListed nestedListed_ascending).quote (.int 2000) (.int 0) none none =
      .ok {
      kind := .concentrated, mintIn := .ofNat 2, mintOut := .ofNat 3, amountIn := 2000,
      amountOut := 1971, minAmountOut := 1971, fee := 6, impactBps := 45, arraysCrossed := [0, -60],
      sqrtPriceAfter := some 18428810997543547201, transferFees := 20, sqrtPriceLimit := 0 } := by
  simp only [quote, walkAlong, isDry, nestedListed_activeTicks]
  decide +kernel

theorem nestedListed_crossed :
    ((nested.withArrays nestedListed nestedListed_ascending).walkFor .zeroForOne
      (Tick.minSqrtPrice + 1) 1980).map Walk.crossed = some [⟨-10, 2000000, 2000000⟩] := by
  simp only [walkFor, walkAlong, nestedListed_activeTicks]
  decide +kernel

/-- The quote crosses one tick, in the second of the two arrays that it names. The keys that a client
completes name the one array of its window. -/
theorem arrayAddresses_cover_walk_nested :
    (∃ (listed : List TickArray) (w : Walk),
      listed.map (·.address) = [some (.ofNat 5), some (.ofNat 4)] ∧
      w.crossed = [⟨-10, 2000000, 2000000⟩] ∧
      [⟨-60, [⟨-40, 1000000, 1000000⟩, ⟨-10, 2000000, 2000000⟩], some (.ofNat 4)⟩].Sublist
        listed) ∧
    ∃ k state, (Client.pooled.act (Client.readPool "pool" none)).1 =
        .ok (.concentrated k, .concentrated state, true) ∧
      k.tickArrays = [Node.pooledAddress (-120)] ∧
      (PoolKeys.concentrated k).requireFresh (.concentrated state) = .ok () := by
  constructor
  · obtain ⟨hlists, -, -⟩ := arrayAddresses_cover_walk
      (s := nested.withArrays nestedListed nestedListed_ascending) (by decide) (by decide)
    obtain ⟨listed, -, haddresses, -, hquotes⟩ := hlists .zeroForOne
    obtain ⟨bound, w, hlimit, hwalk, -, -, hsublist⟩ :=
      hquotes _ _ _ _ _ _ _ rfl nestedListed_quote
    cases hlimit
    have hcrossed : some [⟨-10, 2000000, 2000000⟩] = some w.crossed :=
      nestedListed_crossed.symm.trans (congrArg (Option.map Walk.crossed) hwalk)
    rw [← Option.some.inj hcrossed] at hsublist
    exact ⟨listed, w, haddresses.symm.trans (by decide), (Option.some.inj hcrossed).symm, hsublist⟩
  · obtain ⟨-, hcompleted, hclients⟩ := arrayAddresses_cover_walk
      (s := Node.pooledState Node.pooledArrays Node.pooledArrays_ascending) (by decide) (by decide)
    obtain ⟨k, hkeys, -, hfresh⟩ := hclients _ _ _ _ _ Client.pooled_readPool
    cases hkeys
    exact ⟨_, _, Client.pooled_readPool, (hcompleted .zeroForOne Client.pooledKeys).1.trans rfl,
      hfresh.2 ⟨rfl, rfl⟩⟩

end ConcentratedPool
end PoolSwap
