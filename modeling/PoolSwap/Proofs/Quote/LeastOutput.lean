import PoolSwap.Proofs.Quote.Fields
import PoolSwap.Quote.Supplied

/-! The least output of a quote. It is the floor of the quoted output, and nothing else in a quote
depends on the slippage, as long as that is one that is accepted. -/
namespace PoolSwap

/-- A quote with the least output that a rule takes from its output. -/
def Quote.withLeast (least : Int → Int) (q : Quote) : Quote :=
  { q with minAmountOut := least q.amountOut }

variable {amount slippage other : Scalar} {mintIn : Option Address} {limit : Option Int} {q : Quote}
  {s t : Decimal}

section WithLeast

variable (hs : Slippage.fraction? slippage = some s) (ht : Slippage.fraction? other = some t)
include hs ht

theorem StandardPool.quote_eq_withLeast (pool : StandardPool) (amount : Scalar)
    (mintIn : Option Address) : pool.quote amount slippage mintIn =
      Quote.withLeast (Slippage.floorOf · s) <$> pool.quote amount other mintIn := by
  unfold quote
  rw [map_bind]
  refine bind_congr fun amountIn => ?_
  rw [map_bind]
  refine bind_congr fun (_, paid, received) => ?_
  rw [map_bind]
  refine bind_congr fun (reserveIn, reserveOut, _) => ?_
  dsimp only
  split
  case isTrue => rfl
  case isFalse =>
    rw [map_bind]
    refine bind_congr fun fee => ?_
    rw [map_bind]
    refine bind_congr fun amountOut => ?_
    rw [Slippage.apply_eq hs, Slippage.apply_eq ht]
    rfl

theorem ConcentratedPool.priced_eq_withLeast (pool : ConcentratedPool) (d : Direction)
    (paid received : Address) (amountIn : Int) (limit : Option Int) (w : Walk) (stop : Position) :
    pool.priced d paid received amountIn slippage limit w stop =
      Quote.withLeast (Slippage.floorOf · s) <$>
        pool.priced d paid received amountIn other limit w stop := by
  unfold priced
  rw [map_bind]
  refine bind_congr fun impact => ?_
  rw [Slippage.apply_eq hs, Slippage.apply_eq ht]
  rfl

theorem ConcentratedPool.quote_eq_withLeast (pool : ConcentratedPool) (amount : Scalar)
    (mintIn : Option Address) (limit : Option Int) : pool.quote amount slippage mintIn limit =
      Quote.withLeast (Slippage.floorOf · s) <$> pool.quote amount other mintIn limit := by
  rw [quote_eq_priced, quote_eq_priced, map_bind]
  refine bind_congr fun amountIn => ?_
  rw [map_bind]
  refine bind_congr fun (d, paid, received) => ?_
  rw [Slippage.apply_eq hs, Slippage.apply_eq ht]
  change (pool.limitInForce d limit >>= _) = _ <$> (pool.limitInForce d limit >>= _)
  rw [map_bind]
  refine bind_congr fun bound => ?_
  rw [map_bind]
  exact bind_congr fun (w, stop) =>
    priced_eq_withLeast hs ht pool d paid received amountIn limit w stop

/-- Quotes of one trade with two slippages fail alike, or differ in the least output alone. -/
theorem PoolSnapshot.quote_eq_withLeast (state : Supplied PoolSnapshot) (amount : Scalar)
    (mintIn : Option Address) (limit : Option Int) : quote state amount slippage mintIn limit =
      Quote.withLeast (Slippage.floorOf · s) <$> quote state amount other mintIn limit := by
  unfold quote
  rw [map_bind]
  refine bind_congr fun _ => ?_
  rcases state with (pool | pool) | _
  · dsimp only
    split
    case isTrue => rfl
    case isFalse => exact pool.quote_eq_withLeast hs ht amount mintIn
  · exact pool.quote_eq_withLeast hs ht amount mintIn limit
  · rfl

end WithLeast

theorem StandardPool.minAmountOut_of_quote {pool : StandardPool}
    (h : pool.quote amount slippage mintIn = .ok q) :
    Slippage.apply q.amountOut slippage = .ok q.minAmountOut := by
  obtain ⟨_, -, h⟩ := Checked.bind_eq_ok.1 h
  obtain ⟨⟨_, paid, received⟩, -, h⟩ := Checked.bind_eq_ok.1 h
  obtain ⟨⟨reserveIn, reserveOut, _⟩, -, h⟩ := Checked.bind_eq_ok.1 h
  dsimp only at h
  split at h
  case isTrue => cases h
  case isFalse =>
    obtain ⟨_, -, h⟩ := Checked.bind_eq_ok.1 h
    obtain ⟨_, -, h⟩ := Checked.bind_eq_ok.1 h
    obtain ⟨_, hleast, h⟩ := Checked.bind_eq_ok.1 h
    cases h
    exact hleast

/-- The least output of a quote is the floor of its output. -/
theorem PoolSnapshot.minAmountOut_of_quote {state : Supplied PoolSnapshot}
    (h : quote state amount slippage mintIn limit = .ok q) :
    Slippage.apply q.amountOut slippage = .ok q.minAmountOut := by
  obtain ⟨_, -, h⟩ := Checked.bind_eq_ok.1 h
  rcases state with (s | s) | _
  · dsimp only at h
    split at h
    case isTrue => cases h
    case isFalse => exact StandardPool.minAmountOut_of_quote h
  · obtain ⟨_, _, _, _, hquoted⟩ := ConcentratedPool.quote_eq_ok h
    exact hquoted.minAmountOut_eq
  · cases h

end PoolSwap
