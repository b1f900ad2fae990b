import PoolSwap.Proofs.Client.Swap
import PoolSwap.Proofs.Pool.Profile
import PoolSwap.Proofs.Quote.LeastOutput
import PoolSwap.Proofs.Quote.Standard

/-! The least output that a client accepts. A slippage in basis points takes the floor of an exact
product, and agrees with the same slippage written as a decimal, which is rounded on the way. -/
namespace PoolSwap

namespace Slippage

variable {slippage : Scalar} {s : Decimal} {n bps least : Int}

theorem applyBps_eq_ok : applyBps n bps false = .ok least ↔
    (0 ≤ bps ∧ bps < 10000) ∧ floorDiv (n * (10000 - bps)) 10000 = least := by
  unfold applyBps
  rw [if_neg Bool.false_ne_true, ConstantProduct.bpsDenominator]
  split
  case isTrue hbps => exact ⟨fun h => ⟨hbps, Except.ok.inj h⟩, fun h => congrArg _ h.2⟩
  case isFalse hbps =>
    refine ⟨fun h => ?_, fun h => absurd h.1 hbps⟩
    obtain ⟨_, -, h⟩ := Checked.bind_eq_ok.1 h
    cases h

theorem applyBps_inside (h : applyBps n bps false = .ok least) (hn : 0 ≤ n) :
    0 ≤ least ∧ least ≤ n := by
  obtain ⟨⟨hnonneg, hlt⟩, rfl⟩ := applyBps_eq_ok.1 h
  refine ⟨floorDiv_nonneg (by decide) (mul_nonneg hn (by omega)), ?_⟩
  have hwhole : floorDiv (n * (10000 - bps)) 10000 * 10000 ≤ n * (10000 - bps) :=
    floorDiv_mul_le (by decide) _
  have hloss : 0 ≤ n * bps := mul_nonneg hn hnonneg
  linarith

/-- A decimal of whole basis points leaves the exact share of every amount of 24 digits. -/
theorem floorOf_of_bps (hvalue : s.value = bps / 10000) (hbps : 0 ≤ bps) (hbps' : bps < 10000)
    (hn : 0 ≤ n) (hdigits : n < 10 ^ 24) :
    floorOf n s = floorDiv (n * (10000 - bps)) 10000 := by
  have hnonneg : (0 : ℚ) ≤ bps := by exact_mod_cast hbps
  have hlt : (bps : ℚ) < 10000 := by exact_mod_cast hbps'
  obtain ⟨k, hk⟩ := Int.eq_ofNat_of_zero_le (show 0 ≤ 10000 - bps by omega)
  have hk' : (k : ℚ) = 10000 - bps := by exact_mod_cast hk.symm
  have hshare : 1 - s.value = k * 10 ^ (-4 : Int) := by
    rw [hvalue, hk']
    norm_num
    ring
  have hfits : n * k < 10 ^ Decimal.precision := by
    rw [← hk]
    calc n * (10000 - bps) ≤ n * 10000 := mul_le_mul_of_nonneg_left (by omega) hn
      _ < 10 ^ 24 * 10000 := by omega
      _ = 10 ^ Decimal.precision := rfl
  have hfloor := floorOf_of_fits (by rw [hvalue]; positivity)
    (by rw [hvalue, div_lt_one (by norm_num)]; exact hlt) hn hshare hfits
  rw [hfloor, floorDiv_eq_floor (by decide), hvalue]
  congr 1
  push_cast
  ring

end Slippage

namespace Client

variable {config : Config} {state : Supplied PoolSnapshot} {amountIn slippage limitPrice : Scalar}
  {mintIn : Option Address} {q : Quote}

/-- A quote whose least output is its whole output. -/
def unfloored (state : Supplied PoolSnapshot) (amountIn : Scalar) (mintIn : Option Address)
    (limitPrice : Scalar) : Checked Quote := do
  let limit ← sqrtPriceLimit state limitPrice
  PoolSnapshot.quote state amountIn (.int 0) mintIn limit

theorem quoteWith_given {s : Decimal} (hs : Slippage.fraction? slippage = some s) :
    quoteWith config state amountIn slippage mintIn limitPrice =
      Quote.withLeast (Slippage.floorOf · s) <$> unfloored state amountIn mintIn limitPrice := by
  have hgiven : quoteWith config state amountIn slippage mintIn limitPrice = (do
      let limit ← sqrtPriceLimit state limitPrice
      PoolSnapshot.quote state amountIn slippage mintIn limit) := by
    cases slippage with
    | absent =>
      have hnone : Slippage.fraction? .absent = none := by decide +kernel
      cases hnone.symm.trans hs
    | _ => rfl
  have hzero : Slippage.fraction? (.int 0) = some ⟨0, 0⟩ := by decide +kernel
  rw [hgiven, unfloored, map_bind]
  exact bind_congr fun limit => PoolSnapshot.quote_eq_withLeast hs hzero state amountIn mintIn limit

/-- Without a slippage, the configured basis points give the least output. -/
theorem quoteWith_absent (hbps : 0 ≤ config.defaultSlippageBps)
    (hbps' : config.defaultSlippageBps < 10000) :
    quoteWith config state amountIn .absent mintIn limitPrice =
      Quote.withLeast (fun n => floorDiv (n * (10000 - config.defaultSlippageBps)) 10000) <$>
        unfloored state amountIn mintIn limitPrice := by
  have hleast (n : Int) : Slippage.applyBps n config.defaultSlippageBps false =
      .ok (floorDiv (n * (10000 - config.defaultSlippageBps)) 10000) :=
    Slippage.applyBps_eq_ok.2 ⟨⟨hbps, hbps'⟩, rfl⟩
  unfold unfloored
  rw [map_bind]
  refine bind_congr fun limit => ?_
  simp only [hleast]
  cases PoolSnapshot.quote state amountIn (.int 0) mintIn limit <;> rfl

/-- Rules that agree on some outputs lead to the same quotes of these outputs, and to all the same
faults. -/
theorem withLeast_congr {least least' : Int → Int} {among : Int → Prop}
    (h : ∀ n, among n → least n = least' n) (x : Checked Quote) :
    (∀ f, Quote.withLeast least <$> x = .error f ↔ Quote.withLeast least' <$> x = .error f) ∧
    ∀ q, among q.amountOut →
      (Quote.withLeast least <$> x = .ok q ↔ Quote.withLeast least' <$> x = .ok q) := by
  cases x with
  | error e => exact ⟨fun f => Iff.rfl, fun q _ => Iff.rfl⟩
  | ok q₀ =>
    refine ⟨fun f => ⟨nofun, nofun⟩, fun q hq => ?_⟩
    by_cases hamong : among q₀.amountOut
    · have hsame : q₀.withLeast least = q₀.withLeast least' := by
        rw [Quote.withLeast, Quote.withLeast, h _ hamong]
      change Except.ok (q₀.withLeast least) = _ ↔ Except.ok (q₀.withLeast least') = _
      rw [hsame]
    · have hother (rule : Int → Int) :
          Quote.withLeast rule <$> (.ok q₀ : Checked Quote) ≠ .ok q := by
        rintro ⟨⟩
        exact hamong hq
      exact iff_of_false (hother least) (hother least')

/-- The least output of a client's quote is no more than an output of at most 28 digits. -/
theorem minAmountOut_inside
    (h : quoteWith config state amountIn slippage mintIn limitPrice = .ok q)
    (hnonneg : 0 ≤ q.amountOut) (hdigits : q.amountOut < 10 ^ Decimal.precision) :
    0 ≤ q.minAmountOut ∧ q.minAmountOut ≤ q.amountOut := by
  obtain ⟨limit, -, h⟩ := Checked.bind_eq_ok.1 h
  split at h
  case h_1 =>
    obtain ⟨q', -, h⟩ := Checked.bind_eq_ok.1 h
    obtain ⟨least, hleast, h⟩ := Checked.bind_eq_ok.1 h
    cases h
    exact Slippage.applyBps_inside hleast hnonneg
  case h_2 => exact Slippage.apply_inside (PoolSnapshot.minAmountOut_of_quote h) hnonneg hdigits

end Client

/-- The least output of a slippage lies between nothing and the output. It grows with the output and
shrinks as the slippage grows, for amounts of at most 28 digits and slippages of any number of
digits. So no quote of an amount of at most 28 digits asks for more than that amount. -/
theorem floor_inside_and_monotone :
    (∀ (slippage slippage' : Scalar) (s t : Decimal) (n m : Int),
      Decimal.ofText? slippage.plainText = some s → Decimal.ofText? slippage'.plainText = some t →
      0 ≤ s.value → s.value ≤ t.value → t.value < 1 → 0 ≤ n → n ≤ m → m < 10 ^ 28 →
      ∃ least more tighter, Slippage.apply n slippage = .ok least ∧
        Slippage.apply m slippage = .ok more ∧ Slippage.apply n slippage' = .ok tighter ∧
        (0 ≤ least ∧ least ≤ n) ∧ least ≤ more ∧ tighter ≤ least) ∧
    (∀ (state : Supplied PoolSnapshot) (amount slippage : Scalar) (mintIn : Option Address)
      (limit : Option Int) (q : Quote),
      PoolSnapshot.quote state amount slippage mintIn limit = .ok q → 0 ≤ q.amountOut →
      q.amountOut < 10 ^ 28 → q.minAmountOut ≤ q.amountOut) ∧
    ∀ (config : Config) (state : Supplied PoolSnapshot) (amount slippage : Scalar)
      (mintIn : Option Address) (limitPrice : Scalar) (q : Quote),
      Client.quoteWith config state amount slippage mintIn limitPrice = .ok q → 0 ≤ q.amountOut →
      q.amountOut < 10 ^ 28 → q.minAmountOut ≤ q.amountOut := by
  refine ⟨?_, fun state amount slippage mintIn limit q h hnonneg hdigits => ?_,
    fun config state amount slippage mintIn limitPrice q h hnonneg hdigits =>
      (Client.minAmountOut_inside h hnonneg hdigits).2⟩
  · intro slippage slippage' s t n m hs ht hnonneg hst hlt hn hnm hm
    have hfraction := Slippage.fraction?_eq_some_iff.2 ⟨hs, hnonneg, hst.trans_lt hlt⟩
    have hfraction' := Slippage.fraction?_eq_some_iff.2 ⟨ht, hnonneg.trans hst, hlt⟩
    exact ⟨_, _, _, Slippage.apply_eq hfraction n, Slippage.apply_eq hfraction m,
      Slippage.apply_eq hfraction' n,
      ⟨Slippage.floorOf_nonneg hnonneg (hst.trans_lt hlt) hn,
        Slippage.floorOf_le hnonneg (hst.trans_lt hlt) hn (hnm.trans_lt hm)⟩,
      Slippage.floorOf_mono hnonneg (hst.trans_lt hlt) hn hnm,
      Slippage.floorOf_anti hnonneg hst hlt hn⟩
  · exact (Slippage.apply_inside (PoolSnapshot.minAmountOut_of_quote h) hnonneg hdigits).2

/-- Amounts at the bound, with a slippage that is lost to rounding and with one of a half, and a sale
that is quoted with a slippage and with the configured one. -/
theorem floor_inside_and_monotone_atBound :
    (∃ least more tighter, Slippage.apply (10 ^ 28 - 2) (.text "1e-30") = .ok least ∧
      Slippage.apply (10 ^ 28 - 1) (.text "1e-30") = .ok more ∧
      Slippage.apply (10 ^ 28 - 2) (.text "0.5") = .ok tighter ∧
      (0 ≤ least ∧ least ≤ 10 ^ 28 - 2) ∧ least ≤ more ∧ tighter ≤ least) ∧
    ∃ q, PoolSnapshot.quote (.value (.standard Node.owed)) (.int 10000) (.text "0.005") none none =
        .ok q ∧
      Client.quoteWith Client.pooled.config (.value (.standard Node.owed)) (.int 10000) .absent none
        .absent = .ok q ∧
      q.amountOut = 19752 ∧ q.minAmountOut ≤ q.amountOut := by
  obtain ⟨hfloor, -, hquote⟩ := floor_inside_and_monotone
  have hconfigured : Client.quoteWith Client.pooled.config (.value (.standard Node.owed))
      (.int 10000) .absent none .absent = .ok Client.saleQuote := Client.quoteWith_owed rfl
  refine ⟨hfloor (.text "1e-30") (.text "0.5") ⟨1, -30⟩ ⟨5, -1⟩ _ _ (by decide +kernel)
    (by decide +kernel) ?_ ?_ ?_ (by decide) (by decide) (by decide), _, PoolSnapshot.quote_owed,
    hconfigured, rfl, hquote _ _ _ _ _ _ _ hconfigured (by decide) (by decide)⟩
  · norm_num [Decimal.value]
  · norm_num [Decimal.value]
  · norm_num [Decimal.value]

namespace ConcentratedPool

/-- The pool `nested` with a fee on the mint received of twice the amount, up to 5000. -/
def overcharged : ConcentratedPool := { nested with transferFeeB := some ⟨20000, 5000⟩ }

theorem overcharged_quote :
    PoolSnapshot.quote (.value (.concentrated overcharged)) (.int 2000) (.text "0.5")
      (some (.ofNat 2)) none = .ok {
        kind := .concentrated, mintIn := .ofNat 2, mintOut := .ofNat 3, amountIn := 2000,
        amountOut := -1971, minAmountOut := -986, fee := 6, impactBps := 45,
        arraysCrossed := [0, -60], sqrtPriceAfter := some 18428810997543547201,
        transferFees := 3962, sqrtPriceLimit := 0 } := by
  have hticks : overcharged.activeTicks = nested.activeTicks := rfl
  simp only [PoolSnapshot.quote, quote, walkAlong, isDry, hticks, nested_activeTicks]
  decide +kernel

/-- A fee above the whole output makes the quoted output negative, and its floor is above it. -/
theorem overcharged_floor_above : ∃ q,
    PoolSnapshot.quote (.value (.concentrated overcharged)) (.int 2000) (.text "0.5")
      (some (.ofNat 2)) none = .ok q ∧ q.amountOut < 10 ^ 28 ∧ ¬q.minAmountOut ≤ q.amountOut :=
  ⟨_, overcharged_quote, by decide, by decide⟩

end ConcentratedPool

namespace Client

/-- The configured basis points and the same slippage as a decimal give one quote, for outputs of at
most 24 digits, or fail alike. -/
theorem quote_default_eq_explicit {slippage : Scalar} {s : Decimal} {bps : Int}
    (hs : Decimal.ofText? slippage.plainText = some s) (hvalue : s.value = bps / 10000)
    (hbps : 0 ≤ bps) (hbps' : bps < 10000) :
    (∀ n, 0 ≤ n → n < 10 ^ 24 → ∃ least, Slippage.apply n slippage = .ok least ∧
      Slippage.applyBps n bps false = .ok least) ∧
    ∀ (c : Client) (state : Supplied PoolSnapshot) (amountIn : Scalar) (mintIn : Option Address)
      (limitPrice : Scalar), c.config.defaultSlippageBps = bps →
      let answer := fun slippage => c.act (quote state amountIn slippage mintIn limitPrice)
      (∀ f, answer .absent = (.error f, c) ↔ answer slippage = (.error f, c)) ∧
      ∀ q, 0 ≤ q.amountOut → q.amountOut < 10 ^ 24 →
        (answer .absent = (.ok q, c) ↔ answer slippage = (.ok q, c)) := by
  have hnonneg : (0 : ℚ) ≤ bps := by exact_mod_cast hbps
  have hlt : (bps : ℚ) < 10000 := by exact_mod_cast hbps'
  have hfraction : Slippage.fraction? slippage = some s := by
    refine Slippage.fraction?_eq_some_iff.2 ⟨hs, ?_, ?_⟩
    · rw [hvalue]
      positivity
    · rw [hvalue, div_lt_one (by norm_num)]
      exact hlt
  have hagree (n : Int) (hn : 0 ≤ n ∧ n < 10 ^ 24) :
      floorDiv (n * (10000 - bps)) 10000 = Slippage.floorOf n s :=
    (Slippage.floorOf_of_bps hvalue hbps hbps' hn.1 hn.2).symm
  constructor
  · intro n hn hdigits
    exact ⟨_, Slippage.apply_eq hfraction n,
      Slippage.applyBps_eq_ok.2 ⟨⟨hbps, hbps'⟩, hagree n ⟨hn, hdigits⟩⟩⟩
  · rintro c state amountIn mintIn limitPrice rfl answer
    simp only [answer, act_quote, quoteWith_given hfraction, quoteWith_absent hbps hbps',
      Prod.mk.injEq, and_true]
    obtain ⟨hfault, hquote⟩ :=
      withLeast_congr hagree (unfloored state amountIn mintIn limitPrice)
    exact ⟨hfault, fun q hq hdigits => hquote q ⟨hq, hdigits⟩⟩

/-- A sale at a client that is configured to half a percent, and the same sale with that slippage. -/
theorem quote_default_eq_explicit_owed :
    Decimal.ofText? (Scalar.text "0.005").plainText = some ⟨5, -3⟩ ∧
    (⟨5, -3⟩ : Decimal).value = (50 : Int) / 10000 ∧ pooled.config.defaultSlippageBps = 50 ∧
    ∃ q, q.amountOut = 19752 ∧ q.minAmountOut = 19653 ∧
      pooled.act (quote (.value (.standard Node.owed)) (.int 10000) .absent none .absent) =
        (.ok q, pooled) ∧
      pooled.act (quote (.value (.standard Node.owed)) (.int 10000) (.text "0.005") none .absent) =
        (.ok q, pooled) := by
  have htext : Decimal.ofText? (Scalar.text "0.005").plainText = some ⟨5, -3⟩ := by decide +kernel
  have hvalue : (⟨5, -3⟩ : Decimal).value = (50 : Int) / 10000 := by norm_num [Decimal.value]
  have hanswer : pooled.act (quote (.value (.standard Node.owed)) (.int 10000) .absent none
      .absent) = (.ok saleQuote, pooled) := by
    rw [act_quote, quoteWith_owed rfl]
  obtain ⟨-, hquotes⟩ := quote_default_eq_explicit htext hvalue (by decide) (by decide)
  obtain ⟨-, hsame⟩ :=
    hquotes pooled (.value (.standard Node.owed)) (.int 10000) none .absent rfl
  exact ⟨htext, hvalue, rfl, _, rfl, rfl, hanswer, (hsame _ (by decide) (by decide)).1 hanswer⟩

end Client
end PoolSwap
