import PoolSwap.ConstantProduct
import PoolSwap.Proofs.SwapStep.Exact

/-! Trades against two reserves, one after another. A trade pays its whole input into the pool and
takes out what the constant-product rule gives for the input less the fee, so the product of the
reserves never decreases, and no run of trades takes value out of the pool. -/
namespace PoolSwap.ConstantProduct

structure Reserves where
  a : Int
  b : Int
deriving DecidableEq, Repr

structure Trade where
  direction : Direction
  amountIn : Int
deriving DecidableEq, Repr

/-- A trade that was carried out, with the reserves before and after it. -/
structure Fill where
  trade : Trade
  start : Reserves
  amountOut : Int
  stop : Reserves
deriving DecidableEq, Repr

namespace Reserves

/-- The reserve that a trade pays into. -/
def paid (r : Reserves) : Direction → Int
  | .zeroForOne => r.a
  | .oneForZero => r.b

/-- The reserve that a trade is paid from. -/
def bought (r : Reserves) (d : Direction) : Int := r.paid d.reverse

def product (r : Reserves) : Int := r.a * r.b

def after (r : Reserves) (t : Trade) (amountOut : Int) : Reserves :=
  match t.direction with
  | .zeroForOne => ⟨r.a + t.amountIn, r.b - amountOut⟩
  | .oneForZero => ⟨r.a - amountOut, r.b + t.amountIn⟩

structure Funded (r : Reserves) : Prop where
  a_pos : 1 ≤ r.a
  b_pos : 1 ≤ r.b

end Reserves

def fill (feeNumerator feeDenominator : Int) (r : Reserves) (t : Trade) : Checked Fill := do
  let amountOut ←
    output t.amountIn (r.paid t.direction) (r.bought t.direction) feeNumerator feeDenominator
  pure ⟨t, r, amountOut, r.after t amountOut⟩

/-- Trades in a row, each on the reserves that the one before it left, and the reserves at the end. -/
def fills (feeNumerator feeDenominator : Int) :
    Reserves → List Trade → Checked (List Fill × Reserves)
  | r, [] => .ok ([], r)
  | r, t :: later => do
    let f ← fill feeNumerator feeDenominator r t
    let (rest, last) ← fills feeNumerator feeDenominator f.stop later
    pure (f :: rest, last)

variable {feeNumerator feeDenominator x reserveIn : Int} {r r' : Reserves} {t : Trade}
  {f : Fill}

namespace Reserves

@[simp] theorem paid_after (r : Reserves) (t : Trade) (amountOut : Int) :
    (r.after t amountOut).paid t.direction = r.paid t.direction + t.amountIn := by
  unfold after
  cases t.direction <;> rfl

@[simp] theorem bought_after (r : Reserves) (t : Trade) (amountOut : Int) :
    (r.after t amountOut).bought t.direction = r.bought t.direction - amountOut := by
  unfold after
  cases t.direction <;> rfl

theorem product_eq (r : Reserves) (d : Direction) : r.product = r.paid d * r.bought d := by
  cases d
  · rfl
  · exact mul_comm r.a r.b

theorem funded_iff (d : Direction) : r.Funded ↔ 1 ≤ r.paid d ∧ 1 ≤ r.bought d := by
  cases d
  · exact ⟨fun h => ⟨h.a_pos, h.b_pos⟩, fun h => ⟨h.1, h.2⟩⟩
  · exact ⟨fun h => ⟨h.b_pos, h.a_pos⟩, fun h => ⟨h.2, h.1⟩⟩

/-- Without a loss in the product, a reserve that did not grow leaves the other not smaller. -/
theorem bought_le_bought (hr : r.Funded) (hr' : r'.Funded) (hproduct : r.product ≤ r'.product)
    {d : Direction} (hpaid : r'.paid d ≤ r.paid d) : r.bought d ≤ r'.bought d := by
  have hpos := (funded_iff d).1 hr
  have hpos' := (funded_iff d).1 hr'
  rw [product_eq r d, product_eq r' d] at hproduct
  refine le_of_mul_le_mul_left (hproduct.trans ?_) (show 0 < r.paid d by omega)
  exact mul_le_mul_of_nonneg_right hpaid (by omega)

end Reserves

/-- What a trade keeps: it leaves something in both reserves, and their product does not
decrease. -/
structure Fill.Kept (f : Fill) : Prop where
  amountOut_nonneg : 0 ≤ f.amountOut
  amountOut_lt : f.amountOut < f.start.bought f.trade.direction
  stop_funded : f.stop.Funded
  product_le : f.start.product ≤ f.stop.product

theorem fill_eq_ok (h : fill feeNumerator feeDenominator r t = .ok f) :
    f.trade = t ∧ f.start = r ∧ f.stop = r.after t f.amountOut := by
  obtain ⟨amountOut, -, h⟩ := Checked.bind_eq_ok.1 h
  cases Checked.pure_eq_ok.1 h
  exact ⟨rfl, rfl, rfl⟩

theorem fills_cons_eq_ok {later : List Trade} {made : List Fill} {last : Reserves}
    (h : fills feeNumerator feeDenominator r (t :: later) = .ok (made, last)) :
    ∃ f rest, made = f :: rest ∧ fill feeNumerator feeDenominator r t = .ok f ∧
      fills feeNumerator feeDenominator f.stop later = .ok (rest, last) := by
  obtain ⟨f, hfill, h⟩ := Checked.bind_eq_ok.1 h
  obtain ⟨⟨rest, last'⟩, hrest, h⟩ := Checked.bind_eq_ok.1 h
  cases Checked.pure_eq_ok.1 h
  exact ⟨f, rest, rfl, hfill, hrest⟩

/-- What is left of an input after the fee. -/
def net (feeNumerator feeDenominator amountIn : Int) : Int :=
  amountIn - PoolSwap.floorDiv (amountIn * feeNumerator) feeDenominator

section Fee

variable (hnum : 0 ≤ feeNumerator) (hden : feeNumerator < feeDenominator)
include hnum hden

theorem net_nonneg (hx : 0 ≤ x) : 0 ≤ net feeNumerator feeDenominator x := by
  have hpos : 0 < feeDenominator := by omega
  have hfee := floorDiv_mul_le hpos (x * feeNumerator)
  have hshare : x * feeNumerator ≤ x * feeDenominator := mul_le_mul_of_nonneg_left hden.le hx
  exact Int.sub_nonneg.2 (le_of_mul_le_mul_right (hfee.trans hshare) hpos)

theorem net_le (hx : 0 ≤ x) : net feeNumerator feeDenominator x ≤ x := by
  have hfee : 0 ≤ PoolSwap.floorDiv (x * feeNumerator) feeDenominator :=
    floorDiv_nonneg (by omega) (mul_nonneg hx hnum)
  unfold net
  omega

theorem output_eq (hx : 0 ≤ x) (hin : 1 ≤ reserveIn) (reserveOut : Int) :
    output x reserveIn reserveOut feeNumerator feeDenominator =
      .ok (PoolSwap.floorDiv (reserveOut * net feeNumerator feeDenominator x)
        (reserveIn + net feeNumerator feeDenominator x)) := by
  have hnet := net_nonneg hnum hden hx
  have hgrown : reserveIn + net feeNumerator feeDenominator x ≠ 0 := by omega
  unfold output fee
  rw [Checked.floorDiv_eq (show feeDenominator ≠ 0 by omega)]
  change (if reserveIn + net feeNumerator feeDenominator x = 0 then _ else _) = _
  rw [if_neg hgrown]
  exact Checked.floorDiv_eq hgrown _

/-- An output is below the reserve it comes from, and the input less the fee pays for it. -/
theorem exists_output (hx : 0 ≤ x) (hin : 1 ≤ reserveIn) {reserveOut : Int}
    (hout : 1 ≤ reserveOut) :
    ∃ out, output x reserveIn reserveOut feeNumerator feeDenominator = .ok out ∧ 0 ≤ out ∧
      out < reserveOut ∧ out * (reserveIn + net feeNumerator feeDenominator x) ≤
        reserveOut * net feeNumerator feeDenominator x := by
  have hnet := net_nonneg hnum hden hx
  have hgrown : 0 < reserveIn + net feeNumerator feeDenominator x := by omega
  have hrate := floorDiv_mul_le hgrown (reserveOut * net feeNumerator feeDenominator x)
  refine ⟨_, output_eq hnum hden hx hin reserveOut,
    floorDiv_nonneg hgrown (mul_nonneg (by omega) hnet), ?_, hrate⟩
  refine lt_of_mul_lt_mul_right (hrate.trans_lt ?_) hgrown.le
  exact mul_lt_mul_of_pos_left (by omega) (by omega)

theorem exists_fill (hr : r.Funded) (ht : 0 ≤ t.amountIn) :
    ∃ f, fill feeNumerator feeDenominator r t = .ok f ∧ f.Kept := by
  obtain ⟨hpaid, hbought⟩ := (Reserves.funded_iff t.direction).1 hr
  have hnet := net_nonneg hnum hden ht
  have hle := net_le hnum hden ht
  obtain ⟨out, hout, hnonneg, hlt, hrate⟩ := exists_output hnum hden ht hpaid hbought
  generalize net feeNumerator feeDenominator t.amountIn = kept at *
  refine ⟨⟨t, r, out, r.after t out⟩, ?_, hnonneg, hlt, ?_, ?_⟩
  · unfold fill
    rw [hout]
    rfl
  · rw [Reserves.funded_iff t.direction, Reserves.paid_after, Reserves.bought_after]
    omega
  · -- The fee stays in the pool, so the whole input pays for at least what its rest pays for.
    rw [Reserves.product_eq _ t.direction, Reserves.product_eq (r.after t out) t.direction,
      Reserves.paid_after, Reserves.bought_after]
    calc
      r.paid t.direction * r.bought t.direction ≤
          (r.paid t.direction + kept) * (r.bought t.direction - out) := by
        rw [mul_sub, add_mul]
        linarith
      _ ≤ (r.paid t.direction + t.amountIn) * (r.bought t.direction - out) :=
        mul_le_mul_of_nonneg_right (by omega) (by omega)

theorem exists_fills (hr : r.Funded) {trades : List Trade}
    (htrades : ∀ t ∈ trades, 0 ≤ t.amountIn) :
    ∃ made last, fills feeNumerator feeDenominator r trades = .ok (made, last) ∧
      made.map (·.trade) = trades ∧ (∀ f ∈ made, f.Kept) ∧ last.Funded ∧
      r.product ≤ last.product := by
  induction trades generalizing r with
  | nil => exact ⟨[], r, rfl, rfl, by simp, hr, le_rfl⟩
  | cons t later ih =>
    obtain ⟨f, hfill, hkept⟩ := exists_fill hnum hden hr (htrades t List.mem_cons_self)
    obtain ⟨htrade, hstart, -⟩ := fill_eq_ok hfill
    obtain ⟨rest, last, hrest, hmap, hkeeps, hlast, hproduct⟩ :=
      ih hkept.stop_funded fun u hu => htrades u (List.mem_cons_of_mem t hu)
    refine ⟨f :: rest, last, ?_, by rw [List.map_cons, htrade, hmap], ?_, hlast, ?_⟩
    · rw [fills, hfill]
      simp only [bind, Except.bind, hrest]
      rfl
    · exact List.forall_mem_cons.2 ⟨hkept, hkeeps⟩
    · exact (hstart ▸ hkept.product_le).trans hproduct

end Fee

/-- The reserves after a trade whose output is sold straight back. -/
theorem fills_back {sold back : Fill} {last : Reserves}
    (h : fills feeNumerator feeDenominator r [sold.trade, back.trade] = .ok ([sold, back], last))
    (hback : back.trade = ⟨sold.trade.direction.reverse, sold.amountOut⟩) :
    last.bought sold.trade.direction = r.bought sold.trade.direction ∧
      last.paid sold.trade.direction =
        r.paid sold.trade.direction + sold.trade.amountIn - back.amountOut := by
  obtain ⟨f, rest, hmade, hfill, h⟩ := fills_cons_eq_ok h
  obtain ⟨rfl, rfl⟩ := List.cons.inj hmade
  obtain ⟨g, rest, hmade, hfill', h⟩ := fills_cons_eq_ok h
  obtain ⟨rfl, rfl⟩ := List.cons.inj hmade
  have hlast : back.stop = last := congrArg Prod.snd (Except.ok.inj h)
  rw [← hlast, (fill_eq_ok hfill').2.2, (fill_eq_ok hfill).2.2, hback]
  unfold Reserves.after Reserves.bought Reserves.paid
  cases sold.trade.direction <;> simp [Direction.reverse]

/-- No run of trades takes value out of the pool: each leaves something in both reserves, their
product never decreases, and so one reserve is at or below its start only with the other at or above
its own. An output that is sold straight back returns at most what was paid for it. -/
theorem fills_keep_value (hnum : 0 ≤ feeNumerator) (hden : feeNumerator < feeDenominator)
    (ha : 1 ≤ r.a) (hb : 1 ≤ r.b) {trades : List Trade} (htrades : ∀ t ∈ trades, 0 ≤ t.amountIn) :
    ∃ made last, fills feeNumerator feeDenominator r trades = .ok (made, last) ∧
      made.map (·.trade) = trades ∧
      (∀ f ∈ made, 0 ≤ f.amountOut ∧ f.amountOut < f.start.bought f.trade.direction ∧
        1 ≤ f.stop.a ∧ 1 ≤ f.stop.b ∧ f.start.a * f.start.b ≤ f.stop.a * f.stop.b) ∧
      r.a * r.b ≤ last.a * last.b ∧
      (last.a ≤ r.a → r.b ≤ last.b) ∧ (last.b ≤ r.b → r.a ≤ last.a) ∧
      ∀ sold back, made = [sold, back] →
        back.trade = ⟨sold.trade.direction.reverse, sold.amountOut⟩ →
        back.amountOut ≤ sold.trade.amountIn := by
  have hr : r.Funded := ⟨ha, hb⟩
  obtain ⟨made, last, hfills, hmap, hkeeps, hlast, hproduct⟩ := exists_fills hnum hden hr htrades
  have hother : ∀ d : Direction, last.paid d ≤ r.paid d → r.bought d ≤ last.bought d :=
    fun d => Reserves.bought_le_bought hr hlast hproduct
  refine ⟨made, last, hfills, hmap, fun f hf => ?_, hproduct, hother .zeroForOne,
    hother .oneForZero, ?_⟩
  · have hkept := hkeeps f hf
    exact ⟨hkept.amountOut_nonneg, hkept.amountOut_lt, hkept.stop_funded.a_pos,
      hkept.stop_funded.b_pos, hkept.product_le⟩
  · rintro sold back rfl hback
    rw [← hmap] at hfills
    obtain ⟨hbought, hpaid⟩ := fills_back hfills hback
    have hgrown := hother sold.trade.direction.reverse hbought.le
    unfold Reserves.bought at hgrown
    rw [Direction.reverse_reverse] at hgrown
    omega

/-- A sale of ten thousand, sold straight back, loses the fees of both ways. -/
theorem fills_keep_value_back :
    (0 : Int) ≤ 25 ∧ (25 : Int) < 10000 ∧ (1 : Int) ≤ 1000000 ∧ (1 : Int) ≤ 2000000 ∧
    ∃ sold back last, fills 25 10000 ⟨1000000, 2000000⟩
        [⟨.zeroForOne, 10000⟩, ⟨.oneForZero, 19752⟩] = .ok ([sold, back], last) ∧
      sold.amountOut = 19752 ∧ back.amountOut = 9950 ∧ back.amountOut ≤ 10000 ∧
      (1000000 : Int) * 2000000 ≤ last.a * last.b := by
  have hrun : fills 25 10000 ⟨1000000, 2000000⟩
      [⟨.zeroForOne, 10000⟩, ⟨.oneForZero, 19752⟩] = .ok
      ([⟨⟨.zeroForOne, 10000⟩, ⟨1000000, 2000000⟩, 19752, ⟨1010000, 1980248⟩⟩,
        ⟨⟨.oneForZero, 19752⟩, ⟨1010000, 1980248⟩, 9950, ⟨1000050, 2000000⟩⟩],
        ⟨1000050, 2000000⟩) := by decide
  have ha : 1 ≤ (Reserves.mk 1000000 2000000).a := by decide
  have hb : 1 ≤ (Reserves.mk 1000000 2000000).b := by decide
  have htrades : ∀ t ∈ [Trade.mk .zeroForOne 10000, ⟨.oneForZero, 19752⟩], 0 ≤ t.amountIn := by
    decide
  obtain ⟨made, last, hfills, -, -, hproduct, -, -, hback⟩ :=
    fills_keep_value (show (0 : Int) ≤ 25 by decide) (show (25 : Int) < 10000 by decide) ha hb
      htrades
  cases hrun.symm.trans hfills
  exact ⟨by decide, by decide, by decide, by decide, _, _, _, hrun, rfl, rfl,
    hback _ _ rfl rfl, hproduct⟩

end PoolSwap.ConstantProduct
