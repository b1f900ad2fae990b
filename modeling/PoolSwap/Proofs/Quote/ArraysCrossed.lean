import PoolSwap.Proofs.Pool.Arrays
import PoolSwap.Proofs.Quote.Account
import PoolSwap.Proofs.Tick.Inverse
import PoolSwap.Proofs.Walk.Chain
import PoolSwap.Proofs.Walk.Limit

/-! The tick arrays that a quote lists. They are those in which a leg of its walk began, in the order
of the walk. An array that the walk only ends in, or only meets at its first tick from above, is not
among them. -/
namespace PoolSwap.ConcentratedPool

variable {s : ConcentratedPool} {r : Route} {d : Direction} {p stop : Position} {l : Leg} {w : Walk}
  {a : TickArray} {price tick tick' : Int}

/-- Whether a walk touches an array: it starts there, crosses a tick of it, or ends at a price in
it. -/
def Touches (s : ConcentratedPool) (w : Walk) (price : Int) (a : TickArray) : Prop :=
  s.covers a s.tickCurrent = true ∨ (∃ t ∈ w.crossed, t ∈ a.ticks) ∨
    ∃ tick, Tick.atSqrtPrice? price = .ok tick ∧ s.covers a tick = true

/-- The ways in which a walk begins no leg in an array that it touches. -/
inductive Skips (s : ConcentratedPool) (d : Direction) (w : Walk) (price : Int) (a : TickArray) :
    Prop
  /-- The array comes after all where a leg began: only the last leg came to it. -/
  | last (hafter : ∀ l ∈ w.legs, d.Before (Tick.arrayStart l.start.tick s.tickSpacing) a.start)
  /-- A leg downward from above the array crossed its first tick. -/
  | first {l : Leg} {t : Tick} (hd : d = .zeroForOne) (hl : l ∈ w.legs)
    (hcrossed : l.crossed = some t) (hfirst : t.index = a.start)
    (habove : a.start + s.span ≤ l.start.tick)
  /-- The price stands at the first tick of the array, just above the current tick, and stays. -/
  | above (hd : d = .zeroForOne) (hfirst : a.start = s.tickCurrent + 1)
    (hprice : price = Tick.sqrtPrice a.start)

/-- An array that does not hold a tick comes after it if it holds a later one. -/
theorem before_of_leads (ha : s.span ∣ a.start) (hout : ¬ s.covers a tick = true)
    (hin : s.covers a tick' = true) (h : d.Leads tick tick') :
    d.Before (Tick.arrayStart tick s.tickSpacing) a.start := by
  have hleads := s.arrayStart_leads h
  rw [(covers_iff_arrayStart ha).1 hin] at hleads
  refine Direction.before_iff.2 fun hback => hout ?_
  exact (covers_iff_arrayStart ha).2 (hleads.antisymm hback)

/-- From a position on the course, a price ahead lies in the current tick or ahead of it, but for a
price that stays at the upper end of the current tick. -/
theorem OnCourse.leads_atSqrtPrice (hp : s.OnCourse r p)
    (hprice : r.direction.Leads p.sqrtPrice price) (htick : Tick.atSqrtPrice? price = .ok tick) :
    r.direction.Leads p.tick tick ∨
      r.direction = .zeroForOne ∧ tick = p.tick + 1 ∧ price = Tick.sqrtPrice tick := by
  obtain ⟨hmin, hmax, hlow, hhigh⟩ := Tick.atSqrtPrice?_eq_ok_iff.1 htick
  have hcurrent := hp.minTick_le
  have hcurrent' := hp.lt_maxTick
  have hupper := hp.le_price
  have hlower := hp.price_le
  rcases le_or_gt tick p.tick with hle | hlt
  · cases hd : r.direction
    · exact .inl hle
    · -- Upward, the price is no less than that of the current tick.
      rw [hd] at hprice
      have hprice : p.sqrtPrice ≤ price := hprice
      refine .inl (show p.tick ≤ tick from ?_)
      by_contra hbelow
      have := Tick.sqrtPrice_le_sqrtPrice (show Tick.minTick ≤ tick + 1 by omega)
        (show tick + 1 ≤ p.tick by omega) hcurrent'.le
      omega
  · cases hd : r.direction
    · rw [hd] at hprice
      have hprice : price ≤ p.sqrtPrice := hprice
      have hstep := Tick.sqrtPrice_le_sqrtPrice (show Tick.minTick ≤ p.tick + 1 by omega)
        (show p.tick + 1 ≤ tick by omega) hmax.le
      refine .inr ⟨rfl, ?_, by omega⟩
      by_contra hne
      have := Tick.sqrtPrice_lt_sqrtPrice (show Tick.minTick ≤ p.tick + 1 by omega)
        (show p.tick + 1 < tick by omega) hmax.le
      omega
    · exact .inl (show p.tick ≤ tick from hlt.le)

theorem mem_arraysCrossed (ha : s.span ∣ a.start) :
    a.start ∈ w.arraysCrossed s.tickSpacing ↔ ∃ l ∈ w.legs, s.covers a l.start.tick = true := by
  simp only [Walk.arraysCrossed, List.mem_eraseDups, List.mem_map, covers_iff_arrayStart ha]

theorem arraysCrossed_head? {ticks : List Tick} (h : r.Runs ticks p w) (hleft : 0 < p.remaining)
    (hend : w.ending = .ok stop) :
    (w.arraysCrossed s.tickSpacing).head? = some (Tick.arrayStart p.tick s.tickSpacing) := by
  obtain ⟨l, hl⟩ := h.exists_head? hleft hend
  obtain ⟨legs, hlegs⟩ := List.head?_eq_some_iff.1 hl
  rw [Walk.arraysCrossed, hlegs, List.map_cons, List.eraseDups_cons, h.start_of_head? hl]
  rfl

/-- A leg downward that crossed the first tick of an array in which no leg began came from above. -/
theorem skips_of_first {ticks : List Tick} {t : Tick} (h : r.Runs ticks p w)
    (hd : r.direction = .zeroForOne) (hl : l ∈ w.legs) (hcrossed : l.crossed = some t)
    (hfirst : t.index = a.start) (hout : ¬ s.covers a l.start.tick = true) :
    s.Skips r.direction w price a := by
  have hahead := Route.leads_of_isAhead (Route.crossed_spec (h.leg_of_mem l hl).2 hcrossed).2
  rw [hd] at hahead
  have hahead : t.index ≤ l.start.tick := hahead
  rw [covers_iff] at hout
  exact .first hd hl hcrossed hfirst (by omega)

section Runs

variable (hs : s.Consistent) (h : r.Runs (r.ticksInOrder s.activeTicks) p w)
include hs h

theorem arraysCrossed_pairwise :
    (w.arraysCrossed s.tickSpacing).Pairwise r.direction.Before := by
  have hstarts := h.starts_pairwise hs
  have hleads : (w.legs.map fun l => Tick.arrayStart l.start.tick s.tickSpacing).Pairwise
      r.direction.Leads :=
    List.pairwise_map.2 (hstarts.imp s.arrayStart_leads)
  refine (hleads.sublist (eraseDups_sublist _)).imp₂ ?_ (nodup_eraseDups _)
  intro a b hab hne
  exact Direction.before_iff.2 fun hba => hne (hab.antisymm hba)

section Unlisted

variable (ha : a ∈ s.arrays) (hout : ∀ l ∈ w.legs, ¬ s.covers a l.start.tick = true)
include ha hout

/-- An array that holds a tick ahead of the start of the last leg, and in which no leg began, comes
after all in which one did. -/
theorem skips_of_last (hlast : w.legs.getLast? = some l) (hin : s.covers a tick = true)
    (hleads : r.direction.Leads l.start.tick tick) : s.Skips r.direction w price a :=
  .last fun l' hl' => before_of_leads (hs.aligned a ha) (hout l' hl') hin
    ((h.leads_last hs hlast l' hl').trans hleads)

theorem skips_of_crossed {t : Tick} (hl : l ∈ w.legs) (hcrossed : l.crossed = some t)
    (hta : t ∈ a.ticks) : s.Skips r.direction w price a := by
  have hahead := Route.leads_of_isAhead (Route.crossed_spec (h.leg_of_mem l hl).2 hcrossed).2
  have hin : s.covers a t.index = true := covers_iff.2 (hs.inside a ha t hta)
  rcases getLast?_or_exists_next (h.isChain hs) hl with hlast | ⟨l', hl', t', hcrossed', hpast⟩
  · exact skips_of_last hs h ha hout hlast hin hahead
  · cases hcrossed.symm.trans hcrossed'
    have hnext := hout l' hl'
    rw [hpast] at hnext
    cases hd : r.direction with
    | oneForZero =>
      rw [hd] at hnext
      exact absurd hin hnext
    | zeroForOne =>
      rw [hd] at hnext
      rw [covers_iff] at hin hnext
      have hfirst : t.index = a.start := by
        simp only [Direction.past] at hnext
        omega
      exact hd ▸ skips_of_first h hd hl hcrossed hfirst (hout l hl)

theorem skips_of_atSqrtPrice (hcurrent : p.tick = s.tickCurrent)
    (hlast : w.legs.getLast? = some l) (hcourse : s.OnCourse r l.start)
    (hprice : r.direction.Leads l.start.sqrtPrice price)
    (htick : Tick.atSqrtPrice? price = .ok tick) (hin : s.covers a tick = true) :
    s.Skips r.direction w price a := by
  have hl : l ∈ w.legs := List.mem_of_getLast? hlast
  rcases hcourse.leads_atSqrtPrice hprice htick with hleads | ⟨hd, hnext, hstay⟩
  · exact skips_of_last hs h ha hout hlast hin hleads
  · -- The price stays at the upper end of a tick, where the last leg began or the one before it ended.
    have houtside := hout l hl
    rw [covers_iff] at houtside hin
    have hfirst : a.start = l.start.tick + 1 := by omega
    rcases head?_or_exists_previous (h.isChain hs) hl with hhead | ⟨l', hl', t, hcrossed, hpast⟩
    · rw [h.start_of_head? hhead, hcurrent] at hfirst
      refine .above hd hfirst ?_
      rw [hstay, hnext, h.start_of_head? hhead, hcurrent, hfirst]
    · rw [hd] at hpast
      simp only [Direction.past] at hpast
      exact skips_of_first h hd hl' hcrossed (by omega) (hout l' hl')

end Unlisted

theorem not_covers_of_skips (hcurrent : p.tick = s.tickCurrent) (ha : a ∈ s.arrays)
    (hskips : s.Skips r.direction w price a) : ∀ l ∈ w.legs, ¬ s.covers a l.start.tick = true := by
  intro l' hl' hin
  cases hskips with
  | last hafter =>
    exact (hafter l' hl').ne ((covers_iff_arrayStart (hs.aligned a ha)).1 hin)
  | first hd hl hcrossed hfirst habove =>
    rw [covers_iff] at hin
    rcases h.before_or_past hs hl hcrossed hl' with hbefore | hpast
    · rw [hd] at hbefore
      have hbefore : _ ≤ l'.start.tick := hbefore
      omega
    · rw [hd] at hpast
      have hpast : l'.start.tick ≤ _ - 1 := hpast
      omega
  | above hd hfirst =>
    have hstart := h.leads_start hs l' hl'
    rw [hd] at hstart
    have hstart : l'.start.tick ≤ p.tick := hstart
    rw [covers_iff] at hin
    omega

/-- A touched array in which no leg began was skipped in one of these ways. -/
theorem skips_of_touches (hcourse : s.OnCourse r p) (hcurrent : p.tick = s.tickCurrent)
    (hoffers : s.Offers r) (hleft : 0 < p.remaining) (hend : w.ending = .ok stop)
    (ha : a ∈ s.arrays) (htouches : s.Touches w stop.sqrtPrice a)
    (hout : ∀ l ∈ w.legs, ¬ s.covers a l.start.tick = true) :
    s.Skips r.direction w stop.sqrtPrice a := by
  rcases htouches with hin | ⟨t, ht, hta⟩ | ⟨tick, htick, hin⟩
  · obtain ⟨l, hl⟩ := h.exists_head? hleft hend
    have hstart := hout l (List.mem_of_mem_head? hl)
    rw [h.start_of_head? hl, hcurrent] at hstart
    exact absurd hin hstart
  · obtain ⟨l, hl, hcrossed⟩ := List.mem_filterMap.1 ht
    exact skips_of_crossed hs h ha hout hl hcrossed hta
  · obtain ⟨l, hlast, rfl⟩ := h.exists_getLast? hleft hend
    have hl : l ∈ w.legs := List.mem_of_getLast? hlast
    obtain ⟨hpos, hleg⟩ := h.leg_of_mem l hl
    have hcourse' : s.OnCourse r l.start := hcourse.head hs (h.start_head .first l hl)
    have hprice := (hcourse'.range hs hoffers _).leads_of_compute hpos.le (Route.leg_eq_ok hleg).2.1
    rw [← Route.leg_stop_sqrtPrice hleg] at hprice
    exact skips_of_atSqrtPrice hs h ha hout hcurrent hlast hcourse' hprice htick hin

end Runs

variable {amount slippage : Scalar} {mintIn : Option Address} {limit : Option Int}
  {paid received : Address} {q : Quote}

/-- What a quote lists as crossed are the starts of the loaded arrays in which a leg of its walk
began, each once and in the order of the walk, that of the current tick first. An array that the walk
touches is missing exactly if only the last leg came to it, if a leg from above crossed its first
tick downward, or if the price stands at its first tick just above the current one. -/
theorem quote_arraysCrossed (hs : s.Consistent)
    (hdirection : directionFor s.mintA s.mintB mintIn = .ok (d, paid, received))
    (hquote : s.quote amount slippage mintIn limit = .ok q)
    (hinput : 0 < s.poolInput d q.amountIn) :
    ∃ bound w price, s.limitInForce d limit = .ok bound ∧
      s.walkFor d bound (s.poolInput d q.amountIn) = some w ∧ q.sqrtPriceAfter = some price ∧
      q.arraysCrossed.Pairwise d.Before ∧
      q.arraysCrossed.head? = some (Tick.arrayStart s.tickCurrent s.tickSpacing) ∧
      (∀ start ∈ q.arraysCrossed, ∃ a ∈ s.arrays, a.start = start) ∧
      ∀ a ∈ s.arrays,
        (a.start ∈ q.arraysCrossed ↔ ∃ l ∈ w.legs, s.covers a l.start.tick = true) ∧
        (s.Touches w price a → (a.start ∉ q.arraysCrossed ↔ s.Skips d w price a)) := by
  obtain ⟨d', bound, w, stop, hq⟩ := quote_eq_ok hquote
  obtain rfl : d' = d := congrArg Prod.fst (Except.ok.inj (hq.mints_eq.symm.trans hdirection))
  obtain ⟨window, hwindow, hroute⟩ := exists_window_of_walkFor hinput.ne' hq.walk_eq
  have hruns := walkFor_runs hq.walk_eq
  have hcourse : s.OnCourse (s.routeFor d' bound) (s.position (s.poolInput d' q.amountIn)) :=
    hroute ▸ hs.onCourse_start hq.limit_eq hwindow _
  have hmem : ∀ a ∈ s.arrays, a.start ∈ q.arraysCrossed ↔
      ∃ l ∈ w.legs, s.covers a l.start.tick = true := fun a ha => by
    rw [hq.arraysCrossed_eq]
    exact mem_arraysCrossed (hs.aligned a ha)
  refine ⟨bound, w, stop.sqrtPrice, hq.limit_eq, hq.walk_eq, hq.sqrtPriceAfter_eq, ?_, ?_, ?_, ?_⟩
  · rw [hq.arraysCrossed_eq]
    exact arraysCrossed_pairwise hs hruns
  · rw [hq.arraysCrossed_eq]
    exact arraysCrossed_head? hruns hinput hq.ending_eq
  · intro start hstart
    rw [hq.arraysCrossed_eq, Walk.arraysCrossed, List.mem_eraseDups] at hstart
    obtain ⟨l, hl, rfl⟩ := List.mem_map.1 hstart
    -- A leg begins in the window, which has no gaps.
    have hcourse' := hcourse.head hs (hruns.start_head .first l hl)
    rw [hroute] at hcourse'
    obtain ⟨a, ha, hin⟩ := (coveredRange_isWindow hs.aligned hwindow).covered l.start.tick
      hcourse'.lower_le hcourse'.lt_upper
    exact ⟨a, ha, ((covers_iff_arrayStart (hs.aligned a ha)).1 hin).symm⟩
  · intro a ha
    refine ⟨hmem a ha, fun htouches => ?_⟩
    rw [hmem a ha]
    constructor
    · intro hout
      refine skips_of_touches hs hruns hcourse rfl (hs.offers hq.limit_eq) hinput hq.ending_eq ha
        htouches fun l hl hin => hout ⟨l, hl, hin⟩
    · rintro hskips ⟨l, hl, hin⟩
      exact not_covers_of_skips hs hruns rfl ha hskips l hl hin

/-- A pool whose liquidity falls at the first tick of one array and inside the next one below. -/
def terraced : ConcentratedPool where
  poolId := .ofNat 1
  mintA := .ofNat 2
  mintB := .ofNat 3
  sqrtPrice := Tick.unitPrice
  tickCurrent := 0
  liquidity := 3000000
  tickSpacing := 1
  feeRate := 2500
  arrays := [⟨-180, [], none⟩, ⟨-120, [⟨-100, 1000000, 1000000⟩], none⟩,
    ⟨-60, [⟨-60, 1000000, 1000000⟩], none⟩, ⟨0, [], none⟩]
  decimalsA := 6
  decimalsB := 6
  transferFeeA := none
  transferFeeB := none
  starts_ascending := by decide
  spacing_pos := Int.one_pos

theorem terraced_activeTicks :
    terraced.activeTicks = [⟨-100, 1000000, 1000000⟩, ⟨-60, 1000000, 1000000⟩] :=
  List.mergeSort_of_pairwise (by decide)

theorem terraced_liquidityAt (tick : Int) : terraced.liquidityAt tick =
    if tick < -100 then 1000000 else if tick < -60 then 2000000 else 3000000 := by
  have hcurrent : terraced.tickCurrent = 0 := rfl
  have hliquidity : terraced.liquidity = 3000000 := rfl
  simp only [liquidityAt, terraced_activeTicks, hcurrent, hliquidity, netBetween_cons,
    netBetween_nil]
  omega

theorem terraced_consistent : terraced.Consistent where
  feeRate_nonneg := by decide
  feeRate_lt := by decide
  minSqrtPrice_lt := by decide
  lt_maxSqrtPrice := by decide
  minTick_le := by decide
  lt_maxTick := by decide
  price_le := by decide
  le_price := by decide
  aligned := by decide
  inside := by decide
  inRange := by decide
  distinct := by decide
  liquidityAt_nonneg tick := by
    rw [terraced_liquidityAt]
    split_ifs <;> decide
  liquidityAt_le tick := by
    rw [terraced_liquidityAt]
    split_ifs <;> decide

theorem terraced_quote : terraced.quote (.int 15000) (.int 0) none none = .ok {
    kind := .concentrated, mintIn := .ofNat 2, mintOut := .ofNat 3, amountIn := 15000,
    amountOut := 14877, minAmountOut := 14877, fee := 39, impactBps := 82,
    arraysCrossed := [0, -120], sqrtPriceAfter := some 18319546522829545662, transferFees := 0,
    sqrtPriceLimit := 0 } := by
  simp only [quote, walkAlong, isDry, terraced_activeTicks]
  decide +kernel

theorem terraced_crossed :
    (terraced.walkFor .zeroForOne (Tick.minSqrtPrice + 1) 15000).map Walk.crossed =
      some [⟨-60, 1000000, 1000000⟩, ⟨-100, 1000000, 1000000⟩] := by
  simp only [walkFor, walkAlong, terraced_activeTicks]
  decide +kernel

/-- Of the four arrays that a walk touches, the two that it begins a leg in. -/
theorem quote_arraysCrossed_terraced : terraced.Consistent ∧
    0 < terraced.poolInput .zeroForOne 15000 ∧
    ∃ w, terraced.walkFor .zeroForOne (Tick.minSqrtPrice + 1) 15000 = some w ∧
      (∃ l ∈ w.legs, terraced.covers ⟨-120, [⟨-100, 1000000, 1000000⟩], none⟩ l.start.tick = true) ∧
      terraced.Skips .zeroForOne w 18319546522829545662
        ⟨-60, [⟨-60, 1000000, 1000000⟩], none⟩ := by
  have hinput : 0 < terraced.poolInput .zeroForOne 15000 := by decide
  obtain ⟨bound, w, price, hlimit, hwalk, hprice, -, -, -, harrays⟩ :=
    quote_arraysCrossed terraced_consistent rfl terraced_quote hinput
  cases hlimit
  cases hprice
  have hcrossed : some w.crossed = some _ :=
    (congrArg (Option.map Walk.crossed) hwalk).symm.trans terraced_crossed
  refine ⟨terraced_consistent, hinput, w, hwalk, (harrays _ (by decide)).1.1 (by decide), ?_⟩
  refine ((harrays _ (by decide)).2 (.inr (.inl ⟨⟨-60, 1000000, 1000000⟩, ?_, by decide⟩))).1
    (by decide)
  rw [Option.some.inj hcrossed]
  exact List.mem_cons_self

/-- A walk that touches all four arrays of its pool, of which its quote lists two. -/
theorem terraced_lists_two : terraced.Consistent ∧
    ∃ q w, terraced.quote (.int 15000) (.int 0) none none = .ok q ∧
      terraced.walkFor .zeroForOne (Tick.minSqrtPrice + 1) 15000 = some w ∧
      q.sqrtPriceAfter = some 18319546522829545662 ∧ q.arraysCrossed = [0, -120] ∧
      terraced.arrays.map (·.start) = [-180, -120, -60, 0] ∧
      ∀ a ∈ terraced.arrays, terraced.Touches w 18319546522829545662 a := by
  obtain ⟨w, hwalk, hcrossed⟩ := Option.map_eq_some_iff.1 terraced_crossed
  have hlast : Tick.atSqrtPrice? 18319546522829545662 = .ok (-139) :=
    Tick.atSqrtPrice?_eq_ok_iff.2 (by decide)
  refine ⟨terraced_consistent, _, w, terraced_quote, hwalk, rfl, rfl, rfl, fun a ha => ?_⟩
  unfold Touches
  rw [hcrossed]
  have harrays : a = ⟨-180, [], none⟩ ∨ a = ⟨-120, [⟨-100, 1000000, 1000000⟩], none⟩ ∨
      a = ⟨-60, [⟨-60, 1000000, 1000000⟩], none⟩ ∨ a = ⟨0, [], none⟩ := by
    simpa [terraced] using ha
  rcases harrays with rfl | rfl | rfl | rfl
  · exact .inr (.inr ⟨-139, hlast, by decide⟩)
  · exact .inr (.inl (by decide))
  · exact .inr (.inl (by decide))
  · exact .inl (by decide)

end PoolSwap.ConcentratedPool
