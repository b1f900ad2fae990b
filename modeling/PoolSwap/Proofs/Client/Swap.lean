import PoolSwap.Proofs.Client.Calls
import PoolSwap.Proofs.Plan.Assembly
import PoolSwap.Proofs.Plan.Orientation
import PoolSwap.Proofs.Quote.Fields
import PoolSwap.Proofs.Quote.Standard

/-! One swap of a client. Everything before the sending only looks things up, so a swap that stops
early has sent nothing. One that gets to the sending has passed every guard on the way, and sends the
plan of the quote that it reports. -/
namespace PoolSwap

/-- The request of a quoted trade for an owner. -/
def Quote.request (q : Quote) (config : Config) (owner : Address) (state : Option PoolSnapshot) :
    SwapRequest where
  owner
  mintIn := q.mintIn
  mintOut := q.mintOut
  amountIn := q.amountIn
  minAmountOut := q.minAmountOut
  computeBudget := config.budget
  state := state.map .value
  wrapNative := true
  payer := none
  sqrtPriceLimit := q.sqrtPriceLimit

theorem StandardPool.amountIn_of_quote {s : StandardPool} {amount slippage : Scalar}
    {mintIn : Option Address} {q : Quote} (h : s.quote amount slippage mintIn = .ok q) :
    amount = .int q.amountIn := by
  obtain ⟨n, hamount, h⟩ := Checked.bind_eq_ok.1 h
  obtain ⟨⟨_, paid, received⟩, -, h⟩ := Checked.bind_eq_ok.1 h
  obtain ⟨⟨reserveIn, reserveOut, _⟩, -, h⟩ := Checked.bind_eq_ok.1 h
  dsimp only at h
  split at h
  case isTrue => cases h
  case isFalse =>
    obtain ⟨_, -, h⟩ := Checked.bind_eq_ok.1 h
    obtain ⟨_, -, h⟩ := Checked.bind_eq_ok.1 h
    obtain ⟨_, -, h⟩ := Checked.bind_eq_ok.1 h
    cases h
    exact (Quote.tradeAmount_eq_ok.1 hamount).1

theorem PoolSnapshot.amountIn_of_quote {s : PoolSnapshot} {amount slippage : Scalar}
    {mintIn : Option Address} {limit : Option Int} {q : Quote}
    (h : quote (.value s) amount slippage mintIn limit = .ok q) : amount = .int q.amountIn := by
  obtain ⟨_, -, h⟩ := Checked.bind_eq_ok.1 h
  cases s with
  | standard s =>
    dsimp only at h
    split at h
    case isTrue => cases h
    case isFalse => exact StandardPool.amountIn_of_quote h
  | concentrated s =>
    obtain ⟨_, _, _, _, hquoted⟩ := ConcentratedPool.quote_eq_ok h
    exact (Quote.tradeAmount_eq_ok.1 hquoted.amountIn_eq).1

namespace Client

open Node (lookups)

variable {c c' : Client} {keys : PoolKeys} {state : PoolSnapshot} {q : Quote} {plan : SwapPlan}

theorem amountIn_of_quoteWith {config : Config} {amountIn slippage limitPrice : Scalar}
    {mintIn : Option Address}
    (h : quoteWith config (.value state) amountIn slippage mintIn limitPrice = .ok q) :
    amountIn = .int q.amountIn := by
  obtain ⟨limit, -, h⟩ := Checked.bind_eq_ok.1 h
  split at h
  case h_1 =>
    obtain ⟨q', hquote, h⟩ := Checked.bind_eq_ok.1 h
    obtain ⟨least, -, h⟩ := Checked.bind_eq_ok.1 h
    cases h
    change amountIn = .int q'.amountIn
    exact PoolSnapshot.amountIn_of_quote hquote
  case h_2 => exact PoolSnapshot.amountIn_of_quote h

theorem act_quote (c : Client) (state : Supplied PoolSnapshot) (amountIn slippage : Scalar)
    (mintIn : Option Address) (limitPrice : Scalar) :
    c.act (quote state amountIn slippage mintIn limitPrice) =
      (quoteWith c.config state amountIn slippage mintIn limitPrice, c) := by
  unfold quote
  rw [act_bind, act_get]
  dsimp only
  cases quoteWith c.config state amountIn slippage mintIn limitPrice <;> rfl

theorem loadedKeypair_bind_eq_ok {f : Keypair → Action β} {b : β} :
    (c.act (loadedKeypair >>= f)).1 = .ok b ↔
      ∃ keypair, c.keypair = some keypair ∧ (c.act (f keypair)).1 = .ok b := by
  unfold loadedKeypair
  rw [bind_assoc, act_bind, act_get]
  dsimp only
  cases c.keypair with
  | none => exact ⟨nofun, nofun⟩
  | some k => exact ⟨fun h => ⟨k, rfl, h⟩, fun ⟨_, hk, h⟩ => Option.some.inj hk ▸ h⟩

/-- A plan is that of the quote, for the keypair at hand and the accounts that exist. -/
theorem planSwap_eq_ok : (c.act (planSwap (some (.value keys)) q (some state))).1 = .ok plan ↔
    ∃ keypair, c.keypair = some keypair ∧ c.present.reach .multipleAccounts = .ok () ∧
      ∃ existing, (∀ a ∈ [plan.sourceAccount, plan.destinationAccount],
        a ∈ existing ↔ (c.present.accounts a).isSome) ∧
      (q.request c.config keypair.address (some state)).plan (some (.value keys)) existing =
        .ok plan := by
  unfold planSwap owner
  rw [bind_assoc, loadedKeypair_bind_eq_ok]
  refine exists_congr fun keypair => and_congr_right fun _ => ?_
  rw [pure_bind, act_bind, act_get]
  dsimp only
  rw [act_askNode]
  exact SwapRequest.ask_assemble

/-- A signed transaction is the plan's, signed by the keypair at hand. -/
theorem sign_eq_ok {tx : Transaction} : (c.act (sign plan)).1 = .ok tx ↔
    ∃ keypair, c.keypair = some keypair ∧ c.present.reach .latestBlockhash = .ok () ∧
      plan.sign [keypair] c.present.blockhash = .ok tx := by
  unfold sign
  rw [loadedKeypair_bind_eq_ok]
  refine exists_congr fun keypair => and_congr_right fun _ => ?_
  rw [act_bind_eq_ok, act_askNode, Node.ask_latestBlockhash]
  cases c.present.reach .latestBlockhash with
  | error fault => exact ⟨nofun, nofun⟩
  | ok _ => simp [Except.map, act_checked]

/-- What a caller asks of a swap. -/
structure Order where
  poolId : String
  mintIn : Option Address
  amountIn : Scalar
  slippage : Scalar
  dryRun : Option Bool
  limitPrice : Scalar

/-- What a swap comes to on its way to the sending, and the client after each of its parts. -/
structure SwapRun where
  keys : PoolKeys
  state : PoolSnapshot
  hit : Bool
  quote : Quote
  plan : SwapPlan
  /-- Signed to be reported. -/
  reported : Transaction
  /-- Signed again to be sent. -/
  sent : Transaction
  loaded : Client
  planned : Client
  signed : Client
  ready : Client

namespace SwapRun

/-- The report of a run whose transaction is accepted. -/
def report (r : SwapRun) (signature : String) : SwapReport where
  success := true
  error := none
  poolId := r.keys.id
  quote := r.quote
  dryRun := false
  keysCacheHit := r.hit
  operations := r.plan.kinds
  transactionSize := r.reported.encode.length
  accountCount := r.reported.message.table.addresses.length
  signature := some signature
  transaction := some (Base64.encode r.reported.encode)

/-- Whether a swap gets to the sending: it is no dry run, and each of its parts succeeds on the client
that the one before leaves. -/
structure Clears (r : SwapRun) (c : Client) (o : Order) : Prop where
  live : o.dryRun.getD c.config.dryRun = false
  load_eq : c.act (readPool o.poolId o.mintIn) = (.ok (r.keys, r.state, r.hit), r.loaded)
  quote_eq : quoteWith c.config (.value r.state) o.amountIn o.slippage o.mintIn o.limitPrice =
    .ok r.quote
  impact_le : c.config.maxPriceImpactBps ≠ 0 → r.quote.impactBps ≤ c.config.maxPriceImpactBps
  plan_eq : r.loaded.act (planSwap (some (.value r.keys)) r.quote (some r.state)) =
    (.ok r.plan, r.planned)
  sign_eq : r.planned.act (sign r.plan) = (.ok r.reported, r.signed)
  resign_eq : r.signed.act (sign r.plan) = (.ok r.sent, r.ready)

end SwapRun

/-- How a swap can end: with nothing sent, and then not as a success unless it is a dry run, or with
the answer to the one transaction that it sends last. -/
inductive SwapEnd (c : Client) (o : Order) : Checked SwapReport × Client → Prop
  | unsent {answer : Checked SwapReport} {c' : Client} (hkeeps : Keeps lookups c c')
      (hreport : ∀ report, answer = .ok report → report.success = true → report.dryRun = true) :
      SwapEnd c o (answer, c')
  | sent {r : SwapRun} {answer : Checked String} {c' : Client} (hclears : r.Clears c o)
      (hsend : r.ready.act (askNode (Node.send r.sent.encode c.config.skipPreflight)) =
        (answer, c')) :
      SwapEnd c o (answer.map r.report, c')

variable {o : Order}

theorem SwapEnd.failed {fault : Fault} (hkeeps : Keeps lookups c c') :
    SwapEnd c o (.error fault, c') := by
  refine .unsent hkeeps ?_
  rintro _ ⟨⟩

/-- A part of a swap that only looks things up ends it with nothing sent, or it goes on. -/
theorem swapEnd_bind {c₁ : Client} {x : Action α} {f : α → Action SwapReport} (hx : LooksUp x)
    (h₁ : Keeps lookups c c₁)
    (hf : ∀ a c₂, c₁.act x = (.ok a, c₂) → Keeps lookups c c₂ → SwapEnd c o (c₂.act (f a))) :
    SwapEnd c o (c₁.act (x >>= f)) := by
  rw [act_bind]
  cases hact : c₁.act x with
  | mk answer c₂ =>
    have hkeeps := h₁.trans (hx.keeps hact)
    cases answer with
    | error fault => exact .failed hkeeps
    | ok a => exact hf a c₂ hact hkeeps

theorem impact_le_of_not_exceeds {config : Config} (h : ¬exceedsImpact config q = true)
    (hmax : config.maxPriceImpactBps ≠ 0) : q.impactBps ≤ config.maxPriceImpactBps := by
  simpa [exceedsImpact, hmax] using h

theorem swap_ends (c : Client) (o : Order) : SwapEnd c o
    (c.act (swap o.poolId o.mintIn o.amountIn o.slippage o.dryRun o.limitPrice)) := by
  unfold swap
  rw [act_bind, act_get]
  dsimp only
  refine swapEnd_bind (readPool_looksUp _ _) (.refl _ c) fun ⟨keys, state, hit⟩ c₁ hload h₁ => ?_
  rw [act_bind, act_quote]
  cases hquote : quoteWith c₁.config (.value state) o.amountIn o.slippage o.mintIn o.limitPrice with
  | error fault => exact .failed h₁
  | ok q =>
    dsimp only
    split
    case isTrue =>
      refine .unsent h₁ ?_
      rintro _ ⟨⟩ ⟨⟩
    case isFalse himpact =>
      refine swapEnd_bind (planSwap_looksUp _ _ _) h₁ fun plan c₂ hplan h₂ => ?_
      refine swapEnd_bind (sign_looksUp _) h₂ fun tx c₃ hsign h₃ => ?_
      split
      case isTrue hdry =>
        refine .unsent h₃ ?_
        rintro _ ⟨⟩ -
        exact hdry
      case isFalse hlive =>
        have hlive : o.dryRun.getD c.config.dryRun = false := Bool.eq_false_of_not_eq_true hlive
        unfold submit
        rw [bind_assoc]
        refine swapEnd_bind (sign_looksUp _) h₃ fun sent c₄ hresign h₄ => ?_
        rw [bind_assoc, act_bind, act_get, hlive]
        dsimp only
        rw [act_bind, h₄.config_eq]
        have hclears : SwapRun.Clears ⟨keys, state, hit, q, plan, tx, sent, c₁, c₂, c₃, c₄⟩ c o :=
          ⟨hlive, hload, h₁.config_eq ▸ hquote, impact_le_of_not_exceeds himpact, hplan, hsign,
            hresign⟩
        cases hsend : c₄.act (askNode (Node.send sent.encode c.config.skipPreflight)) with
        | mk answer c' =>
          have hend := SwapEnd.sent hclears hsend
          cases answer with
          | error fault => exact hend
          | ok signature => exact hend

/-- The guards that a run has passed, and what the transaction that it sends carries. -/
structure SwapRun.Guarded (r : SwapRun) (c : Client) (o : Order) (keypair : Keypair) : Prop where
  keypair_eq : c.keypair = some keypair
  amountIn_eq : o.amountIn = .int r.quote.amountIn
  planned : ∃ existing, (r.quote.request c.config keypair.address (some r.state)).plan
    (some (.value r.keys)) existing = .ok r.plan
  fresh : r.keys.requireFresh r.state = .ok ()
  small : r.plan.checkSize = .ok ()
  signed : ∃ blockhash, r.plan.sign [keypair] blockhash = .ok r.sent
  swaps : ∃ swap limit, r.plan.swaps = [swap] ∧ swap ∈ r.sent.message.instructions ∧
    r.keys.kind.swapFormat.run swap.data =
      some (⟨r.quote.amountIn, r.quote.minAmountOut, limit⟩, [])

/-- A signed transaction has every swap of its plan. -/
theorem mem_instructions_of_sign {keypairs : List Keypair} {blockhash : Address} {tx : Transaction}
    {swap : Instruction} (h : plan.sign keypairs blockhash = .ok tx) (hswap : swap ∈ plan.swaps) :
    swap ∈ tx.message.instructions := by
  obtain ⟨operation, hoperation, hswap⟩ := List.mem_flatMap.1 hswap
  have hplanned : swap ∈ plan.instructions :=
    List.mem_flatMap.2 ⟨operation, (List.mem_filter.1 hoperation).1, hswap⟩
  unfold SwapPlan.sign at h
  dsimp only at h
  split at h
  case isTrue =>
    rw [Transaction.message_of_sign h]
    exact hplanned
  case isFalse => cases h

/-- Up to the sending, a run has only looked things up. -/
theorem SwapRun.Clears.keeps {r : SwapRun} (h : r.Clears c o) : Keeps lookups c r.ready :=
  (((readPool_looksUp _ _).keeps h.load_eq).trans ((planSwap_looksUp _ _ _).keeps h.plan_eq)).trans
    (((sign_looksUp _).keeps h.sign_eq).trans ((sign_looksUp _).keeps h.resign_eq))

theorem SwapRun.Clears.exists_guarded {r : SwapRun} (h : r.Clears c o) :
    ∃ keypair, r.Guarded c o keypair := by
  have hloaded : Keeps lookups c r.loaded := (readPool_looksUp _ _).keeps h.load_eq
  have hplanned : Keeps lookups r.loaded r.planned := (planSwap_looksUp _ _ _).keeps h.plan_eq
  have hsigned : Keeps lookups r.planned r.signed := (sign_looksUp _).keeps h.sign_eq
  obtain ⟨keypair, hkeypair, -, existing, -, hplan⟩ :=
    planSwap_eq_ok.1 (congrArg Prod.fst h.plan_eq)
  obtain ⟨signer, hsigner, -, hsign⟩ := sign_eq_ok.1 (congrArg Prod.fst h.resign_eq)
  -- The plan and the second signature may differ in time, but not in the keypair behind them.
  have hsame : r.signed.keypair = some keypair :=
    hsigned.keypair_eq.trans (hplanned.keypair_eq.trans hkeypair)
  obtain rfl := Option.some.inj (hsigner.symm.trans hsame)
  rw [hloaded.config_eq] at hplan
  obtain ⟨k, d, operations, hkeys, -, -, hfresh, -, -, -, hsmall⟩ := SwapRequest.plan_eq_ok.1 hplan
  cases hkeys
  obtain ⟨_, _, swap, hkeys, -, -, -, hswap, hswaps⟩ := SwapRequest.exists_swap_of_plan hplan
  cases hkeys
  obtain ⟨limit, hterms⟩ : ∃ limit, (r.quote.request c.config signer.address (some r.state)).terms
      r.keys.kind = ⟨r.quote.amountIn, r.quote.minAmountOut, limit⟩ := by
    cases r.keys.kind <;> exact ⟨_, rfl⟩
  refine ⟨signer, hloaded.keypair_eq.symm.trans hkeypair, amountIn_of_quoteWith h.quote_eq,
    ⟨existing, hplan⟩, hfresh, hsmall, ⟨_, hsign⟩, swap, limit, hswaps,
    mem_instructions_of_sign hsign (hswaps ▸ List.mem_singleton_self _), ?_⟩
  rw [SwapRequest.run_swapFormat hswap, hterms]

theorem not_sends_of_lookups {calls : List Call} (h : ∀ call ∈ calls, call.method ∈ lookups) :
    ∀ call ∈ calls, call.method ≠ .sendTransaction := by
  intro call hcall hsends
  have hlookup := h call hcall
  rw [hsends] at hlookup
  revert hlookup
  decide

/-- A run that clears all guards ends with the answer to what it sends. -/
theorem SwapRun.Clears.act_swap {r : SwapRun} (h : r.Clears c o) :
    c.act (swap o.poolId o.mintIn o.amountIn o.slippage o.dryRun o.limitPrice) =
      ((r.ready.present.ask (Node.send r.sent.encode c.config.skipPreflight)).1.map r.report,
        (r.ready.act (askNode (Node.send r.sent.encode c.config.skipPreflight))).2) := by
  have hloaded : r.loaded.config = c.config :=
    ((readPool_looksUp _ _).keeps h.load_eq).config_eq
  have himpact : exceedsImpact c.config r.quote = false := by
    simpa [exceedsImpact] using h.impact_le
  unfold swap submit
  rw [act_bind, act_get]
  dsimp only
  rw [act_bind, h.load_eq]
  dsimp only
  rw [act_bind, act_quote, hloaded, h.quote_eq]
  dsimp only
  rw [himpact, if_neg Bool.false_ne_true, act_bind, h.plan_eq]
  dsimp only
  rw [act_bind, h.sign_eq]
  dsimp only
  rw [h.live, if_neg Bool.false_ne_true, bind_assoc, act_bind, h.resign_eq]
  dsimp only
  rw [bind_assoc, act_bind, act_get]
  dsimp only
  rw [h.keeps.config_eq, act_bind, act_askNode]
  cases (r.ready.present.ask (Node.send r.sent.encode c.config.skipPreflight)).1 <;> rfl

/-- What a run that clears all guards sends is the last of its calls, and the only one that is no
lookup. -/
theorem SwapRun.Clears.exists_calls {r : SwapRun} (h : r.Clears c o) : ∃ earlier,
    (c.act (swap o.poolId o.mintIn o.amountIn o.slippage o.dryRun o.limitPrice)).2.node.calls =
      (.sendTransaction r.sent.encode c.config.skipPreflight :: earlier) ++ c.node.calls ∧
    ∀ call ∈ earlier, call.method ∈ lookups := by
  obtain ⟨earlier, hearlier, hlookups⟩ := h.keeps.grows
  refine ⟨earlier, ?_, hlookups⟩
  rw [h.act_swap, act_askNode]
  dsimp only
  rw [Node.ask_send, List.cons_append, ← hearlier]
  rfl

/-- A swap only looks things up, and then succeeds as a dry run at most, or it is a run that clears
all guards. -/
theorem swap_cases (c : Client) (o : Order) :
    (Keeps lookups c
        (c.act (swap o.poolId o.mintIn o.amountIn o.slippage o.dryRun o.limitPrice)).2 ∧
      ∀ report, (c.act (swap o.poolId o.mintIn o.amountIn o.slippage o.dryRun
        o.limitPrice)).1 = .ok report → report.success = true → report.dryRun = true) ∨
    ∃ run : SwapRun, run.Clears c o := by
  have hend := swap_ends c o
  revert hend
  generalize c.act (swap o.poolId o.mintIn o.amountIn o.slippage o.dryRun o.limitPrice) = result
  rintro (⟨hkeeps, hreport⟩ | ⟨hclears, -⟩)
  · exact .inl ⟨hkeeps, hreport⟩
  · exact .inr ⟨_, hclears⟩

/-- On a node that stays still and can be reached, a trade is sent if it can be quoted and planned. -/
theorem SwapRun.exists_clears {keypair : Keypair} {existing : List Address} {hit : Bool}
    (hstill : c.IsStill) (hreach : ∀ method, c.node.reach method = .ok ())
    (hkeypair : c.keypair = some keypair) (hlive : o.dryRun.getD c.config.dryRun = false)
    (hload : (c.act (readPool o.poolId o.mintIn)).1 = .ok (keys, state, hit))
    (hquote : quoteWith c.config (.value state) o.amountIn o.slippage o.mintIn o.limitPrice = .ok q)
    (himpact : c.config.maxPriceImpactBps ≠ 0 → q.impactBps ≤ c.config.maxPriceImpactBps)
    (hexisting : ∀ a ∈ [plan.sourceAccount, plan.destinationAccount],
      a ∈ existing ↔ (c.node.accounts a).isSome)
    (hplan : (q.request c.config keypair.address (some state)).plan (some (.value keys)) existing =
      .ok plan) : ∃ r : SwapRun, r.Clears c o ∧ r.quote = q ∧ r.plan = plan := by
  obtain ⟨loaded, hloaded⟩ : ∃ loaded, c.act (readPool o.poolId o.mintIn) =
      (.ok (keys, state, hit), loaded) := ⟨_, Prod.ext hload rfl⟩
  have hkeeps : Keeps lookups c loaded := (readPool_looksUp _ _).keeps hloaded
  have hplanned : (loaded.act (planSwap (some (.value keys)) q (some state))).1 = .ok plan := by
    refine planSwap_eq_ok.2 ⟨keypair, hkeeps.keypair_eq.trans hkeypair, ?_, existing, ?_, ?_⟩
    · rw [hkeeps.present_eq hstill]
      exact hreach _
    · rw [hkeeps.present_eq hstill]
      exact hexisting
    · rw [hkeeps.config_eq]
      exact hplan
  -- Whatever the blockhash, the owner alone signs, and the keypair at hand is the owner's.
  have hsign {c' : Client} (h : Keeps lookups c c') :
      ∃ tx c'', c'.act (sign plan) = (.ok tx, c'') ∧ Keeps lookups c c'' := by
    have hdraft := (SwapRequest.plan_eq_ok_iff_draft.1 hplan).1
    have hsigners : plan.signers = [keypair.address] :=
      (SwapRequest.signers_of_draft hdraft).2.trans (if_pos rfl)
    have hown : ([keypair].map (·.address)).Perm plan.signers := by rw [hsigners]; rfl
    obtain ⟨tx, htx, -⟩ := SwapRequest.exists_sign_of_draft hdraft hown c'.present.blockhash
    have hanswer : (c'.act (sign plan)).1 = .ok tx := by
      refine sign_eq_ok.2 ⟨keypair, h.keypair_eq.trans hkeypair, ?_, htx⟩
      rw [h.present_eq hstill]
      exact hreach _
    exact ⟨tx, _, Prod.ext hanswer rfl, h.trans (sign_looksUp plan c')⟩
  obtain ⟨reported, signed, hsigned, hkeeps'⟩ :=
    hsign (hkeeps.trans (planSwap_looksUp (some (.value keys)) q (some state) loaded))
  obtain ⟨sent, ready, hresigned, -⟩ := hsign hkeeps'
  exact ⟨⟨keys, state, hit, q, plan, reported, sent, loaded, _, signed, ready⟩,
    ⟨hlive, hloaded, hquote, himpact, Prod.ext hplanned rfl, hsigned, hresigned⟩, rfl, rfl⟩

/-- A swap sends at most one transaction, as the last of its calls, and exactly if there is a run that
clears all guards: the plan is made from the quote of the state just read, signed by the client's
keypair, and its one swap asks for no less than the report says. A swap that fails before that, or
that reports no success, has sent nothing. -/
theorem swap_sends_guarded (c : Client) (o : Order) :
    let answer := (c.act (swap o.poolId o.mintIn o.amountIn o.slippage o.dryRun o.limitPrice)).1
    let after := (c.act (swap o.poolId o.mintIn o.amountIn o.slippage o.dryRun o.limitPrice)).2
    ∃ calls, after.node.calls = calls ++ c.node.calls ∧
      ((∀ call ∈ calls, call.method ≠ .sendTransaction) ∨
        ∃ (run : SwapRun) (keypair : Keypair) (earlier : List Call),
          run.Clears c o ∧ run.Guarded c o keypair ∧
          calls = .sendTransaction run.sent.encode c.config.skipPreflight :: earlier ∧
          (∀ call ∈ earlier, call.method ≠ .sendTransaction) ∧
          answer = (run.ready.present.ask
            (Node.send run.sent.encode c.config.skipPreflight)).1.map run.report) ∧
      ((∃ call ∈ calls, call.method = .sendTransaction) ↔ ∃ run : SwapRun, run.Clears c o) ∧
      ∀ report, answer = .ok report →
        ((∃ call ∈ calls, call.method = .sendTransaction) ↔
          report.success = true ∧ report.dryRun = false) := by
  intro answer after
  rcases swap_cases c o with ⟨hkeeps, hreport⟩ | ⟨run, hclears⟩
  · obtain ⟨calls, hcalls, hlookups⟩ := hkeeps.grows
    have hsilent := not_sends_of_lookups hlookups
    have hnone : ¬∃ call ∈ calls, call.method = .sendTransaction :=
      fun ⟨call, hcall, hsent⟩ => hsilent call hcall hsent
    refine ⟨calls, hcalls, .inl hsilent, ⟨fun h => absurd h hnone, ?_⟩,
      fun report hanswer => ⟨fun h => absurd h hnone, ?_⟩⟩
    · rintro ⟨run, hclears⟩
      obtain ⟨earlier, hlog, -⟩ := hclears.exists_calls
      rw [List.append_cancel_right (hcalls.symm.trans hlog)]
      exact ⟨_, List.mem_cons_self, rfl⟩
    · rintro ⟨hsuccess, hlive⟩
      cases hlive.symm.trans (hreport report hanswer hsuccess)
  · obtain ⟨keypair, hguarded⟩ := hclears.exists_guarded
    obtain ⟨earlier, hlog, hlookups⟩ := hclears.exists_calls
    have hanswer : answer = (run.ready.present.ask
        (Node.send run.sent.encode c.config.skipPreflight)).1.map run.report :=
      congrArg Prod.fst hclears.act_swap
    refine ⟨_, hlog, .inr ⟨run, keypair, earlier, hclears, hguarded, rfl,
      not_sends_of_lookups hlookups, hanswer⟩,
      ⟨fun _ => ⟨run, hclears⟩, fun _ => ⟨_, List.mem_cons_self, rfl⟩⟩, fun report hreport => ?_⟩
    obtain ⟨signature, -, rfl⟩ := Checked.map_eq_ok.1 (hanswer.symm.trans hreport)
    exact ⟨fun _ => ⟨rfl, rfl⟩, fun _ => ⟨_, List.mem_cons_self, rfl⟩⟩

/-- The keys of the pool that the node `owing` holds. -/
def owingKeys : StandardKeys where
  programId := .standardPoolProgram
  id := .ofNat 1
  mintA := .ofNat 2
  mintB := .ofNat 3
  vaultA := .ofNat 4
  vaultB := .ofNat 5
  authority := .ofNat 6
  openOrders := .ofNat 7
  targetOrders := .ofNat 8
  marketProgramId := .ofNat 9
  marketId := .ofNat 10
  marketAuthority := .ofNat 11
  marketBaseVault := .ofNat 12
  marketQuoteVault := .ofNat 13
  marketBids := .ofNat 14
  marketAsks := .ofNat 15
  marketEventQueue := .ofNat 16

/-- A client of a node that holds that pool and every other account. -/
def trading : Client where
  node := { Node.owing with
    accounts := fun a => some ((Node.owing.accounts a).getD ⟨.system, []⟩)
    sending := .ok "signature" }
  directory := .unopened defaultApiUrl []
  keypair := some SwapRequest.ownerKeypair
  config := {}
  cache := some ⟨30000, 256, [⟨"pool", 30000, some (.standard owingKeys)⟩]⟩
  now := 0

/-- A sale of ten thousand of the first mint of that pool. -/
def saleOrder : Order := ⟨"pool", none, .int 10000, .absent, some false, .absent⟩

theorem trading_readPool : (trading.act (readPool saleOrder.poolId saleOrder.mintIn)).1 =
    .ok (.standard owingKeys, .standard Node.owed, true) := by
  have hkeys : trading.act (keysFor "pool") = (.ok (.standard owingKeys, true), trading) := rfl
  have hread : (trading.present.ask
      (Node.readStandardPool (.ofNat 1) .standardPoolProgram)).1 = .ok Node.owed :=
    Node.read_owed (fun _ => rfl) rfl rfl rfl
  refine act_bind_eq_ok.2 ⟨(.standard owingKeys, true), congrArg Prod.fst hkeys, ?_⟩
  rw [show (trading.act (keysFor saleOrder.poolId)).2 = trading from congrArg Prod.snd hkeys]
  exact act_bind_eq_ok.2 ⟨Node.owed, (fst_act_askNode _ _).trans hread, rfl⟩

def saleQuote : Quote := Node.owed.quoteOf .zeroForOne (.ofNat 2) (.ofNat 3) 10000 25 19752 19653

/-- The quote of a client that is configured to half a percent. -/
theorem quoteWith_owed {config : Config} (h : config.defaultSlippageBps = 50) :
    quoteWith config (.value (.standard Node.owed)) (.int 10000) .absent none .absent =
      .ok saleQuote := by
  unfold quoteWith
  rw [h]
  decide +kernel

def saleRequest : SwapRequest :=
  saleQuote.request trading.config SwapRequest.ownerKeypair.address (some (.standard Node.owed))

theorem exists_plan_sale : ∃ plan existing,
    saleRequest.plan (some (.value (.standard owingKeys))) existing = .ok plan ∧
      ∀ a ∈ [plan.sourceAccount, plan.destinationAccount], a ∈ existing := by
  have hforward : PoolKeys.directionOf (.standard owingKeys) saleRequest.mintIn saleRequest.mintOut =
      .ok .zeroForOne := if_pos ⟨rfl, rfl⟩
  obtain ⟨plan, hdraft, hinstructions⟩ := SwapRequest.exists_draft_held (q := saleRequest)
    (n := 10000) (k := .standard owingKeys) rfl hforward rfl rfl rfl (by decide) rfl
    (by decide +kernel) rfl
  have hsize := (SwapRequest.size_of_draft hdraft hinstructions).2
  have hplan := SwapRequest.plan_eq_ok_iff_draft.2
    ⟨hdraft, SwapPlan.checkSize_eq_ok.2 (Nat.le_trans hsize (by decide))⟩
  obtain ⟨_, _, _, hkeys, hd, -, ⟨hsource, hdestination⟩, -⟩ := SwapRequest.exists_swap_of_plan hplan
  cases hkeys
  cases hforward.symm.trans hd
  refine ⟨plan, _, hplan, fun a ha => ?_⟩
  rwa [hsource, hdestination] at ha

/-- The sale is sent. -/
theorem swap_sends_guarded_sale : ∃ (run : SwapRun) (calls : List Call),
    run.Clears trading saleOrder ∧ run.quote = saleQuote ∧
    (trading.act (swap saleOrder.poolId saleOrder.mintIn saleOrder.amountIn saleOrder.slippage
      saleOrder.dryRun saleOrder.limitPrice)).2.node.calls = calls ∧
    ∃ call ∈ calls, call.method = .sendTransaction := by
  obtain ⟨plan, existing, hplan, hexisting⟩ := exists_plan_sale
  obtain ⟨run, hclears, hquote, -⟩ := SwapRun.exists_clears (c := trading) (o := saleOrder) rfl
    (fun _ => rfl) rfl rfl trading_readPool (quoteWith_owed rfl) nofun
    (fun a ha => ⟨fun _ => rfl, fun _ => hexisting a ha⟩) hplan
  obtain ⟨calls, hcalls, -, hsends, -⟩ := swap_sends_guarded trading saleOrder
  exact ⟨run, calls, hclears, hquote, hcalls.trans (List.append_nil _), hsends.2 ⟨run, hclears⟩⟩

end Client

end PoolSwap
