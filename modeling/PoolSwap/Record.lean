import PoolSwap.Client

/-! Quotes, plans, results and configurations as records, for logs and for other programs. Addresses
are their texts, and what is absent is null. -/
namespace PoolSwap

namespace Payload

def ofAddress (a : Address) : Payload := text a.text

def ofOption (write : α → Payload) : Option α → Payload
  | some a => write a
  | none => null

def ofList (write : α → Payload) (items : List α) : Payload := list (items.map write)

end Payload

open Payload

def Quote.toRecord (q : Quote) : Payload :=
  record [
    ("pool_type", text q.kind.name),
    ("mint_in", ofAddress q.mintIn),
    ("mint_out", ofAddress q.mintOut),
    ("amount_in", int q.amountIn),
    ("amount_out", int q.amountOut),
    ("min_amount_out", int q.minAmountOut),
    ("fee_amount", int q.fee),
    ("price_impact_bps", int q.impactBps),
    ("tick_arrays_crossed", ofList int q.arraysCrossed),
    ("sqrt_price_after_x64", ofOption int q.sqrtPriceAfter),
    ("transfer_fee_amount", int q.transferFees),
    ("sqrt_price_limit_x64", int q.sqrtPriceLimit)]

def Operation.toRecord (o : Operation) : Payload :=
  record [
    ("kind", text o.kind.name),
    ("description", text o.description),
    ("instructions", int o.instructions.length)]

def SwapPlan.fields (p : SwapPlan) : List (String × Payload) := [
  ("payer", ofAddress p.payer),
  ("signers", ofList ofAddress p.signers),
  ("source_account", ofAddress p.sourceAccount),
  ("destination_account", ofAddress p.destinationAccount),
  ("amount_in", int p.amountIn),
  ("min_amount_out", int p.minAmountOut),
  ("operations", ofList Operation.toRecord p.operations)]

def SwapPlan.toRecord (p : SwapPlan) : Payload := record p.fields

def Config.toRecord (c : Config) : Payload :=
  record [
    ("rpc_url", text c.rpcUrl),
    ("api_url", text c.apiUrl),
    ("http_timeout_seconds", c.httpTimeout.toPayload),
    ("default_slippage_bps", int c.defaultSlippageBps),
    ("priority_fee_microlamports", int c.priorityFee),
    ("compute_unit_limit", int c.computeUnitLimit),
    ("tick_array_window", int c.tickArrayWindow),
    ("max_price_impact_bps", int c.maxPriceImpactBps),
    ("dry_run", bool c.dryRun),
    ("skip_preflight", bool c.skipPreflight)]

def SimulationReport.toRecord (r : SimulationReport) : Payload :=
  record [
    ("success", bool r.success),
    ("error", ofOption text r.error),
    ("logs", r.logs),
    ("units_consumed", r.unitsConsumed)]

def SwapReport.toRecord (r : SwapReport) : Payload :=
  record [
    ("success", bool r.success),
    ("error", ofOption text r.error),
    ("pool_id", ofAddress r.poolId),
    ("pool_type", text r.quote.kind.name),
    ("input_mint", ofAddress r.quote.mintIn),
    ("output_mint", ofAddress r.quote.mintOut),
    ("amount_in", int r.quote.amountIn),
    ("expected_out", int r.quote.amountOut),
    ("min_out", int r.quote.minAmountOut),
    ("fee_amount", int r.quote.fee),
    ("price_impact_bps", int r.quote.impactBps),
    ("dry_run", bool r.dryRun),
    ("transfer_fee_amount", int r.quote.transferFees),
    ("operations", ofList (text ·.name) r.operations),
    ("tx_size_bytes", int r.transactionSize),
    ("accounts_count", int r.accountCount),
    ("signature", ofOption text r.signature),
    ("serialized_tx_base64", ofOption text r.transaction),
    ("keys_cache_hit", bool r.keysCacheHit)]

end PoolSwap
