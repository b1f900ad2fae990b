import PoolSwap.Instruction
import PoolSwap.Number.Numeral
import PoolSwap.Text.LowerCase

/-! The configuration of a client, given by its fields or by environment variables. -/
namespace PoolSwap

def defaultApiUrl : String := "https://api-v3.raydium.io"

structure Config where
  rpcUrl : String := "https://api.mainnet-beta.solana.com"
  apiUrl : String := defaultApiUrl
  httpTimeout : Scalar := .float 10.0
  defaultSlippageBps : Int := 50
  priorityFee : Int := 0
  computeUnitLimit : Int := 0
  /-- Tick arrays read beyond the current one. -/
  tickArrayWindow : Int := 5
  /-- Trades with a greater price impact are refused; zero refuses none. -/
  maxPriceImpactBps : Int := 0
  dryRun : Bool := false
  skipPreflight : Bool := false

namespace Config

def check (c : Config) : Checked Config :=
  if c.defaultSlippageBps < 0 ∨ 10000 ≤ c.defaultSlippageBps then
    .error (.argument (.defaultSlippage c.defaultSlippageBps))
  else if c.tickArrayWindow < 0 then .error (.argument (.configuredWindow c.tickArrayWindow))
  else if c.maxPriceImpactBps < 0 then .error (.argument (.maxPriceImpact c.maxPriceImpactBps))
  else .ok c

def budget (c : Config) : Option ComputeBudget :=
  let stated := fun (n : Int) => if n = 0 then none else some n
  match stated c.computeUnitLimit, stated c.priorityFee with
  | none, none => none
  | limit, price => some ⟨limit, price⟩

abbrev Environment := List (String × String)

def lookup? (env : Environment) (name : String) : Option String :=
  (env.find? (·.1 = name)).map Prod.snd

/-- An integer variable; blank counts as unset. -/
def intVariable (env : Environment) (name : String) (default : Int) : Checked Int :=
  let text := Blank.stripText ((lookup? env name).getD "")
  if text = "" then .ok default else Checked.ofOption .noValue (Numeral.integer? text)

def affirmatives : List String := ["1", "true", "yes", "on"]

def flagVariable (env : Environment) (name : String) : Bool :=
  LowerCase.ofText (Blank.stripText ((lookup? env name).getD "")) ∈ affirmatives

/-- The timeout variable; unlike an integer one it may not be blank. -/
def timeoutVariable (env : Environment) (name : String) (default : Scalar) : Checked Scalar :=
  match lookup? env name with
  | none => .ok default
  | some text => (Checked.ofOption .noValue (Numeral.float? text)).map .float

def ofEnvironment (env : Environment) : Checked Config := do
  let base : Config := {}
  let httpTimeout ← timeoutVariable env "HTTP_TIMEOUT_SECONDS" base.httpTimeout
  let defaultSlippageBps ← intVariable env "DEFAULT_SLIPPAGE_BPS" base.defaultSlippageBps
  let priorityFee ← intVariable env "PRIORITY_FEE_MICROLAMPORTS" base.priorityFee
  let computeUnitLimit ← intVariable env "COMPUTE_UNIT_LIMIT" base.computeUnitLimit
  let tickArrayWindow ← intVariable env "TICK_ARRAY_WINDOW" base.tickArrayWindow
  let maxPriceImpactBps ← intVariable env "MAX_PRICE_IMPACT_BPS" base.maxPriceImpactBps
  check {
    rpcUrl := (lookup? env "SOLANA_RPC_URL").getD base.rpcUrl
    apiUrl := (lookup? env "RAYDIUM_API_URL").getD base.apiUrl
    httpTimeout, defaultSlippageBps, priorityFee, computeUnitLimit, tickArrayWindow,
    maxPriceImpactBps
    dryRun := flagVariable env "RAYDIUM_DRY_RUN"
    skipPreflight := flagVariable env "SKIP_PREFLIGHT" }

end Config
end PoolSwap
