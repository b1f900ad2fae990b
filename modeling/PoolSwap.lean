import PoolSwap.Codec.Hex
import PoolSwap.Proofs.Quote.Monotone
import PoolSwap.Proofs.Quote.SpotPrice
import PoolSwap.Record
import PoolSwap.Proofs.ConstantProduct.Fills
import PoolSwap.Proofs.SwapStep.Holdings
import PoolSwap.Proofs.Walk.Cost
import PoolSwap.Proofs.Quote.Capacity
import PoolSwap.Proofs.Pool.Window
import PoolSwap.Proofs.Walk.Window
import PoolSwap.Proofs.Quote.Window
import PoolSwap.Proofs.Walk.Limit
import PoolSwap.Proofs.Quote.Limit
import PoolSwap.Proofs.Quote.Outcome
import PoolSwap.Proofs.Layout.Reader
import PoolSwap.Proofs.Node.Query
import PoolSwap.Proofs.Node.StandardPool
import PoolSwap.Proofs.Number.Decimal
import PoolSwap.Proofs.Quote.Standard
import PoolSwap.Proofs.Plan.Accounts
import PoolSwap.Proofs.Plan.Assembly
import PoolSwap.Proofs.Plan.Size
import PoolSwap.Proofs.Plan.Signing
import PoolSwap.Proofs.Plan.Orientation
import PoolSwap.Proofs.Node.ConcentratedPool
import PoolSwap.Proofs.Quote.Arrays
import PoolSwap.Proofs.KeyCache.Entries
import PoolSwap.Proofs.KeyCache.History
import PoolSwap.Proofs.Layout.Accounts
import PoolSwap.Proofs.Client.Calls
import PoolSwap.Proofs.Client.Swap
import PoolSwap.Proofs.Node.Offenders
import PoolSwap.Proofs.ConstantProduct.LeastInput
import PoolSwap.Proofs.SwapStep.Settlement
import PoolSwap.Proofs.Directory.Reading
import PoolSwap.Proofs.Client.OnePool
import PoolSwap.Proofs.Tick.Inverse
import PoolSwap.Proofs.SwapStep.Split
import PoolSwap.Proofs.Quote.TransferFees
import PoolSwap.Proofs.Quote.ArraysCrossed
import PoolSwap.Proofs.Slippage.Exactness
import PoolSwap.Proofs.Client.LeastOutput
import PoolSwap.Proofs.Layout.TickArray
import PoolSwap.Proofs.Pool.Cover
import PoolSwap.Proofs.SwapStep.Amounts
import PoolSwap.Proofs.Layout.Mint
import PoolSwap.Proofs.Directory.Pages
import PoolSwap.Proofs.Number.Binary64
