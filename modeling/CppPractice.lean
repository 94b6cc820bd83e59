import CppPractice.Engine.RunRefinement
import CppPractice.Engine.Submission
import CppPractice.Wrapper.Consistency
import CppPractice.Wrapper.Conservation
import CppPractice.Wrapper.Solvency
import CppPractice.Wrapper.ShareRuns
import CppPractice.Wrapper.ShareTotals
import CppPractice.Wrapper.Bystanders
import CppPractice.Wrapper.Lifetimes
import CppPractice.Spsc.Fifo
import CppPractice.Pool.Once
import CppPractice.Pool.WaitIdle
import CppPractice.Pool.Waiters
import CppPractice.Pool.Stop
import CppPractice.Engine.BitScan
import CppPractice.Engine.LoopBounds
import CppPractice.Engine.Exposed
import CppPractice.Engine.Rejections
import CppPractice.Pool.Counter
import CppPractice.Spsc.Answers
import CppPractice.Wrapper.TradeLog
import CppPractice.Wrapper.Capacity
import CppPractice.Engine.Totals
import CppPractice.Wrapper.OpenOrders
import CppPractice.Wrapper.MarketData
import CppPractice.Engine.Immediate
import CppPractice.Wrapper.Immediate
import CppPractice.Wrapper.CashFlow
import CppPractice.Wrapper.Market
import CppPractice.Engine.Sweep
import CppPractice.Wrapper.MarketRefinement
import CppPractice.Wrapper.Statistics
import CppPractice.Engine.Alike
import CppPractice.Engine.Priority
import CppPractice.Engine.Splitting
import CppPractice.Spsc.Harness
import CppPractice.Engine.Benchmark
import CppPractice.Pool.Deques
import CppPractice.Pool.RoundRobin
import CppPractice.Wrapper.Benchmark
import CppPractice.Engine.Mirror
import CppPractice.Engine.Units
import CppPractice.Pool.Joins
import CppPractice.Pool.Drain
import CppPractice.Pool.Futures
import CppPractice.Pool.Harness
import CppPractice.Wrapper.Limits
import CppPractice.Engine.Cancels
import CppPractice.Shared.Reading
import CppPractice.Wrapper.Terminal
import CppPractice.Wrapper.TerminalMarket
import CppPractice.Wrapper.TerminalInput
import CppPractice.Wrapper.TerminalTexts
