import MiniLakehouse.Configuration
import MiniLakehouse.Controls.Model
import MiniLakehouse.Execution.Conservation
import MiniLakehouse.Execution.Liquidity
import MiniLakehouse.Configuration.Trading
import MiniLakehouse.Configuration.References
import MiniLakehouse.Configuration.Coverage
import MiniLakehouse.Arbitration.Order
import MiniLakehouse.Execution.Lifecycle
import MiniLakehouse.Execution.Histories
import MiniLakehouse.Execution.Checkpoints
import MiniLakehouse.Execution.Redelivery
import MiniLakehouse.Execution.Limits
import MiniLakehouse.Promotion.Soundness
import MiniLakehouse.Library.Keyed
import MiniLakehouse.Simulation.Causality
import MiniLakehouse.Market.Replay
import MiniLakehouse.Features.Windows
import MiniLakehouse.Features.Clocks
import MiniLakehouse.Outcomes.Causality
import MiniLakehouse.Outcomes.Sweeps
import MiniLakehouse.Notifications.Cooldown
import MiniLakehouse.Realtime.Deliveries
import MiniLakehouse.Capture.Pending
import MiniLakehouse.Capture.Delivery
import MiniLakehouse.Context.BreadthMemory
import MiniLakehouse.MarketData.SecurityHistory
import MiniLakehouse.MarketData.RevisedBars
import MiniLakehouse.Arxiv.Convergence
import MiniLakehouse.Execution.Readiness
import MiniLakehouse.Promotion.Ordering
import MiniLakehouse.Ocr.Recoverability
import MiniLakehouse.Quantiles
import MiniLakehouse.GithubArchive.Current
import MiniLakehouse.Catalog.Migrations
import MiniLakehouse.Arbitration.Journal
import MiniLakehouse.Arbitration.Pipeline
import MiniLakehouse.Arbitration.Schedules
import MiniLakehouse.Capture.Reader
import MiniLakehouse.Capture.Segments
import MiniLakehouse.Capture.Stream
import MiniLakehouse.Capture.Recorded
import MiniLakehouse.Capture.RoundTrip
