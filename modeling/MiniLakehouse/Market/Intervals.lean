import MiniLakehouse.Market.Events

/-!
# Provider minute bars

One revision of a minute bar (`market/intervals.py`).  The provider's SDK is not code of
the repository: `IntervalSdk` is what its message type reads out of a JSON text.
-/

namespace MiniLakehouse

/-- What `ssi_sdk.models.IntervalMessage` reads. -/
structure IntervalMessage where
  symbol : String
  intervalTime : String
  tradingTime : String
  type : String
  openPrice : Option Rat
  highPrice : Option Rat
  lowPrice : Option Rat
  closePrice : Option Rat
  volume : Int

/-- `validate_json` of the SDK's message type; nothing where it raises. -/
class IntervalSdk where
  intervalMessage : String → Option IntervalMessage

structure ProviderBar where
  symbol : String
  start : Instant
  observedAt : Instant
  openPrice : Rat
  highPrice : Rat
  lowPrice : Rat
  closePrice : Rat
  volume : Int
  prices_ordered : 0 < lowPrice ∧ lowPrice ≤ min openPrice closePrice ∧
    max openPrice closePrice ≤ highPrice

theorem ProviderBar.closePrice_pos (bar : ProviderBar) : 0 < bar.closePrice :=
  bar.prices_ordered.1.trans_le (bar.prices_ordered.2.1.trans (min_le_right _ _))

/-- A bar starts on a minute and is observed inside it, by the clock of the market. -/
def InsideMinute (timezone : ZoneInfo) (start observedAt : Instant) : Prop :=
  timezone.wall start % seconds 60 = 0 ∧ timezone.wall start ≤ timezone.wall observedAt ∧
    timezone.wall observedAt < timezone.wall start + seconds 60

instance (timezone : ZoneInfo) (start observedAt : Instant) :
    Decidable (InsideMinute timezone start observedAt) := by
  unfold InsideMinute; infer_instance

variable {D : Type} [Hashing D] [IntervalSdk]

/-- `provider_bar`: a revision, not a final bar. -/
def providerBar (envelope : StreamEnvelope D) (timezone : ZoneInfo) :
    Except Raised (Option ProviderBar) := do
  if envelope.messageType ≠ "IntervalMessage" then return none
  require (sha256 (.str envelope.messageJson) = envelope.messageSha256)
    (Raised.valueError "SSI IntervalMessage checksum is inconsistent")
  match IntervalSdk.intervalMessage envelope.messageJson with
  | none => throw (.valueError "invalid SSI IntervalMessage")
  | some message =>
      require (envelope.subscriptionContext = .symbols ∧ envelope.symbol = some message.symbol ∧
          envelope.sourceTimeText = some message.tradingTime ∧ message.type = "trade" ∧
          0 < message.volume)
        (Raised.valueError "SSI IntervalMessage lineage is inconsistent")
      let start ← providerTimestamp message.intervalTime timezone
      let observedAt ← providerTimestamp message.tradingTime timezone
      require (InsideMinute timezone start observedAt ∧ observedAt ≤ envelope.receivedAt)
        (Raised.valueError "SSI IntervalMessage timestamps are inconsistent")
      let openPrice ← providerPrice message.openPrice
      let highPrice ← providerPrice message.highPrice
      let lowPrice ← providerPrice message.lowPrice
      let closePrice ← providerPrice message.closePrice
      if hprices : 0 < lowPrice ∧ lowPrice ≤ min openPrice closePrice ∧
          max openPrice closePrice ≤ highPrice then
        return some {
          symbol := upper message.symbol
          start := start
          observedAt := observedAt
          openPrice := openPrice
          highPrice := highPrice
          lowPrice := lowPrice
          closePrice := closePrice
          volume := message.volume
          prices_ordered := hprices }
      else throw (.valueError "SSI IntervalMessage OHLC values are inconsistent")

end MiniLakehouse
