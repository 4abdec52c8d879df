import MiniLakehouse.Configuration

/-!
# Market sessions

Exchange-local session classification (`market/session.py`).
-/

namespace MiniLakehouse

inductive MarketSession where
  | preOpen
  | openingAuction
  | continuousAm
  | lunchBreak
  | continuousPm
  | closingAuction
  | closed
  deriving DecidableEq, Repr

namespace MarketSession

/-- The value of the enumeration's member. -/
def text : MarketSession → String
  | .preOpen => "pre_open"
  | .openingAuction => "opening_auction"
  | .continuousAm => "continuous_am"
  | .lunchBreak => "lunch_break"
  | .continuousPm => "continuous_pm"
  | .closingAuction => "closing_auction"
  | .closed => "closed"

/-- `session in TRADE_SESSIONS` -/
def isTradeSession : MarketSession → Bool
  | .openingAuction | .continuousAm | .continuousPm | .closingAuction => true
  | .preOpen | .lunchBreak | .closed => false

/-- The configured name of a session that has a trading window. -/
def decisionName : MarketSession → Option DecisionSessionName
  | .openingAuction => some .openingAuction
  | .continuousAm => some .continuousAm
  | .continuousPm => some .continuousPm
  | .closingAuction => some .closingAuction
  | .preOpen | .lunchBreak | .closed => none

end MarketSession

/-- `MarketSession(name)` -/
def DecisionSessionName.session : DecisionSessionName → MarketSession
  | .openingAuction => .openingAuction
  | .continuousAm => .continuousAm
  | .continuousPm => .continuousPm
  | .closingAuction => .closingAuction

@[simp] theorem DecisionSessionName.decisionName_session (name : DecisionSessionName) :
    name.session.decisionName = some name := by
  cases name <;> rfl

namespace MarketConfiguration

variable (market : MarketConfiguration)

/-- The configured window of a named session. -/
def windowOf : DecisionSessionName → SessionWindow
  | .openingAuction => market.sessions.openingAuction
  | .continuousAm => market.sessions.continuousAm
  | .continuousPm => market.sessions.continuousPm
  | .closingAuction => market.sessions.closingAuction

/-- `_instant` -/
def instant (tradeDate : Day) (localTime : TimeOfDay) : Instant :=
  market.timezone.combine tradeDate localTime

/-- `trading_window`: the opening and closing instants in UTC. -/
def tradingWindow (tradeDate : Day) : Instant × Instant :=
  (market.instant tradeDate market.sessions.openingAuction.1,
    market.instant tradeDate market.sessions.closingAuction.2)

/-- `covers_trading_window` -/
def coversTradingWindow (connectedAt disconnectedAt : Instant) (tradeDate : Day) :
    Except Raised Bool := do
  require (connectedAt ≤ disconnectedAt)
    (Raised.valueError "connection timestamps are not ordered")
  let (marketOpen, marketClose) := market.tradingWindow tradeDate
  return connectedAt ≤ marketOpen && marketClose ≤ disconnectedAt

/-- `session_window`: one configured exchange session in UTC. -/
def sessionWindow (tradeDate : Day) (session : MarketSession) :
    Except Raised (Instant × Instant) :=
  match session.decisionName with
  | none => .error (.valueError ("market session has no trading window: " ++ session.text))
  | some name => .ok (market.instant tradeDate (market.windowOf name).1,
      market.instant tradeDate (market.windowOf name).2)

/-- `session_at`: classify one instant against the clock of a trading date. -/
def sessionAt (timestamp : Instant) (tradeDate : Day) : MarketSession :=
  let value := market.timezone.time timestamp
  if market.timezone.date timestamp ≠ tradeDate then .closed
  else if value < market.sessions.openingAuction.1 then .preOpen
  else if value < market.sessions.openingAuction.2 then .openingAuction
  else if value < market.sessions.continuousAm.2 then .continuousAm
  else if value < market.sessions.continuousPm.1 then .lunchBreak
  else if value < market.sessions.continuousPm.2 then .continuousPm
  -- The whole closing second counts as auction time.
  else if value - value % seconds 1 ≤ market.sessions.closingAuction.2 then .closingAuction
  else .closed

end MarketConfiguration

end MiniLakehouse
