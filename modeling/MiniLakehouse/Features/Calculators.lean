import MiniLakehouse.Features.Model
import MiniLakehouse.Market.Events
import MiniLakehouse.Numeric

/-!
# Feature calculators

Pure calculations shared by live and replay feature evaluation
(`features/calculators.py`).
-/

namespace MiniLakehouse

private def depth (side : List QuoteLevel) : Nat := (side.map (·.quantity)).sum

/-- `book_values` -/
def bookValues (quote : QuoteSnapshot) : Except Raised BookValues :=
  match quote.isComplete, quote.bids, quote.asks with
  | true, bestBid :: _, bestAsk :: _ => do
      let spread := bestAsk.price - bestBid.price
      require (0 < spread) (Raised.valueError "book features require a positive spread")
      let midpoint := quantizeHalfUp pricePlaces ((bestBid.price + bestAsk.price) / 2)
      let levelOneDepth := bestBid.quantity + bestAsk.quantity
      let microprice := quantizeHalfUp pricePlaces
        ((bestAsk.price * bestBid.quantity + bestBid.price * bestAsk.quantity) / levelOneDepth)
      let bidDepth := depth quote.bids
      let askDepth := depth quote.asks
      return {
        midPrice := midpoint
        microprice := microprice
        micropriceDeviationBps := ← basisPoints (microprice - midpoint) midpoint
        spread := spread
        spreadBps := ← basisPoints spread midpoint
        bidDepth := bidDepth
        askDepth := askDepth
        levelOneImbalance :=
          ← ratio ((bestBid.quantity : Rat) - bestAsk.quantity) levelOneDepth ratioPlaces
        depthImbalance := ← ratio ((bidDepth : Rat) - askDepth) (bidDepth + askDepth) ratioPlaces }
  | _, _, _ => .error (.valueError "book features require one complete non-crossed quote")

/-- The best levels of a complete quote. -/
def bestLevels (quote : QuoteSnapshot) : Option (QuoteLevel × QuoteLevel) :=
  match quote.isComplete, quote.bids, quote.asks with
  | true, bid :: _, ask :: _ => some (bid, ask)
  | _, _, _ => none

/-- `level_one_book_flow`: best-level order-flow imbalance of one quote transition. -/
def levelOneBookFlow (previous current : QuoteSnapshot) : Except Raised Int :=
  match bestLevels previous, bestLevels current with
  | some (previousBid, previousAsk), some (currentBid, currentAsk) =>
      let bidFlow : Int :=
        (if currentBid.price ≥ previousBid.price then currentBid.quantity else 0) -
          (if currentBid.price ≤ previousBid.price then (previousBid.quantity : Int) else 0)
      let askFlow : Int :=
        (if currentAsk.price ≤ previousAsk.price then currentAsk.quantity else 0) -
          (if currentAsk.price ≥ previousAsk.price then (previousAsk.quantity : Int) else 0)
      .ok (bidFlow - askFlow)
  | _, _ => .error (.valueError "book flow requires complete quotes")

/-- The sum of squared returns of consecutive trades. -/
private def squaredReturns (trades : List Trade) : Rat :=
  ((trades.zip trades.tail).map fun pair =>
    ((pair.2.price - pair.1.price) / pair.1.price) ^ 2).sum

/-- The features of a window that holds trades, of which `first` and `last` are
its ends. -/
def tradedWindow (windowSeconds : Nat) (first last : Trade) (trades : List Trade)
    (bookFlows : List Int) : Except Raised WindowFeatures := do
  let volume := (trades.map (·.quantity)).sum
  let signedVolume := (trades.map (·.signedQuantity)).sum
  let tradedValue := (trades.map fun trade => (trade.price * trade.quantity : Rat)).sum
  let vwap := quantizeHalfUp pricePlaces (tradedValue / volume)
  let moved := 2 ≤ trades.length
  let priceReturn ← basisPoints (last.price - first.price) first.price
  let volatility :=
    quantizeHalfUp bpsPlaces (decimalSqrt 34 (squaredReturns trades) * 10000)
  WindowFeatures.modelValidate {
    windowSeconds := windowSeconds
    tradeCount := trades.length
    quoteChangeCount := bookFlows.length
    tradeVolume := volume
    signedTradeVolume := signedVolume
    tradeVolumePerSecond := some (← ratio volume windowSeconds ratioPlaces)
    tradeVolumeImbalance := some (← ratio signedVolume volume ratioPlaces)
    levelOneOrderFlowImbalance := bookFlows.sum
    priceReturnBps := if moved then some priceReturn else none
    realizedVolatilityBps := if moved then some volatility else none
    vwap := some vwap
    lastPriceToVwapBps := some (← basisPoints (last.price - vwap) vwap) }

/-- `window_values`: one trailing window from observations that are already
filtered to it. -/
def windowValues (windowSeconds : Nat) (trades : List Trade) (bookFlows : List Int) :
    Except Raised WindowFeatures :=
  match trades.head?, trades.getLast? with
  | some first, some last => tradedWindow windowSeconds first last trades bookFlows
  | _, _ => WindowFeatures.modelValidate {
      windowSeconds := windowSeconds
      tradeCount := 0
      quoteChangeCount := bookFlows.length
      tradeVolume := 0
      signedTradeVolume := 0
      tradeVolumePerSecond := none
      tradeVolumeImbalance := none
      levelOneOrderFlowImbalance := bookFlows.sum
      priceReturnBps := none
      realizedVolatilityBps := none
      vwap := none
      lastPriceToVwapBps := none }

/-- A window counts its book flows. -/
theorem windowValues_changes {windowSeconds : Nat} {trades : List Trade} {flows : List Int}
    {window : WindowFeatures} (h : windowValues windowSeconds trades flows = .ok window) :
    window.quoteChangeCount = flows.length := by
  unfold windowValues at h
  split at h
  · simp only [tradedWindow, WindowFeatures.modelValidate, bind_eq_ok, validated_eq_ok] at h
    obtain ⟨_, -, _, -, _, -, _, -, -, rfl⟩ := h
    rfl
  · obtain ⟨-, rfl⟩ := validated_eq_ok.mp h
    rfl

end MiniLakehouse
