import MiniLakehouse.Capture.Gap
import MiniLakehouse.Features.Model
import MiniLakehouse.Market.Replay
import MiniLakehouse.Outcomes.Model

/-!
# Outcome engine

Leakage-safe offline markouts for deterministic features (`outcomes/engine.py`).
A tape carries the order that its `append` checks.
-/

namespace MiniLakehouse

/-! ## Quote tapes -/

/-- Receipt, stream session and sequence, in the order of tuples. -/
abbrev TapePosition := Instant ×ₗ (String ×ₗ Nat)

def tapePosition (receivedAt : Instant) (streamSessionId : String) (receiveSequence : Nat) :
    TapePosition :=
  toLex (receivedAt, toLex (streamSessionId, receiveSequence))

def QuoteSnapshot.tapePosition (quote : QuoteSnapshot) : TapePosition :=
  MiniLakehouse.tapePosition quote.receivedAt quote.position.streamSessionId
    quote.position.receiveSequence

/-- The position that `latest` bisects at. -/
def latestPosition (evaluatedAt : Instant) : TapePosition :=
  tapePosition evaluatedAt (String.singleton (Char.ofNat 0x10FFFF)) (2 ^ 63 - 1)

/-- Whether a quote's position is at most the one that `latest` bisects at. -/
def QuoteSnapshot.availableAt (quote : QuoteSnapshot) (evaluatedAt : Instant) : Bool :=
  quote.tapePosition ≤ latestPosition evaluatedAt

/-- `_QuoteTape`: its positions are those of its quotes. -/
structure QuoteTape where
  quotes : List QuoteSnapshot
  ordered : quotes.Pairwise fun a b => a.tapePosition < b.tapePosition

namespace QuoteTape

def empty : QuoteTape := ⟨[], List.Pairwise.nil⟩

theorem ordered_snoc (tape : QuoteTape) {quote : QuoteSnapshot}
    (h : ∀ last ∈ tape.quotes.getLast?, last.tapePosition < quote.tapePosition) :
    (tape.quotes ++ [quote]).Pairwise fun a b => a.tapePosition < b.tapePosition := by
  refine List.pairwise_append.mpr ⟨tape.ordered, List.pairwise_singleton _ _, ?_⟩
  intro before hbefore after hafter
  rw [List.mem_singleton.mp hafter]
  have hne := List.ne_nil_of_mem hbefore
  have hle := (tape.ordered.imp le_of_lt).rel_getLast hbefore
  exact hle.trans_lt (h _ (List.getLast?_eq_some_getLast hne))

/-- `append` -/
def append (tape : QuoteTape) (quote : QuoteSnapshot) : Except Raised QuoteTape :=
  if h : ∀ last ∈ tape.quotes.getLast?, last.tapePosition < quote.tapePosition then
    .ok ⟨tape.quotes ++ [quote], tape.ordered_snoc h⟩
  else .error (.valueError "quote tape must be strictly ordered by receipt and sequence")

/-- `latest`: `bisect_right` counts the positions up to the one given. -/
def latest (tape : QuoteTape) (evaluatedAt : Instant) : Option QuoteSnapshot :=
  (tape.quotes.takeWhile (·.availableAt evaluatedAt)).getLast?

end QuoteTape

/-! ## Executions -/

/-- The loop of `_book_vwap`: the notional of a filled quantity. -/
def fillNotional (remaining : Nat) (notional : Rat) : List QuoteLevel → Option Rat
  | [] => none
  | level :: rest =>
      let filled := min remaining level.quantity
      if remaining - filled = 0 then some (notional + level.price * filled)
      else fillNotional (remaining - filled) (notional + level.price * filled) rest

/-- `_book_vwap` -/
def bookVwap (quote : QuoteSnapshot) (action : Action) (quantity : Nat) : Option Rat :=
  let levels := match action with
    | .buy => quote.asks
    | .sell => quote.bids
  (fillNotional quantity 0 levels).map fun notional =>
    quantizeHalfUp pricePlaces (notional / quantity)

/-- What `_execution_price` returns. -/
structure Execution where
  quote : Option QuoteSnapshot
  price : Option Rat
  reason : Option String

/-- `_execution_price`, of the latest quote of its tape. -/
def executionPrice (latest : Option QuoteSnapshot) (evaluatedAt : Instant) (action : Action)
    (quantity : Nat) (staleAfter : Int) (phase streamSessionId : String) : Execution :=
  match latest with
  | none => ⟨none, none, some ("MISSING_" ++ phase ++ "_QUOTE")⟩
  | some quote =>
      if quote.position.streamSessionId ≠ streamSessionId then
        ⟨some quote, none, some ("CROSS_SEGMENT_" ++ phase ++ "_QUOTE")⟩
      else if quote.isComplete = false then
        ⟨some quote, none, some ("INCOMPLETE_" ++ phase ++ "_BOOK")⟩
      else if staleAfter < evaluatedAt - quote.receivedAt ∨
          staleAfter < evaluatedAt - quote.eventTime then
        ⟨some quote, none, some ("STALE_" ++ phase ++ "_QUOTE")⟩
      else
        match bookVwap quote action quantity with
        | none => ⟨some quote, none, some ("INSUFFICIENT_" ++ phase ++ "_DEPTH")⟩
        | some price => ⟨some quote, some price, none⟩

variable {D : Type}

/-- The observer of `_quote_tapes`. -/
def observeQuote (tapes : String → QuoteTape) : MarketEvent → Except Raised (String → QuoteTape)
  | .quote quote => do
      let tape ← (tapes quote.symbol).append quote
      return Function.update tapes quote.symbol tape
  | .trade _ | .auction _ => .ok tapes

/-- `_quote_tapes`.  An envelope of another stream session raises. -/
def quoteTapes [Hashing D] [Sdk] (envelopes : List (StreamEnvelope D))
    (configuration : TradingVersion) (authorizedStreamSessionIds : List String)
    (tradeDate : Day) : Except Raised (String → QuoteTape) := do
  require (∀ envelope ∈ envelopes, envelope.streamSessionId ∈ authorizedStreamSessionIds)
    (Raised.valueError "outcome replay input lineage is inconsistent")
  let result ← replay envelopes configuration none none (some tradeDate) observeQuote
    fun _ => .empty
  require (result.issues = []) (Raised.valueError
    ("outcome replay input integrity failed: " ++ String.intercalate ", " result.issues))
  return result.observed

/-! ## Labels -/

/-- `_ACTIONS` -/
def actions : List Action := [.buy, .sell]

/-- The action that leaves a position. -/
def Action.opposite : Action → Action
  | .buy => .sell
  | .sell => .buy

/-- The executions of a label, or the reason for which it has none. -/
structure Markout where
  entry : Execution
  horizon : Execution
  grossReturnBps : Option Rat
  reasons : List String

/-- A label without executions. -/
def Markout.none (reason : String) : Markout := ⟨⟨.none, .none, .none⟩, ⟨.none, .none, .none⟩, .none, [reason]⟩

/-- The gross return of two executions, where both have a price. -/
def grossReturn (action : Action) (entry horizon : Execution) : Except Raised (Option Rat) :=
  match entry.price, horizon.price with
  | some entryPrice, some horizonPrice =>
      some <$> basisPoints (OutcomeLabelFields.movement action entryPrice horizonPrice) entryPrice
  | _, _ => .ok none

namespace OutcomeVersion

variable (policy : OutcomeVersion)

/-- `entry_at` -/
def entryAt (decisionAt : Instant) : Instant :=
  decisionAt + milliseconds policy.executionLatencyMilliseconds

/-- The executions of one label: the entry at `entry_at` and the way out of it at
its horizon.  The source computes an entry once for all horizons. -/
def markout (configuration : TradingVersion) (gaps : List StreamGap)
    (latest : Instant → Option QuoteSnapshot) (streamSessionId : String) (sessionStop : Instant)
    (decisionAt : Instant) (horizonSeconds : Nat) (action : Action) : Except Raised Markout :=
  let entryAt := policy.entryAt decisionAt
  let horizonAt := decisionAt + seconds horizonSeconds
  let staleAfter := seconds configuration.dataQuality.quoteStaleAfterSeconds
  if sessionStop ≤ entryAt ∨ sessionStop ≤ horizonAt then .ok (.none "HORIZON_OUTSIDE_SESSION")
  else if gaps.any fun gap => gap.startedAt ≤ horizonAt && decisionAt < gap.endedAt then
    .ok (.none "CAPTURE_GAP")
  else do
    let entry := executionPrice (latest entryAt) entryAt action policy.orderQuantity staleAfter "ENTRY"
      streamSessionId
    let horizon := executionPrice (latest horizonAt) horizonAt action.opposite policy.orderQuantity
      staleAfter "HORIZON" streamSessionId
    let gross ← grossReturn action entry horizon
    return ⟨entry, horizon, gross, entry.reason.toList ++ horizon.reason.toList⟩

variable [Hashing D]

/-- One label of `label_outcomes`. -/
def label (configuration : TradingVersion) (gaps : List StreamGap)
    (tapes : String → QuoteTape) (snapshot : FeatureSnapshot D) (streamSessionId : String)
    (sessionStop : Instant) (horizonSeconds : Nat) (action : Action) :
    Except Raised (OutcomeLabel D) := do
  let found ← policy.markout configuration gaps (tapes snapshot.symbol).latest streamSessionId
    sessionStop snapshot.decisionAt horizonSeconds action
  OutcomeLabel.modelValidate {
    outcomeVersion := policy.version
    outcomeConfigurationSha256 := policy.sha256
    featureVersion := snapshot.featureVersion
    featureConfigurationSha256 := snapshot.configurationSha256
    featureSnapshotSha256 := snapshot.sha256
    streamSessionId := streamSessionId
    symbol := snapshot.symbol
    tradeDate := snapshot.tradeDate
    decisionAt := snapshot.decisionAt
    action := action
    horizonSeconds := horizonSeconds
    orderQuantity := policy.orderQuantity
    entryAt := policy.entryAt snapshot.decisionAt
    horizonAt := snapshot.decisionAt + seconds horizonSeconds
    entryQuoteReceivedAt := found.entry.quote.map (·.receivedAt)
    entryReceiveSequence := found.entry.quote.map (·.position.receiveSequence)
    entryVwap := found.entry.price
    horizonQuoteReceivedAt := found.horizon.quote.map (·.receivedAt)
    horizonReceiveSequence := found.horizon.quote.map (·.position.receiveSequence)
    horizonVwap := found.horizon.price
    grossReturnBps := found.grossReturnBps
    reasons :=
      ((if snapshot.isEligible then [] else ["FEATURE_INELIGIBLE"]) ++ found.reasons).eraseDups }

/-- The labels of one snapshot, by horizon and action. -/
def labelSnapshot (configuration : TradingVersion) (gaps : List StreamGap)
    (tapes : String → QuoteTape) (snapshot : FeatureSnapshot D) :
    Except Raised (List (OutcomeLabel D)) :=
  match snapshot.streamSessionId with
  | none => .error (.valueError "outcome snapshot is missing stream lineage")
  | some streamSessionId => do
      let (_, sessionStop) ← configuration.market.sessionWindow snapshot.tradeDate
        snapshot.marketSession
      (policy.horizonsSeconds ×ˢ actions).mapM fun item =>
        policy.label configuration gaps tapes snapshot streamSessionId sessionStop item.1 item.2

end OutcomeVersion

/-- Whether a snapshot is one that the configuration makes on a trade date. -/
def FeatureSnapshot.isOf [Hashing D] (snapshot : FeatureSnapshot D) (configuration : TradingVersion)
    (tradeDate : Day) : Bool :=
  snapshot.featureVersion = configuration.features.version &&
    snapshot.configurationVersion = configuration.version &&
    snapshot.configurationSha256 = configuration.sha256 &&
    snapshot.symbol ∈ configuration.market.symbols &&
    snapshot.tradeDate = tradeDate &&
    configuration.market.timezone.date snapshot.decisionAt = tradeDate &&
    configuration.market.sessionAt snapshot.decisionAt tradeDate = snapshot.marketSession &&
    configuration.features.decisionSessions.any (·.session = snapshot.marketSession)

/-- `label_outcomes` -/
def labelOutcomes [Hashing D] [Sdk] (snapshots : List (FeatureSnapshot D))
    (envelopes : List (StreamEnvelope D)) (configuration : TradingVersion)
    (policy : OutcomeVersion) (authorizedStreamSessionIds : List String)
    (gaps : List StreamGap) : Except Raised (List (OutcomeLabel D)) :=
  match snapshots with
  | [] => .ok []
  | first :: _ => do
      let tradeDate := first.tradeDate
      require (authorizedStreamSessionIds ≠ [] ∧ authorizedStreamSessionIds.Nodup ∧
          "" ∉ authorizedStreamSessionIds)
        (Raised.valueError "outcome capture lineage is inconsistent")
      require (∀ snapshot ∈ snapshots, snapshot.streamSessionId ≠ none)
        (Raised.valueError "outcome snapshots must reference captured stream sessions")
      require (∀ snapshot ∈ snapshots,
          ∀ streamSessionId ∈ snapshot.streamSessionId,
            streamSessionId ∈ authorizedStreamSessionIds)
        (Raised.valueError "outcome snapshot capture lineage is inconsistent")
      require ((∀ snapshot ∈ snapshots, snapshot.isOf configuration tradeDate) ∧
          (snapshots.map fun snapshot => (snapshot.symbol, snapshot.decisionAt)).Nodup)
        (Raised.valueError "outcome snapshot configuration lineage is inconsistent")
      require (policy.contains tradeDate)
        (Raised.valueError "outcome policy is not effective for the snapshot trade date")
      let tapes ← quoteTapes envelopes configuration authorizedStreamSessionIds tradeDate
      let labels ← snapshots.mapM (policy.labelSnapshot configuration gaps tapes)
      return labels.flatten

end MiniLakehouse
