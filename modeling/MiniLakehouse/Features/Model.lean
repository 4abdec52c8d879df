import MiniLakehouse.Identity
import MiniLakehouse.Library.Checked
import MiniLakehouse.Library.Validation
import MiniLakehouse.Market.Session

/-!
# Feature snapshots

Stable point-in-time output of the feature engine (`features/model.py`).
-/

namespace MiniLakehouse

variable {D : Type}

structure WindowFeaturesFields where
  windowSeconds : Nat
  tradeCount : Nat
  quoteChangeCount : Nat
  tradeVolume : Nat
  signedTradeVolume : Int
  tradeVolumePerSecond : Option Rat
  tradeVolumeImbalance : Option Rat
  levelOneOrderFlowImbalance : Int
  priceReturnBps : Option Rat
  realizedVolatilityBps : Option Rat
  vwap : Option Rat
  lastPriceToVwapBps : Option Rat

namespace WindowFeaturesFields

/-- `WindowFeatures.validate_window` with the field constraints. -/
def checks (fields : WindowFeaturesFields) : List (Check Raised) :=
  let tradeValues := [fields.tradeVolumePerSecond, fields.tradeVolumeImbalance, fields.vwap,
    fields.lastPriceToVwapBps]
  let movementValues := [fields.priceReturnBps, fields.realizedVolatilityBps]
  [⟨1 ≤ fields.windowSeconds, .fieldError "window_seconds"⟩,
    ⟨fields.tradeVolumePerSecond.all (0 ≤ ·), .fieldError "trade_volume_per_second"⟩,
    ⟨fields.tradeVolumeImbalance.all fun value => -1 ≤ value && value ≤ 1,
      .fieldError "trade_volume_imbalance"⟩,
    ⟨fields.realizedVolatilityBps.all (0 ≤ ·), .fieldError "realized_volatility_bps"⟩,
    ⟨fields.vwap.all (0 < ·), .fieldError "vwap"⟩,
    ⟨fields.signedTradeVolume.natAbs ≤ fields.tradeVolume,
      .valueError "signed trade volume cannot exceed total trade volume"⟩,
    ⟨fields.quoteChangeCount != 0 || fields.levelOneOrderFlowImbalance == 0,
      .valueError "book flow requires at least one quote transition"⟩,
    ⟨fields.tradeCount != 0 || (fields.tradeVolume == 0 && fields.signedTradeVolume == 0 &&
      tradeValues.all (·.isNone)), .valueError "empty trade window contains trade-derived values"⟩,
    ⟨fields.tradeCount == 0 || (fields.tradeVolume != 0 && tradeValues.all (·.isSome)),
      .valueError "non-empty trade window is missing trade-derived values"⟩,
    ⟨2 ≤ fields.tradeCount || movementValues.all (·.isNone),
      .valueError "price movement features require at least two trades"⟩,
    ⟨fields.tradeCount < 2 || movementValues.all (·.isSome),
      .valueError "price movement features require at least two trades"⟩]

def modelDump (fields : WindowFeaturesFields) : Json D :=
  .arr [.nat fields.windowSeconds, .nat fields.tradeCount, .nat fields.quoteChangeCount,
    .nat fields.tradeVolume, .int fields.signedTradeVolume,
    .opt .num fields.tradeVolumePerSecond, .opt .num fields.tradeVolumeImbalance,
    .int fields.levelOneOrderFlowImbalance, .opt .num fields.priceReturnBps,
    .opt .num fields.realizedVolatilityBps, .opt .num fields.vwap,
    .opt .num fields.lastPriceToVwapBps]

end WindowFeaturesFields

/-- Features calculated over one trailing receipt-time window. -/
structure WindowFeatures extends WindowFeaturesFields where
  valid : AllHold toWindowFeaturesFields.checks

def WindowFeatures.modelValidate (fields : WindowFeaturesFields) : Except Raised WindowFeatures :=
  validated fields.checks fun valid => ⟨fields, valid⟩

/-- The book features of one complete quote, wholly present or absent. -/
structure BookValues where
  midPrice : Rat
  microprice : Rat
  micropriceDeviationBps : Rat
  spread : Rat
  spreadBps : Rat
  bidDepth : Nat
  askDepth : Nat
  levelOneImbalance : Rat
  depthImbalance : Rat

def BookValues.modelDump (book : BookValues) : Json D :=
  .arr [.num book.midPrice, .num book.microprice, .num book.micropriceDeviationBps,
    .num book.spread, .num book.spreadBps, .nat book.bidDepth, .nat book.askDepth,
    .num book.levelOneImbalance, .num book.depthImbalance]

structure FeatureSnapshotFields (D : Type) where
  featureVersion : String
  configurationVersion : String
  configurationSha256 : D
  symbol : String
  tradeDate : Day
  decisionAt : Instant
  marketSession : MarketSession
  streamSessionId : Option String
  lastReceiveSequence : Option Nat
  tradeAgeSeconds : Option Rat
  quoteAgeSeconds : Option Rat
  book : Option BookValues
  windows : List WindowFeatures
  reasons : List String

namespace FeatureSnapshotFields

private def isUnit (value : Rat) : Bool := -1 ≤ value && value ≤ 1

/-- `FeatureSnapshot.validate_snapshot` with the field constraints. -/
def checks (fields : FeatureSnapshotFields D) : List (Check Raised) :=
  [⟨isVersionName fields.featureVersion, .fieldError "feature_version"⟩,
    ⟨isVersionName fields.configurationVersion, .fieldError "configuration_version"⟩,
    ⟨fields.streamSessionId.all (· != ""), .fieldError "stream_session_id"⟩,
    ⟨fields.lastReceiveSequence.all (1 ≤ ·), .fieldError "last_receive_sequence"⟩,
    ⟨fields.tradeAgeSeconds.all (0 ≤ ·), .fieldError "trade_age_seconds"⟩,
    ⟨fields.quoteAgeSeconds.all (0 ≤ ·), .fieldError "quote_age_seconds"⟩,
    ⟨fields.book.all (0 < ·.midPrice), .fieldError "mid_price"⟩,
    ⟨fields.book.all (0 < ·.microprice), .fieldError "microprice"⟩,
    ⟨fields.book.all (0 < ·.spread), .fieldError "spread"⟩,
    ⟨fields.book.all (0 < ·.spreadBps), .fieldError "spread_bps"⟩,
    ⟨fields.book.all (0 < ·.bidDepth), .fieldError "bid_depth"⟩,
    ⟨fields.book.all (0 < ·.askDepth), .fieldError "ask_depth"⟩,
    ⟨fields.book.all (isUnit ·.levelOneImbalance), .fieldError "level_one_imbalance"⟩,
    ⟨fields.book.all (isUnit ·.depthImbalance), .fieldError "depth_imbalance"⟩,
    ⟨fields.symbol.isEmpty || isUpperIdentifier fields.symbol,
      .valueError "symbol must be uppercase"⟩,
    ⟨fields.streamSessionId.isNone == fields.lastReceiveSequence.isNone,
      .valueError "stream position must be wholly present or absent"⟩,
    ⟨(fields.windows.map (·.windowSeconds)).Pairwise (· < ·),
      .valueError "feature windows must be unique and ascending"⟩,
    ⟨fields.reasons.Nodup, .valueError "feature reasons must be unique and stable"⟩]

def modelDump (fields : FeatureSnapshotFields D) : Json D :=
  .arr [.str fields.featureVersion, .str fields.configurationVersion,
    .sha fields.configurationSha256, .str fields.symbol, .int fields.tradeDate,
    .int fields.decisionAt, .str fields.marketSession.text, .opt .str fields.streamSessionId,
    .opt .nat fields.lastReceiveSequence, .opt .num fields.tradeAgeSeconds,
    .opt .num fields.quoteAgeSeconds, .opt BookValues.modelDump fields.book,
    .list (fun window => window.modelDump) fields.windows, .list .str fields.reasons]

end FeatureSnapshotFields

/-- One auditable feature vector available at an explicit decision instant. -/
structure FeatureSnapshot (D : Type) extends FeatureSnapshotFields D where
  valid : AllHold toFeatureSnapshotFields.checks

namespace FeatureSnapshot

def modelValidate (fields : FeatureSnapshotFields D) : Except Raised (FeatureSnapshot D) :=
  validated fields.checks fun valid => ⟨fields, valid⟩

/-- `is_eligible` -/
def isEligible (snapshot : FeatureSnapshot D) : Bool := snapshot.reasons == []

def sha256 [Hashing D] (snapshot : FeatureSnapshot D) : D := Hashing.sha256 snapshot.modelDump

theorem reasons_unique (snapshot : FeatureSnapshot D) : snapshot.reasons.Nodup := by
  have hvalid := snapshot.valid
  simp only [FeatureSnapshotFields.checks, allHold_cons, decide_eq_true_eq] at hvalid
  tauto

/-- The same features with one more reason, as `model_copy` makes it. -/
def withReasons (snapshot : FeatureSnapshot D) (reasons : List String)
    (h : reasons.Nodup) : FeatureSnapshot D where
  toFeatureSnapshotFields := { snapshot.toFeatureSnapshotFields with reasons := reasons }
  valid := by
    have hvalid := snapshot.valid
    simp only [FeatureSnapshotFields.checks, allHold_cons, allHold_nil, and_true] at hvalid ⊢
    simp_all

end FeatureSnapshot

end MiniLakehouse
