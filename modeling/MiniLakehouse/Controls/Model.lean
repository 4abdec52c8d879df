import MiniLakehouse.Identity
import MiniLakehouse.Library.Time

/-!
# Neutral controls

Cost assumptions, risk limits, selection evidence and the account snapshot
shared by simulation and paper execution (`controls/model.py`).  What the
models' validators accept is carried by the structures themselves.
-/

namespace MiniLakehouse

inductive CostBasis where
  | userSupplied
  | publicScheduleAssumption
  deriving DecidableEq, Repr

/-- Explicit VND assumptions, effective from one date to another. -/
structure CostPolicy where
  version : String
  effectiveFrom : Day
  effectiveTo : Option Day
  buyFeeBps : Rat
  sellFeeBps : Rat
  sellTaxBps : Rat
  extraSlippageBps : Rat
  basis : CostBasis
  accountPlan : Option String
  feeSource : Option String
  feeCheckedAt : Option Instant
  version_valid : isVersionName version ∧ ∀ last ∈ effectiveTo, effectiveFrom ≤ last
  buyFee_bounds : 0 ≤ buyFeeBps ∧ buyFeeBps < 10000
  sellFee_bounds : 0 ≤ sellFeeBps ∧ sellFeeBps < 10000
  sellTax_bounds : 0 ≤ sellTaxBps ∧ sellTaxBps < 10000
  extraSlippage_bounds : 0 ≤ extraSlippageBps ∧ extraSlippageBps < 10000
  source_checked : feeSource.isNone = feeCheckedAt.isNone
  source_nonblank : ∀ source ∈ feeSource, isBlankText source = false
  public_sourced : basis = .publicScheduleAssumption →
    (∃ plan ∈ accountPlan, plan ≠ "") ∧ feeSource.isSome
  sale_keeps_proceeds : sellFeeBps + sellTaxBps < 10000
  deriving DecidableEq

namespace CostPolicy

/-- `CostPolicy.contains`: the policy is effective on the date. -/
def contains (policy : CostPolicy) (value : Day) : Bool :=
  policy.effectiveFrom ≤ value && policy.effectiveTo.all (value ≤ ·)

private def basisText : CostBasis → String
  | .userSupplied => "USER_SUPPLIED"
  | .publicScheduleAssumption => "PUBLIC_SCHEDULE_ASSUMPTION"

/-- The members left once the effective interval is excluded. -/
private def assumptions {D : Type} (policy : CostPolicy) : List (Json D) :=
  [.str policy.version, .num policy.buyFeeBps, .num policy.sellFeeBps,
    .num policy.sellTaxBps, .num policy.extraSlippageBps,
    .str (basisText policy.basis), .opt .str policy.accountPlan,
    .opt .str policy.feeSource, .opt .int policy.feeCheckedAt]

def modelDump {D : Type} (policy : CostPolicy) : Json D :=
  .arr (.int policy.effectiveFrom :: .opt .int policy.effectiveTo ::
    policy.assumptions)

private theorem basisText_injective : Function.Injective basisText := by
  intro a b h
  cases a <;> cases b <;> first | rfl | exact absurd h (by decide)

/-- The dump determines the policy. -/
theorem modelDump_injective {D : Type} :
    Function.Injective (modelDump : CostPolicy → Json D) := by
  intro a b h
  cases a
  cases b
  simp only [modelDump, assumptions, Json.arr_inj, List.cons.injEq, Json.int_inj, Json.str.injEq,
    Json.num.injEq, (Json.opt_inj Json.int_injective).eq_iff,
    (Json.opt_inj Json.str_injective).eq_iff, basisText_injective.eq_iff, and_true] at h
  obtain ⟨rfl, rfl, rfl, rfl, rfl, rfl, rfl, rfl, rfl, rfl, rfl⟩ := h
  rfl

/-- `CostPolicy.assumptions_sha256`: comparable across sessions. -/
def assumptionsSha256 {D : Type} [Hashing D] (policy : CostPolicy) : D :=
  sha256 (.arr policy.assumptions)

end CostPolicy

/-- `_MARKET_TIMEZONE`: Asia/Ho_Chi_Minh has kept one offset since 1975. -/
def marketTimezone : ZoneInfo := ⟨"Asia/Ho_Chi_Minh", seconds 25200, []⟩

/-- Opt-in sale-proceeds advance; absent means pending sales are not spendable. -/
structure AdvancePolicy where
  settlementDate : Day
  dailyInterestBps : Rat
  source : String
  interest_bounds : 0 ≤ dailyInterestBps ∧ dailyInterestBps < 10000
  advance_sourced : source ≠ ""

def AdvancePolicy.modelDump {D : Type} (policy : AdvancePolicy) : Json D :=
  .arr [.int policy.settlementDate, .num policy.dailyInterestBps, .str policy.source]

/-- Evidence that an arbitration was recorded before entry planning. -/
structure SelectionEvidence (D : Type) where
  arbitrationSha256 : D
  selectedAt : Instant
  source : String
  sourceSha256 : D
  source_nonempty : source ≠ ""
  deriving DecidableEq

def SelectionEvidence.modelDump {D : Type} (evidence : SelectionEvidence D) : Json D :=
  .arr [.sha evidence.arbitrationSha256, .int evidence.selectedAt,
    .str evidence.source, .sha evidence.sourceSha256]

/-- Explicit operational limits. -/
structure RiskLimits where
  maxCycleQuantity : Nat
  maxOrderNotionalVnd : Rat
  maxCyclesPerDay : Nat
  maxDailyLossVnd : Rat
  cashReserveVnd : Rat
  maxCycleQuantity_pos : 0 < maxCycleQuantity
  maxOrderNotional_pos : 0 < maxOrderNotionalVnd
  maxCyclesPerDay_pos : 0 < maxCyclesPerDay
  maxDailyLoss_pos : 0 < maxDailyLossVnd
  cashReserve_nonneg : 0 ≤ cashReserveVnd

def RiskLimits.modelDump {D : Type} (risk : RiskLimits) : Json D :=
  .arr [.nat risk.maxCycleQuantity, .num risk.maxOrderNotionalVnd,
    .nat risk.maxCyclesPerDay, .num risk.maxDailyLossVnd, .num risk.cashReserveVnd]

/-- One holding: shares settled, due tomorrow, due after tomorrow, and the core
position that is never sold. -/
structure AccountPosition where
  symbol : String
  settledQty : Nat
  t1Qty : Nat
  t2Qty : Nat
  coreMinQty : Nat
  startPrice : Rat
  symbol_upper : isUpperIdentifier symbol
  startPrice_pos : 0 < startPrice
  core_settled : coreMinQty ≤ settledQty
  deriving DecidableEq

def AccountPosition.modelDump {D : Type} (position : AccountPosition) : Json D :=
  .arr [.str position.symbol, .nat position.settledQty, .nat position.t1Qty,
    .nat position.t2Qty, .nat position.coreMinQty, .num position.startPrice]

theorem AccountPosition.modelDump_injective {D : Type} :
    Function.Injective (modelDump : AccountPosition → Json D) := by
  intro a b h
  cases a
  cases b
  simp only [modelDump, Json.arr_inj, List.cons.injEq, Json.str.injEq, Json.nat_inj,
    Json.num.injEq, and_true] at h
  obtain ⟨rfl, rfl, rfl, rfl, rfl, rfl⟩ := h
  rfl

/-- The account as of one instant; its cash excludes sale receivables. -/
structure AccountSnapshot where
  asOf : Instant
  source : String
  cashVnd : Rat
  positions : List AccountPosition
  source_nonempty : source ≠ ""
  cash_nonneg : 0 ≤ cashVnd
  positions_nonempty : positions ≠ []
  symbols_nodup : (positions.map AccountPosition.symbol).Nodup
  deriving DecidableEq

/-- `AccountPosition.total_qty` -/
def AccountPosition.totalQty (position : AccountPosition) : Nat :=
  position.settledQty + position.t1Qty + position.t2Qty

namespace AccountSnapshot

def modelDump {D : Type} (account : AccountSnapshot) : Json D :=
  .arr [.int account.asOf, .str account.source, .num account.cashVnd,
    .list AccountPosition.modelDump account.positions]

/-- The dump determines the account. -/
theorem modelDump_injective {D : Type} :
    Function.Injective (modelDump : AccountSnapshot → Json D) := by
  intro a b h
  cases a
  cases b
  simp only [modelDump, Json.arr_inj, List.cons.injEq, Json.int_inj, Json.str.injEq,
    Json.num.injEq, (Json.list_inj AccountPosition.modelDump_injective).eq_iff, and_true] at h
  obtain ⟨rfl, rfl, rfl, rfl⟩ := h
  rfl

/-- `AccountSnapshot.sha256` -/
def sha256 {D : Type} [Hashing D] (account : AccountSnapshot) : D :=
  Hashing.sha256 account.modelDump

end AccountSnapshot

end MiniLakehouse
