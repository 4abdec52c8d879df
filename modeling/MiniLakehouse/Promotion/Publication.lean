import MiniLakehouse.Promotion.Engine

/-!
# Promotion publication

`promotion/publication.py`: the stored objects of the promotion evidence and the
loading of a cohort of session reports.  The store is the protocol that the
source declares, over any monad in which it answers and errors are raised: for a
reader a fixed store, for a publication the operations of a program.
-/

namespace MiniLakehouse

/-! ## Stored models -/

structure ShadowArbitrationAuditReportFields (D : Type) where
  tradeDate : Day
  baselineVersion : String
  arbitrationVersion : String
  arbitrationConfigurationSha256 : D
  streamSessionIds : List String
  captureEvidenceSha256 : D
  captureMessageCount : Nat
  gapCount : Nat
  manifestSha256 : D
  candidateCount : Nat
  candidateSha256 : D
  arbitrationCount : Nat
  arbitrationSha256 : D
  deriving DecidableEq

namespace ShadowArbitrationAuditReportFields

variable {D : Type}

def checks (fields : ShadowArbitrationAuditReportFields D) : List (Check Raised) :=
  [⟨isVersionName fields.baselineVersion, .fieldError "baseline_version"⟩,
    ⟨isVersionName fields.arbitrationVersion, .fieldError "arbitration_version"⟩,
    ⟨1 ≤ fields.candidateCount, .fieldError "candidate_count"⟩,
    ⟨1 ≤ fields.arbitrationCount, .fieldError "arbitration_count"⟩]

def modelDump (fields : ShadowArbitrationAuditReportFields D) : Json D :=
  .arr [.int fields.tradeDate, .str fields.baselineVersion, .str fields.arbitrationVersion,
    .sha fields.arbitrationConfigurationSha256, .list .str fields.streamSessionIds,
    .sha fields.captureEvidenceSha256, .nat fields.captureMessageCount, .nat fields.gapCount,
    .sha fields.manifestSha256, .nat fields.candidateCount, .sha fields.candidateSha256,
    .nat fields.arbitrationCount, .sha fields.arbitrationSha256]

end ShadowArbitrationAuditReportFields

/-- Proof that the immutable journals equal their deterministic replay. -/
structure ShadowArbitrationAuditReport (D : Type)
    extends ShadowArbitrationAuditReportFields D where
  valid : AllHold toShadowArbitrationAuditReportFields.checks

/-- `sha256(canonical_json(audit.model_dump(mode="json")))` -/
def ShadowArbitrationAuditReport.sha256 {D : Type} [Hashing D]
    (audit : ShadowArbitrationAuditReport D) : D :=
  Hashing.sha256 audit.modelDump

/-- `PROMOTION_EVIDENCE_PREFIX` -/
def promotionEvidencePrefix : String := "stream/ssi_fastconnect_stream/promotion"

private def padded (width value : Nat) : String :=
  String.ofList (List.replicate (width - (toString value).length) '0') ++ toString value

/-- `date.isoformat` of the proleptic Gregorian calendar. -/
def isoformat (value : Day) : String :=
  let shifted := value + 719468
  let era := shifted.fdiv 146097
  let dayOfEra := (shifted - era * 146097).toNat
  let yearOfEra := (dayOfEra - dayOfEra / 1460 + dayOfEra / 36524 - dayOfEra / 146096) / 365
  let dayOfYear := dayOfEra - (365 * yearOfEra + yearOfEra / 4 - yearOfEra / 100)
  let shiftedMonth := (5 * dayOfYear + 2) / 153
  let day := dayOfYear - (153 * shiftedMonth + 2) / 5 + 1
  let month := if shiftedMonth < 10 then shiftedMonth + 3 else shiftedMonth - 9
  let year := (yearOfEra + era * 400 + if month ≤ 2 then 1 else 0).toNat
  s!"{padded 4 year}-{padded 2 month}-{padded 2 day}"

example : isoformat 20738 = "2026-10-12" := by decide +kernel

/-- An object key below the promotion prefix, read as what it spells.  `_SESSION_KEY`
matches any character in place of the dot of `arbitrated_session.json`. -/
inductive EvidenceKey where
  /-- `sessions/trade_date=…/arbitrated_session.json` -/
  | session (tradeDate : Day) (dot : Char)
  /-- `sessions/trade_date=…/shadow_audit.json` -/
  | shadowAudit (tradeDate : Day)
  /-- `gates/as_of_date=…/promotion_gate.json` -/
  | gate (asOfDate : Day)
  /-- matched by `_SESSION_KEY`, with digits that spell no date -/
  | misdated (text : String)
  | other (text : String)
  deriving DecidableEq

def EvidenceKey.text : EvidenceKey → String
  | .session tradeDate dot =>
      promotionEvidencePrefix ++ "/sessions/trade_date=" ++ isoformat tradeDate ++
        "/arbitrated_session" ++ dot.toString ++ "json"
  | .shadowAudit tradeDate =>
      promotionEvidencePrefix ++ "/sessions/trade_date=" ++ isoformat tradeDate ++
        "/shadow_audit.json"
  | .gate asOfDate =>
      promotionEvidencePrefix ++ "/gates/as_of_date=" ++ isoformat asOfDate ++
        "/promotion_gate.json"
  | .misdated text => text
  | .other text => text

/-- The key under which a session report is written. -/
def sessionKey (tradeDate : Day) : EvidenceKey := .session tradeDate '.'

/-- `PromotionEvidenceStore`, as far as a reader uses it: objects of type `V`, and
the keys below the prefix of the sessions. -/
structure PromotionEvidenceStore (m : Type → Type) (V : Type) where
  readJson : EvidenceKey → m (Option V)
  listKeys : m (List EvidenceKey)

/-- `model_validate` of the stored models: an object's fields read by their types,
then the validators of the model. -/
structure EvidenceModels (V D : Type) where
  audit : V → Except Raised (ShadowArbitrationAuditReport D)
  session : V → Except Raised (ArbitratedSessionReport D)
  gate : V → Except Raised (PromotionGateReport D)

/-- `model_validate` of what may be `None`, which no model accepts. -/
def validateStored {V α : Type} (validate : V → Except Raised α) : Option V → Except Raised α
  | some value => validate value
  | none => .error (.fieldError "Input should be a valid dictionary")

namespace SessionEvidence

variable {D : Type}

def empty : SessionEvidence D := ⟨[], List.nodup_nil⟩

/-- `sessions[key_date] = report` for a new date. -/
def insert (sessions : SessionEvidence D) (value : Day) (report : ArbitratedSessionReport D)
    (h : value ∉ sessions.entries.map Prod.fst) : SessionEvidence D where
  entries := sessions.entries ++ [(value, report)]
  dates_unique := by
    rw [List.map_append, List.nodup_append]
    refine ⟨sessions.dates_unique, List.nodup_singleton _, ?_⟩
    intro old hold new hnew hsame
    rw [hsame, List.mem_singleton.mp hnew] at hold
    exact h hold

/-- `dict(sorted(sessions.items()))` -/
def sorted (sessions : SessionEvidence D) : SessionEvidence D where
  entries := sessions.ordered
  dates_unique :=
    ((sortOn_perm Prod.fst sessions.entries).map _).nodup_iff.mpr sessions.dates_unique

end SessionEvidence

/-! ## Loading a cohort -/

section

variable {m : Type → Type} [Monad m] [MonadExcept Raised m] {V D : Type} [Hashing D]

/-- Raise in the store's monad. -/
def raised {α : Type} : Except Raised α → m α
  | .ok a => pure a
  | .error error => throw error

/-- One key of the listing. -/
def loadSessionKey (store : PromotionEvidenceStore m V) (models : EvidenceModels V D)
    (gate : PromotionGateVersion) (asOfDate : Day)
    (reference : Option (ArbitratedSessionReport D)) (sessions : SessionEvidence D) :
    EvidenceKey → m (SessionEvidence D)
  | .session keyDate dot =>
      if asOfDate < keyDate ∨ gate.contains keyDate = false then pure sessions
      else do
        let key := EvidenceKey.text (.session keyDate dot)
        match ← store.readJson (.session keyDate dot) with
        | none => throw (.runtimeError s!"promotion session disappeared during listing: {key}")
        | some value =>
            let report ← raised (models.session value)
            if report.tradeDate ≠ keyDate then
              throw (.runtimeError s!"promotion session key lineage is inconsistent: {key}")
            else if reference.any (·.researchLineage ≠ report.researchLineage) then pure sessions
            else if h : keyDate ∉ sessions.entries.map Prod.fst then
              pure (sessions.insert keyDate report h)
            else
              let day := isoformat keyDate
              throw (.runtimeError s!"duplicate promotion session exists for {day}")
  | .misdated _ => throw (.valueError "Invalid isoformat string")
  | _ => pure sessions

/-- `load_session_evidence` -/
def loadSessionEvidence (store : PromotionEvidenceStore m V) (models : EvidenceModels V D)
    (gate : PromotionGateVersion) (asOfDate : Day)
    (reference : Option (ArbitratedSessionReport D)) : m (SessionEvidence D) :=
  if reference.any (·.tradeDate ≠ asOfDate) then
    throw (.valueError "promotion cohort reference must be the as-of session")
  else do
    let keys ← store.listKeys
    let sessions ← keys.foldlM (loadSessionKey store models gate asOfDate reference) .empty
    return sessions.sorted

/-! ## Publishing -/

/-- `PromotionEvidenceStore` with its writes: each gives the key and the digest stored. -/
structure PromotionEvidencePublisher (m : Type → Type) (V D : Type)
    extends PromotionEvidenceStore m V where
  putJson : EvidenceKey → V → m (EvidenceKey × D)

/-- `publish_session_evidence` -/
def publishSessionEvidence (store : PromotionEvidencePublisher m (Json D) D)
    (shadowAudit : ShadowArbitrationAuditReport D) (session : ArbitratedSessionReport D) :
    m ((EvidenceKey × D) × EvidenceKey × D) :=
  if shadowAudit.tradeDate ≠ session.tradeDate then
    throw (.valueError "promotion evidence dates do not match")
  else do
    let shadow ← store.putJson (.shadowAudit session.tradeDate) shadowAudit.modelDump
    if shadow.2 ≠ session.shadowAuditSha256 then
      throw (.runtimeError "published shadow audit checksum is inconsistent")
    else
      let stored ← store.putJson (sessionKey session.tradeDate) session.modelDump
      if stored.2 ≠ session.sha256 then
        throw (.runtimeError "published session report checksum is inconsistent")
      else return (shadow, stored)

/-- `publish_gate_evidence` -/
def publishGateEvidence (store : PromotionEvidencePublisher m (Json D) D) (asOfDate : Day)
    (report : PromotionGateReport D) : m (EvidenceKey × D) := do
  let stored ← store.putJson (.gate asOfDate) report.modelDump
  if stored.2 ≠ report.sha256 then
    throw (.runtimeError "published promotion gate checksum is inconsistent")
  else return stored

/-- `PromotionEvidencePublication`, with each location as its key. -/
structure PromotionEvidencePublication (D : Type) where
  tradeDate : Day
  shadowAudit : EvidenceKey × D
  sessionReport : EvidenceKey × D
  gateReport : EvidenceKey × D
  gateStatus : PromotionStatus
  observedSessionCount : Nat
  requiredSessionCount : Nat
  deriving DecidableEq

/-- `publish_promotion_evidence`; `evidence` is the audited journal and the evaluated
session of the certified capture.  There is none to publish without a policy. -/
def publishPromotionEvidence (store : PromotionEvidencePublisher m (Json D) D)
    (models : EvidenceModels (Json D) D) (configuration : TradingConfiguration) (tradeDate : Day)
    (evidence : Except Raised (ShadowArbitrationAuditReport D × ArbitratedSessionReport D)) :
    m (Option (PromotionEvidencePublication D)) := do
  match ← raised (configuration.resolvePromotionGate tradeDate),
      ← raised (configuration.resolveCandidateArbitration tradeDate) with
  | some gate, some arbitration => do
      let certified ← raised evidence
      let published ← publishSessionEvidence store certified.1 certified.2
      let sessions ← loadSessionEvidence store.toPromotionEvidenceStore models gate tradeDate
        (some certified.2)
      if sessions.get tradeDate ≠ some certified.2 then
        throw (.runtimeError "published promotion session is not visible to the gate")
      else
        let evaluation ← raised (configuration.resolveBaselineEvaluation tradeDate .promotion)
        let report ← raised (evaluatePromotionGate sessions evaluation gate arbitration)
        let stored ← publishGateEvidence store tradeDate report
        return some {
          tradeDate := tradeDate
          shadowAudit := published.1
          sessionReport := published.2
          gateReport := stored
          gateStatus := report.status
          observedSessionCount := report.observedSessionCount
          requiredSessionCount := report.requiredSessionCount }
  | _, _ => return none

end

end MiniLakehouse
