import MiniLakehouse.Execution.Model
import MiniLakehouse.Promotion.Publication

/-!
# Paper readiness

`execution/readiness.py`: the gate of the exact preceding session is recomputed
from the stored evidence before it admits paper entries.  The store is any
function from keys to answers, and what pydantic reads from an object is any
function too, so every store content is covered: objects that are missing,
altered or invalid, and reads that raise.
-/

namespace MiniLakehouse

/-- `PUBLIC_VNDIRECT_DTA_CHECKED_AT`: 2026-09-22 UTC. -/
def publicVndirectDtaCheckedAt : Instant := 20718 * dayLength

private theorem publicFee_bounds : (0 : Rat) ≤ 10 ∧ (10 : Rat) < 10000 := by decide

private theorem publicSlippage_bounds : (0 : Rat) ≤ 0 ∧ (0 : Rat) < 10000 := by decide

private theorem publicSale_keeps : (10 : Rat) + 10 < 10000 := by decide +kernel

/-- `public_vndirect_dta_costs` as readiness calls it. -/
def publicVndirectDtaCosts (tradeDate : Day) (checkedAt : Instant) : CostPolicy where
  version := "vndirect-dta-public-2026-09-22"
  effectiveFrom := tradeDate
  effectiveTo := none
  buyFeeBps := 10
  sellFeeBps := 10
  sellTaxBps := 10
  extraSlippageBps := 0
  basis := .publicScheduleAssumption
  accountPlan := some "VNDIRECT_DTA"
  feeSource := some ("https://www.vndirect.com.vn/bieu-phi-tai-khoan-da/; " ++
    "https://support.vndirect.com.vn/hc/vi/articles/14623187438873")
  feeCheckedAt := some checkedAt
  version_valid := ⟨by decide, by simp⟩
  buyFee_bounds := publicFee_bounds
  sellFee_bounds := publicFee_bounds
  sellTax_bounds := publicFee_bounds
  extraSlippage_bounds := publicSlippage_bounds
  source_checked := rfl
  source_nonblank := by decide
  public_sourced := by decide
  sale_keeps_proceeds := publicSale_keeps

private def statusValue : PromotionStatus → String
  | .pending => "PENDING"
  | .pass => "PASS"
  | .fail => "FAIL"

variable {V D : Type} [Hashing D]

/-- What the validator of the mode asks of a paper verdict. -/
def PaperPromoted (tradeDate previousSession : Day) (reason : String)
    (promotion : Option (PromotionGateReport D)) (lineage : Option (ResearchLineage D)) : Prop :=
  reason = "PROMOTION_PASS" ∧
    (∃ report ∈ promotion, ∃ found ∈ lineage, report.status = .pass ∧
      found.arbitrationConfigurationSha256 = report.arbitrationConfigurationSha256) ∧
    previousSession < tradeDate

instance (tradeDate previousSession : Day) (reason : String)
    (promotion : Option (PromotionGateReport D)) (lineage : Option (ResearchLineage D)) :
    Decidable (PaperPromoted tradeDate previousSession reason promotion lineage) := by
  unfold PaperPromoted; infer_instance

/-- `PaperReadiness` with `validate_mode`. -/
def PaperReadiness.modelValidate (tradeDate previousSession : Day) (mode : PaperMode)
    (reason : String) (promotion : Option (PromotionGateReport D))
    (lineage : Option (ResearchLineage D)) : Except Raised (PaperReadiness D) := do
  let promoted ← ensure
    (mode = .paper → PaperPromoted tradeDate previousSession reason promotion lineage)
    (.valueError "paper readiness requires valid prior promotion PASS")
  return ⟨tradeDate, previousSession, mode, reason, promotion, lineage, promoted.down⟩

/-- A session is bound to its published shadow audit. -/
def AuditMatches (session : ArbitratedSessionReport D) (audit : ShadowArbitrationAuditReport D) :
    Prop :=
  audit.sha256 = session.shadowAuditSha256 ∧ audit.tradeDate = session.tradeDate ∧
    audit.baselineVersion = session.baselineVersion ∧
    audit.arbitrationVersion = session.arbitrationVersion ∧
    audit.captureEvidenceSha256 = session.captureEvidenceSha256 ∧
    audit.arbitrationConfigurationSha256 = session.arbitrationConfigurationSha256 ∧
    audit.gapCount = session.captureGapCount

instance (session : ArbitratedSessionReport D) (audit : ShadowArbitrationAuditReport D) :
    Decidable (AuditMatches session audit) := by
  unfold AuditMatches; infer_instance

/-- One session of the loop over shadow audits. -/
def checkShadowAudit (store : PromotionEvidenceStore (Except Raised) V)
    (models : EvidenceModels V D) (session : ArbitratedSessionReport D) : Except Raised Unit := do
  let value ← store.readJson (.shadowAudit session.tradeDate)
  let audit ← validateStored models.audit value
  require (AuditMatches session audit) (.valueError "session shadow audit lineage mismatch")

/-- The reason, the report and the lineage of a verdict. -/
abbrev ReadinessVerdict (D : Type) :=
  String × Option (PromotionGateReport D) × Option (ResearchLineage D)

/-- A published gate and the evidence behind it, once its object was read. -/
def verifyGate (store : PromotionEvidenceStore (Except Raised) V) (models : EvidenceModels V D)
    (configuration : TradingConfiguration) (tradeDate previousSession : Day) (enabled : Bool)
    (costs : CostPolicy) (gate : PromotionGateVersion)
    (arbitration : CandidateArbitrationVersion) (value : V) :
    Except Raised (ReadinessVerdict D) := do
  let report ← models.gate value
  let referenceValue ← store.readJson (sessionKey previousSession)
  let reference ← validateStored models.session referenceValue
  let sessions ← loadSessionEvidence store models gate previousSession (some reference)
  require (sessions.dates.getLast? = some previousSession)
    (.valueError "latest session evidence is incomplete")
  (sessions.ordered.map Prod.snd).forM (checkShadowAudit store models)
  let evaluation ← configuration.resolveBaselineEvaluation tradeDate .promotion
  let expected ← evaluatePromotionGate sessions evaluation gate arbitration
  require (report = expected)
    (.valueError "published gate differs from complete session evidence")
  let active ← resolveResearchLineage configuration tradeDate costs
  if reference.contextConfigurationSha256 ≠ active.contextConfigurationSha256 then
    return ("CONTEXT_POLICY_CHANGED", some report, none)
  else if reference.researchLineage ≠ active then
    return ("RESEARCH_POLICY_CHANGED", some report, none)
  else if enabled then return ("PROMOTION_" ++ statusValue report.status, some report, some active)
  else return ("PAPER_DISABLED", some report, some active)

/-- The body of the fail-closed process boundary. -/
def readinessVerdict (store : PromotionEvidenceStore (Except Raised) V)
    (models : EvidenceModels V D) (configuration : TradingConfiguration)
    (tradeDate previousSession : Day) (enabled : Bool) (costs : CostPolicy) :
    Except Raised (ReadinessVerdict D) := do
  require (previousSession < tradeDate)
    (.valueError "previous session must precede trading date")
  let gate ← configuration.resolvePromotionGate tradeDate
  let arbitration ← configuration.resolveCandidateArbitration tradeDate
  match gate, arbitration with
  | some gate, some arbitration =>
      match ← configuration.resolvePaperExecution tradeDate with
      | none => return ("NO_EFFECTIVE_POLICY", none, none)
      | some _ =>
          match ← store.readJson (.gate previousSession) with
          | none => return ("MISSING_PREVIOUS_SESSION_GATE", none, none)
          | some value =>
              verifyGate store models configuration tradeDate previousSession enabled costs gate
                arbitration value
  | _, _ => return ("NO_EFFECTIVE_POLICY", none, none)

/-- `except Exception`: only the class name of an error is reported. -/
def boundaryVerdict (typeName : Raised → String) :
    Except Raised (ReadinessVerdict D) → ReadinessVerdict D
  | .ok verdict => verdict
  | .error error => ("INVALID_OR_UNAVAILABLE_EVIDENCE:" ++ typeName error, none, none)

/-- `load_paper_readiness`; `typeName` is the class name of a raised error. -/
def loadPaperReadiness (typeName : Raised → String)
    (store : PromotionEvidenceStore (Except Raised) V) (models : EvidenceModels V D)
    (configuration : TradingConfiguration) (tradeDate previousSession : Day) (enabled : Bool)
    (costs : Option CostPolicy) : Except Raised (PaperReadiness D) :=
  let verdict := boundaryVerdict typeName
    (readinessVerdict store models configuration tradeDate previousSession enabled
      (costs.getD (publicVndirectDtaCosts tradeDate publicVndirectDtaCheckedAt)))
  let mode := if enabled = true ∧ verdict.1 = "PROMOTION_PASS" then .paper else .observeOnly
  PaperReadiness.modelValidate tradeDate previousSession mode verdict.1 verdict.2.1 verdict.2.2

/-! ## The loaded cohort -/

/-- The store holds this report of a session, as the reader validates it. -/
def StoredSession (store : PromotionEvidenceStore (Except Raised) V) (models : EvidenceModels V D)
    (key : EvidenceKey) (report : ArbitratedSessionReport D) : Prop :=
  ∃ value, store.readJson key = .ok (some value) ∧ models.session value = .ok report

omit [Hashing D] in
@[simp] theorem raised_eq_ok {α : Type} {result : Except Raised α} {a : α} :
    (raised result : Except Raised α) = .ok a ↔ result = .ok a := by
  cases result with
  | ok value => exact Iff.rfl
  | error error => simp [raised]

/-- What a cohort loaded from some listed keys consists of. -/
structure LoadedCohort (store : PromotionEvidenceStore (Except Raised) V)
    (models : EvidenceModels V D) (gate : PromotionGateVersion) (asOfDate : Day)
    (reference : ArbitratedSessionReport D) (keys : List EvidenceKey)
    (sessions : SessionEvidence D) : Prop where
  stored : ∀ entry ∈ sessions.entries, ∃ dot, EvidenceKey.session entry.1 dot ∈ keys ∧
    StoredSession store models (.session entry.1 dot) entry.2
  dated : ∀ entry ∈ sessions.entries, entry.2.tradeDate = entry.1 ∧ entry.1 ≤ asOfDate ∧
    gate.contains entry.1 = true
  lineage : ∀ entry ∈ sessions.entries, entry.2.researchLineage = reference.researchLineage
  complete : ∀ keyDate dot, EvidenceKey.session keyDate dot ∈ keys → keyDate ≤ asOfDate →
    gate.contains keyDate = true → ∃ report,
      StoredSession store models (.session keyDate dot) report ∧
        (report.researchLineage = reference.researchLineage →
          (keyDate, report) ∈ sessions.entries)

section

variable {store : PromotionEvidenceStore (Except Raised) V} {models : EvidenceModels V D}
  {gate : PromotionGateVersion} {asOfDate : Day} {reference : ArbitratedSessionReport D}

omit [Hashing D] in
/-- A key that is passed over concerns no session of the cohort. -/
theorem LoadedCohort.skip {keys : List EvidenceKey} {sessions : SessionEvidence D}
    {key : EvidenceKey} (h : LoadedCohort store models gate asOfDate reference keys sessions)
    (hskip : ∀ keyDate dot, key = .session keyDate dot → keyDate ≤ asOfDate →
      gate.contains keyDate = true → ∃ report,
        StoredSession store models (.session keyDate dot) report ∧
          report.researchLineage ≠ reference.researchLineage) :
    LoadedCohort store models gate asOfDate reference (keys ++ [key]) sessions := by
  constructor
  case stored =>
    intro entry hentry
    obtain ⟨dot, hmem, hstored⟩ := h.stored entry hentry
    exact ⟨dot, by simp [hmem], hstored⟩
  case dated => exact h.dated
  case lineage => exact h.lineage
  case complete =>
    intro keyDate dot hmem hdate hgate
    rcases List.mem_append.mp hmem with hold | hnew
    · exact h.complete keyDate dot hold hdate hgate
    · obtain ⟨report, hstored, hother⟩ :=
        hskip keyDate dot (List.mem_singleton.mp hnew).symm hdate hgate
      exact ⟨report, hstored, fun hsame => absurd hsame hother⟩

omit [Hashing D] in
/-- A key that is loaded adds its report. -/
theorem LoadedCohort.extend {keys : List EvidenceKey} {sessions : SessionEvidence D}
    {keyDate : Day} {dot : Char} {report : ArbitratedSessionReport D}
    (h : LoadedCohort store models gate asOfDate reference keys sessions)
    (hnew : keyDate ∉ sessions.entries.map Prod.fst)
    (hstored : StoredSession store models (.session keyDate dot) report)
    (hdated : report.tradeDate = keyDate ∧ keyDate ≤ asOfDate ∧ gate.contains keyDate = true)
    (hlineage : report.researchLineage = reference.researchLineage) :
    LoadedCohort store models gate asOfDate reference (keys ++ [.session keyDate dot])
      (sessions.insert keyDate report hnew) := by
  have hentries : ∀ entry, entry ∈ (sessions.insert keyDate report hnew).entries ↔
      entry ∈ sessions.entries ∨ entry = (keyDate, report) := by
    intro entry
    rw [SessionEvidence.insert, List.mem_append, List.mem_singleton]
  constructor
  case stored =>
    intro entry hentry
    rcases (hentries entry).mp hentry with hold | rfl
    · obtain ⟨dot', hmem, hentryStored⟩ := h.stored entry hold
      exact ⟨dot', by simp [hmem], hentryStored⟩
    · exact ⟨dot, by simp, hstored⟩
  case dated =>
    intro entry hentry
    rcases (hentries entry).mp hentry with hold | rfl
    · exact h.dated entry hold
    · exact hdated
  case lineage =>
    intro entry hentry
    rcases (hentries entry).mp hentry with hold | rfl
    · exact h.lineage entry hold
    · exact hlineage
  case complete =>
    intro otherDate otherDot hmem hdate hgate
    rcases List.mem_append.mp hmem with hold | hlast
    · obtain ⟨other, hother, hloaded⟩ := h.complete otherDate otherDot hold hdate hgate
      exact ⟨other, hother, fun hsame => (hentries _).mpr (.inl (hloaded hsame))⟩
    · obtain ⟨rfl, rfl⟩ := EvidenceKey.session.inj (List.mem_singleton.mp hlast)
      exact ⟨report, hstored, fun _ => (hentries _).mpr (.inr rfl)⟩

/-- **One key** of the listing extends the cohort by what it stores. -/
theorem LoadedCohort.step {keys : List EvidenceKey} {sessions sessions' : SessionEvidence D}
    {key : EvidenceKey} (h : LoadedCohort store models gate asOfDate reference keys sessions)
    (hstep : loadSessionKey store models gate asOfDate (some reference) sessions key =
      .ok sessions') :
    LoadedCohort store models gate asOfDate reference (keys ++ [key]) sessions' := by
  cases key with
  | session keyDate dot =>
      simp only [loadSessionKey] at hstep
      split at hstep
      · next hskipped =>
          obtain rfl := Except.ok.inj hstep
          apply h.skip
          rintro keyDate' dot' hkey hdate hgate
          obtain ⟨rfl, rfl⟩ := EvidenceKey.session.inj hkey
          rcases hskipped with hlate | houtside
          · exact absurd hdate (not_le.mpr hlate)
          · rw [houtside] at hgate
            cases hgate
      · next hwithin =>
          simp only [bind_eq_ok] at hstep
          obtain ⟨found, hread, hstep⟩ := hstep
          split at hstep
          · cases hstep
          · next value =>
              simp only [bind_eq_ok, raised_eq_ok] at hstep
              obtain ⟨report, hreport, hstep⟩ := hstep
              have hstored : StoredSession store models (.session keyDate dot) report :=
                ⟨value, hread, hreport⟩
              split at hstep
              · cases hstep
              · next hdated =>
                  split at hstep
                  · next hother =>
                      obtain rfl := Except.ok.inj hstep
                      apply h.skip
                      rintro keyDate' dot' hkey - -
                      obtain ⟨rfl, rfl⟩ := EvidenceKey.session.inj hkey
                      rw [Option.any_some, decide_eq_true_eq] at hother
                      exact ⟨report, hstored, Ne.symm hother⟩
                  · next hsame =>
                      split at hstep
                      · next hnew =>
                          obtain rfl := Except.ok.inj hstep
                          obtain ⟨hdate, hgate⟩ := not_or.mp hwithin
                          refine h.extend hnew hstored ⟨not_not.mp hdated, not_lt.mp hdate, ?_⟩ ?_
                          · exact Bool.not_eq_false _ ▸ hgate
                          · rw [Option.any_some, decide_eq_true_eq, not_not] at hsame
                            exact hsame.symm
                      · cases hstep
  | shadowAudit tradeDate =>
      obtain rfl := Except.ok.inj hstep
      apply h.skip
      intro keyDate dot hkey
      cases hkey
  | gate date =>
      obtain rfl := Except.ok.inj hstep
      apply h.skip
      intro keyDate dot hkey
      cases hkey
  | misdated text => cases hstep
  | other text =>
      obtain rfl := Except.ok.inj hstep
      apply h.skip
      intro keyDate dot hkey
      cases hkey

/-- **A loaded cohort** is what the listed keys store of the reference's lineage. -/
theorem loadSessionEvidence_ok {sessions : SessionEvidence D}
    (h : loadSessionEvidence store models gate asOfDate (some reference) = .ok sessions) :
    reference.tradeDate = asOfDate ∧ ∃ keys, store.listKeys = .ok keys ∧
      LoadedCohort store models gate asOfDate reference keys sessions := by
  unfold loadSessionEvidence at h
  split at h
  · cases h
  · next hreference =>
      simp only [bind_eq_ok, pure_eq_ok] at h
      obtain ⟨keys, hkeys, loaded, hloaded, rfl⟩ := h
      have hcohort : LoadedCohort store models gate asOfDate reference keys loaded :=
        foldlM_prefix_invariant
          (I := fun done found => LoadedCohort store models gate asOfDate reference done found)
          ⟨by simp [SessionEvidence.empty], by simp [SessionEvidence.empty],
            by simp [SessionEvidence.empty], by simp⟩
          (fun _ _ _ _ hdone hstep => hdone.step hstep) hloaded
      have hsorted : ∀ entry, entry ∈ loaded.sorted.entries ↔ entry ∈ loaded.entries :=
        fun entry => mem_sortOn
      refine ⟨by simpa using hreference, keys, hkeys, ?_⟩
      constructor
      case stored => exact fun entry hentry => hcohort.stored entry ((hsorted entry).mp hentry)
      case dated => exact fun entry hentry => hcohort.dated entry ((hsorted entry).mp hentry)
      case lineage => exact fun entry hentry => hcohort.lineage entry ((hsorted entry).mp hentry)
      case complete =>
        intro keyDate dot hmem hdate hgate
        obtain ⟨report, hstored, hentry⟩ := hcohort.complete keyDate dot hmem hdate hgate
        exact ⟨report, hstored, fun hsame => (hsorted _).mpr (hentry hsame)⟩

end

/-! ## Fail-closed admission -/

/-- The evidence that a paper verdict rests on. -/
structure PaperEvidence (store : PromotionEvidenceStore (Except Raised) V)
    (models : EvidenceModels V D) (configuration : TradingConfiguration)
    (tradeDate previousSession : Day) (costs : CostPolicy) (gate : PromotionGateVersion)
    (arbitration : CandidateArbitrationVersion) (evaluation : BaselineEvaluationVersion)
    (reference : ArbitratedSessionReport D) (report : PromotionGateReport D)
    (keys : List EvidenceKey) (sessions : SessionEvidence D) : Prop where
  precedes : previousSession < tradeDate
  gate_effective : configuration.resolvePromotionGate tradeDate = .ok (some gate)
  arbitration_effective : configuration.resolveCandidateArbitration tradeDate = .ok (some arbitration)
  execution_effective : ∃ policy, configuration.resolvePaperExecution tradeDate = .ok (some policy)
  evaluation_effective : configuration.resolveBaselineEvaluation tradeDate .promotion = .ok evaluation
  published : ∃ value, store.readJson (.gate previousSession) = .ok (some value) ∧
    models.gate value = .ok report
  recomputed : evaluatePromotionGate sessions evaluation gate arbitration = .ok report
  reference_stored : StoredSession store models (sessionKey previousSession) reference
  listed : store.listKeys = .ok keys
  cohort : LoadedCohort store models gate previousSession reference keys sessions
  latest : sessions.dates.getLast? = some previousSession
  audited : ∀ entry ∈ sessions.entries, ∃ value audit,
    store.readJson (.shadowAudit entry.1) = .ok (some value) ∧ models.audit value = .ok audit ∧
      AuditMatches entry.2 audit
  lineage_active : resolveResearchLineage configuration tradeDate costs = .ok reference.researchLineage

omit [Hashing D] in
private theorem validateStored_ok {α : Type} {validate : V → Except Raised α} {value : Option V}
    {a : α} (h : validateStored validate value = .ok a) :
    ∃ found, value = some found ∧ validate found = .ok a := by
  cases value with
  | none => cases h
  | some found => exact ⟨found, rfl, h⟩

theorem checkShadowAudit_ok {store : PromotionEvidenceStore (Except Raised) V}
    {models : EvidenceModels V D} {sessions : List (ArbitratedSessionReport D)}
    (h : sessions.forM (checkShadowAudit store models) = .ok ()) :
    ∀ session ∈ sessions, ∃ value audit,
      store.readJson (.shadowAudit session.tradeDate) = .ok (some value) ∧
        models.audit value = .ok audit ∧ AuditMatches session audit := by
  induction sessions with
  | nil => simp
  | cons first rest ih =>
      simp only [List.forM_eq_forM, List.forM_cons, bind_eq_ok] at h ih
      obtain ⟨_, hfirst, hrest⟩ := h
      simp only [checkShadowAudit, bind_eq_ok, require_eq_ok] at hfirst
      obtain ⟨found, hread, audit, haudit, hmatches⟩ := hfirst
      obtain ⟨value, rfl, hvalue⟩ := validateStored_ok haudit
      intro session hsession
      rcases List.mem_cons.mp hsession with rfl | hsession
      · exact ⟨value, audit, hread, hvalue, hmatches⟩
      · exact ih hrest session hsession

/-- What a verified gate's verdict can be. -/
theorem verifyGate_ok {store : PromotionEvidenceStore (Except Raised) V}
    {models : EvidenceModels V D} {configuration : TradingConfiguration}
    {tradeDate previousSession : Day} {enabled : Bool} {costs : CostPolicy}
    {gate : PromotionGateVersion} {arbitration : CandidateArbitrationVersion} {value : V}
    {verdict : ReadinessVerdict D}
    (hprecedes : previousSession < tradeDate)
    (hgate : configuration.resolvePromotionGate tradeDate = .ok (some gate))
    (harbitration : configuration.resolveCandidateArbitration tradeDate = .ok (some arbitration))
    (hexecution : ∃ policy, configuration.resolvePaperExecution tradeDate = .ok (some policy))
    (hread : store.readJson (.gate previousSession) = .ok (some value))
    (h : verifyGate store models configuration tradeDate previousSession enabled costs gate
      arbitration value = .ok verdict) (hpass : verdict.1 = "PROMOTION_PASS") :
    ∃ evaluation reference report keys sessions, PaperEvidence store models configuration
        tradeDate previousSession costs gate arbitration evaluation reference report keys
        sessions ∧ report.status = .pass ∧
      verdict = ("PROMOTION_PASS", some report, some reference.researchLineage) := by
  simp only [verifyGate, bind_eq_ok, require_eq_ok] at h
  obtain ⟨report, hreport, found, hfound, reference, hreference, sessions, hsessions, _, hlatest,
    _, haudits, evaluation, hevaluation, expected, hexpected, _, hsame, active, hactive, h⟩ := h
  obtain ⟨stored, rfl, hstored⟩ := validateStored_ok hreference
  obtain ⟨-, keys, hkeys, hcohort⟩ := loadSessionEvidence_ok hsessions
  subst hsame
  split at h
  · obtain rfl := Except.ok.inj h
    simp at hpass
  · split at h
    · obtain rfl := Except.ok.inj h
      simp at hpass
    · next hlineage =>
        split at h
        · obtain rfl := Except.ok.inj h
          have hstatus : report.status = .pass := by
            cases hstatus : report.status with
            | pass => rfl
            | pending => simp [hstatus, statusValue] at hpass
            | fail => simp [hstatus, statusValue] at hpass
          rw [not_not] at hlineage
          refine ⟨evaluation, reference, report, keys, sessions, ?_, hstatus, ?_⟩
          · constructor
            case precedes => exact hprecedes
            case gate_effective => exact hgate
            case arbitration_effective => exact harbitration
            case execution_effective => exact hexecution
            case evaluation_effective => exact hevaluation
            case published => exact ⟨value, hread, hreport⟩
            case recomputed => exact hexpected
            case reference_stored => exact ⟨stored, hfound, hstored⟩
            case listed => exact hkeys
            case cohort => exact hcohort
            case latest => exact hlatest
            case audited =>
              intro entry hentry
              have haudit := checkShadowAudit_ok haudits entry.2
                (List.mem_map_of_mem (mem_sortOn.mpr hentry))
              rwa [(hcohort.dated entry hentry).1] at haudit
            case lineage_active => rwa [hlineage]
          · rw [hlineage, hstatus]
            rfl
        · obtain rfl := Except.ok.inj h
          simp at hpass

/-- A verdict that names a pass was reached through a verified gate. -/
theorem readinessVerdict_pass {store : PromotionEvidenceStore (Except Raised) V}
    {models : EvidenceModels V D} {configuration : TradingConfiguration}
    {tradeDate previousSession : Day} {enabled : Bool} {costs : CostPolicy}
    {verdict : ReadinessVerdict D}
    (h : readinessVerdict store models configuration tradeDate previousSession enabled costs =
      .ok verdict) (hpass : verdict.1 = "PROMOTION_PASS") :
    ∃ gate arbitration evaluation reference report keys sessions, PaperEvidence store models
        configuration tradeDate previousSession costs gate arbitration evaluation reference
        report keys sessions ∧ report.status = .pass ∧
      verdict = ("PROMOTION_PASS", some report, some reference.researchLineage) := by
  simp only [readinessVerdict, bind_eq_ok, require_eq_ok] at h
  obtain ⟨_, hprecedes, gate, hgate, arbitration, harbitration, h⟩ := h
  split at h
  · next gate arbitration =>
      simp only [bind_eq_ok] at h
      obtain ⟨execution, hexecution, h⟩ := h
      split at h
      · obtain rfl := Except.ok.inj h
        simp at hpass
      · next policy =>
          simp only [bind_eq_ok] at h
          obtain ⟨found, hread, h⟩ := h
          split at h
          · obtain rfl := Except.ok.inj h
            simp at hpass
          · next value =>
              obtain ⟨evaluation, reference, report, keys, sessions, hevidence⟩ :=
                verifyGate_ok hprecedes hgate harbitration ⟨policy, hexecution⟩ hread h hpass
              exact ⟨gate, arbitration, evaluation, reference, report, keys, sessions, hevidence⟩
  · obtain rfl := Except.ok.inj h
    simp at hpass

/-- The report of a gate names the arbitration that it was evaluated under. -/
theorem evaluatePromotionGate_arbitration {sessions : SessionEvidence D}
    {evaluation : BaselineEvaluationVersion} {gate : PromotionGateVersion}
    {arbitration : CandidateArbitrationVersion} {report : PromotionGateReport D}
    (h : evaluatePromotionGate sessions evaluation gate arbitration = .ok report) :
    report.arbitrationConfigurationSha256 = arbitration.sha256 := by
  simp only [evaluatePromotionGate, bind_eq_ok, require_eq_ok] at h
  obtain ⟨-, -, -, -, h⟩ := h
  split at h
  · simp only [PromotionGateReport.modelValidate, bind_eq_ok, pure_eq_ok] at h
    obtain ⟨_, -, _, -, _, -, _, -, _, -, _, -, _, -, _, -, _, -, _, -, rfl⟩ := h
    rfl
  · simp only [PromotionGateReport.modelValidate, bind_eq_ok, pure_eq_ok] at h
    obtain ⟨_, -, _, -, _, -, _, -, _, -, _, -, _, -, _, -, _, -, _, -, _, -, _, -, rfl⟩ := h
    rfl

theorem resolveResearchLineage_arbitration {configuration : TradingConfiguration}
    {tradeDate : Day} {costs : CostPolicy} {lineage : ResearchLineage D}
    {arbitration : CandidateArbitrationVersion}
    (harbitration : configuration.resolveCandidateArbitration tradeDate = .ok (some arbitration))
    (h : resolveResearchLineage configuration tradeDate costs = .ok lineage) :
    lineage.arbitrationConfigurationSha256 = arbitration.sha256 := by
  simp only [resolveResearchLineage, harbitration, bind_eq_ok, require_eq_ok, pure_eq_ok,
    Except.ok.injEq, exists_eq_left'] at h
  obtain ⟨_, -, _, -, _, -, _, -, _, -, _, -, _, -, rfl⟩ := h
  rfl

/-- A verified pass satisfies the validator of the mode. -/
theorem PaperEvidence.promoted {store : PromotionEvidenceStore (Except Raised) V}
    {models : EvidenceModels V D} {configuration : TradingConfiguration}
    {tradeDate previousSession : Day} {costs : CostPolicy} {gate : PromotionGateVersion}
    {arbitration : CandidateArbitrationVersion} {evaluation : BaselineEvaluationVersion}
    {reference : ArbitratedSessionReport D} {report : PromotionGateReport D}
    {keys : List EvidenceKey} {sessions : SessionEvidence D}
    (h : PaperEvidence store models configuration tradeDate previousSession costs gate arbitration
      evaluation reference report keys sessions) (hpass : report.status = .pass) :
    PaperPromoted tradeDate previousSession "PROMOTION_PASS" (some report)
      (some reference.researchLineage) := by
  refine ⟨rfl, ⟨report, rfl, reference.researchLineage, rfl, hpass, ?_⟩, h.precedes⟩
  rw [resolveResearchLineage_arbitration h.arbitration_effective h.lineage_active,
    evaluatePromotionGate_arbitration h.recomputed]

theorem invalidEvidence_ne_pass (name : String) :
    "INVALID_OR_UNAVAILABLE_EVIDENCE:" ++ name ≠ "PROMOTION_PASS" := by
  intro h
  have hlength := congrArg String.length h
  have hreason : "INVALID_OR_UNAVAILABLE_EVIDENCE:".length = 32 := by decide
  have hpass : "PROMOTION_PASS".length = 14 := by decide
  rw [String.length_append, hreason, hpass] at hlength
  omega

omit [Hashing D] in
/-- An error is never reported as a pass. -/
theorem boundaryVerdict_pass {typeName : Raised → String}
    {result : Except Raised (ReadinessVerdict D)} {verdict : ReadinessVerdict D} (h : boundaryVerdict typeName result = verdict)
    (hpass : verdict.1 = "PROMOTION_PASS") : result = .ok verdict := by
  cases result with
  | ok found =>
      obtain rfl : found = verdict := h
      rfl
  | error raised =>
      subst h
      exact absurd hpass (invalidEvidence_ne_pass (typeName raised))

theorem PaperReadiness.modelValidate_ok {tradeDate previousSession : Day} {mode : PaperMode}
    {reason : String} {promotion : Option (PromotionGateReport D)}
    {lineage : Option (ResearchLineage D)}
    (h : mode = .paper → PaperPromoted tradeDate previousSession reason promotion lineage) :
    ∃ readiness, PaperReadiness.modelValidate tradeDate previousSession mode reason promotion
        lineage = .ok readiness ∧ readiness.mode = mode ∧ readiness.promotion = promotion ∧
      readiness.researchLineage = lineage := by
  refine ⟨⟨tradeDate, previousSession, mode, reason, promotion, lineage, h⟩, ?_, rfl, rfl, rfl⟩
  rw [PaperReadiness.modelValidate, ensure_of h]
  rfl

/-- Observing asks for no evidence. -/
theorem modelValidate_observeOnly (tradeDate previousSession : Day) (reason : String)
    (promotion : Option (PromotionGateReport D)) (lineage : Option (ResearchLineage D)) :
    ∃ readiness, PaperReadiness.modelValidate tradeDate previousSession .observeOnly reason
        promotion lineage = .ok readiness ∧ readiness.mode = .observeOnly ∧
      readiness.promotion = promotion ∧ readiness.researchLineage = lineage :=
  PaperReadiness.modelValidate_ok fun hpaper => nomatch hpaper

/-- **Paper readiness fails closed.**  Whatever the store answers, a verdict is returned,
and it is PAPER only if it was enabled and the gate stored for exactly the previous
session is the PASS that its own stored evidence recomputes to, every session of it is
bound to its audit and its lineage is the one in force. -/
theorem paper_readiness_fails_closed (typeName : Raised → String)
    (store : PromotionEvidenceStore (Except Raised) V) (models : EvidenceModels V D)
    (configuration : TradingConfiguration) (tradeDate previousSession : Day) (enabled : Bool)
    (costs : Option CostPolicy) :
    ∃ readiness, loadPaperReadiness typeName store models configuration tradeDate
        previousSession enabled costs = .ok readiness ∧
      (readiness.mode = .paper → enabled = true ∧
        ∃ gate arbitration evaluation reference report keys sessions, PaperEvidence store models
            configuration tradeDate previousSession
            (costs.getD (publicVndirectDtaCosts tradeDate publicVndirectDtaCheckedAt)) gate
            arbitration evaluation reference report keys sessions ∧ report.status = .pass ∧
          readiness.promotion = some report ∧
          readiness.researchLineage = some reference.researchLineage) := by
  have hpassed : ∀ verdict : ReadinessVerdict D, boundaryVerdict typeName
      (readinessVerdict store models configuration tradeDate previousSession enabled
        (costs.getD (publicVndirectDtaCosts tradeDate publicVndirectDtaCheckedAt))) = verdict →
      verdict.1 = "PROMOTION_PASS" → _ := fun verdict hverdict hpass =>
    readinessVerdict_pass (boundaryVerdict_pass hverdict hpass) hpass
  unfold loadPaperReadiness
  generalize boundaryVerdict typeName _ = verdict at hpassed
  replace hpassed := hpassed verdict rfl
  by_cases hboth : enabled = true ∧ verdict.1 = "PROMOTION_PASS"
  · obtain ⟨gate, arbitration, evaluation, reference, report, keys, sessions, hevidence, hpass,
      rfl⟩ := hpassed hboth.2
    obtain ⟨readiness, hreadiness, -, hpromotion, hlineage⟩ :=
      PaperReadiness.modelValidate_ok fun _ : PaperMode.paper = .paper => hevidence.promoted hpass
    refine ⟨readiness, ?_, fun _ => ⟨hboth.1, gate, arbitration, evaluation, reference, report,
      keys, sessions, hevidence, hpass, hpromotion, hlineage⟩⟩
    show PaperReadiness.modelValidate _ _ (if _ then _ else _) _ _ _ = _
    rw [if_pos hboth]
    exact hreadiness
  · obtain ⟨readiness, hreadiness, hmode, -⟩ :=
      modelValidate_observeOnly tradeDate previousSession verdict.1 verdict.2.1 verdict.2.2
    refine ⟨readiness, ?_, ?_⟩
    · show PaperReadiness.modelValidate _ _ (if _ then _ else _) _ _ _ = _
      rw [if_neg hboth]
      exact hreadiness
    · intro hpaper
      rw [hmode] at hpaper
      cases hpaper

end MiniLakehouse
