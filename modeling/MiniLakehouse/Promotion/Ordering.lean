import MiniLakehouse.Promotion.Cohorts

/-!
# The order of publications

A gate is one immutable object per as-of date, computed from the sessions that
are stored when it is written.  Publications of one configuration can be cut off
and repeated in any order that stores no session after the gate of a later date
of its lineage: then no write ever conflicts, every repetition succeeds and every
stored gate is what its cohort still evaluates to
(`publication_retry_safe`).  Out of order a gate goes stale and its own
repetition conflicts (`publication_out_of_order`).
-/

namespace MiniLakehouse

variable {D : Type} [Hashing D] {configuration : TradingConfiguration}
  {gate : PromotionGateVersion}

/-! ## What publications store -/

section

variable (days : CertifiedDays D configuration gate) (evaluation : BaselineEvaluationVersion)
  (arbitration : CandidateArbitrationVersion)

/-- A stored gate is the evaluation of its whole cohort. -/
def GateCurrent (w : Bucket EvidenceKey (Json D)) (asOfDate : Day) (body : Json D) : Prop :=
  asOfDate ∈ days.dates ∧ w.find (sessionKey asOfDate) ≠ none ∧
    ∃ sessions report, CohortOf days w asOfDate sessions ∧
      evaluatePromotionGate sessions evaluation gate arbitration = .ok report ∧
      body = report.modelDump

/-- What the publications of certified days leave behind, wherever they are cut off. -/
structure EvidenceInvariant (w : Bucket EvidenceKey (Json D)) : Prop
    extends StoresSessions days w where
  audits : ∀ value body, w.find (.shadowAudit value) = some body →
    body = (days.audit value).modelDump
  proven : ∀ value, w.find (sessionKey value) ≠ none → w.find (.shadowAudit value) ≠ none
  gates : ∀ value body, w.find (.gate value) = some body →
    GateCurrent days evaluation arbitration w value body

/-- No gate of a later date has been computed without the session of this one. -/
def InOrder (w : Bucket EvidenceKey (Json D)) (value : Day) : Prop :=
  w.find (sessionKey value) = none → ∀ later ∈ days.dates, value < later →
    (days.session value).researchLineage = (days.session later).researchLineage →
    w.find (.gate later) = none

end

variable {days : CertifiedDays D configuration gate} {evaluation : BaselineEvaluationVersion}
  {arbitration : CandidateArbitrationVersion} {w : Bucket EvidenceKey (Json D)} {value : Day}

/-- A gate stays current as long as its cohort stays. -/
theorem GateCurrent.congr {w' : Bucket EvidenceKey (Json D)} {asOfDate : Day} {body : Json D}
    (h : GateCurrent days evaluation arbitration w asOfDate body)
    (hkept : w'.find (sessionKey asOfDate) ≠ none)
    (hsame : ∀ value ∈ days.dates, value ≤ asOfDate →
      (days.session value).researchLineage = (days.session asOfDate).researchLineage →
      (w.find (sessionKey value) ≠ none ↔ w'.find (sessionKey value) ≠ none)) :
    GateCurrent days evaluation arbitration w' asOfDate body := by
  obtain ⟨hdate, -, sessions, report, hcohort, hreport, rfl⟩ := h
  exact ⟨hdate, hkept, sessions, report, hcohort.congr hsame, hreport, rfl⟩

namespace EvidenceInvariant

theorem empty : EvidenceInvariant days evaluation arbitration Bucket.empty := by
  constructor
  case toStoresSessions => exact ⟨by simp, by simp⟩
  case audits => simp
  case proven => simp
  case gates => simp

theorem insert_audit (h : EvidenceInvariant days evaluation arbitration w)
    (hnew : w.find (.shadowAudit value) = none) :
    EvidenceInvariant days evaluation arbitration
      (w.insert (.shadowAudit value) (days.audit value).modelDump hnew) := by
  constructor
  case toStoresSessions =>
    constructor
    · intro other dot body hbody
      exact h.sessions other dot body (by simpa using hbody)
    · intro text
      simpa using h.misdated text
  case audits =>
    intro other body hbody
    simp only [Bucket.find_insert, EvidenceKey.shadowAudit.injEq] at hbody
    split at hbody
    · next hsame =>
        subst hsame
        exact (Option.some.inj hbody).symm
    · exact h.audits other body hbody
  case proven =>
    intro other hstored
    have hold := h.proven other (by simpa [sessionKey] using hstored)
    rw [Bucket.find_insert]
    split
    · simp
    · exact hold
  case gates =>
    intro other body hbody
    refine (h.gates other body (by simpa using hbody)).congr ?_ ?_
    · simpa [sessionKey] using (h.gates other body (by simpa using hbody)).2.1
    · intro earlier _ _ _
      simp [sessionKey]

theorem insert_session (h : EvidenceInvariant days evaluation arbitration w)
    (hdate : value ∈ days.dates) (haudit : w.find (.shadowAudit value) ≠ none)
    (horder : InOrder days w value) (hnew : w.find (sessionKey value) = none) :
    EvidenceInvariant days evaluation arbitration
      (w.insert (sessionKey value) (days.session value).modelDump hnew) := by
  constructor
  case toStoresSessions =>
    constructor
    · intro other dot body hbody
      simp only [Bucket.find_insert, sessionKey, EvidenceKey.session.injEq] at hbody
      split at hbody
      · next hsame =>
          obtain ⟨rfl, rfl⟩ := hsame
          exact ⟨rfl, hdate, (Option.some.inj hbody).symm⟩
      · exact h.sessions other dot body hbody
    · intro text
      simpa [sessionKey] using h.misdated text
  case audits =>
    intro other body hbody
    exact h.audits other body (by simpa [sessionKey] using hbody)
  case proven =>
    intro other hstored
    rw [Bucket.find_insert, if_neg (by simp [sessionKey])]
    by_cases hsame : other = value
    · rw [hsame]
      exact haudit
    · apply h.proven other
      simpa [sessionKey, hsame] using hstored
  case gates =>
    intro other body hbody
    have hold : w.find (.gate other) = some body := by simpa [sessionKey] using hbody
    have hcurrent := h.gates other body hold
    have hapart : value ≤ other →
        (days.session value).researchLineage = (days.session other).researchLineage → False := by
      intro hbefore hlineage
      rcases hbefore.lt_or_eq with hlater | rfl
      · rw [horder hnew other hcurrent.1 hlater hlineage] at hold
        cases hold
      · exact hcurrent.2.1 hnew
    refine hcurrent.congr ?_ ?_
    · rw [Bucket.find_insert]
      split
      · simp
      · exact hcurrent.2.1
    · intro earlier _ hbefore hlineage
      have hother : ¬sessionKey earlier = sessionKey value := by
        intro hkey
        obtain rfl : earlier = value := by simpa [sessionKey] using hkey
        exact hapart hbefore hlineage
      rw [Bucket.find_insert, if_neg hother]

theorem insert_gate (h : EvidenceInvariant days evaluation arbitration w)
    (hnew : w.find (.gate value) = none) {body : Json D}
    (hcurrent : GateCurrent days evaluation arbitration w value body) :
    EvidenceInvariant days evaluation arbitration (w.insert (.gate value) body hnew) := by
  have hkept : ∀ other, (w.insert (.gate value) body hnew).find (sessionKey other) =
      w.find (sessionKey other) := by
    intro other
    simp [sessionKey]
  constructor
  case toStoresSessions =>
    constructor
    · intro other dot found hfound
      exact h.sessions other dot found (by simpa using hfound)
    · intro text
      simpa using h.misdated text
  case audits =>
    intro other found hfound
    exact h.audits other found (by simpa using hfound)
  case proven =>
    intro other hstored
    rw [hkept] at hstored
    simpa using h.proven other hstored
  case gates =>
    intro other found hfound
    have hold : GateCurrent days evaluation arbitration w other found := by
      rw [Bucket.find_insert] at hfound
      split at hfound
      · next hsame =>
          obtain rfl : other = value := by simpa using hsame
          rwa [← Option.some.inj hfound]
      · exact h.gates other found hfound
    refine hold.congr ?_ ?_
    · rw [hkept]
      exact hold.2.1
    · intro earlier _ _ _
      rw [hkept]

end EvidenceInvariant

/-! ## One publication -/

section

variable {models : EvidenceModels (Json D) D} {outages : Prop}

omit [Hashing D] in
private theorem raised_ok_bind {α β : Type} {a : α} {f : α → EvidenceProg D β} :
    (raised (.ok a) >>= f) = f a := rfl

/-- The session of a date is stored, and nothing that is stored is at odds. -/
def SessionPublished (days : CertifiedDays D configuration gate)
    (evaluation : BaselineEvaluationVersion) (arbitration : CandidateArbitrationVersion)
    (value : Day) (w : Bucket EvidenceKey (Json D)) : Prop :=
  EvidenceInvariant days evaluation arbitration w ∧ w.find (sessionKey value) ≠ none

theorem publishSessionEvidence_secures {α : Type} {rest : _ → EvidenceProg D α}
    {Q : Except Raised α → Bucket EvidenceKey (Json D) → Prop}
    (hinvariant : EvidenceInvariant days evaluation arbitration w) (hdate : value ∈ days.dates)
    (horder : InOrder days w value)
    (hrest : ∀ published w', SessionPublished days evaluation arbitration value w' →
      Secures (s3Step Hashing.sha256 outages) (EvidenceInvariant days evaluation arbitration) Q
        (rest published) w')
    (hunavailable : outages → ∀ w', Q (.error .captureStoreUnavailable) w') :
    Secures (s3Step Hashing.sha256 outages) (EvidenceInvariant days evaluation arbitration) Q
      (publishSessionEvidence s3EvidenceStore (days.audit value) (days.session value) >>= rest)
      w := by
  have hdated : ¬(days.audit value).tradeDate ≠ (days.session value).tradeDate := by
    rw [days.audit_dated value hdate, days.session_dated value hdate]
    simp
  have hshadow : ¬Hashing.sha256 (days.audit value).modelDump ≠
      (days.session value).shadowAuditSha256 := by
    rw [not_not]
    exact (days.audited value hdate).symm
  have hsession : ∀ w', EvidenceInvariant days evaluation arbitration w' →
      InOrder days w' value → w'.find (.shadowAudit value) ≠ none →
      Secures (s3Step Hashing.sha256 outages) (EvidenceInvariant days evaluation arbitration)
        (Proceeds (s3Step Hashing.sha256 outages) (EvidenceInvariant days evaluation arbitration) Q
          rest)
        (do
          let stored ← s3EvidenceStore.putJson (sessionKey (days.session value).tradeDate)
            (days.session value).modelDump
          if stored.2 ≠ (days.session value).sha256 then
            throw (.runtimeError "published session report checksum is inconsistent")
          else return ((.shadowAudit value, Hashing.sha256 (days.audit value).modelDump), stored))
        w' := by
    intro w' hinvariant horder haudit
    rw [secures_bind, days.session_dated value hdate]
    apply S3CaptureStore.put_secures hinvariant
    case hfresh =>
      intro hnew
      have hnext := hinvariant.insert_session hdate haudit horder hnew
      refine ⟨hnext, ?_, fun hout => hunavailable hout _⟩
      rw [proceeds_ok]
      show Secures _ _ _ (if _ ≠ (days.session value).sha256 then _ else _) _
      rw [if_neg (by simp [ArbitratedSessionReport.sha256])]
      exact ⟨hnext, hrest _ _ ⟨hnext, by simp⟩⟩
    case hsame =>
      intro current hcurrent _
      rw [proceeds_ok]
      show Secures _ _ _ (if _ ≠ (days.session value).sha256 then _ else _) _
      rw [if_neg (by simp [ArbitratedSessionReport.sha256])]
      exact ⟨hinvariant, hrest _ _ ⟨hinvariant, by simp [hcurrent]⟩⟩
    case hconflict =>
      intro current hcurrent hdiffers
      obtain ⟨-, -, rfl⟩ := hinvariant.sessions value '.' current hcurrent
      exact absurd rfl hdiffers
    case hunavailable => exact fun hout => hunavailable hout _
  rw [secures_bind, publishSessionEvidence, if_neg hdated, secures_bind,
    days.session_dated value hdate]
  rw [days.session_dated value hdate] at hsession
  apply S3CaptureStore.put_secures hinvariant
  case hfresh =>
    intro hnew
    have hnext := hinvariant.insert_audit hnew
    refine ⟨hnext, ?_, fun hout => hunavailable hout _⟩
    rw [proceeds_ok]
    show Secures _ _ _ (if Hashing.sha256 _ ≠ _ then _ else _) _
    rw [if_neg hshadow]
    apply hsession _ hnext
    · intro hnone later hlater hbefore hlineage
      simpa using horder (by simpa [sessionKey] using hnone) later hlater hbefore hlineage
    · simp
  case hsame =>
    intro current hcurrent _
    rw [proceeds_ok]
    show Secures _ _ _ (if Hashing.sha256 _ ≠ _ then _ else _) _
    rw [if_neg hshadow]
    exact hsession w hinvariant horder (by simp [hcurrent])
  case hconflict =>
    intro current hcurrent hdiffers
    rw [hinvariant.audits value current hcurrent] at hdiffers
    exact absurd rfl hdiffers
  case hunavailable => exact fun hout => hunavailable hout _

/-- Publishing the gate of a stored cohort stores it, or finds it there. -/
theorem publishGateEvidence_secures {sessions : SessionEvidence D} {report : PromotionGateReport D}
    {α : Type} {rest : EvidenceKey × D → EvidenceProg D α}
    {Q : Except Raised α → Bucket EvidenceKey (Json D) → Prop}
    (hpublished : SessionPublished days evaluation arbitration value w) (hdate : value ∈ days.dates)
    (hcohort : CohortOf days w value sessions)
    (hreport : evaluatePromotionGate sessions evaluation gate arbitration = .ok report)
    (hrest : ∀ stored w', EvidenceInvariant days evaluation arbitration w' →
      w'.find (.gate value) ≠ none →
      Secures (s3Step Hashing.sha256 outages) (EvidenceInvariant days evaluation arbitration) Q
        (rest stored) w')
    (hunavailable : outages → ∀ w', Q (.error .captureStoreUnavailable) w') :
    Secures (s3Step Hashing.sha256 outages) (EvidenceInvariant days evaluation arbitration) Q
      (publishGateEvidence s3EvidenceStore value report >>= rest) w := by
  obtain ⟨hinvariant, hstored⟩ := hpublished
  have hdigest : ¬Hashing.sha256 report.modelDump ≠ report.sha256 := by
    simp [PromotionGateReport.sha256]
  rw [secures_bind, publishGateEvidence, secures_bind]
  apply S3CaptureStore.put_secures hinvariant
  case hfresh =>
    intro hnew
    have hnext := hinvariant.insert_gate hnew
      ⟨hdate, hstored, sessions, report, hcohort, hreport, rfl⟩
    refine ⟨hnext, ?_, fun hout => hunavailable hout _⟩
    rw [proceeds_ok]
    show Secures _ _ _ (if Hashing.sha256 _ ≠ _ then _ else _) _
    rw [if_neg hdigest]
    exact ⟨hnext, hrest _ _ hnext (by simp)⟩
  case hsame =>
    intro current hcurrent _
    rw [proceeds_ok]
    show Secures _ _ _ (if Hashing.sha256 _ ≠ _ then _ else _) _
    rw [if_neg hdigest]
    exact ⟨hinvariant, hrest _ _ hinvariant (by simp [hcurrent])⟩
  case hconflict =>
    intro current hcurrent hdiffers
    obtain ⟨-, -, sessions', report', hcohort', hreport', rfl⟩ := hinvariant.gates value _ hcurrent
    obtain rfl := hcohort.unique hcohort'
    obtain rfl : report = report' := Except.ok.inj (hreport.symm.trans hreport')
    exact absurd rfl hdiffers
  case hunavailable => exact fun hout => hunavailable hout _

/-- How a publication ends: with its gate stored, or because the service was out of reach. -/
def Published (outages : Prop) (value : Day)
    (result : Except Raised (Option (PromotionEvidencePublication D)))
    (w : Bucket EvidenceKey (Json D)) : Prop :=
  (∃ publication, result = .ok (some publication)) ∧ w.find (.gate value) ≠ none ∨
    outages ∧ result = .error .captureStoreUnavailable

/-- `publish_promotion_evidence` of a certified day. -/
def publishDay (days : CertifiedDays D configuration gate) (models : EvidenceModels (Json D) D)
    (value : Day) : EvidenceProg D (Option (PromotionEvidencePublication D)) :=
  publishPromotionEvidence s3EvidenceStore models configuration value
    (.ok (days.audit value, days.session value))

/-- **One publication** in order keeps the evidence at one, wherever it is cut off, and
fails for no other reason than a service out of reach. -/
theorem publishDay_secures (hpolicies : GatePolicies configuration gate evaluation arbitration)
    (hmodels : ReadsBack days models)
    (hinvariant : EvidenceInvariant days evaluation arbitration w) (hdate : value ∈ days.dates)
    (horder : InOrder days w value) :
    Secures (s3Step Hashing.sha256 outages) (EvidenceInvariant days evaluation arbitration)
      (Published outages value) (publishDay days models value) w := by
  have hinside := days.inside value hdate
  have hout : outages → ∀ w' : Bucket EvidenceKey (Json D),
      Published outages value (.error .captureStoreUnavailable) w' :=
    fun hout _ => .inr ⟨hout, rfl⟩
  simp only [publishDay, publishPromotionEvidence, hpolicies.gate_resolved value hinside,
    hpolicies.arbitration_resolved value hinside, raised_ok_bind]
  apply publishSessionEvidence_secures hinvariant hdate horder _ hout
  intro published w' hpublished
  obtain ⟨sessions, hsessions, hcohort⟩ :=
    loadSessionEvidence_cohort hmodels hpublished.1.toStoresSessions hdate
  have hvisible : ¬sessions.get value ≠ some (days.session value) :=
    not_not.mpr (hcohort.get hdate hpublished.2)
  obtain ⟨report, hreport⟩ := evaluatePromotionGate_total
    (hcohort.promotionCohort hpolicies hdate hpublished.2) hpolicies.tier hpolicies.names
  rw [secures_bind]
  apply loadSessionEvidence_inspects _ _ hpublished.1
  · rw [hsessions, proceeds_ok, if_neg hvisible, hpolicies.evaluation_resolved value hinside,
      raised_ok_bind, hreport, raised_ok_bind]
    apply publishGateEvidence_secures hpublished hdate hcohort hreport _ hout
    intro stored w'' hnext hgate
    exact ⟨hnext, .inl ⟨⟨_, rfl⟩, hgate⟩⟩
  · rintro error ⟨hfails, rfl⟩
    exact hout hfails _

end

/-! ## Any number of publications -/

/-- Buckets that publications in order lead to, each of them cut off anywhere. -/
inductive PublishedInOrder (days : CertifiedDays D configuration gate)
    (models : EvidenceModels (Json D) D) : Bucket EvidenceKey (Json D) → Prop
  | empty : PublishedInOrder days models Bucket.empty
  | run {w w' : Bucket EvidenceKey (Json D)} {value : Day}
      (hbefore : PublishedInOrder days models w) (hdate : value ∈ days.dates)
      (horder : InOrder days w value)
      (hvisits : Visits (s3Step Hashing.sha256 True) (publishDay days models value) w w') :
      PublishedInOrder days models w'

theorem PublishedInOrder.invariant {models : EvidenceModels (Json D) D}
    (hpolicies : GatePolicies configuration gate evaluation arbitration)
    (hmodels : ReadsBack days models) (h : PublishedInOrder days models w) :
    EvidenceInvariant days evaluation arbitration w := by
  induction h with
  | empty => exact EvidenceInvariant.empty
  | run _ hdate horder hvisits ih =>
      exact (publishDay_secures hpolicies hmodels ih hdate horder).visits hvisits

/-- **Publication in order is retry-safe.**  While the service answers, every publication
of a date that is in order succeeds and stores its gate, whatever earlier ones were cut
off; and each stored gate equals the evaluation of the same-lineage sessions stored up
to its date, as any reader loads them, under the policies of every date of the gate. -/
theorem publication_retry_safe {models : EvidenceModels (Json D) D}
    (hforce : gate.InForce configuration) (hmodels : ReadsBack days models)
    (h : PublishedInOrder days models w) :
    (∀ value ∈ days.dates, InOrder days w value →
      (∃ result last, Returns (s3Step Hashing.sha256 False) (publishDay days models value) w
        result last) ∧
      ∀ result last, Returns (s3Step Hashing.sha256 False) (publishDay days models value) w
        result last → (∃ publication, result = .ok (some publication)) ∧
          last.find (.gate value) ≠ none) ∧
    ∃ evaluation arbitration, GatePolicies configuration gate evaluation arbitration ∧
      ∀ value body, w.find (.gate value) = some body → value ∈ days.dates ∧
        ∃ sessions report, CohortOf days w value sessions ∧
          loadSessionEvidence (bucketReader w) models gate value (some (days.session value)) =
            .ok sessions ∧
          evaluatePromotionGate sessions evaluation gate arbitration = .ok report ∧
          body = report.modelDump := by
  obtain ⟨evaluation, arbitration, hpolicies⟩ := hforce.policies
  have hinvariant := h.invariant hpolicies hmodels
  constructor
  · intro value hdate horder
    refine ⟨exists_returns s3Step_total _ w, ?_⟩
    intro result last hreturns
    rcases (publishDay_secures hpolicies hmodels hinvariant hdate horder).returns hreturns with
      hpublished | ⟨hfails, -⟩
    · exact hpublished
    · exact absurd hfails not_false
  · refine ⟨evaluation, arbitration, hpolicies, ?_⟩
    intro value body hbody
    obtain ⟨hdate, -, sessions, report, hcohort, hreport, hsame⟩ :=
      hinvariant.gates value body hbody
    obtain ⟨loaded, hloaded, hcohort'⟩ :=
      loadSessionEvidence_cohort hmodels hinvariant.toStoresSessions hdate
    obtain rfl := hcohort.unique hcohort'
    exact ⟨hdate, sessions, report, hcohort, hloaded, hreport, hsame⟩

/-! ## Two rehearsed days

2026-10-12 and the day after it, under the repository's configuration, on which the
arbitration selected nothing. -/

namespace Rehearsal

private theorem quietEvaluation_valid (strategy : BaselineName) {symbol : String}
    (h : isSymbolName symbol = true) :
    AllHold (ArbitratedEvaluation.checks "session" ⟨strategy, symbol, 300, 0, 0, 0, none⟩) := by
  rw [ArbitratedEvaluation.allHold_checks]
  have hhorizon : 1 ≤ 300 := by decide
  exact ⟨h, hhorizon, le_rfl, le_rfl, by simp⟩

private theorem vhm_valid : isSymbolName "VHM" = true := by decide

private theorem vic_valid : isSymbolName "VIC" = true := by decide

private def quietPair (strategy : BaselineName) : List ArbitratedSessionEvaluation :=
  [⟨⟨strategy, "VHM", 300, 0, 0, 0, none⟩, quietEvaluation_valid strategy vhm_valid⟩,
    ⟨⟨strategy, "VIC", 300, 0, 0, 0, none⟩, quietEvaluation_valid strategy vic_valid⟩]

def quietAuditFields (value : Day) : ShadowArbitrationAuditReportFields Spelled where
  tradeDate := value
  baselineVersion := "buy-first-baselines-v3"
  arbitrationVersion := Trading.candidateArbitration.version
  arbitrationConfigurationSha256 := Trading.candidateArbitration.sha256
  streamSessionIds := ["session"]
  captureEvidenceSha256 := .num value
  captureMessageCount := 1
  gapCount := 0
  manifestSha256 := .num 1
  candidateCount := 6
  candidateSha256 := .num 2
  arbitrationCount := 6
  arbitrationSha256 := .num 3

private theorem quietAudit_valid (value : Day) : AllHold (quietAuditFields value).checks := by
  have hversions : isVersionName "buy-first-baselines-v3" = true ∧
      isVersionName Trading.candidateArbitration.version = true := by decide
  simp only [ShadowArbitrationAuditReportFields.checks, quietAuditFields, allHold_cons,
    allHold_nil]
  exact ⟨hversions.1, hversions.2, rfl, rfl, trivial⟩

def quietAudit (value : Day) : ShadowArbitrationAuditReport Spelled :=
  ⟨quietAuditFields value, quietAudit_valid value⟩

def quietSessionFields (value : Day) : ArbitratedSessionReportFields Spelled where
  tradeDate := value
  baselineVersion := "buy-first-baselines-v3"
  arbitrationVersion := Trading.candidateArbitration.version
  arbitrationConfigurationSha256 := Trading.candidateArbitration.sha256
  featureConfigurationSha256 := .num 4
  contextConfigurationSha256 := .num 5
  outcomeConfigurationSha256 := .num 6
  costPolicySha256 := .num 7
  costAssumptionsSha256 := none
  captureEvidenceSha256 := .num value
  shadowAuditSha256 := (quietAudit value).sha256
  captureGapCount := 0
  evaluations :=
    quietPair .meanReversion ++ quietPair .momentumPullback ++ quietPair .vicVhmRelative

private theorem quietPairs_ordered : ((quietPair .meanReversion ++ quietPair .momentumPullback ++
    quietPair .vicVhmRelative).map (·.key)).Pairwise TargetKey.before := by decide

private theorem quietSession_valid (value : Day) : AllHold (quietSessionFields value).checks := by
  have hversions : isVersionName "buy-first-baselines-v3" = true ∧
      isVersionName Trading.candidateArbitration.version = true := by decide
  simp only [ArbitratedSessionReportFields.checks, ArbitratedSessionReportFields.keys,
    quietSessionFields, allHold_cons, allHold_nil]
  exact ⟨hversions.1, hversions.2, rfl, decide_eq_true quietPairs_ordered, trivial⟩

def quietSession (value : Day) : ArbitratedSessionReport Spelled :=
  ⟨quietSessionFields value, quietSession_valid value⟩

def earlyDay : Day := 20738

def lateDay : Day := 20739

private theorem quietDays_inside (value : Day) (h : value = earlyDay ∨ value = lateDay) :
    Trading.promotionGate.contains value = true := by
  rcases h with rfl | rfl <;> decide

private theorem quietDays_recorded (value : Day) (h : value = earlyDay ∨ value = lateDay)
    (arbitration : CandidateArbitrationVersion)
    (harbitration : Trading.configuration.resolveCandidateArbitration value =
      .ok (some arbitration)) : arbitration = Trading.candidateArbitration := by
  have hcontains : Trading.candidateArbitration.contains value = true := by
    rcases h with rfl | rfl <;> decide
  have hresolved : Trading.configuration.resolveCandidateArbitration value =
      .ok (some Trading.candidateArbitration) :=
    resolveOptional_of_contains Trading.configuration.arbitrations_family
      (List.mem_singleton_self _) hcontains
  rw [hresolved] at harbitration
  exact (Option.some.inj (Except.ok.inj harbitration)).symm

def quietDays : CertifiedDays Spelled Trading.configuration Trading.promotionGate where
  dates := {value | value = earlyDay ∨ value = lateDay}
  audit := quietAudit
  session := quietSession
  inside := quietDays_inside
  audit_dated := fun _ _ => rfl
  session_dated := fun _ _ => rfl
  audited := fun _ _ => rfl
  arbitrated := fun _ _ => rfl
  recorded := fun value hvalue arbitration h =>
    quietDays_recorded value hvalue arbitration h ▸ ⟨rfl, rfl⟩
  targets := fun _ _ => rfl

/-- The models as they read the objects of the two days. -/
def quietModels : EvidenceModels (Json Spelled) Spelled where
  audit value :=
    if value = (quietAudit earlyDay).modelDump then .ok (quietAudit earlyDay)
    else if value = (quietAudit lateDay).modelDump then .ok (quietAudit lateDay)
    else .error (.fieldError "trade_date")
  session value :=
    if value = (quietSession earlyDay).modelDump then .ok (quietSession earlyDay)
    else if value = (quietSession lateDay).modelDump then .ok (quietSession lateDay)
    else .error (.fieldError "trade_date")
  gate _ := .error (.fieldError "gate_version")

theorem quietModels_readsBack : ReadsBack quietDays quietModels := by
  have hapart : (quietSession lateDay).modelDump ≠ (quietSession earlyDay).modelDump := by
    intro h
    have hdates := (Json.arr_inj.mp h)
    simp [quietSession, quietSessionFields, earlyDay, lateDay] at hdates
  rintro value (rfl | rfl)
  · show quietModels.session (quietSession earlyDay).modelDump = .ok (quietSession earlyDay)
    simp only [quietModels, if_true]
  · show quietModels.session (quietSession lateDay).modelDump = .ok (quietSession lateDay)
    simp only [quietModels, if_neg hapart, if_true]

theorem promotionGate_inForce : Trading.promotionGate.InForce Trading.configuration := by
  refine ⟨List.mem_singleton_self _, ?_⟩
  intro value hvalue
  have hafter := (EffectiveVersion.contains_iff.mp hvalue).1
  refine ⟨⟨Trading.promotionEvaluation, ?_, rfl, rfl, ?_⟩, Trading.candidateArbitration,
    List.mem_singleton_self _, rfl, ?_⟩
  · exact List.mem_cons_of_mem _ (List.mem_singleton_self _)
  · exact EffectiveVersion.contains_after (by decide) rfl hafter
  · exact EffectiveVersion.contains_after (by decide) rfl hafter

/-- A publication that is answered throughout. -/
def published (value : Day) (w : Bucket EvidenceKey (Json Spelled)) :
    Except Raised (Option (PromotionEvidencePublication Spelled)) ×
      Bucket EvidenceKey (Json Spelled) :=
  (publishDay quietDays quietModels value).run (s3Answer Hashing.sha256) w

theorem published_returns {outages : Prop} (value : Day) (w : Bucket EvidenceKey (Json Spelled)) :
    Returns (s3Step Hashing.sha256 outages) (publishDay quietDays quietModels value) w
      (published value w).1 (published value w).2 :=
  Prog.run_returns s3Answer_step

end Rehearsal

open Rehearsal in
/-- The first day is published and then published again. -/
theorem publication_retry_safe_rehearsal : ∃ w publication last,
    PublishedInOrder quietDays quietModels w ∧ w.find (.gate earlyDay) ≠ none ∧
      Returns (s3Step Hashing.sha256 False) (publishDay quietDays quietModels earlyDay) w
        (.ok (some publication)) last := by
  have hearly : earlyDay ∈ quietDays.dates := .inl rfl
  have hempty : InOrder quietDays Bucket.empty earlyDay := fun _ _ _ _ _ => rfl
  obtain ⟨hretry, -⟩ :=
    publication_retry_safe promotionGate_inForce quietModels_readsBack .empty
  have hgate := ((hretry earlyDay hearly hempty).2 _ _ (published_returns earlyDay _)).2
  have hfirst : PublishedInOrder quietDays quietModels (published earlyDay Bucket.empty).2 :=
    .run .empty hearly hempty (published_returns earlyDay _).visits
  have hstored : (published earlyDay Bucket.empty).2.find (sessionKey earlyDay) ≠ none := by
    decide +kernel
  obtain ⟨hagain, -⟩ := publication_retry_safe promotionGate_inForce quietModels_readsBack hfirst
  have hreturns := @published_returns False earlyDay (published earlyDay Bucket.empty).2
  obtain ⟨⟨publication, hpublication⟩, -⟩ :=
    (hagain earlyDay hearly fun hnone => absurd hnone hstored).2 _ _ hreturns
  rw [hpublication] at hreturns
  exact ⟨_, publication, _, hfirst, hgate, hreturns⟩

open Rehearsal in
/-- **Out of order.**  The later day is published before the earlier one: repeating it
conflicts with its own gate, which its sessions no longer evaluate to. -/
theorem publication_out_of_order : ∃ late both last publication publication' sessions report,
    Returns (s3Step Hashing.sha256 False) (publishDay quietDays quietModels lateDay) Bucket.empty
      (.ok (some publication)) late ∧
    Returns (s3Step Hashing.sha256 False) (publishDay quietDays quietModels earlyDay) late
      (.ok (some publication')) both ∧
    Returns (s3Step Hashing.sha256 False) (publishDay quietDays quietModels lateDay) both
      (.error (S3CaptureStore.conflict (EvidenceKey.gate lateDay))) last ∧
    loadSessionEvidence (bucketReader both) quietModels Trading.promotionGate lateDay
      (some (quietSession lateDay)) = .ok sessions ∧
    evaluatePromotionGate sessions Trading.promotionEvaluation Trading.promotionGate
      Trading.candidateArbitration = .ok report ∧
    both.find (.gate lateDay) ≠ some report.modelDump := by
  let late := published lateDay Bucket.empty
  let both := published earlyDay late.2
  obtain ⟨publication, hlate⟩ : ∃ publication, late.1 = .ok (some publication) := by
    have hsome : (late.1.toOption.bind id).isSome := by decide +kernel
    obtain ⟨publication, h⟩ := Option.isSome_iff_exists.mp hsome
    obtain ⟨found, hfound, rfl⟩ := Option.bind_eq_some_iff.mp h
    exact ⟨publication, toOption_eq_some.mp hfound⟩
  obtain ⟨publication', hboth⟩ : ∃ publication, both.1 = .ok (some publication) := by
    have hsome : (both.1.toOption.bind id).isSome := by decide +kernel
    obtain ⟨publication, h⟩ := Option.isSome_iff_exists.mp hsome
    obtain ⟨found, hfound, rfl⟩ := Option.bind_eq_some_iff.mp h
    exact ⟨publication, toOption_eq_some.mp hfound⟩
  have hagain : (published lateDay both.2).1 =
      .error (S3CaptureStore.conflict (EvidenceKey.gate lateDay)) := by decide +kernel
  have hstale : ((loadSessionEvidence (bucketReader both.2) quietModels Trading.promotionGate
      lateDay (some (quietSession lateDay))).toOption.bind fun sessions =>
        (evaluatePromotionGate sessions Trading.promotionEvaluation Trading.promotionGate
          Trading.candidateArbitration).toOption).any (fun report =>
            both.2.find (.gate lateDay) ≠ some report.modelDump) = true := by decide +kernel
  obtain ⟨report, hreport, hdiffers⟩ := (Option.any_eq_true _ _).mp hstale
  obtain ⟨sessions, hsessions, hevaluated⟩ := Option.bind_eq_some_iff.mp hreport
  refine ⟨late.2, both.2, (published lateDay both.2).2, publication, publication', sessions, report,
    ?_, ?_, ?_, toOption_eq_some.mp hsessions, toOption_eq_some.mp hevaluated, by simpa using hdiffers⟩
  · rw [← hlate]
    exact published_returns lateDay _
  · rw [← hboth]
    exact published_returns earlyDay _
  · rw [← hagain]
    exact published_returns lateDay _

end MiniLakehouse
