import MiniLakehouse.Capture.Store
import MiniLakehouse.Configuration.References
import MiniLakehouse.Promotion.Publication
import MiniLakehouse.Promotion.Totality

/-!
# Stored cohorts

The promotion evidence in a bucket.  `CertifiedDays` are dates inside one gate
with the evidence that their certified captures lead to, `CohortOf` is what a
bucket holds of them for an as-of date, and `loadSessionEvidence` finds exactly
that (`loadSessionEvidence_cohort`).
-/

namespace MiniLakehouse

instance : ToString EvidenceKey := ⟨EvidenceKey.text⟩

/-- Below the prefix that a cohort is listed under. -/
def EvidenceKey.underSessions (key : EvidenceKey) : Bool :=
  (promotionEvidencePrefix ++ "/sessions/").toList.isPrefixOf key.text.toList

theorem sessionKey_underSessions (tradeDate : Day) :
    (sessionKey tradeDate).underSessions = true := by
  rw [EvidenceKey.underSessions, List.isPrefixOf_iff_prefix]
  have hlabel : "/sessions/trade_date=".toList = "/sessions/".toList ++ "trade_date=".toList := by
    decide
  simp only [sessionKey, EvidenceKey.text, String.toList_append, hlabel, List.append_assoc]
  rw [← List.append_assoc]
  exact List.prefix_append _ _

section

variable {D : Type} [Hashing D]

/-- A program over the bucket of the promotion evidence. -/
abbrev EvidenceProg (D α : Type) := S3Prog EvidenceKey (Json D) D α

/-- The landing bucket as a store of promotion evidence. -/
def s3EvidenceStore : PromotionEvidencePublisher (EvidenceProg D) (Json D) D where
  readJson := S3CaptureStore.readJson Hashing.sha256 .ok
  listKeys := S3CaptureStore.listKeys EvidenceKey.underSessions (sortOn EvidenceKey.text)
  putJson := S3CaptureStore.put Hashing.sha256

/-- What a reader of the bucket finds. -/
def bucketReader (bucket : Bucket EvidenceKey (Json D)) :
    PromotionEvidenceStore (Except Raised) (Json D) where
  readJson := S3CaptureStore.found .ok bucket
  listKeys := .ok (S3CaptureStore.listed EvidenceKey.underSessions (sortOn EvidenceKey.text) bucket)

variable {models : EvidenceModels (Json D) D} {outages : Prop}
  {w : Bucket EvidenceKey (Json D)}

theorem raised_inspects {α : Type} (result : Except Raised α) :
    Inspects (s3Step Hashing.sha256 outages) (S3CaptureStore.Unreachable outages)
      (raised result : EvidenceProg D α) w (raised result) := by
  cases result with
  | ok a => exact Inspects.pure a
  | error error => exact Inspects.throw error

theorem loadSessionKey_inspects {gate : PromotionGateVersion} {asOfDate : Day}
    {reference : Option (ArbitratedSessionReport D)} {sessions : SessionEvidence D}
    {key : EvidenceKey} :
    Inspects (s3Step Hashing.sha256 outages) (S3CaptureStore.Unreachable outages)
      (loadSessionKey s3EvidenceStore.toPromotionEvidenceStore models gate asOfDate reference
        sessions key) w
      (loadSessionKey (bucketReader w) models gate asOfDate reference sessions key) := by
  cases key with
  | session keyDate dot =>
      simp only [loadSessionKey]
      split
      · exact Inspects.pure sessions
      · apply Inspects.bind S3CaptureStore.readJson_inspects
        intro found _
        cases found with
        | none => exact Inspects.throw _
        | some value =>
            refine Inspects.bind (raised_inspects (models.session value)) ?_
            intro report _
            split
            · exact Inspects.throw _
            · split
              · exact Inspects.pure sessions
              · split
                · exact Inspects.pure _
                · exact Inspects.throw _
  | misdated text => exact Inspects.throw _
  | shadowAudit tradeDate => exact Inspects.pure sessions
  | gate asOfDate => exact Inspects.pure sessions
  | other text => exact Inspects.pure sessions

/-- Loading a cohort reads the bucket and leaves it as it is. -/
theorem loadSessionEvidence_inspects {gate : PromotionGateVersion} {asOfDate : Day}
    {reference : Option (ArbitratedSessionReport D)} :
    Inspects (s3Step Hashing.sha256 outages) (S3CaptureStore.Unreachable outages)
      (loadSessionEvidence s3EvidenceStore.toPromotionEvidenceStore models gate asOfDate
        reference) w
      (loadSessionEvidence (bucketReader w) models gate asOfDate reference) := by
  unfold loadSessionEvidence
  split
  · exact Inspects.throw _
  · apply Inspects.bind S3CaptureStore.listKeys_inspects
    intro keys _
    apply Inspects.bind (Inspects.foldlM fun s x _ => loadSessionKey_inspects)
    intro sessions _
    exact Inspects.pure _

end

/-! ## The policies of a gate -/

/-- On every date of a gate the policies that it references are effective. -/
def PromotionGateVersion.InForce (gate : PromotionGateVersion)
    (configuration : TradingConfiguration) : Prop :=
  gate ∈ configuration.promotionGates ∧ ∀ value, gate.contains value →
    (∃ evaluation ∈ configuration.baselineEvaluations, evaluation.tier = .promotion ∧
      evaluation.version = gate.evaluationVersion ∧ evaluation.contains value) ∧
    ∃ arbitration ∈ configuration.candidateArbitrations,
      arbitration.version = gate.arbitrationVersion ∧ arbitration.contains value

/-- The policies that are resolved on all dates of a gate. -/
structure GatePolicies (configuration : TradingConfiguration) (gate : PromotionGateVersion)
    (evaluation : BaselineEvaluationVersion) (arbitration : CandidateArbitrationVersion) :
    Prop where
  tier : evaluation.tier = .promotion
  names : gate.evaluationVersion = evaluation.version ∧
    gate.arbitrationVersion = arbitration.version
  evaluation_contains : ∀ value, gate.contains value → evaluation.contains value
  arbitration_contains : ∀ value, gate.contains value → arbitration.contains value
  gate_resolved : ∀ value, gate.contains value →
    configuration.resolvePromotionGate value = .ok (some gate)
  arbitration_resolved : ∀ value, gate.contains value →
    configuration.resolveCandidateArbitration value = .ok (some arbitration)
  evaluation_resolved : ∀ value, gate.contains value →
    configuration.resolveBaselineEvaluation value .promotion = .ok evaluation

theorem EffectiveVersion.contains_effectiveFrom (item : EffectiveVersion) :
    item.contains item.effectiveFrom :=
  EffectiveVersion.contains_iff.mpr ⟨le_rfl, item.interval_ordered⟩

/-- Policies are found by their names, so that they are the same on all dates. -/
theorem PromotionGateVersion.InForce.policies {gate : PromotionGateVersion}
    {configuration : TradingConfiguration} (h : gate.InForce configuration) :
    ∃ evaluation arbitration, GatePolicies configuration gate evaluation arbitration := by
  obtain ⟨hgate, hforce⟩ := h
  obtain ⟨⟨evaluation, hevaluation, htier, hevaluationName, -⟩, arbitration, harbitration,
    harbitrationName, -⟩ := hforce _ gate.contains_effectiveFrom
  have hevaluationContains : ∀ value, gate.contains value → evaluation.contains value := by
    intro value hvalue
    obtain ⟨⟨found, hfound, -, hname, hcontains⟩, -⟩ := hforce value hvalue
    obtain rfl := eq_of_key_eq (·.version) configuration.evaluations_named hevaluation hfound
      (hevaluationName.trans hname.symm)
    exact hcontains
  have harbitrationContains : ∀ value, gate.contains value → arbitration.contains value := by
    intro value hvalue
    obtain ⟨-, found, hfound, hname, hcontains⟩ := hforce value hvalue
    obtain rfl := eq_of_key_eq (·.version) configuration.arbitrations_named harbitration hfound
      (harbitrationName.trans hname.symm)
    exact hcontains
  refine ⟨evaluation, arbitration, ?_⟩
  constructor
  case tier => exact htier
  case names => exact ⟨hevaluationName.symm, harbitrationName.symm⟩
  case evaluation_contains => exact hevaluationContains
  case arbitration_contains => exact harbitrationContains
  case gate_resolved =>
    intro value hvalue
    exact resolveOptional_of_contains configuration.gates_family hgate hvalue
  case arbitration_resolved =>
    intro value hvalue
    exact resolveOptional_of_contains configuration.arbitrations_family harbitration
      (harbitrationContains value hvalue)
  case evaluation_resolved =>
    intro value hvalue
    exact resolveEffective_of_contains (configuration.evaluations_family .promotion)
      (List.mem_filter.mpr ⟨hevaluation, decide_eq_true htier⟩) (hevaluationContains value hvalue)

/-! ## Certified days -/

section

variable {D : Type} [Hashing D] {configuration : TradingConfiguration}
  {gate : PromotionGateVersion} {evaluation : BaselineEvaluationVersion}
  {arbitration : CandidateArbitrationVersion}

/-- Dates inside one gate with the audit and the session of each certified capture, and what
`audit_shadow_journal` and `evaluate_arbitrated_session` have checked of them. -/
structure CertifiedDays (D : Type) [Hashing D] (configuration : TradingConfiguration)
    (gate : PromotionGateVersion) where
  dates : Set Day
  audit : Day → ShadowArbitrationAuditReport D
  session : Day → ArbitratedSessionReport D
  inside : ∀ value ∈ dates, gate.contains value
  audit_dated : ∀ value ∈ dates, (audit value).tradeDate = value
  session_dated : ∀ value ∈ dates, (session value).tradeDate = value
  audited : ∀ value ∈ dates, (session value).shadowAuditSha256 = (audit value).sha256
  arbitrated : ∀ value ∈ dates, (session value).arbitrationVersion = gate.arbitrationVersion
  recorded : ∀ value ∈ dates, ∀ arbitration,
    configuration.resolveCandidateArbitration value = .ok (some arbitration) →
      (session value).arbitrationConfigurationSha256 = arbitration.sha256 ∧
        (session value).baselineVersion = arbitration.candidateVersion
  targets : ∀ value ∈ dates, (session value).keys = gate.targets.map (·.key)

/-- The sessions of a lineage that a bucket holds up to an as-of date, in date order. -/
structure CohortOf (days : CertifiedDays D configuration gate)
    (bucket : Bucket EvidenceKey (Json D)) (asOfDate : Day) (sessions : SessionEvidence D) :
    Prop where
  ascending : (sessions.entries.map Prod.fst).Pairwise (· < ·)
  holds : ∀ value report, (value, report) ∈ sessions.entries ↔
    value ∈ days.dates ∧ bucket.find (sessionKey value) ≠ none ∧ value ≤ asOfDate ∧
      report = days.session value ∧
      report.researchLineage = (days.session asOfDate).researchLineage

namespace CohortOf

variable {days : CertifiedDays D configuration gate} {w w' : Bucket EvidenceKey (Json D)}
  {asOfDate : Day} {sessions sessions' : SessionEvidence D}

theorem ordered (h : CohortOf days w asOfDate sessions) : sessions.ordered = sessions.entries := by
  have hascending := List.pairwise_map.mp h.ascending
  exact (hascending.imp le_of_lt).insertionSort_eq

/-- There is one cohort at most. -/
theorem unique (h : CohortOf days w asOfDate sessions)
    (h' : CohortOf days w asOfDate sessions') : sessions = sessions' := by
  have hperm : sessions.entries.Perm sessions'.entries := by
    rw [List.perm_ext_iff_of_nodup sessions.dates_unique.of_map sessions'.dates_unique.of_map]
    rintro ⟨value, report⟩
    rw [h.holds, h'.holds]
  have hsame : sessions.entries = sessions'.entries := by
    rw [← h.ordered, ← h'.ordered]
    exact sortOn_eq_of_perm hperm sessions.dates_unique
  cases sessions
  cases sessions'
  cases hsame
  rfl

/-- A session of a later date or another lineage is not part of it. -/
theorem congr (h : CohortOf days w asOfDate sessions)
    (hsame : ∀ value ∈ days.dates, value ≤ asOfDate →
      (days.session value).researchLineage = (days.session asOfDate).researchLineage →
      (w.find (sessionKey value) ≠ none ↔ w'.find (sessionKey value) ≠ none)) :
    CohortOf days w' asOfDate sessions := by
  refine ⟨h.ascending, ?_⟩
  intro value report
  rw [h.holds]
  constructor
  · rintro ⟨hdate, hstored, hbefore, rfl, hlineage⟩
    exact ⟨hdate, (hsame value hdate hbefore hlineage).mp hstored, hbefore, rfl, hlineage⟩
  · rintro ⟨hdate, hstored, hbefore, rfl, hlineage⟩
    exact ⟨hdate, (hsame value hdate hbefore hlineage).mpr hstored, hbefore, rfl, hlineage⟩

theorem get (h : CohortOf days w asOfDate sessions) (hdate : asOfDate ∈ days.dates)
    (hstored : w.find (sessionKey asOfDate) ≠ none) :
    sessions.get asOfDate = some (days.session asOfDate) := by
  have hmem : (asOfDate, days.session asOfDate) ∈ sessions.entries :=
    (h.holds _ _).mpr ⟨hdate, hstored, le_rfl, rfl, rfl⟩
  rw [← h.ordered] at hmem
  exact SessionEvidence.get_of_mem hmem

/-- The cohort of a stored session can be evaluated under the policies of the gate. -/
theorem promotionCohort (h : CohortOf days w asOfDate sessions)
    (hpolicies : GatePolicies configuration gate evaluation arbitration)
    (hdate : asOfDate ∈ days.dates) (hstored : w.find (sessionKey asOfDate) ≠ none) :
    PromotionCohort evaluation gate arbitration sessions := by
  have hall : ∀ entry ∈ sessions.ordered, entry.1 ∈ days.dates ∧
      entry.2 = days.session entry.1 ∧
      entry.2.researchLineage = (days.session asOfDate).researchLineage := by
    intro entry hentry
    rw [h.ordered] at hentry
    obtain ⟨hvalue, -, -, hreport, hlineage⟩ := (h.holds entry.1 entry.2).mp hentry
    exact ⟨hvalue, hreport, hlineage⟩
  constructor
  case nonempty =>
    exact List.ne_nil_of_mem ((h.holds _ _).mpr ⟨hdate, hstored, le_rfl, rfl, rfl⟩)
  case recorded =>
    intro entry hentry
    obtain ⟨hvalue, hreport, -⟩ := hall entry hentry
    have hinside := days.inside _ hvalue
    obtain ⟨hsha, hbaseline⟩ :=
      days.recorded _ hvalue _ (hpolicies.arbitration_resolved _ hinside)
    rw [MatchesPolicies, hreport]
    exact ⟨days.session_dated _ hvalue, hpolicies.evaluation_contains _ hinside,
      hpolicies.arbitration_contains _ hinside,
      (days.arbitrated _ hvalue).trans hpolicies.names.2, hbaseline, hsha⟩
  case lineage =>
    intro entry hentry other hother
    rw [(hall entry hentry).2.2, (hall other hother).2.2]
  case targets =>
    intro entry hentry
    obtain ⟨hvalue, hreport, -⟩ := hall entry hentry
    rw [hreport]
    exact days.targets _ hvalue

end CohortOf

/-! ## Loading -/

/-- The session reports of a bucket are those of the certified days. -/
structure StoresSessions (days : CertifiedDays D configuration gate)
    (bucket : Bucket EvidenceKey (Json D)) : Prop where
  sessions : ∀ value dot body, bucket.find (.session value dot) = some body →
    dot = '.' ∧ value ∈ days.dates ∧ body = (days.session value).modelDump
  misdated : ∀ text, bucket.find (.misdated text) = none

/-- The stored session reports are read as they were written. -/
def ReadsBack (days : CertifiedDays D configuration gate) (models : EvidenceModels (Json D) D) :
    Prop :=
  ∀ value ∈ days.dates, models.session (days.session value).modelDump = .ok (days.session value)

section

variable {days : CertifiedDays D configuration gate} {models : EvidenceModels (Json D) D}
  {w : Bucket EvidenceKey (Json D)} {asOfDate : Day}

/-- What the loop adds for one key. -/
def AddsSession (days : CertifiedDays D configuration gate) (asOfDate : Day) (value : Day)
    (report : ArbitratedSessionReport D) : Prop :=
  value ≤ asOfDate ∧ report = days.session value ∧
    report.researchLineage = (days.session asOfDate).researchLineage

theorem loadSessionKey_session (hmodels : ReadsBack days models) (hstores : StoresSessions days w)
    {sessions : SessionEvidence D} {value : Day} {dot : Char}
    (hstored : w.find (.session value dot) ≠ none)
    (hfresh : value ∉ sessions.entries.map Prod.fst) :
    ∃ next, loadSessionKey (bucketReader w) models gate asOfDate (some (days.session asOfDate))
        sessions (.session value dot) = .ok next ∧
      ∀ other report, (other, report) ∈ next.entries ↔
        (other, report) ∈ sessions.entries ∨ other = value ∧ AddsSession days asOfDate value report := by
  obtain ⟨body, hbody⟩ := Option.ne_none_iff_exists'.mp hstored
  obtain ⟨rfl, hdate, rfl⟩ := hstores.sessions value dot body hbody
  have hinside : gate.contains value = true := days.inside value hdate
  have hdated : (days.session value).tradeDate = value := days.session_dated value hdate
  have hread : (bucketReader w).readJson (.session value '.') =
      .ok (some (days.session value).modelDump) := by
    simp only [bucketReader, S3CaptureStore.found, hbody]
    rfl
  by_cases hafter : asOfDate < value
  · refine ⟨sessions, ?_, ?_⟩
    · rw [loadSessionKey, if_pos (.inl hafter)]
      rfl
    · intro other report
      have hnot : ¬AddsSession days asOfDate value report := fun h => not_le.mpr hafter h.1
      simp [hnot]
  · have hskip : ¬(asOfDate < value ∨ gate.contains value = false) := by
      rw [hinside]
      simpa using hafter
    by_cases hlineage : (days.session value).researchLineage =
        (days.session asOfDate).researchLineage
    · refine ⟨sessions.insert value (days.session value) hfresh, ?_, ?_⟩
      · simp only [loadSessionKey, if_neg hskip, hread, ok_bind, raised, hmodels value hdate,
          pure_bind, hdated]
        simp [hlineage, hfresh]
      · intro other report
        simp only [SessionEvidence.insert, List.mem_append, List.mem_singleton, Prod.mk.injEq]
        constructor
        · rintro (hold | ⟨rfl, rfl⟩)
          · exact .inl hold
          · exact .inr ⟨rfl, not_lt.mp hafter, rfl, hlineage⟩
        · rintro (hold | ⟨rfl, -, rfl, -⟩)
          · exact .inl hold
          · exact .inr ⟨rfl, rfl⟩
    · refine ⟨sessions, ?_, ?_⟩
      · have hother : ¬(days.session asOfDate).researchLineage =
            (days.session value).researchLineage := fun h => hlineage h.symm
        simp only [loadSessionKey, if_neg hskip, hread, ok_bind, raised, hmodels value hdate,
          pure_bind, hdated]
        simp [hother]
      · intro other report
        have hnot : ¬AddsSession days asOfDate value report := by
          rintro ⟨-, rfl, hsame⟩
          exact hlineage hsame
        simp [hnot]

/-- **The loop over a listing** admits the sessions of the lineage, each once. -/
theorem loadSessionKeys (hmodels : ReadsBack days models) (hstores : StoresSessions days w)
    {keys : List EvidenceKey} {sessions : SessionEvidence D} (hunique : keys.Nodup)
    (hkeys : ∀ key ∈ keys, w.find key ≠ none)
    (hfresh : ∀ value, sessionKey value ∈ keys → value ∉ sessions.entries.map Prod.fst) :
    ∃ result, keys.foldlM (loadSessionKey (bucketReader w) models gate asOfDate
        (some (days.session asOfDate))) sessions = .ok result ∧
      ∀ value report, (value, report) ∈ result.entries ↔ (value, report) ∈ sessions.entries ∨
        sessionKey value ∈ keys ∧ AddsSession days asOfDate value report := by
  induction keys generalizing sessions with
  | nil => exact ⟨sessions, rfl, by simp⟩
  | cons key keys ih =>
      obtain ⟨hnot, hrest⟩ := List.nodup_cons.mp hunique
      have hstored := hkeys key (by simp)
      have hlater : ∀ other ∈ keys, w.find other ≠ none := fun other hother =>
        hkeys other (by simp [hother])
      have hpass : (∀ value, sessionKey value ≠ key) → loadSessionKey (bucketReader w) models gate
          asOfDate (some (days.session asOfDate)) sessions key = .ok sessions →
          ∃ result, (key :: keys).foldlM (loadSessionKey (bucketReader w) models gate asOfDate
            (some (days.session asOfDate))) sessions = .ok result ∧
          ∀ value report, (value, report) ∈ result.entries ↔
            (value, report) ∈ sessions.entries ∨
              sessionKey value ∈ key :: keys ∧ AddsSession days asOfDate value report := by
        intro hother hskip
        obtain ⟨result, hresult, hmem⟩ := ih hrest hlater fun value hvalue =>
          hfresh value (List.mem_cons_of_mem _ hvalue)
        refine ⟨result, by rw [List.foldlM_cons, hskip, ok_bind, hresult], ?_⟩
        intro value report
        rw [hmem, List.mem_cons, or_iff_right (hother value)]
      cases key with
      | session value dot =>
          obtain ⟨body, hbody⟩ := Option.ne_none_iff_exists'.mp hstored
          obtain ⟨rfl, hdate, -⟩ := hstores.sessions value dot body hbody
          obtain ⟨next, hnext, hadded⟩ := loadSessionKey_session hmodels hstores hstored
            (hfresh value (List.mem_cons_self ..))
          have hfreshNext : ∀ other, sessionKey other ∈ keys →
              other ∉ next.entries.map Prod.fst := by
            intro other hother hold
            obtain ⟨⟨found, report⟩, hentry, rfl⟩ := List.mem_map.mp hold
            rcases (hadded found report).mp hentry with hearlier | ⟨rfl, -⟩
            · exact hfresh found (List.mem_cons_of_mem _ hother) (List.mem_map_of_mem hearlier)
            · exact hnot hother
          obtain ⟨result, hresult, hmem⟩ := ih hrest hlater hfreshNext
          refine ⟨result, by rw [List.foldlM_cons, hnext, ok_bind, hresult], ?_⟩
          intro other report
          rw [hmem, hadded, List.mem_cons, or_assoc, or_and_right]
          have hsame : other = value ↔ sessionKey other = .session value '.' := by
            simp [sessionKey]
          constructor
          · rintro (hold | ⟨rfl, hadmits⟩ | hrest)
            · exact .inl hold
            · exact .inr (.inl ⟨rfl, hadmits⟩)
            · exact .inr (.inr hrest)
          · rintro (hold | ⟨hkey, hadmits⟩ | hrest)
            · exact .inl hold
            · obtain rfl := hsame.mpr hkey
              exact .inr (.inl ⟨rfl, hadmits⟩)
            · exact .inr (.inr hrest)
      | misdated text => exact absurd (hstores.misdated text) hstored
      | shadowAudit tradeDate => exact hpass (by simp [sessionKey]) rfl
      | gate asOfDate => exact hpass (by simp [sessionKey]) rfl
      | other text => exact hpass (by simp [sessionKey]) rfl

/-- **Loading finds exactly the stored cohort.** -/
theorem loadSessionEvidence_cohort (hmodels : ReadsBack days models)
    (hstores : StoresSessions days w) (hdate : asOfDate ∈ days.dates) :
    ∃ sessions, loadSessionEvidence (bucketReader w) models gate asOfDate
      (some (days.session asOfDate)) = .ok sessions ∧ CohortOf days w asOfDate sessions := by
  let keys := S3CaptureStore.listed EvidenceKey.underSessions (sortOn EvidenceKey.text) w
  have hperm := sortOn_perm EvidenceKey.text
    ((w.objects.map Prod.fst).filter EvidenceKey.underSessions)
  have hunique : keys.Nodup := hperm.nodup_iff.mpr (w.keys_unique.filter _)
  have hkeys : ∀ key ∈ keys, w.find key ≠ none := by
    intro key hkey hnone
    exact Bucket.find_eq_none.mp hnone (List.mem_filter.mp (hperm.mem_iff.mp hkey)).1
  have hfresh : ∀ value, sessionKey value ∈ keys →
      value ∉ (SessionEvidence.empty : SessionEvidence D).entries.map Prod.fst := by
    intro value _
    exact List.not_mem_nil
  obtain ⟨result, hresult, hmem⟩ :=
    @loadSessionKeys _ _ _ _ days models w asOfDate hmodels hstores _ _ hunique hkeys hfresh
  refine ⟨result.sorted, ?_, ?_⟩
  · have hdated : ¬(some (days.session asOfDate)).any (·.tradeDate ≠ asOfDate) = true := by
      simp [days.session_dated asOfDate hdate]
    have hlisted : (bucketReader w).listKeys = .ok keys := rfl
    rw [loadSessionEvidence, if_neg hdated, hlisted, ok_bind, hresult]
    rfl
  · constructor
    case ascending => exact sortOn_keys_ascending result.dates_unique
    case holds =>
      intro value report
      have hlisted : sessionKey value ∈ keys ↔ w.find (sessionKey value) ≠ none := by
        constructor
        · exact hkeys _
        · intro hstored
          rw [← not_not (a := sessionKey value ∈ keys)]
          intro hnot
          apply hstored
          rw [Bucket.find_eq_none]
          intro hobject
          exact hnot (hperm.mem_iff.mpr
            (List.mem_filter.mpr ⟨hobject, sessionKey_underSessions value⟩))
      have hentry : (value, report) ∈ result.sorted.entries ↔ (value, report) ∈ result.entries :=
        mem_sortOn
      rw [hentry, hmem, hlisted]
      constructor
      · rintro (hold | ⟨hstored, hbefore, rfl, hlineage⟩)
        · exact absurd hold List.not_mem_nil
        · obtain ⟨body, hbody⟩ := Option.ne_none_iff_exists'.mp hstored
          exact ⟨(hstores.sessions _ _ _ hbody).2.1, hstored, hbefore, rfl, hlineage⟩
      · rintro ⟨-, hstored, hbefore, rfl, hlineage⟩
        exact .inr ⟨hstored, hbefore, rfl, hlineage⟩

end

end

end MiniLakehouse
