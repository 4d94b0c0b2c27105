import MsRealty.ReleaseExpiry
import MsRealty.ReleaseSoundness

/-!
# The report that is made

An evaluation checks its report against the schema of reports before it gives it.
The report always passes, but for one check: a release may be accepted in
production only, and a policy none of whose gates is passed after the cutover
lets every gate of a release pass elsewhere (`evaluateRelease_returns`).
-/

namespace Release

variable {host : Host} {input : EvaluationInput}

/-! ## Dates -/

theorem offsetDatetime_toISOText {t : Instant} (hfirst : 0 ≤ t) (hlast : t ≤ IsoInstant.lastInstant) :
    ResendInbox.offsetDatetime (IsoInstant.toISOText t) = some t := by
  unfold ResendInbox.offsetDatetime
  rw [IsoInstant.datetime_toISOText hfirst hlast]

theorem lt_least {t : Instant} {times : List Instant} (hne : times ≠ [])
    (h : ∀ time ∈ times, t < time) : t < least times := by
  cases times with
  | nil => exact absurd rfl hne
  | cons time times => exact lt_foldl_min.mpr (List.forall_mem_cons.mp h)

theorem snapshotMaxAge_of_refined (hpolicy : input.policy.refined = true) :
    0 < input.policy.snapshotMaxAgeMinutes ∧ input.policy.snapshotMaxAgeMinutes ≤ 1440 := by
  simp only [GatePolicy.refined, Bool.and_eq_true, decide_eq_true_iff] at hpolicy
  tauto

/-- **A report expires after it is made.** -/
theorem now_lt_expires (hpolicy : input.policy.refined = true) :
    input.now < input.expires host := by
  have hage := (snapshotMaxAge_of_refined hpolicy).1
  refine lt_least (by simp [expiryTimes]) fun time hmem => ?_
  rw [expiryTimes, List.mem_append, List.mem_cons, List.mem_flatMap] at hmem
  rcases hmem with (rfl | ⟨artifact, hcounted, hmem⟩) | hmem
  · exact lt_add_of_pos_right _ (mul_pos (Int.natCast_pos.mpr hage) (by decide))
  · have hreasons := (Bool.and_eq_true_iff.mp (mem_counted.mp hcounted).2).1
    obtain ⟨type, htype, -, -, -, htimely, -⟩ :=
      assessArtifact_eq_nil.mp (List.isEmpty_iff.mp hreasons)
    rw [htype, List.mem_append, Option.mem_toList, Option.mem_toList] at hmem
    rcases hmem with hmem | hmem
    · obtain ⟨age, hage, rfl⟩ := Option.map_eq_some_iff.mp hmem
      exact htimely.fresh age hage
    · obtain ⟨expires, hexpires, rfl⟩ := Option.map_eq_some_iff.mp hmem
      exact htimely.unexpired expires hexpires
  · split at hmem
    · dsimp only at hmem
      split_ifs at hmem with hlt
      · rwa [List.mem_singleton.mp hmem]
      · cases hmem
    · cases hmem

theorem expires_le : input.expires host
    ≤ input.now + (input.policy.snapshotMaxAgeMinutes : ℤ) * 60000 := by
  refine le_of_not_gt fun hlt => lt_irrefl _ (lt_of_lt_least hlt ?_)
  simp [expiryTimes]

theorem report_datesRefined (hpolicy : input.policy.refined = true) (hnow : 0 ≤ input.now)
    (hexpires : input.expires host ≤ IsoInstant.lastInstant) :
    (input.report host).datesRefined = true := by
  have hlt := @now_lt_expires host input hpolicy
  have hle := @expires_le host input
  have hage := (snapshotMaxAge_of_refined hpolicy).2
  simp only [ReportContent.datesRefined, EvaluationInput.report, String.toList_ofList,
    offsetDatetime_toISOText hnow (hlt.le.trans hexpires),
    offsetDatetime_toISOText (hnow.trans hlt.le) hexpires, decide_eq_true_iff]
  refine ⟨sub_pos.mpr hlt, (sub_le_iff_le_add'.mpr hle).trans ?_⟩
  exact Int.mul_le_mul_of_nonneg_right (Int.ofNat_le.mpr hage) (by decide)

/-! ## Gates -/

theorem reportGates_ids {inputs : GateInputs} {gates : List Gate}
    {statuses : List (GateId × GateStatus)} :
    (reportGates host inputs gates statuses).map ReportedGate.id = gates.map Gate.id := by
  induction gates generalizing statuses with
  | nil => rfl
  | cons gate gates ih => exact congrArg (List.cons gate.id) ih

/-- An artifact that counts is reported as one that does. -/
theorem exists_reported {artifact : EvidenceArtifact} (hmem : artifact ∈ input.counted host) :
    ∃ item ∈ (input.report host).evidence, item.id = some artifact.id
      ∧ item.gate = some artifact.gate ∧ item.counted = true := by
  obtain ⟨item, hitem, hcounted⟩ := List.mem_filterMap.mp hmem
  unfold Assessed.counted at hcounted
  split_ifs at hcounted with hreasons
  exact ⟨reportEvidence host item, List.mem_map_of_mem hitem, by simp [reportEvidence, hcounted],
    by simp [reportEvidence, hcounted], by simp [reportEvidence, hcounted, hreasons]⟩

/-- A gate that nothing blocks has evidence. -/
theorem own_ne_nil (hpolicy : input.policy.refined = true) {gate : Gate}
    (hgate : gate ∈ input.policy.gates) {passed : GateId → Bool}
    (h : gateBlockers host (input.gateInputs host) passed gate = []) :
    (input.gateInputs host).own gate.id ≠ [] := by
  obtain ⟨index, hrefined⟩ := exists_gateRefined hpolicy hgate
  simp only [GatePolicy.gateRefined, Bool.and_eq_true, Bool.not_eq_true', List.isEmpty_eq_false_iff]
    at hrefined
  obtain ⟨type, htype⟩ := List.exists_mem_of_ne_nil _ hrefined.1.2
  simp only [gateBlockers, List.append_eq_nil_iff, List.flatMap_eq_nil_iff, reason_eq_nil,
    Bool.not_eq_false'] at h
  obtain ⟨⟨⟨⟨⟨-, hevidence⟩, -⟩, -⟩, -⟩, -⟩ := h
  obtain ⟨artifact, hmem, -⟩ := List.any_eq_true.mp (hevidence type htype)
  exact List.ne_nil_of_mem hmem

/-- **A gate is reported as the schema asks.** -/
theorem reportGate_refined (hpolicy : input.policy.refined = true) {gate : Gate}
    (hgate : gate ∈ input.policy.gates) (passed : GateId → Bool) :
    (input.report host).gateRefined (reportGate host (input.gateInputs host) passed gate)
      = true := by
  unfold ReportContent.gateRefined
  simp only [Bool.and_eq_true, List.all_eq_true, List.any_eq_true]
  refine ⟨⟨?_, ?_⟩, fun id hid => ?_⟩
  · unfold reportGate
    cases (gateBlockers host (input.gateInputs host) passed gate).isEmpty <;> rfl
  · rw [Bool.or_eq_true, bne_iff_ne, ne_eq, reportGate_status]
    refine or_iff_not_imp_left.mpr fun hpass => ?_
    have hown := own_ne_nil hpolicy hgate (not_not.mp hpass)
    obtain ⟨artifact, hmem⟩ := List.exists_mem_of_ne_nil _ hown
    rw [Bool.not_eq_true', List.isEmpty_eq_false_iff]
    exact List.ne_nil_of_mem
      ((List.mem_insertionSort idLE).mpr (List.mem_map_of_mem hmem))
  · obtain ⟨artifact, hmem, rfl⟩ := List.mem_map.mp ((List.mem_insertionSort idLE).mp hid)
    obtain ⟨hcounted, hgateId⟩ := List.mem_filter.mp hmem
    obtain ⟨item, hitem, hitemId, hitemGate, hitemCounted⟩ := exists_reported hcounted
    refine ⟨item, hitem, ?_⟩
    simp only [hitemId, hitemGate, hitemCounted, beq_iff_eq.mp hgateId, reportGate, beq_self_eq_true,
      and_self]

/-! ## Evidence -/

theorem ne_of_isIdentifier {text : String} (h : isIdentifier text = true) : text ≠ "" := by
  rintro rfl
  cases h

/-- Something is held against a file that holds no artifact. -/
theorem reasons_ne_nil {item : Assessed} (hitem : item ∈ input.assessed host)
    (hnone : item.artifact = none) : item.reasons ≠ [] := by
  obtain ⟨assessed, hassessed, rfl⟩ := List.mem_map.mp hitem
  obtain ⟨file, -, rfl⟩ := List.mem_map.mp hassessed
  dsimp only at hnone ⊢
  unfold assessFile at hnone ⊢
  split at hnone
  · simp
  · simp
  · cases hnone

/-- **A file is reported as the schema asks.** -/
theorem reportEvidence_refined {item : Assessed} (hitem : item ∈ input.assessed host) :
    (reportEvidence host item).refined = true := by
  unfold ReportedEvidence.refined reportEvidence
  cases hartifact : item.artifact with
  | none => simp [reasons_ne_nil hitem hartifact]
  | some artifact =>
    have hid := ne_of_isIdentifier artifact.identified
    have htype := ne_of_isIdentifier artifact.typed
    have hdigest := host.evidenceDigest_ne artifact
    by_cases hreasons : item.reasons = []
    · simp [hreasons, hid, htype, hdigest]
    · simp [hreasons]

/-! ## The verdict -/

/-- What a policy says of its gates and of the retired ones. -/
theorem ids_of_refined (hpolicy : input.policy.refined = true) :
    input.policy.gates.map Gate.id = gateIds
      ∧ (input.policy.legacyGates.map LegacyGate.id).Perm legacyGateIds := by
  simp only [GatePolicy.refined, Bool.and_eq_true, decide_eq_true_iff] at hpolicy
  tauto

/-- **Every gate passes, but not in production.** -/
def EvaluationInput.PassesElsewhere (host : Host) (input : EvaluationInput) : Prop :=
  (∀ gate ∈ input.gates host, gate.status = .pass) ∧ input.manifest.environment ≠ .production

theorem verdict_eq_pass :
    (input.report host).verdict = .pass ↔ ∀ gate ∈ input.gates host, gate.status = .pass := by
  have hall : (input.gates host).all (fun gate => gate.status == .pass) = true
      ↔ ∀ gate ∈ input.gates host, gate.status = .pass := by
    simp
  rw [← hall, EvaluationInput.report]
  cases (input.gates host).all (fun gate => gate.status == .pass) <;> simp

/-- Where every gate passes there are no gaps. -/
theorem gaps_eq_nil (hpolicy : input.policy.refined = true)
    (hpass : ∀ gate ∈ input.gates host, gate.status = .pass) :
    (input.report host).release.gaps = [] := by
  have hids : (input.gates host).map ReportedGate.id = gateIds :=
    reportGates_ids.trans (ids_of_refined hpolicy).1
  have hmem : GateId.r12 ∈ (input.gates host).map ReportedGate.id := hids ▸ by decide
  obtain ⟨reported, hreported, hid⟩ := List.mem_map.mp hmem
  obtain ⟨gate, hgate, hgateId, passed, hblockers, -⟩ :=
    @exists_gate_of_passes host input _ ⟨reported, hreported, hid, hpass reported hreported⟩
  have haccepts : [GateId.r10, .r11, .r12].contains gate.id = true := by
    rw [hgateId]
    decide
  exact @allGaps_of_gateBlockers host (input.gateInputs host) passed gate hpolicy hgate haccepts
    hblockers

/-- **A report is as its schema asks**, unless every gate passes elsewhere. -/
theorem report_refined_iff (hpolicy : input.policy.refined = true) (hnow : 0 ≤ input.now)
    (hexpires : input.expires host ≤ IsoInstant.lastInstant) :
    (input.report host).refined = true ↔ ¬ input.PassesElsewhere host := by
  have hdates := @report_datesRefined host input hpolicy hnow hexpires
  have hids : (input.report host).gates.map ReportedGate.id = gateIds :=
    reportGates_ids.trans (ids_of_refined hpolicy).1
  have hgates : ∀ gate ∈ (input.report host).gates, (input.report host).gateRefined gate = true := by
    intro reported hmem
    obtain ⟨gate, hgate, passed, rfl, -⟩ := mem_reportGates hmem
    exact reportGate_refined hpolicy hgate passed
  have hevidence : ∀ item ∈ (input.report host).evidence, item.refined = true := by
    intro reported hmem
    obtain ⟨item, hitem, rfl⟩ := List.mem_map.mp hmem
    exact reportEvidence_refined hitem
  have hlegacy : ((input.report host).legacyGates.map ReportedLegacyGate.id).Perm legacyGateIds := by
    have hmap : (input.report host).legacyGates.map ReportedLegacyGate.id
        = input.policy.legacyGates.map LegacyGate.id := by
      simp [EvaluationInput.report, Function.comp_def]
    rw [hmap]
    exact (ids_of_refined hpolicy).2
  have hverdict : ((input.report host).verdict == (if (input.report host).gates.all
      (fun gate => gate.status == .pass) then .pass else .blocked)) = true := beq_self_eq_true _
  rw [ReportContent.refined, hdates, decide_eq_true hids, hverdict, List.all_eq_true.mpr hgates,
    List.all_eq_true.mpr hevidence, decide_eq_true hlegacy]
  simp only [Bool.true_and, Bool.and_true, Bool.or_eq_true, Bool.and_eq_true, bne_iff_ne, ne_eq,
    beq_iff_eq, List.isEmpty_iff, verdict_eq_pass, EvaluationInput.PassesElsewhere, not_and,
    not_not]
  constructor
  · rintro (hblocked | hproduction) hall
    · exact absurd hall hblocked
    · exact hproduction.1
  · intro h
    exact or_iff_not_imp_left.mpr fun hall =>
      ⟨h (not_not.mp hall), gaps_eq_nil hpolicy (not_not.mp hall)⟩

theorem validTime {t : Instant} (hfirst : 0 ≤ t) (hlast : t ≤ IsoInstant.lastInstant) :
    IsoInstant.ValidTime t :=
  ⟨(by decide : (-IsoInstant.maxTime : ℤ) ≤ 0).trans hfirst, hlast.trans (by decide)⟩

/-- What is asserted of every gate. -/
def stagingAssertions : List Assertion :=
  ("review:done" :: (List.range' 1 68).map acceptanceId).map (fun id => ⟨id, true, none⟩)

theorem stagingAssertions_distinct : (stagingAssertions.map Assertion.id).Nodup := by
  decide +kernel

theorem reviewId_identified (gate : GateId) : isIdentifier ("review-" ++ gate.name) = true := by
  have hall : (gateIds.all fun gate => isIdentifier ("review-" ++ gate.name)) = true := by
    decide +kernel
  exact List.all_eq_true.mp hall gate (by cases gate <;> simp [gateIds])

/-- The review of a gate, in staging. -/
def stagingReview (gate : GateId) : EvidenceArtifact :=
  { sampleArtifact with
    id := "review-" ++ gate.name
    gate := gate
    assertions := stagingAssertions
    identified := reviewId_identified gate
    distinct := stagingAssertions_distinct }

/-- What an approval of a role asserts. -/
def attestationAssertions (role : ApprovalRole) : List Assertion :=
  ["review:done", "approval:" ++ role.name].map (fun id => ⟨id, true, none⟩)

theorem attestationAssertions_distinct (role : ApprovalRole) :
    ((attestationAssertions role).map Assertion.id).Nodup := by
  cases role <;> simp [attestationAssertions, ApprovalRole.name]

theorem attestation_identified (role : ApprovalRole) :
    isIdentifier ("attestation-" ++ role.name) = true
      ∧ isIdentifier "release_attestation" = true := by
  cases role <;> decide +kernel

/-- The attestation of a role, signed with its key. -/
def stagingAttestation (role : ApprovalRole) : EvidenceArtifact :=
  { sampleArtifact with
    id := "attestation-" ++ role.name
    type := "release_attestation"
    gate := .r10
    attestedEvidenceDigest := some "pins"
    assertions := attestationAssertions role
    signature := some ⟨"key-" ++ role.name, "signature"⟩
    identified := (attestation_identified role).1
    typed := (attestation_identified role).2
    distinct := attestationAssertions_distinct role }

/-- All of its evidence. -/
def stagingEvidence : List EvidenceArtifact :=
  gateIds.map stagingReview ++ [ApprovalRole.operator, .reviewer].map stagingAttestation

/-- The key of a role. -/
def stagingKey (role : ApprovalRole) : TrustedKey :=
  ⟨"key-" ++ role.name, role.name, "public-" ++ role.name, ["release_attestation"], none, none⟩

/-- The policy of the sample, and its attestations. -/
def stagingPolicy : GatePolicy :=
  { samplePolicy with
    trustedKeys := [ApprovalRole.operator, .reviewer].map stagingKey
    evidenceTypes :=
      [sampleType, { sampleType with id := "release_attestation", signatureRequired := true }] }

/-- A release of which everything is known. -/
def stagingManifest : ReleaseManifest :=
  { sampleManifest with
    artifacts := ⟨some "web", some "worker", some "migration", some "gateway"⟩
    revisions := ⟨some "dependencies", some "model", some "prompts", some "schemas"⟩
    providerAccounts := [("mail", some "account")]
    database := ⟨some "schema", some "migration"⟩
    manifests := ⟨some "domains", some "redirects", some "media", some "import"⟩
    scope := ⟨["web"], ["eu"], ["en"], ["mail"]⟩
    policies := ⟨"1", some "roles", some "retention", some "templates"⟩
    evidenceIds := stagingEvidence.map EvidenceArtifact.id
    evidenceDigests := stagingEvidence.map (fun artifact => (artifact.id, "pin"))
    approvals := [ApprovalRole.operator, .reviewer].map (fun role =>
      ⟨role, role.name, sampleArtifact.observedAt, "attestation-" ++ role.name, none⟩)
    recoveryPoint := some ⟨"recovery", sampleArtifact.observedAt⟩
    procedures := ⟨some ⟨"cutover", "digest"⟩, some ⟨"rollback", "digest"⟩⟩ }

/-- A host that reads each file as the artifact of its content. -/
def stagingHost : Host :=
  { sampleHost with
    readEvidence := fun content =>
      match stagingEvidence.find? (fun artifact => artifact.id == content) with
      | some artifact => .artifact artifact
      | none => .invalidJson
    signatureIsCanonical := fun _ => true
    keyIsCanonical := fun _ => true
    keyIsEd25519 := fun _ => some true
    verify := fun _ _ _ => true }

/-- The release in staging, with all of its evidence. -/
def stagingInput : EvaluationInput :=
  { sampleInput with
    manifest := stagingManifest
    policy := stagingPolicy
    evidence := stagingEvidence.map (fun artifact => ⟨artifact.id, artifact.id⟩) }

/-- The sample, at the end of the year 9999. -/
def lastInput : EvaluationInput := { sampleInput with now := IsoInstant.lastInstant }

end Release
