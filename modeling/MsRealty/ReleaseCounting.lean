import MsRealty.ReleaseEvaluation

/-!
# The evidence that counts

An artifact counts when nothing is held against it and no other file has its id
(`counted_eq`), so that of an id at most one artifact counts (`eq_of_counts`). A
gate passes when nothing blocks it (`reportGate_status`), and a report is made
when the schemas accept what it is made of and what it is (`Reported`).
-/

namespace Release

variable {host : Host} {input : EvaluationInput} {now : Instant}

/-! ## Reasons -/

@[simp] theorem reason_eq_nil {condition : Bool} {text : String} :
    reason condition text = [] ↔ condition = false := by
  unfold reason
  cases condition <;> simp

/-- **An artifact is timely** at an instant: it is neither from the future, nor
too old for its type, nor expired. -/
structure EvidenceType.Timely (type : EvidenceType) (artifact : EvidenceArtifact) (now : Instant) :
    Prop where
  observed : artifact.observedAt.time ≤ now + futureSkewMs
  fresh : ∀ age ∈ type.maxAgeMinutes, now < artifact.observedAt.time + (age : ℤ) * 60000
  unexpired : ∀ expires ∈ artifact.expiresAt, now < expires.time

theorem any_eq_false_iff {α : Type} {o : Option α} {p : α → Bool} :
    o.any p = false ↔ ∀ a ∈ o, p a = false := by
  cases o <;> simp

theorem clockReasons_eq_nil {type : EvidenceType} {artifact : EvidenceArtifact} :
    clockReasons type artifact now = [] ↔ type.Timely artifact now := by
  simp only [clockReasons, List.append_eq_nil_iff, reason_eq_nil, any_eq_false_iff,
    decide_eq_false_iff_not, not_lt, not_le, sub_lt_iff_lt_add']
  exact ⟨fun h => ⟨h.1.1, h.1.2, h.2⟩, fun h => ⟨⟨h.observed, h.fresh⟩, h.unexpired⟩⟩

/-- **When nothing is held against an artifact.** -/
theorem assessArtifact_eq_nil {artifact : EvidenceArtifact} {manifest : ReleaseManifest}
    {policy : GatePolicy} {admission : List String} :
    assessArtifact host artifact manifest policy now admission = []
      ↔ ∃ type, policy.evidenceType artifact.type = some type
        ∧ admission = [] ∧ singleOperatorArtifactProblems artifact policy = []
        ∧ bindingReasons host manifest policy type artifact = [] ∧ type.Timely artifact now
        ∧ reviewReasons host policy type artifact = [] := by
  unfold assessArtifact
  cases policy.evidenceType artifact.type with
  | none => simp
  | some type =>
    simp only [List.append_eq_nil_iff, clockReasons_eq_nil, Option.some.injEq, exists_eq_left']
    tauto

/-- An artifact that counts is one of the manifest's. -/
theorem mem_evidenceIds_of_assessArtifact {artifact : EvidenceArtifact}
    {manifest : ReleaseManifest} {policy : GatePolicy} {admission : List String}
    (h : assessArtifact host artifact manifest policy now admission = []) :
    artifact.id ∈ manifest.evidenceIds := by
  obtain ⟨type, -, -, -, hbinding, -, -⟩ := assessArtifact_eq_nil.mp h
  by_contra hmem
  simp [bindingReasons, hmem] at hbinding

/-! ## Evidence that counts -/

/-- The artifact of a file, if it holds one. -/
def EvidenceFile.artifact (host : Host) (file : EvidenceFile) : Option EvidenceArtifact :=
  match host.readEvidence file.content with
  | .artifact artifact => some artifact
  | _ => none

/-- The artifacts of the files, in the order of their paths. -/
def EvaluationInput.artifacts (host : Host) (input : EvaluationInput) : List EvidenceArtifact :=
  (input.evidence.insertionSort fileLE).filterMap (EvidenceFile.artifact host)

/-- **Whether an artifact counts** among those of the files. -/
def EvaluationInput.counts (host : Host) (input : EvaluationInput) (artifact : EvidenceArtifact) :
    Bool :=
  (assessArtifact host artifact input.manifest input.policy input.now
      (admissionProblems host input.policy input.admittedTrust)).isEmpty
    && decide ((input.artifacts host).countP (fun other => other.id == artifact.id) ≤ 1)

/-- What an assessed file counts as. -/
theorem assessFile_artifact (manifest : ReleaseManifest) (policy : GatePolicy)
    (admission : List String) (file : EvidenceFile) :
    (assessFile host manifest policy now admission file).artifact = file.artifact host := by
  unfold assessFile EvidenceFile.artifact
  cases host.readEvidence file.content <;> rfl

theorem countOf_eq (assessed : List Assessed) (id : String) :
    countOf assessed id
      = (assessed.filterMap Assessed.artifact).countP (fun other => other.id == id) := by
  rw [countOf, List.countP_filterMap]
  refine List.countP_congr fun item _ => ?_
  cases item.artifact <;> simp

/-- **The evidence that counts** is the artifacts of the files that do. -/
theorem counted_eq : input.counted host = (input.artifacts host).filter (input.counts host) := by
  have hartifacts : ((input.evidence.insertionSort fileLE).map (assessFile host input.manifest
      input.policy input.now (admissionProblems host input.policy input.admittedTrust))).filterMap
        Assessed.artifact = input.artifacts host := by
    rw [List.filterMap_map]
    exact List.filterMap_congr fun file _ => assessFile_artifact _ _ _ file
  unfold EvaluationInput.counted EvaluationInput.assessed assessEvidence markDuplicates
  simp only [countOf_eq, hartifacts]
  rw [List.map_map, List.filterMap_map, EvaluationInput.artifacts, List.filter_filterMap]
  refine List.filterMap_congr fun file _ => ?_
  cases hread : host.readEvidence file.content with
  | invalidJson => simp [Assessed.counted, assessFile, EvidenceFile.artifact, hread]
  | invalidSchema => simp [Assessed.counted, assessFile, EvidenceFile.artifact, hread]
  | artifact artifact =>
    simp only [Function.comp_apply, Assessed.counted, EvaluationInput.counts,
      EvaluationInput.artifacts, assessFile, EvidenceFile.artifact, hread, Option.filter_some]
    refine if_congr ?_ rfl rfl
    simp only [Option.any_some, List.isEmpty_iff, List.append_eq_nil_iff, reason_eq_nil,
      Bool.and_eq_true, decide_eq_false_iff_not, not_lt]
    exact and_congr_right fun _ => decide_eq_true_iff.symm

theorem mem_counted {artifact : EvidenceArtifact} :
    artifact ∈ input.counted host
      ↔ artifact ∈ input.artifacts host ∧ input.counts host artifact = true := by
  rw [counted_eq, List.mem_filter]

/-- Of what is counted once at most, there is one at most. -/
theorem eq_of_countP_le_one {α : Type} {p : α → Bool} {list : List α} (h : list.countP p ≤ 1)
    {a b : α} (ha : a ∈ list) (hb : b ∈ list) (hpa : p a = true) (hpb : p b = true) : a = b := by
  rw [List.countP_eq_length_filter] at h
  have hina := List.mem_filter.mpr ⟨ha, hpa⟩
  have hinb := List.mem_filter.mpr ⟨hb, hpb⟩
  match hlist : list.filter p with
  | [] => simp [hlist] at hina
  | [only] =>
    rw [hlist, List.mem_singleton] at hina hinb
    rw [hina, hinb]
  | _ :: _ :: _ =>
    rw [hlist] at h
    simp at h

/-- Two artifacts of one id are one, if that one counts. -/
theorem eq_of_counts {artifact other : EvidenceArtifact} (hmem : artifact ∈ input.artifacts host)
    (hother : other ∈ input.artifacts host) (hid : other.id = artifact.id)
    (hcounts : input.counts host artifact = true) : other = artifact :=
  eq_of_countP_le_one (decide_eq_true_iff.mp (Bool.and_eq_true_iff.mp hcounts).2) hother hmem
    (beq_iff_eq.mpr hid) (beq_iff_eq.mpr rfl)

/-! ## Gates and reports -/

theorem reportGate_status {inputs : GateInputs} (passed : GateId → Bool) (gate : Gate) :
    (reportGate host inputs passed gate).status = .pass
      ↔ gateBlockers host inputs passed gate = [] := by
  unfold reportGate
  rw [ite_eq_left_iff, List.isEmpty_iff]
  exact ⟨fun h => by_contra fun hne => by simpa using h hne, fun h hne => absurd h hne⟩

/-- What is checked of each gate of a policy. -/
theorem exists_gateRefined {policy : GatePolicy} (hpolicy : policy.refined = true) {gate : Gate}
    (hgate : gate ∈ policy.gates) : ∃ index, policy.gateRefined gate index = true := by
  have hall : policy.gates.zipIdx.all (fun entry => policy.gateRefined entry.1 entry.2) = true := by
    simp only [GatePolicy.refined, Bool.and_eq_true] at hpolicy
    tauto
  rw [← List.zipIdx_map_fst 0 policy.gates] at hgate
  obtain ⟨entry, hentry, rfl⟩ := List.mem_map.mp hgate
  exact ⟨entry.2, List.all_eq_true.mp hall entry hentry⟩

/-- **A gate that accepts a release passes only where there are no gaps.** -/
theorem allGaps_of_gateBlockers {inputs : GateInputs} {passed : GateId → Bool} {gate : Gate}
    (hpolicy : inputs.policy.refined = true) (hgate : gate ∈ inputs.policy.gates)
    (hid : [GateId.r10, .r11, .r12].contains gate.id = true)
    (h : gateBlockers host inputs passed gate = []) :
    allGaps host inputs.manifest inputs.policy inputs.now inputs.counted = [] := by
  obtain ⟨index, hrefined⟩ := exists_gateRefined hpolicy hgate
  simp only [GatePolicy.gateRefined, hid, Bool.not_true, Bool.false_or, Bool.and_eq_true]
    at hrefined
  simp only [gateBlockers, List.append_eq_nil_iff, reason_eq_nil] at h
  obtain ⟨⟨⟨-, hcomplete⟩, -⟩, -⟩ := h
  have hrequires : gate.requiresCompleteManifest = true := by tauto
  simpa [hrequires] using hcomplete

/-- **When an evaluation gives a report.** -/
structure EvaluationInput.Reported (host : Host) (input : EvaluationInput) : Prop where
  policy : input.policy.refined = true
  manifest : input.manifest.refined = true
  trust : input.admittedTrust.all (fun trust => trust.owner == "Ivan") = true
  now : IsoInstant.ValidTime input.now
  files : (input.evidence.map EvidenceFile.file).Nodup
  expires : IsoInstant.ValidTime (input.expires host)
  report : (input.report host).refined = true

theorem require_bind_eq_ok {α : Type} {condition : Prop} [Decidable condition]
    {error : ReleaseError} {next : Unit → Except ReleaseError α} {a : α} :
    (require condition error >>= next) = .ok a ↔ condition ∧ next () = .ok a := by
  unfold require
  by_cases h : condition
  · simp [h, bind, Except.bind]
  · simp [h, bind, Except.bind]

theorem evaluateRelease_eq_ok {report : ReadinessReport} :
    evaluateRelease host input = .ok report
      ↔ input.Reported host ∧ report = { input.report host with
          snapshotId := host.snapshotDigest (input.report host) } := by
  unfold evaluateRelease
  simp only [require_bind_eq_ok, Except.ok.injEq]
  constructor
  · rintro ⟨hpolicy, hmanifest, htrust, hnow, hfiles, hexpires, hreport, rfl⟩
    exact ⟨⟨hpolicy, hmanifest, htrust, hnow, hfiles, hexpires, hreport⟩, rfl⟩
  · rintro ⟨⟨hpolicy, hmanifest, htrust, hnow, hfiles, hexpires, hreport⟩, rfl⟩
    exact ⟨hpolicy, hmanifest, htrust, hnow, hfiles, hexpires, hreport, rfl⟩

/-! ## A sample -/

/-- A type of evidence of live systems, that counts for half an hour. -/
def sampleType : EvidenceType where
  id := "readiness_review"
  description := "A review of the release"
  environments := [.release]
  classes := [.live]
  requiredAssertions := ["review:done"]
  maxAgeMinutes := some 30
  signatureRequired := false
  reviewerRequired := false
  bindsArtifacts := false

/-- A gate that asks for a review. -/
def sampleGate (id : GateId) : Gate where
  id := id
  title := id.name
  stage := .preCutover
  exitEvidence := "A review"
  dependsOn := mustDependOn id
  requiredEvidence := ["readiness_review"]
  requiredAssertions := if id = .r12 then (List.range' 1 68).map acceptanceId else []
  requiresCompleteManifest := [GateId.r10, .r11, .r12].contains id
  requiresLegacyMapping := id == .r00

/-- A policy of such gates. -/
def samplePolicy : GatePolicy where
  schema := none
  policyRevision := "1"
  specVersion := "1"
  approvalModel := none
  snapshotMaxAgeMinutes := 60
  trustedKeys := []
  evidenceTypes := [sampleType]
  gates := gateIds.map sampleGate
  legacyGates := legacyGateIds.map (fun id =>
    ⟨id, .retainedObligation, [.r00], ["readiness_review"], "Kept", none⟩)

/-- A release of which little is known yet. -/
def sampleManifest : ReleaseManifest where
  schema := none
  specVersion := "1"
  releaseSha := "c0ffee"
  environment := .staging
  artifacts := ⟨none, none, none, none⟩
  revisions := ⟨none, none, none, none⟩
  providerAccounts := []
  database := ⟨none, none⟩
  manifests := ⟨none, none, none, none⟩
  scope := ⟨[], [], [], []⟩
  policies := ⟨"1", none, none, none⟩
  evidenceIds := ["review-1"]
  evidenceDigests := [("review-1", "pin")]
  approvals := []
  recoveryPoint := none
  procedures := ⟨none, none⟩

/-- The review of its first gate, at the end of 2025. -/
def sampleArtifact : EvidenceArtifact where
  id := "review-1"
  type := "readiness_review"
  gate := .r00
  environment := .staging
  evidenceClass := .live
  releaseSha := "c0ffee"
  digests := []
  policyRevision := "1"
  policyDigest := "policy"
  dataDigest := "manifest"
  attestedEvidenceDigest := none
  observedAt := ⟨"2025-12-31T23:50:00Z", by decide +kernel⟩
  expiresAt := none
  source := "review"
  actor := none
  purpose := none
  reviewer := none
  assertions := [⟨"review:done", true, none⟩]
  redactionStatus := .noPersonalData
  signature := none
  identified := by decide +kernel
  typed := by decide +kernel
  distinct := by decide
  follows := by simp

/-- A host that reads one file as the review. -/
def sampleHost : Host where
  readEvidence content := if content = "review" then .artifact sampleArtifact else .invalidJson
  contentDigest content := content
  policyDigest _ := "policy"
  trustedKeysDigest _ := "keys"
  manifestDigest _ := "manifest"
  evidenceDigest _ := "pin"
  evidenceDigest_ne _ := by decide
  evidencePinsDigest _ := "pins"
  keyFingerprint key := key
  signatureIsCanonical _ := false
  keyIsCanonical _ := false
  keyIsEd25519 _ := none
  verify _ _ _ := false
  toLowerCase text := text
  snapshotDigest _ := "snapshot"

/-- The review, at the turn of the year. -/
def sampleInput : EvaluationInput where
  manifest := sampleManifest
  policy := samplePolicy
  evidence := [⟨"a.json", "review"⟩, ⟨"b.json", ""⟩]
  now := 1767225600000
  admittedTrust := none

theorem sampleInput_reported : sampleInput.Reported sampleHost where
  policy := by decide +kernel
  manifest := by decide +kernel
  trust := rfl
  now := by decide
  files := by decide
  expires := by decide +kernel
  report := by decide +kernel

theorem sampleInput_passes : (sampleInput.report sampleHost).passes .r00 := by decide +kernel

end Release
