import MsRealty.ReleaseRecords

/-!
# The evaluation of a release

One manifest, one policy and the files of evidence give one report
(`src/release/evaluate.ts`): which evidence counts, what the manifest lacks,
which gates pass, and until when the report may be relied on.

The schemas' reading of a file, the digests and the arithmetic of signatures are
the *host*. The manifest, the policy and the trust are those the schemas have
read; their checks across fields are made here, as are those of the report.
-/

namespace Release

/-! ## The host -/

/-- What a file is read as. -/
inductive EvidenceReading where
  | invalidJson
  | invalidSchema
  | artifact (artifact : EvidenceArtifact)

/-- **What is computed elsewhere**: how a file is read, the digests of canonical
texts, and the keys and signatures of Ed25519. -/
structure Host where
  /-- `JSON.parse` and the schema of evidence. -/
  readEvidence : String → EvidenceReading
  contentDigest : String → String
  policyDigest : GatePolicy → String
  trustedKeysDigest : List TrustedKey → String
  manifestDigest : ReleaseManifest → String
  evidenceDigest : EvidenceArtifact → String
  evidenceDigest_ne : ∀ artifact, evidenceDigest artifact ≠ ""
  evidencePinsDigest : List (String × String) → String
  keyFingerprint : String → String
  /-- Whether a signature is 64 bytes, written as they are. -/
  signatureIsCanonical : String → Bool
  /-- Whether a key is written as its bytes are. -/
  keyIsCanonical : String → Bool
  /-- Whether a key is of Ed25519; nothing if it is no key. -/
  keyIsEd25519 : String → Option Bool
  /-- Whether a signature of an artifact is one by a key. -/
  verify : String → EvidenceArtifact → String → Bool
  toLowerCase : String → String
  snapshotDigest : ReportContent → String

variable (host : Host)

/-- `releaseContextDigest`: the manifest without its evidence and approvals. -/
def releaseContextDigest (manifest : ReleaseManifest) : String :=
  host.manifestDigest
    { manifest with schema := none, evidenceIds := [], evidenceDigests := [], approvals := [] }

/-- `approvalEvidenceDigest`: the pins of what is no approval. -/
def approvalEvidenceDigest (manifest : ReleaseManifest) : String :=
  host.evidencePinsDigest (manifest.evidenceDigests.filter (fun pin =>
    !(manifest.approvals.map Approval.evidenceId).contains pin.1))

/-! ## Signatures -/

/-- What a signature is found to be. -/
inductive SignatureCheck where
  | valid
  | unsigned
  | untrustedKey
  | invalidSignature
  deriving DecidableEq

/-- The name of a finding. -/
def SignatureCheck.name : SignatureCheck → String
  | .valid => "valid"
  | .unsigned => "unsigned"
  | .untrustedKey => "untrusted_key"
  | .invalidSignature => "invalid_signature"

/-- What a single operator asks of a key and who signs with it. -/
def signerFits (model : SingleOperator) (trusted : TrustedKey) (artifact : EvidenceArtifact) :
    Bool :=
  artifact.actor.any (fun actor => artifact.purpose.any (fun purpose =>
    trusted.actorKind == some actor.kind && trusted.owner == actor.name
      && trusted.purposes.any (fun purposes => purposes.contains purpose)
      && (actor.kind != .human || actor.name == model.owner)))

/-- **`checkSignature`.** -/
def checkSignature (artifact : EvidenceArtifact) (policy : GatePolicy) : SignatureCheck :=
  match artifact.signature with
  | none => .unsigned
  | some signature =>
    match policy.trustedKeys.find? (fun key =>
        key.keyId == signature.keyId && key.evidenceTypes.contains artifact.type) with
    | none => .untrustedKey
    | some trusted =>
      if policy.singleOperator.any (fun model => !signerFits model trusted artifact) then
        .untrustedKey
      else if !host.signatureIsCanonical signature.value then .invalidSignature
      else if !host.keyIsCanonical trusted.publicKey then .untrustedKey
      else match host.keyIsEd25519 trusted.publicKey with
        | none => .invalidSignature
        | some false => .untrustedKey
        | some true =>
          if host.verify trusted.publicKey { artifact with signature := none } signature.value then
            .valid
          else .invalidSignature

/-- The owner of the key an artifact names. -/
def signer (policy : GatePolicy) (artifact : EvidenceArtifact) : Option String :=
  (policy.trustedKeys.find? (fun key =>
    some key.keyId == artifact.signature.map EvidenceSignature.keyId)).map TrustedKey.owner

/-! ## Gaps of the manifest -/

/-- A reason, where a condition holds. -/
def reason (condition : Bool) (text : String) : List String := if condition then [text] else []

/-- The gap of a field that is not known. -/
def unknown {α : Type} (path : String) (value : Option α) : List String :=
  reason value.isNone path

/-- The fields of a manifest that are not known, and the lists of its scope that
are empty, in the order of the fields. -/
def unknownFields (manifest : ReleaseManifest) : List String :=
  unknown "/artifacts/web" manifest.artifacts.web
    ++ unknown "/artifacts/worker" manifest.artifacts.worker
    ++ unknown "/artifacts/migration" manifest.artifacts.migration
    ++ unknown "/artifacts/gateway" manifest.artifacts.gateway
    ++ unknown "/revisions/dependencies" manifest.revisions.dependencies
    ++ unknown "/revisions/model" manifest.revisions.model
    ++ unknown "/revisions/prompts" manifest.revisions.prompts
    ++ unknown "/revisions/schemas" manifest.revisions.schemas
    ++ manifest.providerAccounts.flatMap (fun account =>
      unknown ("/providerAccounts/" ++ account.1) account.2)
    ++ unknown "/database/schemaDigest" manifest.database.schemaDigest
    ++ unknown "/database/lastMigration" manifest.database.lastMigration
    ++ unknown "/manifests/domains" manifest.manifests.domains
    ++ unknown "/manifests/redirects" manifest.manifests.redirects
    ++ unknown "/manifests/media" manifest.manifests.media
    ++ unknown "/manifests/dataImport" manifest.manifests.dataImport
    ++ manifest.scope.entries.flatMap (fun entry => reason entry.2.isEmpty entry.1)
    ++ unknown "/policies/roles" manifest.policies.roles
    ++ unknown "/policies/retention" manifest.policies.retention
    ++ unknown "/policies/templates" manifest.policies.templates
    ++ unknown "/recoveryPoint" manifest.recoveryPoint
    ++ unknown "/procedures/cutover" manifest.procedures.cutover
    ++ unknown "/procedures/rollback" manifest.procedures.rollback

/-- The names of the approvals of a role. -/
def approvalNames (manifest : ReleaseManifest) (role : ApprovalRole) : List String :=
  (manifest.approvals.filter (fun approval => approval.role == role)).map
    (fun approval => host.toLowerCase approval.name)

/-- The gaps of the approvals, as the policy's model asks for them. -/
def approvalGaps (manifest : ReleaseManifest) (policy : GatePolicy) : List String :=
  match policy.singleOperator with
  | some model =>
    let first := manifest.approvals.head?
    reason (manifest.approvals.length != 1
        || first.map Approval.role != some .ownerSelfReview) "/approvals/single_owner_required"
      ++ reason (first.map Approval.name != some model.owner) "/approvals/wrong_owner"
      ++ reason (first.bind Approval.purpose != some .candidateReview)
        "/approvals/candidate_review_required"
  | none =>
    reason (manifest.approvals.any (fun approval => approval.role == .ownerSelfReview))
        "/approvals/unsupported_role"
      ++ [ApprovalRole.operator, .reviewer].flatMap (fun role =>
        reason ((manifest.approvals.filter (fun approval => approval.role == role)).length != 1)
          ("/approvals/" ++ role.name))
      ++ reason ((approvalNames host manifest .reviewer).any
          (approvalNames host manifest .operator).contains) "/approvals/reviewer_not_separate"

/-- **`manifestGaps`.** -/
def manifestGaps (manifest : ReleaseManifest) (policy : GatePolicy) : List String :=
  unknownFields manifest
    ++ reason (manifest.releaseSha != "" && manifest.releaseSha.toList.all (· == '0'))
      "/releaseSha/placeholder"
    ++ reason manifest.providerAccounts.isEmpty "/providerAccounts"
    ++ approvalGaps host manifest policy

/-! ## What evidence counts -/

def admissionProblems (policy : GatePolicy) (trust : Option AdmittedReleaseTrust) : List String :=
  match policy.singleOperator, trust with
  | none, trust => reason trust.isSome "admitted_mode_mismatch"
  | some _, none => ["admitted_trust_missing"]
  | some _, some trust =>
    let ownerKey := policy.trustedKeys.find? (fun key => key.keyId == trust.ownerKeyId)
    reason (trust.policyDigest != host.policyDigest policy) "admitted_policy_mismatch"
      ++ reason (trust.trustedKeysDigest != host.trustedKeysDigest policy.trustedKeys)
        "admitted_keys_mismatch"
      ++ reason (!ownerKey.any (fun key => key.actorKind == some .human && key.owner == trust.owner
          && key.evidenceTypes.contains "authority_decision_record"
          && key.purposes.any (fun purposes => purposes.contains .policyRatification)
          && host.keyFingerprint key.publicKey == trust.ownerKeyFingerprint))
        "admitted_owner_key_mismatch"

/-- The names every object of the source has, of those an identifier can be. -/
def inheritedNames : List String :=
  ["constructor", "toString", "valueOf", "hasOwnProperty", "isPrototypeOf",
    "propertyIsEnumerable", "toLocaleString", "__proto__", "__defineGetter__", "__defineSetter__",
    "__lookupGetter__", "__lookupSetter__"]

/-- The purpose of the types of evidence a human gives. A type that has one of
the names of every object is found too, with what is no purpose. -/
def humanPurpose (type : String) : Option (Option Purpose) :=
  match type with
  | "authority_decision_record" => some (some .policyRatification)
  | "release_attestation" => some (some .candidateReview)
  | "human_review" => some (some .humanReview)
  | "listing_review_report" => some (some .humanReview)
  | "recovery_owner_review" => some (some .recoveryReview)
  | "operational_acceptance" => some (some .operationalAcceptance)
  | type => if inheritedNames.contains type then some none else none

def singleOperatorArtifactProblems (artifact : EvidenceArtifact) (policy : GatePolicy) :
    List String :=
  match policy.singleOperator with
  | none => []
  | some model =>
    let purpose := humanPurpose artifact.type
    let expected := purpose.getD (some .machineObservation)
    reason (expected.isNone || artifact.purpose != expected) "wrong_evidence_purpose"
      ++ reason (artifact.actor.map EvidenceActor.kind
          != some (if purpose.isSome then .human else .machine)) "wrong_actor_kind"
      ++ (if purpose.isSome then
          reason (artifact.actor.map EvidenceActor.name != some model.owner)
              "owner_identity_mismatch"
            ++ reason (artifact.reviewer != some model.owner) "owner_review_missing"
            ++ reason (!([EvidenceClass.human, .operator].contains artifact.evidenceClass))
              "human_evidence_class_required"
        else reason (!([EvidenceClass.test, .live].contains artifact.evidenceClass))
          "machine_cannot_approve_human_evidence")
      ++ reason (artifact.type == "authority_decision_record" && artifact.gate != .r00)
        "authority_gate_mismatch"
      ++ (if artifact.type = "release_attestation" then
          reason (artifact.gate != .r10) "candidate_gate_mismatch"
            ++ reason (artifact.assertions.any (fun assertion =>
                assertion.id == "release:cutover_approved"))
              "execution_authorization_not_supported"
        else [])

def futureSkewMs : ℤ := 300000

/-- The reasons that the clock gives. -/
def clockReasons (type : EvidenceType) (artifact : EvidenceArtifact) (now : Instant) :
    List String :=
  reason (decide (now + futureSkewMs < artifact.observedAt.time)) "observed_in_future"
    ++ reason (type.maxAgeMinutes.any (fun age : ℕ =>
        decide ((age : ℤ) * 60000 ≤ now - artifact.observedAt.time))) "stale"
    ++ reason (artifact.expiresAt.any (fun expires => decide (expires.time ≤ now))) "expired"

/-- The reasons of the artifact's bindings, before those of the clock. -/
def bindingReasons (manifest : ReleaseManifest) (policy : GatePolicy) (type : EvidenceType)
    (artifact : EvidenceArtifact) : List String :=
  (if !manifest.evidenceIds.contains artifact.id then ["not_in_manifest"]
    else reason (manifest.evidenceDigests.lookup artifact.id
      != some (host.evidenceDigest artifact)) "evidence_digest_mismatch")
    ++ reason (artifact.releaseSha != manifest.releaseSha) "wrong_release"
    ++ reason (artifact.policyRevision != policy.policyRevision) "wrong_policy"
    ++ reason (artifact.policyDigest != host.policyDigest policy) "policy_digest_mismatch"
    ++ reason (artifact.dataDigest != releaseContextDigest host manifest) "data_digest_mismatch"
    ++ reason (!type.environments.any (fun accepted => match accepted with
        | .of environment => artifact.environment == environment
        | .release => artifact.environment == manifest.environment)) "wrong_environment"
    ++ reason (!type.classes.contains artifact.evidenceClass) "wrong_evidence_class"
    ++ reason (artifact.evidenceClass != .test && !artifact.environment.isDeployed)
      "not_live_environment"
    ++ reason (artifact.evidenceClass == .test && artifact.environment.isDeployed)
      "test_environment_mismatch"
    ++ reason (artifact.redactionStatus == .unredactedRestricted) "redaction_required"
    ++ (if type.bindsArtifacts then manifest.artifacts.entries.flatMap (fun entry =>
        match entry.2 with
        | none => ["artifact_unknown:" ++ entry.1]
        | some expected => reason (artifact.digests.lookup entry.1 != some expected)
          ("artifact_mismatch:" ++ entry.1))
      else [])

/-- The reasons of its review, signature and assertions, after those of the clock. -/
def reviewReasons (policy : GatePolicy) (type : EvidenceType) (artifact : EvidenceArtifact) :
    List String :=
  reason (type.reviewerRequired && artifact.reviewer.isNone) "reviewer_missing"
    ++ (if type.signatureRequired || artifact.signature.isSome || policy.singleOperator.isSome then
        reason (checkSignature host artifact policy != .valid)
          (checkSignature host artifact policy).name
      else [])
    ++ reason (artifact.assertions.any (fun assertion => !assertion.passed)) "assertion_failed"
    ++ type.requiredAssertions.flatMap (fun id =>
      reason (!artifact.asserts id) ("missing_required_assertion:" ++ id))

/-- **`assessArtifact`**: why an artifact does not count. -/
def assessArtifact (artifact : EvidenceArtifact) (manifest : ReleaseManifest) (policy : GatePolicy)
    (now : Instant) (admission : List String) : List String :=
  match policy.evidenceType artifact.type with
  | none => ["unknown_type"]
  | some type =>
    admission ++ singleOperatorArtifactProblems artifact policy
      ++ bindingReasons host manifest policy type artifact
      ++ clockReasons type artifact now
      ++ reviewReasons host policy type artifact

structure EvidenceFile where
  file : String
  content : String

/-- A file as it is assessed. -/
structure Assessed where
  file : String
  digest : String
  artifact : Option EvidenceArtifact
  reasons : List String

/-- The order of the files, by code unit. -/
def fileLE (a b : EvidenceFile) : Prop :=
  JsonText.unitsLE (Utf16.encode a.file.toList) (Utf16.encode b.file.toList) = true

instance : DecidableRel fileLE := fun a b => inferInstanceAs (Decidable
  (JsonText.unitsLE (Utf16.encode a.file.toList) (Utf16.encode b.file.toList) = true))

/-- A file, assessed by itself. -/
def assessFile (manifest : ReleaseManifest) (policy : GatePolicy) (now : Instant)
    (admission : List String) (file : EvidenceFile) : Assessed :=
  let digest := host.contentDigest file.content
  match host.readEvidence file.content with
  | .invalidJson => ⟨file.file, digest, none, ["invalid_json"]⟩
  | .invalidSchema => ⟨file.file, digest, none, ["invalid_schema"]⟩
  | .artifact artifact =>
    ⟨file.file, digest, some artifact, assessArtifact host artifact manifest policy now admission⟩

/-- The number of assessed artifacts of an id. -/
def countOf (assessed : List Assessed) (id : String) : ℕ :=
  assessed.countP (fun item => item.artifact.any (fun artifact => artifact.id == id))

/-- Two artifacts of one id make the binding ambiguous: neither counts. -/
def markDuplicates (assessed : List Assessed) : List Assessed :=
  assessed.map (fun item => { item with
    reasons := item.reasons ++ reason
      (item.artifact.any (fun artifact => decide (1 < countOf assessed artifact.id)))
      "duplicate_id" })

/-- **`assessEvidence`**, of files with paths of their own. -/
def assessEvidence (files : List EvidenceFile) (manifest : ReleaseManifest) (policy : GatePolicy)
    (now : Instant) (admission : List String) : List Assessed :=
  markDuplicates ((files.insertionSort fileLE).map
    (assessFile host manifest policy now admission))

/-- The artifact of a file, if it counts. -/
def Assessed.counted (item : Assessed) : Option EvidenceArtifact :=
  if item.reasons.isEmpty then item.artifact else none

/-! ## Gaps of the evidence -/

/-- Whether an approval is proved by the artifact it names. -/
def approvalVerified (manifest : ReleaseManifest) (policy : GatePolicy) (now : Instant)
    (counted : List EvidenceArtifact) (approval : Approval) : Bool :=
  (counted.find? (fun artifact => artifact.id == approval.evidenceId)).any (fun proof =>
    proof.type == "release_attestation" && proof.gate == .r10
      && proof.attestedEvidenceDigest == some (approvalEvidenceDigest host manifest)
      && checkSignature host proof policy == .valid
      && signer policy proof == some approval.name
      && policy.singleOperator.all (fun model => proof.purpose == approval.purpose
        && proof.actor.any (fun actor => actor.kind == .human && actor.name == model.owner)
        && singleOperatorReviewAssertions.all proof.asserts)
      && decide (approval.approvedAt.time ≤ now)
      && proof.observedAt.text == approval.approvedAt.text
      && proof.asserts ("approval:" ++ approval.role.name))

/-- The age up to which a recovery point counts. -/
def recoveryAge (policy : GatePolicy) : Option ℕ :=
  (policy.evidenceType "recovery_point").bind EvidenceType.maxAgeMinutes

/-- The gaps of a recovery point. -/
def recoveryGaps (manifest : ReleaseManifest) (policy : GatePolicy) (now : Instant) : List String :=
  match manifest.recoveryPoint with
  | none => []
  | some point =>
    reason (decide (now < point.sealedAt.time)) "/recoveryPoint/sealed_in_future"
      ++ reason ((recoveryAge policy).any (fun age : ℕ =>
        decide ((age : ℤ) * 60000 ≤ now - point.sealedAt.time))) "/recoveryPoint/stale"

/-- The gaps of the manifest and of the evidence that counts. -/
def allGaps (manifest : ReleaseManifest) (policy : GatePolicy) (now : Instant)
    (counted : List EvidenceArtifact) : List String :=
  manifestGaps host manifest policy
    ++ manifest.evidenceIds.flatMap (fun id =>
      reason (!counted.any (fun artifact => artifact.id == id)) ("/evidence/" ++ id))
    ++ manifest.approvals.flatMap (fun approval =>
      reason (!approvalVerified host manifest policy now counted approval)
        ("/approvals/" ++ approval.role.name ++ "/unverified"))
    ++ reason (!decide (manifest.approvals.map Approval.evidenceId).Nodup)
      "/approvals/evidence_not_separate"
    ++ reason (policy.singleOperator.isSome
        && counted.any (fun artifact => [GateId.r11, .r12].contains artifact.gate))
      "/approvals/expanded_acceptance_bridge_unimplemented"
    ++ recoveryGaps manifest policy now

/-! ## Gates -/

/-- The gate that owns the legacy mapping. -/
def mappingGate (policy : GatePolicy) : Option GateId :=
  (policy.gates.find? Gate.requiresLegacyMapping).map Gate.id

def legacyApproved (policy : GatePolicy) (now : Instant) (counted : List EvidenceArtifact)
    (legacy : LegacyGate) : Bool :=
  legacy.approval.any (fun approval => decide (approval.approvedAt.time ≤ now)
    && counted.any (fun artifact => artifact.id == approval.evidenceId
      && some artifact.gate == mappingGate policy
      && artifact.type == "authority_decision_record"
      && checkSignature host artifact policy == .valid
      && signer policy artifact == some approval.approvedBy
      && decide (approval.approvedAt.time ≤ artifact.observedAt.time)
      && artifact.asserts ("legacy:" ++ legacy.id.name)))

/-- **What is known when the gates are evaluated.** -/
structure GateInputs where
  manifest : ReleaseManifest
  policy : GatePolicy
  trust : Option AdmittedReleaseTrust
  now : Instant
  counted : List EvidenceArtifact

/-- The evidence that counts for a gate. -/
def GateInputs.own (inputs : GateInputs) (id : GateId) : List EvidenceArtifact :=
  inputs.counted.filter (fun artifact => artifact.gate == id)

/-- What blocks the first gate of a single operator. -/
def authorityBlockers (inputs : GateInputs) (model : SingleOperator) : List String :=
  reason (!(admissionProblems host inputs.policy inputs.trust).isEmpty)
      "single_operator_trust_unadmitted"
    ++ reason (model.amendments.isNone || model.limitations.isNone || model.phasePermissions.isNone)
      "single_operator_ratification_incomplete"
    ++ reason (inputs.manifest.scope.entries.any (fun entry => entry.2.isEmpty))
      "single_operator_scope_unknown"
    ++ reason (!(inputs.own .r00).any (fun artifact => artifact.id == model.authorityEvidenceId
        && artifact.type == "authority_decision_record"
        && artifact.signature.map EvidenceSignature.keyId
          == inputs.trust.map AdmittedReleaseTrust.ownerKeyId
        && singleOperatorAuthorityAssertions.all artifact.asserts))
      "single_operator_authority_unapproved"

/-- **What blocks a gate**, given which gates before it pass. -/
def gateBlockers (inputs : GateInputs) (passed : GateId → Bool) (gate : Gate) : List String :=
  reason (inputs.manifest.policies.policyRevision != inputs.policy.policyRevision)
      "policy_revision_mismatch"
    ++ reason (inputs.manifest.specVersion != inputs.policy.specVersion) "spec_version_mismatch"
    ++ reason (!inputs.manifest.environment.isDeployed) "non_deployed_release"
    ++ reason (gate.stage == .postCutover && inputs.manifest.environment != .production)
      "production_required"
    ++ gate.dependsOn.flatMap (fun dependency =>
      reason (!passed dependency) ("dependency_blocked:" ++ dependency.name))
    ++ gate.requiredEvidence.flatMap (fun type =>
      reason (!(inputs.own gate.id).any (fun artifact => artifact.type == type))
        ("missing_evidence:" ++ type))
    ++ gate.requiredAssertions.flatMap (fun id =>
      reason (!(inputs.own gate.id).any (fun artifact => artifact.asserts id))
        ("missing_assertion:" ++ id))
    ++ reason (gate.requiresCompleteManifest
        && !(allGaps host inputs.manifest inputs.policy inputs.now inputs.counted).isEmpty)
      "manifest_incomplete"
    ++ (if gate.requiresLegacyMapping then inputs.policy.legacyGates.flatMap (fun legacy =>
        reason (legacy.disposition != .retainedObligation
            && !legacyApproved host inputs.policy inputs.now inputs.counted legacy)
          ("legacy_mapping_unapproved:" ++ legacy.id.name))
      else [])
    ++ (match inputs.policy.singleOperator with
      | none => []
      | some model =>
        (if gate.id = .r00 then authorityBlockers host inputs model else [])
          ++ reason ([GateId.r11, .r12].contains gate.id)
            "single_operator_acceptance_bridge_unimplemented")

/-- The order of the ids of evidence, by code unit. -/
def idLE (a b : String) : Prop :=
  JsonText.unitsLE (Utf16.encode a.toList) (Utf16.encode b.toList) = true

instance : DecidableRel idLE := fun a b => inferInstanceAs (Decidable
  (JsonText.unitsLE (Utf16.encode a.toList) (Utf16.encode b.toList) = true))

/-- A gate as it is reported. -/
def reportGate (inputs : GateInputs) (passed : GateId → Bool) (gate : Gate) : ReportedGate where
  id := gate.id
  title := gate.title
  stage := gate.stage
  status := if (gateBlockers host inputs passed gate).isEmpty then .pass else .blocked
  blockers := gateBlockers host inputs passed gate
  evidenceIds := ((inputs.own gate.id).map EvidenceArtifact.id).insertionSort idLE

/-- **The gates one after another**, each with the statuses of those before it. -/
def reportGates (inputs : GateInputs) : List Gate → List (GateId × GateStatus) → List ReportedGate
  | [], _ => []
  | gate :: gates, statuses =>
    let reported := reportGate host inputs (fun id => statuses.lookup id == some .pass) gate
    reported :: reportGates inputs gates ((gate.id, reported.status) :: statuses)

/-! ## The report -/

/-- Until when each thing that a report rests on may be relied on. -/
def expiryTimes (manifest : ReleaseManifest) (policy : GatePolicy) (now : Instant)
    (counted : List EvidenceArtifact) : List Instant :=
  (now + (policy.snapshotMaxAgeMinutes : ℤ) * 60000)
    :: counted.flatMap (fun artifact =>
      (((policy.evidenceType artifact.type).bind EvidenceType.maxAgeMinutes).map (fun age : ℕ =>
          artifact.observedAt.time + (age : ℤ) * 60000)).toList
        ++ (artifact.expiresAt.map InstantText.time).toList)
    ++ (match manifest.recoveryPoint, recoveryAge policy with
      | some point, some age =>
        let expires := point.sealedAt.time + (age : ℤ) * 60000
        if now < expires then [expires] else []
      | _, _ => [])

/-- The least of some instants, of which there is one at least. -/
def least : List Instant → Instant
  | [] => 0
  | t :: ts => ts.foldl min t

/-- A file of evidence as it is reported. -/
def reportEvidence (item : Assessed) : ReportedEvidence where
  file := item.file
  id := item.artifact.map EvidenceArtifact.id
  type := item.artifact.map EvidenceArtifact.type
  gate := item.artifact.map EvidenceArtifact.gate
  digest := item.digest
  artifactDigest := item.artifact.map host.evidenceDigest
  counted := item.artifact.isSome && item.reasons.isEmpty
  reasons := item.reasons

/-- What an evaluation is given. -/
structure EvaluationInput where
  manifest : ReleaseManifest
  policy : GatePolicy
  evidence : List EvidenceFile
  now : Instant
  admittedTrust : Option AdmittedReleaseTrust

/-- The files as they are assessed. -/
def EvaluationInput.assessed (input : EvaluationInput) : List Assessed :=
  assessEvidence host input.evidence input.manifest input.policy input.now
    (admissionProblems host input.policy input.admittedTrust)

/-- **The evidence that counts.** -/
def EvaluationInput.counted (input : EvaluationInput) : List EvidenceArtifact :=
  (input.assessed host).filterMap Assessed.counted

/-- What is known when the gates are evaluated. -/
def EvaluationInput.gateInputs (input : EvaluationInput) : GateInputs where
  manifest := input.manifest
  policy := input.policy
  trust := input.admittedTrust
  now := input.now
  counted := input.counted host

/-- The gates as they are reported. -/
def EvaluationInput.gates (input : EvaluationInput) : List ReportedGate :=
  reportGates host (input.gateInputs host) input.policy.gates []

/-- **When the report expires.** -/
def EvaluationInput.expires (input : EvaluationInput) : Instant :=
  least (expiryTimes input.manifest input.policy input.now (input.counted host))

/-- The report that is made, before its schema checks it. -/
def EvaluationInput.report (input : EvaluationInput) : ReportContent where
  evaluatedAt := String.ofList (IsoInstant.toISOText input.now)
  expiresAt := String.ofList (IsoInstant.toISOText (input.expires host))
  release :=
    { releaseSha := input.manifest.releaseSha
      environment := input.manifest.environment
      specVersion := input.manifest.specVersion
      manifestDigest := host.manifestDigest input.manifest
      gaps := allGaps host input.manifest input.policy input.now (input.counted host) }
  policy := ⟨input.policy.policyRevision, host.policyDigest input.policy⟩
  verdict :=
    if (input.gates host).all (fun gate => gate.status == .pass) then .pass else .blocked
  gates := input.gates host
  evidence := (input.assessed host).map (reportEvidence host)
  legacyGates := input.policy.legacyGates.map (fun legacy =>
    { id := legacy.id
      disposition := legacy.disposition
      gates := legacy.gates
      approved := legacy.disposition == .retainedObligation
        || legacyApproved host input.policy input.now (input.counted host) legacy })

/-- Why an evaluation throws. -/
inductive ReleaseError where
  /-- `ReleaseInputError`, of what a schema refuses. -/
  | invalid (what : String)
  | evaluationTime
  | evidencePaths
  /-- `RangeError`, of a date that is out of range. -/
  | invalidTime

/-- Throws where a condition fails. -/
def require (condition : Prop) [Decidable condition] (error : ReleaseError) :
    Except ReleaseError Unit :=
  if condition then .ok () else .error error

instance (t : ℤ) : Decidable (IsoInstant.ValidTime t) :=
  inferInstanceAs (Decidable (-IsoInstant.maxTime ≤ t ∧ t ≤ IsoInstant.maxTime))

/-- **`evaluateRelease`.** -/
def evaluateRelease (input : EvaluationInput) : Except ReleaseError ReadinessReport := do
  require (input.policy.refined = true) (.invalid "gate policy")
  require (input.manifest.refined = true) (.invalid "release manifest")
  require (input.admittedTrust.all (fun trust => trust.owner == "Ivan") = true)
    (.invalid "admitted release trust")
  require (IsoInstant.ValidTime input.now) .evaluationTime
  require (input.evidence.map EvidenceFile.file).Nodup .evidencePaths
  require (IsoInstant.ValidTime (input.expires host)) .invalidTime
  let report := input.report host
  require (report.refined = true) (.invalid "readiness report")
  .ok { report with snapshotId := host.snapshotDigest report }

end Release
