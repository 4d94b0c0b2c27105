import MsRealty.ResendInbox

/-!
# The records of a release

The contracts of a release (`src/release/schemas.ts`): its manifest, an artifact
of evidence, the policy of its gates and the trust an operator admits. Every
record has all the fields of its schema, since digests are taken of all of them.

The checks that the schemas make across fields are `GatePolicy.refined`,
`ReleaseManifest.refined` and the fields of `EvidenceArtifact`. The patterns of
single texts are left to the schemas.
-/

namespace Release

/-! ## Identifiers -/

/-- The gates of a release. -/
inductive GateId where
  | r00
  | r01
  | r02
  | r03
  | r04
  | r05
  | r06
  | r07
  | r08
  | r09
  | r10
  | r11
  | r12
  deriving DecidableEq

def gateIds : List GateId :=
  [.r00, .r01, .r02, .r03, .r04, .r05, .r06, .r07, .r08, .r09, .r10, .r11, .r12]

/-- The name of a gate. -/
def GateId.name : GateId → String
  | .r00 => "R00"
  | .r01 => "R01"
  | .r02 => "R02"
  | .r03 => "R03"
  | .r04 => "R04"
  | .r05 => "R05"
  | .r06 => "R06"
  | .r07 => "R07"
  | .r08 => "R08"
  | .r09 => "R09"
  | .r10 => "R10"
  | .r11 => "R11"
  | .r12 => "R12"

/-- The gates of the retired launch contract. -/
inductive LegacyGateId where
  | crawlInventory
  | redirectReviews
  | localizedSitemap
  | structuredData
  | listingQualityReview
  | runtimeSmoke
  | productionAppLayer
  | liveServices
  | monitoringRollback
  | payloadRuntime
  | r2MediaCoverage
  | productionRecovery
  deriving DecidableEq

def legacyGateIds : List LegacyGateId :=
  [.crawlInventory, .redirectReviews, .localizedSitemap, .structuredData, .listingQualityReview,
    .runtimeSmoke, .productionAppLayer, .liveServices, .monitoringRollback, .payloadRuntime,
    .r2MediaCoverage, .productionRecovery]

/-- The name of a retired gate. -/
def LegacyGateId.name : LegacyGateId → String
  | .crawlInventory => "crawl_inventory"
  | .redirectReviews => "redirect_reviews"
  | .localizedSitemap => "localized_sitemap"
  | .structuredData => "structured_data"
  | .listingQualityReview => "listing_quality_review"
  | .runtimeSmoke => "runtime_smoke"
  | .productionAppLayer => "production_app_layer"
  | .liveServices => "live_services"
  | .monitoringRollback => "monitoring_rollback"
  | .payloadRuntime => "payload_runtime"
  | .r2MediaCoverage => "r2_media_coverage"
  | .productionRecovery => "production_recovery"

/-- `evidenceEnvironments`. -/
inductive Environment where
  | localMachine
  | ci
  | staging
  | production
  deriving DecidableEq

/-- Whether a release is deployed there. -/
def Environment.isDeployed : Environment → Bool
  | .staging => true
  | .production => true
  | _ => false

/-- `evidenceClasses`. -/
inductive EvidenceClass where
  | test
  | live
  | human
  | operator
  deriving DecidableEq

/-- `evidencePurposes`. -/
inductive Purpose where
  | policyRatification
  | candidateReview
  | deploymentAcceptance
  | operationalAcceptance
  | humanReview
  | recoveryReview
  | machineObservation
  deriving DecidableEq

/-- `redactionStatuses`. -/
inductive RedactionStatus where
  | redacted
  | noPersonalData
  | unredactedRestricted
  deriving DecidableEq

/-- Who signs. -/
inductive ActorKind where
  | human
  | machine
  deriving DecidableEq

/-- The roles of an approval. -/
inductive ApprovalRole where
  | operator
  | reviewer
  | ownerSelfReview
  deriving DecidableEq

/-- The name of a role. -/
def ApprovalRole.name : ApprovalRole → String
  | .operator => "operator"
  | .reviewer => "reviewer"
  | .ownerSelfReview => "owner_self_review"

/-- When a gate is passed. -/
inductive Stage where
  | preCutover
  | cutover
  | postCutover
  deriving DecidableEq

/-- What becomes of a retired gate. -/
inductive Disposition where
  | retainedObligation
  | replacementProof
  | retirement
  deriving DecidableEq

/-- **An instant as it is written**, a date and time with its offset. -/
structure InstantText where
  text : String
  dated : (ResendInbox.offsetDatetime text.toList).isSome = true

/-- `Date.parse`. -/
def InstantText.time (instant : InstantText) : Instant :=
  (ResendInbox.offsetDatetime instant.text.toList).get instant.dated

/-- `identifier`. -/
def isIdentifier (text : String) : Bool :=
  decide (3 ≤ text.length ∧ text.length ≤ 128)
    && text.toList.all (fun c => c.isAlphanum || ['.', '_', ':', '-'].contains c)

/-- A document and its digest. -/
structure Reference where
  ref : String
  digest : String

/-! ## The manifest -/

/-- The artifacts of a release, where they are known. -/
structure ManifestArtifacts where
  web : Option String
  worker : Option String
  migration : Option String
  gateway : Option String

/-- The entries of the artifacts. -/
def ManifestArtifacts.entries (artifacts : ManifestArtifacts) : List (String × Option String) :=
  [("web", artifacts.web), ("worker", artifacts.worker), ("migration", artifacts.migration),
    ("gateway", artifacts.gateway)]

structure Revisions where
  dependencies : Option String
  model : Option String
  prompts : Option String
  schemas : Option String

structure DatabaseState where
  schemaDigest : Option String
  lastMigration : Option String

structure DataManifests where
  domains : Option String
  redirects : Option String
  media : Option String
  dataImport : Option String

structure Scope where
  services : List String
  regions : List String
  locales : List String
  channels : List String

/-- The lists of a scope, by their paths. -/
def Scope.entries (scope : Scope) : List (String × List String) :=
  [("/scope/services", scope.services), ("/scope/regions", scope.regions),
    ("/scope/locales", scope.locales), ("/scope/channels", scope.channels)]

structure ManifestPolicies where
  policyRevision : String
  roles : Option String
  retention : Option String
  templates : Option String

/-- **An approval of a release.** -/
structure Approval where
  role : ApprovalRole
  name : String
  approvedAt : InstantText
  evidenceId : String
  purpose : Option Purpose

structure RecoveryPoint where
  id : String
  sealedAt : InstantText

structure Procedures where
  cutover : Option Reference
  rollback : Option Reference

/-- **The manifest of a release.** -/
structure ReleaseManifest where
  /-- `$schema`. -/
  schema : Option String
  specVersion : String
  releaseSha : String
  environment : Environment
  artifacts : ManifestArtifacts
  revisions : Revisions
  providerAccounts : List (String × Option String)
  database : DatabaseState
  manifests : DataManifests
  scope : Scope
  policies : ManifestPolicies
  evidenceIds : List String
  /-- The entries of the record of pins. -/
  evidenceDigests : List (String × String)
  approvals : List Approval
  recoveryPoint : Option RecoveryPoint
  procedures : Procedures

/-- What the schema of a manifest checks across its fields. -/
def ReleaseManifest.refined (manifest : ReleaseManifest) : Bool :=
  decide manifest.evidenceIds.Nodup
    && decide (manifest.evidenceIds.Perm (manifest.evidenceDigests.map Prod.fst))

/-! ## Evidence -/

structure EvidenceActor where
  kind : ActorKind
  name : String
  /-- The version of a machine. -/
  version : Option String

structure Assertion where
  id : String
  passed : Bool
  detail : Option String

structure EvidenceSignature where
  keyId : String
  value : String

/-- **An artifact of evidence.** -/
structure EvidenceArtifact where
  id : String
  type : String
  gate : GateId
  environment : Environment
  evidenceClass : EvidenceClass
  releaseSha : String
  digests : List (String × String)
  policyRevision : String
  policyDigest : String
  dataDigest : String
  attestedEvidenceDigest : Option String
  observedAt : InstantText
  expiresAt : Option InstantText
  source : String
  actor : Option EvidenceActor
  purpose : Option Purpose
  reviewer : Option String
  assertions : List Assertion
  redactionStatus : RedactionStatus
  signature : Option EvidenceSignature
  identified : isIdentifier id = true
  typed : isIdentifier type = true
  /-- No assertion is made twice. -/
  distinct : (assertions.map Assertion.id).Nodup
  /-- It does not expire before it is observed. -/
  follows : ∀ instant ∈ expiresAt, observedAt.time < instant.time

/-- Whether an artifact asserts that a check passed. -/
def EvidenceArtifact.asserts (artifact : EvidenceArtifact) (id : String) : Bool :=
  artifact.assertions.any (fun assertion => assertion.id == id && assertion.passed)

/-! ## The policy -/

/-- **What a policy says of a single operator.** -/
structure SingleOperator where
  owner : String
  authorityEvidenceId : String
  amendments : Option Reference
  limitations : Option Reference
  phasePermissions : Option Reference

/-- The models of approval. -/
inductive ApprovalModel where
  | separateReviewers
  | singleOperator (model : SingleOperator)

/-- **A key the policy trusts.** -/
structure TrustedKey where
  keyId : String
  owner : String
  publicKey : String
  evidenceTypes : List String
  actorKind : Option ActorKind
  purposes : Option (List Purpose)

/-- An environment a type of evidence is accepted from: one of them, or that of
the release. -/
inductive AcceptedEnvironment where
  | of (environment : Environment)
  | release

/-- **A type of evidence.** -/
structure EvidenceType where
  id : String
  description : String
  environments : List AcceptedEnvironment
  classes : List EvidenceClass
  requiredAssertions : List String
  maxAgeMinutes : Option ℕ
  signatureRequired : Bool
  reviewerRequired : Bool
  bindsArtifacts : Bool

/-- **A gate of the policy.** -/
structure Gate where
  id : GateId
  title : String
  stage : Stage
  exitEvidence : String
  dependsOn : List GateId
  requiredEvidence : List String
  requiredAssertions : List String
  requiresCompleteManifest : Bool
  requiresLegacyMapping : Bool

structure LegacyApproval where
  approvedBy : String
  approvedAt : InstantText
  evidenceId : String

/-- **A retired gate** and what the policy maps it to. -/
structure LegacyGate where
  id : LegacyGateId
  disposition : Disposition
  gates : List GateId
  evidenceTypes : List String
  note : String
  approval : Option LegacyApproval

/-- **The policy of the gates.** -/
structure GatePolicy where
  /-- `$schema`. -/
  schema : Option String
  policyRevision : String
  specVersion : String
  approvalModel : Option ApprovalModel
  snapshotMaxAgeMinutes : ℕ
  trustedKeys : List TrustedKey
  evidenceTypes : List EvidenceType
  gates : List Gate
  legacyGates : List LegacyGate

/-- The model of a single operator, if it is the policy's. -/
def GatePolicy.singleOperator (policy : GatePolicy) : Option SingleOperator :=
  match policy.approvalModel with
  | some (.singleOperator model) => some model
  | _ => none

/-- The type of an id. -/
def GatePolicy.evidenceType (policy : GatePolicy) (id : String) : Option EvidenceType :=
  policy.evidenceTypes.find? (fun type => type.id == id)

/-- **The trust an operator admits.** -/
structure AdmittedReleaseTrust where
  policyDigest : String
  trustedKeysDigest : String
  owner : String
  ownerKeyId : String
  ownerKeyFingerprint : String
  custodyReference : String

def singleOperatorAuthorityAssertions : List String :=
  ["authority:single_operator_owner_review", "authority:shared_custody_limitations",
    "authority:phase_permissions", "authority:amendments_reviewed"]

def singleOperatorReviewAssertions : List String :=
  ["approval:owner_self_review", "release:operator_completion", "release:owner_self_review",
    "release:operator_custody", "release:cutover_procedure_scope_reviewed",
    "release:evidence_bundle_captured", "release:evidence_bundle_verified",
    "release:protected_staging_parity"]

/-! ## What the schema of a policy checks -/

/-- The gates a gate has to depend on. -/
def mustDependOn : GateId → List GateId
  | .r00 => []
  | .r10 => gateIds.take 10
  | .r11 => [.r00, .r10]
  | .r12 => [.r00, .r11]
  | _ => [.r00]

/-- Whether a policy has a type of evidence. -/
def GatePolicy.hasType (policy : GatePolicy) (id : String) : Bool :=
  (policy.evidenceTypes.map EvidenceType.id).contains id

/-- The checks of a gate, with its place in the list. -/
def GatePolicy.gateRefined (policy : GatePolicy) (gate : Gate) (index : ℕ) : Bool :=
  (mustDependOn gate.id).all gate.dependsOn.contains
    && (gate.id != .r00 || gate.requiresLegacyMapping)
    && (!([GateId.r10, .r11, .r12].contains gate.id) || gate.requiresCompleteManifest)
    && (gate.requiresLegacyMapping == (gate.id == .r00))
    && gate.dependsOn.all (fun dependency =>
      decide ((policy.gates.map Gate.id).idxOf dependency < index))
    && !gate.requiredEvidence.isEmpty
    && gate.requiredEvidence.all policy.hasType

/-- The checks of a retired gate. -/
def GatePolicy.legacyRefined (policy : GatePolicy) (legacy : LegacyGate) : Bool :=
  (legacy.disposition == .retirement
      || !legacy.gates.isEmpty && !legacy.evidenceTypes.isEmpty)
    && legacy.evidenceTypes.all (fun type => policy.hasType type
      && policy.gates.any (fun gate =>
        legacy.gates.contains gate.id && gate.requiredEvidence.contains type))

/-- The id of an acceptance test. -/
def acceptanceId (n : ℕ) : String := String.ofList ('A' :: 'T' :: DecimalText.zeroPad 2 n)

/-- The checks of a key of a single operator. -/
def singleOperatorKeyRefined (model : SingleOperator) (key : TrustedKey) : Bool :=
  key.actorKind.isSome && key.purposes.isSome
    && (key.actorKind != some .human || key.owner == model.owner)
    && (key.purposes.getD []).all (fun purpose =>
      (key.actorKind == some .machine) == (purpose == .machineObservation))

/-- A type a single operator's policy has to require assertions of. -/
def GatePolicy.requiresAssertions (policy : GatePolicy) (typeId : String)
    (assertions : List String) : Bool :=
  (policy.evidenceType typeId).any (fun type => type.signatureRequired && type.reviewerRequired
    && assertions.all type.requiredAssertions.contains)

/-- The checks of a single operator's policy. -/
def GatePolicy.singleOperatorRefined (policy : GatePolicy) (model : SingleOperator) : Bool :=
  model.owner == "Ivan"
    && policy.trustedKeys.all (singleOperatorKeyRefined model)
    && policy.requiresAssertions "authority_decision_record" singleOperatorAuthorityAssertions
    && policy.requiresAssertions "release_attestation" singleOperatorReviewAssertions
    && !((policy.evidenceType "release_attestation").any
      (fun type => type.requiredAssertions.contains "release:cutover_approved"))
    && [(GateId.r00, "authority_decision_record"), (.r10, "release_attestation")].all (fun need =>
      (policy.gates.find? (fun gate => gate.id == need.1)).any
        (fun gate => gate.requiredEvidence.contains need.2))

/-- **What the schema of a policy checks**: the bounds of its numbers and lists,
and its fields against each other. -/
def GatePolicy.refined (policy : GatePolicy) : Bool :=
  decide (0 < policy.snapshotMaxAgeMinutes ∧ policy.snapshotMaxAgeMinutes ≤ 1440)
    && policy.trustedKeys.all (fun key =>
      !key.evidenceTypes.isEmpty && key.purposes.all (fun purposes => !purposes.isEmpty))
    && policy.evidenceTypes.all (fun type => !type.environments.isEmpty && !type.classes.isEmpty
      && !type.requiredAssertions.isEmpty && type.maxAgeMinutes.all (fun age => decide (0 < age)))
    && decide (policy.evidenceTypes.map EvidenceType.id).Nodup
    && decide (policy.gates.map Gate.id = gateIds)
    && policy.gates.zipIdx.all (fun entry => policy.gateRefined entry.1 entry.2)
    && decide ((policy.legacyGates.map LegacyGate.id).Perm legacyGateIds)
    && policy.legacyGates.all policy.legacyRefined
    && decide (policy.trustedKeys.map TrustedKey.keyId).Nodup
    && decide (policy.trustedKeys.map TrustedKey.publicKey).Nodup
    && (List.range' 1 68).all (fun n =>
      (policy.gates.flatMap Gate.requiredAssertions).contains (acceptanceId n))
    && policy.trustedKeys.all (fun key => key.evidenceTypes.all policy.hasType)
    && policy.singleOperator.all policy.singleOperatorRefined

/-! ## The report -/

/-- `gateStatuses`. -/
inductive GateStatus where
  | pass
  | blocked
  deriving DecidableEq

structure ReportedRelease where
  releaseSha : String
  environment : Environment
  specVersion : String
  manifestDigest : String
  gaps : List String

structure ReportedPolicy where
  policyRevision : String
  policyDigest : String

/-- A gate as it is reported. -/
structure ReportedGate where
  id : GateId
  title : String
  stage : Stage
  status : GateStatus
  blockers : List String
  evidenceIds : List String

/-- A file of evidence as it is reported. -/
structure ReportedEvidence where
  file : String
  id : Option String
  type : Option String
  gate : Option GateId
  digest : String
  artifactDigest : Option String
  counted : Bool
  reasons : List String

structure ReportedLegacyGate where
  id : LegacyGateId
  disposition : Disposition
  gates : List GateId
  approved : Bool

/-- **A readiness report**, without its own digest. -/
structure ReportContent where
  evaluatedAt : String
  expiresAt : String
  release : ReportedRelease
  policy : ReportedPolicy
  verdict : GateStatus
  gates : List ReportedGate
  evidence : List ReportedEvidence
  legacyGates : List ReportedLegacyGate

/-- **A readiness report.** -/
structure ReadinessReport extends ReportContent where
  snapshotId : String

/-- Whether a report says that a gate passes. -/
def ReportContent.passes (report : ReportContent) (id : GateId) : Prop :=
  ∃ gate ∈ report.gates, gate.id = id ∧ gate.status = .pass

instance (report : ReportContent) (id : GateId) : Decidable (report.passes id) :=
  inferInstanceAs (Decidable (∃ gate ∈ report.gates, gate.id = id ∧ gate.status = .pass))

/-- The checks of a reported gate. -/
def ReportContent.gateRefined (report : ReportContent) (gate : ReportedGate) : Bool :=
  ((gate.status == .pass) == gate.blockers.isEmpty)
    && (gate.status != .pass || !gate.evidenceIds.isEmpty)
    && gate.evidenceIds.all (fun id => report.evidence.any (fun item =>
      item.id == some id && item.gate == some gate.id && item.counted))

/-- The checks of a reported file. -/
def ReportedEvidence.refined (item : ReportedEvidence) : Bool :=
  if item.counted then
    item.id.any (· != "") && item.type.any (· != "") && item.gate.isSome
      && item.artifactDigest.any (· != "") && item.reasons.isEmpty
  else !item.reasons.isEmpty

/-- What the schema of a report checks of its instants: they are dates, and the
report expires within a day of its evaluation. -/
def ReportContent.datesRefined (report : ReportContent) : Bool :=
  match ResendInbox.offsetDatetime report.evaluatedAt.toList,
    ResendInbox.offsetDatetime report.expiresAt.toList with
  | some evaluated, some expires =>
    decide (0 < expires - evaluated ∧ expires - evaluated ≤ 1440 * 60000)
  | _, _ => false

/-- **What the schema of a report checks.** -/
def ReportContent.refined (report : ReportContent) : Bool :=
  report.datesRefined
    && decide (report.gates.map ReportedGate.id = gateIds)
    && (report.verdict
      == (if report.gates.all (fun gate => gate.status == .pass) then .pass else .blocked))
    && (report.verdict != .pass
      || report.release.environment == .production && report.release.gaps.isEmpty)
    && report.gates.all report.gateRefined
    && report.evidence.all ReportedEvidence.refined
    && decide ((report.legacyGates.map ReportedLegacyGate.id).Perm legacyGateIds)

end Release
