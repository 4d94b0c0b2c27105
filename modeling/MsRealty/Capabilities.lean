import Mathlib.Data.Int.Notation
import Mathlib.Data.List.Basic

/-!
# Capabilities, roles and the capability check

The catalog of capabilities and role presets and the server-side check
(`src/domain/capabilities.ts`). A grant gives one capability, optionally
narrowed to one record, to some locales or to a time; `hasCapability` asks
whether some grant reaches a context.

Identifiers are the strings the database hands out, instants the
milliseconds of a `Date`.
-/

/-- A database identifier. -/
abbrev Uuid := String

/-- An instant, in milliseconds since the epoch. -/
abbrev Instant := ℤ

/-- Whether `s` starts with `pre`. -/
def startsWith (s pre : String) : Bool := pre.toList.isPrefixOf s.toList

/-- The kinds of actor. -/
inductive ActorKind where
  | staff
  | client
  | visitor
  | aiService
  | system
  deriving DecidableEq

/-- Who acts. -/
structure Actor where
  /-- What kind of actor it is. -/
  kind : ActorKind
  /-- The principal, visitor, service or job. -/
  id : String

/-- The locales the agency publishes in. -/
inductive PublicLocale where
  | bg
  | en
  | ru
  | de
  | nl
  | el
  | he
  deriving DecidableEq

/-- The name of a locale in the database. -/
def PublicLocale.name : PublicLocale → String
  | .bg => "bg"
  | .en => "en"
  | .ru => "ru"
  | .de => "de"
  | .nl => "nl"
  | .el => "el"
  | .he => "he"

/-- The locale of the source copy. -/
def sourceLocale : PublicLocale := .bg

/-- **The capability catalog.** -/
inductive Capability where
  | inquirySubmit
  | portalCaseRead
  | portalAccessRequest
  | portalBriefAcknowledge
  | portalInterestRespond
  | portalMessageWrite
  | portalDocumentUpload
  | portalAppointmentRequest
  | portalProposalRespond
  | portalListingAcknowledge
  | inquiryRead
  | inquiryAssign
  | inquiryRespond
  | caseRead
  | caseReadInternal
  | caseTransition
  | taskManage
  | interestManage
  | listingRead
  | listingEdit
  | listingReviewFacts
  | mediaManage
  | translationDraft
  | translationReview
  | publicationRelease
  | contentEdit
  | claimApprove
  | complianceReview
  | complianceSuspicion
  | messageDraft
  | messageSendExternal
  | appointmentManage
  | documentReadRestricted
  | documentReview
  | proposalManage
  | accessGrant
  | reportRead
  | settingsManage
  | importRun
  | privacyManage
  | complaintManage
  | keyManage
  | auditRead
  | aiDraft
  deriving DecidableEq

namespace Capability

/-- The capability's string. -/
def name : Capability → String
  | .inquirySubmit => "inquiry.submit"
  | .portalCaseRead => "portal.case.read"
  | .portalAccessRequest => "portal.access.request"
  | .portalBriefAcknowledge => "portal.brief.acknowledge"
  | .portalInterestRespond => "portal.interest.respond"
  | .portalMessageWrite => "portal.message.write"
  | .portalDocumentUpload => "portal.document.upload"
  | .portalAppointmentRequest => "portal.appointment.request"
  | .portalProposalRespond => "portal.proposal.respond"
  | .portalListingAcknowledge => "portal.listing.acknowledge"
  | .inquiryRead => "inquiry.read"
  | .inquiryAssign => "inquiry.assign"
  | .inquiryRespond => "inquiry.respond"
  | .caseRead => "case.read"
  | .caseReadInternal => "case.read_internal"
  | .caseTransition => "case.transition"
  | .taskManage => "task.manage"
  | .interestManage => "interest.manage"
  | .listingRead => "listing.read"
  | .listingEdit => "listing.edit"
  | .listingReviewFacts => "listing.review_facts"
  | .mediaManage => "media.manage"
  | .translationDraft => "translation.draft"
  | .translationReview => "translation.review"
  | .publicationRelease => "publication.release"
  | .contentEdit => "content.edit"
  | .claimApprove => "claim.approve"
  | .complianceReview => "compliance.review"
  | .complianceSuspicion => "compliance.suspicion"
  | .messageDraft => "message.draft"
  | .messageSendExternal => "message.send_external"
  | .appointmentManage => "appointment.manage"
  | .documentReadRestricted => "document.read_restricted"
  | .documentReview => "document.review"
  | .proposalManage => "proposal.manage"
  | .accessGrant => "access.grant"
  | .reportRead => "report.read"
  | .settingsManage => "settings.manage"
  | .importRun => "import.run"
  | .privacyManage => "privacy.manage"
  | .complaintManage => "complaint.manage"
  | .keyManage => "key.manage"
  | .auditRead => "audit.read"
  | .aiDraft => "ai.draft"

/-- Every capability. -/
def all : List Capability :=
  [.inquirySubmit, .portalCaseRead, .portalAccessRequest, .portalBriefAcknowledge,
    .portalInterestRespond, .portalMessageWrite, .portalDocumentUpload,
    .portalAppointmentRequest, .portalProposalRespond, .portalListingAcknowledge,
    .inquiryRead, .inquiryAssign, .inquiryRespond, .caseRead, .caseReadInternal,
    .caseTransition, .taskManage, .interestManage, .listingRead, .listingEdit,
    .listingReviewFacts, .mediaManage, .translationDraft, .translationReview,
    .publicationRelease, .contentEdit, .claimApprove, .complianceReview,
    .complianceSuspicion, .messageDraft, .messageSendExternal, .appointmentManage,
    .documentReadRestricted, .documentReview, .proposalManage, .accessGrant,
    .reportRead, .settingsManage, .importRun, .privacyManage, .complaintManage,
    .keyManage, .auditRead, .aiDraft]

/-- Reads a capability's string; `isCapability` is whether there is one. -/
def ofName? (s : String) : Option Capability := all.find? (fun c => c.name == s)

end Capability

/-- Capabilities that only ever produce drafts; everything else is
consequential. -/
def draftOnlyCapabilities : List Capability :=
  [.aiDraft, .translationDraft, .messageDraft]

/-- The roles. -/
inductive Role where
  | visitor
  | verifiedClient
  | invitedCollaborator
  | assignedBroker
  | coordinator
  | contentEditor
  | translationReviewer
  | publishingApprover
  | manager
  | externalSpecialist
  | aiService
  deriving DecidableEq

/-- The capabilities each role holds. -/
def rolePresets : Role → List Capability
  | .visitor => [.inquirySubmit]
  | .verifiedClient =>
    [.inquirySubmit, .portalCaseRead, .portalAccessRequest,
      .portalBriefAcknowledge, .portalInterestRespond, .portalMessageWrite,
      .portalDocumentUpload, .portalAppointmentRequest,
      .portalProposalRespond, .portalListingAcknowledge]
  | .invitedCollaborator => [.portalCaseRead, .portalInterestRespond]
  | .assignedBroker =>
    [.inquiryRead, .inquiryAssign, .inquiryRespond, .caseRead,
      .caseReadInternal, .caseTransition, .taskManage, .interestManage,
      .listingRead, .listingEdit, .mediaManage, .translationDraft,
      .messageDraft, .messageSendExternal, .appointmentManage,
      .documentReadRestricted, .proposalManage, .aiDraft]
  | .coordinator =>
    [.inquiryRead, .caseRead, .taskManage, .listingRead, .appointmentManage,
      .messageDraft]
  | .contentEditor =>
    [.listingRead, .listingEdit, .mediaManage, .contentEdit,
      .translationDraft, .aiDraft]
  | .translationReviewer => [.listingRead, .translationDraft, .translationReview]
  | .publishingApprover => [.listingRead, .listingReviewFacts, .publicationRelease]
  | .manager =>
    [.inquiryRead, .inquiryAssign, .caseRead, .caseReadInternal, .taskManage,
      .listingRead, .reportRead, .accessGrant, .settingsManage, .importRun,
      .privacyManage, .complaintManage, .keyManage, .auditRead]
  | .externalSpecialist => [.portalCaseRead, .portalDocumentUpload]
  | .aiService => draftOnlyCapabilities

/-- Background jobs, by actor id, and the capabilities of the transitions
they report on. -/
def systemJobCapabilities (id : String) : List Capability :=
  if id = "publication-delivery" then [.publicationRelease]
  else if id = "document-scanner" then [.portalDocumentUpload, .documentReview]
  else if id = "file-scanner" then [.mediaManage, .documentReview]
  else if id = "message-outbox" then [.messageSendExternal]
  else if id = "message-provider-callback" then [.messageSendExternal]
  else if id = "freshness-timer" then [.listingReviewFacts]
  else []

/-- What a grant is narrowed to; an absent field narrows nothing. -/
structure CapabilityScope where
  /-- The type of the one record the grant is for. -/
  recordType : Option String
  /-- The id of the one record the grant is for. -/
  recordId : Option Uuid
  /-- The locales of a locale-scoped grant. -/
  locales : Option (List PublicLocale)
  /-- The instant from which the grant no longer applies. -/
  expiresAt : Option Instant
  deriving DecidableEq

/-- A grant of one capability. -/
structure CapabilityGrant where
  /-- The capability. -/
  capability : Capability
  /-- What it is narrowed to, if anything. -/
  scope : Option CapabilityScope
  deriving DecidableEq

/-- What a check is about. -/
structure CapabilityContext where
  /-- The type of the record. -/
  recordType : Option String
  /-- The id of the record. -/
  recordId : Option Uuid
  /-- The locale of the record. -/
  locale : Option PublicLocale
  /-- The clock; a grant that expires needs one to be honoured. -/
  now : Option Instant

/-- Whether a capability only produces drafts. -/
def isDraftOnly (capability : Capability) : Bool :=
  capability ∈ draftOnlyCapabilities

/-- A string scope that is present and not empty demands equality. -/
def scopeCovers (limit asked : Option String) : Bool :=
  match limit with
  | none => true
  | some s => s == "" || asked == some s

/-- Whether a scope reaches a context. -/
def CapabilityScope.reaches (scope : CapabilityScope) (context : CapabilityContext) :
    Bool :=
  (match scope.expiresAt with
    | none => true
    | some expiry =>
      match context.now with
      | none => false
      | some now => now < expiry)
  && scopeCovers scope.recordType context.recordType
  && scopeCovers scope.recordId context.recordId
  && (match scope.locales with
    | none => true
    | some locales =>
      match context.locale with
      | none => false
      | some locale => locale ∈ locales)

/-- Whether a grant gives the capability in a context. -/
def CapabilityGrant.gives (grant : CapabilityGrant) (capability : Capability)
    (context : CapabilityContext) : Bool :=
  grant.capability = capability &&
    (match grant.scope with
      | none => true
      | some scope => scope.reaches context)

/-- **The server-side capability check.** The AI service never holds a
consequential capability, whatever grants are presented for it. -/
def hasCapability (actor : Actor) (grants : List CapabilityGrant)
    (capability : Capability) (context : CapabilityContext) : Bool :=
  if actor.kind = .aiService && !isDraftOnly capability then false
  else grants.any (fun grant => grant.gives capability context)

/-- A capability held is given by one of the grants. -/
theorem exists_gives_of_hasCapability {actor : Actor}
    {grants : List CapabilityGrant} {capability : Capability}
    {context : CapabilityContext}
    (h : hasCapability actor grants capability context = true) :
    ∃ grant ∈ grants, grant.gives capability context = true := by
  unfold hasCapability at h
  split at h
  · exact absurd h (by simp)
  · exact List.any_eq_true.mp h

/-- Anyone but the AI service holds what one of its grants gives. -/
theorem hasCapability_of_gives {actor : Actor} {grants : List CapabilityGrant}
    {capability : Capability} {context : CapabilityContext}
    (hactor : actor.kind ≠ .aiService) {grant : CapabilityGrant}
    (hmem : grant ∈ grants) (h : grant.gives capability context = true) :
    hasCapability actor grants capability context = true := by
  unfold hasCapability
  rw [if_neg (by simp [hactor])]
  exact List.any_eq_true.mpr ⟨grant, hmem, h⟩
