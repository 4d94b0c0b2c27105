import MsRealty.JsonValue
import MsRealty.Capabilities

/-!
# Application errors

The stable error codes and what each says about a retry
(`src/server/errors.ts`). Retryability is the code's; what is known about the
outcome is the code's unless the thrower says otherwise.
-/

/-- **The error codes.** -/
inductive ErrorCode where
  | validationFailed
  | unauthenticated
  | stepUpRequired
  | forbidden
  | butlerApprovalRequired
  | notFound
  | crossOriginRequest
  | versionConflict
  | idempotencyKeyReused
  | operationPending
  | outcomeUnknown
  | approvalStale
  | publicationIneligible
  | listingUnavailable
  | transitionDenied
  | linkInvalid
  | linkExpired
  | linkConsumed
  | linkRevoked
  | invitationExpired
  | invitationUsed
  | invitationRevoked
  | passkeyFailed
  | rateLimited
  | unavailable
  | internalError
  deriving DecidableEq

/-- What is known about the requested change. -/
inductive KnownOutcome where
  | notApplied
  | applied
  | unknown
  deriving DecidableEq

namespace ErrorCode

/-- The internal code as it is stored. -/
def name : ErrorCode → String
  | .validationFailed => "validation_failed"
  | .unauthenticated => "unauthenticated"
  | .stepUpRequired => "step_up_required"
  | .forbidden => "forbidden"
  | .butlerApprovalRequired => "butler_approval_required"
  | .notFound => "not_found"
  | .crossOriginRequest => "cross_origin_request"
  | .versionConflict => "version_conflict"
  | .idempotencyKeyReused => "idempotency_key_reused"
  | .operationPending => "operation_pending"
  | .outcomeUnknown => "outcome_unknown"
  | .approvalStale => "approval_stale"
  | .publicationIneligible => "publication_ineligible"
  | .listingUnavailable => "listing_unavailable"
  | .transitionDenied => "transition_denied"
  | .linkInvalid => "link_invalid"
  | .linkExpired => "link_expired"
  | .linkConsumed => "link_consumed"
  | .linkRevoked => "link_revoked"
  | .invitationExpired => "invitation_expired"
  | .invitationUsed => "invitation_used"
  | .invitationRevoked => "invitation_revoked"
  | .passkeyFailed => "passkey_failed"
  | .rateLimited => "rate_limited"
  | .unavailable => "unavailable"
  | .internalError => "internal_error"

/-- Every code. -/
def all : List ErrorCode :=
  [.validationFailed, .unauthenticated, .stepUpRequired, .forbidden,
    .butlerApprovalRequired, .notFound, .crossOriginRequest, .versionConflict,
    .idempotencyKeyReused, .operationPending, .outcomeUnknown, .approvalStale,
    .publicationIneligible, .listingUnavailable, .transitionDenied,
    .linkInvalid, .linkExpired, .linkConsumed, .linkRevoked,
    .invitationExpired, .invitationUsed, .invitationRevoked, .passkeyFailed,
    .rateLimited, .unavailable, .internalError]

/-- Reads a stored code; no other string has a definition. -/
def ofName? (s : String) : Option ErrorCode := all.find? (fun c => c.name == s)

/-- **Every stored code is read back.** -/
@[simp] theorem ofName?_name (code : ErrorCode) : ofName? code.name = some code := by
  cases code <;> decide

/-- Whether the failure may be retried. -/
def retryable : ErrorCode → Bool
  | .operationPending => true
  | .rateLimited => true
  | .unavailable => true
  | .internalError => true
  | _ => false

/-- What the code says about the requested change. -/
def outcome : ErrorCode → KnownOutcome
  | .operationPending => .unknown
  | .outcomeUnknown => .unknown
  | .internalError => .unknown
  | _ => .notApplied

end ErrorCode

/-- Field errors: the codes recorded against each field. -/
abbrev FieldErrors := List (String × List String)

/-- Field errors as a JSON column stores them. -/
def FieldErrors.toJson (errors : FieldErrors) : JsonValue :=
  .obj (errors.map (fun e => (e.fst, .arr (e.snd.map .str))))

/-- The strings of a JSON array of strings. -/
def stringItems : JsonValue → List String
  | .arr items => items.filterMap JsonValue.asString?
  | _ => []

@[simp] theorem stringItems_arr (codes : List String) :
    stringItems (.arr (codes.map .str)) = codes := by
  show (codes.map JsonValue.str).filterMap JsonValue.asString? = codes
  rw [List.filterMap_map]
  exact List.filterMap_some

/-- Reads stored field errors. -/
def FieldErrors.ofJson : JsonValue → FieldErrors
  | .obj members => members.map (fun m => (m.fst, stringItems m.snd))
  | _ => []

/-- **Field errors survive their storage.** -/
@[simp] theorem FieldErrors.ofJson_toJson (errors : FieldErrors) :
    FieldErrors.ofJson errors.toJson = errors := by
  show (errors.map (fun e => (e.fst, JsonValue.arr (e.snd.map .str)))).map
    (fun m => (m.fst, stringItems m.snd)) = errors
  rw [List.map_map]
  exact (List.map_congr_left (fun e _ => by simp)).trans (List.map_id errors)

/-- **An application error.** `C` is the type of the current value a conflict
carries: any value where it is thrown, JSON where it is stored. -/
structure AppError (C : Type*) where
  /-- The stable code. -/
  code : ErrorCode
  /-- What is known about the requested change. -/
  outcome : KnownOutcome
  /-- Field errors, if the error names fields. -/
  fieldErrors : Option FieldErrors
  /-- The current value, if the error carries one. -/
  current : Option C

namespace AppError

variable {C : Type*}

/-- The error of a code, with nothing but what the code says. -/
def ofCode (code : ErrorCode) : AppError C := ⟨code, code.outcome, none, none⟩

/-- Whether the failure may be retried. -/
def retryable (e : AppError C) : Bool := e.code.retryable

end AppError

/-- What a function can throw. -/
inductive Thrown (C : Type*) where
  /-- An application error. -/
  | appError (e : AppError C)
  /-- Anything else: a database error, a lost connection, a defect. -/
  | other
