import MsRealty.StaffedTime

/-!
# The operating policy

The operating policy of the agency and the approved snapshot of it that is kept with what
was measured under it (`src/domain/operating-policy.ts`). A snapshot is read again
wherever it is used, by the schema that made it; what the schema makes of a value, it
reads as the same.
-/

namespace OperatingPolicy

open Schema

/-! ## Schemas of fields -/

def optionalReference : Reader (Option String) := nullable (Inventory.trimmed 3 1500)

/-- `z.uuid()`. -/
def uuid : Reader String := stringWhere (fun s => Search.isUuid s.toList)

def optionalOwner : Reader (Option String) := nullable uuid

/-- A text that may be null, as JSON. -/
def writeText : Option String → JsonValue := writeNullable .str

/-- A number that may be null, as JSON. -/
def writeNumber : Option ℤ → JsonValue := writeNullable (fun n => .num (n : ℚ))

theorem stable_optionalReference : Stable optionalReference writeText :=
  (stable_trimmed 3 1500).nullable (fun _ h => JsonValue.noConfusion h)

theorem stable_uuid : Stable uuid JsonValue.str := stable_stringWhere _

theorem stable_optionalOwner : Stable optionalOwner writeText :=
  stable_uuid.nullable (fun _ h => JsonValue.noConfusion h)

theorem stable_days (least most : ℤ) : Stable (nullable (integer least most)) writeNumber :=
  (stable_integer least most).nullable (fun _ h => JsonValue.noConfusion h)

/-! ## The document -/

/-- Who is responsible. -/
structure Responsibilities where
  service : Option String
  privacy : Option String
  alerts : Option String

/-- What contact may be for. -/
structure ContactPurposes where
  service : Option String
  savedSearch : Option String
  marketing : Option String

/-- After how many days availability is reviewed. -/
structure AvailabilityReviewDays where
  sale : Option ℤ
  longTermRent : Option ℤ

/-- `OperatingPolicy`. -/
structure PolicyDocument where
  serviceCalendar : Option ServiceCalendar
  coverage : Option String
  responsibilities : Responsibilities
  contactPurposes : ContactPurposes
  retentionReference : Option String
  vendorReference : Option String
  processReference : Option String
  alertReference : Option String
  availabilityReviewDays : AvailabilityReviewDays

def responsibilities : Reader Responsibilities := fun value => do
  let service ← optionalOwner (member "service" value)
  let privacy ← optionalOwner (member "privacy" value)
  let alerts ← optionalOwner (member "alerts" value)
  some ⟨service, privacy, alerts⟩

def contactPurposes : Reader ContactPurposes := fun value => do
  let service ← optionalReference (member "service" value)
  let savedSearch ← optionalReference (member "savedSearch" value)
  let marketing ← optionalReference (member "marketing" value)
  some ⟨service, savedSearch, marketing⟩

def availabilityReviewDays : Reader AvailabilityReviewDays := fun value => do
  let sale ← nullable (integer 1 14) (member "sale" value)
  let longTermRent ← nullable (integer 1 7) (member "long_term_rent" value)
  some ⟨sale, longTermRent⟩

/-- `serviceCalendarSchema.nullable()`. -/
def serviceCalendar : Reader (Option ServiceCalendar) := nullable serviceCalendarSchema

/-- **`operatingPolicySchema`.** -/
def operatingPolicySchema : Reader PolicyDocument := fun value => do
  let _ ← literal "agency_operating_policy_v1" (member "kind" value)
  let calendar ← serviceCalendar (member "serviceCalendar" value)
  let coverage ← optionalReference (member "coverage" value)
  let owners ← responsibilities (member "responsibilities" value)
  let purposes ← contactPurposes (member "contactPurposes" value)
  let retention ← optionalReference (member "retentionReference" value)
  let vendor ← optionalReference (member "vendorReference" value)
  let process ← optionalReference (member "processReference" value)
  let alert ← optionalReference (member "alertReference" value)
  let days ← availabilityReviewDays (member "availabilityReviewDays" value)
  some ⟨calendar, coverage, owners, purposes, retention, vendor, process, alert, days⟩

/-- A calendar, or that there is none, as JSON. -/
def writeCalendar : Option ServiceCalendar → JsonValue := writeNullable ServiceCalendar.toJson

/-- Responsibilities as JSON. -/
def Responsibilities.toJson (r : Responsibilities) : JsonValue :=
  .obj [("service", writeText r.service), ("privacy", writeText r.privacy),
    ("alerts", writeText r.alerts)]

/-- Purposes as JSON. -/
def ContactPurposes.toJson (p : ContactPurposes) : JsonValue :=
  .obj [("service", writeText p.service), ("savedSearch", writeText p.savedSearch),
    ("marketing", writeText p.marketing)]

/-- Review days as JSON. -/
def AvailabilityReviewDays.toJson (d : AvailabilityReviewDays) : JsonValue :=
  .obj [("sale", writeNumber d.sale), ("long_term_rent", writeNumber d.longTermRent)]

/-- A document as JSON. -/
def PolicyDocument.toJson (d : PolicyDocument) : JsonValue :=
  .obj [("kind", .str "agency_operating_policy_v1"),
    ("serviceCalendar", writeCalendar d.serviceCalendar), ("coverage", writeText d.coverage),
    ("responsibilities", d.responsibilities.toJson), ("contactPurposes", d.contactPurposes.toJson),
    ("retentionReference", writeText d.retentionReference),
    ("vendorReference", writeText d.vendorReference),
    ("processReference", writeText d.processReference),
    ("alertReference", writeText d.alertReference),
    ("availabilityReviewDays", d.availabilityReviewDays.toJson)]

theorem stable_serviceCalendar : Stable serviceCalendar writeCalendar :=
  stable_serviceCalendarSchema.nullable (fun _ h => JsonValue.noConfusion h)

theorem stable_responsibilities : Stable responsibilities Responsibilities.toJson := by
  intro value r h
  unfold responsibilities at h
  obtain ⟨service, hservice, h⟩ := Option.bind_eq_some_iff.mp h
  obtain ⟨privacy, hprivacy, h⟩ := Option.bind_eq_some_iff.mp h
  obtain ⟨alerts, halerts, h⟩ := Option.bind_eq_some_iff.mp h
  obtain rfl := Option.some.inj h
  show (do
    let service ← optionalOwner (some (writeText service))
    let privacy ← optionalOwner (some (writeText privacy))
    let alerts ← optionalOwner (some (writeText alerts))
    some (Responsibilities.mk service privacy alerts)) = _
  rw [stable_optionalOwner _ _ hservice, stable_optionalOwner _ _ hprivacy,
    stable_optionalOwner _ _ halerts]
  rfl

theorem stable_contactPurposes : Stable contactPurposes ContactPurposes.toJson := by
  intro value p h
  unfold contactPurposes at h
  obtain ⟨service, hservice, h⟩ := Option.bind_eq_some_iff.mp h
  obtain ⟨saved, hsaved, h⟩ := Option.bind_eq_some_iff.mp h
  obtain ⟨marketing, hmarketing, h⟩ := Option.bind_eq_some_iff.mp h
  obtain rfl := Option.some.inj h
  show (do
    let service ← optionalReference (some (writeText service))
    let saved ← optionalReference (some (writeText saved))
    let marketing ← optionalReference (some (writeText marketing))
    some (ContactPurposes.mk service saved marketing)) = _
  rw [stable_optionalReference _ _ hservice, stable_optionalReference _ _ hsaved,
    stable_optionalReference _ _ hmarketing]
  rfl

theorem stable_availabilityReviewDays :
    Stable availabilityReviewDays AvailabilityReviewDays.toJson := by
  intro value d h
  unfold availabilityReviewDays at h
  obtain ⟨sale, hsale, h⟩ := Option.bind_eq_some_iff.mp h
  obtain ⟨rent, hrent, h⟩ := Option.bind_eq_some_iff.mp h
  obtain rfl := Option.some.inj h
  show (do
    let sale ← nullable (integer 1 14) (some (writeNumber sale))
    let rent ← nullable (integer 1 7) (some (writeNumber rent))
    some (AvailabilityReviewDays.mk sale rent)) = _
  rw [stable_days _ _ _ _ hsale, stable_days _ _ _ _ hrent]
  rfl

/-- **A document is read back.** -/
theorem stable_operatingPolicySchema : Stable operatingPolicySchema PolicyDocument.toJson := by
  intro value d h
  unfold operatingPolicySchema at h
  obtain ⟨_, -, h⟩ := Option.bind_eq_some_iff.mp h
  obtain ⟨calendar, hcalendar, h⟩ := Option.bind_eq_some_iff.mp h
  obtain ⟨coverage, hcoverage, h⟩ := Option.bind_eq_some_iff.mp h
  obtain ⟨owners, howners, h⟩ := Option.bind_eq_some_iff.mp h
  obtain ⟨purposes, hpurposes, h⟩ := Option.bind_eq_some_iff.mp h
  obtain ⟨retention, hretention, h⟩ := Option.bind_eq_some_iff.mp h
  obtain ⟨vendor, hvendor, h⟩ := Option.bind_eq_some_iff.mp h
  obtain ⟨process, hprocess, h⟩ := Option.bind_eq_some_iff.mp h
  obtain ⟨alert, halert, h⟩ := Option.bind_eq_some_iff.mp h
  obtain ⟨days, hdays, h⟩ := Option.bind_eq_some_iff.mp h
  obtain rfl := Option.some.inj h
  show (do
    let _ ← literal "agency_operating_policy_v1" (some (.str "agency_operating_policy_v1"))
    let calendar ← serviceCalendar (some (writeCalendar calendar))
    let coverage ← optionalReference (some (writeText coverage))
    let owners ← responsibilities (some owners.toJson)
    let purposes ← contactPurposes (some purposes.toJson)
    let retention ← optionalReference (some (writeText retention))
    let vendor ← optionalReference (some (writeText vendor))
    let process ← optionalReference (some (writeText process))
    let alert ← optionalReference (some (writeText alert))
    let days ← availabilityReviewDays (some days.toJson)
    some (PolicyDocument.mk calendar coverage owners purposes retention vendor process alert
      days)) = _
  rw [literal_str, stable_serviceCalendar _ _ hcalendar, stable_optionalReference _ _ hcoverage,
    stable_responsibilities _ _ howners, stable_contactPurposes _ _ hpurposes,
    stable_optionalReference _ _ hretention, stable_optionalReference _ _ hvendor,
    stable_optionalReference _ _ hprocess, stable_optionalReference _ _ halert,
    stable_availabilityReviewDays _ _ hdays]
  rfl

/-! ## The approved snapshot -/

/-- `ApprovedOperatingPolicySnapshot`. -/
structure ApprovedSnapshot where
  policyId : String
  policyVersion : ℤ
  contentHash : String
  approvedAt : String
  document : PolicyDocument

/-- 64 hexadecimal digits in lower case. -/
def isContentHash (s : String) : Bool :=
  s.toList.length == 64 && s.toList.all (fun c => c.isDigit || 'a' ≤ c && c ≤ 'f')

def contentHash : Reader String := stringWhere isContentHash

/-- `z.iso.datetime()`. -/
def datetime : Reader String := stringWhere (fun s => (IsoInstant.datetime s.toList).isSome)

/-- `z.number().int().positive()`. -/
def positive : Reader ℤ := integer 1 Inventory.maxSafeInteger

theorem stable_contentHash : Stable contentHash JsonValue.str := stable_stringWhere _

theorem stable_datetime : Stable datetime JsonValue.str := stable_stringWhere _

/-- **`readOperatingPolicySnapshot`.** -/
def readOperatingPolicySnapshot : Reader ApprovedSnapshot := fun value => do
  let _ ← literal "approved_operating_policy_v1" (member "kind" value)
  let policyId ← uuid (member "policyId" value)
  let policyVersion ← positive (member "policyVersion" value)
  let hash ← contentHash (member "contentHash" value)
  let approvedAt ← datetime (member "approvedAt" value)
  let document ← operatingPolicySchema (member "document" value)
  some ⟨policyId, policyVersion, hash, approvedAt, document⟩

/-- A snapshot as JSON. -/
def ApprovedSnapshot.toJson (s : ApprovedSnapshot) : JsonValue :=
  .obj [("kind", .str "approved_operating_policy_v1"), ("policyId", .str s.policyId),
    ("policyVersion", .num (s.policyVersion : ℚ)), ("contentHash", .str s.contentHash),
    ("approvedAt", .str s.approvedAt), ("document", s.document.toJson)]

/-- **A snapshot is read back.** -/
theorem stable_readOperatingPolicySnapshot :
    Stable readOperatingPolicySnapshot ApprovedSnapshot.toJson := by
  intro value s h
  unfold readOperatingPolicySnapshot at h
  obtain ⟨_, -, h⟩ := Option.bind_eq_some_iff.mp h
  obtain ⟨policyId, hid, h⟩ := Option.bind_eq_some_iff.mp h
  obtain ⟨version, hversion, h⟩ := Option.bind_eq_some_iff.mp h
  obtain ⟨hash, hhash, h⟩ := Option.bind_eq_some_iff.mp h
  obtain ⟨approvedAt, hat, h⟩ := Option.bind_eq_some_iff.mp h
  obtain ⟨document, hdocument, h⟩ := Option.bind_eq_some_iff.mp h
  obtain rfl := Option.some.inj h
  have hnumber : positive (some (.num (version : ℚ))) = some version :=
    stable_integer _ _ _ _ hversion
  show (do
    let _ ← literal "approved_operating_policy_v1" (some (.str "approved_operating_policy_v1"))
    let policyId ← uuid (some (.str policyId))
    let version ← positive (some (.num (version : ℚ)))
    let hash ← contentHash (some (.str hash))
    let approvedAt ← datetime (some (.str approvedAt))
    let document ← operatingPolicySchema (some document.toJson)
    some (ApprovedSnapshot.mk policyId version hash approvedAt document)) = _
  rw [literal_str, stable_uuid _ _ hid, hnumber, stable_contentHash _ _ hhash,
    stable_datetime _ _ hat, stable_operatingPolicySchema _ _ hdocument]
  rfl

/-! ## Staffed durations -/

inductive StaffedDuration where
  | known (milliseconds : ℤ) (policyId : String) (policyVersion : ℤ)
  | unknown (reason : UnknownReason)
  deriving DecidableEq

/-- A duration that a calendar gives, under the policy the calendar is of. -/
def ApprovedSnapshot.label (snapshot : ApprovedSnapshot) : CalendarDuration → StaffedDuration
  | .known ms => .known ms snapshot.policyId snapshot.policyVersion
  | .unknown reason => .unknown reason

/-- **`staffedDuration`.** -/
def staffedDuration (sofia : SofiaClock) (value : Option JsonValue) (start stop : Option ℤ) :
    StaffedDuration :=
  match readOperatingPolicySnapshot value with
  | none => .unknown .noReviewedPolicy
  | some snapshot =>
    snapshot.label (calendarStaffedDuration sofia
      (some (writeCalendar snapshot.document.serviceCalendar)) start stop)

end OperatingPolicy
