import MsRealty.CanonicalJson
import MsRealty.Capabilities
import MsRealty.HashChain
import MsRealty.IsoInstant
import MsRealty.Runs

/-!
# The privacy safety ledger

The ledger of privacy decisions (`src/server/privacy/safety-ledger.ts`):
entries in one global order, each with the digest of the entry before and its
own, the hash of the canonical JSON of its other fields. The checks a reader
makes on a tail of the ledger are those of
`src/server/recovery/privacy-tail.ts`.

A decision is appended inside the transaction that takes it, under an advisory
lock held until that transaction ends. The calls of many transactions
interleave statement by statement; rows show to others when their transaction
commits.

SHA-256 is the host's, and so is how a `Date` reads a date in another form
than its own. UUIDs are canonical texts, and a time is one a `Date` can hold.
-/

namespace Privacy

open JsonText

/-! ## Decisions -/

/-- The purposes a client may restrict. -/
inductive OptionalPurpose where
  | searchAlerts
  | marketing

/-- The name of a purpose. -/
def OptionalPurpose.name : OptionalPurpose → String
  | .searchAlerts => "search_alerts"
  | .marketing => "marketing"

/-- **What an erasure decides**: `privacy_restriction_v1`. -/
structure Restriction where
  partyId : Uuid
  requestId : Uuid
  purposes : List OptionalPurpose
  clientIds : List Uuid
  erasePreferences : Bool
  eraseAliases : Bool
  contactIds : List Uuid
  clientProfileIds : List Uuid
  searchSubscriptionIds : List Uuid
  inventoryDigest : String

/-- **What a withdrawal decides**: `subscription_withdrawal_v1`. -/
structure Withdrawal where
  partyId : Uuid
  subscriptionIds : List Uuid

/-- **The effect of a decision.** -/
inductive PrivacySafetyEffect where
  | restriction (effect : Restriction)
  | withdrawal (effect : Withdrawal)

/-- The party an effect is about. -/
def PrivacySafetyEffect.partyId : PrivacySafetyEffect → Uuid
  | .restriction effect => effect.partyId
  | .withdrawal effect => effect.partyId

/-- The names of the fields of a restriction. -/
def Restriction.keys : List String :=
  ["kind", "partyId", "requestId", "purposes", "clientIds", "erasePreferences", "eraseAliases",
    "contactIds", "clientProfileIds", "searchSubscriptionIds", "inventoryDigest"]

/-- The fields of a restriction. -/
def Restriction.values (effect : Restriction) : List JsonValue :=
  [.str "privacy_restriction_v1", .str effect.partyId, .str effect.requestId,
    stringsJson (effect.purposes.map OptionalPurpose.name), stringsJson effect.clientIds,
    .bool effect.erasePreferences, .bool effect.eraseAliases, stringsJson effect.contactIds,
    stringsJson effect.clientProfileIds, stringsJson effect.searchSubscriptionIds,
    .str effect.inventoryDigest]

/-- The names of the fields of a withdrawal. -/
def Withdrawal.keys : List String := ["kind", "partyId", "subscriptionIds"]

/-- The fields of a withdrawal. -/
def Withdrawal.values (effect : Withdrawal) : List JsonValue :=
  [.str "subscription_withdrawal_v1", .str effect.partyId, stringsJson effect.subscriptionIds]

/-- An effect as JSON. -/
def PrivacySafetyEffect.toJson : PrivacySafetyEffect → JsonValue
  | .restriction effect => .obj (Restriction.keys.zip effect.values)
  | .withdrawal effect => .obj (Withdrawal.keys.zip effect.values)

/-! ## Entries -/

/-- A time of the host. -/
def Timestamp : Type := { t : Instant // IsoInstant.ValidTime t }

/-- `toISOString`. -/
def Timestamp.toISOString (t : Timestamp) : String := String.ofList (IsoInstant.toISOText t.val)

/-- **What the host does**: SHA-256, and how a `Date` reads a date that is not
written as `toISOString` writes it. -/
structure Host where
  sha256Hex : String → String
  dateOther : String → Timestamp

/-- `new Date(text)`, for the text of a date. -/
def Host.newDate (host : Host) (text : String) : Timestamp :=
  match IsoInstant.parseISO text.toList with
  | some t =>
    if h : -IsoInstant.maxTime ≤ t ∧ t ≤ IsoInstant.maxTime then ⟨t, h⟩ else host.dateOther text
  | none => host.dateOther text

/-- **The fields of an entry** its digest is computed from: as a service holds
them, with the review in the order it was written and the time as text, or as
a row of the table. -/
structure SafetyFields (ρ τ : Type) where
  operationId : Uuid
  partyId : Uuid
  requestId : Option Uuid
  requestHash : String
  review : ρ
  effect : PrivacySafetyEffect
  sequence : ℕ
  id : Uuid
  previousDigest : String
  recordedAt : τ

/-- **An entry of the ledger.** -/
structure SafetyEntry (ρ τ : Type) extends SafetyFields ρ τ where
  digest : String

/-- An entry as a service holds it. -/
abbrev SafetyTailEntry : Type := SafetyEntry PlainJson String

/-- An entry as the table holds it. -/
abbrev SafetyRow : Type := SafetyEntry Jsonb Timestamp

/-- The row of an entry. -/
def SafetyEntry.store (host : Host) (e : SafetyTailEntry) : SafetyRow :=
  { e with review := Jsonb.ofJson e.review, recordedAt := host.newDate e.recordedAt }

/-- The entry of a row. -/
def SafetyEntry.read (row : SafetyRow) : SafetyTailEntry :=
  { row with review := row.review.toJson, recordedAt := row.recordedAt.toISOString }

/-- The names of the hashed fields. -/
def SafetyFields.keys : List String :=
  ["operationId", "partyId", "requestId", "requestHash", "review", "effect", "sequence", "id",
    "previousDigest", "recordedAt"]

/-- A text that may be missing. -/
def nullableJson (text : Option String) : JsonValue := (text.map JsonValue.str).getD .null

/-- The hashed fields. -/
def SafetyFields.values (fields : SafetyFields PlainJson String) : List JsonValue :=
  [.str fields.operationId, .str fields.partyId, nullableJson fields.requestId,
    .str fields.requestHash, fields.review.val, fields.effect.toJson, .num fields.sequence,
    .str fields.id, .str fields.previousDigest, .str fields.recordedAt]

/-- The hashed fields as JSON. -/
def SafetyFields.toJson (fields : SafetyFields PlainJson String) : JsonValue :=
  .obj (SafetyFields.keys.zip fields.values)

/-- The digest of the ledger without entries. -/
def emptySafetyDigest : String := "0000000000000000000000000000000000000000000000000000000000000000"

/-- The hash of a value: that of its canonical text. -/
def hashRequest (sha256Hex : String → String) (value : JsonValue) : String :=
  sha256Hex (String.ofList (canonicalJson value))

/-- **The digest of an entry**, from its fields. -/
def safetyEntryDigest (sha256Hex : String → String) (fields : SafetyFields PlainJson String) :
    String :=
  hashRequest sha256Hex fields.toJson

/-- Whether an entry is about the party and the request its effect names. -/
def inScope {ρ τ : Type} (fields : SafetyFields ρ τ) : Bool :=
  decide (fields.partyId = fields.effect.partyId) &&
    match fields.effect with
    | .restriction effect => decide (fields.requestId = some effect.requestId)
    | .withdrawal _ => decide (fields.requestId = none)

/-- **How the entries of the ledger are chained.** -/
def safetyChain (sha256Hex : String → String) : HashChain SafetyTailEntry String where
  sequence e := e.sequence
  previous e := e.previousDigest
  digest e := e.digest
  hash e := safetyEntryDigest sha256Hex e.toSafetyFields
  check e := inScope e.toSafetyFields

/-- **The head of the ledger**: its entry of the greatest sequence number. -/
def privacySafetyHead (rows : List SafetyRow) : ℕ × String :=
  rows.foldl (fun head row => if head.fst < row.sequence then (row.sequence, row.digest) else head)
    (0, emptySafetyDigest)

/-! ## Appending -/

/-- The greatest integer below which every integer is a number. -/
def maxSafeInteger : ℕ := 9007199254740991

/-- The input of an append. -/
structure AppendInput where
  operationId : Uuid
  partyId : Uuid
  requestId : Option Uuid
  requestHash : String
  review : PlainJson
  effect : PrivacySafetyEffect

/-- **The entry an append builds** after a head. -/
def newEntry (host : Host) (input : AppendInput) (head : ℕ × String) (id : Uuid)
    (now : Timestamp) : SafetyTailEntry :=
  let fields : SafetyFields PlainJson String :=
    { operationId := input.operationId, partyId := input.partyId, requestId := input.requestId,
      requestHash := input.requestHash, review := input.review, effect := input.effect,
      sequence := head.fst + 1, id := id, previousDigest := head.snd,
      recordedAt := now.toISOString }
  { fields with digest := safetyEntryDigest host.sha256Hex fields }

/-- **What a service decides.** -/
inductive Decision where
  /-- `applyPrivacyErasure`: a reviewed request. -/
  | erasure (operationId : Uuid) (requestHash : String) (review : PlainJson)
      (effect : Restriction)
  /-- `recordSubscriptionWithdrawal`: a client's own withdrawal. -/
  | withdrawal (operationId : Uuid) (partyId : Uuid) (subscriptionId : Uuid)

/-- The input a decision is appended with. -/
def Decision.input (sha256Hex : String → String) : Decision → AppendInput
  | .erasure operationId requestHash review effect =>
    { operationId := operationId, partyId := effect.partyId, requestId := some effect.requestId,
      requestHash := requestHash, review := review, effect := .restriction effect }
  | .withdrawal operationId partyId subscriptionId =>
    let effect : PrivacySafetyEffect := .withdrawal ⟨partyId, [subscriptionId]⟩
    { operationId := operationId, partyId := partyId, requestId := none,
      requestHash := hashRequest sha256Hex effect.toJson,
      review := ⟨.obj [("kind", .str "own_purpose_withdrawal_v1")], trivial, trivial⟩,
      effect := effect }

/-! ## The system -/

/-- **Where a transaction is** in appending a decision. -/
inductive Call where
  | none
  /-- It waits for the lock. -/
  | waiting (decision : Decision)
  /-- It was given the lock. -/
  | locked (decision : Decision)
  /-- It read the head. -/
  | read (decision : Decision) (head : ℕ × String)

/-- **A transaction**: the rows it inserted and the call it makes. -/
structure Transaction where
  pending : List SafetyRow
  call : Call

/-- A transaction that did nothing. -/
def Transaction.idle : Transaction := ⟨[], .none⟩

/-- **The state**: the committed rows, who holds the lock, and the
transactions. -/
structure State where
  committed : List SafetyRow
  holder : Option ℕ
  transactions : ℕ → Transaction

/-- A ledger without entries. -/
def State.init : State := ⟨[], none, fun _ => .idle⟩

/-- What a transaction sees: the committed rows and its own. -/
def State.visible (s : State) (t : ℕ) : List SafetyRow :=
  s.committed ++ (s.transactions t).pending

/-- A statement of a transaction. -/
inductive Event where
  | append (t : ℕ) (decision : Decision)
  | lock (t : ℕ)
  | readHead (t : ℕ)
  | insert (t : ℕ) (id : Uuid) (now : Timestamp)
  | commit (t : ℕ)
  | abort (t : ℕ)

/-- Sets a transaction. -/
def State.set (s : State) (t : ℕ) (transaction : Transaction) : State :=
  { s with transactions := Function.update s.transactions t transaction }

/-- Ends a transaction, which gives its lock back. -/
def State.finish (s : State) (t : ℕ) (committed : List SafetyRow) : State where
  committed := committed
  holder := if s.holder = some t then none else s.holder
  transactions := Function.update s.transactions t .idle

/-- Whether a row keeps the uniqueness of sequence numbers, ids and operations. -/
def insertable (rows : List SafetyRow) (row : SafetyRow) : Bool :=
  rows.all (fun r => r.sequence ≠ row.sequence && r.id ≠ row.id
    && r.operationId ≠ row.operationId)

/-- **One statement.** A failed one aborts its transaction; a statement a
transaction is not at does nothing. -/
def step (host : Host) (s : State) : Event → State × Unit
  | .append t decision =>
    match (s.transactions t).call with
    | .none =>
      (s.set t { s.transactions t with call := .waiting decision }, ())
    | _ => (s, ())
  | .lock t =>
    match (s.transactions t).call with
    | .waiting decision =>
      if s.holder = none ∨ s.holder = some t then
        ({ s.set t { s.transactions t with call := .locked decision } with holder := some t }, ())
      else (s, ())
    | _ => (s, ())
  | .readHead t =>
    match (s.transactions t).call with
    | .locked decision =>
      (s.set t { s.transactions t with
        call := .read decision (privacySafetyHead (s.visible t)) }, ())
    | _ => (s, ())
  | .insert t id now =>
    match (s.transactions t).call with
    | .read decision head =>
      let row := (newEntry host (decision.input host.sha256Hex) head id now).store host
      if row.sequence ≤ maxSafeInteger ∧ insertable (s.visible t) row then
        (s.set t ⟨(s.transactions t).pending ++ [row], .none⟩, ())
      else (s.finish t s.committed, ())
    | _ => (s, ())
  | .commit t =>
    match (s.transactions t).call with
    | .none => (s.finish t (s.visible t), ())
    | _ => (s, ())
  | .abort t => (s.finish t s.committed, ())

end Privacy
