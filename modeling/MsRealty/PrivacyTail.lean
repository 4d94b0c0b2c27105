import MsRealty.PrivacyInEffect
import MsRealty.SearchInput

/-!
# Re-applying a privacy tail

A restored database is older than the safety ledger it once had
(`src/server/recovery/privacy-tail.ts`). The decisions it misses are applied to
it again from a signed tail. Before the tail is even read the destination is
quarantined (`src/server/recovery/quarantine.ts`): whatever the tail turns out
to be, nothing of the snapshot is served. Then the tail is checked, and its
entries are applied in one transaction: an entry the destination has must be
the same, and an entry it has not must follow its head.

The destination is isolated, so the locks of the transaction are free. What
zod and Ed25519 decide about texts is the host's. An identifier is the text the
database writes it as, in lower case.
-/

namespace Privacy

open JsonText

/-! ## The tail -/

/-- **A signed tail**: the decisions after a snapshot. -/
structure SyntheticPrivacyTail where
  restoreId : Uuid
  snapshotDigest : String
  snapshotSequence : ℕ
  snapshotLedgerDigest : String
  throughSequence : ℕ
  headDigest : String
  entries : List SafetyTailEntry

/-- **A signed watermark**: where the ledger ends. -/
structure SyntheticPrivacyCheckpoint where
  restoreId : Uuid
  snapshotDigest : String
  throughSequence : ℕ
  headDigest : String

/-- What the host decides about texts: which are dates, which keys are Ed25519
keys, and which base64 signatures are those of a message. -/
structure TailHost extends Host where
  isDatetime : String → Bool
  isEd25519 : String → Bool
  verify : String → String → String → Bool

/-- What is re-applied. A tail or a watermark of another shape is none. -/
structure TailInput where
  restoreId : String
  snapshotDigest : String
  manifest : Option SyntheticPrivacyTail
  signature : String
  trustedPublicKey : String
  checkpoint : Option SyntheticPrivacyCheckpoint
  checkpointSignature : String

/-! ## Parsing -/

/-- A SHA-256 digest in hexadecimal. -/
def isDigest (text : String) : Bool :=
  text.toList.length = 64 && text.toList.all (fun c => c.isDigit || 'a' ≤ c && c ≤ 'f')

/-- A UUID. -/
def isUuidText (text : String) : Bool := Search.isUuid text.toList

/-- A list of at most 500 UUIDs. -/
def isUuidList (texts : List String) : Bool := texts.length ≤ 500 && texts.all isUuidText

/-- `privacySafetyEffect`. -/
def PrivacySafetyEffect.isValid : PrivacySafetyEffect → Bool
  | .restriction effect =>
    isUuidText effect.partyId && isUuidText effect.requestId
      && 1 ≤ effect.purposes.length && effect.purposes.length ≤ 2
      && isUuidList effect.clientIds && isUuidList effect.contactIds
      && isUuidList effect.clientProfileIds && isUuidList effect.searchSubscriptionIds
      && isDigest effect.inventoryDigest
  | .withdrawal effect =>
    isUuidText effect.partyId && 1 ≤ effect.subscriptionIds.length
      && isUuidList effect.subscriptionIds

/-- `safetyTailEntry`. -/
def TailHost.isEntry (host : TailHost) (e : SafetyTailEntry) : Bool :=
  1 ≤ e.sequence && e.sequence ≤ maxSafeInteger && isUuidText e.id && isUuidText e.operationId
    && isUuidText e.partyId && e.requestId.all isUuidText && isDigest e.requestHash
    && e.effect.isValid && isDigest e.previousDigest && isDigest e.digest
    && host.isDatetime e.recordedAt

/-- **`syntheticPrivacyTail`.** -/
def TailHost.isTail (host : TailHost) (tail : SyntheticPrivacyTail) : Bool :=
  isUuidText tail.restoreId && isDigest tail.snapshotDigest
    && tail.snapshotSequence ≤ maxSafeInteger && isDigest tail.snapshotLedgerDigest
    && tail.throughSequence ≤ maxSafeInteger && isDigest tail.headDigest
    && tail.entries.length ≤ 1000 && tail.entries.all host.isEntry

/-- **`syntheticPrivacyCheckpoint`.** -/
def SyntheticPrivacyCheckpoint.isValid (checkpoint : SyntheticPrivacyCheckpoint) : Bool :=
  isUuidText checkpoint.restoreId && isDigest checkpoint.snapshotDigest
    && checkpoint.throughSequence ≤ maxSafeInteger && isDigest checkpoint.headDigest

/-! ## What is signed -/

/-- An entry as JSON. -/
def SafetyEntry.toJson (e : SafetyTailEntry) : JsonValue :=
  .obj ((SafetyFields.keys ++ ["digest"]).zip (e.toSafetyFields.values ++ [.str e.digest]))

/-- A tail as JSON. -/
def SyntheticPrivacyTail.toJson (tail : SyntheticPrivacyTail) : JsonValue :=
  .obj [("kind", .str "synthetic_privacy_safety_tail_v1"),
    ("scope", .str "privacy_decisions_only"), ("restoreId", .str tail.restoreId),
    ("snapshotDigest", .str tail.snapshotDigest),
    ("snapshotSequence", .num tail.snapshotSequence),
    ("snapshotLedgerDigest", .str tail.snapshotLedgerDigest),
    ("throughSequence", .num tail.throughSequence), ("headDigest", .str tail.headDigest),
    ("entries", .arr (tail.entries.map SafetyEntry.toJson))]

/-- A watermark as JSON. -/
def SyntheticPrivacyCheckpoint.toJson (checkpoint : SyntheticPrivacyCheckpoint) : JsonValue :=
  .obj [("kind", .str "synthetic_privacy_checkpoint_v1"), ("restoreId", .str checkpoint.restoreId),
    ("snapshotDigest", .str checkpoint.snapshotDigest),
    ("throughSequence", .num checkpoint.throughSequence),
    ("headDigest", .str checkpoint.headDigest)]

/-- Whether a text has the form of base64. -/
def isBase64 (text : String) : Bool :=
  let body := text.toList.takeWhile (fun c => c.isAlphanum || c = '+' || c = '/')
  let padding := text.toList.dropWhile (fun c => c.isAlphanum || c = '+' || c = '/')
  body ≠ [] && (padding = [] || padding = ['='] || padding = ['=', '='])

/-- **Whether the tail and its watermark are signed** by the trusted key. -/
def TailHost.signatureValid (host : TailHost) (input : TailInput) (manifest : SyntheticPrivacyTail)
    (checkpoint : SyntheticPrivacyCheckpoint) : Bool :=
  host.isEd25519 input.trustedPublicKey && isBase64 input.signature
    && host.verify input.trustedPublicKey (String.ofList (canonicalJson manifest.toJson))
      input.signature
    && host.verify input.trustedPublicKey (String.ofList (canonicalJson checkpoint.toJson))
      input.checkpointSignature

/-- **Checks a tail** before the destination's ledger is read. -/
def TailHost.checkTail (host : TailHost) (input : TailInput) :
    Except String SyntheticPrivacyTail :=
  match input.manifest.filter host.isTail,
      input.checkpoint.filter SyntheticPrivacyCheckpoint.isValid with
  | some manifest, some checkpoint =>
    if ¬ host.signatureValid input manifest checkpoint ∨ manifest.restoreId ≠ input.restoreId
        ∨ manifest.snapshotDigest ≠ input.snapshotDigest then
      .error "Synthetic privacy tail signature or restore binding is invalid."
    else if checkpoint.restoreId ≠ input.restoreId
        ∨ checkpoint.snapshotDigest ≠ input.snapshotDigest
        ∨ checkpoint.throughSequence ≠ manifest.throughSequence
        ∨ checkpoint.headDigest ≠ manifest.headDigest then
      .error "Synthetic tail does not reach the separately trusted signed watermark."
    else if manifest.throughSequence < manifest.snapshotSequence
        ∨ manifest.entries.length ≠ manifest.throughSequence - manifest.snapshotSequence then
      .error "Synthetic privacy tail is incomplete."
    else if manifest.snapshotSequence = 0 ∧ manifest.snapshotLedgerDigest ≠ emptySafetyDigest then
      .error "Invalid empty snapshot ledger."
    else
      match (safetyChain host.sha256Hex).verify
          (manifest.snapshotSequence, manifest.snapshotLedgerDigest) manifest.entries with
      | none => .error "Synthetic privacy tail chain or scope is invalid."
      | some head =>
        if head ≠ (manifest.throughSequence, manifest.headDigest) then
          .error "Synthetic privacy tail watermark does not match its complete chain."
        else .ok manifest
  | _, _ => .error "ZodError"

/-- **Quarantines a restored database.** -/
def quarantineRestoredDatabase (db : Db) (restoreId snapshotDigest : String) (now : Instant) :
    Except String Db :=
  match db.recoveryControl with
  | none => .error "Recovery control is missing; migrate the offline destination first."
  | some (.quarantined boundTo boundDigest _ _) =>
    if boundTo ≠ restoreId ∨ boundDigest ≠ snapshotDigest then
      .error "This destination is already bound to a different restore."
    else .ok db
  | some .normal =>
    let openSession := fun row : SessionRow => decide (row.revokedAt = none)
    let openLink := fun token : EmailSignInToken =>
      decide (token.revokedAt = none) && decide (token.consumedAt = none)
    let openInvitation := fun row : InvitationRow =>
      decide (row.revokedAt = none) && decide (row.acceptedAt = none)
        && decide (row.declinedAt = none)
    let openChallenge := fun row : WebauthnChallenge => decide (row.consumedAt = none)
    let invalidated : Invalidated :=
      ⟨(db.sessions.filter openSession).length, (db.emailSignInTokens.filter openLink).length,
        (db.invitations.filter openInvitation).length,
        (db.webauthnChallenges.filter openChallenge).length⟩
    .ok { db with
      sessions := updateWhere openSession
        (fun row => { row with revokedAt := some now }) db.sessions
      emailSignInTokens := updateWhere openLink
        (fun token => { token with revokedAt := some now }) db.emailSignInTokens
      invitations := updateWhere openInvitation
        (fun row => { row with revokedAt := some now }) db.invitations
      webauthnChallenges := updateWhere openChallenge
        (fun row => { row with consumedAt := some now }) db.webauthnChallenges
      recoveryControl := some (.quarantined restoreId snapshotDigest now invalidated)
      audit := db.audit ++ [⟨restoreId, snapshotDigest, invalidated, now⟩] }

/-! ## The transaction -/

/-- Who re-applies a tail. -/
def offlineActor : Actor := ⟨.system, "offline-privacy-tail"⟩

/-- The entry of a sequence number. -/
def decisionAt (decisions : List SafetyRow) (sequence : ℕ) : Option SafetyRow :=
  decisions.find? (fun row => row.sequence = sequence)

/-- Whether a row may be inserted: what must be unique is, and its party is there. -/
def Db.insertableDecision (db : Db) (row : SafetyRow) : Bool :=
  insertable db.decisions row && db.parties.any (fun party => party.id = row.partyId)

/-- Inserts a decision of a tail, applies its effect and records how far it went. -/
def Db.applyDecision (db : Db) (row : SafetyRow) (restoreId : String) (now : Instant) : Db :=
  let applied := applyPrivacySafetyEffect { db with decisions := db.decisions ++ [row] } row.effect
    row.sequence offlineActor now
  { applied with
    propagation := applied.propagation ++
      [⟨row.sequence, "restore_reapplication", "applied",
          .obj (("restoreId", .str restoreId) :: effectEvidence db row.effect)⟩,
        ⟨row.sequence, "independent_archive", "held",
          .obj [("reason",
            .str "synthetic_tail_is_not_independent_production_completeness_proof")]⟩] }

/-- **Re-applies one entry.** -/
def reapplyEntry (host : TailHost) (restoreId : String) (now : ℕ → Instant) (state : Db × ℕ)
    (entry : SafetyTailEntry) : Except String (Db × ℕ) :=
  let (db, applied) := state
  match decisionAt db.decisions entry.sequence with
  | some existing =>
    if canonicalJson existing.read.toJson ≠ canonicalJson entry.toJson then
      .error "Conflicting destination safety decision."
    else .ok (db, applied)
  | none =>
    let before := privacySafetyHead db.decisions
    if before.fst + 1 ≠ entry.sequence ∨ before.snd ≠ entry.previousDigest then
      .error "Destination safety history has a gap."
    else if ¬ db.insertableDecision (entry.store host.toHost) then
      .error "The decision violates a constraint."
    else
      .ok (db.applyDecision (entry.store host.toHost) restoreId (now entry.sequence), applied + 1)

/-- Whether the ledger a tail starts from is that of the destination. -/
def SyntheticPrivacyTail.belongsTo (manifest : SyntheticPrivacyTail)
    (decisions : List SafetyRow) : Bool :=
  let anchor := if manifest.snapshotSequence = 0 then none
    else decisionAt decisions manifest.snapshotSequence
  (anchor.map (fun row => row.digest)).getD emptySafetyDigest = manifest.snapshotLedgerDigest
    && manifest.snapshotSequence ≤ (privacySafetyHead decisions).fst
    && (privacySafetyHead decisions).fst ≤ manifest.throughSequence

/-- **Re-applies the entries** of a checked tail. -/
def reapplyEntries (host : TailHost) (db : Db) (manifest : SyntheticPrivacyTail)
    (restoreId : String) (now : ℕ → Instant) : Except String (Db × ℕ) :=
  if ¬ manifest.belongsTo db.decisions then
    .error "Synthetic tail does not belong to this restored snapshot ledger."
  else
    match manifest.entries.foldlM (reapplyEntry host restoreId now) (db, 0) with
    | .error message => .error message
    | .ok (after, applied) =>
      if privacySafetyHead after.decisions ≠ (manifest.throughSequence, manifest.headDigest) then
        .error "Destination did not reach the signed synthetic watermark."
      else .ok (after, applied)

/-- What a re-application reports. -/
structure ReapplyResult where
  applied : ℕ
  throughSequence : ℕ

/-- An owned disposable test database. -/
def isDisposable (name : String) : Bool :=
  match name.toList with
  | 't' :: 'e' :: 's' :: 't' :: '_' :: rest =>
    rest.length = 32 && rest.all (fun c => c.isDigit || 'a' ≤ c && c ≤ 'f')
  | _ => false

/-- What follows the quarantine: the tail is checked, then its entries are
applied in one transaction. -/
def reapplyQuarantined (host : TailHost) (db : Db) (input : TailInput) (now : ℕ → Instant) :
    Db × Except String ReapplyResult :=
  match host.checkTail input with
  | .error message => (db, .error message)
  | .ok manifest =>
    match reapplyEntries host db manifest input.restoreId now with
    | .error message => (db, .error message)
    | .ok (after, applied) => (after, .ok ⟨applied, manifest.throughSequence⟩)

/-- **Re-applies a tail** to a restored database: the database it leaves, and
what it answers. -/
def reapplySyntheticPrivacyTail (host : TailHost) (db : Db) (input : TailInput)
    (now : ℕ → Instant) : Db × Except String ReapplyResult :=
  if ¬ isDisposable db.name then
    (db, .error "Privacy-tail rehearsal only accepts an owned disposable test database.")
  else if ¬ isUuidText input.restoreId ∨ ¬ isDigest input.snapshotDigest then
    (db, .error "ZodError")
  else
    match quarantineRestoredDatabase db input.restoreId input.snapshotDigest (now 0) with
    | .error message => (db, .error message)
    -- The quarantine is committed before the tail is parsed.
    | .ok fenced => reapplyQuarantined host fenced input now

end Privacy
