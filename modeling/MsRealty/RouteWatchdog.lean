import MsRealty.Capabilities
import MsRealty.CanonicalJson
import MsRealty.EffectProgram

/-!
# The route watchdog

A control service that holds the one lease under which the live routes of the
business hosts are changed (`gateway/route-watchdog.ts`). A lease is reserved,
bound to an approved plan and to the routes as they were – the baseline – and
its planned routes are changed one request at a time. Unless the changed
state is accepted before a deadline, the baseline is restored, one route at a
time, each time an alarm wakes the object.

A request or an alarm is a program over the object's storage, its alarm, the
provider of the routes and the clock; the object serves one at a time. The
bodies of the answers are left out, and so are the receipt of a reservation and
the checks of the caller's secret before a request reaches the object.
-/

namespace Watchdog

open JsonText

/-! ## Texts -/

def accountId : String := "921d0224dcd595c87b7928d2b3c479d1"

def comZone : String := "f0ac7af0721419e8129e5d10ff547372"

/-- A hexadecimal digit, in lower case. -/
def isHexChar (c : Char) : Bool := c.isDigit || 'a' ≤ c && c ≤ 'f'

/-- `hex`. -/
def isHex (n : ℕ) (text : String) : Bool :=
  text.toList.length = n && text.toList.all isHexChar

/-- `uuid`. -/
def isUuid (text : String) : Bool :=
  let parts := text.toList.splitOn '-'
  parts.map List.length = [8, 4, 4, 4, 12] && parts.all (fun part => part.all isHexChar)

/-- The name of a worker script. -/
def isScriptName (name : String) : Bool :=
  1 ≤ name.toList.length && name.toList.length ≤ 63
    && name.toList.all (fun c => c.isLower || c.isDigit || c = '_' || c = '-')

/-- The hosts of the business. -/
def businessHosts : List String :=
  ["makler-realty.com", "www.makler-realty.com", "my.makler-realty.com", "app.makler-realty.com",
    "makler-realty.ru", "www.makler-realty.ru"]

/-- The hosts whose original site is probed. -/
def originHosts : List String := ["makler-realty.com", "makler-realty.ru"]

/-- The gates of a report. -/
def gateNames : List String :=
  ["urls", "listings", "content", "seo", "locales", "forms", "tracking",
    "performanceAccessibility", "security"]

/-! ## Routes and plans -/

/-- **A route**: the requests of a pattern go to a script, or past every script. -/
structure Route where
  id : String
  pattern : String
  script : Option String
  deriving DecidableEq

/-- `normalizedRoute`: whether a row of the provider is a route. -/
def Route.isNormal (route : Route) : Bool :=
  isHex 32 route.id && (Utf16.encode route.pattern.toList).length ≤ 2048
    && route.pattern.toList.all (fun c => c ≠ '\r' && c ≠ '\n')
    && route.script.all isScriptName

/-- The routes of a zone. -/
structure Zone where
  id : String
  name : String
  routes : List Route

/-- A zone as a baseline has it, with its DNS records. -/
structure SnapshotZone extends Zone where
  dns : List JsonValue
  rest : List (String × JsonValue)

/-- **The state before any change.** -/
structure BaselineSnapshot where
  accountId : String
  zones : List SnapshotZone

/-- A planned change of a route: of the one that is there, or a new one. -/
structure Change where
  zoneId : String
  pattern : String
  baselineRouteId : Option String

/-- What a lease is for. -/
structure Scope where
  operationId : Uuid
  leaseId : Uuid
  sourceCommit : String
  digest : String
  baselineSha256 : String
  zoneIds : List String
  deriving DecidableEq

/-- **An approved plan.** -/
structure BoundPlan where
  operationId : Uuid
  accountId : String
  sourceCommit : String
  digest : String
  baselineSha256 : String
  workerName : String
  timeoutSeconds : ℕ
  rollbackTimeoutSeconds : ℕ
  routes : List Change
  gatewayVersionId : String
  gatewayDeploymentId : String
  artifacts : List (String × String)

/-- **What is about to be changed**, stored before it is: the change, the route
before it, the identifier the changed route is known to have, and whether it
was restored. -/
structure Intent extends Change where
  before : Option Route
  id : Option String
  restored : Bool

/-! ## What is hashed -/

/-- A text that may be missing. -/
def optionalText (text : Option String) : JsonValue := (text.map JsonValue.str).getD .null

/-- A route as JSON. -/
def Route.toJson (route : Route) : JsonValue :=
  .obj [("id", .str route.id), ("pattern", .str route.pattern),
    ("script", optionalText route.script)]

/-- A zone as JSON. -/
def SnapshotZone.toJson (zone : SnapshotZone) : JsonValue :=
  .obj ([("id", .str zone.id), ("name", .str zone.name), ("dns", .arr zone.dns),
    ("routes", .arr (zone.routes.map Route.toJson))] ++ zone.rest)

/-- A snapshot as JSON. -/
def BaselineSnapshot.toJson (snapshot : BaselineSnapshot) : JsonValue :=
  .obj [("accountId", .str snapshot.accountId), ("zones", .arr (snapshot.zones.map
    SnapshotZone.toJson))]

/-- A change as JSON. -/
def Change.toJson (change : Change) : JsonValue :=
  .obj [("zoneId", .str change.zoneId), ("pattern", .str change.pattern),
    ("baselineRouteId", optionalText change.baselineRouteId)]

/-- A plan as JSON. -/
def BoundPlan.toJson (plan : BoundPlan) : JsonValue :=
  .obj [("operationId", .str plan.operationId), ("accountId", .str plan.accountId),
    ("sourceCommit", .str plan.sourceCommit), ("digest", .str plan.digest),
    ("baselineSha256", .str plan.baselineSha256), ("workerName", .str plan.workerName),
    ("timeoutSeconds", .num plan.timeoutSeconds),
    ("rollbackTimeoutSeconds", .num plan.rollbackTimeoutSeconds),
    ("routes", .arr (plan.routes.map Change.toJson)),
    ("gatewayVersionId", .str plan.gatewayVersionId),
    ("gatewayDeploymentId", .str plan.gatewayDeploymentId),
    ("artifacts", .obj (plan.artifacts.map (fun artifact => (artifact.fst, .str artifact.snd))))]

/-! ## Signed papers -/

/-- A signed text. -/
structure Envelope where
  payload : String
  signature : String

/-- Who approves. -/
inductive Role where
  | owner
  | controller

def Role.name : Role → String
  | .owner => "owner"
  | .controller => "controller"

/-- An approval of a plan. -/
structure Approval where
  role : String
  decision : String
  cutoverPlanSha256 : String
  reportSha256 : String
  sourceCommit : String
  digest : String

/-- What was changed, as a report names it. -/
structure Bindings where
  operationId : Uuid
  planSha256 : Option String
  baselineSha256 : String
  appliedStateSha256 : String
  sourceCommit : String
  digest : String
  gatewayVersionId : String
  gatewayDeploymentId : String
  artifacts : List (String × String)
  deriving DecidableEq

/-- The result of a gate. -/
structure GateResult where
  status : String
  evidenceSha256 : String

/-- How much of the source a report covers. -/
structure Coverage where
  productionAllowed : Bool
  completeCurrentDelta : Bool
  exclusions : ℤ
  baselineSourceRows : ℤ
  resolvedSourceRows : ℤ

/-- **A report** of the independent controller. -/
structure Report where
  schemaVersion : Option ℕ
  environment : String
  status : String
  sourceCommit : Option String
  digest : Option String
  checkedAt : String
  coverage : Coverage
  checkerBaselineSha256 : String
  checkerAuthority : String
  gates : List (String × GateResult)
  hosts : List String
  bindings : Option Bindings

/-- A permit to release a lease. -/
structure Permit where
  purpose : String
  role : String
  operationId : Uuid
  leaseId : Uuid
  baselineSha256 : String
  issuedAt : String

/-- **The environment of the service** and what its host computes: SHA-256, the
order of `localeCompare`, public keys and signatures, and the records and
dates texts are read as. -/
structure Host where
  sha256 : String → String
  localeLE : String → String → Bool
  publicKey : String → Option String
  verify : String → String → String → Bool
  parseDate : String → Option Instant
  parsePlan : String → Option BoundPlan
  parseBaseline : String → Option BaselineSnapshot
  parseApproval : String → Option Approval
  parseReport : String → Option Report
  parsePermit : String → Option Permit
  ownerPublicKey : String
  controllerPublicKey : String
  probeSourceCommit : String
  probeImageDigest : String
  routeToken : String
  sourceCommit : String
  sourceSha256 : String
  versionId : String

/-! ## The lease -/

/-- The states of a lease. -/
inductive Status where
  | reserved
  | armed
  | restoring
  | restored
  | reconciliationRequired
  | accepted
  | released
  deriving DecidableEq

/-- **Whether a lease has ended**: `["accepted", "released"].includes(status)`. -/
def Status.Final (status : Status) : Prop := status = .accepted ∨ status = .released

instance (status : Status) : Decidable status.Final :=
  inferInstanceAs (Decidable (_ ∨ _))

/-- The journal a caller retains. -/
structure Journal where
  operationId : Uuid
  baselineSha256 : String
  planSha256 : Option String
  text : String

/-- A probe of the original site of a host. -/
structure OriginCheck where
  host : String
  address : String
  status : ℕ

/-- **The stored state of a lease.** An index that is not set is that before the
first: none for the intents, which are restored from the last, and zero for
the zones and the hosts. -/
structure LeaseState where
  rehearsal : Bool := false
  scope : Scope
  reservedAt : Instant
  expiresAt : Instant
  deadline : Instant
  status : Status
  plan : Option BoundPlan := none
  planSha256 : Option String := none
  baseline : Option (List Zone) := none
  fullBaseline : Option BaselineSnapshot := none
  checkerBaselineSha256 : Option String := none
  baselineSourceRows : Option ℤ := none
  intents : List Intent := []
  journal : Option Journal := none
  cleanReads : ℕ := 0
  restoreIndex : Option ℕ := none
  verifyIndex : ℕ := 0
  roundFailed : Bool := false
  restoredAt : Option Instant := none
  providerFailure : Bool := false
  acceptedReportSha256 : Option String := none
  lateWriteFaults : ℕ := 0
  originIndex : ℕ := 0
  originChecks : Option (List OriginCheck) := none

/-! ## Requests -/

/-- What a lease is bound with. -/
structure BindInput where
  plan : String
  baseline : String
  approvals : Role → Envelope
  report : Envelope

/-- What is asked of the lease a request names. -/
inductive Command where
  | bind (input : BindInput)
  | mutate (zoneId pattern : String)
  | journal (journal : Journal)
  | restore
  | lateWrite
  | close
  | accept (report : Envelope)
  | release (approvals : Role → Envelope)
  | unknown

/-- **A request.** -/
inductive Request where
  | status
  | origin (host : String)
  | malformed
  | reserve (scope : Scope)
  | rehearsal (operationId : Uuid)
  | named (operationId leaseId : Uuid) (command : Command)

/-- **What wakes the object.** -/
inductive Event where
  | request (request : Request)
  | alarm

/-- The status of an answer. -/
inductive Answer where
  | ok
  | unverified
  | originUnverified
  | unknownRequest

/-! ## Operations -/

/-- A write to a zone of the provider. -/
inductive RouteWrite where
  | put (id pattern : String) (script : Option String)
  | post (pattern : String) (script : Option String)
  | delete (id : String)

/-- **The operations** of a program: on the storage, the alarm, the provider,
the clock, the probe and the generator of identifiers, and the two ends of an
event. -/
inductive Op where
  | began (event : Event)
  | answered (answer : Answer)
  | now
  | load
  | loadHistory (operationId : Uuid)
  | put (state : LeaseState)
  | putHistory (operationId : Uuid) (state : LeaseState)
  | setAlarm (time : Instant)
  | deleteAlarm
  | read (zone : String)
  | write (zone : String) (write : RouteWrite)
  | probe (host : String)
  | randomUUID

/-- What an operation answers. No answer of the provider or the probe is one
that could not be used. -/
@[reducible] def Op.Ans : Op → Type
  | .began _ | .answered _ | .put _ | .putHistory _ _ | .setAlarm _ | .deleteAlarm => Unit
  | .now => Instant
  | .load => Option LeaseState
  | .loadHistory _ => Bool
  | .read _ => Option (List Route)
  | .write _ _ => Option Route
  | .probe _ => Option OriginCheck
  | .randomUUID => Uuid

/-- **A program of the service.** -/
abbrev Watch (α : Type) : Type := Prog Op Op.Ans α

open Prog (demand required attempt)

section

variable (state : LeaseState) (zone : String)

def dateNow : Watch Instant := .op Op.now
def getActive : Watch (Option LeaseState) := .op Op.load
def getHistory (operationId : Uuid) : Watch Bool := .op (Op.loadHistory operationId)
def save : Watch Unit := .op (Op.put state)
def putHistory : Watch Unit := .op (Op.putHistory state.scope.operationId state)
def setAlarm (time : Instant) : Watch Unit := .op (Op.setAlarm time)
def deleteAlarm : Watch Unit := .op Op.deleteAlarm
def readRoutes : Watch (Option (List Route)) := .op (Op.read zone)
def writeRoute (write : RouteWrite) : Watch (Option Route) := .op (Op.write zone write)
def probe (host : String) : Watch (Option OriginCheck) := .op (Op.probe host)
def randomUUID : Watch Uuid := .op Op.randomUUID

end

/-! ## The provider -/

/-- Whether the identifier of a write may stand in a path. -/
def RouteWrite.pathOk : RouteWrite → Bool
  | .put id _ _ | .delete id => id.toList.all isHexChar
  | .post _ _ => true

/-- `provider`, for a write. -/
def provider (zone : String) (write : RouteWrite) : Watch Route := do
  demand (isHex 32 zone ∧ write.pathOk)
  required (← writeRoute zone write)

/-- **`routes`**: the routes of a zone. -/
def routes (zone : String) : Watch (List Route) := do
  demand (isHex 32 zone)
  let rows ← required (← readRoutes zone)
  demand (rows.length ≤ 1000 ∧ rows.all Route.isNormal)
  demand ((rows.map Route.id).Nodup ∧ (rows.map Route.pattern).Nodup)
  return rows

/-- `same(sorted(a), sorted(b))` for rows: the same rows in any order. -/
def sameRows {α : Type} [BEq α] (a b : List α) : Bool := a.isPerm b

/-- Demands that every zone has its baseline routes. -/
def demandBaseline : List Zone → Watch Unit
  | [] => return ()
  | zone :: zones => do
    demand (sameRows (← routes zone.id) zone.routes)
    demandBaseline zones

/-- The original site of a host. -/
def originalOrigin (host : String) : Watch OriginCheck := do
  demand (host ∈ originHosts)
  required (← probe host)

/-! ## Signatures -/

/-- `signed`: the payload of a text signed by a key. -/
def signed {α : Type} (host : Host) (envelope : Envelope) (pem : String)
    (parse : String → Option α) : Watch α := do
  demand ((Utf16.encode envelope.payload.toList).length ≤ 2 * 1024 * 1024)
  demand (host.verify pem envelope.payload envelope.signature)
  required (parse envelope.payload)

/-- `independentKeys`. -/
def independentKeys (host : Host) : Watch Unit := do
  let owner ← required (host.publicKey host.ownerPublicKey)
  let controller ← required (host.publicKey host.controllerPublicKey)
  demand (owner ≠ controller)

/-- Whether every gate of a report passes. -/
def Report.gatesPass (report : Report) : Bool :=
  gateNames.all (fun name => (report.gates.lookup name).any (fun gate =>
    gate.status = "PASS" && isHex 64 gate.evidenceSha256))

/-! ## Reserving -/

/-- Whether the environment is configured. -/
def Host.configured (host : Host) : Bool :=
  isHex 40 host.probeSourceCommit && isHex 64 host.probeImageDigest && host.routeToken ≠ ""

/-- Whether a digest is that of an image. -/
def isImageDigest (digest : String) : Bool :=
  match digest.toList with
  | 's' :: 'h' :: 'a' :: '2' :: '5' :: '6' :: ':' :: rest =>
    rest.length = 64 && rest.all isHexChar
  | _ => false

/-- Whether a scope is well formed. -/
def Scope.isValid (scope : Scope) : Bool :=
  isUuid scope.operationId && isUuid scope.leaseId && isHex 40 scope.sourceCommit
    && isImageDigest scope.digest && isHex 64 scope.baselineSha256
    && 1 ≤ scope.zoneIds.length && scope.zoneIds.length ≤ 2 && scope.zoneIds.all (isHex 32)
    && decide scope.zoneIds.Nodup && comZone ∈ scope.zoneIds

/-- The state of a new lease. -/
def LeaseState.reserve (scope : Scope) (now : Instant) : LeaseState where
  scope := scope
  reservedAt := now
  expiresAt := now + 1800000
  deadline := now + 600000
  status := .reserved

/-- Keeps the state of a lease that has ended. -/
def archive : Option LeaseState → Watch Unit
  | some state => putHistory state
  | none => return ()

/-- **`reserve`.** -/
def reserve (host : Host) (scope : Scope) : Watch Unit := do
  demand host.configured
  demand scope.isValid
  let prior ← getActive
  if prior.any (fun state => state.scope = scope) then return () else
  demand (∀ state ∈ prior, state.status.Final)
  demand (∀ state ∈ prior, state.scope.operationId ≠ scope.operationId)
  let used ← getHistory scope.operationId
  demand ¬ used
  archive prior
  let now ← dateNow
  save (.reserve scope now)
  setAlarm (now + 600000)

/-! ## Binding -/

/-- Whether a change is one of the business and its baseline route is there. -/
def Change.isPlanned (zones : List Zone) (change : Change) : Bool :=
  (zones.find? (fun zone => zone.id = change.zoneId)).any (fun zone =>
    let name := String.ofList (change.pattern.toList.takeWhile (fun c => c ≠ '/'))
    name ∈ businessHosts
      && (name = zone.name || ('.' :: zone.name.toList).isSuffixOf name.toList)
      && (match change.baselineRouteId with
        | none => zone.routes.all (fun r => r.pattern ≠ change.pattern)
        | some id => zone.routes.any (fun r => r.id = id && r.pattern = change.pattern)))

/-- What identifies a change. -/
def Change.key (change : Change) : String := change.zoneId ++ ":" ++ change.pattern

/-- Whether a plan is one of a scope. -/
def BoundPlan.isOf (host : Host) (plan : BoundPlan) (scope : Scope) (input : BindInput)
    (baseline : BaselineSnapshot) : Bool :=
  plan.accountId = Watchdog.accountId && plan.operationId = scope.operationId
    && plan.sourceCommit = scope.sourceCommit && plan.digest = scope.digest
    && plan.baselineSha256 = scope.baselineSha256
    && host.sha256 input.baseline = scope.baselineSha256 && plan.timeoutSeconds = 600
    && plan.rollbackTimeoutSeconds = 120
    && plan.workerName = "ms-realty-production-" ++ String.ofList (scope.sourceCommit.toList.take 12)
    && 0 < plan.routes.length && plan.routes.length ≤ 100
    && sameRows (baseline.zones.map (fun zone => zone.id)) scope.zoneIds

/-- Whether an approval is one of a role for a plan. -/
def Approval.isOf (approval : Approval) (role : Role) (planSha256 reportSha256 : String)
    (scope : Scope) : Bool :=
  approval.role = role.name && approval.decision = "approve"
    && approval.cutoverPlanSha256 = planSha256 && approval.reportSha256 = reportSha256
    && approval.sourceCommit = scope.sourceCommit && approval.digest = scope.digest

/-- Whether a report passes a scope in staging. -/
def Report.passesStaging (host : Host) (report : Report) (scope : Scope) (now : Instant) : Bool :=
  report.environment = "staging" && report.status = "PASS"
    && report.sourceCommit = some scope.sourceCommit && report.digest = some scope.digest
    && report.coverage.productionAllowed && report.coverage.completeCurrentDelta
    && report.coverage.exclusions = 0 && 457 ≤ report.coverage.baselineSourceRows
    && report.coverage.resolvedSourceRows = report.coverage.baselineSourceRows
    && isHex 64 report.checkerBaselineSha256
    && report.checkerAuthority = "independent-controller"
    && (host.parseDate report.checkedAt).any (fun at' =>
      0 ≤ now - at' && now - at' ≤ 86400000)

/-- **`bind`.** -/
def bind (host : Host) (state : LeaseState) (input : BindInput) : Watch Unit := do
  let now ← dateNow
  demand (state.status = .reserved ∧ now - state.reservedAt < 300000)
  demand ((Utf16.encode input.plan.toList).length ≤ 1024 * 1024
    ∧ (Utf16.encode input.baseline.toList).length ≤ 1024 * 1024)
  let plan ← required (host.parsePlan input.plan)
  let baseline ← required (host.parseBaseline input.baseline)
  demand (plan.isOf host state.scope input baseline)
  independentKeys host
  let planSha256 := host.sha256 input.plan
  let reportSha256 := host.sha256 input.report.payload
  let owner ← signed host (input.approvals .owner) host.ownerPublicKey host.parseApproval
  demand (owner.isOf .owner planSha256 reportSha256 state.scope)
  let controller ←
    signed host (input.approvals .controller) host.controllerPublicKey host.parseApproval
  demand (controller.isOf .controller planSha256 reportSha256 state.scope)
  let report ← signed host input.report host.controllerPublicKey host.parseReport
  demand (report.passesStaging host state.scope now)
  demand report.gatesPass
  let zones := baseline.zones.map SnapshotZone.toZone
  demand (zones.all (fun zone => zone.routes.all Route.isNormal))
  demand (zones.length = 2 ∧ zones.any (fun z => z.id = comZone && z.name = "makler-realty.com")
    ∧ zones.any (fun z => z.name = "makler-realty.ru"))
  demand (plan.routes.all (Change.isPlanned zones))
  demand (plan.routes.map Change.key).Nodup
  demandBaseline zones
  demand (baseline.accountId = accountId ∧ isUuid plan.gatewayVersionId
    ∧ isUuid plan.gatewayDeploymentId ∧ plan.artifacts.all (fun artifact => isHex 64 artifact.snd))
  let armedAt ← dateNow
  demand (armedAt + 600000 + 120000 < state.expiresAt)
  save { state with
    plan := some plan, planSha256 := some planSha256, baseline := some zones,
    fullBaseline := some baseline, checkerBaselineSha256 := some report.checkerBaselineSha256,
    baselineSourceRows := some report.coverage.baselineSourceRows, status := .armed,
    deadline := armedAt + 600000 }
  setAlarm (armedAt + 600000)

/-! ## Restoring -/

/-- The index before an index or a length. -/
def indexBefore : ℕ → Option ℕ
  | 0 => none
  | n + 1 => some n

/-- The state in which a round of restoration starts. -/
def LeaseState.startRound (state : LeaseState) : LeaseState :=
  { state with
    status := .restoring, restoreIndex := indexBefore state.intents.length, verifyIndex := 0,
    originIndex := 0, originChecks := some [], roundFailed := false }

/-- Stores a state of a round and wakes soon. -/
def saveAndWake (state : LeaseState) : Watch Unit := do
  save state
  setAlarm ((← dateNow) + 100)

/-- **`startRestore`.** -/
def startRestore (state : LeaseState) : Watch LeaseState := do
  if state.plan.isNone || state.baseline.isNone then
    save { state with status := .released }
    return { state with status := .released }
  else
    saveAndWake state.startRound
    return state.startRound

/-- The state in which the route of an intent is known. -/
def LeaseState.setId (state : LeaseState) (i : ℕ) (intent : Intent) (id : String) : LeaseState :=
  { state with intents := state.intents.set i { intent with id := some id } }

/-- The write that restores the route of an intent, if it is not restored; a new
route it finds is stored with the intent. -/
def restoreWrite (state : LeaseState) (plan : BoundPlan) (baseline : List Zone) (i : ℕ)
    (intent : Intent) : Watch (LeaseState × Option RouteWrite) := do
  let rows ← routes intent.zoneId
  match intent.before with
  | some before =>
    let actual ← required (rows.find? (fun r => r.id = before.id))
    if actual = before then return (state, none) else
    demand (actual.pattern = intent.pattern ∧ actual.script = some plan.workerName)
    return (state, some (.put actual.id before.pattern before.script))
  | none =>
    let actual := rows.filter (fun r => r.pattern = intent.pattern)
    demand (actual.length ≤ 1 ∧ actual.all (fun r => r.script = some plan.workerName
      && intent.id.all (fun id => r.id = id)
      && !baseline.any (fun z => z.routes.any (fun old => old.id = r.id))))
    match actual.head? with
    | none => return (state, none)
    | some row =>
      save (state.setId i intent row.id)
      return (state.setId i intent row.id, some (.delete row.id))

/-- Restores the route of an intent: what is known after, and whether it failed. -/
def restoreIntent (state : LeaseState) (plan : BoundPlan) (baseline : List Zone) (i : ℕ)
    (intent : Intent) : Watch (LeaseState × Bool) := do
  match ← (restoreWrite state plan baseline i intent).attempt with
  | none => return (state, true)
  | some (state, none) => return (state, false)
  | some (state, some write) =>
    let answer ← (provider intent.zoneId write).attempt
    return (state, answer.isNone)

/-- The intent a round is at. -/
def LeaseState.current (state : LeaseState) : Option (ℕ × Intent) :=
  state.restoreIndex.bind (fun i => state.intents[i]?.map (fun intent => (i, intent)))

/-- The state after an intent of a round. -/
def LeaseState.afterIntent (state : LeaseState) (i : ℕ) (failed : Bool) : LeaseState :=
  { state with
    intents := if failed then state.intents
      else state.intents.modify i (fun intent => { intent with restored := true }),
    roundFailed := state.roundFailed || failed, restoreIndex := indexBefore i }

/-- The state after a zone of a round. -/
def LeaseState.afterZone (state : LeaseState) (failed : Bool) : LeaseState :=
  { state with
    roundFailed := state.roundFailed || failed, verifyIndex := state.verifyIndex + 1 }

/-- The state after a host of a round. -/
def LeaseState.afterOrigin (state : LeaseState) (checks : Option (List OriginCheck))
    (failed : Bool) : LeaseState :=
  { state with
    roundFailed := state.roundFailed || failed, originIndex := state.originIndex + 1,
    originChecks := checks }

/-- The state after a round. -/
def LeaseState.endRound (state : LeaseState) (now : Instant) : LeaseState :=
  if state.roundFailed then { state with status := .reconciliationRequired, cleanReads := 0 }
  else { state with
    status := .restored, cleanReads := state.cleanReads + 1,
    restoredAt := state.restoredAt.or (some now) }

/-- Probes a host, if there is a list to add the probe to: the list after, and
whether the probe failed. -/
def probeOrigin (host : String) :
    Option (List OriginCheck) → Watch (Option (List OriginCheck) × Bool)
  | none => return (none, false)
  | some checks => do
    match ← (originalOrigin host).attempt with
    | some check => return (some (checks ++ [check]), false)
    | none => return (some checks, true)

/-- **`restoreStep`**: one route, one zone or one host a wake. -/
def restoreStep (state : LeaseState) : Watch Unit := do
  let plan ← required state.plan
  let baseline ← required state.baseline
  match state.current with
  | some (i, intent) =>
    let (state, failed) ← restoreIntent state plan baseline i intent
    saveAndWake (state.afterIntent i failed)
  | none =>
  match baseline[state.verifyIndex]? with
  | some zone =>
    let verified ← (demandBaseline [zone]).attempt
    saveAndWake (state.afterZone verified.isNone)
  | none =>
  match originHosts[state.originIndex]?, state.rehearsal with
  | some host, false =>
    let (checks, failed) ← probeOrigin host state.originChecks
    saveAndWake (state.afterOrigin checks failed)
  | _, _ =>
    let now ← dateNow
    save (state.endRound now)
    setAlarm (now +
      (if state.rehearsal then 2000 else if state.roundFailed then 15000 else 30000))

/-- Starts to restore, unless that is going on. -/
def restore (state : LeaseState) : Watch Unit := do
  if state.status = .restoring then return () else
  let _ ← startRestore state

/-- **`alarm`.** -/
def alarm : Watch Unit := do
  match ← getActive with
  | none => return ()
  | some state =>
    if state.status.Final then return () else
    setAlarm ((← dateNow) + 30000)
    if (state.status = .reserved ∨ state.status = .armed) ∧ (← dateNow) < state.deadline then
      setAlarm state.deadline
    else if state.status = .restoring then restoreStep state
    else
      let _ ← startRestore state

/-! ## Changing a route -/

/-- Replaces the row of an identifier: the last one, if there is none
(`splice` at the index -1). -/
def spliceRoute (rows : List Route) (id : String) (route : Route) : List Route :=
  match rows.findIdx? (fun r => r.id = id) with
  | some i => rows.set i route
  | none => rows.dropLast ++ [route]

/-- The rows of a zone with its intents applied, if each is acknowledged. -/
def appliedRoutes (workerName : String) : List Intent → List Route → Option (List Route)
  | [], rows => some rows
  | intent :: intents, rows => do
    let id ← intent.id
    let route : Route := ⟨id, intent.pattern, some workerName⟩
    appliedRoutes workerName intents (match intent.before with
      | some before => spliceRoute rows before.id route
      | none => rows ++ [route])

/-- The intents of a zone. -/
def LeaseState.intentsOf (state : LeaseState) (zoneId : String) : List Intent :=
  state.intents.filter (fun intent => intent.zoneId = zoneId)

/-- The write of a change. -/
def Intent.change (intent : Intent) (workerName : String) : RouteWrite :=
  match intent.before with
  | some before => .put before.id intent.pattern (some workerName)
  | none => .post intent.pattern (some workerName)

/-- The state with one more intent. -/
def LeaseState.addIntent (state : LeaseState) (intent : Intent) : LeaseState :=
  { state with intents := state.intents ++ [intent] }

/-- The state after a write whose outcome is not known. -/
def LeaseState.failed (state : LeaseState) : LeaseState :=
  { state with status := .restoring, providerFailure := true }

/-- Changes the route of an intent that is stored, and stores its identifier. -/
def changeRoute (state : LeaseState) (plan : BoundPlan) (intent : Intent) : Watch Route := do
  let route ← provider intent.zoneId (intent.change plan.workerName)
  demand route.isNormal
  demand (route.pattern = intent.pattern ∧ route.script = some plan.workerName
    ∧ ∀ before ∈ intent.before, route.id = before.id)
  save (state.addIntent { intent with id := some route.id })
  return route

/-- **`mutate`.** -/
def mutate (state : LeaseState) (zoneId pattern : String) : Watch Route := do
  let now ← dateNow
  demand (state.status = .armed ∧ now < state.deadline)
  let plan ← required state.plan
  let baseline ← required state.baseline
  let change ← required (plan.routes.find? (fun r => r.zoneId = zoneId && r.pattern = pattern))
  let zone ← required (baseline.find? (fun z => z.id = change.zoneId))
  let previous := zone.routes.find? (fun r => some r.id = change.baselineRouteId)
  match state.intents.find? (fun r => r.zoneId = change.zoneId && r.pattern = change.pattern) with
  | some intent =>
    -- An acknowledgement loss is fenced; never resend it.
    let retainedId ← required intent.id
    let actual ← required ((← routes change.zoneId).find? (fun r => r.id = retainedId))
    demand (actual.pattern = change.pattern ∧ actual.script = some plan.workerName)
    return actual
  | none =>
    let actual ← routes change.zoneId
    let expected ← required (appliedRoutes plan.workerName (state.intentsOf zone.id) zone.routes)
    demand (sameRows actual expected)
    let intent : Intent := { toChange := change, before := previous, id := none, restored := false }
    save (state.addIntent intent)
    match ← (changeRoute state plan intent).attempt with
    | some route => return route
    | none =>
      save (state.addIntent intent).failed
      let _ ← startRestore (state.addIntent intent).failed
      .fail

/-! ## Rehearsals -/

/-- The pattern of a rehearsal. -/
def rehearsalPattern (operationId : Uuid) : String :=
  "watchdog-rehearsal.makler-realty.com/" ++ operationId ++ "/*"

/-- **`rehearsal`.** -/
def rehearsal (host : Host) (operationId : Uuid) : Watch Unit := do
  demand (isUuid operationId ∧ isHex 40 host.sourceCommit ∧ isHex 64 host.sourceSha256)
  let rows ← routes comZone
  let existing := rows.filter (fun r => r.pattern = rehearsalPattern operationId)
  demand (existing.length ≤ 1 ∧ existing.all (fun r => r.script = none))
  let zone : SnapshotZone :=
    { id := comZone, name := "makler-realty.com", routes := rows, dns := [], rest := [] }
  let baseline : BaselineSnapshot := ⟨accountId, [zone]⟩
  let leaseId ← randomUUID
  let scope : Scope := {
    operationId := operationId, leaseId := leaseId, sourceCommit := host.sourceCommit,
    digest := "sha256:" ++ host.sourceSha256, baselineSha256 := host.sha256 (String.ofList (stringify baseline.toJson)),
    zoneIds := [comZone] }
  reserve host scope
  let state ← required (← getActive)
  let plan : BoundPlan := {
    operationId := operationId, accountId := accountId, sourceCommit := scope.sourceCommit,
    digest := scope.digest, baselineSha256 := scope.baselineSha256,
    workerName := "ms-realty-route-watchdog", timeoutSeconds := 600, rollbackTimeoutSeconds := 120,
    routes := [⟨comZone, rehearsalPattern operationId, existing.head?.map Route.id⟩],
    gatewayVersionId := host.versionId, gatewayDeploymentId := host.versionId, artifacts := [] }
  let now ← dateNow
  save { state with
    rehearsal := true, plan := some plan, baseline := some [zone.toZone],
    fullBaseline := some baseline,
    planSha256 := some (host.sha256 (String.ofList (canonicalJson plan.toJson))),
    status := .armed, deadline := now + 15000 }
  setAlarm (now + 15000)

/-- The state in which the route of an intent is not restored any more. -/
def LeaseState.unrestored (state : LeaseState) (intent : Intent) : LeaseState :=
  { state with
    intents := [{ intent with id := none, restored := false }], cleanReads := 0,
    restoredAt := none, lateWriteFaults := state.lateWriteFaults + 1 }

/-- Changes the route of an intent that was restored, and stores its identifier. -/
def writeLate (state : LeaseState) (intent : Intent) : Watch Unit := do
  let route ← provider comZone (intent.change "ms-realty-route-watchdog")
  demand route.isNormal
  save { state with intents := [{ intent with id := some route.id, restored := false }] }

/-- Writes a rehearsed route once more, as a write that arrives late. -/
def lateWrite (state : LeaseState) : Watch Unit := do
  demand (state.rehearsal ∧ state.status = .restored ∧ state.plan.isSome
    ∧ state.intents.length = 1)
  let intent ← required state.intents.head?
  demand (intent.pattern = rehearsalPattern state.scope.operationId)
  demandBaseline (state.baseline.getD [])
  writeLate (← startRestore (state.unrestored intent)) intent

/-- Ends a rehearsal. -/
def close (state : LeaseState) : Watch Unit := do
  demand (state.rehearsal ∧ state.status = .restored ∧ 2 ≤ state.cleanReads)
  demandBaseline (state.baseline.getD [])
  save { state with status := .released }
  deleteAlarm

/-! ## Accepting and releasing -/

/-- A snapshot with an acknowledged intent applied. -/
def applyIntent (workerName : String) (zones : List SnapshotZone) (intent : Intent) :
    Option (List SnapshotZone) := do
  let zone ← zones.findIdx? (fun zone => zone.id = intent.zoneId)
  let id ← intent.id
  let route : Route := ⟨id, intent.pattern, some workerName⟩
  return zones.modify zone (fun zone => { zone with
    routes := match zone.routes.findIdx? (fun r =>
        intent.before.any (fun before => r.id = before.id)) with
      | some i => zone.routes.set i route
      | none => zone.routes ++ [route] })

/-- `sorted`. -/
def Host.sorted (host : Host) (values : List JsonValue) : List JsonValue :=
  values.mergeSort (fun a b =>
    host.localeLE (String.ofList (canonicalJson a)) (String.ofList (canonicalJson b)))

/-- The digest of a snapshot, its zones, routes and records in order. -/
def Host.snapshotSha256 (host : Host) (accountId : String) (zones : List SnapshotZone) : String :=
  let zoneJson := fun zone : SnapshotZone => JsonValue.obj ([("id", .str zone.id),
    ("name", .str zone.name), ("dns", .arr (host.sorted zone.dns)),
    ("routes", .arr (host.sorted (zone.routes.map Route.toJson)))] ++ zone.rest)
  host.sha256 (String.ofList (canonicalJson (.obj [("accountId", .str accountId),
    ("zones", .arr (host.sorted (zones.map zoneJson)))])))

/-- What a report of a lease must name. -/
def LeaseState.bindings (state : LeaseState) (plan : BoundPlan) (appliedStateSha256 : String) :
    Bindings where
  operationId := state.scope.operationId
  planSha256 := state.planSha256
  baselineSha256 := state.scope.baselineSha256
  appliedStateSha256 := appliedStateSha256
  sourceCommit := state.scope.sourceCommit
  digest := state.scope.digest
  gatewayVersionId := plan.gatewayVersionId
  gatewayDeploymentId := plan.gatewayDeploymentId
  artifacts := plan.artifacts

/-- Whether a report passes a lease in production. -/
def Report.passesProduction (host : Host) (report : Report) (state : LeaseState)
    (bindings : Bindings) (now : Instant) : Bool :=
  report.schemaVersion = some 1 && report.environment = "production" && report.status = "PASS"
    && report.checkerAuthority = "independent-controller"
    && some report.checkerBaselineSha256 = state.checkerBaselineSha256
    && report.bindings = some bindings && sameRows report.hosts businessHosts
    && (host.parseDate report.checkedAt).any (fun at' =>
      state.deadline - 600000 ≤ at' && at' ≤ now)
    && report.coverage.completeCurrentDelta && report.coverage.productionAllowed
    && report.coverage.exclusions = 0
    && some report.coverage.baselineSourceRows = state.baselineSourceRows
    && some report.coverage.resolvedSourceRows = state.baselineSourceRows

/-- Demands that every zone has its routes with the intents applied. -/
def demandApplied (state : LeaseState) (workerName : String) : List Zone → Watch Unit
  | [] => return ()
  | zone :: zones => do
    let expected ← required (appliedRoutes workerName (state.intentsOf zone.id) zone.routes)
    demand (sameRows (← routes zone.id) expected)
    demandApplied state workerName zones

/-- **Accepts** the changed state. -/
def accept (host : Host) (state : LeaseState) (envelope : Envelope) : Watch Unit := do
  if state.status = .accepted
      ∧ state.acceptedReportSha256 = some (host.sha256 envelope.payload) then return () else
  let now ← dateNow
  demand (state.status = .armed ∧ ¬ state.rehearsal ∧ now ≤ state.deadline)
  let plan ← required state.plan
  let baseline ← required state.baseline
  let fullBaseline ← required state.fullBaseline
  let report ← signed host envelope host.controllerPublicKey host.parseReport
  let applied ← required (state.intents.foldlM (applyIntent plan.workerName) fullBaseline.zones)
  let bindings := state.bindings plan (host.snapshotSha256 fullBaseline.accountId applied)
  demand (report.passesProduction host state bindings now)
  demand report.gatesPass
  demand (state.intents.length = plan.routes.length ∧ state.intents.all (fun i => i.id.isSome))
  demandApplied state plan.workerName baseline
  demand ((← dateNow) ≤ state.deadline)
  save { state with
    status := .accepted, acceptedReportSha256 := some (host.sha256 envelope.payload) }
  deleteAlarm

/-- Whether a permit is one of a role for a lease. -/
def Permit.isOf (host : Host) (permit : Permit) (role : Role) (scope : Scope) (now : Instant) :
    Bool :=
  permit.purpose = "release-restored-route-lease" && permit.role = role.name
    && permit.operationId = scope.operationId && permit.leaseId = scope.leaseId
    && permit.baselineSha256 = scope.baselineSha256
    && (host.parseDate permit.issuedAt).any (fun issued => issued ≤ now && now - issued ≤ 60000)

/-- **Releases** a restored lease. -/
def release (host : Host) (state : LeaseState) (approvals : Role → Envelope) : Watch Unit := do
  let now ← dateNow
  demand (state.status = .restored ∧ 3 ≤ state.cleanReads
    ∧ state.restoredAt.any (fun at' => at' ≠ 0 && 60000 ≤ now - at'))
  independentKeys host
  let owner ← signed host (approvals .owner) host.ownerPublicKey host.parsePermit
  demand (owner.isOf host .owner state.scope now)
  let controller ← signed host (approvals .controller) host.controllerPublicKey host.parsePermit
  demand (controller.isOf host .controller state.scope now)
  demandBaseline (state.baseline.getD [])
  save { state with status := .released }
  deleteAlarm

/-! ## Serving -/

/-- Retains a journal. -/
def retainJournal (state : LeaseState) (journal : Journal) : Watch Unit := do
  demand (journal.operationId = state.scope.operationId
    ∧ journal.baselineSha256 = state.scope.baselineSha256
    ∧ journal.planSha256 = state.planSha256)
  save { state with journal := some journal }

/-- What is asked of the lease that is held. -/
def command (host : Host) (state : LeaseState) : Command → Watch Answer
  | .bind input => do bind host state input; return .ok
  | .mutate zoneId pattern => do let _ ← mutate state zoneId pattern; return .ok
  | .journal journal => do retainJournal state journal; return .ok
  | .restore => do restore state; return .ok
  | .lateWrite => do lateWrite state; return .ok
  | .close => do close state; return .ok
  | .accept report => do accept host state report; return .ok
  | .release approvals => do release host state approvals; return .ok
  | .unknown => return .unknownRequest

/-- What a request does. -/
def handle (host : Host) (request : Request) : Watch Answer := do
  let state ← getActive
  match request with
  | .status => return .ok
  | .origin name =>
    let check ← (originalOrigin name).attempt
    return if check.isSome then .ok else .originUnverified
  | .malformed => .fail
  | .reserve scope => reserve host scope; return .ok
  | .rehearsal operationId => rehearsal host operationId; return .ok
  | .named operationId leaseId asked =>
    let state ← required state
    demand (operationId = state.scope.operationId ∧ leaseId = state.scope.leaseId)
    command host state asked

/-- **`fetch`.** -/
def fetch (host : Host) (request : Request) : Watch Answer := do
  let answer ← (handle host request).attempt
  return answer.getD .unverified

/-- What the object does for an event. -/
def serveEvent (host : Host) : Event → Watch Unit
  | .request request => do Prog.op (Op.answered (← fetch host request))
  | .alarm => alarm

/-- **What the object does when it is woken.** -/
def serve (host : Host) (event : Event) : Watch Unit := do
  Prog.op (Op.began event)
  serveEvent host event

end Watchdog
