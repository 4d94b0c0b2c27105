import MsRealty.WatchdogWorld

/-!
# What the watchdog may do

An abstract machine for the leases of the watchdog: which states may be stored
after which (`Next`), which writes may be issued (`MayWrite`), and the moves a
world makes (`Move`). It says what custody of the routes means, whatever the
requests, the failures and the crashes: a route is written for a plan only when
its intent is the newest thing stored, and a restoring write follows a read that
showed what is restored.
-/

namespace Watchdog

/-- **A plan fits the zones**: each change is of a route that is there, or of a
pattern that is not. -/
def Fits (plan : BoundPlan) (zones : List Zone) : Prop :=
  ∀ change ∈ plan.routes, ∃ zone, zones.find? (fun z => z.id = change.zoneId) = some zone ∧
    match change.baselineRouteId with
    | none => ∀ r ∈ zone.routes, r.pattern ≠ change.pattern
    | some id => ∃ r ∈ zone.routes, r.id = id ∧ r.pattern = change.pattern

/-- Whether an intent is that of a route. -/
def Intent.isFor (intent : Intent) (zone pattern : String) : Prop :=
  intent.zoneId = zone ∧ intent.pattern = pattern

/-- The zones a request has read and found to have their baseline routes. -/
def ReadEqual (log : List Entry) (zones : List Zone) : Prop :=
  ∀ zone ∈ zones, ∃ e ∈ sinceBegan log, ∃ rows, e.act = .read zone.id (some rows) ∧
    sameRows rows zone.routes = true

/-- **The states a lease may be in after a state.** -/
inductive Next (w : World) (s : LeaseState) : LeaseState → Prop
  | journal (journal : Journal) : Next w s { s with journal := some journal }
  | bind {plan : BoundPlan} {zones : List Zone} (planSha256 checkerBaselineSha256 : String)
      (snapshot : BaselineSnapshot) (rows : ℤ) (deadline : Instant) :
    s.status = .reserved → Fits plan zones →
    sameRows (zones.map Zone.id) s.scope.zoneIds = true →
    (∀ zone ∈ zones, isHex 32 zone.id = true ∧
      sameRows (w.zones zone.id) zone.routes = true) →
    Next w s { s with
      plan := some plan, planSha256 := some planSha256, baseline := some zones,
      fullBaseline := some snapshot, checkerBaselineSha256 := some checkerBaselineSha256,
      baselineSourceRows := some rows, status := .armed, deadline := deadline }
  | rehearse {plan : BoundPlan} {zone : Zone} (planSha256 : String) (snapshot : BaselineSnapshot)
      (deadline : Instant) :
    s.status = .reserved → Fits plan [zone] →
    Next w s { s with
      rehearsal := true, plan := some plan, baseline := some [zone],
      fullBaseline := some snapshot, planSha256 := some planSha256, status := .armed,
      deadline := deadline }
  | intend {plan : BoundPlan} {baseline : List Zone} {zone : Zone} {intent : Intent} :
    s.status = .armed → s.plan = some plan → s.baseline = some baseline →
    intent.toChange ∈ plan.routes →
    baseline.find? (fun z => z.id = intent.zoneId) = some zone →
    intent.before = zone.routes.find? (fun r => some r.id = intent.baselineRouteId) →
    intent.id = none → (∀ i ∈ s.intents, ¬ i.isFor intent.zoneId intent.pattern) →
    (∀ i ∈ s.intents, i.zoneId = intent.zoneId → i.id ≠ none) →
    Next w s (s.addIntent intent)
  | acknowledge {intents : List Intent} {intent : Intent} {route : Route} :
    s.status = .armed → s.intents = intents ++ [intent] → intent.id = none →
    route ∈ w.zones intent.zoneId → route.pattern = intent.pattern →
    Next w s { s with intents := intents ++ [{ intent with id := some route.id }] }
  | fail : s.status = .armed → Next w s s.failed
  | accept {report : Envelope} (sha256 : String) : s.status = .armed → s.rehearsal = false →
    w.serving = .request (.named s.scope.operationId s.scope.leaseId (.accept report)) →
    Next w s { s with status := .accepted, acceptedReportSha256 := some sha256 }
  | unbound : (s.plan = none ∨ s.baseline = none) → Next w s { s with status := .released }
  | startRound : s.plan ≠ none → s.baseline ≠ none →
    (s.status.Final →
      w.serving = .request (.named s.scope.operationId s.scope.leaseId .restore)) →
    Next w s s.startRound
  | found {baseline : List Zone} {i : ℕ} {intent : Intent} {row : Route} :
    s.status = .restoring → s.baseline = some baseline → s.restoreIndex = some i →
    s.intents[i]? = some intent → intent.before = none → row ∈ w.zones intent.zoneId →
    row.pattern = intent.pattern → (∀ id ∈ intent.id, row.id = id) →
    Next w s (s.setId i intent row.id)
  | restored {i : ℕ} {intent : Intent} (failed : Bool) : s.status = .restoring →
    s.restoreIndex = some i → s.intents[i]? = some intent → Next w s (s.afterIntent i failed)
  | verified {baseline : List Zone} {zone : Zone} (failed : Bool) :
    s.status = .restoring → s.current = none → s.baseline = some baseline →
    baseline[s.verifyIndex]? = some zone →
    (failed = false → ∃ e rest rows, w.log = e :: rest ∧ e.act = .read zone.id (some rows) ∧
      sameRows rows zone.routes = true) → Next w s (s.afterZone failed)
  | probed {baseline : List Zone} (failed : Bool) (checks : Option (List OriginCheck)) :
    s.status = .restoring → s.current = none → s.baseline = some baseline →
    baseline[s.verifyIndex]? = none → Next w s (s.afterOrigin checks failed)
  | endRound {baseline : List Zone} (now : Instant) :
    s.status = .restoring → s.current = none → s.baseline = some baseline →
    baseline[s.verifyIndex]? = none → Next w s (s.endRound now)
  | lateWrite {intent : Intent} : s.rehearsal = true → s.status = .restored →
    s.intents = [intent] → s.plan ≠ none → s.baseline ≠ none →
    Next w s (s.unrestored intent).startRound
  | lateWritten {intent : Intent} (id : String) : s.rehearsal = true → s.status = .restoring →
    s.intents = [{ intent with id := none, restored := false }] →
    Next w s { s with intents := [{ intent with id := some id, restored := false }] }
  | close : s.rehearsal = true → s.status = .restored →
    w.serving = .request (.named s.scope.operationId s.scope.leaseId .close) →
    Next w s { s with status := .released }
  | release {approvals : Role → Envelope} : s.status = .restored →
    w.serving = .request (.named s.scope.operationId s.scope.leaseId (.release approvals)) →
    ReadEqual w.log (s.baseline.getD []) → Next w s { s with status := .released }

/-- **The writes that may be issued.** -/
inductive MayWrite (w : World) : String → RouteWrite → Prop
  | change {s : LeaseState} {plan : BoundPlan} {intent : Intent} {rest : List Entry} :
    w.serving = .request (.named s.scope.operationId s.scope.leaseId
      (.mutate intent.zoneId intent.pattern)) →
    w.active = some (s.addIntent intent) →
    w.log = ⟨w.serving, .stored (s.addIntent intent)⟩ :: rest →
    lastStored rest = some s → s.status = .armed → s.plan = some plan →
    (∀ i ∈ s.intents, ¬ i.isFor intent.zoneId intent.pattern) → intent.id = none →
    MayWrite w intent.zoneId (intent.change plan.workerName)
  | putBack {s : LeaseState} {plan : BoundPlan} {i : ℕ} {intent : Intent} {before row : Route}
      {rows : List Route} :
    w.serving = .alarm → w.active = some s → s.status = .restoring → s.plan = some plan →
    s.restoreIndex = some i → s.intents[i]? = some intent →
    lastProvider w.log = some ⟨w.serving, .read intent.zoneId (some rows)⟩ → row ∈ rows →
    row.pattern = intent.pattern → row.script = some plan.workerName →
    intent.before = some before → row.id = before.id → row ≠ before →
    MayWrite w intent.zoneId (.put row.id before.pattern before.script)
  | remove {s : LeaseState} {plan : BoundPlan} {baseline : List Zone} {i : ℕ} {intent : Intent}
      {row : Route} {rows : List Route} :
    w.serving = .alarm → w.active = some s → s.status = .restoring → s.plan = some plan →
    s.baseline = some baseline → s.restoreIndex = some i → s.intents[i]? = some intent →
    lastProvider w.log = some ⟨w.serving, .read intent.zoneId (some rows)⟩ → row ∈ rows →
    row.pattern = intent.pattern → row.script = some plan.workerName → intent.before = none →
    (∀ z ∈ baseline, ∀ old ∈ z.routes, old.id ≠ row.id) →
    MayWrite w intent.zoneId (.delete row.id)
  | late {s : LeaseState} {intent : Intent} :
    w.serving = .request (.named s.scope.operationId s.scope.leaseId .lateWrite) →
    w.active = some s → s.rehearsal = true → s.status = .restoring → s.verifyIndex = 0 →
    MayWrite w comZone (intent.change "ms-realty-route-watchdog")

/-- **The moves of a world** while an event is served. -/
inductive Move : World → World → Prop
  | time (w : World) (time : Instant) : Move w { w with clock := time }
  | alarm (w : World) (time : Option Instant) : Move w { w with alarmAt := time }
  | arrive {w w' : World} : Arrives w w' → Move w w'
  | read {w : World} {zone : String} {rows : Option (List Route)} :
    (rows = none ∨ rows = some (w.zones zone)) → Move w (w.record (.read zone rows))
  | answered {w : World} {answer : Answer} :
    (answer ≠ .ok → ∀ operationId leaseId zone pattern,
      w.serving = .request (.named operationId leaseId (.mutate zone pattern)) →
      (∃ e ∈ sinceBegan w.log, e.isWrite = true) → ∃ s, w.active = some s ∧
        s.scope.operationId = operationId ∧ s.status = .restoring) →
    Move w (w.record (.answered answer))
  | archive {w : World} {s : LeaseState} : w.active = some s → s.status.Final →
    Move w { w with history := (s.scope.operationId, s) :: w.history }
  | reserve {w : World} {scope : Scope} (now : Instant) : scope.isValid = true →
    (∀ s, w.active = some s → s.status.Final ∧ ∃ lease ∈ w.history,
      lease.fst = s.scope.operationId) →
    (∀ lease ∈ w.history, lease.fst ≠ scope.operationId) →
    Move w (w.store (.reserve scope now))
  | store {w : World} {s s' : LeaseState} : w.active = some s → Next w s s' → Move w (w.store s')
  | write {w w' : World} {zone : String} {write : RouteWrite} {answer : Option Route} :
    MayWrite w zone write → Issues w zone write answer w' →
    Move w (w'.record (.wrote zone write answer))

end Watchdog
