import MsRealty.RouteWatchdog

/-!
# The world of the watchdog

What the programs of the watchdog act on: the object's storage and alarm, the
clock, and the zones of the provider. The provider answers a read with the rows
of the zone, or fails. A write is applied or refused, and its acknowledgement
may be lost; it may also be on its way for any time and arrive later, or never.
Nobody else writes to the zones: what an earlier lease has on its way when a new
one is stored is taken not to arrive.

The object serves one event after the other, and may crash between any two
operations of a program. The log – newest entry first – has what was stored,
read, written and answered, and during which event.
-/

namespace Watchdog

/-! ## The log -/

/-- What is logged. -/
inductive Act where
  | began
  | read (zone : String) (rows : Option (List Route))
  | wrote (zone : String) (write : RouteWrite) (answer : Option Route)
  | stored (state : LeaseState)
  | answered (answer : Answer)

/-- **An entry of the log**: an act, and the event that was served. -/
structure Entry where
  during : Event
  act : Act

/-- **A world.** -/
structure World where
  active : Option LeaseState
  history : List (Uuid × LeaseState)
  alarmAt : Option Instant
  clock : Instant
  zones : String → List Route
  pending : List (String × RouteWrite)
  serving : Event
  log : List Entry

namespace World

/-- The world with one more act in the log. -/
def record (w : World) (act : Act) : World := { w with log := ⟨w.serving, act⟩ :: w.log }

/-- The world with other rows in a zone. -/
def setRows (w : World) (zone : String) (rows : List Route) : World :=
  { w with zones := Function.update w.zones zone rows }

end World

/-! ## The provider -/

/-- **The rows of a zone**: routes with different identifiers and patterns, at
most as many as a zone may have. -/
structure RowsOk (rows : List Route) : Prop where
  length_le : rows.length ≤ 1000
  normal : ∀ r ∈ rows, r.isNormal = true
  ids : (rows.map Route.id).Nodup
  patterns : (rows.map Route.pattern).Nodup

/-- What a write makes of the rows of a zone, and its answer. A new row gets a
fresh identifier; a pattern has one row. -/
def writeRows (fresh : String) (rows : List Route) : RouteWrite → Option (List Route × Route)
  | .put id pattern script =>
    let route : Route := ⟨id, pattern, script⟩
    if rows.any (fun r => r.id = id) ∧ rows.all (fun r => r.id = id || r.pattern ≠ pattern)
        ∧ route.isNormal then
      some (rows.map (fun r => if r.id = id then route else r), route)
    else none
  | .post pattern script =>
    let route : Route := ⟨fresh, pattern, script⟩
    if rows.length < 1000 ∧ rows.all (fun r => r.pattern ≠ pattern) ∧ route.isNormal then
      some (rows ++ [route], route)
    else none
  | .delete id =>
    (rows.find? (fun r => r.id = id)).map (fun r => (rows.filter (fun r => r.id ≠ id), r))

/-- **A write can be applied**, with this outcome. -/
def Applies (w : World) (zone : String) (write : RouteWrite) (rows : List Route)
    (route : Route) : Prop :=
  ∃ fresh, (∀ z, ∀ r ∈ w.zones z, r.id ≠ fresh) ∧
    writeRows fresh (w.zones zone) write = some (rows, route)

/-- **A write that was on its way arrives.** -/
def Arrives (w w' : World) : Prop :=
  ∃ before after zone write rows route, w.pending = before ++ (zone, write) :: after ∧
    Applies w zone write rows route ∧
    w' = { w.setRows zone rows with pending := before ++ after }

/-- What a write does when it is issued: it is lost, it is on its way, or it is
applied, and then the answer may be lost. -/
def Issues (w : World) (zone : String) (write : RouteWrite) (answer : Option Route)
    (w' : World) : Prop :=
  (answer = none ∧ w' = w) ∨
  (answer = none ∧ w' = { w with pending := w.pending ++ [(zone, write)] }) ∨
  ∃ rows route, Applies w zone write rows route ∧ (answer = none ∨ answer = some route) ∧
    w' = w.setRows zone rows

/-! ## Operations -/

/-- The world in which a state is stored. -/
def World.store (w : World) (state : LeaseState) : World :=
  ({ w with
    active := some state,
    pending := if w.active.map LeaseState.scope = some state.scope then w.pending
      else [] }).record (.stored state)

/-- The world in which an event begins: the alarm that rang is no longer set. -/
def World.begin (w : World) (event : Event) : World :=
  ({ w with
    serving := event,
    alarmAt := match event with
      | .alarm => none
      | .request _ => w.alarmAt }).record .began

/-- **What operations do.** Writes that are on their way may arrive before the
provider reads or writes. -/
def act : (op : Op) → World → op.Ans → World → Prop
  | .began event, w, _, w' => w' = w.begin event
  | .answered answer, w, _, w' => w' = w.record (.answered answer)
  | .now, w, time, w' => w.clock ≤ time ∧ w' = { w with clock := time }
  | .load, w, state, w' => state = w.active ∧ w' = w
  | .loadHistory operationId, w, used, w' =>
    used = w.history.any (fun lease => lease.fst = operationId) ∧ w' = w
  | .put state, w, _, w' => w' = w.store state
  | .putHistory operationId state, w, _, w' =>
    w' = { w with history := (operationId, state) :: w.history }
  | .setAlarm time, w, _, w' => w' = { w with alarmAt := some time }
  | .deleteAlarm, w, _, w' => w' = { w with alarmAt := none }
  | .read zone, w, rows, w' => ∃ w₁, Relation.ReflTransGen Arrives w w₁ ∧
    (rows = none ∨ rows = some (w₁.zones zone)) ∧ w' = w₁.record (.read zone rows)
  | .write zone write, w, answer, w' => ∃ w₁ w₂, Relation.ReflTransGen Arrives w w₁ ∧
    Issues w₁ zone write answer w₂ ∧ w' = w₂.record (.wrote zone write answer)
  | .probe _, w, _, w' => w' = w
  | .randomUUID, w, id, w' => (∀ s, w.active = some s → s.scope.leaseId ≠ id) ∧ w' = w

/-! ## Runs -/

/-- **A step**: an event that is allowed is served, at least in part, or a write
arrives. -/
inductive Step (host : Host) (allowed : World → Event → Prop) : World → World → Prop
  | serve {event : Event} {w w' : World} {rest : Watch Unit} : allowed w event →
    Prog.Runs act (serve host event) w rest w' → Step host allowed w w'
  | arrive {w w' : World} : Arrives w w' → Step host allowed w w'

/-- **A run** in which only events that are allowed are served. -/
abbrev Run (host : Host) (allowed : World → Event → Prop) : World → World → Prop :=
  Relation.ReflTransGen (Step host allowed)

/-- Every event is allowed. -/
def anyEvent : World → Event → Prop := fun _ _ => True

/-- A world in which nothing has been stored. -/
structure Initial (w : World) : Prop where
  active : w.active = none
  history : w.history = []
  pending : w.pending = []
  log : w.log = []
  rows : ∀ zone, RowsOk (w.zones zone)

/-- **A world that is reached** in some run. -/
def Reachable (host : Host) (w : World) : Prop :=
  ∃ w₀, Initial w₀ ∧ Run host anyEvent w₀ w

/-! ## Reading the log -/

/-- The state an entry stores. -/
def Entry.state? (e : Entry) : Option LeaseState :=
  match e.act with
  | .stored state => some state
  | _ => none

/-- Whether an entry begins an event. -/
def Entry.isBegan (e : Entry) : Bool :=
  match e.act with
  | .began => true
  | _ => false

/-- Whether an entry is a write. -/
def Entry.isWrite (e : Entry) : Bool :=
  match e.act with
  | .wrote _ _ _ => true
  | _ => false

/-- Whether an entry is a read or a write. -/
def Entry.isProvider (e : Entry) : Bool :=
  match e.act with
  | .read _ _ | .wrote _ _ _ => true
  | _ => false

/-- The state that was stored last. -/
def lastStored (log : List Entry) : Option LeaseState := log.findSome? Entry.state?

/-- What the provider was last asked. -/
def lastProvider (log : List Entry) : Option Entry := log.find? Entry.isProvider

/-- The entries since the event that is served began. -/
def sinceBegan (log : List Entry) : List Entry := log.takeWhile (fun e => !e.isBegan)

theorem lastStored_cons_some {e : Entry} {log : List Entry} {state : LeaseState}
    (h : e.state? = some state) : lastStored (e :: log) = some state := by
  rw [lastStored, List.findSome?_cons, h]

theorem lastStored_cons_none {e : Entry} {log : List Entry} (h : e.state? = none) :
    lastStored (e :: log) = lastStored log := by
  rw [lastStored, List.findSome?_cons, h]
  rfl

end Watchdog
