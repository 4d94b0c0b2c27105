import Mathlib.Algebra.Order.Ring.Int
import MsRealty.Operations
import MsRealty.RowLocks
import MsRealty.Table

/-!
# The budget of the AI runs

Two families of runs – assistance and workspace runs – share one budget a day and
one place for each actor (`src/server/ai/budget.ts`). A transaction reserves under
an advisory lock that it holds to its end, and inserts its run
(`src/server/ai/assistance.ts`, `src/server/ai/workspace.ts`); a settlement locks
a run and records what it cost.

The new run of a workspace settles the previous one first, in the same
transaction. Amounts are integers of micros, which the columns hold and the
configuration bounds.
-/

namespace AiBudget

open RowLocks

/-! ## Runs -/

/-- The two families of runs. -/
inductive RunFamily where
  | assistance
  | generative
  deriving DecidableEq

/-- `AiBillingMode`. -/
inductive AiBillingMode where
  | meteredUsd
  | chatgptSubscription
  deriving DecidableEq

/-- The states of the runs of both families. -/
inductive RunState where
  | queued
  | running
  | draft
  | failed
  | stale
  | rejected
  | accepted
  | waitingInput
  | review
  | completed
  | cancelled
  | budgetExhausted
  | unknownProvider
  deriving DecidableEq

/-- `InferenceOutcome`. -/
inductive InferenceOutcome where
  | notStarted
  | pending
  | settled
  | unknown
  deriving DecidableEq

/-- **A run.** Only a generative run is claimed. -/
structure AiRun where
  id : Uuid
  requestedById : Uuid
  createdAt : Instant
  state : RunState
  billingMode : AiBillingMode
  inferenceOutcome : InferenceOutcome
  reservedCostMicros : Option ℤ
  actualCostMicros : Option ℤ
  claimId : Option Uuid

/-- A run that is queued or running. -/
def AiRun.isActive (run : AiRun) : Bool := run.state = .queued || run.state = .running

/-- Whether a run keeps its actor from another one. -/
def AiRun.isBusy (run : AiRun) : Bool :=
  run.isActive || (run.claimId.isSome
    && (run.inferenceOutcome = .pending || run.inferenceOutcome = .unknown))

/-- **What a run costs**: what it did cost, or what is reserved for it. -/
def AiRun.cost (run : AiRun) : ℤ := (run.actualCostMicros.or run.reservedCostMicros).getD 0

/-- Whether a run is charged to a day. -/
def AiRun.isCharged (day : Instant) (run : AiRun) : Bool :=
  run.billingMode = .meteredUsd && day ≤ run.createdAt

/-- **The tables of the runs.** -/
structure BudgetData where
  assistanceRuns : Table Uuid AiRun AiRun.id
  generativeRuns : Table Uuid AiRun AiRun.id

/-- The table of a family. -/
def BudgetData.runs (data : BudgetData) : RunFamily → Table Uuid AiRun AiRun.id
  | .assistance => data.assistanceRuns
  | .generative => data.generativeRuns

/-- Replaces the table of a family. -/
def BudgetData.setRuns (data : BudgetData) (family : RunFamily)
    (runs : Table Uuid AiRun AiRun.id) : BudgetData :=
  match family with
  | .assistance => { data with assistanceRuns := runs }
  | .generative => { data with generativeRuns := runs }

/-- The runs of both families. -/
def BudgetData.all (data : BudgetData) : List AiRun :=
  data.assistanceRuns.rows ++ data.generativeRuns.rows

/-- Whether an actor has a run already. -/
def BudgetData.busy (data : BudgetData) (actorId : Uuid) : Bool :=
  data.assistanceRuns.rows.any (fun run => run.requestedById = actorId && run.isActive)
    || data.generativeRuns.rows.any (fun run => run.requestedById = actorId && run.isBusy)

/-- The runs of an actor that are queued or running. -/
def BudgetData.active (data : BudgetData) (actorId : Uuid) : ℕ :=
  data.all.countP (fun run => run.requestedById = actorId && run.isActive)

/-- **What a day costs.** -/
def BudgetData.used (data : BudgetData) (day : Instant) : ℤ :=
  ((data.all.filter (AiRun.isCharged day)).map AiRun.cost).sum

/-- The milliseconds of a day. -/
def msPerDay : ℤ := 86400000

/-- The start of an instant's day, `date_trunc` in UTC. -/
def utcDay (now : Instant) : Instant := now - now % msPerDay

/-- `Number.MAX_SAFE_INTEGER`. -/
def maxSafeInteger : ℤ := 2 ^ 53 - 1

/-! ## Transactions -/

/-- What is locked: the budget, or a run. -/
inductive Row where
  | budget
  | run (family : RunFamily) (id : Uuid)
  deriving DecidableEq

/-- A transaction, as statements. -/
abbrev Statements (α : Type) : Type := Transaction BudgetData Row α

/-- **`reserveAiBudget`.** -/
def reserveAiBudget (actorId : Uuid) (amount ceiling : Option ℤ) (mode : AiBillingMode)
    (now : Instant) : Statements Unit := do
  let _ ← locking .budget .update
  let data ← reading
  Prog.demand (data.busy actorId = false)
  match mode with
  | .chatgptSubscription => Prog.demand (amount = none ∧ ceiling = none)
  | .meteredUsd =>
    let data ← reading
    let amount ← Prog.required amount
    let ceiling ← Prog.required ceiling
    Prog.demand (amount ≤ maxSafeInteger ∧ 0 < amount ∧ data.used (utcDay now) + amount ≤ ceiling)

/-- **A request of a run**: who asks, and what the configuration reserves. -/
structure Request where
  runId : Uuid
  actorId : Uuid
  amount : Option ℤ
  ceiling : Option ℤ
  mode : AiBillingMode
  now : Instant

/-- The run that is inserted. -/
def Request.run (request : Request) : AiRun where
  id := request.runId
  requestedById := request.actorId
  createdAt := request.now
  state := .queued
  billingMode := request.mode
  inferenceOutcome := .notStarted
  reservedCostMicros := request.amount
  actualCostMicros := none
  claimId := none

/-- Inserts a run: its id is new. -/
def insertRun (family : RunFamily) (run : AiRun) (data : BudgetData) : BudgetData :=
  data.setRuns family (((data.runs family).insert? run).getD (data.runs family))

/-- Replaces the run of an id. -/
def replaceRun (family : RunFamily) (run : AiRun) (data : BudgetData) : BudgetData :=
  data.setRuns family ((data.runs family).update (fun r => if r.id = run.id then run else r)
    (fun r => by split_ifs with h; exacts [h.symm, rfl]))

/-- **`requestAssistance`**: what it does with the runs. -/
def requestAssistance (request : Request) : Statements Unit := do
  reserveAiBudget request.actorId request.amount request.ceiling request.mode request.now
  writing (insertRun .assistance request.run)

/-- **A settlement**: locks a run and writes what becomes of it, if anything. -/
def settleRun (family : RunFamily) (id : Uuid) (change : AiRun → Option AiRun) :
    Statements Unit := do
  let data ← locking (.run family id) .update
  let run ← Prog.required ((data.runs family).get? id)
  let changed ← Prog.required (change run)
  writing (replaceRun family changed)

/-- **`requestWorkspaceRun`**, where it makes a new run: what it does with the
runs, the previous one of the workspace included. -/
def requestWorkspaceRun (request : Request)
    (previous : Option (Uuid × (AiRun → Option AiRun))) : Statements Unit := do
  (match previous with
    | none => pure ()
    | some (id, change) => settleRun .generative id change)
  reserveAiBudget request.actorId request.amount request.ceiling request.mode request.now
  writing (insertRun .generative request.run)

end AiBudget
