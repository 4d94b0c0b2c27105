import MsRealty.WatchdogLeases

/-!
# The lease that is reopened

The request to restore is the one endpoint that does not check whether the
lease it names has ended. In every run in which no such request reaches the
active lease, accepted and released are final (`leases_final`). A rehearsal that
was closed shows what happens otherwise (`released_is_reopened`).
-/

namespace Watchdog

open Relation

variable {w w' : World}

/-! ## A rehearsal that is closed -/

/-- Answers that are possible in every world: each look at the clock takes 20
seconds, and every write is lost. -/
def sampleAnswer : (op : Op) → World → op.Ans × World
  | .began event, w => ((), w.begin event)
  | .answered answer, w => ((), w.record (.answered answer))
  | .now, w => (w.clock + 20000, { w with clock := w.clock + 20000 })
  | .load, w => (w.active, w)
  | .loadHistory operationId, w =>
    (w.history.any (fun lease => lease.fst = operationId), w)
  | .put state, w => ((), w.store state)
  | .putHistory operationId state, w =>
    ((), { w with history := (operationId, state) :: w.history })
  | .setAlarm time, w => ((), { w with alarmAt := some time })
  | .deleteAlarm, w => ((), { w with alarmAt := none })
  | .read zone, w => (some (w.zones zone), w.record (.read zone (some (w.zones zone))))
  | .write zone write, w => (none, w.record (.wrote zone write none))
  | .probe _, w => (none, w)
  | .randomUUID, w =>
    (if w.active.any (fun s => s.scope.leaseId = "0b9a8c7d-6e5f-4a3b-9c2d-1e0f9a8b7c6d") then
      "1b9a8c7d-6e5f-4a3b-9c2d-1e0f9a8b7c6d" else "0b9a8c7d-6e5f-4a3b-9c2d-1e0f9a8b7c6d", w)

theorem act_sampleAnswer (op : Op) (w : World) :
    act op w (sampleAnswer op w).fst (sampleAnswer op w).snd := by
  cases op with
  | now => exact ⟨Int.le_add_of_nonneg_right (by decide), rfl⟩
  | load => exact ⟨rfl, rfl⟩
  | loadHistory => exact ⟨rfl, rfl⟩
  | read zone => exact ⟨w, .refl, .inr rfl, rfl⟩
  | write zone write => exact ⟨w, w, .refl, .inl ⟨rfl, rfl⟩, rfl⟩
  | randomUUID =>
    refine ⟨fun s hs => ?_, rfl⟩
    show s.scope.leaseId ≠ if w.active.any _ = true then _ else _
    rw [hs]
    split_ifs with h
    · rw [of_decide_eq_true h]
      decide
    · exact fun heq => h (decide_eq_true heq)
  | _ => exact rfl

/-- The snapshot of a zone without routes. -/
def sampleBaselineText : String :=
  "\x7b\"accountId\":\"921d0224dcd595c87b7928d2b3c479d1\",\"zones\":[\x7b\"id\":\"f0ac7af0721419e8129e5d10ff547372\",\"name\":\"makler-realty.com\",\"dns\":[],\"routes\":[]\x7d]\x7d"

/-- A host, with the digests of the two texts that a rehearsal of
`sampleOperation` hashes: its baseline and its plan. -/
def sampleHost : Host where
  sha256 text :=
    if text = sampleBaselineText then
      "4b10a81abde52a3dcefc5a490dbbb6ef07082ca96bbbfeac4aa027d8e44612bc"
    else "481ed6450c59aececd7cb63455536276c1c54389e9a2028bae33a3e1c7344497"
  localeLE a b := decide (a ≤ b)
  publicKey _ := none
  verify _ _ _ := false
  parseDate _ := none
  parsePlan _ := none
  parseBaseline _ := none
  parseApproval _ := none
  parseReport _ := none
  parsePermit _ := none
  ownerPublicKey := ""
  controllerPublicKey := ""
  probeSourceCommit := "0123456789abcdef0123456789abcdef01234567"
  probeImageDigest := "422718fe17b063bc6f00f386a0befa4846a58092eb1fe94f81b212fc4b4f813e"
  routeToken := "token"
  sourceCommit := "0123456789abcdef0123456789abcdef01234567"
  sourceSha256 := "422718fe17b063bc6f00f386a0befa4846a58092eb1fe94f81b212fc4b4f813e"
  versionId := "3c4d5e6f-7a8b-4c9d-8e0f-1a2b3c4d5e6f"

def sampleOperation : Uuid := "5f0c1d2e-3a4b-4c5d-8e6f-7a8b9c0d1e2f"

def sampleLease : Uuid := "0b9a8c7d-6e5f-4a3b-9c2d-1e0f9a8b7c6d"

def sampleWorld : World where
  active := none
  history := []
  alarmAt := none
  clock := 0
  zones _ := []
  pending := []
  serving := .alarm
  log := []

/-- The world after some events, each served to its end. -/
def sampleAfter (events : List Event) (w : World) : World :=
  events.foldl (fun w event => ((serve sampleHost event).eval sampleAnswer w).snd) w

/-- A rehearsal is restored in two rounds, and closed. -/
def sampleEvents : List Event :=
  [.request (.rehearsal sampleOperation), .alarm, .alarm, .alarm, .alarm, .alarm, .alarm,
    .request (.named sampleOperation sampleLease .close)]

/-- The request that reopens it. -/
def sampleRestore : Event := .request (.named sampleOperation sampleLease .restore)

theorem run_sampleAfter {allowed : World → Event → Prop} (events : List Event) (w : World)
    (h : ∀ event ∈ events, ∀ w, allowed w event) :
    Run sampleHost allowed w (sampleAfter events w) := by
  induction events generalizing w with
  | nil => exact .refl
  | cons event events ih =>
    obtain ⟨hevent, hevents⟩ := List.forall_mem_cons.mp h
    exact .head (.serve (hevent w) (Prog.runs_eval act_sampleAnswer _ w)) (ih _ hevents)

theorem initial_sampleWorld : Initial sampleWorld where
  active := rfl
  history := rfl
  pending := rfl
  log := rfl
  rows := fun _ => ⟨Nat.zero_le _, fun _ h => absurd h List.not_mem_nil, List.nodup_nil,
    List.nodup_nil⟩

/-- The rehearsal is released, and then it is restoring. -/
theorem status_sampleAfter :
    (sampleAfter sampleEvents sampleWorld).active.map
      (fun s => (s.scope.operationId, s.status)) = some (sampleOperation, .released) ∧
    (sampleAfter [sampleRestore] (sampleAfter sampleEvents sampleWorld)).active.map
      (fun s => (s.scope.operationId, s.status)) = some (sampleOperation, .restoring) := by
  decide +kernel

theorem held_of_status {w : World} {operationId : Uuid} {status : Status}
    (h : w.active.map (fun s => (s.scope.operationId, s.status)) = some (operationId, status)) :
    Held w operationId status := by
  obtain ⟨s, hs, hpair⟩ := Option.map_eq_some_iff.mp h
  obtain ⟨hid, hstatus⟩ := Prod.mk.inj hpair
  exact .inl ⟨s, hs, hid, hstatus⟩

theorem keepsEnded_sampleEvents : ∀ event ∈ sampleEvents, ∀ w, keepsEnded w event := by
  rintro event hevent w ⟨s, -, -, -, -, rfl⟩
  simp [sampleEvents] at hevent

/-! ## Accepted and released -/

/-- **Accepted and released are final**, in every run in which no lease that has
ended is reopened: one lease at most has not ended; and a lease that has ended
keeps its one status, whatever is written is written for another lease, and a
new operation can reserve as soon as the active lease has ended. -/
theorem leases_final (host : Host) {w₀ : World} (hinitial : Initial w₀)
    (hrun : Run host keepsEnded w₀ w) :
    (∀ operationId status operationId' status', Held w operationId status →
      Held w operationId' status' → ¬ status.Final → ¬ status'.Final →
      operationId' = operationId ∧ status' = status) ∧
    ∀ operationId status, Held w operationId status → status.Final →
      ∀ w', Run host keepsEnded w w' →
        (∀ status', Held w' operationId status' ↔ status' = status) ∧
        (∀ newer e older, w'.log = newer ++ e :: (older ++ w.log) → e.isWrite = true →
          ∃ s, lastStored (older ++ w.log) = some s ∧ s.scope.operationId ≠ operationId ∧
            ¬ s.status.Final ∧ e.during.isFor s) ∧
        ((∀ s, w'.active = some s → s.status.Final) → ∀ scope, host.configured = true →
          scope.isValid = true → (∀ status', ¬ Held w' scope.operationId status') →
          ∃ w'', Prog.Runs act (serve host (.request (.reserve scope))) w' (.done ()) w'' ∧
            w''.active = some (.reserve scope w'.clock)) := by
  obtain ⟨hsound, hending⟩ := run_induction (P := Ending)
    (fun w event _ hkeeps h => h.begin hkeeps) (fun w w' hsound h hmove => h.move hsound hmove)
    hrun hinitial.sound hinitial.ending
  refine ⟨?_, ?_⟩
  · intro operationId status operationId' status' hheld hheld' hopen hopen'
    obtain ⟨s, hs, rfl, rfl⟩ := hending.active_of_open hheld hopen
    obtain ⟨s', hs', rfl, rfl⟩ := hending.active_of_open hheld' hopen'
    obtain rfl := Option.some.inj (hs.symm.trans hs')
    exact ⟨rfl, rfl⟩
  · intro operationId status hheld hfinal w' hlater
    obtain ⟨-, hending', hheld', hlog⟩ := ended_stays hlater hsound hending hheld hfinal
    refine ⟨fun status' => ⟨fun h => hending'.agree hheld' h, fun h => h ▸ hheld'⟩, ?_, ?_⟩
    · exact fun newer e older hsplit => hlog.entry hsplit
    · exact fun hended scope hconfigured hvalid hunused =>
        reserve_possible host scope hconfigured hvalid hended hunused

/-- The closed rehearsal is released, and nothing else. -/
theorem leases_final_sample :
    Held (sampleAfter sampleEvents sampleWorld) sampleOperation .released ∧
    ∀ status, Held (sampleAfter sampleEvents sampleWorld) sampleOperation status ↔
      status = .released :=
  ⟨held_of_status status_sampleAfter.1,
    (((leases_final sampleHost initial_sampleWorld
      (run_sampleAfter _ _ keepsEnded_sampleEvents)).2 _ _ (held_of_status status_sampleAfter.1)
      (.inr rfl)) _ .refl).1⟩

/-- **A request to restore reopens a lease that was released.** -/
theorem released_is_reopened : Initial sampleWorld ∧
    Run sampleHost anyEvent sampleWorld (sampleAfter sampleEvents sampleWorld) ∧
    Held (sampleAfter sampleEvents sampleWorld) sampleOperation .released ∧
    Run sampleHost anyEvent (sampleAfter sampleEvents sampleWorld)
      (sampleAfter [sampleRestore] (sampleAfter sampleEvents sampleWorld)) ∧
    Held (sampleAfter [sampleRestore] (sampleAfter sampleEvents sampleWorld)) sampleOperation
      .restoring :=
  ⟨initial_sampleWorld, run_sampleAfter _ _ (fun _ _ _ => trivial),
    held_of_status status_sampleAfter.1, run_sampleAfter _ _ (fun _ _ _ => trivial),
    held_of_status status_sampleAfter.2⟩

end Watchdog
