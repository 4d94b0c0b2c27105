import MsRealty.WatchdogMoves

/-!
# The programs follow the machine

Every operation of every program of the watchdog is a move of the abstract
machine (`serve_safe`), so what the moves keep holds at every moment of every
run, crashes included (`reachable_induction`).

Each operation and each program has one lemma: that it is safe, and what is
known of the world it leaves. A program that stores nothing and writes nothing
is *quiet*: it leaves all but the time and some reads in the log.
-/

namespace Watchdog

open Relation

/-- **Only moves are made**, and the program ends as stated. -/
abbrev Safe {α : Type} (Q : Option α → World → Prop) (p : Watch α) (w : World) : Prop :=
  Prog.Ok act (ReflTransGen Move) Q p w

/-- **Nothing is stored or written**: time passes, and zones are read. -/
structure Quiet (w w' : World) : Prop where
  active : w'.active = w.active
  history : w'.history = w.history
  serving : w'.serving = w.serving
  log : ∃ reads, w'.log = reads ++ w.log ∧ ∀ e ∈ reads, e.during = w.serving ∧
    ∃ zone rows, e.act = .read zone rows
  zones : w.pending = [] → w'.pending = [] ∧ w'.zones = w.zones

namespace Quiet

variable {w w' w'' : World}

theorem of_log (hactive : w'.active = w.active) (hhistory : w'.history = w.history)
    (hserving : w'.serving = w.serving) (hlog : w'.log = w.log)
    (hzones : w.pending = [] → w'.pending = [] ∧ w'.zones = w.zones) : Quiet w w' :=
  ⟨hactive, hhistory, hserving, ⟨[], hlog, fun _ h => absurd h List.not_mem_nil⟩, hzones⟩

theorem refl (w : World) : Quiet w w := of_log rfl rfl rfl rfl (fun h => ⟨h, rfl⟩)

theorem trans (h : Quiet w w') (h' : Quiet w' w'') : Quiet w w'' := by
  obtain ⟨reads, hlog, hreads⟩ := h.log
  obtain ⟨reads', hlog', hreads'⟩ := h'.log
  refine ⟨h'.active.trans h.active, h'.history.trans h.history, h'.serving.trans h.serving,
    ⟨reads' ++ reads, by rw [hlog', hlog, List.append_assoc], fun e he => ?_⟩, fun hnil => ?_⟩
  · obtain he | he := List.mem_append.mp he
    · rw [← h.serving]
      exact hreads' e he
    · exact hreads e he
  · obtain ⟨hpending, hzones⟩ := h.zones hnil
    obtain ⟨hpending', hzones'⟩ := h'.zones hpending
    exact ⟨hpending', hzones'.trans hzones⟩

theorem lastStored (h : Quiet w w') : lastStored w'.log = lastStored w.log := by
  obtain ⟨reads, hlog, hreads⟩ := h.log
  have hnone : reads.findSome? Entry.state? = none := by
    refine List.findSome?_eq_none_iff.mpr (fun e he => ?_)
    obtain ⟨-, zone, rows, hact⟩ := hreads e he
    rw [Entry.state?, hact]
  rw [hlog, Watchdog.lastStored, List.findSome?_append, hnone]
  rfl

theorem sinceBegan_eq (h : Quiet w w') : ∃ reads, w'.log = reads ++ w.log ∧
    sinceBegan w'.log = reads ++ sinceBegan w.log ∧
    ∀ e ∈ reads, e.during = w.serving ∧ ∃ zone rows, e.act = .read zone rows := by
  obtain ⟨reads, hlog, hreads⟩ := h.log
  refine ⟨reads, hlog, ?_, hreads⟩
  rw [hlog, sinceBegan, List.takeWhile_append_of_pos]
  · rfl
  · intro e he
    obtain ⟨-, zone, rows, hact⟩ := hreads e he
    rw [Entry.isBegan, hact]
    rfl

theorem mem_sinceBegan (h : Quiet w w') {e : Entry} (he : e ∈ sinceBegan w.log) :
    e ∈ sinceBegan w'.log := by
  obtain ⟨reads, -, hsince, -⟩ := h.sinceBegan_eq
  rw [hsince]
  exact List.mem_append_right _ he

end Quiet

/-! ## Operations -/

variable {α : Type} {w : World}

/-- Writes that arrive are moves. -/
theorem moves_of_arrives {w' : World} (h : ReflTransGen Arrives w w') :
    ReflTransGen Move w w' := by
  induction h with
  | refl => exact .refl
  | tail _ hlast ih => exact ih.tail (.arrive hlast)

/-- What arrives changes nothing but the zones. -/
theorem quiet_of_arrives {w' : World} (h : ReflTransGen Arrives w w') :
    Quiet w w' ∧ w'.log = w.log := by
  induction h with
  | refl => exact ⟨Quiet.refl w, rfl⟩
  | tail _ hlast ih =>
    obtain ⟨before, after, zone, write, rows, route, hpending, -, rfl⟩ := hlast
    refine ⟨ih.1.trans (.of_log rfl rfl rfl rfl (fun hnil => ?_)), ih.2⟩
    rw [hnil] at hpending
    exact absurd hpending.symm (by simp)

theorem dateNow_safe (w : World) : Safe (fun r w' => r ≠ none ∧ Quiet w w') dateNow w := by
  rintro time w' ⟨-, rfl⟩
  exact ⟨.single (.time w time), Option.some_ne_none _,
    .of_log rfl rfl rfl rfl (fun h => ⟨h, rfl⟩)⟩

theorem setAlarm_safe (time : Instant) (w : World) :
    Safe (fun r w' => r ≠ none ∧ Quiet w w') (setAlarm time) w := by
  rintro _ w' rfl
  exact ⟨.single (.alarm w (some time)), Option.some_ne_none _,
    .of_log rfl rfl rfl rfl (fun h => ⟨h, rfl⟩)⟩

theorem deleteAlarm_safe (w : World) : Safe (fun _ _ => True) deleteAlarm w := by
  rintro _ w' rfl
  exact ⟨.single (.alarm w none), trivial⟩

theorem getActive_safe (w : World) :
    Safe (fun r w' => r = some w.active ∧ w' = w) getActive w := by
  rintro state w' ⟨rfl, rfl⟩
  exact ⟨.refl, rfl, rfl⟩

theorem getHistory_safe (operationId : Uuid) (w : World) :
    Safe (fun r w' => r = some (w.history.any (fun lease => lease.fst = operationId)) ∧ w' = w)
      (getHistory operationId) w := by
  rintro used w' ⟨rfl, rfl⟩
  exact ⟨.refl, rfl, rfl⟩

theorem probe_safe (host : String) (w : World) :
    Safe (fun r w' => r ≠ none ∧ w' = w) (probe host) w := by
  rintro check w' rfl
  exact ⟨.refl, Option.some_ne_none _, rfl⟩

theorem randomUUID_safe (w : World) :
    Safe (fun r w' => ∃ id, r = some id ∧ (∀ s, w.active = some s → s.scope.leaseId ≠ id) ∧
      w' = w) randomUUID w := by
  rintro id w' ⟨hfresh, rfl⟩
  exact ⟨.refl, id, rfl, hfresh, rfl⟩

theorem save_safe {state : LeaseState} (h : Move w (w.store state)) :
    Safe (fun r w' => r = some () ∧ w' = w.store state) (save state) w := by
  rintro _ w' rfl
  exact ⟨.single h, rfl, rfl⟩

theorem readRoutes_safe (zone : String) (w : World) :
    Safe (fun r w' => ∃ rows rest, r = some rows ∧ Quiet w w' ∧
      w'.log = ⟨w.serving, .read zone rows⟩ :: rest ∧ ∀ rs, rows = some rs → w'.zones zone = rs)
      (readRoutes zone) w := by
  rintro rows w' ⟨w₁, harrives, hrows, rfl⟩
  obtain ⟨hquiet, hlog⟩ := quiet_of_arrives harrives
  refine ⟨(moves_of_arrives harrives).tail (.read hrows), rows, w₁.log, rfl, ?_, ?_, ?_⟩
  · refine hquiet.trans ⟨rfl, rfl, rfl, ⟨[⟨w₁.serving, .read zone rows⟩], rfl, ?_⟩,
      fun h => ⟨h, rfl⟩⟩
    intro e he
    rw [List.mem_singleton.mp he]
    exact ⟨rfl, zone, rows, rfl⟩
  · show ⟨w₁.serving, _⟩ :: w₁.log = _
    rw [hquiet.serving]
  · rintro rs rfl
    obtain h | h := hrows
    · cases h
    · exact (Option.some.inj h).symm

theorem lastProvider_cons_stored (event : Event) (state : LeaseState) (log : List Entry) :
    lastProvider (⟨event, .stored state⟩ :: log) = lastProvider log :=
  rfl

/-! ## Reading -/

/-- **What is known after the routes of a zone were read.** -/
structure HasRead (w w' : World) (zone : String) (rows : List Route) : Prop where
  hex : isHex 32 zone = true
  log : ∃ rest, w'.log = ⟨w.serving, .read zone (some rows)⟩ :: rest
  zones : w'.zones zone = rows

theorem routes_safe (zone : String) (w : World) :
    Safe (fun r w' => Quiet w w' ∧ ∀ rows, r = some rows → HasRead w w' zone rows)
      (routes zone) w := by
  refine Prog.Ok.demand (fun hhex => ?_) (fun _ => ⟨Quiet.refl w, fun _ h => (nomatch h)⟩)
  refine (readRoutes_safe zone w).bind ?_ (fun w' h => ?_)
  · rintro answer w' ⟨rows, rest, hr, hquiet, hlog, hzones⟩
    obtain rfl := Option.some.inj hr
    have hnone : Quiet w w' ∧ ∀ rows, (none : Option (List Route)) = some rows →
        HasRead w w' zone rows := ⟨hquiet, fun _ h => nomatch h⟩
    refine Prog.Ok.required (fun rs hrs => ?_) hnone
    refine Prog.Ok.demand (fun _ => Prog.Ok.demand (fun _ => ?_) (fun _ => hnone)) (fun _ => hnone)
    refine ⟨hquiet, fun rows hrows => ?_⟩
    obtain rfl := Option.some.inj hrows
    exact ⟨hhex, ⟨rest, by rw [hlog, hrs]⟩, hzones _ hrs⟩
  · obtain ⟨rows, -, hr, -⟩ := h
    cases hr

/-- What is known of a zone that was found to have its baseline routes. -/
structure HasVerified (w w' : World) (zone : Zone) : Prop where
  hex : isHex 32 zone.id = true
  rows : ∃ rows, sameRows rows zone.routes = true ∧
    ⟨w.serving, .read zone.id (some rows)⟩ ∈ sinceBegan w'.log ∧
    (w.pending = [] → w'.zones zone.id = rows)

theorem demandBaseline_safe (zones : List Zone) (w : World) :
    Safe (fun r w' => Quiet w w' ∧ (r = some () → ∀ zone ∈ zones, HasVerified w w' zone))
      (demandBaseline zones) w := by
  induction zones generalizing w with
  | nil => exact ⟨Quiet.refl w, fun _ _ h => absurd h List.not_mem_nil⟩
  | cons zone zones ih =>
    refine (routes_safe zone.id w).bind ?_ (fun w' h => ⟨h.1, fun h => (nomatch h)⟩)
    rintro rows w₁ ⟨hquiet, hread⟩
    obtain ⟨hhex, ⟨rest, hlog⟩, hzones⟩ := hread rows rfl
    refine Prog.Ok.demand (fun hsame => ?_) (fun _ => ⟨hquiet, fun h => (nomatch h)⟩)
    refine (ih w₁).mono (fun r w' h => ⟨hquiet.trans h.1, fun hr => ?_⟩)
    refine List.forall_mem_cons.mpr ⟨⟨hhex, rows, hsame, ?_, fun hnil => ?_⟩, fun z hz => ?_⟩
    · refine h.1.mem_sinceBegan ?_
      rw [hlog]
      exact List.mem_cons_self
    · rw [(h.1.zones (hquiet.zones hnil).1).2, hzones]
    · obtain ⟨hhex', rows', hsame', hmem, hzones'⟩ := h.2 hr z hz
      rw [hquiet.serving] at hmem
      exact ⟨hhex', rows', hsame', hmem, fun hnil => hzones' (hquiet.zones hnil).1⟩

/-- One zone is read, and nothing after it. -/
theorem demandZone_safe (zone : Zone) (w : World) :
    Safe (fun r w' => Quiet w w' ∧ (r = some () → ∃ e rest rows, w'.log = e :: rest ∧
      e.act = .read zone.id (some rows) ∧ sameRows rows zone.routes = true))
      (demandBaseline [zone]) w := by
  refine (routes_safe zone.id w).bind ?_ (fun w' h => ⟨h.1, fun h => (nomatch h)⟩)
  rintro rows w₁ ⟨hquiet, hread⟩
  obtain ⟨-, ⟨rest, hlog⟩, -⟩ := hread rows rfl
  refine Prog.Ok.demand (fun hsame => ?_) (fun _ => ⟨hquiet, fun h => (nomatch h)⟩)
  exact ⟨hquiet, fun _ => ⟨_, rest, rows, hlog, rfl, hsame⟩⟩

theorem originalOrigin_safe (host : String) (w : World) :
    Safe (fun _ w' => w' = w) (originalOrigin host) w := by
  refine Prog.Ok.demand (fun _ => ?_) (fun _ => rfl)
  exact (probe_safe host w).bind_ends (fun check w' h => Prog.Ok.required_last h)

theorem probeOrigin_safe (host : String) (checks : Option (List OriginCheck)) (w : World) :
    Safe (fun r w' => r ≠ none ∧ w' = w) (probeOrigin host checks) w := by
  cases checks with
  | none => exact ⟨Option.some_ne_none _, rfl⟩
  | some checks =>
    refine (originalOrigin_safe host w).bind_attempt (fun check w' h => ?_)
    cases check with
    | none => exact ⟨Option.some_ne_none _, h⟩
    | some check => exact ⟨Option.some_ne_none _, h⟩

/-! ## Papers -/

theorem signed_safe (host : Host) (envelope : Envelope) (pem : String)
    (parse : String → Option α) (w : World) :
    Safe (fun _ w' => w' = w) (signed host envelope pem parse) w := by
  refine Prog.Ok.demand (fun _ => ?_) (fun _ => rfl)
  refine Prog.Ok.demand (fun _ => ?_) (fun _ => rfl)
  exact Prog.Ok.required_last rfl

theorem independentKeys_safe (host : Host) (w : World) :
    Safe (fun _ w' => w' = w) (independentKeys host) w := by
  refine Prog.Ok.required (fun owner _ => ?_) rfl
  refine Prog.Ok.required (fun controller _ => ?_) rfl
  exact Prog.Ok.demand_last (fun _ => rfl) (fun _ => rfl)

/-! ## Writing -/

/-- A change leaves its route in the zone. -/
theorem mem_of_writeRows {fresh : String} {rows rows' : List Route} {write : RouteWrite}
    {route : Route} (h : writeRows fresh rows write = some (rows', route))
    (hdelete : ∀ id, write ≠ .delete id) : route ∈ rows' := by
  cases write with
  | put id pattern script =>
    unfold writeRows at h
    dsimp only at h
    split_ifs at h with hput
    obtain ⟨rfl, rfl⟩ := Prod.mk.inj (Option.some.inj h)
    obtain ⟨r, hr, hid⟩ := List.any_eq_true.mp hput.1
    exact List.mem_map.mpr ⟨r, hr, if_pos (of_decide_eq_true hid)⟩
  | post pattern script =>
    unfold writeRows at h
    dsimp only at h
    split_ifs at h
    obtain ⟨rfl, rfl⟩ := Prod.mk.inj (Option.some.inj h)
    exact List.mem_append_right _ List.mem_cons_self
  | delete id => exact absurd rfl (hdelete id)

/-- **What is known after a write was issued.** -/
structure HasWritten (w w' : World) (zone : String) (write : RouteWrite)
    (answer : Option Route) : Prop where
  active : w'.active = w.active
  history : w'.history = w.history
  serving : w'.serving = w.serving
  log : w'.log = ⟨w.serving, .wrote zone write answer⟩ :: w.log
  zones : ∀ route, answer = some route → (∀ id, write ≠ .delete id) → route ∈ w'.zones zone

theorem Issues.spec {w' : World} {zone : String} {write : RouteWrite} {answer : Option Route}
    (h : Issues w zone write answer w') : w'.active = w.active ∧ w'.history = w.history ∧
      w'.serving = w.serving ∧ w'.log = w.log ∧ ∀ route, answer = some route →
      (∀ id, write ≠ .delete id) → route ∈ w'.zones zone := by
  obtain ⟨rfl, rfl⟩ | ⟨rfl, rfl⟩ | ⟨rows, route, ⟨fresh, -, hrows⟩, hanswer, rfl⟩ := h
  · exact ⟨rfl, rfl, rfl, rfl, fun _ h => nomatch h⟩
  · exact ⟨rfl, rfl, rfl, rfl, fun _ h => nomatch h⟩
  · refine ⟨rfl, rfl, rfl, rfl, fun route' hroute hdelete => ?_⟩
    obtain rfl | rfl := hanswer
    · cases hroute
    · obtain rfl := Option.some.inj hroute
      show route ∈ Function.update w.zones zone rows zone
      rw [Function.update_self]
      exact mem_of_writeRows hrows hdelete

/-- What may be written depends on the storage, the log and the event. -/
theorem MayWrite.congr {w' : World} {zone : String} {write : RouteWrite}
    (h : MayWrite w zone write) (hactive : w'.active = w.active) (hlog : w'.log = w.log)
    (hserving : w'.serving = w.serving) : MayWrite w' zone write := by
  cases h with
  | change h₁ h₂ h₃ h₄ h₅ h₆ h₇ h₈ =>
    exact .change (hserving ▸ h₁) (hactive ▸ h₂) (by rw [hlog, hserving, h₃]) h₄ h₅ h₆ h₇ h₈
  | putBack h₁ h₂ h₃ h₄ h₅ h₆ h₇ h₈ h₉ h₁₀ h₁₁ h₁₂ h₁₃ =>
    exact .putBack (hserving ▸ h₁) (hactive ▸ h₂) h₃ h₄ h₅ h₆ (by rw [hlog, hserving, h₇]) h₈ h₉
      h₁₀ h₁₁ h₁₂ h₁₃
  | remove h₁ h₂ h₃ h₄ h₅ h₆ h₇ h₈ h₉ h₁₀ h₁₁ h₁₂ h₁₃ =>
    exact .remove (hserving ▸ h₁) (hactive ▸ h₂) h₃ h₄ h₅ h₆ h₇ (by rw [hlog, hserving, h₈]) h₉
      h₁₀ h₁₁ h₁₂ h₁₃
  | late h₁ h₂ h₃ h₄ h₅ => exact .late (hserving ▸ h₁) (hactive ▸ h₂) h₃ h₄ h₅

theorem writeRoute_safe {zone : String} {write : RouteWrite} (h : MayWrite w zone write) :
    Safe (fun r w' => ∃ answer, r = some answer ∧ HasWritten w w' zone write answer)
      (writeRoute zone write) w := by
  rintro answer w' ⟨w₁, w₂, harrives, hissues, rfl⟩
  obtain ⟨hquiet, hlog⟩ := quiet_of_arrives harrives
  obtain ⟨hactive, hhistory, hserving, hlog', hzones⟩ := hissues.spec
  refine ⟨(moves_of_arrives harrives).tail
    (.write (h.congr hquiet.active hlog hquiet.serving) hissues), answer, rfl, ?_⟩
  refine ⟨hactive.trans hquiet.active, hhistory.trans hquiet.history,
    hserving.trans hquiet.serving, ?_, hzones⟩
  show ⟨w₂.serving, _⟩ :: w₂.log = _
  rw [hserving, hquiet.serving, hlog', hlog]

/-- **A write of the provider**, if it is issued at all. -/
theorem provider_safe {zone : String} {write : RouteWrite} (h : MayWrite w zone write) :
    Safe (fun r w' => (r = none ∧ w' = w) ∨ HasWritten w w' zone write r)
      (provider zone write) w := by
  refine Prog.Ok.demand (fun _ => ?_) (fun _ => Or.inl ⟨rfl, rfl⟩)
  refine (writeRoute_safe h).bind ?_ (fun w' h => ?_)
  · rintro _ w' ⟨answer, hanswer, hwritten⟩
    obtain rfl := Option.some.inj hanswer
    exact Prog.Ok.required_last (Or.inr hwritten)
  · obtain ⟨answer, hr, -⟩ := h
    cases hr

/-! ## Restoring -/

theorem saveAndWake_safe {state : LeaseState} (h : Move w (w.store state)) :
    Safe (fun r w' => r = some () ∧ Quiet (w.store state) w') (saveAndWake state) w := by
  refine (save_safe h).bind_eq ?_
  refine (dateNow_safe _).bind_ends (fun now w₂ hquiet => ?_)
  refine (setAlarm_safe _ _).mono (fun r w' h => ⟨?_, hquiet.trans h.2⟩)
  cases r with
  | none => exact absurd rfl h.1
  | some u => rfl

/-- The state `startRestore` stores. -/
def LeaseState.startedRestore (state : LeaseState) : LeaseState :=
  if state.plan.isNone || state.baseline.isNone then { state with status := .released }
  else state.startRound

/-- A lease that is bound starts a round. -/
theorem startedRestore_of_bound {s : LeaseState} (hplan : s.plan ≠ none)
    (hbaseline : s.baseline ≠ none) : s.startedRestore = s.startRound := by
  refine if_neg ?_
  rw [Bool.or_eq_true, Option.isNone_iff_eq_none, Option.isNone_iff_eq_none, not_or]
  exact ⟨hplan, hbaseline⟩

theorem startRestore_safe {state : LeaseState} (h : Move w (w.store state.startedRestore)) :
    Safe (fun r w' => r = some state.startedRestore ∧ Quiet (w.store state.startedRestore) w')
      (startRestore state) w := by
  unfold startRestore
  unfold LeaseState.startedRestore at h ⊢
  split_ifs at h ⊢ with hunbound
  · exact (save_safe h).bind_eq ⟨rfl, Quiet.refl _⟩
  · refine (saveAndWake_safe h).bind ?_ (fun w' h => nomatch h.1)
    rintro _ w₁ ⟨-, hquiet⟩
    exact ⟨rfl, hquiet⟩

/-- What restoring an intent keeps of the state. -/
structure SameRound (s s' : LeaseState) : Prop where
  status : s'.status = s.status
  restoreIndex : s'.restoreIndex = s.restoreIndex
  length : s'.intents.length = s.intents.length

/-- What `restoreWrite` leaves: the active state, and what may be written next. -/
def Restores (s : LeaseState) (zone : String) :
    Option (LeaseState × Option RouteWrite) → World → Prop
  | none, w => w.active = some s
  | some (s', write), w => w.active = some s' ∧ SameRound s s' ∧
      ∀ wr, write = some wr → MayWrite w zone wr

section RestoringIntent

variable {s : LeaseState} {plan : BoundPlan} {baseline : List Zone} {i : ℕ} {intent : Intent}
  (hserving : w.serving = .alarm) (hactive : w.active = some s) (hstatus : s.status = .restoring)
  (hplan : s.plan = some plan) (hbaseline : s.baseline = some baseline)
  (hindex : s.restoreIndex = some i) (hintent : s.intents[i]? = some intent)

include hserving hactive hstatus hplan hbaseline hindex hintent

theorem restoreWrite_safe :
    Safe (Restores s intent.zoneId) (restoreWrite s plan baseline i intent) w := by
  refine (routes_safe intent.zoneId w).bind ?_ (fun w' h => h.1.active.trans hactive)
  rintro rows w₁ ⟨hquiet, hread⟩
  obtain ⟨-, ⟨rest, hlog⟩, hzones⟩ := hread rows rfl
  have hactive₁ : w₁.active = some s := hquiet.active.trans hactive
  have hserving₁ : w₁.serving = .alarm := hquiet.serving.trans hserving
  have hprovider : lastProvider w₁.log = some ⟨w₁.serving, .read intent.zoneId (some rows)⟩ := by
    rw [hlog, hquiet.serving]
    rfl
  have hdone : Restores s intent.zoneId (some (s, none)) w₁ :=
    ⟨hactive₁, ⟨rfl, rfl, rfl⟩, fun _ h => nomatch h⟩
  cases hbefore : intent.before with
  | some before =>
    refine Prog.Ok.required (fun actual hactual => ?_) hactive₁
    have hmem : actual ∈ rows := List.mem_of_find?_eq_some hactual
    have hid : actual.id = before.id := by simpa using List.find?_some hactual
    split_ifs with hsame
    · exact hdone
    · refine Prog.Ok.demand (fun hcarries => ?_) (fun _ => hactive₁)
      refine ⟨hactive₁, ⟨rfl, rfl, rfl⟩, fun wr hwr => ?_⟩
      obtain rfl := Option.some.inj hwr
      exact .putBack hserving₁ hactive₁ hstatus hplan hindex hintent hprovider hmem hcarries.1
        hcarries.2 hbefore hid hsame
  | none =>
    refine Prog.Ok.demand (fun hcarries => ?_) (fun _ => hactive₁)
    cases hhead : (rows.filter (fun r => r.pattern = intent.pattern)).head? with
    | none => exact hdone
    | some row =>
      have hmem := List.mem_of_mem_head? hhead
      obtain ⟨hrow, hpattern⟩ := List.mem_filter.mp hmem
      have hcarry := List.all_eq_true.mp hcarries.2 row hmem
      rw [Bool.and_eq_true, Bool.and_eq_true, Bool.not_eq_true', decide_eq_true_iff] at hcarry
      obtain ⟨⟨hscript, hid⟩, hold⟩ := hcarry
      have hpattern := of_decide_eq_true hpattern
      have hmove : Move w₁ (w₁.store (s.setId i intent row.id)) := by
        refine .store hactive₁ (.found hstatus hbaseline hindex hintent hbefore ?_ hpattern ?_)
        · rw [hzones]
          exact hrow
        · intro id hid'
          rw [hid'] at hid
          exact of_decide_eq_true hid
      show Safe _ (save (s.setId i intent row.id) >>= _) w₁
      refine (save_safe hmove).bind_eq ⟨rfl, ⟨rfl, rfl, List.length_set⟩, fun wr hwr => ?_⟩
      obtain rfl := Option.some.inj hwr
      have hset : (s.setId i intent row.id).intents[i]? = some { intent with id := some row.id } :=
        List.getElem?_set_self (List.getElem?_eq_some_iff.mp hintent).1
      have hmay := MayWrite.remove (w := w₁.store (s.setId i intent row.id)) hserving₁ rfl hstatus
        hplan hbaseline hindex hset ((lastProvider_cons_stored _ _ _).trans hprovider) hrow hpattern
        hscript hbefore (fun z hz old hold' heq => absurd hold (ne_false_of_eq_true
          (List.any_eq_true.mpr ⟨z, hz, List.any_eq_true.mpr ⟨old, hold', decide_eq_true heq⟩⟩)))
      exact hmay

theorem restoreIntent_safe :
    Safe (fun r w' => ∃ s' failed, r = some (s', failed) ∧ w'.active = some s' ∧ SameRound s s')
      (restoreIntent s plan baseline i intent) w := by
  refine (restoreWrite_safe hserving hactive hstatus hplan hbaseline hindex hintent).bind_attempt
    (fun result w₁ h => ?_)
  obtain _ | ⟨s', _ | write⟩ := result
  · exact ⟨s, true, rfl, h, rfl, rfl, rfl⟩
  · exact ⟨s', false, rfl, h.1, h.2.1⟩
  · obtain ⟨hactive', hround, hmay⟩ := h
    refine (provider_safe (hmay write rfl)).bind_attempt (fun answer w' h => ?_)
    refine ⟨s', answer.isNone, rfl, ?_, hround⟩
    obtain ⟨-, rfl⟩ | h := h
    · exact hactive'
    · exact h.active.trans hactive'

end RestoringIntent

theorem LeaseState.current_eq_some {s : LeaseState} {i : ℕ} {intent : Intent}
    (h : s.current = some (i, intent)) :
    s.restoreIndex = some i ∧ s.intents[i]? = some intent := by
  obtain ⟨j, hj, hmap⟩ := Option.bind_eq_some_iff.mp h
  obtain ⟨found, hfound, hpair⟩ := Option.map_eq_some_iff.mp hmap
  obtain ⟨rfl, rfl⟩ := Prod.mk.inj hpair
  exact ⟨hj, hfound⟩

theorem restoreStep_safe {s : LeaseState} (hserving : w.serving = .alarm)
    (hactive : w.active = some s) (hstatus : s.status = .restoring) :
    Safe (fun _ _ => True) (restoreStep s) w := by
  refine Prog.Ok.required_steps (fun plan hplan => ?_)
  refine Prog.Ok.required_steps (fun baseline hbaseline => ?_)
  cases hcurrent : s.current with
  | some current =>
    obtain ⟨i, intent⟩ := current
    obtain ⟨hindex, hintent⟩ := LeaseState.current_eq_some hcurrent
    refine (restoreIntent_safe hserving hactive hstatus hplan hbaseline hindex
      hintent).bind_steps ?_
    rintro _ w₁ ⟨s', failed, hr, hactive', hround⟩
    obtain rfl := Option.some.inj hr
    refine (saveAndWake_safe (.store hactive' (.restored failed ?_ ?_
      (List.getElem?_eq_getElem ?_)))).steps
    · exact hround.status.trans hstatus
    · exact hround.restoreIndex.trans hindex
    · rw [hround.length]
      exact (List.getElem?_eq_some_iff.mp hintent).1
  | none =>
  cases hzone : baseline[s.verifyIndex]? with
  | some zone =>
    refine (demandZone_safe zone w).bind_attempt (fun verified w₁ h => ?_)
    refine (saveAndWake_safe (.store (h.1.active.trans hactive)
      (.verified verified.isNone hstatus hcurrent hbaseline hzone (fun hverified => h.2 ?_)))).steps
    cases verified with
    | none => cases hverified
    | some u => rfl
  | none =>
    have hend : Safe (fun _ _ => True) (do
        let now ← dateNow
        save (s.endRound now)
        setAlarm (now +
          (if s.rehearsal then 2000 else if s.roundFailed then 15000 else 30000))) w := by
      refine (dateNow_safe w).bind_ends (fun now w₁ hquiet => ?_)
      exact (save_safe (.store (hquiet.active.trans hactive)
        (.endRound now hstatus hcurrent hbaseline hzone))).bind_eq (setAlarm_safe _ _).steps
    cases horigin : originHosts[s.originIndex]? with
    | none => exact hend
    | some host =>
      cases hrehearsal : s.rehearsal with
      | true => rwa [hrehearsal] at hend
      | false =>
        refine (probeOrigin_safe host s.originChecks w).bind_ends (fun found w₁ h => ?_)
        obtain rfl := h
        exact (saveAndWake_safe (.store hactive
          (.probed found.snd found.fst hstatus hcurrent hbaseline hzone))).steps

/-- A restoration may start, of a lease that has ended only on request. -/
theorem next_startedRestore {s : LeaseState} (h : s.status.Final →
    w.serving = .request (.named s.scope.operationId s.scope.leaseId .restore)) :
    Next w s s.startedRestore := by
  unfold LeaseState.startedRestore
  split_ifs with hunbound
  · rw [Bool.or_eq_true, Option.isNone_iff_eq_none, Option.isNone_iff_eq_none] at hunbound
    exact .unbound hunbound
  · rw [Bool.or_eq_true, Option.isNone_iff_eq_none, Option.isNone_iff_eq_none, not_or] at hunbound
    exact .startRound hunbound.1 hunbound.2 h

theorem alarm_safe (hserving : w.serving = .alarm) : Safe (fun _ _ => True) alarm w := by
  refine (getActive_safe w).bind_eq ?_
  cases hs : w.active with
  | none => exact trivial
  | some s =>
    dsimp only
    by_cases hfinal : s.status.Final
    · rw [if_pos hfinal]
      exact trivial
    rw [if_neg hfinal]
    refine (dateNow_safe w).bind_ends (fun now w₁ hquiet₁ => ?_)
    refine (setAlarm_safe _ w₁).bind_ends (fun _ w₂ hquiet₂ => ?_)
    refine (dateNow_safe w₂).bind_ends (fun later w₃ hquiet₃ => ?_)
    have hquiet := (hquiet₁.trans hquiet₂).trans hquiet₃
    have hactive := hquiet.active.trans hs
    by_cases hearly : (s.status = .reserved ∨ s.status = .armed) ∧ later < s.deadline
    · rw [if_pos hearly]
      exact (setAlarm_safe _ _).steps
    rw [if_neg hearly]
    by_cases hrestoring : s.status = .restoring
    · rw [if_pos hrestoring]
      exact restoreStep_safe (hquiet.serving.trans hserving) hactive hrestoring
    · rw [if_neg hrestoring]
      exact (startRestore_safe (.store hactive (next_startedRestore
        (fun h => absurd h hfinal)))).bind_steps (fun _ _ _ => trivial)

/-! ## Reserving and binding -/

theorem reserve_safe (host : Host) (scope : Scope) (w : World) :
    Safe (fun r w' => r = some () → (∀ s, w.active = some s → s.scope ≠ scope) →
        ∃ s, w'.active = some s ∧ s.status = .reserved)
      (reserve host scope) w := by
  have hfail : (none : Option Unit) = some () →
      (∀ s, w.active = some s → s.scope ≠ scope) → ∃ s, w.active = some s ∧ s.status = .reserved :=
    fun h => nomatch h
  refine Prog.Ok.demand (fun _ => ?_) (fun _ => hfail)
  refine Prog.Ok.demand (fun hvalid => ?_) (fun _ => hfail)
  refine (getActive_safe w).bind_eq ?_
  by_cases hsame : w.active.any (fun state => decide (state.scope = scope)) = true
  · rw [if_pos hsame]
    intro _ hother
    obtain ⟨s, hs, heq⟩ := (Option.any_eq_true _ _).mp hsame
    exact absurd (of_decide_eq_true heq) (hother s hs)
  rw [if_neg hsame]
  refine Prog.Ok.demand (fun hfinal => ?_) (fun _ => hfail)
  refine Prog.Ok.demand (fun hother => ?_) (fun _ => hfail)
  refine (getHistory_safe scope.operationId w).bind_eq ?_
  refine Prog.Ok.demand (fun hunused => ?_) (fun _ => hfail)
  have hnew : ∀ lease ∈ w.history, lease.fst ≠ scope.operationId := fun lease hlease heq =>
    hunused (List.any_eq_true.mpr ⟨lease, hlease, decide_eq_true heq⟩)
  -- the lease that has ended is kept
  have harchive : Safe (fun r w₁ => r ≠ none ∧
      (∀ lease ∈ w₁.history, lease.fst ≠ scope.operationId) ∧
      ∀ s, w₁.active = some s → s.status.Final ∧
        ∃ lease ∈ w₁.history, lease.fst = s.scope.operationId) (archive w.active) w := by
    cases hs : w.active with
    | none => exact ⟨Option.some_ne_none _, hnew, fun s h => nomatch hs.symm.trans h⟩
    | some s =>
      rintro _ w₁ rfl
      refine ⟨.single (.archive hs (hfinal s hs)), Option.some_ne_none _, ?_, fun s' h => ?_⟩
      · exact List.forall_mem_cons.mpr ⟨hother s hs, hnew⟩
      · obtain rfl := Option.some.inj (hs.symm.trans h)
        exact ⟨hfinal s hs, _, List.mem_cons_self, rfl⟩
  refine harchive.bind_ends (fun _ w₁ ⟨hunused', hended⟩ => ?_)
  refine (dateNow_safe w₁).bind_ends (fun now w₂ hquiet => ?_)
  refine (save_safe (.reserve now hvalid (fun s h => ?_) ?_)).bind_eq ?_
  · rw [hquiet.history]
    exact hended s (hquiet.active.symm.trans h)
  · rw [hquiet.history]
    exact hunused'
  · exact (setAlarm_safe _ _).mono (fun r w₄ h _ _ => ⟨_, h.2.active, rfl⟩)

theorem fits_of_isPlanned {plan : BoundPlan} {zones : List Zone}
    (h : plan.routes.all (Change.isPlanned zones) = true) : Fits plan zones := by
  intro change hchange
  have hplanned := List.all_eq_true.mp h change hchange
  obtain ⟨zone, hzone, hfits⟩ := (Option.any_eq_true _ _).mp hplanned
  rw [Bool.and_eq_true] at hfits
  refine ⟨zone, hzone, ?_⟩
  cases hid : change.baselineRouteId with
  | none =>
    rw [hid] at hfits
    exact fun r hr => of_decide_eq_true (List.all_eq_true.mp hfits.2 r hr)
  | some id =>
    rw [hid] at hfits
    obtain ⟨r, hr, hsame⟩ := List.any_eq_true.mp hfits.2
    rw [Bool.and_eq_true] at hsame
    exact ⟨r, hr, of_decide_eq_true hsame.1, of_decide_eq_true hsame.2⟩

theorem bind_safe (host : Host) {s : LeaseState} (input : BindInput) (hactive : w.active = some s)
    (hpending : s.status = .reserved → w.pending = []) :
    Safe (fun _ _ => True) (bind host s input) w := by
  refine (dateNow_safe w).bind_ends (fun now w₁ hquiet => ?_)
  refine Prog.Ok.demand_steps (fun hreserved => ?_)
  refine Prog.Ok.demand_steps (fun _ => ?_)
  refine Prog.Ok.required_steps (fun plan _ => ?_)
  refine Prog.Ok.required_steps (fun baseline _ => ?_)
  refine Prog.Ok.demand_steps (fun hplan => ?_)
  refine (independentKeys_safe host w₁).bind_steps ?_
  rintro _ _ rfl
  refine (signed_safe host _ _ _ _).bind_steps ?_
  rintro owner _ rfl
  refine Prog.Ok.demand_steps (fun _ => ?_)
  refine (signed_safe host _ _ _ _).bind_steps ?_
  rintro controller _ rfl
  refine Prog.Ok.demand_steps (fun _ => ?_)
  refine (signed_safe host _ _ _ _).bind_steps ?_
  rintro report _ rfl
  refine Prog.Ok.demand_steps (fun _ => ?_)
  refine Prog.Ok.demand_steps (fun _ => ?_)
  refine Prog.Ok.demand_steps (fun _ => ?_)
  refine Prog.Ok.demand_steps (fun _ => ?_)
  refine Prog.Ok.demand_steps (fun hplanned => ?_)
  refine Prog.Ok.demand_steps (fun _ => ?_)
  refine (demandBaseline_safe _ _).bind_steps ?_
  rintro _ w₂ ⟨hquiet₂, hverified⟩
  refine Prog.Ok.demand_steps (fun _ => ?_)
  refine (dateNow_safe w₂).bind_ends (fun armedAt w₃ hquiet₃ => ?_)
  refine Prog.Ok.demand_steps (fun _ => ?_)
  refine (save_safe (.store (hquiet₃.active.trans (hquiet₂.active.trans
    (hquiet.active.trans hactive))) (.bind _ _ _ _ _ hreserved.1 (fits_of_isPlanned hplanned) ?_
      (fun zone hzone => ?_)))).bind_eq (setAlarm_safe _ _).steps
  · unfold BoundPlan.isOf at hplan
    rw [Bool.and_eq_true] at hplan
    rw [List.map_map]
    exact hplan.2
  · obtain ⟨hhex, rows, hsame, -, hzones⟩ := hverified rfl zone hzone
    obtain ⟨hnil, -⟩ := hquiet.zones (hpending hreserved.1)
    refine ⟨hhex, ?_⟩
    rw [(hquiet₃.zones (hquiet₂.zones hnil).1).2, hzones hnil]
    exact hsame

/-! ## Changing a route -/

theorem changeRoute_safe {s : LeaseState} {plan : BoundPlan} {intent : Intent}
    (hmay : MayWrite w intent.zoneId (intent.change plan.workerName))
    (hactive : w.active = some (s.addIntent intent)) (hstatus : s.status = .armed)
    (hid : intent.id = none) :
    Safe (fun r w' => r = none → w'.active = some (s.addIntent intent))
      (changeRoute s plan intent) w := by
  refine (provider_safe hmay).bind ?_ (fun w' h _ => ?_)
  · rintro route w₁ (⟨h, -⟩ | hwritten)
    · cases h
    have hactive₁ := hwritten.active.trans hactive
    refine Prog.Ok.demand (fun _ => ?_) (fun _ _ => hactive₁)
    refine Prog.Ok.demand (fun hroute => ?_) (fun _ _ => hactive₁)
    have hmem : route ∈ w₁.zones intent.zoneId := by
      refine hwritten.zones route rfl (fun id => ?_)
      unfold Intent.change
      cases intent.before with
      | none => exact RouteWrite.noConfusion
      | some before => exact RouteWrite.noConfusion
    exact (save_safe (.store hactive₁ (.acknowledge hstatus rfl hid hmem hroute.1))).bind_eq
      (fun h => nomatch h)
  · obtain ⟨-, rfl⟩ | hwritten := h
    · exact hactive
    · exact hwritten.active.trans hactive

/-- **What a failed `mutate` leaves**: if it wrote, its lease is restoring. -/
def Fenced (w : World) (operationId : Uuid) : Prop :=
  (∃ e ∈ sinceBegan w.log, e.isWrite = true) →
    ∃ s, w.active = some s ∧ s.scope.operationId = operationId ∧ s.status = .restoring

/-- Reading is not writing. -/
theorem Quiet.fenced {w' : World} (h : Quiet w w')
    (hnone : ∀ e ∈ sinceBegan w.log, e.isWrite = false) (operationId : Uuid) :
    Fenced w' operationId := by
  rintro ⟨e, he, hwrite⟩
  obtain ⟨reads, -, hsince, hreads⟩ := h.sinceBegan_eq
  rw [hsince] at he
  obtain he | he := List.mem_append.mp he
  · obtain ⟨-, zone, rows, hact⟩ := hreads e he
    rw [Entry.isWrite, hact] at hwrite
    cases hwrite
  · rw [hnone e he] at hwrite
    cases hwrite

theorem appliedRoutes_acknowledged {workerName : String} {intents : List Intent}
    {rows expected : List Route} (h : appliedRoutes workerName intents rows = some expected) :
    ∀ intent ∈ intents, intent.id ≠ none := by
  induction intents generalizing rows with
  | nil => exact fun _ h => absurd h List.not_mem_nil
  | cons intent intents ih =>
    obtain ⟨id, hid, hrest⟩ := Option.bind_eq_some_iff.mp h
    refine List.forall_mem_cons.mpr ⟨?_, ih hrest⟩
    rw [hid]
    exact Option.some_ne_none id

theorem mutate_safe {s : LeaseState} {zone pattern : String} (hactive : w.active = some s)
    (hserving : w.serving =
      .request (.named s.scope.operationId s.scope.leaseId (.mutate zone pattern)))
    (hstored : lastStored w.log = some s)
    (hnone : ∀ e ∈ sinceBegan w.log, e.isWrite = false) :
    Safe (fun r w' => r = none → Fenced w' s.scope.operationId) (mutate s zone pattern) w := by
  have hquiet : ∀ {w'} (_ : Quiet w w') (r : Option Route), r = none →
      Fenced w' s.scope.operationId := fun h _ _ => h.fenced hnone _
  refine (dateNow_safe w).bind_ends (fun now w₁ hquiet₁ => ?_)
  refine Prog.Ok.demand (fun harmed => ?_) (fun _ => hquiet hquiet₁ _)
  refine Prog.Ok.required (fun plan hplan => ?_) (hquiet hquiet₁ _)
  refine Prog.Ok.required (fun baseline hbaseline => ?_) (hquiet hquiet₁ _)
  refine Prog.Ok.required (fun change hchange => ?_) (hquiet hquiet₁ _)
  refine Prog.Ok.required (fun z hz => ?_) (hquiet hquiet₁ _)
  have hfor := List.find?_some hchange
  rw [Bool.and_eq_true, decide_eq_true_iff, decide_eq_true_iff] at hfor
  cases hfind : s.intents.find? (fun r => r.zoneId = change.zoneId && r.pattern = change.pattern) with
  | some intent =>
    refine Prog.Ok.required (fun id _ => ?_) (hquiet hquiet₁ _)
    refine (routes_safe change.zoneId w₁).bind ?_ (fun w' h => hquiet (hquiet₁.trans h.1) _)
    rintro rows w₂ ⟨hquiet₂, -⟩
    refine Prog.Ok.required (fun actual _ => ?_) (hquiet (hquiet₁.trans hquiet₂) _)
    exact Prog.Ok.demand (fun _ => hquiet (hquiet₁.trans hquiet₂) _)
      (fun _ => hquiet (hquiet₁.trans hquiet₂) _)
  | none =>
    refine (routes_safe change.zoneId w₁).bind ?_ (fun w' h => hquiet (hquiet₁.trans h.1) _)
    rintro actual w₂ ⟨hquiet₂, -⟩
    have hquiet₂ := hquiet₁.trans hquiet₂
    refine Prog.Ok.required (fun expected hexpected => ?_) (hquiet hquiet₂ _)
    refine Prog.Ok.demand (fun _ => ?_) (fun _ => hquiet hquiet₂ _)
    have hzone : z.id = change.zoneId := by simpa using List.find?_some hz
    have hnew : ∀ i ∈ s.intents, ¬ i.isFor change.zoneId change.pattern := by
      rintro i hi ⟨hzoneId, hpattern⟩
      have hother := List.find?_eq_none.mp hfind i hi
      rw [hzoneId, hpattern] at hother
      simp at hother
    have hknown : ∀ i ∈ s.intents, i.zoneId = change.zoneId → i.id ≠ none := fun i hi hi' =>
      appliedRoutes_acknowledged hexpected i
        (List.mem_filter.mpr ⟨hi, decide_eq_true (hi'.trans hzone.symm)⟩)
    generalize hintent : ({
      toChange := change, before := z.routes.find? (fun r => some r.id = change.baselineRouteId),
      id := none, restored := false } : Intent) = intent
    obtain rfl : intent.toChange = change := hintent ▸ rfl
    have hbefore : intent.before =
      z.routes.find? (fun r => some r.id = intent.baselineRouteId) := hintent ▸ rfl
    have hid : intent.id = none := hintent ▸ rfl
    refine (save_safe (.store (hquiet₂.active.trans hactive) (.intend harmed.1 hplan hbaseline
      (List.mem_of_find?_eq_some hchange) hz hbefore hid hnew hknown))).bind_eq ?_
    have hmay : MayWrite (w₂.store (s.addIntent intent)) intent.zoneId
        (intent.change plan.workerName) := by
      refine .change ?_ rfl rfl (hquiet₂.lastStored.trans hstored) harmed.1 hplan
        hnew hid
      rw [hfor.1, hfor.2]
      exact hquiet₂.serving.trans hserving
    refine (changeRoute_safe hmay rfl harmed.1 hid).bind_attempt (fun answer w₄ hactive₄ => ?_)
    cases answer with
    | some route => exact fun h => nomatch h
    | none =>
      refine (save_safe (.store (hactive₄ rfl) (.fail harmed.1))).bind_eq ?_
      have hstarted := startedRestore_of_bound (s := (s.addIntent intent).failed)
        (ne_of_eq_of_ne hplan (Option.some_ne_none plan))
        (ne_of_eq_of_ne hbaseline (Option.some_ne_none baseline))
      have hend := startRestore_safe (w := w₄.store (s.addIntent intent).failed)
        (.store rfl (next_startedRestore (fun h => h.elim (nomatch ·) (nomatch ·))))
      refine hend.bind ?_ (fun w' h => nomatch h.1)
      rintro _ w₆ ⟨-, hquiet₆⟩ - -
      refine ⟨_, hquiet₆.active, ?_⟩
      rw [hstarted]
      exact ⟨rfl, rfl⟩

/-! ## Rehearsals -/

/-- The plan of a rehearsal fits the routes that were read. -/
theorem fits_rehearsal {plan : BoundPlan} {zone : Zone} {pattern : String}
    (hroutes : plan.routes = [⟨zone.id, pattern,
      ((zone.routes.filter (fun r => r.pattern = pattern)).head?).map Route.id⟩]) :
    Fits plan [zone] := by
  intro change hchange
  rw [hroutes] at hchange
  obtain rfl := List.mem_singleton.mp hchange
  refine ⟨zone, List.find?_cons_of_pos (decide_eq_true rfl), ?_⟩
  cases hhead : (zone.routes.filter (fun r => r.pattern = pattern)).head? with
  | none =>
    intro r hr heq
    have hnil := List.filter_eq_nil_iff.mp (List.head?_eq_none_iff.mp hhead) r hr
    exact hnil (decide_eq_true heq)
  | some r =>
    obtain ⟨hr, hpattern⟩ := List.mem_filter.mp (List.mem_of_mem_head? hhead)
    exact ⟨r, hr, rfl, of_decide_eq_true hpattern⟩

theorem rehearsal_safe (host : Host) (operationId : Uuid) (w : World) :
    Safe (fun _ _ => True) (rehearsal host operationId) w := by
  unfold rehearsal
  generalize comZone = zone
  refine Prog.Ok.demand_steps (fun _ => ?_)
  refine (routes_safe zone w).bind_steps (fun rows w₁ _ => ?_)
  refine Prog.Ok.demand_steps (fun hexisting => ?_)
  refine (randomUUID_safe w₁).bind_steps ?_
  rintro leaseId w₂ ⟨id, hid, hfresh, rfl⟩
  obtain rfl := Option.some.inj hid
  refine (reserve_safe host _ w₂).bind_steps (fun _ w₃ hreserved => ?_)
  obtain ⟨s, hs, hstatus⟩ := hreserved rfl (fun s h heq => hfresh s h (heq ▸ rfl))
  refine (getActive_safe w₃).bind_eq ?_
  refine Prog.Ok.required_steps (fun s' hs' => ?_)
  obtain rfl := Option.some.inj (hs'.symm.trans hs)
  refine (dateNow_safe w₃).bind_ends (fun now w₅ hquiet₅ => ?_)
  exact (save_safe (.store (hquiet₅.active.trans hs) (.rehearse _ _ _ hstatus
    (fits_rehearsal rfl)))).bind_eq (setAlarm_safe _ _).steps

theorem writeLate_safe {s : LeaseState} {intent : Intent}
    (hmay : MayWrite w comZone (intent.change "ms-realty-route-watchdog"))
    (hactive : w.active = some s) (hrehearsal : s.rehearsal = true)
    (hstatus : s.status = .restoring)
    (hintents : s.intents = [{ intent with id := none, restored := false }]) :
    Safe (fun _ _ => True) (writeLate s intent) w := by
  unfold writeLate
  generalize comZone = zone at hmay ⊢
  refine (provider_safe hmay).bind_steps ?_
  rintro route w₁ (⟨h, -⟩ | hwritten)
  · cases h
  refine Prog.Ok.demand_steps (fun _ => ?_)
  exact (save_safe (.store (hwritten.active.trans hactive)
    (.lateWritten route.id hrehearsal hstatus hintents))).steps

theorem lateWrite_safe {s : LeaseState} (hactive : w.active = some s)
    (hserving : w.serving =
      .request (.named s.scope.operationId s.scope.leaseId .lateWrite))
    (hbound : s.status = .restored → s.plan ≠ none ∧ s.baseline ≠ none) :
    Safe (fun _ _ => True) (lateWrite s) w := by
  refine Prog.Ok.demand_steps (fun hrestored => ?_)
  obtain ⟨hrehearsal, hstatus, -, hlength⟩ := hrestored
  obtain ⟨hplan, hbaseline⟩ := hbound hstatus
  obtain ⟨intent, hintents⟩ := List.length_eq_one_iff.mp hlength
  refine Prog.Ok.required_steps (fun head hhead => ?_)
  rw [hintents] at hhead
  obtain rfl := Option.some.inj hhead
  refine Prog.Ok.demand_steps (fun _ => ?_)
  refine (demandBaseline_safe _ w).bind_steps ?_
  rintro _ w₁ ⟨hquiet, -⟩
  have hstarted := startedRestore_of_bound (s := s.unrestored intent) hplan hbaseline
  have hnext : Next w₁ s (s.unrestored intent).startedRestore := by
    rw [hstarted]
    exact .lateWrite hrehearsal hstatus hintents hplan hbaseline
  refine (startRestore_safe (.store (hquiet.active.trans hactive) hnext)).bind_steps ?_
  rintro started w₂ ⟨hr, hquiet₂⟩
  rw [hstarted] at hr hquiet₂
  obtain rfl := Option.some.inj hr
  have hmay : MayWrite w₂ comZone (intent.change "ms-realty-route-watchdog") :=
    .late (s := (s.unrestored intent).startRound)
      ((hquiet₂.serving.trans hquiet.serving).trans hserving) hquiet₂.active hrehearsal rfl rfl
  exact writeLate_safe hmay hquiet₂.active hrehearsal rfl rfl

theorem close_safe {s : LeaseState} (hactive : w.active = some s)
    (hserving : w.serving = .request (.named s.scope.operationId s.scope.leaseId .close)) :
    Safe (fun _ _ => True) (close s) w := by
  refine Prog.Ok.demand_steps (fun hrestored => ?_)
  refine (demandBaseline_safe _ w).bind_steps ?_
  rintro _ w₁ ⟨hquiet, -⟩
  exact (save_safe (.store (hquiet.active.trans hactive)
    (.close hrestored.1 hrestored.2.1 (hquiet.serving.trans hserving)))).bind_eq
    (deleteAlarm_safe _)

/-! ## Accepting and releasing -/

theorem demandApplied_safe (s : LeaseState) (workerName : String) (zones : List Zone) (w : World) :
    Safe (fun _ w' => Quiet w w') (demandApplied s workerName zones) w := by
  induction zones generalizing w with
  | nil => exact Quiet.refl w
  | cons zone zones ih =>
    refine Prog.Ok.required (fun expected _ => ?_) (Quiet.refl w)
    refine (routes_safe zone.id w).bind ?_ (fun w' h => h.1)
    rintro rows w₁ ⟨hquiet, -⟩
    refine Prog.Ok.demand (fun _ => ?_) (fun _ => hquiet)
    exact (ih w₁).mono (fun r w' h => hquiet.trans h)

theorem accept_safe (host : Host) {s : LeaseState} {envelope : Envelope}
    (hactive : w.active = some s) (hserving : w.serving =
      .request (.named s.scope.operationId s.scope.leaseId (.accept envelope))) :
    Safe (fun _ _ => True) (accept host s envelope) w := by
  unfold accept
  split_ifs
  · exact trivial
  refine (dateNow_safe w).bind_ends (fun now w₁ hquiet => ?_)
  refine Prog.Ok.demand_steps (fun harmed => ?_)
  refine Prog.Ok.required_steps (fun plan _ => ?_)
  refine Prog.Ok.required_steps (fun baseline _ => ?_)
  refine Prog.Ok.required_steps (fun fullBaseline _ => ?_)
  refine (signed_safe host _ _ _ _).bind_steps ?_
  rintro report _ rfl
  refine Prog.Ok.required_steps (fun applied _ => ?_)
  refine Prog.Ok.demand_steps (fun _ => ?_)
  refine Prog.Ok.demand_steps (fun _ => ?_)
  refine Prog.Ok.demand_steps (fun _ => ?_)
  refine (demandApplied_safe _ _ _ _).bind_steps (fun _ w₂ hquiet₂ => ?_)
  refine (dateNow_safe w₂).bind_ends (fun later w₃ hquiet₃ => ?_)
  have hquiet₃ := (hquiet.trans hquiet₂).trans hquiet₃
  refine Prog.Ok.demand_steps (fun _ => ?_)
  exact (save_safe (.store (hquiet₃.active.trans hactive)
    (.accept _ harmed.1 (Bool.eq_false_of_not_eq_true harmed.2.1)
      (hquiet₃.serving.trans hserving)))).bind_eq (deleteAlarm_safe _)

theorem release_safe (host : Host) {s : LeaseState} {approvals : Role → Envelope}
    (hactive : w.active = some s) (hserving : w.serving =
      .request (.named s.scope.operationId s.scope.leaseId (.release approvals))) :
    Safe (fun _ _ => True) (release host s approvals) w := by
  refine (dateNow_safe w).bind_ends (fun now w₁ hquiet => ?_)
  refine Prog.Ok.demand_steps (fun hrestored => ?_)
  refine (independentKeys_safe host w₁).bind_steps ?_
  rintro _ _ rfl
  refine (signed_safe host _ _ _ _).bind_steps ?_
  rintro owner _ rfl
  refine Prog.Ok.demand_steps (fun _ => ?_)
  refine (signed_safe host _ _ _ _).bind_steps ?_
  rintro controller _ rfl
  refine Prog.Ok.demand_steps (fun _ => ?_)
  refine (demandBaseline_safe _ _).bind_steps ?_
  rintro _ w₂ ⟨hquiet₂, hverified⟩
  have hquiet₂ := hquiet.trans hquiet₂
  refine (save_safe (.store (hquiet₂.active.trans hactive) (.release hrestored.1
    (hquiet₂.serving.trans hserving) (fun zone hzone => ?_)))).bind_eq (deleteAlarm_safe _)
  obtain ⟨-, rows, hsame, hmem, -⟩ := hverified rfl zone hzone
  exact ⟨_, hmem, rows, rfl, hsame⟩

/-! ## Serving -/

theorem retainJournal_safe {s : LeaseState} (journal : Journal) (hactive : w.active = some s) :
    Safe (fun _ _ => True) (retainJournal s journal) w := by
  refine Prog.Ok.demand_steps (fun _ => ?_)
  exact (save_safe (.store hactive (.journal journal))).steps

theorem restore_safe {s : LeaseState} (hactive : w.active = some s)
    (hserving : w.serving = .request (.named s.scope.operationId s.scope.leaseId .restore)) :
    Safe (fun _ _ => True) (restore s) w := by
  unfold restore
  split_ifs
  · exact trivial
  exact (startRestore_safe (.store hactive (next_startedRestore
    (fun _ => hserving)))).bind_steps (fun _ _ _ => trivial)

/-- **What holds at every moment**: the active state is the one that was stored
last, a lease that is neither reserved nor released is bound, and nothing is on
its way for a lease that is only reserved. -/
structure Sound (w : World) : Prop where
  stored : lastStored w.log = w.active
  bound : ∀ s, w.active = some s → s.status ≠ .reserved → s.status ≠ .released →
    s.plan ≠ none ∧ s.baseline ≠ none
  reserved : ∀ s, w.active = some s → s.status = .reserved → w.pending = []

/-- What is known after a command: a `mutate` that failed is fenced. -/
def Outcome (w : World) (request : Request) (answer : Option Answer) (w' : World) : Prop :=
  w'.serving = w.serving ∧ (answer ≠ some .ok → ∀ operationId leaseId zone pattern,
    request = .named operationId leaseId (.mutate zone pattern) → Fenced w' operationId)

/-- No move changes what is served. -/
theorem serving_of_moves {w' : World} (h : ReflTransGen Move w w') : w'.serving = w.serving := by
  refine h.head_induction_on rfl (fun hmove _ ih => ih.trans ?_)
  cases hmove with
  | arrive h => exact (quiet_of_arrives (.single h)).1.serving
  | write _ hissues => exact hissues.spec.2.2.1
  | _ => rfl

/-- A program for a request that is not one to `mutate` has no more to say. -/
theorem outcome_of_steps {p : Watch Answer} {request : Request}
    (h : Safe (fun _ _ => True) p w)
    (hrequest : ∀ operationId leaseId zone pattern,
      request ≠ .named operationId leaseId (.mutate zone pattern)) :
    Safe (fun r w' => Outcome w request r w') p w :=
  h.reaches.mono (fun _ _ h => ⟨serving_of_moves h.2, fun _ operationId leaseId zone pattern heq =>
    absurd heq (hrequest operationId leaseId zone pattern)⟩)

theorem command_safe (host : Host) {s : LeaseState} (asked : Command) (hsound : Sound w)
    (hactive : w.active = some s)
    (hserving : w.serving = .request (.named s.scope.operationId s.scope.leaseId asked))
    (hnone : ∀ e ∈ sinceBegan w.log, e.isWrite = false) :
    Safe (fun r w' => Outcome w (.named s.scope.operationId s.scope.leaseId asked) r w')
      (command host s asked) w := by
  have hsteps : ∀ {p : Watch Unit}, Safe (fun _ _ => True) p w →
      Safe (fun _ _ => True) (do let _ ← p; return Answer.ok) w :=
    fun h => h.bind_steps (fun _ _ _ => trivial)
  cases asked with
  | mutate zone pattern =>
    refine (mutate_safe hactive hserving (hsound.stored.trans hactive) hnone).reaches.bind
      (fun route w' h => ⟨serving_of_moves h.2, fun hok => absurd rfl hok⟩)
      (fun w' h => ⟨serving_of_moves h.2, fun _ => ?_⟩)
    intro operationId leaseId zone' pattern' heq
    cases heq
    exact h.1 rfl
  | bind input =>
    exact outcome_of_steps (hsteps (bind_safe host input hactive (hsound.reserved s hactive)))
      (fun _ _ _ _ h => nomatch h)
  | journal journal =>
    exact outcome_of_steps (hsteps (retainJournal_safe journal hactive)) (fun _ _ _ _ h => nomatch h)
  | restore =>
    exact outcome_of_steps (hsteps (restore_safe hactive hserving)) (fun _ _ _ _ h => nomatch h)
  | lateWrite =>
    refine outcome_of_steps (hsteps (lateWrite_safe hactive hserving (fun h => ?_)))
      (fun _ _ _ _ h => nomatch h)
    exact hsound.bound s hactive (fun h' => nomatch h.symm.trans h') (fun h' => nomatch h.symm.trans h')
  | close =>
    exact outcome_of_steps (hsteps (close_safe hactive hserving)) (fun _ _ _ _ h => nomatch h)
  | accept report =>
    exact outcome_of_steps (hsteps (accept_safe host hactive hserving)) (fun _ _ _ _ h => nomatch h)
  | release approvals =>
    exact outcome_of_steps (hsteps (release_safe host hactive hserving)) (fun _ _ _ _ h => nomatch h)
  | unknown => exact outcome_of_steps trivial (fun _ _ _ _ h => nomatch h)

theorem handle_safe (host : Host) (request : Request) (hsound : Sound w)
    (hserving : w.serving = .request request)
    (hnone : ∀ e ∈ sinceBegan w.log, e.isWrite = false) :
    Safe (fun r w' => Outcome w request r w') (handle host request) w := by
  refine (getActive_safe w).bind_eq ?_
  cases request with
  | status => exact outcome_of_steps trivial (fun _ _ _ _ h => nomatch h)
  | origin name =>
    refine outcome_of_steps ?_ (fun _ _ _ _ h => nomatch h)
    exact (originalOrigin_safe name w).bind_attempt (fun _ _ _ => trivial)
  | malformed => exact outcome_of_steps trivial (fun _ _ _ _ h => nomatch h)
  | reserve scope =>
    refine outcome_of_steps ?_ (fun _ _ _ _ h => nomatch h)
    exact (reserve_safe host scope w).bind_steps (fun _ _ _ => trivial)
  | rehearsal operationId =>
    refine outcome_of_steps ?_ (fun _ _ _ _ h => nomatch h)
    exact (rehearsal_safe host operationId w).bind_steps (fun _ _ _ => trivial)
  | named operationId leaseId asked =>
    have hkept : ∀ answer, Outcome w (.named operationId leaseId asked) answer w :=
      fun answer => ⟨rfl, fun _ _ _ _ _ _ => (Quiet.refl w).fenced hnone _⟩
    refine Prog.Ok.required (fun s hs => ?_) (hkept none)
    refine Prog.Ok.demand (fun hsame => ?_) (fun _ => hkept none)
    obtain ⟨rfl, rfl⟩ := hsame
    exact command_safe host asked hsound hs hserving hnone

theorem Sound.begin (h : Sound w) (event : Event) : Sound (w.begin event) :=
  ⟨(lastStored_cons_none rfl).trans h.stored, h.bound, h.reserved⟩

/-- **The programs are the machine's moves**: whatever is served, and however
the operations answer, only moves are made. -/
theorem serveEvent_safe (host : Host) (event : Event) (hsound : Sound w) :
    Safe (fun _ _ => True) (serveEvent host event) (w.begin event) := by
  cases event with
  | alarm => exact alarm_safe rfl
  | request request =>
    have hhandle := handle_safe host request (hsound.begin (.request request)) rfl
      (fun e he => absurd he List.not_mem_nil)
    refine Prog.Ok.bind (Q := fun r w' => ∃ answer : Option Answer,
      r = some (answer.getD .unverified) ∧
      Outcome (w.begin (.request request)) request answer w') ?_ ?_ (fun _ _ => trivial)
    · exact hhandle.bind_attempt (fun answer w' h => ⟨answer, rfl, h⟩)
    · rintro _ w₂ ⟨answer, h, houtcome⟩
      obtain rfl := Option.some.inj h
      rintro _ w₃ rfl
      refine ⟨.single (.answered (fun hok operationId leaseId zone pattern hserving => ?_)), trivial⟩
      refine houtcome.2 (fun heq => ?_) operationId leaseId zone pattern ?_
      · rw [heq] at hok
        exact hok rfl
      · exact (Event.request.inj (houtcome.1.symm.trans hserving))

/-- An event that is served makes moves from where it begins. -/
theorem moves_of_serve {host : Host} {event : Event} {rest : Watch Unit} {w' : World}
    (hsound : Sound w) (h : Prog.Runs act (serve host event) w rest w') :
    w' = w ∨ ReflTransGen Move (w.begin event) w' := by
  cases h with
  | refl => exact .inl rfl
  | perform hact hrest =>
    obtain rfl := hact
    rw [← reflTransGen_eq_self (r := ReflTransGen Move)]
    exact .inr ((serveEvent_safe host event hsound).of_runs hrest).1

end Watchdog
