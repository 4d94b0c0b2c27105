import MsRealty.WatchdogRuns

/-!
# Accepted and released leases

A lease is identified by the operation it is for. Its status is that of the
active state or that of a state in the history (`Held`). A lease that has ended
keeps its status, and nothing is written for it, as long as no request to
restore names it while it is still the active one (`Reopens`): `/restore` has no
check of the status, so such a request brings a bound lease back, and the
alarms that follow restore the baseline.
-/

namespace Watchdog

open Relation

variable {w w' : World} {s s' : LeaseState} {operationId : Uuid} {status : Status}

/-! ## Leases and their status -/

/-- **The lease of an operation has a status**: it is the active one, or it is kept. -/
def Held (w : World) (operationId : Uuid) (status : Status) : Prop :=
  (∃ s, w.active = some s ∧ s.scope.operationId = operationId ∧ s.status = status) ∨
    ∃ lease ∈ w.history, lease.fst = operationId ∧ lease.snd.status = status

/-- **An event that reopens a lease**: a request to restore one that has ended and
was bound, while it is the active one. -/
def Reopens (w : World) (event : Event) : Prop :=
  ∃ s, w.active = some s ∧ s.status.Final ∧ s.plan ≠ none ∧ s.baseline ≠ none ∧
    event = .request (.named s.scope.operationId s.scope.leaseId .restore)

/-- No lease that has ended is reopened. -/
def keepsEnded (w : World) (event : Event) : Prop := ¬ Reopens w event

/-- An event is served for a lease: an alarm, or a request that names it. -/
def Event.isFor (event : Event) (s : LeaseState) : Prop :=
  event = .alarm ∨
    ∃ command, event = .request (.named s.scope.operationId s.scope.leaseId command)

theorem held_active (h : w.active = some s) : Held w s.scope.operationId s.status :=
  .inl ⟨s, h, rfl, rfl⟩

theorem Held.congr (h : Held w operationId status) (hactive : w'.active = w.active)
    (hhistory : w'.history = w.history) : Held w' operationId status := by
  rw [Held, hactive, hhistory]
  exact h

/-! ## Moves -/

/-- A write is issued for the active lease, which has not ended. -/
theorem MayWrite.lease {zone : String} {write : RouteWrite} (h : MayWrite w zone write) :
    ∃ s, w.active = some s ∧ ¬ s.status.Final ∧ w.serving.isFor s := by
  have hopen : ∀ {s : LeaseState}, s.status = .armed ∨ s.status = .restoring → ¬ s.status.Final := by
    intro s hs hfinal
    unfold Status.Final at hfinal
    obtain h | h := hs <;> rw [h] at hfinal <;> simp at hfinal
  cases h with
  | change hserving hactive _ _ hstatus => exact ⟨_, hactive, hopen (.inl hstatus), .inr ⟨_, hserving⟩⟩
  | putBack hserving hactive hstatus => exact ⟨_, hactive, hopen (.inr hstatus), .inl hserving⟩
  | remove hserving hactive hstatus => exact ⟨_, hactive, hopen (.inr hstatus), .inl hserving⟩
  | late hserving hactive _ hstatus => exact ⟨_, hactive, hopen (.inr hstatus), .inr ⟨_, hserving⟩⟩

theorem Move.serving (h : Move w w') : w'.serving = w.serving := by
  cases h with
  | arrive harrives => exact harrives.frame.2.2.1
  | write _ hissues => exact hissues.spec.2.2.1
  | _ => rfl

/-- **What a move does to the leases**: nothing, or it keeps, replaces or stores
the active one. -/
theorem Move.leases (h : Move w w') :
    (w'.active = w.active ∧ w'.history = w.history) ∨
    (∃ s, w.active = some s ∧ s.status.Final ∧ w'.active = w.active ∧
      w'.history = (s.scope.operationId, s) :: w.history) ∨
    (∃ scope now, w'.active = some (.reserve scope now) ∧ w'.history = w.history ∧
      (∀ s, w.active = some s → s.status.Final ∧
        ∃ lease ∈ w.history, lease.fst = s.scope.operationId) ∧
      ∀ lease ∈ w.history, lease.fst ≠ scope.operationId) ∨
    ∃ s s', w.active = some s ∧ Next w s s' ∧ w'.active = some s' ∧ w'.history = w.history := by
  cases h with
  | arrive harrives => exact .inl ⟨harrives.frame.1, harrives.frame.2.1⟩
  | archive hactive hfinal => exact .inr (.inl ⟨_, hactive, hfinal, rfl, rfl⟩)
  | reserve now _ hprior hunused => exact .inr (.inr (.inl ⟨_, now, rfl, rfl, hprior, hunused⟩))
  | store hactive hnext => exact .inr (.inr (.inr ⟨_, _, hactive, hnext, rfl, rfl⟩))
  | write _ hissues => exact .inl ⟨hissues.spec.1, hissues.spec.2.1⟩
  | _ => exact .inl ⟨rfl, rfl⟩

/-- **A lease that has ended keeps its status**, unless it is reopened. -/
theorem Next.final (h : Next w s s') (hfinal : s.status.Final) (hactive : w.active = some s)
    (hsound : Sound w) (hkeeps : keepsEnded w w.serving) : s'.status = s.status := by
  have hother : ∀ {status : Status}, s.status = status → ¬ status.Final → s'.status = s.status :=
    fun h hnot => absurd (h ▸ hfinal) hnot
  cases h with
  | journal => rfl
  | bind _ _ _ _ _ h => exact hother h (by decide)
  | rehearse _ _ _ h => exact hother h (by decide)
  | intend h => rfl
  | acknowledge h => rfl
  | fail h => exact hother h (by decide)
  | accept _ h => exact hother h (by decide)
  | unbound h =>
    obtain haccepted | hreleased := hfinal
    · obtain ⟨hplan, hbaseline⟩ := hsound.bound s hactive (fun h => nomatch haccepted.symm.trans h)
        (fun h => nomatch haccepted.symm.trans h)
      exact absurd h (not_or.mpr ⟨hplan, hbaseline⟩)
    · exact hreleased.symm
  | startRound hplan hbaseline hrestore =>
    exact absurd ⟨s, hactive, hfinal, hplan, hbaseline, hrestore hfinal⟩ hkeeps
  | found h => rfl
  | restored _ h => rfl
  | verified _ h => rfl
  | probed _ _ h => rfl
  | endRound now h => exact hother h (by decide)
  | lateWrite _ h => exact hother h (by decide)
  | lateWritten => rfl
  | close _ h => exact hother h (by decide)
  | release h => exact hother h (by decide)

/-- A request to restore ends no lease that is bound. -/
theorem Next.reopens (h : Next w s s') (hfinal : s'.status.Final) (hplan : s'.plan ≠ none)
    (hbaseline : s'.baseline ≠ none)
    (hserving : w.serving = .request (.named s'.scope.operationId s'.scope.leaseId .restore)) :
    s.status.Final ∧ s.plan ≠ none ∧ s.baseline ≠ none := by
  cases h with
  | journal => exact ⟨hfinal, hplan, hbaseline⟩
  | intend => exact ⟨hfinal, hplan, hbaseline⟩
  | acknowledge => exact ⟨hfinal, hplan, hbaseline⟩
  | accept _ _ _ haccept => cases haccept.symm.trans hserving
  | unbound h => exact absurd h (not_or.mpr ⟨hplan, hbaseline⟩)
  | found => exact ⟨hfinal, hplan, hbaseline⟩
  | restored => exact ⟨hfinal, hplan, hbaseline⟩
  | verified => exact ⟨hfinal, hplan, hbaseline⟩
  | probed => exact ⟨hfinal, hplan, hbaseline⟩
  | endRound now =>
    rw [endRound_status] at hfinal
    split_ifs at hfinal
    · exact absurd hfinal (by decide)
    · exact absurd hfinal (by decide)
  | lateWritten => exact ⟨hfinal, hplan, hbaseline⟩
  | close _ _ hclose => cases hclose.symm.trans hserving
  | release _ hrelease => cases hrelease.symm.trans hserving
  | _ =>
    obtain h | h := hfinal
    · cases h
    · cases h

/-! ## Runs that reopen no lease -/

/-- **What such a run keeps**: what is in the history has ended, the leases have
one status each, and the event that is served reopens none. -/
structure Ending (w : World) : Prop where
  history : ∀ lease ∈ w.history, lease.snd.status.Final
  active_agrees : ∀ s, w.active = some s → ∀ lease ∈ w.history,
    lease.fst = s.scope.operationId → lease.snd.status = s.status
  history_agrees : ∀ lease ∈ w.history, ∀ lease' ∈ w.history, lease.fst = lease'.fst →
    lease.snd.status = lease'.snd.status
  keeps : keepsEnded w w.serving

theorem Initial.ending (h : Initial w) : Ending w := by
  have hactive : ∀ s, w.active ≠ some s := fun s hs => absurd (h.active.symm.trans hs) (by simp)
  have hhistory : ∀ lease, lease ∉ w.history := by
    rw [h.history]
    exact fun _ => List.not_mem_nil
  exact {
    history := fun lease hlease => absurd hlease (hhistory lease)
    active_agrees := fun s hs => absurd hs (hactive s)
    history_agrees := fun lease hlease => absurd hlease (hhistory lease)
    keeps := fun ⟨s, hs, _⟩ => hactive s hs }

theorem Ending.begin {event : Event} (h : Ending w) (hkeeps : keepsEnded w event) :
    Ending (w.begin event) :=
  ⟨h.history, h.active_agrees, h.history_agrees, hkeeps⟩

/-- **A lease has one status.** -/
theorem Ending.agree (h : Ending w) {status' : Status} (hheld : Held w operationId status)
    (hheld' : Held w operationId status') : status' = status := by
  obtain ⟨s, hs, rfl, rfl⟩ | ⟨lease, hlease, hid, rfl⟩ := hheld
  · obtain ⟨s', hs', -, rfl⟩ | ⟨lease, hlease, hid, rfl⟩ := hheld'
    · rw [Option.some.inj (hs'.symm.trans hs)]
    · exact h.active_agrees s hs lease hlease hid
  · obtain ⟨s', hs', rfl, rfl⟩ | ⟨lease', hlease', hid', rfl⟩ := hheld'
    · exact (h.active_agrees s' hs' lease hlease hid).symm
    · exact h.history_agrees lease' hlease' lease hlease (hid'.trans hid.symm)

/-- **What has not ended is the active lease.** -/
theorem Ending.active_of_open (h : Ending w) (hheld : Held w operationId status)
    (hopen : ¬ status.Final) :
    ∃ s, w.active = some s ∧ s.scope.operationId = operationId ∧ s.status = status := by
  obtain hactive | ⟨lease, hlease, -, rfl⟩ := hheld
  · exact hactive
  · exact absurd (h.history lease hlease) hopen

theorem Ending.move (h : Ending w) (hsound : Sound w) (hmove : Move w w') : Ending w' := by
  have hserving := hmove.serving
  obtain ⟨hactive, hhistory⟩ | ⟨s, hs, hfinal, hactive, hhistory⟩ |
    ⟨scope, now, hactive, hhistory, -, hunused⟩ | ⟨s, s', hs, hnext, hactive, hhistory⟩ :=
    hmove.leases
  · refine ⟨hhistory ▸ h.history, ?_, hhistory ▸ h.history_agrees, ?_⟩
    · rw [hactive, hhistory]
      exact h.active_agrees
    · rw [keepsEnded, Reopens, hserving, hactive]
      exact h.keeps
  · refine ⟨?_, ?_, ?_, ?_⟩
    · rw [hhistory]
      exact List.forall_mem_cons.mpr ⟨hfinal, h.history⟩
    · rw [hactive, hhistory]
      refine fun t ht => List.forall_mem_cons.mpr ⟨fun _ => ?_, h.active_agrees t ht⟩
      rw [Option.some.inj (ht.symm.trans hs)]
    · rw [hhistory]
      refine List.forall_mem_cons.mpr ⟨List.forall_mem_cons.mpr ⟨fun _ => rfl, ?_⟩, ?_⟩
      · exact fun lease hlease hid => (h.active_agrees s hs lease hlease hid.symm).symm
      · refine fun lease hlease => List.forall_mem_cons.mpr ⟨?_, h.history_agrees lease hlease⟩
        exact fun hid => h.active_agrees s hs lease hlease hid
    · rw [keepsEnded, Reopens, hserving, hactive]
      exact h.keeps
  · refine ⟨hhistory ▸ h.history, ?_, hhistory ▸ h.history_agrees, ?_⟩
    · rw [hactive, hhistory]
      rintro t ht lease hlease hid
      obtain rfl := Option.some.inj ht
      exact absurd hid (hunused lease hlease)
    · rintro ⟨t, ht, hfinal, -⟩
      obtain rfl := Option.some.inj (hactive.symm.trans ht)
      obtain h | h := hfinal
      · cases h
      · cases h
  · refine ⟨hhistory ▸ h.history, ?_, hhistory ▸ h.history_agrees, ?_⟩
    · rw [hactive, hhistory]
      rintro t ht lease hlease hid
      obtain rfl := Option.some.inj ht
      rw [hnext.scope] at hid
      have hsame := h.active_agrees s hs lease hlease hid
      rw [hnext.final (hsame ▸ h.history lease hlease) hs hsound h.keeps]
      exact hsame
    · rintro ⟨t, ht, hfinal, hplan, hbaseline, hrestore⟩
      obtain rfl := Option.some.inj (hactive.symm.trans ht)
      rw [hserving] at hrestore
      obtain ⟨hfinal', hplan', hbaseline'⟩ := hnext.reopens hfinal hplan hbaseline hrestore
      rw [hnext.scope] at hrestore
      exact h.keeps ⟨s, hs, hfinal', hplan', hbaseline', hrestore⟩

/-- **Every lease has the status it had, or a move of the active one.** -/
theorem Ending.held_of_move (h : Ending w) (hsound : Sound w) (hmove : Move w w')
    (hheld : Held w operationId status) (hfinal : status.Final) : Held w' operationId status := by
  obtain ⟨hactive, hhistory⟩ | ⟨s, hs, -, hactive, hhistory⟩ |
    ⟨scope, now, hactive, hhistory, hprior, -⟩ | ⟨s, s', hs, hnext, hactive, hhistory⟩ :=
    hmove.leases
  · exact hheld.congr hactive hhistory
  · obtain ⟨t, ht, hid, hstatus⟩ | ⟨lease, hlease, hid, hstatus⟩ := hheld
    · exact .inl ⟨t, hactive.trans ht, hid, hstatus⟩
    · exact .inr ⟨lease, hhistory ▸ List.mem_cons_of_mem _ hlease, hid, hstatus⟩
  · obtain ⟨t, ht, rfl, rfl⟩ | ⟨lease, hlease, hid, hstatus⟩ := hheld
    · obtain ⟨-, lease, hlease, hid⟩ := hprior t ht
      refine .inr ⟨lease, hhistory ▸ hlease, hid, ?_⟩
      exact h.active_agrees t ht lease hlease hid
    · exact .inr ⟨lease, hhistory ▸ hlease, hid, hstatus⟩
  · obtain ⟨t, ht, rfl, rfl⟩ | ⟨lease, hlease, hid, hstatus⟩ := hheld
    · obtain rfl := Option.some.inj (ht.symm.trans hs)
      refine .inl ⟨s', hactive, ?_, hnext.final hfinal hs hsound h.keeps⟩
      rw [hnext.scope]
    · exact .inr ⟨lease, hhistory ▸ hlease, hid, hstatus⟩

/-- **A write for another lease**: one that has not ended, and is not that of an
operation. -/
def WritesElsewhere (operationId : Uuid) (e : Entry) (log : List Entry) : Prop :=
  e.isWrite = true → ∃ s, lastStored log = some s ∧ s.scope.operationId ≠ operationId ∧
    ¬ s.status.Final ∧ e.during.isFor s

/-- **A lease that has ended stays so, and nothing is written for it.** -/
theorem ended_stays {host : Host} (hrun : Run host keepsEnded w w') (hsound : Sound w)
    (hending : Ending w) (hheld : Held w operationId status) (hfinal : status.Final) :
    Sound w' ∧ Ending w' ∧ Held w' operationId status ∧
      Throughout (WritesElsewhere operationId) w.log w'.log := by
  refine run_induction (P := fun w' => Ending w' ∧ Held w' operationId status ∧
    Throughout (WritesElsewhere operationId) w.log w'.log) ?_ ?_ hrun hsound
    ⟨hending, hheld, .refl⟩
  · rintro w₁ event - hkeeps ⟨hending, hheld, hlog⟩
    exact ⟨hending.begin hkeeps, hheld, .cons (fun h => nomatch h) hlog⟩
  · rintro w₁ w₂ hsound ⟨hending, hheld, hlog⟩ hmove
    refine ⟨hending.move hsound hmove, hending.held_of_move hsound hmove hheld hfinal, ?_⟩
    obtain hsame | ⟨act, hcons, hmay⟩ := hmove.log
    · rw [hsame]
      exact hlog
    · rw [hcons]
      refine .cons (fun hwrite => ?_) hlog
      cases act with
      | wrote zone write answer =>
        obtain ⟨s, hs, hopen, hserves⟩ := (hmay zone write answer rfl).lease
        refine ⟨s, hsound.stored.trans hs, fun hid => hopen ?_, hopen, hserves⟩
        have hsame : s.status = status := hending.agree hheld (hid ▸ held_active hs)
        rw [hsame]
        exact hfinal
      | _ => cases hwrite

/-! ## Reserving again -/

/-- **When the active lease has ended, a new operation can reserve.** -/
theorem reserve_possible (host : Host) (scope : Scope) (hconfigured : host.configured = true)
    (hvalid : scope.isValid = true) (hended : ∀ s, w.active = some s → s.status.Final)
    (hunused : ∀ status, ¬ Held w scope.operationId status) :
    ∃ w', Prog.Runs act (serve host (.request (.reserve scope))) w (.done ()) w' ∧
      w'.active = some (.reserve scope w.clock) := by
  have hother : ∀ s, w.active = some s → s.scope.operationId ≠ scope.operationId := fun s hs heq =>
    hunused s.status (heq ▸ held_active hs)
  have hnew : w.history.any (fun lease => lease.fst = scope.operationId) ≠ true := fun h => by
    obtain ⟨lease, hlease, hid⟩ := List.any_eq_true.mp h
    exact hunused _ (.inr ⟨lease, hlease, of_decide_eq_true hid, rfl⟩)
  have hsame : ¬ w.active.any (fun state => decide (state.scope = scope)) = true := fun h => by
    obtain ⟨s, hs, heq⟩ := (Option.any_eq_true _ _).mp h
    exact hother s hs (of_decide_eq_true heq ▸ rfl)
  have harchive : ∀ w₁ : World, w₁.clock = w.clock → Prog.Can act
      (fun r w₂ => r = some () ∧ w₂.clock = w.clock) (archive w.active) w₁ := by
    intro w₁ hclock
    cases w.active with
    | none => exact ⟨rfl, hclock⟩
    | some s => exact ⟨(), _, rfl, rfl, hclock⟩
  have hreserve : Prog.Can act (fun r w₁ => r = some () ∧ w₁.active = some (.reserve scope w.clock))
      (reserve host scope) (w.begin (.request (.reserve scope))) := by
    refine Prog.Can.demand hconfigured (Prog.Can.demand hvalid ?_)
    refine ⟨w.active, _, ⟨rfl, rfl⟩, ?_⟩
    show Prog.Can act _ (if w.active.any (fun state => decide (state.scope = scope)) then _ else _) _
    rw [if_neg hsame]
    refine Prog.Can.demand hended (Prog.Can.demand hother ?_)
    refine ⟨_, _, ⟨rfl, rfl⟩, Prog.Can.demand hnew ?_⟩
    refine (harchive (w.begin (.request (.reserve scope))) rfl).bind ?_ (fun _ h => nomatch h.1)
    rintro _ w₁ ⟨-, hclock⟩
    exact ⟨w₁.clock, _, ⟨le_refl _, rfl⟩, (), _, rfl, (), _, rfl, rfl,
      congrArg (fun now => some (LeaseState.reserve scope now)) hclock⟩
  have hhandle : Prog.Can act (fun r w₁ => r = some .ok ∧
      w₁.active = some (.reserve scope w.clock)) (handle host (.reserve scope))
      (w.begin (.request (.reserve scope))) :=
    ⟨w.active, _, ⟨rfl, rfl⟩, hreserve.bind (fun _ _ h => ⟨rfl, h.2⟩) (fun _ h => nomatch h.1)⟩
  have hserve : Prog.Can act (fun r w₁ => r = some () ∧ w₁.active = some (.reserve scope w.clock))
      (serve host (.request (.reserve scope))) w := by
    refine ⟨(), _, rfl, ?_⟩
    show Prog.Can act _
      (fetch host (.reserve scope) >>= fun answer => Prog.op (Op.answered answer)) _
    refine Prog.Can.bind (Q := fun r w₁ => r = some .ok ∧
      w₁.active = some (.reserve scope w.clock)) ?_ ?_ (fun _ h => nomatch h.1)
    · refine ((hhandle.attempt (R := fun r w₁ => r = some (some .ok) ∧
        w₁.active = some (.reserve scope w.clock)) (fun r w₁ h => ⟨congrArg _ h.1, h.2⟩))).bind ?_
        (fun _ h => nomatch h.1)
      rintro _ w₁ ⟨h, hactive⟩
      obtain rfl := Option.some.inj h
      exact ⟨rfl, hactive⟩
    · rintro answer w₁ ⟨-, hactive⟩
      exact ⟨(), _, rfl, rfl, hactive⟩
  obtain ⟨r, w', hruns, rfl, hactive⟩ := hserve.runs
  exact ⟨w', hruns, hactive⟩

end Watchdog
