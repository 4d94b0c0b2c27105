import MsRealty.WatchdogRefinement

/-!
# Runs of the watchdog

What every move keeps, and what begins with every event keeps, holds in every
world that is reached (`run_induction`): from the programs to the machine once,
and from there on only the machine's moves matter.

What is said about the past is said about the log: of each entry, given the
entries before it (`Throughout`).
-/

namespace Watchdog

open Relation

variable {w w' : World} {s s' : LeaseState}

/-! ## What a lease keeps -/

theorem endRound_status (s : LeaseState) (now : Instant) : (s.endRound now).status =
    if s.roundFailed then .reconciliationRequired else .restored := by
  unfold LeaseState.endRound
  split_ifs <;> rfl

/-- The end of a round changes neither what a lease is for nor what it is bound to. -/
theorem endRound_frame (s : LeaseState) (now : Instant) : (s.endRound now).scope = s.scope ∧
    (s.endRound now).plan = s.plan ∧ (s.endRound now).baseline = s.baseline ∧
    (s.endRound now).intents = s.intents ∧ (s.endRound now).rehearsal = s.rehearsal := by
  unfold LeaseState.endRound
  split_ifs <;> exact ⟨rfl, rfl, rfl, rfl, rfl⟩

theorem Next.scope (h : Next w s s') : s'.scope = s.scope := by
  cases h with
  | endRound now => exact (endRound_frame s now).1
  | _ => rfl

/-- A lease is not reserved again. -/
theorem Next.reserved (h : Next w s s') (hs : s'.status = .reserved) : s.status = .reserved := by
  cases h with
  | journal => exact hs
  | endRound now =>
    rw [endRound_status] at hs
    split_ifs at hs
  | intend h => exact h ▸ hs
  | acknowledge h => exact h ▸ hs
  | found h => exact h ▸ hs
  | restored _ h => exact h ▸ hs
  | verified _ h => exact h ▸ hs
  | probed _ _ h => exact h ▸ hs
  | lateWritten _ _ h => exact h ▸ hs
  | _ => cases hs

/-- A lease is not armed again. -/
theorem Next.armed (h : Next w s s') (hs : s'.status = .armed) :
    s.status = .armed ∨ s.status = .reserved := by
  cases h with
  | journal => exact .inl hs
  | bind _ _ _ _ _ h => exact .inr h
  | rehearse _ _ _ h => exact .inr h
  | intend h => exact .inl h
  | acknowledge h => exact .inl h
  | endRound now =>
    rw [endRound_status] at hs
    split_ifs at hs
  | found h => exact .inl (h ▸ hs)
  | restored _ h => exact .inl (h ▸ hs)
  | verified _ h => exact .inl (h ▸ hs)
  | probed _ _ h => exact .inl (h ▸ hs)
  | lateWritten _ _ h => exact .inl (h ▸ hs)
  | _ => cases hs

/-- A lease that is neither reserved nor released is bound. -/
theorem Next.bound (h : Next w s s')
    (hs : s.status ≠ .reserved → s.status ≠ .released → s.plan ≠ none ∧ s.baseline ≠ none)
    (hreserved : s'.status ≠ .reserved) (hreleased : s'.status ≠ .released) :
    s'.plan ≠ none ∧ s'.baseline ≠ none := by
  have hof : ∀ {status : Status}, s.status = status → status ≠ .reserved → status ≠ .released →
      s.plan ≠ none ∧ s.baseline ≠ none :=
    fun h h₁ h₂ => hs (h ▸ h₁) (h ▸ h₂)
  cases h with
  | journal => exact hs hreserved hreleased
  | bind => exact ⟨Option.some_ne_none _, Option.some_ne_none _⟩
  | rehearse => exact ⟨Option.some_ne_none _, Option.some_ne_none _⟩
  | intend h => exact hof h (by decide) (by decide)
  | acknowledge h => exact hof h (by decide) (by decide)
  | fail h => exact hof h (by decide) (by decide)
  | accept _ h => exact hof h (by decide) (by decide)
  | unbound => exact absurd rfl hreleased
  | startRound hplan hbaseline => exact ⟨hplan, hbaseline⟩
  | found h => exact hof h (by decide) (by decide)
  | restored _ h => exact hof h (by decide) (by decide)
  | verified _ h => exact hof h (by decide) (by decide)
  | probed _ _ h => exact hof h (by decide) (by decide)
  | endRound now h =>
    obtain ⟨-, hplan, hbaseline, -⟩ := endRound_frame s now
    rw [hplan, hbaseline]
    exact hof h (by decide) (by decide)
  | lateWrite _ _ _ hplan hbaseline => exact ⟨hplan, hbaseline⟩
  | lateWritten _ _ h => exact hof h (by decide) (by decide)
  | close => exact absurd rfl hreleased
  | release => exact absurd rfl hreleased

/-- A write is issued for a lease that is armed or restoring. -/
theorem MayWrite.active {zone : String} {write : RouteWrite} (h : MayWrite w zone write) :
    ∃ s, w.active = some s ∧ (s.status = .armed ∨ s.status = .restoring) := by
  cases h with
  | change _ hactive _ _ hstatus => exact ⟨_, hactive, .inl hstatus⟩
  | putBack _ hactive hstatus => exact ⟨_, hactive, .inr hstatus⟩
  | remove _ hactive hstatus => exact ⟨_, hactive, .inr hstatus⟩
  | late _ hactive _ hstatus => exact ⟨_, hactive, .inr hstatus⟩

/-! ## What every run keeps -/

theorem Initial.sound (h : Initial w) : Sound w where
  stored := by rw [h.log, h.active]; rfl
  bound := fun s hs => absurd (h.active.symm.trans hs) (by simp)
  reserved := fun s hs => absurd (h.active.symm.trans hs) (by simp)

theorem Arrives.pending_ne_nil (h : Arrives w w') : w.pending ≠ [] := by
  obtain ⟨before, after, zone, write, rows, route, hpending, -, -⟩ := h
  rw [hpending]
  exact List.append_ne_nil_of_right_ne_nil _ (List.cons_ne_nil _ _)

theorem Arrives.frame (h : Arrives w w') : w'.active = w.active ∧ w'.history = w.history ∧
    w'.serving = w.serving ∧ w'.log = w.log := by
  obtain ⟨before, after, zone, write, rows, route, -, -, rfl⟩ := h
  exact ⟨rfl, rfl, rfl, rfl⟩

theorem Sound.arrives (h : Sound w) (harrives : Arrives w w') : Sound w' := by
  obtain ⟨hactive, -, -, hlog⟩ := harrives.frame
  refine ⟨by rw [hlog, hactive, h.stored], hactive ▸ h.bound, fun s hs hreserved => ?_⟩
  exact absurd (h.reserved s (hactive ▸ hs) hreserved) harrives.pending_ne_nil

theorem lastStored_store (w : World) (s : LeaseState) : lastStored (w.store s).log = some s :=
  lastStored_cons_some rfl

/-- What is on its way stays so when a state of the same lease is stored. -/
theorem pending_store (h : w.active = some s) (hscope : s'.scope = s.scope) :
    (w.store s').pending = w.pending := by
  show (if w.active.map LeaseState.scope = some s'.scope then w.pending else []) = w.pending
  rw [h, hscope]
  exact if_pos rfl

theorem Sound.move (h : Sound w) (hmove : Move w w') : Sound w' := by
  cases hmove with
  | time => exact ⟨h.stored, h.bound, h.reserved⟩
  | alarm => exact ⟨h.stored, h.bound, h.reserved⟩
  | arrive harrives => exact h.arrives harrives
  | read => exact ⟨(lastStored_cons_none rfl).trans h.stored, h.bound, h.reserved⟩
  | answered => exact ⟨(lastStored_cons_none rfl).trans h.stored, h.bound, h.reserved⟩
  | archive => exact ⟨h.stored, h.bound, h.reserved⟩
  | @reserve scope now _ hprior hunused =>
    refine ⟨lastStored_store w _, fun s hs hreserved => ?_, fun s _ _ => if_neg (fun hsame => ?_)⟩
    · obtain rfl := Option.some.inj hs
      exact absurd rfl hreserved
    · obtain ⟨prior, hprior', hscope⟩ := Option.map_eq_some_iff.mp hsame
      obtain ⟨-, lease, hlease, hfst⟩ := hprior prior hprior'
      rw [hscope] at hfst
      exact hunused lease hlease hfst
  | @store s s' hactive hnext =>
    refine ⟨lastStored_store w _, fun t ht => ?_, fun t ht hreserved => ?_⟩
    · obtain rfl := Option.some.inj ht
      exact hnext.bound (h.bound s hactive)
    · obtain rfl := Option.some.inj ht
      rw [pending_store hactive hnext.scope]
      exact h.reserved s hactive (hnext.reserved hreserved)
  | write hmay hissues =>
    obtain ⟨hactive, -, -, hlog, -⟩ := hissues.spec
    refine ⟨?_, hactive ▸ h.bound, fun s hs hreserved => ?_⟩
    · exact (lastStored_cons_none rfl).trans (by rw [hlog, h.stored, ← hactive]; rfl)
    · obtain ⟨t, ht, hstatus⟩ := hmay.active
      obtain rfl := Option.some.inj (ht.symm.trans (hactive.symm.trans hs))
      rw [hreserved] at hstatus
      obtain h | h := hstatus <;> cases h

/-- **The induction over a run**: what is kept by the beginning of every event
that is allowed and by every move is kept by every run. -/
theorem run_induction {host : Host} {allowed : World → Event → Prop} {P : World → Prop}
    (hbegin : ∀ w event, Sound w → allowed w event → P w → P (w.begin event))
    (hmove : ∀ w w', Sound w → P w → Move w w' → P w') (hrun : Run host allowed w w')
    (hsound : Sound w) (h : P w) : Sound w' ∧ P w' := by
  have hmoves : ∀ {w w'}, ReflTransGen Move w w' → Sound w → P w → Sound w' ∧ P w' := by
    intro w w' hmoves hsound h
    induction hmoves with
    | refl => exact ⟨hsound, h⟩
    | tail _ hlast ih => exact ⟨ih.1.move hlast, hmove _ _ ih.1 ih.2 hlast⟩
  induction hrun with
  | refl => exact ⟨hsound, h⟩
  | tail _ hstep ih =>
    cases hstep with
    | serve hallowed hruns =>
      obtain rfl | hserved := moves_of_serve ih.1 hruns
      · exact ih
      · exact hmoves hserved (ih.1.begin _) (hbegin _ _ ih.1 hallowed ih.2)
    | arrive harrives => exact hmoves (.single (.arrive harrives)) ih.1 ih.2

/-! ## What is said about a log -/

/-- **Throughout**: every entry that was added to a log satisfies a condition,
given the log before it. -/
inductive Throughout (P : Entry → List Entry → Prop) (old : List Entry) : List Entry → Prop
  | refl : Throughout P old old
  | cons {e : Entry} {log : List Entry} : P e log → Throughout P old log →
    Throughout P old (e :: log)

theorem Throughout.entry {P : Entry → List Entry → Prop} {old log newer older : List Entry}
    {e : Entry} (h : Throughout P old log) (hlog : log = newer ++ e :: (older ++ old)) :
    P e (older ++ old) := by
  induction h generalizing newer with
  | refl =>
    have hlength := congrArg List.length hlog
    simp only [List.length_append, List.length_cons] at hlength
    omega
  | cons he _ ih =>
    cases newer with
    | nil =>
      obtain ⟨rfl, rfl⟩ := List.cons.inj hlog
      exact he
    | cons x newer => exact ih (List.cons.inj hlog).2

/-- A move logs at most one entry, and a write is one that may be issued. -/
theorem Move.log (h : Move w w') : w'.log = w.log ∨
    ∃ act, w'.log = ⟨w.serving, act⟩ :: w.log ∧
      ∀ zone write answer, act = .wrote zone write answer → MayWrite w zone write := by
  cases h with
  | time => exact .inl rfl
  | alarm => exact .inl rfl
  | archive => exact .inl rfl
  | arrive harrives => exact .inl harrives.frame.2.2.2
  | read => exact .inr ⟨_, rfl, fun _ _ _ h => nomatch h⟩
  | answered => exact .inr ⟨_, rfl, fun _ _ _ h => nomatch h⟩
  | reserve => exact .inr ⟨_, rfl, fun _ _ _ h => nomatch h⟩
  | store => exact .inr ⟨_, rfl, fun _ _ _ h => nomatch h⟩
  | @write w₁ zone write answer hmay hissues =>
    obtain ⟨-, -, hserving, hlog, -⟩ := hissues.spec
    refine .inr ⟨.wrote zone write answer, ?_, fun zone write answer heq => ?_⟩
    · rw [World.record, hserving, hlog]
    · obtain ⟨rfl, rfl, rfl⟩ := Act.wrote.inj heq
      exact hmay

end Watchdog
