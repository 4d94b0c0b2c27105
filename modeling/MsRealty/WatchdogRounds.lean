import MsRealty.WatchdogWrites

/-!
# What a round of the watchdog shows

A lease is called restored only at the end of a round in which every zone was
read as it was, after all of the round's writes; and a bound lease is released
only when a request has read its zones as they were, or as a rehearsal that is
closed (`ends_evidenced`).
-/

namespace Watchdog

variable {w w' : World} {s s' : LeaseState} {log : List Entry} {e : Entry}

/-! ## The evidence of a round -/

/-- **A zone was read as it was**, and nothing was written since. -/
def ReadAsWas (log : List Entry) (zone : Zone) : Prop :=
  ∃ e ∈ log.takeWhile (fun e => !e.isWrite), ∃ rows,
    e.act = .read zone.id (some rows) ∧ sameRows rows zone.routes = true

/-- **The evidence for a state**: routes are only restored before zones are
verified, and each zone that was verified in a round without failures was read
as it was. -/
structure Evidence (log : List Entry) (s : LeaseState) : Prop where
  fresh : s.status = .reserved ∨ s.status = .armed → s.verifyIndex = 0
  settled : s.status = .restoring → s.verifyIndex ≠ 0 → s.current = none
  zones : s.status = .restoring → s.roundFailed = false → ∀ baseline, s.baseline = some baseline →
    ∀ zone ∈ baseline.take s.verifyIndex, ReadAsWas log zone

/-- Nothing is verified yet. -/
theorem Evidence.start (h : s.verifyIndex = 0) : Evidence log s where
  fresh := fun _ => h
  settled := fun _ hne => absurd h hne
  zones := fun _ _ baseline _ zone hzone => by
    rw [h] at hzone
    exact absurd hzone List.not_mem_nil

/-- A state that is in no round needs none. -/
theorem Evidence.ended (h : s.status ≠ .reserved ∧ s.status ≠ .armed ∧ s.status ≠ .restoring) :
    Evidence log s where
  fresh := fun hs => (hs.elim h.1 h.2.1).elim
  settled := fun hs => absurd hs h.2.2
  zones := fun hs => absurd hs h.2.2

/-- Evidence stays until something is written. -/
theorem Evidence.cons (h : Evidence log s) (he : e.isWrite = false) : Evidence (e :: log) s where
  fresh := h.fresh
  settled := h.settled
  zones := fun hs hround baseline hbaseline zone hzone => by
    obtain ⟨e', he', hread⟩ := h.zones hs hround baseline hbaseline zone hzone
    refine ⟨e', ?_, hread⟩
    rw [List.takeWhile_cons_of_pos (by simp [he])]
    exact List.mem_cons_of_mem _ he'

/-- While an intent is restored, no zone is verified. -/
theorem Evidence.unverified (h : Evidence log s) (hstatus : s.status = .restoring) {i : ℕ}
    {intent : Intent} (hindex : s.restoreIndex = some i) (hintent : s.intents[i]? = some intent) :
    s.verifyIndex = 0 := by
  by_contra hne
  have hnone := h.settled hstatus hne
  rw [LeaseState.current, hindex, Option.bind_some, hintent] at hnone
  cases hnone

theorem Next.evidence (h : Next w s s') (hs : Evidence w.log s) : Evidence w.log s' := by
  cases h with
  | journal => exact ⟨hs.fresh, hs.settled, hs.zones⟩
  | bind _ _ _ _ _ h => exact .start (hs.fresh (.inl h))
  | rehearse _ _ _ h => exact .start (hs.fresh (.inl h))
  | intend h => exact .start (hs.fresh (.inr h))
  | acknowledge h => exact .start (hs.fresh (.inr h))
  | fail h => exact .start (hs.fresh (.inr h))
  | startRound => exact .start rfl
  | found h _ hindex hintent => exact .start (hs.unverified h hindex hintent)
  | restored _ h hindex hintent => exact .start (hs.unverified h hindex hintent)
  | @verified baseline zone failed h hcurrent hbaseline hzone hread =>
    refine ⟨fun hfresh => ?_, fun _ _ => hcurrent, fun _ hround baseline' hbaseline' z hz => ?_⟩
    · obtain hfresh | hfresh := hfresh
      · cases h.symm.trans hfresh
      · cases h.symm.trans hfresh
    · obtain ⟨hround, hfailed⟩ := Bool.or_eq_false_iff.mp hround
      obtain rfl := Option.some.inj (hbaseline'.symm.trans hbaseline)
      have hsplit : z ∈ baseline'.take (s.verifyIndex + 1) := hz
      rw [List.take_add_one, hzone] at hsplit
      obtain hz | hz := List.mem_append.mp hsplit
      · exact hs.zones h hround baseline' hbaseline z hz
      · obtain rfl := List.mem_singleton.mp hz
        obtain ⟨e, rest, rows, hlog, hact, hsame⟩ := hread hfailed
        refine ⟨e, ?_, rows, hact, hsame⟩
        rw [hlog, List.takeWhile_cons_of_pos (by simp [Entry.isWrite, hact])]
        exact List.mem_cons_self
  | probed _ _ h hcurrent =>
    exact ⟨hs.fresh, hs.settled, fun h hround => hs.zones h (Bool.or_eq_false_iff.mp hround).1⟩
  | endRound now =>
    refine .ended ?_
    rw [endRound_status]
    split_ifs <;> decide
  | lateWrite => exact .start rfl
  | @lateWritten intent id _ hstatus hintents =>
    refine ⟨hs.fresh, fun h hne => ?_, hs.zones⟩
    have hnone := hs.settled h hne
    rw [LeaseState.current, hintents] at hnone
    rw [LeaseState.current]
    cases hindex : s.restoreIndex with
    | none => rfl
    | some i =>
      rw [hindex] at hnone
      cases i with
      | zero => cases hnone
      | succ i => rfl
  | _ => exact .ended (by simp)

/-- The active lease has the evidence for its state. -/
def Shown (w : World) : Prop := ∀ s, w.active = some s → Evidence w.log s

/-- A write is issued while no zone is verified. -/
theorem MayWrite.verifyIndex {zone : String} {write : RouteWrite} (h : MayWrite w zone write)
    (hw : Shown w) : ∃ s, w.active = some s ∧ s.verifyIndex = 0 := by
  cases h with
  | change _ hactive _ _ hstatus => exact ⟨_, hactive, (hw _ hactive).fresh (.inr hstatus)⟩
  | putBack _ hactive hstatus _ hindex hintent =>
    exact ⟨_, hactive, (hw _ hactive).unverified hstatus hindex hintent⟩
  | remove _ hactive hstatus _ _ hindex hintent =>
    exact ⟨_, hactive, (hw _ hactive).unverified hstatus hindex hintent⟩
  | late _ hactive _ _ hverify => exact ⟨_, hactive, hverify⟩

theorem Shown.move (h : Shown w) (hmove : Move w w') : Shown w' := by
  cases hmove with
  | arrive harrives =>
    rw [Shown, harrives.frame.1, harrives.frame.2.2.2]
    exact h
  | read => exact fun s hs => (h s hs).cons rfl
  | answered => exact fun s hs => (h s hs).cons rfl
  | reserve =>
    intro s hs
    obtain rfl := Option.some.inj hs
    exact .start rfl
  | @store s s' hactive hnext =>
    intro t ht
    obtain rfl := Option.some.inj ht
    exact (hnext.evidence (h s hactive)).cons rfl
  | write hmay hissues =>
    intro s hs
    obtain ⟨t, ht, hverify⟩ := hmay.verifyIndex h
    obtain rfl := Option.some.inj (ht.symm.trans (hissues.spec.1.symm.trans hs))
    exact .start hverify
  | _ => exact h

/-! ## The end of a lease -/

/-- **How a lease becomes restored or released**, by the state an entry stores. -/
def EndEvidenced (e : Entry) (log : List Entry) : Prop :=
  ∀ s s', lastStored log = some s → e.state? = some s' → s'.status ≠ s.status →
    (s'.status = .restored → ∀ baseline, s'.baseline = some baseline →
      ∀ zone ∈ baseline, ReadAsWas log zone) ∧
    (s'.status = .released → s.plan = none ∨ s.baseline = none ∨ s.status = .restored ∧
      (ReadEqual log (s.baseline.getD []) ∨ s.rehearsal = true ∧
        e.during = .request (.named s.scope.operationId s.scope.leaseId .close)))

theorem Next.endEvidenced (h : Next w s s') (hs : Evidence w.log s)
    (hsound : lastStored w.log = some s) : EndEvidenced ⟨w.serving, .stored s'⟩ w.log := by
  intro t t' ht ht' hne
  obtain rfl := Option.some.inj (hsound.symm.trans ht)
  obtain rfl := Option.some.inj ht'
  cases h with
  | unbound hnone =>
    exact ⟨nofun, fun _ => hnone.elim .inl (fun h => .inr (.inl h))⟩
  | @endRound baseline now hstatus hcurrent hbaseline hzone =>
    rw [endRound_status] at hne ⊢
    obtain ⟨-, -, hframe, -⟩ := endRound_frame s now
    split_ifs with hround
    · exact ⟨nofun, nofun⟩
    · refine ⟨fun _ baseline' hbaseline' zone hmem => ?_, nofun⟩
      rw [hframe, hbaseline] at hbaseline'
      obtain rfl := Option.some.inj hbaseline'
      refine hs.zones hstatus (Bool.eq_false_iff.mpr hround) baseline hbaseline zone ?_
      rwa [List.take_of_length_le (List.getElem?_eq_none_iff.mp hzone)]
  | close hrehearsal hstatus hserving =>
    exact ⟨nofun, fun _ => .inr (.inr ⟨hstatus, .inr ⟨hrehearsal, hserving⟩⟩)⟩
  | release hstatus _ hread => exact ⟨nofun, fun _ => .inr (.inr ⟨hstatus, .inl hread⟩)⟩
  | _ => first
    | exact absurd rfl hne
    | exact ⟨nofun, nofun⟩

/-- **A lease ends on evidence**, in every run: restored when all its zones were read
as they were after the last write, released by a request that has read them again. -/
theorem ends_evidenced {host : Host} (h : Reachable host w) : Throughout EndEvidenced [] w.log := by
  obtain ⟨w₀, hinitial, hrun⟩ := h
  have hstart : Shown w₀ := fun s hs => absurd (hinitial.active.symm.trans hs) nofun
  refine (run_induction (P := fun w => Shown w ∧ Throughout EndEvidenced [] w.log)
    (fun w event _ _ h => ⟨fun s hs => (h.1 s hs).cons rfl, .cons (fun _ _ _ h => nomatch h) h.2⟩)
    (fun w w' hsound h hmove => ⟨h.1.move hmove, ?_⟩) hrun hinitial.sound
    ⟨hstart, hinitial.log ▸ .refl⟩).2.2
  have hother : ∀ {e : Entry}, e.state? = none → Throughout EndEvidenced [] (e :: w.log) :=
    fun he => .cons (fun _ _ _ h => nomatch he.symm.trans h) h.2
  cases hmove with
  | arrive harrives => exact harrives.frame.2.2.2 ▸ h.2
  | read => exact hother rfl
  | answered => exact hother rfl
  | reserve =>
    refine .cons (fun s s' _ hs' _ => ?_) h.2
    obtain rfl := Option.some.inj hs'
    exact ⟨nofun, nofun⟩
  | store hactive hnext =>
    exact .cons (hnext.endEvidenced (h.1 _ hactive) (hsound.stored.trans hactive)) h.2
  | write _ hissues =>
    show Throughout EndEvidenced [] (_ :: _)
    rw [hissues.spec.2.2.2.1]
    exact hother rfl
  | _ => exact h.2

theorem ends_evidenced_sample :
    Throughout EndEvidenced [] (sampleAfter sampleEvents sampleWorld).log :=
  ends_evidenced reachable_sample

end Watchdog
