import Mathlib.Data.List.Induction
import MsRealty.ProposalLaws

/-!
# Agreement over every run

Commands on the proposals, one transaction after the other, by any actors: a
revision that is agreed was reviewed, then submitted, and agreed to by every
required party, with the terms it has (`agreementSound_of_run`).
-/

namespace Proposals

open Operations Runs Submissions

variable {env : Environment} {data data' : ProposalData} {p : ProposalRow} {r r' x : Revision}

/-! ## Commands -/

/-- A command on proposals. -/
inductive Command where
  | create (raw : CreateInput)
  | revise (raw : ReviseInput)
  | transition (raw : TransitionInput)
  | decision (raw : DecisionInput)

/-- The operation type of a command. -/
def Command.type : Command → String
  | .create _ => "proposal.create"
  | .revise _ => "proposal.revise"
  | .transition _ => "proposal.transition"
  | .decision _ => "proposal.decide"

/-- What every command has. -/
def Command.envelope : Command → Envelope
  | .create raw => raw.toEnvelope
  | .revise raw => raw.toEnvelope
  | .transition raw => raw.toEnvelope
  | .decision raw => raw.toEnvelope

/-- Whether the schema of a command accepts it. -/
def Command.isValid (env : Environment) : Command → Bool
  | .create raw => (raw.parse env).isSome
  | .revise raw => (raw.parse env).isSome
  | .transition raw => (raw.parse env).isSome
  | .decision raw => (raw.parse env).isSome

/-- The kind of actor a command is for, if it is for one. -/
def Command.actorKind : Command → Option ActorKind
  | .create _ => some .staff
  | .revise _ => none
  | .transition _ => some .staff
  | .decision _ => some .client

/-- The transaction of a command. -/
def Command.run (env : Environment) (found : Findings) (context : OperationContext)
    (data : ProposalData) : Command → Tx (JsonValue × ProposalData)
  | .create raw => do
    let input ← Tx.found (raw.parse env) .other
    createProposal env input found context data
  | .revise raw => do
    let input ← Tx.found (raw.parse env) .other
    reviseProposal env input found context data
  | .transition raw => do
    let input ← Tx.found (raw.parse env) .other
    transitionProposal env input found context data
  | .decision raw => do
    let input ← Tx.found (raw.parse env) .other
    recordProposalDecision env input found context data

/-- **What a call meets** outside its tables: who calls, the issues of the schema,
what the checks before the transaction refuse, and the operation. -/
structure CallFindings extends Findings where
  actor : Actor
  issues : FieldErrors
  early : Option (Thrown JsonValue)
  locked : Bool
  operationId : Uuid
  requestHash : String

/-- **The submission of a command.** -/
def Command.submission (env : Environment) (c : Command) (found : CallFindings) :
    Submission ProposalData where
  early :=
    if !c.isValid env then
      some (.appError ⟨.validationFailed, ErrorCode.validationFailed.outcome, some found.issues,
        none⟩)
    else found.early.or (if c.actorKind.all (fun kind => found.actor.kind = kind) then none
      else some (Tx.ofCode .forbidden))
  call :=
    { input :=
        { actor := found.actor
          type := c.type
          idempotencyKey := c.envelope.operationId
          requestHash := found.requestHash
          expectedVersion := some c.envelope.expectedVersion
          subject := none
          butlerAuthorization := false }
      fn := fun context data => Tx.effect (c.run env found.toFindings context data)
      butlerCheck := fun _ _ => .error .other
      locked := found.locked
      freshId := found.operationId
      now := found.now 8 }

/-- A submission of a command on proposals. -/
def IsCommand (env : Environment) (s : Submission ProposalData) : Prop :=
  ∃ c found, s = Command.submission env c found

/-- A moment of the commands on proposals. -/
abbrev ProposalMoment := Moment (Db ProposalData) (Submission ProposalData) (Answer JsonValue)

/-! ## One step -/

/-- **What a command that succeeds does**: one of the four. -/
inductive Did (env : Environment) (data data' : ProposalData) : Command → Prop
  | created {raw p r} (h : Creates env data data' p r) : Did env data data' (.create raw)
  | revised {raw p r r' next} (hid : p.id = raw.id) (h : Revises env data data' p r r' next) :
    Did env data data' (.revise raw)
  | moved {raw input p r r'} (hparse : TransitionInput.parse env raw = some input)
    (h : Transitions data data' input p r r') : Did env data data' (.transition raw)
  | decided {raw p r r'} (h : Decides data data' p r r') : Did env data data' (.decision raw)

theorem ReviseInput.id_of_parse {raw input : ReviseInput} (h : raw.parse env = some input) :
    input.id = raw.id := by
  unfold ReviseInput.parse at h
  split_ifs at h
  obtain ⟨_, -, rfl⟩ := Option.map_eq_some_iff.mp h
  rfl

theorem did_of_run {c : Command} {found : Findings} {context : OperationContext}
    {value : JsonValue} (h : c.run env found context data = .ok (value, data')) :
    Did env data data' c := by
  cases c with
  | create raw =>
    obtain ⟨input, -, h⟩ := Tx.found_bind.mp h
    obtain ⟨p, r, hcreates⟩ := createProposal_eq_ok h
    exact .created hcreates
  | revise raw =>
    obtain ⟨input, hparse, h⟩ := Tx.found_bind.mp h
    obtain ⟨p, r, r', next, hid, hrevises⟩ := reviseProposal_eq_ok h
    exact .revised (hid.trans (ReviseInput.id_of_parse hparse)) hrevises
  | transition raw =>
    obtain ⟨input, hparse, h⟩ := Tx.found_bind.mp h
    obtain ⟨p, r, r', -, htransitions⟩ := transitionProposal_eq_ok h
    exact .moved hparse htransitions
  | decision raw =>
    obtain ⟨input, -, h⟩ := Tx.found_bind.mp h
    obtain ⟨p, r, r', -, hdecides⟩ := recordProposalDecision_eq_ok h
    exact .decided hdecides

variable (env) in
/-- **A submission leaves the data, or its command was done**, by an actor of its
kind. -/
theorem submit_did (db : Db ProposalData) (c : Command) (found : CallFindings) :
    (submit db (c.submission env found)).fst.data = db.data ∨
      (Did env db.data (submit db (c.submission env found)).fst.data c ∧
        ∀ kind, c.actorKind = some kind → found.actor.kind = kind) := by
  obtain ⟨hdata, -⟩ | ⟨⟨value, hfn⟩, hearly, -⟩ := submit_cases db (c.submission env found)
  · exact .inl hdata
  · obtain ⟨v, -, hrun⟩ := Tx.effect_returned hfn
    refine .inr ⟨did_of_run hrun, fun kind hkind => ?_⟩
    simp only [Command.submission, hkind] at hearly
    split_ifs at hearly with hvalid hactor
    · simpa using hactor
    · simp at hearly

/-! ## The invariant -/

/-- **What holds of the proposals** in every state of a run. -/
structure Sound (env : Environment) (data : ProposalData) : Prop where
  numbered : Numbered data.proposals data.revisions
  agreed : Agreed data.responses data.revisions
  digested : Digested env data.revisions
  approved : Approved data.approvals data.proposals data.revisions

theorem Decides.state_ne_draft (h : Decides data data' p r r') : r'.state ≠ .draft := by
  obtain hstate | hstate | ⟨hstate, -⟩ := h.state <;> rw [hstate] <;> decide

theorem digested_of_did {c : Command} (h : Digested env data.revisions)
    (hdid : Did env data data' c) : Digested env data'.revisions := by
  cases hdid with
  | created hcreates => exact digested_of_insert h hcreates.revisions hcreates.new
  | revised _ hrevises =>
    refine digested_of_insert (digested_of_put h (activeRevision_eq_some hrevises.active).1
      hrevises.same (fun hdraft => hrevises.closed ?_)) hrevises.revisions hrevises.new
    rw [hdraft]
    decide
  | moved _ hmoved =>
    rw [hmoved.revisions]
    exact digested_of_put h (activeRevision_eq_some hmoved.active).1 hmoved.same
      hmoved.state_ne_agreed.2
  | decided hdecides =>
    rw [hdecides.revisions]
    exact digested_of_put h (activeRevision_eq_some hdecides.active).1 hdecides.same
      hdecides.state_ne_draft

theorem sound_of_did {c : Command} (h : Sound env data) (hdid : Did env data data' c) :
    Sound env data' := by
  have hdigested := digested_of_did h.digested hdid
  cases hdid with
  | created hcreates =>
    exact ⟨numbered_of_creates h.numbered hcreates, agreed_of_creates h.agreed hcreates, hdigested,
      approved_of_creates h.approved hcreates⟩
  | revised _ hrevises =>
    exact ⟨numbered_of_revises h.numbered hrevises, agreed_of_revises h.agreed hrevises, hdigested,
      approved_of_revises h.approved h.numbered hrevises⟩
  | moved _ hmoved =>
    exact ⟨numbered_of_moves h.numbered hmoved.toMoves, agreed_of_transitions h.agreed hmoved,
      hdigested, approved_of_transitions h.approved h.numbered h.digested hmoved⟩
  | decided hdecides =>
    exact ⟨numbered_of_moves h.numbered hdecides.toMoves, agreed_of_decides h.agreed hdecides,
      hdigested, approved_of_decides h.approved h.numbered hdecides⟩

/-- **Every step keeps the proposals sound.** -/
theorem keeps_sound : Keeps submit (IsCommand env) (fun db => Sound env db.data) := by
  rintro db s ⟨c, found, rfl⟩ h
  obtain hdata | ⟨hdid, -⟩ := submit_did env db c found
  · rw [hdata]
    exact h
  · exact sound_of_did h hdid

/-! ## One revision in one step -/

theorem SameRevision.trans {a b c : Revision} (h : SameRevision a b) (h' : SameRevision b c) :
    SameRevision a c :=
  ⟨h'.id.trans h.id, h'.proposalId.trans h.proposalId, h'.revisionNumber.trans h.revisionNumber,
    h'.terms.trans h.terms, h'.termsHash.trans h.termsHash⟩

/-- **A moment is an action of staff on a revision**, as it has its terms: it was
declared reviewed, and takes an edge of the machine. -/
def Acts (env : Environment) (m : ProposalMoment) (action : TransitionAction) (r : Revision) :
    Prop :=
  ∃ raw found, m.event = Command.submission env (.transition raw) found ∧ raw.action = action ∧
    raw.revisionId = r.id ∧ raw.reviewed = true ∧ found.actor.kind = .staff ∧
    ∃ before ∈ m.before.data.revisions.rows, SameRevision before r ∧
      proposalMachine.Edge before.state action.target ∧
      ∃ after ∈ m.after.data.revisions.rows, SameRevision after r

/-- Acting on a revision is acting on any of its states. -/
theorem Acts.same {m : ProposalMoment} {action : TransitionAction} (h : Acts env m action r)
    (hsame : SameRevision r r') : Acts env m action r' := by
  obtain ⟨raw, found, hevent, haction, hid, hreviewed, hstaff, before, hbefore, hsameBefore,
    hedge, after, hafter, hsameAfter⟩ := h
  exact ⟨raw, found, hevent, haction, hid.trans hsame.id.symm, hreviewed, hstaff, before, hbefore,
    hsameBefore.trans hsame, hedge, after, hafter, hsameAfter.trans hsame⟩

/-- The states a revision has only after a review and a submission. -/
def submittedStates : List ProposalState := [.awaitingResponse, .agreedForNextStep]

/-- **What a step does to a revision** there is after it. -/
inductive Stage (env : Environment) (m : ProposalMoment) (r : Revision) : Prop
  | new (hdraft : r.state = .draft)
    (hnew : ∀ x ∈ m.before.data.revisions.rows, x.id ≠ r.id)
  | reviewed (x : Revision) (hx : x ∈ m.before.data.revisions.rows) (hsame : SameRevision x r)
    (hedge : proposalMachine.Edge x.state r.state) (hstate : r.state = .reviewed)
    (hacts : Acts env m .review r)
  | submitted (x : Revision) (hx : x ∈ m.before.data.revisions.rows) (hsame : SameRevision x r)
    (hbefore : x.state = .reviewed) (hstate : r.state = .awaitingResponse)
    (hacts : Acts env m .submit r)
  | later (x : Revision) (hx : x ∈ m.before.data.revisions.rows) (hsame : SameRevision x r)
    (hpath : Relation.ReflTransGen proposalMachine.Edge x.state r.state)
    (hreviewed : r.state = .reviewed → x.state = .reviewed)
    (hsubmitted : r.state ∈ submittedStates → x.state ∈ submittedStates)

theorem Stage.kept {m : ProposalMoment} (hr : r ∈ m.before.data.revisions.rows) :
    Stage env m r :=
  .later r hr (.refl r) .refl id id

/-- A revision is inserted, or was there. -/
theorem stage_of_insert {m : ProposalMoment} {revisions : Table Uuid Revision Revision.id}
    {proposalId : Uuid} {number : ℕ} (hnew : r.New env proposalId number)
    (hinsert : insertRevision revisions r = .ok m.after.data.revisions)
    (hids : ∀ y ∈ m.before.data.revisions.rows, ∃ z ∈ revisions.rows, z.id = y.id)
    (hold : ∀ y ∈ revisions.rows, Stage env m y) :
    ∀ y ∈ m.after.data.revisions.rows, Stage env m y := by
  intro y hy
  obtain ⟨hinsert, -⟩ := insertRevision_eq_ok hinsert
  obtain rfl | hy := (Table.mem_insert? hinsert y).mp hy
  · refine .new hnew.state (fun z hz hid => ?_)
    obtain ⟨w, hw, hwid⟩ := hids z hz
    exact Table.get?_eq_none.mp (Table.get?_of_insert? hinsert) w hw (hwid.trans hid)
  · exact hold y hy

/-- A revision is written, or left. -/
theorem stage_of_put {m : ProposalMoment} (hr : r ∈ m.before.data.revisions.rows)
    (hsame : SameRevision r r') (hstage : Stage env m r') :
    ∀ y ∈ (m.before.data.revisions.put r').rows, Stage env m y := by
  intro y hy
  obtain ⟨z, hz, -, ⟨rfl, -⟩ | ⟨-, rfl⟩⟩ := exists_before hr hsame hy
  · exact .kept hz
  · exact hstage

/-- A transition takes a stage: a review, a submission, or the end of a revision. -/
theorem stage_of_transitions {m : ProposalMoment} {raw input : TransitionInput}
    {found : CallFindings} (hevent : m.event = Command.submission env (.transition raw) found)
    (hparse : raw.parse env = some input) (hstaff : found.actor.kind = .staff)
    (h : Transitions m.before.data m.after.data input p r r') : Stage env m r' := by
  obtain ⟨hr, -, -⟩ := activeRevision_eq_some h.active
  obtain ⟨hid, haction, hreviewed⟩ : input.revisionId = raw.revisionId ∧
      input.action = raw.action ∧ input.reviewed = raw.reviewed := by
    unfold TransitionInput.parse at hparse
    dsimp only at hparse
    split_ifs at hparse
    rw [← Option.some.inj hparse]
    exact ⟨rfl, rfl, rfl⟩
  have hacts : input.reviewed = true → Acts env m input.action r' := by
    intro hinput
    refine ⟨raw, found, hevent, haction.symm, ?_, hreviewed.symm.trans hinput, hstaff, r, hr,
      h.same, h.edge, r', ?_, .refl r'⟩
    · rw [h.same.id, h.id, hid]
    · rw [h.revisions]
      exact Table.mem_put.mpr (.inl rfl)
  have hstate := h.state
  have hedge := h.edge
  have hpath := h.path
  cases hinput : input.action with
  | review =>
    rw [hinput] at hstate hedge hacts
    obtain ⟨hreview, -⟩ := h.review hinput
    refine .reviewed r hr h.same ?_ hstate (hacts hreview)
    rw [hstate]
    exact hedge
  | submit =>
    rw [hinput] at hstate hedge hacts
    obtain ⟨hreview, -⟩ := h.submit hinput
    refine .submitted r hr h.same ?_ hstate (hacts hreview)
    generalize r.state = state at hedge
    revert hedge
    cases state <;> decide
  | withdraw | expire =>
    rw [hinput] at hstate
    refine .later r hr h.same hpath (fun hr' => ?_) (fun hr' => ?_)
    · rw [hstate] at hr'
      cases hr'
    · rw [hstate] at hr'
      exact absurd hr' (by decide)

/-- **Every revision after a step** was there before, or is new. -/
theorem stage_of_did {m : ProposalMoment} {c : Command} {found : CallFindings}
    (hevent : m.event = Command.submission env c found)
    (hkind : ∀ kind, c.actorKind = some kind → found.actor.kind = kind)
    (hdid : Did env m.before.data m.after.data c) :
    ∀ y ∈ m.after.data.revisions.rows, Stage env m y := by
  cases hdid with
  | created hcreates =>
    exact stage_of_insert hcreates.new hcreates.revisions (fun y hy => ⟨y, hy, rfl⟩)
      (fun y hy => .kept hy)
  | revised _ hrevises =>
    obtain ⟨hr, -, -⟩ := activeRevision_eq_some hrevises.active
    refine stage_of_insert hrevises.new hrevises.revisions (fun y hy => ?_)
      (stage_of_put hr hrevises.same ?_)
    · obtain ⟨z, hz, hsame, -⟩ := exists_after hr hrevises.same hy
      exact ⟨z, hz, hsame.id⟩
    · refine .later _ hr hrevises.same hrevises.path (fun hstate => ?_) (fun hstate => ?_)
      · exact absurd (by rw [hstate]; decide) hrevises.closed
      · obtain hstate | hstate : _ = ProposalState.awaitingResponse ∨ _ = _ := by
          simpa [submittedStates] using hstate
        · exact absurd (by rw [hstate]; decide) hrevises.closed
        · exact absurd hstate hrevises.notAgreed
  | moved hparse hmoved =>
    obtain ⟨hr, -, -⟩ := activeRevision_eq_some hmoved.active
    rw [hmoved.revisions]
    exact stage_of_put hr hmoved.same
      (stage_of_transitions hevent hparse (hkind .staff rfl) hmoved)
  | decided hdecides =>
    obtain ⟨hr, -, -⟩ := activeRevision_eq_some hdecides.active
    rw [hdecides.revisions]
    refine stage_of_put hr hdecides.same (.later _ hr hdecides.same hdecides.path ?_ ?_)
    · intro hstate
      obtain h | h | ⟨h, -⟩ := hdecides.state <;> rw [h] at hstate <;> cases hstate
    · intro _
      rw [hdecides.awaited]
      decide

theorem stage_of_step (db : Db ProposalData) {s : Submission ProposalData}
    (hs : IsCommand env s) :
    ∀ y ∈ (submit db s).fst.data.revisions.rows, Stage env (moment submit db s) y := by
  obtain ⟨c, found, rfl⟩ := hs
  obtain hdata | ⟨hdid, hkind⟩ := submit_did env db c found
  · rw [hdata]
    exact fun y hy => .kept hy
  · exact stage_of_did (m := moment submit db (c.submission env found)) rfl hkind hdid

/-! ## Every run -/

/-- A database before any proposal. -/
def startDb (operations : OperationsTable) (audit : List OperationAudit)
    (cases : Table Uuid CaseRow CaseRow.id) : Db ProposalData :=
  ⟨operations, audit, cases, Table.empty, Table.empty, Table.empty, Table.empty⟩

variable {operations : OperationsTable} {audit : List OperationAudit}
  {cases : Table Uuid CaseRow CaseRow.id}

theorem sound_startDb : Sound env (startDb operations audit cases).data := by
  refine ⟨⟨?_, ?_, ?_, ?_⟩, ?_, ?_, ?_⟩
  all_goals exact fun _ h => (nomatch h)

/-- **A revision was reviewed**, in the terms it has. -/
def Reviewed (env : Environment) (h : List ProposalMoment) (r : Revision) : Prop :=
  ∃ m ∈ h, Acts env m .review r

/-- **A revision was reviewed, and then submitted**, in the terms it has. -/
def ReviewedAndSubmitted (env : Environment) (h : List ProposalMoment) (r : Revision) : Prop :=
  ∃ m m', [m, m'].Sublist h ∧ Acts env m .review r ∧ Acts env m' .submit r

theorem Reviewed.next {h : List ProposalMoment} (hx : Reviewed env h x) (hsame : SameRevision x r)
    (h' : List ProposalMoment) : Reviewed env (h ++ h') r := by
  obtain ⟨m, hm, hacts⟩ := hx
  exact ⟨m, List.mem_append_left _ hm, hacts.same hsame⟩

theorem ReviewedAndSubmitted.next {h : List ProposalMoment} (hx : ReviewedAndSubmitted env h x)
    (hsame : SameRevision x r) (h' : List ProposalMoment) :
    ReviewedAndSubmitted env (h ++ h') r := by
  obtain ⟨m, m', hsub, hreview, hsubmit⟩ := hx
  exact ⟨m, m', hsub.trans (List.sublist_append_left _ _), hreview.same hsame,
    hsubmit.same hsame⟩

variable {db : Db ProposalData} {es : List (Submission ProposalData)}

/-- **A revision that awaits its parties, or is agreed, was reviewed and
submitted**, from a start without revisions. -/
theorem reviewed_of_run (hstart : db.data.revisions.rows = []) (hes : ∀ s ∈ es, IsCommand env s) :
    ∀ r ∈ (final submit db es).data.revisions.rows,
      (r.state = .reviewed → Reviewed env (history submit db es) r) ∧
      (r.state ∈ submittedStates → ReviewedAndSubmitted env (history submit db es) r) := by
  -- by the length of the run: the last step has a stage of each revision
  induction es using List.reverseRecOn with
  | nil =>
    intro r hr
    rw [final_nil, hstart] at hr
    exact absurd hr List.not_mem_nil
  | append_singleton es s ih =>
    have hbefore := ih (fun s hs => hes s (List.mem_append_left _ hs))
    have hlast : moment submit (final submit db es) s ∈
        history submit db es ++ [moment submit (final submit db es) s] :=
      List.mem_append_right _ (List.mem_singleton.mpr rfl)
    intro r hr
    rw [final_append] at hr
    rw [history_append, history_cons, history_nil]
    cases stage_of_step _ (hes s (List.mem_append_right _ (List.mem_singleton.mpr rfl))) r hr with
    | new hdraft _ =>
      rw [hdraft]
      exact ⟨fun h => (nomatch h), fun h => absurd h (by decide)⟩
    | reviewed x hx hsame hedge hstate hacts =>
      rw [hstate]
      exact ⟨fun _ => ⟨_, hlast, hacts⟩, fun h => absurd h (by decide)⟩
    | submitted x hx hsame hreviewed hstate hacts =>
      rw [hstate]
      refine ⟨fun h => (nomatch h), fun _ => ?_⟩
      obtain ⟨m, hm, hreview⟩ := (hbefore x hx).1 hreviewed
      exact ⟨m, _, (List.singleton_sublist.mpr hm).append (List.Sublist.refl _),
        hreview.same hsame, hacts⟩
    | later x hx hsame hpath hreviewed hsubmitted =>
      exact ⟨fun h => ((hbefore x hx).1 (hreviewed h)).next hsame _,
        fun h => ((hbefore x hx).2 (hsubmitted h)).next hsame _⟩

/-- **Every revision takes a path of the machine**: none is lost, and a new one is
a draft. -/
structure Progresses (data data' : ProposalData) : Prop where
  kept : ∀ x ∈ data.revisions.rows, ∃ r ∈ data'.revisions.rows, r.id = x.id
  path : ∀ r ∈ data'.revisions.rows, ∀ x ∈ data.revisions.rows, r.id = x.id →
    SameRevision x r ∧ Relation.ReflTransGen proposalMachine.Edge x.state r.state
  new : ∀ r ∈ data'.revisions.rows, (∀ x ∈ data.revisions.rows, r.id ≠ x.id) → r.state = .draft

theorem kept_of_did {c : Command} (h : Did env data data' c) :
    ∀ x ∈ data.revisions.rows, ∃ r ∈ data'.revisions.rows, r.id = x.id := by
  intro x hx
  cases h with
  | created hcreates => exact ⟨x, mem_insertRevision hcreates.revisions x hx, rfl⟩
  | revised _ hrevises =>
    obtain ⟨y, hy, hsame, -⟩ := exists_after (activeRevision_eq_some hrevises.active).1
      hrevises.same hx
    exact ⟨y, mem_insertRevision hrevises.revisions y hy, hsame.id⟩
  | moved _ hmoved =>
    obtain ⟨y, hy, hsame, -⟩ := exists_after (activeRevision_eq_some hmoved.active).1
      hmoved.same hx
    exact ⟨y, hmoved.revisions ▸ hy, hsame.id⟩
  | decided hdecides =>
    obtain ⟨y, hy, hsame, -⟩ := exists_after (activeRevision_eq_some hdecides.active).1
      hdecides.same hx
    exact ⟨y, hdecides.revisions ▸ hy, hsame.id⟩

/-- The path of a stage. -/
theorem Stage.path {m : ProposalMoment} (h : Stage env m r) :
    (r.state = .draft ∧ ∀ x ∈ m.before.data.revisions.rows, x.id ≠ r.id) ∨
      ∃ x ∈ m.before.data.revisions.rows, SameRevision x r ∧
        Relation.ReflTransGen proposalMachine.Edge x.state r.state := by
  cases h with
  | new hdraft hnew => exact .inl ⟨hdraft, hnew⟩
  | reviewed x hx hsame hedge hstate _ => exact .inr ⟨x, hx, hsame, .single hedge⟩
  | submitted x hx hsame hbefore hstate _ =>
    refine .inr ⟨x, hx, hsame, ?_⟩
    rw [hbefore, hstate]
    exact (Relation.ReflTransGen.single (b := .submitted) (by decide)).tail (by decide)
  | later x hx hsame hpath _ _ => exact .inr ⟨x, hx, hsame, hpath⟩

theorem progresses_of_step (db : Db ProposalData) {s : Submission ProposalData}
    (hs : IsCommand env s) : Progresses db.data (submit db s).fst.data := by
  have hstage := stage_of_step db hs
  refine ⟨?_, fun r hr x hx hid => ?_, fun r hr hnone => ?_⟩
  · obtain ⟨c, found, rfl⟩ := hs
    obtain hdata | ⟨hdid, -⟩ := submit_did env db c found
    · rw [hdata]
      exact fun x hx => ⟨x, hx, rfl⟩
    · exact kept_of_did hdid
  · obtain ⟨-, hnew⟩ | ⟨y, hy, hsame, hpath⟩ := (hstage r hr).path
    · exact absurd hid.symm (hnew x hx)
    · rw [Table.eq_of_key hx hy (hid.symm.trans hsame.id)]
      exact ⟨hsame, hpath⟩
  · obtain ⟨hdraft, -⟩ | ⟨y, hy, hsame, -⟩ := (hstage r hr).path
    · exact hdraft
    · exact absurd hsame.id (hnone y hy)

/-- **Agreement is sound** in a state, after some moments. -/
structure AgreementSound (env : Environment) (moments : List ProposalMoment)
    (data : ProposalData) : Prop where
  /-- A party responds to a revision once. -/
  once : ∀ a ∈ data.responses.rows, ∀ b ∈ data.responses.rows, a.revisionId = b.revisionId →
    a.partyId = b.partyId → a = b
  agreed : Agreed data.responses data.revisions
  digested : ∀ r ∈ data.revisions.rows, r.termsHash = env.termsDigest r.terms
  reviewed : ∀ r ∈ data.revisions.rows, r.state = .agreedForNextStep →
    ReviewedAndSubmitted env moments r
  numbered : Numbered data.proposals data.revisions
  /-- A revision that has ended, or is not active any more, has no valid approval. -/
  ended : ∀ r ∈ data.revisions.rows, r.state = .withdrawn ∨ r.state = .expired ∨
      (∃ p ∈ data.proposals.rows, p.id = r.proposalId ∧
        r.revisionNumber < p.activeRevisionNumber) →
    ∀ approval ∈ data.approvals.rows, approval.subjectId = r.id → approval.invalidated ≠ none
  progresses : ∀ m ∈ moments, Progresses m.before.data m.after.data

/-- What has ended has no approval that is alive. -/
theorem Sound.ended (h : Sound env data) (hr : r ∈ data.revisions.rows)
    (hended : r.state = .withdrawn ∨ r.state = .expired ∨
      ∃ p ∈ data.proposals.rows, p.id = r.proposalId ∧ r.revisionNumber < p.activeRevisionNumber)
    {approval : TermsApproval} (happroval : approval ∈ data.approvals.rows)
    (hsubject : approval.subjectId = r.id) : approval.invalidated ≠ none := by
  intro hvalid
  obtain ⟨x, hx, hid, -, hwithdrawn, hexpired, q, hq, hqid, hnumber⟩ :=
    h.approved approval happroval hvalid
  obtain rfl := Table.eq_of_key hx hr (hid.trans hsubject)
  obtain hstate | hstate | ⟨p, hp, hpid, hless⟩ := hended
  · exact hwithdrawn hstate
  · exact hexpired hstate
  · obtain rfl := Table.eq_of_key hp hq (hpid.trans hqid.symm)
    exact absurd hnumber hless.ne

/-- **Agreement is sound over every run** of the commands on proposals. -/
theorem agreementSound_of_run (hes : ∀ s ∈ es, IsCommand env s) :
    AgreementSound env (history submit (startDb operations audit cases) es)
      (final submit (startDb operations audit cases) es).data := by
  have hsound : Sound env (final submit (startDb operations audit cases) es).data :=
    final_invariant keeps_sound hes sound_startDb
  refine ⟨fun a ha b hb hrevision hparty => ?_, hsound.agreed, fun r hr => (hsound.digested r hr).1,
    fun r hr hagreed => ?_, hsound.numbered, fun r hr hended approval happroval hsubject => ?_,
    fun m hm => ?_⟩
  · exact Table.eq_of_key ha hb (Prod.ext hrevision hparty)
  · refine (reviewed_of_run rfl hes r hr).2 ?_
    rw [hagreed]
    decide
  · exact hsound.ended hr hended happroval hsubject
  · rw [eq_moment_of_mem hm]
    exact progresses_of_step m.before (hes _ (event_mem hm))

/-! ## An offer that is agreed -/

/-- What the commands compute with, in the sample runs: one offer is all that is
hashed, so its terms and its parties have a digest each. -/
def sampleEnv : Environment where
  hash
    | .obj _ => "terms"
    | _ => "parties"
  sofiaInstant _ := some 1788253200000
  trim := id
  isUuid _ := true

/-- What a call of the sample runs finds: the case has one interest, of one buyer.
The database draws ids by the operation. -/
def sampleFindings (key : String) (actor : Actor) (partyId : Uuid) : CallFindings where
  access _ := none
  permission _ := none
  fresh := none
  listingRead _ := none
  principalPartyId := some partyId
  offer _ _ := .ok ⟨"interest", "listing", .sale, "published", ("owner", "Owner"),
    [⟨"buyer", "Buyer", .buyer⟩]⟩
  agreementReady _ _ := none
  now _ := 1785574800000
  reference := key
  proposalId := key
  revisionId := key
  responseId := key
  approvalId := key
  actor := actor
  issues := []
  early := none
  locked := true
  operationId := key
  requestHash := "request"

/-- The terms that are offered. -/
def sampleTerms : TermInput where
  amountMinor := 9500000
  currency := .eur
  period := .total
  paymentBasis := "cash"
  conditions := []
  inclusions := []
  deadline := "2026-09-01T12:00"

/-- A broker makes the offer. -/
def sampleCreate (key : String) (version : ℕ) : Submission ProposalData :=
  Command.submission sampleEnv
    (.create ⟨⟨"case", key, version⟩, sampleTerms, "interest", "buyer", none⟩)
    (sampleFindings key ⟨.staff, "broker"⟩ "broker")

/-- A broker acts on a revision. -/
def sampleAction (action : TransitionAction) (reason : String) (id revisionId key : String)
    (version : ℕ) : Submission ProposalData :=
  Command.submission sampleEnv (.transition ⟨⟨id, key, version⟩, revisionId, action, true, reason⟩)
    (sampleFindings key ⟨.staff, "broker"⟩ "broker")

/-- A party agrees to a revision. -/
def sampleAgree (partyId id revisionId key : String) (version : ℕ) : Submission ProposalData :=
  Command.submission sampleEnv (.decision ⟨⟨id, key, version⟩, revisionId, true, "agreed"⟩)
    (sampleFindings key ⟨.client, partyId⟩ partyId)

/-- The database before any proposal, with one case. -/
def sampleDb : Db ProposalData :=
  startDb ⟨[], List.nodup_nil, List.nodup_nil⟩ [] (Table.empty.put ⟨"case", 1, true⟩)

/-- An offer is made, reviewed, submitted, and agreed to by both parties. -/
def sampleRun : List (Submission ProposalData) :=
  [sampleCreate "operation-create" 1,
    sampleAction .review "" "operation-create" "operation-create" "operation-review" 1,
    sampleAction .submit "" "operation-create" "operation-create" "operation-submit" 2,
    sampleAgree "buyer" "operation-create" "operation-create" "operation-buyer--" 3,
    sampleAgree "owner" "operation-create" "operation-create" "operation-owner--" 4]

theorem isCommand_sampleRun : ∀ s ∈ sampleRun, IsCommand sampleEnv s := by
  simp only [sampleRun, List.forall_mem_cons]
  exact ⟨⟨_, _, rfl⟩, ⟨_, _, rfl⟩, ⟨_, _, rfl⟩, ⟨_, _, rfl⟩, ⟨_, _, rfl⟩, by simp⟩

/-- **An offer that both parties agree to** is agreed, soundly. -/
theorem agreementSound_of_sampleRun :
    AgreementSound sampleEnv (history submit sampleDb sampleRun)
      (final submit sampleDb sampleRun).data ∧
    ∃ r ∈ (final submit sampleDb sampleRun).data.revisions.rows,
      r.state = .agreedForNextStep := by
  refine ⟨agreementSound_of_run isCommand_sampleRun, ?_⟩
  decide +kernel

end Proposals
