import MsRealty.ProposalRuns

/-!
# One open proposal for an interest

Creating a proposal checks that its interest has no other that is open; revising
one does not, so that a closed proposal is opened again beside another. As long as
that does not happen, an interest has at most one (`openFor_of_run`).
-/

namespace Proposals

open Operations Runs Submissions

variable {env : Environment} {data data' : ProposalData} {p q : ProposalRow}
  {r r' next : Revision} {caseId interestId : Uuid}

/-! ## Open proposals -/

/-- Whether a proposal is open: its active revision is. -/
def ProposalData.IsOpen (data : ProposalData) (p : ProposalRow) : Prop :=
  ∃ r, data.activeRevision p = some r ∧ r.state ∈ openStates

theorem mem_openFor : p ∈ data.openFor caseId interestId ↔ p ∈ data.proposals.rows ∧
    p.caseId = caseId ∧ p.interestId = some interestId ∧ data.IsOpen p := by
  simp only [ProposalData.openFor, List.mem_filter, Bool.and_eq_true, decide_eq_true_eq,
    Option.any_eq_true, ProposalData.IsOpen, and_assoc]

/-- **A proposal is open** when any of its revisions is. -/
theorem isOpen_iff (h : Numbered data.proposals data.revisions)
    (hp : p ∈ data.proposals.rows) :
    data.IsOpen p ↔ ∃ r ∈ data.revisions.rows, r.proposalId = p.id ∧ r.state ∈ openStates := by
  constructor
  · rintro ⟨r, hactive, hopen⟩
    obtain ⟨hr, hid, -⟩ := activeRevision_eq_some hactive
    exact ⟨r, hr, hid, hopen⟩
  · rintro ⟨r, hr, hid, hopen⟩
    exact ⟨r, h.activeRevision_iff.mpr ⟨hr, hid, h.active r hr p hp hid.symm hopen⟩, hopen⟩

/-- **Every interest has at most one open proposal.** -/
def OneOpen (data : ProposalData) : Prop :=
  ∀ caseId interestId, (data.openFor caseId interestId).length ≤ 1

theorem oneOpen_iff : OneOpen data ↔ ∀ caseId interestId, ∀ p ∈ data.openFor caseId interestId,
    ∀ q ∈ data.openFor caseId interestId, p = q := by
  refine forall₂_congr (fun caseId interestId => ?_)
  have hnodup : (data.openFor caseId interestId).Nodup :=
    (List.Nodup.of_map _ data.proposals.unique).filter _
  constructor
  · intro hle p hp q hq
    obtain ⟨a, ha⟩ | hnil := (Nat.le_one_iff_eq_zero_or_eq_one.mp hle).symm.imp
      List.length_eq_one_iff.mp List.length_eq_zero_iff.mp
    · rw [ha, List.mem_singleton] at hp hq
      rw [hp, hq]
    · rw [hnil] at hp
      exact absurd hp List.not_mem_nil
  · intro heq
    match hlist : data.openFor caseId interestId with
    | [] => exact Nat.zero_le 1
    | [a] => exact le_rfl
    | a :: b :: rest =>
      rw [hlist] at heq hnodup
      obtain rfl : a = b := heq a (by simp) b (by simp)
      exact absurd (List.mem_cons_self) (List.nodup_cons.mp hnodup).1

/-! ## One step -/

/-- **A closed proposal is revised** while its interest has an open one. -/
def Reopens (env : Environment) (m : ProposalMoment) : Prop :=
  ∃ raw found, m.event = Command.submission env (.revise raw) found ∧
    ∃ p ∈ m.before.data.proposals.rows, p.id = raw.id ∧ ¬ m.before.data.IsOpen p ∧
      ∃ interestId, p.interestId = some interestId ∧
        m.before.data.openFor p.caseId interestId ≠ []

/-- A proposal that is open after its active revision is written was open. -/
theorem isOpen_of_moves (hn : Numbered data.proposals data.revisions)
    (hmoves : Moves data data' p r r') (hq : q ∈ data'.openFor caseId interestId) :
    ∃ q₀ ∈ data.openFor caseId interestId, q₀.id = q.id := by
  obtain ⟨hmem, hcase, hinterest, hopen⟩ := mem_openFor.mp hq
  obtain ⟨x, hx, hid, hstate⟩ := (isOpen_iff (numbered_of_moves hn hmoves) hmem).mp hopen
  rw [hmoves.proposals] at hmem
  rw [hmoves.revisions] at hx
  obtain ⟨q₀, hq₀, hsame, -⟩ := exists_before_bumped hmoves.proposal hmem
  obtain ⟨y, hy, hysame, hcases⟩ := exists_before (activeRevision_eq_some hmoves.active).1
    hmoves.same hx
  have hyopen : y.state ∈ openStates := by
    obtain ⟨rfl, -⟩ | ⟨rfl, -⟩ := hcases
    · exact hstate
    · exact hmoves.wasOpen
  refine ⟨q₀, mem_openFor.mpr ⟨hq₀, hsame.caseId.symm.trans hcase,
    hsame.interestId.symm.trans hinterest, (isOpen_iff hn hq₀).mpr ⟨y, hy, ?_, hyopen⟩⟩,
    hsame.id.symm⟩
  rw [← hysame.proposalId, hid, hsame.id]

/-- What is open after a revision was open, or is the proposal revised. -/
theorem isOpen_of_revises (hn : Numbered data.proposals data.revisions)
    (hrevises : Revises env data data' p r r' next) (hq : q ∈ data'.openFor caseId interestId) :
    (∃ q₀ ∈ data.openFor caseId interestId, q₀.id = q.id) ∨
      q.id = p.id ∧ p.caseId = caseId ∧ p.interestId = some interestId := by
  obtain ⟨hmem, hcase, hinterest, hopen⟩ := mem_openFor.mp hq
  obtain ⟨x, hx, hid, hstate⟩ := (isOpen_iff (numbered_of_revises hn hrevises) hmem).mp hopen
  rw [hrevises.proposals] at hmem
  obtain ⟨q₀, hq₀, hsame, hcases⟩ := exists_before_bumped hrevises.proposal hmem
  obtain ⟨rfl, -⟩ | ⟨rfl, hne⟩ := hcases
  · exact .inr ⟨hsame.id, hsame.caseId.symm.trans hcase, hsame.interestId.symm.trans hinterest⟩
  · have hother : q.id ≠ p.id := fun heq => hne (Table.eq_of_key hq₀ hrevises.proposal heq)
    obtain rfl | hx := (Table.mem_insert? (insertRevision_eq_ok hrevises.revisions).1 x).mp hx
    · exact absurd (hid.symm.trans hrevises.new.proposalId) hother
    · obtain ⟨y, hy, -, ⟨rfl, -⟩ | ⟨-, rfl⟩⟩ := exists_before
        (activeRevision_eq_some hrevises.active).1 hrevises.same hx
      · exact .inl ⟨q, mem_openFor.mpr ⟨hq₀, hcase, hinterest,
          (isOpen_iff hn hq₀).mpr ⟨x, hy, hid, hstate⟩⟩, rfl⟩
      · exact absurd hstate hrevises.closed

/-- What is open after a proposal is created was open, or is that one. -/
theorem isOpen_of_creates (hn : Numbered data.proposals data.revisions)
    (hcreates : Creates env data data' p r) (hq : q ∈ data'.openFor caseId interestId) :
    q ∈ data.openFor caseId interestId ∨
      q = p ∧ p.caseId = caseId ∧ p.interestId = some interestId := by
  obtain ⟨hmem, hcase, hinterest, hopen⟩ := mem_openFor.mp hq
  obtain ⟨x, hx, hid, hstate⟩ := (isOpen_iff (numbered_of_creates hn hcreates) hmem).mp hopen
  obtain rfl | hold := (Table.mem_insert? hcreates.proposals q).mp hmem
  · exact .inr ⟨rfl, hcase, hinterest⟩
  · obtain rfl | hx := (Table.mem_insert? (insertRevision_eq_ok hcreates.revisions).1 x).mp hx
    · refine absurd (hid.symm.trans hcreates.new.proposalId) ?_
      exact Table.get?_eq_none.mp (Table.get?_of_insert? hcreates.proposals) q hold
    · exact .inl (mem_openFor.mpr ⟨hold, hcase, hinterest,
        (isOpen_iff hn hold).mpr ⟨x, hx, hid, hstate⟩⟩)

theorem oneOpen_of_moves (h : OneOpen data) (hn : Numbered data.proposals data.revisions)
    (hmoves : Moves data data' p r r') : OneOpen data' := by
  refine oneOpen_iff.mpr (fun caseId interestId a ha b hb => ?_)
  obtain ⟨a₀, ha₀, haid⟩ := isOpen_of_moves hn hmoves ha
  obtain ⟨b₀, hb₀, hbid⟩ := isOpen_of_moves hn hmoves hb
  have heq := oneOpen_iff.mp h caseId interestId a₀ ha₀ b₀ hb₀
  refine Table.eq_of_key (mem_openFor.mp ha).1 (mem_openFor.mp hb).1 ?_
  rw [← haid, ← hbid, heq]

/-- The proposal that is revised is the only one that may have been open. -/
theorem eq_of_revises (h : OneOpen data) (hrevises : Revises env data data' p r r' next)
    (hopens : data.IsOpen p ∨ ∀ interestId, p.interestId = some interestId →
      data.openFor p.caseId interestId = []) (hcase : p.caseId = caseId)
    (hinterest : p.interestId = some interestId) (hq : q ∈ data.openFor caseId interestId) :
    q = p := by
  obtain hopen | hnone := hopens
  · exact oneOpen_iff.mp h caseId interestId q hq p
      (mem_openFor.mpr ⟨hrevises.proposal, hcase, hinterest, hopen⟩)
  · rw [← hcase, hnone interestId hinterest] at hq
    exact absurd hq List.not_mem_nil

theorem oneOpen_of_revises (h : OneOpen data) (hn : Numbered data.proposals data.revisions)
    (hrevises : Revises env data data' p r r' next)
    (hopens : data.IsOpen p ∨ ∀ interestId, p.interestId = some interestId →
      data.openFor p.caseId interestId = []) : OneOpen data' := by
  refine oneOpen_iff.mpr (fun caseId interestId a ha b hb => ?_)
  refine Table.eq_of_key (mem_openFor.mp ha).1 (mem_openFor.mp hb).1 ?_
  obtain ⟨a₀, ha₀, haid⟩ | ⟨haid, hcase, hinterest⟩ := isOpen_of_revises hn hrevises ha
  · obtain ⟨b₀, hb₀, hbid⟩ | ⟨hbid, hcase, hinterest⟩ := isOpen_of_revises hn hrevises hb
    · rw [← haid, ← hbid, oneOpen_iff.mp h caseId interestId a₀ ha₀ b₀ hb₀]
    · rw [← haid, hbid, eq_of_revises h hrevises hopens hcase hinterest ha₀]
  · obtain ⟨b₀, hb₀, hbid⟩ | ⟨hbid, -, -⟩ := isOpen_of_revises hn hrevises hb
    · rw [haid, ← hbid, eq_of_revises h hrevises hopens hcase hinterest hb₀]
    · rw [haid, hbid]

theorem oneOpen_of_creates (h : OneOpen data) (hn : Numbered data.proposals data.revisions)
    (hcreates : Creates env data data' p r) : OneOpen data' := by
  obtain ⟨i, hi, hnone⟩ := hcreates.interest
  have hfree : ∀ caseId interestId, p.caseId = caseId → p.interestId = some interestId →
      ∀ q, q ∉ data.openFor caseId interestId := by
    rintro caseId interestId rfl hinterest q hq
    obtain rfl := Option.some.inj (hi.symm.trans hinterest)
    rw [hnone] at hq
    exact absurd hq List.not_mem_nil
  refine oneOpen_iff.mpr (fun caseId interestId a ha b hb => ?_)
  obtain ha | ⟨rfl, hcase, hinterest⟩ := isOpen_of_creates hn hcreates ha
  · obtain hb | ⟨rfl, hcase, hinterest⟩ := isOpen_of_creates hn hcreates hb
    · exact oneOpen_iff.mp h caseId interestId a ha b hb
    · exact absurd ha (hfree caseId interestId hcase hinterest a)
  · obtain hb | ⟨rfl, -, -⟩ := isOpen_of_creates hn hcreates hb
    · exact absurd hb (hfree caseId interestId hcase hinterest b)
    · rfl

/-! ## Every run -/

variable {operations : OperationsTable} {audit : List OperationAudit}
  {cases : Table Uuid CaseRow CaseRow.id} {es : List (Submission ProposalData)}

/-- One step that does not reopen a proposal keeps one open proposal. -/
theorem oneOpen_of_step (db : Db ProposalData) {s : Submission ProposalData}
    (hs : IsCommand env s) (hreopens : ¬ Reopens env (moment submit db s))
    (hn : Numbered db.data.proposals db.data.revisions) (h : OneOpen db.data) :
    OneOpen (submit db s).fst.data := by
  obtain ⟨c, found, rfl⟩ := hs
  obtain hdata | ⟨hdid, -⟩ := submit_did env db c found
  · rw [hdata]
    exact h
  · cases hdid with
    | created hcreates => exact oneOpen_of_creates h hn hcreates
    | revised hid hrevises =>
      refine oneOpen_of_revises h hn hrevises (or_iff_not_imp_left.mpr fun hclosed => ?_)
      intro interestId hinterest
      by_contra hopen
      exact hreopens ⟨_, found, rfl, _, hrevises.proposal, hid, hclosed, interestId, hinterest,
        hopen⟩
    | moved _ hmoved => exact oneOpen_of_moves h hn hmoved.toMoves
    | decided hdecides => exact oneOpen_of_moves h hn hdecides.toMoves

/-- **Every interest has at most one open proposal**, in every state of a run in
which no closed proposal is revised while its interest has an open one. -/
theorem openFor_of_run (hes : ∀ s ∈ es, IsCommand env s)
    (hreopens : ∀ m ∈ history submit (startDb operations audit cases) es, ¬ Reopens env m) :
    OneOpen (final submit (startDb operations audit cases) es).data ∧
      ∀ m ∈ history submit (startDb operations audit cases) es, OneOpen m.after.data := by
  obtain ⟨hfinal, hmoments⟩ := history_of_moments
    (P := fun db : Db ProposalData => Sound env db.data ∧ OneOpen db.data)
    (C := fun m => IsCommand env m.event ∧ ¬ Reopens env m)
    (fun db s hs h => ⟨keeps_sound db s hs.1 h.1, oneOpen_of_step db hs.1 hs.2 h.1.numbered h.2⟩)
    (fun m hm => ⟨hes _ (event_mem hm), hreopens m hm⟩)
    ⟨(sound_startDb : Sound env (startDb operations audit cases).data),
      fun _ _ => Nat.zero_le 1⟩
  exact ⟨hfinal.2, fun m hm => (hmoments m hm).2.2⟩

/-! ## A closed proposal that is revised -/

/-- A broker revises a proposal, with the terms it has. -/
def sampleRevise (id revisionId key : String) (version : ℕ) : Submission ProposalData :=
  Command.submission sampleEnv
    (.revise ⟨⟨id, key, version⟩, sampleTerms, revisionId, "buyer", none, "new terms"⟩)
    (sampleFindings key ⟨.staff, "broker"⟩ "broker")

/-- An offer is made, revised and withdrawn, and then another is made. -/
def sampleOffers : List (Submission ProposalData) :=
  [sampleCreate "operation-first-" 1,
    sampleRevise "operation-first-" "operation-first-" "operation-revise" 1,
    sampleAction .withdraw "sold" "operation-first-" "operation-revise" "operation-remove" 2,
    sampleCreate "operation-second" 2]

/-- An offer is made and withdrawn, another is made, and then the first is revised. -/
def sampleReopening : List (Submission ProposalData) :=
  [sampleCreate "operation-first-" 1,
    sampleAction .withdraw "sold" "operation-first-" "operation-first-" "operation-remove" 1,
    sampleCreate "operation-second" 2,
    sampleRevise "operation-first-" "operation-first-" "operation-revise" 2]

/-- **Offers of which the first is withdrawn**: one is open at a time. -/
theorem openFor_of_sampleOffers :
    OneOpen (final submit sampleDb sampleOffers).data ∧
      ∀ m ∈ history submit sampleDb sampleOffers, OneOpen m.after.data := by
  refine openFor_of_run (?_ : ∀ s ∈ sampleOffers, IsCommand sampleEnv s) (fun m hm => ?_)
  · simp only [sampleOffers, List.forall_mem_cons]
    exact ⟨⟨_, _, rfl⟩, ⟨_, _, rfl⟩, ⟨_, _, rfl⟩, ⟨_, _, rfl⟩, by simp⟩
  · have hopen : ∀ m ∈ history submit sampleDb sampleOffers,
        m.event.call.input.type = "proposal.revise" → ∀ p ∈ m.before.data.proposals.rows,
          (m.before.data.activeRevision p).any (fun r => r.state ∈ openStates) = true := by
      decide +kernel
    rintro ⟨raw, found, hevent, p, hp, -, hclosed, -⟩
    obtain ⟨r, hactive, hstate⟩ := (Option.any_eq_true _ _).mp
      (hopen m hm (congrArg (fun s => s.call.input.type) hevent) p hp)
    exact hclosed ⟨r, hactive, of_decide_eq_true hstate⟩

/-- **The first offer is revised** after it was withdrawn, and is open beside the
second. -/
theorem not_oneOpen_sampleReopening :
    (∀ s ∈ sampleReopening, IsCommand sampleEnv s) ∧
      ¬ OneOpen (final submit sampleDb sampleReopening).data := by
  refine ⟨?_, fun hone => ?_⟩
  · simp only [sampleReopening, List.forall_mem_cons]
    exact ⟨⟨_, _, rfl⟩, ⟨_, _, rfl⟩, ⟨_, _, rfl⟩, ⟨_, _, rfl⟩, by simp⟩
  · have htwo : ((final submit sampleDb sampleReopening).data.openFor "case" "interest").length
        = 2 := by
      decide +kernel
    have hle := hone "case" "interest"
    rw [htwo] at hle
    exact absurd hle (by decide)

end Proposals
