import MsRealty.TaskLaws

/-!
# Closed cases have no open work

A case is closed only when it has no open task, and then gets none: a task of the case
needs it to be active, and so does a review of a document that was requested for it. A
task of an inquiry is made a task of the case of the inquiry, and of that case nothing is
asked: it may be closed. So closed cases stay without open work in exactly the runs in
which no task of an inquiry is made while the case of the inquiry is closed.
-/

namespace CaseWork

open RowLocks

variable {a : Outcome} {d d' : WorkData}

/-- **Closed cases have no open task.** -/
def ClosedResolved (d : WorkData) : Prop :=
  ∀ caseId record, cases.find d caseId = some record → record.disposition = .closed →
    d.openTasks caseId = []

/-- **No task of an inquiry is made** while the case of the inquiry is closed. -/
def NotUnderClosed (a : Outcome) (d : WorkData) : Prop :=
  ∀ inquiryId inquiry caseId record, a.inquiryOf = some inquiryId →
    inquiries.find d inquiryId = some inquiry → inquiry.caseId = some caseId →
    cases.find d caseId = some record → record.disposition ≠ .closed

/-- A change of a case that leaves its disposition. -/
theorem closed_of_change {id caseId : Uuid} {change : Change CaseRow.id} {record' : CaseRow}
    (hchange : ∀ row, (change.apply row).disposition = row.disposition)
    (hrecord' : cases.find (cases.change id change d) caseId = some record')
    (hclosed : record'.disposition = .closed) :
    ∃ record, cases.find d caseId = some record ∧ record.disposition = .closed := by
  rw [cases.find_change] at hrecord'
  obtain ⟨record, hrecord, heq⟩ := Option.map_eq_some_iff.mp hrecord'
  refine ⟨record, hrecord, ?_⟩
  rw [← hclosed, ← heq]
  split_ifs
  · exact (hchange record).symm
  · rfl

/-- **A case that is closed** was closed before, or has no open task when it is. -/
theorem Move.closed {caseId : Uuid} {record' : CaseRow} (h : Move a d d')
    (hrecord' : cases.find d' caseId = some record') (hclosed : record'.disposition = .closed) :
    (∃ record, cases.find d caseId = some record ∧ record.disposition = .closed)
      ∨ (d.openTasks caseId = [] ∧ d'.tasks = d.tasks) := by
  cases h with
  | @disposed _ id row state change hrow _ hresolved hchange =>
    by_cases hid : caseId = id
    · subst hid
      rw [cases.find_change_self change hrow] at hrecord'
      rw [← Option.some.inj hrecord', hchange] at hclosed
      exact .inr ⟨hresolved hclosed, rfl⟩
    · rw [TableIn.find_change_of_ne change d hid] at hrecord'
      exact .inl ⟨record', hrecord', hclosed⟩
  | taskOfCase _ _ _ _ _ hchange => exact .inl (closed_of_change hchange hrecord' hclosed)
  | requested _ _ _ _ _ hchange => exact .inl (closed_of_change hchange hrecord' hclosed)
  | uploaded h =>
    exact .inl ⟨record', (congrArg (fun table : Table Uuid CaseRow CaseRow.id => table.get? caseId)
      h.cases).symm.trans hrecord', hclosed⟩
  | _ => exact .inl ⟨record', hrecord', hclosed⟩

/-- **A task made of an inquiry** is an open task of the case of the inquiry. -/
theorem Move.opens {inquiryId caseId : Uuid} {inquiry : InquiryRow} (h : Move a d d')
    (ha : a.inquiryOf = some inquiryId) (hinquiry : inquiries.find d inquiryId = some inquiry)
    (hof : inquiry.caseId = some caseId) : d'.cases = d.cases ∧ d'.openTasks caseId ≠ [] := by
  have hinserted : ∀ {id : Uuid} {change : Change InquiryRow.id} {task : TaskRow},
      tasks.find d task.id = none → task.state = .open_ → task.caseId = some caseId →
      (inquiries.change id change (tasks.insert task d)).openTasks caseId ≠ [] := by
    intro id change task _ hstate hcase hnil
    have hclosed := openTasks_eq_nil.mp hnil task.id task (tasks.find_insert_self task d) hcase
    rw [hstate] at hclosed
    cases hclosed
  cases h with
  | taskOfInquiry hrow hfree hstate hcase =>
    obtain rfl := Option.some.inj ha
    obtain rfl := Option.some.inj (hinquiry.symm.trans hrow)
    exact ⟨rfl, hinserted hfree hstate (hcase.trans hof)⟩
  | inquiryAccepted hrow hfree hstate hcase =>
    obtain rfl := Option.some.inj ha
    obtain rfl := Option.some.inj (hinquiry.symm.trans hrow)
    exact ⟨rfl, hinserted hfree hstate (hcase.trans hof)⟩
  | _ => cases ha

/-- **Closed cases stay without open work** exactly when no task of an inquiry is made
while its case is closed. -/
theorem closedResolved_iff (hd : Linked d) (h : Move a d d') (hP : ClosedResolved d) :
    ClosedResolved d' ↔ NotUnderClosed a d := by
  constructor
  · intro hP' inquiryId inquiry caseId record ha hinquiry hof hrecord hclosed
    obtain ⟨hcases, hopen⟩ := h.opens ha hinquiry hof
    refine hopen (hP' caseId record ?_ hclosed)
    exact (congrArg (fun table : Table Uuid CaseRow CaseRow.id => table.get? caseId) hcases).trans
      hrecord
  · intro hmeets caseId record' hrecord' hclosed'
    obtain ⟨record, hrecord, hclosed⟩ | ⟨hnil, htasks⟩ := h.closed hrecord' hclosed'
    · have hnil := openTasks_eq_nil.mp (hP caseId record hrecord hclosed)
      refine openTasks_eq_nil.mpr fun id task' htask' hof => ?_
      have hfate := h.taskFate hd htask'
      generalize hbefore : tasks.find d id = before at hfate
      cases hfate with
      | same => exact hnil id task' hbefore hof
      | new _ hcase =>
        -- What is asked of the case of a new task is not so of a closed one.
        obtain ⟨active, hactive, hstate⟩ | ⟨inquiryId, inquiry, ha, hinquiry, hlinked⟩ :=
          hcase caseId hof
        · obtain rfl := Option.some.inj (hrecord.symm.trans hactive)
          exact absurd (hclosed.symm.trans hstate) (by decide)
        · exact absurd hclosed (hmeets inquiryId inquiry caseId record ha hinquiry hlinked hrecord)
      | changed hedge _ =>
        exact absurd ((hnil id _ hbefore hof).symm.trans (isOpen_of_edge hedge)) (by decide)
      | handedOver hopen =>
        rw [TaskRow.handedOver_caseId] at hof
        exact absurd ((hnil id _ hbefore hof).symm.trans hopen) (by decide)
      | reviewed _ _ _ hcase hactive hstate _ =>
        rw [TaskRow.requestReviewed_caseId, hcase] at hof
        obtain rfl := Option.some.inj hof
        obtain rfl := Option.some.inj (hrecord.symm.trans hactive)
        exact absurd (hclosed.symm.trans hstate) (by decide)
      | cancelled _ => exact TaskRow.isOpen_requestCancelled _ _
    · rw [WorkData.openTasks, htasks]
      exact hnil

/-- **Closed cases have no open task in every state of a run** of any calls, interleaved in
any order, if and only if no task of an inquiry is committed while the case of the inquiry
is closed. -/
theorem closedResolved_run_iff {ws : List (World WorkData Row Outcome)} (hd : Linked d)
    (hP : ClosedResolved d) (hrun : Run WorkCommand d ws) :
    (∀ w ∈ ws, ClosedResolved w.data)
      ↔ Along (fun w w' => ∀ a, Commit w a w' → NotUnderClosed a w.data) d ws :=
  holds_iff_along (fun _ hp _ hd => WorkCommand.safe hp hd)
    (fun _ _ _ hd hmove hP => closedResolved_iff hd hmove hP) hd hP hrun

/-! ## A task of an inquiry whose case is closed -/

/-- **An inquiry that is linked to a case.** -/
def linkedInquiry (disposition : CaseDisposition) : WorkData where
  cases := ⟨[sampleCase "case" disposition], List.nodup_singleton _⟩
  inquiries := ⟨[⟨"inquiry", 1, .linkedToCase, some "owner", none, none, some "case"⟩], by decide⟩
  tasks := Table.empty
  requests := Table.empty
  grants := Table.empty
  documents := Table.empty
  versions := Table.empty

/-- A task of the inquiry is about to be committed. -/
def taskOfInquiry (disposition : CaseDisposition) : World WorkData Row Outcome :=
  (List.replicate 8 0).foldl World.advance ((⟨linkedInquiry disposition, []⟩ : World WorkData Row
    Outcome).started (createTask ⟨true, "owner", some (.inquiry "inquiry" 1), "Call the client",
      "Ask for the documents", .call, "task"⟩))

theorem linked_linkedInquiry (disposition : CaseDisposition) : Linked (linkedInquiry disposition) :=
  ⟨fun _ _ h => (nomatch h), fun _ _ h => (nomatch h), fun _ _ _ _ h => (nomatch h)⟩

theorem closedResolved_linkedInquiry (disposition : CaseDisposition) :
    ClosedResolved (linkedInquiry disposition) :=
  fun _ _ _ _ => openTasks_eq_nil.mpr fun _ _ h => (nomatch h)

theorem reachable_taskOfInquiry (disposition : CaseDisposition) :
    Reachable WorkCommand (linkedInquiry disposition) (taskOfInquiry disposition) :=
  ((Reachable.init _).started (.createTask _)).schedule _

/-- The open tasks of the case. -/
def openTaskIds (w : World WorkData Row Outcome) : List Uuid :=
  (w.data.openTasks "case").map TaskRow.id

/-- The task is about to be committed. -/
theorem answer_taskOfInquiry :
    (taskOfInquiry .closed).answer 0 = some (.taskCreated "task" (some (.inquiry "inquiry" 1)))
      ∧ (taskOfInquiry .active).answer 0
        = some (.taskCreated "task" (some (.inquiry "inquiry" 1))) := by
  decide +kernel

/-- **A task of an inquiry opens work in a case that is closed.** -/
theorem not_closedResolved_taskOfInquiry : ¬ ∀ (d : WorkData)
    (ws : List (World WorkData Row Outcome)), Linked d → ClosedResolved d → Run WorkCommand d ws →
    ∀ w ∈ ws, ClosedResolved w.data := by
  intro hlaw
  have hopen : openTaskIds ((taskOfInquiry .closed).advance 0) = ["task"] := by decide +kernel
  obtain ⟨ws, hrun, hmem, -⟩ := exists_run (reachable_taskOfInquiry .closed)
    ((commit_of_answer answer_taskOfInquiry.1).step _)
  have hresolved := hlaw _ ws (linked_linkedInquiry .closed) (closedResolved_linkedInquiry .closed)
    hrun _ hmem
  have hcase : (cases.find ((taskOfInquiry .closed).advance 0).data "case").map CaseRow.disposition
      = some .closed := by decide +kernel
  obtain ⟨record, hrecord, hclosed⟩ := Option.map_eq_some_iff.mp hcase
  rw [openTaskIds, hresolved "case" record hrecord hclosed] at hopen
  cases hopen

/-- **A run in which a task of an inquiry is committed** under a case that is active. -/
theorem closedResolved_run_iff_active : ∃ ws, Run WorkCommand (linkedInquiry .active) ws
    ∧ (taskOfInquiry .active).advance 0 ∈ ws
    ∧ openTaskIds ((taskOfInquiry .active).advance 0) = ["task"]
    ∧ ((∀ w ∈ ws, ClosedResolved w.data)
      ↔ Along (fun w w' => ∀ a, Commit w a w' → NotUnderClosed a w.data) (linkedInquiry .active)
        ws) := by
  have hopen : openTaskIds ((taskOfInquiry .active).advance 0) = ["task"] := by decide +kernel
  obtain ⟨ws, hrun, hmem, -⟩ := exists_run (reachable_taskOfInquiry .active)
    ((commit_of_answer answer_taskOfInquiry.2).step _)
  exact ⟨ws, hrun, hmem, hopen, closedResolved_run_iff (linked_linkedInquiry .active)
    (closedResolved_linkedInquiry .active) hrun⟩

end CaseWork
