import MsRealty.DocumentMoves

/-!
# The laws of tasks

What a commit makes of a task (`TaskFate`), and from it the laws of tasks: what is
recorded of one that waits, is done or is cancelled, in every run; and that its states
follow `taskMachine`. The second is a law only of the runs whose reviews of requested
documents find the task as the machine wants it: `reviewRequestedDocument` writes to the
task whatever its state is, while `changeTask` asks the machine and
`cancelDocumentRequest` leaves a task that is done.
-/

namespace CaseWork

open RowLocks

variable {a : Outcome} {d d' : WorkData} {id : Uuid} {task task' : TaskRow}

/-! ## What becomes of a task -/

/-- **What is recorded of a task**: what it waits for and until when; how it ended. -/
structure TaskRow.Recorded (task : TaskRow) : Prop where
  waiting : task.state = .waiting → truthy task.waitingOn = true ∧ task.followUpAt.isSome = true
  done : task.state = .done → truthy task.outcomeNote = true ∧ task.completedAt.isSome = true
  cancelled : task.state = .cancelled → truthy task.cancelReason = true

/-- The inquiry a call makes a task of. -/
def Outcome.inquiryOf : Outcome → Option Uuid
  | .taskCreated _ (some (.inquiry id _)) => some id
  | .inquiryAccepted id _ => some id
  | _ => none

/-- **What is asked of the case of a new task**: it is active, or it is the case of an
inquiry, of which nothing is asked. -/
def CaseAllows (a : Outcome) (d : WorkData) (caseId : Uuid) : Prop :=
  (∃ record, cases.find d caseId = some record ∧ record.disposition = .active)
    ∨ ∃ id row, a.inquiryOf = some id ∧ inquiries.find d id = some row ∧ row.caseId = some caseId

/-- **What becomes of a task** in a commit. -/
inductive TaskFate (a : Outcome) (d : WorkData) : Option TaskRow → TaskRow → Prop
  | same {task : TaskRow} : TaskFate a d (some task) task
  | new {task : TaskRow} (hrecorded : task.Recorded)
    (hcase : ∀ caseId, task.caseId = some caseId → CaseAllows a d caseId) : TaskFate a d none task
  | changed {row : TaskRow} {call : TaskCall} (hedge : taskMachine.Edge row.state call.state)
    (hguard : guardTaskTransition row.state call.state (call.evidence row) = .allowed) :
    TaskFate a d (some row) (row.changed call row)
  | handedOver {row : TaskRow} {call : HandoverCall} (hopen : row.state.isOpen = true) :
    TaskFate a d (some row) (row.handedOver call)
  | reviewed {row : TaskRow} {call : RequestReviewCall} {request : RequestRow} {record : CaseRow}
    (ha : a = .requestReviewed call.requestId call.versionId call.accepted)
    (hrequest : documentRequests.find d call.requestId = some request)
    (hrow : tasks.find d request.taskId = some row) (hcase : row.caseId = some request.caseId)
    (hrecord : cases.find d request.caseId = some record) (hactive : record.disposition = .active)
    (houtcome : call.clientOutcome ≠ "") :
    TaskFate a d (some row) (row.requestReviewed call request)
  | cancelled {row : TaskRow} {call : CancelCall} (houtcome : call.clientOutcome ≠ "") :
    TaskFate a d (some row) (row.requestCancelled call)

theorem TaskFate.of_same (hsame : tasks.find d' id = tasks.find d id)
    (h : tasks.find d' id = some task') : TaskFate a d (tasks.find d id) task' := by
  rw [← hsame, h]
  exact .same

/-- Where a task is inserted. -/
theorem TaskFate.of_insert {new : TaskRow} (hfree : tasks.find d new.id = none)
    (hrecorded : new.Recorded)
    (hcase : ∀ caseId, new.caseId = some caseId → CaseAllows a d caseId)
    (h : tasks.find (tasks.insert new d) id = some task') :
    TaskFate a d (tasks.find d id) task' := by
  rw [tasks.find_insert] at h
  split_ifs at h with hid
  · rw [← hid, hfree, ← Option.some.inj h]
    exact .new hrecorded hcase
  · rw [h]
    exact .same

/-- Where a task is changed. -/
theorem TaskFate.of_change {k : Uuid} {change : Change TaskRow.id} {row : TaskRow}
    (hrow : tasks.find d k = some row) (hfate : TaskFate a d (some row) (change.apply row))
    (h : tasks.find (tasks.change k change d) id = some task') :
    TaskFate a d (tasks.find d id) task' := by
  by_cases hid : id = k
  · subst hid
    rw [TableIn.find_change_self change hrow] at h
    rw [hrow, ← Option.some.inj h]
    exact hfate
  · rw [TableIn.find_change_of_ne change d hid] at h
    rw [h]
    exact .same

theorem TaskRow.Recorded.of_open (h : task.state = .open_) : task.Recorded :=
  ⟨fun hstate => absurd (h.symm.trans hstate) (by decide),
    fun hstate => absurd (h.symm.trans hstate) (by decide),
    fun hstate => absurd (h.symm.trans hstate) (by decide)⟩

theorem RequestCall.recorded_task (call : RequestCall) (record : CaseRow) (policy : PolicyAnswer) :
    (call.task record policy).Recorded :=
  ⟨fun _ => ⟨rfl, rfl⟩, fun hstate => (nomatch hstate), fun hstate => (nomatch hstate)⟩

/-- **Every commit makes of a task one of these.** -/
theorem Move.taskFate (hd : Linked d) (h : Move a d d') (htask : tasks.find d' id = some task') :
    TaskFate a d (tasks.find d id) task' := by
  cases h with
  | disposed _ _ _ _ => exact .of_same rfl htask
  | taskCreated hfree hstate hcase =>
    exact .of_insert hfree (.of_open hstate)
      (fun caseId hof => absurd (hcase.symm.trans hof) (by simp)) htask
  | taskOfCase hrow hactive hfree hstate hcase _ =>
    refine .of_insert hfree (.of_open hstate) (fun caseId hof => .inl ⟨_, ?_, hactive⟩) htask
    rw [← Option.some.inj (hcase.symm.trans hof)]
    exact hrow
  | taskOfInquiry hrow hfree hstate hcase =>
    exact .of_insert hfree (.of_open hstate)
      (fun caseId hof => .inr ⟨_, _, rfl, hrow, hcase.symm.trans hof⟩) htask
  | inquiryAccepted hrow hfree hstate hcase =>
    exact .of_insert hfree (.of_open hstate)
      (fun caseId hof => .inr ⟨_, _, rfl, hrow, hcase.symm.trans hof⟩) htask
  | taskChanged hrow hedge hguard => exact .of_change hrow (.changed hedge hguard) htask
  | taskHandedOver hrow hopen => exact .of_change hrow (.handedOver hopen) htask
  | @requested _ call record policy recipient _ hrow hactive _ hfree _ _ =>
    have hinserted : tasks.find (tasks.insert (call.task record policy) d) id = some task' := htask
    refine .of_insert hfree (call.recorded_task record policy) (fun caseId hof => .inl ?_) hinserted
    rw [← Option.some.inj hof, (TableIn.find_eq_some.mp hrow).2]
    exact ⟨record, hrow, hactive⟩
  | uploaded h =>
    exact .of_same (congrArg (fun table : Table Uuid TaskRow TaskRow.id => table.get? id) h.tasks)
      htask
  | reviewed _ _ _ => exact .of_same rfl htask
  | requestReviewed hrequest hrecord hactive _ _ _ houtcome =>
    obtain ⟨row, hrow, hcase⟩ := hd.task _ _ hrequest
    exact .of_change hrow (.reviewed rfl hrequest hrow hcase hrecord hactive houtcome) htask
  | requestCancelled hrequest houtcome =>
    obtain ⟨row, hrow, -⟩ := hd.task _ _ hrequest
    exact .of_change hrow (.cancelled houtcome) htask
  | fileProcessed _ _ _ => exact .of_same rfl htask

/-! ## What is recorded of a task -/

theorem truthy_some {text : String} : truthy (some text) = true ↔ text ≠ "" := by
  unfold truthy
  rw [Option.any_some, decide_eq_true_eq]

/-- **The guard of a change** asks for what is recorded. -/
theorem TaskRow.recorded_changed {row : TaskRow} {call : TaskCall}
    (hguard : guardTaskTransition row.state call.state (call.evidence row) = .allowed) :
    (row.changed call row).Recorded := by
  have hstate : (row.changed call row).state = call.state := rfl
  refine ⟨fun h => ?_, fun h => ?_, fun h => ?_⟩
  · rw [hstate] at h
    rw [h] at hguard
    simp only [guardTaskTransition, Decision.firstDenial_eq_allowed, List.forall_mem_cons,
      Decision.need_eq_allowed] at hguard
    show truthy (if call.state = .waiting then some call.note else none) = true
      ∧ (if call.state = .waiting then call.followUpAt else _).isSome = true
    rw [if_pos h, if_pos h]
    exact ⟨hguard.1, hguard.2.1⟩
  · rw [hstate] at h
    rw [h] at hguard
    simp only [guardTaskTransition, Decision.firstDenial_eq_allowed, List.forall_mem_cons,
      Decision.need_eq_allowed] at hguard
    show truthy (if call.state = .done then some call.note else row.outcomeNote) = true
      ∧ (if call.state = .done then some call.now else row.completedAt).isSome = true
    rw [if_pos h, if_pos h]
    exact ⟨hguard.1, rfl⟩
  · rw [hstate] at h
    rw [h] at hguard
    show truthy (if call.state = .cancelled then some call.note else row.cancelReason) = true
    rw [if_pos h]
    exact Decision.need_eq_allowed.mp hguard

/-- A handover leaves the state and what is recorded of it; it may set a follow-up. -/
theorem TaskRow.recorded_handedOver {row : TaskRow} (call : HandoverCall) (h : row.Recorded) :
    (row.handedOver call).Recorded := by
  unfold TaskRow.handedOver
  split
  · exact ⟨h.waiting, h.done, h.cancelled⟩
  · exact ⟨fun hstate => ⟨(h.waiting hstate).1, rfl⟩, h.done, h.cancelled⟩
  · exact ⟨h.waiting, h.done, h.cancelled⟩
  · exact ⟨h.waiting, h.done, h.cancelled⟩

theorem TaskRow.recorded_requestReviewed {row : TaskRow} {call : RequestReviewCall}
    (request : RequestRow) (houtcome : call.clientOutcome ≠ "") :
    (row.requestReviewed call request).Recorded := by
  unfold TaskRow.requestReviewed
  split
  · exact ⟨fun hstate => (nomatch hstate), fun _ => ⟨truthy_some.mpr houtcome, rfl⟩,
      fun hstate => (nomatch hstate)⟩
  · exact ⟨fun _ => ⟨rfl, rfl⟩, fun hstate => (nomatch hstate), fun hstate => (nomatch hstate)⟩

theorem TaskRow.recorded_requestCancelled {row : TaskRow} {call : CancelCall} (h : row.Recorded)
    (houtcome : call.clientOutcome ≠ "") : (row.requestCancelled call).Recorded := by
  unfold TaskRow.requestCancelled
  split
  · exact h
  · exact ⟨fun hstate => (nomatch hstate), fun hstate => (nomatch hstate),
      fun _ => truthy_some.mpr houtcome⟩

/-- **Every task is recorded.** -/
def AllRecorded (d : WorkData) : Prop := ∀ id task, tasks.find d id = some task → task.Recorded

/-- **Every commit leaves every task recorded.** -/
theorem AllRecorded.of_move (hd : Linked d) (h : Move a d d') (hall : AllRecorded d) :
    AllRecorded d' := by
  intro id task' htask'
  have hfate := h.taskFate hd htask'
  generalize hbefore : tasks.find d id = before at hfate
  cases hfate with
  | same => exact hall id task' hbefore
  | new hrecorded _ => exact hrecorded
  | changed _ hguard => exact TaskRow.recorded_changed hguard
  | handedOver _ => exact TaskRow.recorded_handedOver _ (hall id _ hbefore)
  | reviewed _ _ _ _ _ _ houtcome => exact TaskRow.recorded_requestReviewed _ houtcome
  | cancelled houtcome => exact TaskRow.recorded_requestCancelled (hall id _ hbefore) houtcome

/-! ## The states of a task -/

/-- **A change of the states of the tasks** follows the machine. -/
def StatesFollow (d d' : WorkData) : Prop :=
  ∀ id task task', tasks.find d id = some task → tasks.find d' id = some task' →
    task'.state = task.state ∨ taskMachine.Edge task.state task'.state

/-- **What the machine wants of the task of a review**: it is open, or done and the review
accepts. -/
def Awaits (accepted : Bool) (state : TaskState) : Prop :=
  state.isOpen = true ∨ state = .done ∧ accepted = true

/-- **A review finds its task as the machine wants it.** -/
def ReviewsAwaited (a : Outcome) (d : WorkData) : Prop :=
  ∀ requestId versionId accepted request task, a = .requestReviewed requestId versionId accepted →
    documentRequests.find d requestId = some request →
    tasks.find d request.taskId = some task → Awaits accepted task.state

theorem TaskRow.state_requestReviewed (call : RequestReviewCall) (request : RequestRow)
    (row : TaskRow) : (row.requestReviewed call request).state
      = if call.accepted = true then .done else .waiting := by
  unfold TaskRow.requestReviewed
  split_ifs <;> rfl

/-- **A review follows the machine** exactly when it finds such a task. -/
theorem follows_iff_awaits {accepted : Bool} {state : TaskState} :
    (if accepted = true then .done else .waiting) = state
      ∨ taskMachine.Edge state (if accepted = true then .done else .waiting)
      ↔ Awaits accepted state := by
  unfold Awaits
  cases accepted <;> cases state <;> decide

theorem TaskRow.state_handedOver (call : HandoverCall) (row : TaskRow) :
    (row.handedOver call).state = row.state := by
  unfold TaskRow.handedOver
  split <;> rfl

/-- **A cancellation follows the machine**: a task that is done stays so. -/
theorem TaskRow.requestCancelled_follows (call : CancelCall) (row : TaskRow) :
    (row.requestCancelled call).state = row.state
      ∨ taskMachine.Edge row.state (row.requestCancelled call).state := by
  unfold TaskRow.requestCancelled
  split_ifs with hdone
  · exact .inl rfl
  · show TaskState.cancelled = row.state ∨ taskMachine.Edge row.state .cancelled
    revert hdone
    cases row.state <;> decide

/-- **A commit follows the machine** exactly when a review finds its task as the machine
wants it. -/
theorem statesFollow_iff (hd : Linked d) (h : Move a d d') :
    StatesFollow d d' ↔ ReviewsAwaited a d := by
  constructor
  · rintro hfollow requestId versionId accepted request row rfl hrequest hrow
    cases h with
    | @requestReviewed _ call _ record file documentId documentChange requestChange hrequest' =>
      obtain rfl := Option.some.inj (hrequest.symm.trans hrequest')
      have hafter := hfollow request.taskId row _ hrow (tasks.find_change_self
        ⟨TaskRow.requestReviewed call request, TaskRow.requestReviewed_id call request⟩ hrow)
      rw [TaskRow.state_requestReviewed] at hafter
      exact follows_iff_awaits.mp hafter
  · intro hmeets id row task' hrow htask'
    have hfate := h.taskFate hd htask'
    rw [hrow] at hfate
    cases hfate with
    | same => exact .inl rfl
    | changed hedge _ => exact .inr hedge
    | handedOver _ => exact .inl (TaskRow.state_handedOver _ row)
    | reviewed ha hrequest hfound _ _ _ _ =>
      rw [TaskRow.state_requestReviewed]
      exact follows_iff_awaits.mpr (hmeets _ _ _ _ _ ha hrequest hfound)
    | cancelled _ => exact row.requestCancelled_follows _

/-- **The laws of tasks**, in a run. -/
structure TaskLaws (d : WorkData) (ws : List (World WorkData Row Outcome)) : Prop where
  follow : Along (fun w w' => StatesFollow w.data w'.data) d ws
  recorded : ∀ w ∈ ws, AllRecorded w.data

/-- **The laws of tasks hold in a run** of any calls, interleaved in any order, if and only
if every review of a requested document that commits finds the task of the request open,
or done where the review accepts. -/
theorem taskLaws_iff {ws : List (World WorkData Row Outcome)} (hd : Linked d)
    (hrecorded : AllRecorded d) (hrun : Run WorkCommand d ws) :
    TaskLaws d ws
      ↔ Along (fun w w' => ∀ a, Commit w a w' → ReviewsAwaited a w.data) d ws := by
  have hsafe : ∀ p, WorkCommand p → ∀ d, Linked d → Safe work Linked Commits p id [] d :=
    fun _ hp _ hd => hp.safe hd
  have hfollow := along_moves_iff hsafe (C := ReviewsAwaited)
    (fun _ _ task task' htask htask' => .inl (by rw [Option.some.inj (htask.symm.trans htask')]))
    (fun _ _ _ hd hmove => statesFollow_iff hd hmove) hd hrun
  refine ⟨fun h => hfollow.mp h.follow, fun h => ⟨hfollow.mpr h, fun w hmem => ?_⟩⟩
  exact holds_of_reachable hsafe (fun _ _ _ hd hmove => .of_move hd hmove) hd hrecorded
    (hrun.reachable hmem)

/-! ## A second review of one request -/

/-- A case that is active. -/
def sampleCase (id : Uuid) (disposition : CaseDisposition) : CaseRow :=
  ⟨id, 1, .seller, .preparing, disposition, some "owner", none, none, none, none, none, none, none,
    none, none⟩

/-- The task of the request. -/
def sampleTask : TaskRow :=
  { TaskRow.new "task" "Identity document" .documentRequest (some "owner") (some "case") none with
    state := .waiting
    waitingOn := some "Requested recipient evidence"
    followUpAt := some 1000 }

/-- A request. -/
def sampleRequest : RequestRow :=
  ⟨"request", 1, "case", "client", "document", "grant", "task", "policy", "hash",
    ["application/pdf"], 1000, 1000, none, none, none, none⟩

/-- The version of its document that was uploaded, sealed and scanned. -/
def sampleVersion : VersionRow :=
  { VersionRow.new "version" "document" 1 "scan.pdf" "application/pdf" with
    state := .readyForReview
    sealedKey := some "sealed"
    sha256 := some "digest"
    scan := .clean
    scannedAt := some 10
    scannerVersion := some "scanner"
    scannedSha256 := some "digest" }

/-- **A request whose document is ready for a review.** -/
def sampleWork : WorkData where
  cases := ⟨[sampleCase "case" .active], by decide⟩
  inquiries := Table.empty
  tasks := ⟨[sampleTask], by decide⟩
  requests := ⟨[sampleRequest], by decide⟩
  grants := Table.empty
  documents := ⟨[⟨"document", 2, some "case", none, "client_requested", "identity",
    .caseParticipants, 1, some 1000⟩], by decide⟩
  versions := ⟨[sampleVersion], by decide⟩

/-- A member of staff who may review it. -/
def sampleAccess : FileAccess := ⟨true, "owner", false, false, some "hash", 100⟩

/-- A review of it, of some revision, and what it finds. -/
def sampleReview (revision : ℕ) (reviewType : DocumentReviewType) : RequestReviewCall :=
  ⟨sampleAccess, "request", revision, "version", revision, reviewType, "Checked.", "Thank you.",
    none, 100⟩

/-- A first review accepts the document. -/
def accepting : World WorkData Row Outcome :=
  (⟨sampleWork, []⟩ : World WorkData Row Outcome).started
    (reviewRequestedDocument (sampleReview 1 .acceptedForPurpose))

/-- It is about to commit. -/
def accepted : World WorkData Row Outcome := (List.replicate 24 0).foldl World.advance accepting

/-- After it has, a second one has questions, and is about to commit. -/
def asking : World WorkData Row Outcome :=
  (List.replicate 24 0).foldl World.advance ((accepted.advance 0).started
    (reviewRequestedDocument (sampleReview 2 .reviewedWithOpenQuestions)))

theorem linked_sampleWork : Linked sampleWork := by
  refine ⟨fun id request h => ?_, fun id request h => ?_, fun id id' request request' h h' _ => ?_⟩
  · obtain rfl := List.mem_singleton.mp (TableIn.find_eq_some.mp h).1
    exact ⟨sampleTask, rfl, rfl⟩
  · obtain rfl := List.mem_singleton.mp (TableIn.find_eq_some.mp h).1
    rfl
  · obtain ⟨hmem, rfl⟩ := TableIn.find_eq_some.mp h
    obtain ⟨hmem', rfl⟩ := TableIn.find_eq_some.mp h'
    rw [List.mem_singleton.mp hmem, List.mem_singleton.mp hmem']

theorem allRecorded_sampleWork : AllRecorded sampleWork := by
  intro id task h
  obtain rfl := List.mem_singleton.mp (TableIn.find_eq_some.mp h).1
  exact ⟨fun _ => ⟨rfl, rfl⟩, fun hstate => (nomatch hstate), fun hstate => (nomatch hstate)⟩

theorem reachable_accepted : Reachable WorkCommand sampleWork accepted :=
  ((Reachable.init _).started (.requestReview _)).schedule _

theorem reachable_asking : Reachable WorkCommand sampleWork asking :=
  ((reachable_accepted.advance 0).started (.requestReview _)).schedule _

/-- The state of the task. -/
def taskState (w : World WorkData Row Outcome) : Option TaskState :=
  (tasks.find w.data "task").map TaskRow.state

/-- **A second review of an accepted document reopens the task** that was done. -/
theorem not_taskLaws_second_review : ¬ ∀ (d : WorkData) (ws : List (World WorkData Row Outcome)),
    Linked d → AllRecorded d → Run WorkCommand d ws → TaskLaws d ws := by
  intro hlaws
  have hdone : taskState asking = some .done := by decide +kernel
  have hwaiting : taskState (asking.advance 0) = some .waiting := by decide +kernel
  have hanswer : asking.answer 0 = some (.requestReviewed "request" "version" false) := by
    decide +kernel
  obtain ⟨ws, hrun, -, hlast⟩ := exists_run reachable_asking ((commit_of_answer hanswer).step _)
  obtain ⟨row, hrow, hstate⟩ := Option.map_eq_some_iff.mp hdone
  obtain ⟨row', hrow', hstate'⟩ := Option.map_eq_some_iff.mp hwaiting
  have hfollow := hlast _ (hlaws _ ws linked_sampleWork allRecorded_sampleWork hrun).follow "task"
    row row' hrow hrow'
  rw [hstate, hstate'] at hfollow
  exact absurd hfollow (by decide)

/-- **A run in which the first review is committed**, of which the laws can be asked. -/
theorem taskLaws_iff_first_review : ∃ ws, Run WorkCommand sampleWork ws ∧ accepted.advance 0 ∈ ws
    ∧ taskState (accepted.advance 0) = some .done
    ∧ (TaskLaws sampleWork ws
      ↔ Along (fun w w' => ∀ a, Commit w a w' → ReviewsAwaited a w.data) sampleWork ws) := by
  have hdone : taskState (accepted.advance 0) = some .done := by decide +kernel
  have hanswer : accepted.answer 0 = some (.requestReviewed "request" "version" true) := by
    decide +kernel
  obtain ⟨ws, hrun, hmem, -⟩ := exists_run reachable_accepted ((commit_of_answer hanswer).step _)
  exact ⟨ws, hrun, hmem, hdone, taskLaws_iff linked_sampleWork allRecorded_sampleWork hrun⟩

end CaseWork
