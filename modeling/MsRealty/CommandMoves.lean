import MsRealty.CaseMoves

/-!
# The moves of the commands on cases and tasks

The moves, and that the commands on cases, inquiries and tasks end in them
(`Safe … Commits`): what each made sure of under its locks still holds when it commits.
-/

namespace CaseWork

open RowLocks

/-! ## Moves -/

/-- **What an upload leaves**: the version it adds is the next one, and the current one;
every other version of the document is superseded by it. -/
structure Uploaded (documentId versionId : Uuid) (d d' : WorkData) : Prop where
  free : documentVersions.find d versionId = none
  /-- The number of the version before, which is none for a new document. -/
  next : ∃ document', documents.find d' documentId = some document'
    ∧ document'.currentVersionNumber
      = ((documents.find d documentId).map DocumentRow.currentVersionNumber).getD 0 + 1
    ∧ ∃ fileName contentType, documentVersions.find d' versionId = some
      (.new versionId documentId document'.currentVersionNumber fileName contentType)
  others : ∀ id, id ≠ documentId → documents.find d' id = documents.find d id
  versions : ∀ id, id ≠ versionId → documentVersions.find d' id
    = (documentVersions.find d id).map
      (fun file => if file.documentId = documentId then file.superseded versionId else file)
  tasks : d'.tasks = d.tasks
  cases : d'.cases = d.cases

/-- **The moves**: what is so when a call is committed, and what it writes then. -/
inductive Move : Outcome → WorkData → WorkData → Prop
  | disposed {d : WorkData} {id : Uuid} {row : CaseRow} {state : CaseDisposition}
    {change : Change CaseRow.id} (hrow : cases.find d id = some row)
    (hedge : dispositionMachine.Edge row.disposition state)
    (hresolved : state = .closed → d.openTasks id = [])
    (hchange : ∀ row, (change.apply row).disposition = state) :
    Move (.disposed id state) d (cases.change id change d)
  | taskCreated {d : WorkData} {task : TaskRow} (hfree : tasks.find d task.id = none)
    (hstate : task.state = .open_) (hcase : task.caseId = none) :
    Move (.taskCreated task.id none) d (tasks.insert task d)
  | taskOfCase {d : WorkData} {task : TaskRow} {id : Uuid} {version : ℕ} {row : CaseRow}
    {change : Change CaseRow.id} (hrow : cases.find d id = some row)
    (hactive : row.disposition = .active) (hfree : tasks.find d task.id = none)
    (hstate : task.state = .open_) (hcase : task.caseId = some id)
    (hchange : ∀ row, (change.apply row).disposition = row.disposition) :
    Move (.taskCreated task.id (some (.case_ id version))) d
      (cases.change id change (tasks.insert task d))
  | taskOfInquiry {d : WorkData} {task : TaskRow} {id : Uuid} {version : ℕ} {row : InquiryRow}
    {change : Change InquiryRow.id} (hrow : inquiries.find d id = some row)
    (hfree : tasks.find d task.id = none) (hstate : task.state = .open_)
    (hcase : task.caseId = row.caseId) :
    Move (.taskCreated task.id (some (.inquiry id version))) d
      (inquiries.change id change (tasks.insert task d))
  | inquiryAccepted {d : WorkData} {task : TaskRow} {id : Uuid} {row : InquiryRow}
    {change : Change InquiryRow.id} (hrow : inquiries.find d id = some row)
    (hfree : tasks.find d task.id = none) (hstate : task.state = .open_)
    (hcase : task.caseId = row.caseId) :
    Move (.inquiryAccepted id task.id) d (inquiries.change id change (tasks.insert task d))
  | taskChanged {d : WorkData} {call : TaskCall} {row : TaskRow}
    (hrow : tasks.find d call.id = some row) (hedge : taskMachine.Edge row.state call.state)
    (hguard : guardTaskTransition row.state call.state (call.evidence row) = .allowed) :
    Move (.taskChanged call.id call.state) d
      (tasks.change call.id ⟨TaskRow.changed call row, fun _ => rfl⟩ d)
  | taskHandedOver {d : WorkData} {call : HandoverCall} {row : TaskRow}
    (hrow : tasks.find d call.id = some row) (hopen : row.state.isOpen = true) :
    Move (.taskHandedOver call.id) d
      (tasks.change call.id ⟨TaskRow.handedOver call, TaskRow.handedOver_id call⟩ d)
  | requested {d : WorkData} {call : RequestCall} {record : CaseRow} {policy : PolicyAnswer}
    {recipient : Recipient} {change : Change CaseRow.id}
    (hrow : cases.find d call.caseId = some record) (hactive : record.disposition = .active)
    (hdocument : documents.find d call.documentId = none)
    (htask : tasks.find d call.taskId = none)
    (hrequest : documentRequests.find d call.requestId = none)
    (hchange : ∀ row, (change.apply row).disposition = row.disposition) :
    Move (.requested call.requestId) d (cases.change call.caseId change
      (documentRequests.insert (call.request record policy recipient)
        (tasks.insert (call.task record policy)
          (grants.insert (call.grant recipient) (documents.insert call.document d)))))
  | uploaded {d d' : WorkData} {documentId versionId : Uuid}
    (h : Uploaded documentId versionId d d') : Move (.uploaded documentId versionId) d d'
  | reviewed {d : WorkData} {call : ReviewCall} {file : VersionRow} {documentId : Uuid}
    {change : Change DocumentRow.id} (hfile : documentVersions.find d call.versionId = some file)
    (hreviewable : file.reviewable = true)
    (hchange : ∀ row, (change.apply row).currentVersionNumber = row.currentVersionNumber) :
    Move (.reviewed call.versionId) d (documents.change documentId change
      (documentVersions.change call.versionId ⟨VersionRow.reviewed call file, fun _ => rfl⟩ d))
  | requestReviewed {d : WorkData} {call : RequestReviewCall} {request : RequestRow}
    {record : CaseRow} {file : VersionRow} {documentId : Uuid}
    {documentChange : Change DocumentRow.id} {requestChange : Change RequestRow.id}
    (hrequest : documentRequests.find d call.requestId = some request)
    (hrecord : cases.find d request.caseId = some record) (hactive : record.disposition = .active)
    (hfile : documentVersions.find d call.versionId = some file)
    (hreviewable : file.reviewable = true)
    (hchange : ∀ row, (documentChange.apply row).currentVersionNumber = row.currentVersionNumber)
    (houtcome : call.clientOutcome ≠ "") :
    Move (.requestReviewed call.requestId call.versionId call.accepted) d
      (tasks.change request.taskId
        ⟨TaskRow.requestReviewed call request, TaskRow.requestReviewed_id call request⟩
        (documentRequests.change call.requestId requestChange
          (documents.change documentId documentChange (documentVersions.change call.versionId
            ⟨VersionRow.reviewed (call.review request) file, fun _ => rfl⟩ d))))
  | requestCancelled {d : WorkData} {call : CancelCall} {request : RequestRow}
    {requestChange : Change RequestRow.id} {grantChange : Change UploadGrantRow.id}
    (hrequest : documentRequests.find d call.requestId = some request)
    (houtcome : call.clientOutcome ≠ "") :
    Move (.requestCancelled call.requestId) d
      (tasks.change request.taskId
        ⟨TaskRow.requestCancelled call, TaskRow.requestCancelled_id call⟩
        (grants.change request.grantId grantChange
          (documentRequests.change call.requestId requestChange d)))
  | fileProcessed {d : WorkData} {call : FileCall} {file : VersionRow}
    (hfile : documentVersions.find d call.versionId = some file)
    (hfrom : file.state ≠ .superseded) (hto : call.state ≠ .superseded) :
    Move (.fileProcessed call.versionId) d
      (documentVersions.change call.versionId ⟨VersionRow.processed call, fun _ => rfl⟩ d)

/-- **A transaction may be committed as a move.** -/
abbrev Commits : Outcome → (WorkData → WorkData) → Locks Row → WorkData → Prop :=
  MayMove work Linked Move

variable {locks locks' : Locks Row} {d d' : WorkData} {writes : WorkData → WorkData}
  {F : WorkData → Prop} {β : Type} {P : β → (WorkData → WorkData) → Locks Row → WorkData → Prop}

/-- A program that only reads. -/
abbrev Reads {α : Type} (p : Statements α) : Prop := OnlyWrites (fun _ => False) (fun _ => True) p

/-- **What keeps the links, is permitted and a move may be committed.** -/
theorem commits_of_linked {a : Outcome} (hknown : Known work Linked F locks d)
    (h : ∀ x, Linked x → F x → Linked (writes x) ∧ Permits locks x (writes x)
      ∧ Move a x (writes x)) : Commits a writes locks d := by
  intro x hrely hlinked
  obtain ⟨hkept, hpermits, hmove⟩ := h x hlinked (hknown x hrely hlinked)
  exact ⟨⟨hkept, hpermits.guarantee⟩, hmove⟩

/-- **What makes no request keeps the links.** -/
theorem commits_of_known {a : Outcome} (hknown : Known work Linked F locks d)
    (h : ∀ x, Linked x → F x → NoNewRequest x (writes x) ∧ Permits locks x (writes x)
      ∧ Move a x (writes x)) : Commits a writes locks d := by
  refine commits_of_linked hknown fun x hlinked hx => ?_
  obtain ⟨hnew, hpermits, hmove⟩ := h x hlinked hx
  exact ⟨hlinked.of_persists hpermits.persists hnew, hpermits, hmove⟩

theorem NoNewRequest.refl (d : WorkData) : NoNewRequest d d := fun _ request h => ⟨request, h⟩

/-- A request that is changed was there. -/
theorem noNewRequest_change (id : Uuid) (change : Change RequestRow.id) (d : WorkData) :
    NoNewRequest d (documentRequests.change id change d) := by
  intro k request' h
  rw [TableIn.find_change] at h
  obtain ⟨request, hrequest, -⟩ := Option.map_eq_some_iff.mp h
  exact ⟨request, hrequest⟩

/-! ## Statements that are shared -/

/-- **The rule of `insertTask`**: it has a lock of the case of the task. -/
theorem Safe.insertTask {task : TaskRow} {f : Unit → Statements β}
    (hknown : Known work Linked F locks d)
    (hsame : ∀ x, tasks.find (writes x) task.id = tasks.find x task.id)
    (h : ∀ locks' d', (∀ l ∈ locks, l ∈ locks') → (Row.task task.id, Mode.update) ∈ locks' →
      (∀ caseId, task.caseId = some caseId → ∃ mode, (Row.case_ caseId, mode) ∈ locks') →
      Linked d' → Known work Linked (fun x => F x ∧ tasks.find x task.id = none) locks' d' →
      Safe work Linked P (f ()) (tasks.insert task ∘ writes) locks' d') :
    Safe work Linked P (CaseWork.insertTask task >>= f) writes locks d := by
  unfold CaseWork.insertTask
  rw [Prog.bind_assoc]
  refine Safe.insertRow locksRows_tasks hknown hsame fun d₁ hrely₁ hd₁ hknown₁ => ?_
  cases hcase : task.caseId with
  | none =>
    refine h _ d₁ (fun l hl => List.mem_cons_of_mem _ hl) List.mem_cons_self ?_ hd₁ hknown₁
    exact fun caseId hsome => absurd (hcase.symm.trans hsome) (by simp)
  | some caseId =>
    show Safe work Linked P ((locking (.case_ caseId) .share >>= fun x =>
      Prog.demand ((cases.find x caseId).isSome = true)) >>= f) _ _ _
    rw [Prog.bind_assoc]
    refine Safe.locking fun d₂ hrely₂ hd₂ => Safe.demand fun _ => ?_
    refine h _ d₂ (fun l hl => List.mem_cons_of_mem _ (List.mem_cons_of_mem _ hl))
      (List.mem_cons_of_mem _ List.mem_cons_self) (fun caseId' hsome => ⟨.share, ?_⟩) hd₂
      (hknown₁.mono (fun l hl => List.mem_cons_of_mem _ hl) hrely₂)
    obtain rfl := Option.some.inj (hcase.symm.trans hsome)
    exact List.mem_cons_self

/-- **The rule of a row that is locked at its version, and changed.** -/
theorem Safe.bump {ρ : Type} {key : ρ → Uuid} {table : TableIn WorkData Row key} {k : Uuid}
    {versionOf : ρ → ℕ} {version : ℕ} {change : Change key} {f : Unit → Statements β}
    (htable : LocksRows work table) (hknown : Known work Linked F locks d)
    (hsame : ∀ x, table.find (writes x) k = table.find x k)
    (h : ∀ locks' d', (∀ l ∈ locks, l ∈ locks') → (table.lock k, Mode.update) ∈ locks' →
      Linked d' → Known work Linked F locks' d' →
      Safe work Linked P (f ()) (table.change k change ∘ writes) locks' d') :
    Safe work Linked P ((do
      let row ← lockRow table k
      Prog.demand (versionOf row = version)
      updateRow table k change) >>= f) writes locks d := by
  rw [Prog.bind_assoc]
  refine Safe.lockRow htable hknown hsame fun row d₁ _ hd₁ _ hknown₁ => ?_
  rw [Prog.bind_assoc]
  refine Safe.demand fun _ => Safe.updateRow hknown₁ fun d₂ _ hd₂ hknown₂ => ?_
  exact h _ d₂ (fun l hl => List.mem_cons_of_mem _ (List.mem_cons_of_mem _ hl))
    List.mem_cons_self hd₂ fun x hrely hx => (hknown₂ x hrely hx).1

/-! ## Dispositions -/

/-- **A case without open tasks.** -/
theorem openTasks_eq_nil {caseId : Uuid} : d.openTasks caseId = []
    ↔ ∀ id task, tasks.find d id = some task → task.caseId = some caseId →
      task.state.isOpen = false := by
  rw [WorkData.openTasks, List.filter_eq_nil_iff]
  constructor
  · intro h id task htask hof
    have hno := h task (TableIn.find_eq_some.mp htask).1
    rw [decide_eq_true hof, Bool.true_and] at hno
    exact Bool.eq_false_iff.mpr hno
  · intro h task hmem hboth
    obtain ⟨hof, hopen⟩ := Bool.and_eq_true_iff.mp hboth
    rw [h task.id task (tasks.find_of_mem hmem) (of_decide_eq_true hof)] at hopen
    cases hopen

/-- No task becomes open. -/
theorem NoNewOpen.openTasks {caseId : Uuid} (h : NoNewOpen caseId d d')
    (hnil : d.openTasks caseId = []) : d'.openTasks caseId = [] := by
  refine openTasks_eq_nil.mpr fun id task' htask hof => Bool.eq_false_iff.mpr fun hopen => ?_
  obtain ⟨task, hfound, hcase, hwas⟩ := h id task' htask hof hopen
  rw [openTasks_eq_nil.mp hnil id task hfound hcase] at hwas
  cases hwas

/-- **The rule of `assertResolved`**: while the case is locked, it gets no open task. -/
theorem Safe.assertResolved {caseId : Uuid} {others : Bool}
    {f : List (Uuid × String) → Statements β}
    (hlock : (Row.case_ caseId, Mode.update) ∈ locks)
    (hknown : Known work Linked F locks d)
    (h : ∀ resolved locks' d', (∀ l ∈ locks, l ∈ locks') → Linked d' →
      Known work Linked (fun x => F x ∧ x.openTasks caseId = []) locks' d' →
      Safe work Linked P (f resolved) id locks' d') :
    Safe work Linked P (CaseWork.assertResolved caseId others >>= f) id locks d := by
  unfold CaseWork.assertResolved
  rw [Prog.bind_assoc]
  refine Safe.reading fun d₁ hrely₁ hd₁ => ?_
  rw [Prog.bind_assoc]
  refine OnlyWrites.lockingAll.safe_reads hd₁ fun _ locks₂ d₂ _ hsub hrely₂ hd₂ => ?_
  rw [Prog.bind_assoc]
  refine Safe.reading fun d₃ hrely₃ hd₃ => ?_
  rw [Prog.bind_assoc]
  refine Safe.demand fun hresolved => ?_
  rw [Prog.bind_assoc]
  refine Safe.reading fun d₄ hrely₄ hd₄ => ?_
  have hknown₃ : Known work Linked F locks₂ d₃ :=
    ((hknown.rely hrely₁).mono hsub hrely₂).rely hrely₃
  refine h _ locks₂ d₄ hsub hd₄ ((hknown₃.learn hresolved.1 ?_).rely hrely₄)
  exact fun x hrely _ _ hnil => ((hrely.2 _ (hsub _ hlock)).2 rfl).openTasks hnil

theorem DispositionCall.patch_disposition (call : DispositionCall)
    (resolved : List (Uuid × String)) (row : CaseRow) :
    (call.patch resolved row).disposition = call.state := by
  unfold DispositionCall.patch
  cases call.state <;> rfl

/-- **`changeCaseDisposition` commits a move**: a case that is closed has no open task
then. -/
theorem safe_changeCaseDisposition (call : DispositionCall) :
    Safe work Linked Commits (changeCaseDisposition call) id [] d := by
  refine Safe.demand fun _ => ?_
  refine Safe.lockRow locksRows_cases (.start [] d) (fun _ => rfl)
    fun row d₁ _ hd₁ _ hknown₁ => ?_
  refine Safe.demand fun _ => Safe.demand fun hedge => ?_
  -- What is left to do once the tasks are resolved, if they have to be.
  have hrest : ∀ resolved locks' d', (Row.case_ call.id, Mode.update) ∈ locks' → Linked d' →
      Known work Linked (fun x => cases.find x call.id = some row
        ∧ (call.state = .closed → x.openTasks call.id = [])) locks' d' →
      Safe work Linked Commits (do
        Prog.demand (guardDisposition row.disposition call.state (call.evidence resolved) .staff
          = .allowed)
        Prog.demand (call.admits row = true)
        CaseWork.bumpCase call.id row.version (call.patch resolved)
        pure (.disposed call.id call.state)) id locks' d' := by
    intro resolved locks' d' _ _ hknown
    refine Safe.demand fun _ => Safe.demand fun _ => ?_
    refine Safe.bump locksRows_cases hknown (fun _ => rfl) fun locks₂ d₂ _ hlock₂ _ hknown₂ => ?_
    refine commits_of_known hknown₂ fun x _ ⟨hrow, hresolved⟩ =>
      ⟨.refl x, permits_change_case hlock₂ x, .disposed hrow hedge hresolved fun row => ?_⟩
    exact call.patch_disposition resolved row
  by_cases hclosed : call.state = .closed
  · rw [if_pos hclosed]
    refine Safe.assertResolved List.mem_cons_self hknown₁ fun resolved locks₂ d₂ hsub hd₂ hknown₂ =>
      hrest resolved locks₂ d₂ (hsub _ List.mem_cons_self) hd₂ fun x hrely hx => ?_
    obtain ⟨⟨-, hrow⟩, hnil⟩ := hknown₂ x hrely hx
    exact ⟨hrow, fun _ => hnil⟩
  · rw [if_neg hclosed]
    refine hrest [] _ d₁ List.mem_cons_self hd₁ fun x hrely hx => ?_
    exact ⟨(hknown₁ x hrely hx).2, fun h => absurd h hclosed⟩

/-! ## New tasks -/

theorem reads_readLinkedCase (caseId : Option Uuid) : Reads (readLinkedCase caseId) := by
  cases caseId with
  | none => trivial
  | some caseId =>
    exact OnlyWrites.reading fun _ => OnlyWrites.bind (P := fun _ => True)
      (OnlyWrites.required_last fun _ _ => trivial) fun _ _ => trivial

/-- **`createTask` commits a move.** -/
theorem safe_createTask (call : CreateTaskCall) :
    Safe work Linked Commits (createTask call) id [] d := by
  refine Safe.demand fun _ => ?_
  cases hparent : call.parent with
  | none =>
    refine Safe.insertTask (.start [] d) (fun _ => rfl) fun locks₁ d₁ _ hlock hcase _ hknown => ?_
    exact commits_of_known hknown fun x _ ⟨_, hfree⟩ =>
      ⟨.refl x, permits_insert_task hlock hcase hfree, .taskCreated hfree rfl rfl⟩
  | some parent =>
    cases parent with
    | case_ id version =>
      show Safe work Linked Commits ((lockRow cases id >>= _) >>= _) _ _ _
      rw [Prog.bind_assoc]
      refine Safe.lockRow locksRows_cases (.start [] d) (fun _ => rfl)
        fun row d₁ _ hd₁ hrow hknown₁ => ?_
      have hid : row.id = id := (TableIn.find_eq_some.mp hrow).2
      rw [Prog.bind_assoc]
      refine Safe.demand fun _ => ?_
      rw [Prog.bind_assoc]
      refine Safe.demand fun hactive => ?_
      rw [Prog.bind_assoc]
      refine Safe.insertTask hknown₁ (fun _ => rfl) fun locks₂ d₂ _ hlock₂ hcase₂ _ hknown₂ => ?_
      refine Safe.bump locksRows_cases hknown₂ (fun _ => rfl) fun locks₃ d₃ hsub hlock₃ _ hknown₃ => ?_
      refine commits_of_known hknown₃ fun x _ ⟨⟨_, hfound⟩, hfree⟩ => ⟨.refl x, ?_,
        .taskOfCase hfound hactive hfree rfl (congrArg some hid) fun _ => rfl⟩
      refine (permits_insert_task (hsub _ hlock₂) (fun caseId hof => ?_) hfree).trans
        (permits_change_case hlock₃ _)
      exact (hcase₂ caseId hof).imp fun _ hmem => hsub _ hmem
    | inquiry id version =>
      show Safe work Linked Commits ((lockRow inquiries id >>= _) >>= _) _ _ _
      rw [Prog.bind_assoc]
      refine Safe.lockRow locksRows_inquiries (.start [] d) (fun _ => rfl)
        fun row d₁ _ hd₁ _ hknown₁ => ?_
      rw [Prog.bind_assoc]
      refine (reads_readLinkedCase _).safe_reads hd₁ fun _ locks₂ d₂ _ hsub₂ hrely₂ _ => ?_
      rw [Prog.bind_assoc]
      refine Safe.demand fun _ => ?_
      rw [Prog.bind_assoc]
      refine Safe.insertTask (hknown₁.mono hsub₂ hrely₂) (fun _ => rfl)
        fun locks₃ d₃ _ hlock₃ hcase₃ _ hknown₃ => ?_
      refine Safe.bump locksRows_inquiries hknown₃ (fun _ => rfl)
        fun locks₄ d₄ hsub₄ hlock₄ _ hknown₄ => ?_
      refine commits_of_known hknown₄ fun x _ ⟨⟨_, hfound⟩, hfree⟩ => ⟨.refl x, ?_,
        .taskOfInquiry hfound hfree rfl rfl⟩
      refine (permits_insert_task (hsub₄ _ hlock₃) (fun caseId hof => ?_) hfree).trans
        (permits_change_inquiry hlock₄ _)
      exact (hcase₃ caseId hof).imp fun _ hmem => hsub₄ _ hmem

/-- **`acceptInquiry` commits a move.** -/
theorem safe_acceptInquiry (call : AcceptCall) :
    Safe work Linked Commits (acceptInquiry call) id [] d := by
  refine Safe.demand fun _ => ?_
  refine Safe.lockRow locksRows_inquiries (.start [] d) (fun _ => rfl)
    fun row d₁ _ _ _ hknown₁ => ?_
  refine Safe.demand fun _ => Safe.demand fun _ => Safe.demand fun _ => Safe.demand fun _ => ?_
  refine Safe.insertTask hknown₁ (fun _ => rfl) fun locks₂ d₂ _ hlock₂ hcase₂ _ hknown₂ => ?_
  refine Safe.bump locksRows_inquiries hknown₂ (fun _ => rfl) fun locks₃ d₃ hsub hlock₃ _ hknown₃ => ?_
  refine commits_of_known hknown₃ fun x _ ⟨⟨_, hfound⟩, hfree⟩ => ⟨.refl x, ?_,
    .inquiryAccepted hfound hfree rfl rfl⟩
  refine (permits_insert_task (hsub _ hlock₂) (fun caseId hof => ?_) hfree).trans
    (permits_change_inquiry hlock₃ _)
  exact (hcase₂ caseId hof).imp fun _ hmem => hsub _ hmem

/-! ## Changes of a task -/

theorem reads_demandDependency (id : Option Uuid) : Reads (demandDependency id) := by
  cases id with
  | none => trivial
  | some id =>
    exact OnlyWrites.reading fun _ => OnlyWrites.bind (P := fun _ => True)
      (OnlyWrites.required_last fun _ _ => trivial) fun _ _ => OnlyWrites.demand_last trivial

/-- **`changeTask` commits a move**: an edge of the machine. -/
theorem safe_changeTask (call : TaskCall) :
    Safe work Linked Commits (changeTask call) id [] d := by
  refine Safe.demand fun _ => ?_
  refine Safe.lockRow locksRows_tasks (.start [] d) (fun _ => rfl)
    fun row d₁ _ hd₁ _ hknown₁ => ?_
  refine Safe.demand fun _ => Safe.demand fun hedge => Safe.demand fun _ => ?_
  refine (reads_demandDependency _).safe_reads hd₁ fun _ locks₂ d₂ _ hsub₂ hrely₂ _ => ?_
  refine Safe.demand fun hguard => Safe.demand fun _ => ?_
  refine Safe.updateRow (hknown₁.mono hsub₂ hrely₂) fun d₃ _ _ hknown₃ => ?_
  refine commits_of_known hknown₃ fun x _ ⟨_, hrow⟩ => ⟨.refl x, ?_, .taskChanged hrow hedge hguard⟩
  refine permits_change_task List.mem_cons_self (fun _ => rfl) fun task caseId htask _ _ => .inl ?_
  obtain rfl := Option.some.inj (hrow.symm.trans htask)
  exact isOpen_of_edge hedge

theorem TaskRow.handedOver_caseId (call : HandoverCall) (row : TaskRow) :
    (row.handedOver call).caseId = row.caseId := by
  unfold TaskRow.handedOver
  split <;> rfl

/-- **`handoverTask` commits a move.** -/
theorem safe_handoverTask (call : HandoverCall) :
    Safe work Linked Commits (handoverTask call) id [] d := by
  refine Safe.demand fun _ => ?_
  refine Safe.lockRow locksRows_tasks (.start [] d) (fun _ => rfl) fun row d₁ _ _ _ hknown₁ => ?_
  refine Safe.demand fun _ => Safe.demand fun hopen => Safe.demand fun _ => ?_
  refine Safe.updateRow hknown₁ fun d₂ _ _ hknown₂ => ?_
  refine commits_of_known hknown₂ fun x _ ⟨_, hrow⟩ => ⟨.refl x, ?_, .taskHandedOver hrow hopen⟩
  refine permits_change_task List.mem_cons_self (TaskRow.handedOver_caseId call)
    fun task caseId htask _ _ => .inl ?_
  obtain rfl := Option.some.inj (hrow.symm.trans htask)
  exact hopen

end CaseWork
