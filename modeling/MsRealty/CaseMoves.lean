import MsRealty.DocumentCommands

/-!
# What the commands commit

The commands on cases, tasks and documents interleave statement by statement. What may be
relied on under their locks is the discipline `work`: a locked row stays as it is; while a
case is locked for an update no task of it becomes open, and while a document is, it gets
no version.

Under this discipline every commit is a *move*, from the data committed so far
(`Move`): it says what the row locks made sure of, and what is written. The laws of the
tasks, of closed cases and of the versions of a document are laws of the moves.
-/

namespace CaseWork

open RowLocks

/-! ## Data that is linked -/

/-- **Linked data**: the task of a request is one of its case, its document is there, and
no other request has it. -/
structure Linked (d : WorkData) : Prop where
  task : ∀ id request, documentRequests.find d id = some request →
    ∃ task, tasks.find d request.taskId = some task ∧ task.caseId = some request.caseId
  document : ∀ id request, documentRequests.find d id = some request →
    (documents.find d request.documentId).isSome = true
  one : ∀ id id' request request', documentRequests.find d id = some request →
    documentRequests.find d id' = some request' → request.documentId = request'.documentId →
    id = id'

/-- What a request refers to. -/
def RequestRow.links (request : RequestRow) : Uuid × Uuid × Uuid :=
  (request.caseId, request.documentId, request.taskId)

/-- **What every commit keeps**: rows stay, with what they refer to. -/
structure Persists (d d' : WorkData) : Prop where
  tasks : tasks.Kept TaskRow.caseId d d'
  requests : documentRequests.Kept RequestRow.links d d'
  documents : documents.Kept (fun _ => ()) d d'
  versions : documentVersions.Kept (fun file => (file.documentId, file.versionNumber)) d d'

theorem Persists.refl (d : WorkData) : Persists d d := ⟨.refl d, .refl d, .refl d, .refl d⟩

theorem Persists.trans {d₁ d₂ d₃ : WorkData} (h : Persists d₁ d₂) (h' : Persists d₂ d₃) :
    Persists d₁ d₃ :=
  ⟨h.tasks.trans h'.tasks, h.requests.trans h'.requests, h.documents.trans h'.documents,
    h.versions.trans h'.versions⟩

/-- Every request was there before. -/
def NoNewRequest (d d' : WorkData) : Prop :=
  ∀ id request', documentRequests.find d' id = some request' →
    ∃ request, documentRequests.find d id = some request

/-- **Links are kept** by what makes no request. -/
theorem Linked.of_persists {d d' : WorkData} (h : Linked d) (hkept : Persists d d')
    (hnew : NoNewRequest d d') : Linked d' := by
  have hbefore : ∀ id request', documentRequests.find d' id = some request' →
      ∃ request, documentRequests.find d id = some request ∧ request'.caseId = request.caseId
        ∧ request'.documentId = request.documentId ∧ request'.taskId = request.taskId := by
    intro id request' hrequest'
    obtain ⟨request, hrequest⟩ := hnew id request' hrequest'
    obtain ⟨request'', hfound, hlinks⟩ := hkept.requests id request hrequest
    obtain rfl := Option.some.inj (hrequest'.symm.trans hfound)
    exact ⟨request, hrequest, congrArg Prod.fst hlinks,
      congrArg (fun links => links.2.1) hlinks, congrArg (fun links => links.2.2) hlinks⟩
  refine ⟨fun id request' hrequest' => ?_, fun id request' hrequest' => ?_,
    fun id id' request₁ request₂ h₁ h₂ hsame => ?_⟩
  · obtain ⟨request, hrequest, hcase, -, htask⟩ := hbefore id request' hrequest'
    obtain ⟨task, hfound, hof⟩ := h.task id request hrequest
    obtain ⟨task', hfound', hcaseId⟩ := hkept.tasks _ task hfound
    rw [htask, hcase]
    exact ⟨task', hfound', hcaseId.trans hof⟩
  · obtain ⟨request, hrequest, -, hdocument, -⟩ := hbefore id request' hrequest'
    obtain ⟨document, hfound⟩ := Option.isSome_iff_exists.mp (h.document id request hrequest)
    obtain ⟨document', hfound', -⟩ := hkept.documents _ document hfound
    rw [hdocument, hfound']
    rfl
  · obtain ⟨request, hrequest, -, hdocument, -⟩ := hbefore id request₁ h₁
    obtain ⟨request', hrequest', -, hdocument', -⟩ := hbefore id' request₂ h₂
    exact h.one id id' request request' hrequest hrequest'
      (hdocument.symm.trans (hsame.trans hdocument'))

/-- **A new request**, of a document that has none. -/
theorem Linked.insert_request {d : WorkData} {request : RequestRow} (h : Linked d)
    (htask : ∃ task, tasks.find d request.taskId = some task ∧ task.caseId = some request.caseId)
    (hdocument : (documents.find d request.documentId).isSome = true)
    (hnew : ∀ id other, documentRequests.find d id = some other →
      other.documentId ≠ request.documentId) :
    Linked (documentRequests.insert request d) := by
  have hfind := fun id => documentRequests.find_insert request d id
  refine ⟨fun id found hfound => ?_, fun id found hfound => ?_,
    fun id id' found found' hfound hfound' hsame => ?_⟩
  · rw [hfind] at hfound
    split_ifs at hfound
    · rw [← Option.some.inj hfound]
      exact htask
    · exact h.task id found hfound
  · rw [hfind] at hfound
    split_ifs at hfound
    · rw [← Option.some.inj hfound]
      exact hdocument
    · exact h.document id found hfound
  · rw [hfind] at hfound hfound'
    split_ifs at hfound hfound' with hid hid' hid'
    · exact hid.symm.trans hid'
    · rw [← Option.some.inj hfound] at hsame
      exact absurd hsame.symm (hnew id' found' hfound')
    · rw [← Option.some.inj hfound'] at hsame
      exact absurd hsame (hnew id found hfound)
    · exact h.one id id' found found' hfound hfound' hsame

/-! ## Discipline -/

/-- **No task of a case becomes open**: those that are open were so before. -/
def NoNewOpen (caseId : Uuid) (d d' : WorkData) : Prop :=
  ∀ id task', tasks.find d' id = some task' → task'.caseId = some caseId →
    task'.state.isOpen = true → ∃ task, tasks.find d id = some task ∧ task.caseId = some caseId
      ∧ task.state.isOpen = true

/-- **A document gets no version.** -/
def NoNewVersion (documentId : Uuid) (d d' : WorkData) : Prop :=
  ∀ id file', documentVersions.find d' id = some file' → file'.documentId = documentId →
    ∃ file, documentVersions.find d id = some file

theorem NoNewOpen.refl (caseId : Uuid) (d : WorkData) : NoNewOpen caseId d d :=
  fun _ task htask hcase hopen => ⟨task, htask, hcase, hopen⟩

theorem NoNewOpen.trans {caseId : Uuid} {d₁ d₂ d₃ : WorkData} (h : NoNewOpen caseId d₁ d₂)
    (h' : NoNewOpen caseId d₂ d₃) : NoNewOpen caseId d₁ d₃ := by
  intro id task'' htask hcase hopen
  obtain ⟨task', htask', hcase', hopen'⟩ := h' id task'' htask hcase hopen
  exact h id task' htask' hcase' hopen'

theorem NoNewVersion.refl (documentId : Uuid) (d : WorkData) : NoNewVersion documentId d d :=
  fun _ file hfile _ => ⟨file, hfile⟩

/-- **What may be relied on under a lock.** -/
def KeepsRow : Row → Mode → WorkData → WorkData → Prop
  | .case_ id, mode, d, d' =>
    cases.find d' id = cases.find d id ∧ (mode = .update → NoNewOpen id d d')
  | .inquiry id, _, d, d' => inquiries.find d' id = inquiries.find d id
  | .task id, _, d, d' => tasks.find d' id = tasks.find d id
  | .request id, _, d, d' => documentRequests.find d' id = documentRequests.find d id
  | .grant id, _, d, d' => grants.find d' id = grants.find d id
  | .document id, _, d, d' => documents.find d' id = documents.find d id ∧
    ∀ k file', documentVersions.find d' k = some file' → file'.documentId = id →
      ∃ file, documentVersions.find d k = some file ∧ file.documentId = id
  | .version id, _, d, d' => documentVersions.find d' id = documentVersions.find d id

/-- **The discipline of the commands.** -/
def work : Discipline WorkData Row where
  Every := Persists
  Keeps := KeepsRow
  every_refl := Persists.refl
  every_trans := Persists.trans
  keeps_refl key mode d := by
    cases key with
    | case_ id => exact ⟨rfl, fun _ => .refl id d⟩
    | document id => exact ⟨rfl, fun _ file hfile hof => ⟨file, hfile, hof⟩⟩
    | _ => exact rfl
  keeps_trans {key mode a b c} h h' := by
    cases key with
    | case_ id => exact ⟨h'.1.trans h.1, fun hmode => (h.2 hmode).trans (h'.2 hmode)⟩
    | document id =>
      refine ⟨h'.1.trans h.1, fun k file'' hfile hof => ?_⟩
      obtain ⟨file', hfile', hof'⟩ := h'.2 k file'' hfile hof
      exact h.2 k file' hfile' hof'
    | _ => exact Eq.trans h' h

theorem locksRows_cases : LocksRows work cases := fun _ _ _ _ h => h.1

theorem locksRows_inquiries : LocksRows work inquiries := fun _ _ _ _ h => h

theorem locksRows_tasks : LocksRows work tasks := fun _ _ _ _ h => h

theorem locksRows_documentRequests : LocksRows work documentRequests := fun _ _ _ _ h => h

theorem locksRows_grants : LocksRows work grants := fun _ _ _ _ h => h

theorem locksRows_documents : LocksRows work documents := fun _ _ _ _ h => h.1

theorem locksRows_documentVersions : LocksRows work documentVersions := fun _ _ _ _ h => h

/-! ## What a transaction may write -/

/-- **What the locks of a transaction permit it to write**: rows it has locked; tasks
that become open under a lock of their case; and versions of a document it has locked. -/
structure Permits (locks : Locks Row) (d d' : WorkData) : Prop where
  persists : Persists d d'
  cases : ∀ id, cases.find d' id = cases.find d id ∨ (Row.case_ id, Mode.update) ∈ locks
  inquiries : ∀ id, inquiries.find d' id = inquiries.find d id
    ∨ (Row.inquiry id, Mode.update) ∈ locks
  tasks : ∀ id, tasks.find d' id = tasks.find d id ∨ (Row.task id, Mode.update) ∈ locks
  requests : ∀ id, documentRequests.find d' id = documentRequests.find d id
    ∨ (Row.request id, Mode.update) ∈ locks
  grants : ∀ id, grants.find d' id = grants.find d id ∨ (Row.grant id, Mode.update) ∈ locks
  documents : ∀ id, documents.find d' id = documents.find d id
    ∨ (Row.document id, Mode.update) ∈ locks
  versions : ∀ id, documentVersions.find d' id = documentVersions.find d id
    ∨ (Row.version id, Mode.update) ∈ locks
  opened : ∀ caseId, NoNewOpen caseId d d' ∨ ∃ mode, (Row.case_ caseId, mode) ∈ locks
  added : ∀ id, NoNewVersion id d d' ∨ (Row.document id, Mode.update) ∈ locks

variable {locks locks' : Locks Row} {d d' d₁ d₂ d₃ : WorkData}

/-- Of two writes each leaves a row, or it is locked. -/
theorem same_or_locked {κ : Type} {x y z : κ} {locked : Prop} (h : y = x ∨ locked)
    (h' : z = y ∨ locked) : z = x ∨ locked := by
  obtain hsame | hlocked := h
  · exact h'.imp (fun hsame' => hsame'.trans hsame) id
  · exact .inr hlocked

theorem Permits.trans (h : Permits locks d₁ d₂) (h' : Permits locks d₂ d₃) :
    Permits locks d₁ d₃ := by
  refine ⟨h.persists.trans h'.persists,
    fun id => same_or_locked (h.cases id) (h'.cases id),
    fun id => same_or_locked (h.inquiries id) (h'.inquiries id),
    fun id => same_or_locked (h.tasks id) (h'.tasks id),
    fun id => same_or_locked (h.requests id) (h'.requests id),
    fun id => same_or_locked (h.grants id) (h'.grants id),
    fun id => same_or_locked (h.documents id) (h'.documents id),
    fun id => same_or_locked (h.versions id) (h'.versions id), fun caseId => ?_, fun id => ?_⟩
  · obtain hno | hlocked := h.opened caseId
    · exact (h'.opened caseId).imp hno.trans id
    · exact .inr hlocked
  · obtain hno | hlocked := h.added id
    · obtain hno' | hlocked := h'.added id
      · refine .inl fun k file'' hfile hof => ?_
        obtain ⟨file', hfile'⟩ := hno' k file'' hfile hof
        refine hno k file' hfile' ?_
        obtain ⟨file₂, hfile₂, hpart⟩ := h'.persists.versions k file' hfile'
        obtain rfl := Option.some.inj (hfile.symm.trans hfile₂)
        exact (congrArg Prod.fst hpart).symm.trans hof
      · exact .inr hlocked
    · exact .inr hlocked

theorem not_compatible_update (mode : Mode) : ¬ Mode.Compatible .update mode :=
  fun h => (nomatch h.1)

/-- **What the locks permit is what a transaction guarantees.** -/
theorem Permits.guarantee (h : Permits locks d d') : work.Guarantee locks d d' := by
  refine ⟨h.persists, fun key mode hcompat => ?_⟩
  have hfree : ∀ {p : Prop}, p ∨ (key, Mode.update) ∈ locks → p := fun hor =>
    hor.resolve_right fun hmem => not_compatible_update mode (hcompat _ hmem rfl)
  cases key with
  | case_ id =>
    refine ⟨hfree (h.cases id), ?_⟩
    rintro rfl
    refine (h.opened id).resolve_right ?_
    rintro ⟨mode', hmem⟩
    exact absurd (hcompat _ hmem rfl).2 (by decide)
  | inquiry id => exact hfree (h.inquiries id)
  | task id => exact hfree (h.tasks id)
  | request id => exact hfree (h.requests id)
  | grant id => exact hfree (h.grants id)
  | document id =>
    refine ⟨hfree (h.documents id), fun k file' hfile hof => ?_⟩
    obtain ⟨file, hfound⟩ := hfree (h.added id) k file' hfile hof
    obtain ⟨file₂, hfile₂, hpart⟩ := h.persists.versions k file hfound
    obtain rfl := Option.some.inj (hfile.symm.trans hfile₂)
    exact ⟨file, hfound, (congrArg Prod.fst hpart).symm.trans hof⟩
  | version id => exact hfree (h.versions id)

/-! ### The writes of the commands -/

section

variable {κ ρ : Type} [DecidableEq κ] {key : ρ → κ} {table : TableIn WorkData Row key} {id : Uuid}

/-- A change of a row leaves the others. -/
theorem change_or_locked {k : κ} {locked : κ → Prop} (change : Change key) (d : WorkData)
    (hlock : locked k) (k' : κ) :
    table.find (table.change k change d) k' = table.find d k' ∨ locked k' := by
  by_cases h : k' = k
  · exact .inr (h ▸ hlock)
  · exact .inl (TableIn.find_change_of_ne change d h)

/-- An insertion leaves the other rows. -/
theorem insert_or_locked {row : ρ} {locked : κ → Prop} (d : WorkData) (hlock : locked (key row))
    (k : κ) : table.find (table.insert row d) k = table.find d k ∨ locked k := by
  by_cases h : key row = k
  · exact .inr (h ▸ hlock)
  · exact .inl (by rw [TableIn.find_insert, if_neg h])

/-- What is written to the cases. -/
theorem permits_cases {table : Table Uuid CaseRow CaseRow.id}
    (h : ∀ id, cases.find { d with cases := table } id = cases.find d id
      ∨ (Row.case_ id, Mode.update) ∈ locks) : Permits locks d { d with cases := table } :=
  ⟨⟨.of_find fun _ => rfl, .of_find fun _ => rfl, .of_find fun _ => rfl, .of_find fun _ => rfl⟩,
    h, fun _ => .inl rfl, fun _ => .inl rfl, fun _ => .inl rfl, fun _ => .inl rfl,
    fun _ => .inl rfl, fun _ => .inl rfl, fun id => .inl (.refl id d), fun id => .inl (.refl id d)⟩

/-- What is written to the inquiries. -/
theorem permits_inquiries {table : Table Uuid InquiryRow InquiryRow.id}
    (h : ∀ id, inquiries.find { d with inquiries := table } id = inquiries.find d id
      ∨ (Row.inquiry id, Mode.update) ∈ locks) : Permits locks d { d with inquiries := table } :=
  ⟨⟨.of_find fun _ => rfl, .of_find fun _ => rfl, .of_find fun _ => rfl, .of_find fun _ => rfl⟩,
    fun _ => .inl rfl, h, fun _ => .inl rfl, fun _ => .inl rfl, fun _ => .inl rfl,
    fun _ => .inl rfl, fun _ => .inl rfl, fun id => .inl (.refl id d), fun id => .inl (.refl id d)⟩

/-- What is written to the grants. -/
theorem permits_grants {table : Table Uuid UploadGrantRow UploadGrantRow.id}
    (h : ∀ id, grants.find { d with grants := table } id = grants.find d id
      ∨ (Row.grant id, Mode.update) ∈ locks) : Permits locks d { d with grants := table } :=
  ⟨⟨.of_find fun _ => rfl, .of_find fun _ => rfl, .of_find fun _ => rfl, .of_find fun _ => rfl⟩,
    fun _ => .inl rfl, fun _ => .inl rfl, fun _ => .inl rfl, fun _ => .inl rfl, h,
    fun _ => .inl rfl, fun _ => .inl rfl, fun id => .inl (.refl id d), fun id => .inl (.refl id d)⟩

/-- What is written to the requests leaves their links. -/
theorem permits_requests {table : Table Uuid RequestRow RequestRow.id}
    (hkept : documentRequests.Kept RequestRow.links d { d with requests := table })
    (h : ∀ id, documentRequests.find { d with requests := table } id = documentRequests.find d id
      ∨ (Row.request id, Mode.update) ∈ locks) : Permits locks d { d with requests := table } :=
  ⟨⟨.of_find fun _ => rfl, hkept, .of_find fun _ => rfl, .of_find fun _ => rfl⟩,
    fun _ => .inl rfl, fun _ => .inl rfl, fun _ => .inl rfl, h, fun _ => .inl rfl,
    fun _ => .inl rfl, fun _ => .inl rfl, fun id => .inl (.refl id d), fun id => .inl (.refl id d)⟩

/-- What is written to the documents leaves every one there. -/
theorem permits_documents {table : Table Uuid DocumentRow DocumentRow.id}
    (hkept : documents.Kept (fun _ => ()) d { d with documents := table })
    (h : ∀ id, documents.find { d with documents := table } id = documents.find d id
      ∨ (Row.document id, Mode.update) ∈ locks) : Permits locks d { d with documents := table } :=
  ⟨⟨.of_find fun _ => rfl, .of_find fun _ => rfl, hkept, .of_find fun _ => rfl⟩,
    fun _ => .inl rfl, fun _ => .inl rfl, fun _ => .inl rfl, fun _ => .inl rfl, fun _ => .inl rfl,
    h, fun _ => .inl rfl, fun id => .inl (.refl id d), fun id => .inl (.refl id d)⟩

/-- What is written to the versions leaves their documents and numbers. -/
theorem permits_versions {table : Table Uuid VersionRow VersionRow.id}
    (hkept : documentVersions.Kept (fun file => (file.documentId, file.versionNumber)) d
      { d with versions := table })
    (h : ∀ id, documentVersions.find { d with versions := table } id = documentVersions.find d id
      ∨ (Row.version id, Mode.update) ∈ locks)
    (hadded : ∀ id, NoNewVersion id d { d with versions := table }
      ∨ (Row.document id, Mode.update) ∈ locks) : Permits locks d { d with versions := table } :=
  ⟨⟨.of_find fun _ => rfl, .of_find fun _ => rfl, .of_find fun _ => rfl, hkept⟩,
    fun _ => .inl rfl, fun _ => .inl rfl, fun _ => .inl rfl, fun _ => .inl rfl, fun _ => .inl rfl,
    fun _ => .inl rfl, h, fun id => .inl (.refl id d), hadded⟩

/-- What is written to the tasks leaves their cases. -/
theorem permits_tasks {table : Table Uuid TaskRow TaskRow.id}
    (hkept : tasks.Kept TaskRow.caseId d { d with tasks := table })
    (h : ∀ id, tasks.find { d with tasks := table } id = tasks.find d id
      ∨ (Row.task id, Mode.update) ∈ locks)
    (hopened : ∀ caseId, NoNewOpen caseId d { d with tasks := table }
      ∨ ∃ mode, (Row.case_ caseId, mode) ∈ locks) : Permits locks d { d with tasks := table } :=
  ⟨⟨hkept, .of_find fun _ => rfl, .of_find fun _ => rfl, .of_find fun _ => rfl⟩,
    fun _ => .inl rfl, fun _ => .inl rfl, h, fun _ => .inl rfl, fun _ => .inl rfl,
    fun _ => .inl rfl, fun _ => .inl rfl, hopened, fun id => .inl (.refl id d)⟩

theorem permits_change_case {change : Change CaseRow.id} (hlock : (Row.case_ id, .update) ∈ locks)
    (d : WorkData) : Permits locks d (cases.change id change d) :=
  permits_cases (change_or_locked change d hlock)

theorem permits_change_inquiry {change : Change InquiryRow.id}
    (hlock : (Row.inquiry id, .update) ∈ locks) (d : WorkData) :
    Permits locks d (inquiries.change id change d) :=
  permits_inquiries (change_or_locked change d hlock)

theorem permits_change_grant {change : Change UploadGrantRow.id}
    (hlock : (Row.grant id, .update) ∈ locks) (d : WorkData) :
    Permits locks d (grants.change id change d) :=
  permits_grants (change_or_locked change d hlock)

theorem permits_insert_grant {row : UploadGrantRow} (hlock : (Row.grant row.id, .update) ∈ locks)
    (d : WorkData) : Permits locks d (grants.insert row d) :=
  permits_grants (insert_or_locked d hlock)

theorem permits_change_request {change : Change RequestRow.id}
    (hlock : (Row.request id, .update) ∈ locks)
    (hlinks : ∀ row, (change.apply row).links = row.links) (d : WorkData) :
    Permits locks d (documentRequests.change id change d) :=
  permits_requests (TableIn.kept_change id hlinks d) (change_or_locked change d hlock)

theorem permits_insert_request {row : RequestRow} (hlock : (Row.request row.id, .update) ∈ locks)
    (hfree : documentRequests.find d row.id = none) :
    Permits locks d (documentRequests.insert row d) :=
  permits_requests (TableIn.kept_insert hfree) (insert_or_locked d hlock)

theorem permits_change_document {change : Change DocumentRow.id}
    (hlock : (Row.document id, .update) ∈ locks) (d : WorkData) :
    Permits locks d (documents.change id change d) :=
  permits_documents (TableIn.kept_change id (fun _ => rfl) d) (change_or_locked change d hlock)

theorem permits_insert_document {row : DocumentRow}
    (hlock : (Row.document row.id, .update) ∈ locks) (hfree : documents.find d row.id = none) :
    Permits locks d (documents.insert row d) :=
  permits_documents (TableIn.kept_insert hfree) (insert_or_locked d hlock)

/-- What is written to a version says neither whose it is nor its number. -/
theorem permits_changeWhere_version {p : VersionRow → Bool} {change : Change VersionRow.id}
    (hlock : ∀ file ∈ documentVersions.rows d, p file = true →
      (Row.version file.id, Mode.update) ∈ locks)
    (hpart : ∀ file, (change.apply file).documentId = file.documentId
      ∧ (change.apply file).versionNumber = file.versionNumber) :
    Permits locks d (documentVersions.changeWhere p change d) := by
  refine permits_versions (TableIn.kept_changeWhere p
    (fun file => Prod.ext (hpart file).1 (hpart file).2) d) (fun k => ?_) fun documentId =>
      .inl fun k file' hfile' _ => ?_
  · show documentVersions.find (documentVersions.changeWhere p change d) k = _ ∨ _
    rw [TableIn.find_changeWhere]
    cases hfile : documentVersions.find d k with
    | none => exact .inl rfl
    | some file =>
      obtain ⟨hmem, rfl⟩ := TableIn.find_eq_some.mp hfile
      by_cases hp : p file = true
      · exact .inr (hlock file hmem hp)
      · exact .inl (by rw [Option.map_some, if_neg hp])
  · have hchanged : documentVersions.find (documentVersions.changeWhere p change d) k
        = some file' := hfile'
    rw [TableIn.find_changeWhere] at hchanged
    obtain ⟨file, hfile, -⟩ := Option.map_eq_some_iff.mp hchanged
    exact ⟨file, hfile⟩

theorem permits_change_version {change : Change VersionRow.id}
    (hlock : (Row.version id, .update) ∈ locks)
    (hpart : ∀ file, (change.apply file).documentId = file.documentId
      ∧ (change.apply file).versionNumber = file.versionNumber) (d : WorkData) :
    Permits locks d (documentVersions.change id change d) := by
  refine permits_changeWhere_version (fun file _ hp => ?_) hpart
  rw [of_decide_eq_true hp]
  exact hlock

/-- A new version is one of a document that is locked. -/
theorem permits_insert_version {file : VersionRow} (hlock : (Row.version file.id, .update) ∈ locks)
    (hdocument : (Row.document file.documentId, .update) ∈ locks)
    (hfree : documentVersions.find d file.id = none) :
    Permits locks d (documentVersions.insert file d) := by
  refine permits_versions (TableIn.kept_insert hfree) (insert_or_locked d hlock) fun documentId => ?_
  by_cases hof : file.documentId = documentId
  · exact .inr (hof ▸ hdocument)
  · refine .inl fun k file' hfile' hof' => ?_
    have hinserted : documentVersions.find (documentVersions.insert file d) k = some file' := hfile'
    rw [TableIn.find_insert] at hinserted
    split_ifs at hinserted
    · obtain rfl := Option.some.inj hinserted
      exact absurd hof' hof
    · exact ⟨file', hinserted⟩

/-- **A task is changed**: what opens it needs the lock of its case. -/
theorem permits_change_task {change : Change TaskRow.id} (hlock : (Row.task id, .update) ∈ locks)
    (hcase : ∀ task, (change.apply task).caseId = task.caseId)
    (hopen : ∀ task caseId, tasks.find d id = some task → task.caseId = some caseId →
      (change.apply task).state.isOpen = true →
      task.state.isOpen = true ∨ ∃ mode, (Row.case_ caseId, mode) ∈ locks) :
    Permits locks d (tasks.change id change d) := by
  refine permits_tasks (TableIn.kept_change id hcase d) (change_or_locked change d hlock)
    fun caseId => ?_
  by_cases hlocked : ∃ mode, (Row.case_ caseId, mode) ∈ locks
  · exact .inr hlocked
  · refine .inl fun k task' htask' hof hopen' => ?_
    have hchanged : tasks.find (tasks.change id change d) k = some task' := htask'
    by_cases hk : k = id
    · subst hk
      rw [TableIn.find_change] at hchanged
      obtain ⟨task, htask, heq⟩ := Option.map_eq_some_iff.mp hchanged
      rw [if_pos (TableIn.find_eq_some.mp htask).2] at heq
      subst heq
      rw [hcase] at hof
      exact ⟨task, htask, hof, (hopen task caseId htask hof hopen').resolve_right hlocked⟩
    · rw [TableIn.find_change_of_ne change d hk] at hchanged
      exact ⟨task', hchanged, hof, hopen'⟩

/-- **A new task** needs the lock of its case, shared at least. -/
theorem permits_insert_task {task : TaskRow} (hlock : (Row.task task.id, .update) ∈ locks)
    (hcase : ∀ caseId, task.caseId = some caseId → ∃ mode, (Row.case_ caseId, mode) ∈ locks)
    (hfree : tasks.find d task.id = none) : Permits locks d (tasks.insert task d) := by
  refine permits_tasks (TableIn.kept_insert hfree) (insert_or_locked d hlock) fun caseId => ?_
  by_cases hof : task.caseId = some caseId
  · exact .inr (hcase caseId hof)
  · refine .inl fun k task' htask' hof' hopen' => ?_
    have hinserted : tasks.find (tasks.insert task d) k = some task' := htask'
    rw [TableIn.find_insert] at hinserted
    split_ifs at hinserted
    · obtain rfl := Option.some.inj hinserted
      exact absurd hof' hof
    · exact ⟨task', hinserted, hof', hopen'⟩

end

end CaseWork
