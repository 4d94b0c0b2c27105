import MsRealty.CommandMoves

/-!
# The moves of the commands on documents

That uploads, reviews and the commands of a request end in moves. An upload holds the
lock of its document, so it supersedes every other version there is when it commits; a
review holds only the lock of its version, and finds it neither superseded then.
-/

namespace CaseWork

open RowLocks

variable {locks locks' : Locks Row} {d d' : WorkData} {writes : WorkData → WorkData}
  {F : WorkData → Prop} {β : Type} {P : β → (WorkData → WorkData) → Locks Row → WorkData → Prop}

/-! ## Access -/

theorem reads_demandRecipient (request : RequestRow) (action : RequestAction)
    (access : FileAccess) : Reads (demandRecipient request action access) := by
  unfold demandRecipient
  split_ifs
  · exact OnlyWrites.reading fun _ => OnlyWrites.bind (P := fun _ => True)
      (OnlyWrites.required_last fun _ _ => trivial) fun _ _ =>
      OnlyWrites.demand fun _ => OnlyWrites.demand_last trivial
  · trivial

theorem reads_demandWritable (request : RequestRow) (record : CaseRow) (action : RequestAction)
    (access : FileAccess) : Reads (demandWritable request record action access) := by
  unfold demandWritable
  split_ifs
  · exact OnlyWrites.demand fun _ => OnlyWrites.demand fun _ => OnlyWrites.demand_last trivial
  · trivial

theorem reads_assertRequest (request : RequestRow) (action : RequestAction) (access : FileAccess) :
    Reads (assertRequest request action access) := by
  refine OnlyWrites.bind (P := fun _ => True) (OnlyWrites.reading fun _ =>
    OnlyWrites.required_last fun _ _ => trivial) fun record _ => ?_
  exact (reads_demandRecipient _ _ _).bind fun _ _ => reads_demandWritable _ _ _ _

theorem reads_assertRequestedDocumentAccess (documentId : Uuid) (action : RequestAction)
    (access : FileAccess) : Reads (assertRequestedDocumentAccess documentId action access) := by
  refine OnlyWrites.reading fun d => ?_
  cases d.requestOf documentId with
  | none => trivial
  | some request => exact reads_assertRequest request action access

theorem reads_documentAccess (versionId : Uuid) (access : FileAccess) :
    Reads (documentAccess versionId access) :=
  OnlyWrites.reading fun _ => OnlyWrites.required fun _ _ => OnlyWrites.required fun _ _ =>
    OnlyWrites.demand fun _ => OnlyWrites.demand fun _ => OnlyWrites.demand fun _ =>
    (reads_assertRequestedDocumentAccess _ _ _).bind fun _ _ => trivial

/-- **The request a document belongs to** is the only one of it. -/
theorem requestOf_eq {id : Uuid} {request : RequestRow} (hd : Linked d)
    (h : documentRequests.find d id = some request) :
    d.requestOf request.documentId = some request := by
  have hmem := (TableIn.find_eq_some.mp h).1
  unfold WorkData.requestOf
  cases hfind : d.requests.rows.find? (fun r => r.documentId = request.documentId) with
  | none =>
    have hno := List.find?_eq_none.mp hfind request hmem
    exact absurd (decide_eq_true rfl) hno
  | some request' =>
    have hfound : documentRequests.find d request'.id = some request' :=
      documentRequests.find_of_mem (List.mem_of_find?_eq_some hfind)
    have hsame : request'.documentId = request.documentId := by simpa using List.find?_some hfind
    have hid := hd.one _ _ request' request hfound h hsame
    rw [hid] at hfound
    rw [Option.some.inj (hfound.symm.trans h)]

/-- Whether the case of a request is active. -/
def ActiveCase (request : RequestRow) (d : WorkData) : Prop :=
  ∃ record, cases.find d request.caseId = some record ∧ record.disposition = .active

/-- **The rule of `requestFor`**: the case and the request are locked; and for a review
or an upload, the case is active. -/
theorem Safe.requestFor {requestId : Uuid} {action : RequestAction} {access : FileAccess}
    {f : RequestRow → Statements β}
    (h : ∀ request locks' d', (Row.request requestId, Mode.update) ∈ locks' →
      (Row.case_ request.caseId, Mode.update) ∈ locks' → Linked d' →
      Known work Linked (fun x => documentRequests.find x requestId = some request
        ∧ (action = .upload ∨ action = .review → ActiveCase request x)) locks' d' →
      Safe work Linked P (f request) id locks' d') :
    Safe work Linked P (CaseWork.requestFor requestId action access >>= f) id [] d := by
  unfold CaseWork.requestFor
  rw [Prog.bind_assoc]
  refine Safe.readRow (.start [] d) fun initial d₁ _ _ hinitial _ => ?_
  rw [Prog.bind_assoc]
  refine Safe.locking fun d₂ hrely₂ _ => ?_
  rw [Prog.bind_assoc]
  refine Safe.lockRow locksRows_documentRequests (.start _ d₂) (fun _ => rfl)
    fun request d₃ hrely₃ hd₃ hrequest hknown₃ => ?_
  -- The case that is locked is the one of the request.
  have hcase : request.caseId = initial.caseId := by
    obtain ⟨request', hfound, hlinks⟩ := hrely₃.1.requests requestId _
      (hrely₂.1.requests requestId initial hinitial).choose_spec.1
    obtain ⟨-, hlinks₂⟩ := (hrely₂.1.requests requestId initial hinitial).choose_spec
    obtain rfl := Option.some.inj (hrequest.symm.trans hfound)
    exact congrArg Prod.fst (hlinks.trans hlinks₂)
  rw [Prog.bind_assoc]
  refine Safe.demand fun _ => ?_
  rw [Prog.bind_assoc]
  unfold assertRequestedDocumentAccess
  rw [Prog.bind_assoc]
  refine Safe.reading fun d₄ hrely₄ hd₄ => ?_
  have hfound := (hknown₃ d₄ hrely₄ hd₄).2
  rw [show (id d₄ : WorkData).requestOf request.documentId = some request from
    requestOf_eq hd₄ hfound]
  show Safe work Linked P (assertRequest request _ access >>= _) _ _ _
  unfold assertRequest
  rw [Prog.bind_assoc]
  refine Safe.readRow (hknown₃.rely hrely₄) fun record d₅ _ hd₅ hrecord hknown₅ => ?_
  rw [Prog.bind_assoc]
  refine (reads_demandRecipient _ _ _).safe_reads hd₅ fun _ locks₆ d₆ _ hsub₆ hrely₆ hd₆ => ?_
  have hlocked : (Row.case_ request.caseId, Mode.update) ∈ locks₆ := by
    rw [hcase]
    exact hsub₆ _ (List.mem_cons_of_mem _ List.mem_cons_self)
  have hrequestLocked : (Row.request requestId, Mode.update) ∈ locks₆ :=
    hsub₆ _ List.mem_cons_self
  have hrecord₆ : cases.find d₆ request.caseId = some record :=
    (locksRows_cases.find (by rw [hcase]; exact List.mem_cons_of_mem _ List.mem_cons_self)
      hrely₆).trans hrecord
  have hknown₆ : Known work Linked (fun x => documentRequests.find x requestId = some request)
      locks₆ d₆ :=
    fun x hrely hx => (hknown₅.mono hsub₆ hrely₆ x hrely hx).2
  unfold demandWritable
  split_ifs with hmeta hwrite hwrite
  · exact absurd hwrite (by decide)
  · refine h request locks₆ d₆ hrequestLocked hlocked hd₆ fun x hrely hx =>
      ⟨hknown₆ x hrely hx, fun haction => absurd haction ?_⟩
    rw [hmeta.1]
    decide
  · rw [Prog.bind_assoc]
    refine Safe.demand fun _ => ?_
    rw [Prog.bind_assoc]
    refine Safe.demand fun hactive => Safe.demand fun _ => ?_
    refine h request locks₆ d₆ hrequestLocked hlocked hd₆ fun x hrely hx =>
      ⟨hknown₆ x hrely hx, fun _ => ⟨record, ?_, hactive⟩⟩
    exact (locksRows_cases.find hlocked hrely).trans hrecord₆
  · exact h request locks₆ d₆ hrequestLocked hlocked hd₆ fun x hrely hx =>
      ⟨hknown₆ x hrely hx, fun haction => absurd haction hwrite⟩

/-- **A request commits a move**: of a new document, with a task of its case. -/
theorem safe_createDocumentRequest (call : RequestCall) :
    Safe work Linked Commits (createDocumentRequest call) id [] d := by
  refine Safe.demand fun _ => ?_
  refine Safe.lockRow locksRows_cases (.start [] d) (fun _ => rfl)
    fun record d₁ _ _ hrecord hknown₁ => ?_
  have hid : record.id = call.caseId := (TableIn.find_eq_some.mp hrecord).2
  refine Safe.demand fun _ => Safe.demand fun hactive => Safe.demand fun _ => ?_
  refine Safe.required fun policy _ => Safe.demand fun _ => ?_
  refine Safe.required fun recipient _ => Safe.demand fun _ => ?_
  refine Safe.insertRow locksRows_documents hknown₁ (fun _ => rfl) fun d₂ _ _ hknown₂ => ?_
  refine Safe.insertRow locksRows_grants hknown₂ (fun _ => rfl) fun d₃ _ _ hknown₃ => ?_
  refine Safe.insertTask hknown₃ (fun _ => rfl)
    fun locks₄ d₄ hsub₄ htaskLock hcaseLock _ hknown₄ => ?_
  refine Safe.insertRow locksRows_documentRequests hknown₄ (fun _ => rfl) fun d₅ _ _ hknown₅ => ?_
  refine Safe.updateRow hknown₅ fun d₆ _ _ hknown₆ => ?_
  refine commits_of_linked hknown₆ fun x hx ⟨⟨⟨⟨⟨_, hfound⟩, hdocument⟩, _⟩, htask⟩, hrequest⟩ => ?_
  have hmore : ∀ l ∈ locks₄, l ∈ (cases.lock call.caseId, Mode.update)
      :: (documentRequests.lock call.requestId, Mode.update) :: locks₄ :=
    fun l hl => List.mem_cons_of_mem _ (List.mem_cons_of_mem _ hl)
  have hcase := hmore _ (hsub₄ _ (List.mem_cons_of_mem _ (List.mem_cons_of_mem _
    List.mem_cons_self)))
  have hgranted : Permits _ x (grants.insert (call.grant recipient)
      (documents.insert call.document x)) :=
    (permits_insert_document (hmore _ (hsub₄ _ (List.mem_cons_of_mem _ List.mem_cons_self)))
      hdocument).trans (permits_insert_grant (hmore _ (hsub₄ _ List.mem_cons_self)) _)
  have hpermits := hgranted.trans (permits_insert_task (hmore _ htaskLock)
    (fun caseId hof => (hcaseLock caseId hof).imp fun _ hmem => hmore _ hmem) htask)
  have hlinked : Linked (documentRequests.insert (call.request record policy recipient)
      (tasks.insert (call.task record policy) (grants.insert (call.grant recipient)
        (documents.insert call.document x)))) := by
    refine (hx.of_persists hpermits.persists (.refl x)).insert_request
      ⟨_, tasks.find_insert_self (call.task record policy) _, rfl⟩ ?_
      fun id other hother hsame => ?_
    · show (documents.find (documents.insert call.document x) call.document.id).isSome = true
      rw [documents.find_insert_self]
      rfl
    · have hthere := hx.document id other hother
      rw [hsame, show documents.find x (call.request record policy recipient).documentId = none from
        hdocument] at hthere
      cases hthere
  refine ⟨hlinked.of_persists (permits_change_case hcase _).persists (.refl _), ?_,
    .requested hfound hactive.1 hdocument htask hrequest fun _ => rfl⟩
  exact (hpermits.trans (permits_insert_request (List.mem_cons_of_mem _ List.mem_cons_self)
    hrequest)).trans (permits_change_case hcase _)

/-! ## Uploads -/

/-- Supersedes the versions of some ids. -/
def supersedeIn (versionId : Uuid) (ids : List Uuid) : WorkData → WorkData :=
  documentVersions.changeWhere (fun file => decide (file.id ∈ ids)) (superseding versionId)

theorem supersedeIn_nil (versionId : Uuid) : supersedeIn versionId [] = id := by
  funext d
  have htable : d.versions.updateWhere (fun file => decide (file.id ∈ []))
      (VersionRow.superseded versionId) (fun _ => rfl) = d.versions :=
    updateWhere_eq_self fun _ => rfl
  exact congrArg (fun table => { d with versions := table }) htable

/-- **To supersede one version after another** is to supersede them all. -/
theorem supersedeIn_cons (versionId id : Uuid) (ids : List Uuid) :
    supersedeIn versionId ids ∘ documentVersions.change id (superseding versionId)
      = supersedeIn versionId (id :: ids) := by
  funext d
  have htable : (d.versions.updateWhere (fun file => decide (file.id = id))
      (VersionRow.superseded versionId) (fun _ => rfl)).updateWhere
        (fun file => decide (file.id ∈ ids)) (VersionRow.superseded versionId) (fun _ => rfl)
      = d.versions.updateWhere (fun file => decide (file.id ∈ id :: ids))
        (VersionRow.superseded versionId) (fun _ => rfl) := by
    refine (updateWhere_updateWhere (f := VersionRow.superseded versionId) (fun _ => rfl)
      fun _ => rfl).trans ?_
    simp only [List.mem_cons, Bool.decide_or]
  exact congrArg (fun table => { d with versions := table }) htable

/-- **What an upload replaces**: the other versions of its document, all of them. -/
structure Replaces (documentId versionId : Uuid) (ids : List Uuid) (d : WorkData) : Prop where
  not_mem : versionId ∉ ids
  sub : ∀ k ∈ ids, ∃ file, documentVersions.find d k = some file ∧ file.documentId = documentId
  all : ∀ k file, documentVersions.find d k = some file → file.documentId = documentId → k ∈ ids

/-- The versions that are found are those there were. -/
theorem replaces_versionsOf (documentId : Uuid) {versionId : Uuid}
    (hfree : documentVersions.find d versionId = none)
    (hsame : ∀ k, k ≠ versionId → documentVersions.find d' k = documentVersions.find d k) :
    Replaces documentId versionId
      (((d'.versionsOf documentId).map VersionRow.id).filter (fun id => id ≠ versionId)) d := by
  refine ⟨fun hmem => ?_, fun k hk => ?_, fun k file hfile hof => ?_⟩
  · exact of_decide_eq_true (List.mem_filter.mp hmem).2 rfl
  · obtain ⟨hmem, hne⟩ := List.mem_filter.mp hk
    obtain ⟨file, hfile, rfl⟩ := List.mem_map.mp hmem
    obtain ⟨hrow, hof⟩ := List.mem_filter.mp hfile
    refine ⟨file, (hsame _ (of_decide_eq_true hne)).symm.trans ?_, of_decide_eq_true hof⟩
    exact documentVersions.find_of_mem hrow
  · have hne : k ≠ versionId := by
      rintro rfl
      exact absurd (hfree.symm.trans hfile) (by simp)
    obtain ⟨hrow, rfl⟩ := TableIn.find_eq_some.mp ((hsame k hne).trans hfile)
    refine List.mem_filter.mpr ⟨List.mem_map_of_mem (List.mem_filter.mpr ⟨hrow, ?_⟩),
      decide_eq_true hne⟩
    exact decide_eq_true hof

/-- While the document is locked, it gets no version to replace. -/
theorem known_replaces {documentId versionId : Uuid} {ids : List Uuid}
    (hknown : Known work Linked F locks d) (hlock : (Row.document documentId, Mode.update) ∈ locks)
    (h : Replaces documentId versionId ids d) :
    Known work Linked (fun x => F x ∧ Replaces documentId versionId ids x) locks d := by
  refine hknown.learn h fun x hrely _ _ h => ⟨h.not_mem, fun k hk => ?_, fun k file hfile hof => ?_⟩
  · obtain ⟨file, hfile, hof⟩ := h.sub k hk
    obtain ⟨file', hfile', hpart⟩ := hrely.1.versions k file hfile
    exact ⟨file', hfile', (congrArg Prod.fst hpart).trans hof⟩
  · obtain ⟨file', hfile', hof'⟩ := (hrely.2 _ hlock).2 k file hfile hof
    exact h.all k file' hfile' hof'

/-- The rule of `supersedeEach`. -/
theorem Safe.supersedeEach {versionId : Uuid} {ids : List Uuid} {f : Unit → Statements β}
    (hd : Linked d) (hknown : Known work Linked F locks d)
    (h : ∀ locks' d', (∀ l ∈ locks, l ∈ locks') →
      (∀ k ∈ ids, (Row.version k, Mode.update) ∈ locks') → Linked d' →
      Known work Linked F locks' d' →
      Safe work Linked P (f ()) (supersedeIn versionId ids ∘ writes) locks' d') :
    Safe work Linked P (CaseWork.supersedeEach versionId ids >>= f) writes locks d := by
  induction ids generalizing writes locks d with
  | nil =>
    have hrest := h locks d (fun l hl => hl) (fun k hk => absurd hk List.not_mem_nil) hd hknown
    rw [supersedeIn_nil, Function.id_comp] at hrest
    exact hrest
  | cons id ids ih =>
    show Safe work Linked P ((updateRow documentVersions id (superseding versionId) >>= fun _ =>
      CaseWork.supersedeEach versionId ids) >>= f) writes locks d
    rw [Prog.bind_assoc]
    refine Safe.updateRow hknown fun d₁ _ hd₁ hknown₁ => ih hd₁ hknown₁
      fun locks' d₂ hsub hheld hd₂ hknown₂ => ?_
    rw [← Function.comp_assoc, supersedeIn_cons]
    refine h locks' d₂ (fun l hl => hsub l (List.mem_cons_of_mem _ hl)) (fun k hk => ?_) hd₂ hknown₂
    obtain rfl | hk := List.mem_cons.mp hk
    · exact hsub _ List.mem_cons_self
    · exact hheld k hk

/-- What an upload to a document writes. -/
def uploadIn (document : DocumentRow) (versionId : Uuid) (fileName contentType : String)
    (ids : List Uuid) (d : WorkData) : WorkData :=
  documents.change document.id (nextVersion document)
    (supersedeIn versionId ids (documentVersions.insert (.new versionId document.id
      (document.currentVersionNumber + 1) fileName contentType) d))

section

variable {document : DocumentRow} {versionId : Uuid} {fileName contentType : String}
  {ids : List Uuid}

/-- **What an upload leaves.** -/
theorem uploaded_uploadIn (hfree : documentVersions.find d versionId = none)
    (hreplaces : Replaces document.id versionId ids d)
    (hdocument : documents.find d document.id = some document) :
    Uploaded document.id versionId d (uploadIn document versionId fileName contentType ids d) := by
  have hversions : ∀ id, documentVersions.find (uploadIn document versionId fileName contentType
      ids d) id = (documentVersions.find (documentVersions.insert (.new versionId document.id
        (document.currentVersionNumber + 1) fileName contentType) d) id).map
          (fun file => if decide (file.id ∈ ids) = true then file.superseded versionId else file) :=
    fun id => documentVersions.find_changeWhere _ (superseding versionId) _ id
  have hinserted : ∀ id, documentVersions.find (documentVersions.insert (.new versionId document.id
      (document.currentVersionNumber + 1) fileName contentType) d) id = if versionId = id
        then some (.new versionId document.id (document.currentVersionNumber + 1) fileName
          contentType) else documentVersions.find d id :=
    fun id => documentVersions.find_insert _ d id
  refine ⟨hfree, ⟨_, TableIn.find_change_self _ hdocument, ?_, fileName, contentType, ?_⟩,
    fun id hne => TableIn.find_change_of_ne _ _ hne, fun id hne => ?_, rfl, rfl⟩
  · rw [hdocument]
    rfl
  · rw [hversions, hinserted, if_pos rfl, Option.map_some]
    exact congrArg some (if_neg fun hmem => hreplaces.not_mem (of_decide_eq_true hmem))
  · rw [hversions, hinserted, if_neg (Ne.symm hne)]
    cases hfile : documentVersions.find d id with
    | none => rfl
    | some file =>
      have hid : file.id = id := (TableIn.find_eq_some.mp hfile).2
      rw [Option.map_some, Option.map_some]
      by_cases hof : file.documentId = document.id
      · rw [if_pos hof, if_pos (decide_eq_true (hid ▸ hreplaces.all id file hfile hof))]
      · rw [if_neg hof, if_neg fun hmem => ?_]
        obtain ⟨file', hfile', hof'⟩ := hreplaces.sub id (hid ▸ of_decide_eq_true hmem)
        obtain rfl := Option.some.inj (hfile.symm.trans hfile')
        exact hof hof'

/-- What an upload may write. -/
theorem permits_uploadIn (hdocument : (Row.document document.id, Mode.update) ∈ locks)
    (hversion : (Row.version versionId, Mode.update) ∈ locks)
    (hids : ∀ k ∈ ids, (Row.version k, Mode.update) ∈ locks)
    (hfree : documentVersions.find d versionId = none) :
    Permits locks d (uploadIn document versionId fileName contentType ids d) := by
  have hinsert : Permits locks d (documentVersions.insert (.new versionId document.id
      (document.currentVersionNumber + 1) fileName contentType) d) :=
    permits_insert_version hversion hdocument hfree
  refine (hinsert.trans (permits_changeWhere_version (fun file _ hp => ?_)
    fun _ => ⟨rfl, rfl⟩)).trans (permits_change_document hdocument _)
  exact hids _ (of_decide_eq_true hp)

end

/-- **The rule of `uploadInto`**, of a document that is locked. -/
theorem Safe.uploadInto {call : UploadCall} {document : DocumentRow}
    {P : Outcome → (WorkData → WorkData) → Locks Row → WorkData → Prop}
    (hlock : (Row.document document.id, Mode.update) ∈ locks)
    (hknown : Known work Linked F locks d) (hsame : ∀ x, (writes x).versions = x.versions)
    (h : ∀ ids locks' d', (∀ l ∈ locks, l ∈ locks') →
      (Row.version call.versionId, Mode.update) ∈ locks' →
      (∀ k ∈ ids, (Row.version k, Mode.update) ∈ locks') →
      Known work Linked (fun x => (F x ∧ documentVersions.find x call.versionId = none)
        ∧ Replaces document.id call.versionId ids x) locks' d' →
      P (.uploaded document.id call.versionId)
        (uploadIn document call.versionId call.fileName call.contentType ids ∘ writes) locks' d') :
    Safe work Linked P (CaseWork.uploadInto call document) writes locks d := by
  have hfind : ∀ x k, documentVersions.find (writes x) k = documentVersions.find x k := fun x k =>
    congrArg (fun table : Table Uuid VersionRow VersionRow.id => table.get? k) (hsame x)
  refine Safe.insertRow locksRows_documentVersions hknown (fun x => hfind x _)
    fun d₁ _ _ hknown₁ => Safe.reading fun d₂ hrely₂ hd₂ => ?_
  have hknown₂ := hknown₁.rely hrely₂
  have hfree := (hknown₂ d₂ (rely_refl _ _) hd₂).2
  have hreplaces := replaces_versionsOf document.id hfree fun k hne => (show
    documentVersions.find ((documentVersions.insert (.new call.versionId document.id
      (document.currentVersionNumber + 1) call.fileName call.contentType) ∘ writes) d₂) k
        = documentVersions.find d₂ k from
    (documentVersions.find_insert _ _ k).trans ((if_neg (Ne.symm hne)).trans (hfind d₂ k)))
  refine Safe.supersedeEach hd₂ (known_replaces hknown₂ (List.mem_cons_of_mem _ hlock) hreplaces)
    fun locks₃ d₃ hsub₃ hheld₃ _ hknown₃ => Safe.updateRow hknown₃ fun d₄ _ _ hknown₄ => ?_
  exact h _ _ d₄ (fun l hl => List.mem_cons_of_mem _ (hsub₃ l (List.mem_cons_of_mem _ hl)))
    (List.mem_cons_of_mem _ (hsub₃ _ List.mem_cons_self))
    (fun k hk => List.mem_cons_of_mem _ (hheld₃ k hk)) hknown₄

/-- The first upload makes the document. -/
theorem Uploaded.of_insert {document : DocumentRow} {versionId : Uuid}
    (hnew : documents.find d document.id = none) (hnumber : document.currentVersionNumber = 0)
    (h : Uploaded document.id versionId (documents.insert document d) d') :
    Uploaded document.id versionId d d' := by
  obtain ⟨hfree, ⟨document', hfound, hnext, hversion⟩, hothers, hversions, htasks, hcases⟩ := h
  refine ⟨hfree, ⟨document', hfound, ?_, hversion⟩, fun id hne => ?_, hversions, htasks, hcases⟩
  · rw [hnext, documents.find_insert_self, hnew, Option.map_some, Option.getD_some, hnumber]
    rfl
  · rw [hothers id hne, documents.find_insert, if_neg (Ne.symm hne)]

/-- **An upload commits a move.** -/
theorem safe_startDocumentUpload (call : UploadCall) :
    Safe work Linked Commits (startDocumentUpload call) id [] d := by
  refine Safe.demand fun _ => ?_
  cases call.documentId with
  | none =>
    show Safe work Linked Commits ((Prog.demand _ >>= _) >>= _) _ _ _
    rw [Prog.bind_assoc]
    refine Safe.demand fun _ => ?_
    rw [Prog.bind_assoc]
    refine Safe.insertRow locksRows_documents (.start [] d) (fun _ => rfl)
      fun d₁ _ _ hknown₁ => ?_
    refine Safe.uploadInto List.mem_cons_self hknown₁ (fun _ => rfl)
      fun ids locks₂ d₂ hsub hversion hheld hknown₂ => ?_
    refine commits_of_known hknown₂ fun x _ ⟨⟨⟨_, hnew⟩, hfree⟩, hreplaces⟩ => ⟨.refl x, ?_,
      .uploaded (.of_insert hnew rfl (uploaded_uploadIn hfree ?_ ?_))⟩
    · exact (permits_insert_document (hsub _ List.mem_cons_self) hnew).trans
        (permits_uploadIn (hsub _ List.mem_cons_self) hversion hheld hfree)
    · exact ⟨hreplaces.not_mem, hreplaces.sub, hreplaces.all⟩
    · exact documents.find_insert_self call.document x
  | some id =>
    show Safe work Linked Commits ((lockRow documents id >>= _) >>= _) _ _ _
    rw [Prog.bind_assoc]
    refine Safe.lockRow locksRows_documents (.start [] d) (fun _ => rfl)
      fun existing d₁ _ _ hexisting hknown₁ => ?_
    rw [← (TableIn.find_eq_some.mp hexisting).2] at hknown₁ ⊢
    rw [Prog.bind_assoc]
    refine Safe.demand fun _ => ?_
    rw [Prog.bind_assoc]
    refine Safe.demand fun _ => ?_
    rw [Prog.bind_assoc]
    refine Safe.demand fun _ => ?_
    refine Safe.uploadInto List.mem_cons_self hknown₁ (fun _ => rfl)
      fun ids locks₂ d₂ hsub hversion hheld hknown₂ => ?_
    exact commits_of_known hknown₂ fun x _ ⟨⟨⟨_, hfound⟩, hfree⟩, hreplaces⟩ => ⟨.refl x,
      permits_uploadIn (hsub _ List.mem_cons_self) hversion hheld hfree,
      .uploaded (uploaded_uploadIn hfree hreplaces hfound)⟩

theorem other_iff {documentId versionId : Uuid} {file : VersionRow} :
    (decide (file.documentId = documentId) && decide (file.id ≠ versionId)) = true
      ↔ file.documentId = documentId ∧ file.id ≠ versionId := by
  rw [Bool.and_eq_true, decide_eq_true_eq, decide_eq_true_eq]

/-- A version other than the one that is added. -/
theorem find_insert_other {new file : VersionRow} {k : Uuid} (hne : file.id ≠ new.id)
    (h : documentVersions.find (documentVersions.insert new d) k = some file) :
    documentVersions.find d k = some file := by
  obtain ⟨-, rfl⟩ := TableIn.find_eq_some.mp h
  rw [documentVersions.find_insert, if_neg (Ne.symm hne)] at h
  exact h

/-- **An upload of a requested document commits a move.** -/
theorem safe_startRequestedDocumentUpload (call : RequestedUploadCall) :
    Safe work Linked Commits (startRequestedDocumentUpload call) id [] d := by
  refine Safe.demand fun _ => ?_
  refine Safe.requestFor fun request locks₁ d₁ hrequestLock hcaseLock hd₁ hknown₁ => ?_
  refine Safe.demand fun _ => Safe.demand fun _ => ?_
  refine Safe.lockRow locksRows_documents hknown₁ (fun _ => rfl)
    fun document d₂ _ _ hdocument hknown₂ => ?_
  rw [← (TableIn.find_eq_some.mp hdocument).2] at hknown₂ ⊢
  refine Safe.reading fun d₃ hrely₃ _ => Safe.demand fun _ => ?_
  refine Safe.insertRow locksRows_documentVersions (hknown₂.rely hrely₃) (fun _ => rfl)
    fun d₄ _ _ hknown₄ => ?_
  refine Safe.updateRows hknown₄ fun ids locks₅ d₅ hsub₅ hrely₅ hd₅ hheld hfound hall hknown₅ => ?_
  have hreplaces : Replaces document.id call.versionId ids d₅ := by
    refine ⟨fun hmem => ?_, fun k hk => ?_, fun k file hfile hof => ?_⟩
    · obtain ⟨d', file, _, _, hfile, hother⟩ := hfound _ hmem
      exact (other_iff.mp hother).2 (TableIn.find_eq_some.mp hfile).2
    · obtain ⟨d', file, _, hevery, hfile, hother⟩ := hfound k hk
      obtain ⟨hof, hne⟩ := other_iff.mp hother
      obtain ⟨file', hfile', hpart⟩ := hevery.versions k file (find_insert_other hne hfile)
      exact ⟨file', hfile', (congrArg Prod.fst hpart).trans hof⟩
    · have hne : file.id ≠ call.versionId := by
        rintro heq
        rw [(TableIn.find_eq_some.mp hfile).2] at heq
        rw [heq] at hfile
        exact absurd ((hknown₅ d₅ (rely_refl _ _) hd₅).2.symm.trans hfile) (by simp)
      refine hall (fun d' d'' i _ hrely' _ _ hany => ?_) k file ?_ (other_iff.mpr ⟨hof, hne⟩)
      · obtain ⟨file₂, hfile₂, hother⟩ := (Option.any_eq_true _ _).mp hany
        obtain ⟨hof₂, hne₂⟩ := other_iff.mp hother
        have hbefore := find_insert_other hne₂ hfile₂
        obtain ⟨file₁, hfile₁, hof₁⟩ := (hrely'.2 _ (List.mem_cons_of_mem _ List.mem_cons_self)).2
          i file₂ hbefore hof₂
        rw [(TableIn.find_eq_some.mp hbefore).2] at hne₂
        refine (Option.any_eq_true _ _).mpr ⟨file₁, ?_, other_iff.mpr ⟨hof₁, ?_⟩⟩
        · exact (documentVersions.find_insert _ _ i).trans ((if_neg (Ne.symm hne₂)).trans hfile₁)
        · rw [(TableIn.find_eq_some.mp hfile₁).2]
          exact hne₂
      · rw [(TableIn.find_eq_some.mp hfile).2] at hne
        exact (documentVersions.find_insert _ _ k).trans ((if_neg (Ne.symm hne)).trans hfile)
  have hversionLock : (Row.version call.versionId, Mode.update) ∈ locks₅ :=
    hsub₅ _ List.mem_cons_self
  have hdocumentLock : (Row.document document.id, Mode.update) ∈ locks₅ :=
    hsub₅ _ (List.mem_cons_of_mem _ List.mem_cons_self)
  refine Safe.updateRow (known_replaces hknown₅ hdocumentLock hreplaces)
    fun d₆ _ _ hknown₆ => Safe.updateRow hknown₆ fun d₇ _ _ hknown₇ => ?_
  refine commits_of_known hknown₇ fun x _ ⟨⟨⟨_, hfound⟩, hfree⟩, hreplaces⟩ =>
    ⟨noNewRequest_change _ _ _, ?_, .uploaded ?_⟩
  · have hmore : ∀ l ∈ locks₅, l ∈ (documentRequests.lock request.id, Mode.update)
        :: (documents.lock document.id, Mode.update) :: locks₅ :=
      fun l hl => List.mem_cons_of_mem _ (List.mem_cons_of_mem _ hl)
    exact (permits_uploadIn (hmore _ hdocumentLock) (hmore _ hversionLock)
      (fun k hk => hmore _ (hheld k hk)) hfree).trans (permits_change_request List.mem_cons_self
        (fun _ => rfl) _)
  · have huploaded : Uploaded document.id call.versionId x (uploadIn document call.versionId
        call.fileName call.contentType ids x) := uploaded_uploadIn hfree hreplaces hfound
    exact ⟨huploaded.free, huploaded.next, huploaded.others, huploaded.versions, huploaded.tasks,
      huploaded.cases⟩

/-! ## Reviews -/

/-- **The rule of `reviewDocument`**: the version is as it was found until the commit. -/
theorem Safe.reviewDocument {call : ReviewCall} {f : Unit → Statements β} (hd : Linked d)
    (hknown : Known work Linked F locks d)
    (h : ∀ file documentId (change : Change DocumentRow.id) locks' d',
      (∀ l ∈ locks, l ∈ locks') → (Row.version call.versionId, Mode.update) ∈ locks' →
      (Row.document documentId, Mode.update) ∈ locks' → file.reviewable = true →
      (∀ row, (change.apply row).currentVersionNumber = row.currentVersionNumber) → Linked d' →
      Known work Linked (fun x => F x ∧ documentVersions.find x call.versionId = some file)
        locks' d' →
      Safe work Linked P (f ()) (documents.change documentId change ∘ documentVersions.change
        call.versionId ⟨VersionRow.reviewed call file, fun _ => rfl⟩) locks' d') :
    Safe work Linked P (CaseWork.reviewDocument call >>= f) id locks d := by
  unfold CaseWork.reviewDocument
  rw [Prog.bind_assoc]
  refine Safe.demand fun _ => ?_
  rw [Prog.bind_assoc]
  refine (reads_documentAccess _ _).safe_reads hd fun seen locks₁ d₁ _ hsub₁ hrely₁ _ => ?_
  rw [Prog.bind_assoc]
  refine Safe.reading fun d₂ hrely₂ _ => ?_
  rw [Prog.bind_assoc]
  refine Safe.demand fun _ => ?_
  rw [Prog.bind_assoc]
  refine Safe.lockRow locksRows_documentVersions ((hknown.mono hsub₁ hrely₁).rely hrely₂)
    (fun _ => rfl) fun file d₃ _ hd₃ hfile hknown₃ => ?_
  rw [show file.id = call.versionId from (TableIn.find_eq_some.mp hfile).2]
  rw [Prog.bind_assoc]
  refine (reads_documentAccess _ _).safe_reads hd₃ fun document locks₄ d₄ _ hsub₄ hrely₄ hd₄ => ?_
  rw [Prog.bind_assoc]
  refine Safe.demand fun _ => ?_
  rw [Prog.bind_assoc]
  refine Safe.demand fun hreviewable => ?_
  rw [Prog.bind_assoc]
  refine Safe.demand fun _ => ?_
  rw [Prog.bind_assoc]
  refine Safe.updateRow (hknown₃.mono hsub₄ hrely₄) fun d₅ _ _ hknown₅ => ?_
  refine Safe.updateRow hknown₅ fun d₆ _ hd₆ hknown₆ => ?_
  have hsub : ∀ l ∈ (Row.version call.versionId, Mode.update) :: locks₁, l ∈
      (documents.lock document.id, Mode.update)
        :: (documentVersions.lock call.versionId, Mode.update) :: locks₄ :=
    fun l hl => List.mem_cons_of_mem _ (List.mem_cons_of_mem _ (hsub₄ l hl))
  exact h file document.id _ _ d₆ (fun l hl => hsub l (List.mem_cons_of_mem _ (hsub₁ l hl)))
    (hsub _ List.mem_cons_self) List.mem_cons_self hreviewable (fun _ => rfl) hd₆ hknown₆

/-- What a review of a version may write. -/
theorem permits_reviewed {documentId : Uuid} (call : ReviewCall) (file : VersionRow)
    (change : Change DocumentRow.id) (hversion : (Row.version call.versionId, Mode.update) ∈ locks)
    (hdocument : (Row.document documentId, Mode.update) ∈ locks) (x : WorkData) :
    Permits locks x (documents.change documentId change (documentVersions.change call.versionId
      ⟨VersionRow.reviewed call file, fun _ => rfl⟩ x)) :=
  (permits_change_version hversion (fun _ => ⟨rfl, rfl⟩) x).trans
    (permits_change_document hdocument _)

/-- **A review commits a move.** -/
theorem safe_reviewDirectly (call : ReviewCall) (hd : Linked d) :
    Safe work Linked Commits (reviewDirectly call) id [] d := by
  refine Safe.demand fun _ => ?_
  refine Safe.reviewDocument hd (.start [] d) fun file documentId change locks₁ d₁ _ hversion
    hdocument hreviewable hchange _ hknown => ?_
  refine commits_of_known hknown fun x _ ⟨_, hfile⟩ =>
    ⟨.refl x, permits_reviewed call file change hversion hdocument x,
      .reviewed hfile hreviewable hchange⟩

theorem TaskRow.requestReviewed_caseId (call : RequestReviewCall) (request : RequestRow)
    (row : TaskRow) : (row.requestReviewed call request).caseId = row.caseId := by
  unfold TaskRow.requestReviewed
  split <;> rfl

/-- What follows a review of a requested document is under the lock of its case. -/
theorem mem_of_taskOf {request : RequestRow} {requestId caseId : Uuid} {task : TaskRow}
    {mode : Mode} (hd : Linked d) (hrequest : documentRequests.find d requestId = some request)
    (htask : tasks.find d request.taskId = some task) (hof : task.caseId = some caseId)
    (hlock : (Row.case_ request.caseId, mode) ∈ locks) : (Row.case_ caseId, mode) ∈ locks := by
  obtain ⟨task', hfound, hcase⟩ := hd.task requestId request hrequest
  obtain rfl := Option.some.inj (htask.symm.trans hfound)
  rw [Option.some.inj (hof.symm.trans hcase)]
  exact hlock

/-- **A review of a requested document commits a move**: its case is active. -/
theorem safe_reviewRequestedDocument (call : RequestReviewCall) :
    Safe work Linked Commits (reviewRequestedDocument call) id [] d := by
  refine Safe.demand fun houtcome => ?_
  refine Safe.requestFor fun request locks₁ d₁ hrequestLock hcaseLock hd₁ hknown₁ => ?_
  refine Safe.demand fun _ => ?_
  refine (reads_documentAccess _ _).safe_reads hd₁ fun document locks₂ d₂ _ hsub₂ hrely₂ hd₂ => ?_
  refine Safe.demand fun _ => Safe.demand fun _ => ?_
  have hknown₂ := hknown₁.mono hsub₂ hrely₂
  rw [show request.id = call.requestId from
    (TableIn.find_eq_some.mp (hknown₂ d₂ (rely_refl _ _) hd₂).1).2]
  refine Safe.reviewDocument hd₂ hknown₂ fun file documentId change locks₃ d₃ hsub₃ hversion
    hdocument hreviewable hchange _ hknown₃ => ?_
  refine Safe.updateRow hknown₃ fun d₄ _ _ hknown₄ => ?_
  refine Safe.updateRow hknown₄ fun d₅ _ _ hknown₅ => ?_
  refine commits_of_known hknown₅ fun x hx ⟨⟨hrequest, hactive⟩, hfile⟩ => ?_
  obtain ⟨record, hrecord, hstate⟩ := hactive (.inr rfl)
  refine ⟨noNewRequest_change _ _ _, ?_, .requestReviewed hrequest hrecord hstate hfile hreviewable
    hchange (fun hempty => ?_)⟩
  · have hmore : ∀ l ∈ locks₃, l ∈ (tasks.lock request.taskId, Mode.update)
        :: (documentRequests.lock call.requestId, Mode.update) :: locks₃ :=
      fun l hl => List.mem_cons_of_mem _ (List.mem_cons_of_mem _ hl)
    refine Permits.trans ?_ (permits_change_task List.mem_cons_self
      (TaskRow.requestReviewed_caseId call request) fun task caseId htask hof _ =>
        .inr ⟨.update, mem_of_taskOf hx hrequest htask hof ?_⟩)
    · exact (permits_reviewed (call.review request) file change (hmore _ hversion)
        (hmore _ hdocument) x).trans (permits_change_request
          (List.mem_cons_of_mem _ List.mem_cons_self) (fun _ => rfl) _)
    · exact hmore _ (hsub₃ _ (hsub₂ _ hcaseLock))
  · have htext := houtcome.2
    rw [hempty] at htext
    cases htext

/-! ## Cancellation and the file worker -/

theorem TaskRow.requestCancelled_caseId (call : CancelCall) (row : TaskRow) :
    (row.requestCancelled call).caseId = row.caseId := by
  unfold TaskRow.requestCancelled
  split <;> rfl

/-- After a cancellation a task is over. -/
theorem TaskRow.isOpen_requestCancelled (call : CancelCall) (row : TaskRow) :
    (row.requestCancelled call).state.isOpen = false := by
  unfold TaskRow.requestCancelled
  split_ifs with hdone
  · rw [hdone]
    rfl
  · rfl

/-- **A cancellation commits a move.** -/
theorem safe_cancelDocumentRequest (call : CancelCall) :
    Safe work Linked Commits (cancelDocumentRequest call) id [] d := by
  refine Safe.demand fun houtcome => ?_
  refine Safe.requestFor fun request locks₁ d₁ hrequestLock hcaseLock hd₁ hknown₁ => ?_
  refine Safe.demand fun _ => Safe.demand fun _ => ?_
  rw [show request.id = call.requestId from
    (TableIn.find_eq_some.mp (hknown₁ d₁ (rely_refl _ _) hd₁).1).2]
  refine Safe.updateRow hknown₁ fun d₂ _ _ hknown₂ => Safe.updateRow hknown₂ fun d₃ _ _ hknown₃ =>
    Safe.updateRow hknown₃ fun d₄ _ _ hknown₄ => ?_
  refine commits_of_known hknown₄ fun x _ ⟨hrequest, _⟩ =>
    ⟨noNewRequest_change _ _ _, ?_, .requestCancelled hrequest fun hempty => ?_⟩
  · refine Permits.trans ?_ (permits_change_task List.mem_cons_self
      (TaskRow.requestCancelled_caseId call) fun task _ _ _ hopen => ?_)
    · exact (permits_change_request (List.mem_cons_of_mem _ (List.mem_cons_of_mem _
        List.mem_cons_self)) (fun _ => rfl) x).trans
        (permits_change_grant (List.mem_cons_of_mem _ List.mem_cons_self) _)
    · exact absurd ((task.isOpen_requestCancelled call).symm.trans hopen) (by simp)
  · have htext := houtcome.2
    rw [hempty] at htext
    cases htext

/-- **The file worker commits a move.** -/
theorem safe_processFile (call : FileCall) :
    Safe work Linked Commits (processFile call) id [] d := by
  refine Safe.lockRow locksRows_documentVersions (.start [] d) (fun _ => rfl)
    fun file d₁ _ _ hfile hknown₁ => ?_
  rw [show file.id = call.versionId from (TableIn.find_eq_some.mp hfile).2]
  refine Safe.demand fun hstates => Safe.updateRow hknown₁ fun d₂ _ _ hknown₂ => ?_
  refine commits_of_known hknown₂ fun x _ ⟨_, hfound⟩ =>
    ⟨.refl x, ?_, .fileProcessed hfound hstates.1 hstates.2⟩
  exact permits_change_version List.mem_cons_self (fun _ => ⟨rfl, rfl⟩) x

/-- Every command ends in a move. -/
theorem WorkCommand.safe {p : Statements Outcome} (h : WorkCommand p) (hd : Linked d) :
    Safe work Linked Commits p id [] d := by
  cases h with
  | disposition call => exact safe_changeCaseDisposition call
  | createTask call => exact safe_createTask call
  | acceptInquiry call => exact safe_acceptInquiry call
  | changeTask call => exact safe_changeTask call
  | handover call => exact safe_handoverTask call
  | request call => exact safe_createDocumentRequest call
  | requestedUpload call => exact safe_startRequestedDocumentUpload call
  | upload call => exact safe_startDocumentUpload call
  | review call => exact safe_reviewDirectly call hd
  | requestReview call => exact safe_reviewRequestedDocument call
  | cancel call => exact safe_cancelDocumentRequest call
  | processFile call => exact safe_processFile call

end CaseWork
