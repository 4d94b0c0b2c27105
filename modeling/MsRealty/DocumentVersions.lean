import MsRealty.DocumentMoves

/-!
# The versions of a document

An upload adds the next version of a document and supersedes every other one, under the
lock of the document; so in every run the versions of a document are numbered without a
gap, and all but the current one are superseded. What is superseded stays so: it is
neither reviewed nor exposed again.

Superseding follows `documentMachine` only from some states, and `startDocumentUpload`
asks for none of them: the uploads of a run follow the machine exactly when the versions
they replace have been reviewed, rejected, sent back, or have expired.
-/

namespace CaseWork

open RowLocks

variable {a : Outcome} {d d' : WorkData}

/-! ## Versions in order -/

/-- The number of the current version of a document, zero if there is none. -/
def latestVersion (d : WorkData) (documentId : Uuid) : ℕ :=
  ((documents.find d documentId).map DocumentRow.currentVersionNumber).getD 0

/-- **The versions of every document are in order**: numbered from one to the current one;
the current one is not superseded, and every other one is, by one of a higher number. -/
structure VersionsOrdered (d : WorkData) : Prop where
  bounds : ∀ id file, documentVersions.find d id = some file →
    1 ≤ file.versionNumber ∧ file.versionNumber ≤ latestVersion d file.documentId
  one : ∀ id id' file file', documentVersions.find d id = some file →
    documentVersions.find d id' = some file' → file.documentId = file'.documentId →
    file.versionNumber = file'.versionNumber → id = id'
  all : ∀ documentId number, 1 ≤ number → number ≤ latestVersion d documentId →
    ∃ id file, documentVersions.find d id = some file ∧ file.documentId = documentId
      ∧ file.versionNumber = number
  current : ∀ id file, documentVersions.find d id = some file →
    file.versionNumber = latestVersion d file.documentId → file.state ≠ .superseded
  replaced : ∀ id file, documentVersions.find d id = some file →
    file.versionNumber ≠ latestVersion d file.documentId → file.state = .superseded
      ∧ ∃ id' file', file.supersededByVersionId = some id'
        ∧ documentVersions.find d id' = some file' ∧ file'.documentId = file.documentId
        ∧ file.versionNumber < file'.versionNumber

/-- What of a version its order depends on. -/
def VersionRow.place (file : VersionRow) : Uuid × ℕ × Option Uuid × Bool :=
  (file.documentId, file.versionNumber, file.supersededByVersionId,
    decide (file.state = .superseded))

theorem VersionRow.place_eq_iff {file file' : VersionRow} : file'.place = file.place
    ↔ file'.documentId = file.documentId ∧ file'.versionNumber = file.versionNumber
      ∧ file'.supersededByVersionId = file.supersededByVersionId
      ∧ (file'.state = .superseded ↔ file.state = .superseded) := by
  simp only [VersionRow.place, Prod.mk.injEq, decide_eq_decide]

/-- **A commit that is no upload**: it leaves the versions their places. -/
structure Steady (d d' : WorkData) : Prop where
  latest : ∀ id, latestVersion d' id = latestVersion d id
  places : ∀ id, (documentVersions.find d' id).map VersionRow.place
    = (documentVersions.find d id).map VersionRow.place

/-- A version that was there before. -/
theorem Steady.before (h : Steady d d') {id : Uuid} {file' : VersionRow}
    (hfile' : documentVersions.find d' id = some file') :
    ∃ file, documentVersions.find d id = some file ∧ file'.place = file.place := by
  have hplace := h.places id
  rw [hfile', Option.map_some] at hplace
  obtain ⟨file, hfile, heq⟩ := Option.map_eq_some_iff.mp hplace.symm
  exact ⟨file, hfile, heq.symm⟩

/-- A version that is there afterwards. -/
theorem Steady.after (h : Steady d d') {id : Uuid} {file : VersionRow}
    (hfile : documentVersions.find d id = some file) :
    ∃ file', documentVersions.find d' id = some file' ∧ file'.place = file.place := by
  have hplace := h.places id
  rw [hfile, Option.map_some] at hplace
  exact Option.map_eq_some_iff.mp hplace

/-- **What leaves the places leaves the order.** -/
theorem VersionsOrdered.of_steady (hd : VersionsOrdered d) (h : Steady d d') :
    VersionsOrdered d' := by
  refine ⟨fun id file' hfile' => ?_, fun id₁ id₂ file₁ file₂ h₁ h₂ hsame hnumber => ?_,
    fun documentId number hone hle => ?_, fun id file' hfile' hnumber => ?_,
    fun id file' hfile' hnumber => ?_⟩
  · obtain ⟨file, hfile, hplace⟩ := h.before hfile'
    obtain ⟨hof, hnumber, -⟩ := VersionRow.place_eq_iff.mp hplace
    rw [hof, hnumber, h.latest]
    exact hd.bounds id file hfile
  · obtain ⟨before₁, hbefore₁, hplace₁⟩ := h.before h₁
    obtain ⟨before₂, hbefore₂, hplace₂⟩ := h.before h₂
    obtain ⟨hof₁, hnumber₁, -⟩ := VersionRow.place_eq_iff.mp hplace₁
    obtain ⟨hof₂, hnumber₂, -⟩ := VersionRow.place_eq_iff.mp hplace₂
    exact hd.one id₁ id₂ before₁ before₂ hbefore₁ hbefore₂ (hof₁.symm.trans (hsame.trans hof₂))
      (hnumber₁.symm.trans (hnumber.trans hnumber₂))
  · rw [h.latest] at hle
    obtain ⟨id, file, hfile, hof, hnumber⟩ := hd.all documentId number hone hle
    obtain ⟨file', hfile', hplace⟩ := h.after hfile
    obtain ⟨hof', hnumber', -⟩ := VersionRow.place_eq_iff.mp hplace
    exact ⟨id, file', hfile', hof'.trans hof, hnumber'.trans hnumber⟩
  · obtain ⟨file, hfile, hplace⟩ := h.before hfile'
    obtain ⟨hof, hnumber', -, hstate⟩ := VersionRow.place_eq_iff.mp hplace
    rw [hof, hnumber', h.latest] at hnumber
    exact fun hsuperseded => hd.current id file hfile hnumber (hstate.mp hsuperseded)
  · obtain ⟨file, hfile, hplace⟩ := h.before hfile'
    obtain ⟨hof, hnumber', hby, hstate⟩ := VersionRow.place_eq_iff.mp hplace
    rw [hof, hnumber', h.latest] at hnumber
    obtain ⟨hsuperseded, id₂, file₂, hby₂, hfile₂, hof₂, hlt⟩ := hd.replaced id file hfile hnumber
    obtain ⟨file₃, hfile₃, hplace₃⟩ := h.after hfile₂
    obtain ⟨hof₃, hnumber₃, -⟩ := VersionRow.place_eq_iff.mp hplace₃
    refine ⟨hstate.mpr hsuperseded, id₂, file₃, hby.trans hby₂, hfile₃, ?_, ?_⟩
    · rw [hof₃, hof₂, hof]
    · rw [hnumber₃, hnumber']
      exact hlt

/-! ## Uploads -/

section

variable {documentId versionId id : Uuid} {file file' : VersionRow}

theorem Uploaded.latest_self (h : Uploaded documentId versionId d d') :
    latestVersion d' documentId = latestVersion d documentId + 1 := by
  obtain ⟨document', hfound, hnext, -⟩ := h.next
  rw [latestVersion, hfound, Option.map_some, Option.getD_some, hnext]
  rfl

theorem Uploaded.latest_of_ne (h : Uploaded documentId versionId d d') (hne : id ≠ documentId) :
    latestVersion d' id = latestVersion d id := by
  rw [latestVersion, h.others id hne]
  rfl

/-- The version that is added. -/
theorem Uploaded.new (h : Uploaded documentId versionId d d') :
    ∃ file', documentVersions.find d' versionId = some file' ∧ file'.documentId = documentId
      ∧ file'.versionNumber = latestVersion d documentId + 1 ∧ file'.state = .uploading := by
  obtain ⟨document', _, hnext, fileName, contentType, hversion⟩ := h.next
  exact ⟨_, hversion, rfl, hnext, rfl⟩

/-- A version that was there is superseded, if it is of the document. -/
theorem Uploaded.after (h : Uploaded documentId versionId d d')
    (hfile : documentVersions.find d id = some file) : documentVersions.find d' id
      = some (if file.documentId = documentId then file.superseded versionId else file) := by
  have hne : id ≠ versionId := by
    rintro rfl
    exact absurd (h.free.symm.trans hfile) (by simp)
  rw [h.versions id hne, hfile, Option.map_some]

/-- **What is there afterwards**: the version that is added, those it supersedes, and those
of other documents. -/
theorem Uploaded.before (h : Uploaded documentId versionId d d')
    (hfile' : documentVersions.find d' id = some file') :
    (id = versionId ∧ file'.documentId = documentId
        ∧ file'.versionNumber = latestVersion d documentId + 1 ∧ file'.state = .uploading)
      ∨ (∃ file, documentVersions.find d id = some file ∧ file.documentId = documentId
        ∧ file' = file.superseded versionId)
      ∨ (documentVersions.find d id = some file' ∧ file'.documentId ≠ documentId) := by
  by_cases hid : id = versionId
  · subst hid
    obtain ⟨new, hnew, hof, hnumber, hstate⟩ := h.new
    obtain rfl := Option.some.inj (hnew.symm.trans hfile')
    exact .inl ⟨rfl, hof, hnumber, hstate⟩
  · rw [h.versions id hid] at hfile'
    obtain ⟨file, hfile, heq⟩ := Option.map_eq_some_iff.mp hfile'
    split_ifs at heq with hof
    · exact .inr (.inl ⟨file, hfile, hof, heq.symm⟩)
    · subst heq
      exact .inr (.inr ⟨hfile, hof⟩)

/-- A version is the one that is added, or has the number it had. -/
theorem Uploaded.number (h : Uploaded documentId versionId d d') (hd : VersionsOrdered d)
    (hfile' : documentVersions.find d' id = some file') :
    (id = versionId ∧ file'.documentId = documentId
        ∧ file'.versionNumber = latestVersion d documentId + 1)
      ∨ (file'.versionNumber ≤ latestVersion d file'.documentId
        ∧ ∃ file, documentVersions.find d id = some file ∧ file'.documentId = file.documentId
          ∧ file'.versionNumber = file.versionNumber) := by
  obtain ⟨hid, hof, hnumber, -⟩ | ⟨file, hfile, -, rfl⟩ | ⟨hfile, -⟩ := h.before hfile'
  · exact .inl ⟨hid, hof, hnumber⟩
  · exact .inr ⟨(hd.bounds id file hfile).2, file, hfile, rfl, rfl⟩
  · exact .inr ⟨(hd.bounds id file' hfile).2, file', hfile, rfl, rfl⟩

/-- **An upload leaves the versions in order.** -/
theorem VersionsOrdered.of_uploaded (hd : VersionsOrdered d)
    (h : Uploaded documentId versionId d d') : VersionsOrdered d' := by
  have hself := h.latest_self
  refine ⟨fun id file' hfile' => ?_, fun id₁ id₂ file₁ file₂ h₁ h₂ hsame hnumber => ?_,
    fun documentId' number hone hle => ?_, fun id file' hfile' hnumber => ?_,
    fun id file' hfile' hnumber => ?_⟩
  · obtain ⟨-, hof, hnumber, -⟩ | ⟨file, hfile, hof, rfl⟩ | ⟨hfile, hne⟩ := h.before hfile'
    · rw [hof, hnumber, hself]
      exact ⟨Nat.le_add_left 1 _, le_refl _⟩
    · obtain ⟨hone, hle⟩ := hd.bounds id file hfile
      rw [hof] at hle
      show 1 ≤ file.versionNumber ∧ file.versionNumber ≤ latestVersion d' file.documentId
      rw [hof, hself]
      exact ⟨hone, Nat.le_succ_of_le hle⟩
    · rw [h.latest_of_ne hne]
      exact hd.bounds id file' hfile
  · obtain ⟨hid₁, hof₁, hnumber₁⟩ | ⟨hle₁, before₁, hbefore₁, hof₁, hnumber₁⟩ := h.number hd h₁
    · obtain ⟨hid₂, -, -⟩ | ⟨hle₂, -⟩ := h.number hd h₂
      · exact hid₁.trans hid₂.symm
      · rw [← hsame, hof₁, ← hnumber, hnumber₁] at hle₂
        exact absurd hle₂ (Nat.not_succ_le_self _)
    · obtain ⟨-, hof₂, hnumber₂⟩ | ⟨-, before₂, hbefore₂, hof₂, hnumber₂⟩ := h.number hd h₂
      · rw [hsame, hof₂, hnumber, hnumber₂] at hle₁
        exact absurd hle₁ (Nat.not_succ_le_self _)
      · exact hd.one id₁ id₂ before₁ before₂ hbefore₁ hbefore₂ (hof₁.symm.trans (hsame.trans hof₂))
          (hnumber₁.symm.trans (hnumber.trans hnumber₂))
  · by_cases hdocument : documentId' = documentId
    · subst hdocument
      rw [hself] at hle
      obtain hle | rfl := Nat.le_succ_iff.mp hle
      · obtain ⟨id, file, hfile, hof, hnumber⟩ := hd.all documentId' number hone hle
        refine ⟨id, _, h.after hfile, ?_, ?_⟩
        · rw [if_pos hof]
          exact hof
        · rw [if_pos hof]
          exact hnumber
      · obtain ⟨new, hnew, hof, hnumber, -⟩ := h.new
        exact ⟨versionId, new, hnew, hof, hnumber⟩
    · rw [h.latest_of_ne hdocument] at hle
      obtain ⟨id, file, hfile, hof, hnumber⟩ := hd.all documentId' number hone hle
      refine ⟨id, file, ?_, hof, hnumber⟩
      rw [h.after hfile, if_neg fun heq => hdocument (hof.symm.trans heq)]
  · obtain ⟨-, -, -, hstate⟩ | ⟨file, hfile, hof, rfl⟩ | ⟨hfile, hne⟩ := h.before hfile'
    · rw [hstate]
      decide
    · have hle := (hd.bounds id file hfile).2
      rw [show (file.superseded versionId).documentId = documentId from hof, hself] at hnumber
      rw [hof] at hle
      exact absurd hnumber (Nat.ne_of_lt (Nat.lt_succ_of_le hle))
    · rw [h.latest_of_ne hne] at hnumber
      exact hd.current id file' hfile hnumber
  · obtain ⟨-, hof, hnew, -⟩ | ⟨file, hfile, hof, rfl⟩ | ⟨hfile, hne⟩ := h.before hfile'
    · rw [hof, hself] at hnumber
      exact absurd hnew hnumber
    · obtain ⟨new, hnew, hofNew, hnumberNew, -⟩ := h.new
      have hle := (hd.bounds id file hfile).2
      rw [hof] at hle
      refine ⟨rfl, versionId, new, rfl, hnew, hofNew.trans hof.symm, ?_⟩
      rw [hnumberNew]
      exact Nat.lt_succ_of_le hle
    · rw [h.latest_of_ne hne] at hnumber
      obtain ⟨hstate, id₂, file₂, hby, hfile₂, hof₂, hlt⟩ := hd.replaced id file' hfile hnumber
      refine ⟨hstate, id₂, file₂, hby, ?_, hof₂, hlt⟩
      rw [h.after hfile₂, if_neg fun heq => hne (hof₂.symm.trans heq)]

end

/-! ## Other commits -/

/-- What may be reviewed is ready for it, or has been reviewed. -/
theorem VersionRow.state_of_reviewable {file : VersionRow} (h : file.reviewable = true) :
    file.state = .readyForReview ∨ file.state = .reviewed := by
  have hmem := of_decide_eq_true (Bool.and_eq_true_iff.mp h).2
  rw [List.mem_pair] at hmem
  exact hmem

theorem VersionRow.not_superseded_of_reviewable {file : VersionRow} (h : file.reviewable = true) :
    file.state ≠ .superseded := by
  obtain hstate | hstate := VersionRow.state_of_reviewable h <;>
    rw [hstate] <;> decide

/-- **A review follows the machine.** -/
theorem VersionRow.reviewed_follows {file : VersionRow} (call : ReviewCall)
    (h : file.reviewable = true) : (file.reviewed call file).state = file.state
      ∨ documentMachine.Edge file.state (file.reviewed call file).state := by
  show (if call.reviewType = .needsReplacement then DocumentState.needsReplacement else .reviewed)
    = file.state ∨ documentMachine.Edge file.state
      (if call.reviewType = .needsReplacement then .needsReplacement else .reviewed)
  obtain hstate | hstate := VersionRow.state_of_reviewable h <;>
    rw [hstate] <;> split_ifs <;> decide

theorem VersionRow.place_reviewed {file : VersionRow} (call : ReviewCall)
    (h : file.reviewable = true) : (file.reviewed call file).place = file.place := by
  refine VersionRow.place_eq_iff.mpr ⟨rfl, rfl, rfl, iff_of_false ?_
    (VersionRow.not_superseded_of_reviewable h)⟩
  show (if call.reviewType = .needsReplacement then DocumentState.needsReplacement else .reviewed)
    ≠ .superseded
  split_ifs <;> decide

/-- A change of a document that leaves the number of its current version. -/
theorem latestVersion_change {documentId : Uuid} {change : Change DocumentRow.id}
    (hchange : ∀ row, (change.apply row).currentVersionNumber = row.currentVersionNumber)
    (d : WorkData) (id : Uuid) :
    latestVersion (documents.change documentId change d) id = latestVersion d id := by
  rw [latestVersion, latestVersion, documents.find_change, Option.map_map]
  refine congrArg (fun f => ((documents.find d id).map f).getD 0) (funext fun row => ?_)
  rw [Function.comp_apply]
  split_ifs
  · exact hchange row
  · rfl

/-- A change of a version that leaves its place. -/
theorem places_change {versionId : Uuid} {change : Change VersionRow.id} {file : VersionRow}
    (hfile : documentVersions.find d versionId = some file)
    (hplace : (change.apply file).place = file.place) (id : Uuid) :
    (documentVersions.find (documentVersions.change versionId change d) id).map VersionRow.place
      = (documentVersions.find d id).map VersionRow.place := by
  by_cases hid : id = versionId
  · rw [hid, documentVersions.find_change_self change hfile, hfile, Option.map_some, hplace]
    rfl
  · rw [TableIn.find_change_of_ne change d hid]

/-- **Every commit is steady, or an upload.** -/
theorem Move.steady (h : Move a d d') : Steady d d'
    ∨ ∃ documentId versionId, a = .uploaded documentId versionId
      ∧ Uploaded documentId versionId d d' := by
  cases h with
  | uploaded h => exact .inr ⟨_, _, rfl, h⟩
  | @requested _ call _ _ _ _ _ _ hdocument _ _ _ =>
    refine .inl ⟨fun id => ?_, fun _ => rfl⟩
    show ((documents.find (documents.insert call.document d) id).map _).getD 0 = _
    rw [documents.find_insert]
    split_ifs with hid
    · rw [latestVersion, ← hid, show documents.find d call.document.id = none from hdocument]
      rfl
    · rfl
  | reviewed hfile hreviewable hchange =>
    exact .inl ⟨latestVersion_change hchange _,
      places_change hfile (VersionRow.place_reviewed _ hreviewable)⟩
  | requestReviewed _ _ _ hfile hreviewable hchange _ =>
    exact .inl ⟨latestVersion_change hchange _,
      places_change hfile (VersionRow.place_reviewed _ hreviewable)⟩
  | fileProcessed hfile hfrom hto =>
    exact .inl ⟨fun _ => rfl, places_change hfile (VersionRow.place_eq_iff.mpr
      ⟨rfl, rfl, rfl, iff_of_false hto hfrom⟩)⟩
  | _ => exact .inl ⟨fun _ => rfl, fun _ => rfl⟩

/-- **Every commit leaves the versions in order.** -/
theorem VersionsOrdered.of_move (h : Move a d d') (hd : VersionsOrdered d) :
    VersionsOrdered d' := by
  obtain hsteady | ⟨_, _, -, huploaded⟩ := h.steady
  · exact hd.of_steady hsteady
  · exact hd.of_uploaded huploaded

/-! ## Laws -/

/-- **A change of the states of the versions** follows the machine. -/
def VersionsFollow (d d' : WorkData) : Prop :=
  ∀ id file file', documentVersions.find d id = some file →
    documentVersions.find d' id = some file' →
    file'.state = file.state ∨ documentMachine.Edge file.state file'.state

/-- **What is superseded stays so**, and is not exposed. -/
def StaysReplaced (d d' : WorkData) : Prop :=
  ∀ id file, documentVersions.find d id = some file → file.state = .superseded →
    ∃ file', documentVersions.find d' id = some file' ∧ file'.state = .superseded
      ∧ isDocumentExposable file'.state file'.scan = false

theorem StaysReplaced.refl (d : WorkData) : StaysReplaced d d := by
  intro id file hfile hstate
  refine ⟨file, hfile, hstate, ?_⟩
  rw [hstate]
  exact not_exposable_superseded _

/-- The version a call reviews. -/
def Outcome.reviewOf : Outcome → Option Uuid
  | .reviewed versionId => some versionId
  | .requestReviewed _ versionId _ => some versionId
  | _ => none

/-- **No review is of a version that is superseded.** -/
def ReviewsCurrent (a : Outcome) (d : WorkData) : Prop :=
  ∀ versionId file, a.reviewOf = some versionId → documentVersions.find d versionId = some file →
    file.state ≠ .superseded

/-- **What an upload replaces is settled**: the current version, if there is one, has been
reviewed, rejected or sent back, or has expired. -/
def ReplacesSettled (a : Outcome) (d : WorkData) : Prop :=
  ∀ documentId versionId id file, a = .uploaded documentId versionId →
    documentVersions.find d id = some file → file.documentId = documentId →
    file.versionNumber = latestVersion d documentId →
    file.state ∈ [DocumentState.reviewed, .needsReplacement, .rejected, .expired]

/-- Where no version is written. -/
theorem VersionsFollow.of_same
    (h : ∀ id, documentVersions.find d' id = documentVersions.find d id) : VersionsFollow d d' := by
  intro id file file' hfile hfile'
  rw [Option.some.inj (hfile'.symm.trans ((h id).trans hfile))]
  exact .inl rfl

/-- Where one version is changed. -/
theorem VersionsFollow.of_change {versionId : Uuid} {change : Change VersionRow.id}
    {file : VersionRow} (hfile : documentVersions.find d versionId = some file)
    (hfollows : (change.apply file).state = file.state
      ∨ documentMachine.Edge file.state (change.apply file).state) :
    VersionsFollow d (documentVersions.change versionId change d) := by
  intro id before after hbefore hafter
  by_cases hid : id = versionId
  · subst hid
    rw [documentVersions.find_change_self change hfile] at hafter
    rw [← Option.some.inj hafter, ← Option.some.inj (hfile.symm.trans hbefore)]
    exact hfollows
  · rw [TableIn.find_change_of_ne change d hid] at hafter
    rw [Option.some.inj (hafter.symm.trans hbefore)]
    exact .inl rfl

/-- **An upload follows the machine** exactly when what it replaces is settled. -/
theorem Uploaded.follows_iff {documentId versionId : Uuid} (hd : VersionsOrdered d)
    (h : Uploaded documentId versionId d d') :
    VersionsFollow d d' ↔ ReplacesSettled (.uploaded documentId versionId) d := by
  constructor
  · rintro hfollow documentId' versionId' id file ha hfile hof hnumber
    obtain ⟨rfl, rfl⟩ := Outcome.uploaded.inj ha
    have hafter := hfollow id file _ hfile (h.after hfile)
    rw [if_pos hof] at hafter
    refine edge_superseded_iff.mp (hafter.resolve_left fun hsame => ?_)
    rw [← hof] at hnumber
    exact hd.current id file hfile hnumber hsame.symm
  · intro hsettled id file file' hfile hfile'
    rw [h.after hfile] at hfile'
    rw [← Option.some.inj hfile']
    by_cases hof : file.documentId = documentId
    · rw [if_pos hof]
      by_cases hnumber : file.versionNumber = latestVersion d file.documentId
      · rw [hof] at hnumber
        exact .inr (edge_superseded_iff.mpr (hsettled _ _ id file rfl hfile hof hnumber))
      · exact .inl (hd.replaced id file hfile hnumber).1.symm
    · rw [if_neg hof]
      exact .inl rfl

/-- **A commit follows the machine** exactly when what it replaces is settled; what the
file worker writes is not asked. -/
theorem versionsFollow_iff (hd : VersionsOrdered d) (h : Move a d d') :
    ((∀ versionId, a ≠ .fileProcessed versionId) → VersionsFollow d d') ↔ ReplacesSettled a d := by
  cases h with
  | uploaded h =>
    rw [← h.follows_iff hd]
    exact ⟨fun hfollow => hfollow fun _ ha => (nomatch ha), fun hfollow _ => hfollow⟩
  | reviewed hfile hreviewable _ =>
    refine iff_of_true (fun _ => ?_) fun _ _ _ _ ha => (nomatch ha)
    exact VersionsFollow.of_change hfile (VersionRow.reviewed_follows _ hreviewable)
  | requestReviewed _ _ _ hfile hreviewable _ _ =>
    refine iff_of_true (fun _ => ?_) fun _ _ _ _ ha => (nomatch ha)
    exact VersionsFollow.of_change hfile (VersionRow.reviewed_follows _ hreviewable)
  | fileProcessed _ _ _ =>
    exact iff_of_true (fun hnot => absurd rfl (hnot _)) fun _ _ _ _ ha => (nomatch ha)
  | _ => exact iff_of_true (fun _ => .of_same fun _ => rfl) fun _ _ _ _ ha => (nomatch ha)

/-- **Every commit leaves what is superseded.** -/
theorem Move.staysReplaced (h : Move a d d') : StaysReplaced d d' := by
  intro id file hfile hstate
  suffices hgoal : ∃ file', documentVersions.find d' id = some file' ∧ file'.state = .superseded by
    obtain ⟨file', hfile', hstate'⟩ := hgoal
    refine ⟨file', hfile', hstate', ?_⟩
    rw [hstate']
    exact not_exposable_superseded _
  obtain hsteady | ⟨documentId, versionId, -, huploaded⟩ := h.steady
  · obtain ⟨file', hfile', hplace⟩ := hsteady.after hfile
    exact ⟨file', hfile', (VersionRow.place_eq_iff.mp hplace).2.2.2.mpr hstate⟩
  · refine ⟨_, huploaded.after hfile, ?_⟩
    split_ifs
    · rfl
    · exact hstate

/-- **Every review finds a version that is not superseded.** -/
theorem Move.reviewsCurrent (h : Move a d d') : ReviewsCurrent a d := by
  intro versionId file ha hfile
  cases h with
  | reviewed hfound hreviewable _ =>
    obtain rfl := Option.some.inj ha
    obtain rfl := Option.some.inj (hfile.symm.trans hfound)
    exact VersionRow.not_superseded_of_reviewable hreviewable
  | requestReviewed _ _ _ hfound hreviewable _ _ =>
    obtain rfl := Option.some.inj ha
    obtain rfl := Option.some.inj (hfile.symm.trans hfound)
    exact VersionRow.not_superseded_of_reviewable hreviewable
  | _ => cases ha

/-- **The laws of the versions of documents**, in a run. -/
structure VersionLaws (d : WorkData) (ws : List (World WorkData Row Outcome)) : Prop where
  ordered : ∀ w ∈ ws, VersionsOrdered w.data
  follow : Along (fun w w' => ∀ a, Commit w a w' → (∀ versionId, a ≠ .fileProcessed versionId) →
    VersionsFollow w.data w'.data) d ws
  final : Along (fun w w' => StaysReplaced w.data w'.data) d ws
  current : Along (fun w w' => ∀ a, Commit w a w' → ReviewsCurrent a w.data) d ws

/-- **The laws of versions hold in a run** of any calls, interleaved in any order, if and
only if every upload that commits replaces a version that is settled. -/
theorem versionLaws_iff {ws : List (World WorkData Row Outcome)} (hd : Linked d)
    (hordered : VersionsOrdered d) (hrun : Run WorkCommand d ws) :
    VersionLaws d ws
      ↔ Along (fun w w' => ∀ a, Commit w a w' → ReplacesSettled a w.data) d ws := by
  have hsafe : ∀ p, WorkCommand p → ∀ d, Linked d → Safe work Linked Commits p id [] d :=
    fun _ hp _ hd => hp.safe hd
  have hmove : ∀ w w' a, Reachable WorkCommand d w → Commit w a w' → Move a w.data w'.data :=
    fun _ _ _ hw hcommit => (move_of_commit hsafe hd hw hcommit).2
  have hreached : ∀ {w}, Reachable WorkCommand d w → VersionsOrdered w.data := fun hw =>
    holds_of_reachable hsafe (fun _ _ _ _ hmove => .of_move hmove) hd hordered hw
  have hfollow := along_iff (fun w w' (hw : Reachable WorkCommand d w) _ =>
    forall_congr' fun a => forall_congr' fun hcommit =>
      versionsFollow_iff (hreached hw) (hmove w w' a hw hcommit)) hrun
  refine ⟨fun h => hfollow.mp h.follow, fun h => ⟨fun w hmem => hreached (hrun.reachable hmem),
    hfollow.mpr h, ?_, ?_⟩⟩
  · refine along_of_steps (fun w w' hw hstep => ?_) hrun
    obtain hsame | ⟨a, hcommit⟩ := data_or_commit hstep
    · rw [hsame]
      exact .refl _
    · exact (hmove w w' a hw hcommit).staysReplaced
  · exact along_of_steps (fun w w' hw _ a hcommit => (hmove w w' a hw hcommit).reviewsCurrent) hrun

/-! ## An upload over a version that waits for its review -/

/-- A document of a property, whose version waits for its review. -/
def sampleFile (state : DocumentState) : WorkData where
  cases := Table.empty
  inquiries := Table.empty
  tasks := Table.empty
  requests := Table.empty
  grants := Table.empty
  documents := ⟨[⟨"document", 2, none, some "property", "ownership", "title", .internal, 1, none⟩],
    List.nodup_singleton _⟩
  versions := ⟨[{ VersionRow.new "first" "document" 1 "deed.pdf" "application/pdf" with
    state := state
    scan := .clean }], List.nodup_singleton _⟩

/-- Another upload of the document is about to be committed. -/
def replacing (state : DocumentState) : World WorkData Row Outcome :=
  (List.replicate 8 0).foldl World.advance ((⟨sampleFile state, []⟩ : World WorkData Row
    Outcome).started (startDocumentUpload ⟨true, some "property", some "document", "", 2,
      "ownership", "title", "deed-2.pdf", "application/pdf", "second", 100⟩))

theorem linked_sampleFile (state : DocumentState) : Linked (sampleFile state) :=
  ⟨fun _ _ h => (nomatch h), fun _ _ h => (nomatch h), fun _ _ _ _ h => (nomatch h)⟩

theorem latestVersion_sampleFile (state : DocumentState) (documentId : Uuid) :
    latestVersion (sampleFile state) documentId = if documentId = "document" then 1 else 0 := by
  split_ifs with hid
  · rw [hid]
    rfl
  · have hnone : documents.find (sampleFile state) documentId = none :=
      Table.get?_eq_none.mpr fun row hrow => by
        rw [List.mem_singleton.mp hrow]
        exact Ne.symm hid
    rw [latestVersion, hnone]
    rfl

theorem versionsOrdered_sampleFile {state : DocumentState} (hstate : state ≠ .superseded) :
    VersionsOrdered (sampleFile state) := by
  have honly : ∀ {id : Uuid} {file : VersionRow},
      documentVersions.find (sampleFile state) id = some file → file.id = id ∧ file.state = state
        ∧ file.documentId = "document" ∧ file.versionNumber = 1 ∧ id = "first" := by
    intro id file hfile
    obtain ⟨hmem, rfl⟩ := TableIn.find_eq_some.mp hfile
    rw [List.mem_singleton.mp hmem]
    exact ⟨rfl, rfl, rfl, rfl, rfl⟩
  refine ⟨fun id file hfile => ?_, fun id id' file file' hfile hfile' _ _ => ?_,
    fun documentId number hone hle => ?_, fun id file hfile _ => ?_, fun id file hfile hne => ?_⟩
  · obtain ⟨-, -, hof, hnumber, -⟩ := honly hfile
    rw [latestVersion_sampleFile, hof, hnumber]
    exact ⟨le_refl 1, le_refl 1⟩
  · exact (honly hfile).2.2.2.2.trans (honly hfile').2.2.2.2.symm
  · rw [latestVersion_sampleFile] at hle
    split_ifs at hle with hid
    · exact ⟨"first", _, rfl, hid.symm, Nat.le_antisymm hone hle⟩
    · exact absurd (hone.trans hle) (by decide)
  · rw [(honly hfile).2.1]
    exact hstate
  · obtain ⟨-, -, hof, hnumber, -⟩ := honly hfile
    rw [latestVersion_sampleFile, hof, hnumber] at hne
    exact absurd rfl hne

theorem reachable_replacing (state : DocumentState) :
    Reachable WorkCommand (sampleFile state) (replacing state) :=
  ((Reachable.init _).started (.upload _)).schedule _

/-- The states of the versions. -/
def versionStates (w : World WorkData Row Outcome) : List DocumentState :=
  w.data.versions.rows.map VersionRow.state

theorem answer_replacing :
    (replacing .readyForReview).answer 0 = some (.uploaded "document" "second")
    ∧ (replacing .reviewed).answer 0 = some (.uploaded "document" "second") := by
  decide +kernel

/-- **An upload supersedes a version that waits for its review**, which is no edge. -/
theorem not_versionLaws_replacing : ¬ ∀ (d : WorkData) (ws : List (World WorkData Row Outcome)),
    Linked d → VersionsOrdered d → Run WorkCommand d ws → VersionLaws d ws := by
  intro hlaws
  have hcommit := commit_of_answer answer_replacing.1
  obtain ⟨ws, hrun, -, hlast⟩ := exists_run (reachable_replacing .readyForReview) (hcommit.step _)
  have hfollow := hlast _ (hlaws _ ws (linked_sampleFile .readyForReview)
    (versionsOrdered_sampleFile (by decide)) hrun).follow _ hcommit (fun _ h => (nomatch h))
  have hbefore : (documentVersions.find (replacing .readyForReview).data "first").map
      VersionRow.state = some .readyForReview := by decide +kernel
  have hafter : (documentVersions.find ((replacing .readyForReview).advance 0).data "first").map
      VersionRow.state = some .superseded := by decide +kernel
  obtain ⟨file, hfile, hstate⟩ := Option.map_eq_some_iff.mp hbefore
  obtain ⟨file', hfile', hstate'⟩ := Option.map_eq_some_iff.mp hafter
  have hedge := hfollow "first" file file' hfile hfile'
  rw [hstate, hstate'] at hedge
  exact absurd hedge (by decide)

/-- **A run in which an upload replaces a version that was reviewed.** -/
theorem versionLaws_iff_reviewed : ∃ ws, Run WorkCommand (sampleFile .reviewed) ws
    ∧ (replacing .reviewed).advance 0 ∈ ws
    ∧ versionStates ((replacing .reviewed).advance 0) = [.uploading, .superseded]
    ∧ (VersionLaws (sampleFile .reviewed) ws
      ↔ Along (fun w w' => ∀ a, Commit w a w' → ReplacesSettled a w.data) (sampleFile .reviewed)
        ws) := by
  obtain ⟨ws, hrun, hmem, -⟩ := exists_run (reachable_replacing .reviewed)
    ((commit_of_answer answer_replacing.2).step _)
  exact ⟨ws, hrun, hmem, by decide +kernel, versionLaws_iff (linked_sampleFile .reviewed)
    (versionsOrdered_sampleFile (by decide)) hrun⟩

end CaseWork
