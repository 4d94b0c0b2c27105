import MsRealty.CanonicalText
import MsRealty.ReleaseCounting

/-!
# A report may be relied on until it expires

The clock only takes from an evaluation what its expiry accounts for. Evidence
that counts goes on counting until then (`counts_later`), and what begins to
count blocks nothing: a gate that asks for a complete manifest passes only when
every artifact of the manifest counts already (`counted_eq_of_complete`), and
every other condition of a gate asks for evidence, or for gates before it.

So a gate that passes in a report passes in every report until that one expires,
whatever the order of the files (`passes_until_expiry`).
-/

namespace Release

variable {host : Host} {input : EvaluationInput} {now now' : Instant}

/-- **An artifact's reasons later on**: there are none until it is too old or
expires. Only the clock's depend on the instant. -/
theorem assessArtifact_later {artifact : EvidenceArtifact} {manifest : ReleaseManifest}
    {policy : GatePolicy} {admission : List String}
    (h : assessArtifact host artifact manifest policy now admission = []) (hle : now ≤ now')
    (hage : ∀ age ∈ (policy.evidenceType artifact.type).bind EvidenceType.maxAgeMinutes,
      now' < artifact.observedAt.time + (age : ℤ) * 60000)
    (hexpires : ∀ expires ∈ artifact.expiresAt, now' < expires.time) :
    assessArtifact host artifact manifest policy now' admission = [] := by
  obtain ⟨type, htype, hadmission, hproblems, hbinding, htimely, hreview⟩ :=
    assessArtifact_eq_nil.mp h
  rw [htype] at hage
  exact assessArtifact_eq_nil.mpr ⟨type, htype, hadmission, hproblems, hbinding,
    ⟨htimely.observed.trans (Int.add_le_add_right hle _), hage, hexpires⟩, hreview⟩

/-! ## The expiry -/

theorem lt_foldl_min {t x : Instant} {times : List Instant} :
    t < times.foldl min x ↔ t < x ∧ ∀ time ∈ times, t < time := by
  induction times generalizing x with
  | nil => simp
  | cons time times ih => simp [ih, and_assoc]

/-- An instant before the least is before all. -/
theorem lt_of_lt_least {t time : Instant} {times : List Instant} (h : t < least times)
    (hmem : time ∈ times) : t < time := by
  cases times with
  | nil => cases hmem
  | cons x times =>
    obtain ⟨hx, htimes⟩ := lt_foldl_min.mp h
    rcases List.mem_cons.mp hmem with rfl | hmem
    · exact hx
    · exact htimes time hmem

/-- Until a report expires, no evidence that counts is too old. -/
theorem lt_age_of_lt_expires {artifact : EvidenceArtifact} {age : ℕ}
    (h : now' < input.expires host) (hmem : artifact ∈ input.counted host)
    (hage : age ∈ (input.policy.evidenceType artifact.type).bind EvidenceType.maxAgeMinutes) :
    now' < artifact.observedAt.time + (age : ℤ) * 60000 := by
  refine lt_of_lt_least h ?_
  rw [expiryTimes, List.mem_append, List.mem_cons, List.mem_flatMap]
  refine Or.inl (Or.inr ⟨artifact, hmem, ?_⟩)
  rw [Option.mem_def.mp hage]
  simp

/-- Until a report expires, no evidence that counts expires. -/
theorem lt_expiresAt_of_lt_expires {artifact : EvidenceArtifact} {expires : InstantText}
    (h : now' < input.expires host) (hmem : artifact ∈ input.counted host)
    (hexpires : expires ∈ artifact.expiresAt) : now' < expires.time := by
  refine lt_of_lt_least h ?_
  rw [expiryTimes, List.mem_append, List.mem_cons, List.mem_flatMap]
  refine Or.inl (Or.inr ⟨artifact, hmem, ?_⟩)
  rw [Option.mem_def.mp hexpires]
  simp

/-- Until a report expires, its recovery point is not too old, unless it was. -/
theorem lt_sealed_of_lt_expires {point : RecoveryPoint} {age : ℕ} (h : now' < input.expires host)
    (hpoint : input.manifest.recoveryPoint = some point)
    (hage : recoveryAge input.policy = some age)
    (hlt : input.now < point.sealedAt.time + (age : ℤ) * 60000) :
    now' < point.sealedAt.time + (age : ℤ) * 60000 := by
  refine lt_of_lt_least h ?_
  rw [expiryTimes, List.mem_append, hpoint, hage]
  exact Or.inr (by simp [hlt])

/-! ## Evidence later on -/

/-- **Evidence that counts goes on counting** until the report expires. -/
theorem counts_later {artifact : EvidenceArtifact} (hmem : artifact ∈ input.counted host)
    (hle : input.now ≤ now') (hlt : now' < input.expires host) :
    ({ input with now := now' } : EvaluationInput).counts host artifact = true := by
  have hcounts := (mem_counted.mp hmem).2
  unfold EvaluationInput.counts at hcounts ⊢
  rw [Bool.and_eq_true, List.isEmpty_iff] at hcounts ⊢
  exact ⟨assessArtifact_later hcounts.1 hle (fun age hage => lt_age_of_lt_expires hlt hmem hage)
    (fun expires hexpires => lt_expiresAt_of_lt_expires hlt hmem hexpires), hcounts.2⟩

theorem counted_subset_later (hle : input.now ≤ now') (hlt : now' < input.expires host) :
    input.counted host ⊆ ({ input with now := now' } : EvaluationInput).counted host :=
  fun _ hmem => mem_counted.mpr ⟨(mem_counted.mp hmem).1, counts_later hmem hle hlt⟩

/-- **Where every artifact of the manifest counts, nothing begins to count**: one
that would has the id of one that does. -/
theorem counted_eq_of_complete (hle : input.now ≤ now') (hlt : now' < input.expires host)
    (hcomplete : ∀ id ∈ input.manifest.evidenceIds,
      ∃ artifact ∈ input.counted host, artifact.id = id) :
    ({ input with now := now' } : EvaluationInput).counted host = input.counted host := by
  rw [counted_eq, counted_eq]
  refine List.filter_congr fun artifact hmem => ?_
  rw [Bool.eq_iff_iff]
  constructor
  · intro hcounts
    have hreasons := (Bool.and_eq_true_iff.mp hcounts).1
    obtain ⟨known, hknown, hid⟩ := hcomplete artifact.id
      (mem_evidenceIds_of_assessArtifact (List.isEmpty_iff.mp hreasons))
    have hsame : artifact = known :=
      eq_of_counts (mem_counted.mp hknown).1 hmem hid.symm (mem_counted.mp hknown).2
    exact hsame ▸ (mem_counted.mp hknown).2
  · intro hcounts
    exact counts_later (mem_counted.mpr ⟨hmem, hcounts⟩) hle hlt

/-! ## Gaps later on -/

theorem approvalVerified_later {manifest : ReleaseManifest} {policy : GatePolicy}
    {counted : List EvidenceArtifact} {approval : Approval} (hle : now ≤ now')
    (h : approvalVerified host manifest policy now counted approval = true) :
    approvalVerified host manifest policy now' counted approval = true := by
  unfold approvalVerified at h ⊢
  cases hproof : counted.find? (fun artifact => artifact.id == approval.evidenceId) with
  | none => simp [hproof] at h
  | some proof =>
    rw [hproof, Option.any_some] at h
    rw [Option.any_some]
    simp only [Bool.and_eq_true, decide_eq_true_iff] at h ⊢
    obtain ⟨⟨⟨hchecks, happroved⟩, hobserved⟩, hrole⟩ := h
    exact ⟨⟨⟨hchecks, happroved.trans hle⟩, hobserved⟩, hrole⟩

theorem recoveryGaps_later (h : recoveryGaps input.manifest input.policy input.now = [])
    (hle : input.now ≤ now') (hlt : now' < input.expires host) :
    recoveryGaps input.manifest input.policy now' = [] := by
  unfold recoveryGaps at h ⊢
  cases hpoint : input.manifest.recoveryPoint with
  | none => rfl
  | some point =>
    rw [hpoint] at h
    simp only [List.append_eq_nil_iff, reason_eq_nil, decide_eq_false_iff_not, not_lt] at h ⊢
    refine ⟨h.1.trans hle, ?_⟩
    cases hage : recoveryAge input.policy with
    | none => rfl
    | some age =>
      have hfresh := h.2
      rw [hage, Option.any_some, decide_eq_false_iff_not, not_le] at hfresh
      rw [Option.any_some, decide_eq_false_iff_not, not_le]
      exact sub_lt_iff_lt_add'.mpr
        (lt_sealed_of_lt_expires hlt hpoint hage (sub_lt_iff_lt_add'.mp hfresh))

/-- **A release without gaps has none** until its report expires. -/
theorem allGaps_later (hle : input.now ≤ now') (hlt : now' < input.expires host)
    (h : allGaps host input.manifest input.policy input.now (input.counted host) = []) :
    allGaps host input.manifest input.policy now'
      (({ input with now := now' } : EvaluationInput).counted host) = [] := by
  simp only [allGaps, List.append_eq_nil_iff, List.flatMap_eq_nil_iff, reason_eq_nil,
    Bool.not_eq_false'] at h
  obtain ⟨⟨⟨⟨⟨hmanifest, hevidence⟩, happrovals⟩, hseparate⟩, hbridge⟩, hrecovery⟩ := h
  rw [counted_eq_of_complete hle hlt fun id hid => by simpa using hevidence id hid]
  simp only [allGaps, List.append_eq_nil_iff, List.flatMap_eq_nil_iff, reason_eq_nil,
    Bool.not_eq_false']
  exact ⟨⟨⟨⟨⟨hmanifest, hevidence⟩,
    fun approval hmem => approvalVerified_later hle (happrovals approval hmem)⟩, hseparate⟩,
    hbridge⟩, recoveryGaps_later hrecovery hle hlt⟩

theorem legacyApproved_later {policy : GatePolicy} {counted counted' : List EvidenceArtifact}
    {legacy : LegacyGate} (hle : now ≤ now') (hsub : counted ⊆ counted')
    (h : legacyApproved host policy now counted legacy = true) :
    legacyApproved host policy now' counted' legacy = true := by
  unfold legacyApproved at h ⊢
  cases happroval : legacy.approval with
  | none => simp [happroval] at h
  | some approval =>
    rw [happroval, Option.any_some, Bool.and_eq_true, decide_eq_true_iff] at h
    rw [Option.any_some, Bool.and_eq_true, decide_eq_true_iff]
    obtain ⟨artifact, hmem, hchecks⟩ := List.any_eq_true.mp h.2
    exact ⟨h.1.trans hle, List.any_eq_true.mpr ⟨artifact, hsub hmem, hchecks⟩⟩

/-! ## Gates later on -/

/-- **What is known later**: more evidence counts, and no gap has opened. -/
structure GateInputs.Later (host : Host) (inputs inputs' : GateInputs) : Prop where
  manifest : inputs'.manifest = inputs.manifest
  policy : inputs'.policy = inputs.policy
  trust : inputs'.trust = inputs.trust
  now : inputs.now ≤ inputs'.now
  counted : inputs.counted ⊆ inputs'.counted
  gaps : allGaps host inputs.manifest inputs.policy inputs.now inputs.counted = [] →
    allGaps host inputs.manifest inputs.policy inputs'.now inputs'.counted = []

variable {inputs inputs' : GateInputs}

theorem gateInputs_later (hle : input.now ≤ now') (hlt : now' < input.expires host) :
    (input.gateInputs host).Later host
      (({ input with now := now' } : EvaluationInput).gateInputs host) where
  manifest := rfl
  policy := rfl
  trust := rfl
  now := hle
  counted := counted_subset_later hle hlt
  gaps := allGaps_later hle hlt

/-- Evidence of a gate is found among more evidence. -/
theorem GateInputs.Later.own (hlater : inputs.Later host inputs') {id : GateId}
    {p : EvidenceArtifact → Bool} (h : (inputs.own id).any p = true) :
    (inputs'.own id).any p = true := by
  obtain ⟨artifact, hmem, hp⟩ := List.any_eq_true.mp h
  obtain ⟨hcounted, hgate⟩ := List.mem_filter.mp hmem
  exact List.any_eq_true.mpr
    ⟨artifact, List.mem_filter.mpr ⟨hlater.counted hcounted, hgate⟩, hp⟩

theorem authorityBlockers_later (hlater : inputs.Later host inputs') {model : SingleOperator}
    (h : authorityBlockers host inputs model = []) : authorityBlockers host inputs' model = [] := by
  simp only [authorityBlockers, List.append_eq_nil_iff, reason_eq_nil, Bool.not_eq_false',
    hlater.manifest, hlater.policy, hlater.trust] at h ⊢
  exact ⟨h.1, hlater.own h.2⟩

/-- **A gate that nothing blocks is not blocked later**, if the gates before it
that pass still do. -/
theorem gateBlockers_later (hlater : inputs.Later host inputs') {passed passed' : GateId → Bool}
    (hpassed : ∀ id, passed id = true → passed' id = true) {gate : Gate}
    (h : gateBlockers host inputs passed gate = []) :
    gateBlockers host inputs' passed' gate = [] := by
  simp only [gateBlockers, List.append_eq_nil_iff, List.flatMap_eq_nil_iff, reason_eq_nil,
    Bool.not_eq_false', hlater.manifest, hlater.policy] at h ⊢
  obtain ⟨⟨⟨⟨⟨⟨hstage, hdepends⟩, hevidence⟩, hassertions⟩, hcomplete⟩, hlegacy⟩, hsingle⟩ := h
  refine ⟨⟨⟨⟨⟨⟨hstage, fun dependency hmem => hpassed _ (hdepends dependency hmem)⟩,
    fun type hmem => hlater.own (hevidence type hmem)⟩,
    fun id hmem => hlater.own (hassertions id hmem)⟩, ?_⟩, ?_⟩, ?_⟩
  · rw [Bool.and_eq_false_iff, Bool.not_eq_false', List.isEmpty_iff] at hcomplete ⊢
    exact hcomplete.imp_right hlater.gaps
  · split_ifs at hlegacy ⊢
    · rw [List.flatMap_eq_nil_iff] at hlegacy ⊢
      intro legacy hmem
      have happroved := hlegacy legacy hmem
      rw [reason_eq_nil, Bool.and_eq_false_iff, Bool.not_eq_false'] at happroved ⊢
      exact happroved.imp_right (legacyApproved_later hlater.now hlater.counted)
    · rfl
  · cases hmodel : inputs.policy.singleOperator with
    | none => rfl
    | some model =>
      rw [hmodel] at hsingle
      simp only [List.append_eq_nil_iff] at hsingle ⊢
      refine ⟨?_, hsingle.2⟩
      split_ifs at hsingle ⊢
      · exact authorityBlockers_later hlater hsingle.1
      · rfl

/-! ## The report later on -/

theorem lookup_cons_pass {status status' : GateStatus}
    {statuses statuses' : List (GateId × GateStatus)} {own : GateId}
    (hstatus : status = .pass → status' = .pass)
    (hstatuses : ∀ id, statuses.lookup id = some .pass → statuses'.lookup id = some .pass)
    (id : GateId) (h : ((own, status) :: statuses).lookup id = some .pass) :
    ((own, status') :: statuses').lookup id = some .pass := by
  rw [List.lookup_cons] at h ⊢
  cases hid : id == own with
  | true =>
    rw [hid] at h
    exact congrArg some (hstatus (Option.some.inj h))
  | false =>
    rw [hid] at h
    exact hstatuses id h

/-- **The gates later on**: each that passes still does. -/
theorem reportGates_later (hlater : inputs.Later host inputs') {gates : List Gate}
    {statuses statuses' : List (GateId × GateStatus)}
    (hstatuses : ∀ id, statuses.lookup id = some .pass → statuses'.lookup id = some .pass)
    {reported : ReportedGate} (hmem : reported ∈ reportGates host inputs gates statuses)
    (hpass : reported.status = .pass) :
    ∃ later ∈ reportGates host inputs' gates statuses',
      later.id = reported.id ∧ later.status = .pass := by
  induction gates generalizing statuses statuses' with
  | nil => cases hmem
  | cons gate gates ih =>
    have hkept : (reportGate host inputs
          (fun id => statuses.lookup id == some .pass) gate).status = .pass →
        (reportGate host inputs'
          (fun id => statuses'.lookup id == some .pass) gate).status = .pass := by
      intro h
      rw [reportGate_status] at h ⊢
      exact gateBlockers_later hlater
        (fun id h => beq_iff_eq.mpr (hstatuses id (beq_iff_eq.mp h))) h
    rcases List.mem_cons.mp hmem with rfl | hmem
    · exact ⟨_, List.mem_cons_self, rfl, hkept hpass⟩
    · obtain ⟨later, hlatermem, hlater⟩ := ih (lookup_cons_pass hkept hstatuses) hmem
      exact ⟨later, List.mem_cons_of_mem _ hlatermem, hlater⟩

/-- A gate that passes in a report passes in the same inputs' later one, until it
expires. -/
theorem report_later {gate : GateId} (hle : input.now ≤ now') (hlt : now' < input.expires host)
    (hpass : (input.report host).passes gate) :
    (({ input with now := now' } : EvaluationInput).report host).passes gate := by
  obtain ⟨reported, hmem, hid, hstatus⟩ := hpass
  obtain ⟨later, hlater, hlaterid, hkept⟩ :=
    reportGates_later (gateInputs_later hle hlt) (fun _ h => h) hmem hstatus
  exact ⟨later, hlater, hlaterid.trans hid, hkept⟩

instance : Std.Total fileLE := ⟨fun _ _ => JsonText.unitsLE_total _ _⟩

instance : IsTrans EvidenceFile fileLE := ⟨fun _ _ _ => JsonText.unitsLE_trans⟩

theorem file_eq_of_fileLE {a b : EvidenceFile} (hab : fileLE a b) (hba : fileLE b a) :
    a.file = b.file := by
  have hunits := CanonicalText.unitsLE_antisymm hab hba
  rw [← String.toList_inj, ← Utf16.decode_encode a.file.toList, hunits, Utf16.decode_encode]

/-- **The order of the files is of no matter**, as their paths are their own. -/
theorem insertionSort_files {files files' : List EvidenceFile}
    (hnodup : (files.map EvidenceFile.file).Nodup) (hperm : files'.Perm files) :
    files'.insertionSort fileLE = files.insertionSort fileLE := by
  refine List.Perm.eq_of_pairwise ?_ (List.pairwise_insertionSort fileLE _)
    (List.pairwise_insertionSort fileLE _)
    ((List.perm_insertionSort _ _).trans (hperm.trans (List.perm_insertionSort _ _).symm))
  intro a b ha hb hab hba
  exact List.inj_on_of_nodup_map hnodup (hperm.mem_iff.mp ((List.mem_insertionSort fileLE).mp ha))
    ((List.mem_insertionSort fileLE).mp hb) (file_eq_of_fileLE hab hba)

/-- What is assessed of the same files in another order. -/
theorem report_perm {files : List EvidenceFile}
    (hnodup : (input.evidence.map EvidenceFile.file).Nodup) (hperm : files.Perm input.evidence) :
    ({ input with evidence := files } : EvaluationInput).report host = input.report host := by
  have hassessed : ({ input with evidence := files } : EvaluationInput).assessed host
      = input.assessed host := by
    unfold EvaluationInput.assessed assessEvidence
    rw [insertionSort_files hnodup hperm]
  simp only [EvaluationInput.report, EvaluationInput.gates, EvaluationInput.gateInputs,
    EvaluationInput.expires, EvaluationInput.counted, hassessed]
  rfl

/-- The same files, read in another order a minute later. -/
def sampleLater : EvaluationInput :=
  { sampleInput with
    now := sampleInput.now + 60000
    evidence := sampleInput.evidence.reverse }

theorem sampleLater_reported : sampleLater.Reported sampleHost where
  policy := by decide +kernel
  manifest := by decide +kernel
  trust := rfl
  now := by decide
  files := by decide
  expires := by decide +kernel
  report := by decide +kernel

/-! ## Until the expiry -/

/-- **A gate that passes in a report passes in every report until that one
expires**, whatever the order of the files. -/
theorem passes_until_expiry {files : List EvidenceFile} {report report' : ReadinessReport}
    {gate : GateId} {expires : Instant} (h : evaluateRelease host input = .ok report)
    (hpass : report.passes gate) (hle : input.now ≤ now')
    (hexpires : IsoInstant.parseISO report.expiresAt.toList = some expires) (hlt : now' < expires)
    (hfiles : files.Perm input.evidence)
    (h' : evaluateRelease host { input with now := now', evidence := files } = .ok report') :
    report'.passes gate := by
  obtain ⟨hreported, rfl⟩ := evaluateRelease_eq_ok.mp h
  obtain ⟨-, rfl⟩ := evaluateRelease_eq_ok.mp h'
  have hreport : ({ input with now := now', evidence := files } : EvaluationInput).report host
      = ({ input with now := now' } : EvaluationInput).report host :=
    @report_perm host { input with now := now' } files hreported.files hfiles
  have hread : IsoInstant.parseISO (input.report host).expiresAt.toList
      = some (input.expires host) := by
    rw [EvaluationInput.report, String.toList_ofList]
    exact IsoInstant.parseISO_toISOText hreported.expires
  obtain rfl : input.expires host = expires := Option.some.inj (hread.symm.trans hexpires)
  have hlater := report_later hle hlt hpass
  rw [← hreport] at hlater
  exact hlater

theorem sampleInput_expires : IsoInstant.parseISO (sampleInput.report sampleHost).expiresAt.toList
    = some (sampleInput.now + 1200000) := by decide +kernel

/-- A gate of the sample passes a minute later. -/
theorem passes_until_expiry_sample : ∃ report, evaluateRelease sampleHost sampleLater = .ok report
    ∧ report.passes .r00 := by
  have h := evaluateRelease_eq_ok.mpr ⟨sampleInput_reported, rfl⟩
  have h' := evaluateRelease_eq_ok.mpr ⟨sampleLater_reported, rfl⟩
  exact ⟨_, h', passes_until_expiry h sampleInput_passes (by decide) sampleInput_expires
    (by decide) (List.reverse_perm _) h'⟩

end Release
