import MsRealty.ReleaseCounting

/-!
# A gate passes only on verified evidence

What a report says of a gate that passes (`passes_sound`): every gate it depends
on passes, and each type of evidence and each assertion it asks for is proved by
an artifact of which everything has been verified (`Verified`). Where reviewers
are separate from operators, the acceptance of a release moreover rests on two
approvals by two signers (`SeparateApprovals`).
-/

namespace Release

variable {host : Host} {input : EvaluationInput}

/-! ## Signatures -/

/-- **An artifact is signed with a key** of the policy that is trusted for its type. -/
structure Signed (host : Host) (policy : GatePolicy) (artifact : EvidenceArtifact)
    (key : TrustedKey) : Prop where
  trusted : key ∈ policy.trustedKeys
  forType : artifact.type ∈ key.evidenceTypes
  verified : ∃ signature, artifact.signature = some signature ∧ signature.keyId = key.keyId
    ∧ host.verify key.publicKey { artifact with signature := none } signature.value = true

theorem checkSignature_eq_valid {policy : GatePolicy} {artifact : EvidenceArtifact}
    (h : checkSignature host artifact policy = .valid) : ∃ key, Signed host policy artifact key := by
  unfold checkSignature at h
  split at h
  · cases h
  · rename_i signature hsignature
    split at h
    · cases h
    · rename_i key hkey
      have hfits := List.find?_some hkey
      rw [Bool.and_eq_true, beq_iff_eq, List.contains_iff_mem] at hfits
      refine ⟨key, List.mem_of_find?_eq_some hkey, hfits.2, signature, hsignature, hfits.1.symm, ?_⟩
      by_contra hverify
      split_ifs at h
      split at h
      · cases h
      · cases h
      · cases h

/-! ## Verified evidence -/

/-- **An artifact is bound** to the release and the policy, as its type asks. -/
structure EvidenceType.Binds (host : Host) (input : EvaluationInput) (type : EvidenceType)
    (artifact : EvidenceArtifact) : Prop where
  listed : artifact.id ∈ input.manifest.evidenceIds
  pinned : input.manifest.evidenceDigests.lookup artifact.id = some (host.evidenceDigest artifact)
  release : artifact.releaseSha = input.manifest.releaseSha
  revision : artifact.policyRevision = input.policy.policyRevision
  policy : artifact.policyDigest = host.policyDigest input.policy
  data : artifact.dataDigest = releaseContextDigest host input.manifest
  environment : .of artifact.environment ∈ type.environments
    ∨ .release ∈ type.environments ∧ artifact.environment = input.manifest.environment
  evidenceClass : artifact.evidenceClass ∈ type.classes
  /-- Only tests are from where no release is deployed. -/
  deployed : artifact.evidenceClass = .test ↔ artifact.environment.isDeployed = false
  redacted : artifact.redactionStatus ≠ .unredactedRestricted
  artifacts : type.bindsArtifacts = true → ∀ entry ∈ input.manifest.artifacts.entries,
    ∃ expected, entry.2 = some expected ∧ artifact.digests.lookup entry.1 = some expected

/-- **An artifact is reviewed and signed** as its type asks, and asserts what it asks. -/
structure EvidenceType.Reviews (host : Host) (input : EvaluationInput) (type : EvidenceType)
    (artifact : EvidenceArtifact) : Prop where
  reviewed : type.reviewerRequired = true → artifact.reviewer.isSome = true
  signed : type.signatureRequired = true → ∃ key, Signed host input.policy artifact key
  passed : ∀ assertion ∈ artifact.assertions, assertion.passed = true
  asserted : ∀ id ∈ type.requiredAssertions, artifact.asserts id = true

/-- **Everything that is verified of an artifact** that counts for a gate. -/
structure Verified (host : Host) (input : EvaluationInput) (gate : GateId)
    (artifact : EvidenceArtifact) : Prop where
  offered : artifact.gate = gate
  /-- A file holds it, and no other file holds an artifact of its id. -/
  file : ∃ file ∈ input.evidence, file.artifact host = some artifact
    ∧ ∀ other ∈ input.evidence, ∀ found ∈ other.artifact host,
      found.id = artifact.id → other = file
  /-- The manifest lists it once. -/
  once : input.manifest.evidenceIds.count artifact.id = 1
  type : ∃ type ∈ input.policy.evidenceTypes, type.id = artifact.type
    ∧ type.Binds host input artifact ∧ type.Timely artifact input.now
    ∧ type.Reviews host input artifact

theorem bindingReasons_eq_nil {type : EvidenceType} {artifact : EvidenceArtifact}
    (h : bindingReasons host input.manifest input.policy type artifact = []) :
    type.Binds host input artifact := by
  simp only [bindingReasons, List.append_eq_nil_iff, reason_eq_nil, bne_eq_false_iff_eq,
    Bool.not_eq_false', List.contains_iff_mem, beq_eq_false_iff_ne, Bool.and_eq_false_iff] at h
  obtain ⟨⟨⟨⟨⟨⟨⟨⟨⟨⟨hpinned, hrelease⟩, hrevision⟩, hpolicy⟩, hdata⟩, henvironment⟩, hclass⟩, hlive⟩,
    htest⟩, hredacted⟩, hartifacts⟩ := h
  have hlisted : artifact.id ∈ input.manifest.evidenceIds := by
    by_contra hmem
    simp [hmem] at hpinned
  refine
    { listed := hlisted, pinned := ?_, release := hrelease, revision := hrevision
      policy := hpolicy, data := hdata, environment := ?_, evidenceClass := hclass
      deployed := ?_, redacted := hredacted, artifacts := ?_ }
  · simpa [hlisted] using hpinned
  · obtain ⟨accepted, hmem, haccepted⟩ := List.any_eq_true.mp henvironment
    cases accepted with
    | of environment =>
      obtain rfl := beq_iff_eq.mp haccepted
      exact Or.inl hmem
    | release => exact Or.inr ⟨hmem, beq_iff_eq.mp haccepted⟩
  · constructor
    · exact htest.resolve_left ∘ not_not_intro
    · intro hplace
      exact hlive.resolve_right (by simp [hplace])
  · intro hbinds entry hmem
    rw [if_pos hbinds, List.flatMap_eq_nil_iff] at hartifacts
    have hentry := hartifacts entry hmem
    cases hexpected : entry.2 with
    | none => simp [hexpected] at hentry
    | some expected =>
      simp only [hexpected, reason_eq_nil, bne_eq_false_iff_eq] at hentry
      exact ⟨expected, rfl, hentry⟩

theorem reviewReasons_eq_nil {type : EvidenceType} {artifact : EvidenceArtifact}
    (h : reviewReasons host input.policy type artifact = []) :
    type.Reviews host input artifact := by
  simp only [reviewReasons, List.append_eq_nil_iff, List.flatMap_eq_nil_iff, reason_eq_nil,
    Bool.not_eq_false', Bool.and_eq_false_iff, List.any_eq_false] at h
  obtain ⟨⟨⟨hreviewed, hsigned⟩, hpassed⟩, hasserted⟩ := h
  refine
    { reviewed := fun hrequired => ?_, signed := fun hrequired => ?_
      passed := fun assertion hmem => by simpa using hpassed assertion hmem
      asserted := hasserted }
  · simpa [hrequired] using hreviewed
  · rw [if_pos (by simp [hrequired]), reason_eq_nil, bne_eq_false_iff_eq] at hsigned
    exact checkSignature_eq_valid hsigned

/-- A file whose artifact counts is the only one with its id. -/
theorem exists_file {artifact : EvidenceArtifact} (hmem : artifact ∈ input.counted host) :
    ∃ file ∈ input.evidence, file.artifact host = some artifact
      ∧ ∀ other ∈ input.evidence, ∀ found ∈ other.artifact host,
        found.id = artifact.id → other = file := by
  obtain ⟨hartifact, hcounts⟩ := mem_counted.mp hmem
  obtain ⟨file, hfile, hholds⟩ := List.mem_filterMap.mp hartifact
  have hcount := decide_eq_true_iff.mp (Bool.and_eq_true_iff.mp hcounts).2
  rw [EvaluationInput.artifacts, List.countP_filterMap] at hcount
  refine ⟨file, (List.mem_insertionSort fileLE).mp hfile, hholds,
    fun other hother found hfound hid => ?_⟩
  refine eq_of_countP_le_one hcount ((List.mem_insertionSort fileLE).mpr hother) hfile ?_ ?_
  · simp [Option.mem_def.mp hfound, hid]
  · simp [hholds]

/-- **Of an artifact that counts, everything has been verified.** -/
theorem verified_of_mem_counted {artifact : EvidenceArtifact}
    (hmanifest : input.manifest.refined = true) (hmem : artifact ∈ input.counted host) :
    Verified host input artifact.gate artifact := by
  have hreasons := (Bool.and_eq_true_iff.mp (mem_counted.mp hmem).2).1
  obtain ⟨type, htype, -, -, hbinding, htimely, hreview⟩ :=
    assessArtifact_eq_nil.mp (List.isEmpty_iff.mp hreasons)
  have hnodup := decide_eq_true_iff.mp (Bool.and_eq_true_iff.mp hmanifest).1
  have hbinds := bindingReasons_eq_nil hbinding
  refine ⟨rfl, exists_file hmem, List.count_eq_one_of_mem hnodup hbinds.listed, type,
    List.mem_of_find?_eq_some htype, ?_, hbinds, htimely, reviewReasons_eq_nil hreview⟩
  simpa using List.find?_some htype

/-! ## Gates -/

/-- The gates that a gate asks to pass before it. -/
def GatePolicy.DependsOn (policy : GatePolicy) (id dependency : GateId) : Prop :=
  ∃ gate ∈ policy.gates, gate.id = id ∧ dependency ∈ gate.dependsOn

/-- **What is proved for a gate**: each type of evidence and each assertion it asks for. -/
structure Proved (host : Host) (input : EvaluationInput) (gate : Gate) : Prop where
  evidence : ∀ type ∈ gate.requiredEvidence, ∃ artifact, Verified host input gate.id artifact
    ∧ artifact.type = type
  assertions : ∀ id ∈ gate.requiredAssertions, ∃ artifact, Verified host input gate.id artifact
    ∧ artifact.asserts id = true

/-- **Each gate is reported** from those before it. -/
theorem mem_reportGates {inputs : GateInputs} {gates : List Gate}
    {statuses : List (GateId × GateStatus)} {reported : ReportedGate}
    (hmem : reported ∈ reportGates host inputs gates statuses) :
    ∃ gate ∈ gates, ∃ passed : GateId → Bool, reported = reportGate host inputs passed gate
      ∧ ∀ id, passed id = true → statuses.lookup id = some .pass
        ∨ ∃ earlier ∈ reportGates host inputs gates statuses,
          earlier.id = id ∧ earlier.status = .pass := by
  induction gates generalizing statuses with
  | nil => cases hmem
  | cons gate gates ih =>
    rcases List.mem_cons.mp hmem with rfl | hmem
    · exact ⟨gate, List.mem_cons_self, _, rfl, fun id h => Or.inl (beq_iff_eq.mp h)⟩
    · obtain ⟨later, hlater, passed, hreported, hpassed⟩ := ih hmem
      refine ⟨later, List.mem_cons_of_mem _ hlater, passed, hreported, fun id h => ?_⟩
      rcases hpassed id h with hlookup | ⟨earlier, hearlier, hstatus⟩
      · rw [List.lookup_cons] at hlookup
        cases hid : id == gate.id with
        | true =>
          rw [hid] at hlookup
          exact Or.inr ⟨_, List.mem_cons_self, (beq_iff_eq.mp hid).symm, Option.some.inj hlookup⟩
        | false =>
          rw [hid] at hlookup
          exact Or.inl hlookup
      · exact Or.inr ⟨earlier, List.mem_cons_of_mem _ hearlier, hstatus⟩

/-- A gate that passes is one that nothing blocks, the gates before it passing. -/
theorem exists_gate_of_passes {id : GateId} (h : (input.report host).passes id) :
    ∃ gate ∈ input.policy.gates, gate.id = id ∧ ∃ passed : GateId → Bool,
      gateBlockers host (input.gateInputs host) passed gate = []
        ∧ ∀ dependency, passed dependency = true → (input.report host).passes dependency := by
  obtain ⟨reported, hmem, hid, hstatus⟩ := h
  obtain ⟨gate, hgate, passed, rfl, hpassed⟩ := mem_reportGates hmem
  refine ⟨gate, hgate, hid, passed, (reportGate_status passed gate).mp hstatus,
    fun dependency h => ?_⟩
  rcases hpassed dependency h with hlookup | hearlier
  · cases hlookup
  · exact hearlier

/-- The gates of a policy have ids of their own. -/
theorem gate_eq_of_id_eq (hpolicy : input.policy.refined = true) {gate other : Gate}
    (hgate : gate ∈ input.policy.gates) (hother : other ∈ input.policy.gates)
    (hid : gate.id = other.id) : gate = other := by
  have hids : input.policy.gates.map Gate.id = gateIds := by
    simp only [GatePolicy.refined, Bool.and_eq_true, decide_eq_true_iff] at hpolicy
    tauto
  exact List.inj_on_of_nodup_map (hids ▸ by decide) hgate hother hid

/-- **A gate that nothing blocks is proved**, and the gates it depends on pass. -/
theorem proved_of_gateBlockers (hmanifest : input.manifest.refined = true) {gate : Gate}
    {passed : GateId → Bool}
    (h : gateBlockers host (input.gateInputs host) passed gate = []) :
    Proved host input gate ∧ ∀ dependency ∈ gate.dependsOn, passed dependency = true := by
  simp only [gateBlockers, List.append_eq_nil_iff, List.flatMap_eq_nil_iff, reason_eq_nil,
    Bool.not_eq_false'] at h
  obtain ⟨⟨⟨⟨⟨⟨-, hdepends⟩, hevidence⟩, hassertions⟩, -⟩, -⟩, -⟩ := h
  have hverified : ∀ artifact ∈ (input.gateInputs host).own gate.id,
      Verified host input gate.id artifact := by
    intro artifact hmem
    obtain ⟨hcounted, hgate⟩ := List.mem_filter.mp hmem
    exact beq_iff_eq.mp hgate ▸ verified_of_mem_counted hmanifest hcounted
  refine ⟨⟨fun type hmem => ?_, fun id hmem => ?_⟩, hdepends⟩
  · obtain ⟨artifact, hown, htype⟩ := List.any_eq_true.mp (hevidence type hmem)
    exact ⟨artifact, hverified artifact hown, beq_iff_eq.mp htype⟩
  · obtain ⟨artifact, hown, hasserts⟩ := List.any_eq_true.mp (hassertions id hmem)
    exact ⟨artifact, hverified artifact hown, hasserts⟩

/-! ## Approvals -/

/-- **An approval is approved** by a verified artifact, which a key of the one it
names has signed. -/
def Approved (host : Host) (input : EvaluationInput) (approval : Approval) : Prop :=
  ∃ artifact, Verified host input .r10 artifact ∧ artifact.id = approval.evidenceId
    ∧ ∃ key, Signed host input.policy artifact key ∧ key.owner = approval.name

/-- **The approvals of operators and reviewers who are separate.** -/
structure SeparateApprovals (host : Host) (input : EvaluationInput) : Prop where
  once : ∀ role ∈ [ApprovalRole.operator, .reviewer],
    (input.manifest.approvals.filter (fun approval => approval.role == role)).length = 1
  approved : ∀ approval ∈ input.manifest.approvals, Approved host input approval
  separate : ∀ operator ∈ input.manifest.approvals, operator.role = .operator →
    ∀ reviewer ∈ input.manifest.approvals, reviewer.role = .reviewer →
      operator.name ≠ reviewer.name ∧ operator.evidenceId ≠ reviewer.evidenceId

theorem owner_of_signer {policy : GatePolicy} (hpolicy : policy.refined = true)
    {artifact : EvidenceArtifact} {key : TrustedKey} {owner : String}
    (hsigned : Signed host policy artifact key) (hsigner : signer policy artifact = some owner) :
    key.owner = owner := by
  have hnodup : (policy.trustedKeys.map TrustedKey.keyId).Nodup := by
    simp only [GatePolicy.refined, Bool.and_eq_true, decide_eq_true_iff] at hpolicy
    tauto
  obtain ⟨signature, hsignature, hkeyId, -⟩ := hsigned.verified
  obtain ⟨first, hfirst, rfl⟩ := Option.map_eq_some_iff.mp hsigner
  have hid := List.find?_some hfirst
  rw [beq_iff_eq, hsignature, Option.map_some, Option.some.injEq, hkeyId] at hid
  exact congrArg TrustedKey.owner (List.inj_on_of_nodup_map hnodup hsigned.trusted
    (List.mem_of_find?_eq_some hfirst) hid.symm)

theorem approved_of_approvalVerified (hpolicy : input.policy.refined = true)
    (hmanifest : input.manifest.refined = true) {approval : Approval}
    (h : approvalVerified host input.manifest input.policy input.now (input.counted host) approval
      = true) : Approved host input approval := by
  unfold approvalVerified at h
  cases hproof : (input.counted host).find?
      (fun artifact => artifact.id == approval.evidenceId) with
  | none => simp [hproof] at h
  | some proof =>
    rw [hproof, Option.any_some] at h
    simp only [Bool.and_eq_true, beq_iff_eq] at h
    obtain ⟨⟨⟨⟨⟨⟨⟨⟨-, hgate⟩, -⟩, hcheck⟩, hsigner⟩, -⟩, -⟩, -⟩, -⟩ := h
    obtain ⟨key, hsigned⟩ := checkSignature_eq_valid hcheck
    have hverified := verified_of_mem_counted hmanifest (List.mem_of_find?_eq_some hproof)
    have hid := List.find?_some hproof
    exact ⟨proof, hgate ▸ hverified, beq_iff_eq.mp hid, key, hsigned,
      owner_of_signer hpolicy hsigned hsigner⟩

theorem mem_approvalNames {manifest : ReleaseManifest} {approval : Approval} {role : ApprovalRole}
    (hmem : approval ∈ manifest.approvals) (hrole : approval.role = role) :
    host.toLowerCase approval.name ∈ approvalNames host manifest role :=
  List.mem_map_of_mem (List.mem_filter.mpr ⟨hmem, beq_iff_eq.mpr hrole⟩)

/-- **Without gaps, the approvals are separate.** -/
theorem separateApprovals_of_allGaps (hpolicy : input.policy.refined = true)
    (hmanifest : input.manifest.refined = true) (hmodel : input.policy.singleOperator = none)
    (h : allGaps host input.manifest input.policy input.now (input.counted host) = []) :
    SeparateApprovals host input := by
  simp only [allGaps, List.append_eq_nil_iff, List.flatMap_eq_nil_iff, reason_eq_nil,
    Bool.not_eq_false'] at h
  obtain ⟨⟨⟨⟨⟨hgaps, -⟩, hverified⟩, hseparate⟩, -⟩, -⟩ := h
  simp only [manifestGaps, approvalGaps, hmodel, List.append_eq_nil_iff, List.flatMap_eq_nil_iff,
    reason_eq_nil, bne_eq_false_iff_eq] at hgaps
  obtain ⟨-, ⟨-, honce⟩, hnames⟩ := hgaps
  refine
    { once := honce
      approved := fun approval hmem =>
        approved_of_approvalVerified hpolicy hmanifest (hverified approval hmem)
      separate := fun operator hoperator hrole reviewer hreviewer hrole' => ⟨?_, ?_⟩ }
  · intro hsame
    refine List.any_eq_false.mp hnames _ (mem_approvalNames hreviewer hrole') ?_
    rw [List.contains_iff_mem, ← hsame]
    exact mem_approvalNames hoperator hrole
  · intro hsame
    have heq := List.inj_on_of_nodup_map (decide_eq_true_iff.mp hseparate) hoperator hreviewer hsame
    rw [heq, hrole'] at hrole
    cases hrole

/-! ## Soundness -/

/-- **A gate passes only where it is proved**: the gates it depends on pass, what
it asks for is verified, and a release is accepted by two approvals that are
separate, unless by a single operator. -/
theorem passes_sound {report : ReadinessReport} {id : GateId}
    (h : evaluateRelease host input = .ok report) (hpass : report.passes id) :
    (∀ dependency, Relation.TransGen input.policy.DependsOn id dependency →
      report.passes dependency)
    ∧ (∀ gate ∈ input.policy.gates, gate.id = id → Proved host input gate)
    ∧ (id = .r10 → input.policy.singleOperator = none → SeparateApprovals host input) := by
  obtain ⟨hreported, rfl⟩ := evaluateRelease_eq_ok.mp h
  have hdepends : ∀ {id dependency : GateId}, (input.report host).passes id →
      input.policy.DependsOn id dependency → (input.report host).passes dependency := by
    rintro id dependency hpass ⟨other, hother, hid, hmem⟩
    obtain ⟨gate, hgate, rfl, passed, hblockers, hpassed⟩ := exists_gate_of_passes hpass
    obtain rfl := gate_eq_of_id_eq hreported.policy hother hgate hid
    exact hpassed _ ((proved_of_gateBlockers hreported.manifest hblockers).2 dependency hmem)
  refine ⟨fun dependency hchain => ?_, fun other hother hid => ?_, ?_⟩
  · induction hchain with
    | single hdependency => exact hdepends hpass hdependency
    | tail _ hdependency ih => exact hdepends ih hdependency
  · obtain ⟨gate, hgate, rfl, passed, hblockers, -⟩ := exists_gate_of_passes hpass
    obtain rfl := gate_eq_of_id_eq hreported.policy hother hgate hid
    exact (proved_of_gateBlockers hreported.manifest hblockers).1
  · rintro rfl hmodel
    obtain ⟨gate, hgate, hid, passed, hblockers, -⟩ := exists_gate_of_passes hpass
    have haccepts : [GateId.r10, .r11, .r12].contains gate.id = true := by
      rw [hid]
      decide
    exact separateApprovals_of_allGaps hreported.policy hreported.manifest hmodel
      (@allGaps_of_gateBlockers host (input.gateInputs host) passed gate hreported.policy hgate
        haccepts hblockers)

/-- The first gate of the sample is proved. -/
theorem passes_sound_sample : Proved sampleHost sampleInput (sampleGate .r00) :=
  (passes_sound (evaluateRelease_eq_ok.mpr ⟨sampleInput_reported, rfl⟩) sampleInput_passes).2.1 _
    (List.mem_map_of_mem List.mem_cons_self) rfl

end Release
