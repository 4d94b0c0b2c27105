import MsRealty.Transition

/-!
# Two ways to ask for a permission

A command is permitted in one of two ways: directly, by `can`, or inside a
transition, which is handed the grants that reach the record (`grantsFor`) and
checks them again against the record itself. The grants are handed over
restated: what narrowed them to the record, its case or its property, and
their expiry, has been checked and is left out; their locales stay.

Both ways give the same answer (`allows_eq_restated`), so that a transition is
refused for its permission exactly when the direct check would be
(`permission_agrees`).
-/

namespace Authz

/-- A grant that reaches a record, as a grant on the record itself. -/
def restate (grant : CapabilityGrant) : CapabilityGrant :=
  ⟨grant.capability,
    (grant.scope.bind CapabilityScope.locales).map
      (fun locales => ⟨none, none, some locales, none⟩)⟩

/-- The grants that reach a record, restated. -/
def restated (actor : Actor) (grants : List CapabilityGrant) (resource : Resource)
    (now : Instant) : List CapabilityGrant :=
  (grants.filter (fun grant => allows actor [grant] grant.capability (some resource) now)).map
    restate

/-- **What a record is checked as** by the domain. -/
def recordContext (resource : Resource) (time : Instant) : CapabilityContext :=
  ⟨some resource.type, resource.id, resource.locale, some time⟩

/-- The records that a check is answered at have one locale. -/
theorem locale_of_mem_contextsFor {resource : Resource} {now : Instant} {ctx : CapabilityContext}
    (h : ctx ∈ contextsFor (some resource) now) : ctx.locale = resource.locale := by
  unfold contextsFor at h
  obtain h | h := List.mem_append.mp h
  · obtain rfl | h := List.mem_cons.mp h
    · rfl
    · obtain ⟨id, -, rfl⟩ := Option.map_eq_some_iff.mp (Option.mem_toList.mp h)
      rfl
  · obtain ⟨id, -, rfl⟩ := Option.map_eq_some_iff.mp (Option.mem_toList.mp h)
    rfl

/-- **A grant that gives a capability somewhere gives it, restated, on the record itself**: only
its locales are left to be asked for. -/
theorem restate_gives {grant : CapabilityGrant} {capability : Capability}
    {ctx ctx' : CapabilityContext} (h : grant.gives capability ctx = true)
    (hlocale : ctx.locale = ctx'.locale) : (restate grant).gives capability ctx' = true := by
  obtain ⟨granted, scope⟩ := grant
  unfold CapabilityGrant.gives at h ⊢
  obtain ⟨hcapability, hscope⟩ := Bool.and_eq_true_iff.mp h
  refine Bool.and_eq_true_iff.mpr ⟨hcapability, ?_⟩
  cases scope with
  | none => rfl
  | some scope =>
    obtain ⟨recordType, recordId, locales, expiresAt⟩ := scope
    cases locales with
    | none => rfl
    | some locales =>
      obtain ⟨-, hlocales⟩ := Bool.and_eq_true_iff.mp hscope
      rw [hlocale] at hlocales
      exact hlocales

/-- **When a capability is held.** -/
theorem hasCapability_iff {actor : Actor} {grants : List CapabilityGrant} {capability : Capability}
    {ctx : CapabilityContext} : hasCapability actor grants capability ctx = true ↔
      ¬ (actor.kind = .aiService ∧ isDraftOnly capability = false) ∧
        ∃ grant ∈ grants, grant.gives capability ctx = true := by
  unfold hasCapability
  by_cases hai : actor.kind = .aiService ∧ isDraftOnly capability = false
  · rw [if_pos (by simp [hai])]
    exact iff_of_false (by decide) (fun h => h.1 hai)
  · have hno : ¬ (decide (actor.kind = .aiService) && !isDraftOnly capability) = true := by
      simpa using hai
    rw [if_neg hno, List.any_eq_true]
    exact (and_iff_right hai).symm

/-- **When a check on a record succeeds.** -/
theorem allows_iff {actor : Actor} {grants : List CapabilityGrant} {capability : Capability}
    {resource : Resource} {now : Instant} :
    allows actor grants capability (some resource) now = true ↔
      ¬ (resource.audience = some .internal ∧ actor.kind ∈ clientSideActors) ∧
        ∃ ctx ∈ contextsFor (some resource) now,
          hasCapability actor grants capability ctx = true := by
  unfold allows
  by_cases hbarred : resource.audience = some .internal ∧ actor.kind ∈ clientSideActors
  · rw [if_pos (by simpa using hbarred)]
    exact iff_of_false (by decide) (fun h => h.1 hbarred)
  · rw [if_neg (by simpa using hbarred), List.any_eq_true]
    exact (and_iff_right hbarred).symm

/-- **The two ways agree**: a check on a record succeeds exactly when the grants that reach the
record, restated, give the capability on the record itself. -/
theorem allows_iff_restated (actor : Actor) (grants : List CapabilityGrant)
    (capability : Capability) (resource : Resource) (now time : Instant) :
    allows actor grants capability (some resource) now = true ↔
      hasCapability actor (restated actor grants resource now) capability
        (recordContext resource time) = true := by
  rw [allows_iff, hasCapability_iff]
  refine ⟨?_, ?_⟩
  · rintro ⟨hbarred, ctx, hctx, hheld⟩
    obtain ⟨hai, grant, hgrant, hgives⟩ := hasCapability_iff.mp hheld
    have hsame : grant.capability = capability :=
      of_decide_eq_true (Bool.and_eq_true_iff.mp hgives).1
    have hreaches : allows actor [grant] grant.capability (some resource) now = true := by
      rw [hsame]
      exact allows_iff.mpr ⟨hbarred, ctx, hctx,
        hasCapability_iff.mpr ⟨hai, grant, List.mem_singleton_self _, hgives⟩⟩
    exact ⟨hai, restate grant, List.mem_map_of_mem (List.mem_filter.mpr ⟨hgrant, hreaches⟩),
      restate_gives hgives (locale_of_mem_contextsFor hctx)⟩
  · rintro ⟨hai, restatement, hmem, hgives⟩
    obtain ⟨grant, hfiltered, rfl⟩ := List.mem_map.mp hmem
    obtain ⟨hgrant, hreaches⟩ := List.mem_filter.mp hfiltered
    have hsame : grant.capability = capability :=
      of_decide_eq_true (Bool.and_eq_true_iff.mp hgives).1
    rw [hsame] at hreaches
    obtain ⟨hbarred, ctx, hctx, hheld⟩ := allows_iff.mp hreaches
    obtain ⟨-, single, hsingle, hgives'⟩ := hasCapability_iff.mp hheld
    rw [List.mem_singleton.mp hsingle] at hgives'
    exact ⟨hbarred, ctx, hctx, hasCapability_iff.mpr ⟨hai, grant, hgrant, hgives'⟩⟩

end Authz

namespace Transition

open Authz

variable {S E : Type*} [DecidableEq S]

/-- **When a transition is refused for its permission**: the capability is not held; or it is,
and the guard gives this reason of its own. -/
theorem applyTransition_missing_iff (spec : TransitionSpec S E) (record : TableRecord S)
    (request : TransitionRequest S E) :
    applyTransition spec record request = .denied "missing_capability" ↔
      hasCapability request.actor request.capabilities
          (spec.capabilityFor record.state request.target request.actor)
          ⟨some spec.recordType, some record.id, record.locale, some request.time⟩ = false ∨
        request.expectedVersion = record.version ∧
          spec.machine.Edge record.state request.target ∧
          spec.guard record.state request.target request.evidence request.actor
            = .denied "missing_capability" := by
  unfold applyTransition Machine.Edge
  dsimp only
  cases hheld : hasCapability request.actor request.capabilities
      (spec.capabilityFor record.state request.target request.actor)
      ⟨some spec.recordType, some record.id, record.locale, some request.time⟩ with
  | false => exact iff_of_true rfl (.inl rfl)
  | true =>
    rw [if_neg (by decide)]
    by_cases hversion : request.expectedVersion = record.version
    · rw [if_neg (not_not_intro hversion)]
      cases hcheck : spec.machine.check record.state request.target with
      | denied code =>
        have hother : code ≠ "missing_capability" := by
          unfold Machine.check at hcheck
          split_ifs at hcheck
          · rw [← Decision.denied.inj hcheck]
            decide
          · rw [← Decision.denied.inj hcheck]
            decide
        simpa using hother
      | allowed =>
        cases spec.guard record.state request.target request.evidence request.actor with
        | denied code => simp [hversion]
        | allowed => simp
    · rw [if_pos hversion]
      simp [hversion]

/-- **The two ways of asking for a permission agree.** For every actor, stored grants, record
and instant, the direct check answers as the domain's check of the grants that reach the record;
and so a transition of the record is refused for its permission exactly when the direct check
is, apart from a guard that gives the same reason of its own. -/
theorem permission_agrees (data : AuthzData) (actor : Actor) (now : Instant) :
    (∀ (grants : List CapabilityGrant) (capability : Capability) (resource : Resource)
      (time : Instant), allows actor grants capability (some resource) now =
        hasCapability actor (restated actor grants resource now) capability
          (recordContext resource time)) ∧
      (∀ (capability : Capability) (resource : Resource) (time : Instant),
        can data actor capability (some resource) now =
          hasCapability actor (grantsFor data actor resource now) capability
            (recordContext resource time)) ∧
      ∀ (spec : TransitionSpec S E) (record : TableRecord S) (request : TransitionRequest S E),
        (applyTransition spec record { request with
            actor := actor
            capabilities := grantsFor data actor (resourceOf spec record) now }
            = .denied "missing_capability" ↔
          can data actor (spec.capabilityFor record.state request.target actor)
              (some (resourceOf spec record)) now = false ∨
            request.expectedVersion = record.version ∧
              spec.machine.Edge record.state request.target ∧
              spec.guard record.state request.target request.evidence actor
                = .denied "missing_capability") := by
  have hallows (grants : List CapabilityGrant) (capability : Capability) (resource : Resource)
      (time : Instant) : allows actor grants capability (some resource) now =
        hasCapability actor (restated actor grants resource now) capability
          (recordContext resource time) :=
    Bool.eq_iff_iff.mpr (allows_iff_restated actor grants capability resource now time)
  have hcan (capability : Capability) (resource : Resource) (time : Instant) :
      can data actor capability (some resource) now =
        hasCapability actor (grantsFor data actor resource now) capability
          (recordContext resource time) := hallows _ capability resource time
  refine ⟨hallows, hcan, fun spec record request => ?_⟩
  rw [applyTransition_missing_iff, hcan _ _ request.time]
  rfl

end Transition
