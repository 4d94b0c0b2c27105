import MsRealty.Delegation

/-!
# Delegation over every run

A grant is never widened: commands add rows, and revoke them. So what a
delegated grant gives is what a grant of its grantor gave when it was made
(`exists_parent`), which in turn may be delegated; the chain ends in a grant
that is not, held by the first grantor at the time (`delegated_of_run`).
-/

namespace Access

open Authz Operations Runs Submissions

variable {data data' : AccessData} {row : StoredGrant} {capability : Capability}
  {context : CapabilityContext}

/-! ## Commands -/

/-- A command on grants; a revocation with the grant that was read before. -/
inductive Command where
  | grant (raw : GrantInput)
  | revoke (raw : RevokeInput) (existing : StoredGrant)

/-- The operation type of a command. -/
def Command.type : Command → String
  | .grant _ => "access.capability.grant"
  | .revoke _ _ => "access.capability.revoke"

/-- The key of a command's operation. -/
def Command.idempotencyKey : Command → String
  | .grant raw => raw.operationId
  | .revoke raw _ => raw.operationId

/-- What a command refuses of its input: a grant may not have ended. -/
def Command.refusal (schemas : Tx.Schemas) (now : Instant) : Command → Option (Thrown JsonValue)
  | .grant raw =>
    match raw.parse schemas with
    | none => some (Tx.ofCode .validationFailed)
    | some input =>
      if (input.scope.expiresAt.bind (fun text => IsoInstant.datetime text.toList)).any
          (fun t => t ≤ now) then some (Tx.ofCode .validationFailed)
      else none
  | .revoke raw existing =>
    if (raw.parse schemas).isNone then some (Tx.ofCode .validationFailed)
    else if existing.principalId.isNone then some (Tx.ofCode .notFound)
    else none

/-- The transaction of a command. -/
def Command.run (schemas : Tx.Schemas) (found : Findings) (context : OperationContext)
    (data : AccessData) : Command → Tx (JsonValue × AccessData)
  | .grant raw => do
    let input ← Tx.found (raw.parse schemas) .other
    grantStaffCapability input found context data
  | .revoke raw existing => do
    let input ← Tx.found (raw.parse schemas) .other
    revokeStaffGrant input existing found context data

/-- **What a call meets** outside its tables: who calls, the clock and the
refusals before the transaction, and the operation. -/
structure CallFindings extends Findings where
  actor : Actor
  startedAt : Instant
  early : Option (Thrown JsonValue)
  locked : Bool
  operationId : Uuid
  requestHash : String

/-- **The submission of a command.** -/
def Command.submission (schemas : Tx.Schemas) (c : Command) (found : CallFindings) :
    Submission AccessData where
  early := (c.refusal schemas found.startedAt).or found.early
  call :=
    { input :=
        { actor := found.actor
          type := c.type
          idempotencyKey := c.idempotencyKey
          requestHash := found.requestHash
          expectedVersion := none
          subject := none
          butlerAuthorization := false }
      fn := fun context data => Tx.effect (c.run schemas found.toFindings context data)
      butlerCheck := fun _ _ => .error .other
      locked := found.locked
      freshId := found.operationId
      now := found.now }

/-! ## What no command widens -/

/-- Two states of one grant: it may be revoked in between. -/
structure SameGrant (row row' : StoredGrant) : Prop where
  id : row'.id = row.id
  principalId : row'.principalId = row.principalId
  role : row'.role = row.role
  capability : row'.capability = row.capability
  recordType : row'.recordType = row.recordType
  recordId : row'.recordId = row.recordId
  locales : row'.locales = row.locales
  expiresAt : row'.expiresAt = row.expiresAt

theorem SameGrant.refl (row : StoredGrant) : SameGrant row row :=
  ⟨rfl, rfl, rfl, rfl, rfl, rfl, rfl, rfl⟩

theorem SameGrant.trans {a b c : StoredGrant} (h : SameGrant a b) (h' : SameGrant b c) :
    SameGrant a c :=
  ⟨h'.id.trans h.id, h'.principalId.trans h.principalId, h'.role.trans h.role,
    h'.capability.trans h.capability, h'.recordType.trans h.recordType,
    h'.recordId.trans h.recordId, h'.locales.trans h.locales, h'.expiresAt.trans h.expiresAt⟩

/-- **One grant gives the same in all its states.** -/
theorem SameGrant.gives {a b : StoredGrant} (h : SameGrant a b) :
    b.Gives capability context ↔ a.Gives capability context := by
  have hexpand : expandGrant b.toGrantRow = expandGrant a.toGrantRow := by
    rw [expandGrant, expandGrant, GrantRow.granted, GrantRow.granted, h.role, h.capability,
      h.recordType, h.recordId, h.locales, h.expiresAt]
  unfold StoredGrant.Gives
  rw [hexpand]

/-- **Every grant there was is there still**, and was not widened. -/
def OnlyRevokes (data data' : AccessData) : Prop :=
  ∀ row ∈ data.grants.rows, ∃ row' ∈ data'.grants.rows, SameGrant row row'

theorem onlyRevokes_refl (data : AccessData) : OnlyRevokes data data :=
  fun row hrow => ⟨row, hrow, .refl row⟩

theorem onlyRevokes_trans {a b c : AccessData} (h : OnlyRevokes a b) (h' : OnlyRevokes b c) :
    OnlyRevokes a c := by
  intro row hrow
  obtain ⟨row', hrow', hsame⟩ := h row hrow
  obtain ⟨row'', hrow'', hsame'⟩ := h' row' hrow'
  exact ⟨row'', hrow'', hsame.trans hsame'⟩

/-- What a grant that is made writes. -/
theorem grantStaffCapability_eq_ok {input : GrantInput} {found : Findings}
    {context : OperationContext} {value : JsonValue}
    (h : grantStaffCapability input found context data = .ok (value, data')) :
    authority data found context.actor (found.clocks 0) input.scope input.capability true =
      .ok () ∧
    data.grants.insert? (input.row found.freshId context.actor) = some data'.grants := by
  obtain ⟨⟨⟩, hauthority, h⟩ := Tx.bind_eq_ok.mp h
  simp only [Tx.demand_bind, Tx.found_bind] at h
  obtain ⟨-, grants, hgrants, hdone⟩ := h
  obtain ⟨-, rfl⟩ := Prod.mk.inj (Except.ok.inj hdone)
  exact ⟨hauthority, hgrants⟩

theorem revokeStaffGrant_onlyRevokes {input : RevokeInput} {existing : StoredGrant}
    {found : Findings} {context : OperationContext} {value : JsonValue}
    (h : revokeStaffGrant input existing found context data = .ok (value, data')) :
    OnlyRevokes data data' := by
  simp only [revokeStaffGrant, Tx.found_bind, Tx.refuse_bind, Tx.demand_bind] at h
  obtain ⟨_, -, -, grant, hgrant, -, hdone⟩ := h
  obtain ⟨-, rfl⟩ := Prod.mk.inj (Except.ok.inj hdone)
  obtain ⟨hget, -⟩ := Option.filter_eq_some_iff.mp hgrant
  obtain ⟨hmem, -⟩ := Table.get?_eq_some.mp hget
  intro row hrow
  by_cases hid : row.id = grant.id
  · obtain rfl := Table.eq_of_key hrow hmem hid
    exact ⟨_, Table.mem_put.mpr (.inl rfl), ⟨rfl, rfl, rfl, rfl, rfl, rfl, rfl, rfl⟩⟩
  · exact ⟨row, Table.mem_put.mpr (.inr ⟨hrow, hid⟩), .refl row⟩

theorem run_onlyRevokes {schemas : Tx.Schemas} {c : Command} {found : Findings}
    {context : OperationContext} {value : JsonValue}
    (h : c.run schemas found context data = .ok (value, data')) : OnlyRevokes data data' := by
  cases c with
  | grant raw =>
    obtain ⟨input, -, h⟩ := Tx.found_bind.mp h
    obtain ⟨-, hinsert⟩ := grantStaffCapability_eq_ok h
    exact fun row hrow => ⟨row, (Table.mem_insert? hinsert row).mpr (.inr hrow), .refl row⟩
  | revoke raw existing =>
    obtain ⟨input, -, h⟩ := Tx.found_bind.mp h
    exact revokeStaffGrant_onlyRevokes h

/-! ## Delegations -/

/-- A moment of the commands on access. -/
abbrev AccessMoment := Moment (Db AccessData) (Submission AccessData) (Answer JsonValue)

/-- A submission of another command: it makes and revokes grants, and widens
none. -/
def OtherCommand (s : Submission AccessData) : Prop :=
  ∀ context data value data', s.call.fn context data = .returned value data' →
    OnlyRevokes data data'

/-- A submission of a command on grants, or of another command. -/
def IsCommand (s : Submission AccessData) : Prop :=
  (∃ schemas c found, s = Command.submission schemas c found) ∨ OtherCommand s

/-- **A grant is made by one who may not grant everywhere.** `now` is when the
grants of the grantor were read. -/
def Delegates (m : AccessMoment) (grantor : Actor) (now : Instant) (row : StoredGrant) : Prop :=
  ∃ schemas raw found, m.event = Command.submission schemas (.grant raw) found ∧
    grantor = found.actor ∧ now = found.clocks 0 1 ∧
    can m.before.data.authz grantor .accessGrant none (found.clocks 0 0) = false ∧
    row ∈ m.after.data.grants.rows ∧ ∀ other ∈ m.before.data.grants.rows, other.id ≠ row.id

/-- **A step of a chain**: with a live grant of theirs, `parent`, that gives the
capability there, a grantor makes `child`, which gives it too. -/
def Step (h : List AccessMoment) (capability : Capability) (context : CapabilityContext)
    (parent child : Uuid) : Prop :=
  ∃ m ∈ h, ∃ grantor now held made, Owned m.before.data grantor now held ∧
    Delegates m grantor now made ∧ held.id = parent ∧ made.id = child ∧
    held.Gives capability context ∧ made.Gives capability context

/-- A grant that was delegated in a run. -/
def Delegated (h : List AccessMoment) (id : Uuid) : Prop :=
  ∃ m ∈ h, ∃ grantor now row, Delegates m grantor now row ∧ row.id = id

/-- A step only widens nothing. -/
theorem onlyRevokes_submit (db : Db AccessData) {s : Submission AccessData} (hs : IsCommand s) :
    OnlyRevokes db.data (submit db s).fst.data := by
  obtain ⟨hdata, -⟩ | ⟨⟨value, hfn⟩, -, -⟩ := submit_cases db s
  · rw [hdata]
    exact onlyRevokes_refl db.data
  obtain ⟨schemas, c, found, rfl⟩ | hother := hs
  · obtain ⟨v, -, hrun⟩ := Tx.effect_returned hfn
    exact run_onlyRevokes hrun
  · exact hother _ _ _ _ hfn

/-- The scope of an input that its schema accepts. -/
theorem GrantInput.isValid_of_parse {schemas : Tx.Schemas} {raw input : GrantInput}
    (h : raw.parse schemas = some input) : input.scope.isValid schemas.isUuid = true := by
  unfold GrantInput.parse at h
  dsimp only at h
  split_ifs at h with hvalid
  obtain rfl := Option.some.inj h
  simp only [Bool.and_eq_true] at hvalid
  exact hvalid.1.2

/-- **A delegation**: its grantor owned, live, a grant that gives what the new
one gives. -/
theorem exists_held {m : AccessMoment} (hm : m = moment submit m.before m.event) {grantor : Actor}
    {now : Instant} (h : Delegates m grantor now row) : grantor.kind = .staff ∧
      ∀ capability context, row.Gives capability context →
        ∃ held, Owned m.before.data grantor now held ∧ held.Gives capability context := by
  obtain ⟨schemas, raw, found, hevent, rfl, rfl, hlocal, hrow, hnew⟩ := h
  rw [hm] at hrow
  change row ∈ (submit m.before m.event).fst.data.grants.rows at hrow
  obtain ⟨hdata, -⟩ | ⟨⟨value, hfn⟩, -, -⟩ := submit_cases m.before m.event
  · rw [hdata] at hrow
    exact absurd rfl (hnew row hrow)
  generalize (submit m.before m.event).fst.data = after at hfn hrow
  rw [hevent] at hfn
  obtain ⟨v, -, hrun⟩ := Tx.effect_returned hfn
  obtain ⟨input, hinput, hrun⟩ := Tx.found_bind.mp hrun
  obtain ⟨hauthority, hinsert⟩ := grantStaffCapability_eq_ok hrun
  obtain rfl | hold := (Table.mem_insert? hinsert row).mp hrow
  · refine ⟨(authority_eq_ok hauthority hlocal).1, fun capability context hgives => ?_⟩
    exact exists_parent (GrantInput.isValid_of_parse hinput) hauthority hlocal hgives
  · exact absurd rfl (hnew row hold)

/-! ## Every run -/

variable {db : Db AccessData} {es : List (Submission AccessData)}

theorem history_concat (db : Db AccessData) (es : List (Submission AccessData))
    (s : Submission AccessData) : history submit db (es ++ [s]) =
      history submit db es ++ [moment submit (final submit db es) s] := by
  rw [history_append, history_cons, history_nil]

theorem Step.mono {h h' : List AccessMoment} (hsub : ∀ m ∈ h, m ∈ h') {parent child : Uuid}
    (hstep : Step h capability context parent child) : Step h' capability context parent child := by
  obtain ⟨m, hm, hrest⟩ := hstep
  exact ⟨m, hsub m hm, hrest⟩

/-- A grant there is already is not delegated later. -/
theorem not_delegated_concat {h : List AccessMoment} {m : AccessMoment} {id : Uuid}
    (hbefore : ∃ kept ∈ m.before.data.grants.rows, kept.id = id) (hnot : ¬ Delegated h id) :
    ¬ Delegated (h ++ [m]) id := by
  rintro ⟨m', hm', grantor, now, row, hdelegates, rfl⟩
  obtain hm' | hm' := List.mem_append.mp hm'
  · exact hnot ⟨m', hm', grantor, now, row, hdelegates, rfl⟩
  · obtain rfl := List.mem_singleton.mp hm'
    obtain ⟨kept, hkept, hid⟩ := hbefore
    obtain ⟨_, _, _, -, -, -, -, -, hnew⟩ := hdelegates
    exact hnew kept hkept hid

/-- **Every chain of delegations begins with a grant that is not delegated**,
and the same is given all along it. -/
theorem exists_root (hes : ∀ s ∈ es, IsCommand s) : ∀ m ∈ history submit db es,
    ∀ grantor now row, Delegates m grantor now row → row.Gives capability context →
      ∃ root, Relation.TransGen (Step (history submit db es) capability context) root row.id ∧
        ¬ Delegated (history submit db es) root ∧
        ∃ kept ∈ (final submit db es).data.grants.rows, kept.id = root := by
  -- by the length of the run: a grant that is held was there before it is used
  induction es using List.reverseRecOn with
  | nil => exact fun m hm => absurd hm List.not_mem_nil
  | append_singleton es s ih =>
    have hrun : ∀ s ∈ es, IsCommand s := fun s hs => hes s (List.mem_append_left _ hs)
    have hlast := onlyRevokes_submit (final submit db es)
      (hes s (List.mem_append_right _ (List.mem_singleton.mpr rfl)))
    have hkept : ∀ id, (∃ kept ∈ (final submit db es).data.grants.rows, kept.id = id) →
        ∃ kept ∈ (final submit db (es ++ [s])).data.grants.rows, kept.id = id := by
      rintro id ⟨kept, hmem, rfl⟩
      obtain ⟨kept', hmem', hsame⟩ := hlast kept hmem
      rw [final_append]
      exact ⟨kept', hmem', hsame.id⟩
    rw [history_concat]
    have hsub : ∀ m ∈ history submit db es,
        m ∈ history submit db es ++ [moment submit (final submit db es) s] :=
      fun m hm => List.mem_append_left _ hm
    have hmono : Relation.TransGen (Step (history submit db es) capability context) ≤
        Relation.TransGen (Step (history submit db es ++ [moment submit (final submit db es) s])
          capability context) :=
      Relation.TransGen.mono (fun _ _ => Step.mono hsub)
    intro m hm grantor now row hdelegates hgives
    obtain hm | hm := List.mem_append.mp hm
    · obtain ⟨root, hchain, hnot, hroot⟩ := ih hrun m hm grantor now row hdelegates hgives
      exact ⟨root, hmono _ _ hchain,
        not_delegated_concat (m := moment submit (final submit db es) s) hroot hnot,
        hkept root hroot⟩
    · obtain rfl := List.mem_singleton.mp hm
      obtain ⟨-, hparents⟩ := exists_held rfl hdelegates
      obtain ⟨held, howned, hheldGives⟩ := hparents capability context hgives
      have hheld := howned.mem
      have hstep : Step (history submit db es ++ [moment submit (final submit db es) s])
          capability context held.id row.id :=
        ⟨_, List.mem_append_right _ (List.mem_singleton.mpr rfl), grantor, now, held, row, howned,
          hdelegates, rfl, rfl, hheldGives, hgives⟩
      by_cases hdelegated : Delegated (history submit db es) held.id
      · obtain ⟨m', hm', grantor', now', row', hdelegates', hid⟩ := hdelegated
        have hrow' := hdelegates'
        obtain ⟨_, _, _, -, -, -, -, hmem, -⟩ := hrow'
        obtain ⟨-, hrelated⟩ := related_final (R := fun a b => OnlyRevokes a.data b.data)
          (fun db => onlyRevokes_refl db.data) (fun _ _ _ => onlyRevokes_trans)
          (fun db s hs => onlyRevokes_submit db hs) hrun (s := db)
        obtain ⟨later, hlater, hsame⟩ := (hrelated m' hm').2 row' hmem
        obtain rfl := Table.eq_of_key hlater hheld (hsame.id.trans hid)
        obtain ⟨root, hchain, hnot, hroot⟩ :=
          ih hrun m' hm' grantor' now' row' hdelegates' (hsame.gives.mp hheldGives)
        rw [hid] at hchain
        exact ⟨root, (hmono _ _ hchain).tail hstep,
          not_delegated_concat hroot hnot, hkept root hroot⟩
      · exact ⟨held.id, .single hstep, not_delegated_concat ⟨held, hheld, rfl⟩ hdelegated,
          hkept held.id ⟨held, hheld, rfl⟩⟩

/-- **Delegation attenuates, over chains of any length**: what a grant allows
that is made by one who may not grant everywhere was allowed by the live grants
of that grantor; and whatever it gives has come, by a chain of delegations each
of which gave it, from a grant that is not delegated, which the first grantor
held, live, when they made the first. -/
theorem delegated_of_run (db : Db AccessData) (es : List (Submission AccessData))
    (hes : ∀ s ∈ es, IsCommand s) : ∀ m ∈ history submit db es, ∀ grantor now row,
    Delegates m grantor now row →
      (∀ grantee capability resource t,
        allows ⟨.staff, grantee⟩ (expandGrant row.toGrantRow) capability resource t = true →
          allows grantor (resolveGrants m.before.data.authz grantor now) capability resource t =
            true) ∧
      ∀ capability context, row.Gives capability context → ∃ root,
        Relation.TransGen (Step (history submit db es) capability context) root row.id ∧
          ¬ Delegated (history submit db es) root := by
  intro m hm grantor now row hdelegates
  obtain ⟨hstaff, hparents⟩ := exists_held (eq_moment_of_mem hm) hdelegates
  refine ⟨fun grantee capability resource t => allows_of_parent hstaff (fun c ctx hgives => ?_),
    fun capability context hgives => ?_⟩
  · obtain ⟨held, howned, g, hg, hheldGives⟩ := hparents c ctx hgives
    exact ⟨g, howned.resolved g hg, hheldGives⟩
  · obtain ⟨root, hchain, hnot, -⟩ := exists_root hes m hm grantor now row hdelegates hgives
    exact ⟨root, hchain, hnot⟩

/-! ## A grant that is delegated twice -/

/-- A grant of a capability on the sample listing. -/
def sampleGrant (id principalId : Uuid) (capability : Capability) : StoredGrant where
  principalId := some principalId
  serviceName := none
  role := none
  capability := some capability
  recordType := some "listing"
  recordId := some "listing-1"
  locales := none
  expiresAt := some 1800000000000
  revokedAt := none
  id := id
  version := 1
  grantedById := none
  reason := "Responsible for the listing"
  canonical := by decide +kernel

/-- Anna may edit a listing, and let others edit it, until an instant. -/
def sampleDb : Db AccessData where
  operations := ⟨[], List.nodup_nil, List.nodup_nil⟩
  audit := []
  data :=
    { principals := [⟨"anna", .staff, "party-1", .active⟩, ⟨"boris", .staff, "party-2", .active⟩,
        ⟨"vera", .staff, "party-3", .active⟩]
      memberships := [⟨"anna", true⟩, ⟨"boris", true⟩, ⟨"vera", true⟩]
      grants := ⟨[sampleGrant "grant-1" "anna" .accessGrant,
        sampleGrant "grant-2" "anna" .listingEdit], by decide⟩
      participants := []
      propertyLinks := [] }

/-- Schemas that leave texts as they are. -/
def sampleSchemas : Tx.Schemas := ⟨fun s => s, fun s => s, fun _ => true, fun _ => none⟩

/-- A grant of the sample listing, to an end that is written without seconds. -/
def sampleInput (grantee : Uuid) (capability : Capability) (id : Uuid) (expiresAt : String) :
    GrantInput :=
  ⟨"operation " ++ id, grantee, capability, "Stands in for a week",
    ⟨some "listing", some "listing-1", none, some expiresAt⟩⟩

def sampleFindings (grantor id : Uuid) : CallFindings where
  live := none
  passkeys _ := 1
  absent _ := false
  clocks _ _ := 1000
  now := 1000
  freshId := id
  actor := ⟨.staff, grantor⟩
  startedAt := 1000
  early := none
  locked := true
  operationId := "operation " ++ id
  requestHash := "request"

/-- Vera may edit the listing, for a day less than Boris. -/
def sampleLast : Submission AccessData :=
  Command.submission sampleSchemas
    (.grant (sampleInput "vera" .listingEdit "grant-5" "2026-10-04T09:00Z"))
    (sampleFindings "boris" "grant-5")

/-- Anna lets Boris edit, and let others edit; he lets Vera. -/
def sampleRun : List (Submission AccessData) :=
  [Command.submission sampleSchemas
      (.grant (sampleInput "boris" .accessGrant "grant-3" "2026-10-05T09:00Z"))
      (sampleFindings "anna" "grant-3"),
    Command.submission sampleSchemas
      (.grant (sampleInput "boris" .listingEdit "grant-4" "2026-10-05T09:00Z"))
      (sampleFindings "anna" "grant-4"), sampleLast]

/-- A visit of the sample listing. -/
def sampleContext : CapabilityContext := ⟨some "listing", some "listing-1", none, some 1000⟩

/-- **What Vera was given** comes from a grant that is not delegated. -/
theorem delegated_of_sampleRun : ∃ row : StoredGrant, row.principalId = some "vera" ∧ ∃ root,
    Relation.TransGen (Step (history submit sampleDb sampleRun) .listingEdit sampleContext) root
      row.id ∧ ¬ Delegated (history submit sampleDb sampleRun) root := by
  have hes : ∀ s ∈ sampleRun, IsCommand s := by
    refine List.forall_mem_cons.mpr ⟨.inl ⟨_, _, _, rfl⟩, List.forall_mem_cons.mpr
      ⟨.inl ⟨_, _, _, rfl⟩, List.forall_mem_singleton.mpr (.inl ⟨_, _, _, rfl⟩)⟩⟩
  generalize hbefore : final submit sampleDb (sampleRun.take 2) = before
  have hmem : moment submit before sampleLast ∈ history submit sampleDb sampleRun := by
    rw [← hbefore]
    exact List.mem_cons_of_mem _ (List.mem_cons_of_mem _ List.mem_cons_self)
  have hmade : (submit before sampleLast).fst.data.grants.rows.any (fun row => row.id = "grant-5"
      && row.principalId = some "vera"
      && (expandGrant row.toGrantRow).any (fun g => g.gives .listingEdit sampleContext)) = true := by
    rw [← hbefore]
    decide +kernel
  have hnew : ∀ other ∈ before.data.grants.rows, other.id ≠ "grant-5" := by
    rw [← hbefore]
    decide +kernel
  have hlocal : can before.data.authz ⟨.staff, "boris"⟩ .accessGrant none 1000 = false := by
    rw [← hbefore]
    decide +kernel
  obtain ⟨row, hrow, hall⟩ := List.any_eq_true.mp hmade
  simp only [Bool.and_eq_true, decide_eq_true_eq] at hall
  obtain ⟨⟨hid, hprincipal⟩, hgives⟩ := hall
  have hdelegates : Delegates (moment submit before sampleLast) ⟨.staff, "boris"⟩ 1000 row := by
    refine ⟨sampleSchemas, _, sampleFindings "boris" "grant-5", rfl, rfl, rfl, hlocal, hrow, ?_⟩
    intro other hother
    rw [hid]
    exact hnew other hother
  exact ⟨row, hprincipal, (delegated_of_run sampleDb sampleRun hes _ hmem _ _ row hdelegates).2 _ _
    (List.any_eq_true.mp hgives)⟩

end Access
