import MsRealty.Decimals
import MsRealty.SafetyLedger

/-!
# The safety ledger stays one chain

Whatever the calls of concurrent transactions, the committed rows are a chain
a reader accepts: only the holder of the lock has rows of its own, and the
head it read is still the head when it inserts.

The hashed text of an entry determines its fields (`encoding_injective`), so
where SHA-256 does not collide the chain binds its entries.
-/

namespace Privacy

open JsonText

/-! ## The hashed text of an entry -/

theorem OptionalPurpose.name_injective : Function.Injective OptionalPurpose.name := by
  intro a b h
  cases a <;> cases b <;> first | rfl | exact absurd h (by decide)

theorem Restriction.eq_of_normalForm {a b : Restriction}
    (h : normalForm (.obj (Restriction.keys.zip a.values))
      = normalForm (.obj (Restriction.keys.zip b.values))) : a = b := by
  have hvalues := map_normalForm_of_zip (by decide +kernel) rfl rfl h
  simp only [Restriction.values, List.map_cons, List.map_nil, normalForm, normalForm_stringsJson,
    List.cons.injEq, JsonValue.str.injEq, JsonValue.bool.injEq, stringsJson_inj,
    (List.map_injective_iff.mpr OptionalPurpose.name_injective).eq_iff] at hvalues
  cases a
  cases b
  simp_all

theorem Withdrawal.eq_of_normalForm {a b : Withdrawal}
    (h : normalForm (.obj (Withdrawal.keys.zip a.values))
      = normalForm (.obj (Withdrawal.keys.zip b.values))) : a = b := by
  have hvalues := map_normalForm_of_zip (by decide +kernel) rfl rfl h
  simp only [Withdrawal.values, List.map_cons, List.map_nil, normalForm, normalForm_stringsJson,
    List.cons.injEq, JsonValue.str.injEq, stringsJson_inj] at hvalues
  cases a
  cases b
  simp_all

/-- **The normal form of an effect determines it.** -/
theorem PrivacySafetyEffect.eq_of_normalForm {a b : PrivacySafetyEffect}
    (h : normalForm a.toJson = normalForm b.toJson) : a = b := by
  have hlength : ∀ (r : Restriction) (w : Withdrawal),
      (Restriction.keys.zip r.values).length ≠ (Withdrawal.keys.zip w.values).length := by
    intro r w heq
    exact absurd heq (show (11 : ℕ) ≠ 3 by decide)
  cases a with
  | restriction a =>
    cases b with
    | restriction b => rw [Restriction.eq_of_normalForm h]
    | withdrawal b => exact absurd (length_of_normalForm h) (hlength a b)
  | withdrawal a =>
    cases b with
    | restriction b => exact absurd (length_of_normalForm h).symm (hlength b a)
    | withdrawal b => rw [Withdrawal.eq_of_normalForm h]

/-- A `Date` reads what it writes. -/
theorem newDate_toISOString (host : Host) (t : Timestamp) : host.newDate t.toISOString = t := by
  rw [Host.newDate, Timestamp.toISOString, String.toList_ofList,
    IsoInstant.parseISO_toISOText t.property]
  exact dif_pos t.property

theorem Timestamp.toISOString_injective : Function.Injective Timestamp.toISOString := by
  intro a b h
  have hread := IsoInstant.parseISO_toISOText a.property
  rw [String.ofList_injective h, IsoInstant.parseISO_toISOText b.property] at hread
  exact Subtype.ext (Option.some.inj hread).symm

theorem nullableJson_injective : Function.Injective nullableJson := by
  intro a b h
  cases a <;> cases b <;> simp_all [nullableJson]

@[simp] theorem normalForm_nullableJson (text : Option String) :
    normalForm (nullableJson text) = nullableJson text := by
  cases text <;> rfl

/-- **The normal form of the fields determines them**, the review up to the
order of its members. -/
theorem SafetyFields.eq_of_normalForm {a b : SafetyFields PlainJson String}
    (h : normalForm a.toJson = normalForm b.toJson) :
    { a with review := Jsonb.ofJson a.review } = { b with review := Jsonb.ofJson b.review } := by
  have hvalues := map_normalForm_of_zip (by decide +kernel) rfl rfl h
  simp only [SafetyFields.values, List.map_cons, List.map_nil, normalForm, normalForm_nullableJson,
    List.cons.injEq, JsonValue.str.injEq, JsonValue.num.injEq,
    nullableJson_injective.eq_iff, Nat.cast_inj, and_true] at hvalues
  obtain ⟨hoperation, hparty, hrequest, hhash, hreview, heffect, hsequence, hid, hprevious,
    hrecorded⟩ := hvalues
  cases a
  cases b
  obtain rfl := PrivacySafetyEffect.eq_of_normalForm heffect
  have hcolumn := Jsonb.ext (a := Jsonb.ofJson _) (b := Jsonb.ofJson _) hreview
  simp_all

theorem plain_effect (effect : PrivacySafetyEffect) : Plain effect.toJson := by
  cases effect with
  | restriction effect =>
    exact ⟨trivial, trivial, trivial, plain_stringsJson _, plain_stringsJson _, trivial, trivial,
      plain_stringsJson _, plain_stringsJson _, plain_stringsJson _, trivial, trivial⟩
  | withdrawal effect => exact ⟨trivial, trivial, plain_stringsJson _, trivial⟩

theorem plain_fields (fields : SafetyFields PlainJson String) : Plain fields.toJson := by
  refine ⟨trivial, trivial, ?_, trivial, fields.review.property, plain_effect fields.effect, ?_,
    trivial, trivial, trivial, trivial⟩
  · show Plain (nullableJson fields.requestId)
    cases fields.requestId <;> trivial
  · exact decimal_natCast fields.sequence

/-- The text an entry is hashed by. -/
def encoding (fields : SafetyFields PlainJson String) : String :=
  String.ofList (canonicalJson fields.toJson)

/-- **The hashed text of an entry determines its fields**, the review up to the
order of its members. -/
theorem encoding_eq {a b : SafetyFields PlainJson String} (h : encoding a = encoding b) :
    { a with review := Jsonb.ofJson a.review } = { b with review := Jsonb.ofJson b.review } :=
  SafetyFields.eq_of_normalForm (normalForm_eq_of_canonicalJson (plain_fields a) (plain_fields b)
    (String.ofList_injective h))

theorem Jsonb.ofJson_toJson (column : Jsonb) : Jsonb.ofJson column.toJson = column :=
  Jsonb.ext column.normal

/-- **The hashed text of a row determines its fields.** -/
theorem SafetyEntry.fields_of_encoding {a b : SafetyRow}
    (h : encoding a.read.toSafetyFields = encoding b.read.toSafetyFields) :
    a.toSafetyFields = b.toSafetyFields := by
  have hfields := encoding_eq h
  obtain ⟨⟨⟩⟩ := a
  obtain ⟨⟨⟩⟩ := b
  simp only [SafetyEntry.read, Jsonb.ofJson_toJson, SafetyFields.mk.injEq,
    Timestamp.toISOString_injective.eq_iff] at hfields
  simp_all

/-- The digest does not depend on the order of the members of the review. -/
theorem safetyEntryDigest_ofJson (sha256Hex : String → String)
    (fields : SafetyFields PlainJson String) :
    safetyEntryDigest sha256Hex { fields with review := (Jsonb.ofJson fields.review).toJson }
      = safetyEntryDigest sha256Hex fields := by
  have hnormal : normalForm
      ({ fields with review := (Jsonb.ofJson fields.review).toJson } :
        SafetyFields PlainJson String).toJson = normalForm fields.toJson := by
    refine normalForm_zip ?_
    simp only [SafetyFields.values, List.map_cons, Jsonb.toJson, Jsonb.ofJson,
      normalForm_normalForm]
  rw [safetyEntryDigest, safetyEntryDigest, hashRequest, hashRequest, canonicalJson_eq, hnormal,
    ← canonicalJson_eq]

theorem store_digest (host : Host) (e : SafetyTailEntry) : (e.store host).digest = e.digest :=
  rfl

/-- The row of a new entry. -/
theorem store_newEntry (host : Host) (input : AppendInput) (head : ℕ × String) (id : Uuid)
    (now : Timestamp) :
    (newEntry host input head id now).store host
      = ⟨⟨input.operationId, input.partyId, input.requestId, input.requestHash,
          Jsonb.ofJson input.review, input.effect, head.fst + 1, id, head.snd, now⟩,
        (newEntry host input head id now).digest⟩ := by
  simp only [SafetyEntry.store, newEntry, newDate_toISOString]

/-- **The digest of a new entry is that of its row.** -/
theorem safetyEntryDigest_store (host : Host) (input : AppendInput) (head : ℕ × String)
    (id : Uuid) (now : Timestamp) :
    host.sha256Hex (encoding ((newEntry host input head id now).store host).read.toSafetyFields)
      = (newEntry host input head id now).digest := by
  rw [store_newEntry]
  exact safetyEntryDigest_ofJson host.sha256Hex (newEntry host input head id now).toSafetyFields

/-! ## The ledger is read from its start -/

/-- **Verifies a ledger**: its entries, from the empty digest on. -/
def verifyLedger (sha256Hex : String → String) (ledger : List SafetyRow) : Option (ℕ × String) :=
  (safetyChain sha256Hex).verify (0, emptySafetyDigest) (ledger.map SafetyEntry.read)

/-- How the rows are chained. -/
def rowChain (sha256Hex : String → String) : HashChain SafetyRow String :=
  (safetyChain sha256Hex).comap SafetyEntry.read

variable {sha256Hex : String → String}

theorem verifyLedger_eq (ledger : List SafetyRow) :
    verifyLedger sha256Hex ledger
      = (rowChain sha256Hex).verify (0, emptySafetyDigest) ledger :=
  (HashChain.verify_comap _ _ _).symm

/-- A chain ends at its entry of the greatest number. -/
theorem foldl_of_verify {ledger : List SafetyRow} {head head' : ℕ × String}
    (h : (rowChain sha256Hex).verify head ledger = some head') :
    ledger.foldl (fun head row =>
      if head.fst < row.sequence then (row.sequence, row.digest) else head) head = head' := by
  induction ledger generalizing head with
  | nil => exact Option.some.inj h
  | cons row ledger ih =>
    obtain ⟨hfollows, hrest⟩ := HashChain.verify_cons_eq_some.mp h
    have hlt : head.fst < row.sequence := by
      have hnext : row.sequence = head.fst + 1 := hfollows.1
      omega
    rw [List.foldl_cons, if_pos hlt]
    exact ih hrest

/-- **A ledger is accepted.** -/
def Accepted (sha256Hex : String → String) (ledger : List SafetyRow) : Prop :=
  (rowChain sha256Hex).verify (0, emptySafetyDigest) ledger = some (privacySafetyHead ledger)

theorem inScope_newEntry (host : Host) (decision : Decision) (head : ℕ × String) (id : Uuid)
    (now : Timestamp) :
    inScope (newEntry host (decision.input host.sha256Hex) head id now).toSafetyFields = true := by
  cases decision <;> simp [inScope, newEntry, Decision.input, PrivacySafetyEffect.partyId]

/-- **A new row follows the head it was built for.** -/
theorem follows_newEntry (host : Host) (decision : Decision) (head : ℕ × String) (id : Uuid)
    (now : Timestamp) :
    (rowChain host.sha256Hex).Follows head
      ((newEntry host (decision.input host.sha256Hex) head id now).store host) :=
  ⟨rfl, rfl, safetyEntryDigest_store host _ head id now, inScope_newEntry host decision head id now⟩

theorem Accepted.newEntry {host : Host} {ledger : List SafetyRow}
    (h : Accepted host.sha256Hex ledger) (decision : Decision) (id : Uuid) (now : Timestamp) :
    Accepted host.sha256Hex (ledger ++ [(newEntry host (decision.input host.sha256Hex)
      (privacySafetyHead ledger) id now).store host]) := by
  have hverify := HashChain.verify_concat_eq_some.mpr
    ⟨_, h, follows_newEntry host decision (privacySafetyHead ledger) id now, rfl⟩
  have hhead : privacySafetyHead (ledger ++ [(Privacy.newEntry host
      (decision.input host.sha256Hex) (privacySafetyHead ledger) id now).store host]) = _ :=
    foldl_of_verify hverify
  rw [Accepted, hhead]
  exact hverify

/-! ## Runs -/

variable {host : Host} {s : State}

@[simp] theorem set_visible (s : State) (t t' : ℕ) (transaction : Transaction) :
    (s.set t transaction).visible t'
      = if t' = t then s.committed ++ transaction.pending else s.visible t' := by
  show s.committed ++ (Function.update s.transactions t transaction t').pending = _
  rw [Function.update_apply]
  split_ifs <;> rfl

/-- **What holds of every reachable state.** -/
structure Inv (sha256Hex : String → String) (s : State) : Prop where
  committed : Accepted sha256Hex s.committed
  /-- What a transaction sees is a chain. -/
  visible : ∀ t, Accepted sha256Hex (s.visible t)
  /-- Only the holder of the lock has rows. -/
  pending : ∀ t, s.holder ≠ some t → (s.transactions t).pending = []
  /-- Only the holder of the lock is past it. -/
  locked : ∀ t decision, (s.transactions t).call = .locked decision → s.holder = some t
  /-- The head the holder read is the head it sees. -/
  read : ∀ t decision head, (s.transactions t).call = .read decision head →
    s.holder = some t ∧ head = privacySafetyHead (s.visible t)

theorem inv_init : Inv sha256Hex State.init where
  committed := rfl
  visible _ := rfl
  pending _ _ := rfl
  locked _ _ h := nomatch h
  read _ _ _ h := nomatch h

/-- **A call goes on**: the rows stay, and the lock may be taken. -/
theorem Inv.call (h : Inv sha256Hex s) {t : ℕ} {call : Call} {holder : Option ℕ}
    (hholder : ∀ t', s.holder = some t' → holder = some t')
    (hlocked : ∀ decision, call = .locked decision → holder = some t)
    (hread : ∀ decision head, call = .read decision head →
      holder = some t ∧ head = privacySafetyHead (s.visible t)) :
    Inv sha256Hex { s.set t { s.transactions t with call := call } with holder := holder } := by
  have hvisible : ∀ t', State.visible
      { s.set t { s.transactions t with call := call } with holder := holder } t'
      = s.visible t' := by
    intro t'
    refine (set_visible s t t' _).trans ?_
    split_ifs with ht
    · rw [ht]
      rfl
    · rfl
  refine ⟨h.committed, fun t' => ?_, fun t' hne => ?_, fun t' decision hcall => ?_,
    fun t' decision head hcall => ?_⟩
  · rw [hvisible]
    exact h.visible t'
  · have hpending := h.pending t' (fun heq => hne (hholder t' heq))
    show (Function.update s.transactions t _ t').pending = []
    rw [Function.update_apply]
    split_ifs with ht
    · rw [← ht]
      exact hpending
    · exact hpending
  · change (Function.update s.transactions t _ t').call = _ at hcall
    rw [Function.update_apply] at hcall
    split_ifs at hcall with ht
    · rw [ht]
      exact hlocked decision hcall
    · exact hholder t' (h.locked t' decision hcall)
  · change (Function.update s.transactions t _ t').call = _ at hcall
    rw [Function.update_apply] at hcall
    rw [hvisible]
    split_ifs at hcall with ht
    · rw [ht]
      exact hread decision head hcall
    · obtain ⟨hheld, hhead⟩ := h.read t' decision head hcall
      exact ⟨hholder t' hheld, hhead⟩

/-- **A row is inserted** after the head. -/
theorem Inv.insert (h : Inv host.sha256Hex s) {t : ℕ} {decision : Decision} {head : ℕ × String}
    (hcall : (s.transactions t).call = .read decision head) (id : Uuid) (now : Timestamp) :
    Inv host.sha256Hex (s.set t ⟨(s.transactions t).pending
      ++ [(newEntry host (decision.input host.sha256Hex) head id now).store host], .none⟩) := by
  obtain ⟨hheld, rfl⟩ := h.read t decision head hcall
  have hother : ∀ t', t' ≠ t → s.holder ≠ some t' := by
    intro t' ht heq
    rw [hheld] at heq
    exact ht (Option.some.inj heq).symm
  refine ⟨h.committed, fun t' => ?_, fun t' hne => ?_, fun t' decision' hcall' => ?_,
    fun t' decision' head' hcall' => ?_⟩
  · rw [set_visible]
    split_ifs with ht
    · rw [← List.append_assoc]
      exact (h.visible t).newEntry decision id now
    · exact h.visible t'
  · have ht : t' ≠ t := by
      rintro rfl
      exact hne hheld
    show (Function.update s.transactions t _ t').pending = []
    rw [Function.update_of_ne ht]
    exact h.pending t' hne
  · change (Function.update s.transactions t _ t').call = _ at hcall'
    rw [Function.update_apply] at hcall'
    split_ifs at hcall' with ht
    exact h.locked t' decision' hcall'
  · change (Function.update s.transactions t _ t').call = _ at hcall'
    rw [Function.update_apply] at hcall'
    split_ifs at hcall' with ht
    exact absurd (h.read t' decision' head' hcall').1 (hother t' ht)

/-- **A transaction ends**: with its rows, or, unless it holds the lock, as if
it had none. -/
theorem Inv.finish (h : Inv sha256Hex s) {t : ℕ} {committed : List SafetyRow}
    (haccepted : Accepted sha256Hex committed)
    (hrows : committed = s.committed ∨ s.holder = some t) :
    Inv sha256Hex (s.finish t committed) := by
  have hholder : ∀ {t'}, t' ≠ t → ((s.finish t committed).holder = some t' ↔
      s.holder = some t') := by
    intro t' ht
    show (if s.holder = some t then none else s.holder) = some t' ↔ _
    split_ifs with heq
    · rw [heq, Option.some_inj]
      exact ⟨fun hno => hno.elim, fun ht' => absurd ht'.symm ht⟩
    · rfl
  have hvisible : ∀ t', t' ≠ t → (s.finish t committed).visible t' = s.visible t' ∨
      (s.finish t committed).visible t' = committed ∧ s.holder ≠ some t' := by
    intro t' ht
    have hunfold : (s.finish t committed).visible t'
        = committed ++ (s.transactions t').pending := by
      show committed ++ (Function.update s.transactions t _ t').pending = _
      rw [Function.update_of_ne ht]
    rw [hunfold]
    obtain rfl | hheld := hrows
    · exact Or.inl rfl
    · have hother : s.holder ≠ some t' := by
        intro heq
        rw [hheld] at heq
        exact ht (Option.some.inj heq).symm
      rw [h.pending t' hother, List.append_nil]
      exact Or.inr ⟨rfl, hother⟩
  refine ⟨haccepted, fun t' => ?_, fun t' hne => ?_, fun t' decision hcall => ?_,
    fun t' decision head hcall => ?_⟩
  · by_cases ht : t' = t
    · have hnone : (s.finish t committed).visible t' = committed := by
        rw [ht]
        show committed ++ (Function.update s.transactions t _ t).pending = _
        rw [Function.update_self]
        exact List.append_nil _
      rw [hnone]
      exact haccepted
    · obtain heq | ⟨heq, -⟩ := hvisible t' ht
      · rw [heq]
        exact h.visible t'
      · rw [heq]
        exact haccepted
  · show (Function.update s.transactions t _ t').pending = []
    rw [Function.update_apply]
    split_ifs with ht
    · rfl
    · exact h.pending t' (fun heq => hne ((hholder ht).mpr heq))
  · change (Function.update s.transactions t _ t').call = _ at hcall
    rw [Function.update_apply] at hcall
    split_ifs at hcall with ht
    · cases hcall
    · exact (hholder ht).mpr (h.locked t' decision hcall)
  · change (Function.update s.transactions t _ t').call = _ at hcall
    rw [Function.update_apply] at hcall
    split_ifs at hcall with ht
    · cases hcall
    · obtain ⟨hheld, hhead⟩ := h.read t' decision head hcall
      refine ⟨(hholder ht).mpr hheld, ?_⟩
      obtain heq | ⟨-, hno⟩ := hvisible t' ht
      · rw [heq]
        exact hhead
      · exact absurd hheld hno

/-- **Every statement keeps the invariant.** -/
theorem inv_step (h : Inv host.sha256Hex s) (e : Event) :
    Inv host.sha256Hex (step host s e).fst := by
  cases e with
  | append t decision =>
    simp only [step]
    split
    · exact h.call (fun _ heq => heq) (fun _ heq => nomatch heq) (fun _ _ heq => nomatch heq)
    · exact h
  | lock t =>
    simp only [step]
    split
    · split_ifs with hfree
      · refine h.call (fun t' heq => ?_) (fun _ _ => rfl) (fun _ _ heq => nomatch heq)
        obtain hnone | hown := hfree
        · rw [hnone] at heq
          cases heq
        · rw [← hown, heq]
      · exact h
    · exact h
  | readHead t =>
    simp only [step]
    split
    · next decision hcall =>
      refine h.call (fun _ heq => heq) (fun _ heq => nomatch heq) (fun _ head heq => ?_)
      obtain ⟨-, rfl⟩ := Call.read.inj heq
      exact ⟨h.locked t decision hcall, rfl⟩
    · exact h
  | insert t id now =>
    simp only [step]
    split
    · next decision head hcall =>
      split_ifs
      · exact h.insert hcall id now
      · exact h.finish h.committed (Or.inl rfl)
    · exact h
  | commit t =>
    simp only [step]
    split
    · refine h.finish (h.visible t) ?_
      by_cases hheld : s.holder = some t
      · exact Or.inr hheld
      · refine Or.inl ?_
        rw [State.visible, h.pending t hheld, List.append_nil]
    · exact h
  | abort t => exact h.finish h.committed (Or.inl rfl)

/-- **Every committed ledger is accepted.** -/
theorem accepted_of_run (events : List Event) :
    Accepted host.sha256Hex (Runs.final (step host) State.init events).committed :=
  (Runs.final_invariant (E := fun _ => True) (P := Inv host.sha256Hex)
    (fun _ e _ h => inv_step h e) (fun _ _ => trivial) inv_init).committed

/-- No statement takes a committed row away. -/
theorem committed_step (s : State) (e : Event) :
    s.committed <+: (step host s e).fst.committed := by
  cases e with
  | commit t =>
    simp only [step]
    split
    · exact List.prefix_append _ _
    · exact List.prefix_rfl
  | abort t => exact List.prefix_rfl
  | _ =>
    simp only [step]
    split
    · first
      | exact List.prefix_rfl
      | split_ifs <;> exact List.prefix_rfl
    · exact List.prefix_rfl

/-- **The ledger grows by tails that a reader accepts**: whatever is committed
later continues what was committed, from its head to the later one. -/
theorem tail_of_run (host : Host) (events later : List Event) :
    let snapshot := (Runs.final (step host) State.init events).committed
    let ledger := (Runs.final (step host) State.init (events ++ later)).committed
    ∃ tail, ledger = snapshot ++ tail ∧
      (safetyChain host.sha256Hex).verify (privacySafetyHead snapshot)
        (tail.map SafetyEntry.read) = some (privacySafetyHead ledger) := by
  intro snapshot ledger
  have hledger : Accepted host.sha256Hex ledger := accepted_of_run (events ++ later)
  have hsnapshot : Accepted host.sha256Hex snapshot := accepted_of_run events
  have hgrows : snapshot <+: ledger := by
    rw [show ledger = _ from congrArg State.committed (Runs.final_append ..)]
    exact Runs.final_invariant (E := fun _ => True) (P := fun s => snapshot <+: s.committed)
      (fun s e _ h => h.trans (committed_step s e)) (fun _ _ => trivial) List.prefix_rfl
  obtain ⟨tail, htail⟩ := hgrows
  refine ⟨tail, htail.symm, ?_⟩
  rw [Accepted, ← htail, HashChain.verify_append, hsnapshot, Option.bind_some] at hledger
  rw [← HashChain.verify_comap, ← htail]
  exact hledger

/-! ## What a chain binds -/

/-- **SHA-256 keeps apart** the texts some entries are hashed by. -/
def HashesApart (sha256Hex : String → String) (entries : List SafetyRow) : Prop :=
  Set.InjOn sha256Hex { text | ∃ e ∈ entries, encoding e.read.toSafetyFields = text }

/-- Where SHA-256 keeps the texts apart, the chain binds the entries. -/
theorem HashesApart.binds {entries : List SafetyRow} (h : HashesApart sha256Hex entries)
    {e e' : SafetyRow} (he : e ∈ entries) (he' : e' ∈ entries) :
    (rowChain sha256Hex).Binds e e' := by
  intro hhash hdigest
  have hfields := SafetyEntry.fields_of_encoding (h ⟨e, he, rfl⟩ ⟨e', he', rfl⟩ hhash)
  change e.digest = e'.digest at hdigest
  cases e
  cases e'
  simp_all

/-- **No entry is changed**, in one field or before another entry. -/
theorem verifyLedger_changed {pre post : List SafetyRow} {e e' : SafetyRow} {head : ℕ × String}
    (h : verifyLedger sha256Hex (pre ++ e :: post) = some head)
    (hne : e' ≠ e) (hapart : HashesApart sha256Hex (e' :: (pre ++ e :: post)))
    (hchange : e'.digest = e.digest ∨ e'.toSafetyFields = e.toSafetyFields ∨ post ≠ []) :
    verifyLedger sha256Hex (pre ++ e' :: post) = none := by
  have hbinds : (rowChain sha256Hex).Binds e' e := hapart.binds List.mem_cons_self (by simp)
  rw [verifyLedger_eq] at h ⊢
  obtain hdigest | hfields | hpost := hchange
  · exact HashChain.verify_replace_digest hne hbinds hdigest h
  · have hdigest : e'.digest ≠ e.digest := by
      intro hdigest
      refine hne ?_
      cases e
      cases e'
      simp_all
    have hhash : (rowChain sha256Hex).hash e' = (rowChain sha256Hex).hash e := by
      cases e
      cases e'
      obtain rfl : _ = _ := hfields
      rfl
    exact HashChain.verify_replace_hash hdigest hhash h
  · exact HashChain.verify_replace_inner hne hbinds hpost h

/-- **The safety ledger stays one contiguous hash chain** in every interleaving
of appends: it is numbered from 1 on, every entry shows the hash of the one
before, and verification accepts it. A changed entry, or one left out before
another, is found; and no other ledger is accepted up to the same head. -/
theorem ledger_of_run (host : Host) (events : List Event) :
    let ledger := (Runs.final (step host) State.init events).committed
    let hashes := ledger.map (fun row => host.sha256Hex (encoding row.read.toSafetyFields))
    let verify := verifyLedger host.sha256Hex
    ledger.map (fun row => row.sequence) = List.range' 1 ledger.length ∧
      ledger.map (fun row => row.digest) = hashes ∧
      ledger.map (fun row => row.previousDigest)
        = (emptySafetyDigest :: hashes).take ledger.length ∧
      verify ledger = some (privacySafetyHead ledger) ∧
      (∀ pre e post e', ledger = pre ++ e :: post → e' ≠ e →
        HashesApart host.sha256Hex (e' :: ledger) →
        (e'.digest = e.digest ∨ e'.toSafetyFields = e.toSafetyFields ∨ post ≠ []) →
        verify (pre ++ e' :: post) = none) ∧
      (∀ rest, rest.Sublist ledger → ¬ rest <+: ledger → verify rest = none) ∧
      ∀ other, HashesApart host.sha256Hex (other ++ ledger) →
        verify other = some (privacySafetyHead ledger) → other = ledger := by
  intro ledger hashes verify
  have haccepted : (rowChain host.sha256Hex).verify (0, emptySafetyDigest) ledger
      = some (privacySafetyHead ledger) := accepted_of_run events
  have hdigests : ledger.map (fun row => row.digest) = hashes := by
    refine List.map_congr_left (fun row hrow => ?_)
    obtain ⟨pre, post, hsplit⟩ := List.append_of_mem hrow
    rw [hsplit] at haccepted
    exact (HashChain.hash_of_verify haccepted).symm
  have hverify : verify ledger = some (privacySafetyHead ledger) :=
    (verifyLedger_eq ledger).trans haccepted
  refine ⟨HashChain.map_sequence haccepted, hdigests, ?_, hverify, ?_, ?_, ?_⟩
  · rw [← hdigests]
    exact HashChain.map_previous haccepted
  · intro pre e post e' hsplit hne hapart hchange
    rw [hsplit] at hverify hapart
    exact verifyLedger_changed hverify hne hapart hchange
  · intro rest hsub hprefix
    refine Option.eq_none_iff_forall_ne_some.mpr (fun head hrest => hprefix ?_)
    exact HashChain.prefix_of_sublist haccepted ((verifyLedger_eq rest).symm.trans hrest) hsub
  · intro other hapart hother
    refine HashChain.eq_of_verify (fun e he e' he' => ?_)
      ((verifyLedger_eq other).symm.trans hother) haccepted
    exact hapart.binds (List.mem_append_left _ he) (List.mem_append_right _ he')

/-! ## A withdrawal -/

/-- A client's withdrawal. -/
def sampleWithdrawal : Decision :=
  .withdrawal "00000000-0000-4000-8000-000000000001" "00000000-0000-4000-8000-000000000002"
    "00000000-0000-4000-8000-000000000003"

/-- Its row, with a party and a digest. -/
def sampleRow (partyId : Uuid) (digest : String) : SafetyRow where
  operationId := "00000000-0000-4000-8000-000000000001"
  partyId := partyId
  requestId := none
  requestHash := "b242680552c4601aab608814ca1456d0c3403047d7b6fca481d2247ee72c3572"
  review := Jsonb.ofJson (sampleWithdrawal.input id).review
  effect := (sampleWithdrawal.input id).effect
  sequence := 1
  id := "00000000-0000-4000-8000-000000000004"
  previousDigest := emptySafetyDigest
  recordedAt := ⟨1790000000000, by constructor <;> decide⟩
  digest := digest

/-- The text that is hashed, with a party. -/
def sampleText (partyId : Uuid) : String := encoding (sampleRow partyId "").read.toSafetyFields

/-- The SHA-256 of three texts: the effect, the entry, and the entry of
another party. -/
def sampleSha256 (text : String) : String :=
  if text = String.ofList (canonicalJson (sampleWithdrawal.input id).effect.toJson) then
    "b242680552c4601aab608814ca1456d0c3403047d7b6fca481d2247ee72c3572"
  else if text = sampleText "00000000-0000-4000-8000-000000000002" then
    "36d3d96f904a0655fac9b7f63359bb859f5b1cc52080ba8b5ce574ea57537ecc"
  else if text = sampleText "00000000-0000-4000-8000-000000000009" then
    "2c5b46e77817b1423271e90abfb74454ef21194b8b63bfe2dab8bc2bf4b467d8"
  else ""

/-- The host. -/
def sampleHost : Host := ⟨sampleSha256, fun _ => (sampleRow "" "").recordedAt⟩

theorem sampleHost_sha256Hex : sampleHost.sha256Hex = sampleSha256 := by
  rw [sampleHost]

/-- The text of an entry is not that of an effect. -/
theorem sampleText_ne_effect (partyId : Uuid) : sampleText partyId
    ≠ String.ofList (canonicalJson (sampleWithdrawal.input id).effect.toJson) := by
  intro h
  have hnormal := normalForm_eq_of_canonicalJson (plain_fields _) (plain_effect _)
    (String.ofList_injective h)
  exact absurd (length_of_normalForm hnormal) (show (10 : ℕ) ≠ 3 by decide)

theorem sampleText_injective : Function.Injective sampleText :=
  fun _ _ h => congrArg SafetyFields.partyId (SafetyEntry.fields_of_encoding h)

theorem sampleSha256_entry : sampleSha256 (sampleText "00000000-0000-4000-8000-000000000002")
    = "36d3d96f904a0655fac9b7f63359bb859f5b1cc52080ba8b5ce574ea57537ecc" := by
  rw [sampleSha256, if_neg (sampleText_ne_effect _), if_pos rfl]

theorem sampleSha256_changed : sampleSha256 (sampleText "00000000-0000-4000-8000-000000000009")
    = "2c5b46e77817b1423271e90abfb74454ef21194b8b63bfe2dab8bc2bf4b467d8" := by
  rw [sampleSha256, if_neg (sampleText_ne_effect _),
    if_neg (fun h => absurd (sampleText_injective h) (by decide)), if_pos rfl]

/-- A decision is recorded while another transaction waits for the lock. -/
def sampleEvents (decision : Decision) (id : Uuid) (now : Timestamp) : List Event :=
  [.append 1 decision, .append 2 decision, .lock 1, .lock 2, .readHead 1, .insert 1 id now,
    .lock 2, .commit 1, .lock 2, .abort 2]

theorem committed_sampleEvents (host : Host) (decision : Decision) (id : Uuid)
    (now : Timestamp) :
    (Runs.final (step host) State.init (sampleEvents decision id now)).committed
      = [(newEntry host (decision.input host.sha256Hex) (0, emptySafetyDigest) id now).store
          host] := by
  have hmax : 1 ≤ maxSafeInteger := by decide
  have hsequence : ∀ head, ((newEntry host (decision.input host.sha256Hex) head id now).store
      host).sequence = head.fst + 1 := fun _ => rfl
  simp [sampleEvents, step, State.set, State.init, State.finish, State.visible, Transaction.idle,
    privacySafetyHead, insertable, hsequence, hmax]

/-- The input of the withdrawal shows the digest of its effect. -/
theorem sampleWithdrawal_input : sampleWithdrawal.input sampleSha256
    = { sampleWithdrawal.input id with
        requestHash := "b242680552c4601aab608814ca1456d0c3403047d7b6fca481d2247ee72c3572" } := by
  have hhash : sampleSha256 (String.ofList
      (canonicalJson (sampleWithdrawal.input id).effect.toJson))
      = "b242680552c4601aab608814ca1456d0c3403047d7b6fca481d2247ee72c3572" := if_pos rfl
  rw [← hhash]
  rfl

theorem sampleRow_digest (partyId : Uuid) (digest : String) :
    (sampleRow partyId digest).digest = digest :=
  rfl

theorem sampleText_digest (partyId : Uuid) (digest : String) :
    encoding (sampleRow partyId digest).read.toSafetyFields = sampleText partyId :=
  rfl

/-- **The row of the withdrawal.** -/
theorem sampleRow_eq : (newEntry sampleHost (sampleWithdrawal.input sampleSha256)
    (0, emptySafetyDigest) "00000000-0000-4000-8000-000000000004"
    (sampleRow "" "").recordedAt).store sampleHost
    = sampleRow "00000000-0000-4000-8000-000000000002"
      "36d3d96f904a0655fac9b7f63359bb859f5b1cc52080ba8b5ce574ea57537ecc" := by
  obtain ⟨digest, hrow⟩ : ∃ digest, (newEntry sampleHost (sampleWithdrawal.input sampleSha256)
      (0, emptySafetyDigest) "00000000-0000-4000-8000-000000000004"
      (sampleRow "" "").recordedAt).store sampleHost
      = sampleRow "00000000-0000-4000-8000-000000000002" digest := by
    rw [store_newEntry, sampleWithdrawal_input]
    exact ⟨_, rfl⟩
  have hdigest := safetyEntryDigest_store sampleHost (sampleWithdrawal.input sampleSha256)
    (0, emptySafetyDigest) "00000000-0000-4000-8000-000000000004" (sampleRow "" "").recordedAt
  have hsame := congrArg SafetyEntry.digest hrow
  rw [hrow, sampleText_digest, sampleHost_sha256Hex, sampleSha256_entry] at hdigest
  rw [store_digest, ← hdigest, sampleRow_digest] at hsame
  rw [hrow, hsame]

/-- The texts of the entry and of the changed entry are kept apart. -/
theorem sampleHashesApart (digest digest' : String) : HashesApart sampleSha256
    [sampleRow "00000000-0000-4000-8000-000000000009" digest',
      sampleRow "00000000-0000-4000-8000-000000000002" digest] := by
  have htext : ∀ text, (∃ row ∈ [sampleRow "00000000-0000-4000-8000-000000000009" digest',
      sampleRow "00000000-0000-4000-8000-000000000002" digest],
      encoding row.read.toSafetyFields = text) →
      sampleText "00000000-0000-4000-8000-000000000009" = text ∨
        sampleText "00000000-0000-4000-8000-000000000002" = text := by
    rintro text ⟨row, hrow, htext⟩
    obtain hrow | hrow := List.mem_cons.mp hrow
    · rw [hrow] at htext
      exact Or.inl htext
    · rw [List.mem_singleton.mp hrow] at htext
      exact Or.inr htext
  have hne : sampleSha256 (sampleText "00000000-0000-4000-8000-000000000009")
      ≠ sampleSha256 (sampleText "00000000-0000-4000-8000-000000000002") := by
    rw [sampleSha256_changed, sampleSha256_entry]
    decide
  intro a ha b hb heq
  obtain ha | ha := htext a ha
  · obtain hb | hb := htext b hb
    · exact ha.symm.trans hb
    · rw [← ha, ← hb] at heq
      exact absurd heq hne
  · obtain hb | hb := htext b hb
    · rw [← ha, ← hb] at heq
      exact absurd heq.symm hne
    · exact ha.symm.trans hb

/-- **A withdrawal that was changed is found**: its entry with another party. -/
theorem ledger_of_run_withdrawal : verifyLedger sampleSha256
    [sampleRow "00000000-0000-4000-8000-000000000009"
      "36d3d96f904a0655fac9b7f63359bb859f5b1cc52080ba8b5ce574ea57537ecc"] = none := by
  have hledger := committed_sampleEvents sampleHost sampleWithdrawal
    "00000000-0000-4000-8000-000000000004" (sampleRow "" "").recordedAt
  rw [sampleHost_sha256Hex, sampleRow_eq] at hledger
  have hne : sampleRow "00000000-0000-4000-8000-000000000009"
      "36d3d96f904a0655fac9b7f63359bb859f5b1cc52080ba8b5ce574ea57537ecc"
      ≠ sampleRow "00000000-0000-4000-8000-000000000002"
        "36d3d96f904a0655fac9b7f63359bb859f5b1cc52080ba8b5ce574ea57537ecc" :=
    fun h => absurd (congrArg (fun row : SafetyRow => row.partyId) h)
      (show ("00000000-0000-4000-8000-000000000009" : String)
        ≠ "00000000-0000-4000-8000-000000000002" by decide)
  obtain ⟨-, -, -, -, hchanged, -⟩ := ledger_of_run sampleHost (sampleEvents sampleWithdrawal
    "00000000-0000-4000-8000-000000000004" (sampleRow "" "").recordedAt)
  rw [hledger, sampleHost_sha256Hex] at hchanged
  exact hchanged [] _ [] _ rfl hne (sampleHashesApart _ _) (Or.inl rfl)

end Privacy
