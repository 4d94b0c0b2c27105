import Mathlib.Data.List.Range

/-!
# Hash chains

A log whose entries carry a sequence number, the digest of the entry before
and their own digest, which is the hash of everything else in the entry. A
verifier reads the entries in order from a *head* – the sequence number and
the digest it starts after – and answers with the head it arrives at.

A chain is contiguous, so no entry can be left out but at its end
(`prefix_of_sublist`). Where the hash binds the entries it is applied to, an
entry cannot be replaced (`verify_replace_digest`, `verify_replace_inner`),
and a head determines all that was read (`eq_of_verify`).
-/

/-- **How entries are chained.** -/
structure HashChain (ε δ : Type*) where
  /-- The sequence number of an entry. -/
  sequence : ε → ℕ
  /-- The digest of the entry before. -/
  previous : ε → δ
  /-- The digest an entry carries. -/
  digest : ε → δ
  /-- The hash of everything else in an entry. -/
  hash : ε → δ
  /-- What else must hold of an entry. -/
  check : ε → Bool

namespace HashChain

variable {ε δ : Type*} [DecidableEq δ] (c : HashChain ε δ)

/-- The head after an entry. -/
def headOf (e : ε) : ℕ × δ := (c.sequence e, c.digest e)

/-- **An entry follows a head.** -/
def Follows (head : ℕ × δ) (e : ε) : Prop :=
  c.sequence e = head.fst + 1 ∧ c.previous e = head.snd ∧ c.hash e = c.digest e ∧ c.check e = true

instance (head : ℕ × δ) (e : ε) : Decidable (c.Follows head e) :=
  inferInstanceAs (Decidable (_ ∧ _ ∧ _ ∧ _))

/-- **Verifies** that entries follow a head and each other. -/
def verify : ℕ × δ → List ε → Option (ℕ × δ)
  | head, [] => some head
  | head, e :: es => if c.Follows head e then verify (c.headOf e) es else none

@[simp] theorem verify_nil (head : ℕ × δ) : c.verify head [] = some head := rfl

/-- The chain of entries that are read by a function. -/
def comap {ε' : Type*} (f : ε' → ε) : HashChain ε' δ where
  sequence e := c.sequence (f e)
  previous e := c.previous (f e)
  digest e := c.digest (f e)
  hash e := c.hash (f e)
  check e := c.check (f e)

variable {c} {head head' : ℕ × δ} {e e' : ε} {es es' : List ε}

theorem verify_cons_eq_some :
    c.verify head (e :: es) = some head' ↔ c.Follows head e ∧
      c.verify (c.headOf e) es = some head' := by
  rw [verify]
  split_ifs with h
  · simp [h]
  · simp [h]

/-- Entries are verified as they are read. -/
theorem verify_comap {ε' : Type*} (f : ε' → ε) (head : ℕ × δ) (es : List ε') :
    (c.comap f).verify head es = c.verify head (es.map f) := by
  induction es generalizing head with
  | nil => rfl
  | cons e es ih =>
    rw [List.map_cons, verify, verify, ih]
    rfl

/-- **Entries are verified in pieces.** -/
theorem verify_append (head : ℕ × δ) (es es' : List ε) :
    c.verify head (es ++ es') = (c.verify head es).bind (fun head => c.verify head es') := by
  induction es generalizing head with
  | nil => rfl
  | cons e es ih =>
    rw [List.cons_append, verify, verify]
    split_ifs
    · exact ih (c.headOf e)
    · rfl

/-- What follows the last entry was read before it. -/
theorem verify_concat_eq_some :
    c.verify head (es ++ [e]) = some head' ↔
      ∃ h, c.verify head es = some h ∧ c.Follows h e ∧ c.headOf e = head' := by
  rw [verify_append, Option.bind_eq_some_iff]
  refine exists_congr (fun h => and_congr_right (fun _ => ?_))
  rw [verify_cons_eq_some, verify_nil, Option.some_inj]

/-! ## A chain is contiguous -/

/-- **The sequence numbers of a chain** are those after its start, without gaps. -/
theorem map_sequence (h : c.verify head es = some head') :
    es.map c.sequence = List.range' (head.fst + 1) es.length := by
  induction es generalizing head with
  | nil => rfl
  | cons e es ih =>
    obtain ⟨hfollows, hrest⟩ := verify_cons_eq_some.mp h
    rw [List.map_cons, ih hrest, List.length_cons, List.range'_succ, headOf, hfollows.1]

/-- A chain ends as far from its start as it is long. -/
theorem fst_of_verify (h : c.verify head es = some head') :
    head'.fst = head.fst + es.length := by
  induction es generalizing head with
  | nil => rw [← Option.some.inj h]; rfl
  | cons e es ih =>
    obtain ⟨hfollows, hrest⟩ := verify_cons_eq_some.mp h
    rw [ih hrest, headOf, hfollows.1, List.length_cons]
    omega

/-- **The previous digests of a chain** are its digests, each one entry later. -/
theorem map_previous (h : c.verify head es = some head') :
    es.map c.previous = (head.snd :: es.map c.digest).take es.length := by
  induction es generalizing head with
  | nil => rfl
  | cons e es ih =>
    obtain ⟨hfollows, hrest⟩ := verify_cons_eq_some.mp h
    rw [List.map_cons, List.map_cons, ih hrest, List.length_cons, List.take_succ_cons,
      hfollows.2.1]
    rfl

/-- **A chain with entries left out** is the chain up to some entry. -/
theorem prefix_of_sublist {head'' : ℕ × δ} (h : c.verify head es = some head')
    (h' : c.verify head es' = some head'') (hsub : es'.Sublist es) : es' <+: es := by
  induction es generalizing head es' with
  | nil => exact List.sublist_nil.mp hsub ▸ List.nil_prefix
  | cons e es ih =>
    obtain ⟨-, hrest⟩ := verify_cons_eq_some.mp h
    cases hsub with
    | cons _ hsub =>
      cases es' with
      | nil => exact List.nil_prefix
      | cons e' es' =>
        -- a later entry has a greater number than the one that must come first
        have hmem : c.sequence e' ∈ es.map c.sequence :=
          List.mem_map_of_mem (hsub.subset List.mem_cons_self)
        rw [map_sequence hrest, List.mem_range'_1, headOf,
          (verify_cons_eq_some.mp h).1.1, (verify_cons_eq_some.mp h').1.1] at hmem
        exact absurd hmem.1 (by omega)
    | cons_cons _ hsub =>
      obtain ⟨-, hrest'⟩ := verify_cons_eq_some.mp h'
      exact List.prefix_cons_inj e |>.mpr (ih hrest hrest' hsub)

/-! ## A chain binds its entries -/

/-- **The hash binds two entries**: of one hash and one digest, they are one. -/
def Binds (c : HashChain ε δ) (e e' : ε) : Prop :=
  c.hash e = c.hash e' → c.digest e = c.digest e' → e = e'

/-- Entries that were verified are well hashed. -/
theorem hash_of_verify {pre post : List ε} (h : c.verify head (pre ++ e :: post) = some head') :
    c.hash e = c.digest e := by
  rw [verify_append, Option.bind_eq_some_iff] at h
  obtain ⟨mid, -, h⟩ := h
  exact (verify_cons_eq_some.mp h).1.2.2.1

/-- **An entry is not replaced under its digest.** -/
theorem verify_replace_digest {pre post post' : List ε} (hne : e' ≠ e) (hbinds : c.Binds e' e)
    (hdigest : c.digest e' = c.digest e) (h : c.verify head (pre ++ e :: post) = some head') :
    c.verify head (pre ++ e' :: post') = none := by
  refine Option.eq_none_iff_forall_ne_some.mpr (fun mid hmid => hne (hbinds ?_ hdigest))
  rw [hash_of_verify h, hash_of_verify hmid, hdigest]

/-- **A digest is not replaced alone.** -/
theorem verify_replace_hash {pre post post' : List ε} (hdigest : c.digest e' ≠ c.digest e)
    (hhash : c.hash e' = c.hash e) (h : c.verify head (pre ++ e :: post) = some head') :
    c.verify head (pre ++ e' :: post') = none := by
  refine Option.eq_none_iff_forall_ne_some.mpr (fun mid hmid => hdigest ?_)
  rw [← hash_of_verify h, ← hash_of_verify hmid, hhash]

/-- An entry shows the digest of the one before. -/
theorem previous_of_verify {pre post : List ε} {next : ε}
    (h : c.verify head (pre ++ e :: next :: post) = some head') :
    c.previous next = c.digest e := by
  rw [verify_append, Option.bind_eq_some_iff] at h
  obtain ⟨mid, -, h⟩ := h
  obtain ⟨-, h⟩ := verify_cons_eq_some.mp h
  exact (verify_cons_eq_some.mp h).1.2.1

/-- **An entry is not replaced before another one.** -/
theorem verify_replace_inner {pre post : List ε} (hne : e' ≠ e) (hbinds : c.Binds e' e)
    (hpost : post ≠ []) (h : c.verify head (pre ++ e :: post) = some head') :
    c.verify head (pre ++ e' :: post) = none := by
  by_cases hdigest : c.digest e' = c.digest e
  · exact verify_replace_digest hne hbinds hdigest h
  · cases post with
    | nil => exact absurd rfl hpost
    | cons next post =>
      refine Option.eq_none_iff_forall_ne_some.mpr (fun mid hmid => hdigest ?_)
      rw [← previous_of_verify h, ← previous_of_verify hmid]

/-- **A head determines the entries read before it.** -/
theorem eq_of_verify (hbinds : ∀ e ∈ es, ∀ e' ∈ es', c.Binds e e')
    (h : c.verify head es = some head') (h' : c.verify head es' = some head') : es = es' := by
  induction es using List.reverseRecOn generalizing es' head' with
  | nil =>
    have hlength := fst_of_verify h'
    rw [← Option.some.inj h] at hlength
    exact (List.length_eq_zero_iff.mp (by omega)).symm
  | append_singleton es e ih =>
    have hlength := (fst_of_verify h).symm.trans (fst_of_verify h')
    rw [List.length_append, List.length_singleton] at hlength
    cases es' using List.reverseRecOn with
    | nil => exact absurd hlength (by simp)
    | append_singleton es' e' =>
      obtain ⟨mid, hmid, hfollows, hhead⟩ := verify_concat_eq_some.mp h
      obtain ⟨mid', hmid', hfollows', hhead'⟩ := verify_concat_eq_some.mp h'
      have hdigest : c.digest e = c.digest e' := by
        rw [← hhead] at hhead'
        exact (congrArg Prod.snd hhead').symm
      obtain rfl : e = e' := by
        refine hbinds e (by simp) e' (by simp) ?_ hdigest
        rw [hfollows.2.2.1, hfollows'.2.2.1, hdigest]
      -- the entry shows the head before it
      obtain rfl : mid = mid' := by
        refine Prod.ext ?_ (hfollows.2.1.symm.trans hfollows'.2.1)
        exact Nat.succ_injective (hfollows.1.symm.trans hfollows'.1)
      rw [ih (fun a ha b hb => hbinds a (List.mem_append_left _ ha) b
        (List.mem_append_left _ hb)) hmid hmid']

end HashChain
