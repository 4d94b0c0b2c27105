import MsRealty.Unicode

/-!
# Percent-encoding

A text in which the characters outside a set are written as their bytes in UTF-8, each as a
percent sign and two hexadecimal digits, and the text that such a text stands for. The set of
the characters that are kept is a parameter, as each part of a URL has its own.
-/

namespace Percent

/-- A byte, as a percent sign and two hexadecimal digits. -/
def byte (b : ℕ) : List Char :=
  ['%', (Nat.digitChar (b / 16)).toUpper, (Nat.digitChar (b % 16)).toUpper]

/-- **The text with all characters encoded that are not kept.** -/
def encode (keep : Char → Bool) (text : List Char) : List Char :=
  text.flatMap fun c => if keep c then [c] else (Utf8.encodeChar c).flatMap byte

/-- The characters of an escape are among those that are kept. -/
def KeepsEscapes (keep : Char → Bool) : Prop :=
  keep '%' = true ∧ ∀ d < 16, keep (Nat.digitChar d).toUpper = true

instance (keep : Char → Bool) : Decidable (KeepsEscapes keep) :=
  inferInstanceAs (Decidable (_ ∧ _))

theorem isUpper_iff {c : Char} : c.isUpper = true ↔ 65 ≤ c.toNat ∧ c.toNat ≤ 90 := by
  show decide (c.val ≥ 'A'.val ∧ c.val ≤ 'Z'.val) = true ↔ _
  rw [decide_eq_true_eq, ge_iff_le, UInt32.le_iff_toNat_le, UInt32.le_iff_toNat_le]
  rfl

theorem isLower_iff {c : Char} : c.isLower = true ↔ 97 ≤ c.toNat ∧ c.toNat ≤ 122 := by
  show (decide (c.val ≥ 'a'.val) && decide (c.val ≤ 'z'.val)) = true ↔ _
  rw [Bool.and_eq_true, decide_eq_true_eq, decide_eq_true_eq, ge_iff_le, UInt32.le_iff_toNat_le,
    UInt32.le_iff_toNat_le]
  rfl

theorem mem_byte {p : Char → Prop} {b : ℕ} (hb : b < 256) (hpercent : p '%')
    (hdigit : ∀ d < 16, p (Nat.digitChar d).toUpper) : ∀ c ∈ byte b, p c := by
  intro c hc
  simp only [byte, List.mem_cons, List.not_mem_nil, or_false] at hc
  rcases hc with rfl | rfl | rfl
  · exact hpercent
  · exact hdigit _ (by omega)
  · exact hdigit _ (by omega)

/-- A property of the kept characters and of those of escapes holds in an encoded text. -/
theorem mem_encode {keep : Char → Bool} {p : Char → Prop} (hkeep : ∀ c, keep c = true → p c)
    (hpercent : p '%') (hdigit : ∀ d < 16, p (Nat.digitChar d).toUpper) (text : List Char) :
    ∀ c ∈ encode keep text, p c := by
  intro c hc
  obtain ⟨d, -, hd⟩ := List.mem_flatMap.mp hc
  split at hd
  · rename_i hkept
    rw [List.mem_singleton.mp hd]
    exact hkeep d hkept
  · obtain ⟨b, hb, hmem⟩ := List.mem_flatMap.mp hd
    exact mem_byte (Utf8.encodeChar_lt d b hb) hpercent hdigit c hmem

/-- **Only kept characters occur in an encoded text**, if the set has those of escapes. -/
theorem kept_encode {keep : Char → Bool} (h : KeepsEscapes keep) (text : List Char) :
    ∀ c ∈ encode keep text, keep c = true :=
  mem_encode (fun _ hc => hc) h.1 h.2 text

/-- **A text of kept characters is its own encoding.** -/
theorem encode_of_kept {keep : Char → Bool} {text : List Char}
    (h : ∀ c ∈ text, keep c = true) : encode keep text = text := by
  induction text with
  | nil => rfl
  | cons c text ih =>
    rw [List.forall_mem_cons] at h
    rw [encode, List.flatMap_cons, if_pos h.1]
    exact congrArg (c :: ·) (ih h.2)

/-! ## Decoding -/

/-- The value of a hexadecimal digit. -/
def hexValue? (c : Char) : Option ℕ :=
  if c.isDigit then some (c.toNat - '0'.toNat)
  else if 'a' ≤ c ∧ c ≤ 'f' then some (c.toNat - 'a'.toNat + 10)
  else if 'A' ≤ c ∧ c ≤ 'F' then some (c.toNat - 'A'.toNat + 10)
  else none

/-- The bytes of a text, an escape standing for one of them. -/
def bytes? : List Char → Option (List ℕ)
  | [] => some []
  | '%' :: high :: low :: rest => do
    let h ← hexValue? high
    let l ← hexValue? low
    let bs ← bytes? rest
    pure ((16 * h + l) :: bs)
  | c :: rest =>
    if c = '%' then none
    else (bytes? rest).map (Utf8.encodeChar c ++ ·)

/-- **The text that an encoded one stands for**, if its escapes are well formed and its bytes
are those of a text. -/
def decode? (text : List Char) : Option (List Char) := do
  let bs ← bytes? text
  if Utf8.encode (Utf8.decode bs) = bs then some (Utf8.decode bs) else none

end Percent
