import Mathlib.Data.List.Induction
import Mathlib.Tactic.Ring

/-!
# Numbers in a base

A number in a base is read from its digits, the most significant first (`value`),
and has one list of digits of every length (`digits`). The two undo each other
on numbers that have no more digits (`digits_value`, `value_digits`), so a
number may be taken from the digits of one base to those of another and back.

An `Alphabet` has a letter for every digit. A text of its letters is the text of
its digits (`text_indices`), and the digits of a text are read back
(`indices_text`).
-/

namespace Positional

/-! ## Digits -/

/-- **The number of some digits**, the most significant first. -/
def value (b : ℕ) (ds : List ℕ) : ℕ := ds.foldl (fun n d => n * b + d) 0

/-- **The last digits of a number**, so many of them. -/
def digits (b : ℕ) : ℕ → ℕ → List ℕ
  | 0, _ => []
  | k + 1, n => digits b k (n / b) ++ [n % b]

theorem value_append_singleton (b : ℕ) (ds : List ℕ) (d : ℕ) :
    value b (ds ++ [d]) = value b ds * b + d := by
  rw [value, List.foldl_append]
  rfl

@[simp] theorem length_digits (b k n : ℕ) : (digits b k n).length = k := by
  induction k generalizing n with
  | zero => rfl
  | succ k ih => rw [digits, List.length_append, ih, List.length_singleton]

theorem digits_lt {b : ℕ} (hb : 0 < b) {k n : ℕ} : ∀ d ∈ digits b k n, d < b := by
  induction k generalizing n with
  | zero => simp [digits]
  | succ k ih =>
    intro d hd
    rcases List.mem_append.mp hd with hd | hd
    · exact ih d hd
    · rw [List.mem_singleton.mp hd]
      exact Nat.mod_lt n hb

/-- A number of some digits has no more. -/
theorem value_lt {b : ℕ} {ds : List ℕ} (h : ∀ d ∈ ds, d < b) : value b ds < b ^ ds.length := by
  induction ds using List.reverseRecOn with
  | nil => exact Nat.one_pos
  | append_singleton ds d ih =>
    have hd : d < b := h d (by simp)
    have hds : value b ds + 1 ≤ b ^ ds.length := ih fun d hd => h d (by simp [hd])
    rw [value_append_singleton, List.length_append, List.length_singleton, pow_succ]
    calc value b ds * b + d < value b ds * b + b := Nat.add_lt_add_left hd _
      _ = (value b ds + 1) * b := by ring
      _ ≤ b ^ ds.length * b := Nat.mul_le_mul_right b hds

/-- **The digits of the number of some digits.** -/
theorem digits_value {b : ℕ} {ds : List ℕ} (h : ∀ d ∈ ds, d < b) :
    digits b ds.length (value b ds) = ds := by
  induction ds using List.reverseRecOn with
  | nil => rfl
  | append_singleton ds d ih =>
    have hd : d < b := h d (by simp)
    have hdiv : (value b ds * b + d) / b = value b ds := by
      rw [Nat.mul_comm, Nat.mul_add_div (Nat.zero_lt_of_lt hd), Nat.div_eq_of_lt hd, Nat.add_zero]
    have hmod : (value b ds * b + d) % b = d := by
      rw [Nat.mul_add_mod_self_right, Nat.mod_eq_of_lt hd]
    rw [value_append_singleton, List.length_append, List.length_singleton, digits, hdiv, hmod,
      ih fun d hd => h d (by simp [hd])]

/-- **The number of its digits.** -/
theorem value_digits {b k n : ℕ} (h : n < b ^ k) : value b (digits b k n) = n := by
  induction k generalizing n with
  | zero => exact (Nat.lt_one_iff.mp h).symm
  | succ k ih =>
    have hdiv : n / b < b ^ k := Nat.div_lt_of_lt_mul (by rwa [pow_succ'] at h)
    rw [digits, value_append_singleton, ih hdiv, Nat.div_add_mod']

/-- Each digit, by itself. -/
theorem digits_eq_map (b k n : ℕ) :
    digits b k n = (List.range k).reverse.map (fun i => n / b ^ i % b) := by
  induction k generalizing n with
  | zero => rfl
  | succ k ih =>
    have hshift : (List.range k).reverse.map (fun i => n / b / b ^ i % b)
        = (List.range k).reverse.map (fun i => n / b ^ (i + 1) % b) :=
      List.map_congr_left fun i _ => by rw [Nat.div_div_eq_div_mul, ← pow_succ']
    rw [digits, ih, hshift, List.range_succ_eq_map, List.reverse_cons, List.map_append,
      ← List.map_reverse, List.map_map]
    simp [Function.comp_def]

/-! ## Alphabets -/

/-- **An alphabet**: a letter for every digit of a base. -/
structure Alphabet (α : Type*) where
  letters : List α
  nodup : letters.Nodup

namespace Alphabet

variable {α : Type*} (A : Alphabet α)

/-- The base. -/
def base : ℕ := A.letters.length

/-- The letters of some digits. -/
def text (ds : List ℕ) : List α := ds.flatMap (fun d => A.letters[d]?.toList)

theorem text_cons {d : ℕ} (h : d < A.base) (ds : List ℕ) :
    A.text (d :: ds) = A.letters.get ⟨d, h⟩ :: A.text ds := by
  have hget : A.letters[d]? = some (A.letters.get ⟨d, h⟩) := List.getElem?_eq_getElem h
  rw [text, List.flatMap_cons, hget]
  rfl

/-- The text of some digits is one of the alphabet. -/
theorem mem_of_text {ds : List ℕ} : ∀ c ∈ A.text ds, c ∈ A.letters := by
  intro c hc
  obtain ⟨d, -, hd⟩ := List.mem_flatMap.mp hc
  exact List.mem_of_getElem? (Option.mem_toList.mp hd)

variable [DecidableEq α]

/-- The digits of some letters. -/
def indices (s : List α) : List ℕ := s.map A.letters.idxOf

theorem indices_lt {s : List α} (h : ∀ c ∈ s, c ∈ A.letters) : ∀ d ∈ A.indices s, d < A.base := by
  intro d hd
  obtain ⟨c, hc, rfl⟩ := List.mem_map.mp hd
  exact List.idxOf_lt_length_of_mem (h c hc)

/-- **The text of the digits of a text.** -/
theorem text_indices {s : List α} (h : ∀ c ∈ s, c ∈ A.letters) : A.text (A.indices s) = s := by
  induction s with
  | nil => rfl
  | cons c s ih =>
    have hc : A.letters.idxOf c < A.base := List.idxOf_lt_length_of_mem (h c List.mem_cons_self)
    rw [indices, List.map_cons, A.text_cons hc, ← indices,
      ih fun c hc => h c (List.mem_cons_of_mem _ hc)]
    exact congrArg (· :: s) (List.getElem_idxOf hc)

/-- **The digits of the text of some digits.** -/
theorem indices_text {ds : List ℕ} (h : ∀ d ∈ ds, d < A.base) : A.indices (A.text ds) = ds := by
  induction ds with
  | nil => rfl
  | cons d ds ih =>
    have hd := h d List.mem_cons_self
    rw [A.text_cons hd, indices, List.map_cons, ← indices,
      ih fun d hd => h d (List.mem_cons_of_mem _ hd)]
    exact congrArg (· :: ds) (List.Nodup.idxOf_getElem A.nodup d hd)

theorem length_text {ds : List ℕ} (h : ∀ d ∈ ds, d < A.base) : (A.text ds).length = ds.length := by
  have := congrArg List.length (A.indices_text h)
  rwa [indices, List.length_map] at this

end Alphabet

end Positional
