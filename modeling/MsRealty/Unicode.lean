import Mathlib.Data.List.Basic

/-!
# UTF-16 and UTF-8

The code units a string of the source is made of, and the bytes it is stored
as. Both ways back are total: what is not an encoding reads as the replacement
character.

The decoder of UTF-8 is a machine that reads one byte after the other: it
knows how many bytes of a character are still to come, the part of the code
point it has read, and between which bounds the next byte must lie. A byte
that shows that a character is not complete is read again as a first byte.
-/

/-- What stands for what is not an encoding. -/
def replacementChar : Char := Char.ofNat 0xfffd

theorem Char.toNat_bounds (c : Char) :
    c.toNat < 0xd800 ∨ 0xdfff < c.toNat ∧ c.toNat < 0x110000 :=
  c.valid

theorem length_flatMap_of_one {f : Char → List ℕ} {text : List Char}
    (h : ∀ c ∈ text, (f c).length = 1) : (text.flatMap f).length = text.length := by
  rw [List.length_flatMap, List.map_congr_left h, List.map_const', List.sum_replicate_nat,
    Nat.mul_one]

namespace Utf16

/-- The code units of a character: beyond the basic plane, a high and a low
surrogate. -/
def encodeChar (c : Char) : List ℕ :=
  if c.toNat < 0x10000 then [c.toNat]
  else [0xd800 + (c.toNat - 0x10000) / 0x400, 0xdc00 + (c.toNat - 0x10000) % 0x400]

/-- The code units of a text. -/
def encode (text : List Char) : List ℕ := text.flatMap encodeChar

/-- The character of a code unit on its own. -/
def charOf (unit : ℕ) : Char :=
  if 0xd800 ≤ unit ∧ unit ≤ 0xdfff then replacementChar else Char.ofNat unit

/-- **The text of some code units.** -/
def decode : List ℕ → List Char
  | high :: low :: rest =>
    if (0xd800 ≤ high ∧ high ≤ 0xdbff) ∧ 0xdc00 ≤ low ∧ low ≤ 0xdfff then
      Char.ofNat (0x10000 + (high - 0xd800) * 0x400 + (low - 0xdc00)) :: decode rest
    else charOf high :: decode (low :: rest)
  | [unit] => [charOf unit]
  | [] => []

theorem decode_encodeChar (c : Char) (units : List ℕ) :
    decode (encodeChar c ++ units) = c :: decode units := by
  have hbounds := c.toNat_bounds
  have hread : ∀ n, n = c.toNat → Char.ofNat n = c := fun n h => h ▸ Char.ofNat_toNat c
  unfold encodeChar
  split_ifs with hbasic
  · have hchar : charOf c.toNat = c := by
      rw [charOf, if_neg (by omega), hread _ rfl]
    cases units with
    | nil => rw [List.append_nil, decode, hchar, decode]
    | cons low rest => rw [List.singleton_append, decode, if_neg (by omega), hchar]
  · rw [List.cons_append, List.singleton_append, decode, if_pos (by omega), hread _ (by omega)]

/-- **A text is read back.** -/
theorem decode_encode (text : List Char) : decode (encode text) = text := by
  induction text with
  | nil => rfl
  | cons c text ih =>
    rw [encode, List.flatMap_cons, decode_encodeChar]
    exact congrArg (List.cons c) ih

theorem length_encode_ascii {text : List Char} (h : ∀ c ∈ text, c.toNat < 0x80) :
    (encode text).length = text.length :=
  length_flatMap_of_one fun c hc => by
    rw [encodeChar, if_pos (Nat.lt_trans (h c hc) (by decide)), List.length_singleton]

end Utf16

namespace Utf8

/-- The bytes of a character. -/
def encodeChar (c : Char) : List ℕ :=
  let n := c.toNat
  if n < 0x80 then [n]
  else if n < 0x800 then [0xc0 + n / 64, 0x80 + n % 64]
  else if n < 0x10000 then [0xe0 + n / 4096, 0x80 + n / 64 % 64, 0x80 + n % 64]
  else [0xf0 + n / 262144, 0x80 + n / 4096 % 64, 0x80 + n / 64 % 64, 0x80 + n % 64]

/-- The bytes of a text. -/
def encode (text : List Char) : List ℕ := text.flatMap encodeChar

/-- The state of a decoder: how many bytes are to come, the code point so far,
and the bounds of the next byte. -/
structure State where
  needed : ℕ
  point : ℕ
  lower : ℕ
  upper : ℕ

/-- Between two characters. -/
def State.start : State := ⟨0, 0, 0x80, 0xbf⟩

/-- Reads the first byte of a character. -/
def first (b : ℕ) : State × List Char :=
  if b < 0x80 then (.start, [Char.ofNat b])
  else if 0xc2 ≤ b ∧ b ≤ 0xdf then (⟨1, b % 32, 0x80, 0xbf⟩, [])
  else if 0xe0 ≤ b ∧ b ≤ 0xef then
    (⟨2, b % 16, if b = 0xe0 then 0xa0 else 0x80, if b = 0xed then 0x9f else 0xbf⟩, [])
  else if 0xf0 ≤ b ∧ b ≤ 0xf4 then
    (⟨3, b % 8, if b = 0xf0 then 0x90 else 0x80, if b = 0xf4 then 0x8f else 0xbf⟩, [])
  else (.start, [replacementChar])

/-- Reads a byte. -/
def step (s : State) (b : ℕ) : State × List Char :=
  if s.needed = 0 then first b
  else if b < s.lower ∨ s.upper < b then ((first b).fst, replacementChar :: (first b).snd)
  else
    let point := s.point * 64 + b % 64
    if s.needed = 1 then (.start, [Char.ofNat point])
    else (⟨s.needed - 1, point, 0x80, 0xbf⟩, [])

/-- Reads bytes up to the end, where a character that is not complete is none. -/
def run (s : State) : List ℕ → List Char
  | [] => if s.needed = 0 then [] else [replacementChar]
  | b :: bs => (step s b).snd ++ run (step s b).fst bs

/-- **The text of some bytes.** -/
def decode (bs : List ℕ) : List Char := run .start bs

/-! ## Round trip -/

theorem run_cons_silent {s s' : State} {b : ℕ} (h : step s b = (s', [])) (bs : List ℕ) :
    run s (b :: bs) = run s' bs := by
  rw [run, h, List.nil_append]

theorem run_cons_char {s : State} {b : ℕ} {c : Char} (h : step s b = (.start, [c]))
    (bs : List ℕ) : run s (b :: bs) = c :: run .start bs := by
  rw [run, h]
  rfl

/-- A byte within the bounds continues a character. -/
theorem step_continue {s : State} {b : ℕ} (hneeded : 1 < s.needed) (hlower : s.lower ≤ b)
    (hupper : b ≤ s.upper) :
    step s b = (⟨s.needed - 1, s.point * 64 + b % 64, 0x80, 0xbf⟩, []) := by
  unfold step
  rw [if_neg (by omega), if_neg (by omega), if_neg (by omega)]

/-- The last byte ends it. -/
theorem step_last {s : State} {b : ℕ} (hneeded : s.needed = 1) (hlower : s.lower ≤ b)
    (hupper : b ≤ s.upper) :
    step s b = (.start, [Char.ofNat (s.point * 64 + b % 64)]) := by
  unfold step
  rw [if_neg (by omega), if_neg (by omega), if_pos hneeded]

/-- **A character is read back.** -/
theorem run_encodeChar (c : Char) (bs : List ℕ) :
    run .start (encodeChar c ++ bs) = c :: run .start bs := by
  have hbounds := c.toNat_bounds
  have hread : ∀ n, n = c.toNat → Char.ofNat n = c := fun n h => h ▸ Char.ofNat_toNat c
  unfold encodeChar
  dsimp only
  split_ifs with h1 h2 h3
  · refine run_cons_char ?_ bs
    show first c.toNat = _
    rw [first, if_pos h1, hread _ rfl]
  · have hfirst : step .start (0xc0 + c.toNat / 64) = (⟨1, c.toNat / 64, 0x80, 0xbf⟩, []) := by
      show first _ = _
      rw [first, if_neg (by omega), if_pos (by omega)]
      congr 2
      omega
    rw [List.cons_append, run_cons_silent hfirst]
    refine run_cons_char ?_ bs
    rw [step_last rfl (by simp) (by simp; omega)]
    exact congrArg (fun x => (State.start, [x])) (hread _ (by dsimp only; omega))
  · have hfirst : step .start (0xe0 + c.toNat / 4096)
        = (⟨2, c.toNat / 4096, if 0xe0 + c.toNat / 4096 = 0xe0 then 0xa0 else 0x80,
            if 0xe0 + c.toNat / 4096 = 0xed then 0x9f else 0xbf⟩, []) := by
      show first _ = _
      rw [first, if_neg (by omega), if_neg (by omega), if_pos (by omega)]
      congr 2
      omega
    rw [List.cons_append, run_cons_silent hfirst, List.cons_append,
      run_cons_silent (step_continue (by simp) (by dsimp only; split_ifs <;> omega)
        (by dsimp only; split_ifs <;> omega))]
    refine run_cons_char ?_ bs
    rw [step_last rfl (by simp) (by simp; omega)]
    exact congrArg (fun x => (State.start, [x])) (hread _ (by dsimp only; omega))
  · have hfirst : step .start (0xf0 + c.toNat / 262144)
        = (⟨3, c.toNat / 262144, if 0xf0 + c.toNat / 262144 = 0xf0 then 0x90 else 0x80,
            if 0xf0 + c.toNat / 262144 = 0xf4 then 0x8f else 0xbf⟩, []) := by
      show first _ = _
      rw [first, if_neg (by omega), if_neg (by omega), if_neg (by omega), if_pos (by omega)]
      congr 2
      omega
    rw [List.cons_append, run_cons_silent hfirst, List.cons_append,
      run_cons_silent (step_continue (by simp) (by dsimp only; split_ifs <;> omega)
        (by dsimp only; split_ifs <;> omega)), List.cons_append,
      run_cons_silent (step_continue (by simp) (by simp) (by simp; omega))]
    refine run_cons_char ?_ bs
    rw [step_last rfl (by simp) (by simp; omega)]
    exact congrArg (fun x => (State.start, [x])) (hread _ (by dsimp only; omega))

/-- **A text is read back.** -/
theorem decode_encode (text : List Char) : decode (encode text) = text := by
  induction text with
  | nil => rfl
  | cons c text ih =>
    rw [encode, List.flatMap_cons, decode, run_encodeChar]
    exact congrArg (List.cons c) ih

/-! ## Bytes -/

theorem encodeChar_lt (c : Char) : ∀ b ∈ encodeChar c, b < 256 := by
  have hbounds := c.toNat_bounds
  unfold encodeChar
  dsimp only
  split_ifs <;> simp only [List.mem_cons, List.not_mem_nil, or_false] <;> intro b hb <;> omega

theorem encode_lt (text : List Char) : ∀ b ∈ encode text, b < 256 := by
  intro b hb
  obtain ⟨c, -, hc⟩ := List.mem_flatMap.mp hb
  exact encodeChar_lt c b hc

theorem length_encode_ascii {text : List Char} (h : ∀ c ∈ text, c.toNat < 0x80) :
    (encode text).length = text.length :=
  length_flatMap_of_one fun c hc => by
    rw [encodeChar, if_pos (h c hc), List.length_singleton]

end Utf8
