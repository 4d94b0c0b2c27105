import Mathlib.Data.List.Basic
import Mathlib.Data.List.TakeWhile

/-!
# The URL-safe base64 of a list of bytes

Bytes are numbers below 256. Three bytes are four characters, each of which
stands for six bits; one or two bytes that remain are two or three characters,
without padding. The decoder reads the ordinary alphabet as well, skips what
is in neither, and stops at padding.
-/

namespace Base64Url

/-- The alphabet. -/
def alphabet : List Char :=
  "ABCDEFGHIJKLMNOPQRSTUVWXYZabcdefghijklmnopqrstuvwxyz0123456789-_".toList

/-- The character of six bits. -/
def sextetChar (n : ℕ) : Char := alphabet.getD n 'A'

/-- The six bits of a character; the ordinary alphabet ends in `+` and `/`. -/
def sextet? (c : Char) : Option ℕ :=
  if c = '+' then some 62 else if c = '/' then some 63 else alphabet.findIdx? (· == c)

/-- The six-bit groups of a list of bytes. -/
def sextets : List ℕ → List ℕ
  | a :: b :: c :: rest =>
    a / 4 :: (a % 4 * 16 + b / 16) :: (b % 16 * 4 + c / 64) :: c % 64 :: sextets rest
  | [a, b] => [a / 4, a % 4 * 16 + b / 16, b % 16 * 4]
  | [a] => [a / 4, a % 4 * 16]
  | [] => []

/-- The bytes of a list of six-bit groups; a single group left over is none. -/
def bytes : List ℕ → List ℕ
  | w :: x :: y :: z :: rest =>
    (w * 4 + x / 16) :: (x % 16 * 16 + y / 4) :: (y % 4 * 64 + z) :: bytes rest
  | [w, x, y] => [w * 4 + x / 16, x % 16 * 16 + y / 4]
  | [w, x] => [w * 4 + x / 16]
  | _ => []

/-- **The text of some bytes.** -/
def encode (bs : List ℕ) : List Char := (sextets bs).map sextetChar

/-- **The bytes of a text.** -/
def decode (text : List Char) : List ℕ :=
  bytes ((text.takeWhile (· != '=')).filterMap sextet?)

/-! ## Round trip -/

theorem sextets_lt : ∀ {bs : List ℕ}, (∀ b ∈ bs, b < 256) → ∀ n ∈ sextets bs, n < 64
  | a :: b :: c :: rest, h, n, hn => by
    have ha := h a (by simp)
    have hb := h b (by simp)
    have hc := h c (by simp)
    have hbytes : ∀ b ∈ rest, b < 256 := fun b hb => h b (by simp [hb])
    have hrest := sextets_lt hbytes n
    simp only [sextets, List.mem_cons] at hn
    obtain rfl | rfl | rfl | rfl | hmem := hn
    · omega
    · omega
    · omega
    · omega
    · exact hrest hmem
  | [a, b], h, n, hn => by
    have ha := h a (by simp)
    have hb := h b (by simp)
    simp only [sextets, List.mem_cons, List.not_mem_nil, or_false] at hn
    omega
  | [a], h, n, hn => by
    have ha := h a (by simp)
    simp only [sextets, List.mem_cons, List.not_mem_nil, or_false] at hn
    omega
  | [], _, n, hn => by simp [sextets] at hn

/-- The groups of some bytes are the bytes again. -/
theorem bytes_sextets : ∀ {bs : List ℕ}, (∀ b ∈ bs, b < 256) → bytes (sextets bs) = bs
  | a :: b :: c :: rest, h => by
    have ha := h a (by simp)
    have hb := h b (by simp)
    have hc := h c (by simp)
    have hbytes : ∀ b ∈ rest, b < 256 := fun b hb => h b (by simp [hb])
    rw [sextets, bytes, bytes_sextets hbytes]
    congr 1
    · omega
    · congr 1
      · omega
      · congr 1
        omega
  | [a, b], h => by
    have ha := h a (by simp)
    have hb := h b (by simp)
    rw [sextets, bytes]
    congr 1
    · omega
    · congr 1
      omega
  | [a], h => by
    have ha := h a (by simp)
    rw [sextets, bytes]
    congr 1
    omega
  | [], _ => rfl

theorem sextet?_sextetChar {n : ℕ} (h : n < 64) : sextet? (sextetChar n) = some n := by
  have hall : ∀ n < 64, sextet? (sextetChar n) = some n := by decide +kernel
  exact hall n h

theorem sextetChar_ne_padding {n : ℕ} (h : n < 64) : (sextetChar n != '=') = true := by
  have hall : ∀ n < 64, (sextetChar n != '=') = true := by decide +kernel
  exact hall n h

/-- **The text of some bytes is read back.** -/
theorem decode_encode {bs : List ℕ} (h : ∀ b ∈ bs, b < 256) : decode (encode bs) = bs := by
  have hlt := sextets_lt h
  have hpadding : (encode bs).takeWhile (· != '=') = encode bs := by
    refine List.takeWhile_eq_self_iff.mpr (fun c hc => ?_)
    obtain ⟨n, hn, rfl⟩ := List.mem_map.mp hc
    exact sextetChar_ne_padding (hlt n hn)
  have hread : (encode bs).filterMap sextet? = sextets bs := by
    rw [encode, List.filterMap_map]
    calc (sextets bs).filterMap (sextet? ∘ sextetChar)
        = (sextets bs).filterMap some :=
          List.filterMap_congr (fun n hn => sextet?_sextetChar (hlt n hn))
      _ = sextets bs := List.filterMap_some
  unfold decode
  rw [hpadding, hread, bytes_sextets h]

/-- The length of a text. -/
theorem length_encode : ∀ bs : List ℕ, (encode bs).length = (4 * bs.length + 2) / 3
  | _ :: _ :: _ :: rest => by
    have ih := length_encode rest
    simp only [encode, List.length_map, sextets, List.length_cons] at ih ⊢
    omega
  | [_, _] => by simp [encode, sextets]
  | [_] => by simp [encode, sextets]
  | [] => rfl

/-- The text of some bytes is ASCII. -/
theorem encode_ascii {bs : List ℕ} (h : ∀ b ∈ bs, b < 256) :
    ∀ c ∈ encode bs, c.toNat < 0x80 := by
  have hall : ∀ n < 64, (sextetChar n).toNat < 0x80 := by decide +kernel
  intro c hc
  obtain ⟨n, hn, rfl⟩ := List.mem_map.mp hc
  exact hall n (sextets_lt h n hn)

end Base64Url
