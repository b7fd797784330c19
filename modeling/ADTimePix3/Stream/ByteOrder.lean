import Mathlib.Algebra.Group.Nat.Defs
import Mathlib.Data.List.GetD

/-!
# Byte order

The payloads are big-endian; the host is little-endian. A word is loaded from a vector of bytes as the host
loads it and then swapped, which gives the big-endian value of its bytes (`bswap16_word16`,
`bswap32_word32`).
-/

namespace ADTimePix3.Stream

/-- `__builtin_bswap16`. -/
def bswap16 (x : ℕ) : ℕ := x % 2 ^ 8 * 2 ^ 8 + x / 2 ^ 8

/-- `__builtin_bswap32`. -/
def bswap32 (x : ℕ) : ℕ :=
  x % 2 ^ 8 * 2 ^ 24 + x / 2 ^ 8 % 2 ^ 8 * 2 ^ 16 + x / 2 ^ 16 % 2 ^ 8 * 2 ^ 8 + x / 2 ^ 24

def byteAt (bytes : List UInt8) (i : ℕ) : ℕ := (bytes.getD i 0).toNat

/-- The 16-bit word `i` of a vector of bytes, as a little-endian host loads it. -/
def word16 (bytes : List UInt8) (i : ℕ) : ℕ := byteAt bytes (2 * i) + 2 ^ 8 * byteAt bytes (2 * i + 1)

def word32 (bytes : List UInt8) (i : ℕ) : ℕ :=
  byteAt bytes (4 * i) + 2 ^ 8 * byteAt bytes (4 * i + 1) + 2 ^ 16 * byteAt bytes (4 * i + 2) +
    2 ^ 24 * byteAt bytes (4 * i + 3)

/-! ## Big-endian values -/

/-- The value of a list of bytes, the first one the most significant. -/
def bigEndian (bytes : List UInt8) : ℕ := bytes.foldl (fun value b => value * 2 ^ 8 + b.toNat) 0

/-- The bytes of word `i` when words have `size` bytes. -/
def wordBytes (size : ℕ) (bytes : List UInt8) (i : ℕ) : List UInt8 := (bytes.drop (i * size)).take size

theorem bigEndian_lt (bytes : List UInt8) : bigEndian bytes < (2 ^ 8) ^ bytes.length := by
  suffices h : ∀ value bound, value < bound →
      bytes.foldl (fun value b => value * 2 ^ 8 + b.toNat) value < bound * (2 ^ 8) ^ bytes.length by
    have hone := h 0 1 Nat.one_pos
    rwa [Nat.one_mul] at hone
  induction bytes with
  | nil =>
    intro value bound hlt
    rwa [List.length_nil, Nat.pow_zero, Nat.mul_one]
  | cons b bytes ih =>
    intro value bound hlt
    have hb := b.toNat_lt
    have hnext := ih (value * 2 ^ 8 + b.toNat) (bound * 2 ^ 8) (by omega)
    rwa [Nat.mul_assoc, Nat.mul_comm (2 ^ 8), ← Nat.pow_succ] at hnext

theorem length_wordBytes {size : ℕ} {bytes : List UInt8} {i : ℕ} (h : (i + 1) * size ≤ bytes.length) :
    (wordBytes size bytes i).length = size := by
  rw [wordBytes, List.length_take, List.length_drop, Nat.min_eq_left]
  rw [Nat.add_mul, Nat.one_mul] at h
  omega

theorem byteAt_lt (bytes : List UInt8) (i : ℕ) : byteAt bytes i < 2 ^ 8 := (bytes.getD i 0).toNat_lt

theorem byteAt_of_lt {bytes : List UInt8} {i : ℕ} (h : i < bytes.length) : byteAt bytes i = bytes[i].toNat := by
  rw [byteAt, List.getD_eq_getElem _ _ h]

theorem drop_eq_cons {bytes : List UInt8} {i : ℕ} (h : i < bytes.length) :
    ∃ b, b.toNat = byteAt bytes i ∧ bytes.drop i = b :: bytes.drop (i + 1) :=
  ⟨bytes[i], (byteAt_of_lt h).symm, List.drop_eq_getElem_cons h⟩

theorem bswap16_word16 {bytes : List UInt8} {i : ℕ} (h : (i + 1) * 2 ≤ bytes.length) :
    bswap16 (word16 bytes i) = bigEndian (wordBytes 2 bytes i) := by
  obtain ⟨b₀, h₀, hdrop₀⟩ := drop_eq_cons (show i * 2 < bytes.length by omega)
  obtain ⟨b₁, h₁, hdrop₁⟩ := drop_eq_cons (show i * 2 + 1 < bytes.length by omega)
  have hlt₀ := byteAt_lt bytes (i * 2)
  have hlt₁ := byteAt_lt bytes (i * 2 + 1)
  rw [wordBytes, hdrop₀, hdrop₁]
  simp only [List.take_succ_cons, List.take_zero, bigEndian, List.foldl_cons, List.foldl_nil, h₀, h₁]
  rw [bswap16, word16, Nat.mul_comm 2 i]
  omega

/-- Swapping turns the least significant byte into the most significant one. -/
theorem bswap32_bytes {b₀ b₁ b₂ b₃ : ℕ} (h₀ : b₀ < 2 ^ 8) (h₁ : b₁ < 2 ^ 8) (h₂ : b₂ < 2 ^ 8) :
    bswap32 (b₀ + 2 ^ 8 * b₁ + 2 ^ 16 * b₂ + 2 ^ 24 * b₃) =
      ((b₀ * 2 ^ 8 + b₁) * 2 ^ 8 + b₂) * 2 ^ 8 + b₃ := by
  have hdiv₁ : (b₀ + 2 ^ 8 * b₁ + 2 ^ 16 * b₂ + 2 ^ 24 * b₃) / 2 ^ 8 =
      b₁ + 2 ^ 8 * b₂ + 2 ^ 16 * b₃ := by omega
  have hdiv₂ : (b₀ + 2 ^ 8 * b₁ + 2 ^ 16 * b₂ + 2 ^ 24 * b₃) / 2 ^ 16 = b₂ + 2 ^ 8 * b₃ := by omega
  have hdiv₃ : (b₀ + 2 ^ 8 * b₁ + 2 ^ 16 * b₂ + 2 ^ 24 * b₃) / 2 ^ 24 = b₃ := by omega
  have hmod₀ : (b₀ + 2 ^ 8 * b₁ + 2 ^ 16 * b₂ + 2 ^ 24 * b₃) % 2 ^ 8 = b₀ := by omega
  have hmod₁ : (b₁ + 2 ^ 8 * b₂ + 2 ^ 16 * b₃) % 2 ^ 8 = b₁ := by omega
  have hmod₂ : (b₂ + 2 ^ 8 * b₃) % 2 ^ 8 = b₂ := by omega
  rw [bswap32, hdiv₁, hdiv₂, hdiv₃, hmod₀, hmod₁, hmod₂]
  omega

theorem bswap32_word32 {bytes : List UInt8} {i : ℕ} (h : (i + 1) * 4 ≤ bytes.length) :
    bswap32 (word32 bytes i) = bigEndian (wordBytes 4 bytes i) := by
  obtain ⟨b₀, h₀, hdrop₀⟩ := drop_eq_cons (show i * 4 < bytes.length by omega)
  obtain ⟨b₁, h₁, hdrop₁⟩ := drop_eq_cons (show i * 4 + 1 < bytes.length by omega)
  obtain ⟨b₂, h₂, hdrop₂⟩ := drop_eq_cons (show i * 4 + 2 < bytes.length by omega)
  obtain ⟨b₃, h₃, hdrop₃⟩ := drop_eq_cons (show i * 4 + 3 < bytes.length by omega)
  have hlt₀ := byteAt_lt bytes (i * 4)
  have hlt₁ := byteAt_lt bytes (i * 4 + 1)
  have hlt₂ := byteAt_lt bytes (i * 4 + 2)
  rw [wordBytes, hdrop₀, hdrop₁, show i * 4 + 1 + 1 = i * 4 + 2 from rfl, hdrop₂,
    show i * 4 + 2 + 1 = i * 4 + 3 from rfl, hdrop₃]
  simp only [List.take_succ_cons, List.take_zero, bigEndian, List.foldl_cons, List.foldl_nil, h₀, h₁, h₂, h₃]
  rw [word32, Nat.mul_comm 4 i, bswap32_bytes hlt₀ hlt₁ hlt₂, Nat.zero_mul, Nat.zero_add]

theorem bswap32_word32_lt (bytes : List UInt8) (i : ℕ) : bswap32 (word32 bytes i) < 2 ^ 32 := by
  have hlt₀ := byteAt_lt bytes (4 * i)
  have hlt₁ := byteAt_lt bytes (4 * i + 1)
  have hlt₂ := byteAt_lt bytes (4 * i + 2)
  have hlt₃ := byteAt_lt bytes (4 * i + 3)
  rw [word32, bswap32_bytes hlt₀ hlt₁ hlt₂]
  omega

end ADTimePix3.Stream
