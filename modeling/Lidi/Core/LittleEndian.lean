import Mathlib.Data.UInt

set_option relaxedAutoImplicit false
set_option autoImplicit false

/-!
# Little-endian byte strings of a fixed length

## Main definitions

* `LittleEndian.encode` — the `k` low-order bytes of a number, lowest first.
* `LittleEndian.decode` — the number that a byte string stands for.

## Main results

* `LittleEndian.decode_encode`, `LittleEndian.encode_decode` — the two are inverse to each other
  on the numbers below `256 ^ k` and the strings of length `k`.
-/

namespace LittleEndian

/-- The `k` low-order bytes of `n`, lowest first. -/
def encode : ℕ → ℕ → List UInt8
  | 0, _ => []
  | k + 1, n => UInt8.ofNat n :: encode k (n / 256)

/-- The number whose bytes, lowest first, are given. -/
def decode : List UInt8 → ℕ
  | [] => 0
  | b :: bs => b.toNat + 256 * decode bs

/-- As many bytes as asked for. -/
@[simp]
lemma length_encode (k n : ℕ) : (encode k n).length = k := by
  induction k generalizing n with
  | zero => rfl
  | succ k ih => simp [encode, ih]

/-- A byte string of length `k` stands for a number below `256 ^ k`. -/
lemma decode_lt (bs : List UInt8) : decode bs < 256 ^ bs.length := by
  induction bs with
  | nil => simp [decode]
  | cons b bs ih =>
    have hb := b.toNat_lt
    simp only [decode, List.length_cons, pow_succ]
    omega

/-- Encoding keeps a number modulo `256 ^ k`. -/
theorem decode_encode (k n : ℕ) : decode (encode k n) = n % 256 ^ k := by
  induction k generalizing n with
  | zero => simp [encode, decode, Nat.mod_one]
  | succ k ih =>
    have hb : (UInt8.ofNat n).toNat = n % 256 := UInt8.toNat_ofNat'
    rw [encode, decode, ih, hb, pow_succ', Nat.mod_mul]

/-- **A number that fits is read back.** -/
lemma decode_encode_of_lt {k n : ℕ} (h : n < 256 ^ k) : decode (encode k n) = n := by
  rw [decode_encode, Nat.mod_eq_of_lt h]

/-- Every byte string is the encoding of the number it stands for. -/
theorem encode_decode (bs : List UInt8) : encode bs.length (decode bs) = bs := by
  induction bs with
  | nil => rfl
  | cons b bs ih =>
    have hb := b.toNat_lt
    have hlow : UInt8.ofNat (b.toNat + 256 * decode bs) = b := by
      rw [← UInt8.toNat_inj, UInt8.toNat_ofNat']
      omega
    have hhigh : (b.toNat + 256 * decode bs) / 256 = decode bs := by omega
    rw [List.length_cons, encode, decode, hlow, hhigh, ih]

/-- Four bytes stand for a 32-bit number. -/
lemma toNat_ofNat_decode {bs : List UInt8} (h : bs.length = 4) :
    (UInt32.ofNat (decode bs)).toNat = decode bs := by
  have hlt := decode_lt bs
  rw [h] at hlt
  rw [UInt32.toNat_ofNat']
  exact Nat.mod_eq_of_lt hlt

/-- Eight bytes stand for a 64-bit number. -/
lemma toNat_ofNat_decode_eight {bs : List UInt8} (h : bs.length = 8) :
    (UInt64.ofNat (decode bs)).toNat = decode bs := by
  have hlt := decode_lt bs
  rw [h] at hlt
  rw [UInt64.toNat_ofNat']
  exact Nat.mod_eq_of_lt hlt

/-- Zero bytes stand for zero. -/
lemma decode_replicate_zero (n : ℕ) : decode (List.replicate n 0) = 0 := by
  induction n with
  | zero => rfl
  | succ n ih => simp [List.replicate_succ, decode, ih]

/-- **Bytes are written back.** -/
lemma encode_decode_of_length {bs : List UInt8} {k : ℕ} (h : bs.length = k) :
    encode k (decode bs) = bs := by
  subst h
  exact encode_decode bs

end LittleEndian
