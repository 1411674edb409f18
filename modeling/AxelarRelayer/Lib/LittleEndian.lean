import Mathlib.Data.Nat.Basic
import Mathlib.Tactic.Ring

/-!
# Little-endian bytes

A natural number as a fixed count of bytes, lowest first, and back. A number that
fits comes back unchanged (`decode_encode`), and so do bytes (`encode_decode`).
-/

namespace LittleEndian

/-- The `n` lowest bytes of `v`. -/
def encode : Nat → Nat → List UInt8
  | 0, _ => []
  | n + 1, v => UInt8.ofNat (v % 256) :: encode n (v / 256)

def decode : List UInt8 → Nat
  | [] => 0
  | b :: bytes => b.toNat + 256 * decode bytes

@[simp] theorem length_encode (n v : Nat) : (encode n v).length = n := by
  induction n generalizing v with
  | zero => rfl
  | succ n ih => rw [encode, List.length_cons, ih]

theorem decode_encode {n v : Nat} (h : v < 256 ^ n) : decode (encode n v) = v := by
  induction n generalizing v with
  | zero =>
      rw [Nat.pow_zero] at h
      rw [encode, decode]
      omega
  | succ n ih =>
      have hdiv : v / 256 < 256 ^ n := by
        rw [Nat.pow_succ] at h
        exact Nat.div_lt_of_lt_mul (by rwa [Nat.mul_comm])
      have hlow : (UInt8.ofNat (v % 256)).toNat = v % 256 := by
        rw [UInt8.toNat_ofNat']
        omega
      rw [encode, decode, ih hdiv, hlow]
      omega

/-- Bytes come back unchanged as well. -/
theorem encode_decode (bytes : List UInt8) : encode bytes.length (decode bytes) = bytes := by
  induction bytes with
  | nil => rfl
  | cons b bytes ih =>
      have hbyte : b.toNat < 256 := b.toNat_lt
      have hlow : (b.toNat + 256 * decode bytes) % 256 = b.toNat := by omega
      have hhigh : (b.toNat + 256 * decode bytes) / 256 = decode bytes := by omega
      rw [List.length_cons, decode, encode, hlow, hhigh, ih, UInt8.ofNat_toNat]

theorem decode_lt (bytes : List UInt8) : decode bytes < 256 ^ bytes.length := by
  induction bytes with
  | nil => exact Nat.one_pos
  | cons b bytes ih =>
      have hbyte : b.toNat < 256 := b.toNat_lt
      rw [List.length_cons, Nat.pow_succ, decode]
      omega

end LittleEndian
