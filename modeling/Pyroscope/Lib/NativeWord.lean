import Mathlib.Algebra.Group.Nat.Defs
import Mathlib.Data.List.Basic

/-!
# Machine words and their bytes in memory

A word is a natural number, and a byte order says how it lies in memory.
-/

namespace Pyroscope.NativeWord

open List

inductive ByteOrder where
  | littleEndian
  | bigEndian
  deriving DecidableEq

def ofDigits : List UInt8 → Nat
  | [] => 0
  | byte :: rest => byte.toNat + 256 * ofDigits rest

def digits : Nat → Nat → List UInt8
  | 0, _ => []
  | length + 1, word => UInt8.ofNat (word % 256) :: digits length (word / 256)

def ofBytes : ByteOrder → List UInt8 → Nat
  | .littleEndian, bytes => ofDigits bytes
  | .bigEndian, bytes => ofDigits bytes.reverse

def toBytes : ByteOrder → Nat → Nat → List UInt8
  | .littleEndian, length, word => digits length word
  | .bigEndian, length, word => (digits length word).reverse

section Digits

variable (bytes : List UInt8) (length : Nat)

theorem digits_ofDigits : digits bytes.length (ofDigits bytes) = bytes := by
  induction bytes with
  | nil => rfl
  | cons byte rest ih =>
    have small : byte.toNat < 256 := byte.toNat_lt
    have low : (byte.toNat + 256 * ofDigits rest) % 256 = byte.toNat := by omega
    have high : (byte.toNat + 256 * ofDigits rest) / 256 = ofDigits rest := by omega
    simp only [length_cons, digits, ofDigits, low, high, UInt8.ofNat_toNat, ih]

theorem ofDigits_lt : ofDigits bytes < 256 ^ bytes.length := by
  induction bytes with
  | nil => simp [ofDigits]
  | cons byte rest ih =>
    have small : byte.toNat < 256 := byte.toNat_lt
    simp only [ofDigits, length_cons, Nat.pow_succ]
    omega

theorem ofDigits_digits (word : Nat) : ofDigits (digits length word) = word % 256 ^ length := by
  induction length generalizing word with
  | zero => simp [digits, ofDigits, Nat.mod_one]
  | succ length ih =>
    rw [digits, ofDigits, ih, Nat.pow_succ', Nat.mod_mul, UInt8.toNat_ofNat']
    simp

theorem digits_zero : digits length 0 = replicate length 0 := by
  induction length with
  | zero => rfl
  | succ length ih => simp [digits, ih, replicate_succ]

end Digits

section Bytes

variable (order : ByteOrder) (bytes : List UInt8)

theorem toBytes_ofBytes {length : Nat} (size : bytes.length = length) :
    toBytes order length (ofBytes order bytes) = bytes := by
  subst size
  cases order with
  | littleEndian => exact digits_ofDigits bytes
  | bigEndian =>
    have stored := digits_ofDigits bytes.reverse
    rw [length_reverse] at stored
    simp only [toBytes, ofBytes, stored, reverse_reverse]

theorem ofBytes_toBytes (length word : Nat) :
    ofBytes order (toBytes order length word) = word % 256 ^ length := by
  cases order with
  | littleEndian => exact ofDigits_digits length word
  | bigEndian => rw [toBytes, ofBytes, reverse_reverse, ofDigits_digits]

theorem ofBytes_lt : ofBytes order bytes < 256 ^ bytes.length := by
  cases order with
  | littleEndian => exact ofDigits_lt bytes
  | bigEndian => exact length_reverse ▸ ofDigits_lt bytes.reverse

theorem eq_replicate_of_ofBytes_eq_zero (zero : ofBytes order bytes = 0) :
    bytes = replicate bytes.length 0 := by
  have stored := toBytes_ofBytes order bytes rfl
  rw [zero] at stored
  cases order with
  | littleEndian => exact (stored.symm.trans (digits_zero _))
  | bigEndian =>
    rw [toBytes, digits_zero, reverse_replicate] at stored
    exact stored.symm

end Bytes

end Pyroscope.NativeWord
