import Mathlib.Data.List.Basic
import Mathlib.Data.Nat.Bitwise

/-!
# Zero-padded byte buffers

A buffer of fixed capacity which is written from the front and whose unwritten rest is zero.
-/

namespace Pyroscope.PaddedBuffer

open List

def byteAt (buffer : List Nat) (position : Nat) : Nat :=
  buffer.getD position 0

def padded (capacity : Nat) (bytes : List Nat) : List Nat :=
  bytes ++ replicate (capacity - bytes.length) 0

def littleEndian : Nat → Nat → List Nat
  | 0, _ => []
  | length + 1, number => number % 256 :: littleEndian length (number >>> 8)

section Access

variable {capacity position value byte : Nat} {bytes rest : List Nat}

@[simp]
theorem byteAt_append_cons : byteAt (bytes ++ byte :: rest) bytes.length = byte := by
  simp [byteAt]

theorem byteAt_padded_append (inside : position < capacity) (unwritten : bytes.length ≤ position) :
    byteAt (padded capacity bytes ++ rest) position = 0 := by
  simp only [byteAt, padded, append_assoc, getD_eq_getElem?_getD]
  rw [getElem?_append_right unwritten, getElem?_append_left (by simp; omega)]
  simp

theorem byteAt_padded (unwritten : bytes.length ≤ position) :
    byteAt (padded capacity bytes) position = 0 := by
  simp only [byteAt, padded, getD_eq_getElem?_getD]
  rw [getElem?_append_right unwritten]
  simp [getElem?_replicate]
  split <;> rfl

@[simp]
theorem byteAt_padded_last : byteAt (padded capacity (bytes ++ [byte])) bytes.length = byte := by
  simp [padded, byteAt]

theorem set_padded (room : bytes.length < capacity) :
    (padded capacity bytes).set bytes.length value = padded capacity (bytes ++ [value]) := by
  have split : capacity - bytes.length = (capacity - (bytes.length + 1)) + 1 := by omega
  simp [padded, split, replicate_succ]

@[simp]
theorem set_padded_last :
    (padded capacity (bytes ++ [byte])).set bytes.length value =
      padded capacity (bytes ++ [value]) := by
  simp [padded]

end Access

section Numbers

variable {length number high : Nat}

@[simp]
theorem length_littleEndian (length number : Nat) :
    (littleEndian length number).length = length := by
  induction length generalizing number with
  | zero => rfl
  | succ length ih => simp [littleEndian, ih]

/-- Reading back from the most significant byte, with given higher bits in front. -/
theorem foldr_littleEndian (bits : Nat) (small : high * 256 ^ length + number < 2 ^ bits)
    (fits : number < 256 ^ length) :
    (littleEndian length number).foldr (fun byte value => ((value <<< 8) + byte) % 2 ^ bits) high =
      high * 256 ^ length + number := by
  induction length generalizing number with
  | zero =>
    have : number = 0 := by simpa using fits
    simp [littleEndian, this]
  | succ length ih =>
    have whole : 256 * (number / 256) + number % 256 = number := Nat.div_add_mod number 256
    have shifted : number >>> 8 = number / 256 := Nat.shiftRight_eq_div_pow number 8
    have power : 256 ^ (length + 1) = 256 ^ length * 256 := pow_succ 256 length
    have scaled : high * 256 ^ (length + 1) = high * 256 ^ length * 256 := by
      rw [power, Nat.mul_assoc]
    have quotient : number / 256 < 256 ^ length := by
      apply Nat.div_lt_of_lt_mul
      omega
    simp only [littleEndian, foldr_cons, shifted]
    rw [ih (by omega) quotient, Nat.shiftLeft_eq, Nat.mod_eq_of_lt] <;> omega

end Numbers

end Pyroscope.PaddedBuffer
