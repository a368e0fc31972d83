import Pyroscope.Lib.Parsing
import Mathlib.Algebra.Group.Nat.Defs

/-!
# Unsigned LEB128

A number is written in groups of seven bits, the low ones first.
-/

namespace Pyroscope.Leb128

def encodeFrom : Nat → Nat → List UInt8
  | 0, _ => []
  | fuel + 1, value =>
    if value / 128 = 0 then [.ofNat (value % 128)]
    else .ofNat (value % 128 + 128) :: encodeFrom fuel (value / 128)

def encode (value : Nat) : List UInt8 := encodeFrom (value + 1) value

def decode : Parser UInt8 Nat
  | [] => none
  | byte :: rest =>
    if byte.toNat < 128 then some (byte.toNat, rest)
    else (decode rest).map fun (value, rest) => (byte.toNat - 128 + 128 * value, rest)

theorem decode_encodeFrom {fuel value : Nat} (enough : value < fuel) :
    Parser.Reads decode (encodeFrom fuel value) value := by
  induction fuel generalizing value with
  | zero => omega
  | succ fuel ih =>
    intro rest
    simp only [encodeFrom]
    split
    case isTrue small =>
      have byte : (UInt8.ofNat (value % 128)).toNat = value := by
        rw [UInt8.toNat_ofNat']
        omega
      have less : value < 128 := by omega
      simp only [List.cons_append, List.nil_append, decode, byte, if_pos less]
    case isFalse large =>
      have byte : (UInt8.ofNat (value % 128 + 128)).toNat = value % 128 + 128 := by
        rw [UInt8.toNat_ofNat']
        omega
      have more : ¬ value % 128 + 128 < 128 := by omega
      have behind : decode (encodeFrom fuel (value / 128) ++ rest) = some (value / 128, rest) :=
        ih (by omega) rest
      simp only [List.cons_append, decode, byte, if_neg more, behind, Option.map_some]
      congr 2
      omega

theorem reads_encode (value : Nat) : Parser.Reads decode (encode value) value :=
  decode_encodeFrom (Nat.lt_succ_self value)

theorem length_encodeFrom_le {fuel value groups : Nat} (small : value < 128 ^ (groups + 1)) :
    (encodeFrom fuel value).length ≤ groups + 1 := by
  induction groups generalizing fuel value with
  | zero =>
    cases fuel with
    | zero => exact Nat.zero_le _
    | succ fuel =>
      have one : value / 128 = 0 := Nat.div_eq_of_lt (by simpa using small)
      simp [encodeFrom, one]
  | succ groups ih =>
    cases fuel with
    | zero => exact Nat.zero_le _
    | succ fuel =>
      simp only [encodeFrom]
      split
      case isTrue => simp
      case isFalse =>
        have less : value / 128 < 128 ^ (groups + 1) := by
          apply Nat.div_lt_of_lt_mul
          rwa [Nat.pow_succ, Nat.mul_comm] at small
        simpa using ih less

theorem length_encode_le {value : Nat} (small : value < 2 ^ 64) : (encode value).length ≤ 10 := by
  apply length_encodeFrom_le
  exact Nat.lt_of_lt_of_le small (by decide)

theorem encode_ne_nil (value : Nat) : encode value ≠ [] := by
  simp only [encode, encodeFrom]
  split <;> simp

end Pyroscope.Leb128
