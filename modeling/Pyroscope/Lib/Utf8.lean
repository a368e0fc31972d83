import Mathlib.Data.List.Basic

/-!
# UTF-8

Texts in UTF-8 may be put one behind the other, and every byte below 0x80 is one.
-/

namespace Pyroscope.Utf8

open List

/-- The bytes are those of some characters. -/
def IsText (bytes : List UInt8) : Prop :=
  ∃ characters : List Char, characters.flatMap String.utf8EncodeChar = bytes

theorem isText_iff_validateUTF8 {bytes : List UInt8} :
    bytes.toByteArray.validateUTF8 = true ↔ IsText bytes := by
  rw [ByteArray.validateUTF8_eq_true_iff]
  constructor
  · rintro ⟨characters, same⟩
    have bytesSame := congrArg (·.data.toList) same
    rw [utf8Encode, toList_data_toByteArray, toList_data_toByteArray] at bytesSame
    exact ⟨characters, bytesSame.symm⟩
  · rintro ⟨characters, rfl⟩
    exact ⟨characters, rfl⟩

instance (bytes : List UInt8) : Decidable (IsText bytes) :=
  decidable_of_iff _ isText_iff_validateUTF8

theorem isText_nil : IsText [] := ⟨[], rfl⟩

theorem isText_char (character : Char) : IsText (String.utf8EncodeChar character) :=
  ⟨[character], flatMap_singleton ..⟩

theorem IsText.append {first second : List UInt8} (isFirst : IsText first)
    (isSecond : IsText second) : IsText (first ++ second) := by
  rcases isFirst with ⟨characters, rfl⟩
  rcases isSecond with ⟨others, rfl⟩
  exact ⟨characters ++ others, flatMap_append⟩

def IsAscii (bytes : List UInt8) : Prop := ∀ byte ∈ bytes, byte < 0x80

instance (bytes : List UInt8) : Decidable (IsAscii bytes) := bytes.decidableBAll (· < 0x80)

theorem isText_byte {byte : UInt8} (small : byte < 0x80) : IsText [byte] := by
  have every : ∀ code : Fin 128, String.utf8EncodeChar (.ofNat code) = [.ofNat code] := by decide
  have encoded := every ⟨byte.toNat, small⟩
  rw [UInt8.ofNat_toNat] at encoded
  exact encoded ▸ isText_char _

theorem IsText.cons {byte : UInt8} {bytes : List UInt8} (small : byte < 0x80)
    (isText : IsText bytes) : IsText (byte :: bytes) :=
  (isText_byte small).append isText

theorem IsAscii.isText {bytes : List UInt8} (ascii : IsAscii bytes) : IsText bytes := by
  induction bytes with
  | nil => exact isText_nil
  | cons byte rest ih =>
    rw [IsAscii, forall_mem_cons] at ascii
    exact (ih ascii.2).cons ascii.1

theorem le_ofNat {code : Nat} (large : 0x80 ≤ code % 256) : 0x80 ≤ UInt8.ofNat code := by
  rw [UInt8.le_iff_toNat_le, UInt8.toNat_ofNat']
  exact large

/-- A character is a byte below 0x80, or has only bytes from there on. -/
theorem utf8EncodeChar_cases (character : Char) :
    (∃ byte < 0x80, String.utf8EncodeChar character = [byte]) ∨
      ∀ byte ∈ String.utf8EncodeChar character, 0x80 ≤ byte := by
  unfold String.utf8EncodeChar
  dsimp only
  split_ifs with small
  · refine .inl ⟨_, ?_, rfl⟩
    rw [UInt8.lt_iff_toNat_lt, UInt8.toNat_ofNat']
    change _ < 128
    omega
  all_goals
    refine .inr ?_
    simp only [forall_mem_cons, not_mem_nil, false_implies, implies_true, and_true]
    repeat' constructor
    all_goals
      apply le_ofNat
      omega

end Pyroscope.Utf8
