import Pyroscope.Lib.JsonTexts

/-!
# Strings which stand for themselves

A string is read as the bytes between its quotes only if none of them has to be escaped.
-/

namespace Pyroscope.Json

open List

variable {input rest left text more others pending stands bytes : List UInt8} {byte : UInt8}
  {fuel : Nat}

theorem hexDigits_spec {count value found : Nat}
    (read : hexDigits count value input = some (found, rest)) :
    ∃ consumed, input = consumed ++ rest ∧ consumed.length = count ∧ quote ∉ consumed := by
  induction count generalizing value input with
  | zero =>
    cases read
    exact ⟨[], rfl, rfl, not_mem_nil⟩
  | succ count ih =>
    rcases Parser.of_bind_eq_some read with ⟨byte, behind, isByte, others⟩
    cases input with
    | nil => cases isByte
    | cons first tail =>
      cases isByte
      cases digit : hexDigit byte with
      | none =>
        rw [digit] at others
        cases others
      | some value =>
        rw [digit] at others
        rcases ih others with ⟨consumed, rfl, length, noQuote⟩
        refine ⟨byte :: consumed, rfl, congrArg Nat.succ length, ?_⟩
        rw [mem_cons, not_or]
        refine ⟨?_, noQuote⟩
        rintro rfl
        cases digit

theorem length_utf8_le (code : Nat) : (utf8 code).length ≤ 4 := by
  simp only [utf8]
  split
  · exact Nat.le_of_ble_eq_true rfl
  split
  · exact Nat.le_of_ble_eq_true rfl
  split <;> exact Nat.le_of_ble_eq_true rfl

theorem of_expect_eq_some (read : expect byte input = some ((), rest)) : input = byte :: rest := by
  rcases Parser.of_bind_eq_some read with ⟨first, behind, isFirst, others⟩
  cases input with
  | nil => cases isFirst
  | cons head tail =>
    cases isFirst
    split at others
    case isTrue same =>
      cases others
      rw [same]
    case isFalse => cases others

theorem codePoint_spec (read : codePoint input = some (stands, rest)) :
    ∃ consumed, input = consumed ++ rest ∧ 4 ≤ consumed.length ∧ quote ∉ consumed ∧
      stands.length ≤ 4 := by
  rcases Parser.of_bind_eq_some read with ⟨unit, behind, isUnit, others⟩
  rcases hexDigits_spec isUnit with ⟨consumed, rfl, length, noQuote⟩
  split at others
  case isTrue =>
    rcases Parser.of_bind_eq_some others with ⟨_, _, isBackslash, others⟩
    rcases Parser.of_bind_eq_some others with ⟨_, _, isLetter, others⟩
    rcases Parser.of_bind_eq_some others with ⟨low, _, isLow, last⟩
    rcases hexDigits_spec isLow with ⟨second, rfl, _, noQuoteEither⟩
    cases of_expect_eq_some isLetter
    cases of_expect_eq_some isBackslash
    split at last
    case isTrue =>
      rcases Prod.mk.inj (Option.some.inj last) with ⟨rfl, rfl⟩
      refine ⟨consumed ++ backslash :: 0x75 :: second, by simp, ?_, ?_, length_utf8_le _⟩
      · rw [length_append]
        omega
      · simp only [mem_append, mem_cons, not_or]
        exact ⟨noQuote, by decide, by decide, noQuoteEither⟩
    case isFalse => cases last
  case isFalse =>
    split at others
    case isTrue => cases others
    case isFalse =>
      cases others
      exact ⟨consumed, rfl, length.ge, noQuote, length_utf8_le _⟩

/-- An escape is not shorter than what it stands for, and takes no quote but its own. -/
theorem escape_spec (read : escape input = some (stands, rest)) :
    ∃ consumed, input = consumed ++ rest ∧ stands.length ≤ consumed.length ∧
      (quote ∉ consumed ∨ stands = [quote]) := by
  rcases Parser.of_bind_eq_some read with ⟨letter, behind, isLetter, others⟩
  cases input with
  | nil => cases isLetter
  | cons first tail =>
    cases isLetter
    cases escaped : escapedByte letter with
    | some byte =>
      rw [escaped] at others
      cases others
      refine ⟨[letter], rfl, Nat.le_refl 1, ?_⟩
      by_cases isQuote : letter = quote
      · rw [isQuote] at escaped
        cases escaped
        exact .inr rfl
      · exact .inl (by simpa using fun same => isQuote same.symm)
    | none =>
      rw [escaped] at others
      dsimp only at others
      split at others
      case isTrue isLetter =>
        rcases codePoint_spec others with ⟨consumed, rfl, long, noQuote, short⟩
        refine ⟨letter :: consumed, rfl, ?_, .inl ?_⟩
        · rw [length_cons]
          omega
        · rw [mem_cons, not_or, isLetter]
          exact ⟨by decide, noQuote⟩
      case isFalse => cases others

theorem exists_left_of_noQuote {consumed : List UInt8} (noQuote : quote ∉ consumed)
    (same : more ++ quote :: rest = consumed ++ left) :
    ∃ tail, more = consumed ++ tail ∧ left = tail ++ quote :: rest := by
  rcases append_eq_append_iff.mp same with
    ⟨beyond, isConsumed, isRest⟩ | ⟨tail, isMore, isLeft⟩
  · cases beyond with
    | nil => exact ⟨[], by simpa using isConsumed.symm, isRest.symm⟩
    | cons first behind =>
      cases isRest
      exact absurd (isConsumed ▸ by simp) noQuote
  · exact ⟨tail, isMore, isLeft⟩

/-- Behind an escape some bytes are pending: they have been taken, and have to be given back. -/
theorem exists_pending (noQuote : quote ∉ pending)
    (read : escape (more ++ quote :: rest) = some (stands, left))
    (same : stands ++ others = pending ++ backslash :: more) :
    ∃ later tail, later ≠ [] ∧ quote ∉ later ∧ left = tail ++ quote :: rest ∧
      others = later ++ tail := by
  rcases escape_spec read with ⟨consumed, isConsumed, short, inside | isQuote⟩
  · rcases exists_left_of_noQuote inside isConsumed with ⟨tail, rfl, isLeft⟩
    have whole : stands ++ others = (pending ++ backslash :: consumed) ++ tail := by
      rw [same]
      simp
    rcases append_eq_append_iff.mp whole with ⟨later, isPending, isOthers⟩ | ⟨beyond, long, _⟩
    · refine ⟨later, tail, ?_, ?_, isLeft, isOthers⟩
      · rintro rfl
        have lengths := congrArg length isPending
        simp only [length_append, length_cons, length_nil] at lengths
        omega
      · intro mem
        have inside : quote ∈ pending ++ backslash :: consumed := isPending ▸ by simp [mem]
        simp only [mem_append, mem_cons] at inside
        rcases inside with inPending | isBackslash | inConsumed
        · exact noQuote inPending
        · exact absurd isBackslash (by decide)
        · contradiction
    · have lengths := congrArg length long
      simp only [length_append, length_cons] at lengths
      omega
  · subst isQuote
    cases pending with
    | nil => exact absurd (head_eq_of_cons_eq same) (by decide)
    | cons first behind =>
      exact absurd (head_eq_of_cons_eq same ▸ mem_cons_self) noQuote

theorem characters_cases (read : characters (fuel + 1) (byte :: input) = some (bytes, left)) :
    byte = quote ∧ bytes = [] ∧ left = input ∨
      (byte = backslash ∧ ∃ stands behind others, escape input = some (stands, behind) ∧
        characters fuel behind = some (others, left) ∧ bytes = stands ++ others) ∨
      (Plain byte ∧ ∃ others, characters fuel input = some (others, left) ∧
        bytes = byte :: others) := by
  rcases Parser.of_bind_eq_some read with ⟨_, _, isByte, found⟩
  cases isByte
  split at found
  case isTrue isQuote =>
    cases found
    exact .inl ⟨isQuote, rfl, rfl⟩
  case isFalse noQuote =>
  split at found
  case isTrue isBackslash =>
    rcases Parser.of_bind_eq_some found with ⟨stands, behind, escaped, found⟩
    rcases Parser.of_bind_eq_some found with ⟨others, _, rest, last⟩
    cases last
    exact .inr (.inl ⟨isBackslash, stands, behind, others, escaped, rest, rfl⟩)
  case isFalse noBackslash =>
  split at found
  case isTrue => cases found
  case isFalse printable =>
    rcases Parser.of_bind_eq_some found with ⟨others, _, rest, last⟩
    cases last
    exact .inr (.inr ⟨⟨noQuote, noBackslash, printable⟩, others, rest, rfl⟩)

theorem characters_ne_pending (nonempty : pending ≠ []) (noQuote : quote ∉ pending) :
    characters fuel (text ++ quote :: rest) ≠ some (pending ++ text, left) := by
  intro read
  induction fuel generalizing pending text with
  | zero => cases read
  | succ fuel ih =>
    rcases exists_cons_of_ne_nil nonempty with ⟨first, behind, rfl⟩
    cases text with
    | nil =>
      rcases characters_cases read with ⟨_, none, _⟩ | ⟨wrong, _⟩ | ⟨plain, _⟩
      · cases none
      · exact absurd wrong (by decide)
      · exact plain.1 rfl
    | cons byte more =>
      rcases characters_cases read with ⟨_, none, _⟩ |
        ⟨isBackslash, stands, _, others, escaped, found, same⟩ | ⟨plain, others, found, same⟩
      · cases none
      · subst isBackslash
        rcases exists_pending noQuote escaped same.symm with
          ⟨later, tail, nonempty, noQuote, rfl, rfl⟩
        exact ih nonempty noQuote found
      · rw [cons_append, cons.injEq] at same
        rcases same with ⟨rfl, rfl⟩
        rw [append_cons] at found
        refine ih (by simp) ?_ found
        rw [mem_append, mem_singleton, not_or]
        exact ⟨fun mem => noQuote (mem_cons_of_mem _ mem), plain.1.symm⟩

theorem plain_of_characters (read : characters fuel (text ++ quote :: rest) = some (text, left)) :
    PlainText text := by
  induction fuel generalizing text with
  | zero => cases read
  | succ fuel ih =>
    cases text with
    | nil => exact fun _ mem => absurd mem not_mem_nil
    | cons byte more =>
      rcases characters_cases read with ⟨_, none, _⟩ |
        ⟨isBackslash, stands, _, others, escaped, found, same⟩ | ⟨plain, others, found, same⟩
      · cases none
      · subst isBackslash
        rcases @exists_pending _ _ _ _ [] _ not_mem_nil escaped same.symm with
          ⟨later, tail, nonempty, noQuote, rfl, rfl⟩
        exact absurd found (characters_ne_pending nonempty noQuote)
      · cases same
        rw [PlainText, forall_mem_cons]
        exact ⟨plain, ih found⟩

theorem plain_of_behindQuote
    (read : stringBehindQuote (text ++ quote :: rest) = some (text, left)) :
    PlainText text :=
  plain_of_characters read

end Pyroscope.Json
