import Pyroscope.Lib.Json
import Mathlib.Data.List.TakeWhile

/-!
# Texts of JSON values

Every rule is about a text with something behind it which cannot belong to a number.
-/

namespace Pyroscope.Json

open Pyroscope.Parser List
open Utf8 (IsText IsAscii isText_nil)

variable {text bytes tail rest : List UInt8} {first byte : UInt8} {depth : Nat} {found : Json}

theorem skip_cons (solid : isSpace first = false) :
    skip (first :: rest) = some ((), first :: rest) := by
  rw [skip, dropWhile_cons_of_neg (by simp [solid])]

theorem skip_space (space : isSpace first = true) : skip (first :: rest) = skip rest := by
  rw [skip, skip, dropWhile_cons_of_pos space]

theorem optional_self : optional byte (byte :: rest) = some (true, rest) := by
  rw [optional, if_pos rfl]

theorem optional_of_ne (different : first ≠ byte) :
    optional byte (first :: rest) = some (false, first :: rest) := by
  rw [optional, if_neg different]

theorem optional_of_head? (different : text.head? ≠ some byte) :
    optional byte text = some (false, text) := by
  cases text with
  | nil => rfl
  | cons first rest => exact optional_of_ne fun same => different (congrArg some same)

theorem expect_self : expect byte (byte :: rest) = some ((), rest) := by
  rw [expect, bind_eq _ rfl, if_pos rfl]
  rfl

/-- The text does not go on with a number. -/
def Delimits (text : List UInt8) : Prop :=
  ∀ byte, text.head? = some byte →
    isDigit byte = false ∧ byte ≠ 0x2E ∧ byte ≠ 0x65 ∧ byte ≠ 0x45

theorem Delimits.append (delimits : Delimits text) (nonempty : text ≠ []) :
    Delimits (text ++ rest) := by
  cases text with
  | nil => exact absurd rfl nonempty
  | cons first others => exact delimits

theorem delimits_nil : Delimits [] := by
  intro byte next
  cases next

/-- The decimal digits of a number, the last one first computed. -/
def decimalFrom : Nat → Nat → List UInt8
  | 0, _ => []
  | fuel + 1, value =>
    if value / 10 = 0 then [.ofNat (0x30 + value)]
    else decimalFrom fuel (value / 10) ++ [.ofNat (0x30 + value % 10)]

def decimal (value : Nat) : List UInt8 := decimalFrom (value + 1) value

/-- The digits of a number, without leading zeros. -/
structure Decimal (value : Nat) (text : List UInt8) : Prop where
  digits : ∀ byte ∈ text, isDigit byte = true
  value : ofDigits text = value
  nonempty : text ≠ []
  leading : text.head? = some 0x30 → text = [0x30]

theorem Decimal.isText {value : Nat} (decimal : Decimal value text) : IsText text := by
  apply IsAscii.isText
  intro byte inside
  have isDigit := decimal.digits byte inside
  simp only [Json.isDigit, Bool.and_eq_true, decide_eq_true_eq] at isDigit
  exact UInt8.lt_of_le_of_lt isDigit.2 (by decide)

theorem isDigit_ofNat {digit : Nat} (small : digit < 10) :
    isDigit (.ofNat (0x30 + digit)) = true ∧ (UInt8.ofNat (0x30 + digit)).toNat = 0x30 + digit := by
  have value : (UInt8.ofNat (0x30 + digit)).toNat = 0x30 + digit := by
    rw [UInt8.toNat_ofNat']
    omega
  refine ⟨?_, value⟩
  simp only [isDigit, Bool.and_eq_true, decide_eq_true_eq, UInt8.le_iff_toNat_le, value]
  have low : (0x30 : UInt8).toNat = 0x30 := rfl
  have high : (0x39 : UInt8).toNat = 0x39 := rfl
  omega

theorem decimalFrom_spec {fuel value : Nat} (enough : value < fuel) :
    Decimal value (decimalFrom fuel value) := by
  induction fuel generalizing value with
  | zero => omega
  | succ fuel ih =>
    rw [decimalFrom]
    split
    case isTrue small =>
      rcases isDigit_ofNat (show value < 10 by omega) with ⟨isDigit, byte⟩
      refine ⟨by simpa using isDigit, ?_, cons_ne_nil _ _, ?_⟩
      · simp only [ofDigits, foldl_cons, foldl_nil, byte]
        omega
      · intro zero
        exact congrArg (· :: []) (Option.some.inj zero)
    case isFalse large =>
      rcases isDigit_ofNat (Nat.mod_lt value (show 0 < 10 by omega)) with ⟨isDigit, byte⟩
      have others := @ih (value / 10) (by omega)
      refine ⟨?_, ?_, by simp, ?_⟩
      · intro found mem
        rcases mem_append.mp mem with mem | mem
        · exact others.digits found mem
        · rw [mem_singleton.mp mem]
          exact isDigit
      · have front := others.value
        simp only [ofDigits] at front
        simp only [ofDigits, foldl_append, front, foldl_cons, foldl_nil, byte]
        omega
      · intro zero
        rw [List.head?_append_of_ne_nil _ others.nonempty] at zero
        have front := others.value
        rw [others.leading zero] at front
        exact absurd front.symm large

theorem decimal_spec (value : Nat) : Decimal value (decimal value) :=
  decimalFrom_spec (Nat.lt_succ_self value)

theorem digits_append (isDigits : ∀ byte ∈ text, isDigit byte = true) (nonempty : text ≠ [])
    (delimits : Delimits rest) : digits (text ++ rest) = some (text, rest) := by
  have noMore : rest.takeWhile isDigit = [] ∧ rest.dropWhile isDigit = rest := by
    cases rest with
    | nil => exact ⟨rfl, rfl⟩
    | cons first others =>
      have solid := (delimits first rfl).1
      exact ⟨takeWhile_cons_of_neg (by simp [solid]), dropWhile_cons_of_neg (by simp [solid])⟩
  have taken : (text ++ rest).takeWhile isDigit = text := by
    rw [takeWhile_append_of_pos isDigits, noMore.1, append_nil]
  have left : (text ++ rest).dropWhile isDigit = rest := by
    rw [dropWhile_append_of_pos isDigits, noMore.2]
  rw [digits, taken, left, if_neg nonempty]

def Number.ofNat (value : Nat) : Number := ⟨false, value, [], none⟩

theorem numeral_decimal (value : Nat) (delimits : Delimits rest) :
    numeral (decimal value ++ rest) = some (.ofNat value, rest) := by
  have decimal := decimal_spec value
  have noSign : optional 0x2D (Json.decimal value ++ rest) =
      some (false, Json.decimal value ++ rest) := by
    apply optional_of_head?
    rw [List.head?_append_of_ne_nil _ decimal.nonempty]
    intro sign
    have wrong := decimal.digits _ (mem_of_head? sign)
    revert wrong
    decide
  have isWhole : whole (Json.decimal value ++ rest) = some (value, rest) := by
    rw [whole, bind_eq _ (digits_append decimal.digits decimal.nonempty delimits),
      if_neg fun wrong => wrong.2 (decimal.leading wrong.1), decimal.value]
    rfl
  have noFraction : fraction rest = some ([], rest) := by
    rw [fraction, bind_eq _ (optional_of_head? fun next => (delimits _ next).2.1 rfl)]
    rfl
  have noExponent : exponent rest = some (none, rest) := by
    rw [exponent, bind_eq _ (optional_of_head? fun next => (delimits _ next).2.2.1 rfl),
      if_neg Bool.false_ne_true,
      bind_eq _ (optional_of_head? fun next => (delimits _ next).2.2.2 rfl)]
    rfl
  rw [numeral, bind_eq _ noSign, bind_eq _ isWhole, bind_eq _ noFraction, bind_eq _ noExponent]
  rfl

/-- The text between the quotes stands for the bytes. -/
def Spells (text bytes : List UInt8) : Prop :=
  ∀ fuel rest, text.length < fuel → characters fuel (text ++ quote :: rest) = some (bytes, rest)

def Plain (byte : UInt8) : Prop := byte ≠ quote ∧ byte ≠ backslash ∧ ¬ byte < 0x20

instance (byte : UInt8) : Decidable (Plain byte) := inferInstanceAs (Decidable (_ ∧ _))

def PlainText (text : List UInt8) : Prop := ∀ byte ∈ text, Plain byte

instance (text : List UInt8) : Decidable (PlainText text) :=
  decidable_of_iff (text.all (decide <| Plain ·) = true) (by simp [PlainText])

theorem spells_nil : Spells [] [] := by
  intro fuel rest enough
  cases fuel with
  | zero => cases enough
  | succ fuel =>
    rw [characters, nil_append, bind_eq _ rfl, if_pos rfl]
    rfl

theorem Spells.plain (spells : Spells text bytes) (plain : Plain byte) :
    Spells (byte :: text) (byte :: bytes) := by
  intro fuel rest enough
  cases fuel with
  | zero => cases enough
  | succ fuel =>
    have others := spells fuel rest (Nat.lt_of_succ_lt_succ enough)
    rw [characters, cons_append, bind_eq _ rfl, if_neg plain.1, if_neg plain.2.1,
      if_neg plain.2.2, bind_eq _ others]
    rfl

theorem Spells.escape {escaped stands : List UInt8} (spells : Spells text bytes)
    (reads : Parser.Reads Json.escape escaped stands) :
    Spells (backslash :: (escaped ++ text)) (stands ++ bytes) := by
  intro fuel rest enough
  cases fuel with
  | zero => cases enough
  | succ fuel =>
    rw [length_cons, length_append] at enough
    have others := spells fuel rest (by omega)
    rw [characters, cons_append, append_assoc, bind_eq _ rfl,
      if_neg (by decide), if_pos rfl, reads.bind_append, bind_eq _ others]
    rfl

theorem spells_of_plain (plain : PlainText bytes) : Spells bytes bytes := by
  induction bytes with
  | nil => exact spells_nil
  | cons first rest ih =>
    rw [PlainText, forall_mem_cons] at plain
    exact (ih plain.2).plain plain.1

theorem Spells.behindQuote (spells : Spells text bytes) (rest : List UInt8) :
    stringBehindQuote (text ++ quote :: rest) = some (bytes, rest) := by
  apply spells
  rw [length_append, length_cons]
  omega

/-!
### Values and lists
-/

section Lists

variable {α : Type} {item : Nat → Parser UInt8 α} {close : UInt8} {value : α} {values : List α}
  {fuel : Nat}

/-- The text is read as the value wherever no byte of a number follows. -/
structure Denotes (item : Nat → Parser UInt8 α) (text : List UInt8) (value : α) : Prop where
  isText : IsText text
  reads : ∀ depth rest, text.length ≤ depth → Delimits rest →
    item depth (text ++ rest) = some (value, rest)

/-- The text goes on with these items of a list, and closes it. -/
structure GoesOn (item : Nat → Parser UInt8 α) (close : UInt8) (text : List UInt8)
    (values : List α) : Prop where
  isText : IsText text
  delimits : Delimits text
  nonempty : text ≠ []
  reads : ∀ depth fuel, text.length ≤ depth → text.length ≤ fuel →
    Parser.Reads (moreItems (item depth) close fuel) text values

/-- Something solid comes first, and it does not close the list. -/
def Opens (close : UInt8) (text : List UInt8) : Prop :=
  ∃ first rest, text = first :: rest ∧ isSpace first = false ∧ first ≠ close

def Closing (close : UInt8) : Prop := close = closeBracket ∨ close = closeBrace

theorem isText_close (closing : Closing close) : IsText [close] := by
  apply Utf8.isText_byte
  rcases closing with rfl | rfl <;> decide

theorem solid_close (closing : Closing close) : isSpace close = false := by
  rcases closing with rfl | rfl <;> rfl

theorem goesOn_close (closing : Closing close) : GoesOn item close [close] [] := by
  have delimits : Delimits [close] := by
    rcases closing with rfl | rfl <;> exact fun _ next => Option.some.inj next ▸ (by decide)
  refine ⟨isText_close closing, delimits, cons_ne_nil _ _, ?_⟩
  intro depth fuel _ enough rest
  cases fuel with
  | zero => cases enough
  | succ fuel =>
    rw [moreItems, singleton_append, bind_eq _ (skip_cons (solid_close closing)),
      bind_eq _ optional_self]
    rfl

theorem moreItems_comma {item : Parser UInt8 α} (closing : Closing close) :
    moreItems item close (fuel + 1) (comma :: rest) = (item >>= fun first =>
      moreItems item close fuel >>= fun rest => pure (first :: rest)) rest := by
  have different : comma ≠ close := by
    rcases closing with rfl | rfl <;> decide
  rw [moreItems, bind_eq _ (skip_cons (by decide)),
    bind_eq _ (optional_of_ne different), if_neg Bool.false_ne_true,
    bind_eq _ expect_self]

theorem moreItems_eq_none {item : Parser UInt8 α} (opens : Opens close text)
    (noComma : text.head? ≠ some comma) : moreItems item close fuel text = none := by
  rcases opens with ⟨first, behind, rfl, solid, different⟩
  cases fuel with
  | zero => rfl
  | succ fuel =>
    have refused : expect comma (first :: behind) = none := by
      rw [expect, bind_eq _ rfl, if_neg fun same => noComma (congrArg some same)]
      rfl
    rw [moreItems, bind_eq _ (skip_cons solid),
      bind_eq _ (optional_of_ne different), if_neg Bool.false_ne_true]
    exact bind_eq_none _ refused

theorem GoesOn.comma (goesOn : GoesOn item close tail values) (denotes : Denotes item text value)
    (closing : Closing close) : GoesOn item close (comma :: (text ++ tail)) (value :: values) := by
  refine ⟨(denotes.isText.append goesOn.isText).cons (by decide),
    fun _ next => Option.some.inj next ▸ (by decide), cons_ne_nil _ _, ?_⟩
  intro depth fuel deep enough rest
  rw [length_cons, length_append] at deep enough
  cases fuel with
  | zero => cases enough
  | succ fuel =>
    have here := denotes.reads depth (tail ++ rest) (by omega)
      (goesOn.delimits.append goesOn.nonempty)
    have others := goesOn.reads depth fuel (by omega) (by omega) rest
    rw [cons_append, append_assoc, moreItems_comma closing, bind_eq _ here, bind_eq _ others]
    rfl

theorem space_cases (space : isSpace first = true) :
    first = 0x20 ∨ first = 0x09 ∨ first = 0x0A ∨ first = 0x0D := by
  simpa only [isSpace, Bool.or_eq_true, beq_iff_eq, or_assoc] using space

theorem delimits_space (space : isSpace first = true) : Delimits (first :: rest) := by
  intro byte next
  cases next
  rcases space_cases space with rfl | rfl | rfl | rfl <;> decide

theorem small_of_space (space : isSpace first = true) : first < 0x80 := by
  rcases space_cases space with rfl | rfl | rfl | rfl <;> decide

theorem moreItems_space {item : Parser UInt8 α} (space : isSpace first = true) :
    moreItems item close fuel (first :: rest) = moreItems item close fuel rest := by
  cases fuel with
  | zero => rfl
  | succ fuel =>
    rw [moreItems]
    exact bind_congr _ (skip_space space)

theorem GoesOn.space (goesOn : GoesOn item close text values) (space : isSpace first = true) :
    GoesOn item close (first :: text) values := by
  refine ⟨goesOn.isText.cons (small_of_space space), delimits_space space, cons_ne_nil _ _, ?_⟩
  intro depth fuel deep enough rest
  rw [length_cons] at deep enough
  rw [cons_append, moreItems_space space]
  exact goesOn.reads depth fuel (by omega) (by omega) rest

theorem items_of_opens {item : Parser UInt8 α} (opens : Opens close text) :
    items item close text = (item >>= fun first =>
      (fun input => moreItems item close input.length input) >>= fun rest =>
        pure (first :: rest)) text := by
  rcases opens with ⟨first, behind, rfl, solid, different⟩
  rw [items, bind_eq _ (skip_cons solid), bind_eq _ (optional_of_ne different)]
  rfl

theorem Opens.append (opens : Opens close text) : Opens close (text ++ rest) := by
  rcases opens with ⟨first, behind, rfl, solid⟩
  exact ⟨first, behind ++ rest, rfl, solid⟩

/-- The text has these items of a list, and closes it. -/
structure Lists (item : Nat → Parser UInt8 α) (close : UInt8) (text : List UInt8)
    (values : List α) : Prop where
  isText : IsText text
  reads : ∀ depth rest, text.length ≤ depth →
    items (item depth) close (text ++ rest) = some (values, rest)

theorem lists_close (closing : Closing close) : Lists item close [close] [] := by
  refine ⟨isText_close closing, ?_⟩
  intro depth rest _
  rw [items, singleton_append, bind_eq _ (skip_cons (solid_close closing)), bind_eq _ optional_self]
  rfl

theorem lists_cons (denotes : Denotes item text value) (goesOn : GoesOn item close tail values)
    (opens : Opens close text) : Lists item close (text ++ tail) (value :: values) := by
  refine ⟨denotes.isText.append goesOn.isText, ?_⟩
  intro depth rest deep
  rw [length_append] at deep
  have here := denotes.reads depth (tail ++ rest) (by omega)
    (goesOn.delimits.append goesOn.nonempty)
  have others := goesOn.reads depth (tail ++ rest).length (by omega)
    (by rw [length_append]; omega) rest
  rw [append_assoc, items_of_opens opens.append, bind_eq _ here]
  change (moreItems (item depth) close (tail ++ rest).length (tail ++ rest)).bind _ = _
  rw [others]
  rfl

theorem items_space {item : Parser UInt8 α} (space : isSpace first = true) :
    items item close (first :: rest) = items item close rest :=
  bind_congr _ (skip_space space)

theorem Lists.space (lists : Lists item close text values) (space : isSpace first = true) :
    Lists item close (first :: text) values := by
  refine ⟨lists.isText.cons (small_of_space space), ?_⟩
  intro depth rest deep
  rw [length_cons] at deep
  rw [cons_append, items_space space]
  exact lists.reads depth rest (by omega)

end Lists

/-!
### Values by their first byte
-/

theorem value_space (space : isSpace first = true) :
    value depth (first :: rest) = value depth rest := by
  cases depth with
  | zero => rfl
  | succ depth =>
    rw [value]
    exact bind_congr _ (skip_space space)

theorem value_quote :
    value (depth + 1) (quote :: rest) =
      (stringBehindQuote >>= fun bytes => pure (.string bytes)) rest := by
  rw [value, bind_eq _ (skip_cons (by decide)), bind_eq _ optional_self]
  rfl

theorem value_openBracket :
    value (depth + 1) (openBracket :: rest) =
      (items (value depth) closeBracket >>= fun found => pure (.array found)) rest := by
  rw [value, bind_eq _ (skip_cons (by decide)),
    bind_eq _ (optional_of_ne (by decide)), if_neg Bool.false_ne_true,
    bind_eq _ optional_self]
  rfl

theorem value_openBrace :
    value (depth + 1) (openBrace :: rest) =
      (items (member (value depth)) closeBrace >>= fun found => pure (.object found)) rest := by
  rw [value, bind_eq _ (skip_cons (by decide)),
    bind_eq _ (optional_of_ne (by decide)), if_neg Bool.false_ne_true,
    bind_eq _ (optional_of_ne (by decide)), if_neg Bool.false_ne_true,
    bind_eq _ optional_self]
  rfl

theorem Denotes.space (denotes : Denotes value text found) (space : isSpace first = true) :
    Denotes value (first :: text) found := by
  refine ⟨denotes.isText.cons (small_of_space space), ?_⟩
  intro depth rest deep delimits
  rw [length_cons] at deep
  rw [cons_append, value_space space]
  exact denotes.reads depth rest (by omega) delimits

theorem denotes_string (spells : Spells text bytes) (isText : IsText text) :
    Denotes value (quote :: (text ++ [quote])) (.string bytes) := by
  refine ⟨(isText.append (Utf8.isText_byte (by decide))).cons (by decide), ?_⟩
  intro depth rest deep _
  cases depth with
  | zero => cases deep
  | succ depth =>
    rw [cons_append, append_assoc, singleton_append, value_quote,
      bind_eq _ (spells.behindQuote rest)]
    rfl

theorem denotes_array {values : List Json} (lists : Lists value closeBracket text values) :
    Denotes value (openBracket :: text) (.array values) := by
  refine ⟨lists.isText.cons (by decide), ?_⟩
  intro depth rest deep _
  cases depth with
  | zero => cases deep
  | succ depth =>
    have found := lists.reads depth rest (Nat.le_of_succ_le_succ deep)
    rw [cons_append, value_openBracket, bind_eq _ found]
    rfl

theorem denotes_object {members : List (List UInt8 × Json)}
    (lists : Lists (fun depth => member (value depth)) closeBrace text members) :
    Denotes value (openBrace :: text) (.object members) := by
  refine ⟨lists.isText.cons (by decide), ?_⟩
  intro depth rest deep _
  cases depth with
  | zero => cases deep
  | succ depth =>
    have found := lists.reads depth rest (Nat.le_of_succ_le_succ deep)
    rw [cons_append, value_openBrace, bind_eq _ found]
    rfl

theorem denotes_member {key : List UInt8} (spells : Spells text key) (isText : IsText text)
    (denotes : Denotes value tail found) :
    Denotes (fun depth => member (value depth)) (quote :: (text ++ quote :: colon :: tail))
      (key, found) := by
  refine ⟨(isText.append ((denotes.isText.cons (by decide)).cons (by decide))).cons (by decide), ?_⟩
  intro depth rest deep delimits
  simp only [length_cons, length_append] at deep
  have here := denotes.reads depth rest (by omega) delimits
  change member (value depth) _ = _
  rw [member, cons_append, append_assoc, cons_append, cons_append,
    bind_eq _ (skip_cons (by decide)), bind_eq _ expect_self,
    bind_eq _ (spells.behindQuote _), bind_eq _ (skip_cons (by decide)),
    bind_eq _ expect_self, bind_eq _ here]
  rfl

theorem denotes_number (number : Nat) :
    Denotes value (decimal number) (.number (.ofNat number)) := by
  have decimal := decimal_spec number
  refine ⟨decimal.isText, ?_⟩
  intro depth rest deep delimits
  have found := numeral_decimal number delimits
  cases shape : Json.decimal number with
  | nil => exact absurd shape decimal.nonempty
  | cons first behind =>
    rw [shape] at deep found
    have isDigit := decimal.digits first (shape ▸ mem_cons_self)
    have other : ∀ byte, Json.isDigit byte = false → first ≠ byte := by
      rintro byte noDigit rfl
      exact Bool.false_ne_true (noDigit.symm.trans isDigit)
    have solid : isSpace first = false := by
      simp only [isSpace, Bool.or_eq_false_iff, beq_eq_false_iff_ne]
      exact ⟨⟨⟨other _ rfl, other _ rfl⟩, other _ rfl⟩, other _ rfl⟩
    cases depth with
    | zero => cases deep
    | succ depth =>
      rw [cons_append] at found ⊢
      rw [value, bind_eq _ (skip_cons solid),
        bind_eq _ (optional_of_ne (other _ rfl)), if_neg Bool.false_ne_true,
        bind_eq _ (optional_of_ne (other _ rfl)), if_neg Bool.false_ne_true,
        bind_eq _ (optional_of_ne (other _ rfl)), if_neg Bool.false_ne_true,
        bind_eq _ (optional_of_ne (other _ rfl)), if_neg Bool.false_ne_true,
        bind_eq _ (optional_of_ne (other _ rfl)), if_neg Bool.false_ne_true,
        bind_eq _ (optional_of_ne (other _ rfl)), if_neg Bool.false_ne_true,
        bind_eq _ found]
      rfl

theorem read_append (denotes : Denotes value text found)
    (space : ∀ byte ∈ tail, isSpace byte = true) : read (text ++ tail) = some found := by
  have ascii : IsAscii tail := fun byte inside => small_of_space (space byte inside)
  have delimits : Delimits tail := by
    cases tail with
    | nil => exact delimits_nil
    | cons first rest => exact delimits_space (space first mem_cons_self)
  have here := denotes.reads (text ++ tail).length tail (by simp) delimits
  have nothing : skip tail = some ((), []) := by
    rw [skip, dropWhile_eq_nil_iff.mpr space]
  rw [read, if_pos (denotes.isText.append ascii.isText), parse, Json.text, bind_eq _ here,
    bind_eq _ nothing]
  rfl

theorem read_of_denotes (denotes : Denotes value text found) : read text = some found := by
  have whole := @read_append text [] found denotes (fun _ mem => absurd mem not_mem_nil)
  rwa [append_nil] at whole

end Pyroscope.Json
