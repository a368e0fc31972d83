import Pyroscope.Lib.Parsing
import Pyroscope.Lib.Utf8

/-!
# Reading JSON

A reader for texts which are given as bytes in UTF-8. Members of an object stay in their order, and
a key may come twice.
-/

namespace Pyroscope

namespace Json

/-- A number as it is written: `fraction` has its digits, `exponent` is absent without an `e`. -/
structure Number where
  negative : Bool
  whole : Nat
  fraction : List UInt8
  exponent : Option Int
deriving DecidableEq

end Json

inductive Json where
  | null
  | boolean (value : Bool)
  | number (value : Json.Number)
  | string (bytes : List UInt8)
  | array (items : List Json)
  | object (members : List (List UInt8 × Json))

namespace Json

def ascii (characters : List Char) : List UInt8 :=
  characters.map fun character => .ofNat character.toNat

def quote : UInt8 := 0x22

def backslash : UInt8 := 0x5C

def comma : UInt8 := 0x2C

def colon : UInt8 := 0x3A

def openBracket : UInt8 := 0x5B

def closeBracket : UInt8 := 0x5D

def openBrace : UInt8 := 0x7B

def closeBrace : UInt8 := 0x7D

def isSpace (byte : UInt8) : Bool :=
  byte == 0x20 || byte == 0x09 || byte == 0x0A || byte == 0x0D

def isDigit (byte : UInt8) : Bool := 0x30 ≤ byte && byte ≤ 0x39

def skip : Parser UInt8 Unit := fun input => some ((), input.dropWhile isSpace)

def expect (byte : UInt8) : Parser UInt8 Unit := do
  let found ← Parser.token
  if found = byte then pure () else Parser.refuse

def optional (byte : UInt8) : Parser UInt8 Bool
  | [] => some (false, [])
  | first :: rest => if first = byte then some (true, rest) else some (false, first :: rest)

/-!
### Numbers
-/

def digits : Parser UInt8 (List UInt8) := fun input =>
  if input.takeWhile isDigit = [] then none
  else some (input.takeWhile isDigit, input.dropWhile isDigit)

def ofDigits (digits : List UInt8) : Nat :=
  digits.foldl (fun value digit => 10 * value + (digit.toNat - 0x30)) 0

def whole : Parser UInt8 Nat := do
  let found ← digits
  if found.head? = some 0x30 ∧ found ≠ [0x30] then Parser.refuse else pure (ofDigits found)

def fraction : Parser UInt8 (List UInt8) := do
  if ← optional 0x2E then digits else pure []

def signed : Parser UInt8 Int := do
  if ← optional 0x2D then
    let found ← digits
    pure (-ofDigits found)
  else
    let _ ← optional 0x2B
    let found ← digits
    pure (ofDigits found)

def exponent : Parser UInt8 (Option Int) := do
  if ← optional 0x65 then
    let value ← signed
    pure (some value)
  else if ← optional 0x45 then
    let value ← signed
    pure (some value)
  else pure none

def numeral : Parser UInt8 Number := do
  let negative ← optional 0x2D
  let whole ← whole
  let fraction ← fraction
  let exponent ← exponent
  pure ⟨negative, whole, fraction, exponent⟩

/-!
### Strings
-/

def hexDigit (byte : UInt8) : Option Nat :=
  if isDigit byte then some (byte.toNat - 0x30)
  else if 0x41 ≤ byte ∧ byte ≤ 0x46 then some (byte.toNat - 0x37)
  else if 0x61 ≤ byte ∧ byte ≤ 0x66 then some (byte.toNat - 0x57)
  else none

def hexDigits : Nat → Nat → Parser UInt8 Nat
  | 0, value => pure value
  | count + 1, value => do
    let byte ← Parser.token
    match hexDigit byte with
    | some digit => hexDigits count (16 * value + digit)
    | none => Parser.refuse

def utf8 (code : Nat) : List UInt8 :=
  if code < 0x80 then [.ofNat code]
  else if code < 0x800 then [.ofNat (0xC0 + code / 0x40), .ofNat (0x80 + code % 0x40)]
  else if code < 0x10000 then
    [.ofNat (0xE0 + code / 0x1000), .ofNat (0x80 + code / 0x40 % 0x40), .ofNat (0x80 + code % 0x40)]
  else
    [.ofNat (0xF0 + code / 0x40000), .ofNat (0x80 + code / 0x1000 % 0x40),
      .ofNat (0x80 + code / 0x40 % 0x40), .ofNat (0x80 + code % 0x40)]

/-- The code point behind `\u`. One above 0xFFFF is written as two surrogates. -/
def codePoint : Parser UInt8 (List UInt8) := do
  let unit ← hexDigits 4 0
  if 0xD800 ≤ unit ∧ unit < 0xDC00 then
    expect backslash
    expect 0x75
    let low ← hexDigits 4 0
    if 0xDC00 ≤ low ∧ low < 0xE000 then
      pure (utf8 (0x10000 + 0x400 * (unit - 0xD800) + (low - 0xDC00)))
    else Parser.refuse
  else if 0xDC00 ≤ unit ∧ unit < 0xE000 then Parser.refuse
  else pure (utf8 unit)

def escapedByte (letter : UInt8) : Option UInt8 :=
  if letter = quote ∨ letter = backslash ∨ letter = 0x2F then some letter
  else if letter = 0x62 then some 0x08
  else if letter = 0x66 then some 0x0C
  else if letter = 0x6E then some 0x0A
  else if letter = 0x72 then some 0x0D
  else if letter = 0x74 then some 0x09
  else none

def escape : Parser UInt8 (List UInt8) := do
  let letter ← Parser.token
  match escapedByte letter with
  | some byte => pure [byte]
  | none => if letter = 0x75 then codePoint else Parser.refuse

def characters : Nat → Parser UInt8 (List UInt8)
  | 0 => Parser.refuse
  | fuel + 1 => do
    let byte ← Parser.token
    if byte = quote then pure []
    else if byte = backslash then
      let bytes ← escape
      let rest ← characters fuel
      pure (bytes ++ rest)
    else if byte < 0x20 then Parser.refuse
    else
      let rest ← characters fuel
      pure (byte :: rest)

def stringBehindQuote : Parser UInt8 (List UInt8) := fun input => characters input.length input

/-!
### Values
-/

section Lists

variable {α : Type} (item : Parser UInt8 α) (close : UInt8)

def moreItems : Nat → Parser UInt8 (List α)
  | 0 => Parser.refuse
  | fuel + 1 => do
    skip
    if ← optional close then pure []
    else
      expect comma
      let first ← item
      let rest ← moreItems fuel
      pure (first :: rest)

def items : Parser UInt8 (List α) := do
  skip
  if ← optional close then pure []
  else
    let first ← item
    let rest ← fun input => moreItems item close input.length input
    pure (first :: rest)

end Lists

def member (value : Parser UInt8 Json) : Parser UInt8 (List UInt8 × Json) := do
  skip
  expect quote
  let key ← stringBehindQuote
  skip
  expect colon
  let found ← value
  pure (key, found)

def literal (text : List UInt8) (value : Json) : Parser UInt8 Json := do
  let found ← Parser.take text.length
  if found = text then pure value else Parser.refuse

def value : Nat → Parser UInt8 Json
  | 0 => Parser.refuse
  | depth + 1 => do
    skip
    if ← optional quote then
      let bytes ← stringBehindQuote
      pure (.string bytes)
    else if ← optional openBracket then
      let found ← items (value depth) closeBracket
      pure (.array found)
    else if ← optional openBrace then
      let found ← items (member (value depth)) closeBrace
      pure (.object found)
    else if ← optional 0x74 then literal (ascii ['r', 'u', 'e']) (.boolean true)
    else if ← optional 0x66 then literal (ascii ['a', 'l', 's', 'e']) (.boolean false)
    else if ← optional 0x6E then literal (ascii ['u', 'l', 'l']) .null
    else
      let found ← numeral
      pure (.number found)

def text (depth : Nat) : Parser UInt8 Json := do
  let found ← value depth
  skip
  pure found

/-- The value of bytes which are used up by it. None is nested deeper than the bytes are many. -/
def parse (bytes : List UInt8) : Option Json :=
  match text bytes.length bytes with
  | some (found, []) => some found
  | _ => none

/-- Reads a text to its last byte. Bytes which are not in UTF-8 are no text. -/
def read (bytes : List UInt8) : Option Json :=
  if Utf8.IsText bytes then parse bytes else none

end Json

end Pyroscope
