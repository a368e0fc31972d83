import Pyroscope.HeapSnapshot.BinaryRoundTrip
import Pyroscope.Lib.JsonTexts

/-!
# The JSON form of a type reference tree

The document holds the same snapshot as the binary file, since both serializers meet the types in
the same order.
-/

namespace Pyroscope.HeapSnapshot

namespace RootCategory

def code : RootCategory → List UInt8
  | stack => Json.ascii ['K']
  | staticVariable => Json.ascii ['S']
  | finalizer => Json.ascii ['F']
  | handle => Json.ascii ['H']
  | pinning => Json.ascii ['P']
  | conditionalWeakTable => Json.ascii ['W']
  | com => Json.ascii ['R']
  | other => Json.ascii ['O']
  | unknown => Json.ascii ['?']

def ofCode (bytes : List UInt8) : Option RootCategory :=
  [stack, staticVariable, finalizer, handle, pinning, conditionalWeakTable, com, other,
    unknown].find? fun category => category.code = bytes

theorem ofCode_code (category : RootCategory) : ofCode category.code = some category := by
  cases category <;> rfl

end RootCategory

/-- The names which are known are texts in UTF-8. -/
def TypeNames.AreTexts (names : TypeNames) : Prop :=
  ∀ typeID name, names typeID = some name → Utf8.IsText name

namespace JsonSerializer

open Json (ascii quote backslash comma colon openBracket closeBracket openBrace closeBrace)

def hexCharacter (digit : Nat) : UInt8 := .ofNat (if digit < 10 then 0x30 + digit else 0x57 + digit)

/-- A number as `%04x` prints it, if it has no more than four digits. -/
def format04x (value : Nat) : List UInt8 :=
  [hexCharacter (value / 0x1000 % 0x10), hexCharacter (value / 0x100 % 0x10),
    hexCharacter (value / 0x10 % 0x10), hexCharacter (value % 0x10)]

def needsEscape (byte : UInt8) : Bool := byte == quote || byte == backslash || byte < 0x20

/-- The slow path of `AppendEscapedJson`, for one character. -/
def escapeByte (byte : UInt8) : List UInt8 :=
  if byte = quote then [backslash, quote]
  else if byte = backslash then [backslash, backslash]
  else if byte = 0x08 then backslash :: ascii ['b']
  else if byte = 0x0C then backslash :: ascii ['f']
  else if byte = 0x0A then backslash :: ascii ['n']
  else if byte = 0x0D then backslash :: ascii ['r']
  else if byte = 0x09 then backslash :: ascii ['t']
  else if byte < 0x20 then backslash :: (ascii ['u'] ++ format04x byte.toNat)
  else [byte]

def appendEscapedJson (string : List UInt8) : List UInt8 :=
  if string.any needsEscape then string.flatMap escapeByte else string

def appendUInt (value : Nat) : List UInt8 := Json.decimal value

def key (name : List Char) : List UInt8 := quote :: (ascii name ++ [quote, colon])

variable (names : TypeNames)

def outputName (typeID : Nat) : List UInt8 :=
  match names typeID with
  | some name => quote :: (appendEscapedJson name ++ [quote])
  | none => quote :: (ascii ['?'] ++ [quote])

def entry (count typeID : Nat) : List UInt8 :=
  (if count > 0 then [comma] else []) ++ outputName names typeID

def registerType (types : TypeTable) (typeID : Nat) : Nat × TypeTable :=
  types.registerType (entry names) typeID

def outputCounter (name : List Char) (value : UInt64) : List UInt8 :=
  if value > 0 then comma :: (key name ++ appendUInt value.toNat) else []

def outputChildren (children : List TypeTreeNode) (text : List UInt8) : List UInt8 :=
  if children.isEmpty then []
  else comma :: (key ['c', 'h'] ++ openBracket :: (text ++ [closeBracket]))

mutual

def outputNode : TypeTreeNode → TypeTable → List UInt8 × TypeTable
  | .mk typeID instanceCount totalSize children, types =>
    let (typeIndex, types) := registerType names types typeID
    let (body, types) := outputNodes true children types
    (openBrace :: (key ['t'] ++ (appendUInt typeIndex ++
      (outputCounter ['i', 'c'] instanceCount ++ (outputCounter ['t', 's'] totalSize ++
        (outputChildren children body ++ [closeBrace]))))), types)

def outputNodes (firstChild : Bool) : List TypeTreeNode → TypeTable → List UInt8 × TypeTable
  | [], types => ([], types)
  | child :: rest, types =>
    let (first, types) := outputNode child types
    let (body, types) := outputNodes false rest types
    ((if firstChild then [] else [comma]) ++ (first ++ body), types)

end

def outputRoot (root : TypeRootNode) (types : TypeTable) : List UInt8 × TypeTable :=
  let (typeIndex, types) := registerType names types root.key.typeID
  let (body, types) := outputNodes names true root.node.children types
  let fieldName :=
    if root.fieldName.isEmpty then []
    else comma :: (key ['f', 'n'] ++ quote :: (appendEscapedJson root.fieldName ++ [quote]))
  (openBrace :: (key ['t'] ++ (appendUInt typeIndex ++
    (comma :: (key ['c'] ++ quote :: (root.category.code ++ [quote])) ++
      (comma :: (key ['i', 'c'] ++ appendUInt root.node.instanceCount.toNat) ++
        (comma :: (key ['t', 's'] ++ appendUInt root.node.totalSize.toNat) ++
          (fieldName ++ (outputChildren root.node.children body ++ [closeBrace]))))))), types)

def outputRoots (firstRoot : Bool) : List TypeRootNode → TypeTable → List UInt8 × TypeTable
  | [], types => ([], types)
  | root :: rest, types =>
    let (first, types) := outputRoot names root types
    let (body, types) := outputRoots false rest types
    ((if firstRoot then [] else [comma]) ++ (first ++ body), types)

/-- `Serialize`; without a frame store the document is empty. -/
def serialize : Option TypeNames → TypeReferenceTree → List UInt8
  | none, _ => [openBrace, closeBrace]
  | some names, tree =>
    let (body, types) := outputRoots names true tree.roots .empty
    let table :=
      if types.count > 0 then
        comma :: (key ['t', 't'] ++ openBracket :: (types.text ++ [closeBracket]))
      else []
    openBrace :: (key ['v'] ++ (appendUInt 1 ++ (table ++
      (comma :: (key ['r'] ++ openBracket :: (body ++ [closeBracket])) ++ [closeBrace]))))

end JsonSerializer

namespace JsonFormat

open Json (ascii)

def natural : Json → Option Nat
  | .number ⟨false, whole, [], none⟩ => some whole
  | _ => none

def bytes : Json → Option (List UInt8)
  | .string bytes => some bytes
  | _ => none

def items : Json → Option (List Json)
  | .array items => some items
  | _ => none

def field (members : List (List UInt8 × Json)) (name : List Char) : Option Json :=
  (members.find? fun member => member.1 = ascii name).map (·.2)

def fieldOr {α : Type} (members : List (List UInt8 × Json)) (name : List Char) (default : α)
    (content : Json → Option α) : Option α :=
  match field members name with
  | some found => content found
  | none => some default

def counter (json : Json) : Option UInt64 := do
  let value ← natural json
  if value < 2 ^ 64 then some (.ofNat value) else none

def node : Nat → Json → Option TypeTreeNode
  | depth + 1, .object members => do
    let typeIndex ← field members ['t'] >>= natural
    let instanceCount ← fieldOr members ['i', 'c'] 0 counter
    let totalSize ← fieldOr members ['t', 's'] 0 counter
    let children ← fieldOr members ['c', 'h'] [] fun found =>
      items found >>= fun found => found.mapM (node depth)
    some (.mk typeIndex instanceCount totalSize children)
  | _, _ => none

def root (depth : Nat) : Json → Option TypeRootNode
  | .object members => do
    let typeIndex ← field members ['t'] >>= natural
    let category ← field members ['c'] >>= bytes >>= RootCategory.ofCode
    let instanceCount ← fieldOr members ['i', 'c'] 0 counter
    let totalSize ← fieldOr members ['t', 's'] 0 counter
    let fieldName ← fieldOr members ['f', 'n'] [] bytes
    let children ← fieldOr members ['c', 'h'] [] fun found =>
      items found >>= fun found => found.mapM (node depth)
    some ⟨.mk typeIndex instanceCount totalSize children, category, fieldName⟩
  | _ => none

def document (depth : Nat) : Json → Option Snapshot
  | .object members => do
    let version ← field members ['v'] >>= natural
    if version = 1 then
      let typeNames ← fieldOr members ['t', 't'] [] fun found =>
        items found >>= fun found => found.mapM bytes
      let roots ← field members ['r'] >>= items >>= fun found => found.mapM (root depth)
      some ⟨typeNames, roots⟩
    else none
  | _ => none

end JsonFormat

/-! ## Reading the JSON form back -/

open Json JsonFormat TypeTreeNode TypeTable BinarySerializer List

namespace JsonSerializer

open Json (ascii quote backslash comma colon openBracket closeBracket openBrace closeBrace
  Spells Denotes GoesOn Lists)

open Utf8 (IsText IsAscii)

variable {names : TypeNames} {all table : List Nat} {types : TypeTable}
  {text tail : List UInt8} {byte : UInt8}

theorem reads_escape_letter {letter : UInt8} (stands : escapedByte letter = some byte) :
    Parser.Reads escape [letter] [byte] := by
  intro rest
  rw [escape, singleton_append, Parser.bind_eq _ rfl, stands]
  rfl

theorem hexDigit_hexCharacter {digit : Nat} (small : digit < 16) :
    hexDigit (hexCharacter digit) = some digit := by
  have every : ∀ digit : Fin 16, hexDigit (hexCharacter digit) = some digit.val := by decide
  exact every ⟨digit, small⟩

theorem hexDigits_cons {count value digit : Nat} {rest : List UInt8} (small : digit < 16) :
    hexDigits (count + 1) value (hexCharacter digit :: rest) =
      hexDigits count (16 * value + digit) rest := by
  rw [hexDigits, Parser.bind_eq _ rfl, hexDigit_hexCharacter small]

theorem hexDigits_format04x {value : Nat} (small : value < 0x10000) (rest : List UInt8) :
    hexDigits 4 0 (format04x value ++ rest) = some (value, rest) := by
  simp only [format04x, cons_append, nil_append]
  rw [hexDigits_cons (Nat.mod_lt _ (by decide)), hexDigits_cons (Nat.mod_lt _ (by decide)),
    hexDigits_cons (Nat.mod_lt _ (by decide)), hexDigits_cons (Nat.mod_lt _ (by decide))]
  have digits : 16 * (16 * (16 * (16 * 0 + value / 0x1000 % 0x10) + value / 0x100 % 0x10) +
      value / 0x10 % 0x10) + value % 0x10 = value := by
    omega
  rw [digits]
  rfl

theorem reads_escape_control (control : byte < 0x20) :
    Parser.Reads escape (ascii ['u'] ++ format04x byte.toNat) [byte] := by
  have small : byte.toNat < 0x20 := control
  intro rest
  change codePoint (format04x byte.toNat ++ rest) = _
  rw [codePoint, Parser.bind_eq _ (hexDigits_format04x (by omega) rest),
    if_neg (by omega), if_neg (by omega), utf8, if_pos (by omega), UInt8.ofNat_toNat]
  rfl

theorem spells_escapeByte {bytes : List UInt8} (spells : Spells text bytes) :
    Spells (escapeByte byte ++ text) (byte :: bytes) := by
  have letter {letter stands : UInt8} (known : escapedByte letter = some stands)
      (same : byte = stands) : Spells ([backslash, letter] ++ text) (byte :: bytes) := by
    rw [same]
    exact spells.escape (reads_escape_letter known)
  simp only [escapeByte]
  split
  case isTrue same => exact letter rfl same
  case isFalse noQuote =>
  split
  case isTrue same => exact letter rfl same
  case isFalse noBackslash =>
  split
  case isTrue same => exact letter rfl same
  split
  case isTrue same => exact letter rfl same
  split
  case isTrue same => exact letter rfl same
  split
  case isTrue same => exact letter rfl same
  split
  case isTrue same => exact letter rfl same
  split
  case isTrue control => exact spells.escape (reads_escape_control control)
  case isFalse printable => exact spells.plain ⟨noQuote, noBackslash, printable⟩

theorem spells_flatMap_escapeByte (string : List UInt8) :
    Spells (string.flatMap escapeByte) string := by
  induction string with
  | nil => exact spells_nil
  | cons first rest ih => exact spells_escapeByte ih

theorem plain_of_needsEscape (unescaped : needsEscape byte = false) : Json.Plain byte := by
  simp only [needsEscape, Bool.or_eq_false_iff, beq_eq_false_iff_ne, decide_eq_false_iff_not,
    and_assoc] at unescaped
  exact unescaped

theorem spells_appendEscapedJson (string : List UInt8) :
    Spells (appendEscapedJson string) string := by
  simp only [appendEscapedJson]
  split
  case isTrue => exact spells_flatMap_escapeByte string
  case isFalse unescaped =>
    apply spells_of_plain
    intro byte mem
    apply plain_of_needsEscape
    simp only [any_eq_true, not_exists, not_and, Bool.not_eq_true] at unescaped
    exact unescaped byte mem

theorem isAscii_escapeByte (small : byte < 0x80) : IsAscii (escapeByte byte) := by
  have every : ∀ code : Fin 128, IsAscii (escapeByte (.ofNat code)) := by decide
  have escaped := every ⟨byte.toNat, small⟩
  rwa [UInt8.ofNat_toNat] at escaped

theorem escapeByte_of_le (large : 0x80 ≤ byte) : escapeByte byte = [byte] := by
  have other (code : UInt8) (small : code < 0x80) : byte ≠ code :=
    (UInt8.ne_of_lt (UInt8.lt_of_lt_of_le small large)).symm
  have printable : ¬ byte < 0x20 :=
    UInt8.not_lt.mpr (UInt8.le_trans (by decide) large)
  rw [escapeByte, if_neg (other _ (by decide)), if_neg (other _ (by decide)),
    if_neg (other _ (by decide)), if_neg (other _ (by decide)), if_neg (other _ (by decide)),
    if_neg (other _ (by decide)), if_neg (other _ (by decide)), if_neg printable]

/-- A character is escaped as a whole, since no byte of a longer one is escaped. -/
theorem isText_escapeCharacter (character : Char) :
    IsText ((String.utf8EncodeChar character).flatMap escapeByte) := by
  rcases Utf8.utf8EncodeChar_cases character with ⟨byte, small, isByte⟩ | large
  · rw [isByte, flatMap_singleton]
    exact (isAscii_escapeByte small).isText
  · rw [flatMap_congr fun byte inside => escapeByte_of_le (large byte inside), flatMap_singleton']
    exact Utf8.isText_char character

theorem isText_appendEscapedJson {string : List UInt8} (isText : IsText string) :
    IsText (appendEscapedJson string) := by
  rw [appendEscapedJson]
  split
  case isFalse => exact isText
  case isTrue some =>
    clear some
    rcases isText with ⟨characters, rfl⟩
    induction characters with
    | nil => exact Utf8.isText_nil
    | cons character rest ih =>
      rw [flatMap_cons, flatMap_append]
      exact (isText_escapeCharacter character).append ih

theorem denotes_escaped {string : List UInt8} (isText : IsText string) :
    Denotes value (quote :: (appendEscapedJson string ++ [quote])) (.string string) :=
  denotes_string (spells_appendEscapedJson string) (isText_appendEscapedJson isText)

/-- A text which is neither escaped nor longer than its bytes. -/
def Word (name : List Char) : Prop := PlainText (ascii name) ∧ IsAscii (ascii name)

instance (name : List Char) : Decidable (Word name) := inferInstanceAs (Decidable (_ ∧ _))

abbrev members (depth : Nat) : Parser UInt8 (List UInt8 × Json) := member (value depth)

theorem denotes_key {name : List Char} {found : Json}
    (word : Word name) (denotes : Denotes value text found) :
    Denotes members (key name ++ text) (ascii name, found) := by
  have member := denotes_member (spells_of_plain word.1) word.2.isText denotes
  simpa [key] using member

variable {found : List (List UInt8 × Json)} {values : List Json} {root : TypeRootNode}

theorem goesOn_member {name : List Char} {value : Json}
    (goesOn : GoesOn members closeBrace tail found)
    (word : Word name) (denotes : Denotes Json.value text value) :
    GoesOn members closeBrace (comma :: (key name ++ text) ++ tail)
      ((ascii name, value) :: found) :=
  goesOn.comma (denotes_key word denotes) (.inr rfl)

section Optional

variable {present : Prop} [Decidable present] {name other : List Char} {value : Json} {α : Type}
  {default result : α} {content : Json → Option α}

/-- A member which is only written under a condition. -/
def optionalMember (present : Prop) [Decidable present] (name : List Char) (value : Json) :
    List (List UInt8 × Json) :=
  if present then [(ascii name, value)] else []

theorem goesOn_optional (goesOn : GoesOn members closeBrace tail found) (word : Word name)
    (denotes : Denotes Json.value text value) :
    GoesOn members closeBrace ((if present then comma :: (key name ++ text) else []) ++ tail)
      (optionalMember present name value ++ found) := by
  rw [optionalMember]
  split
  case isTrue => exact goesOn_member goesOn word denotes
  case isFalse => exact goesOn

theorem goesOn_unless (goesOn : GoesOn members closeBrace tail found) (word : Word name)
    (denotes : Denotes Json.value text value) :
    GoesOn members closeBrace ((if present then [] else comma :: (key name ++ text)) ++ tail)
      (optionalMember (¬ present) name value ++ found) := by
  rw [← ite_not]
  exact goesOn_optional goesOn word denotes

theorem fieldOr_cons_of_ne (different : ascii name ≠ ascii other) :
    fieldOr ((ascii name, value) :: found) other default content =
      fieldOr found other default content := by
  rw [fieldOr, field, find?_cons_of_neg (by simpa using different)]
  rfl

theorem fieldOr_optional_of_ne (different : ascii name ≠ ascii other) :
    fieldOr (optionalMember present name value ++ found) other default content =
      fieldOr found other default content := by
  rw [optionalMember]
  split
  case isTrue => exact fieldOr_cons_of_ne different
  case isFalse => rfl

theorem fieldOr_optional (read : content value = some result)
    (absent : ¬ present → fieldOr found name default content = some result) :
    fieldOr (optionalMember present name value ++ found) name default content = some result := by
  rw [optionalMember]
  split
  case isTrue =>
    rw [singleton_append, fieldOr, field, find?_cons_of_pos (by simp)]
    exact read
  case isFalse missing => exact absent missing

end Optional

theorem counter_number (value : UInt64) : counter (.number (.ofNat value.toNat)) = some value := by
  change (if value.toNat < 2 ^ 64 then some (UInt64.ofNat value.toNat) else none) = _
  rw [if_pos value.toNat_lt, UInt64.ofNat_toNat]

def counterMembers (name : List Char) (value : UInt64) : List (List UInt8 × Json) :=
  optionalMember (value > 0) name (.number (.ofNat value.toNat))

theorem goesOn_counter (name : List Char) (value : UInt64)
    (goesOn : GoesOn members closeBrace tail found) (word : Word name) :
    GoesOn members closeBrace (outputCounter name value ++ tail)
      (counterMembers name value ++ found) :=
  goesOn_optional goesOn word (denotes_number _)

theorem fieldOr_counter {name : List Char} (value : UInt64)
    (absent : fieldOr found name 0 counter = some 0) :
    fieldOr (counterMembers name value ++ found) name 0 counter = some value := by
  refine fieldOr_optional (counter_number value) fun zero => ?_
  have isZero : value = 0 := UInt64.le_zero_iff.mp (UInt64.not_lt.mp zero)
  rw [isZero]
  exact absent

section Children

variable {children mapped : List TypeTreeNode} {depth : Nat} {typeIndex : Nat}
  {instanceCount totalSize : UInt64}

def childMembers (children : List TypeTreeNode) (values : List Json) : List (List UInt8 × Json) :=
  optionalMember (¬ children.isEmpty) ['c', 'h'] (.array values)

theorem goesOn_children (children : List TypeTreeNode)
    (goesOn : GoesOn members closeBrace tail found)
    (lists : Lists value closeBracket (text ++ [closeBracket]) values) :
    GoesOn members closeBrace (outputChildren children text ++ tail)
      (childMembers children values ++ found) :=
  goesOn_unless goesOn (by decide) (denotes_array lists)

theorem fieldOr_children (read : values.mapM (node depth) = some mapped)
    (none : children.isEmpty → mapped = []) :
    fieldOr (childMembers children values ++ []) ['c', 'h'] [] (fun found =>
      items found >>= fun found => found.mapM (node depth)) = some mapped :=
  fieldOr_optional read fun empty => congrArg some (none (not_not.mp empty)).symm

def nodeMembers (typeIndex : Nat) (instanceCount totalSize : UInt64)
    (children : List TypeTreeNode) (values : List Json) : List (List UInt8 × Json) :=
  (ascii ['t'], .number (.ofNat typeIndex)) :: (counterMembers ['i', 'c'] instanceCount ++
    (counterMembers ['t', 's'] totalSize ++ (childMembers children values ++ [])))

theorem node_object (read : values.mapM (node depth) = some mapped)
    (none : children.isEmpty → mapped = []) :
    node (depth + 1)
        (.object (nodeMembers typeIndex instanceCount totalSize children values)) =
      some (.mk typeIndex instanceCount totalSize mapped) := by
  have isType : field (nodeMembers typeIndex instanceCount totalSize children values)
      ['t'] = some (.number (.ofNat typeIndex)) := rfl
  have instances : fieldOr
      (nodeMembers typeIndex instanceCount totalSize children values) ['i', 'c'] 0
      counter = some instanceCount :=
    (fieldOr_cons_of_ne (by decide)).trans (fieldOr_counter _
      ((fieldOr_optional_of_ne (by decide)).trans (fieldOr_optional_of_ne (by decide))))
  have size : fieldOr
      (nodeMembers typeIndex instanceCount totalSize children values) ['t', 's'] 0
      counter = some totalSize :=
    (fieldOr_cons_of_ne (by decide)).trans ((fieldOr_optional_of_ne (by decide)).trans
      (fieldOr_counter _ (fieldOr_optional_of_ne (by decide))))
  have below : fieldOr
      (nodeMembers typeIndex instanceCount totalSize children values) ['c', 'h'] []
      (fun found => items found >>= fun found => found.mapM (node depth)) =
        some mapped :=
    (fieldOr_cons_of_ne (by decide)).trans ((fieldOr_optional_of_ne (by decide)).trans
      ((fieldOr_optional_of_ne (by decide)).trans (fieldOr_children read none)))
  simp only [node, isType, instances, size, below]
  rfl

theorem denotes_node (lists : Lists value closeBracket (text ++ [closeBracket]) values) :
    Denotes value (openBrace :: (key ['t'] ++ (appendUInt typeIndex ++
        (outputCounter ['i', 'c'] instanceCount ++ (outputCounter ['t', 's'] totalSize ++
          (outputChildren children text ++ [closeBrace]))))))
      (.object (nodeMembers typeIndex instanceCount totalSize children values)) := by
  have isType := @denotes_key _ ['t'] _ (by decide) (denotes_number typeIndex)
  have last : GoesOn members closeBrace [closeBrace] [] := goesOn_close (.inr rfl)
  have counters := goesOn_counter ['i', 'c'] instanceCount
    (goesOn_counter ['t', 's'] totalSize (goesOn_children children last lists) (by decide))
    (by decide)
  have opens : Opens closeBrace (key ['t'] ++ decimal typeIndex) := ⟨quote, _, rfl, rfl, by decide⟩
  have whole := denotes_object (lists_cons isType counters opens)
  exact whole

end Children

/-- The text goes on with a list, or starts one. -/
def Continues (first : Bool) (text : List UInt8) (values : List Json) : Prop :=
  if first then Lists value closeBracket text values
  else GoesOn value closeBracket text values

theorem continues_close (first : Bool) : Continues first [closeBracket] [] := by
  cases first with
  | true => exact lists_close (.inl rfl)
  | false => exact goesOn_close (.inl rfl)

theorem Continues.cons {value : Json} (first : Bool) (continues : Continues false tail values)
    (denotes : Denotes Json.value text value) (opens : Json.Opens closeBracket text) :
    Continues first ((if first then [] else [comma]) ++ (text ++ tail)) (value :: values) := by
  cases first with
  | true =>
    have lists : Lists Json.value closeBracket (text ++ tail) (value :: values) :=
      Json.lists_cons denotes continues opens
    exact lists
  | false =>
    have goesOn : GoesOn Json.value closeBracket (comma :: (text ++ tail)) (value :: values) :=
      GoesOn.comma continues denotes (.inl rfl)
    exact goesOn

theorem length_outputNodes_le (names : TypeNames) (children : List TypeTreeNode)
    (types : TypeTable) :
    (outputNodes names true children types).1.length ≤
      (outputChildren children (outputNodes names true children types).1).length := by
  cases children with
  | nil => exact Nat.le_refl _
  | cons child rest =>
    simp only [outputChildren, isEmpty_cons, Bool.false_eq_true, if_false,
      length_cons, length_append]
    omega

/-- The text of an item denotes a value which is read as the item, with its types numbered. -/
def Shows {α : Type} (names : TypeNames) (all table typeIDs : List Nat)
    (output : List UInt8 × TypeTable) (read : Nat → Json → Option α) (item : (Nat → Nat) → α) :
    Prop :=
  Opens closeBracket output.1 ∧ ∃ json, Denotes value output.1 json ∧
    Written (entry names) all table typeIDs output.2 fun number =>
      ∀ depth, output.1.length ≤ depth → read depth json = some (item number)

def ShowsAll {α : Type} (names : TypeNames) (all table typeIDs : List Nat) (first : Bool)
    (output : List UInt8 × TypeTable) (read : Nat → Json → Option α)
    (items : (Nat → Nat) → List α) : Prop :=
  ∃ values, Continues first (output.1 ++ [closeBracket]) values ∧
    Written (entry names) all table typeIDs output.2 fun number =>
      ∀ depth, output.1.length ≤ depth → values.mapM (read depth) = some (items number)

section Lists

variable {α : Type} {read : Nat → Json → Option α}

theorem showsAll_nil (first : Bool) (registered : Registered (entry names) all table types) :
    ShowsAll names all table [] first ([], types) read fun _ => [] :=
  ⟨[], continues_close first, registered, fun _ _ _ _ _ => rfl⟩

theorem Shows.cons {typeIDs others : List Nat} {output rest : List UInt8 × TypeTable}
    {item : (Nat → Nat) → α} {items : (Nat → Nat) → List α} (first : Bool)
    (shows : Shows names all table typeIDs output read item)
    (behind : Registered (entry names) all (meetAll table typeIDs) output.2 →
      ShowsAll names all (meetAll table typeIDs) others false rest read items) :
    ShowsAll names all table (typeIDs ++ others) first
      ((if first then [] else [comma]) ++ (output.1 ++ rest.1), rest.2) read
      fun number => item number :: items number := by
  rcases shows with ⟨opens, json, denotes, written⟩
  rcases behind written.registered with ⟨values, continues, writtenOthers⟩
  refine ⟨json :: values, ?_, written.append writtenOthers ?_⟩
  · have whole := continues.cons first denotes opens
    simp only [append_assoc]
    exact whole
  · intro number readFirst readOthers depth deep
    simp only [length_append] at deep
    rw [mapM_cons, readFirst depth (by omega), readOthers depth (by omega)]
    rfl

end Lists

mutual

theorem outputNode_shows (fits : all.dedup.length < 2 ^ 32) :
    ∀ (node : TypeTreeNode) (types : TypeTable) (table : List Nat),
      Registered (entry names) all table types → node.typeIDs ⊆ all →
      Shows names all table node.typeIDs (outputNode names node types) JsonFormat.node node.mapTypes
  | .mk typeID instanceCount totalSize children, types, table, registered, inside => by
    rw [typeIDs, cons_subset] at inside
    rcases registered.registerType fits inside.1 with ⟨isRegistered, here⟩
    rcases outputNodes_shows fits true children _ _ isRegistered inside.2 with
      ⟨values, lists, written⟩
    refine ⟨⟨openBrace, _, rfl, rfl, by decide⟩, _, denotes_node lists, written.register here ?_⟩
    intro number known read depth deep
    cases depth with
    | zero => cases deep
    | succ depth =>
      have shorter := length_outputNodes_le names children (registerType names types typeID).2
      simp only [outputNode, length_cons, length_append] at deep
      simp only [mapTypes, known]
      refine node_object (read depth ?_) ?_
      · change
          (outputNodes names true children (registerType names types typeID).2).1.length ≤ _
        omega
      · intro empty
        rw [isEmpty_iff.mp empty]
        rfl

theorem outputNodes_shows (fits : all.dedup.length < 2 ^ 32) (first : Bool) :
    ∀ (nodes : List TypeTreeNode) (types : TypeTable) (table : List Nat),
      Registered (entry names) all table types → typeIDsOf nodes ⊆ all →
      ShowsAll names all table (typeIDsOf nodes) first (outputNodes names first nodes types) node
        fun number => mapTypesOf number nodes
  | [], types, table, registered, _ => showsAll_nil first registered
  | child :: rest, types, table, registered, inside => by
    rw [typeIDsOf, append_subset] at inside
    exact (outputNode_shows fits child types table registered inside.1).cons first
      fun isRegistered => outputNodes_shows fits false rest _ _ isRegistered inside.2

end

def fieldNameMembers (fieldName : List UInt8) : List (List UInt8 × Json) :=
  optionalMember (¬ fieldName.isEmpty) ['f', 'n'] (.string fieldName)

def rootMembers (typeIndex : Nat) (root : TypeRootNode) (values : List Json) :
    List (List UInt8 × Json) :=
  (ascii ['t'], .number (.ofNat typeIndex)) :: (ascii ['c'], .string root.category.code) ::
    (ascii ['i', 'c'], .number (.ofNat root.node.instanceCount.toNat)) ::
    (ascii ['t', 's'], .number (.ofNat root.node.totalSize.toNat)) ::
    (fieldNameMembers root.fieldName ++ (childMembers root.node.children values ++ []))

theorem root_object {typeIndex depth : Nat} {mapped : List TypeTreeNode}
    (read : values.mapM (node depth) = some mapped)
    (none : root.node.children.isEmpty → mapped = []) :
    JsonFormat.root depth (.object (rootMembers typeIndex root values)) =
      some ⟨.mk typeIndex root.node.instanceCount root.node.totalSize mapped, root.category,
        root.fieldName⟩ := by
  have isType : field (rootMembers typeIndex root values) ['t'] =
      some (.number (.ofNat typeIndex)) := rfl
  have category : field (rootMembers typeIndex root values) ['c'] =
      some (.string root.category.code) := rfl
  have instances : fieldOr (rootMembers typeIndex root values) ['i', 'c'] 0 counter =
      some root.node.instanceCount := counter_number _
  have size : fieldOr (rootMembers typeIndex root values) ['t', 's'] 0 counter =
      some root.node.totalSize := counter_number _
  have fieldName : fieldOr (rootMembers typeIndex root values) ['f', 'n'] [] bytes =
      some root.fieldName := by
    refine fieldOr_optional rfl fun empty => ?_
    rw [isEmpty_iff.mp (not_not.mp empty)]
    exact fieldOr_optional_of_ne (by decide)
  have below : fieldOr (rootMembers typeIndex root values) ['c', 'h'] []
      (fun found => items found >>= fun found => found.mapM (node depth)) = some mapped :=
    (fieldOr_optional_of_ne (by decide)).trans (fieldOr_children read none)
  simp only [JsonFormat.root, isType, category, instances, size, fieldName, below]
  change (RootCategory.ofCode root.category.code >>= fun _ => _) = _
  rw [RootCategory.ofCode_code]
  rfl

theorem code_plain (category : RootCategory) :
    PlainText category.code ∧ IsAscii category.code := by
  cases category <;> decide

theorem denotes_root (isText : IsText root.fieldName)
    (lists : Lists value closeBracket (text ++ [closeBracket]) values) :
    Denotes value (openBrace :: (key ['t'] ++ (appendUInt typeIndex ++
        (comma :: (key ['c'] ++ quote :: (root.category.code ++ [quote])) ++
          (comma :: (key ['i', 'c'] ++ appendUInt root.node.instanceCount.toNat) ++
            (comma :: (key ['t', 's'] ++ appendUInt root.node.totalSize.toNat) ++
              ((if root.fieldName.isEmpty then [] else comma :: (key ['f', 'n'] ++
                  quote :: (appendEscapedJson root.fieldName ++ [quote]))) ++
                (outputChildren root.node.children text ++ [closeBrace]))))))))
      (.object (rootMembers typeIndex root values)) := by
  have isType := @denotes_key _ ['t'] _ (by decide) (denotes_number typeIndex)
  have last : GoesOn members closeBrace [closeBrace] [] := goesOn_close (.inr rfl)
  have children := goesOn_children root.node.children last lists
  have named := @goesOn_unless _ _ _ (root.fieldName.isEmpty = true) _ ['f', 'n'] _ children
    (by decide) (denotes_escaped isText)
  have size := goesOn_member named (show Word ['t', 's'] by decide)
    (denotes_number root.node.totalSize.toNat)
  have instances := goesOn_member size (show Word ['i', 'c'] by decide)
    (denotes_number root.node.instanceCount.toNat)
  have category := goesOn_member instances (show Word ['c'] by decide)
    (denotes_string (spells_of_plain (code_plain root.category).1)
      (code_plain root.category).2.isText)
  have opens : Opens closeBrace (key ['t'] ++ decimal typeIndex) := ⟨quote, _, rfl, rfl, by decide⟩
  have whole := denotes_object (lists_cons isType category opens)
  exact whole

theorem outputRoot_shows (fits : all.dedup.length < 2 ^ 32) {root : TypeRootNode}
    (isText : IsText root.fieldName) (registered : Registered (entry names) all table types)
    (inside : root.node.typeIDs ⊆ all) :
    Shows names all table root.node.typeIDs (outputRoot names root types) JsonFormat.root
      root.mapTypes := by
  rcases root with ⟨⟨typeID, instanceCount, totalSize, children⟩, category, fieldName⟩
  rw [typeIDs, cons_subset] at inside
  rcases registered.registerType fits inside.1 with ⟨isRegistered, here⟩
  rcases outputNodes_shows fits true children _ _ isRegistered inside.2 with
    ⟨values, lists, written⟩
  refine ⟨⟨openBrace, _, rfl, rfl, by decide⟩, _, denotes_root isText lists,
    written.register here ?_⟩
  intro number known read depth deep
  have shorter := length_outputNodes_le names children (registerType names types typeID).2
  simp only [outputRoot, TypeRootNode.key, TypeTreeNode.typeID, TypeTreeNode.children,
    length_cons, length_append] at deep
  simp only [TypeRootNode.mapTypes, mapTypes, known]
  refine root_object (read depth ?_) ?_
  · change (outputNodes names true children (registerType names types typeID).2).1.length ≤ _
    omega
  · intro empty
    have none : children = [] := isEmpty_iff.mp empty
    rw [none]
    rfl

theorem outputRoots_shows (fits : all.dedup.length < 2 ^ 32) (first : Bool)
    (roots : List TypeRootNode) (areTexts : ∀ root ∈ roots, IsText root.fieldName)
    (registered : Registered (entry names) all table types)
    (inside : roots.flatMap (·.node.typeIDs) ⊆ all) :
    ShowsAll names all table (roots.flatMap (·.node.typeIDs)) first
      (outputRoots names first roots types) JsonFormat.root
      fun number => roots.map (·.mapTypes number) := by
  induction roots generalizing table types first with
  | nil => exact showsAll_nil first registered
  | cons root rest ih =>
    rw [flatMap_cons, append_subset] at inside
    rw [forall_mem_cons] at areTexts
    exact (outputRoot_shows fits areTexts.1 registered inside.1).cons first
      fun isRegistered => ih false areTexts.2 isRegistered inside.2

theorem denotes_name (areTexts : names.AreTexts) (typeID : Nat) :
    Denotes value (outputName names typeID) (.string (names.get typeID)) ∧
      Json.Opens closeBracket (outputName names typeID) := by
  rw [TypeNames.get, outputName]
  cases isName : names typeID with
  | some name =>
    exact ⟨denotes_escaped (areTexts typeID name isName), quote, _, rfl, rfl, by decide⟩
  | none =>
    exact ⟨denotes_string (spells_of_plain (by decide)) (IsAscii.isText (by decide)), quote, _, rfl,
      rfl, by decide⟩

theorem entries_continue (areTexts : names.AreTexts) (table : List Nat) (count : Nat) :
    Continues (decide (count = 0))
      (entriesFrom (entry names) count table ++ [closeBracket])
      (table.map fun typeID => .string (names.get typeID)) := by
  induction table generalizing count with
  | nil => exact continues_close _
  | cons typeID rest ih =>
    have others : Continues false _ _ := ih (count + 1)
    rcases denotes_name areTexts typeID with ⟨denotes, opens⟩
    have whole := others.cons (decide (count = 0)) denotes opens
    have separator : (if decide (count = 0) then [] else [comma]) =
        if count > 0 then [comma] else [] := by
      cases count <;> rfl
    rw [separator] at whole
    simp only [entriesFrom, entry, append_assoc]
    exact whole

theorem document_object {depth count : Nat} {values roots : List Json}
    {typeNames : List (List UInt8)} {mapped : List TypeRootNode}
    (readNames : values.mapM bytes = some typeNames) (none : count = 0 → typeNames = [])
    (readRoots : roots.mapM (JsonFormat.root depth) = some mapped) :
    document depth (.object ((ascii ['v'], .number (.ofNat 1)) ::
      (optionalMember (count > 0) ['t', 't'] (.array values) ++ [(ascii ['r'], .array roots)]))) =
      some ⟨typeNames, mapped⟩ := by
  have named : fieldOr ((ascii ['v'], .number (.ofNat 1)) ::
      (optionalMember (count > 0) ['t', 't'] (.array values) ++ [(ascii ['r'], .array roots)]))
      ['t', 't'] [] (fun found => items found >>= fun found => found.mapM bytes) =
        some typeNames := by
    rw [fieldOr_cons_of_ne (by decide)]
    exact fieldOr_optional readNames fun zero =>
      congrArg some (none (Nat.eq_zero_of_not_pos zero)).symm
  have rooted : field ((ascii ['v'], .number (.ofNat 1)) ::
      (optionalMember (count > 0) ['t', 't'] (.array values) ++ [(ascii ['r'], .array roots)]))
      ['r'] = some (.array roots) := by
    rw [optionalMember]
    split <;> rfl
  have version : field ((ascii ['v'], .number (.ofNat 1)) ::
      (optionalMember (count > 0) ['t', 't'] (.array values) ++ [(ascii ['r'], .array roots)]))
      ['v'] = some (.number (.ofNat 1)) := rfl
  simp only [document, version, named, rooted]
  change (roots.mapM (JsonFormat.root depth) >>= fun _ => _) = _
  rw [readRoots]
  rfl

theorem mapM_bytes (strings : List (List UInt8)) :
    (strings.map string).mapM bytes = some strings := by
  induction strings with
  | nil => rfl
  | cons first rest ih =>
    rw [map_cons, mapM_cons, ih]
    rfl

theorem read_serialize {tree : TypeReferenceTree} (areTexts : names.AreTexts)
    (fieldTexts : ∀ root ∈ tree.roots, IsText root.fieldName)
    (fits : tree.typeIDs.dedup.length < 2 ^ 32) :
    ∃ document, Json.read (serialize (some names) tree) = some document ∧
      JsonFormat.document (serialize (some names) tree).length document =
        some (snapshotOf names tree) := by
  rcases @outputRoots_shows names _ _ _ fits true tree.roots fieldTexts registered_empty
    (List.Subset.refl _) with ⟨roots, lists, registered, read⟩
  have last : GoesOn members closeBrace [closeBrace] [] := goesOn_close (.inr rfl)
  have rooted := @goesOn_member _ _ _ ['r'] _ last (by decide) (denotes_array lists)
  have isTable : (outputRoots names true tree.roots .empty).2.text =
      entriesFrom (entry names) 0 (tableOf tree) := registered.text
  have isCount : (outputRoots names true tree.roots .empty).2.count =
      (tableOf tree).length := registered.count
  have entries := entries_continue areTexts (tableOf tree) 0
  rw [← isTable] at entries
  have tabled := @goesOn_optional _ _ _ ((outputRoots names true tree.roots .empty).2.count > 0) _
    ['t', 't'] _ rooted (by decide) (denotes_array entries)
  have version := @denotes_key _ ['v'] _ (by decide) (denotes_number 1)
  have opens : Opens closeBrace (key ['v'] ++ decimal 1) := ⟨quote, _, rfl, rfl, by decide⟩
  have whole := denotes_object (lists_cons version tabled opens)
  refine ⟨_, read_of_denotes whole, ?_⟩
  refine document_object ?_ ?_ (read _ (prefix_refl _) registered.nodup _ ?_)
  · have strings := mapM_bytes ((tableOf tree).map names.get)
    rw [map_map] at strings
    exact strings
  · intro zero
    rw [isCount, length_eq_zero_iff] at zero
    rw [zero]
    rfl
  · simp only [serialize, length_cons, length_append]
    omega

/-- The JSON text of a tree with fewer than `2 ^ 32` types holds what its binary file holds, if the
names are texts in UTF-8. -/
theorem json_agrees_with_binary (names : TypeNames) (tree : TypeReferenceTree)
    (areTexts : names.AreTexts) (fieldTexts : ∀ root ∈ tree.roots, IsText root.fieldName)
    (fits : tree.typeIDs.dedup.length < 2 ^ 32) :
    ∃ document snapshot, read (serialize (some names) tree) = some document ∧
      JsonFormat.document (serialize (some names) tree).length document = some snapshot ∧
      BinaryFormat.read (BinarySerializer.serialize (some names) tree) = some snapshot := by
  rcases read_serialize areTexts fieldTexts fits with ⟨document, isText, shown⟩
  exact ⟨document, _, isText, shown, BinarySerializer.read_serialize fits⟩

/-- Names with a quote, a control character and a character beyond ASCII. -/
theorem awkward_names_agree :
    ∃ document snapshot,
      read (serialize
        (some fun typeID => if typeID = 7 then some [0x22, 0x01, 0xC3, 0xA9] else none)
        ⟨[⟨.mk 7 1 300 [.mk 9 2 0 []], .handle, [0x5C]⟩]⟩) = some document ∧
      JsonFormat.document
        (serialize (some fun typeID => if typeID = 7 then some [0x22, 0x01, 0xC3, 0xA9] else none)
          ⟨[⟨.mk 7 1 300 [.mk 9 2 0 []], .handle, [0x5C]⟩]⟩).length document = some snapshot ∧
      BinaryFormat.read (BinarySerializer.serialize
        (some fun typeID => if typeID = 7 then some [0x22, 0x01, 0xC3, 0xA9] else none)
        ⟨[⟨.mk 7 1 300 [.mk 9 2 0 []], .handle, [0x5C]⟩]⟩) = some snapshot :=
  json_agrees_with_binary _ _
    (by
      intro typeID name isName
      rcases Option.ite_none_right_eq_some.mp isName with ⟨-, ⟨⟩⟩
      exact ⟨['"', .ofNat 1, 'é'], by decide⟩)
    (forall_mem_singleton.mpr (IsAscii.isText (by decide))) (by decide)

theorem isText_ofTypes (typeIDs : List Nat) :
    ∀ root ∈ (TypeReferenceTree.ofTypes typeIDs).roots, IsText root.fieldName :=
  forall_mem_map.mpr fun _ _ => Utf8.isText_nil

/-- With `2 ^ 32` types the binary file cannot be read, and with a name which is not in UTF-8 the
text cannot be read. -/
theorem too_many_types_disagree :
    (¬ ∀ (names : TypeNames) (tree : TypeReferenceTree), names.AreTexts →
      (∀ root ∈ tree.roots, IsText root.fieldName) →
      ∃ document snapshot, read (serialize (some names) tree) = some document ∧
        JsonFormat.document (serialize (some names) tree).length document = some snapshot ∧
        BinaryFormat.read (BinarySerializer.serialize (some names) tree) = some snapshot) ∧
      read (serialize (some fun _ => some [0xC3]) ⟨[⟨.mk 7 1 24 [], .handle, []⟩]⟩) = none := by
  constructor
  · intro agree
    rcases agree .unknown (.ofTypes (range (2 ^ 32))) nofun
      (isText_ofTypes _) with ⟨_, snapshot, _, _, read⟩
    have unreadable := @BinarySerializer.read_eq_none_of_count (2 ^ 32) (by decide) (by decide)
    exact absurd (unreadable.symm.trans read) (by simp)
  · exact if_neg (by decide +kernel)

end JsonSerializer

end Pyroscope.HeapSnapshot
