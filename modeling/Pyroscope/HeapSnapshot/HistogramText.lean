import Pyroscope.ClrEvents.HeapDump
import Pyroscope.Lib.JsonPlain

/-!
# The text of the class histogram

The names stand between quotes as they are, and a counter of 32 bits tells the last entry.
-/

namespace Pyroscope.HeapSnapshot

open Json (quote comma openBracket closeBracket Denotes GoesOn Opens)
open List Prod
open Json
open ClrEvents (ClassHistogramEntry)

def bytesOf (string : String) : List UInt8 := string.toUTF8.data.toList

theorem isText_bytesOf (string : String) : Utf8.IsText (bytesOf string) := by
  rcases string.isValidUTF8 with ⟨characters, same⟩
  refine ⟨characters, ?_⟩
  rw [bytesOf, String.toUTF8, same, utf8Encode, toList_data_toByteArray]

def newline : UInt8 := 0x0A

namespace HistogramText

def entryText (entry : ClassHistogramEntry) : List UInt8 :=
  openBracket :: quote :: (bytesOf entry.className ++ quote :: comma ::
    (decimal entry.instanceCount.toNat ++ comma ::
      (decimal entry.totalSize.toNat ++ [closeBracket])))

def separator (current last : Int) : List UInt8 :=
  if current < last then [comma, newline] else [newline]

/-- The loop over the histogram. The counter `current` is used no more once it is beyond the
values of an `int`. -/
def entriesText (last : Int) : Int → List ClassHistogramEntry → List UInt8
  | _, [] => []
  | current, entry :: rest =>
    entryText entry ++ (separator current last ++ entriesText last (current + 1) rest)

/-- `GetHeapSnapshotText`, for the entries in the order in which the map is walked. -/
def getHeapSnapshotText (entries : List ClassHistogramEntry) : List UInt8 :=
  if entries.length = 0 then []
  else
    let last := Int.bmod entries.length (2 ^ 32)
    openBracket :: newline :: (entriesText last 1 entries ++ [closeBracket, newline])

def entryValue (entry : ClassHistogramEntry) : Json :=
  .array [.string (bytesOf entry.className), .number (.ofNat entry.instanceCount.toNat),
    .number (.ofNat entry.totalSize.toNat)]

/-- The name needs no escapes. -/
def PlainName (entry : ClassHistogramEntry) : Prop := Json.PlainText (bytesOf entry.className)

instance (entry : ClassHistogramEntry) : Decidable (PlainName entry) :=
  inferInstanceAs (Decidable (Json.PlainText _))

variable {entry : ClassHistogramEntry} {rest entries : List ClassHistogramEntry}
  {current last : Int} {tail left : List UInt8} {depth fuel : Nat}

theorem opens_entryText : Opens closeBracket (entryText entry) :=
  ⟨openBracket, _, rfl, rfl, by decide⟩

theorem opens_quote {text : List UInt8} : Opens closeBracket (quote :: text) :=
  ⟨quote, _, rfl, rfl, by decide⟩

theorem denotes_entryText (plain : PlainName entry) :
    Denotes value (entryText entry) (entryValue entry) := by
  have size := (goesOn_close (.inl rfl)).comma (denotes_number entry.totalSize.toNat) (.inl rfl)
  have count := size.comma (denotes_number entry.instanceCount.toNat) (.inl rfl)
  have name := denotes_string (spells_of_plain plain) (isText_bytesOf entry.className)
  have whole := denotes_array (lists_cons name count opens_quote)
  simpa [entryText, entryValue] using whole

theorem plain_of_value (read : value depth (entryText entry ++ tail) =
    some (entryValue entry, left)) : PlainName entry := by
  cases depth with
  | zero => cases read
  | succ depth =>
    rw [entryText, cons_append, value_openBracket] at read
    rcases Parser.of_bind_eq_some read with ⟨found, _, items, whole⟩
    rw [cons_append, append_assoc, cons_append, items_of_opens opens_quote] at items
    rcases Parser.of_bind_eq_some items with ⟨first, _, isFirst, others⟩
    rcases Parser.of_bind_eq_some others with ⟨more, _, _, isFound⟩
    cases isFound
    cases whole
    cases depth with
    | zero => cases isFirst
    | succ depth =>
      rw [value_quote] at isFirst
      rcases Parser.of_bind_eq_some isFirst with ⟨bytes, _, string, isString⟩
      cases isString
      exact plain_of_behindQuote string

/-!
### The loop
-/

/-- Where the counter reaches its last value with the last entry, the commas are right. -/
theorem goesOn_entriesText (plain : ∀ entry ∈ rest, PlainName entry)
    (reaches : current + rest.length = last) :
    GoesOn value closeBracket
      (separator current last ++ (entriesText last (current + 1) rest ++ [closeBracket]))
      (rest.map entryValue) := by
  induction rest generalizing current with
  | nil =>
    rw [separator, if_neg (by simp at reaches; omega)]
    exact (goesOn_close (.inl rfl)).space rfl
  | cons entry rest ih =>
    rw [forall_mem_cons] at plain
    rw [length_cons] at reaches
    have others := @ih (current + 1) plain.2 (by omega)
    have spaced := (denotes_entryText plain.1).space (show isSpace newline = true from rfl)
    have whole := others.comma spaced (.inl rfl)
    rw [separator, if_pos (by omega)]
    simpa [entriesText] using whole

theorem delimits_separator : Json.Delimits (separator current last ++ tail) := by
  rw [separator]
  split <;> exact fun _ next => Option.some.inj next ▸ (by decide)

/-- The text of an entry is read as was meant only if its name is plain, and up to its end. -/
theorem of_value (read : value depth (entryText entry ++ tail) =
      some (entryValue entry, left)) (deep : (entryText entry).length ≤ depth)
    (delimits : Json.Delimits tail) : PlainName entry ∧ left = tail := by
  have plain := plain_of_value read
  have here := (denotes_entryText plain).reads depth tail deep delimits
  rw [here] at read
  exact ⟨plain, (mk.inj (Option.some.inj read)).2.symm⟩

theorem of_moreItems (read : moreItems (value depth) closeBracket fuel
      (separator current last ++ (entriesText last (current + 1) rest ++ tail)) =
        some (rest.map entryValue, left))
    (deep : (entriesText last (current + 1) rest).length ≤ depth) :
    (∀ entry ∈ rest, PlainName entry) ∧ (rest ≠ [] → current + rest.length ≤ last) := by
  induction rest generalizing current fuel with
  | nil => exact ⟨fun _ mem => absurd mem not_mem_nil, fun wrong => absurd rfl wrong⟩
  | cons entry rest ih =>
    rw [entriesText, separator] at read
    split at read
    case isFalse =>
      -- Without a comma the next entry cannot be read.
      rw [cons_append, nil_append, moreItems_space rfl, append_assoc,
        moreItems_eq_none opens_entryText.append (by simp [entryText]; decide)] at read
      cases read
    case isTrue less =>
      cases fuel with
      | zero => cases read
      | succ fuel =>
        rw [cons_append, moreItems_comma (.inl rfl), cons_append, nil_append] at read
        rcases Parser.of_bind_eq_some read with ⟨first, behind, isFirst, others⟩
        rcases Parser.of_bind_eq_some others with ⟨found, _, isFound, whole⟩
        rcases mk.inj (Option.some.inj whole) with ⟨isList, rfl⟩
        rcases List.cons.inj isList with ⟨rfl, rfl⟩
        simp only [entriesText, length_append] at deep
        rw [value_space rfl, append_assoc, append_assoc] at isFirst
        rcases of_value isFirst (by omega) delimits_separator with ⟨plain, rfl⟩
        rcases @ih (current + 1) fuel isFound (by omega) with ⟨others, reaches⟩
        refine ⟨forall_mem_cons.mpr ⟨plain, others⟩, fun _ => ?_⟩
        rw [length_cons]
        cases rest with
        | nil =>
          simp only [length_nil]
          omega
        | cons next rest =>
          have := reaches (cons_ne_nil next rest)
          omega

/-!
### The whole text
-/

theorem getHeapSnapshotText_cons (entry : ClassHistogramEntry)
    (rest : List ClassHistogramEntry) :
    getHeapSnapshotText (entry :: rest) =
      openBracket :: newline :: (entryText entry ++
        (separator 1 (Int.bmod (rest.length + 1) (2 ^ 32)) ++
          (entriesText (Int.bmod (rest.length + 1) (2 ^ 32)) 2 rest ++
            [closeBracket, newline]))) := by
  simp [getHeapSnapshotText, entriesText]

theorem bmod_reaches {count : Nat} : (count : Int) ≤ Int.bmod count (2 ^ 32) ↔ count < 2 ^ 31 := by
  rw [Int.bmod_def]
  split <;> omega

theorem read_of_plain (plain : ∀ each ∈ entry :: rest, PlainName each)
    (few : (entry :: rest).length < 2 ^ 31) :
    read (getHeapSnapshotText (entry :: rest)) =
      some (.array ((entry :: rest).map entryValue)) := by
  rw [forall_mem_cons] at plain
  rw [length_cons] at few
  have last : Int.bmod (rest.length + 1) (2 ^ 32) = rest.length + 1 := by
    rw [Int.bmod_def]
    split <;> omega
  have goesOn := goesOn_entriesText plain.2
    (show (1 : Int) + rest.length = rest.length + 1 by omega)
  have lists := lists_cons (denotes_entryText plain.1) goesOn opens_entryText
  have array := denotes_array (lists.space (show isSpace newline = true from rfl))
  have whole := @read_append _ [newline] _ array (forall_mem_singleton.mpr rfl)
  rw [getHeapSnapshotText_cons, last]
  simpa using whole

theorem of_text (read : Json.read (openBracket :: newline :: (entryText entry ++
      (separator 1 last ++ (entriesText last 2 rest ++ [closeBracket, newline])))) =
        some (.array ((entry :: rest).map entryValue))) :
    (∀ each ∈ entry :: rest, PlainName each) ∧ (rest ≠ [] → 1 + rest.length ≤ last) := by
  have parsed := (Option.ite_none_right_eq_some.mp read).2
  rw [parse] at parsed
  split at parsed
  case h_2 => cases parsed
  case h_1 found whole =>
      cases parsed
      rcases Parser.of_bind_eq_some whole with ⟨first, _, isValue, last⟩
      rcases Parser.of_bind_eq_some last with ⟨_, _, _, isFound⟩
      cases isFound
      rw [length_cons, Json.value_openBracket] at isValue
      rcases Parser.of_bind_eq_some isValue with ⟨items, _, isItems, isArray⟩
      cases isArray
      rw [Json.items_space rfl, Json.items_of_opens opens_entryText.append] at isItems
      rcases Parser.of_bind_eq_some isItems with ⟨value, behind, isEntry, others⟩
      rcases Parser.of_bind_eq_some others with ⟨values, _, isRest, isAll⟩
      rcases List.cons.inj (mk.inj (Option.some.inj isAll)).1 with ⟨rfl, rfl⟩
      rcases of_value isEntry (by simp; omega) delimits_separator with ⟨plain, rfl⟩
      rcases @of_moreItems _ 1 _ _ _ _ _ isRest (by simp; omega) with ⟨plainRest, reaches⟩
      exact ⟨forall_mem_cons.mpr ⟨plain, plainRest⟩, reaches⟩

theorem plain_of_read (read : read (getHeapSnapshotText (entry :: rest)) =
      some (.array ((entry :: rest).map entryValue))) :
    (∀ each ∈ entry :: rest, PlainName each) ∧ (entry :: rest).length < 2 ^ 31 := by
  rw [getHeapSnapshotText_cons] at read
  rcases of_text read with ⟨plain, reaches⟩
  refine ⟨plain, ?_⟩
  cases rest with
  | nil => exact Nat.one_lt_two_pow (by decide)
  | cons next rest =>
    have last := reaches (cons_ne_nil next rest)
    rw [← bmod_reaches, length_cons, Int.natCast_add, Int.natCast_one]
    omega

/-- The text of a histogram is read back if and only if no name needs an escape and the number
of classes is an `int`. -/
theorem histogram_read_back_iff (snapshot : ClrEvents.HeapSnapshot)
    (entries : List ClassHistogramEntry)
    (walked : entries.Perm (snapshot.classHistogram.items.map snd))
    (nonempty : snapshot.classHistogram.items ≠ []) :
    read (getHeapSnapshotText entries) = some (.array (entries.map entryValue)) ↔
      (∀ item ∈ snapshot.classHistogram.items, PlainName item.2) ∧
        snapshot.classHistogram.items.length < 2 ^ 31 := by
  have same : (∀ item ∈ snapshot.classHistogram.items, PlainName item.2) ↔
      ∀ entry ∈ entries, PlainName entry := by
    simp only [walked.mem_iff, forall_mem_map]
  have length := walked.length_eq
  rw [length_map] at length
  rw [same, ← length]
  cases entries with
  | nil => exact absurd (length_eq_zero_iff.mp length.symm) nonempty
  | cons entry rest =>
    exact ⟨plain_of_read, fun fits => read_of_plain fits.1 fits.2⟩

def twoClasses : ClrEvents.HeapSnapshot :=
  ⟨3, 72, ⟨[(5, ⟨"System.String", 1, 24⟩), (9, ⟨"Café", 2, 48⟩)], by decide⟩, []⟩

theorem two_names_read_back :
    twoClasses.classHistogram.items ≠ [] ∧
      read (getHeapSnapshotText [⟨"Café", 2, 48⟩, ⟨"System.String", 1, 24⟩]) =
        some (.array ([⟨"Café", 2, 48⟩, ⟨"System.String", 1, 24⟩].map entryValue)) := by
  refine ⟨cons_ne_nil _ _, ?_⟩
  refine (histogram_read_back_iff twoClasses _ (.swap ..) (cons_ne_nil _ _)).mpr ⟨?_, by decide⟩
  decide +kernel

def namesAll (className : String) : ClrEvents.HeapSnapshotManager :=
  ⟨fun _ => some className, fun _ => none, fun _ => none, false, none⟩

def oneNode : ClrEvents.EventData :=
  ⟨[0, 0, 0, 0, 0, 0, 0, 0, 24, 0, 0, 0, 0, 0, 0, 0, 5, 0, 0, 0, 0, 0, 0, 0,
    0, 0, 0, 0, 0, 0, 0, 0], fun _ => 0, by decide⟩

/-- A class whose name is a quote: the text is not JSON. -/
theorem quote_in_name_breaks_text :
    ∃ snapshot, ((namesAll "\"").onBulkNodes ⟨.bits64, .littleEndian⟩ oneNode 2 1 0
        .empty).value = some snapshot ∧
      snapshot.classHistogram.items ≠ [] ∧
      ∀ entries : List ClassHistogramEntry,
        entries.Perm (snapshot.classHistogram.items.map snd) →
          read (getHeapSnapshotText entries) = none := by
  have counted : ((namesAll "\"").onBulkNodes ⟨.bits64, .littleEndian⟩ oneNode 2 1 0
      .empty).value.map (·.classHistogram.items) = some [(5, ⟨"\"", 1, 24⟩)] := by
    decide +kernel
  rcases Option.map_eq_some_iff.mp counted with ⟨snapshot, isValue, items⟩
  refine ⟨snapshot, isValue, by simp [items], ?_⟩
  intro entries walked
  rw [items] at walked
  rw [perm_singleton.mp walked]
  have unparsed : parse (getHeapSnapshotText [⟨"\"", 1, 24⟩]) = none :=
    Option.isNone_iff_eq_none.mp (by decide +kernel)
  rw [Json.read, unparsed, ite_self]

end HistogramText

end Pyroscope.HeapSnapshot
