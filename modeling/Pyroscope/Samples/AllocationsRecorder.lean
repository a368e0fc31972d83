import Mathlib.Data.List.Dedup
import Pyroscope.Lib.Dictionary
import Pyroscope.Lib.JsonTexts
import Pyroscope.Lib.NativeWord

/-!
# The file of recorded allocations

`Serialize` writes the names, numbered with 32 bits, and then the number of its name and the size of
every allocation.
-/

namespace Pyroscope.Samples

open NativeWord List

structure AllocInfo where
  name : List UInt8
  size : UInt32
deriving DecidableEq

structure AllocationsRecorder where
  allocations : List AllocInfo
deriving DecidableEq

namespace AllocationsRecorder

/-- What `GetTypeName` and `GetObjectSize` answer, unless they fail. -/
structure Allocation where
  typeName : Option (List UInt8)
  objectSize : Option UInt32

def onObjectAllocated (recorder : AllocationsRecorder) (allocation : Allocation) :
    AllocationsRecorder :=
  match allocation.typeName with
  | none => recorder
  | some name =>
    match allocation.objectSize with
    | none => recorder
    | some size => ⟨recorder.allocations ++ [⟨name, size⟩]⟩

structure StringTable where
  ids : Dictionary (List UInt8) UInt32
  current : UInt32
  file : List UInt8

def StringTable.add (table : StringTable) (name : List UInt8) : StringTable :=
  match table.ids.get name with
  | some _ => table
  | none => ⟨table.ids.set name table.current, table.current + 1, table.file ++ (name ++ [0])⟩

def stringTable (allocations : List AllocInfo) : StringTable :=
  allocations.foldl (fun table alloc => table.add alloc.name) ⟨.empty, 0, []⟩

/-- The name has a number, since it has been added. -/
def writeAllocation (order : ByteOrder) (ids : Dictionary (List UInt8) UInt32)
    (alloc : AllocInfo) : List UInt8 :=
  toBytes order 4 ((ids.get alloc.name).getD 0).toNat ++ toBytes order 4 alloc.size.toNat

/-- The bytes of the file, and the recorder which is left. -/
def serialize (order : ByteOrder) (recorder : AllocationsRecorder) :
    List UInt8 × AllocationsRecorder :=
  let table := stringTable recorder.allocations
  (table.file ++ 0 :: recorder.allocations.flatMap (writeAllocation order table.ids), ⟨[]⟩)

/-- Reads strings up to the first empty one, behind the bytes of one which has been started. -/
def readStrings (started : List UInt8) : List UInt8 → Option (List (List UInt8) × List UInt8)
  | [] => none
  | byte :: rest =>
    if byte = 0 then
      if started = [] then some ([], rest)
      else (readStrings [] rest).map fun (names, left) => (started :: names, left)
    else readStrings (started ++ [byte]) rest

def readAllocations (order : ByteOrder) (names : List (List UInt8)) :
    List UInt8 → Option (List AllocInfo)
  | [] => some []
  | a :: b :: c :: d :: e :: f :: g :: h :: rest =>
    (names[ofBytes order [a, b, c, d]]?).bind fun name =>
      (readAllocations order names rest).map
        (⟨name, UInt32.ofNat (ofBytes order [e, f, g, h])⟩ :: ·)
  | _ => none

/-- The names and the allocations of a file which is read to its last byte. -/
def read (order : ByteOrder) (file : List UInt8) : Option (List (List UInt8) × List AllocInfo) :=
  (readStrings [] file).bind fun (names, rest) =>
    (readAllocations order names rest).map fun allocations => (names, allocations)

/-- What a caller is told of an allocation is recorded if it is complete. -/
def Allocation.recorded (allocation : Allocation) : Option AllocInfo :=
  allocation.typeName.bind fun name => allocation.objectSize.map fun size => ⟨name, size⟩

def IsName (name : List UInt8) : Prop := name ≠ [] ∧ 0 ∉ name

variable {order : ByteOrder} {names : List (List UInt8)} {name : List UInt8}
variable {table : StringTable}

theorem allocations_onObjectAllocated (recorder : AllocationsRecorder) (allocation : Allocation) :
    (recorder.onObjectAllocated allocation).allocations =
      recorder.allocations ++ allocation.recorded.toList := by
  rcases allocation with ⟨_ | name, _ | size⟩ <;> simp [onObjectAllocated, Allocation.recorded]

theorem allocations_foldl (calls : List Allocation) (recorder : AllocationsRecorder) :
    (calls.foldl onObjectAllocated recorder).allocations =
      recorder.allocations ++ calls.filterMap Allocation.recorded := by
  induction calls generalizing recorder with
  | nil => simp
  | cons call calls ih =>
    rw [foldl_cons, ih, allocations_onObjectAllocated, append_assoc]
    cases isRecorded : call.recorded <;> simp [isRecorded]

theorem foldl_onObjectAllocated (calls : List Allocation) :
    calls.foldl onObjectAllocated ⟨[]⟩ = ⟨calls.filterMap Allocation.recorded⟩ :=
  congrArg AllocationsRecorder.mk (allocations_foldl calls ⟨[]⟩)

/-- The table has these names, in this order. -/
structure StringTable.Lists (table : StringTable) (names : List (List UInt8)) : Prop where
  nodup : names.Nodup
  file_eq : table.file = names.flatMap (· ++ [0])
  current_eq : table.current = UInt32.ofNat names.length
  get_eq : ∀ name ∈ names, table.ids.get name = some (UInt32.ofNat (names.idxOf name))
  get_eq_none : ∀ name, name ∉ names → table.ids.get name = none

theorem StringTable.Lists.add (lists : table.Lists names) (name : List UInt8) :
    (table.add name).Lists (if name ∈ names then names else names ++ [name]) := by
  rw [StringTable.add]
  by_cases isKnown : name ∈ names
  · rw [if_pos isKnown, lists.get_eq name isKnown]
    exact lists
  · rw [if_neg isKnown, lists.get_eq_none name isKnown]
    refine ⟨concat_eq_append ▸ lists.nodup.concat isKnown, ?_, ?_, ?_, ?_⟩
    · rw [flatMap_append, flatMap_singleton, ← lists.file_eq]
    · rw [length_append, UInt32.ofNat_add, ← lists.current_eq]
      rfl
    · intro other mem
      rw [Dictionary.get_set]
      split
      case isTrue same =>
        rw [same, idxOf_append_of_notMem isKnown, idxOf_cons_self, lists.current_eq]
        rfl
      case isFalse different =>
        have isOld : other ∈ names := by simpa [different] using mem
        rw [idxOf_append_of_mem isOld]
        exact lists.get_eq other isOld
    · intro other notMem
      rw [mem_append, mem_singleton, not_or] at notMem
      rw [Dictionary.get_set, if_neg notMem.2]
      exact lists.get_eq_none other notMem.1

theorem exists_lists_foldl (allocations : List AllocInfo) (lists : table.Lists names) :
    ∃ more, (allocations.foldl (fun table alloc => table.add alloc.name) table).Lists more ∧
      ∀ name, name ∈ more ↔ name ∈ names ∨ name ∈ allocations.map AllocInfo.name := by
  induction allocations generalizing table names with
  | nil => exact ⟨names, lists, by simp⟩
  | cons alloc allocations ih =>
    rcases ih (lists.add alloc.name) with ⟨more, listsMore, members⟩
    refine ⟨more, listsMore, ?_⟩
    intro name
    rw [members, map_cons, mem_cons, ← or_assoc]
    apply or_congr_left
    split
    case isTrue isKnown =>
      constructor
      · exact .inl
      · rintro (isOld | rfl)
        · exact isOld
        · exact isKnown
    case isFalse => rw [mem_append, mem_singleton]

theorem exists_lists (allocations : List AllocInfo) :
    ∃ names, (stringTable allocations).Lists names ∧
      ∀ name, name ∈ names ↔ name ∈ allocations.map AllocInfo.name := by
  have empty : StringTable.Lists ⟨.empty, 0, []⟩ [] :=
    ⟨nodup_nil, rfl, rfl, nofun, fun _ _ => rfl⟩
  rcases exists_lists_foldl allocations empty with ⟨names, lists, members⟩
  exact ⟨names, lists, fun name => (members name).trans (by simp)⟩

theorem readStrings_append {more : List UInt8} (started : List UInt8) (noZero : 0 ∉ name) :
    readStrings started (name ++ more) = readStrings (started ++ name) more := by
  induction name generalizing started with
  | nil => simp
  | cons byte name ih =>
    rw [mem_cons, not_or] at noZero
    rw [cons_append, readStrings, if_neg (Ne.symm noZero.1), ih _ noZero.2, append_assoc]
    rfl

theorem readStrings_names (rest : List UInt8) (areNames : ∀ name ∈ names, IsName name) :
    readStrings [] (names.flatMap (· ++ [0]) ++ 0 :: rest) = some (names, rest) := by
  induction names with
  | nil => rfl
  | cons name names ih =>
    rw [forall_mem_cons] at areNames
    rw [flatMap_cons, append_assoc, append_assoc,
      readStrings_append [] areNames.1.2, nil_append, cons_append, readStrings,
      if_pos rfl, if_neg areNames.1.1, nil_append, ih areNames.2]
    rfl

theorem readAllocations_writeAllocation (ids : Dictionary (List UInt8) UInt32) (alloc : AllocInfo)
    (rest : List UInt8) :
    readAllocations order names (writeAllocation order ids alloc ++ rest) =
      (names[((ids.get alloc.name).getD 0).toNat]?).bind fun name =>
        (readAllocations order names rest).map (⟨name, alloc.size⟩ :: ·) := by
  have unfolded (first second : Nat) :
      readAllocations order names (toBytes order 4 first ++ toBytes order 4 second ++ rest) =
        (names[ofBytes order (toBytes order 4 first)]?).bind fun name =>
          (readAllocations order names rest).map
            (⟨name, UInt32.ofNat (ofBytes order (toBytes order 4 second))⟩ :: ·) := by
    cases order <;> rfl
  have word (number : UInt32) : ofBytes order (toBytes order 4 number.toNat) = number.toNat := by
    rw [ofBytes_toBytes]
    exact Nat.mod_eq_of_lt number.toNat_lt
  rw [writeAllocation, unfolded, word, word, UInt32.ofNat_toNat]

theorem readAllocations_eq_iff (ids : Dictionary (List UInt8) UInt32)
    (allocations : List AllocInfo) :
    readAllocations order names (allocations.flatMap (writeAllocation order ids)) =
        some allocations ↔
      ∀ alloc ∈ allocations, names[((ids.get alloc.name).getD 0).toNat]? = some alloc.name := by
  induction allocations with
  | nil => simp [readAllocations]
  | cons alloc allocations ih =>
    rw [flatMap_cons, readAllocations_writeAllocation, forall_mem_cons, ← ih,
      Option.bind_eq_some_iff]
    constructor
    · rintro ⟨name, found, readOthers⟩
      rcases Option.map_eq_some_iff.mp readOthers with ⟨others, isRead, same⟩
      rw [cons.injEq] at same
      have isName : name = alloc.name := congrArg AllocInfo.name same.1
      exact ⟨isName ▸ found, same.2 ▸ isRead⟩
    · rintro ⟨found, isRead⟩
      exact ⟨alloc.name, found, by rw [isRead]; rfl⟩

variable {allocations : List AllocInfo}

/-- The numbers lead back to the names unless they have started again at zero. -/
theorem StringTable.Lists.numbers_iff (lists : table.Lists names)
    (members : ∀ name, name ∈ names ↔ name ∈ allocations.map AllocInfo.name) :
    (∀ alloc ∈ allocations, names[((table.ids.get alloc.name).getD 0).toNat]? = some alloc.name) ↔
      names.length ≤ 2 ^ 32 := by
  constructor
  · intro found
    by_contra many
    have inside : 2 ^ 32 < names.length := Nat.lt_of_not_le many
    have mem := (members names[2 ^ 32]).mp (getElem_mem inside)
    rcases mem_map.mp mem with ⟨alloc, isAlloc, isName⟩
    have first := found alloc isAlloc
    rw [isName, lists.get_eq _ (getElem_mem inside), lists.nodup.idxOf_getElem] at first
    have last : names[2 ^ 32]? = some names[2 ^ 32] := getElem?_eq_getElem inside
    exact nodup_iff_getElem?_ne_getElem?.mp lists.nodup 0 (2 ^ 32) (by decide) inside
      (first.trans last.symm)
  · intro few alloc isAlloc
    have mem := (members alloc.name).mpr (mem_map_of_mem isAlloc)
    have inside := idxOf_lt_length_iff.mpr mem
    rw [lists.get_eq _ mem, Option.getD_some, UInt32.toNat_ofNat',
      Nat.mod_eq_of_lt (Nat.lt_of_lt_of_le inside few), getElem?_eq_getElem inside,
      getElem_idxOf]

/-- The allocations are read back if no number of a name has started again at zero. -/
theorem read_serialize_iff (areNames : ∀ alloc ∈ allocations, IsName alloc.name) :
    ∃ names, names.Nodup ∧ (∀ name, name ∈ names ↔ name ∈ allocations.map AllocInfo.name) ∧
      ∀ listed, read order (serialize order ⟨allocations⟩).1 = some (listed, allocations) ↔
        listed = names ∧ names.length ≤ 2 ^ 32 := by
  rcases exists_lists allocations with ⟨names, lists, members⟩
  refine ⟨names, lists.nodup, members, fun listed => ?_⟩
  have areListed : ∀ name ∈ names, IsName name := by
    intro name mem
    rcases mem_map.mp ((members name).mp mem) with ⟨alloc, isAlloc, rfl⟩
    exact areNames alloc isAlloc
  have numbers : (∀ alloc ∈ allocations,
      names[(((stringTable allocations).ids.get alloc.name).getD 0).toNat]? = some alloc.name) ↔
        names.length ≤ 2 ^ 32 := lists.numbers_iff members
  rw [read, serialize, lists.file_eq, readStrings_names _ areListed, Option.bind_some,
    Option.map_eq_some_iff]
  constructor
  · rintro ⟨_, isRead, same⟩
    cases same
    exact ⟨rfl, numbers.mp ((readAllocations_eq_iff _ _).mp isRead)⟩
  · rintro ⟨rfl, few⟩
    exact ⟨allocations, (readAllocations_eq_iff _ _).mpr (numbers.mpr few), rfl⟩

/-- The file gives the recorded allocations back, with every name once, if there are no more than
`2 ^ 32` different names. -/
theorem file_read_back (order : ByteOrder) (calls : List Allocation)
    (areNames : ∀ alloc ∈ calls.filterMap Allocation.recorded, IsName alloc.name)
    (few : ((calls.filterMap Allocation.recorded).map AllocInfo.name).dedup.length ≤ 2 ^ 32) :
    ∃ names, read order (serialize order (calls.foldl onObjectAllocated ⟨[]⟩)).1 =
        some (names, calls.filterMap Allocation.recorded) ∧ names.Nodup ∧
      ∀ name, name ∈ names ↔ ∃ alloc ∈ calls.filterMap Allocation.recorded, alloc.name = name := by
  rcases read_serialize_iff areNames with ⟨names, nodup, members, isRead⟩
  have same := (perm_ext_iff_of_nodup nodup (nodup_dedup _)).mpr fun name =>
    (members name).trans mem_dedup.symm
  rw [foldl_onObjectAllocated]
  refine ⟨names, (isRead names).mpr ⟨rfl, same.length_eq ▸ few⟩, nodup, ?_⟩
  exact fun name => (members name).trans mem_map

def someCalls : List Allocation :=
  [⟨some [65], some 24⟩, ⟨some [66], none⟩, ⟨some [65], some 32⟩, ⟨some [66, 67], some 16⟩]

theorem some_calls_read_back :
    ∃ names, read .bigEndian (serialize .bigEndian (someCalls.foldl onObjectAllocated ⟨[]⟩)).1 =
      some (names, [⟨[65], 24⟩, ⟨[65], 32⟩, ⟨[66, 67], 16⟩]) := by
  rcases file_read_back .bigEndian someCalls (by simp [someCalls, Allocation.recorded, IsName])
    (by decide) with ⟨names, isRead, _⟩
  exact ⟨names, isRead⟩

/-- Allocations of types which are named by the decimal numbers up to a count. -/
def manyAllocations (count : Nat) : List AllocInfo :=
  (range count).map fun number => ⟨Json.decimal number, 0⟩

theorem recorded_complete (allocations : List AllocInfo) :
    (allocations.map fun alloc => ⟨some alloc.name, some alloc.size⟩).filterMap
      Allocation.recorded = allocations := by
  rw [filterMap_map]
  exact filterMap_some

theorem nodup_manyAllocations (count : Nat) :
    ((manyAllocations count).map AllocInfo.name).Nodup := by
  rw [manyAllocations, map_map]
  refine nodup_range.map ?_
  intro left right same
  calc
    left = Json.ofDigits (Json.decimal left) := (Json.decimal_spec left).value.symm
    _ = Json.ofDigits (Json.decimal right) := congrArg Json.ofDigits same
    _ = right := (Json.decimal_spec right).value

/-- With one name more, the last name gets the number of the first one. -/
theorem too_many_names : ∃ calls : List Allocation,
    (∀ alloc ∈ calls.filterMap Allocation.recorded, IsName alloc.name) ∧
      ∀ names, read .littleEndian (serialize .littleEndian
        (calls.foldl onObjectAllocated ⟨[]⟩)).1 ≠
          some (names, calls.filterMap Allocation.recorded) := by
  refine ⟨(manyAllocations (2 ^ 32 + 1)).map fun alloc => ⟨some alloc.name, some alloc.size⟩, ?_⟩
  rw [foldl_onObjectAllocated, recorded_complete]
  have areNames : ∀ alloc ∈ manyAllocations (2 ^ 32 + 1), IsName alloc.name := by
    intro alloc mem
    rcases mem_map.mp mem with ⟨number, _, rfl⟩
    have isDecimal := Json.decimal_spec number
    exact ⟨isDecimal.nonempty, fun zero => absurd (isDecimal.digits 0 zero) (by decide)⟩
  refine ⟨areNames, fun listed isRead => ?_⟩
  rcases read_serialize_iff areNames with ⟨names, nodup, members, readIff⟩
  have same := (perm_ext_iff_of_nodup nodup (nodup_manyAllocations _)).mpr members
  have few := ((readIff listed).mp isRead).2
  rw [same.length_eq, length_map, manyAllocations, length_map, length_range] at few
  exact absurd few (by decide)

end AllocationsRecorder

end Pyroscope.Samples
