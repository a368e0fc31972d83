import Mathlib.Data.List.Dedup
import Mathlib.Data.List.Perm.Subperm
import Pyroscope.HeapSnapshot.TypeReferenceTree
import Pyroscope.Lib.Interning
import Pyroscope.Lib.Leb128

/-!
# The binary form of a type reference tree

A type gets its number when it is met for the first time, so every node is read back with its number
in the table at the end.
-/

namespace Pyroscope.HeapSnapshot

open List

structure TypeTable where
  text : List UInt8
  count : Nat
  typeToIndex : Dictionary Nat Nat

namespace TypeTable

def empty : TypeTable := ⟨[], 0, .empty⟩

/-- `RegisterType`, for serializers which append `entry count typeID` for a new type. -/
def registerType (entry : Nat → Nat → List UInt8) (types : TypeTable) (typeID : Nat) :
    Nat × TypeTable :=
  match types.typeToIndex.get typeID with
  | some index => (index, types)
  | none =>
    (types.count,
      { text := types.text ++ entry types.count typeID
        count := (types.count + 1) % 2 ^ 32
        typeToIndex := types.typeToIndex.set typeID types.count })

def entriesFrom (entry : Nat → Nat → List UInt8) : Nat → List Nat → List UInt8
  | _, [] => []
  | count, typeID :: rest => entry count typeID ++ entriesFrom entry (count + 1) rest

def meet (table : List Nat) (typeID : Nat) : List Nat :=
  if typeID ∈ table then table else table ++ [typeID]

def meetAll (table typeIDs : List Nat) : List Nat := typeIDs.foldl meet table

section Numbering

variable {entry : Nat → Nat → List UInt8} {all table typeIDs more whole : List Nat}
  {types : TypeTable} {typeID index first : Nat}

theorem prefix_meet : table <+: meet table typeID := by
  simp only [meet]
  split
  · exact prefix_refl table
  · exact prefix_append table _

theorem mem_meet : typeID ∈ meet table typeID := by
  simp only [meet]
  split
  case isTrue known => exact known
  case isFalse => simp

theorem meetAll_cons : meetAll table (typeID :: typeIDs) = meetAll (meet table typeID) typeIDs :=
  rfl

theorem meetAll_append : meetAll table (typeIDs ++ more) = meetAll (meetAll table typeIDs) more :=
  foldl_append

theorem prefix_meetAll : table <+: meetAll table typeIDs := by
  induction typeIDs generalizing table with
  | nil => exact prefix_refl table
  | cons typeID rest ih => exact prefix_meet.trans ih

theorem subset_meetAll : typeIDs ⊆ meetAll table typeIDs := by
  induction typeIDs generalizing table with
  | nil => exact nil_subset _
  | cons typeID rest ih =>
    rw [meetAll_cons, cons_subset]
    exact ⟨prefix_meetAll.mem mem_meet, ih⟩

theorem entriesFrom_snoc :
    entriesFrom entry first (table ++ [typeID]) =
      entriesFrom entry first table ++ entry (first + table.length) typeID := by
  induction table generalizing first with
  | nil => simp [entriesFrom]
  | cons head rest ih =>
    simp only [cons_append, entriesFrom, ih, append_assoc, length_cons]
    rw [show first + 1 + rest.length = first + (rest.length + 1) by omega]

/-- The types registered so far, in the order of their numbers, among the types `all` of a tree. -/
structure Registered (entry : Nat → Nat → List UInt8) (all table : List Nat) (types : TypeTable) :
    Prop where
  numbers : Interning.Numbers 0 types.typeToIndex table
  count : types.count = table.length
  text : types.text = entriesFrom entry 0 table
  inside : table ⊆ all

theorem registered_empty : Registered entry all [] empty :=
  ⟨Interning.numbers_empty, rfl, rfl, nil_subset all⟩

theorem Registered.nodup (registered : Registered entry all table types) : table.Nodup :=
  registered.numbers.nodup

theorem length_le (distinct : table.Nodup) (inside : table ⊆ all) :
    table.length ≤ all.dedup.length := by
  have inDedup : table ⊆ all.dedup := fun typeID mem => mem_dedup.mpr (inside mem)
  exact (subperm_of_subset distinct inDedup).length_le

theorem idxOf_eq (distinct : whole.Nodup) (extended : table <+: whole)
    (here : table[index]? = some typeID) : whole.idxOf typeID = index := by
  rcases List.getElem?_eq_some_iff.mp here with ⟨bound, rfl⟩
  have inWhole : index < whole.length := Nat.lt_of_lt_of_le bound extended.length_le
  rw [extended.getElem bound]
  exact distinct.idxOf_getElem index inWhole

theorem Registered.registerType (registered : Registered entry all table types)
    (fits : all.dedup.length < 2 ^ 32) (member : typeID ∈ all) :
    Registered entry all (meet table typeID) (registerType entry types typeID).2 ∧
      (meet table typeID)[(TypeTable.registerType entry types typeID).1]? = some typeID := by
  simp only [TypeTable.registerType]
  cases known : types.typeToIndex.get typeID with
  | some index =>
    rcases (registered.numbers typeID index).mp known with ⟨position, same, here⟩
    rw [Nat.zero_add] at same
    rw [meet, if_pos (mem_of_getElem? here)]
    exact ⟨registered, same ▸ here⟩
  | none =>
    have added := registered.numbers.add known
    have inside : table ++ [typeID] ⊆ all := by
      rw [append_subset]
      exact ⟨registered.inside, by simpa using member⟩
    have bound := length_le added.nodup inside
    rw [length_append, length_singleton] at bound
    rw [meet, if_neg (registered.numbers.not_mem_of_get_eq_none known)]
    refine ⟨⟨?_, ?_, ?_, inside⟩, ?_⟩
    · rw [registered.count]
      simpa using added
    · rw [length_append, length_singleton, registered.count]
      exact Nat.mod_eq_of_lt (by omega)
    · rw [entriesFrom_snoc, registered.text, registered.count, Nat.zero_add]
    · rw [registered.count]
      exact List.getElem?_concat_length

/-- The types of what was written are registered, and it shows what it has to show once all types
have their numbers. -/
structure Written (entry : Nat → Nat → List UInt8) (all table typeIDs : List Nat)
    (types : TypeTable) (shows : (Nat → Nat) → Prop) : Prop where
  registered : Registered entry all (meetAll table typeIDs) types
  shown : ∀ whole, meetAll table typeIDs <+: whole → whole.Nodup → shows whole.idxOf

section Written

variable {later : TypeTable} {shows others both : (Nat → Nat) → Prop}

theorem Written.append (here : Written entry all table typeIDs types shows)
    (behind : Written entry all (meetAll table typeIDs) more later others)
    (together : ∀ number, shows number → others number → both number) :
    Written entry all table (typeIDs ++ more) later both := by
  rcases behind with ⟨registered, shown⟩
  rw [← meetAll_append] at registered shown
  refine ⟨registered, ?_⟩
  intro whole isWhole distinct
  have before := prefix_meetAll.trans (meetAll_append ▸ isWhole)
  exact together _ (here.shown whole before distinct) (shown whole isWhole distinct)

theorem Written.register (here : (meet table typeID)[index]? = some typeID)
    (below : Written entry all (meet table typeID) typeIDs types shows)
    (together : ∀ number, number typeID = index → shows number → both number) :
    Written entry all table (typeID :: typeIDs) types both := by
  refine ⟨below.registered, ?_⟩
  intro whole isWhole distinct
  rw [meetAll_cons] at isWhole
  have number := idxOf_eq distinct (prefix_meetAll.trans isWhole) here
  exact together _ number (below.shown whole isWhole distinct)

end Written

theorem prefix_text_registerType : types.text <+: (registerType entry types typeID).2.text := by
  simp only [TypeTable.registerType]
  cases types.typeToIndex.get typeID with
  | some index => exact prefix_refl _
  | none => exact prefix_append _ _

theorem registerType_new (unknown : types.typeToIndex.get typeID = none) :
    (registerType entry types typeID).2.count = (types.count + 1) % 2 ^ 32 ∧
      ∀ other ≠ typeID, (registerType entry types typeID).2.typeToIndex.get other =
        types.typeToIndex.get other := by
  simp only [TypeTable.registerType, unknown]
  refine ⟨trivial, ?_⟩
  intro other different
  rw [Dictionary.get_set, if_neg different]

end Numbering

end TypeTable

/-! ## The layout -/

def TypeNames : Type := Nat → Option (List UInt8)

def TypeNames.get (names : TypeNames) (typeID : Nat) : List UInt8 :=
  (names typeID).getD [0x3F]

def TypeNames.unknown : TypeNames := fun _ => none

namespace RootCategory

def ordinal : RootCategory → UInt8
  | stack => 0
  | staticVariable => 1
  | finalizer => 2
  | handle => 3
  | pinning => 4
  | conditionalWeakTable => 5
  | com => 6
  | other => 7
  | unknown => 8

def ofOrdinal (byte : UInt8) : Option RootCategory :=
  [stack, staticVariable, finalizer, handle, pinning, conditionalWeakTable, com, other,
    unknown][byte.toNat]?

end RootCategory

namespace BinarySerializer

def magic : List UInt8 := [0x44, 0x44, 0x52, 0x54]

def formatVersion : Nat := 1

/-- The `do` loop of `WriteVarint`, which ends before the value is used up as fuel. -/
def writeVarintFrom : Nat → Nat → List UInt8
  | 0, _ => []
  | fuel + 1, value =>
    let byte := value &&& 0x7F
    let value := value >>> 7
    if value ≠ 0 then .ofNat (byte ||| 0x80) :: writeVarintFrom fuel value
    else [.ofNat byte]

def writeVarint (value : Nat) : List UInt8 := writeVarintFrom (value + 1) value

def writeString (string : List UInt8) : List UInt8 := writeVarint string.length ++ string

variable (names : TypeNames)

def entry (_count typeID : Nat) : List UInt8 := writeString (names.get typeID)

def registerType (types : TypeTable) (typeID : Nat) : Nat × TypeTable :=
  types.registerType (entry names) typeID

mutual

def writeNode : TypeTreeNode → TypeTable → List UInt8 × TypeTable
  | .mk typeID instanceCount totalSize children, types =>
    let (typeIndex, types) := registerType names types typeID
    let (body, types) := writeNodes children types
    (writeVarint typeIndex ++ (writeVarint instanceCount.toNat ++ (writeVarint totalSize.toNat ++
      (writeVarint children.length ++ body))), types)

def writeNodes : List TypeTreeNode → TypeTable → List UInt8 × TypeTable
  | [], types => ([], types)
  | child :: rest, types =>
    let (first, types) := writeNode child types
    let (body, types) := writeNodes rest types
    (first ++ body, types)

end

def writeRoot (root : TypeRootNode) (types : TypeTable) : List UInt8 × TypeTable :=
  let (typeIndex, types) := registerType names types root.key.typeID
  let (body, types) := writeNodes names root.node.children types
  (writeVarint typeIndex ++ ([root.category.ordinal] ++
    (writeVarint root.node.instanceCount.toNat ++ (writeVarint root.node.totalSize.toNat ++
      (writeString root.fieldName ++ (writeVarint root.node.children.length ++ body))))), types)

def writeRoots : List TypeRootNode → TypeTable → List UInt8 × TypeTable
  | [], types => ([], types)
  | root :: rest, types =>
    let (first, types) := writeRoot names root types
    let (body, types) := writeRoots rest types
    (first ++ body, types)

/-- `Serialize`; without a frame store nothing is written. -/
def serialize : Option TypeNames → TypeReferenceTree → List UInt8
  | none, _ => []
  | some names, tree =>
    let (body, types) := writeRoots names tree.roots .empty
    magic ++ (writeVarint formatVersion ++ (writeVarint types.count ++
      (writeVarint tree.roots.length ++ (types.text ++ body))))

end BinarySerializer

/-- What a file in the format holds. The types of the tree are indices into `typeNames`. -/
structure Snapshot where
  typeNames : List (List UInt8)
  roots : List TypeRootNode

/-- The snapshot is the tree, with numbers into a table of names for its types: every type has a
number of its own, which is below the number of names. -/
def Snapshot.Shows (names : TypeNames) (tree : TypeReferenceTree) (snapshot : Snapshot) : Prop :=
  ∃ number : Nat → Nat, snapshot.roots = tree.roots.map (·.mapTypes number) ∧
    (∀ typeID ∈ tree.typeIDs, snapshot.typeNames[number typeID]? = some (names.get typeID)) ∧
    ∀ first ∈ tree.typeIDs, ∀ second ∈ tree.typeIDs, number first = number second → first = second

namespace BinaryFormat

def string : Parser UInt8 (List UInt8) := do
  let length ← Leb128.decode
  Parser.take length

def counter : Parser UInt8 UInt64 := do
  let value ← Leb128.decode
  if value < 2 ^ 64 then pure (.ofNat value) else Parser.refuse

def node : Nat → Parser UInt8 TypeTreeNode
  | 0 => Parser.refuse
  | depth + 1 => do
    let typeIndex ← Leb128.decode
    let instanceCount ← counter
    let totalSize ← counter
    let childCount ← Leb128.decode
    let children ← Parser.times (node depth) childCount
    pure (.mk typeIndex instanceCount totalSize children)

def category : Parser UInt8 RootCategory := do
  let byte ← Parser.token
  match RootCategory.ofOrdinal byte with
  | some category => pure category
  | none => Parser.refuse

def root (depth : Nat) : Parser UInt8 TypeRootNode := do
  let typeIndex ← Leb128.decode
  let category ← category
  let instanceCount ← counter
  let totalSize ← counter
  let fieldName ← string
  let childCount ← Leb128.decode
  let children ← Parser.times (node depth) childCount
  pure ⟨.mk typeIndex instanceCount totalSize children, category, fieldName⟩

def contents (depth typeCount rootCount : Nat) : Parser UInt8 Snapshot := do
  let typeNames ← Parser.times string typeCount
  let roots ← Parser.times (root depth) rootCount
  pure ⟨typeNames, roots⟩

def file (depth : Nat) : Parser UInt8 Snapshot := do
  let magic ← Parser.take 4
  if magic = BinarySerializer.magic then
    let version ← Leb128.decode
    if version = 1 then
      let typeCount ← Leb128.decode
      let rootCount ← Leb128.decode
      contents depth typeCount rootCount
    else Parser.refuse
  else Parser.refuse

/-- Reads a file to its last byte. No tree in it is deeper than the file is long. -/
def read (bytes : List UInt8) : Option Snapshot :=
  match file bytes.length bytes with
  | some (snapshot, []) => some snapshot
  | _ => none

end BinaryFormat

/-! ## Reading the binary form back -/

open Pyroscope.Parser (Reads)
open TypeTreeNode TypeTable BinaryFormat

namespace BinarySerializer

theorem writeVarintFrom_eq (fuel value : Nat) :
    writeVarintFrom fuel value = Leb128.encodeFrom fuel value := by
  induction fuel generalizing value with
  | zero => rfl
  | succ fuel ih =>
    have low : value &&& 0x7F = value % 128 := Nat.and_two_pow_sub_one_eq_mod value 7
    have high : value >>> 7 = value / 128 := Nat.shiftRight_eq_div_pow value 7
    have flagged : value % 128 ||| 0x80 = value % 128 + 128 := by
      have less : value % 128 < 2 ^ 7 := Nat.mod_lt _ (by decide)
      have joined := Nat.two_pow_add_eq_or_of_lt less 1
      rw [Nat.or_comm, Nat.add_comm]
      exact joined.symm
    simp only [writeVarintFrom, Leb128.encodeFrom, low, high, flagged, ih]
    split
    case isTrue => rfl
    case isFalse last => rw [if_pos (not_not.mp last)]

theorem writeVarint_eq (value : Nat) : writeVarint value = Leb128.encode value :=
  writeVarintFrom_eq _ _

theorem reads_writeVarint (value : Nat) : Reads Leb128.decode (writeVarint value) value := by
  rw [writeVarint_eq]
  exact Leb128.reads_encode value

theorem reads_counter (value : UInt64) : Reads counter (writeVarint value.toNat) value := by
  refine (reads_writeVarint value.toNat).bind_nil ?_
  rw [if_pos value.toNat_lt, UInt64.ofNat_toNat]
  exact Reads.pure value

theorem reads_writeString (string : List UInt8) :
    Reads BinaryFormat.string (writeString string) string :=
  (reads_writeVarint string.length).bind Reads.take

theorem reads_category (category : RootCategory) :
    Reads BinaryFormat.category [category.ordinal] category := by
  intro rest
  cases category <;> rfl

variable {names : TypeNames} {all table : List Nat} {types : TypeTable} {tree : TypeReferenceTree}
  {snapshot : Snapshot} {count : Nat} {depth rootCount : Nat}

mutual

theorem writeNode_reads (fits : all.dedup.length < 2 ^ 32) :
    ∀ (node : TypeTreeNode) (types : TypeTable) (table : List Nat),
      Registered (entry names) all table types → node.typeIDs ⊆ all →
      Written (entry names) all table node.typeIDs (writeNode names node types).2 fun number =>
        ∀ depth, node.height ≤ depth →
          Reads (BinaryFormat.node depth) (writeNode names node types).1 (node.mapTypes number)
  | .mk typeID instanceCount totalSize children, types, table, registered, inside => by
    rw [typeIDs, cons_subset] at inside
    rcases registered.registerType fits inside.1 with ⟨isRegistered, here⟩
    refine (writeNodes_reads fits children _ _ isRegistered inside.2).register here ?_
    intro number known reads depth deep
    rw [height] at deep
    cases depth with
    | zero => omega
    | succ depth =>
      rw [mapTypes, known]
      exact (reads_writeVarint _).bind ((reads_counter _).bind ((reads_counter _).bind
        ((reads_writeVarint _).bind ((reads depth (by omega)).map _))))

theorem writeNodes_reads (fits : all.dedup.length < 2 ^ 32) :
    ∀ (nodes : List TypeTreeNode) (types : TypeTable) (table : List Nat),
      Registered (entry names) all table types → typeIDsOf nodes ⊆ all →
      Written (entry names) all table (typeIDsOf nodes) (writeNodes names nodes types).2
        fun number => ∀ depth, heightOf nodes ≤ depth →
          Reads (Parser.times (node depth) nodes.length)
            (writeNodes names nodes types).1 (mapTypesOf number nodes)
  | [], types, table, registered, _ => ⟨registered, fun _ _ _ _ _ => Reads.times_nil⟩
  | child :: rest, types, table, registered, inside => by
    rw [typeIDsOf, append_subset] at inside
    have first := writeNode_reads fits child types table registered inside.1
    refine first.append (writeNodes_reads fits rest _ _ first.registered inside.2) ?_
    intro number readsFirst readsOthers depth deep
    rw [heightOf, Nat.max_le] at deep
    exact (readsFirst depth deep.1).times_cons (readsOthers depth deep.2)

end

theorem writeRoot_reads (fits : all.dedup.length < 2 ^ 32) (root : TypeRootNode)
    (registered : Registered (entry names) all table types)
    (inside : root.node.typeIDs ⊆ all) :
    Written (entry names) all table root.node.typeIDs (writeRoot names root types).2
      fun number => ∀ depth, root.node.height ≤ depth →
        Reads (BinaryFormat.root depth) (writeRoot names root types).1 (root.mapTypes number) := by
  rcases root with ⟨⟨typeID, instanceCount, totalSize, children⟩, category, fieldName⟩
  rw [typeIDs, cons_subset] at inside
  rcases registered.registerType fits inside.1 with ⟨isRegistered, here⟩
  refine (writeNodes_reads fits children _ _ isRegistered inside.2).register here ?_
  intro number known reads depth deep
  rw [height] at deep
  rw [TypeRootNode.mapTypes, mapTypes, known]
  exact (reads_writeVarint _).bind ((reads_category category).bind ((reads_counter _).bind
    ((reads_counter _).bind ((reads_writeString fieldName).bind ((reads_writeVarint _).bind
      ((reads depth (by omega)).map _))))))

theorem writeRoots_reads (fits : all.dedup.length < 2 ^ 32) (roots : List TypeRootNode)
    (registered : Registered (entry names) all table types)
    (inside : roots.flatMap (·.node.typeIDs) ⊆ all) :
    Written (entry names) all table (roots.flatMap (·.node.typeIDs))
      (writeRoots names roots types).2 fun number =>
        ∀ depth, (∀ root ∈ roots, root.node.height ≤ depth) →
          Reads (Parser.times (root depth) roots.length)
            (writeRoots names roots types).1 (roots.map (·.mapTypes number)) := by
  induction roots generalizing table types with
  | nil => exact ⟨registered, fun _ _ _ _ _ => Reads.times_nil⟩
  | cons root rest ih =>
    rw [flatMap_cons, append_subset] at inside
    have first := writeRoot_reads fits root registered inside.1
    refine first.append (ih first.registered inside.2) ?_
    intro number readsFirst readsOthers depth deep
    rw [forall_mem_cons] at deep
    exact (readsFirst depth deep.1).times_cons (readsOthers depth deep.2)

theorem reads_entries (table : List Nat) (first : Nat) :
    Reads (Parser.times string table.length)
      (entriesFrom (entry names) first table) (table.map names.get) := by
  induction table generalizing first with
  | nil => exact Reads.times_nil
  | cons typeID rest ih => exact (reads_writeString _).times_cons (ih (first + 1))

/-!
### A file is longer than its trees are deep
-/

mutual

theorem height_le_length :
    ∀ (node : TypeTreeNode) (types : TypeTable), node.height ≤ (writeNode names node types).1.length
  | .mk typeID instanceCount totalSize children, types => by
    have below := heightOf_le_length children (registerType names types typeID).2
    have written := length_pos_iff.mpr (Leb128.encode_ne_nil (registerType names types typeID).1)
    simp only [height, writeNode, length_append, writeVarint_eq]
    omega

theorem heightOf_le_length :
    ∀ (nodes : List TypeTreeNode) (types : TypeTable),
      heightOf nodes ≤ (writeNodes names nodes types).1.length
  | [], _ => Nat.zero_le _
  | child :: rest, types => by
    have first := height_le_length child types
    have others := heightOf_le_length rest (writeNode names child types).2
    simp only [heightOf, writeNodes, length_append]
    omega

end

theorem root_height_le_length (root : TypeRootNode) (types : TypeTable) :
    root.node.height ≤ (writeRoot names root types).1.length := by
  rcases root with ⟨⟨typeID, instanceCount, totalSize, children⟩, category, fieldName⟩
  have below := @heightOf_le_length names children (registerType names types typeID).2
  simp only [TypeTreeNode.height, writeRoot, TypeRootNode.key, TypeTreeNode.typeID,
    TypeTreeNode.children, length_append, length_singleton]
  omega

theorem roots_height_le_length (roots : List TypeRootNode) (types : TypeTable) :
    ∀ root ∈ roots, root.node.height ≤ (writeRoots names roots types).1.length := by
  induction roots generalizing types with
  | nil => simp
  | cons first rest ih =>
    have here := @root_height_le_length names first types
    have others := ih (writeRoot names first types).2
    intro root mem
    simp only [writeRoots, length_append]
    rcases mem_cons.mp mem with rfl | inRest
    · omega
    · have := others root inRest
      omega

/-!
### The whole file
-/

def tableOf (tree : TypeReferenceTree) : List Nat := meetAll [] tree.typeIDs

/-- What the file of a tree holds: its types are numbered in the order in which they are met. -/
def snapshotOf (names : TypeNames) (tree : TypeReferenceTree) : Snapshot where
  typeNames := (tableOf tree).map names.get
  roots := tree.roots.map (·.mapTypes (tableOf tree).idxOf)

theorem reads_serialize {depth : Nat} (fits : tree.typeIDs.dedup.length < 2 ^ 32)
    (deep : ∀ root ∈ tree.roots, root.node.height ≤ depth) :
    Reads (file depth) (serialize (some names) tree) (snapshotOf names tree) := by
  rcases writeRoots_reads fits tree.roots registered_empty (List.Subset.refl _) with
    ⟨registered, reads⟩
  have body := reads _ (prefix_refl _) registered.nodup depth deep
  have entries : Reads
      (Parser.times string (writeRoots names tree.roots .empty).2.count)
      (writeRoots names tree.roots .empty).2.text ((tableOf tree).map names.get) := by
    rw [registered.count, registered.text]
    exact reads_entries _ 0
  have header : Reads (Parser.take 4) magic magic := @Reads.take UInt8 magic
  refine header.bind ?_
  rw [if_pos rfl]
  refine (reads_writeVarint formatVersion).bind ?_
  rw [if_pos (show formatVersion = 1 from rfl)]
  exact (reads_writeVarint _).bind ((reads_writeVarint _).bind (entries.bind (body.map _)))

theorem read_serialize (fits : tree.typeIDs.dedup.length < 2 ^ 32) :
    BinaryFormat.read (serialize (some names) tree) = some (snapshotOf names tree) := by
  have deep : ∀ root ∈ tree.roots, root.node.height ≤ (serialize (some names) tree).length := by
    intro root mem
    have here := @roots_height_le_length names tree.roots .empty root mem
    simp only [serialize, length_append]
    omega
  have whole := @reads_serialize names tree _ fits deep []
  rw [append_nil] at whole
  rw [BinaryFormat.read, whole]

theorem snapshotOf_shows (tree : TypeReferenceTree) : (snapshotOf names tree).Shows names tree := by
  refine ⟨(tableOf tree).idxOf, rfl, ?_, ?_⟩
  · intro typeID mem
    have inTable : typeID ∈ tableOf tree := subset_meetAll mem
    simp only [snapshotOf, getElem?_map, getElem?_idxOf inTable, Option.map_some]
  · intro first inTree second _ same
    exact (idxOf_inj (subset_meetAll inTree)).mp same

/-- A tree with fewer than `2 ^ 32` types is read back from its file. -/
theorem binary_round_trip (names : TypeNames) (tree : TypeReferenceTree)
    (fits : tree.typeIDs.dedup.length < 2 ^ 32) :
    (∃ snapshot, read (serialize (some names) tree) = some snapshot ∧
      snapshot.Shows names tree) ∧
      ∀ value < 2 ^ 64, (writeVarint value).length ≤ 10 := by
  refine ⟨⟨snapshotOf names tree, read_serialize fits, snapshotOf_shows tree⟩, ?_⟩
  intro value bound
  rw [writeVarint_eq]
  exact Leb128.length_encode_le bound

/-- A string below an object which it refers to, and a root of a type without a name. -/
theorem small_tree_round_trip :
    (∃ snapshot, read
        (serialize (some fun typeID => if typeID = 7 then some [0x53] else none)
          ⟨[⟨.mk 7 1 300 [.mk 9 2 48 []], .handle, []⟩,
            ⟨.mk 9 1 24 [], .staticVariable, [0x66]⟩]⟩) =
        some snapshot ∧
      snapshot.Shows (fun typeID => if typeID = 7 then some [0x53] else none)
        ⟨[⟨.mk 7 1 300 [.mk 9 2 48 []], .handle, []⟩, ⟨.mk 9 1 24 [], .staticVariable, [0x66]⟩]⟩) ∧
      ∀ value < 2 ^ 64, (writeVarint value).length ≤ 10 :=
  binary_round_trip _ _ (by decide)

/-!
### Too many types
-/

theorem count_writeRoots_ofTypes {typeIDs : List Nat} (distinct : typeIDs.Nodup)
    (unknown : ∀ typeID ∈ typeIDs, types.typeToIndex.get typeID = none)
    (bound : types.count < 2 ^ 32) :
    (writeRoots names (TypeReferenceTree.ofTypes typeIDs).roots types).2.count =
      (types.count + typeIDs.length) % 2 ^ 32 := by
  induction typeIDs generalizing types with
  | nil => exact (Nat.mod_eq_of_lt bound).symm
  | cons typeID rest ih =>
    rw [nodup_cons] at distinct
    rw [forall_mem_cons] at unknown
    rcases @TypeTable.registerType_new (entry names) _ _ unknown.1 with ⟨counted, kept⟩
    have others := @ih (TypeTable.registerType (entry names) types typeID).2 distinct.2 ?_ ?_
    · change (writeRoots names (TypeReferenceTree.ofTypes rest).roots
        (TypeTable.registerType (entry names) types typeID).2).2.count = _
      rw [others, counted, Nat.mod_add_mod, length_cons]
      omega
    · intro other mem
      rw [kept other (fun same => distinct.1 (same ▸ mem))]
      exact unknown.2 other mem
    · rw [counted]
      exact Nat.mod_lt _ (by decide)

theorem file_of_count (around : (writeRoots names tree.roots .empty).2.count = 0) (depth : Nat) :
    file depth (serialize (some names) tree) =
      contents depth 0 tree.roots.length
        ((writeRoots names tree.roots .empty).2.text ++
          (writeRoots names tree.roots .empty).1) := by
  have header : Reads (Parser.take 4) magic magic := @Reads.take UInt8 magic
  simp only [file, serialize, around]
  rw [header.bind_append, if_pos rfl, (reads_writeVarint formatVersion).bind_append,
    if_pos (show formatVersion = 1 from rfl), (reads_writeVarint 0).bind_append,
    (reads_writeVarint _).bind_append]

theorem typeNames_of_contents {input rest : List UInt8}
    (here : contents depth 0 rootCount input = some (snapshot, rest)) :
    snapshot.typeNames = [] := by
  rcases Parser.of_bind_eq_some here with ⟨typeNames, _, none, others⟩
  rcases Parser.of_bind_eq_some others with ⟨roots, _, _, last⟩
  cases none
  cases last
  rfl

theorem typeNames_of_count (around : (writeRoots names tree.roots .empty).2.count = 0)
    (here : BinaryFormat.read (serialize (some names) tree) = some snapshot) :
    snapshot.typeNames = [] := by
  rw [BinaryFormat.read, file_of_count around] at here
  split at here
  case h_1 found read =>
      cases here
      exact typeNames_of_contents read
  case h_2 => cases here

theorem count_writeRoots_range (around : count % 2 ^ 32 = 0) :
    (writeRoots names (TypeReferenceTree.ofTypes (range count)).roots .empty).2.count = 0 := by
  have counted := @count_writeRoots_ofTypes names .empty _ (@nodup_range count)
    (fun _ _ => rfl) (by decide)
  rw [length_range, empty, Nat.zero_add, around] at counted
  exact counted

theorem prefix_text_ofTypes (typeIDs : List Nat) (types : TypeTable) :
    types.text <+: (writeRoots names (TypeReferenceTree.ofTypes typeIDs).roots types).2.text := by
  induction typeIDs generalizing types with
  | nil => exact prefix_refl _
  | cons typeID rest ih => exact prefix_text_registerType.trans (ih _)

theorem text_ofTypes_cons (typeID : Nat) (rest : List Nat) :
    ∃ more, (writeRoots .unknown (TypeReferenceTree.ofTypes (typeID :: rest)).roots
      .empty).2.text = 1 :: 0x3F :: more := by
  rcases @prefix_text_ofTypes .unknown rest
    (TypeTable.registerType (entry .unknown) .empty typeID).2 with ⟨more, isText⟩
  have name : writeString [0x3F] = [1, 0x3F] := by decide
  have first : (TypeTable.registerType (entry .unknown) .empty typeID).2.text = [1, 0x3F] := by
    simp only [TypeTable.registerType, TypeTable.empty, nil_append]
    exact name
  rw [first] at isText
  exact ⟨more, isText.symm⟩

theorem contents_of_name {rest : List UInt8} (some : 0 < rootCount) :
    contents depth 0 rootCount (1 :: 0x3F :: rest) = none := by
  cases rootCount with
  | zero => cases some
  | succ rootCount => rfl

theorem read_eq_none_of_count (nonempty : 0 < count) (around : count % 2 ^ 32 = 0) :
    BinaryFormat.read (serialize (some .unknown) (.ofTypes (range count))) = none := by
  have counted := @count_writeRoots_range .unknown _ around
  rw [BinaryFormat.read, file_of_count counted]
  cases count with
  | zero => cases nonempty
  | succ count =>
    rw [range_succ_eq_map]
    rcases text_ofTypes_cons 0 (map Nat.succ (range count)) with ⟨more, isText⟩
    have some : 0 < (TypeReferenceTree.ofTypes
        (0 :: map Nat.succ (range count))).roots.length := Nat.succ_pos _
    rw [isText, cons_append, cons_append, contents_of_name some]

theorem not_shown_of_count (nonempty : 0 < count) (around : count % 2 ^ 32 = 0)
    (here : read (serialize (some names) (.ofTypes (range count))) = some snapshot) :
    ¬ snapshot.Shows names (.ofTypes (range count)) := by
  rintro ⟨number, -, named, -⟩
  have first := named 0 (TypeReferenceTree.mem_typeIDs_ofTypes (mem_range.mpr nonempty))
  rw [typeNames_of_count (count_writeRoots_range around) here] at first
  cases first

/-- With `2 ^ 32` types, no name is read. -/
theorem too_many_types_lost :
    ∃ tree : TypeReferenceTree, ∀ names : TypeNames,
      ¬ ∃ snapshot, read (serialize (some names) tree) = some snapshot ∧
        snapshot.Shows names tree := by
  refine ⟨.ofTypes (range (2 ^ 32)), ?_⟩
  rintro names ⟨snapshot, here, shown⟩
  exact not_shown_of_count (by decide) (by decide) here shown

end BinarySerializer

end Pyroscope.HeapSnapshot
