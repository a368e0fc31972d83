import Mathlib.Algebra.Order.Ring.Nat
import Pyroscope.HeapSnapshot.TypeReferenceTree
import Pyroscope.Lib.Dictionary
import Pyroscope.Lib.Reading

/-!
# Event payloads and the heap dump listener

Memory is a total function, of which `cbEventData` says which part belongs to the event. The bulk
handlers read the elements without looking at it.
-/

namespace Pyroscope.ClrEvents

inductive PointerSize where
  | bits32
  | bits64
  deriving DecidableEq

structure Platform where
  pointerSize : PointerSize
  order : NativeWord.ByteOrder
  deriving DecidableEq

/-- `sizeof(uintptr_t)`, which is also `sizeof(size_t)`. -/
def Platform.sizeofPointer (platform : Platform) : Nat :=
  match platform.pointerSize with
  | .bits32 => 4
  | .bits64 => 8

def Platform.sizeLimit (platform : Platform) : Nat := 2 ^ (8 * platform.sizeofPointer)

structure EventData where
  payload : List UInt8
  beyond : Nat → UInt8
  isULong : payload.length < 2 ^ 32

def EventData.cbEventData (data : EventData) : Nat := data.payload.length

def EventData.memory (data : EventData) (index : Nat) : UInt8 :=
  data.payload.getD index (data.beyond index)

def sizeofWChar : Nat := 2

def fieldAt (platform : Platform) (bytes : List UInt8) (offset size : Nat) : Nat :=
  NativeWord.ofBytes platform.order ((bytes.drop offset).take size)

section EventsParserHelper

variable (platform : Platform) (data : EventData)

/-- `EventsParserHelper::Read`: the bytes and the new offset, if they are all in the payload. -/
def read (size offset : Nat) : Reading (Option (List UInt8 × Nat)) :=
  if offset + size > data.cbEventData then
    pure none
  else
    Reading.bytes data.memory offset size >>= fun bytes => pure (some (bytes, offset + size))

def readInteger (size offset : Nat) : Reading (Option (Nat × Nat)) :=
  Option.map (Prod.map (NativeWord.ofBytes platform.order) id) <$> read data size offset

def wideCharAt (start position : Nat) : Reading Nat :=
  Reading.word platform.order data.memory (start + sizeofWChar * position) sizeofWChar

/-- `std::char_traits<WCHAR>::find` of the null character among the first `maxChars` ones. -/
def findNull (fuel start maxChars : Nat) : Reading (Option Nat) :=
  Reading.forLoop platform.sizeLimit maxChars
    (fun position found =>
      wideCharAt platform data start position >>= fun char =>
        pure (if char = 0 then .done (some position) else .yield found))
    fuel 0 none

/-- `EventsParserHelper::ReadWideString`: where the string starts, with the offset behind
its terminating null character. -/
def readWideString (fuel offset : Nat) : Reading (Option (Nat × Nat)) :=
  if offset ≥ data.cbEventData then
    pure none
  else
    findNull platform data fuel offset ((data.cbEventData - offset) / sizeofWChar) >>= fun found =>
      pure (found.map fun length => (offset, offset + (length + 1) * sizeofWChar))

/-- `shared::ToString` and `shared::WSTRING` of a pointer into the payload. -/
def wideString (fuel start : Nat) : Reading (List Nat) :=
  Reading.untilZero (wideCharAt platform data start) fuel 0

end EventsParserHelper

/-- The text at `start` ends with a null inside the event. -/
def Terminated (platform : Platform) (data : EventData) (start : Nat) : Prop :=
  ∃ length, start + sizeofWChar * (length + 1) ≤ data.cbEventData ∧
    (wideCharAt platform data start length).value = some 0

section Safety

variable {platform : Platform} {data : EventData} {fuel : Nat}

theorem pow_le_sizeLimit (platform : Platform) : 2 ^ 32 ≤ platform.sizeLimit := by
  rcases platform with ⟨_ | _, order⟩ <;> simp [Platform.sizeLimit, Platform.sizeofPointer]

theorem read_ensures (size offset : Nat) :
    Reading.Ensures data.cbEventData (read data size offset) fun found =>
      found = if offset + size ≤ data.cbEventData then
        some ((List.range' offset size).map data.memory, offset + size) else none := by
  unfold read
  split
  case isTrue short =>
    rw [if_neg (Nat.not_le_of_gt short)]
    exact .pure rfl
  case isFalse long =>
    have fits := Nat.le_of_not_gt long
    rw [if_pos fits]
    apply (Reading.Ensures.bytes data.memory fits).bind
    rintro bytes rfl
    exact .pure rfl

theorem read_safe (size offset : Nat) :
    Reading.Ensures data.cbEventData (read data size offset) fun _ => True :=
  (read_ensures size offset).weaken fun _ _ => trivial

theorem readInteger_safe (size offset : Nat) :
    Reading.Ensures data.cbEventData (readInteger platform data size offset) fun _ => True := by
  apply (read_safe size offset).map
  exact fun _ _ => trivial

theorem wideCharAt_ensures {start position : Nat}
    (fits : start + sizeofWChar * (position + 1) ≤ data.cbEventData) :
    Reading.Ensures data.cbEventData (wideCharAt platform data start position)
      ((wideCharAt platform data start position).value = some ·) := by
  simp only [sizeofWChar] at fits
  have inside : start + sizeofWChar * position + sizeofWChar ≤ data.cbEventData := by
    simp only [sizeofWChar]
    omega
  apply (Reading.Ensures.word platform.order data.memory inside).weaken
  rintro char rfl
  rfl

theorem findNull_ensures {start maxChars : Nat}
    (fits : start + sizeofWChar * maxChars ≤ data.cbEventData)
    (enough : data.cbEventData < fuel) :
    Reading.Ensures data.cbEventData (findNull platform data fuel start maxChars) fun found =>
      ∀ length, found = some length →
        length < maxChars ∧ (wideCharAt platform data start length).value = some 0 := by
  have isULong : data.cbEventData < 2 ^ 32 := data.isULong
  have limit := pow_le_sizeLimit platform
  simp only [sizeofWChar] at fits
  apply Reading.Ensures.forLoop (fun _ found => found = none) (by omega)
  · rintro found rfl length none_eq
    cases none_eq
  · rintro position found before rfl
    have inside : start + sizeofWChar * (position + 1) ≤ data.cbEventData := by
      simp only [sizeofWChar]
      omega
    apply (wideCharAt_ensures inside).bind
    intro char got
    apply Reading.Ensures.pure
    split
    case isTrue isNull =>
      intro length same
      cases same
      exact ⟨before, isNull ▸ got⟩
    case isFalse => rfl
  · omega
  · omega
  · rfl

theorem readWideString_ensures (offset : Nat) (enough : data.cbEventData < fuel) :
    Reading.Ensures data.cbEventData (readWideString platform data fuel offset) fun result =>
      ∀ text, result = some text → Terminated platform data text.1 := by
  unfold readWideString
  split
  case isTrue => exact .pure (by simp)
  case isFalse starts =>
    have fits : offset + sizeofWChar * ((data.cbEventData - offset) / sizeofWChar) ≤
        data.cbEventData := by
      have := Nat.mul_div_le (data.cbEventData - offset) sizeofWChar
      omega
    apply (findNull_ensures fits enough).bind
    intro found isNull
    apply Reading.Ensures.pure
    intro text same
    cases found with
    | none => cases same
    | some length =>
      cases same
      rcases isNull length rfl with ⟨before, null⟩
      refine ⟨length, ?_, null⟩
      exact Nat.le_trans (Nat.add_le_add_left (Nat.mul_le_mul_left _ before) _) fits

theorem wideString_ensures {start : Nat} (terminated : Terminated platform data start)
    (enough : data.cbEventData < fuel) :
    Reading.Ensures data.cbEventData (wideString platform data fuel start) fun _ => True := by
  rcases terminated with ⟨length, fits, null⟩
  have inside : ∀ position ≤ length, start + sizeofWChar * (position + 1) ≤ data.cbEventData := by
    intro position upTo
    simp only [sizeofWChar] at fits ⊢
    omega
  apply Reading.Ensures.untilZero
    (fun position => (wideCharAt platform data start position).value.getD 0) length
  · intro position upTo
    apply (wideCharAt_ensures (inside position upTo)).weaken
    intro char got
    simp [got]
  · simp [null]
  · exact Nat.zero_le length
  · simp only [sizeofWChar] at fits
    omega

end Safety

/-! ## The heap dump listener -/

open Reading
open Pyroscope.HeapSnapshot (RootCategory RootInfo)

structure ClassHistogramEntry where
  className : String
  instanceCount : UInt64
  totalSize : UInt64
  deriving DecidableEq

/-- The field name of a root is where it starts in the payload. -/
structure HeapSnapshot where
  objectCount : UInt64
  totalSize : UInt64
  classHistogram : Dictionary Nat ClassHistogramEntry
  roots : List (RootInfo Nat)

def HeapSnapshot.empty : HeapSnapshot := ⟨0, 0, .empty, []⟩

/-- How far the traverser gets with a root; a node of its type and category may have a name already.
-/
inductive RootVisit where
  | skipped
  | named
  | unnamed
  deriving DecidableEq

structure HeapSnapshotManager where
  getTypeName : Nat → Option String
  getClassFromObject : Nat → Option Nat
  getObjectSize2 : Nat → Option Nat
  isDebugEnabled : Bool
  referenceChainTraverser : Option (RootInfo Nat → RootVisit)

structure GCBulkRootStaticVarValue where
  gcRootId : Nat
  objectId : Nat
  typeId : Nat
  flags : Nat
  deriving DecidableEq

def GCRootFlags.pinning : Nat := 1

def GCRootFlags.interior : Nat := 4

section Layout

variable (platform : Platform)

def sizeofGCBulkNodeValue : Nat := platform.sizeofPointer + 8 + 8 + 8

def sizeofGCBulkRootEdgeValue : Nat := platform.sizeofPointer + 1 + 4 + platform.sizeofPointer

def sizeofGCBulkRootStaticVarValue : Nat := 8 + 8 + 8 + 4

def toUIntPtr (id : Nat) : Nat := id % platform.sizeLimit

def rootCategory (kind flags : Nat) : RootCategory :=
  if kind = 0 then .stack
  else if kind = 1 then .finalizer
  else if kind = 2 then if flags &&& GCRootFlags.pinning ≠ 0 then .pinning else .handle
  else if kind = 3 then .other
  else .unknown

end Layout

/-- The last of `count` elements lies below a bound, up to the fields behind its used part. -/
def ElementsFit (start size used count bound : Nat) : Prop :=
  count = 0 ∨ start + size * (count - 1) + used ≤ bound

instance (start size used count bound : Nat) :
    Decidable (ElementsFit start size used count bound) :=
  inferInstanceAs (Decidable (_ ∨ _))

namespace HeapSnapshotManager

variable (manager : HeapSnapshotManager) (platform : Platform) (data : EventData) (fuel : Nat)

def countNode (size typeId : Nat) (snapshot : HeapSnapshot) : HeapSnapshot :=
  let classId := toUIntPtr platform typeId
  let sized := { snapshot with totalSize := snapshot.totalSize + UInt64.ofNat size }
  match snapshot.classHistogram.get classId with
  | none =>
    match manager.getTypeName classId with
    | some className =>
      { sized with
        classHistogram := snapshot.classHistogram.set classId ⟨className, 1, UInt64.ofNat size⟩ }
    | none => sized
  | some entry =>
    { sized with
      classHistogram := snapshot.classHistogram.set classId
        { entry with
          instanceCount := entry.instanceCount + 1
          totalSize := entry.totalSize + UInt64.ofNat size } }

def onBulkNodes (count nodes : Nat) (snapshot : HeapSnapshot) : Reading HeapSnapshot :=
  let field offset := word platform.order data.memory offset 8
  forLoop platform.sizeLimit count
    (fun i snapshot =>
      let node := nodes + sizeofGCBulkNodeValue platform * i
      field (node + platform.sizeofPointer) >>= fun size =>
        field (node + platform.sizeofPointer + 8) >>= fun typeId =>
          pure (.yield (manager.countNode platform size typeId snapshot)))
    fuel 0 { snapshot with objectCount := snapshot.objectCount + UInt64.ofNat count }

def onBulkEdges (_count _edges : Nat) (snapshot : HeapSnapshot) : Reading HeapSnapshot :=
  pure snapshot

def addRootEdge (address kind flags : Nat) (snapshot : HeapSnapshot) : HeapSnapshot :=
  match manager.getClassFromObject address, manager.getObjectSize2 address with
  | some classId, some size =>
    if manager.referenceChainTraverser.isSome then
      { snapshot with
        roots := snapshot.roots ++ [⟨address, rootCategory kind flags, classId, size, none⟩] }
    else
      snapshot
  | _, _ => snapshot

def onBulkRootEdges (count roots : Nat) (snapshot : HeapSnapshot) : Reading HeapSnapshot :=
  let field offset size := word platform.order data.memory offset size
  forLoop platform.sizeLimit count
    (fun i snapshot =>
      let root := roots + sizeofGCBulkRootEdgeValue platform * i
      field (root + platform.sizeofPointer + 1) 4 >>= fun flags =>
        if flags &&& GCRootFlags.interior ≠ 0 then
          pure (.yield snapshot)
        else
          field (root + platform.sizeofPointer) 1 >>= fun kind =>
            field root platform.sizeofPointer >>= fun address =>
              pure (.yield (manager.addRootEdge address kind flags snapshot)))
    fuel 0 snapshot

/-- `TypeRootNode::AddInstance` takes over the name of the field for a node without one. -/
def takeFieldName (fieldName : Nat) : RootVisit → Reading Unit
  | .skipped => pure ()
  | .named => wideCharAt platform data fieldName 0 >>= fun _ => pure ()
  | .unnamed =>
    wideCharAt platform data fieldName 0 >>= fun first =>
      if first = 0 then pure ()
      else wideString platform data fuel fieldName >>= fun _ => pure ()

def onBulkRootStaticVar (root : GCBulkRootStaticVarValue) (fieldName : Nat)
    (snapshot : HeapSnapshot) : Reading HeapSnapshot :=
  match manager.getObjectSize2 (toUIntPtr platform root.objectId) with
  | none =>
    if manager.isDebugEnabled then
      wideString platform data fuel fieldName >>= fun _ => pure snapshot
    else
      pure snapshot
  | some size =>
    let rootInfo : RootInfo Nat :=
      ⟨toUIntPtr platform root.objectId, .staticVariable, toUIntPtr platform root.typeId, size,
        some fieldName⟩
    match manager.referenceChainTraverser with
    | none => pure snapshot
    | some visit =>
      takeFieldName platform data fuel fieldName (visit rootInfo) >>= fun _ =>
        pure { snapshot with roots := snapshot.roots ++ [rootInfo] }

section Safety

variable {manager : HeapSnapshotManager} {platform : Platform} {data : EventData} {fuel : Nat}
  {fieldName : Nat}

theorem elementsFit_iff {start size used count bound : Nat} :
    (∀ i, 0 ≤ i → i < count → start + size * i + used ≤ bound) ↔
      ElementsFit start size used count bound := by
  constructor
  · intro fit
    rcases Nat.eq_zero_or_pos count with none | some
    · exact .inl none
    · exact .inr (fit (count - 1) (Nat.zero_le _) (by omega))
  · rintro (none | last) i - before
    · omega
    · have upTo : size * i ≤ size * (count - 1) := Nat.mul_le_mul_left size (by omega)
      omega

theorem sizeofPointer_pos (platform : Platform) : 0 < platform.sizeofPointer := by
  rcases platform with ⟨_ | _, order⟩ <;> simp [Platform.sizeofPointer]

theorem onBulkNodes_reads {count nodes bound : Nat} (isUInt32 : count < 2 ^ 32)
    (enough : count < fuel) (snapshot : HeapSnapshot) :
    Reading.Exactly bound (manager.onBulkNodes platform data fuel count nodes snapshot)
      (ElementsFit nodes (sizeofGCBulkNodeValue platform) (platform.sizeofPointer + 16) count
        bound) := by
  have limit := pow_le_sizeLimit platform
  rw [← elementsFit_iff]
  apply forLoop_rounds (by omega)
  · intro i state before
    exact ⟨_, rfl⟩
  · intro i state before
    simp only [within_bind, within_word, within_pure]
    constructor
    · rintro ⟨-, inside⟩
      have := (inside _ rfl).1
      omega
    · intro inside
      refine ⟨by omega, fun _ _ => ⟨by omega, fun _ _ => trivial⟩⟩
  · exact Nat.zero_le count
  · omega

theorem onBulkRootEdges_reads {count roots bound : Nat} (isUInt32 : count < 2 ^ 32)
    (enough : count < fuel) (snapshot : HeapSnapshot) :
    Reading.Exactly bound (manager.onBulkRootEdges platform data fuel count roots snapshot)
      (ElementsFit roots (sizeofGCBulkRootEdgeValue platform) (platform.sizeofPointer + 5) count
        bound) := by
  have limit := pow_le_sizeLimit platform
  have pointer := sizeofPointer_pos platform
  rw [← elementsFit_iff]
  apply forLoop_rounds (by omega)
  · intro i state before
    rw [value_bind (value_word ..)]
    split
    · exact ⟨_, rfl⟩
    · exact ⟨_, rfl⟩
  · intro i state before
    rw [within_bind, within_word]
    constructor
    · rintro ⟨inside, -⟩
      omega
    · intro inside
      refine ⟨by omega, fun flags _ => ?_⟩
      split
      · exact within_pure
      · simp only [within_bind, within_word, within_pure]
        exact ⟨by omega, fun _ _ => ⟨by omega, fun _ _ => trivial⟩⟩
  · exact Nat.zero_le count
  · omega

theorem takeFieldName_ensures (terminated : Terminated platform data fieldName)
    (enough : data.cbEventData < fuel) (visit : RootVisit) :
    Reading.Ensures data.cbEventData (takeFieldName platform data fuel fieldName visit)
      fun _ => True := by
  have first : fieldName + sizeofWChar * (0 + 1) ≤ data.cbEventData := by
    rcases terminated with ⟨length, fits, -⟩
    simp only [sizeofWChar] at fits ⊢
    omega
  cases visit with
  | skipped => exact .pure trivial
  | named =>
    apply (wideCharAt_ensures first).bind
    exact fun _ _ => .pure trivial
  | unnamed =>
    apply (wideCharAt_ensures first).bind
    intro char _
    split
    · exact .pure trivial
    · apply (wideString_ensures terminated enough).bind
      exact fun _ _ => .pure trivial

theorem onBulkRootStaticVar_ensures (terminated : Terminated platform data fieldName)
    (enough : data.cbEventData < fuel) (root : GCBulkRootStaticVarValue) (snapshot : HeapSnapshot) :
    Reading.Ensures data.cbEventData
      (manager.onBulkRootStaticVar platform data fuel root fieldName snapshot) fun _ => True := by
  unfold onBulkRootStaticVar
  split
  · split
    · apply (wideString_ensures terminated enough).bind
      exact fun _ _ => .pure trivial
    · exact .pure trivial
  · split
    · exact .pure trivial
    · apply (takeFieldName_ensures terminated enough _).bind
      exact fun _ _ => .pure trivial

end Safety

end HeapSnapshotManager

end Pyroscope.ClrEvents
