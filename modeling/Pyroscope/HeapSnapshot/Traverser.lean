import Mathlib.Algebra.Ring.Int.Defs
import Pyroscope.HeapSnapshot.TypeReferenceTree
import Pyroscope.HeapSnapshot.VisitedObjectSet

/-!
# Walking the heap from a root

The walk has an explicit stack and counts every reference it meets. No read faults, and no type has
inline value types.
-/

namespace Pyroscope.HeapSnapshot

open List

structure MethodTable where
  flags : Nat
  /-- The word that many words before the method table. -/
  wordBefore : Nat → Int

structure ArrayClass where
  elementIsValueType : Bool
  elementClassID : Nat
  rank : Nat

/-- The heap of a suspended runtime. Finitely many addresses have an object. -/
structure Heap where
  word : Nat → Nat
  methodTable : Nat → MethodTable
  getClassFromObject : Nat → Option Nat
  getObjectSize2 : Nat → Option Nat
  isArrayClass : Nat → Option ArrayClass
  /-- The sizes of the dimensions of an array, given its address and rank. -/
  getArrayObjectInfo : Nat → Nat → Option (List Nat)
  getClassLayout : Nat → Option Nat
  objects : List Nat
  finite : ∀ address, (getClassFromObject address).getD 0 ≠ 0 →
    (getObjectSize2 address).getD 0 ≠ 0 → address ∈ objects

inductive SelfTestResult where
  | pending
  | passed
  | failed
deriving DecidableEq

namespace Heap

variable (heap : Heap)

/-!
### Reading GC descriptors
-/

def containsGCPointers (classID : Nat) : Bool :=
  classID != 0 && (heap.methodTable classID).flags &&& 0x01000000 != 0

def getSeriesCount (classID : Nat) : Int := (heap.methodTable classID).wordBefore 1

def looksLikeValidSeriesCount (count : Int) (objectSize : Nat) : Bool :=
  count != 0 && decide (count.natAbs ≤ objectSize / 8 + 1)

def seriesSlots (objectAddress objectSize : Nat) (encodedSize offset : Int) : List Nat :=
  let rangeSize := encodedSize + objectSize
  if rangeSize ≤ 0 then []
  else if offset < 0 ∨ objectSize < offset ∨ objectSize < offset + rangeSize then []
  else (range (rangeSize.toNat / 8)).map fun index => objectAddress + offset.toNat + index * 8

def objectSlots (classID objectAddress objectSize : Nat) : List Nat :=
  let table := heap.methodTable classID
  let seriesCount := table.wordBefore 1
  if seriesCount ≤ 0 then []
  else if !looksLikeValidSeriesCount seriesCount objectSize then []
  else (range' 1 seriesCount.toNat).flatMap fun index =>
    seriesSlots objectAddress objectSize (table.wordBefore (2 * index + 1))
      (table.wordBefore (2 * index))

def getNptrs (item : Int) : Nat := (item % 2 ^ 32).toNat

def getSkip (item : Int) : Nat := (item / 2 ^ 32 % 2 ^ 32).toNat

/-- The slots of one element of an array of value types, and where the next element starts. -/
def elementSlots : List Int → Nat → List Nat × Nat
  | [], current => ([], current)
  | item :: rest, current =>
    let pointers := (range (getNptrs item)).map fun index => current + index * 8
    let (slots, next) := elementSlots rest (current + getNptrs item * 8 + getSkip item)
    (pointers ++ slots, next)

def elementsSlots (items : List Int) : Nat → Nat → List Nat
  | 0, _ => []
  | elements + 1, current =>
    let (slots, next) := elementSlots items current
    slots ++ elementsSlots items elements next

def maxValSerieItems : Nat := 0xFFFF

def arraySlots (arrayClassID arrayAddress totalElements : Nat) : List Nat :=
  let table := heap.methodTable arrayClassID
  let seriesCount := table.wordBefore 1
  let startOffset := table.wordBefore 2
  if 0 ≤ seriesCount then []
  else if maxValSerieItems < seriesCount.natAbs then []
  else if startOffset < 0 then []
  else elementsSlots ((range seriesCount.natAbs).map fun index => table.wordBefore (3 + index))
    totalElements (arrayAddress + startOffset.toNat)

def validateAgainstMetadata (classID objectSize : Nat) : SelfTestResult :=
  if classID = 0 then .pending
  else if (heap.isArrayClass classID).isSome then .pending
  else
    match heap.getClassLayout classID with
    | none => .pending
    | some fieldCount =>
      if heap.containsGCPointers classID then
        if !looksLikeValidSeriesCount (heap.getSeriesCount classID) objectSize then .failed
        else if fieldCount = 0 then .failed
        else .passed
      else .pending

def totalElements : List Nat → Nat → Option Nat
  | [], total => some total
  | dimension :: rest, total =>
    if dimension ≠ 0 ∧ (2 ^ 64 - 1) / dimension < total then none
    else totalElements rest (total * dimension)

end Heap

def isValidObjectAddress (address : Nat) : Bool :=
  decide (0x10000 ≤ address) && address % 8 == 0

structure TraversalFrame where
  objectAddress : Nat
  treeNode : List Nat
  depth : Nat
  classID : Nat
  objectSize : Nat
deriving DecidableEq

/-- The walk from one root, with the root's node of the tree and the frames whose slots have been
read. -/
structure Traversal where
  visited : VisitedObjectSet
  stack : List TraversalFrame
  node : TypeTreeNode
  gcDescTrusted : Bool
  selfTest : SelfTestResult
  selfTestObjectsChecked : Nat
  scanned : List TraversalFrame

namespace Traversal

variable (heap : Heap)

def maxTreeDepth : Nat := 128

def maxSelfTestObjects : Nat := 8

variable (frame : TraversalFrame)
variable (state : Traversal)

def pushTraversalFrameIfScannable : Traversal :=
  if heap.containsGCPointers frame.classID then { state with stack := frame :: state.stack }
  else state

def processDiscoveredRef (refAddress : Nat) (parentNode : List Nat) (depth : Nat)
    (state : Traversal) : Option Traversal := do
  let (result, slot, visited) ← state.visited.tryInsert refAddress
  match result with
  | .inserted =>
    let targetClassID := (heap.getClassFromObject refAddress).getD 0
    let targetSize := (heap.getObjectSize2 refAddress).getD 0
    if targetClassID = 0 then some { state with visited := visited }
    else if targetSize = 0 then some { state with visited := visited }
    else
      some (pushTraversalFrameIfScannable heap
        ⟨refAddress, parentNode ++ [targetClassID], depth + 1, targetClassID, targetSize⟩
        { state with
          visited := visited.writeEntry slot targetClassID
          node := state.node.addReference parentNode targetClassID (.ofNat targetSize) })
  | .alreadyPresent =>
    let classID := visited.readEntry slot
    if classID ≠ 0 then
      let revisitSize := (heap.getObjectSize2 refAddress).getD 0
      some { state with
        visited := visited
        node := state.node.addReference parentNode classID (.ofNat revisitSize) }
    else some { state with visited := visited }

/-- What both enumerators do with a slot: they pass on what it holds unless it is null. -/
def enumerate (callback : Nat → Traversal → Option Traversal) :
    List Nat → Traversal → Option Traversal
  | [], state => some state
  | slot :: rest, state =>
    if heap.word slot ≠ 0 then
      match callback (heap.word slot) state with
      | none => none
      | some state => enumerate callback rest state
    else enumerate callback rest state

def processObjectRef (refAddr : Nat) (state : Traversal) :
    Option Traversal :=
  if isValidObjectAddress refAddr then
    processDiscoveredRef heap refAddr frame.treeNode frame.depth state
  else some state

/-- The callback of the array path, which repeats the statements of `ProcessDiscoveredRef`. -/
def processArrayRef (refAddr : Nat) (state : Traversal) :
    Option Traversal :=
  if refAddr = 0 ∨ ¬ isValidObjectAddress refAddr then some state
  else processDiscoveredRef heap refAddr frame.treeNode frame.depth state

def markScanned : Traversal :=
  { state with scanned := state.scanned ++ [frame] }

def enqueueValueTypeArrayChildren : Option Traversal :=
  match heap.isArrayClass frame.classID with
  | none => some state
  | some array =>
    if array.rank = 0 ∨ ¬ array.elementIsValueType then some state
    else if array.elementClassID = 0 ∨ ¬ heap.containsGCPointers array.elementClassID then
      some state
    else
      match heap.getArrayObjectInfo frame.objectAddress array.rank with
      | none => some state
      | some dimensionSizes =>
        match Heap.totalElements dimensionSizes 1 with
        | none => some state
        | some elements =>
          if elements = 0 then some state
          else
            enumerate heap (processArrayRef heap frame)
              (heap.arraySlots frame.classID frame.objectAddress elements)
              (markScanned frame state)

def runSelfTest : Traversal :=
  if state.selfTest = .pending ∧ state.selfTestObjectsChecked < maxSelfTestObjects then
    let state := { state with selfTestObjectsChecked := state.selfTestObjectsChecked + 1 }
    match heap.validateAgainstMetadata frame.classID frame.objectSize with
    | .failed => { state with gcDescTrusted := false, selfTest := .failed }
    | .passed => { state with selfTest := .passed }
    | .pending => state
  else state

/-- One round of the loop of `DrainTraversalStack`, for the frame which it has popped. -/
def scanFrame : Option Traversal :=
  if maxTreeDepth < frame.depth then some state
  else if !heap.containsGCPointers frame.classID then some state
  else
    let state := runSelfTest heap frame state
    if !state.gcDescTrusted then some state
    else
      let seriesCount := heap.getSeriesCount frame.classID
      if seriesCount < 0 then enqueueValueTypeArrayChildren heap frame state
      else if seriesCount = 0 then some state
      else
        enumerate heap (processObjectRef heap frame)
          (heap.objectSlots frame.classID frame.objectAddress frame.objectSize)
          (markScanned frame state)

/-- The loop goes on while there are frames and the self-test has not failed. -/
def drainTraversalStack : Nat → Traversal → Option Traversal
  | fuel, state =>
    match state.stack with
    | [] => some state
    | frame :: rest =>
      if !state.gcDescTrusted then some state
      else
        match fuel with
        | 0 => none
        | fuel + 1 =>
          match scanFrame heap frame { state with stack := rest } with
          | none => none
          | some state => drainTraversalStack fuel state

end Traversal

inductive TraversalStopReason where
  | none
  | faultBudgetExhausted
  | unexpectedException
  | faultGuardUnavailable
deriving DecidableEq

structure ReferenceChainTraverser where
  tree : TypeReferenceTree
  visited : VisitedObjectSet
  gcDescTrusted : Bool
  selfTest : SelfTestResult
  selfTestObjectsChecked : Nat
  stopReason : TraversalStopReason

namespace ReferenceChainTraverser

def create (tree : TypeReferenceTree) (visitedSetInitialCapacity : Nat) :
    ReferenceChainTraverser where
  tree := tree
  visited := .create visitedSetInitialCapacity
  gcDescTrusted := true
  selfTest := .pending
  selfTestObjectsChecked := 0
  stopReason := .none

/-- `SeedRoot`: the root is counted, and the walk starts with its frame alone. -/
def seedRoot (heap : Heap) (root : RootInfo (List UInt8)) (traverser : ReferenceChainTraverser) :
    Option (TypeReferenceTree × Traversal) := do
  let tree := traverser.tree.addRoot root.key (.ofNat root.objectSize) root.fieldName
  let node ← tree.rootNode root.key
  let visited ← traverser.visited.clear.markVisitedAndStore root.address root.classID
  some (tree, Traversal.pushTraversalFrameIfScannable heap
    ⟨root.address, [], 1, root.classID, root.objectSize⟩
    { visited := visited
      stack := []
      node := node
      gcDescTrusted := traverser.gcDescTrusted
      selfTest := traverser.selfTest
      selfTestObjectsChecked := traverser.selfTestObjectsChecked
      scanned := [] })

def traverseFromSingleRoot (heap : Heap) (fuel : Nat) (root : RootInfo (List UInt8))
    (traverser : ReferenceChainTraverser) :
    Option (ReferenceChainTraverser × List TraversalFrame) :=
  if !traverser.gcDescTrusted || traverser.stopReason != .none then some (traverser, [])
  else do
    let (tree, start) ← seedRoot heap root traverser
    let final ← Traversal.drainTraversalStack heap fuel start
    some ({ traverser with
      tree := tree.setRootNode root.key final.node
      visited := final.visited
      gcDescTrusted := final.gcDescTrusted
      selfTest := final.selfTest
      selfTestObjectsChecked := final.selfTestObjectsChecked }, final.scanned)

end ReferenceChainTraverser

end Pyroscope.HeapSnapshot
