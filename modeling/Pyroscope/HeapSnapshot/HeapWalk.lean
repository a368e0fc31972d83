import Mathlib.Data.List.Perm.Subperm
import Pyroscope.HeapSnapshot.Traverser
import Pyroscope.HeapSnapshot.VisitedMap

/-!
# The walk counts every reference once

An object is put on the stack when it is visited for the first time, so the walk ends. It touches
the tree of no other root.
-/

namespace Pyroscope.HeapSnapshot

open List Option Bool

namespace Heap

variable (heap : Heap)

def classOf (address : Nat) : Nat := (heap.getClassFromObject address).getD 0

def sizeOf (address : Nat) : Nat := (heap.getObjectSize2 address).getD 0

theorem getD_getClassFromObject (address : Nat) :
    (heap.getClassFromObject address).getD 0 = heap.classOf address := rfl

theorem getD_getObjectSize2 (address : Nat) :
    (heap.getObjectSize2 address).getD 0 = heap.sizeOf address := rfl

def resolves (address : Nat) : Bool := heap.classOf address != 0 && heap.sizeOf address != 0

/-- The elements of an array of value types, as far as the profiling interface tells them. -/
def elementsOf (frame : TraversalFrame) : Option Nat := do
  let array ← heap.isArrayClass frame.classID
  let dimensionSizes ← heap.getArrayObjectInfo frame.objectAddress array.rank
  totalElements dimensionSizes 1

def referenceSlots (frame : TraversalFrame) : List Nat :=
  if heap.getSeriesCount frame.classID < 0 then
    heap.arraySlots frame.classID frame.objectAddress ((heap.elementsOf frame).getD 0)
  else heap.objectSlots frame.classID frame.objectAddress frame.objectSize

def targets (frame : TraversalFrame) : List Nat :=
  ((heap.referenceSlots frame).map heap.word).filter
    fun address => isValidObjectAddress address && heap.resolves address

end Heap

structure Reference where
  owner : TraversalFrame
  target : Nat

namespace Reference

def ofFrames (heap : Heap) (frames : List TraversalFrame) : List Reference :=
  frames.flatMap fun frame => (heap.targets frame).map (⟨frame, ·⟩)

variable (heap : Heap)

def path (reference : Reference) : List Nat :=
  reference.owner.treeNode ++ [heap.classOf reference.target]

def size (reference : Reference) : UInt64 := .ofNat (heap.sizeOf reference.target)

def into (path : List Nat) (references : List Reference) : List Reference :=
  references.filter fun reference => decide (reference.path heap = path)

def totalSize (references : List Reference) : UInt64 :=
  references.foldl (fun total reference => total + reference.size heap) 0

def addTo (path : List Nat) (references : List Reference) (counts : UInt64 × UInt64) :
    UInt64 × UInt64 :=
  (counts.1 + .ofNat (into heap path references).length,
    counts.2 + totalSize heap (into heap path references))

def count (references : List Reference) (node : TypeTreeNode) : TypeTreeNode :=
  references.foldl (fun node reference =>
    node.addReference reference.owner.treeNode (heap.classOf reference.target)
      (reference.size heap)) node

end Reference

namespace Traversal

variable {heap : Heap} {root : Nat} {start : TypeTreeNode} {processed more : List Reference}
  {popped : List TraversalFrame} {frame owner : TraversalFrame} {state : Traversal}
  {map : VisitedMap} {address : Nat}

theorem ne_zero_of_valid (valid : isValidObjectAddress address = true) : address ≠ 0 := by
  intro zero
  rw [zero] at valid
  exact absurd valid (by decide)

/-- The class which the set has for an address: 0 if the address does not resolve. -/
def entryOf (heap : Heap) (address : Nat) : Nat :=
  if heap.resolves address then heap.classOf address else 0

/-- The class of a visited object is that of the heap. -/
def Consistent (heap : Heap) (map : VisitedMap) : Prop :=
  ∀ address classID, map address = some classID → classID = entryOf heap address

theorem Consistent.insert (consistent : Consistent heap map) :
    Consistent heap (map.insert address (entryOf heap address)) := by
  intro other classID known
  simp only [VisitedMap.insert] at known
  split at known
  case isTrue same => rw [same, some.inj known]
  case isFalse => exact consistent other classID known

def counted (heap : Heap) (address : Nat) (parentNode : List Nat) (visited : VisitedObjectSet)
    (state : Traversal) : Traversal :=
  { state with
    visited := visited
    node := state.node.addReference parentNode (heap.classOf address)
      (.ofNat (heap.sizeOf address)) }

theorem processDiscoveredRef_eq (sound : state.visited.Sound map)
    (consistent : Consistent heap map) (nonZero : address ≠ 0) (parentNode : List Nat)
    (depth : Nat) :
    ∃ visited, state.visited.Leaves visited (map.insert address (entryOf heap address)) ∧
      processDiscoveredRef heap address parentNode depth state =
        some (if heap.resolves address then
          if (map address).isSome then counted heap address parentNode visited state
          else
            pushTraversalFrameIfScannable heap
              ⟨address, parentNode ++ [heap.classOf address], depth + 1, heap.classOf address,
                heap.sizeOf address⟩
              (counted heap address parentNode visited state)
        else { state with visited := visited }) := by
  rcases sound.tryInsert nonZero with ⟨slot, visited, inserted, read, here, leaves⟩
  cases known : map address with
  | some classID =>
    have entry := consistent address classID known
    simp only [known, isSome_some, if_true, getD_some] at inserted read leaves
    refine ⟨visited, entry ▸ leaves, ?_⟩
    simp only [processDiscoveredRef, inserted, read, bind_eq_bind, bind_some, isSome_some, if_true]
    cases resolves : heap.resolves address with
    | true =>
      have isClass : classID = heap.classOf address := by simpa [entryOf, resolves] using entry
      have nonZeroClass : classID ≠ 0 := by
        simp only [Heap.resolves, and_eq_true, bne_iff_ne] at resolves
        exact isClass ▸ resolves.1
      rw [if_pos nonZeroClass, isClass]
      rfl
    | false =>
      have isZero : classID = 0 := by simpa [entryOf, resolves] using entry
      rw [if_neg (by simpa using isZero)]
      rfl
  | none =>
    simp only [known, isSome_none, false_eq_true, if_false, getD_none] at inserted read leaves
    simp only [processDiscoveredRef, inserted, bind_eq_bind, bind_some,
      isSome_none, false_eq_true, if_false, heap.getD_getClassFromObject,
      heap.getD_getObjectSize2]
    cases resolves : heap.resolves address with
    | true =>
      refine ⟨visited.writeEntry slot (heap.classOf address), ?_, ?_⟩
      · rw [entryOf, if_pos resolves]
        exact leaves.writeEntry here nonZero
      · simp only [Heap.resolves, and_eq_true, bne_iff_ne] at resolves
        simp only [resolves.1, resolves.2, if_false, if_true]
        rfl
    | false =>
      refine ⟨visited, ?_, ?_⟩
      · rw [entryOf, if_neg (by simp [resolves])]
        exact leaves
      · simp only [Heap.resolves, and_eq_false_iff, bne_eq_false_iff_eq] at resolves
        rcases resolves with noClass | noSize
        · simp only [noClass, if_true]
          rfl
        · simp only [noSize, if_true, ite_self]
          rfl

/-- A root stands at the root's node, any other object below the owner of the first reference to it.
-/
structure Placed (heap : Heap) (root : Nat) (processed : List Reference)
    (frame : TraversalFrame) : Prop where
  nonZero : frame.objectAddress ≠ 0
  resolves : heap.resolves frame.objectAddress = true
  classID : frame.classID = heap.classOf frame.objectAddress
  objectSize : frame.objectSize = heap.sizeOf frame.objectAddress
  place : (frame.objectAddress = root ∧ frame.treeNode = []) ∨
    ∃ first, processed.find? (·.target == frame.objectAddress) = some first ∧
      frame.treeNode = first.path heap

theorem Placed.append (placed : Placed heap root processed frame) :
    Placed heap root (processed ++ more) frame := by
  refine ⟨placed.nonZero, placed.resolves, placed.classID, placed.objectSize, ?_⟩
  rcases placed.place with isRoot | ⟨first, found, place⟩
  · exact Or.inl isRoot
  · exact Or.inr ⟨first, by rw [find?_append, found, some_or], place⟩

theorem Placed.met (placed : Placed heap root processed frame) :
    frame.objectAddress = root ∨
      ∃ reference ∈ processed, reference.target = frame.objectAddress := by
  rcases placed.place with ⟨isRoot, _⟩ | ⟨first, found, _⟩
  · exact Or.inl isRoot
  · refine Or.inr ⟨first, mem_of_find?_eq_some found, ?_⟩
    simpa using find?_some found

/-- What the walk has done once it has taken the references `processed` and popped the frames
`popped`. -/
structure Progress (heap : Heap) (root : Nat) (start : TypeTreeNode) (processed : List Reference)
    (popped : List TraversalFrame) (state : Traversal) : Prop where
  visited : ∃ map, state.visited.Keeps map ∧ Consistent heap map ∧
    ∀ address, heap.resolves address = true → ((map address).isSome ↔
      address = root ∨ ∃ reference ∈ processed, reference.target = address)
  node : state.node = Reference.count heap processed start
  instances : state.node.instancesBelow = start.instancesBelow + .ofNat processed.length
  counts : ∀ path, (state.node.countsAt path).getD (0, 0) =
    Reference.addTo heap path processed ((start.countsAt path).getD (0, 0))
  present : ∀ frame ∈ popped ++ state.stack, (state.node.countsAt frame.treeNode).isSome
  placed : ∀ frame ∈ popped ++ state.stack, Placed heap root processed frame
  distinct : ((popped ++ state.stack).map TraversalFrame.objectAddress).Nodup

namespace Progress

theorem count_snoc (heap : Heap) (reference : Reference) (start : TypeTreeNode) :
    Reference.count heap (processed ++ [reference]) start =
      (Reference.count heap processed start).addReference reference.owner.treeNode
        (heap.classOf reference.target) (reference.size heap) := by
  rw [Reference.count, foldl_append]
  rfl

theorem addTo_snoc (heap : Heap) (reference : Reference) (path : List Nat)
    (counts : UInt64 × UInt64) :
    Reference.addTo heap path (processed ++ [reference]) counts =
      if reference.path heap = path then
        ((Reference.addTo heap path processed counts).1 + 1,
          (Reference.addTo heap path processed counts).2 + reference.size heap)
      else Reference.addTo heap path processed counts := by
  simp only [Reference.addTo, Reference.into, filter_append]
  split
  case isTrue same =>
    rw [filter_cons_of_pos (by simpa using same), filter_nil, length_append,
      UInt64.ofNat_add, ← UInt64.add_assoc, Reference.totalSize, foldl_append]
    simp only [foldl_cons, foldl_nil, ← UInt64.add_assoc]
    rfl
  case isFalse different =>
    rw [filter_cons_of_neg (by simpa using different), filter_nil, append_nil]

variable (progress : Progress heap root start processed popped state)
include progress

theorem counted (isPopped : owner ∈ popped) {visited : VisitedObjectSet} (keeps : visited.Keeps map)
    (consistent : Consistent heap map)
    (met : ∀ other, heap.resolves other = true → ((map other).isSome ↔
      other = root ∨ ∃ reference ∈ processed ++ [⟨owner, address⟩], reference.target = other)) :
    Progress heap root start (processed ++ [⟨owner, address⟩]) popped
      (Traversal.counted heap address owner.treeNode visited state) := by
  have ownerPresent := progress.present owner (mem_append_left _ isPopped)
  refine ⟨⟨map, keeps, consistent, met⟩, ?_, ?_, ?_, ?_, ?_, progress.distinct⟩
  · rw [count_snoc, ← progress.node]
    rfl
  · rw [length_append, UInt64.ofNat_add, ← UInt64.add_assoc, ← progress.instances]
    exact TypeTreeNode.instancesBelow_addReference ownerPresent
  · intro path
    rw [addTo_snoc, ← progress.counts path]
    simp only [Traversal.counted, TypeTreeNode.countsAt_addReference ownerPresent]
    split
    case isTrue same =>
      have here : Reference.path heap ⟨owner, address⟩ = path := same.symm
      rw [if_pos here]
      rfl
    case isFalse different =>
      have elsewhere : Reference.path heap ⟨owner, address⟩ ≠ path := Ne.symm different
      rw [if_neg elsewhere]
  · intro frame mem
    exact TypeTreeNode.isSome_countsAt_addReference ownerPresent
      (Or.inl (progress.present frame mem))
  · intro frame mem
    exact (progress.placed frame mem).append

theorem push (placed : Placed heap root processed frame)
    (present : (state.node.countsAt frame.treeNode).isSome)
    (unmet : ∀ other ∈ popped ++ state.stack, other.objectAddress ≠ frame.objectAddress) :
    Progress heap root start processed popped (pushTraversalFrameIfScannable heap frame state) := by
  simp only [pushTraversalFrameIfScannable]
  split
  case isFalse => exact progress
  case isTrue =>
    have members : ∀ other, other ∈ popped ++ frame :: state.stack ↔
        other = frame ∨ other ∈ popped ++ state.stack := by
      intro other
      simp only [mem_append, mem_cons]
      tauto
    refine ⟨progress.visited, progress.node, progress.instances, progress.counts, ?_, ?_, ?_⟩
    · intro other mem
      rcases (members other).mp mem with rfl | before
      · exact present
      · exact progress.present other before
    · intro other mem
      rcases (members other).mp mem with rfl | before
      · exact placed
      · exact progress.placed other before
    · have fresh : frame.objectAddress ∉
          (popped ++ state.stack).map TraversalFrame.objectAddress := by
        intro mem
        rcases mem_map.mp mem with ⟨other, there, same⟩
        exact unmet other there same
      have reordered : (popped ++ frame :: state.stack).Perm (frame :: (popped ++ state.stack)) :=
        perm_middle
      rw [(reordered.map _).nodup_iff, map_cons, nodup_cons]
      exact ⟨fresh, progress.distinct⟩

theorem processDiscoveredRef (isPopped : owner ∈ popped) (nonZero : address ≠ 0) :
    ∃ after,
      Traversal.processDiscoveredRef heap address owner.treeNode owner.depth state = some after ∧
      Progress heap root start
        (processed ++ if heap.resolves address then [⟨owner, address⟩] else []) popped after ∧
      after.scanned = state.scanned ∧ after.gcDescTrusted = state.gcDescTrusted := by
  rcases progress.visited with ⟨map, keeps, consistent, met⟩
  rcases processDiscoveredRef_eq keeps.sound consistent nonZero owner.treeNode owner.depth with
    ⟨visited, leaves, result⟩
  have after := leaves.keeps keeps.tracked
  refine ⟨_, result, ?_⟩
  cases resolves : heap.resolves address with
  | false =>
    refine ⟨?_, rfl, rfl⟩
    simp only [false_eq_true, if_false, append_nil]
    refine ⟨⟨_, after, consistent.insert, ?_⟩, progress.node, progress.instances,
      progress.counts, progress.present, progress.placed, progress.distinct⟩
    intro other otherResolves
    have different : other ≠ address := by
      intro same
      rw [same, resolves] at otherResolves
      exact false_ne_true otherResolves
    simpa only [VisitedMap.insert, if_neg different] using met other otherResolves
  | true =>
    have metAfter : ∀ other, heap.resolves other = true →
        ((map.insert address (entryOf heap address) other).isSome ↔ other = root ∨
          ∃ reference ∈ processed ++ [⟨owner, address⟩], reference.target = other) := by
      intro other otherResolves
      rcases Nat.decEq other address with different | same
      · simp [VisitedMap.insert, different, Ne.symm different, met other otherResolves]
      · simp [VisitedMap.insert, same]
    have done := progress.counted isPopped after consistent.insert metAfter
    simp only [if_true]
    split
    case isTrue => exact ⟨done, rfl, rfl⟩
    case isFalse unknown =>
      have unmet := fun isMet => unknown ((met address resolves).mpr isMet)
      have nowhere : processed.find? (·.target == address) = none := by
        rw [find?_eq_none]
        intro reference mem isTarget
        exact unmet (Or.inr ⟨reference, mem, by simpa using isTarget⟩)
      refine ⟨done.push ⟨nonZero, resolves, rfl, rfl, Or.inr ⟨⟨owner, address⟩, ?_, rfl⟩⟩ ?_ ?_,
        ?_, ?_⟩
      · rw [find?_append, nowhere]
        simp
      · apply TypeTreeNode.isSome_countsAt_addReference
        · exact progress.present owner (mem_append_left _ isPopped)
        · exact Or.inr rfl
      · intro other mem same
        rcases (progress.placed other mem).met with isRoot | isTarget
        · exact unmet (Or.inl (same.symm.trans isRoot))
        · exact unmet (Or.inr (by rwa [same] at isTarget))
      · simp only [pushTraversalFrameIfScannable]
        split <;> rfl
      · simp only [pushTraversalFrameIfScannable]
        split <;> rfl

theorem processObjectRef (isPopped : owner ∈ popped) (address : Nat) :
    ∃ after, Traversal.processObjectRef heap owner address state = some after ∧
      Progress heap root start (processed ++
        if isValidObjectAddress address && heap.resolves address then [⟨owner, address⟩] else [])
        popped after ∧
      after.scanned = state.scanned ∧ after.gcDescTrusted = state.gcDescTrusted := by
  simp only [Traversal.processObjectRef]
  cases valid : isValidObjectAddress address with
  | false => exact ⟨state, rfl, by simpa using progress, rfl, rfl⟩
  | true => simpa using progress.processDiscoveredRef isPopped (ne_zero_of_valid valid)

theorem enumerate (isPopped : owner ∈ popped) (slots : List Nat) :
    ∃ after, Traversal.enumerate heap (Traversal.processObjectRef heap owner) slots state =
        some after ∧
      Progress heap root start (processed ++ ((slots.map heap.word).filter fun address =>
        isValidObjectAddress address && heap.resolves address).map (⟨owner, ·⟩)) popped after ∧
      after.scanned = state.scanned ∧ after.gcDescTrusted = state.gcDescTrusted := by
  induction slots generalizing processed state with
  | nil => exact ⟨state, rfl, by simpa using progress, rfl, rfl⟩
  | cons slot rest ih =>
    rcases progress.processObjectRef isPopped (heap.word slot) with
      ⟨middle, result, step, sameScanned, sameTrust⟩
    rcases ih step with ⟨after, run, done, thenScanned, thenTrust⟩
    refine ⟨after, ?_, ?_, thenScanned.trans sameScanned, thenTrust.trans sameTrust⟩
    · simp only [Traversal.enumerate, result]
      split
      case isTrue => exact run
      case isFalse isNull =>
        -- A null slot is not passed on, which is what the callback would have done with it.
        have null : heap.word slot = 0 := by simpa using isNull
        have same : middle = state := by
          rw [null] at result
          exact (some.inj result).symm
        rw [← same]
        exact run
    · rw [map_cons, filter_cons]
      split
      case isTrue counts =>
        rw [if_pos counts, append_assoc] at done
        exact done
      case isFalse ignored =>
        rw [if_neg ignored, append_nil] at done
        exact done

end Progress

theorem processArrayRef_eq : processArrayRef heap frame = processObjectRef heap frame := by
  funext address state
  simp only [processArrayRef, processObjectRef]
  cases valid : isValidObjectAddress address with
  | false => simp
  | true => simp [ne_zero_of_valid valid]

/-- The traversals differ at most in what they have counted. -/
structure SameWalk (first second : Traversal) : Prop where
  visited : first.visited = second.visited
  stack : first.stack = second.stack
  node : first.node = second.node

theorem Progress.congr {other : Traversal}
    (progress : Progress heap root start processed popped state) (same : SameWalk other state) :
    Progress heap root start processed popped other := by
  rcases same with ⟨visited, stack, node⟩
  refine ⟨?_, ?_, ?_, ?_, ?_, ?_, ?_⟩
  · rw [visited]
    exact progress.visited
  · rw [node]
    exact progress.node
  · rw [node]
    exact progress.instances
  · rw [node]
    exact progress.counts
  · rw [stack, node]
    exact progress.present
  · rw [stack]
    exact progress.placed
  · rw [stack]
    exact progress.distinct

theorem runSelfTest_eq : SameWalk (runSelfTest heap frame state) state ∧
    (runSelfTest heap frame state).scanned = state.scanned := by
  simp only [runSelfTest]
  split
  case isTrue =>
    split
    case h_1 | h_2 | h_3 => exact ⟨⟨rfl, rfl, rfl⟩, rfl⟩
  case isFalse => exact ⟨⟨rfl, rfl, rfl⟩, rfl⟩

theorem enqueueValueTypeArrayChildren_eq (isArray : heap.getSeriesCount frame.classID < 0) :
    enqueueValueTypeArrayChildren heap frame state = some state ∨
      enqueueValueTypeArrayChildren heap frame state =
        enumerate heap (processObjectRef heap frame) (heap.referenceSlots frame)
          (markScanned frame state) := by
  simp only [enqueueValueTypeArrayChildren, Heap.referenceSlots, if_pos isArray, Heap.elementsOf,
    processArrayRef_eq]
  cases heap.isArrayClass frame.classID with
  | none => exact Or.inl rfl
  | some array =>
    simp only [bind_eq_bind, bind_some]
    split
    case isTrue => exact Or.inl rfl
    split
    case isTrue => exact Or.inl rfl
    cases heap.getArrayObjectInfo frame.objectAddress array.rank with
    | none => exact Or.inl rfl
    | some dimensionSizes =>
      simp only [bind_some]
      cases Heap.totalElements dimensionSizes 1 with
      | none => exact Or.inl rfl
      | some elements =>
        simp only [getD_some]
        split
        case isTrue => exact Or.inl rfl
        case isFalse => exact Or.inr rfl

theorem scanFrame_eq (heap : Heap) (frame : TraversalFrame) (state : Traversal) :
    ∃ tested, SameWalk tested state ∧ tested.scanned = state.scanned ∧
      (scanFrame heap frame state = some tested ∨
        scanFrame heap frame state =
          enumerate heap (processObjectRef heap frame) (heap.referenceSlots frame)
            (markScanned frame tested)) := by
  simp only [scanFrame]
  split
  case isTrue => exact ⟨state, ⟨rfl, rfl, rfl⟩, rfl, Or.inl rfl⟩
  split
  case isTrue => exact ⟨state, ⟨rfl, rfl, rfl⟩, rfl, Or.inl rfl⟩
  refine ⟨runSelfTest heap frame state, runSelfTest_eq.1, runSelfTest_eq.2, ?_⟩
  split
  case isTrue => exact Or.inl rfl
  split
  case isTrue isArray => exact enqueueValueTypeArrayChildren_eq isArray
  case isFalse notArray =>
    split
    case isTrue => exact Or.inl rfl
    case isFalse =>
      rw [Heap.referenceSlots, if_neg notArray]
      exact Or.inr rfl

theorem Progress.pop {rest : List TraversalFrame}
    (progress : Progress heap root start processed popped state)
    (top : state.stack = frame :: rest) :
    Progress heap root start processed (popped ++ [frame]) { state with stack := rest } := by
  have same : popped ++ [frame] ++ rest = popped ++ state.stack := by
    rw [top, append_assoc]
    rfl
  refine ⟨progress.visited, progress.node, progress.instances, progress.counts, ?_, ?_, ?_⟩
  · rw [same]
    exact progress.present
  · rw [same]
    exact progress.placed
  · rw [same]
    exact progress.distinct

theorem ofFrames_snoc (frames : List TraversalFrame) :
    Reference.ofFrames heap (frames ++ [frame]) =
      Reference.ofFrames heap frames ++ (heap.targets frame).map (⟨frame, ·⟩) := by
  simp [Reference.ofFrames]

theorem Progress.scanFrame (progress : Progress heap root start
      (Reference.ofFrames heap state.scanned) popped state)
    (isPopped : frame ∈ popped) :
    ∃ after, Traversal.scanFrame heap frame state = some after ∧
      Progress heap root start (Reference.ofFrames heap after.scanned) popped after ∧
      (after.scanned = state.scanned ∨ after.scanned = state.scanned ++ [frame]) := by
  rcases scanFrame_eq heap frame state with ⟨tested, same, before, skipped | scanned⟩
  · refine ⟨tested, skipped, ?_, Or.inl before⟩
    rw [before]
    exact progress.congr same
  · have marked : Progress heap root start (Reference.ofFrames heap state.scanned) popped
        (markScanned frame tested) :=
      progress.congr ⟨same.visited, same.stack, same.node⟩
    rcases marked.enumerate isPopped (heap.referenceSlots frame) with
      ⟨after, run, done, sameScanned, _⟩
    have appended : after.scanned = state.scanned ++ [frame] := by
      rw [sameScanned, markScanned, before]
    refine ⟨after, scanned.trans run, ?_, Or.inr appended⟩
    rw [appended, ofFrames_snoc]
    exact done

theorem Progress.initial
    (keeps : state.visited.Keeps (VisitedMap.empty.insert root (entryOf heap root)))
    (empty : state.stack = []) (same : state.node = start) :
    Progress heap root start [] [] state := by
  subst same
  have consistent : Consistent heap VisitedMap.empty := by
    intro address classID known
    exact absurd known (some_ne_none classID).symm
  refine ⟨⟨_, keeps, consistent.insert, ?_⟩, rfl, ?_, ?_, ?_, ?_, ?_⟩
  · intro address _
    simp [VisitedMap.insert, VisitedMap.empty]
  · exact (UInt64.add_zero _).symm
  · intro path
    simp [Reference.addTo, Reference.into, Reference.totalSize]
  · intro frame mem
    simp [empty] at mem
  · intro frame mem
    simp [empty] at mem
  · simp [empty]

theorem Progress.length_le (progress : Progress heap root start processed popped state) :
    popped.length + state.stack.length ≤ heap.objects.length := by
  have inside : (popped ++ state.stack).map TraversalFrame.objectAddress ⊆ heap.objects := by
    intro address mem
    rcases mem_map.mp mem with ⟨frame, there, rfl⟩
    have resolves := (progress.placed frame there).resolves
    simp only [Heap.resolves, and_eq_true, bne_iff_ne] at resolves
    exact heap.finite _ resolves.1 resolves.2
  have bound := (subperm_of_subset progress.distinct inside).length_le
  simpa using bound

/-- The walk ends, with as many rounds as there are objects. -/
theorem Progress.drain {fuel : Nat}
    (progress : Progress heap root start (Reference.ofFrames heap state.scanned) popped state)
    (sublist : state.scanned.Sublist popped)
    (enough : heap.objects.length ≤ fuel + popped.length) :
    ∃ after popped, drainTraversalStack heap fuel state = some after ∧
      Progress heap root start (Reference.ofFrames heap after.scanned) popped after ∧
      after.scanned.Sublist popped := by
  induction fuel generalizing popped state with
  | zero =>
    have bound := progress.length_le
    have empty : state.stack = [] := length_eq_zero_iff.mp (by omega)
    refine ⟨state, popped, ?_, progress, sublist⟩
    rw [drainTraversalStack, empty]
  | succ fuel ih =>
    cases top : state.stack with
    | nil =>
      refine ⟨state, popped, ?_, progress, sublist⟩
      rw [drainTraversalStack, top]
    | cons frame rest =>
      cases trusted : state.gcDescTrusted with
      | false =>
        refine ⟨state, popped, ?_, progress, sublist⟩
        rw [drainTraversalStack]
        simp [top, trusted]
      | true =>
        have isPopped : frame ∈ popped ++ [frame] := by simp
        have poppedProgress : Progress heap root start
            (Reference.ofFrames heap ({ state with stack := rest } : Traversal).scanned)
            (popped ++ [frame]) { state with stack := rest } := progress.pop top
        rcases poppedProgress.scanFrame isPopped with ⟨middle, step, done, scanned⟩
        have middleSublist : middle.scanned.Sublist (popped ++ [frame]) := by
          rcases scanned with same | more
          · rw [same]
            exact sublist.trans (sublist_append_left _ _)
          · rw [more]
            exact sublist.append (List.Sublist.refl _)
        rcases ih done middleSublist (by rw [length_append]; simp; omega) with
          ⟨after, poppedAfter, run, finished⟩
        refine ⟨after, poppedAfter, ?_, finished⟩
        rw [drainTraversalStack]
        simp only [top]
        rw [if_neg (by simp [trusted]), step]
        exact run

end Traversal

/-! ## The tree after the walk from a root -/

open Reference TypeReferenceTree

namespace TypeReferenceTree

variable {tree : TypeReferenceTree} {key other : RootKey} {size : UInt64}
  {fieldName : Option (List UInt8)} {node : TypeTreeNode}

def instancesBelow (tree : TypeReferenceTree) (key : RootKey) : UInt64 :=
  ((tree.rootNode key).map TypeTreeNode.instancesBelow).getD 0

def countsAt (tree : TypeReferenceTree) (key : RootKey) (path : List Nat) : UInt64 × UInt64 :=
  ((tree.rootNode key).bind (TypeTreeNode.countsAt path)).getD (0, 0)

theorem key_addInstance {root : TypeRootNode} :
    (root.addInstance size fieldName).key = root.key := by
  simp only [TypeRootNode.key, TypeRootNode.addInstance, TypeTreeNode.typeID_addInstance]

theorem key_mk : TypeRootNode.key ⟨.mk key.typeID 0 0 [], key.category, []⟩ = key := rfl

theorem rootNode_addRoot :
    (tree.addRoot key size fieldName).rootNode other =
      if other = key then
        some (((tree.rootNode key).getD (.mk key.typeID 0 0 [])).addInstance size)
      else tree.rootNode other := by
  simp only [rootNode, addRoot]
  rw [KeyedList.find_modify (fun _ same => key_addInstance.trans same), KeyedList.find_ensure,
    key_mk]
  split
  case isTrue same =>
    subst same
    cases KeyedList.find TypeRootNode.key other tree.roots with
    | none => rfl
    | some root => rfl
  case isFalse => rfl

theorem rootNode_setRootNode (present : (tree.rootNode key).isSome)
    (sameType : node.typeID = key.typeID) :
    (tree.setRootNode key node).rootNode other =
      if other = key then some node else tree.rootNode other := by
  have kept : ∀ root : TypeRootNode, root.key = key → ({ root with node := node }).key = key := by
    intro root same
    have category : root.category = key.category := congrArg RootKey.category same
    rw [TypeRootNode.key, sameType, category]
  simp only [rootNode, setRootNode]
  rw [KeyedList.find_modify kept]
  split
  case isTrue same =>
    subst same
    rcases isSome_iff_exists.mp present with ⟨old, found⟩
    rcases map_eq_some_iff.mp found with ⟨root, there, _⟩
    rw [there]
    rfl
  case isFalse => rfl

theorem typeID_rootNode (found : tree.rootNode key = some node) : node.typeID = key.typeID := by
  rcases map_eq_some_iff.mp found with ⟨root, there, rfl⟩
  exact congrArg RootKey.typeID (KeyedList.key_of_find there)

end TypeReferenceTree

namespace TypeTreeNode

variable {node : TypeTreeNode} {size : UInt64} {path : List Nat}

theorem typeID_count {heap : Heap} {references : List Reference} :
    (count heap references node).typeID = node.typeID := by
  induction references generalizing node with
  | nil => rfl
  | cons reference rest ih =>
    rw [Reference.count, foldl_cons, ← Reference.count, ih, typeID_addReference]

theorem instancesBelow_addInstance :
    (node.addInstance size).instancesBelow = node.instancesBelow := by
  cases node
  rfl

theorem countsAt_addInstance (below : path ≠ []) :
    countsAt path (node.addInstance size) = countsAt path node := by
  cases path with
  | nil => exact absurd rfl below
  | cons first rest => exact countsAt_addInstance_cons

end TypeTreeNode

namespace TypeReferenceTree

variable {tree after : TypeReferenceTree} {key : RootKey} {size : UInt64}
  {fieldName : Option (List UInt8)} {start node : TypeTreeNode}

theorem instancesBelow_addRoot
    (rooted : (tree.addRoot key size fieldName).rootNode key = some start) :
    start.instancesBelow = tree.instancesBelow key := by
  rw [rootNode_addRoot, if_pos rfl] at rooted
  rw [← some.inj rooted, TypeTreeNode.instancesBelow_addInstance, instancesBelow]
  cases tree.rootNode key with
  | none => rfl
  | some node => rfl

theorem countsAt_addRoot {path : List Nat} (below : path ≠ [])
    (rooted : (tree.addRoot key size fieldName).rootNode key = some start) :
    (start.countsAt path).getD (0, 0) = tree.countsAt key path := by
  rw [rootNode_addRoot, if_pos rfl] at rooted
  rw [← some.inj rooted, TypeTreeNode.countsAt_addInstance below, countsAt]
  cases tree.rootNode key with
  | none =>
    cases path with
    | nil => exact absurd rfl below
    | cons first rest => rfl
  | some node => rfl

end TypeReferenceTree

/-- The root is an object of the heap, with its class and its size. -/
structure Heap.IsObject (heap : Heap) (root : RootInfo (List UInt8)) : Prop where
  nonZero : root.address ≠ 0
  hasClass : heap.getClassFromObject root.address = some root.classID
  hasSize : heap.getObjectSize2 root.address = some root.objectSize
  classNonZero : root.classID ≠ 0
  sizeNonZero : root.objectSize ≠ 0

namespace ReferenceChainTraverser

variable {heap : Heap} {root : RootInfo (List UInt8)} {traverser : ReferenceChainTraverser}
  {fuel : Nat}

/-- The traverser can walk from a further root. -/
def Usable (traverser : ReferenceChainTraverser) : Prop :=
  (∃ map, traverser.visited.Sound map) ∧ traverser.visited.Tracked

theorem create_usable (tree : TypeReferenceTree) (capacity : Nat) : (create tree capacity).Usable :=
  ⟨⟨_, VisitedObjectSet.sound_create capacity⟩, Buckets.vacant_tracked⟩

theorem resolves_root (isObject : heap.IsObject root) :
    heap.resolves root.address = true ∧ heap.classOf root.address = root.classID ∧
      heap.sizeOf root.address = root.objectSize := by
  have isClass : heap.classOf root.address = root.classID := by
    rw [Heap.classOf, isObject.hasClass, getD_some]
  have isSize : heap.sizeOf root.address = root.objectSize := by
    rw [Heap.sizeOf, isObject.hasSize, getD_some]
  refine ⟨?_, isClass, isSize⟩
  simp [Heap.resolves, isClass, isSize, isObject.classNonZero, isObject.sizeNonZero]

theorem seedRoot_eq (isObject : heap.IsObject root) (usable : traverser.Usable) :
    ∃ start state,
      (traverser.tree.addRoot root.key (.ofNat root.objectSize) root.fieldName).rootNode root.key =
        some start ∧
      seedRoot heap root traverser = some
        (traverser.tree.addRoot root.key (.ofNat root.objectSize) root.fieldName, state) ∧
      state.scanned = [] ∧ Traversal.Progress heap root.address start [] [] state := by
  rcases resolves_root isObject with ⟨resolves, isClass, isSize⟩
  rcases usable with ⟨⟨map, sound⟩, tracked⟩
  have entry : Traversal.entryOf heap root.address = root.classID := by
    rw [Traversal.entryOf, if_pos resolves, isClass]
  have seeded : ∃ visited,
      traverser.visited.clear.markVisitedAndStore root.address root.classID = some visited ∧
      traverser.visited.clear.Leaves visited (VisitedMap.empty.insert root.address root.classID) :=
    (sound.clear tracked).sound.markVisitedAndStore isObject.nonZero
  have cleared := (sound.clear tracked).keeps fun _ => tracked
  rcases seeded with ⟨visited, marked, leaves⟩
  have rooted := @rootNode_addRoot traverser.tree root.key root.key
    (.ofNat root.objectSize) root.fieldName
  rw [if_pos rfl] at rooted
  refine ⟨_, _, rooted, by simp only [seedRoot, rooted, marked]; rfl, ?_, ?_⟩
  · simp only [Traversal.pushTraversalFrameIfScannable]
    split <;> rfl
  · apply Traversal.Progress.push
    · apply Traversal.Progress.initial
      · rw [entry]
        exact leaves.keeps cleared.tracked
      · rfl
      · rfl
    · exact ⟨isObject.nonZero, resolves, isClass.symm, isSize.symm, Or.inl ⟨rfl, rfl⟩⟩
    · rfl
    · intro other mem
      exact absurd mem (by simp)

/-- The walk from a root ends, scans no object twice, and counts every reference in the slots of
the objects it scans once: at the child for the class of its target, below the node where the
first reference to its owner has put the owner. The traverser can be used for the next root. -/
theorem walk_counts_references (heap : Heap) (root : RootInfo (List UInt8))
    (traverser : ReferenceChainTraverser) (fuel : Nat) (isObject : heap.IsObject root)
    (usable : traverser.Usable) (enough : heap.objects.length ≤ fuel) :
    ∃ after scanned,
      traverser.traverseFromSingleRoot heap fuel root = some (after, scanned) ∧
      (scanned.map TraversalFrame.objectAddress).Nodup ∧
      after.tree.instancesBelow root.key =
        traverser.tree.instancesBelow root.key + .ofNat (ofFrames heap scanned).length ∧
      (∀ path, path ≠ [] → after.tree.countsAt root.key path =
        addTo heap path (ofFrames heap scanned) (traverser.tree.countsAt root.key path)) ∧
      (∀ frame ∈ scanned, frame.classID = heap.classOf frame.objectAddress ∧
        frame.objectSize = heap.sizeOf frame.objectAddress ∧
        ((frame.objectAddress = root.address ∧ frame.treeNode = []) ∨
          ∃ first, (ofFrames heap scanned).find? (·.target == frame.objectAddress) =
            some first ∧ frame.treeNode = first.path heap)) ∧
      (∀ key, key ≠ root.key → after.tree.rootNode key = traverser.tree.rootNode key) ∧
      (after.visited.capacity ≤ 2 ^ 32 → after.Usable) := by
  simp only [traverseFromSingleRoot]
  split
  case isTrue =>
    refine ⟨traverser, [], rfl, List.nodup_nil, ?_, ?_, ?_, fun _ _ => rfl, fun _ => usable⟩
    · exact (UInt64.add_zero _).symm
    · intro path _
      simp [ofFrames, addTo, into, totalSize]
    · intro frame mem
      exact absurd mem List.not_mem_nil
  case isFalse =>
    rcases seedRoot_eq isObject usable with ⟨start, state, rooted, seeded, nothing, progress⟩
    have begun : Traversal.Progress heap root.address start
        (ofFrames heap state.scanned) [] state := by
      rw [nothing]
      exact progress
    have sublist : state.scanned.Sublist [] := by
      rw [nothing]
    rcases begun.drain sublist (by simpa using enough) with ⟨final, popped, run, done, ordered⟩
    have sameType : final.node.typeID = root.key.typeID := by
      rw [done.node, TypeTreeNode.typeID_count]
      exact typeID_rootNode rooted
    have rootAfter := @rootNode_setRootNode _ _ root.key _ (by rw [rooted]; rfl) sameType
    rw [if_pos rfl] at rootAfter
    refine ⟨_, final.scanned, by
      simp only [seeded, run, bind_eq_bind, bind_some]
      rfl, ?_, ?_, ?_, ?_, ?_, ?_⟩
    · apply List.Nodup.sublist _ done.distinct
      exact (ordered.trans (List.sublist_append_left _ _)).map _
    · rw [instancesBelow, rootAfter, map_some, getD_some,
        done.instances, instancesBelow_addRoot rooted]
    · intro path below
      rw [countsAt, rootAfter, bind_some, done.counts, countsAt_addRoot below rooted]
    · intro frame mem
      have placed := done.placed frame (List.mem_append_left _ (ordered.mem mem))
      exact ⟨placed.classID, placed.objectSize, placed.place⟩
    · intro key different
      have kept := @rootNode_setRootNode _ _ key _ (by rw [rooted]; rfl) sameType
      rw [if_neg different, rootNode_addRoot, if_neg different] at kept
      exact kept
    · intro small
      rcases done.visited with ⟨map, keeps, -⟩
      exact ⟨⟨map, keeps.sound⟩, keeps.tracked small⟩

/-- An object refers to itself and to an array of value types, which refers back to both. -/
def cyclicHeap : Heap where
  word address :=
    if address = 0x10008 ∨ address = 0x20010 then 0x10000
    else if address = 0x10010 ∨ address = 0x20020 then 0x20000
    else 0
  methodTable classID :=
    if classID = 1 then ⟨0x01000000, fun index => [0, 1, 8, -8].getD index 0⟩
    else ⟨0x01000000, fun index => [0, -1, 16, 2 ^ 35 + 1].getD index 0⟩
  getClassFromObject address :=
    if address = 0x10000 then some 1 else if address = 0x20000 then some 2 else none
  getObjectSize2 address :=
    if address = 0x10000 then some 24 else if address = 0x20000 then some 48 else none
  isArrayClass classID := if classID = 2 then some ⟨true, 3, 1⟩ else none
  getArrayObjectInfo _ _ := some [2]
  getClassLayout _ := some 2
  objects := [0x10000, 0x20000]
  finite := by
    intro address isClass _
    by_cases first : address = 0x10000
    · simp [first]
    · by_cases second : address = 0x20000
      · simp [second]
      · simp [first, second] at isClass

def cyclicRoot : RootInfo (List UInt8) := ⟨0x10000, .stack, 1, 24, none⟩

theorem cyclic_heap_counted :
    ∃ after scanned,
      (create .empty 0).traverseFromSingleRoot cyclicHeap 2 cyclicRoot = some (after, scanned) ∧
      scanned.map TraversalFrame.objectAddress = [0x10000, 0x20000] ∧
      after.tree.instancesBelow cyclicRoot.key = 0 + .ofNat (ofFrames cyclicHeap scanned).length ∧
      after.tree.instancesBelow cyclicRoot.key = 4 := by
  have isObject : cyclicHeap.IsObject cyclicRoot :=
    ⟨by decide, rfl, rfl, by decide, by decide⟩
  rcases walk_counts_references cyclicHeap cyclicRoot (create .empty 0) 2 isObject
    (create_usable _ _) (by decide) with ⟨after, scanned, run, _, below, _⟩
  have evaluated : ((create .empty 0).traverseFromSingleRoot cyclicHeap 2 cyclicRoot).map
      (fun result => (result.2.map TraversalFrame.objectAddress,
        result.1.tree.instancesBelow cyclicRoot.key)) = some ([0x10000, 0x20000], 4) := by
    decide +kernel
  rw [run, map_some, some.injEq, Prod.mk.injEq] at evaluated
  exact ⟨after, scanned, run, evaluated.1, below, evaluated.2⟩

end ReferenceChainTraverser

end Pyroscope.HeapSnapshot
