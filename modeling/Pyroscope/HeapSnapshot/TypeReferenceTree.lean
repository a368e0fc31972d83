import Pyroscope.Lib.KeyedList

/-!
# The type reference tree

A pointer to a node is the path of the types which lead to it. A reference adds one instance and the
size of the object to the child for its class.
-/

namespace Pyroscope.HeapSnapshot

inductive RootCategory where
  | stack
  | staticVariable
  | finalizer
  | handle
  | pinning
  | conditionalWeakTable
  | com
  | other
  | unknown
deriving DecidableEq

inductive TypeTreeNode where
  | mk (typeID : Nat) (instanceCount totalSize : UInt64) (children : List TypeTreeNode)
deriving Repr

namespace TypeTreeNode

def typeID : TypeTreeNode → Nat
  | mk typeID _ _ _ => typeID

def instanceCount : TypeTreeNode → UInt64
  | mk _ instanceCount _ _ => instanceCount

def totalSize : TypeTreeNode → UInt64
  | mk _ _ totalSize _ => totalSize

def children : TypeTreeNode → List TypeTreeNode
  | mk _ _ _ children => children

def addInstance (size : UInt64) : TypeTreeNode → TypeTreeNode
  | mk typeID instanceCount totalSize children =>
    mk typeID (instanceCount + 1) (totalSize + size) children

def getChild (childTypeID : Nat) (node : TypeTreeNode) : Option TypeTreeNode :=
  KeyedList.find typeID childTypeID node.children

def getOrCreateChild (childTypeID : Nat) : TypeTreeNode → TypeTreeNode
  | mk typeID instanceCount totalSize children =>
    mk typeID instanceCount totalSize
      (KeyedList.ensure TypeTreeNode.typeID (mk childTypeID 0 0 []) children)

/-- What a call on the node which `path` points to does to the whole tree. -/
def modifyAt : List Nat → (TypeTreeNode → TypeTreeNode) → TypeTreeNode → TypeTreeNode
  | [], change, node => change node
  | childTypeID :: path, change, mk typeID instanceCount totalSize children =>
    mk typeID instanceCount totalSize
      (KeyedList.modify TypeTreeNode.typeID childTypeID (modifyAt path change) children)

def nodeAt : List Nat → TypeTreeNode → Option TypeTreeNode
  | [], node => some node
  | childTypeID :: path, node => (node.getChild childTypeID).bind (nodeAt path)

/-- One reference to an object of the given class and size, from the node at `path`. -/
def addReference (path : List Nat) (classID : Nat) (size : UInt64) (node : TypeTreeNode) :
    TypeTreeNode :=
  modifyAt (path ++ [classID]) (addInstance size) (modifyAt path (getOrCreateChild classID) node)

mutual

def instances : TypeTreeNode → UInt64
  | mk _ instanceCount _ children => instanceCount + instancesOf children

def instancesOf : List TypeTreeNode → UInt64
  | [] => 0
  | child :: rest => child.instances + instancesOf rest

end

mutual

def mapTypes (change : Nat → Nat) : TypeTreeNode → TypeTreeNode
  | mk typeID instanceCount totalSize children =>
    mk (change typeID) instanceCount totalSize (mapTypesOf change children)

def mapTypesOf (change : Nat → Nat) : List TypeTreeNode → List TypeTreeNode
  | [] => []
  | child :: rest => child.mapTypes change :: mapTypesOf change rest

end

mutual

def typeIDs : TypeTreeNode → List Nat
  | mk typeID _ _ children => typeID :: typeIDsOf children

def typeIDsOf : List TypeTreeNode → List Nat
  | [] => []
  | child :: rest => child.typeIDs ++ typeIDsOf rest

end

mutual

def height : TypeTreeNode → Nat
  | mk _ _ _ children => heightOf children + 1

def heightOf : List TypeTreeNode → Nat
  | [] => 0
  | child :: rest => max child.height (heightOf rest)

end

def instancesBelow (node : TypeTreeNode) : UInt64 := instancesOf node.children

def countsAt (path : List Nat) (node : TypeTreeNode) : Option (UInt64 × UInt64) :=
  (node.nodeAt path).map fun found => (found.instanceCount, found.totalSize)

end TypeTreeNode

structure RootKey where
  typeID : Nat
  category : RootCategory
deriving DecidableEq

/-- A root which the runtime reports; the name of a static field is a pointer or the text itself. -/
structure RootInfo (FieldName : Type) where
  address : Nat
  category : RootCategory
  classID : Nat
  objectSize : Nat
  fieldName : Option FieldName
deriving DecidableEq

def RootInfo.key {FieldName : Type} (root : RootInfo FieldName) : RootKey :=
  ⟨root.classID, root.category⟩

structure TypeRootNode where
  node : TypeTreeNode
  category : RootCategory
  fieldName : List UInt8

namespace TypeRootNode

def key (root : TypeRootNode) : RootKey := ⟨root.node.typeID, root.category⟩

def mapTypes (change : Nat → Nat) (root : TypeRootNode) : TypeRootNode :=
  { root with node := root.node.mapTypes change }

def addInstance (size : UInt64) (field : Option (List UInt8)) (root : TypeRootNode) :
    TypeRootNode :=
  { root with
    node := root.node.addInstance size
    fieldName := if root.fieldName = [] then field.getD [] else root.fieldName }

end TypeRootNode

structure TypeReferenceTree where
  roots : List TypeRootNode

namespace TypeReferenceTree

def empty : TypeReferenceTree := ⟨[]⟩

def typeIDs (tree : TypeReferenceTree) : List Nat := tree.roots.flatMap (·.node.typeIDs)

def ofTypes (typeIDs : List Nat) : TypeReferenceTree :=
  ⟨typeIDs.map fun typeID => ⟨.mk typeID 0 0 [], .stack, []⟩⟩

theorem mem_typeIDs_ofTypes {types : List Nat} {typeID : Nat} (member : typeID ∈ types) :
    typeID ∈ (ofTypes types).typeIDs := by
  simp only [typeIDs, ofTypes, List.mem_flatMap, List.mem_map]
  exact ⟨_, ⟨typeID, member, rfl⟩, List.mem_singleton_self typeID⟩

variable (tree : TypeReferenceTree)

def addRoot (key : RootKey) (size : UInt64)
    (fieldName : Option (List UInt8)) : TypeReferenceTree :=
  let created :=
    KeyedList.ensure TypeRootNode.key ⟨.mk key.typeID 0 0 [], key.category, []⟩ tree.roots
  ⟨KeyedList.modify TypeRootNode.key key (·.addInstance size fieldName) created⟩

def rootNode (key : RootKey) : Option TypeTreeNode :=
  (KeyedList.find TypeRootNode.key key tree.roots).map (·.node)

def setRootNode (key : RootKey) (node : TypeTreeNode) :
    TypeReferenceTree :=
  ⟨KeyedList.modify TypeRootNode.key key (fun root => { root with node := node }) tree.roots⟩

end TypeReferenceTree


end Pyroscope.HeapSnapshot

namespace Pyroscope.HeapSnapshot.TypeTreeNode

/-! ## What a reference adds to the tree -/

open KeyedList Option List

variable {node child : TypeTreeNode} {path other : List Nat} {classID key : Nat}
  {size : UInt64} {change : TypeTreeNode → TypeTreeNode} {nodes : List TypeTreeNode}
  {instanceCount totalSize : UInt64}

theorem instancesOf_modify (found : KeyedList.find typeID classID nodes = some child)
    (more : (change child).instances = child.instances + 1) :
    instancesOf (KeyedList.modify typeID classID change nodes) = instancesOf nodes + 1 := by
  induction nodes with
  | nil => exact absurd found (by simp [KeyedList.find])
  | cons first rest ih =>
    simp only [KeyedList.modify]
    split
    case isTrue here =>
      rw [KeyedList.find_cons_of_eq here] at found
      cases found
      rw [instancesOf, instancesOf, more, UInt64.add_assoc, UInt64.add_comm 1, ← UInt64.add_assoc]
    case isFalse elsewhere =>
      rw [KeyedList.find_cons_of_ne elsewhere] at found
      rw [instancesOf, instancesOf, ih found, UInt64.add_assoc]

theorem instancesOf_append (rest : List TypeTreeNode) :
    instancesOf (nodes ++ rest) = instancesOf nodes + instancesOf rest := by
  induction nodes with
  | nil => rw [nil_append, instancesOf, UInt64.zero_add]
  | cons first others ih => rw [cons_append, instancesOf, instancesOf, ih, UInt64.add_assoc]

/-!
### The two steps of a reference
-/

theorem typeID_mk {typeID : Nat} :
    (mk typeID instanceCount totalSize nodes).typeID = typeID := rfl

theorem typeID_addInstance : (addInstance size node).typeID = node.typeID := by
  cases node
  rfl

theorem typeID_getOrCreateChild : (getOrCreateChild classID node).typeID = node.typeID := by
  cases node
  rfl

theorem typeID_modifyAt (kept : ∀ node, (change node).typeID = node.typeID) :
    (modifyAt path change node).typeID = node.typeID := by
  cases path with
  | nil => exact kept node
  | cons first rest =>
    cases node
    rfl

def countChild (classID : Nat) (size : UInt64) (nodes : List TypeTreeNode) : List TypeTreeNode :=
  modify typeID classID (addInstance size) (ensure typeID (mk classID 0 0 []) nodes)

theorem addReference_nil {typeID : Nat} :
    addReference [] classID size (mk typeID instanceCount totalSize nodes) =
      mk typeID instanceCount totalSize (countChild classID size nodes) := rfl

theorem addReference_cons {typeID : Nat} :
    addReference (key :: path) classID size (mk typeID instanceCount totalSize nodes) =
      mk typeID instanceCount totalSize
        (modify TypeTreeNode.typeID key (addReference path classID size) nodes) := by
  simp only [addReference, cons_append, modifyAt]
  rw [modify_modify]
  · rfl
  · intro node same
    exact (typeID_modifyAt (fun _ => typeID_getOrCreateChild)).trans same

theorem typeID_addReference : (addReference path classID size node).typeID = node.typeID := by
  rw [addReference, typeID_modifyAt (fun _ => typeID_addInstance),
    typeID_modifyAt (fun _ => typeID_getOrCreateChild)]

theorem instancesOf_ensure :
    instancesOf (ensure typeID (mk classID 0 0 []) nodes) = instancesOf nodes := by
  simp only [ensure]
  split
  case isTrue => rfl
  case isFalse => simp [instancesOf_append, instancesOf, instances]

theorem instancesOf_countChild :
    instancesOf (countChild classID size nodes) = instancesOf nodes + 1 := by
  have counted : ∀ node, (addInstance size node).instances = node.instances + 1 := by
    rintro ⟨typeID, instanceCount, totalSize, children⟩
    simp only [addInstance, instances]
    rw [UInt64.add_assoc, UInt64.add_comm 1, ← UInt64.add_assoc]
  have found : find typeID classID
      (ensure typeID (mk classID 0 0 []) nodes) =
        some ((find typeID classID nodes).getD (mk classID 0 0 [])) := by
    rw [find_ensure, typeID_mk, if_pos rfl]
  rw [countChild, instancesOf_modify found (counted _), instancesOf_ensure]

/-!
### What is at a path
-/

theorem countsAt_cons {typeID : Nat} :
    countsAt (key :: path) (mk typeID instanceCount totalSize nodes) =
      (find TypeTreeNode.typeID key nodes).bind (countsAt path) := by
  simp only [countsAt, nodeAt, getChild, children, map_bind]
  rfl

theorem countsAt_addInstance_cons :
    countsAt (key :: path) (addInstance size node) = countsAt (key :: path) node := by
  cases node
  rfl

theorem countsAt_child (there : (countsAt path node).isSome) :
    countsAt other (modifyAt path (getOrCreateChild classID) node) =
      if other = path ++ [classID] then some ((countsAt other node).getD (0, 0))
      else countsAt other node := by
  induction path generalizing node other with
  | nil =>
    rcases node with ⟨typeID, instanceCount, totalSize, nodes⟩
    simp only [modifyAt, getOrCreateChild]
    cases other with
    | nil => rfl
    | cons key rest =>
      rw [countsAt_cons, countsAt_cons, find_ensure, typeID_mk]
      by_cases same : key = classID
      · subst same
        rw [if_pos rfl, bind_some]
        cases rest with
        | nil =>
          rw [nil_append, if_pos rfl]
          cases find TypeTreeNode.typeID key nodes with
          | none => rfl
          | some child => rfl
        | cons second rest =>
          rw [if_neg (by simp)]
          cases find TypeTreeNode.typeID key nodes with
          | none => rfl
          | some child => rfl
      · rw [if_neg same, if_neg (by simp [same])]
  | cons first path ih =>
    rcases node with ⟨typeID, instanceCount, totalSize, nodes⟩
    simp only [modifyAt]
    cases other with
    | nil => rfl
    | cons key rest =>
      rw [countsAt_cons, countsAt_cons, find_modify fun _ same =>
        (typeID_modifyAt fun _ => typeID_getOrCreateChild).trans same]
      by_cases same : key = first
      · subst same
        rw [countsAt_cons] at there
        rcases isSome_iff_exists.mp there with ⟨counts, found⟩
        rcases bind_eq_some_iff.mp found with ⟨child, here, below⟩
        rw [if_pos rfl, here, map_some, bind_some, bind_some, ih (by rw [below]; rfl)]
        simp
      · rw [if_neg same, if_neg (by simp [same])]

theorem countsAt_modifyAt_addInstance :
    countsAt other (modifyAt path (addInstance size) node) =
      if other = path then (countsAt other node).map fun counts => (counts.1 + 1, counts.2 + size)
      else countsAt other node := by
  induction path generalizing node other with
  | nil =>
    rcases node with ⟨typeID, instanceCount, totalSize, nodes⟩
    cases other with
    | nil => rfl
    | cons key rest =>
      rw [if_neg (by simp)]
      exact countsAt_addInstance_cons
  | cons first path ih =>
    rcases node with ⟨typeID, instanceCount, totalSize, nodes⟩
    simp only [modifyAt]
    cases other with
    | nil => rfl
    | cons key rest =>
      rw [countsAt_cons, countsAt_cons, find_modify fun _ same =>
        (typeID_modifyAt fun _ => typeID_addInstance).trans same]
      by_cases same : key = first
      · subst same
        rw [if_pos rfl]
        cases find TypeTreeNode.typeID key nodes with
        | none => simp
        | some child => simp [ih]
      · rw [if_neg same, if_neg (by simp [same])]

/-- A reference counts for the child of its class at its path, and for no other node. -/
theorem countsAt_addReference (there : (countsAt path node).isSome) :
    countsAt other (addReference path classID size node) =
      if other = path ++ [classID] then
        some (((countsAt other node).getD (0, 0)).1 + 1,
          ((countsAt other node).getD (0, 0)).2 + size)
      else countsAt other node := by
  rw [addReference, countsAt_modifyAt_addInstance, countsAt_child there]
  split
  case isTrue => rfl
  case isFalse => rfl

theorem isSome_countsAt_addReference (there : (countsAt path node).isSome)
    (known : (countsAt other node).isSome ∨ other = path ++ [classID]) :
    (countsAt other (addReference path classID size node)).isSome := by
  rw [countsAt_addReference there]
  split
  case isTrue => rfl
  case isFalse different => exact known.resolve_right different

theorem instances_eq : node.instances = node.instanceCount + node.instancesBelow := by
  cases node
  rfl

theorem instanceCount_addReference :
    (addReference path classID size node).instanceCount = node.instanceCount := by
  rcases node with ⟨typeID, instanceCount, totalSize, nodes⟩
  cases path with
  | nil => rw [addReference_nil]; rfl
  | cons first path => rw [addReference_cons]; rfl

theorem instancesBelow_addReference (there : (countsAt path node).isSome) :
    (addReference path classID size node).instancesBelow = node.instancesBelow + 1 := by
  induction path generalizing node with
  | nil =>
    rcases node with ⟨typeID, instanceCount, totalSize, nodes⟩
    rw [addReference_nil]
    exact instancesOf_countChild
  | cons first path ih =>
    rcases node with ⟨typeID, instanceCount, totalSize, nodes⟩
    rw [countsAt_cons] at there
    rcases isSome_iff_exists.mp there with ⟨counts, found⟩
    rcases bind_eq_some_iff.mp found with ⟨child, here, below⟩
    rw [addReference_cons]
    apply instancesOf_modify here
    have more : (addReference path classID size child).instancesBelow =
        child.instancesBelow + 1 := ih (by rw [below]; rfl)
    rw [instances_eq, instances_eq, instanceCount_addReference, more, UInt64.add_assoc]

end Pyroscope.HeapSnapshot.TypeTreeNode
