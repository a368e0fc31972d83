import Mathlib.Data.List.Forall2
import Mathlib.Data.PNat.Basic

/-!
# Descriptions of array types and names of generic types

`GetTypeDesc` takes the levels of an array type off in a loop. `FormatGenericParameters` keeps the
namespace and the name of an argument, and drops its own arguments.
-/

namespace Pyroscope.FrameStore

section

open List

/-- What `IsArrayClass` tells about a class, for the class and for the classes of its items. -/
inductive TypeShape (Class : Type) where
  | element (classId : Class)
  | array (rank : ℕ+) (item : TypeShape Class)
  deriving DecidableEq

structure TypeDesc where
  assembly : String
  nameSpace : String
  type : String
  parameters : List Char
  deriving DecidableEq

variable {Class : Type}

def brackets (rank : Nat) : List Char := '[' :: replicate (rank - 1) ',' ++ [']']

def appendArrayRank (arrayBuilder : List Char) (rank : Nat) : List Char :=
  if rank = 1 then ['[', ']'] ++ arrayBuilder else brackets rank ++ arrayBuilder

def peel (i rank : Nat) (arrayBuilder : List Char) : TypeShape Class → TypeShape Class × List Char
  | .element classId => (.element classId, arrayBuilder)
  | .array itemRank item =>
    if i < rank then peel (i + 1) itemRank (appendArrayRank arrayBuilder itemRank) item
    else (.array itemRank item, arrayBuilder)

/-- The class which is left, and the text for the levels. -/
def peelArray : TypeShape Class → TypeShape Class × List Char
  | .element classId => (.element classId, [])
  | .array rank item => peel 0 rank (appendArrayRank [] rank) item

/-- The description which is built, where `describe` is `BuildTypeDesc` without an array suffix. -/
def buildTypeDesc (describe : TypeShape Class → Option TypeDesc) (shape : TypeShape Class) :
    Option TypeDesc :=
  let (classId, arraySuffix) := peelArray shape
  (describe classId).map fun desc => { desc with parameters := desc.parameters ++ arraySuffix }

section Cache

variable [DecidableEq Class]

def getTypeDesc (describe : TypeShape Class → Option TypeDesc)
    (types : TypeShape Class → Option TypeDesc) (shape : TypeShape Class) :
    Option TypeDesc × (TypeShape Class → Option TypeDesc) :=
  match types shape with
  | some desc => (some desc, types)
  | none =>
    match buildTypeDesc describe shape with
    | none => (none, types)
    | some desc => (some desc, Function.update types shape (some desc))

def typesBehind (describe : TypeShape Class → Option TypeDesc) (calls : List (TypeShape Class)) :
    TypeShape Class → Option TypeDesc :=
  calls.foldl (fun types shape => (getTypeDesc describe types shape).2) fun _ => none

variable {describe types : TypeShape Class → Option TypeDesc}

theorem getTypeDesc_of_sound
    (sound : ∀ shape desc, types shape = some desc → buildTypeDesc describe shape = some desc)
    (shape : TypeShape Class) :
    (getTypeDesc describe types shape).1 = buildTypeDesc describe shape ∧
      ∀ other desc, (getTypeDesc describe types shape).2 other = some desc →
        buildTypeDesc describe other = some desc := by
  rw [getTypeDesc]
  cases cached : types shape with
  | some desc => exact ⟨(sound shape desc cached).symm, sound⟩
  | none =>
    cases built : buildTypeDesc describe shape with
    | none => exact ⟨rfl, sound⟩
    | some desc => grind [Function.update_apply]

/-- Every answer is what would be built, whatever has been asked before. -/
theorem getTypeDesc_typesBehind (calls : List (TypeShape Class)) (shape : TypeShape Class) :
    (getTypeDesc describe (typesBehind describe calls) shape).1 = buildTypeDesc describe shape := by
  suffices sound : ∀ types, (∀ other desc, types other = some desc →
      buildTypeDesc describe other = some desc) → ∀ other desc,
        calls.foldl (fun types shape => (getTypeDesc describe types shape).2) types other =
          some desc → buildTypeDesc describe other = some desc from
    (getTypeDesc_of_sound (sound _ (by simp)) shape).1
  induction calls with
  | nil => exact fun _ sound => sound
  | cons call calls ih => exact fun types sound => ih _ (getTypeDesc_of_sound sound call).2

end Cache

def nest (classId : Class) : List ℕ+ → TypeShape Class
  | [] => .element classId
  | rank :: ranks => .array rank (nest classId ranks)

def groups (ranks : List ℕ+) : List Char := ranks.reverse.flatMap fun (rank : ℕ+) => brackets rank

theorem appendArrayRank_eq (arrayBuilder : List Char) (rank : Nat) :
    appendArrayRank arrayBuilder rank = brackets rank ++ arrayBuilder := by
  rw [appendArrayRank]
  split
  case isTrue single =>
    subst single
    rfl
  case isFalse => rfl

def Reached (i rank : Nat) : List ℕ+ → Prop
  | [] => True
  | itemRank :: ranks => i < rank ∧ Reached (i + 1) itemRank ranks

/-- Induction over the levels which are left: the loop stops at the first one it does not reach. -/
theorem peel_nest (classId : Class) (ranks : List ℕ+) (i rank : Nat) (arrayBuilder : List Char) :
    peel i rank arrayBuilder (nest classId ranks) =
        (.element classId, groups ranks ++ arrayBuilder) ↔
      Reached i rank ranks := by
  induction ranks generalizing i rank arrayBuilder with
  | nil => simp [nest, peel, groups, Reached]
  | cons itemRank ranks ih =>
    have grouped : groups (itemRank :: ranks) ++ arrayBuilder =
        groups ranks ++ appendArrayRank arrayBuilder itemRank := by
      simp [groups, appendArrayRank_eq]
    rw [nest, peel, Reached, grouped]
    split
    case isTrue reached => rw [ih, and_iff_right reached]
    case isFalse missed => simp [missed]

theorem reached_iff (ranks : List ℕ+) (i rank : Nat) :
    Reached i rank ranks ↔
      (ranks ≠ [] → i < rank) ∧
        ∀ index (next : index + 1 < ranks.length), i + 1 + index < ranks[index] := by
  induction ranks generalizing i rank with
  | nil => simp [Reached]
  | cons itemRank ranks ih =>
    rw [Reached, ih]
    constructor
    · rintro ⟨reached, follows, others⟩
      refine ⟨fun _ => reached, fun index next => ?_⟩
      cases index with
      | zero => simpa using follows (by rintro rfl; simp at next)
      | succ index =>
        have later := others index (by simpa using next)
        simp only [getElem_cons_succ]
        omega
    · rintro ⟨reached, levels⟩
      refine ⟨reached (cons_ne_nil _ _), fun isMore => ?_, fun index next => ?_⟩
      · simpa using levels 0 (by simpa using length_pos_iff.mpr isMore)
      · have later := levels (index + 1) (by simpa using next)
        simp only [getElem_cons_succ] at later
        omega

/-- All the levels are taken off exactly if each one but the last, which is the `n`-th from outside,
has a rank of `n` at least. The description is that of the class which is left, with the text behind
its parameters. -/
theorem array_levels_peeled_iff [DecidableEq Class] (classId : Class) (ranks : List ℕ+)
    (describe : TypeShape Class → Option TypeDesc) (calls : List (TypeShape Class)) :
    (peelArray (nest classId ranks) = (.element classId, groups ranks) ↔
      ∀ index (next : index + 1 < ranks.length), index + 1 ≤ (ranks[index] : Nat)) ∧
    (getTypeDesc describe (typesBehind describe calls) (nest classId ranks)).1 =
      (describe (peelArray (nest classId ranks)).1).map fun desc =>
        { desc with parameters := desc.parameters ++ (peelArray (nest classId ranks)).2 } := by
  refine ⟨?_, getTypeDesc_typesBehind calls _⟩
  cases ranks with
  | nil => simp [nest, peelArray, groups]
  | cons rank ranks =>
    have grouped : groups (rank :: ranks) = groups ranks ++ appendArrayRank [] rank := by
      simp [groups, appendArrayRank_eq]
    rw [nest, peelArray, grouped, peel_nest, reached_iff]
    constructor
    · rintro ⟨_, levels⟩ index next
      cases index with
      | zero => exact rank.pos
      | succ index =>
        have later := levels index (by simpa using next)
        simp only [getElem_cons_succ]
        omega
    · intro levels
      refine ⟨fun _ => rank.pos, fun index next => ?_⟩
      have later := levels (index + 1) (by simpa using next)
      simp only [getElem_cons_succ] at later
      omega

/-- The innermost of three levels of rank one is left over. -/
theorem third_level_left_over :
    peelArray (nest () [1, 1, 1]) = (nest () [1], ['[', ']', '[', ']']) :=
  rfl

end

/-! ## Names of generic types -/

open List

/-- A type definition in the metadata, where only the name of an outer type has a namespace. -/
inductive TypeDef where
  | outer (name : List Char)
  | nested (enclosing : TypeDef) (name : List Char)

/-- The name without what begins at a backtick, as `FixTrailingGeneric` leaves it. -/
def getTypeNameFromMetadata (name : List Char) : List Char := name.takeWhile (· != Char.ofNat 0x60)

def typeNameOf (name : List Char) : List Char :=
  let typeName := getTypeNameFromMetadata name
  if typeName = [] then ['?'] else typeName

def getTypeWithNamespace : TypeDef → List Char × List Char
  | .nested enclosing name =>
    let (ns, enclosingType) := getTypeWithNamespace enclosing
    (ns, enclosingType ++ '.' :: typeNameOf name)
  | .outer name =>
    let typeName := typeNameOf name
    if '.' ∉ typeName then ([], typeName)
    else ((typeName.reverse.dropWhile (· != '.')).tail.reverse,
      (typeName.reverse.takeWhile (· != '.')).reverse)

def qualify (ns type : List Char) : List Char := if ns = [] then type else ns ++ '.' :: type

def TypeDef.fullName (definition : TypeDef) : List Char :=
  qualify (getTypeWithNamespace definition).1 (getTypeWithNamespace definition).2

/-- A class which is not generic, or a generic one with its arguments. -/
inductive ClosedType where
  | mk (definition : TypeDef) (arguments : List ClosedType)

def ClosedType.definition : ClosedType → TypeDef
  | mk definition _ => definition

def ClosedType.arguments : ClosedType → List ClosedType
  | mk _ arguments => arguments

mutual

def getManagedTypeName : ClosedType → List Char × List Char × List Char
  | .mk definition arguments =>
    let (ns, typeName) := getTypeWithNamespace definition
    (ns, typeName,
      if arguments.isEmpty then []
      else '<' :: [',', ' '].intercalate (formatGenericParameters arguments) ++ ['>'])

/-- The texts which `FormatGenericParameters` puts between its angle brackets. -/
def formatGenericParameters : List ClosedType → List (List Char)
  | [] => []
  | argument :: arguments =>
    let (ns, ct, _) := getManagedTypeName argument
    qualify ns ct :: formatGenericParameters arguments

end

def getTypeName (type : ClosedType) : List Char :=
  let (ns, typeName, parameters) := getManagedTypeName type
  qualify ns typeName ++ parameters

mutual

/-- The full name of a type with the full names of its arguments. -/
def ClosedType.fullText : ClosedType → List Char
  | .mk definition arguments => definition.fullName ++
    if arguments.isEmpty then [] else '<' :: [',', ' '].intercalate (fullTexts arguments) ++ ['>']

def fullTexts : List ClosedType → List (List Char)
  | [] => []
  | argument :: arguments => argument.fullText :: fullTexts arguments

end

end Pyroscope.FrameStore
