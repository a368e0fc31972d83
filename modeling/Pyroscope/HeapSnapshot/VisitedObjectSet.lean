import Mathlib.Algebra.Group.Nat.Defs
import Pyroscope.Lib.LinearProbing

/-!
# The set of visited objects

An open-addressing table with address 0 for an empty bucket. The list of the buckets written is good
as long as an index fits 32 bits.
-/

namespace Pyroscope.HeapSnapshot

open LinearProbing (seek)

structure Buckets where
  addresses : List Nat
  entries : List Nat
  dirtyIndices : List Nat
deriving DecidableEq

structure VisitedObjectSet extends Buckets where
  count : Nat
  needsFullClear : Bool
  mask : Nat
deriving DecidableEq

def hashAddress (address : Nat) : Nat :=
  (address >>> 3) * 0x9E3779B97F4A7C15 % 2 ^ 64

namespace Buckets

def empty (capacity : Nat) : Buckets where
  addresses := List.replicate capacity 0
  entries := List.replicate capacity 0
  dirtyIndices := []

def store (buckets : Buckets) (index address classID : Nat) : Buckets where
  addresses := buckets.addresses.set index address
  entries := buckets.entries.set index classID
  dirtyIndices := buckets.dirtyIndices ++ [index % 2 ^ 32]

/-- The loop of `Grow`: it only looks for an empty bucket, since no address is there twice. -/
def rehash (newMask : Nat) : List (Nat × Nat) → Buckets → Option Buckets
  | [], new => some new
  | (address, classID) :: rest, new =>
    if address = 0 then rehash newMask rest new
    else
      match seek (fun index => new.addresses[index]? == some 0)
          (fun index => (index + 1) &&& newMask) new.addresses.length
          (hashAddress address &&& newMask) with
      | none => none
      | some index => rehash newMask rest (new.store index address classID)

end Buckets

namespace VisitedObjectSet

def defaultCapacity : Nat := 512

/-- The loop of the constructor, which needs fewer rounds than `initialCapacity`. -/
def doubled (initialCapacity : Nat) : Nat → Nat → Nat
  | 0, capacity => capacity
  | fuel + 1, capacity =>
    if capacity < initialCapacity then doubled initialCapacity fuel (capacity * 2) else capacity

def create (initialCapacity : Nat) : VisitedObjectSet :=
  let capacity := doubled initialCapacity initialCapacity defaultCapacity
  { toBuckets := Buckets.empty capacity
    count := 0
    needsFullClear := false
    mask := capacity - 1 }

variable (set : VisitedObjectSet)

def capacity : Nat := set.addresses.length

def needsGrow : Bool := decide (set.count * 10 ≥ set.capacity * 7)

def grow : Option VisitedObjectSet :=
  let newCapacity := set.capacity * 2
  let newMask := newCapacity - 1
  (Buckets.rehash newMask (set.addresses.zip set.entries) (Buckets.empty newCapacity)).map
    fun buckets => { set with toBuckets := buckets, mask := newMask }

def probe (address : Nat) : Option Nat :=
  seek (fun index => set.addresses[index]? == some address || set.addresses[index]? == some 0)
    (fun index => (index + 1) &&& set.mask) set.capacity (hashAddress address &&& set.mask)

def makeRoom : Option VisitedObjectSet :=
  if set.needsGrow then set.grow else some set

inductive InsertResult where
  | inserted
  | alreadyPresent
deriving DecidableEq

def isVisited (address : Nat) : Option Bool :=
  (set.probe address).map fun index => set.addresses[index]? == some address

/-- The index is that of the entry which `outEntry` points to. -/
def tryInsert (address : Nat) : Option (InsertResult × Nat × VisitedObjectSet) := do
  let set ← set.makeRoom
  let index ← set.probe address
  if set.addresses[index]? = some address then some (.alreadyPresent, index, set)
  else
    some (.inserted, index,
      { set with toBuckets := set.store index address 0, count := set.count + 1 })

def readEntry (index : Nat) : Nat := set.entries[index]?.getD 0

def writeEntry (index classID : Nat) : VisitedObjectSet :=
  { set with entries := set.entries.set index classID }

def markVisitedAndStore (address classID : Nat) : Option VisitedObjectSet := do
  let set ← set.makeRoom
  let index ← set.probe address
  if set.addresses[index]? = some 0 then
    some { set with toBuckets := set.store index address classID, count := set.count + 1 }
  else some (set.writeEntry index classID)

def storeClassID (address classID : Nat) : Option VisitedObjectSet :=
  (set.probe address).map fun index =>
    if set.addresses[index]? = some address then set.writeEntry index classID else set

def getClassID (address : Nat) : Option (Option Nat) :=
  (set.probe address).map fun index =>
    if set.addresses[index]? = some address then some (set.readEntry index) else none

def markPossiblyInconsistent : VisitedObjectSet := { set with needsFullClear := true }

def clear : VisitedObjectSet :=
  { set with
    addresses :=
      if set.needsFullClear then List.replicate set.addresses.length 0
      else set.dirtyIndices.foldl (fun addresses index => addresses.set index 0) set.addresses
    dirtyIndices := []
    count := 0
    needsFullClear := false }

end VisitedObjectSet

inductive Operation where
  | tryInsert (address : Nat) (written : Option Nat)
  | markVisitedAndStore (address classID : Nat)
  | storeClassID (address classID : Nat)
  | getClassID (address : Nat)
  | isVisited (address : Nat)
  | clear
deriving DecidableEq

inductive Outcome where
  | insertion (result : VisitedObjectSet.InsertResult) (classID : Nat)
  | class (found : Option Nat)
  | visited (found : Bool)
  | done
deriving DecidableEq

def Operation.NonZero : Operation → Prop
  | .tryInsert address _ => address ≠ 0
  | .markVisitedAndStore address _ => address ≠ 0
  | .storeClassID address _ => address ≠ 0
  | .getClassID address => address ≠ 0
  | .isVisited address => address ≠ 0
  | .clear => True

instance (operation : Operation) : Decidable operation.NonZero :=
  match operation with
  | .tryInsert address _ => inferInstanceAs (Decidable (address ≠ 0))
  | .markVisitedAndStore address _ => inferInstanceAs (Decidable (address ≠ 0))
  | .storeClassID address _ => inferInstanceAs (Decidable (address ≠ 0))
  | .getClassID address => inferInstanceAs (Decidable (address ≠ 0))
  | .isVisited address => inferInstanceAs (Decidable (address ≠ 0))
  | .clear => isTrue trivial

namespace VisitedObjectSet

def perform (set : VisitedObjectSet) : Operation → Option (Outcome × VisitedObjectSet)
  | .tryInsert address written =>
    (set.tryInsert address).map fun (result, index, after) =>
      (.insertion result (after.readEntry index), (written.map (after.writeEntry index)).getD after)
  | .markVisitedAndStore address classID =>
    (set.markVisitedAndStore address classID).map fun after => (.done, after)
  | .storeClassID address classID =>
    (set.storeClassID address classID).map fun after => (.done, after)
  | .getClassID address => (set.getClassID address).map fun found => (.class found, set)
  | .isVisited address => (set.isVisited address).map fun found => (.visited found, set)
  | .clear => some (.done, set.clear)

def execute (set : VisitedObjectSet) :
    List Operation → Option (List Outcome × VisitedObjectSet)
  | [] => some ([], set)
  | operation :: rest => do
    let (outcome, after) ← set.perform operation
    let (outcomes, last) ← after.execute rest
    some (outcome :: outcomes, last)

end VisitedObjectSet

/-!
## The map

What the set is for: a map from the visited addresses to their classes.
-/

def VisitedMap : Type := Nat → Option Nat

namespace VisitedMap

def empty : VisitedMap := fun _ => none

def insert (map : VisitedMap) (address classID : Nat) : VisitedMap :=
  fun other => if other = address then some classID else map other

def perform (map : VisitedMap) : Operation → Outcome × VisitedMap
  | .tryInsert address written =>
    match map address with
    | some classID =>
      (.insertion .alreadyPresent classID, map.insert address (written.getD classID))
    | none => (.insertion .inserted 0, map.insert address (written.getD 0))
  | .markVisitedAndStore address classID => (.done, map.insert address classID)
  | .storeClassID address classID =>
    (.done, if (map address).isSome then map.insert address classID else map)
  | .getClassID address => (.class (map address), map)
  | .isVisited address => (.visited (map address).isSome, map)
  | .clear => (.done, empty)

def execute (map : VisitedMap) : List Operation → List Outcome × VisitedMap
  | [] => ([], map)
  | operation :: rest =>
    let (outcome, after) := map.perform operation
    let (outcomes, last) := after.execute rest
    (outcome :: outcomes, last)

end VisitedMap

/-! ## The buckets -/

open LinearProbing (seek around position Chained Holds)
open List Option
open LinearProbing

theorem seek_mask {accepted : Nat → Bool} {fuel capacity exponent : Nat} (start : Nat)
    (power : capacity = 2 ^ exponent) :
    seek accepted (fun index => (index + 1) &&& (capacity - 1)) fuel (start &&& (capacity - 1)) =
      seek accepted (around capacity) fuel (start % capacity) := by
  have next : (fun index => (index + 1) &&& (capacity - 1)) = around capacity := by
    funext index
    rw [power, Nat.and_two_pow_sub_one_eq_mod, around]
  rw [next, power, Nat.and_two_pow_sub_one_eq_mod]

namespace Buckets

variable {buckets new : Buckets} {map : VisitedMap} {index address classID : Nat}
  {items : List (Nat × Nat)} {after : Buckets}

/-- Every probe from a home bucket reaches its address. -/
structure Valid (buckets : Buckets) : Prop where
  powerOfTwo : ∃ exponent, buckets.addresses.length = 2 ^ exponent
  sameLength : buckets.entries.length = buckets.addresses.length
  chained : Chained 0 hashAddress buckets.addresses

def occupied (buckets : Buckets) : Nat := buckets.addresses.countP (· != 0)

/-- The list of the buckets written names every occupied bucket, once, and no other. -/
def Tracked (buckets : Buckets) : Prop :=
  buckets.dirtyIndices.Nodup ∧ ∀ index, index ∈ buckets.dirtyIndices ↔
    ∃ address, buckets.addresses[index]? = some address ∧ address ≠ 0

/-- The buckets hold the entries of the map. -/
def Represents (buckets : Buckets) (map : VisitedMap) : Prop :=
  ∀ address, address ≠ 0 → ∀ classID, map address = some classID ↔
    Holds buckets.addresses buckets.entries address classID

theorem Valid.store (valid : buckets.Valid)
    (found : position 0 hashAddress buckets.addresses address = some index) :
    (buckets.store index address classID).Valid := by
  refine ⟨?_, ?_, ?_⟩
  · simpa only [Buckets.store, length_set] using valid.powerOfTwo
  · simp only [Buckets.store, length_set, valid.sameLength]
  · exact valid.chained.set found

theorem occupied_store (isVacant : buckets.addresses[index]? = some 0) (nonZero : address ≠ 0) :
    (buckets.store index address classID).occupied = buckets.occupied + 1 :=
  countP_set isVacant nonZero

theorem Tracked.store (tracked : buckets.Tracked) (small : buckets.addresses.length ≤ 2 ^ 32)
    (isVacant : buckets.addresses[index]? = some 0) (nonZero : address ≠ 0) :
    (buckets.store index address classID).Tracked := by
  have bound : index < buckets.addresses.length := (List.getElem?_eq_some_iff.mp isVacant).1
  have whole : index % 2 ^ 32 = index := Nat.mod_eq_of_lt (by omega)
  have unlisted : index ∉ buckets.dirtyIndices := by
    intro listed
    rcases (tracked.2 index).mp listed with ⟨address, there, busy⟩
    rw [isVacant] at there
    exact busy (some.inj there).symm
  refine ⟨?_, ?_⟩
  · simp only [Buckets.store, whole]
    rw [nodup_append]
    refine ⟨tracked.1, nodup_singleton index, ?_⟩
    intro first mem second memSingle same
    rw [mem_singleton] at memSingle
    exact unlisted (memSingle ▸ same ▸ mem)
  · intro other
    simp only [Buckets.store, whole, mem_append, mem_singleton]
    rcases Nat.decEq other index with apart | same
    · rw [getElem?_set_ne (Ne.symm apart), tracked.2 other]
      simp [apart]
    · rw [same, getElem?_set_self bound]
      simp [nonZero]

theorem Represents.set (represents : buckets.Represents map) (valid : buckets.Valid)
    (found : position 0 hashAddress buckets.addresses address = some index)
    (nonZero : address ≠ 0) {dirty : List Nat} :
    Represents ⟨buckets.addresses.set index address, buckets.entries.set index classID, dirty⟩
      (map.insert address classID) := by
  rcases position_spec found with ⟨_, _, accepted, _⟩
  intro other otherNonZero value
  rcases Nat.decEq other address with different | same
  · simp only [VisitedMap.insert, if_neg different, represents other otherNonZero value]
    exact (holds_set_of_ne different accepted otherNonZero).symm
  · subst same
    simp only [VisitedMap.insert, if_pos, some.injEq]
    rw [valid.chained.holds_set_self otherNonZero found valid.sameLength]
    exact eq_comm

theorem Represents.eq_none (represents : buckets.Represents map) (nonZero : address ≠ 0)
    (absent : address ∉ buckets.addresses) : map address = none := by
  rw [eq_none_iff_forall_ne_some]
  intro classID known
  rcases (represents address nonZero classID).mp known with ⟨place, here, _⟩
  exact absent (mem_of_getElem? here)

/-!
### The buckets are written again
-/

section Vacant

variable {capacity : Nat} {entries : List Nat}

def vacant (capacity : Nat) (entries : List Nat) : Buckets :=
  ⟨replicate capacity 0, entries, []⟩

theorem getElem?_vacant (here : (vacant capacity entries).addresses[index]? = some address) :
    address = 0 :=
  eq_of_mem_replicate (mem_of_getElem? here)

theorem vacant_valid {exponent : Nat} (power : capacity = 2 ^ exponent)
    (sameLength : entries.length = capacity) : (vacant capacity entries).Valid := by
  refine ⟨⟨exponent, by simpa [vacant] using power⟩, by simpa [vacant] using sameLength, ?_⟩
  intro index key here taken
  exact absurd (getElem?_vacant here) taken

theorem vacant_tracked : (vacant capacity entries).Tracked := by
  refine ⟨nodup_nil, ?_⟩
  intro index
  constructor
  · intro listed
    exact absurd listed not_mem_nil
  · rintro ⟨address, here, taken⟩
    exact absurd (getElem?_vacant here) taken

theorem occupied_vacant : (vacant capacity entries).occupied = 0 := by
  simp [occupied, vacant, countP_eq_zero]

theorem not_holds_vacant (nonZero : address ≠ 0) :
    ¬ Holds (vacant capacity entries).addresses (vacant capacity entries).entries
      address classID := by
  rintro ⟨index, here, _⟩
  exact nonZero (getElem?_vacant here)

theorem vacant_represents : (vacant capacity entries).Represents VisitedMap.empty := by
  intro address nonZero classID
  simp [VisitedMap.empty, not_holds_vacant nonZero]

end Vacant

theorem Valid.seek_empty (valid : new.Valid) (absent : address ∉ new.addresses) :
    seek (fun index => new.addresses[index]? == some 0)
        (fun index => (index + 1) &&& (new.addresses.length - 1)) new.addresses.length
        (hashAddress address &&& (new.addresses.length - 1)) =
      position 0 hashAddress new.addresses address := by
  rcases valid.powerOfTwo with ⟨exponent, power⟩
  rw [seek_mask _ power]
  apply seek_congr
  intro index
  have other : (new.addresses[index]? == some address) = false := by
    rw [beq_eq_false_iff_ne]
    intro here
    exact absent (mem_of_getElem? here)
  rw [other, Bool.false_or]

/-- All items have moved into the new buckets. -/
structure Rehashed (items : List (Nat × Nat)) (new after : Buckets) : Prop where
  valid : after.Valid
  sameCapacity : after.addresses.length = new.addresses.length
  occupied : after.occupied = new.occupied + items.countP (·.1 != 0)
  holds : ∀ address, address ≠ 0 → ∀ classID,
    Holds after.addresses after.entries address classID ↔
      Holds new.addresses new.entries address classID ∨ (address, classID) ∈ items
  tracked : new.addresses.length ≤ 2 ^ 32 → new.Tracked → after.Tracked

theorem Rehashed.skip (rehashed : Rehashed items new after) :
    Rehashed ((0, classID) :: items) new after := by
  refine ⟨rehashed.valid, rehashed.sameCapacity, ?_, ?_, rehashed.tracked⟩
  · simpa using rehashed.occupied
  · intro address nonZero value
    simp [rehashed.holds address nonZero value, nonZero]

theorem Rehashed.store (rehashed : Rehashed items (new.store index address classID) after)
    (valid : new.Valid) (found : position 0 hashAddress new.addresses address = some index)
    (isVacant : new.addresses[index]? = some 0) (nonZero : address ≠ 0) :
    Rehashed ((address, classID) :: items) new after := by
  have sameLength : (new.store index address classID).addresses.length = new.addresses.length :=
    length_set
  refine ⟨rehashed.valid, rehashed.sameCapacity.trans sameLength, ?_, ?_, ?_⟩
  · rw [rehashed.occupied, occupied_store isVacant nonZero, countP_cons]
    simp only [bne_iff_ne, ne_eq, nonZero, not_false_eq_true, if_true]
    omega
  · intro other otherNonZero value
    rw [rehashed.holds other otherNonZero value, mem_cons]
    rcases Nat.decEq other address with different | same
    · have kept : Holds (new.store index address classID).addresses
          (new.store index address classID).entries other value ↔
            Holds new.addresses new.entries other value :=
        holds_set_of_ne different (Or.inr isVacant) otherNonZero
      simp [kept, different]
    · subst same
      have stored : Holds (new.store index other classID).addresses
          (new.store index other classID).entries other value ↔ value = classID :=
        valid.chained.holds_set_self otherNonZero found valid.sameLength
      have absent : ¬ Holds new.addresses new.entries other value := by
        rintro ⟨place, here, _⟩
        exact valid.chained.not_mem_of_position otherNonZero found isVacant (mem_of_getElem? here)
      simp [stored, absent]
  · intro small tracked
    exact rehashed.tracked (sameLength ▸ small) (tracked.store small isVacant nonZero)

theorem Valid.rehash (valid : new.Valid)
    (apart : items.Pairwise (fun first second => first.1 ≠ 0 → first.1 ≠ second.1))
    (fresh : ∀ item ∈ items, item.1 ≠ 0 → item.1 ∉ new.addresses)
    (room : new.occupied + items.countP (·.1 != 0) < new.addresses.length) :
    ∃ after, Buckets.rehash (new.addresses.length - 1) items new = some after ∧
      Rehashed items new after := by
  induction items generalizing new with
  | nil =>
    refine ⟨new, rfl, valid, rfl, by simp, ?_, fun _ tracked => tracked⟩
    intro address _ classID
    simp
  | cons item rest ih =>
    rcases item with ⟨address, classID⟩
    rw [pairwise_cons] at apart
    rcases Nat.decEq address 0 with nonZero | zero
    · have absent := fresh _ mem_cons_self nonZero
      have spare : new.addresses.countP (· != 0) < new.addresses.length :=
        Nat.lt_of_le_of_lt (Nat.le_add_right _ _) room
      rcases exists_vacant spare with ⟨free, isFree⟩
      rcases position_isSome isFree address with ⟨index, found⟩
      have isVacant : new.addresses[index]? = some 0 := by
        rcases position_spec found with ⟨_, _, here | here, _⟩
        · exact absurd (mem_of_getElem? here) absent
        · exact here
      have sameLength : (new.store index address classID).addresses.length = new.addresses.length :=
        length_set
      have others : ∀ item ∈ rest, item.1 ≠ 0 →
          item.1 ∉ (new.store index address classID).addresses := by
        intro item mem itemNonZero stored
        rcases mem_or_eq_of_mem_set stored with before | same
        · exact fresh item (mem_cons_of_mem _ mem) itemNonZero before
        · exact apart.1 item mem nonZero same.symm
      rw [countP_cons] at room
      simp only [bne_iff_ne, ne_eq, nonZero, not_false_eq_true, if_true] at room
      rcases ih (valid.store found) apart.2 others
        (by rw [occupied_store isVacant nonZero, sameLength]; omega) with ⟨after, result, done⟩
      refine ⟨after, ?_, done.store valid found isVacant nonZero⟩
      simp only [Buckets.rehash, if_neg nonZero, valid.seek_empty absent, found]
      rw [← result, sameLength]
    · subst zero
      rcases ih valid apart.2 (fun item mem => fresh item (mem_cons_of_mem _ mem))
        (by simpa using room) with ⟨after, result, done⟩
      refine ⟨after, ?_, done.skip⟩
      simp only [Buckets.rehash, if_true]
      exact result

end Buckets

end Pyroscope.HeapSnapshot
