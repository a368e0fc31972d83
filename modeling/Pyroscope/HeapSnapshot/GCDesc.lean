import Mathlib.Data.BitVec
import Pyroscope.HeapSnapshot.Traverser
import Pyroscope.Lib.CountedLoop

/-!
# Reading GC descriptors word by word

Each loop tests a counter of the width it has in the source. A sum which wraps is negative as a
signed word, or larger than any object, so the checks refuse it.
-/

namespace Pyroscope.HeapSnapshot.GCDesc

section

open CountedLoop (forLoop)

structure Words where
  /-- The word that many words before the method table. -/
  before : Nat → BitVec 64
  content : BitVec 64 → BitVec 64

inductive Access where
  | descriptor (before : Nat)
  | slot (address : BitVec 64)
deriving DecidableEq

structure Found where
  slot : BitVec 64
  refValue : BitVec 64
  refOffset : BitVec 32
deriving DecidableEq

structure Log where
  accesses : List Access
  found : List Found
deriving DecidableEq

def Log.read (access : Access) (log : Log) : Log :=
  { log with accesses := log.accesses ++ [access] }

variable (words : Words)

def readSlot (slot : BitVec 64) (refOffset : BitVec 32) (log : Log) : Log :=
  let refValue := words.content slot
  let log := log.read (.slot slot)
  if refValue ≠ 0 then { log with found := log.found ++ [⟨slot, refValue, refOffset⟩] } else log

/-!
### Objects and reference arrays
-/

def looksLikeValidSeriesCount (count objectSize : BitVec 64) : Bool :=
  if count = 0 then false
  else
    let maxSeries := objectSize / 8 + 1
    let magnitude := if count.slt 0 then -count else count
    magnitude.sle maxSeries

def readSeries (objectAddress objectSize : BitVec 64) (fuel : Nat)
    (index : BitVec 64) (log : Log) : Option Log :=
  let encodedSize := words.before (2 * index.toNat + 1)
  let offset := words.before (2 * index.toNat)
  let log := log.read (.descriptor (2 * index.toNat + 1))
  let rangeSize := encodedSize + objectSize
  if rangeSize.sle 0 then some log
  else
    let log := log.read (.descriptor (2 * index.toNat))
    if offset.slt 0 || objectSize.ult offset || objectSize.ult (offset + rangeSize) then some log
    else
      let rangeStart := objectAddress + offset
      let numRefs := rangeSize / 8
      forLoop (fun j => j.ult numRefs)
        (fun j log =>
          some (readSlot words (rangeStart + j * 8) ((offset + j * 8).setWidth 32) log))
        fuel 0 log

def enumerateObjectRefs (objectAddress objectSize : BitVec 64) (fuel : Nat) :
    Option Log :=
  let seriesCount := words.before 1
  let log : Log := ⟨[.descriptor 1], []⟩
  if seriesCount.sle 0 then some log
  else if !looksLikeValidSeriesCount seriesCount objectSize then some log
  else
    forLoop (fun i => i.ule seriesCount) (readSeries words objectAddress objectSize fuel) fuel 1
      log

/-!
### Arrays of value types
-/

structure Cursor where
  cur : BitVec 64
  log : Log

def readNext (arrayAddress : BitVec 64) (cursor : Cursor) : Cursor where
  cur := cursor.cur + 8
  log := readSlot words cursor.cur ((cursor.cur - arrayAddress).setWidth 32) cursor.log

def readItem (arrayAddress : BitVec 64) (fuel : Nat) (v : BitVec 64)
    (cursor : Cursor) : Option Cursor :=
  let item := words.before (3 + v.toNat)
  let nptrs : BitVec 32 := (item &&& 0xFFFFFFFF).setWidth 32
  let skip : BitVec 32 := ((item >>> 32) &&& 0xFFFFFFFF).setWidth 32
  (forLoop (fun p => p.ult nptrs) (fun _ cursor => some (readNext words arrayAddress cursor)) fuel
      (0 : BitVec 32)
      { cursor with log := cursor.log.read (.descriptor (3 + v.toNat)) }).map
    fun cursor => { cursor with cur := cursor.cur + skip.setWidth 64 }

def readElement (arrayAddress numValSerieItems : BitVec 64) (fuel : Nat)
    (_elem : BitVec 64) (cursor : Cursor) : Option Cursor :=
  forLoop (fun v => v.ult numValSerieItems) (readItem words arrayAddress fuel) fuel 0 cursor

def maxValSerieItems : BitVec 64 := 0xFFFF

def enumerateVTArrayRefs (arrayAddress totalElements : BitVec 64) (fuel : Nat) :
    Option Log :=
  let seriesCount := words.before 1
  let log : Log := ⟨[.descriptor 1], []⟩
  if !seriesCount.slt 0 then some log
  else
    let numValSerieItems := -seriesCount
    if maxValSerieItems.ult numValSerieItems then some log
    else
      let startOffset := words.before 2
      let log := log.read (.descriptor 2)
      if startOffset.slt 0 then some log
      else
        (forLoop (fun elem => elem.ult totalElements)
          (readElement words arrayAddress numValSerieItems fuel) fuel 0
          ⟨arrayAddress + startOffset, log⟩).map Cursor.log

/-- The loop of `EnqueueValueTypeArrayChildren` over the dimensions of an array. -/
def totalElements : List (BitVec 32) → BitVec 64 → Option (BitVec 64)
  | [], total => some total
  | size :: rest, total =>
    let dim : BitVec 64 := size.setWidth 64
    if dim ≠ 0 ∧ (BitVec.allOnes 64 / dim).ult total then none
    else totalElements rest (total * dim)

/-- The reads of an array with these dimensions: there are none if the number of its elements
overflows or is zero. -/
def enumerateArray (arrayAddress : BitVec 64) (dimensionSizes : List (BitVec 32))
    (fuel : Nat) : Option Log :=
  match totalElements dimensionSizes 1 with
  | none => some ⟨[], []⟩
  | some elements =>
    if elements = 0 then some ⟨[], []⟩ else enumerateVTArrayRefs words arrayAddress elements fuel

end

/-! ## The reference slots which the readers visit -/

open CountedLoop (forLoop forLoop_ult forLoop_ule)
open List

namespace Log

def slots (log : Log) : List (BitVec 64) :=
  log.accesses.filterMap fun access =>
    match access with
    | .slot address => some address
    | .descriptor _ => none

def descriptors (log : Log) : List Nat :=
  log.accesses.filterMap fun access =>
    match access with
    | .slot _ => none
    | .descriptor before => some before

variable {log : Log} {before : Nat} {slot : BitVec 64}

@[simp]
theorem slots_read_descriptor : (log.read (.descriptor before)).slots = log.slots := by
  simp [slots, read]

@[simp]
theorem descriptors_read_descriptor :
    (log.read (.descriptor before)).descriptors = log.descriptors ++ [before] := by
  simp [descriptors, read]

@[simp]
theorem slots_read_slot : (log.read (.slot slot)).slots = log.slots ++ [slot] := by
  simp [slots, read]

@[simp]
theorem descriptors_read_slot : (log.read (.slot slot)).descriptors = log.descriptors := by
  simp [descriptors, read]

end Log

variable {words : Words} {log : Log} {slot objectAddress objectSize : BitVec 64}
  {refOffset : BitVec 32} {fuel : Nat}

@[simp]
theorem slots_readSlot : (readSlot words slot refOffset log).slots = log.slots ++ [slot] := by
  simp only [readSlot]
  split
  · exact Log.slots_read_slot
  · exact Log.slots_read_slot

@[simp]
theorem descriptors_readSlot :
    (readSlot words slot refOffset log).descriptors = log.descriptors := by
  simp only [readSlot]
  split
  · exact Log.descriptors_read_slot
  · exact Log.descriptors_read_slot

/-- What the callback gets for a slot, with its offset in the object: nothing if it is null. -/
def foundAt (words : Words) (objectAddress slot : BitVec 64) : Option Found :=
  if words.content slot ≠ 0 then
    some ⟨slot, words.content slot, (slot - objectAddress).setWidth 32⟩
  else none

/-- The callback has been called for the slots which have been read, in their order. -/
def Log.Reports (words : Words) (objectAddress : BitVec 64) (log : Log) : Prop :=
  log.found = log.slots.filterMap (foundAt words objectAddress)

theorem Log.Reports.readSlot (reports : log.Reports words objectAddress)
    (isOffset : refOffset = (slot - objectAddress).setWidth 32) :
    (readSlot words slot refOffset log).Reports words objectAddress := by
  have found : (GCDesc.readSlot words slot refOffset log).found =
      log.found ++ (foundAt words objectAddress slot).toList := by
    simp only [GCDesc.readSlot, foundAt, Log.read, isOffset]
    split <;> simp
  rw [Reports, found, slots_readSlot, filterMap_append, reports]
  cases isFound : foundAt words objectAddress slot <;> simp [isFound]

theorem Log.Reports.read (reports : log.Reports words objectAddress) (before : Nat) :
    (log.read (.descriptor before)).Reports words objectAddress := by
  rw [Reports, slots_read_descriptor]
  exact reports

def place (objectAddress : BitVec 64) (offset : Nat) : BitVec 64 :=
  objectAddress + .ofNat 64 offset

theorem place_add (objectAddress : BitVec 64) (first second : Nat) :
    place objectAddress first + .ofNat 64 second = place objectAddress (first + second) := by
  simp only [place, BitVec.ofNat_add, BitVec.add_assoc]

/-!
### Signed words
-/

section Signed

variable {word other : BitVec 64}

theorem sle_zero : word.sle 0 = decide (word.toInt ≤ 0) := rfl

theorem slt_zero : word.slt 0 = decide (word.toInt < 0) := rfl

theorem toInt_of_lt (small : word.toNat < 2 ^ 63) : word.toInt = word.toNat := by
  rw [BitVec.toInt_eq_toNat_cond]
  omega

theorem toNat_of_nonneg (nonneg : 0 ≤ word.toInt) : (word.toNat : Int) = word.toInt := by
  rw [BitVec.toInt_eq_toNat_cond] at nonneg ⊢
  split at nonneg <;> omega

theorem toInt_bounds : -2 ^ 63 ≤ word.toInt ∧ word.toInt < 2 ^ 63 := by
  rw [BitVec.toInt_eq_toNat_cond]
  split <;> omega

theorem toInt_add_of_lt (small : other.toNat < 2 ^ 63) :
    (word + other).toInt =
      if word.toInt + other.toNat < 2 ^ 63 then word.toInt + other.toNat
      else word.toInt + other.toNat - 2 ^ 64 := by
  have sum : (word + other).toNat = (word.toNat + other.toNat) % 2 ^ 64 := BitVec.toNat_add _ _
  simp only [BitVec.toInt_eq_toNat_cond, sum]
  split <;> split <;> split <;> omega

end Signed

/-!
### Objects and reference arrays
-/

def seriesOffsets (words : Words) (objectSize : BitVec 64) (index : Nat) : List Nat :=
  Heap.seriesSlots 0 objectSize.toNat (words.before (2 * index + 1)).toInt
    (words.before (2 * index)).toInt

theorem seriesOffsets_bound {offset index : Nat}
    (member : offset ∈ seriesOffsets words objectSize index) :
    offset + 8 ≤ objectSize.toNat := by
  simp only [seriesOffsets, Heap.seriesSlots] at member
  split at member
  case isTrue => exact absurd member not_mem_nil
  case isFalse positive =>
    split at member
    case isTrue => exact absurd member not_mem_nil
    case isFalse inside =>
      rcases mem_map.mp member with ⟨slot, below, rfl⟩
      have within := mem_range.mp below
      omega

theorem readRange (numRefs offset : BitVec 64) (enough : numRefs.toNat < fuel) :
    ∃ after, forLoop (fun j => j.ult numRefs)
        (fun j log => some (readSlot words (objectAddress + offset + j * 8)
          ((offset + j * 8).setWidth 32) log)) fuel 0 log = some after ∧
      after.slots = log.slots ++ (range numRefs.toNat).map
        (fun slot => place objectAddress (offset.toNat + slot * 8)) ∧
      after.descriptors = log.descriptors ∧
      (log.Reports words objectAddress → after.Reports words objectAddress) := by
  apply forLoop_ult (fun count (after : Log) =>
    after.slots = log.slots ++ (range count).map
      (fun slot => place objectAddress (offset.toNat + slot * 8)) ∧
    after.descriptors = log.descriptors ∧
    (log.Reports words objectAddress → after.Reports words objectAddress)) enough
  · rintro count before - ⟨slots, descriptors, reports⟩
    refine ⟨_, rfl, ?_, ?_, fun first => (reports first).readSlot ?_⟩
    · have next : objectAddress + offset + BitVec.ofNat 64 count * 8 =
          place objectAddress (offset.toNat + count * 8) := by
        simp [place, BitVec.ofNat_add, BitVec.ofNat_mul, BitVec.add_assoc]
      rw [slots_readSlot, slots, range_succ, map_append, append_assoc, next]
      rfl
    · rw [descriptors_readSlot, descriptors]
    · rw [BitVec.add_assoc, BitVec.add_comm objectAddress, BitVec.add_sub_cancel]
  · simp

theorem range_refused {offset rangeSize : BitVec 64}
    (positive : 0 < rangeSize.toInt) :
    (offset.slt 0 || objectSize.ult offset || objectSize.ult (offset + rangeSize)) = true ↔
      offset.toInt < 0 ∨ objectSize.toNat < offset.toInt ∨
        objectSize.toNat < offset.toInt + rangeSize.toInt := by
  have size := toNat_of_nonneg (Int.le_of_lt positive)
  have sizeBound := @toInt_bounds rangeSize
  have offsetBound := @toInt_bounds offset
  rw [Bool.or_eq_true, Bool.or_eq_true, slt_zero, BitVec.ult, BitVec.ult, decide_eq_true_eq,
    decide_eq_true_eq, decide_eq_true_eq]
  by_cases negative : offset.toInt < 0
  · exact ⟨fun _ => .inl negative, fun _ => .inl (.inl negative)⟩
  · have same := toNat_of_nonneg (Int.not_lt.mp negative)
    have sum : (offset + rangeSize).toNat = offset.toNat + rangeSize.toNat := by
      rw [BitVec.toNat_add, Nat.mod_eq_of_lt (by omega)]
    omega

/-- The checks of the source let pass exactly the ranges of the plain model. -/
theorem readSeries_slots (small : objectSize.toNat < 2 ^ 63) (enough : objectSize.toNat / 8 < fuel)
    (index : BitVec 64) (log : Log) :
    ∃ after, readSeries words objectAddress objectSize fuel index log = some after ∧
      after.slots = log.slots ++
        (seriesOffsets words objectSize index.toNat).map (place objectAddress) ∧
      (∀ before ∈ after.descriptors, before ∈ log.descriptors ∨
        before = 2 * index.toNat + 1 ∨ before = 2 * index.toNat) ∧
      (log.Reports words objectAddress → after.Reports words objectAddress) := by
  have reports : log.Reports words objectAddress →
      (log.read (.descriptor (2 * index.toNat + 1))).Reports words objectAddress :=
    fun first => first.read _
  have wraps := @toInt_add_of_lt (words.before (2 * index.toNat + 1)) objectSize small
  have sizeBound := @toInt_bounds (words.before (2 * index.toNat + 1))
  simp only [readSeries, seriesOffsets, Heap.seriesSlots, sle_zero, decide_eq_true_eq]
  generalize words.before (2 * index.toNat + 1) = encodedSize at *
  generalize words.before (2 * index.toNat) = offset at *
  split
  case isTrue negative =>
    -- Nothing is left of the range, or its size has wrapped around and does not fit the object.
    refine ⟨_, rfl, ?_, ?_, reports⟩
    · rw [Log.slots_read_descriptor]
      split at wraps
      · rw [if_pos (by omega), map_nil, append_nil]
      · rw [if_neg (by omega), if_pos (by omega), map_nil, append_nil]
    · intro before member
      simp only [Log.descriptors_read_descriptor, mem_append, mem_singleton] at member
      rcases member with old | new
      · exact .inl old
      · exact .inr (.inl new)
  case isFalse positive =>
    have exact : (encodedSize + objectSize).toInt = encodedSize.toInt + objectSize.toNat := by
      split at wraps <;> omega
    have read : ∀ before ∈ ((log.read (.descriptor (2 * index.toNat + 1))).read
        (.descriptor (2 * index.toNat))).descriptors, before ∈ log.descriptors ∨
          before = 2 * index.toNat + 1 ∨ before = 2 * index.toNat := by
      intro before member
      simpa [or_assoc] using member
    have refused_iff := @range_refused objectSize offset _ (Int.not_le.mp positive)
    rw [exact] at refused_iff
    rw [if_neg (show ¬ encodedSize.toInt + objectSize.toNat ≤ 0 by omega)]
    by_cases refused : offset.toInt < 0 ∨ (objectSize.toNat : Int) < offset.toInt ∨
      (objectSize.toNat : Int) < offset.toInt + (encodedSize.toInt + objectSize.toNat)
    · rw [if_pos (refused_iff.mpr refused), if_pos refused]
      refine ⟨_, rfl, ?_, read, fun first => (reports first).read _⟩
      simp
    · rw [if_neg (refused_iff.not.mpr refused), if_neg refused]
      have range := toNat_of_nonneg (show 0 ≤ (encodedSize + objectSize).toInt by omega)
      have count : ((encodedSize + objectSize) / 8).toNat =
          (encodedSize.toInt + objectSize.toNat).toNat / 8 := by
        rw [BitVec.toNat_udiv, ← exact, ← range]
        rfl
      have few : ((encodedSize + objectSize) / 8).toNat < fuel := by
        omega
      rcases readRange ((encodedSize + objectSize) / 8) offset few with
        ⟨after, ran, slots, descriptors, reported⟩
      refine ⟨after, ran, ?_, ?_, fun first => reported ((reports first).read _)⟩
      · have start : offset.toInt.toNat = offset.toNat := by
          have same := toNat_of_nonneg (show 0 ≤ offset.toInt by omega)
          omega
        rw [slots, count, map_map]
        simp [Function.comp_def, start]
      · rw [descriptors]
        exact read

def acceptedSeries (words : Words) (objectSize : BitVec 64) : Nat :=
  if (words.before 1).sle 0 || !looksLikeValidSeriesCount (words.before 1) objectSize then 0
  else (words.before 1).toNat

theorem looksLikeValidSeriesCount_iff {count : BitVec 64} (positive : 0 < count.toInt)
    (small : objectSize.toNat < 2 ^ 63) :
    looksLikeValidSeriesCount count objectSize = true ↔ count.toNat ≤ objectSize.toNat / 8 + 1 := by
  have same := toNat_of_nonneg (Int.le_of_lt positive)
  have nonZero : count ≠ 0 := by
    rintro rfl
    exact absurd positive (by decide)
  have quotient : (objectSize / 8).toNat = objectSize.toNat / 8 := by
    rfl
  have most : (objectSize / 8 + 1).toNat = objectSize.toNat / 8 + 1 := by
    exact Nat.mod_eq_of_lt (by simp; omega)
  have signed := toInt_of_lt (show (objectSize / 8 + 1).toNat < 2 ^ 63 by omega)
  simp only [looksLikeValidSeriesCount, if_neg nonZero, slt_zero, decide_eq_true_eq,
    if_neg (show ¬ count.toInt < 0 by omega), BitVec.sle, signed, most]
  omega

theorem acceptedSeries_le (small : objectSize.toNat < 2 ^ 63) :
    acceptedSeries words objectSize ≤ objectSize.toNat / 8 + 1 := by
  simp only [acceptedSeries, sle_zero, Bool.or_eq_true, decide_eq_true_eq]
  split
  case isTrue => exact Nat.zero_le _
  case isFalse accepted =>
    rw [not_or, Int.not_le] at accepted
    apply (looksLikeValidSeriesCount_iff accepted.1 small).mp
    simpa using accepted.2

theorem enumerateObjectRefs_slots (small : objectSize.toNat < 2 ^ 63)
    (enough : objectSize.toNat / 8 + 2 ≤ fuel) :
    ∃ log, enumerateObjectRefs words objectAddress objectSize fuel = some log ∧
      log.slots = ((range (acceptedSeries words objectSize)).flatMap
        (fun index => seriesOffsets words objectSize (index + 1))).map (place objectAddress) ∧
      (∀ before ∈ log.descriptors, 1 ≤ before ∧
        before ≤ 2 * acceptedSeries words objectSize + 1) ∧
      log.Reports words objectAddress := by
  have most := @acceptedSeries_le words objectSize small
  simp only [enumerateObjectRefs]
  simp only [acceptedSeries, Bool.or_eq_true] at most ⊢
  by_cases none : (words.before 1).sle 0 = true
  · rw [if_pos none, if_pos (.inl none)]
    exact ⟨_, rfl, rfl, by simp [Log.descriptors], rfl⟩
  · rw [if_neg none]
    by_cases refused : (!looksLikeValidSeriesCount (words.before 1) objectSize) = true
    · rw [if_pos refused, if_pos (.inr refused)]
      exact ⟨_, rfl, rfl, by simp [Log.descriptors], rfl⟩
    · rw [if_neg (not_or.mpr ⟨none, refused⟩)] at most
      rw [if_neg refused, if_neg (not_or.mpr ⟨none, refused⟩)]
      apply forLoop_ule (fun count (log : Log) =>
        log.slots = ((range count).flatMap
          (fun index => seriesOffsets words objectSize (index + 1))).map (place objectAddress) ∧
        (∀ before ∈ log.descriptors, 1 ≤ before ∧ before ≤ 2 * count + 1) ∧
        log.Reports words objectAddress)
      · omega
      · omega
      · rintro count log inside ⟨slots, descriptors, reports⟩
        have index : (BitVec.ofNat 64 (count + 1)).toNat = count + 1 := by
          exact Nat.mod_eq_of_lt (by omega)
        rcases readSeries_slots small (show objectSize.toNat / 8 < fuel by omega)
          (BitVec.ofNat 64 (count + 1)) log with ⟨after, ran, more, read, reported⟩
        refine ⟨after, ran, ?_, ?_, reported reports⟩
        · rw [more, slots, index, range_succ, flatMap_append, map_append]
          simp
        · intro before member
          rcases read before member with old | new | new
          · have bounds := descriptors before old
            omega
          · omega
          · omega
      · exact ⟨rfl, by simp [Log.descriptors], rfl⟩

theorem objectSlots_eq {heap : Heap} {classID address : Nat}
    (described : (heap.methodTable classID).wordBefore = fun before => (words.before before).toInt)
    (small : objectSize.toNat < 2 ^ 63) :
    heap.objectSlots classID address objectSize.toNat =
      ((range (acceptedSeries words objectSize)).flatMap
        (fun index => seriesOffsets words objectSize (index + 1))).map (address + ·) := by
  have shifted : ∀ encodedSize offset,
      Heap.seriesSlots address objectSize.toNat encodedSize offset =
        (Heap.seriesSlots 0 objectSize.toNat encodedSize offset).map (address + ·) := by
    intro encodedSize offset
    simp only [Heap.seriesSlots]
    repeat' split
    · rfl
    · rfl
    · simp [Nat.add_assoc]
  simp only [Heap.objectSlots, described, acceptedSeries, sle_zero, Bool.or_eq_true,
    decide_eq_true_eq]
  by_cases none : (words.before 1).toInt ≤ 0
  · rw [if_pos none, if_pos (.inl none)]
    rfl
  · have positive := Int.not_le.mp none
    have same := toNat_of_nonneg (Int.le_of_lt positive)
    have agree : Heap.looksLikeValidSeriesCount (words.before 1).toInt objectSize.toNat =
        looksLikeValidSeriesCount (words.before 1) objectSize := by
      rw [Bool.eq_iff_iff, looksLikeValidSeriesCount_iff positive small]
      simp only [Heap.looksLikeValidSeriesCount, Bool.and_eq_true, bne_iff_ne, decide_eq_true_eq]
      omega
    rw [if_neg none, agree]
    by_cases refused : (!looksLikeValidSeriesCount (words.before 1) objectSize) = true
    · rw [if_pos refused, if_pos (.inr refused)]
      rfl
    · have count : (words.before 1).toInt.toNat = (words.before 1).toNat := by omega
      rw [if_neg refused, if_neg (not_or.mpr ⟨none, refused⟩), count, map_flatMap,
        range'_eq_map_range, flatMap_map]
      simp only [shifted, seriesOffsets, Nat.add_comm 1]

/-- The reader stays in the object and in the descriptor, whatever their words are, calls back for
the slots which are not null, and ends. -/
theorem object_reads_inside (words : Words) (objectAddress objectSize : BitVec 64) (fuel : Nat)
    (small : objectSize.toNat < 2 ^ 63) (enough : objectSize.toNat / 8 + 2 ≤ fuel) :
    ∃ log, enumerateObjectRefs words objectAddress objectSize fuel = some log ∧
      (∀ slot ∈ log.slots, ∃ offset, offset + 8 ≤ objectSize.toNat ∧
        slot = objectAddress + .ofNat 64 offset) ∧
      (∀ before ∈ log.descriptors, 1 ≤ before ∧ before ≤ 2 * acceptedSeries words objectSize + 1) ∧
      acceptedSeries words objectSize ≤ objectSize.toNat / 8 + 1 ∧
      log.found = log.slots.filterMap (foundAt words objectAddress) := by
  rcases @enumerateObjectRefs_slots words objectAddress objectSize fuel small enough with
    ⟨log, ran, slots, descriptors, reports⟩
  refine ⟨log, ran, ?_, descriptors, acceptedSeries_le small, reports⟩
  intro slot member
  rw [slots] at member
  rcases mem_map.mp member with ⟨offset, listed, rfl⟩
  rcases mem_flatMap.mp listed with ⟨index, _, inSeries⟩
  exact ⟨offset, seriesOffsets_bound inSeries, rfl⟩

/-- Two series of an object of 24 bytes: the first has both of its fields, of which one is null, the
size of the second wraps around. -/
def wrappingSeries : Words where
  before index := [0, 2, 8, -8, 0, 2 ^ 63 - 1].getD index 0
  content slot := if slot = 0x10010 then 0x20000 else 0

theorem wrapping_series_reads_inside :
    ∃ log, enumerateObjectRefs wrappingSeries 0x10000 24 5 = some log ∧
      log.slots = [0x10008, 0x10010] ∧
      (∀ slot ∈ log.slots, ∃ offset, offset + 8 ≤ 24 ∧ slot = 0x10000 + .ofNat 64 offset) ∧
      (∀ before ∈ log.descriptors, 1 ≤ before ∧ before ≤ 5) ∧
      log.found = [⟨0x10010, 0x20000, 16⟩] := by
  rcases object_reads_inside wrappingSeries 0x10000 24 5 (by decide) (by decide) with
    ⟨log, ran, inside, descriptors, -, found⟩
  have evaluated : (enumerateObjectRefs wrappingSeries 0x10000 24 5).map Log.slots =
      some [0x10008, 0x10010] := by
    decide +kernel
  rw [ran, Option.map_some, Option.some.injEq] at evaluated
  refine ⟨log, ran, evaluated, inside, descriptors, ?_⟩
  rw [found, evaluated]
  decide

end Pyroscope.HeapSnapshot.GCDesc
