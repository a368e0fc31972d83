import Pyroscope.HeapSnapshot.GCDesc

/-!
# The slots of an array of value types

The cursor of the reader is given by a closed formula.
-/

namespace Pyroscope.HeapSnapshot.GCDesc

open CountedLoop (forLoop forLoop_ult)
open BitVec
open List
open Words

namespace Words

variable (words : Words)

def nptrs (item : Nat) : Nat := (words.before (3 + item)).toNat % 2 ^ 32

def skip (item : Nat) : Nat := (words.before (3 + item)).toNat / 2 ^ 32

def offsetOfItem : Nat → Nat
  | 0 => 0
  | item + 1 => offsetOfItem item + 8 * words.nptrs item + words.skip item

def elementOffsets (items base : Nat) : List Nat :=
  (range items).flatMap fun item =>
    (range (words.nptrs item)).map fun pointer =>
      base + words.offsetOfItem item + 8 * pointer

def arrayOffsets (items elements start : Nat) : List Nat :=
  (range elements).flatMap fun element =>
    words.elementOffsets items (start + element * words.offsetOfItem items)

theorem toNat_nptrs (item : Nat) :
    ((words.before (3 + item) &&& 0xFFFFFFFF).setWidth 32).toNat = words.nptrs item := by
  have mask : (0xFFFFFFFF : BitVec 64).toNat = 2 ^ 32 - 1 := rfl
  rw [toNat_setWidth, toNat_and, mask, Nat.and_two_pow_sub_one_eq_mod, nptrs, Nat.mod_mod]

theorem toNat_skip (item : Nat) :
    ((((words.before (3 + item) >>> 32) &&& 0xFFFFFFFF).setWidth 32).setWidth 64).toNat =
      words.skip item := by
  have mask : (0xFFFFFFFF : BitVec 64).toNat = 2 ^ 32 - 1 := rfl
  rw [toNat_setWidth, toNat_setWidth, toNat_and, mask,
    Nat.and_two_pow_sub_one_eq_mod, toNat_ushiftRight, Nat.shiftRight_eq_div_pow, skip]
  omega

end Words

variable {words : Words} {log : Log} {arrayAddress : BitVec 64} {cursor : Cursor} {fuel : Nat}

/-!
### The cursor
-/

theorem place_ofNat_toNat (offset : Nat) (word : BitVec 64) :
    place arrayAddress offset + word = place arrayAddress (offset + word.toNat) := by
  rw [← place_add, ofNat_toNat, setWidth_eq]

/-- The cursor has moved, the slots on its way are read, and the callback has been called for them.
-/
structure Advanced (words : Words) (arrayAddress : BitVec 64) (cursor after : Cursor)
    (slots : List Nat) (position : Nat) : Prop where
  cur : after.cur = place arrayAddress position
  slots : after.log.slots = cursor.log.slots ++ slots.map (place arrayAddress)
  reports : cursor.log.Reports words arrayAddress → after.log.Reports words arrayAddress

theorem readPointers (words : Words) {start : Nat} (here : cursor.cur = place arrayAddress start)
    (nptrs : BitVec 32) (enough : nptrs.toNat < fuel) :
    ∃ after, forLoop (fun p => p.ult nptrs)
        (fun _ cursor => some (readNext words arrayAddress cursor)) fuel (0 : BitVec 32) cursor =
          some after ∧
      Advanced words arrayAddress cursor after
        ((range nptrs.toNat).map fun pointer => start + 8 * pointer)
        (start + 8 * nptrs.toNat) := by
  apply forLoop_ult (fun count (after : Cursor) => Advanced words arrayAddress cursor after
    ((range count).map fun pointer => start + 8 * pointer) (start + 8 * count)) enough
  · rintro count before - ⟨cur, slots, reports⟩
    refine ⟨_, rfl, ?_, ?_, fun first => (reports first).readSlot rfl⟩
    · simp only [readNext, cur]
      exact place_add _ _ 8
    · simp only [readNext, slots_readSlot, slots, cur, List.range_succ, List.map_append,
        List.map_cons, List.map_nil, List.append_assoc]
  · exact ⟨here, by simp, id⟩

theorem readItem_advances {base item : Nat} (bound : item < 2 ^ 64) (enough : 2 ^ 32 ≤ fuel)
    (here : cursor.cur = place arrayAddress (base + words.offsetOfItem item)) :
    ∃ after, readItem words arrayAddress fuel (.ofNat 64 item) cursor = some after ∧
      Advanced words arrayAddress cursor after
        ((range (words.nptrs item)).map fun pointer =>
          base + words.offsetOfItem item + 8 * pointer)
        (base + words.offsetOfItem (item + 1)) := by
  have index : (BitVec.ofNat 64 item).toNat = item := by
    rw [toNat_ofNat, Nat.mod_eq_of_lt bound]
  have few : ((words.before (3 + item) &&& 0xFFFFFFFF).setWidth 32).toNat < fuel :=
    Nat.lt_of_lt_of_le (BitVec.isLt _) enough
  have started : ({ cursor with log := cursor.log.read (.descriptor (3 + item)) } : Cursor).cur =
      place arrayAddress (base + words.offsetOfItem item) := here
  rcases readPointers words started _ few with ⟨after, ran, cur, slots, reports⟩
  rw [words.toNat_nptrs] at cur slots
  simp only [readItem, index, ran, Option.map_some]
  refine ⟨_, rfl, ?_, ?_, fun first => reports (first.read _)⟩
  · rw [cur, place_ofNat_toNat, words.toNat_skip, offsetOfItem]
    simp only [Nat.add_assoc]
  · rw [slots, Log.slots_read_descriptor]

theorem readElement_advances {base : Nat} {numValSerieItems elem : BitVec 64}
    (few : numValSerieItems.toNat < fuel) (enough : 2 ^ 32 ≤ fuel)
    (here : cursor.cur = place arrayAddress base) :
    ∃ after, readElement words arrayAddress numValSerieItems fuel elem cursor = some after ∧
      Advanced words arrayAddress cursor after (words.elementOffsets numValSerieItems.toNat base)
        (base + words.offsetOfItem numValSerieItems.toNat) := by
  apply forLoop_ult (fun count (after : Cursor) => Advanced words arrayAddress cursor after
    (words.elementOffsets count base) (base + words.offsetOfItem count)) few
  · rintro count before inside ⟨cur, slots, reports⟩
    rcases readItem_advances (show count < 2 ^ 64 by omega) enough cur with
      ⟨after, ran, moved, more, reported⟩
    refine ⟨after, ran, moved, ?_, reported ∘ reports⟩
    rw [more, slots, elementOffsets, elementOffsets, range_succ, flatMap_append, map_append]
    simp
  · exact ⟨here, by simp [elementOffsets], id⟩

/-- What the checks of the source let pass. -/
structure Words.Accepted (words : Words) : Prop where
  isArray : (words.before 1).slt 0 = true
  fewItems : (-words.before 1).toNat ≤ 0xFFFF
  startInside : (words.before 2).slt 0 = false

def Words.items (words : Words) : Nat := (-words.before 1).toNat

def Words.start (words : Words) : Nat := (words.before 2).toNat

def Words.stride (words : Words) : Nat := words.offsetOfItem words.items

theorem enumerateVTArrayRefs_slots (accepted : words.Accepted) (elements : BitVec 64)
    (enough : 2 ^ 64 ≤ fuel) :
    ∃ log, enumerateVTArrayRefs words arrayAddress elements fuel = some log ∧
      log.slots =
        (words.arrayOffsets words.items elements.toNat words.start).map (place arrayAddress) ∧
      log.Reports words arrayAddress := by
  have few : (-words.before 1).toNat < fuel := Nat.lt_of_lt_of_le (BitVec.isLt _) enough
  have items : maxValSerieItems.ult (-words.before 1) = false := by
    simpa [BitVec.ult, maxValSerieItems] using accepted.fewItems
  have first : arrayAddress + words.before 2 = place arrayAddress words.start := by
    simp [place, Words.start]
  have run : ∃ after, forLoop (fun elem => elem.ult elements)
      (readElement words arrayAddress (-words.before 1) fuel) fuel 0
      ⟨arrayAddress + words.before 2, ⟨[.descriptor 1, .descriptor 2], []⟩⟩ = some after ∧
      Advanced words arrayAddress
        ⟨arrayAddress + words.before 2, ⟨[.descriptor 1, .descriptor 2], []⟩⟩ after
        (words.arrayOffsets words.items elements.toNat words.start)
        (words.start + elements.toNat * words.stride) := by
    apply forLoop_ult (fun count (after : Cursor) => Advanced words arrayAddress _ after
      (words.arrayOffsets words.items count words.start) (words.start + count * words.stride))
    · exact Nat.lt_of_lt_of_le elements.isLt enough
    · rintro count before - ⟨cur, slots, reports⟩
      rcases readElement_advances few (by omega) cur with ⟨after, ran, moved, more, reported⟩
      refine ⟨after, ran, ?_, ?_, reported ∘ reports⟩
      · rw [moved, Nat.add_mul, Nat.one_mul, Nat.add_assoc]
        rfl
      · rw [more, slots, Words.arrayOffsets, Words.arrayOffsets, List.range_succ,
          List.flatMap_append, List.map_append]
        simp [Words.stride, Words.items]
    · exact ⟨by simpa using first, by simp [Words.arrayOffsets], id⟩
  rcases run with ⟨after, ran, -, slots, reports⟩
  refine ⟨after.log, ?_, ?_, reports rfl⟩
  · simp only [enumerateVTArrayRefs, accepted.isArray, items, accepted.startInside, Bool.not_true,
      Bool.false_eq_true, if_false, Log.read, List.cons_append, List.nil_append, ran,
      Option.map_some]
  · rw [slots]
    rfl

/-!
### The order of the slots
-/

theorem Words.offsetOfItem_mono {first second : Nat} (ordered : first ≤ second) :
    words.offsetOfItem first ≤ words.offsetOfItem second := by
  induction ordered with
  | refl => exact Nat.le_refl _
  | step _ ih =>
    apply ih.trans
    rw [offsetOfItem, Nat.add_assoc]
    exact Nat.le_add_right _ _

theorem Words.slot_of_item {item pointer : Nat} (within : pointer < words.nptrs item) :
    words.offsetOfItem item + 8 * pointer + 8 ≤ words.offsetOfItem (item + 1) := by
  rw [offsetOfItem]
  omega

theorem Words.mem_elementOffsets {items base offset : Nat} :
    offset ∈ words.elementOffsets items base ↔ ∃ item < items, ∃ pointer < words.nptrs item,
      offset = base + words.offsetOfItem item + 8 * pointer := by
  simp only [elementOffsets, mem_flatMap, mem_range, mem_map]
  constructor
  · rintro ⟨item, inside, pointer, within, rfl⟩
    exact ⟨item, inside, pointer, within, rfl⟩
  · rintro ⟨item, inside, pointer, within, rfl⟩
    exact ⟨item, inside, pointer, within, rfl⟩

theorem Words.elementOffsets_bound {items base offset : Nat}
    (member : offset ∈ words.elementOffsets items base) :
    base ≤ offset ∧ offset + 8 ≤ base + words.offsetOfItem items := by
  rcases mem_elementOffsets.mp member with ⟨item, inside, pointer, within, rfl⟩
  have ends := slot_of_item within
  have before := @offsetOfItem_mono words (item + 1) items inside
  omega

theorem Words.elementOffsets_increasing (items base : Nat) :
    (words.elementOffsets items base).Pairwise (· < ·) := by
  rw [elementOffsets, pairwise_flatMap]
  constructor
  · intro item _
    rw [pairwise_map]
    exact pairwise_lt_range.imp (fun ordered => by omega)
  · apply pairwise_lt_range.imp
    intro first second ordered offset inFirst other inSecond
    rcases mem_map.mp inFirst with ⟨pointer, listed, rfl⟩
    rcases mem_map.mp inSecond with ⟨next, _, rfl⟩
    have ends := slot_of_item (mem_range.mp listed)
    have behind := @offsetOfItem_mono words (first + 1) second ordered
    omega

theorem Words.arrayOffsets_increasing (items elements start : Nat) :
    (words.arrayOffsets items elements start).Pairwise (· < ·) := by
  rw [arrayOffsets, pairwise_flatMap]
  constructor
  · intro element _
    exact elementOffsets_increasing items _
  · apply pairwise_lt_range.imp
    intro first second ordered offset inFirst other inSecond
    have ends := (elementOffsets_bound inFirst).2
    have begins := (elementOffsets_bound inSecond).1
    have apart : (first + 1) * words.offsetOfItem items ≤ second * words.offsetOfItem items :=
      Nat.mul_le_mul_right _ ordered
    rw [Nat.add_mul, Nat.one_mul] at apart
    omega

theorem Words.mem_arrayOffsets {items elements start offset : Nat} :
    offset ∈ words.arrayOffsets items elements start ↔
      ∃ element < elements, ∃ item < items, ∃ pointer < words.nptrs item,
        offset = start + element * words.offsetOfItem items + words.offsetOfItem item +
          8 * pointer := by
  simp only [arrayOffsets, mem_flatMap, mem_range, mem_elementOffsets]

theorem Words.arrayOffsets_bound {items elements start offset : Nat}
    (member : offset ∈ words.arrayOffsets items elements start) :
    offset + 8 ≤ start + elements * words.offsetOfItem items := by
  simp only [arrayOffsets, mem_flatMap, mem_range] at member
  rcases member with ⟨element, inside, listed⟩
  have ends := (elementOffsets_bound listed).2
  have before : (element + 1) * words.offsetOfItem items ≤ elements * words.offsetOfItem items :=
    Nat.mul_le_mul_right _ inside
  rw [Nat.add_mul, Nat.one_mul] at before
  omega

/-!
### The plain model
-/

theorem getNptrs_toInt (item : Nat) :
    Heap.getNptrs (words.before (3 + item)).toInt = words.nptrs item := by
  simp only [Heap.getNptrs, nptrs, toInt_eq_toNat_cond]
  split <;> omega

theorem getSkip_toInt (item : Nat) :
    Heap.getSkip (words.before (3 + item)).toInt = words.skip item := by
  simp only [Heap.getSkip, skip, toInt_eq_toNat_cond]
  split <;> omega

theorem elementSlots_eq (base first items : Nat) :
    Heap.elementSlots ((range' first items).map fun item => (words.before (3 + item)).toInt)
        (base + words.offsetOfItem first) =
      ((range' first items).flatMap fun item =>
        (range (words.nptrs item)).map fun pointer =>
          base + words.offsetOfItem item + 8 * pointer,
        base + words.offsetOfItem (first + items)) := by
  induction items generalizing first with
  | zero => rfl
  | succ items ih =>
    have next : base + words.offsetOfItem first + words.nptrs first * 8 + words.skip first =
        base + words.offsetOfItem (first + 1) := by
      rw [offsetOfItem]
      omega
    simp only [range'_succ, map_cons, Heap.elementSlots, getNptrs_toInt,
      getSkip_toInt, next, ih, flatMap_cons, Nat.mul_comm 8, Nat.add_right_comm first 1,
      Nat.add_assoc first]

theorem elementsSlots_eq (items elements base : Nat) :
    Heap.elementsSlots ((range items).map fun item => (words.before (3 + item)).toInt)
        elements base =
      words.arrayOffsets items elements base := by
  induction elements generalizing base with
  | zero => rfl
  | succ elements ih =>
    have element := @elementSlots_eq words base 0 items
    rw [← range_eq_range', Nat.zero_add] at element
    have moved : ∀ index, base + (index + 1) * words.offsetOfItem items =
        base + words.offsetOfItem items + index * words.offsetOfItem items := by
      intro index
      rw [Nat.add_mul, Nat.one_mul]
      omega
    simp only [Heap.elementsSlots, offsetOfItem, Nat.add_zero] at element ⊢
    rw [element, ih, arrayOffsets, arrayOffsets, range_succ_eq_map,
      flatMap_cons, flatMap_map, Nat.zero_mul, Nat.add_zero, elementOffsets]
    simp only [moved]

theorem arraySlots_eq {heap : Heap} {classID address elements : Nat} (accepted : words.Accepted)
    (described : (heap.methodTable classID).wordBefore =
      fun before => (words.before before).toInt) :
    heap.arraySlots classID address elements =
      (words.arrayOffsets words.items elements words.start).map (address + ·) := by
  have isArray : (words.before 1).toInt < 0 := of_decide_eq_true accepted.isArray
  have count : (words.before 1).toInt.natAbs = words.items := by
    rw [toInt_eq_toNat_cond] at isArray ⊢
    rw [items, toNat_neg]
    split at isArray <;> omega
  have startInside : ¬ (words.before 2).toInt < 0 := of_decide_eq_false accepted.startInside
  have start : (words.before 2).toInt.toNat = words.start := by
    have same := toNat_of_nonneg (Int.not_lt.mp startInside)
    rw [start]
    omega
  have few : ¬ Heap.maxValSerieItems < words.items := Nat.not_lt.mpr accepted.fewItems
  have shifted : ∀ base, words.arrayOffsets words.items elements (address + base) =
      (words.arrayOffsets words.items elements base).map (address + ·) := by
    intro base
    simp only [arrayOffsets, elementOffsets, map_flatMap, map_map, Function.comp_def, Nat.add_assoc]
  simp only [Heap.arraySlots, described, count]
  rw [if_neg (Int.not_le.mpr isArray), if_neg few, if_neg startInside, elementsSlots_eq, start,
    shifted]

/-!
### The number of elements
-/

theorem totalElements_eq (dimensionSizes : List (BitVec 32)) (total : BitVec 64) :
    (totalElements dimensionSizes total).map BitVec.toNat =
      Heap.totalElements (dimensionSizes.map BitVec.toNat) total.toNat := by
  induction dimensionSizes generalizing total with
  | nil => rfl
  | cons size rest ih =>
    have dim : (size.setWidth 64).toNat = size.toNat := by
      rw [toNat_setWidth, Nat.mod_eq_of_lt (by have := size.isLt; omega)]
    have quotient : (BitVec.allOnes 64 / size.setWidth 64).toNat = (2 ^ 64 - 1) / size.toNat := by
      rw [toNat_udiv, dim, toNat_allOnes]
    have zero_iff : size.setWidth 64 ≠ 0 ↔ size.toNat ≠ 0 := by
      rw [not_iff_not, ← toNat_inj, dim]
      rfl
    have refused_iff : (size.setWidth 64 ≠ 0 ∧
        (BitVec.allOnes 64 / size.setWidth 64).ult total = true) ↔
          size.toNat ≠ 0 ∧ (2 ^ 64 - 1) / size.toNat < total.toNat := by
      rw [zero_iff, BitVec.ult, quotient, decide_eq_true_eq]
    simp only [totalElements, map_cons, Heap.totalElements]
    by_cases refused : size.toNat ≠ 0 ∧ (2 ^ 64 - 1) / size.toNat < total.toNat
    · rw [if_pos (refused_iff.mpr refused), if_pos refused, Option.map_none]
    · rw [if_neg (refused_iff.not.mpr refused), if_neg refused, ih, toNat_mul, dim]
      have fits : total.toNat * size.toNat < 2 ^ 64 := by
        rcases Nat.eq_zero_or_pos size.toNat with none | positive
        · rw [none, Nat.mul_zero]
          exact Nat.two_pow_pos 64
        · have small := Nat.not_lt.mp (fun large => refused ⟨positive.ne', large⟩)
          have product := (Nat.le_div_iff_mul_le positive).mp small
          omega
      rw [Nat.mod_eq_of_lt fits]

theorem heap_totalElements_eq {dimensionSizes : List Nat} {total elements : Nat}
    (counted : Heap.totalElements dimensionSizes total = some elements) :
    elements = total * dimensionSizes.prod := by
  induction dimensionSizes generalizing total with
  | nil =>
    cases counted
    exact (Nat.mul_one _).symm
  | cons size rest ih =>
    simp only [Heap.totalElements] at counted
    split at counted
    case isTrue => exact absurd counted nofun
    case isFalse => rw [ih counted, prod_cons, Nat.mul_assoc]

theorem totalElements_refused {dimensionSizes : List (BitVec 32)}
    (overflow : 2 ^ 64 ≤ (dimensionSizes.map BitVec.toNat).prod) :
    totalElements dimensionSizes 1 = none := by
  cases counted : totalElements dimensionSizes 1 with
  | none => rfl
  | some elements =>
    have plain := totalElements_eq dimensionSizes 1
    rw [counted, Option.map_some] at plain
    have product := heap_totalElements_eq plain.symm
    rw [show (1 : BitVec 64).toNat = 1 from rfl, Nat.one_mul] at product
    omega

theorem places_increasing {offsets : List Nat} {size : Nat}
    (increasing : offsets.Pairwise (· < ·)) (inside : ∀ offset ∈ offsets, offset + 8 ≤ size)
    (mapped : arrayAddress.toNat + size ≤ 2 ^ 64) :
    ((offsets.map (place arrayAddress)).map BitVec.toNat).Pairwise (· < ·) := by
  have exact : ∀ offset ∈ offsets, (place arrayAddress offset).toNat =
      arrayAddress.toNat + offset := by
    intro offset member
    have bound := inside offset member
    rw [place, toNat_add, toNat_ofNat, Nat.add_mod_mod, Nat.mod_eq_of_lt (by omega)]
  rw [map_map, pairwise_map]
  refine increasing.imp_of_mem ?_
  intro first second inFirst inSecond ordered
  simp only [Function.comp_apply, exact first inFirst, exact second inSecond]
  omega

/--
The reader visits the slots of the formula in increasing order, each of them once. They lie in the
array when its elements do, and then they are in order as addresses too. The callback is called for
those which are not null. A number of elements which overflows is refused; any other one is the
product of the dimensions.
-/
theorem array_reads_exact (words : Words) (arrayAddress elements : BitVec 64)
    (dimensionSizes : List (BitVec 32)) (fuel : Nat) (accepted : words.Accepted)
    (enough : 2 ^ 64 ≤ fuel) :
    (∃ (log : Log) (offsets : List Nat),
      enumerateVTArrayRefs words arrayAddress elements fuel = some log ∧
      log.slots = offsets.map (arrayAddress + .ofNat 64 ·) ∧
      log.found = log.slots.filterMap (foundAt words arrayAddress) ∧
      (∀ offset, offset ∈ offsets ↔
        ∃ element < elements.toNat, ∃ item < words.items, ∃ pointer < words.nptrs item,
          offset = words.start + element * words.stride + words.offsetOfItem item + 8 * pointer) ∧
      offsets.Pairwise (· < ·) ∧
      ∀ size, words.start + elements.toNat * words.stride ≤ size →
        (∀ offset ∈ offsets, offset + 8 ≤ size) ∧
        (arrayAddress.toNat + size ≤ 2 ^ 64 → (log.slots.map BitVec.toNat).Pairwise (· < ·))) ∧
    (2 ^ 64 ≤ (dimensionSizes.map BitVec.toNat).prod →
      enumerateArray words arrayAddress dimensionSizes fuel = some ⟨[], []⟩) ∧
    (totalElements dimensionSizes 1 = some elements → elements ≠ 0 →
      elements.toNat = (dimensionSizes.map BitVec.toNat).prod ∧
      enumerateArray words arrayAddress dimensionSizes fuel =
        enumerateVTArrayRefs words arrayAddress elements fuel) := by
  refine ⟨?_, ?_, ?_⟩
  · rcases @enumerateVTArrayRefs_slots words arrayAddress fuel accepted elements enough with
      ⟨log, ran, slots, reports⟩
    have increasing := @arrayOffsets_increasing words words.items elements.toNat words.start
    refine ⟨log, _, ran, slots, reports, fun offset => mem_arrayOffsets, increasing, ?_⟩
    intro size within
    have inside : ∀ offset ∈ words.arrayOffsets words.items elements.toNat words.start,
        offset + 8 ≤ size := by
      intro offset member
      exact (arrayOffsets_bound member).trans within
    refine ⟨inside, ?_⟩
    intro mapped
    rw [slots]
    exact places_increasing increasing inside mapped
  · intro overflow
    rw [enumerateArray, totalElements_refused overflow]
  · intro counted some
    have plain := totalElements_eq dimensionSizes 1
    rw [counted, Option.map_some] at plain
    refine ⟨(heap_totalElements_eq plain.symm).trans (Nat.one_mul _), ?_⟩
    rw [enumerateArray, counted]
    exact if_neg some

/-- Elements of 24 bytes from offset 16 on: a pointer, a gap of 8 bytes and another pointer. -/
def pairedItems : Words where
  before index := [0, -2, 16, 2 ^ 35 + 1, 1].getD index 0
  content slot := slot + 0x100

theorem paired_items_in_order :
    pairedItems.stride = 24 ∧
    ∃ (log : Log) (offsets : List Nat),
      enumerateVTArrayRefs pairedItems 0x10000 2 (2 ^ 64) = some log ∧
      log.slots = offsets.map (0x10000 + .ofNat 64 ·) ∧
      log.found = log.slots.filterMap (foundAt pairedItems 0x10000) ∧
      (∀ offset ∈ [16, 32, 40, 56], offset ∈ offsets) ∧
      offsets.Pairwise (· < ·) ∧ ∀ offset ∈ offsets, offset + 8 ≤ 64 := by
  have accepted : pairedItems.Accepted := ⟨by decide, by decide, by decide⟩
  rcases (array_reads_exact pairedItems 0x10000 2 [2] (2 ^ 64) accepted (Nat.le_refl _)).1 with
    ⟨log, offsets, ran, slots, found, members, increasing, inside⟩
  refine ⟨by decide, log, offsets, ran, slots, found, ?_, increasing, (inside 64 (by decide)).1⟩
  intro offset listed
  simp only [mem_cons, not_mem_nil, or_false] at listed
  apply (members offset).mpr
  rcases listed with rfl | rfl | rfl | rfl
  · exact ⟨0, by decide, 0, by decide, 0, by decide, by decide⟩
  · exact ⟨0, by decide, 1, by decide, 0, by decide, by decide⟩
  · exact ⟨1, by decide, 0, by decide, 0, by decide, by decide⟩
  · exact ⟨1, by decide, 1, by decide, 0, by decide, by decide⟩

theorem places_toNat {offsets : List Nat} {size : Nat}
    (inside : ∀ offset ∈ offsets, offset + 8 ≤ size) (mapped : arrayAddress.toNat + size ≤ 2 ^ 64) :
    (offsets.map (place arrayAddress)).map BitVec.toNat =
      offsets.map (arrayAddress.toNat + ·) := by
  rw [map_map]
  apply map_congr_left
  intro offset member
  have bound := inside offset member
  simp only [Function.comp_apply, place, toNat_add, toNat_ofNat]
  omega

/-- In memory, the readers visit the slots which the walk takes from the same method table. -/
theorem readers_visit_walk_slots (heap : Heap) (classID : Nat) (words : Words) (address : BitVec 64)
    (described : (heap.methodTable classID).wordBefore = fun before => (words.before before).toInt)
    (fuel : Nat) (enough : 2 ^ 64 ≤ fuel) :
    (∀ size : BitVec 64, size.toNat < 2 ^ 63 → address.toNat + size.toNat ≤ 2 ^ 64 →
      ∃ log, enumerateObjectRefs words address size fuel = some log ∧
        log.slots.map BitVec.toNat = heap.objectSlots classID address.toNat size.toNat) ∧
    (∀ elements : BitVec 64, words.Accepted →
      address.toNat + (words.start + elements.toNat * words.stride) ≤ 2 ^ 64 →
      ∃ log, enumerateVTArrayRefs words address elements fuel = some log ∧
        log.slots.map BitVec.toNat = heap.arraySlots classID address.toNat elements.toNat) := by
  constructor
  · intro size small mapped
    rcases @enumerateObjectRefs_slots words address size fuel small (by omega) with
      ⟨log, ran, slots, -⟩
    refine ⟨log, ran, ?_⟩
    rw [slots, objectSlots_eq described small]
    refine places_toNat ?_ mapped
    intro offset member
    rcases mem_flatMap.mp member with ⟨index, -, inSeries⟩
    exact seriesOffsets_bound inSeries
  · intro elements accepted mapped
    rcases enumerateVTArrayRefs_slots accepted elements enough with ⟨log, ran, slots, -⟩
    refine ⟨log, ran, ?_⟩
    rw [slots, arraySlots_eq accepted described]
    exact places_toNat (fun offset member => arrayOffsets_bound member) mapped

def describedHeap (words : Words) : Heap where
  word _ := 0
  methodTable _ := ⟨0, fun before => (words.before before).toInt⟩
  getClassFromObject _ := none
  getObjectSize2 _ := none
  isArrayClass _ := none
  getArrayObjectInfo _ _ := none
  getClassLayout _ := none
  objects := []
  finite _ unknown := absurd rfl unknown

theorem wrapping_series_visited :
    (∃ log, enumerateObjectRefs wrappingSeries 0x10000 24 (2 ^ 64) = some log ∧
      log.slots.map BitVec.toNat = (describedHeap wrappingSeries).objectSlots 1 0x10000 24) ∧
    ∃ log, enumerateVTArrayRefs pairedItems 0x10000 2 (2 ^ 64) = some log ∧
      log.slots.map BitVec.toNat = (describedHeap pairedItems).arraySlots 1 0x10000 2 :=
  ⟨(readers_visit_walk_slots _ 1 wrappingSeries _ rfl _ (Nat.le_refl _)).1 24 (by decide)
      (by decide),
    (readers_visit_walk_slots _ 1 pairedItems _ rfl _ (Nat.le_refl _)).2 2
      ⟨by decide, by decide, by decide⟩ (by decide)⟩

end Pyroscope.HeapSnapshot.GCDesc
