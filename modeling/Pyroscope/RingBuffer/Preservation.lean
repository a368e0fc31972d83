import Pyroscope.RingBuffer.Invariant

/-!
# Every call keeps the representation

One lemma per call: it takes the representation of a ledger to that of the extended ledger.
-/

namespace Pyroscope.RingBuffer

open MirroredMemory Transition List BitVec

section Memory

variable {size base count stride index other byte address : Nat} {rb : RingBufferImpl}
  {word : BitVec 64}

@[simp]
theorem header_moveWriter (rb : RingBufferImpl) (position : BitVec 64) (offset : Nat) :
    { rb with writerPos := position }.header offset = rb.header offset :=
  rfl

theorem header_setHeader (fits : 8 ≤ rb.dataSize.toNat)
    (reaches : address % rb.dataSize.toNat = other % rb.dataSize.toNat) :
    (rb.setHeader address word).header other = word := by
  change loadWord rb.dataSize.toNat (storeWord rb.dataSize.toNat rb.data address word) other = word
  rw [storeWord_congr reaches, loadWord_storeWord_self fits]

theorem load_setHeader (window : (count - base) * stride < rb.dataSize.toNat)
    (reaches : address % rb.dataSize.toNat = other * stride % rb.dataSize.toNat)
    (wide : 8 ≤ stride) (lower : base ≤ index) (upper : index < count)
    (otherLower : base ≤ other) (otherUpper : other < count) (inside : byte < stride)
    (distinct : index ≠ other ∨ 8 ≤ byte) :
    load rb.dataSize.toNat (rb.setHeader address word).data (index * stride + byte) =
      load rb.dataSize.toNat rb.data (index * stride + byte) := by
  change load rb.dataSize.toNat (storeWord rb.dataSize.toNat rb.data address word) _ = _
  rw [storeWord_congr reaches]
  apply load_storeWord_of_apart
  intro headerByte bound
  exact slot_bytes_apart window lower upper otherLower otherUpper inside (by omega) (by omega)

theorem load_writeByte {buffer : Buffer} {offset : Nat} {stored : BitVec 8}
    (window : (count - base) * stride < rb.dataSize.toNat)
    (reaches : (buffer.data + offset) % rb.dataSize.toNat =
      (other * stride + (8 + offset)) % rb.dataSize.toNat)
    (lower : base ≤ index) (upper : index < count)
    (otherLower : base ≤ other) (otherUpper : other < count) (inside : byte < stride)
    (offsetInside : 8 + offset < stride) (distinct : index ≠ other ∨ byte ≠ 8 + offset) :
    load rb.dataSize.toNat (rb.writeByte buffer offset stored).data (index * stride + byte) =
      load rb.dataSize.toNat rb.data (index * stride + byte) := by
  change load rb.dataSize.toNat (store rb.dataSize.toNat rb.data _ stored) _ = _
  rw [store_congr reaches]
  apply load_store_of_apart
  exact slot_bytes_apart window lower upper otherLower otherUpper inside offsetInside distinct

end Memory

section Owners

variable {entries : List Reservation} {buffer other : Buffer}

theorem reserved_update_write (offset : Nat) (byte : BitVec 8) :
    (∃ entry ∈ update entries buffer fun entry => entry.write offset byte,
      entry.status = .reserved ∧ entry.buffer = other) ↔
    ∃ entry ∈ entries, entry.status = .reserved ∧ entry.buffer = other := by
  simp only [update, mem_map, exists_exists_and_eq_and]
  apply exists_congr
  intro entry
  apply and_congr_right
  intro _
  split <;> rfl

theorem reserved_update_settle {status : Status} (settles : status ≠ .reserved) :
    (∃ entry ∈ update entries buffer fun entry => entry.settle status,
      entry.status = .reserved ∧ entry.buffer = other) ↔
    other ≠ buffer ∧ ∃ entry ∈ entries, entry.status = .reserved ∧ entry.buffer = other := by
  simp only [update, mem_map, exists_exists_and_eq_and]
  constructor
  · rintro ⟨entry, mem, reserved, same⟩
    split at reserved
    · exact absurd reserved settles
    · rename_i notOwner
      simp only [if_neg notOwner] at same
      refine ⟨?_, entry, mem, reserved, same⟩
      rintro rfl
      exact notOwner ⟨reserved, same⟩
  · rintro ⟨distinct, entry, mem, reserved, same⟩
    have notOwner : ¬(entry.status = .reserved ∧ entry.buffer = buffer) := by
      rintro ⟨_, owned⟩
      exact distinct (same.symm.trans owned)
    exact ⟨entry, mem, by simp only [if_neg notOwner]; exact ⟨reserved, same⟩⟩

theorem mem_owned : other ∈ owned (some buffer) ↔ other.isEmpty = false ∧ buffer = other := by
  cases empty : buffer.isEmpty with
  | true =>
    simp only [owned, Option.filter, empty, Bool.not_true, Bool.false_eq_true, if_false,
      Option.toList_none, not_mem_nil, false_iff]
    rintro ⟨notEmpty, rfl⟩
    simp [empty] at notEmpty
  | false =>
    simp only [owned, Option.filter, empty, Bool.not_false, if_true, Option.toList_some,
      mem_singleton]
    constructor
    · rintro rfl
      exact ⟨empty, rfl⟩
    · exact fun owns => owns.2.symm

theorem nodup_owned (result : Option Buffer) : (owned result).Nodup := by
  unfold owned
  cases result.filter fun buffer => !buffer.isEmpty <;> simp

end Owners

namespace Represents

variable {mapping : Mapping} {sampleSize : BitVec 64} {events : List Event} {state : State}
  {base consumed : Nat} {buffer : Buffer} {index : Nat} {entry : Reservation}
  {change : Reservation → Reservation}

theorem initial (mapping : Mapping) (sampleSize : BitVec 64) :
    Represents mapping sampleSize [] (system mapping sampleSize).init 0 0 where
  mask_eq := mapping.mask_toNat sampleSize
  dataSize_eq := mapping.dataSize_toNat sampleSize
  sampleSize_eq := rfl
  base_le := Nat.le_refl 0
  delivered := ⟨Nat.zero_le _, by simp, by simp [returned, committed]⟩
  writerPos_eq := by simp [ledger, system, emptyBuffer]
  readerPos_eq := by simp [system, emptyBuffer]
  intermediate_eq := by simp [system, emptyBuffer]
  window := by
    have lower := mapping.capacity_lower
    simp only [ledger, foldl_nil, length_nil, Nat.zero_sub, Nat.zero_mul]
    omega
  stride_bounds := by simp [ledger]
  buffers := by simp [ledger]
  slots := by simp [ledger]
  held_nodup := nodup_nil
  held_iff := by simp [ledger, system]
  empty_reserved := by simp [ledger]
  reader_eq := by simp [system]

theorem index_eq_of_buffer_eq {count left right : Nat}
    (window : (count - base) * strideOf sampleSize < mapping.capacity)
    (notZero : strideOf sampleSize ≠ 0) (leftLower : base ≤ left) (leftUpper : left < count)
    (rightLower : base ≤ right) (rightUpper : right < count)
    (same : left * strideOf sampleSize % mapping.capacity =
      right * strideOf sampleSize % mapping.capacity) : left = right := by
  by_contra distinct
  have positive : 0 < strideOf sampleSize := Nat.pos_of_ne_zero notZero
  exact slot_bytes_apart window leftLower leftUpper rightLower rightUpper positive positive
    (Or.inl distinct) same

private theorem getElem?_snoc {entries : List Reservation} {last entry : Reservation}
    {index : Nat} (found : (entries ++ [last])[index]? = some entry) :
    (index < entries.length ∧ entries[index]? = some entry) ∨
      (index = entries.length ∧ entry = last) := by
  rw [getElem?_append] at found
  split at found
  · rename_i below
    exact Or.inl ⟨below, found⟩
  · rename_i above
    rw [getElem?_singleton] at found
    split at found
    · exact Or.inr ⟨by omega, (Option.some.inj found).symm⟩
    · contradiction

/-- Reservation number `index` is the one which owns a held buffer. -/
structure Owner (mapping : Mapping) (sampleSize : BitVec 64) (entries : List Reservation)
    (consumed : Nat) (buffer : Buffer) (index : Nat) (entry : Reservation) : Prop where
  found : entries[index]? = some entry
  reserved : entry.status = .reserved
  past : consumed ≤ index
  buffer_eq : buffer = ⟨index * strideOf sampleSize % mapping.capacity + 8, sampleSize⟩
  same_buffer : entry.buffer = buffer
  unique : ∀ (index' : Nat) (entry' : Reservation), entries[index']? = some entry' →
    entry'.status = .reserved → entry'.buffer = buffer → index' = index

section

variable {entries : List Reservation}
  (owner : Owner mapping sampleSize entries consumed buffer index entry)
include owner

theorem Owner.bound : index < entries.length :=
  (List.getElem?_eq_some_iff.mp owner.found).1

theorem Owner.getElem?_update {index' : Nat} {entry' : Reservation}
    (found' : (update entries buffer change)[index']? = some entry') :
    (index' = index ∧ entry' = change entry) ∨
      (index' ≠ index ∧ entries[index']? = some entry') := by
  rw [RingBuffer.getElem?_update, Option.map_eq_some_iff] at found'
  rcases found' with ⟨old, foundOld, changed⟩
  split at changed
  · rename_i owns
    have same := owner.unique index' old foundOld owns.1 owns.2
    subst index'
    rw [owner.found] at foundOld
    cases foundOld
    exact Or.inl ⟨rfl, changed.symm⟩
  · rename_i notOwner
    subst old
    refine Or.inr ⟨?_, foundOld⟩
    rintro rfl
    rw [owner.found] at foundOld
    cases foundOld
    exact notOwner ⟨owner.reserved, owner.same_buffer⟩

end

variable (represents : Represents mapping sampleSize events state base consumed)
  {ownsLock timedOut : Bool} {events' : List Event} {rb : RingBufferImpl}
include represents

theorem covers (addressable : sampleSize.toNat ≤ 2 ^ 64 - 8)
    (someReserved : 0 < (ledger events).length) :
    BufferHeader.Plain sampleSize ∧ sampleSize.toNat + 8 ≤ strideOf sampleSize := by
  rcases represents.stride_bounds someReserved with ⟨notZero, small⟩
  exact sampleSize_of_stride addressable notZero (Nat.lt_of_lt_of_le small mapping.capacity_upper)

theorem base_le_length : base ≤ (ledger events).length :=
  Nat.le_trans represents.base_le represents.delivered.bound

theorem stride_eq : state.rb.stride = BitVec.ofNat 64 (strideOf sampleSize) := by
  rw [RingBufferImpl.stride, represents.sampleSize_eq, strideOf, BitVec.ofNat_toNat]
  simp

theorem of_same_ledger {consumed' : Nat} {position : BitVec 64} {reader : Option (BitVec 64)}
    (sameLedger : ledger events' = ledger events) (base_le : base ≤ consumed')
    (delivered : Delivered events' consumed')
    (intermediate_eq : position = BitVec.ofNat 64 (consumed' * strideOf sampleSize))
    (reader_eq : ∀ tail, reader = some tail →
      tail = BitVec.ofNat 64 (snapshot events' * strideOf sampleSize) ∧
        consumed' ≤ snapshot events' ∧ snapshot events' ≤ (ledger events).length) :
    Represents mapping sampleSize events'
      { state with rb := { state.rb with intermediateReaderPos := position }, reader := reader }
      base consumed' := by
  rcases represents with ⟨mask_eq, dataSize_eq, sampleSize_eq, _, _, writerPos_eq, readerPos_eq, _,
    window, stride_bounds, buffers, slots, held_nodup, held_iff, empty_reserved, _⟩
  rw [← sameLedger] at writerPos_eq window stride_bounds buffers slots held_iff empty_reserved
  rw [← sameLedger] at reader_eq
  refine ⟨mask_eq, dataSize_eq, sampleSize_eq, base_le, delivered, writerPos_eq, readerPos_eq,
    intermediate_eq, window, stride_bounds, buffers, ?_, held_nodup, held_iff, empty_reserved,
    reader_eq⟩
  intro index entry lower found
  exact { slots index entry lower found with }

theorem of_same_history (sameLedger : ledger events' = ledger events)
    (sameReturned : returned events' = returned events)
    (sameSnapshot : snapshot events' = snapshot events) :
    Represents mapping sampleSize events' state base consumed := by
  rcases represents.delivered with ⟨bound, settled, returned_eq⟩
  apply represents.of_same_ledger sameLedger represents.base_le _ represents.intermediate_eq
  · rw [sameSnapshot]
    exact represents.reader_eq
  · exact ⟨by rwa [sameLedger], by rwa [sameLedger], by rwa [sameReturned, sameLedger]⟩

theorem reserve_none (computed : state.rb.reserve ownsLock = (rb, none, timedOut)) :
    Represents mapping sampleSize (events ++ [.reserve ownsLock none])
      { state with rb := rb, held := state.held ++ owned none } base consumed := by
  have unchanged : { state with rb := rb, held := state.held ++ owned none } = state := by
    rw [reserve_eq_none computed]
    simp [owned]
  rw [unchanged]
  apply represents.of_same_history
  · simp [record]
  · simp [returned_snoc]
  · simp [snapshot_snoc]

theorem reserve_room
    (room : ¬ state.rb.mask < state.rb.writerPos + state.rb.stride - state.rb.readerPos) :
    ((ledger events).length + 1 - base) * strideOf sampleSize < mapping.capacity := by
  have baseBound := represents.base_le_length
  have used : state.rb.writerPos + state.rb.stride - state.rb.readerPos =
      BitVec.ofNat 64 (((ledger events).length + 1 - base) * strideOf sampleSize) := by
    rw [represents.writerPos_eq, represents.readerPos_eq, represents.stride_eq, ← ofNat_add,
      sub_eq_iff_eq_add, ← ofNat_add, ← Nat.add_mul]
    congr 1
    rw [Nat.sub_add_cancel (by omega), Nat.add_mul, Nat.one_mul]
  have capacityUpper := mapping.capacity_upper
  have noWrap : ((ledger events).length + 1 - base) * strideOf sampleSize < 2 ^ 64 := by
    rw [Nat.sub_add_comm baseBound, Nat.add_mul, Nat.one_mul]
    have window := represents.window
    by_cases empty : (ledger events).length = 0
    · have strideUpper : strideOf sampleSize < 2 ^ 64 := isLt _
      simp only [empty, Nat.zero_sub, Nat.zero_mul]
      omega
    · have small := (represents.stride_bounds (by omega)).2
      omega
  rw [used, BitVec.not_lt, BitVec.le_def, BitVec.toNat_ofNat, Nat.mod_eq_of_lt noWrap,
    represents.mask_eq] at room
  have capacityLower := mapping.capacity_lower
  omega

theorem consumed_le_of_reserved
    (found : (ledger events)[index]? = some entry) (reserved : entry.status = .reserved) :
    consumed ≤ index := by
  by_contra below
  apply represents.delivered.settled entry _ reserved
  have taken : ((ledger events).take consumed)[index]? = some entry := by
    rw [getElem?_take_of_lt (by omega)]
    exact found
  exact mem_of_getElem? taken

theorem fresh_buffer
    (window : ((ledger events).length + 1 - base) * strideOf sampleSize < mapping.capacity)
    (notZero : strideOf sampleSize ≠ 0) :
    ⟨(ledger events).length * strideOf sampleSize % mapping.capacity + 8, sampleSize⟩ ∉
      state.held := by
  intro holds
  rcases ((represents.held_iff _).mp holds).2 with ⟨entry, mem, reserved, same⟩
  rcases mem_iff_getElem?.mp mem with ⟨index, found⟩
  have indexBound : index < (ledger events).length := (List.getElem?_eq_some_iff.mp found).1
  have past := represents.consumed_le_of_reserved found reserved
  have baseBound := represents.base_le
  have sameStart := congrArg Buffer.data ((represents.buffers index entry found).symm.trans same)
  simp only [Nat.add_right_cancel_iff] at sameStart
  have := index_eq_of_buffer_eq window notZero (by omega) (by omega) (by omega) (by omega) sameStart
  omega

theorem reserve_some (addressable : sampleSize.toNat ≤ 2 ^ 64 - 8)
    (computed : state.rb.reserve ownsLock = (rb, some buffer, timedOut)) :
    Represents mapping sampleSize (events ++ [.reserve ownsLock (some buffer)])
      { state with rb := rb, held := state.held ++ owned (some buffer) } base consumed := by
  rcases reserve_eq_some computed with ⟨notZero, room, buffer_eq, rb_eq⟩
  have window := represents.reserve_room room
  have baseBound := represents.base_le_length
  have strideNotZero : strideOf sampleSize ≠ 0 := by
    intro zero
    exact notZero (by rw [represents.stride_eq, zero]; rfl)
  have strideSmall : strideOf sampleSize < mapping.capacity := by
    apply Nat.lt_of_le_of_lt _ window
    exact Nat.le_mul_of_pos_left _ (by omega)
  have covers := sampleSize_of_stride addressable strideNotZero
    (Nat.lt_of_lt_of_le strideSmall mapping.capacity_upper)
  have linear : (state.rb.writerPos &&& state.rb.mask).toNat =
      (ledger events).length * strideOf sampleSize % mapping.capacity := by
    rw [represents.writerPos_eq]
    exact mapping.linear_position represents.mask_eq _
  rw [linear, represents.sampleSize_eq] at buffer_eq rb_eq
  have capacityLower := mapping.capacity_lower
  have reaches : (ledger events).length * strideOf sampleSize % mapping.capacity %
      state.rb.dataSize.toNat =
        (ledger events).length * strideOf sampleSize % state.rb.dataSize.toNat := by
    rw [represents.dataSize_eq, Nat.mod_mod]
  have memoryWindow := window
  rw [← represents.dataSize_eq] at memoryWindow
  have fresh := represents.fresh_buffer window strideNotZero
  rw [← buffer_eq] at fresh
  subst rb
  refine ⟨represents.mask_eq, represents.dataSize_eq, represents.sampleSize_eq,
    represents.base_le, ⟨?_, ?_, ?_⟩, ?_, represents.readerPos_eq, represents.intermediate_eq,
    ?_, fun _ => ⟨strideNotZero, strideSmall⟩, ?_, ?_, ?_, ?_, ?_, ?_⟩
  · have bound := represents.delivered.bound
    simp only [ledger_snoc, record, length_append, length_singleton]
    omega
  · simp only [ledger_snoc, record]
    rw [take_append_of_le_length represents.delivered.bound]
    exact represents.delivered.settled
  · simp only [ledger_snoc, record, returned_snoc, append_nil]
    rw [take_append_of_le_length represents.delivered.bound]
    exact represents.delivered.returned_eq
  · simp only [ledger_snoc, record, length_append, length_singleton]
    rw [represents.writerPos_eq, represents.stride_eq, ← ofNat_add, Nat.add_mul, Nat.one_mul]
  · simpa only [ledger_snoc, record, length_append, length_singleton] using window
  · intro index entry found
    rw [ledger_snoc] at found
    rcases getElem?_snoc found with ⟨_, found⟩ | ⟨rfl, rfl⟩
    · exact represents.buffers index entry found
    · exact buffer_eq
  · intro index entry lower found
    rw [ledger_snoc] at found
    rcases getElem?_snoc found with ⟨below, found⟩ | ⟨rfl, rfl⟩
    · refine (represents.slots index entry lower found).of_load_eq covers.2 rfl ?_
      intro byte inside
      exact load_setHeader memoryWindow reaches (by omega) lower (by omega) baseBound (by omega)
        inside (Or.inl (by omega))
    · refine ⟨?_, by simp⟩
      rw [header_moveWriter]
      exact header_setHeader (by rw [represents.dataSize_eq]; omega) reaches
  · refine nodup_append.mpr ⟨represents.held_nodup, nodup_owned _, ?_⟩
    intro other holds another owns
    rw [mem_owned] at owns
    rintro rfl
    exact fresh (owns.2 ▸ holds)
  · intro other
    simp only [ledger_snoc, record, mem_append, represents.held_iff other, mem_owned,
      mem_singleton, or_and_right, exists_or, exists_eq_left, true_and, and_or_left]
  · intro entry mem empty
    simp only [ledger_snoc, record, mem_append, mem_singleton] at mem
    rcases mem with before | rfl
    · exact represents.empty_reserved entry before empty
    · rfl
  · intro tail alive
    rcases represents.reader_eq tail alive with ⟨tail_eq, lower, upper⟩
    simp only [snapshot_snoc, ledger_snoc, record, length_append, length_singleton]
    exact ⟨tail_eq, lower, by omega⟩

theorem exists_owner (holds : buffer ∈ state.held) :
    ∃ index entry, Owner mapping sampleSize (ledger events) consumed buffer index entry := by
  rcases ((represents.held_iff buffer).mp holds).2 with ⟨entry, mem, reserved, same⟩
  rcases mem_iff_getElem?.mp mem with ⟨index, found⟩
  have past := represents.consumed_le_of_reserved found reserved
  have bound : index < (ledger events).length := (List.getElem?_eq_some_iff.mp found).1
  have buffer_eq := same.symm.trans (represents.buffers index entry found)
  refine ⟨index, entry, found, reserved, past, buffer_eq, same, ?_⟩
  intro index' entry' found' reserved' same'
  have past' := represents.consumed_le_of_reserved found' reserved'
  have bound' : index' < (ledger events).length := (List.getElem?_eq_some_iff.mp found').1
  have baseBound := represents.base_le
  have sameStart := congrArg Buffer.data
    ((represents.buffers index' entry' found').symm.trans (same'.trans buffer_eq))
  simp only [Nat.add_right_cancel_iff] at sameStart
  exact index_eq_of_buffer_eq represents.window (represents.stride_bounds (by omega)).1
    (by omega) bound' (by omega) bound sameStart

theorem of_update {event : Event} {data : Memory} {held : List Buffer}
    (addressable : sampleSize.toNat ≤ 2 ^ 64 - 8)
    (owner : Owner mapping sampleSize (ledger events) consumed buffer index entry)
    (notEmpty : buffer.isEmpty = false)
    (recorded : ledger (events ++ [event]) = update (ledger events) buffer change)
    (sameReturned : returned (events ++ [event]) = returned events)
    (sameSnapshot : snapshot (events ++ [event]) = snapshot events)
    (sameBuffer : (change entry).buffer = entry.buffer)
    (agree : ∀ other, base ≤ other → other < (ledger events).length → other ≠ index →
      ∀ byte < strideOf sampleSize,
        load state.rb.dataSize.toNat data (other * strideOf sampleSize + byte) =
          load state.rb.dataSize.toNat state.rb.data (other * strideOf sampleSize + byte))
    (slot : Slot sampleSize { state.rb with data := data } index (change entry))
    (held_nodup : held.Nodup)
    (held_iff : ∀ other, other ∈ held ↔ other.isEmpty = false ∧
      ∃ entry ∈ update (ledger events) buffer change,
        entry.status = .reserved ∧ entry.buffer = other) :
    Represents mapping sampleSize (events ++ [event])
      { state with rb := { state.rb with data := data }, held := held } base consumed := by
  have sameLength : (ledger (events ++ [event])).length = (ledger events).length := by
    rw [recorded, update_length]
  have sameStart : (ledger (events ++ [event])).take consumed = (ledger events).take consumed := by
    rw [recorded, take_update_of_settled represents.delivered.settled]
  have bound := owner.bound
  have covers := represents.covers addressable (by omega)
  refine ⟨represents.mask_eq, represents.dataSize_eq, represents.sampleSize_eq,
    represents.base_le, ⟨?_, ?_, ?_⟩, ?_, represents.readerPos_eq, represents.intermediate_eq,
    ?_, ?_, ?_, ?_, held_nodup, ?_, ?_, ?_⟩
  · rw [sameLength]
    exact represents.delivered.bound
  · rw [sameStart]
    exact represents.delivered.settled
  · rw [sameStart, sameReturned]
    exact represents.delivered.returned_eq
  · rw [sameLength]
    exact represents.writerPos_eq
  · rw [sameLength]
    exact represents.window
  · rw [sameLength]
    exact represents.stride_bounds
  · intro index' entry' found'
    rw [recorded] at found'
    rcases owner.getElem?_update found' with ⟨rfl, rfl⟩ | ⟨_, foundOld⟩
    · rw [sameBuffer]
      exact represents.buffers _ entry owner.found
    · exact represents.buffers index' entry' foundOld
  · intro index' entry' lower found'
    rw [recorded] at found'
    rcases owner.getElem?_update found' with ⟨rfl, rfl⟩ | ⟨distinct, foundOld⟩
    · exact slot
    · have bound' : index' < (ledger events).length := (List.getElem?_eq_some_iff.mp foundOld).1
      exact (represents.slots index' entry' lower foundOld).of_load_eq covers.2 rfl
        (agree index' lower bound' distinct)
  · rw [recorded]
    exact held_iff
  · intro entry' mem empty
    rw [recorded] at mem
    rcases mem_iff_getElem?.mp mem with ⟨index', found'⟩
    rcases owner.getElem?_update found' with ⟨rfl, rfl⟩ | ⟨_, foundOld⟩
    · rw [sameBuffer, owner.same_buffer, notEmpty] at empty
      contradiction
    · exact represents.empty_reserved entry' (mem_of_getElem? foundOld) empty
  · intro tail alive
    rw [sameLength, sameSnapshot]
    exact represents.reader_eq tail alive

theorem header_of_owner
    (owner : Owner mapping sampleSize (ledger events) consumed buffer index entry) :
    state.rb.header (buffer.data - 8) = sampleSize ||| BufferHeader.reservedBit := by
  have slot := represents.slots index entry (Nat.le_trans represents.base_le owner.past) owner.found
  have header := slot.header
  rw [owner.reserved] at header
  rw [← Status.header, ← header, owner.buffer_eq]
  apply loadWord_congr
  rw [Nat.add_sub_cancel, represents.dataSize_eq, Nat.mod_mod]

section Calls

variable (addressable : sampleSize.toNat ≤ 2 ^ 64 - 8) (holds : buffer ∈ state.held)
include addressable holds

theorem write {offset : Nat} {byte : BitVec 8} (inside : offset < buffer.size.toNat) :
    Represents mapping sampleSize (events ++ [.write buffer offset byte])
      { state with rb := state.rb.writeByte buffer offset byte } base consumed := by
  rcases represents.exists_owner holds with ⟨index, entry, owner⟩
  have bound := owner.bound
  have covers := represents.covers addressable (by omega)
  have baseLower : base ≤ index := Nat.le_trans represents.base_le owner.past
  have insideSample : offset < sampleSize.toNat := by rwa [owner.buffer_eq] at inside
  have window := represents.window
  rw [← represents.dataSize_eq] at window
  have reaches : (buffer.data + offset) % state.rb.dataSize.toNat =
      (index * strideOf sampleSize + (8 + offset)) % state.rb.dataSize.toNat := by
    rw [owner.buffer_eq, represents.dataSize_eq]
    simp only [Nat.add_assoc, Nat.mod_add_mod]
  have slot := represents.slots index entry baseLower owner.found
  have recorded : ledger (events ++ [.write buffer offset byte]) =
      update (ledger events) buffer fun entry => entry.write offset byte := by
    simp [record]
  apply represents.of_update addressable owner ((represents.held_iff buffer).mp holds).1 recorded
    (by simp [returned_snoc]) (by simp [snapshot_snoc]) rfl _ _ represents.held_nodup
  · intro other
    rw [represents.held_iff, reserved_update_write]
  · intro other lower upper distinct byte' inside'
    exact load_writeByte window reaches lower upper baseLower bound inside' (by omega)
      (Or.inl distinct)
  · have others : ∀ byte' < strideOf sampleSize, byte' ≠ 8 + offset →
        load state.rb.dataSize.toNat (state.rb.writeByte buffer offset byte).data
          (index * strideOf sampleSize + byte') =
        load state.rb.dataSize.toNat state.rb.data (index * strideOf sampleSize + byte') :=
      fun byte' inside' distinct => load_writeByte window reaches baseLower bound baseLower bound
        inside' (by omega) (Or.inr distinct)
    constructor
    · rw [show (entry.write offset byte).status = entry.status from rfl, ← slot.header]
      exact loadWord_eq_of_load_eq fun byte' small => others byte' (by omega) (by omega)
    · intro offset' byte' stored
      simp only [Reservation.write] at stored
      split at stored
      · rename_i same
        subst offset'
        cases stored
        refine ⟨insideSample, ?_⟩
        change load _ (store state.rb.dataSize.toNat state.rb.data _ _) _ = _
        rw [store_congr reaches, Nat.add_assoc, load_store_self]
      · rename_i distinct
        rcases slot.contents offset' byte' stored with ⟨inside', shown⟩
        refine ⟨inside', ?_⟩
        rw [← shown, Nat.add_assoc]
        exact others (8 + offset') (by omega) (by omega)

theorem settle {event : Event} (status : Status) (settles : status ≠ .reserved)
    (recorded : ledger (events ++ [event]) =
      update (ledger events) buffer fun entry => entry.settle status)
    (sameReturned : returned (events ++ [event]) = returned events)
    (sameSnapshot : snapshot (events ++ [event]) = snapshot events) :
    Represents mapping sampleSize (events ++ [event])
      { state with
        rb := state.rb.setHeader (buffer.data - 8) (status.header sampleSize)
        held := state.held.erase buffer } base consumed := by
  rcases represents.exists_owner holds with ⟨index, entry, owner⟩
  have bound := owner.bound
  have covers := represents.covers addressable (by omega)
  have baseLower : base ≤ index := Nat.le_trans represents.base_le owner.past
  have window := represents.window
  rw [← represents.dataSize_eq] at window
  have reaches : (buffer.data - 8) % state.rb.dataSize.toNat =
      index * strideOf sampleSize % state.rb.dataSize.toNat := by
    rw [owner.buffer_eq, represents.dataSize_eq, Nat.add_sub_cancel, Nat.mod_mod]
  have slot := represents.slots index entry baseLower owner.found
  have capacityLower := mapping.capacity_lower
  apply represents.of_update addressable owner ((represents.held_iff buffer).mp holds).1 recorded
    sameReturned sameSnapshot rfl _ _ (represents.held_nodup.erase buffer)
  · intro other
    rw [reserved_update_settle settles, represents.held_nodup.mem_erase_iff, represents.held_iff]
    tauto
  · intro other lower upper distinct byte inside
    exact load_setHeader window reaches (by omega) lower upper baseLower bound inside
      (Or.inl distinct)
  · constructor
    · exact header_setHeader (by rw [represents.dataSize_eq]; omega) reaches
    · intro offset byte stored
      rcases slot.contents offset byte stored with ⟨inside, shown⟩
      refine ⟨inside, ?_⟩
      rw [← shown, Nat.add_assoc]
      exact load_setHeader window reaches (by omega) baseLower bound baseLower bound (by omega)
        (Or.inr (by omega))

theorem unreserved :
    state.rb.header (buffer.data - 8) ^^^ BufferHeader.reservedBit = sampleSize := by
  rcases represents.exists_owner holds with ⟨index, entry, owner⟩
  have bound := owner.bound
  have covers := represents.covers addressable (by omega)
  rw [represents.header_of_owner owner, covers.1.reserved_xor]

theorem commit :
    Represents mapping sampleSize (events ++ [.commit buffer])
      { state with rb := state.rb.commit buffer, held := state.held.erase buffer }
      base consumed := by
  rw [RingBufferImpl.commit, represents.unreserved addressable holds]
  exact represents.settle addressable holds .committed (by decide)
    (by simp [record]) (by simp [returned_snoc]) (by simp [snapshot_snoc])

theorem discard :
    Represents mapping sampleSize (events ++ [.discard buffer])
      { state with rb := state.rb.discard buffer, held := state.held.erase buffer }
      base consumed := by
  rw [RingBufferImpl.discard, represents.unreserved addressable holds]
  exact represents.settle addressable holds .discarded (by decide)
    (by simp [record]) (by simp [returned_snoc]) (by simp [snapshot_snoc])

end Calls

end Represents

end Pyroscope.RingBuffer
