import Pyroscope.Lib.Transition
import Pyroscope.RingBuffer.Basic

/-!
# Writers and readers of one ring buffer

The `ledger` of a run is the list of all its reservations. Reservation number `index` occupies the
bytes from `index * stride` on, counted without wrapping.
-/

namespace Pyroscope.RingBuffer

open MirroredMemory Transition

/-- The sizes of a mapping which the operating system can establish. -/
structure Mapping where
  pageSize : BitVec 64
  requestedSize : BitVec 64
  page_lower : 4096 ≤ pageSize.toNat
  page_upper : pageSize.toNat ≤ 2 ^ 62
  requested_upper : requestedSize.toNat ≤ 2 ^ 62

def emptyBuffer (mapping : Mapping) (sampleSize : BitVec 64) : RingBufferImpl :=
  let dataSize := nextPowerOfTwo
    (if mapping.pageSize < mapping.requestedSize then mapping.requestedSize else mapping.pageSize)
  { mask := getMaskFromSize dataSize
    metaSize := mapping.pageSize
    dataSize := dataSize
    data := fun _ => 0
    writerPos := 0
    readerPos := 0
    intermediateReaderPos := 0
    sampleSize := sampleSize }

theorem create_eq_emptyBuffer (mapping : Mapping) (strerror : String) (sampleSize : BitVec 64) :
    create none strerror mapping.pageSize mapping.requestedSize sampleSize =
      .ok (emptyBuffer mapping sampleSize) :=
  rfl

structure State where
  rb : RingBufferImpl
  held : List Buffer
  reader : Option (BitVec 64)

inductive Event where
  | reserve (ownsLock : Bool) (result : Option Buffer)
  | write (buffer : Buffer) (offset : Nat) (byte : BitVec 8)
  | commit (buffer : Buffer)
  | discard (buffer : Buffer)
  | openReader
  | getNext (result : Option Buffer)
  | closeReader

def owned (result : Option Buffer) : List Buffer :=
  (result.filter fun buffer => !buffer.isEmpty).toList

inductive Step : State → Event → State → Prop where
  | reserve {state : State} {ownsLock timedOut : Bool} {rb : RingBufferImpl}
      {result : Option Buffer}
      (computed : state.rb.reserve ownsLock = (rb, result, timedOut)) :
      Step state (.reserve ownsLock result)
        { state with rb := rb, held := state.held ++ owned result }
  | write {state : State} {buffer : Buffer} {offset : Nat} {byte : BitVec 8}
      (holds : buffer ∈ state.held) (inside : offset < buffer.size.toNat)
      (mapped : buffer.data + offset < 2 * state.rb.dataSize.toNat) :
      Step state (.write buffer offset byte)
        { state with rb := state.rb.writeByte buffer offset byte }
  | commit {state : State} {buffer : Buffer} (holds : buffer ∈ state.held) :
      Step state (.commit buffer)
        { state with rb := state.rb.commit buffer, held := state.held.erase buffer }
  | discard {state : State} {buffer : Buffer} (holds : buffer ∈ state.held) :
      Step state (.discard buffer)
        { state with rb := state.rb.discard buffer, held := state.held.erase buffer }
  | openReader {state : State} (alone : state.reader = none) :
      Step state .openReader { state with reader := some state.rb.openReader }
  | getNext {state : State} {tail : BitVec 64} {fuel : Nat} {rb : RingBufferImpl}
      {result : Option Buffer} (alive : state.reader = some tail)
      (computed : RingBufferImpl.getNext tail fuel state.rb = some (rb, result)) :
      Step state (.getNext result) { state with rb := rb }
  | closeReader {state : State} {tail : BitVec 64} (alive : state.reader = some tail) :
      Step state .closeReader { state with rb := state.rb.closeReader, reader := none }

def system (mapping : Mapping) (sampleSize : BitVec 64) : System State Event where
  init := { rb := emptyBuffer mapping sampleSize, held := [], reader := none }
  step := Step

inductive Status where
  | reserved
  | committed
  | discarded
  deriving DecidableEq

structure Reservation where
  buffer : Buffer
  stored : Nat → Option (BitVec 8)
  status : Status

namespace Reservation

variable (reservation : Reservation)

def write (offset : Nat) (byte : BitVec 8) : Reservation :=
  { reservation with
    stored := fun index => if index = offset then some byte else reservation.stored index }

def settle (status : Status) : Reservation :=
  { reservation with status := status }

/-- The bytes which were stored stand in the buffer. -/
def ShownIn (rb : RingBufferImpl) : Prop :=
  ∀ offset byte, reservation.stored offset = some byte →
    load rb.dataSize.toNat rb.data (reservation.buffer.data + offset) = byte

end Reservation

def update (ledger : List Reservation) (buffer : Buffer) (change : Reservation → Reservation) :
    List Reservation :=
  ledger.map fun entry =>
    if entry.status = .reserved ∧ entry.buffer = buffer then change entry else entry

def record (ledger : List Reservation) : Event → List Reservation
  | .reserve _ (some buffer) => ledger ++ [⟨buffer, fun _ => none, .reserved⟩]
  | .write buffer offset byte => update ledger buffer fun entry => entry.write offset byte
  | .commit buffer => update ledger buffer fun entry => entry.settle .committed
  | .discard buffer => update ledger buffer fun entry => entry.settle .discarded
  | _ => ledger

def ledger (events : List Event) : List Reservation :=
  events.foldl record []

def committed (ledger : List Reservation) : List Reservation :=
  ledger.filter fun entry => entry.status = .committed

def returned (events : List Event) : List Buffer :=
  events.filterMap fun event =>
    match event with
    | .getNext result => result
    | _ => none

def observe (seen : List Reservation × Nat) (event : Event) : List Reservation × Nat :=
  (record seen.1 event,
    match event with
    | .openReader => seen.1.length
    | _ => seen.2)

def snapshot (events : List Event) : Nat :=
  (events.foldl observe ([], 0)).2

/-- The first `consumed` reservations are settled, and the committed ones were returned. -/
structure Delivered (events : List Event) (consumed : Nat) : Prop where
  bound : consumed ≤ (ledger events).length
  settled : ∀ entry ∈ (ledger events).take consumed, entry.status ≠ .reserved
  returned_eq : returned events = (committed ((ledger events).take consumed)).map (·.buffer)

/-- In every run the readers return the committed part of a settled start of the ledger, with the
bytes stored in it; an empty answer means that the reader has reached its tail or a reservation
which is not settled; every call returns; and all reservations committed by then can still be
returned. -/
structure Fifo (mapping : Mapping) (sampleSize : BitVec 64) : Prop where
  inOrder : ∀ events state, (system mapping sampleSize).Run
    (system mapping sampleSize).init events state → ∃ consumed, Delivered events consumed
  contents : ∀ events state buffer next, (system mapping sampleSize).Run
    (system mapping sampleSize).init events state → Step state (.getNext (some buffer)) next →
    ∃ entry, (committed (ledger events))[(returned events).length]? = some entry ∧
      entry.buffer = buffer ∧ entry.ShownIn next.rb
  emptyAnswer : ∀ events state next, (system mapping sampleSize).Run
    (system mapping sampleSize).init events state → Step state (.getNext none) next →
    ∃ consumed, Delivered (events ++ [.getNext none]) consumed ∧
      (consumed = snapshot events ∨
        ∃ entry, (ledger events)[consumed]? = some entry ∧ entry.status = .reserved)
  answers : ∀ events state tail, (system mapping sampleSize).Run
    (system mapping sampleSize).init events state → state.reader = some tail →
    ∃ result next, Step state (.getNext result) next
  nothingLost : ∀ events state, (system mapping sampleSize).Run
    (system mapping sampleSize).init events state →
    ∃ later last, (system mapping sampleSize).Run state later last ∧
      returned (events ++ later) = (committed (ledger (events ++ later))).map (·.buffer)

/-! ## The ring buffer represents its ledger -/

open BitVec List

namespace Mapping

def bits (mapping : Mapping) : Nat :=
  ((if mapping.pageSize < mapping.requestedSize then mapping.requestedSize
    else mapping.pageSize).toNat - 1).size

def capacity (mapping : Mapping) : Nat :=
  2 ^ mapping.bits

variable (mapping : Mapping)

private theorem mapped_bounds :
    4096 ≤ (if mapping.pageSize < mapping.requestedSize then mapping.requestedSize
      else mapping.pageSize).toNat ∧
    (if mapping.pageSize < mapping.requestedSize then mapping.requestedSize
      else mapping.pageSize).toNat ≤ 2 ^ 62 := by
  have lower := mapping.page_lower
  have pageUpper := mapping.page_upper
  have requestedUpper := mapping.requested_upper
  split
  · rename_i smaller
    rw [lt_def] at smaller
    omega
  · omega

theorem bits_le : mapping.bits ≤ 62 := by
  have bounds := mapping.mapped_bounds
  exact Nat.size_le.mpr (by omega)

theorem twelve_le_bits : 12 ≤ mapping.bits := by
  have bounds := mapping.mapped_bounds
  exact Nat.lt_size.mpr (by omega)

theorem capacity_lower : 4096 ≤ mapping.capacity := by
  change 2 ^ 12 ≤ 2 ^ mapping.bits
  exact Nat.pow_le_pow_right (by decide) mapping.twelve_le_bits

theorem capacity_upper : mapping.capacity ≤ 2 ^ 62 :=
  Nat.pow_le_pow_right (by decide) mapping.bits_le

theorem dataSize_toNat (sampleSize : BitVec 64) :
    (emptyBuffer mapping sampleSize).dataSize.toNat = mapping.capacity := by
  have bounds := mapping.mapped_bounds
  exact nextPowerOfTwo_toNat (by omega) (by omega)

theorem mask_toNat (sampleSize : BitVec 64) :
    (emptyBuffer mapping sampleSize).mask.toNat = mapping.capacity - 1 := by
  have lower := mapping.capacity_lower
  have positive : (1 : BitVec 64) ≤ (emptyBuffer mapping sampleSize).dataSize := by
    rw [le_def, mapping.dataSize_toNat]
    change 1 ≤ _
    omega
  rw [← mapping.dataSize_toNat sampleSize]
  exact toNat_sub_of_le positive

theorem linear_position {mask : BitVec 64} (isMask : mask.toNat = mapping.capacity - 1)
    (position : Nat) :
    (BitVec.ofNat 64 position &&& mask).toNat = position % mapping.capacity := by
  rw [toNat_and, isMask, toNat_ofNat, capacity, Nat.and_two_pow_sub_one_eq_mod]
  exact Nat.mod_mod_of_dvd _ (Nat.pow_dvd_pow 2 (by have := mapping.bits_le; omega))

end Mapping

def strideOf (sampleSize : BitVec 64) : Nat :=
  (alignUp (sampleSize + BufferHeader.byteSize) ringBufferAlignment).toNat

/--
What a stride says about the sample size: unless it is zero or past the address
range, it covers the header and the sample, and the flag bits are free.
-/
theorem sampleSize_of_stride {sampleSize : BitVec 64}
    (addressable : sampleSize.toNat ≤ 2 ^ 64 - 8) (notZero : strideOf sampleSize ≠ 0)
    (bound : strideOf sampleSize < 2 ^ 62) :
    BufferHeader.Plain sampleSize ∧ sampleSize.toNat + 8 ≤ strideOf sampleSize := by
  by_cases extreme : sampleSize.toNat + 8 = 2 ^ 64 ∨ 2 ^ 64 ≤ sampleSize.toNat + 8 + 7
  · exfalso
    apply notZero
    have total : (sampleSize + BufferHeader.byteSize).toNat =
        (sampleSize.toNat + 8) % 2 ^ 64 := toNat_add _ _
    have zero : alignUp (sampleSize + BufferHeader.byteSize) 8 = 0 := by
      apply alignUp_eight_eq_zero
      rw [total]
      omega
    rw [strideOf, show ringBufferAlignment = 8 from rfl, zero]
    rfl
  · have total : (sampleSize + BufferHeader.byteSize).toNat = sampleSize.toNat + 8 := by
      rw [toNat_add]
      exact Nat.mod_eq_of_lt (by change sampleSize.toNat + 8 < _; omega)
    have stride : strideOf sampleSize = (sampleSize.toNat + 8 + 7) / 8 * 8 := by
      rw [← total]
      exact alignUp_eight_toNat (by omega) (by omega)
    unfold BufferHeader.Plain
    omega

def Status.header (size : BitVec 64) : Status → BitVec 64
  | .reserved => size ||| BufferHeader.reservedBit
  | .committed => size
  | .discarded => size ||| BufferHeader.discardBit

section Ledger

variable {entries : List Reservation} {buffer : Buffer} {change : Reservation → Reservation}

@[simp]
theorem update_length : (update entries buffer change).length = entries.length := by
  simp [update]

theorem getElem?_update (index : Nat) :
    (update entries buffer change)[index]? = entries[index]?.map fun entry =>
      if entry.status = .reserved ∧ entry.buffer = buffer then change entry else entry := by
  simp [update]

theorem take_update_of_settled {count : Nat}
    (settled : ∀ entry ∈ entries.take count, entry.status ≠ .reserved) :
    (update entries buffer change).take count = entries.take count := by
  rw [update, ← map_take]
  conv_rhs => rw [← map_id (entries.take count)]
  apply map_congr_left
  intro entry mem
  simp [settled entry mem]

@[simp]
theorem ledger_snoc (events : List Event) (event : Event) :
    ledger (events ++ [event]) = record (ledger events) event := by
  simp [ledger]

private theorem foldl_observe_fst (events : List Event) (seen : List Reservation × Nat) :
    (events.foldl observe seen).1 = events.foldl record seen.1 := by
  induction events generalizing seen with
  | nil => rfl
  | cons event events ih => exact ih (observe seen event)

theorem snapshot_snoc (events : List Event) (event : Event) :
    snapshot (events ++ [event]) =
      match event with
      | .openReader => (ledger events).length
      | _ => snapshot events := by
  cases event <;>
    simp only [snapshot, ledger, foldl_append, foldl_cons, foldl_nil, observe,
      foldl_observe_fst]

theorem returned_snoc (events : List Event) (event : Event) :
    returned (events ++ [event]) = returned events ++
      match event with
      | .getNext result => result.toList
      | _ => [] := by
  cases event with
  | getNext result => cases result <;> simp [returned]
  | _ => simp [returned]

end Ledger

/-- The bytes which reservation number `index` occupies hold its header and what was stored. -/
structure Slot (sampleSize : BitVec 64) (rb : RingBufferImpl) (index : Nat)
    (entry : Reservation) : Prop where
  header : rb.header (index * strideOf sampleSize) = entry.status.header sampleSize
  contents : ∀ offset byte, entry.stored offset = some byte →
    offset < sampleSize.toNat ∧
      load rb.dataSize.toNat rb.data (index * strideOf sampleSize + 8 + offset) = byte

/-- The positions are those of the ledger of reservations. -/
structure Represents (mapping : Mapping) (sampleSize : BitVec 64) (events : List Event)
    (state : State) (base consumed : Nat) : Prop where
  mask_eq : state.rb.mask.toNat = mapping.capacity - 1
  dataSize_eq : state.rb.dataSize.toNat = mapping.capacity
  sampleSize_eq : state.rb.sampleSize = sampleSize
  base_le : base ≤ consumed
  delivered : Delivered events consumed
  writerPos_eq : state.rb.writerPos = BitVec.ofNat 64 ((ledger events).length * strideOf sampleSize)
  readerPos_eq : state.rb.readerPos = BitVec.ofNat 64 (base * strideOf sampleSize)
  intermediate_eq :
    state.rb.intermediateReaderPos = BitVec.ofNat 64 (consumed * strideOf sampleSize)
  window : ((ledger events).length - base) * strideOf sampleSize < mapping.capacity
  stride_bounds : 0 < (ledger events).length →
    strideOf sampleSize ≠ 0 ∧ strideOf sampleSize < mapping.capacity
  buffers : ∀ (index : Nat) (entry : Reservation), (ledger events)[index]? = some entry →
    entry.buffer = ⟨index * strideOf sampleSize % mapping.capacity + 8, sampleSize⟩
  slots : ∀ (index : Nat) (entry : Reservation), base ≤ index →
    (ledger events)[index]? = some entry → Slot sampleSize state.rb index entry
  held_nodup : state.held.Nodup
  held_iff : ∀ buffer, buffer ∈ state.held ↔ buffer.isEmpty = false ∧
    ∃ entry ∈ ledger events, entry.status = .reserved ∧ entry.buffer = buffer
  empty_reserved : ∀ entry ∈ ledger events, entry.buffer.isEmpty = true → entry.status = .reserved
  reader_eq : ∀ tail, state.reader = some tail →
    tail = BitVec.ofNat 64 (snapshot events * strideOf sampleSize) ∧
      consumed ≤ snapshot events ∧ snapshot events ≤ (ledger events).length

section Slots

variable {size base count left right leftByte rightByte stride : Nat}

/-- Different bytes of the reservations which the window holds at once are apart. -/
theorem slot_bytes_apart (window : (count - base) * stride < size) (leftLower : base ≤ left)
    (leftUpper : left < count) (rightLower : base ≤ right) (rightUpper : right < count)
    (leftInside : leftByte < stride) (rightInside : rightByte < stride)
    (distinct : left ≠ right ∨ leftByte ≠ rightByte) :
    Apart size (left * stride + leftByte) (right * stride + rightByte) := by
  have ordered : ∀ index index' byte, index < index' → byte < stride →
      index * stride + byte < index' * stride := by
    intro index index' byte below inside
    have next : (index + 1) * stride ≤ index' * stride := Nat.mul_le_mul_right _ below
    rw [Nat.add_mul] at next
    omega
  have span : count * stride < base * stride + size := by
    rw [Nat.sub_mul] at window
    omega
  have leftBelow := ordered left count leftByte leftUpper leftInside
  have rightBelow := ordered right count rightByte rightUpper rightInside
  have leftAbove : base * stride ≤ left * stride := Nat.mul_le_mul_right _ leftLower
  have rightAbove : base * stride ≤ right * stride := Nat.mul_le_mul_right _ rightLower
  apply apart_of_window (base * stride) <;> try omega
  rcases Nat.lt_trichotomy left right with less | same | greater
  · have := ordered left right leftByte less leftInside
    omega
  · subst right
    omega
  · have := ordered right left rightByte greater rightInside
    omega

variable {sampleSize : BitVec 64} {rb rb' : RingBufferImpl} {index : Nat} {entry : Reservation}

/-- A slot survives every change of the memory which leaves its own bytes alone. -/
theorem Slot.of_load_eq (covers : sampleSize.toNat + 8 ≤ strideOf sampleSize)
    (slot : Slot sampleSize rb index entry) (sameSize : rb'.dataSize = rb.dataSize)
    (agree : ∀ byte < strideOf sampleSize,
      load rb.dataSize.toNat rb'.data (index * strideOf sampleSize + byte) =
        load rb.dataSize.toNat rb.data (index * strideOf sampleSize + byte)) :
    Slot sampleSize rb' index entry where
  header := by
    rw [← slot.header, RingBufferImpl.header, RingBufferImpl.header, sameSize]
    exact loadWord_eq_of_load_eq fun byte bound => agree byte (by omega)
  contents := by
    intro offset byte stored
    rcases slot.contents offset byte stored with ⟨inside, shown⟩
    refine ⟨inside, ?_⟩
    rw [sameSize, Nat.add_assoc, agree (8 + offset) (by omega), ← Nat.add_assoc]
    exact shown

end Slots

variable {ownsLock timedOut : Bool} {rb rb' : RingBufferImpl}

theorem reserve_eq_some {buffer : Buffer}
    (computed : rb.reserve ownsLock = (rb', some buffer, timedOut)) :
    rb.stride ≠ 0 ∧ ¬ rb.mask < rb.writerPos + rb.stride - rb.readerPos ∧
      buffer = ⟨(rb.writerPos &&& rb.mask).toNat + 8, rb.sampleSize⟩ ∧
      rb' = { rb.setHeader (rb.writerPos &&& rb.mask).toNat
          (rb.sampleSize ||| BufferHeader.reservedBit) with
        writerPos := rb.writerPos + rb.stride } := by
  simp only [RingBufferImpl.reserve] at computed
  split at computed
  · simp at computed
  rename_i notZero
  split at computed
  · simp at computed
  split at computed
  · simp at computed
  rename_i room
  simp only [Prod.mk.injEq, Option.some.injEq] at computed
  exact ⟨notZero, room, computed.2.1.symm, computed.1.symm⟩

theorem reserve_eq_none (computed : rb.reserve ownsLock = (rb', none, timedOut)) : rb' = rb := by
  simp only [RingBufferImpl.reserve] at computed
  split at computed
  · simp_all
  split at computed
  · simp_all
  split at computed
  · simp_all
  · simp at computed

end Pyroscope.RingBuffer
