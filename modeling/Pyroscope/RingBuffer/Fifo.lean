import Pyroscope.RingBuffer.Reading

/-!
# The ring buffer is a queue of the committed samples

For the seven largest sample sizes `size + 8` wraps around, and a committed sample is taken for a
discarded one.
-/

namespace Pyroscope.RingBuffer

open MirroredMemory Transition BufferHeader List

section Addressable

variable {mapping : Mapping} {sampleSize : BitVec 64} {base consumed : Nat} {events : List Event}

theorem Represents.step {state next : State} {event : Event}
    (represents : Represents mapping sampleSize events state base consumed)
    (addressable : sampleSize.toNat ≤ 2 ^ 64 - 8) (taken : Step state event next) :
    ∃ base' consumed', Represents mapping sampleSize (events ++ [event]) next base' consumed' := by
  cases taken with
  | @reserve ownsLock timedOut rb result computed =>
    cases result with
    | none => exact ⟨base, consumed, represents.reserve_none computed⟩
    | some buffer => exact ⟨base, consumed, represents.reserve_some addressable computed⟩
  | write holds inside mapped =>
    exact ⟨base, consumed, represents.write addressable holds inside⟩
  | commit holds => exact ⟨base, consumed, represents.commit addressable holds⟩
  | discard holds => exact ⟨base, consumed, represents.discard addressable holds⟩
  | openReader alone => exact ⟨base, consumed, represents.openReader⟩
  | getNext alive computed =>
    rcases represents.getNext addressable alive computed with ⟨consumed', represents', _⟩
    exact ⟨base, consumed', represents'⟩
  | closeReader alive =>
    rcases represents.closeReader with ⟨base', represents'⟩
    exact ⟨base', consumed, represents'⟩

theorem exists_represents (addressable : sampleSize.toNat ≤ 2 ^ 64 - 8) {state : State}
    (run : (system mapping sampleSize).Run (system mapping sampleSize).init events state) :
    ∃ base consumed, Represents mapping sampleSize events state base consumed := by
  apply run.history_invariant
    fun events state => ∃ base consumed, Represents mapping sampleSize events state base consumed
  · exact ⟨0, 0, Represents.initial mapping sampleSize⟩
  · rintro events state event next ⟨base, consumed, represents⟩ taken
    exact represents.step addressable taken

def Reached (mapping : Mapping) (sampleSize : BitVec 64) (events : List Event) (state : State) :
    Prop :=
  ∃ base consumed, Represents mapping sampleSize events state base consumed

variable {events : List Event} {state : State}

section

variable (addressable : sampleSize.toNat ≤ 2 ^ 64 - 8)
  (reached : Reached mapping sampleSize events state)
include addressable reached

theorem Reached.commit_all :
    ∃ later last, (system mapping sampleSize).Run state later last ∧ last.held = [] ∧
      Reached mapping sampleSize (events ++ later) last := by
  generalize held_eq : state.held = held
  induction held generalizing events state with
  | nil => exact ⟨[], state, .nil state, held_eq, by simpa using reached⟩
  | cons buffer rest ih =>
    have holds : buffer ∈ state.held := by simp [held_eq]
    rcases reached with ⟨base, consumed, represents⟩
    have settled := represents.commit addressable holds
    have remaining : state.held.erase buffer = rest := by simp [held_eq]
    rcases ih ⟨base, consumed, settled⟩ remaining with ⟨later, last, run, none_held, reached'⟩
    refine ⟨.commit buffer :: later, last, .cons (.commit holds) run, none_held, ?_⟩
    simpa using reached'

theorem Reached.reopen :
    ∃ later last, (system mapping sampleSize).Run state later last ∧ last.held = state.held ∧
      last.reader.isSome ∧ snapshot (events ++ later) = (ledger (events ++ later)).length ∧
      Reached mapping sampleSize (events ++ later) last := by
  have opened : ∀ {events state}, Reached mapping sampleSize events state →
      state.reader = none → ∃ last, Step state .openReader last ∧ last.held = state.held ∧
        last.reader.isSome ∧
        snapshot (events ++ [.openReader]) = (ledger (events ++ [.openReader])).length ∧
        Reached mapping sampleSize (events ++ [.openReader]) last := by
    rintro events state ⟨base, consumed, represents⟩ alone
    exact ⟨_, .openReader alone, rfl, rfl, by simp [snapshot_snoc, record],
      base, consumed, represents.openReader⟩
  cases alive : state.reader with
  | none =>
    rcases opened reached alive with ⟨last, taken, rest⟩
    exact ⟨[.openReader], last, .single taken, rest⟩
  | some tail =>
    have closes : Step state .closeReader
      { state with rb := state.rb.closeReader, reader := none } := .closeReader alive
    rcases reached with ⟨base, consumed, represents⟩
    rcases represents.step addressable closes with ⟨base', consumed', represents'⟩
    rcases opened ⟨base', consumed', represents'⟩ rfl with ⟨last, taken, rest⟩
    refine ⟨[.closeReader, .openReader], last, .cons closes (.single taken), ?_⟩
    simpa using rest

/-- A reader which has seen only settled reservations returns all which are committed. -/
theorem Reached.drain (alive : state.reader.isSome)
    (seen : snapshot events = (ledger events).length)
    (settled : ∀ entry ∈ ledger events, entry.status ≠ .reserved) :
    ∃ later last, (system mapping sampleSize).Run state later last ∧
      returned (events ++ later) = (committed (ledger (events ++ later))).map (·.buffer) := by
  generalize missing : (committed (ledger events)).length - (returned events).length = count
  induction count using Nat.strongRecOn generalizing events state with
  | ind count ih =>
    rcases Option.isSome_iff_exists.mp alive with ⟨tail, alive⟩
    rcases reached with ⟨base, consumed, represents⟩
    rcases represents.exists_getNext addressable alive with ⟨fuel, rb, result, computed⟩
    have taken : Step state (.getNext result) { state with rb := rb } := .getNext alive computed
    rcases represents.getNext addressable alive computed with ⟨consumed', represents', answers⟩
    have sameLedger : ledger (events ++ [.getNext result]) = ledger events := by simp [record]
    cases result with
    | none =>
      refine ⟨[.getNext none], _, .single taken, ?_⟩
      rcases answers with atTail | ⟨entry, found, reserved⟩
      · have delivered := represents'.delivered.returned_eq
        rwa [atTail, seen, ← sameLedger, take_length] at delivered
      · exact absurd reserved (settled entry (mem_of_getElem? found))
    | some buffer =>
      rcases answers with ⟨entry, found, _, _⟩
      have fewer := (List.getElem?_eq_some_iff.mp found).1
      have oneMore : returned (events ++ [.getNext (some buffer)]) =
          returned events ++ [buffer] := by
        simp [returned_snoc]
      rcases ih _ (by
          rw [sameLedger, oneMore, length_append, length_singleton]
          omega)
        ⟨base, consumed', represents'⟩ (by simp [alive]) (by simp [snapshot_snoc, record, seen])
        (by rw [sameLedger]; exact settled) rfl with ⟨later, last, run, all⟩
      exact ⟨.getNext (some buffer) :: later, last, .cons taken run, by simpa using all⟩

end

theorem Represents.settled_of_held_nil
    (represents : Represents mapping sampleSize events state base consumed)
    (none_held : state.held = []) (notEmpty : sampleSize ≠ 0) :
    ∀ entry ∈ ledger events, entry.status ≠ .reserved := by
  intro entry mem reserved
  rcases mem_iff_getElem?.mp mem with ⟨index, found⟩
  have buffer_eq := represents.buffers index entry found
  have holds : entry.buffer ∈ state.held := by
    refine (represents.held_iff entry.buffer).mpr ⟨?_, entry, mem, reserved, rfl⟩
    rw [buffer_eq]
    simpa [Buffer.isEmpty] using notEmpty
  simp [none_held] at holds

theorem Represents.committed_eq_nil
    (represents : Represents mapping sampleSize events state base consumed)
    (empty : sampleSize = 0) : committed (ledger events) = [] := by
  apply filter_eq_nil_iff.mpr
  intro entry mem
  rcases mem_iff_getElem?.mp mem with ⟨index, found⟩
  have reserved := represents.empty_reserved entry mem (by
    rw [represents.buffers index entry found, empty]
    rfl)
  simp [reserved]

/-- Whatever happened so far, all reservations can still be settled and returned. -/
theorem Reached.exists_delivery (addressable : sampleSize.toNat ≤ 2 ^ 64 - 8)
    (reached : Reached mapping sampleSize events state) :
    ∃ later last, (system mapping sampleSize).Run state later last ∧
      returned (events ++ later) = (committed (ledger (events ++ later))).map (·.buffer) := by
  by_cases empty : sampleSize = 0
  · rcases reached with ⟨base, consumed, represents⟩
    refine ⟨[], state, .nil state, ?_⟩
    have nothing := represents.committed_eq_nil empty
    have delivered := represents.delivered.returned_eq
    have taken : committed ((ledger events).take consumed) = [] := by
      apply eq_nil_of_sublist_nil
      rw [← nothing]
      exact (take_sublist _ _).filter _
    simp [delivered, taken, nothing]
  · rcases reached.commit_all addressable with ⟨commits, settled, commitRun, none_held, reached⟩
    rcases reached.reopen addressable with
      ⟨opening, opened, openRun, same_held, alive, seen, reached⟩
    rcases reached with ⟨base, consumed, represents⟩
    have noneReserved := represents.settled_of_held_nil (same_held.trans none_held) empty
    rcases Reached.drain addressable ⟨base, consumed, represents⟩ alive seen noneReserved
      with ⟨drained, last, drainRun, all⟩
    refine ⟨commits ++ (opening ++ drained), last, commitRun.append (openRun.append drainRun), ?_⟩
    simpa [append_assoc] using all

/-- Sample sizes which leave room for the header in 64 bits make a queue. -/
theorem fifo_of_addressable (addressable : sampleSize.toNat ≤ 2 ^ 64 - 8) :
    Fifo mapping sampleSize where
  inOrder := by
    intro events state run
    rcases exists_represents addressable run with ⟨_, consumed, represents⟩
    exact ⟨consumed, represents.delivered⟩
  contents := by
    intro events state buffer next run taken
    rcases exists_represents addressable run with ⟨_, consumed, represents⟩
    cases taken with
    | getNext alive computed =>
      rcases represents.getNext addressable alive computed with ⟨_, _, answers⟩
      exact answers
  emptyAnswer := by
    intro events state next run taken
    rcases exists_represents addressable run with ⟨_, consumed, represents⟩
    cases taken with
    | getNext alive computed =>
      rcases represents.getNext addressable alive computed with ⟨consumed', after, answers⟩
      exact ⟨consumed', after.delivered, answers⟩
  answers := by
    intro events state tail run alive
    rcases exists_represents addressable run with ⟨_, consumed, represents⟩
    rcases represents.exists_getNext addressable alive with ⟨fuel, rb, result, computed⟩
    exact ⟨result, _, .getNext alive computed⟩
  nothingLost := by
    intro events state run
    exact Reached.exists_delivery addressable (exists_represents addressable run)

end Addressable

section Wrapped

/-- The sizes which wrap around with their header. -/
structure Wrapped (sampleSize : BitVec 64) : Prop where
  stride : alignUp (sampleSize + byteSize) ringBufferAlignment = 8
  notReserved : isReserved ((sampleSize ||| reservedBit) ^^^ reservedBit) = false
  discarded : isDiscarded ((sampleSize ||| reservedBit) ^^^ reservedBit) = true
  skip : alignUp ((((sampleSize ||| reservedBit) ^^^ reservedBit) &&&
      ~~~discardBit) + byteSize) ringBufferAlignment =
    BitVec.ofNat 64 (2 ^ 62 + 8)

theorem wrapped_of_lt {sampleSize : BitVec 64} (wraps : 2 ^ 64 - 8 < sampleSize.toNat) :
    Wrapped sampleSize := by
  have all : ∀ excess < 7, Wrapped (BitVec.ofNat 64 (2 ^ 64 - 7 + excess)) := by
    intro excess bound
    match excess, bound with
    | 0, _ | 1, _ | 2, _ | 3, _ | 4, _ | 5, _ | 6, _ =>
      exact ⟨by decide, by decide, by decide, by decide⟩
  have word : sampleSize = BitVec.ofNat 64 (2 ^ 64 - 7 + (sampleSize.toNat - (2 ^ 64 - 7))) := by
    rw [Nat.add_sub_cancel' (by omega), BitVec.ofNat_toNat, BitVec.setWidth_eq]
  rw [word]
  exact all _ (by omega)

variable (mapping : Mapping) (sampleSize : BitVec 64)

def firstReserved : RingBufferImpl :=
  { (emptyBuffer mapping sampleSize).setHeader 0 (sampleSize ||| reservedBit) with
    writerPos := 8 }

def firstWritten : RingBufferImpl :=
  (firstReserved mapping sampleSize).writeByte ⟨8, sampleSize⟩ 0 16

def firstCommitted : RingBufferImpl :=
  (firstWritten mapping sampleSize).commit ⟨8, sampleSize⟩

variable {sampleSize}

theorem reserve_wrapped (wrapped : Wrapped sampleSize) :
    (emptyBuffer mapping sampleSize).reserve true =
      (firstReserved mapping sampleSize, some ⟨8, sampleSize⟩, false) := by
  have stride : (emptyBuffer mapping sampleSize).stride = 8 := wrapped.stride
  have room : ¬ (emptyBuffer mapping sampleSize).mask < 8 := by
    rw [BitVec.not_lt, BitVec.le_def, mapping.mask_toNat]
    have lower := mapping.capacity_lower
    change 8 ≤ _
    omega
  have start : (emptyBuffer mapping sampleSize).writerPos = 0 := rfl
  have readerStart : (emptyBuffer mapping sampleSize).readerPos = 0 := rfl
  simp only [RingBufferImpl.reserve, stride, start, readerStart]
  rw [if_neg (by decide), if_neg (by decide), if_neg (by simpa using room)]
  simp [firstReserved, show (emptyBuffer mapping sampleSize).sampleSize = sampleSize from rfl]

private theorem apart_small {left right : Nat} (leftBound : left < 4096)
    (rightBound : right < 4096) (distinct : left ≠ right) :
    Apart (emptyBuffer mapping sampleSize).dataSize.toNat left right := by
  have lower := mapping.capacity_lower
  rw [mapping.dataSize_toNat]
  exact apart_of_window 0 (by omega) (by omega) (by omega) (by omega) distinct

theorem header_firstWritten :
    (firstWritten mapping sampleSize).header 0 = sampleSize ||| reservedBit := by
  have lower := mapping.capacity_lower
  have size := mapping.dataSize_toNat sampleSize
  have kept : (firstWritten mapping sampleSize).header 0 =
      ((emptyBuffer mapping sampleSize).setHeader 0 (sampleSize ||| reservedBit)).header 0 := by
    apply loadWord_eq_of_load_eq
    intro index bound
    have apart : Apart (emptyBuffer mapping sampleSize).dataSize.toNat (0 + index) (8 + 0) :=
      apart_small mapping (by omega) (by omega) (by omega)
    exact load_store_of_apart apart
  rw [kept]
  exact header_setHeader (by rw [size]; omega) rfl

theorem header_firstCommitted :
    (firstCommitted mapping sampleSize).header 0 =
      (sampleSize ||| reservedBit) ^^^ reservedBit := by
  have lower := mapping.capacity_lower
  have size := mapping.dataSize_toNat sampleSize
  rw [firstCommitted, RingBufferImpl.commit]
  change ((firstWritten mapping sampleSize).setHeader 0
    ((firstWritten mapping sampleSize).header 0 ^^^ reservedBit)).header 0 = _
  rw [header_firstWritten]
  apply header_setHeader _ rfl
  change 8 ≤ (emptyBuffer mapping sampleSize).dataSize.toNat
  omega

theorem header_behind_firstCommitted :
    loadWord (emptyBuffer mapping sampleSize).dataSize.toNat
      (firstCommitted mapping sampleSize).data 8 = 16 := by
  have bytes : ∀ index < 8,
      load (emptyBuffer mapping sampleSize).dataSize.toNat
        (firstCommitted mapping sampleSize).data (8 + index) =
      load 4096 (fun offset => if offset = 8 then 16 else 0) (8 + index) := by
    intro index bound
    have offset : (8 + index) % 4096 = 8 + index := Nat.mod_eq_of_lt (by omega)
    change load _ (storeWord (emptyBuffer mapping sampleSize).dataSize.toNat
      (firstWritten mapping sampleSize).data 0 _) _ = _
    rw [load_storeWord_of_apart fun index' bound' =>
      apart_small mapping (by omega) (by omega) (by omega)]
    change load _ (store (emptyBuffer mapping sampleSize).dataSize.toNat
      (firstReserved mapping sampleSize).data 8 16) _ = _
    by_cases first : index = 0
    · subst index
      rw [Nat.add_zero, load_store_self]
      rfl
    · rw [load_store_of_apart (apart_small mapping (by omega) (by omega) (by omega))]
      change load _ (storeWord (emptyBuffer mapping sampleSize).dataSize.toNat
        (fun _ => 0) 0 _) _ = _
      rw [load_storeWord_of_apart fun index' bound' =>
        apart_small mapping (by omega) (by omega) (by omega)]
      rw [load, load, offset, if_neg (by omega)]
  rw [loadWord_eq_of_load_eq bytes]
  decide

/-- The reader takes the committed sample for a discarded one and lands in the sample's bytes. -/
theorem getNext_firstCommitted (wrapped : Wrapped sampleSize) :
    (RingBufferImpl.getNext 8 2 (firstCommitted mapping sampleSize)).map Prod.snd =
      some (some ⟨16, 16⟩) := by
  have lower := mapping.capacity_lower
  have isMask : (firstCommitted mapping sampleSize).mask.toNat = mapping.capacity - 1 :=
    mapping.mask_toNat sampleSize
  have start : (firstCommitted mapping sampleSize).intermediateReaderPos = 0 := rfl
  have first : ((0 : BitVec 64) &&& (firstCommitted mapping sampleSize).mask).toNat = 0 := by simp
  have multiple : 2 ^ 62 % mapping.capacity = 0 :=
    Nat.mod_eq_zero_of_dvd (Nat.pow_dvd_pow 2 mapping.bits_le)
  have second : (BitVec.ofNat 64 (2 ^ 62 + 8) &&&
      (firstCommitted mapping sampleSize).mask).toNat = 8 := by
    rw [mapping.linear_position isMask, Nat.add_mod, multiple, Nat.zero_add, Nat.mod_mod,
      Nat.mod_eq_of_lt (by omega)]
  have size : (firstCommitted mapping sampleSize).dataSize =
      (emptyBuffer mapping sampleSize).dataSize := rfl
  have behind : ∀ position,
      { firstCommitted mapping sampleSize with intermediateReaderPos := position }.header 8 =
        16 := by
    intro position
    have read : loadWord (emptyBuffer mapping sampleSize).dataSize.toNat
        (firstCommitted mapping sampleSize).data 8 = 16 := header_behind_firstCommitted mapping
    exact read
  rw [RingBufferImpl.getNext]
  simp only [start, first, header_firstCommitted, wrapped.notReserved, wrapped.discarded,
    wrapped.skip]
  rw [if_neg (by decide), if_neg (by decide), if_pos trivial, RingBufferImpl.getNext]
  simp only [BitVec.ofNat_eq_ofNat, BitVec.zero_add]
  rw [if_neg (by decide)]
  simp only [second, behind]
  rw [if_neg (by decide), if_neg (by decide)]
  rfl

def misreadCalls (sampleSize : BitVec 64) : List Event :=
  [.reserve true (some ⟨8, sampleSize⟩), .write ⟨8, sampleSize⟩ 0 16, .commit ⟨8, sampleSize⟩,
    .openReader, .getNext (some ⟨16, 16⟩)]

theorem exists_misread (wraps : 2 ^ 64 - 8 < sampleSize.toNat) :
    ∃ state, (system mapping sampleSize).Run (system mapping sampleSize).init
      (misreadCalls sampleSize) state := by
  have wrapped := wrapped_of_lt wraps
  have lower := mapping.capacity_lower
  have size := mapping.dataSize_toNat sampleSize
  have notEmpty : sampleSize ≠ 0 := by
    rintro rfl
    simp at wraps
  have owns : owned (some ⟨8, sampleSize⟩) = [⟨8, sampleSize⟩] := by
    simpa [owned, Buffer.isEmpty] using notEmpty
  have answer := getNext_firstCommitted mapping wrapped
  rw [Option.map_eq_some_iff] at answer
  rcases answer with ⟨⟨rb, result⟩, computed, rfl⟩
  have reserved : Step (system mapping sampleSize).init
      (.reserve true (some ⟨8, sampleSize⟩))
      ⟨firstReserved mapping sampleSize, [⟨8, sampleSize⟩], none⟩ := by
    have taken : Step (system mapping sampleSize).init (.reserve true (some ⟨8, sampleSize⟩)) _ :=
      .reserve (reserve_wrapped mapping wrapped)
    rwa [owns] at taken
  have written : Step ⟨firstReserved mapping sampleSize, [⟨8, sampleSize⟩], none⟩
      (.write ⟨8, sampleSize⟩ 0 16)
      ⟨firstWritten mapping sampleSize, [⟨8, sampleSize⟩], none⟩ := by
    have inside : 0 < sampleSize.toNat := by omega
    have mapped : 8 + 0 < 2 * (emptyBuffer mapping sampleSize).dataSize.toNat := by omega
    exact .write (mem_singleton_self _) inside mapped
  have settled : Step ⟨firstWritten mapping sampleSize, [⟨8, sampleSize⟩], none⟩
      (.commit ⟨8, sampleSize⟩) ⟨firstCommitted mapping sampleSize, [], none⟩ := by
    have taken : Step ⟨firstWritten mapping sampleSize, [⟨8, sampleSize⟩], none⟩
      (.commit ⟨8, sampleSize⟩) _ := .commit (mem_singleton_self _)
    rwa [erase_cons_head] at taken
  have opened : Step ⟨firstCommitted mapping sampleSize, [], none⟩ .openReader
      ⟨firstCommitted mapping sampleSize, [], some 8⟩ := .openReader rfl
  have answered : Step ⟨firstCommitted mapping sampleSize, [], some 8⟩ (.getNext (some ⟨16, 16⟩))
      ⟨rb, [], some 8⟩ := .getNext rfl computed
  exact ⟨_, .cons reserved (.cons written (.cons settled (.cons opened (.single answered))))⟩

theorem not_fifo_of_wraps (wraps : 2 ^ 64 - 8 < sampleSize.toNat) : ¬ Fifo mapping sampleSize := by
  intro fifo
  rcases exists_misread mapping wraps with ⟨state, run⟩
  rcases fifo.inOrder _ _ run with ⟨consumed, delivered⟩
  have answered := delivered.returned_eq
  have entries : (ledger (misreadCalls sampleSize)).map (·.buffer) = [⟨8, sampleSize⟩] := by
    simp [misreadCalls, ledger, record, update, Reservation.write, Reservation.settle]
  have mem : (⟨16, 16⟩ : Buffer) ∈ (ledger (misreadCalls sampleSize)).map (·.buffer) := by
    have returnedMem : (⟨16, 16⟩ : Buffer) ∈ returned (misreadCalls sampleSize) := by
      simp [misreadCalls, returned]
    rw [answered, mem_map] at returnedMem
    rcases returnedMem with ⟨entry, inside, same⟩
    exact mem_map.mpr ⟨entry, mem_of_mem_take (mem_of_mem_filter inside), same⟩
  rw [entries] at mem
  simp at mem

end Wrapped

/--
The ring buffer is a queue of its committed reservations exactly when its sample
size leaves room for the header in 64 bits.
-/
theorem fifo_iff_header_fits (mapping : Mapping) (sampleSize : BitVec 64) :
    Fifo mapping sampleSize ↔ sampleSize.toNat ≤ 2 ^ 64 - 8 := by
  constructor
  · intro fifo
    by_contra tooLarge
    exact not_fifo_of_wraps mapping (by omega) fifo
  · exact fifo_of_addressable

def onePage : Mapping where
  pageSize := 4096
  requestedSize := 0
  page_lower := by decide
  page_upper := by decide
  requested_upper := by decide

theorem largest_sample_misread :
    (∃ state, (system onePage (BitVec.allOnes 64)).Run (system onePage (BitVec.allOnes 64)).init
      [.reserve true (some ⟨8, BitVec.allOnes 64⟩), .write ⟨8, BitVec.allOnes 64⟩ 0 16,
        .commit ⟨8, BitVec.allOnes 64⟩, .openReader, .getNext (some ⟨16, 16⟩)] state) ∧
      ¬ Fifo onePage (BitVec.allOnes 64) :=
  ⟨exists_misread onePage (by decide), not_fifo_of_wraps onePage (by decide)⟩

/-! ## The positions of the ring buffer -/

open BitVec

/-- The reader has not released the bytes of a reservation. -/
def RingBufferImpl.IsLive (rb : RingBufferImpl) (index : Nat) : Prop :=
  rb.readerPos.toNat ≤ index * strideOf rb.sampleSize

def RingBufferImpl.Disjoint (rb : RingBufferImpl) (left right : Buffer) : Prop :=
  ∀ leftByte < left.size.toNat + 8, ∀ rightByte < right.size.toNat + 8,
    Apart rb.dataSize.toNat (left.data - 8 + leftByte) (right.data - 8 + rightByte)

/-- The reservations lie apart, between reader and writer. -/
structure Positioned (events : List Event) (state : State) : Prop where
  ordered : state.rb.readerPos.toNat ≤ state.rb.writerPos.toNat
  within : state.rb.writerPos.toNat - state.rb.readerPos.toNat ≤ state.rb.mask.toNat
  aligned : 8 ∣ state.rb.writerPos.toNat ∧ 8 ∣ state.rb.readerPos.toNat ∧
    8 ∣ state.rb.intermediateReaderPos.toNat ∧ ∀ tail, state.reader = some tail → 8 ∣ tail.toNat
  live : ∀ index entry, (ledger events)[index]? = some entry → entry.status = .reserved →
    state.rb.IsLive index
  disjoint : ∀ left right leftEntry rightEntry, left ≠ right →
    (ledger events)[left]? = some leftEntry → (ledger events)[right]? = some rightEntry →
    state.rb.IsLive left → state.rb.IsLive right →
    state.rb.Disjoint leftEntry.buffer rightEntry.buffer
  unchanged : ∀ ownsLock rb timedOut, state.rb.reserve ownsLock = (rb, none, timedOut) →
    rb = state.rb

theorem eight_dvd_strideOf (sampleSize : BitVec 64) : 8 ∣ strideOf sampleSize := by
  rw [strideOf, show ringBufferAlignment = 8 from rfl]
  by_cases extreme : (sampleSize + BufferHeader.byteSize).toNat = 0 ∨
    2 ^ 64 ≤ (sampleSize + BufferHeader.byteSize).toNat + 7
  · rw [alignUp_eight_eq_zero extreme]
    exact Nat.dvd_zero 8
  · rw [alignUp_eight_toNat (by omega) (by omega)]
    exact Nat.dvd_mul_left 8 _

variable {mapping : Mapping} {sampleSize : BitVec 64} {events : List Event} {state : State}
  {base consumed : Nat} (unwrapped : (ledger events).length * strideOf sampleSize < 2 ^ 64)

include unwrapped in
theorem position_toNat {count : Nat} (bound : count ≤ (ledger events).length) :
    (BitVec.ofNat 64 (count * strideOf sampleSize)).toNat = count * strideOf sampleSize :=
  Nat.mod_eq_of_lt ((Nat.mul_le_mul_right _ bound).trans_lt unwrapped)

namespace Represents

variable (represents : Represents mapping sampleSize events state base consumed)
include represents unwrapped

theorem isLive_iff {index : Nat} :
    state.rb.IsLive index ↔ base * strideOf sampleSize ≤ index * strideOf sampleSize := by
  rw [RingBufferImpl.IsLive, represents.readerPos_eq, represents.sampleSize_eq,
    position_toNat unwrapped represents.base_le_length]

theorem disjoint_of_isLive (addressable : sampleSize.toNat ≤ 2 ^ 64 - 8) {left right : Nat}
    {leftEntry rightEntry : Reservation} (distinct : left ≠ right)
    (leftFound : (ledger events)[left]? = some leftEntry)
    (rightFound : (ledger events)[right]? = some rightEntry) (leftLive : state.rb.IsLive left)
    (rightLive : state.rb.IsLive right) :
    state.rb.Disjoint leftEntry.buffer rightEntry.buffer := by
  rcases List.getElem?_eq_some_iff.mp leftFound with ⟨leftInside, -⟩
  rcases List.getElem?_eq_some_iff.mp rightFound with ⟨rightInside, -⟩
  have covers := (represents.covers addressable (by omega)).2
  rw [isLive_iff unwrapped represents, Nat.mul_le_mul_right_iff (by omega)] at leftLive rightLive
  intro leftByte leftBound rightByte rightBound
  rw [represents.buffers left leftEntry leftFound] at leftBound ⊢
  rw [represents.buffers right rightEntry rightFound] at rightBound ⊢
  have apart := slot_bytes_apart represents.window leftLive leftInside rightLive rightInside
    (leftBound.trans_le covers) (rightBound.trans_le covers) (.inl distinct)
  rw [represents.dataSize_eq]
  simpa [Apart] using apart

theorem positioned (addressable : sampleSize.toNat ≤ 2 ^ 64 - 8) : Positioned events state := by
  have baseBound := represents.base_le_length
  have stride := eight_dvd_strideOf sampleSize
  have positions : ∀ count ≤ (ledger events).length,
      8 ∣ (BitVec.ofNat 64 (count * strideOf sampleSize)).toNat := by
    intro count bound
    rw [position_toNat unwrapped bound]
    exact stride.mul_left count
  constructor
  case ordered =>
    rw [represents.readerPos_eq, represents.writerPos_eq,
      position_toNat unwrapped baseBound, position_toNat unwrapped le_rfl]
    exact Nat.mul_le_mul_right _ baseBound
  case within =>
    have window := represents.window
    rw [represents.readerPos_eq, represents.writerPos_eq, represents.mask_eq,
      position_toNat unwrapped baseBound, position_toNat unwrapped le_rfl,
      ← Nat.sub_mul]
    omega
  case aligned =>
    rw [represents.readerPos_eq, represents.writerPos_eq, represents.intermediate_eq]
    refine ⟨positions _ le_rfl, positions _ baseBound, positions _ represents.delivered.bound, ?_⟩
    intro tail alive
    rcases represents.reader_eq tail alive with ⟨rfl, -, seen⟩
    exact positions _ seen
  case live =>
    intro index entry found reserved
    rw [isLive_iff unwrapped represents]
    apply Nat.mul_le_mul_right
    exact represents.base_le.trans (represents.consumed_le_of_reserved found reserved)
  case disjoint =>
    intro left right leftEntry rightEntry distinct leftFound rightFound
    exact disjoint_of_isLive unwrapped represents addressable distinct leftFound rightFound
  case unchanged => exact fun ownsLock rb timedOut => reserve_eq_none

end Represents

theorem positioned_of_addressable (mapping : Mapping) (sampleSize : BitVec 64)
    (addressable : sampleSize.toNat ≤ 2 ^ 64 - 8) (events : List Event) (state : State)
    (run : (system mapping sampleSize).Run (system mapping sampleSize).init events state)
    (unwrapped : (ledger events).length * strideOf sampleSize < 2 ^ 64) :
    Positioned events state := by
  rcases exists_represents addressable run with ⟨base, consumed, represents⟩
  exact represents.positioned unwrapped addressable

theorem two_samples_positioned : ∃ state, (system onePage 24).Run (system onePage 24).init
    [.reserve true (some ⟨8, 24⟩), .reserve true (some ⟨40, 24⟩)] state ∧
    Positioned [.reserve true (some ⟨8, 24⟩), .reserve true (some ⟨40, 24⟩)] state := by
  refine ⟨_, .cons (.reserve rfl) (.single (.reserve rfl)), ?_⟩
  exact positioned_of_addressable onePage 24 (by decide) _ _
    (.cons (.reserve rfl) (.single (.reserve rfl))) (by decide)

/-- Two reservations of the largest size lie eight bytes apart. -/
theorem largest_samples_overlap : ∃ state,
    (system onePage (allOnes 64)).Run (system onePage (allOnes 64)).init
      [.reserve true (some ⟨8, allOnes 64⟩), .reserve true (some ⟨16, allOnes 64⟩)]
      state ∧
    state.rb.IsLive 0 ∧ state.rb.IsLive 1 ∧
    ¬state.rb.Disjoint ⟨8, allOnes 64⟩ ⟨16, allOnes 64⟩ := by
  refine ⟨_, .cons (.reserve rfl) (.single (.reserve rfl)), Nat.zero_le _, Nat.zero_le _, ?_⟩
  intro disjoint
  exact disjoint 8 (by decide) 0 (by decide) rfl

end Pyroscope.RingBuffer
