import Pyroscope.RingBuffer.Preservation

/-!
# Reading the ring buffer

A discarded reservation is consumed without an answer, and every other one ends the loop of
`GetNext`.
-/

namespace Pyroscope.RingBuffer

open MirroredMemory Transition RingBufferImpl List BitVec

namespace Represents

variable {mapping : Mapping} {sampleSize : BitVec 64} {events : List Event} {state : State}
  {base consumed : Nat} {tail : BitVec 64} {events' : List Event}

section

variable (represents : Represents mapping sampleSize events state base consumed)
  {entry : Reservation}
include represents

theorem openReader :
    Represents mapping sampleSize (events ++ [.openReader])
      { state with reader := some state.rb.openReader } base consumed := by
  have sameLedger : ledger (events ++ [.openReader]) = ledger events := by simp [record]
  have sameReturned : returned (events ++ [.openReader]) = returned events := by
    simp [returned_snoc]
  rcases represents.delivered with ⟨bound, settled, returned_eq⟩
  apply represents.of_same_ledger sameLedger represents.base_le _ represents.intermediate_eq
  · intro tail alive
    cases alive
    rw [snapshot_snoc]
    exact ⟨represents.writerPos_eq, bound, Nat.le_refl _⟩
  · exact ⟨by rwa [sameLedger], by rwa [sameLedger], by rwa [sameReturned, sameLedger]⟩

/--
When the reader goes, everything it consumed may be overwritten, unless the
positions have wrapped around between the two cursors.
-/
theorem closeReader :
    ∃ base', Represents mapping sampleSize (events ++ [.closeReader])
      { state with rb := state.rb.closeReader, reader := none } base' consumed := by
  have closed : ∀ base' rb, base ≤ base' → base' ≤ consumed →
      rb = { state.rb with readerPos := BitVec.ofNat 64 (base' * strideOf sampleSize) } →
      Represents mapping sampleSize events { state with rb := rb, reader := none } base'
        consumed := by
    intro base' rb lower upper rb_eq
    subst rb_eq
    refine { represents with
      base_le := upper, readerPos_eq := rfl, window := ?_, slots := ?_, reader_eq := nofun }
    · exact Nat.lt_of_le_of_lt (Nat.mul_le_mul_right _ (by omega)) represents.window
    · intro index entry above found
      exact { represents.slots index entry (by omega) found with }
  have kept : ∃ base', Represents mapping sampleSize events
      { state with rb := state.rb.closeReader, reader := none } base' consumed := by
    unfold RingBufferImpl.closeReader
    split
    · refine ⟨consumed, closed consumed _ represents.base_le (Nat.le_refl _) ?_⟩
      rw [← represents.intermediate_eq]
    · refine ⟨base, closed base _ (Nat.le_refl _) represents.base_le ?_⟩
      rw [← represents.readerPos_eq]
  rcases kept with ⟨base', represents'⟩
  refine ⟨base', represents'.of_same_history ?_ ?_ ?_⟩
  · simp [record]
  · simp [returned_snoc]
  · simp [snapshot_snoc]

theorem at_tail_iff (alive : state.reader = some tail) :
    state.rb.intermediateReaderPos = tail ↔ consumed = snapshot events := by
  rcases represents.reader_eq tail alive with ⟨tail_eq, lower, upper⟩
  rw [represents.intermediate_eq, tail_eq]
  constructor
  · intro same
    by_contra distinct
    have stride := represents.stride_bounds (by omega)
    have window := represents.window
    have capacityUpper := mapping.capacity_upper
    have baseBound := represents.base_le
    have gap : (snapshot events - consumed) * strideOf sampleSize < 2 ^ 64 := by
      have below : (snapshot events - consumed) * strideOf sampleSize ≤
          ((ledger events).length - base) * strideOf sampleSize :=
        Nat.mul_le_mul_right _ (by omega)
      omega
    have zero : BitVec.ofNat 64 ((snapshot events - consumed) * strideOf sampleSize) = 0 := by
      have sum : BitVec.ofNat 64 ((snapshot events - consumed) * strideOf sampleSize) +
          BitVec.ofNat 64 (consumed * strideOf sampleSize) =
          BitVec.ofNat 64 (consumed * strideOf sampleSize) := by
        rw [← ofNat_add, ← Nat.add_mul, Nat.sub_add_cancel lower, same]
      exact BitVec.add_left_eq_self.mp sum
    have zeroNat := congrArg BitVec.toNat zero
    rw [toNat_ofNat, Nat.mod_eq_of_lt gap] at zeroNat
    have positive : 0 < (snapshot events - consumed) * strideOf sampleSize :=
      Nat.mul_pos (by omega) (Nat.pos_of_ne_zero stride.1)
    change _ = 0 at zeroNat
    omega
  · intro same
    rw [same]

theorem header_at_head (found : (ledger events)[consumed]? = some entry) :
    state.rb.header (state.rb.intermediateReaderPos &&& state.rb.mask).toNat =
      entry.status.header sampleSize := by
  rw [← (represents.slots consumed entry represents.base_le found).header,
    represents.intermediate_eq, mapping.linear_position represents.mask_eq]
  apply loadWord_congr
  rw [represents.dataSize_eq, Nat.mod_mod]

end

theorem stride_of_header (plain : BufferHeader.Plain sampleSize) {status : Status}
    (settled : status ≠ .reserved) :
    alignUp ((status.header sampleSize &&& ~~~BufferHeader.discardBit) + BufferHeader.byteSize)
      ringBufferAlignment = BitVec.ofNat 64 (strideOf sampleSize) := by
  have bare : status.header sampleSize &&& ~~~BufferHeader.discardBit = sampleSize := by
    cases status with
    | reserved => contradiction
    | committed => exact plain.and_not_discardBit
    | discarded => exact plain.discarded_and
  rw [bare, strideOf, BitVec.ofNat_toNat]
  simp

theorem delivered_succ (delivered : Delivered events consumed)
    (found : (ledger events)[consumed]? = some entry) (settled : entry.status ≠ .reserved)
    (sameLedger : ledger events' = ledger events) (answered : returned events' = returned events ++
      if entry.status = .committed then [entry.buffer] else []) :
    Delivered events' (consumed + 1) := by
  have taken : (ledger events).take (consumed + 1) = (ledger events).take consumed ++ [entry] := by
    rw [take_add_one, found]
    rfl
  refine ⟨?_, ?_, ?_⟩
  · have bound := (List.getElem?_eq_some_iff.mp found).1
    rw [sameLedger]
    exact bound
  · intro other mem
    rw [sameLedger, taken, mem_append, mem_singleton] at mem
    rcases mem with before | rfl
    · exact delivered.settled other before
    · exact settled
  · rw [answered, sameLedger, taken, delivered.returned_eq, committed, committed,
      filter_append, map_append]
    by_cases isCommitted : entry.status = .committed
    · simp [isCommitted]
    · simp [isCommitted]

def passed (sampleSize : BitVec 64) (rb : RingBufferImpl) : RingBufferImpl :=
  { rb with
    intermediateReaderPos := rb.intermediateReaderPos + BitVec.ofNat 64 (strideOf sampleSize) }

theorem advance (represents : Represents mapping sampleSize events state base consumed)
    (found : (ledger events)[consumed]? = some entry) (settled : entry.status ≠ .reserved)
    (below : consumed < snapshot events) (sameLedger : ledger events' = ledger events)
    (sameSnapshot : snapshot events' = snapshot events)
    (answered : returned events' = returned events ++
      if entry.status = .committed then [entry.buffer] else []) :
    Represents mapping sampleSize events' { state with rb := passed sampleSize state.rb } base
      (consumed + 1) := by
  have delivered := delivered_succ represents.delivered found settled sameLedger answered
  apply represents.of_same_ledger sameLedger (Nat.le_succ_of_le represents.base_le) delivered
  · rw [represents.intermediate_eq, ← ofNat_add, Nat.succ_mul]
  · intro tail alive
    rcases represents.reader_eq tail alive with ⟨tail_eq, _, upper⟩
    rw [sameSnapshot]
    exact ⟨tail_eq, below, upper⟩

/-- What an answer of `GetNext` says about the ledger. -/
def Answers (events : List Event) (rb : RingBufferImpl) (consumed : Nat) :
    Option Buffer → Prop
  | none => consumed = snapshot events ∨
      ∃ entry, (ledger events)[consumed]? = some entry ∧ entry.status = .reserved
  | some buffer => ∃ entry, (committed (ledger events))[(returned events).length]? = some entry ∧
      entry.buffer = buffer ∧ entry.ShownIn rb

theorem getElem?_committed (delivered : Delivered events consumed)
    (found : (ledger events)[consumed]? = some entry) (isCommitted : entry.status = .committed) :
    (committed (ledger events))[(returned events).length]? = some entry := by
  have bound := (List.getElem?_eq_some_iff.mp found).1
  have next : (ledger events).drop consumed = entry :: (ledger events).drop (consumed + 1) := by
    rw [List.drop_eq_getElem_cons bound]
    rw [List.getElem?_eq_getElem bound] at found
    rw [Option.some.inj found]
  have halves : committed (ledger events) =
      committed ((ledger events).take consumed) ++ committed ((ledger events).drop consumed) := by
    rw [committed, committed, committed, ← filter_append, take_append_drop]
  rw [delivered.returned_eq, length_map, halves, getElem?_append_right (Nat.le_refl _),
    Nat.sub_self, next, committed, filter_cons_of_pos (by simpa using isCommitted)]
  rfl

theorem exists_at_head (represents : Represents mapping sampleSize events state base consumed)
    (alive : state.reader = some tail) (notAtTail : state.rb.intermediateReaderPos ≠ tail) :
    consumed < snapshot events ∧ ∃ entry, (ledger events)[consumed]? = some entry := by
  rcases represents.reader_eq tail alive with ⟨_, lower, upper⟩
  have distinct : consumed ≠ snapshot events :=
    fun same => notAtTail ((represents.at_tail_iff alive).mpr same)
  have bound : consumed < (ledger events).length := by omega
  exact ⟨by omega, _, getElem?_eq_getElem bound⟩

private theorem silent (events : List Event) (result : Option Buffer) :
    ledger (events ++ [.getNext result]) = ledger events ∧
      snapshot (events ++ [.getNext result]) = snapshot events ∧
      returned (events ++ [.getNext result]) = returned events ++ result.toList :=
  ⟨by simp [record], by simp [snapshot_snoc], by simp [returned_snoc]⟩

variable (represents : Represents mapping sampleSize events state base consumed)
include represents

theorem getNext_iteration (addressable : sampleSize.toNat ≤ 2 ^ 64 - 8)
    (notAtTail : state.rb.intermediateReaderPos ≠ tail)
    (found : (ledger events)[consumed]? = some entry) (fuel : Nat) :
    getNext tail (fuel + 1) state.rb =
      match entry.status with
      | .reserved => some (state.rb, none)
      | .committed => some (passed sampleSize state.rb, some entry.buffer)
      | .discarded => getNext tail fuel (passed sampleSize state.rb) := by
  have bound : consumed < (ledger events).length := (List.getElem?_eq_some_iff.mp found).1
  have plain := (represents.covers addressable (by omega)).1
  have linear : (state.rb.intermediateReaderPos &&& state.rb.mask).toNat =
      consumed * strideOf sampleSize % mapping.capacity := by
    rw [represents.intermediate_eq]
    exact mapping.linear_position represents.mask_eq _
  simp only [getNext, if_neg notAtTail, represents.header_at_head found]
  cases status : entry.status with
  | reserved => simp only [Status.header, BufferHeader.isReserved_reserved, if_true]
  | committed =>
    have settled : entry.status ≠ .reserved := by simp [status]
    rw [← status, stride_of_header plain settled]
    simp only [status, Status.header, plain.isReserved_eq_false, plain.isDiscarded_eq_false,
      Bool.false_eq_true, if_false]
    rw [linear, ← represents.buffers consumed entry found]
    rfl
  | discarded =>
    have settled : entry.status ≠ .reserved := by simp [status]
    rw [← status, stride_of_header plain settled]
    simp only [status, Status.header, plain.isReserved_discarded,
      BufferHeader.isDiscarded_discarded, if_true, Bool.false_eq_true, if_false]
    rfl

theorem shownIn {index : Nat} (lower : base ≤ index)
    (found : (ledger events)[index]? = some entry) : entry.ShownIn state.rb := by
  intro offset byte stored
  rcases (represents.slots index entry lower found).contents offset byte stored with ⟨_, shown⟩
  rw [← shown, represents.buffers index entry found]
  apply load_congr
  rw [represents.dataSize_eq]
  simp only [Nat.add_assoc, Nat.mod_add_mod]

/-- `GetNext` keeps the representation, and its answer is the one the ledger calls for. -/
theorem getNext {fuel : Nat} {rb : RingBufferImpl} {result : Option Buffer}
    (addressable : sampleSize.toNat ≤ 2 ^ 64 - 8) (alive : state.reader = some tail)
    (computed : getNext tail fuel state.rb = some (rb, result)) :
    ∃ consumed', Represents mapping sampleSize (events ++ [.getNext result])
        { state with rb := rb } base consumed' ∧ Answers events rb consumed' result := by
  induction fuel generalizing state consumed with
  | zero => simp [getNext] at computed
  | succ fuel ih =>
    rcases silent events result with ⟨sameLedger, sameSnapshot, answered⟩
    by_cases atTail : state.rb.intermediateReaderPos = tail
    · simp only [getNext, if_pos atTail] at computed
      cases computed
      exact ⟨consumed, represents.of_same_history sameLedger (by simp [answered]) sameSnapshot,
        Or.inl ((represents.at_tail_iff alive).mp atTail)⟩
    rcases represents.exists_at_head alive atTail with ⟨below, entry, found⟩
    rw [represents.getNext_iteration addressable atTail found] at computed
    cases status : entry.status with
    | reserved =>
      simp only [status] at computed
      cases computed
      exact ⟨consumed, represents.of_same_history sameLedger (by simp [answered]) sameSnapshot,
        Or.inr ⟨entry, found, status⟩⟩
    | discarded =>
      simp only [status] at computed
      have moved := represents.advance found (by simp [status]) below rfl rfl (by simp [status])
      have later := ih moved alive computed
      exact later
    | committed =>
      simp only [status] at computed
      cases computed
      have moved := represents.advance found (by simp [status]) below sameLedger sameSnapshot
        (by rw [answered, if_pos status]; rfl)
      have shown := represents.shownIn represents.base_le found
      exact ⟨consumed + 1, moved, entry,
        getElem?_committed represents.delivered found status, rfl, shown⟩

/-- `GetNext` returns: each iteration consumes one of the reservations before the tail. -/
theorem exists_getNext (addressable : sampleSize.toNat ≤ 2 ^ 64 - 8)
    (alive : state.reader = some tail) :
    ∃ fuel rb result, RingBufferImpl.getNext tail fuel state.rb = some (rb, result) := by
  generalize remaining : snapshot events - consumed = distance
  induction distance generalizing state consumed with
  | zero =>
    rcases represents.reader_eq tail alive with ⟨_, lower, _⟩
    have atTail := (represents.at_tail_iff alive).mpr (by omega)
    exact ⟨1, state.rb, none, by simp [RingBufferImpl.getNext, atTail]⟩
  | succ distance ih =>
    have notAtTail : state.rb.intermediateReaderPos ≠ tail := by
      intro atTail
      have := (represents.at_tail_iff alive).mp atTail
      omega
    rcases represents.exists_at_head alive notAtTail with ⟨below, entry, found⟩
    have iteration := represents.getNext_iteration addressable notAtTail found
    cases status : entry.status with
    | reserved => exact ⟨1, _, _, by rw [iteration, status]⟩
    | committed => exact ⟨1, _, _, by rw [iteration, status]⟩
    | discarded =>
      have moved := represents.advance found (by simp [status]) below rfl rfl (by simp [status])
      rcases ih moved alive (by omega) with ⟨fuel, rb, result, computed⟩
      exact ⟨fuel + 1, rb, result, by rw [iteration, status]; exact computed⟩

end Represents

end Pyroscope.RingBuffer
