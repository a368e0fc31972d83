import Mathlib.Data.Nat.Size
import Pyroscope.Lib.MirroredMemory

/-!
# The sample ring buffer

The data is one memory file mapped twice in a row. The header of a sample holds its size and two
flag bits.
-/

namespace Pyroscope.RingBuffer

open MirroredMemory

def alignUp (x pow2 : BitVec 64) : BitVec 64 :=
  ((x - 1) ||| (pow2 - 1)) + 1

def nextPowerOfTwo (size : BitVec 64) : BitVec 64 :=
  if size = 0 then 1
  else
    let size := size - 1
    let size := size ||| size >>> 1
    let size := size ||| size >>> 2
    let size := size ||| size >>> 4
    let size := size ||| size >>> 8
    let size := size ||| size >>> 16
    let size := size ||| size >>> 32
    size + 1

def getMaskFromSize (size : BitVec 64) : BitVec 64 :=
  size - 1

structure RingBufferImpl where
  mask : BitVec 64
  metaSize : BitVec 64
  dataSize : BitVec 64
  data : Memory
  writerPos : BitVec 64
  readerPos : BitVec 64
  intermediateReaderPos : BitVec 64
  sampleSize : BitVec 64

inductive CreateFault where
  | memfdCreate
  | ftruncate
  | reserveAddresses
  | mapSecondHalf
  | mapFirstHalf
  deriving DecidableEq

/-- `RingBuffer::Create`, for a given outcome of its system calls. -/
def create (fault : Option CreateFault) (strerror : String)
    (pageSize requestedSize sampleSize : BitVec 64) : Except String RingBufferImpl :=
  let dataSize := nextPowerOfTwo (if pageSize < requestedSize then requestedSize else pageSize)
  let rbSize := dataSize + pageSize
  let totalLength := 2 * rbSize - pageSize
  match fault with
  | some .memfdCreate =>
    .error ("Failed to create file descriptor using memfd: " ++ strerror)
  | some .ftruncate =>
    .error ("Failed to set the size of the file descriptor (size=" ++ toString rbSize.toNat ++
      "): " ++ strerror)
  | some .reserveAddresses =>
    .error ("Failed to allocate virtual memory (" ++ toString totalLength.toNat ++ " bytes): " ++
      strerror)
  | some .mapSecondHalf =>
    .error ("Failed to map the second half of the virtual memory: " ++ strerror)
  | some .mapFirstHalf =>
    .error ("Failed to map the first half of the virtual memory: " ++ strerror)
  | none =>
    .ok
      { mask := getMaskFromSize dataSize
        metaSize := pageSize
        dataSize := dataSize
        data := fun _ => 0
        writerPos := 0
        readerPos := 0
        intermediateReaderPos := 0
        sampleSize := sampleSize }

namespace BufferHeader

def byteSize : BitVec 64 := 8

def discardBit : BitVec 64 := 1 <<< 62

def reservedBit : BitVec 64 := 1 <<< 63

def isReserved (size : BitVec 64) : Bool :=
  size &&& reservedBit != 0

def isDiscarded (size : BitVec 64) : Bool :=
  size &&& discardBit != 0

def getSize (size : BitVec 64) : BitVec 64 :=
  size &&& ~~~discardBit

end BufferHeader

def ringBufferAlignment : BitVec 64 := 8

structure Buffer where
  data : Nat
  size : BitVec 64
  deriving DecidableEq

namespace Buffer

def isEmpty (buffer : Buffer) : Bool :=
  buffer.size == 0

end Buffer

namespace RingBufferImpl

variable (rb : RingBufferImpl)

def header (offset : Nat) : BitVec 64 :=
  loadWord rb.dataSize.toNat rb.data offset

def setHeader (offset : Nat) (word : BitVec 64) : RingBufferImpl :=
  { rb with data := storeWord rb.dataSize.toNat rb.data offset word }

def stride : BitVec 64 :=
  alignUp (rb.sampleSize + BufferHeader.byteSize) ringBufferAlignment

/-- The buffer, `none` for a default span, and whether the timed lock timed out. -/
def reserve (ownsLock : Bool) : RingBufferImpl × Option Buffer × Bool :=
  let size := rb.sampleSize
  let n2 := rb.stride
  if n2 = 0 then (rb, none, false)
  else if !ownsLock then (rb, none, true)
  else
    let newWriterPos := rb.writerPos + n2
    if rb.mask < newWriterPos - rb.readerPos then (rb, none, false)
    else
      let headLinear := (rb.writerPos &&& rb.mask).toNat
      let rb := rb.setHeader headLinear (size ||| BufferHeader.reservedBit)
      ({ rb with writerPos := newWriterPos }, some ⟨headLinear + 8, size⟩, false)

def commit (buf : Buffer) : RingBufferImpl :=
  rb.setHeader (buf.data - 8) (rb.header (buf.data - 8) ^^^ BufferHeader.reservedBit)

def discard (buf : Buffer) : RingBufferImpl :=
  rb.setHeader (buf.data - 8)
    ((rb.header (buf.data - 8) ^^^ BufferHeader.reservedBit) ||| BufferHeader.discardBit)

def writeByte (buf : Buffer) (offset : Nat) (byte : BitVec 8) :
    RingBufferImpl :=
  { rb with data := store rb.dataSize.toNat rb.data (buf.data + offset) byte }

def openReader : BitVec 64 :=
  rb.writerPos

def closeReader : RingBufferImpl :=
  if rb.readerPos < rb.intermediateReaderPos then
    { rb with readerPos := rb.intermediateReaderPos }
  else rb

def availableSamples (tail : BitVec 64) : BitVec 64 :=
  (tail - rb.intermediateReaderPos) / alignUp (BufferHeader.byteSize + rb.sampleSize)
    ringBufferAlignment

/-- The loop goes on only after a discarded sample. -/
def getNext (tail : BitVec 64) : Nat → RingBufferImpl → Option (RingBufferImpl × Option Buffer)
  | 0, _ => none
  | fuel + 1, rb =>
    let head := rb.intermediateReaderPos
    if head = tail then some (rb, none)
    else
      let headLinear := (head &&& rb.mask).toNat
      let sz := rb.header headLinear
      if BufferHeader.isReserved sz then some (rb, none)
      else
        let rb :=
          { rb with
            intermediateReaderPos := rb.intermediateReaderPos +
              alignUp ((sz &&& ~~~BufferHeader.discardBit) + BufferHeader.byteSize)
                ringBufferAlignment }
        if BufferHeader.isDiscarded sz then getNext tail fuel rb
        else some (rb, some ⟨headLinear + 8, sz⟩)

end RingBufferImpl

/-! ## Word arithmetic -/

open BitVec

theorem or_seven (value : Nat) : value ||| 7 = value / 8 * 8 + 7 := by
  have high : (value ||| 7) / 2 ^ 3 = value / 2 ^ 3 := by
    rw [Nat.or_div_two_pow]
    simp
  have low : (value ||| 7) % 2 ^ 3 = 7 := by
    have full : ∀ rest < 8, rest ||| 7 = 7 := by decide
    rw [Nat.or_mod_two_pow]
    exact full (value % 8) (Nat.mod_lt _ (by decide))
  omega

variable {size : BitVec 64}

theorem alignUp_eight_toNat (positive : 0 < size.toNat) (bound : size.toNat + 7 < 2 ^ 64) :
    (alignUp size 8).toNat = (size.toNat + 7) / 8 * 8 := by
  have pred : (size - 1).toNat = size.toNat - 1 := by
    have notZero : (1 : BitVec 64) ≤ size := by
      rw [le_def]
      exact positive
    exact toNat_sub_of_le notZero
  have rounded : ((size - 1) ||| (8 - 1)).toNat = (size.toNat - 1) / 8 * 8 + 7 := by
    rw [toNat_or, pred]
    exact or_seven _
  rw [alignUp, toNat_add, rounded]
  change ((size.toNat - 1) / 8 * 8 + 7 + 1) % 2 ^ 64 = _
  rw [Nat.mod_eq_of_lt (by omega)]
  omega

/-- Rounding up overflows to zero within eight of the largest word, and at zero. -/
theorem alignUp_eight_eq_zero (extreme : size.toNat = 0 ∨ 2 ^ 64 ≤ size.toNat + 7) :
    alignUp size 8 = 0 := by
  have upper := size.isLt
  have pred : 2 ^ 64 - 8 ≤ (size - 1).toNat := by
    rw [toNat_sub]
    change 2 ^ 64 - 8 ≤ (2 ^ 64 - 1 + size.toNat) % 2 ^ 64
    omega
  have predUpper := (size - 1).isLt
  have rounded : ((size - 1) ||| (8 - 1)).toNat = 2 ^ 64 - 1 := by
    rw [toNat_or]
    change (size - 1).toNat ||| 7 = _
    rw [or_seven]
    omega
  apply eq_of_toNat_eq
  rw [alignUp, toNat_add, rounded]
  rfl

section Smear

variable {word smeared : BitVec 64}

/-- Every bit of `smeared` is set exactly when one of the next `width` bits of `word` is. -/
def Smears (word smeared : BitVec 64) (width : Nat) : Prop :=
  ∀ bit, smeared.getLsbD bit = true ↔ ∃ distance < width, word.getLsbD (bit + distance) = true

theorem smears_one (word : BitVec 64) : Smears word word 1 := by
  intro bit
  simp

theorem Smears.double {width : Nat} (smears : Smears word smeared width) :
    Smears word (smeared ||| smeared >>> width) (width + width) := by
  intro bit
  simp only [getLsbD_or, getLsbD_ushiftRight, Bool.or_eq_true, smears bit, smears (width + bit)]
  constructor
  · rintro (⟨distance, bound, set⟩ | ⟨distance, bound, set⟩)
    · exact ⟨distance, by omega, set⟩
    · exact ⟨width + distance, by omega, by rwa [← Nat.add_assoc, Nat.add_comm bit]⟩
  · rintro ⟨distance, bound, set⟩
    by_cases near : distance < width
    · exact Or.inl ⟨distance, near, set⟩
    · refine Or.inr ⟨distance - width, by omega, ?_⟩
      rwa [show width + bit + (distance - width) = bit + distance by omega]

theorem Smears.toNat_eq {width : Nat} (wide : 64 ≤ width) (smears : Smears word smeared width) :
    smeared.toNat = 2 ^ word.toNat.size - 1 := by
  apply Nat.eq_of_testBit_eq
  intro bit
  rw [Nat.testBit_two_pow_sub_one, Bool.eq_iff_iff, decide_eq_true_eq, Nat.lt_size]
  change smeared.getLsbD bit = true ↔ _
  rw [smears bit]
  constructor
  · rintro ⟨distance, _, set⟩
    calc
      2 ^ bit ≤ 2 ^ (bit + distance) := Nat.pow_le_pow_right (by decide) (by omega)
      _ ≤ word.toNat := Nat.ge_two_pow_of_testBit set
  · intro large
    rcases Nat.exists_ge_and_testBit_of_ge_two_pow large with ⟨high, above, set⟩
    have highBound : high < 64 := by
      by_contra beyond
      have clear : word.getLsbD high = false := getLsbD_of_ge _ _ (by omega)
      rw [getLsbD, set] at clear
      contradiction
    refine ⟨high - bit, by omega, ?_⟩
    rwa [show bit + (high - bit) = high by omega]

end Smear

theorem nextPowerOfTwo_toNat (positive : 0 < size.toNat) (bound : size.toNat ≤ 2 ^ 63) :
    (nextPowerOfTwo size).toNat = 2 ^ (size.toNat - 1).size := by
  have notZero : size ≠ 0 := by
    intro zero
    simp [zero] at positive
  have pred : (size - 1).toNat = size.toNat - 1 := by
    apply toNat_sub_of_le
    rw [le_def]
    exact positive
  have smeared :=
    ((smears_one (size - 1)).double.double.double.double.double.double).toNat_eq (by decide)
  have small : (size.toNat - 1).size ≤ 63 := Nat.size_le.mpr (by omega)
  have powerBound : 2 ^ (size.toNat - 1).size ≤ 2 ^ 63 := Nat.pow_le_pow_right (by decide) small
  have powerPositive : 0 < 2 ^ (size.toNat - 1).size := Nat.two_pow_pos _
  rw [pred] at smeared
  simp only [nextPowerOfTwo, if_neg notZero]
  rw [toNat_add]
  simp only [Nat.reduceAdd] at smeared
  rw [smeared]
  change (2 ^ (size.toNat - 1).size - 1 + 1) % 2 ^ 64 = _
  rw [Nat.mod_eq_of_lt (by omega)]
  omega

namespace BufferHeader

theorem getLsbD_discardBit (bit : Nat) : discardBit.getLsbD bit = decide (bit = 62) := by
  rw [show discardBit = twoPow 64 62 from rfl, getLsbD_twoPow]
  simp [eq_comm]

theorem getLsbD_reservedBit (bit : Nat) : reservedBit.getLsbD bit = decide (bit = 63) := by
  rw [show reservedBit = twoPow 64 63 from rfl, getLsbD_twoPow]
  simp [eq_comm]

theorem isReserved_eq_getLsbD (size : BitVec 64) : isReserved size = size.getLsbD 63 := by
  have mask : size &&& reservedBit = _ := and_twoPow size 63
  rw [isReserved, mask]
  cases size.getLsbD 63 <;> rfl

theorem isDiscarded_eq_getLsbD (size : BitVec 64) : isDiscarded size = size.getLsbD 62 := by
  have mask : size &&& discardBit = _ := and_twoPow size 62
  rw [isDiscarded, mask]
  cases size.getLsbD 62 <;> rfl

/-- The size does not reach the flags of a header. -/
def Plain (size : BitVec 64) : Prop :=
  size.toNat < 2 ^ 62

variable {size : BitVec 64}

theorem Plain.getLsbD_eq_false (plain : Plain size) {bit : Nat} (high : 62 ≤ bit) :
    size.getLsbD bit = false :=
  Nat.testBit_lt_two_pow (Nat.lt_of_lt_of_le plain (Nat.pow_le_pow_right (by decide) high))

theorem isReserved_reserved (size : BitVec 64) : isReserved (size ||| reservedBit) = true := by
  simp [isReserved_eq_getLsbD, getLsbD_reservedBit]

theorem Plain.isReserved_eq_false (plain : Plain size) : isReserved size = false := by
  rw [isReserved_eq_getLsbD, plain.getLsbD_eq_false (by decide)]

theorem Plain.isDiscarded_eq_false (plain : Plain size) : isDiscarded size = false := by
  rw [isDiscarded_eq_getLsbD, plain.getLsbD_eq_false (by decide)]

theorem Plain.isReserved_discarded (plain : Plain size) :
    isReserved (size ||| discardBit) = false := by
  rw [isReserved_eq_getLsbD, getLsbD_or, getLsbD_discardBit, plain.getLsbD_eq_false (by decide)]
  rfl

theorem isDiscarded_discarded (size : BitVec 64) : isDiscarded (size ||| discardBit) = true := by
  simp [isDiscarded_eq_getLsbD, getLsbD_discardBit]

theorem Plain.reserved_xor (plain : Plain size) :
    (size ||| reservedBit) ^^^ reservedBit = size := by
  apply eq_of_getLsbD_eq
  intro bit _
  simp only [getLsbD_xor, getLsbD_or, getLsbD_reservedBit]
  by_cases flag : bit = 63
  · rw [plain.getLsbD_eq_false (by omega)]
    simp [flag]
  · simp [flag]

theorem Plain.discarded_and (plain : Plain size) :
    (size ||| discardBit) &&& ~~~discardBit = size := by
  apply eq_of_getLsbD_eq
  intro bit bound
  simp only [getLsbD_and, getLsbD_or, getLsbD_not, getLsbD_discardBit]
  by_cases flag : bit = 62
  · rw [plain.getLsbD_eq_false (by omega)]
    simp [flag]
  · simp [flag, bound]

theorem Plain.and_not_discardBit (plain : Plain size) : size &&& ~~~discardBit = size := by
  apply eq_of_getLsbD_eq
  intro bit bound
  simp only [getLsbD_and, getLsbD_not, getLsbD_discardBit]
  by_cases flag : bit = 62
  · rw [plain.getLsbD_eq_false (by omega)]
    simp [flag]
  · simp [flag, bound]

end BufferHeader

end Pyroscope.RingBuffer
