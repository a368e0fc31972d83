import Pyroscope.Lib.PaddedBuffer

/-!
# Network activity paths

The first twelve bytes of an activity GUID hold a path of ids. The runtime writes a superfluous zero
behind an id from 256 to 4095 whose length nibble is a high nibble.
-/

namespace Pyroscope.Network

open PaddedBuffer

def pathBytes : Nat := 12

def endCode : Nat := 0x0

def lastImmediateValue : Nat := 0xA

def overflowCode : Nat := 0xB

def multiByte1 : Nat := 0xC

/-- `WriteNibble`, with the buffer and the pointer which it leaves behind. -/
def writeNibble (guid : List Nat) (ptr value : Nat) : List Nat × Nat :=
  if byteAt guid ptr ≠ 0 then (guid.set ptr (byteAt guid ptr ||| value % 256), ptr + 1)
  else (guid.set ptr ((value <<< 4) % 256), ptr)

def writeBytes (guid : List Nat) (ptr id : Nat) : Nat → List Nat × Nat
  | 0 => (guid, ptr)
  | len + 1 =>
    if pathBytes ≤ ptr then (guid, ptr + 1)
    else writeBytes (guid.set ptr (id % 256)) (ptr + 1) (id >>> 8) len

def idLength (id : Nat) : Nat :=
  if id ≤ 0xFF then 1
  else if id ≤ 0xFFFF then 2
  else if id ≤ 0xFFFFFF then 3
  else 4

/-- The part of `AddIdToGuid` which overflow numbers share with the others. -/
def addNumber (guid : List Nat) (ptr id : Nat) : List Nat × Nat :=
  let len := idLength id
  let (guid, ptr) := writeNibble guid ptr (multiByte1 + (len - 1))
  if ptr < pathBytes ∧ byteAt guid ptr ≠ 0 then
    if id < 4096 then
      writeBytes (guid.set ptr (((multiByte1 <<< 4) + (id >>> 8)) % 256)) (ptr + 1) (id &&& 0xFF) 1
    else writeBytes guid (ptr + 1) id len
  else writeBytes guid ptr id len

/-- The buffer and the offset behind the id, 13 if it did not fit. -/
def addIdToGuid (outPtr : List Nat) (whereToAddId id : Nat) (overflow : Bool) : List Nat × Nat :=
  if pathBytes ≤ whereToAddId then (outPtr, 13)
  else if 0 < id ∧ id ≤ lastImmediateValue ∧ !overflow then writeNibble outPtr whereToAddId id
  else if overflow then
    if pathBytes ≤ whereToAddId + 2 then (outPtr, 13)
    else
      let (guid, ptr) := writeNibble outPtr whereToAddId overflowCode
      addNumber guid ptr id
  else addNumber outPtr whereToAddId id

def maxNibbleElements : Nat := 24

def readNumber (guid : List Nat) (bytePtr numBytes value : Nat) : Nat :=
  ((guid.drop bytePtr).take numBytes).foldr
    (fun byte value => ((value <<< 8) + byte) % 2 ^ 32) value

def skipZeroByte (guid : List Nat) (bytePtr value : Nat) : Nat :=
  if value > 0xFF ∧ value ≤ 0xFFF ∧ bytePtr + 1 < pathBytes ∧ byteAt guid bytePtr = 0 ∧
      byteAt guid (bytePtr + 1) ≠ 0 then
    bytePtr + 1
  else bytePtr

/-- What the decoding loop of `GetRootActivity` does at one nibble. -/
inductive Decoded where
  | stop
  | giveUp
  /-- It has decoded one id and goes on at the given nibble. -/
  | element (value bytePtr : Nat) (secondNibble : Bool)

/-- The multi-byte case; `nibble` is the length nibble. -/
def decodeNumber (guid : List Nat) (bytePtr : Nat) (secondNibble : Bool) (nibble : Nat) : Decoded :=
  let numBytes := nibble - multiByte1 + 1
  let high := if !secondNibble then byteAt guid bytePtr &&& 0xF else 0
  let bytePtr := bytePtr + 1
  if pathBytes < bytePtr + numBytes then .stop
  else
    let value := readNumber guid bytePtr numBytes high
    .element value (skipZeroByte guid (bytePtr + numBytes) value) false

/-- One round of the loop, or what follows its label `NextNibble`. -/
def decodeElement (guid : List Nat) (bytePtr : Nat) (secondNibble : Bool) : Decoded :=
  let nibble := if !secondNibble then byteAt guid bytePtr >>> 4 else byteAt guid bytePtr &&& 0xF
  if nibble = endCode then .stop
  else if nibble ≤ lastImmediateValue then
    if !secondNibble then .element nibble bytePtr true else .element nibble (bytePtr + 1) false
  else if nibble = overflowCode then
    if !secondNibble then
      let nibble := byteAt guid bytePtr &&& 0xF
      if nibble < multiByte1 then .giveUp else decodeNumber guid bytePtr secondNibble nibble
    else
      let bytePtr := bytePtr + 1
      if pathBytes ≤ bytePtr then .stop
      else
        let nibble := byteAt guid bytePtr >>> 4
        if nibble < multiByte1 then .giveUp else decodeNumber guid bytePtr secondNibble nibble
  else decodeNumber guid bytePtr secondNibble nibble

section Progress

variable {guid : List Nat} {bytePtr value next : Nat} {secondNibble nextNibble : Bool}

theorem le_skipZeroByte (guid : List Nat) (bytePtr value : Nat) :
    bytePtr ≤ skipZeroByte guid bytePtr value := by
  unfold skipZeroByte
  split <;> omega

theorem lt_of_decodeNumber {nibble : Nat}
    (decoded : decodeNumber guid bytePtr secondNibble nibble = .element value next nextNibble) :
    bytePtr < next := by
  unfold decodeNumber at decoded
  dsimp only at decoded
  split at decoded
  · exact nomatch decoded
  · rcases Decoded.element.inj decoded with ⟨_, rfl, _⟩
    have behind := le_skipZeroByte guid (bytePtr + 1 + (nibble - multiByte1 + 1))
      (readNumber guid (bytePtr + 1) (nibble - multiByte1 + 1)
        (if !secondNibble then byteAt guid bytePtr &&& 0xF else 0))
    omega

theorem lt_of_decodeElement
    (decoded : decodeElement guid bytePtr secondNibble = .element value next nextNibble) :
    2 * bytePtr + secondNibble.toNat < 2 * next + nextNibble.toNat := by
  have number {ptr nibble : Nat} (atNumber : bytePtr ≤ ptr)
      (decoded : decodeNumber guid ptr secondNibble nibble = .element value next nextNibble) :
      2 * bytePtr + secondNibble.toNat < 2 * next + nextNibble.toNat := by
    have behind := lt_of_decodeNumber decoded
    have := Bool.toNat_le secondNibble
    omega
  unfold decodeElement at decoded
  cases secondNibble with
  | false =>
    simp only [Bool.not_false, if_true] at decoded
    split at decoded
    · exact nomatch decoded
    split at decoded
    · rcases Decoded.element.inj decoded with ⟨_, rfl, rfl⟩
      simp
    split at decoded
    · split at decoded
      · exact nomatch decoded
      · exact number (Nat.le_refl _) decoded
    · exact number (Nat.le_refl _) decoded
  | true =>
    simp only [Bool.not_true, Bool.false_eq_true, if_false] at decoded
    split at decoded
    · exact nomatch decoded
    split at decoded
    · rcases Decoded.element.inj decoded with ⟨_, rfl, rfl⟩
      simp only [Bool.toNat_true, Bool.toNat_false]
      omega
    split at decoded
    · split at decoded
      · exact nomatch decoded
      split at decoded
      · exact nomatch decoded
      · exact number (Nat.le_succ _) decoded
    · exact number (Nat.le_refl _) decoded

end Progress

/-- The elements when the loop is left, and `none` for `return false`. -/
def decodePath (guid : List Nat) (bytePtr : Nat) (secondNibble : Bool) (elements : List Nat) :
    Option (List Nat) :=
  if bytePtr < pathBytes then
    match _decoded : decodeElement guid bytePtr secondNibble with
    | .stop => some elements
    | .giveUp => none
    | .element value next nextNibble =>
      if elements.length ≥ maxNibbleElements then some elements
      else decodePath guid next nextNibble (elements ++ [value])
  else some elements
termination_by 2 * pathBytes - (2 * bytePtr + secondNibble.toNat)
decreasing_by
  have := lt_of_decodeElement _decoded
  have := Bool.toNat_le secondNibble
  omega

def addPath (guid : List Nat) (offset : Nat) (path : List Nat) : List Nat × Nat :=
  path.foldl (fun (guid, offset) id => addIdToGuid guid offset id false) (guid, offset)

def emptyActivity : List Nat := padded pathBytes []

inductive RootActivity where
  | rejected
  /-- Dropping the last of no elements makes it read past its array of elements. -/
  | overrun
  /-- It returns true and has written these bytes into the activity. -/
  | found (activity : List Nat)
  deriving DecidableEq

/-- `GetRootActivity`, called with a default constructed activity. -/
def getRootActivity (activityGuid : List Nat) (isRoot : Bool) : RootActivity :=
  match decodePath activityGuid 0 false [] with
  | none => .rejected
  | some elements =>
    if isRoot then .found (addPath emptyActivity 0 elements).1
    else if elements.isEmpty then .overrun
    else .found (addPath emptyActivity 0 elements.dropLast).1

/-! ## The bytes of an encoded path -/

open List Option

def runtimeAddId (guid : List Nat) (offset id : Nat) : List Nat × Nat :=
  let (next, ptr) := addIdToGuid guid offset id false
  if 256 ≤ id ∧ id ≤ 4095 ∧ byteAt guid offset = 0 then
    if pathBytes ≤ ptr then (next, 13) else (next.set ptr 0, ptr + 1)
  else (next, ptr)

def runtimeEncode (path : List Nat) : List Nat × Nat :=
  path.foldl (fun (guid, offset) id => runtimeAddId guid offset id) (padded pathBytes [], 0)

def ValidPath (path : List Nat) : Prop :=
  ∀ id ∈ path, 0 < id ∧ id < 2 ^ 32

/-- The encoded path has room in an activity. -/
def Fits (path : List Nat) : Prop :=
  (runtimeEncode path).2 ≤ pathBytes

instance : DecidablePred ValidPath :=
  fun path => inferInstanceAs (Decidable (∀ id ∈ path, 0 < id ∧ id < 2 ^ 32))

instance : DecidablePred Fits :=
  fun path => inferInstanceAs (Decidable ((runtimeEncode path).2 ≤ pathBytes))

def lengthCode (id : Nat) : Nat :=
  multiByte1 + (idLength id - 1)

/-- A number whose length nibble is a high nibble; `stray` asks for the runtime's zero byte. -/
def alignedNumber (stray : Bool) (id : Nat) : List Nat :=
  if id < 4096 then
    (16 * multiByte1 + id / 256) :: id % 256 :: (if stray ∧ 256 ≤ id then [0] else [])
  else (16 * lengthCode id) :: littleEndian (idLength id) id

def encodeId (stray : Bool) : Option Nat → Nat → List Nat × Option Nat
  | none, id =>
    if id ≤ lastImmediateValue then ([], some id) else (alignedNumber stray id, none)
  | some high, id =>
    if id ≤ lastImmediateValue then ([16 * high + id], none)
    else ((16 * high + lengthCode id) :: littleEndian (idLength id) id, none)

def opening (pending : Option Nat) : List Nat :=
  pending.toList.map (16 * ·)

def encodeFrom (stray : Bool) (pending : Option Nat) : List Nat → List Nat
  | [] => opening pending
  | id :: ids => (encodeId stray pending id).1 ++ encodeFrom stray (encodeId stray pending id).2 ids

def Waiting (pending : Option Nat) : Prop :=
  ∀ high ∈ pending, 0 < high ∧ high ≤ lastImmediateValue

theorem waiting_none : Waiting none :=
  nofun

theorem Waiting.encodeId (stray : Bool) (pending : Option Nat) {id : Nat} (positive : 0 < id) :
    Waiting (encodeId stray pending id).2 := by
  cases pending with
  | none =>
    dsimp only [Network.encodeId]
    split
    · rename_i small
      rintro _ ⟨⟩
      exact ⟨positive, small⟩
    · exact waiting_none
  | some high =>
    dsimp only [Network.encodeId]
    split <;> exact waiting_none

section Arithmetic

variable {id high low : Nat}

theorem idLength_bounds (id : Nat) : 1 ≤ idLength id ∧ idLength id ≤ 4 := by
  unfold idLength
  split_ifs <;> omega

theorem lt_pow_idLength (word : id < 2 ^ 32) : id < 256 ^ idLength id := by
  unfold idLength
  split_ifs <;> omega

theorem shiftLeft_nibble (nibble : high < 16) : (high <<< 4) % 256 = 16 * high := by
  omega

theorem or_nibble (nibble : low < 16) : 16 * high ||| low % 256 = 16 * high + low := by
  have shifted : high <<< 4 = 16 * high := by
    omega
  rw [Nat.mod_eq_of_lt (by omega), ← shifted, Nat.shiftLeft_add_eq_or_of_lt (by omega)]

theorem lengthCode_bounds (id : Nat) : multiByte1 ≤ lengthCode id ∧ lengthCode id < 16 := by
  have := idLength_bounds id
  unfold lengthCode multiByte1
  omega

end Arithmetic

/-- An encoder's buffer and offset, when the bytes have been completed and a nibble may wait. -/
def Encodes (result : List Nat × Nat) (bytes : List Nat) (pending : Option Nat) : Prop :=
  if (bytes ++ opening pending).length ≤ pathBytes then
    result = (padded pathBytes (bytes ++ opening pending), bytes.length)
  else result.2 = 13

section Steps

variable {bytes : List Nat} {pending : Option Nat} {id high : Nat} {result : List Nat × Nat}

theorem Encodes.of_fits (fits : (bytes ++ opening pending).length ≤ pathBytes)
    (eq : result = (padded pathBytes (bytes ++ opening pending), bytes.length)) :
    Encodes result bytes pending := by
  simpa only [Encodes, fits, if_true] using eq

theorem Encodes.of_overflow (overflow : pathBytes < (bytes ++ opening pending).length)
    (eq : result.2 = 13) :
    Encodes result bytes pending := by
  simpa only [Encodes, Nat.not_le_of_lt overflow, if_false] using eq

theorem encodes_writeBytes (length id : Nat) (room : bytes.length ≤ pathBytes) :
    Encodes (writeBytes (padded pathBytes bytes) bytes.length id length)
      (bytes ++ littleEndian length id) none := by
  induction length generalizing bytes id with
  | zero =>
    apply Encodes.of_fits
    · simpa [littleEndian, opening] using room
    · simp [writeBytes, littleEndian, opening]
  | succ length ih =>
    unfold writeBytes
    split
    · rename_i full
      have exactly : bytes.length = pathBytes := Nat.le_antisymm room full
      apply Encodes.of_overflow
      · simp [opening]
        omega
      · simp [exactly, pathBytes]
    · rename_i notFull
      have next : (bytes ++ [id % 256]).length ≤ pathBytes := by
        simp only [length_append, length_singleton]
        omega
      have written := ih (id >>> 8) next
      simpa [set_padded (Nat.lt_of_not_le notFull), littleEndian] using written

theorem writeNibble_aligned (room : bytes.length < pathBytes) (nibble : high < 16) :
    writeNibble (padded pathBytes bytes) bytes.length high =
      (padded pathBytes (bytes ++ [16 * high]), bytes.length) := by
  simp [writeNibble, byteAt_padded (Nat.le_refl _), set_padded room, shiftLeft_nibble nibble]

theorem writeNibble_waiting {low : Nat} (positive : 0 < high) (nibble : low < 16) :
    writeNibble (padded pathBytes (bytes ++ [16 * high])) bytes.length low =
      (padded pathBytes (bytes ++ [16 * high + low]), bytes.length + 1) := by
  have written : 16 * high ≠ 0 := by omega
  simp [writeNibble, written, or_nibble nibble]

theorem encodes_addNumber_aligned (room : bytes.length < pathBytes) :
    Encodes (addNumber (padded pathBytes bytes) bytes.length id)
      (bytes ++ alignedNumber false id) none := by
  have code := lengthCode_bounds id
  have next (byte : Nat) : (bytes ++ [byte]).length ≤ pathBytes := by
    simp only [length_append, length_singleton]
    omega
  have written : byteAt (padded pathBytes (bytes ++ [16 * lengthCode id])) bytes.length ≠ 0 := by
    have := code.1
    unfold multiByte1 at this
    simp only [byteAt_padded_last]
    omega
  have nibble : writeNibble (padded pathBytes bytes) bytes.length (multiByte1 + (idLength id - 1)) =
      (padded pathBytes (bytes ++ [16 * lengthCode id]), bytes.length) :=
    writeNibble_aligned room code.2
  unfold addNumber
  simp only [nibble, room, written, true_and, ne_eq, not_false_eq_true, if_true, alignedNumber]
  split
  · have head : ((multiByte1 <<< 4) + (id >>> 8)) % 256 = 16 * multiByte1 + id / 256 := by
      have shiftedId : id >>> 8 = id / 256 := Nat.shiftRight_eq_div_pow id 8
      omega
    have low : id &&& 0xFF = id % 256 := Nat.and_two_pow_sub_one_eq_mod id 8
    have bytesWritten := encodes_writeBytes 1 (id % 256) (next (16 * multiByte1 + id / 256))
    simpa [head, low, littleEndian] using bytesWritten
  · have bytesWritten := encodes_writeBytes (idLength id) id (next (16 * lengthCode id))
    simpa using bytesWritten

theorem encodes_addNumber_waiting (room : bytes.length < pathBytes) (positive : 0 < high) :
    Encodes (addNumber (padded pathBytes (bytes ++ [16 * high])) bytes.length id)
      (bytes ++ (16 * high + lengthCode id) :: littleEndian (idLength id) id) none := by
  have next : (bytes ++ [16 * high + lengthCode id]).length ≤ pathBytes := by
    simp only [length_append, length_singleton]
    omega
  have fresh : byteAt (padded pathBytes (bytes ++ [16 * high + lengthCode id]))
      (bytes.length + 1) = 0 :=
    byteAt_padded (by simp)
  have nibble : writeNibble (padded pathBytes (bytes ++ [16 * high])) bytes.length
      (multiByte1 + (idLength id - 1)) =
      (padded pathBytes (bytes ++ [16 * high + lengthCode id]), bytes.length + 1) :=
    writeNibble_waiting positive (lengthCode_bounds id).2
  have bytesWritten := encodes_writeBytes (idLength id) id next
  unfold addNumber
  simp only [nibble, fresh, ne_eq, not_true_eq_false, and_false, if_false]
  simpa using bytesWritten

theorem length_alignedNumber_pos (stray : Bool) (id : Nat) :
    0 < (alignedNumber stray id).length := by
  unfold alignedNumber
  split <;> simp

theorem length_encodeId (stray : Bool) (pending : Option Nat) (id : Nat) :
    1 ≤ ((encodeId stray pending id).1 ++ opening (encodeId stray pending id).2).length := by
  cases pending with
  | none =>
    dsimp only [encodeId]
    split
    · simp [opening]
    · have := length_alignedNumber_pos stray id
      simp only [length_append]
      omega
  | some high =>
    dsimp only [encodeId]
    split <;> simp

theorem length_opening_le (pending : Option Nat) : (opening pending).length ≤ 1 := by
  cases pending <;> simp [opening]

variable {result : List Nat × Nat}

theorem Encodes.cases (encodes : Encodes result bytes pending) :
    ((bytes ++ opening pending).length ≤ pathBytes ∧
      result = (padded pathBytes (bytes ++ opening pending), bytes.length)) ∨
    (pathBytes < (bytes ++ opening pending).length ∧ result.2 = 13) := by
  unfold Encodes at encodes
  split at encodes
  · rename_i fits
    exact .inl ⟨fits, encodes⟩
  · rename_i overflow
    exact .inr ⟨Nat.lt_of_not_le overflow, encodes⟩

theorem Encodes.overflow_encodeId (stray : Bool) (id : Nat) (guid : List Nat)
    (overflow : pathBytes < (bytes ++ opening pending).length) :
    Encodes (guid, 13) (bytes ++ (encodeId stray pending id).1) (encodeId stray pending id).2 := by
  have grown := length_encodeId stray pending id
  have small := length_opening_le pending
  apply Encodes.of_overflow
  · simp only [length_append] at *
    omega
  · rfl

theorem Encodes.addIdToGuid (encodes : Encodes result bytes pending) (waiting : Waiting pending)
    (positive : 0 < id) :
    Encodes (addIdToGuid result.1 result.2 id false) (bytes ++ (encodeId false pending id).1)
      (encodeId false pending id).2 := by
  rcases encodes.cases with ⟨fits, rfl⟩ | ⟨overflow, eq⟩
  case inr =>
    have full : pathBytes ≤ result.2 := by
      rw [eq]
      decide
    simpa only [Network.addIdToGuid, full, if_true] using
      Encodes.overflow_encodeId false id result.1 overflow
  by_cases full : pathBytes ≤ bytes.length
  · have grown := length_encodeId false pending id
    simp only [Network.addIdToGuid, full, if_true]
    apply Encodes.of_overflow
    · simp only [length_append] at *
      omega
    · rfl
  have room : bytes.length < pathBytes := Nat.lt_of_not_le full
  simp only [Network.addIdToGuid, full, if_false, positive, Bool.not_false, Bool.false_eq_true]
  cases pending with
  | none =>
    by_cases small : id ≤ lastImmediateValue
    · have nibble : id < 16 := Nat.lt_of_le_of_lt small (by decide)
      simp only [encodeId, small, and_true, if_true]
      apply Encodes.of_fits
      · simp only [opening, append_nil, toList_some, map_cons, map_nil,
          length_append, length_singleton]
        omega
      · simpa [opening] using writeNibble_aligned room nibble
    · simpa [encodeId, small, opening] using encodes_addNumber_aligned room
  | some high =>
    have wait := waiting high rfl
    by_cases small : id ≤ lastImmediateValue
    · have nibble : id < 16 := Nat.lt_of_le_of_lt small (by decide)
      simp only [encodeId, small, and_true, if_true]
      apply Encodes.of_fits
      · simp only [opening, append_nil, toList_none, map_nil,
          length_append, length_singleton]
        omega
      · simpa [opening] using writeNibble_waiting wait.1 nibble
    · simpa [encodeId, small, opening] using encodes_addNumber_waiting room wait.1

/-- The runtime's zero byte follows an id from 256 to 4095 at a byte boundary, and no other. -/
theorem encodeId_stray (pending : Option Nat) (id : Nat) :
    encodeId true pending id =
      if 256 ≤ id ∧ id ≤ 4095 ∧ pending = none then ((encodeId false none id).1 ++ [0], none)
      else encodeId false pending id := by
  cases pending with
  | some high => simp [encodeId]
  | none =>
    by_cases superfluous : 256 ≤ id ∧ id ≤ 4095
    · have large : ¬ id ≤ lastImmediateValue := by
        unfold lastImmediateValue
        omega
      have small : id < 4096 := by omega
      simp [encodeId, alignedNumber, large, small, superfluous]
    · have same : alignedNumber true id = alignedNumber false id := by
        unfold alignedNumber
        split
        · have : ¬ 256 ≤ id := by omega
          simp [this]
        · rfl
      simp only [and_true, superfluous, if_false, encodeId, same]

theorem byteAt_eq_zero_iff (waiting : Waiting pending) :
    byteAt (padded pathBytes (bytes ++ opening pending)) bytes.length = 0 ↔ pending = none := by
  cases pending with
  | none => simp [opening, byteAt_padded (Nat.le_refl _)]
  | some high =>
    have := (waiting high rfl).1
    simp only [opening, toList_some, map_cons, map_nil, byteAt_padded_last,
      reduceCtorEq, iff_false]
    omega

theorem Encodes.runtimeAddId (encodes : Encodes result bytes pending) (waiting : Waiting pending)
    (positive : 0 < id) :
    Encodes (runtimeAddId result.1 result.2 id) (bytes ++ (encodeId true pending id).1)
      (encodeId true pending id).2 := by
  have compact := encodes.addIdToGuid waiting positive
  rcases encodes.cases with ⟨fits, rfl⟩ | ⟨overflow, eq⟩
  case inr =>
    have full : pathBytes ≤ 13 := by decide
    have again : Network.addIdToGuid result.1 result.2 id false = (result.1, 13) := by
      simp only [Network.addIdToGuid, eq, full, if_true]
    have after : Network.runtimeAddId result.1 result.2 id = (result.1, 13) := by
      simp only [Network.runtimeAddId, again, full, if_true, ite_self]
    rw [after]
    exact Encodes.overflow_encodeId true id result.1 overflow
  simp only [Network.runtimeAddId, byteAt_eq_zero_iff waiting, encodeId_stray]
  split
  · rename_i superfluous
    have large : ¬ id ≤ lastImmediateValue := by
      unfold lastImmediateValue
      omega
    rw [superfluous.2.2] at compact ⊢
    simp only [encodeId, large, if_false] at compact ⊢
    rcases compact.cases with ⟨fitsNumber, added⟩ | ⟨overflow, added⟩
    · rw [added]
      split
      · apply Encodes.of_overflow
        · simp [opening] at *
          omega
        · rfl
      · rename_i notFull
        apply Encodes.of_fits
        · simp [opening] at *
          omega
        · have zero : (padded pathBytes (bytes ++ alignedNumber false id)).set
              (bytes ++ alignedNumber false id).length 0 =
              padded pathBytes (bytes ++ alignedNumber false id ++ [0]) :=
            set_padded (Nat.lt_of_not_le notFull)
          simp only [opening, toList_none, map_nil, append_nil]
          rw [zero]
          simp [Nat.add_assoc]
    · have full : pathBytes ≤ 13 := by decide
      simp only [added, full, if_true]
      apply Encodes.of_overflow
      · simp [opening] at *
        omega
      · rfl
  · exact compact

end Steps

section Paths

variable {path : List Nat}

theorem encodes_empty : Encodes (padded pathBytes [], 0) [] none :=
  Encodes.of_fits (Nat.zero_le _) rfl

section Fold

variable (stray : Bool) (add : List Nat → Nat → Nat → List Nat × Nat)
  (step : ∀ {result bytes pending id}, Encodes result bytes pending → Waiting pending → 0 < id →
    Encodes (add result.1 result.2 id) (bytes ++ (encodeId stray pending id).1)
      (encodeId stray pending id).2) (valid : ValidPath path)
include step valid

theorem encodes_foldl {bytes : List Nat} {pending : Option Nat}
    (encodes : Encodes result bytes pending) (waiting : Waiting pending) :
    ∃ bytes' pending', bytes' ++ opening pending' = bytes ++ encodeFrom stray pending path ∧
      Encodes (path.foldl (fun (guid, offset) id => add guid offset id) result)
        bytes' pending' := by
  induction path generalizing result bytes pending with
  | nil => exact ⟨bytes, pending, rfl, encodes⟩
  | cons id ids ih =>
    have positive := (valid id (mem_cons_self ..)).1
    have validIds : ValidPath ids := fun other mem => valid other (mem_cons_of_mem _ mem)
    have waits := Waiting.encodeId stray pending positive
    rcases ih validIds (step encodes waiting positive) waits with
      ⟨bytes', pending', same, encoded⟩
    refine ⟨bytes', pending', ?_, encoded⟩
    rw [same, encodeFrom, append_assoc]

theorem encodes_path
    (folded : path.foldl (fun (guid, offset) id => add guid offset id) (padded pathBytes [], 0) =
      result) :
    if (encodeFrom stray none path).length ≤ pathBytes then
      result.1 = padded pathBytes (encodeFrom stray none path)
    else result.2 = 13 := by
  rcases encodes_foldl stray add step valid encodes_empty waiting_none with
    ⟨bytes, pending, same, encodes⟩
  rw [folded, Encodes, same, nil_append] at encodes
  split_ifs at encodes ⊢
  · exact congrArg Prod.fst encodes
  · exact encodes

end Fold

theorem addPath_eq (valid : ValidPath path)
    (fits : (encodeFrom false none path).length ≤ pathBytes) :
    (addPath emptyActivity 0 path).1 = padded pathBytes (encodeFrom false none path) := by
  have encodes := encodes_path false (addIdToGuid · · · false) Encodes.addIdToGuid valid rfl
  rwa [if_pos fits] at encodes

theorem runtimeEncode_eq (valid : ValidPath path)
    (fits : (encodeFrom true none path).length ≤ pathBytes) :
    (runtimeEncode path).1 = padded pathBytes (encodeFrom true none path) := by
  have encodes := encodes_path true runtimeAddId Encodes.runtimeAddId valid rfl
  rwa [if_pos fits] at encodes

theorem length_le_of_fits (valid : ValidPath path) (fits : Fits path) :
    (encodeFrom true none path).length ≤ pathBytes := by
  have encodes := encodes_path true runtimeAddId Encodes.runtimeAddId valid rfl
  by_contra outside
  rw [if_neg outside] at encodes
  exact absurd (encodes ▸ fits : 13 ≤ pathBytes) (by decide)

theorem length_encodeFrom_le_append (stray : Bool) (pending : Option Nat) (path : List Nat)
    (id : Nat) :
    (encodeFrom stray pending path).length ≤ (encodeFrom stray pending (path ++ [id])).length := by
  induction path generalizing pending with
  | nil =>
    have grown := length_encodeId stray pending id
    have small := length_opening_le pending
    simp only [nil_append, encodeFrom]
    omega
  | cons first path ih =>
    simp only [cons_append, encodeFrom, length_append]
    exact Nat.add_le_add_left (ih _) _

theorem length_encodeFrom_le_stray (pending : Option Nat) (path : List Nat) :
    (encodeFrom false pending path).length ≤ (encodeFrom true pending path).length := by
  induction path generalizing pending with
  | nil => exact Nat.le_refl _
  | cons id path ih =>
    have same : (encodeId true pending id).2 = (encodeId false pending id).2 := by
      rw [encodeId_stray]
      split
      · rename_i superfluous
        have large : ¬ id ≤ lastImmediateValue := by
          unfold lastImmediateValue
          omega
        simp [superfluous.2.2, encodeId, large]
      · rfl
    have longer : (encodeId false pending id).1.length ≤ (encodeId true pending id).1.length := by
      rw [encodeId_stray]
      split
      · rename_i superfluous
        simp [superfluous.2.2]
      · exact Nat.le_refl _
    simp only [encodeFrom, length_append, same]
    exact Nat.add_le_add longer (ih _)

end Paths

end Pyroscope.Network
