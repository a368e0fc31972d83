import Pyroscope.Network.RootActivity

/-!
# The memory which `GetRootActivity` touches

Every access is checked against its part of memory. The number of decoded ids is an 8-bit counter.
-/

namespace Pyroscope.Network

open PaddedBuffer List

structure Guid where
  bytes : List Nat
  length_eq : bytes.length = 16
  byte_lt : ∀ byte ∈ bytes, byte < 256

inductive Fault where
  | guid (offset : Nat)
  | elements (index : Nat)
  | activity (offset : Nat)
  deriving DecidableEq

namespace Checked

def readGuid (guid : Guid) (offset : Nat) : Except Fault Nat :=
  if offset < pathBytes then .ok (byteAt guid.bytes offset) else .error (.guid offset)

def readActivity (activity : List Nat) (offset : Nat) : Except Fault Nat :=
  if offset < pathBytes then .ok (byteAt activity offset) else .error (.activity offset)

def writeActivity (activity : List Nat) (offset byte : Nat) : Except Fault (List Nat) :=
  if offset < pathBytes then .ok (activity.set offset byte) else .error (.activity offset)

/-- The array is zero behind the ids which have been decoded. -/
def readElement (elements : List Nat) (index : Nat) : Except Fault Nat :=
  if index < maxNibbleElements then .ok (elements.getD index 0) else .error (.elements index)

def pushElement (elements : List Nat) (value : Nat) : Except Fault (List Nat) :=
  if elements.length < maxNibbleElements then .ok (elements ++ [value])
  else .error (.elements elements.length)

def writeNibble (activity : List Nat) (ptr value : Nat) : Except Fault (List Nat × Nat) := do
  let byte ← readActivity activity ptr
  if byte ≠ 0 then
    let written ← writeActivity activity ptr (byte ||| value % 256)
    return (written, ptr + 1)
  else
    let written ← writeActivity activity ptr ((value <<< 4) % 256)
    return (written, ptr)

def writeBytes (activity : List Nat) (ptr id : Nat) : Nat → Except Fault (List Nat × Nat)
  | 0 => return (activity, ptr)
  | len + 1 =>
    if pathBytes ≤ ptr then return (activity, ptr + 1)
    else do
      let written ← writeActivity activity ptr (id % 256)
      writeBytes written (ptr + 1) (id >>> 8) len

def isOdd (activity : List Nat) (ptr : Nat) : Except Fault Bool :=
  if ptr < pathBytes then do
    let byte ← readActivity activity ptr
    return decide (byte ≠ 0)
  else return false

def addNumber (activity : List Nat) (ptr id : Nat) : Except Fault (List Nat × Nat) := do
  let len := idLength id
  let nibble ← writeNibble activity ptr (multiByte1 + (len - 1))
  let odd ← isOdd nibble.1 nibble.2
  if odd then
    if id < 4096 then
      let written ← writeActivity nibble.1 nibble.2 (((multiByte1 <<< 4) + (id >>> 8)) % 256)
      writeBytes written (nibble.2 + 1) (id &&& 0xFF) 1
    else writeBytes nibble.1 (nibble.2 + 1) id len
  else writeBytes nibble.1 nibble.2 id len

def addIdToGuid (outPtr : List Nat) (whereToAddId id : Nat) (overflow : Bool) :
    Except Fault (List Nat × Nat) :=
  if pathBytes ≤ whereToAddId then return (outPtr, 13)
  else if 0 < id ∧ id ≤ lastImmediateValue ∧ !overflow then writeNibble outPtr whereToAddId id
  else if overflow then
    if pathBytes ≤ whereToAddId + 2 then return (outPtr, 13)
    else do
      let nibble ← writeNibble outPtr whereToAddId overflowCode
      addNumber nibble.1 nibble.2 id
  else addNumber outPtr whereToAddId id

def addPath (elements activity : List Nat) (currentElement : Nat) : Except Fault (List Nat × Nat) :=
  (range currentElement).foldlM (fun state i => do
    let id ← readElement elements i
    addIdToGuid state.1 state.2 id false) (activity, 0)

/-! ## The decoder -/

def readNumber (guid : Guid) (bytePtr : Nat) : Nat → Nat → Except Fault Nat
  | 0, value => return value
  | i + 1, value => do
    let byte ← readGuid guid (bytePtr + i)
    readNumber guid bytePtr i (((value <<< 8) + byte) % 2 ^ 32)

def skipZeroByte (guid : Guid) (bytePtr value : Nat) : Except Fault Nat :=
  if value > 0xFF ∧ value ≤ 0xFFF ∧ bytePtr + 1 < pathBytes then do
    let first ← readGuid guid bytePtr
    if first = 0 then
      let second ← readGuid guid (bytePtr + 1)
      return if second ≠ 0 then bytePtr + 1 else bytePtr
    else return bytePtr
  else return bytePtr

/-- The nibble behind a length nibble holds bits of the number if it is in the same byte. -/
def highBits (guid : Guid) (bytePtr : Nat) (secondNibble : Bool) : Except Fault Nat :=
  if !secondNibble then (· &&& 0xF) <$> readGuid guid bytePtr else return 0

def decodeNumber (guid : Guid) (bytePtr : Nat) (secondNibble : Bool) (nibble : Nat) :
    Except Fault Decoded := do
  let numBytes := nibble - multiByte1 + 1
  let high ← highBits guid bytePtr secondNibble
  if pathBytes < bytePtr + 1 + numBytes then return .stop
  else
    let value ← readNumber guid (bytePtr + 1) numBytes high
    let next ← skipZeroByte guid (bytePtr + 1 + numBytes) value
    return .element value next false

def decodeElement (guid : Guid) (bytePtr : Nat) (secondNibble : Bool) :
    Except Fault Decoded := do
  let byte ← readGuid guid bytePtr
  let nibble := if !secondNibble then byte >>> 4 else byte &&& 0xF
  if nibble = endCode then return .stop
  else if nibble ≤ lastImmediateValue then
    return if !secondNibble then .element nibble bytePtr true
      else .element nibble (bytePtr + 1) false
  else if nibble = overflowCode then
    if !secondNibble then
      let again ← readGuid guid bytePtr
      if again &&& 0xF < multiByte1 then return .giveUp
      else decodeNumber guid bytePtr secondNibble (again &&& 0xF)
    else if pathBytes ≤ bytePtr + 1 then return .stop
    else
      let following ← readGuid guid (bytePtr + 1)
      if following >>> 4 < multiByte1 then return .giveUp
      else decodeNumber guid (bytePtr + 1) secondNibble (following >>> 4)
  else decodeNumber guid bytePtr secondNibble nibble

/-! ## The checked encoder computes the plain one -/

section Encoder

variable {activity elements : List Nat} {ptr value id : Nat}

theorem readActivity_eq (inside : ptr < pathBytes) :
    readActivity activity ptr = .ok (byteAt activity ptr) :=
  if_pos inside

theorem writeActivity_eq (inside : ptr < pathBytes) :
    writeActivity activity ptr value = .ok (activity.set ptr value) :=
  if_pos inside

theorem writeNibble_eq (inside : ptr < pathBytes) :
    writeNibble activity ptr value = .ok (Network.writeNibble activity ptr value) := by
  simp only [writeNibble, Network.writeNibble, readActivity_eq inside, writeActivity_eq inside,
    bind, Except.bind, pure, Except.pure]
  split <;> rfl

theorem writeBytes_eq (len : Nat) :
    writeBytes activity ptr id len = .ok (Network.writeBytes activity ptr id len) := by
  induction len generalizing activity ptr id with
  | zero => rfl
  | succ len ih =>
    rw [writeBytes, Network.writeBytes]
    split
    case isTrue => rfl
    case isFalse free =>
      rw [writeActivity_eq (Nat.lt_of_not_le free)]
      exact ih

theorem isOdd_eq :
    isOdd activity ptr = .ok (decide (ptr < pathBytes ∧ byteAt activity ptr ≠ 0)) := by
  rw [isOdd]
  split
  case isTrue inside => simp [readActivity_eq inside, inside, bind, Except.bind, pure, Except.pure]
  case isFalse outside => simp [outside, pure, Except.pure]

theorem addNumber_eq (inside : ptr < pathBytes) :
    addNumber activity ptr id = .ok (Network.addNumber activity ptr id) := by
  simp only [addNumber, Network.addNumber, writeNibble_eq inside, isOdd_eq, writeBytes_eq,
    bind, Except.bind, decide_eq_true_eq]
  split
  case isTrue odd =>
    rw [writeActivity_eq odd.1]
    split <;> rfl
  case isFalse => rfl

theorem writeNibble_snd_le : (Network.writeNibble activity ptr value).2 ≤ ptr + 1 := by
  rw [Network.writeNibble]
  split
  · exact Nat.le_refl _
  · exact Nat.le_succ _

theorem addIdToGuid_eq (overflow : Bool) :
    addIdToGuid activity ptr id overflow = .ok (Network.addIdToGuid activity ptr id overflow) := by
  rw [addIdToGuid, Network.addIdToGuid]
  split
  case isTrue => rfl
  case isFalse free =>
    have inside : ptr < pathBytes := Nat.lt_of_not_le free
    split
    case isTrue => exact writeNibble_eq inside
    case isFalse =>
      split
      case isTrue =>
        split
        case isTrue => rfl
        case isFalse room =>
          have behind : (Network.writeNibble activity ptr overflowCode).2 < pathBytes := by
            have := @writeNibble_snd_le activity ptr overflowCode
            omega
          rw [writeNibble_eq inside]
          exact addNumber_eq behind
      case isFalse => exact addNumber_eq inside

variable {count : Nat}

theorem readElement_eq (inside : count < maxNibbleElements) :
    readElement elements count = .ok (elements.getD count 0) :=
  if_pos inside

theorem addPath_succ :
    addPath elements activity (count + 1) = (do
      let state ← addPath elements activity count
      let id ← readElement elements count
      addIdToGuid state.1 state.2 id false) := by
  rw [addPath, range_succ, foldlM_append]
  apply bind_congr
  intro state
  rw [foldlM_cons]
  exact bind_pure _

theorem addPath_eq (short : elements.length ≤ maxNibbleElements)
    (inside : count ≤ elements.length) :
    addPath elements activity count = .ok (Network.addPath activity 0 (elements.take count)) := by
  induction count with
  | zero => rfl
  | succ count ih =>
    have last : elements[count]? = some (elements.getD count 0) := by
      rw [getD_eq_getElem?_getD, getElem?_eq_getElem inside, Option.getD_some]
    rw [addPath_succ, ih (Nat.le_of_succ_le inside),
      readElement_eq (Nat.lt_of_lt_of_le inside short), take_add_one, last]
    simp only [bind, Except.bind, addIdToGuid_eq, Network.addPath, foldl_append,
      Option.toList_some, foldl_cons, foldl_nil]

/-- Inside the array the loop goes on whatever it has decoded. -/
theorem addPath_ok (inside : count ≤ maxNibbleElements) :
    ∃ state, addPath elements activity count = .ok state := by
  induction count with
  | zero => exact ⟨_, rfl⟩
  | succ count ih =>
    rcases ih (Nat.le_of_succ_le inside) with ⟨state, before⟩
    rw [addPath_succ, before, readElement_eq inside]
    exact ⟨_, addIdToGuid_eq false⟩

theorem addPath_fault (outside : maxNibbleElements < count) :
    addPath elements activity count = .error (.elements maxNibbleElements) := by
  induction count with
  | zero => exact absurd outside (Nat.not_lt_zero _)
  | succ count ih =>
    rw [addPath_succ]
    rcases Nat.lt_or_eq_of_le (Nat.le_of_lt_succ outside) with later | rfl
    · rw [ih later]
      rfl
    · rcases @addPath_ok activity elements _ (Nat.le_refl maxNibbleElements) with
        ⟨state, before⟩
      rw [before]
      rfl

end Encoder

/-! ## The checked decoder computes the plain one -/

section Decoder

variable {guid : Guid} {bytePtr value nibble : Nat} {secondNibble : Bool} {bytes : List Nat}

theorem readGuid_eq (inside : bytePtr < pathBytes) :
    readGuid guid bytePtr = .ok (byteAt guid.bytes bytePtr) :=
  if_pos inside

theorem readNumber_succ {i : Nat} (inside : bytePtr + i < bytes.length) :
    Network.readNumber bytes bytePtr (i + 1) value =
      Network.readNumber bytes bytePtr i
        (((value <<< 8) + byteAt bytes (bytePtr + i)) % 2 ^ 32) := by
  have last : (bytes.drop bytePtr)[i]? = some (byteAt bytes (bytePtr + i)) := by
    rw [getElem?_drop, byteAt, getD_eq_getElem?_getD, getElem?_eq_getElem inside,
      Option.getD_some]
  rw [Network.readNumber, take_add_one, last, foldr_append]
  rfl

theorem readNumber_eq {numBytes : Nat} (inside : bytePtr + numBytes ≤ pathBytes) :
    readNumber guid bytePtr numBytes value =
      .ok (Network.readNumber guid.bytes bytePtr numBytes value) := by
  induction numBytes generalizing value with
  | zero => rfl
  | succ i ih =>
    have here : bytePtr + i < pathBytes := inside
    have within : bytePtr + i < guid.bytes.length := by
      rw [guid.length_eq]
      exact Nat.lt_trans here (by decide)
    rw [readNumber, readGuid_eq here, readNumber_succ within]
    exact ih (Nat.le_of_lt here)

theorem skipZeroByte_eq :
    skipZeroByte guid bytePtr value = .ok (Network.skipZeroByte guid.bytes bytePtr value) := by
  rw [skipZeroByte, Network.skipZeroByte]
  split
  case isTrue small =>
    rw [readGuid_eq (Nat.lt_of_succ_lt small.2.2), readGuid_eq small.2.2]
    simp only [small, true_and, bind, Except.bind, pure, Except.pure]
    split
    case isTrue zero => simp only [zero, true_and]
    case isFalse other => simp only [other, false_and, if_false]
  case isFalse large =>
    rw [if_neg]
    · rfl
    · rintro ⟨above, below, inside, -⟩
      exact large ⟨above, below, inside⟩

theorem decodeNumber_eq (inside : bytePtr < pathBytes) :
    decodeNumber guid bytePtr secondNibble nibble =
      .ok (Network.decodeNumber guid.bytes bytePtr secondNibble nibble) := by
  have high : highBits guid bytePtr secondNibble =
      .ok (if !secondNibble then byteAt guid.bytes bytePtr &&& 0xF else 0) := by
    rw [highBits, readGuid_eq inside]
    split <;> rfl
  rw [decodeNumber, Network.decodeNumber, high]
  simp only [bind, Except.bind]
  split
  case isTrue => rfl
  case isFalse room =>
    rw [readNumber_eq (Nat.le_of_not_lt room)]
    simp only [skipZeroByte_eq]
    rfl

theorem decodeElement_eq (inside : bytePtr < pathBytes) :
    decodeElement guid bytePtr secondNibble =
      .ok (Network.decodeElement guid.bytes bytePtr secondNibble) := by
  simp only [decodeElement, Network.decodeElement, readGuid_eq inside, decodeNumber_eq inside,
    bind, Except.bind, pure, Except.pure]
  cases secondNibble with
  | false => simp only [Bool.not_false, if_true, apply_ite Except.ok]
  | true =>
    simp only [Bool.not_true, Bool.false_eq_true, if_false, apply_ite Except.ok]
    by_cases room : bytePtr + 1 < pathBytes
    · simp only [readGuid_eq room, decodeNumber_eq room]
    · simp only [Nat.le_of_not_lt room, if_true]

end Decoder

/-! ## Whole calls -/

def decodePath (guid : Guid) (bytePtr : Nat) (secondNibble : Bool) (elements : List Nat) :
    Except Fault (Option (List Nat)) :=
  if _inside : bytePtr < pathBytes then
    match _decoded : decodeElement guid bytePtr secondNibble with
    | .error fault => .error fault
    | .ok .stop => .ok (some elements)
    | .ok .giveUp => .ok none
    | .ok (.element value next nextNibble) =>
      if elements.length ≥ maxNibbleElements then .ok (some elements)
      else pushElement elements value >>= decodePath guid next nextNibble
  else .ok (some elements)
termination_by 2 * pathBytes - (2 * bytePtr + secondNibble.toNat)
decreasing_by
  rw [decodeElement_eq _inside, Except.ok.injEq] at _decoded
  have := lt_of_decodeElement _decoded
  have := Bool.toNat_le secondNibble
  omega

/-- `GetRootActivity`: whether it returns true, with the activity it has written then. -/
def getRootActivity (guid : Guid) (activity : List Nat) (isRoot : Bool) :
    Except Fault (Option (List Nat)) :=
  decodePath guid 0 false [] >>= fun decoded =>
    decoded.elim (.ok none) fun elements =>
      -- The counter is a `uint8_t`, so the predecessor of 0 is 255.
      let currentElement := if isRoot then elements.length else (elements.length + 255) % 256
      (fun state => some state.1) <$> addPath elements activity currentElement

section Calls

variable {guid : Guid} {activity elements path : List Nat} {bytePtr : Nat}
  {secondNibble isRoot : Bool}

theorem decodePath_eq : decodePath guid bytePtr secondNibble elements =
    .ok (Network.decodePath guid.bytes bytePtr secondNibble elements) := by
  fun_induction Network.decodePath guid.bytes bytePtr secondNibble elements with
  | case1 bytePtr secondNibble elements inside decoded
  | case2 bytePtr secondNibble elements inside decoded =>
    rw [decodePath, dif_pos inside]
    split <;> rename_i result <;> rw [decodeElement_eq inside, decoded] at result <;> cases result
  | case3 bytePtr secondNibble elements inside value next nextNibble decoded full =>
    rw [decodePath, dif_pos inside]
    split <;> rename_i result <;> rw [decodeElement_eq inside, decoded] at result <;> cases result
    exact if_pos full
  | case4 bytePtr secondNibble elements inside value next nextNibble decoded room ih =>
    rw [decodePath, dif_pos inside]
    split <;> rename_i result <;> rw [decodeElement_eq inside, decoded] at result <;> cases result
    rw [if_neg room, pushElement, if_pos (Nat.lt_of_not_le room)]
    exact ih
  | case5 bytePtr secondNibble elements outside => rw [decodePath, dif_neg outside]

theorem length_decodePath (short : elements.length ≤ maxNibbleElements)
    (decoded : Network.decodePath bytes bytePtr secondNibble elements = some path) :
    elements.length ≤ path.length ∧ path.length ≤ maxNibbleElements := by
  fun_induction Network.decodePath bytes bytePtr secondNibble elements with
  | case1 | case3 | case5 =>
    cases decoded
    exact ⟨Nat.le_refl _, short⟩
  | case2 => cases decoded
  | case4 bytePtr secondNibble elements inside value next nextNibble element room ih =>
    have longer : (elements ++ [value]).length = elements.length + 1 := length_append
    rw [longer] at ih
    rcases ih (Nat.lt_of_not_le room) decoded with ⟨least, most⟩
    exact ⟨Nat.le_of_succ_le least, most⟩

theorem decodePath_start (zero : byteAt guid.bytes 0 < 16) :
    Network.decodePath guid.bytes 0 false [] = some [] := by
  apply decodePath_stop
  intro _
  have nibble : byteAt guid.bytes 0 >>> 4 = 0 := by
    rw [Nat.shiftRight_eq_div_pow]
    exact Nat.div_eq_of_lt zero
  simp [Network.decodeElement, nibble, endCode]

theorem decodeNumber_start {nibble : Nat} (small : nibble < 16) :
    Network.decodeNumber guid.bytes 0 false nibble ≠ .stop := by
  simp only [Network.decodeNumber]
  rw [if_neg]
  · exact Decoded.noConfusion
  · simp only [pathBytes, multiByte1]
    omega

theorem decodeElement_start (large : 16 ≤ byteAt guid.bytes 0) (byte : byteAt guid.bytes 0 < 256) :
    Network.decodeElement guid.bytes 0 false ≠ .stop := by
  have high : byteAt guid.bytes 0 >>> 4 = byteAt guid.bytes 0 / 16 :=
    Nat.shiftRight_eq_div_pow _ 4
  have low : byteAt guid.bytes 0 &&& 0xF < 16 := Nat.lt_of_le_of_lt Nat.and_le_right (by decide)
  simp only [Network.decodeElement, Bool.not_false, if_true, high, endCode]
  split
  · omega
  · split
    · exact Decoded.noConfusion
    · split
      · split
        · exact Decoded.noConfusion
        · exact decodeNumber_start low
      · exact decodeNumber_start (by omega)

theorem byteAt_lt (guid : Guid) (offset : Nat) : byteAt guid.bytes offset < 256 := by
  rw [byteAt, getD_eq_getElem?_getD]
  cases found : guid.bytes[offset]? with
  | none => exact Nat.zero_lt_succ _
  | some byte => exact guid.byte_lt byte (mem_of_getElem? found)

theorem path_nonempty (large : 16 ≤ byteAt guid.bytes 0)
    (decoded : Network.decodePath guid.bytes 0 false [] = some path) : 0 < path.length := by
  have started := decodeElement_start large (byteAt_lt guid 0)
  cases element : Network.decodeElement guid.bytes 0 false with
  | stop => exact absurd element started
  | giveUp =>
    rw [Network.decodePath, if_pos (by decide)] at decoded
    split at decoded <;> simp_all
  | element value next nextNibble =>
    rw [decodePath_element (by decide) (by decide) element] at decoded
    have short : ([] ++ [value]).length ≤ maxNibbleElements :=
      show 1 ≤ maxNibbleElements by decide
    exact (length_decodePath short decoded).1

theorem getRootActivity_rejected
    (decoded : Network.decodePath guid.bytes 0 false [] = none) :
    getRootActivity guid activity isRoot = .ok none := by
  rw [getRootActivity, decodePath_eq, decoded]
  rfl

theorem getRootActivity_root
    (decoded : Network.decodePath guid.bytes 0 false [] = some path) :
    getRootActivity guid activity true = .ok (some (Network.addPath activity 0 path).1) := by
  have short := (length_decodePath (by decide) decoded).2
  rw [getRootActivity, decodePath_eq, decoded]
  simp only [bind, Except.bind, Option.elim_some, if_true, addPath_eq short (Nat.le_refl _),
    take_length]
  rfl

theorem getRootActivity_child (nonempty : 0 < path.length)
    (decoded : Network.decodePath guid.bytes 0 false [] = some path) :
    getRootActivity guid activity false =
      .ok (some (Network.addPath activity 0 path.dropLast).1) := by
  have short := (length_decodePath (by decide) decoded).2
  have count : (path.length + 255) % 256 = path.length - 1 := by
    rw [maxNibbleElements] at short
    omega
  rw [getRootActivity, decodePath_eq, decoded]
  simp only [bind, Except.bind, Option.elim_some, Bool.false_eq_true, if_false, count,
    addPath_eq short (Nat.sub_le _ _), ← dropLast_eq_take]
  rfl

theorem getRootActivity_fault (zero : byteAt guid.bytes 0 < 16) :
    getRootActivity guid activity false = .error (.elements maxNibbleElements) := by
  rw [getRootActivity, decodePath_eq, decodePath_start zero]
  simp only [bind, Except.bind, Option.elim_some, Bool.false_eq_true, if_false]
  rw [addPath_fault (by decide)]
  rfl

def outcome : RootActivity → Except Fault (Option (List Nat))
  | .rejected => .ok none
  | .overrun => .error (.elements maxNibbleElements)
  | .found activity => .ok (some activity)

theorem getRootActivity_eq : getRootActivity guid emptyActivity isRoot =
    outcome (Network.getRootActivity guid.bytes isRoot) := by
  rw [Network.getRootActivity]
  cases decoded : Network.decodePath guid.bytes 0 false [] with
  | none => exact getRootActivity_rejected decoded
  | some path =>
    cases isRoot with
    | true => exact getRootActivity_root decoded
    | false =>
      cases path with
      | nil =>
        apply getRootActivity_fault
        apply Nat.lt_of_not_le
        exact fun large => absurd (path_nonempty large decoded) (Nat.lt_irrefl 0)
      | cons id path => exact getRootActivity_child (Nat.zero_lt_succ _) decoded

/-- No access leaves its part of memory exactly for root events and paths which are not empty. -/
theorem accesses_inside_iff (guid : Guid) (activity : List Nat) (isRoot : Bool) :
    (∀ fault, getRootActivity guid activity isRoot ≠ .error fault) ↔
      isRoot = true ∨ 16 ≤ byteAt guid.bytes 0 := by
  constructor
  · intro safe
    by_cases zero : byteAt guid.bytes 0 < 16
    · cases isRoot with
      | true => exact .inl rfl
      | false => exact absurd (getRootActivity_fault zero) (safe _)
    · exact .inr (Nat.le_of_not_lt zero)
  · intro condition fault
    cases decoded : Network.decodePath guid.bytes 0 false [] with
    | none =>
      rw [getRootActivity_rejected decoded]
      nofun
    | some path =>
      cases isRoot with
      | true =>
        rw [getRootActivity_root decoded]
        nofun
      | false =>
        have large := condition.resolve_left Bool.false_ne_true
        rw [getRootActivity_child (path_nonempty large decoded) decoded]
        nofun

def emptyGuid : Guid where
  bytes := replicate 16 0
  length_eq := length_replicate
  byte_lt byte member := by
    rw [eq_of_mem_replicate member]
    decide

/-- At an event which is not a root one. -/
theorem empty_path_leaves_array :
    getRootActivity emptyGuid emptyActivity false = .error (.elements 24) :=
  getRootActivity_fault (by decide)

end Calls

end Checked

end Pyroscope.Network
