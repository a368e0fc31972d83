import Pyroscope.Network.Encoding

/-!
# Root activities

The decoder recognizes the superfluous zero byte by the byte behind it.
-/

namespace Pyroscope.Network

open PaddedBuffer List Option

/--
The rest of a GUID from the end of `done` on: the encoding of the remaining ids,
then zeros up to the end of the path bytes.
-/
structure Remaining (stray : Bool) (guid done : List Nat) (pending : Option Nat)
    (ids : List Nat) : Prop where
  content : ∃ tail, guid = done ++ encodeFrom stray pending ids ++ tail
  fits : (done ++ encodeFrom stray pending ids).length ≤ pathBytes
  zeros : ∀ position, (done ++ encodeFrom stray pending ids).length ≤ position →
    position < pathBytes → byteAt guid position = 0

section Nibbles

variable {high low : Nat}

theorem high_nibble (nibble : low < 16) : (16 * high + low) >>> 4 = high := by
  omega

theorem low_nibble (nibble : low < 16) : (16 * high + low) &&& 0xF = low := by
  have mask : (16 * high + low) &&& 0xF = (16 * high + low) % 2 ^ 4 :=
    Nat.and_two_pow_sub_one_eq_mod _ 4
  omega

theorem encodeFrom_waiting (stray : Bool) (high : Nat) (ids : List Nat) :
    ∃ low rest, low < 16 ∧ encodeFrom stray (some high) ids = (16 * high + low) :: rest := by
  cases ids with
  | nil => exact ⟨0, [], by decide, rfl⟩
  | cons id ids =>
    dsimp only [encodeFrom, encodeId]
    split
    · rename_i small
      exact ⟨id, _, Nat.lt_of_le_of_lt small (by decide), rfl⟩
    · exact ⟨lengthCode id, _, (lengthCode_bounds id).2, rfl⟩

theorem encodeFrom_head (stray : Bool) (ids : List Nat) {id : Nat} (positive : 0 < id) :
    ∃ byte rest, byte ≠ 0 ∧ encodeFrom stray none (id :: ids) = byte :: rest := by
  dsimp only [encodeFrom, encodeId]
  split
  · rcases encodeFrom_waiting stray id ids with ⟨low, rest, _, eq⟩
    exact ⟨16 * id + low, rest, by omega, eq⟩
  · have code := (lengthCode_bounds id).1
    unfold multiByte1 at code
    dsimp only [alignedNumber]
    split
    · exact ⟨_, _, by unfold multiByte1; omega, rfl⟩
    · exact ⟨_, _, by omega, rfl⟩

end Nibbles

section Reading

variable {stray : Bool} {guid done : List Nat} {ids : List Nat} {secondNibble : Bool}

section

variable {pending : Option Nat} {byte : Nat} {rest : List Nat}
  (remaining : Remaining stray guid done pending ids)
  (starts : encodeFrom stray pending ids = byte :: rest)
include remaining starts

theorem Remaining.byteAt_done : byteAt guid done.length = byte := by
  rcases remaining.content with ⟨tail, rfl⟩
  simp [starts]

theorem Remaining.done_lt : done.length < pathBytes := by
  have := remaining.fits
  simp only [starts, length_append, length_cons] at this
  omega

end

theorem Remaining.advance {pending next : Option Nat} {chunk rest : List Nat}
    (remaining : Remaining stray guid done pending ids)
    (splits : encodeFrom stray pending ids = chunk ++ encodeFrom stray next rest) :
    Remaining stray guid (done ++ chunk) next rest := by
  rcases remaining with ⟨content, fits, zeros⟩
  rw [splits, ← append_assoc] at content fits zeros
  exact ⟨content, fits, zeros⟩

theorem Remaining.skipZeroByte_eq (remaining : Remaining stray guid done none ids)
    (valid : ValidPath ids) (value : Nat) :
    skipZeroByte guid done.length value = done.length := by
  unfold skipZeroByte
  split
  · rename_i skipped
    rcases skipped with ⟨_, _, inside, zero, nonzero⟩
    cases ids with
    | nil =>
      refine absurd (remaining.zeros (done.length + 1) ?_ inside) nonzero
      simp [encodeFrom, opening]
    | cons id ids =>
      rcases encodeFrom_head stray ids (valid id (mem_cons_self ..)).1 with
        ⟨byte, rest, head, starts⟩
      exact absurd ((remaining.byteAt_done starts).symm.trans zero) head
  · rfl

theorem decodePath_stop {bytePtr : Nat}
    (stop : bytePtr < pathBytes → decodeElement guid bytePtr secondNibble = .stop)
    (elements : List Nat) : decodePath guid bytePtr secondNibble elements = some elements := by
  unfold decodePath
  split
  · split <;> simp_all
  · rfl

theorem decodePath_of_zero (zero : done.length < pathBytes → byteAt guid done.length = 0)
    (elements : List Nat) : decodePath guid done.length false elements = some elements := by
  apply decodePath_stop
  intro inside
  simp [decodeElement, zero inside, endCode]

theorem decodePath_element {bytePtr value next : Nat} {secondNibble nextNibble : Bool}
    {elements : List Nat} (inside : bytePtr < pathBytes) (few : elements.length < maxNibbleElements)
    (decoded : decodeElement guid bytePtr secondNibble = .element value next nextNibble) :
    decodePath guid bytePtr secondNibble elements =
      decodePath guid next nextNibble (elements ++ [value]) := by
  conv => lhs; unfold decodePath
  simp only [inside, if_true]
  split
  · simp_all
  · simp_all
  · rename_i again
    rcases Decoded.element.inj (decoded.symm.trans again) with ⟨rfl, rfl, rfl⟩
    simp only [ge_iff_le, Nat.not_le_of_lt few, if_false]

theorem decodeElement_number {bytePtr code : Nat}
    (nibble : (if !secondNibble then byteAt guid bytePtr >>> 4 else byteAt guid bytePtr &&& 0xF) =
      code) (number : multiByte1 ≤ code) :
    decodeElement guid bytePtr secondNibble = decodeNumber guid bytePtr secondNibble code := by
  unfold multiByte1 at number
  have notEnd : ¬ code = endCode := by
    unfold endCode
    omega
  have notImmediate : ¬ code ≤ lastImmediateValue := by
    unfold lastImmediateValue
    omega
  have notOverflow : ¬ code = overflowCode := by
    unfold overflowCode
    omega
  simp only [decodeElement, nibble, notEnd, notImmediate, notOverflow, if_false]

theorem decodePath_number {tail elements : List Nat} {byte high low length value : Nat}
    (secondNibble : Bool) (content : guid = done ++ byte :: (littleEndian length low ++ tail))
    (fits : done.length + 1 + length ≤ pathBytes) (positive : 1 ≤ length)
    (nibble : (if !secondNibble then byte >>> 4 else byte &&& 0xF) = multiByte1 + (length - 1))
    (highBits : (if !secondNibble then byte &&& 0xF else 0) = high)
    (lowBits : low < 256 ^ length) (whole : high * 256 ^ length + low = value)
    (word : value < 2 ^ 32) (few : elements.length < maxNibbleElements) :
    decodePath guid done.length secondNibble elements =
      decodePath guid (skipZeroByte guid (done.length + 1 + length) value) false
        (elements ++ [value]) := by
  have first : byteAt guid done.length = byte := by
    rw [content]
    exact byteAt_append_cons
  have bytes : (guid.drop (done.length + 1)).take length = littleEndian length low := by
    have split : guid = (done ++ [byte]) ++ (littleEndian length low ++ tail) := by
      rw [content]
      simp
    rw [split, drop_left' (by simp), take_left' (by simp)]
  have read : readNumber guid (done.length + 1) length high = value := by
    rw [readNumber, bytes, foldr_littleEndian 32 (whole ▸ word) lowBits, whole]
  have counted : multiByte1 + (length - 1) - multiByte1 + 1 = length := by omega
  apply decodePath_element (by omega) few
  rw [decodeElement_number (first.symm ▸ nibble) (Nat.le_add_right ..)]
  simp only [decodeNumber, first, counted, highBits, Nat.not_lt_of_le fits, if_false, read]

end Reading

section Decoding

variable {stray : Bool} {guid done ids elements : List Nat} {id high : Nat} {path : List Nat}

theorem decodePath_of_stray (remaining : Remaining stray guid (done ++ [0]) none ids)
    (valid : ValidPath ids) (zero : byteAt guid done.length = 0) {value : Nat}
    (bounds : 256 ≤ value ∧ value ≤ 4095)
    (continues : decodePath guid (done ++ [0]).length false elements = some (elements ++ ids)) :
    decodePath guid (skipZeroByte guid done.length value) false elements =
      some (elements ++ ids) := by
  cases ids with
  | nil =>
    have kept : skipZeroByte guid done.length value = done.length := by
      unfold skipZeroByte
      split
      · rename_i skipped
        refine absurd (remaining.zeros (done.length + 1) ?_ skipped.2.2.1) skipped.2.2.2.2
        simp [encodeFrom, opening]
      · rfl
    rw [kept, decodePath_of_zero fun _ => zero, append_nil]
  | cons id ids =>
    rcases encodeFrom_head stray ids (valid id (mem_cons_self ..)).1 with
      ⟨byte, rest, head, starts⟩
    have inside := remaining.done_lt starts
    have nonzero := remaining.byteAt_done starts
    simp only [length_append, length_singleton] at inside nonzero continues
    have skipped : skipZeroByte guid done.length value = done.length + 1 := by
      have first : value > 0xFF := by omega
      have second : value ≤ 0xFFF := by omega
      simp [skipZeroByte, first, second, inside, zero, nonzero, head]
    rw [skipped]
    exact continues

section Number

variable (valid : ValidPath (id :: ids)) (few : elements.length < maxNibbleElements)
include valid few

theorem decodePath_fullBytes {secondNibble : Bool} {byte : Nat}
    (advanced : Remaining stray guid (done ++ byte :: littleEndian (idLength id) id) none ids)
    (nibble : (if !secondNibble then byte >>> 4 else byte &&& 0xF) = lengthCode id)
    (highBits : (if !secondNibble then byte &&& 0xF else 0) = 0)
    (rest : decodePath guid (done ++ byte :: littleEndian (idLength id) id).length false
      (elements ++ [id]) = some (elements ++ [id] ++ ids)) :
    decodePath guid done.length secondNibble elements = some (elements ++ [id] ++ ids) := by
  have word := (valid id (mem_cons_self ..)).2
  rcases advanced.content with ⟨tail, content⟩
  have number : guid = done ++ byte :: (littleEndian (idLength id) id ++
      (encodeFrom stray none ids ++ tail)) := by
    simpa using content
  have fits := advanced.fits
  have kept := advanced.skipZeroByte_eq (forall_mem_cons.mp valid).2 id
  simp only [length_append, length_cons, length_littleEndian] at fits kept rest
  refine (decodePath_number _ number (by omega) (idLength_bounds id).1 nibble highBits
    (lt_pow_idLength word) (by simp) word few).trans ?_
  rw [Nat.add_right_comm, Nat.add_assoc, kept]
  exact rest

variable (large : ¬ id ≤ lastImmediateValue)
  (continues : ∀ chunk, chunk ≠ [] → Remaining stray guid (done ++ chunk) none ids →
    decodePath guid (done ++ chunk).length false (elements ++ [id]) =
      some (elements ++ [id] ++ ids))
include large continues

theorem decodePath_alignedNumber (remaining : Remaining stray guid done none (id :: ids)) :
    decodePath guid done.length false elements = some (elements ++ [id] ++ ids) := by
  have word := (valid id (mem_cons_self ..)).2
  have validIds := (forall_mem_cons.mp valid).2
  have splits : encodeFrom stray none (id :: ids) =
      alignedNumber stray id ++ encodeFrom stray none ids := by
    simp [encodeFrom, encodeId, large]
  have advanced := remaining.advance splits
  have rest := continues _ (ne_nil_of_length_pos (length_alignedNumber_pos stray id)) advanced
  unfold alignedNumber at advanced rest
  split at advanced
  · rename_i small
    have nibble : id / 256 < 16 := by omega
    have whole : id / 256 * 256 ^ 1 + id % 256 = id := by omega
    rcases advanced.content with ⟨tail, content⟩
    have fits := advanced.fits
    simp only [small, if_true] at rest
    refine (decodePath_number false (by simpa [littleEndian] using content)
      (by simp only [length_append, length_cons] at fits; omega) (Nat.le_refl 1)
      (high_nibble nibble) (low_nibble nibble) (Nat.mod_lt _ (by decide)) whole word few).trans ?_
    split at content
    · rename_i superfluous
      simp only [superfluous, and_self, if_true] at advanced rest
      have split : done ++ [16 * multiByte1 + id / 256, id % 256, 0] =
          (done ++ [16 * multiByte1 + id / 256, id % 256]) ++ [0] := by
        simp
      rw [split] at advanced rest
      have zero : byteAt guid (done ++ [16 * multiByte1 + id / 256, id % 256]).length = 0 := by
        rcases advanced.content with ⟨tail, content⟩
        rw [content, append_assoc, append_assoc]
        exact byteAt_append_cons
      have skipped := decodePath_of_stray advanced validIds zero ⟨superfluous.2, by omega⟩ rest
      simpa using skipped
    · rename_i exactBytes
      simp only [exactBytes, if_false] at advanced rest
      have kept := advanced.skipZeroByte_eq validIds id
      simp only [length_append, length_cons, length_nil] at kept rest
      rw [kept]
      exact rest
  · rename_i notSmall
    simp only [notSmall, if_false] at rest
    exact decodePath_fullBytes valid few advanced (@high_nibble (lengthCode id) 0 (by decide))
      (@low_nibble (lengthCode id) 0 (by decide)) rest

theorem decodePath_waitingNumber (remaining : Remaining stray guid done (some high) (id :: ids)) :
    decodePath guid done.length true elements = some (elements ++ [id] ++ ids) := by
  have splits : encodeFrom stray (some high) (id :: ids) =
      ((16 * high + lengthCode id) :: littleEndian (idLength id) id) ++
        encodeFrom stray none ids := by
    simp [encodeFrom, encodeId, large]
  have advanced := remaining.advance splits
  exact decodePath_fullBytes valid few advanced (low_nibble (lengthCode_bounds id).2) rfl
    (continues _ (by simp) advanced)

end Number

/-- The decoder reads back the rest of the path, whichever encoder has written it. -/
theorem decodePath_remaining {pending : Option Nat} (valid : ValidPath ids)
    (waiting : Waiting pending) (remaining : Remaining stray guid done pending ids)
    (few : elements.length ≤ 2 * done.length + pending.toList.length) :
    decodePath guid done.length pending.isSome elements = some (elements ++ ids) := by
  induction ids generalizing done pending elements with
  | nil =>
    rw [append_nil]
    cases pending with
    | none =>
      apply decodePath_of_zero
      intro inside
      exact remaining.zeros done.length (by simp [encodeFrom, opening]) inside
    | some high =>
      have last : byteAt guid done.length = 16 * high + 0 := remaining.byteAt_done rfl
      have low : byteAt guid done.length &&& 0xF = 0 := by
        rw [last]
        exact low_nibble (by decide)
      have stop : decodeElement guid done.length true = .stop := by
        simp [decodeElement, low, endCode]
      exact decodePath_stop (fun _ => stop) elements
  | cons id ids ih =>
    have positive := (valid id (mem_cons_self ..)).1
    have validIds := (forall_mem_cons.mp valid).2
    rw [← singleton_append, ← append_assoc]
    have continues : ∀ chunk, chunk ≠ [] → Remaining stray guid (done ++ chunk) none ids →
        decodePath guid (done ++ chunk).length false (elements ++ [id]) =
          some (elements ++ [id] ++ ids) := by
      intro chunk nonempty advanced
      have grown := length_pos_iff.mpr nonempty
      have waits : pending.toList.length ≤ 1 := by cases pending <;> simp
      apply ih validIds waiting_none advanced
      simp only [length_append, length_singleton, toList_none, length_nil]
      omega
    have notEnd : ¬ id = endCode := by
      unfold endCode
      omega
    cases pending with
    | none =>
      rcases encodeFrom_head stray ids positive with ⟨_, _, _, starts⟩
      have inside := remaining.done_lt starts
      have room : elements.length < maxNibbleElements := by
        simp only [toList_none, length_nil, pathBytes, maxNibbleElements] at *
        omega
      by_cases small : id ≤ lastImmediateValue
      · have splits : encodeFrom stray none (id :: ids) =
            [] ++ encodeFrom stray (some id) ids := by
          simp [encodeFrom, encodeId, small]
        rcases encodeFrom_waiting stray id ids with ⟨low, rest, nibble, starts⟩
        have byte := remaining.byteAt_done (splits.trans starts)
        have decoded : decodeElement guid done.length false = .element id done.length true := by
          simp [decodeElement, byte, high_nibble nibble, notEnd, small]
        have advanced := remaining.advance splits
        rw [append_nil] at advanced
        refine (decodePath_element inside room decoded).trans ?_
        apply ih validIds ?_ advanced
        · simpa using few
        · rintro _ ⟨⟩
          exact ⟨positive, small⟩
      · exact decodePath_alignedNumber valid room small continues remaining
    | some high =>
      rcases encodeFrom_waiting stray high (id :: ids) with ⟨_, _, _, starts⟩
      have inside := remaining.done_lt starts
      have room : elements.length < maxNibbleElements := by
        simp only [toList_some, length_singleton, pathBytes, maxNibbleElements] at *
        omega
      by_cases small : id ≤ lastImmediateValue
      · have splits : encodeFrom stray (some high) (id :: ids) =
            [16 * high + id] ++ encodeFrom stray none ids := by
          simp [encodeFrom, encodeId, small]
        have nibble : id < 16 := Nat.lt_of_le_of_lt small (by decide)
        have byte := remaining.byteAt_done splits
        have decoded : decodeElement guid done.length true =
            .element id (done ++ [16 * high + id]).length false := by
          simp [decodeElement, byte, low_nibble nibble, notEnd, small]
        refine (decodePath_element inside room decoded).trans ?_
        exact continues _ (by simp) (remaining.advance splits)
      · exact decodePath_waitingNumber valid room small continues remaining

theorem decodePath_padded (valid : ValidPath path)
    (fits : (encodeFrom stray none path).length ≤ pathBytes) (rest : List Nat) :
    decodePath (padded pathBytes (encodeFrom stray none path) ++ rest) 0 false [] = some path := by
  have remaining : Remaining stray (padded pathBytes (encodeFrom stray none path) ++ rest) [] none
      path := by
    refine ⟨⟨List.replicate (pathBytes - (encodeFrom stray none path).length) 0 ++ rest, ?_⟩, fits,
      fun position unwritten inside => byteAt_padded_append inside unwritten⟩
    rw [padded, append_assoc, nil_append]
  exact decodePath_remaining valid waiting_none remaining (Nat.zero_le _)

end Decoding

theorem getRootActivity_runtimeEncode (valid : ValidPath path)
    (fits : (encodeFrom true none path).length ≤ pathBytes) (checksum : List Nat) :
    getRootActivity ((runtimeEncode path).1 ++ checksum) true =
      .found (padded pathBytes (encodeFrom false none path)) := by
  have compact := (length_encodeFrom_le_stray none path).trans fits
  simp only [getRootActivity, runtimeEncode_eq valid fits, decodePath_padded valid fits, if_true,
    addPath_eq valid compact]

theorem getRootActivity_dropLast {id : Nat} (valid : ValidPath (path ++ [id]))
    (fits : (encodeFrom true none (path ++ [id])).length ≤ pathBytes) (checksum : List Nat) :
    getRootActivity ((runtimeEncode (path ++ [id])).1 ++ checksum) false =
      .found (padded pathBytes (encodeFrom false none path)) := by
  have validPath : ValidPath path := fun other mem => valid other (mem_append_left _ mem)
  have compact : (encodeFrom false none path).length ≤ pathBytes :=
    (length_encodeFrom_le_stray none path).trans
      ((length_encodeFrom_le_append true none path id).trans fits)
  have nonempty : (path ++ [id]).isEmpty = false := by simp
  simp only [getRootActivity, runtimeEncode_eq valid fits, decodePath_padded valid fits,
    Bool.false_eq_true, if_false, nonempty, dropLast_concat, addPath_eq validPath compact]

/-- Activities are told apart by their paths: the compact encoding can be decoded again. -/
theorem padded_encodeFrom_injective {path other : List Nat} (valid : ValidPath path)
    (validOther : ValidPath other) (fits : (encodeFrom false none path).length ≤ pathBytes)
    (fitsOther : (encodeFrom false none other).length ≤ pathBytes)
    (same : padded pathBytes (encodeFrom false none path) =
      padded pathBytes (encodeFrom false none other)) : path = other := by
  have decoded := decodePath_padded valid fits []
  rw [same, decodePath_padded validOther fitsOther []] at decoded
  exact (some.inj decoded).symm

/--
Dropping the last id of a path which the runtime has encoded gives the root activity
of the shorter path, and different paths have different root activities. The last
bytes of a GUID are not part of the path.
-/
theorem root_activities_agree_and_differ :
    (∀ path id checksum checksum', ValidPath (path ++ [id]) → Fits (path ++ [id]) →
      ∃ activity,
        getRootActivity ((runtimeEncode (path ++ [id])).1 ++ checksum) false = .found activity ∧
        getRootActivity ((runtimeEncode path).1 ++ checksum') true = .found activity) ∧
    (∀ path other checksum checksum', ValidPath path → ValidPath other → Fits path → Fits other →
      path ≠ other →
        getRootActivity ((runtimeEncode path).1 ++ checksum) true ≠
          getRootActivity ((runtimeEncode other).1 ++ checksum') true) := by
  constructor
  · intro path id checksum checksum' valid fits
    have length := length_le_of_fits valid fits
    have validPath : ValidPath path := fun other mem => valid other (mem_append_left _ mem)
    refine ⟨_, getRootActivity_dropLast valid length checksum, ?_⟩
    apply getRootActivity_runtimeEncode validPath
    exact (length_encodeFrom_le_append true none path id).trans length
  · intro path other checksum checksum' valid validOther fits fitsOther different same
    have length := length_le_of_fits valid fits
    have lengthOther := length_le_of_fits validOther fitsOther
    rw [getRootActivity_runtimeEncode valid length,
      getRootActivity_runtimeEncode validOther lengthOther] at same
    apply different
    apply padded_encodeFrom_injective valid validOther
    · exact (length_encodeFrom_le_stray none path).trans length
    · exact (length_encodeFrom_le_stray none other).trans lengthOther
    · exact RootActivity.found.inj same

/-- The path 300/5 has the superfluous byte in its middle. -/
theorem root_activities_of_300 :
    (∃ activity,
      getRootActivity ((runtimeEncode [300, 5]).1 ++ [1, 2, 3, 4]) false = .found activity ∧
      getRootActivity ((runtimeEncode [300]).1 ++ [5, 6, 7, 8]) true = .found activity) ∧
    getRootActivity ((runtimeEncode [300, 5]).1 ++ [1, 2, 3, 4]) true ≠
      getRootActivity ((runtimeEncode [300]).1 ++ [5, 6, 7, 8]) true := by
  have valid : ValidPath [300, 5] := by decide
  have validRoot : ValidPath [300] := by decide
  refine ⟨root_activities_agree_and_differ.1 [300] 5 _ _ valid (by decide), ?_⟩
  exact root_activities_agree_and_differ.2 _ _ _ _ valid validRoot (by decide) (by decide)
    (by decide)

/-- The decoder reads back what the runtime encodes, and an activity is its own root activity. -/
theorem encoded_path_read_back (path checksum : List Nat) (valid : ValidPath path)
    (fits : Fits path) :
    decodePath ((runtimeEncode path).1 ++ checksum) 0 false [] = some path ∧
    ∃ activity, getRootActivity ((runtimeEncode path).1 ++ checksum) true = .found activity ∧
      ∀ checksum', getRootActivity (activity ++ checksum') true = .found activity := by
  have length := length_le_of_fits valid fits
  have compact := (length_encodeFrom_le_stray none path).trans length
  constructor
  · rw [runtimeEncode_eq valid length]
    exact decodePath_padded valid length checksum
  · refine ⟨_, getRootActivity_runtimeEncode valid length checksum, ?_⟩
    intro checksum'
    simp only [getRootActivity, decodePath_padded valid compact, if_true, addPath_eq valid compact]

theorem encoded_300_read_back :
    decodePath ((runtimeEncode [300, 5]).1 ++ [1, 2, 3, 4]) 0 false [] = some [300, 5] :=
  (encoded_path_read_back [300, 5] _ (by decide) (by decide)).1

end Pyroscope.Network
