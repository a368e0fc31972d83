import Mathlib.Data.List.Infix
import Pyroscope.HeapSnapshot.VisitedObjectSet

/-!
# The set of visited objects as a map

Each operation on the set has the result of the same operation on a map from addresses to classes.
-/

namespace Pyroscope.HeapSnapshot

open LinearProbing (position Holds)
open Option
open List
open VisitedObjectSet
open Buckets

namespace VisitedMap

variable (map : VisitedMap) (address : Nat)

theorem insert_insert (old new : Nat) :
    (map.insert address old).insert address new = map.insert address new := by
  funext other
  simp only [insert]
  split <;> rfl

theorem insert_eq_self {map : VisitedMap} {address classID : Nat}
    (known : map address = some classID) : map.insert address classID = map := by
  funext other
  simp only [insert]
  split
  case isTrue equal => rw [equal, known]
  case isFalse => rfl

theorem tryInsert_eq (written : Option Nat) :
    map.perform (.tryInsert address written) =
      (.insertion (if (map address).isSome then .alreadyPresent else .inserted)
          ((map address).getD 0),
        map.insert address (written.getD ((map address).getD 0))) := by
  simp only [perform]
  cases map address with
  | none => rfl
  | some classID => rfl

end VisitedMap

namespace VisitedObjectSet

variable {set : VisitedObjectSet} {map : VisitedMap} {index address classID : Nat}
  {before : VisitedObjectSet}

/-- The set represents the map and has a free bucket. -/
structure Sound (set : VisitedObjectSet) (map : VisitedMap) : Prop where
  valid : set.Valid
  large : defaultCapacity ≤ set.capacity
  mask : set.mask = set.capacity - 1
  count : set.count = set.occupied
  spare : set.count < set.capacity
  represents : set.Represents map

/-- What an operation leaves of the set: it stands for `map`, it is not smaller, and it still
tracks the buckets written if their indices fit 32 bits. -/
structure Leaves (before after : VisitedObjectSet) (map : VisitedMap) : Prop where
  sound : after.Sound map
  larger : before.capacity ≤ after.capacity
  tracked : after.capacity ≤ 2 ^ 32 → before.Tracked → after.Tracked

/-- The set stands for the map, and can be cleared if the indices of its buckets fit 32 bits. -/
structure Keeps (set : VisitedObjectSet) (map : VisitedMap) : Prop where
  sound : set.Sound map
  tracked : set.capacity ≤ 2 ^ 32 → set.Tracked

theorem Leaves.keeps {before after : VisitedObjectSet} (leaves : before.Leaves after map)
    (tracked : before.capacity ≤ 2 ^ 32 → before.Tracked) : after.Keeps map :=
  ⟨leaves.sound, fun small => leaves.tracked small (tracked (leaves.larger.trans small))⟩

namespace Sound

variable (sound : set.Sound map)
include sound

theorem probe_eq (address : Nat) :
    set.probe address = position 0 hashAddress set.addresses address := by
  rcases sound.valid.powerOfTwo with ⟨exponent, power⟩
  simp only [probe, position, sound.mask, capacity]
  exact seek_mask _ power

theorem exists_position (address : Nat) :
    ∃ index, position 0 hashAddress set.addresses address = some index := by
  have spare : set.addresses.countP (· != 0) < set.addresses.length := by
    have := sound.spare
    rwa [sound.count] at this
  rcases LinearProbing.exists_vacant spare with ⟨free, isFree⟩
  exact LinearProbing.position_isSome isFree address

/-- A search ends at the address if the map has it, and at an empty bucket otherwise. -/
theorem search (nonZero : address ≠ 0) :
    ∃ index, set.probe address = some index ∧
      position 0 hashAddress set.addresses address = some index ∧
      ((set.addresses[index]? = some address ∧ map address = some (set.readEntry index)) ∨
        (set.addresses[index]? = some 0 ∧ map address = none)) := by
  rcases sound.exists_position address with ⟨index, found⟩
  refine ⟨index, (sound.probe_eq address).trans found, found, ?_⟩
  have bound := LinearProbing.position_lt found
  rcases LinearProbing.position_spec found with ⟨_, _, here | isVacant, _⟩
  · have beside : set.entries[index]? = some (set.readEntry index) := by
      rw [readEntry, getElem?_eq_getElem (sound.valid.sameLength ▸ bound), getD_some]
    exact Or.inl ⟨here, (sound.represents address nonZero _).mpr ⟨index, here, beside⟩⟩
  · refine Or.inr ⟨isVacant, sound.represents.eq_none nonZero ?_⟩
    exact sound.valid.chained.not_mem_of_position nonZero found isVacant

theorem position_eq (here : set.addresses[index]? = some address) (nonZero : address ≠ 0) :
    position 0 hashAddress set.addresses address = some index := by
  rcases sound.exists_position address with ⟨found, sought⟩
  rw [sought, sound.valid.chained.position_eq here nonZero sought]

theorem apart :
    (set.addresses.zip set.entries).Pairwise
      (fun first second => first.1 ≠ 0 → first.1 ≠ second.1) := by
  rw [pairwise_iff_getElem]
  intro first second firstBound secondBound before nonZero same
  simp only [getElem_zip] at nonZero same
  rw [length_zip] at firstBound secondBound
  have equal : first = second := by
    apply sound.valid.chained.injective _ _ nonZero
    · exact getElem?_eq_getElem (by omega)
    · rw [same]
      exact getElem?_eq_getElem (by omega)
  omega

theorem countP_zip : (set.addresses.zip set.entries).countP (·.1 != 0) = set.occupied := by
  have firsts : (set.addresses.zip set.entries).map Prod.fst = set.addresses :=
    map_fst_zip (Nat.le_of_eq sound.valid.sameLength.symm)
  calc (set.addresses.zip set.entries).countP (·.1 != 0)
      = ((set.addresses.zip set.entries).map Prod.fst).countP (· != 0) := by
        rw [countP_map]
        rfl
    _ = set.occupied := by rw [firsts, occupied]

theorem grow :
    ∃ grown, set.grow = some grown ∧ grown.Sound map ∧ grown.count = set.count ∧
      grown.capacity = 2 * set.capacity ∧ (grown.capacity ≤ 2 ^ 32 → grown.Tracked) := by
  rcases sound.valid.powerOfTwo with ⟨exponent, power⟩
  have doubled : set.capacity * 2 = 2 ^ (exponent + 1) := by
    rw [capacity, power, Nat.pow_succ]
  have emptyValid : (empty (set.capacity * 2)).Valid :=
    vacant_valid doubled length_replicate
  have newLength : (empty (set.capacity * 2)).addresses.length = set.capacity * 2 :=
    length_replicate
  have occupied : (empty (set.capacity * 2)).occupied = 0 := occupied_vacant
  have fresh : ∀ item ∈ set.addresses.zip set.entries, item.1 ≠ 0 →
      item.1 ∉ (empty (set.capacity * 2)).addresses := by
    intro item _ nonZero mem
    exact nonZero (eq_of_mem_replicate mem)
  have spare := sound.spare
  have count := sound.count
  have room : (empty (set.capacity * 2)).occupied +
      (set.addresses.zip set.entries).countP (·.1 != 0) <
        (empty (set.capacity * 2)).addresses.length := by
    rw [occupied, sound.countP_zip, newLength]
    omega
  rcases emptyValid.rehash sound.apart fresh room with ⟨after, result, rehashed⟩
  rw [newLength] at result
  have sameOccupied : after.occupied = set.occupied := by
    rw [rehashed.occupied, occupied, sound.countP_zip, Nat.zero_add]
  have length : after.addresses.length = set.capacity * 2 := rehashed.sameCapacity.trans newLength
  have newCapacity : VisitedObjectSet.capacity
      { set with toBuckets := after, mask := set.capacity * 2 - 1 } = set.capacity * 2 := length
  refine ⟨{ set with toBuckets := after, mask := set.capacity * 2 - 1 }, ?_, ?_, rfl, ?_, ?_⟩
  · simp only [VisitedObjectSet.grow, result, map_some]
  · have large := sound.large
    refine ⟨rehashed.valid, ?_, ?_, sound.count.trans sameOccupied.symm, ?_, ?_⟩
    · omega
    · rw [newCapacity]
    · rw [newCapacity]
      exact Nat.lt_of_lt_of_le spare (Nat.le_mul_of_pos_right _ (by decide))
    · intro address nonZero classID
      have nothing : ¬ Holds (empty (set.capacity * 2)).addresses
          (empty (set.capacity * 2)).entries address classID :=
        not_holds_vacant nonZero
      have kept := rehashed.holds address nonZero classID
      simp only [nothing, false_or, mem_iff_getElem?, getElem?_zip_eq_some] at kept
      exact (sound.represents address nonZero classID).trans kept.symm
  · rw [newCapacity, Nat.mul_comm]
  · intro small
    rw [newCapacity] at small
    exact rehashed.tracked (by rwa [newLength]) vacant_tracked

theorem makeRoom :
    ∃ room, set.makeRoom = some room ∧ room.count + 1 < room.capacity ∧ set.Leaves room map := by
  have large : 512 ≤ set.capacity := sound.large
  simp only [VisitedObjectSet.makeRoom]
  split
  case isTrue =>
    rcases sound.grow with ⟨grown, result, grownSound, sameCount, doubled, tracked⟩
    have spare := sound.spare
    exact ⟨grown, result, by omega, grownSound, by omega, fun small _ => tracked small⟩
  case isFalse enough =>
    simp only [needsGrow, decide_eq_true_eq] at enough
    exact ⟨set, rfl, by omega, sound, Nat.le_refl _, fun _ tracked => tracked⟩

theorem writeEntry (here : set.addresses[index]? = some address) (nonZero : address ≠ 0) :
    (set.writeEntry index classID).Sound (map.insert address classID) := by
  have same : set.addresses.set index address = set.addresses := by
    rcases List.getElem?_eq_some_iff.mp here with ⟨bound, equal⟩
    rw [← equal, set_getElem_self]
  have stored : Buckets.Represents ⟨set.addresses.set index address,
      set.entries.set index classID, set.dirtyIndices⟩ (map.insert address classID) :=
    sound.represents.set sound.valid (sound.position_eq here nonZero) nonZero
  rw [same] at stored
  refine ⟨⟨sound.valid.powerOfTwo, ?_, sound.valid.chained⟩, sound.large, sound.mask, sound.count,
    sound.spare, stored⟩
  simp only [VisitedObjectSet.writeEntry, length_set]
  exact sound.valid.sameLength

theorem store (room : set.count + 1 < set.capacity)
    (found : position 0 hashAddress set.addresses address = some index)
    (isVacant : set.addresses[index]? = some 0) (nonZero : address ≠ 0) :
    Sound { set with toBuckets := set.store index address classID, count := set.count + 1 }
      (map.insert address classID) := by
  have sameCapacity : capacity
      { set with toBuckets := set.store index address classID, count := set.count + 1 } =
        set.capacity := length_set
  refine ⟨sound.valid.store found, ?_, ?_, ?_, ?_, ?_⟩
  · rw [sameCapacity]
    exact sound.large
  · rw [sameCapacity]
    exact sound.mask
  · exact (congrArg (· + 1) sound.count).trans (occupied_store isVacant nonZero).symm
  · rw [sameCapacity]
    exact room
  · exact sound.represents.set sound.valid found nonZero

end Sound

theorem Leaves.writeEntry {old : Nat} (leaves : before.Leaves set (map.insert address old))
    (here : set.addresses[index]? = some address) (nonZero : address ≠ 0) :
    before.Leaves (set.writeEntry index classID) (map.insert address classID) := by
  refine ⟨?_, leaves.larger, leaves.tracked⟩
  rw [← map.insert_insert address old classID]
  exact leaves.sound.writeEntry here nonZero

theorem Leaves.store (leaves : before.Leaves set map) (room : set.count + 1 < set.capacity)
    (found : position 0 hashAddress set.addresses address = some index)
    (isVacant : set.addresses[index]? = some 0) (nonZero : address ≠ 0) :
    before.Leaves
      { set with toBuckets := set.store index address classID, count := set.count + 1 }
      (map.insert address classID) := by
  have sameCapacity : capacity
      { set with toBuckets := set.store index address classID, count := set.count + 1 } =
        set.capacity := length_set
  refine ⟨leaves.sound.store room found isVacant nonZero, ?_, ?_⟩
  · rw [sameCapacity]
    exact leaves.larger
  · intro small tracked
    rw [sameCapacity] at small
    exact (leaves.tracked small tracked).store small isVacant nonZero

namespace Sound

variable (sound : set.Sound map) (nonZero : address ≠ 0)
include sound nonZero

/-- The entry which a caller gets has the class of the address, or 0 if the address is new. -/
theorem tryInsert :
    ∃ index after,
      set.tryInsert address =
        some (if (map address).isSome then .alreadyPresent else .inserted, index, after) ∧
      after.readEntry index = (map address).getD 0 ∧
      after.addresses[index]? = some address ∧
      set.Leaves after (map.insert address ((map address).getD 0)) := by
  rcases sound.makeRoom with ⟨room, made, spare, leaves⟩
  rcases leaves.sound.search nonZero with
    ⟨index, probed, found, ⟨here, known⟩ | ⟨isVacant, unknown⟩⟩
  · refine ⟨index, room, ?_, ?_, here, ?_, leaves.larger, leaves.tracked⟩
    · simp [VisitedObjectSet.tryInsert, made, probed, here, known]
    · rw [known, getD_some]
    · rw [known, getD_some, VisitedMap.insert_eq_self known]
      exact leaves.sound
  · have bound := LinearProbing.position_lt found
    have vacantNe : room.addresses[index]? ≠ some address := by
      rw [isVacant]
      exact fun equal => nonZero (some.inj equal).symm
    refine ⟨index, { room with
      toBuckets := room.store index address 0, count := room.count + 1 }, ?_, ?_, ?_, ?_⟩
    · simp [VisitedObjectSet.tryInsert, made, probed, vacantNe, unknown]
    · simp [readEntry, Buckets.store, unknown, leaves.sound.valid.sameLength, bound]
    · exact getElem?_set_self bound
    · rw [unknown, getD_none]
      exact leaves.store spare found isVacant nonZero

theorem markVisitedAndStore :
    ∃ after, set.markVisitedAndStore address classID = some after ∧
      set.Leaves after (map.insert address classID) := by
  rcases sound.makeRoom with ⟨room, made, spare, leaves⟩
  rcases leaves.sound.search nonZero with
    ⟨index, probed, found, ⟨here, known⟩ | ⟨isVacant, unknown⟩⟩
  · have taken : room.addresses[index]? ≠ some 0 := by
      rw [here]
      exact fun equal => nonZero (some.inj equal)
    refine ⟨room.writeEntry index classID, ?_, ?_, leaves.larger, leaves.tracked⟩
    · simp [VisitedObjectSet.markVisitedAndStore, made, probed, taken]
    · exact leaves.sound.writeEntry here nonZero
  · refine ⟨{ room with
      toBuckets := room.store index address classID, count := room.count + 1 }, ?_, ?_⟩
    · simp [VisitedObjectSet.markVisitedAndStore, made, probed, isVacant]
    · exact leaves.store spare found isVacant nonZero

theorem storeClassID :
    ∃ after, set.storeClassID address classID = some after ∧
      set.Leaves after (if (map address).isSome then map.insert address classID else map) := by
  rcases sound.search nonZero with ⟨index, probed, found, ⟨here, known⟩ | ⟨isVacant, unknown⟩⟩
  · refine ⟨set.writeEntry index classID, ?_, ?_, Nat.le_refl _, fun _ tracked => tracked⟩
    · simp [VisitedObjectSet.storeClassID, probed, here]
    · rw [known, isSome_some, if_pos rfl]
      exact sound.writeEntry here nonZero
  · have vacantNe : (0 : Nat) ≠ address := Ne.symm nonZero
    refine ⟨set, ?_, ?_, Nat.le_refl _, fun _ tracked => tracked⟩
    · simp [VisitedObjectSet.storeClassID, probed, isVacant, vacantNe]
    · simpa [unknown] using sound

theorem getClassID : set.getClassID address = some (map address) := by
  have vacantNe : (0 : Nat) ≠ address := Ne.symm nonZero
  rcases sound.search nonZero with ⟨index, probed, _, ⟨here, known⟩ | ⟨isVacant, unknown⟩⟩
  · simp [VisitedObjectSet.getClassID, probed, here, known]
  · simp [VisitedObjectSet.getClassID, probed, isVacant, unknown, vacantNe]

theorem isVisited : set.isVisited address = some (map address).isSome := by
  have vacantNe : (0 : Nat) ≠ address := Ne.symm nonZero
  rcases sound.search nonZero with ⟨index, probed, _, ⟨here, known⟩ | ⟨isVacant, unknown⟩⟩
  · simp [VisitedObjectSet.isVisited, probed, here, known]
  · simp [VisitedObjectSet.isVisited, probed, isVacant, unknown, vacantNe]

end Sound

theorem getElem?_foldl_set (dirty : List Nat) (addresses : List Nat) :
    (dirty.foldl (fun addresses index => addresses.set index 0) addresses)[index]? =
      if index ∈ dirty then addresses[index]?.map (fun _ => 0) else addresses[index]? := by
  induction dirty generalizing addresses with
  | nil => simp
  | cons first rest ih =>
    rw [foldl_cons, ih (addresses.set first 0)]
    rcases Nat.decEq first index with apart | same
    · simp [getElem?_set_ne apart, Ne.symm apart]
    · subst same
      rw [getElem?_set_self', if_pos mem_cons_self]
      cases addresses[first]? with
      | none => exact ite_self _
      | some address => exact ite_self _

theorem length_foldl_set (dirty : List Nat) (addresses : List Nat) :
    (dirty.foldl (fun addresses index => addresses.set index 0) addresses).length =
      addresses.length := by
  induction dirty generalizing addresses with
  | nil => rfl
  | cons first rest ih => rw [foldl_cons, ih, length_set]

theorem clear_addresses (tracked : set.Tracked) :
    set.clear.addresses = replicate set.addresses.length 0 := by
  simp only [clear]
  split
  case isTrue => rfl
  case isFalse =>
    rw [eq_replicate_iff]
    refine ⟨length_foldl_set _ _, ?_⟩
    intro address mem
    rcases getElem?_of_mem mem with ⟨index, here⟩
    rw [getElem?_foldl_set] at here
    split at here
    case isTrue =>
      rcases map_eq_some_iff.mp here with ⟨_, _, zero⟩
      exact zero.symm
    case isFalse unlisted =>
      by_contra nonZero
      exact unlisted ((tracked.2 index).mpr ⟨address, here, nonZero⟩)

theorem clear_toBuckets
    (wiped : set.clear.addresses = replicate set.addresses.length 0) :
    set.clear.toBuckets = vacant set.capacity set.entries := by
  simp only [clear] at wiped ⊢
  simp only [wiped, vacant, capacity]

theorem capacity_clear (set : VisitedObjectSet) : set.clear.capacity = set.capacity := by
  simp only [capacity, clear]
  split
  · exact length_replicate
  · exact length_foldl_set _ _

theorem Sound.wiped (sound : set.Sound map)
    (wiped : set.clear.addresses = replicate set.addresses.length 0) :
    set.Leaves set.clear VisitedMap.empty := by
  rcases sound.valid.powerOfTwo with ⟨exponent, power⟩
  have buckets := clear_toBuckets wiped
  have sameCapacity := capacity_clear set
  have large : 512 ≤ set.capacity := sound.large
  refine ⟨⟨?_, ?_, ?_, ?_, ?_, ?_⟩, ?_, ?_⟩
  · rw [buckets]
    exact vacant_valid power sound.valid.sameLength
  · rw [sameCapacity]
    exact sound.large
  · rw [sameCapacity]
    exact sound.mask
  · rw [buckets, occupied_vacant]
    rfl
  · rw [sameCapacity]
    exact Nat.lt_of_lt_of_le (by decide : 0 < 512) large
  · rw [buckets]
    exact vacant_represents
  · exact Nat.le_of_eq sameCapacity.symm
  · intro _ _
    rw [buckets]
    exact vacant_tracked

theorem Sound.clear (sound : set.Sound map) (tracked : set.Tracked) :
    set.Leaves set.clear VisitedMap.empty :=
  sound.wiped (clear_addresses tracked)

/-!
### Sequences of operations
-/

theorem Sound.perform (sound : set.Sound map) {operation : Operation}
    (tracked : operation = .clear → set.Tracked) (nonZero : operation.NonZero) :
    ∃ after, set.perform operation = some ((map.perform operation).1, after) ∧
      set.Leaves after (map.perform operation).2 := by
  cases operation with
  | tryInsert address written =>
    rcases sound.tryInsert nonZero with ⟨index, after, inserted, read, here, leaves⟩
    refine ⟨(written.map (after.writeEntry index)).getD after, ?_, ?_⟩
    · simp only [VisitedObjectSet.perform, inserted, map_some, read, map.tryInsert_eq]
    · simp only [map.tryInsert_eq]
      cases written with
      | none => exact leaves
      | some classID => exact leaves.writeEntry here nonZero
  | markVisitedAndStore address classID =>
    rcases sound.markVisitedAndStore nonZero with ⟨after, marked, leaves⟩
    refine ⟨after, ?_, leaves⟩
    simp only [VisitedObjectSet.perform, marked, map_some, VisitedMap.perform]
  | storeClassID address classID =>
    rcases sound.storeClassID nonZero with ⟨after, stored, leaves⟩
    refine ⟨after, ?_, leaves⟩
    simp only [VisitedObjectSet.perform, stored, map_some, VisitedMap.perform]
  | getClassID address =>
    refine ⟨set, ?_, sound, Nat.le_refl _, fun _ tracked => tracked⟩
    simp only [VisitedObjectSet.perform, sound.getClassID nonZero, map_some, VisitedMap.perform]
  | isVisited address =>
    refine ⟨set, ?_, sound, Nat.le_refl _, fun _ tracked => tracked⟩
    simp only [VisitedObjectSet.perform, sound.isVisited nonZero, map_some, VisitedMap.perform]
  | clear => exact ⟨set.clear, rfl, sound.clear (tracked rfl)⟩

theorem doubled_power {initialCapacity fuel exponent : Nat} :
    ∃ larger, exponent ≤ larger ∧ doubled initialCapacity fuel (2 ^ exponent) = 2 ^ larger := by
  induction fuel generalizing exponent with
  | zero => exact ⟨exponent, Nat.le_refl _, rfl⟩
  | succ fuel ih =>
    simp only [doubled]
    split
    · rcases @ih (exponent + 1) with ⟨larger, more, result⟩
      exact ⟨larger, by omega, by rw [← Nat.pow_succ, result]⟩
    · exact ⟨exponent, Nat.le_refl _, rfl⟩

theorem le_doubled {initialCapacity fuel capacity : Nat}
    (enough : initialCapacity ≤ capacity * 2 ^ fuel) :
    initialCapacity ≤ doubled initialCapacity fuel capacity := by
  induction fuel generalizing capacity with
  | zero => simpa [doubled] using enough
  | succ fuel ih =>
    simp only [doubled]
    split
    · apply ih
      rwa [Nat.pow_succ, Nat.mul_comm (2 ^ fuel) 2, ← Nat.mul_assoc] at enough
    · omega

theorem le_capacity_create (initialCapacity : Nat) :
    initialCapacity ≤ (create initialCapacity).capacity := by
  have enough : initialCapacity ≤ defaultCapacity * 2 ^ initialCapacity := by
    have := @Nat.lt_two_pow_self initialCapacity
    simp only [defaultCapacity]
    omega
  simpa [create, capacity, empty] using le_doubled enough

theorem sound_create (initialCapacity : Nat) : (create initialCapacity).Sound VisitedMap.empty := by
  rcases @doubled_power initialCapacity initialCapacity 9 with ⟨larger, more, result⟩
  have power : (create initialCapacity).capacity = 2 ^ larger :=
    length_replicate.trans result
  have large : 512 ≤ (create initialCapacity).capacity := by
    rw [power]
    exact Nat.pow_le_pow_right (show 0 < 2 by decide) more
  refine ⟨vacant_valid result length_replicate, large, ?_, ?_, ?_, ?_⟩
  · rw [power]
    exact congrArg (· - 1) result
  · exact occupied_vacant.symm
  · exact Nat.lt_of_lt_of_le (by decide : 0 < 512) large
  · exact vacant_represents

theorem Sound.execute (sound : set.Sound map) (tracked : set.Tracked)
    {operations : List Operation} (nonZero : ∀ operation ∈ operations, operation.NonZero)
    (bounded : ∀ before after outcomes reached, operations = before ++ after →
      set.execute before = some (outcomes, reached) → reached.capacity ≤ 2 ^ 32) :
    ∃ last, set.execute operations = some ((map.execute operations).1, last) ∧ last.Tracked ∧
      set.Leaves last (map.execute operations).2 := by
  induction operations generalizing set map with
  | nil => exact ⟨set, rfl, tracked, sound, Nat.le_refl _, fun _ tracked => tracked⟩
  | cons operation rest ih =>
    rcases sound.perform (fun _ => tracked) (nonZero operation mem_cons_self) with
      ⟨after, performed, leaves⟩
    have small : after.capacity ≤ 2 ^ 32 := by
      apply bounded [operation] rest [(map.perform operation).1] after rfl
      simp [execute, performed]
    have restBounded : ∀ before behind outcomes reached, rest = before ++ behind →
        after.execute before = some (outcomes, reached) → reached.capacity ≤ 2 ^ 32 := by
      intro before behind outcomes reached split run
      apply bounded (operation :: before) behind ((map.perform operation).1 :: outcomes) reached
      · rw [split, cons_append]
      · simp [execute, performed, run]
    rcases ih leaves.sound (leaves.tracked small tracked)
      (fun next mem => nonZero next (mem_cons_of_mem _ mem)) restBounded with
      ⟨last, run, lastTracked, rest⟩
    refine ⟨last, ?_, lastTracked, rest.sound, Nat.le_trans leaves.larger rest.larger,
      fun _ _ => lastTracked⟩
    simp [execute, performed, run, VisitedMap.execute]

/-- The set of visited objects is a map from addresses to classes. -/
theorem visited_set_refines_map (initialCapacity : Nat) (operations : List Operation)
    (nonZero : ∀ operation ∈ operations, operation.NonZero)
    (bounded : ∀ before after outcomes reached, operations = before ++ after →
      (create initialCapacity).execute before = some (outcomes, reached) →
        reached.capacity ≤ 2 ^ 32) :
    ∃ last,
      (create initialCapacity).execute operations =
        some ((VisitedMap.empty.execute operations).1, last) ∧
      last.Represents (VisitedMap.empty.execute operations).2 ∧
      initialCapacity ≤ last.capacity ∧
      (∃ exponent, last.capacity = 2 ^ exponent) ∧
      (∃ index : Nat, last.addresses[index]? = some 0) ∧
      last.dirtyIndices.Nodup ∧
      (∀ index, index ∈ last.dirtyIndices ↔
        ∃ address, last.addresses[index]? = some address ∧ address ≠ 0) ∧
      ∃ grown, last.grow = some grown ∧
        grown.Represents (VisitedMap.empty.execute operations).2 := by
  rcases (sound_create initialCapacity).execute vacant_tracked nonZero bounded with
    ⟨last, run, tracked, leaves⟩
  rcases leaves.sound.grow with ⟨grown, result, grownSound, _⟩
  have spare : last.addresses.countP (· != 0) < last.addresses.length := by
    have := leaves.sound.spare
    rwa [leaves.sound.count] at this
  exact ⟨last, run, leaves.sound.represents,
    Nat.le_trans (le_capacity_create initialCapacity) leaves.larger,
    leaves.sound.valid.powerOfTwo, LinearProbing.exists_vacant spare, tracked.1, tracked.2,
    grown, result, grownSound.represents⟩

def collidingOperations : List Operation :=
  [.markVisitedAndStore 0x10008 7, .tryInsert 0x11008 (some 9), .tryInsert 0x10008 none,
    .getClassID 0x11008, .clear, .isVisited 0x11008]

theorem colliding_operations_refine_map :
    ∃ last,
      (create 0).execute collidingOperations =
        some ((VisitedMap.empty.execute collidingOperations).1, last) ∧
      (VisitedMap.empty.execute collidingOperations).1 =
        [.done, .insertion .inserted 0, .insertion .alreadyPresent 7, .class (some 9), .done,
          .visited false] := by
  have nonZero : ∀ operation ∈ collidingOperations, operation.NonZero := by decide
  have bounded : ∀ before after outcomes reached, collidingOperations = before ++ after →
      (create 0).execute before = some (outcomes, reached) → reached.capacity ≤ 2 ^ 32 := by
    intro before after outcomes reached split run
    have checked : ∀ before ∈ collidingOperations.inits, ((create 0).execute before).all
        (fun result => decide (result.2.capacity ≤ 2 ^ 32)) = true := by decide +kernel
    have small := checked before ((mem_inits _ _).mpr ⟨after, split.symm⟩)
    rw [run] at small
    simpa using small
  rcases visited_set_refines_map 0 collidingOperations nonZero bounded with ⟨last, run, _⟩
  exact ⟨last, run, by decide⟩

end VisitedObjectSet

end Pyroscope.HeapSnapshot
