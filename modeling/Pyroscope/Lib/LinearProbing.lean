import Mathlib.Data.List.Nodup

/-!
# Linear probing

The table is chained when the buckets between the home of a key and the key are all taken by other
keys.
-/

universe u v

namespace Pyroscope.LinearProbing

open List Option

section Seeking

variable {accepted : Nat → Bool} {fuel size start index : Nat}

def seek (accepted : Nat → Bool) (next : Nat → Nat) : Nat → Nat → Option Nat
  | 0, _ => none
  | fuel + 1, index =>
    if accepted index then some index else seek accepted next fuel (next index)

def around (size index : Nat) : Nat := (index + 1) % size

theorem around_mod : around size (start % size) = (start + 1) % size := by
  simp only [around, Nat.mod_add_mod]

theorem seek_congr {other : Nat → Bool} {next : Nat → Nat}
    (same : ∀ index, accepted index = other index) :
    seek accepted next fuel index = seek other next fuel index := by
  have equal : accepted = other := funext same
  rw [equal]

theorem seek_around_spec
    (found : seek accepted (around size) fuel (start % size) = some index) :
    ∃ steps, index = (start + steps) % size ∧ accepted index = true ∧
      ∀ earlier < steps, accepted ((start + earlier) % size) = false := by
  induction fuel generalizing start with
  | zero => simp [seek] at found
  | succ fuel ih =>
    simp only [seek] at found
    split at found
    case isTrue here =>
      cases found
      exact ⟨0, rfl, here, fun earlier before => absurd before (Nat.not_lt_zero earlier)⟩
    case isFalse elsewhere =>
      rw [around_mod] at found
      rcases ih found with ⟨steps, reached, taken, before⟩
      refine ⟨steps + 1, ?_, taken, ?_⟩
      · rw [reached, Nat.add_right_comm, Nat.add_assoc]
      · intro earlier bound
        cases earlier with
        | zero => simpa using elsewhere
        | succ earlier =>
          have passed := before earlier (by omega)
          rwa [Nat.add_right_comm, Nat.add_assoc] at passed

theorem seek_around_isSome {steps : Nat} (within : steps < fuel)
    (here : accepted ((start + steps) % size) = true) :
    ∃ index, seek accepted (around size) fuel (start % size) = some index := by
  induction fuel generalizing start steps with
  | zero => omega
  | succ fuel ih =>
    simp only [seek]
    split
    case isTrue => exact ⟨_, rfl⟩
    case isFalse elsewhere =>
      rw [around_mod]
      cases steps with
      | zero => exact absurd here elsewhere
      | succ steps =>
        have behind : accepted ((start + 1 + steps) % size) = true := by
          rwa [Nat.add_right_comm, Nat.add_assoc]
        exact ih (by omega) behind

theorem exists_steps (start : Nat) (bound : index < size) :
    ∃ steps < size, index = (start + steps) % size := by
  have smaller : start % size < size := Nat.mod_lt _ (by omega)
  rcases Nat.lt_or_ge index (start % size) with before | behind
  · refine ⟨index + size - start % size, by omega, ?_⟩
    rw [← Nat.mod_add_mod,
      show start % size + (index + size - start % size) = index + size by omega,
      Nat.add_mod_right, Nat.mod_eq_of_lt bound]
  · refine ⟨index - start % size, by omega, ?_⟩
    rw [← Nat.mod_add_mod, Nat.add_sub_cancel' behind, Nat.mod_eq_of_lt bound]

end Seeking

section Table

variable {Key : Type u} {vacant : Key} {home : Key → Nat} {keys : List Key} {key other : Key}
  {index : Nat}

/-- No vacant cell lies between a key and its home. -/
def Chained (vacant : Key) (home : Key → Nat) (keys : List Key) : Prop :=
  ∀ index key, keys[index]? = some key → key ≠ vacant →
    ∃ steps, index = (home key + steps) % keys.length ∧
      ∀ earlier < steps, ∃ other, keys[(home key + earlier) % keys.length]? = some other ∧
        other ≠ vacant ∧ other ≠ key

theorem Chained.injective (chained : Chained vacant home keys) {second : Nat}
    (here : keys[index]? = some key) (there : keys[second]? = some key) (taken : key ≠ vacant) :
    index = second := by
  rcases chained index key here taken with ⟨steps, reached, before⟩
  rcases chained second key there taken with ⟨probes, arrived, passed⟩
  rcases Nat.lt_trichotomy probes steps with earlier | same | later
  · rcases before probes earlier with ⟨other, found, _, different⟩
    rw [← arrived, there] at found
    exact absurd (some.inj found).symm different
  · rw [reached, arrived, same]
  · rcases passed steps later with ⟨other, found, _, different⟩
    rw [← reached, here] at found
    exact absurd (some.inj found).symm different

variable [DecidableEq Key]

/-- The bucket which has the key, or the vacant one which the key would get. -/
def position (vacant : Key) (home : Key → Nat) (keys : List Key) (key : Key) : Option Nat :=
  seek (fun index => keys[index]? == some key || keys[index]? == some vacant)
    (around keys.length) keys.length (home key % keys.length)

theorem position_isSome {free : Nat} (isVacant : keys[free]? = some vacant) (key : Key) :
    ∃ index, position vacant home keys key = some index := by
  have bound : free < keys.length := (List.getElem?_eq_some_iff.mp isVacant).1
  rcases exists_steps (home key) bound with ⟨steps, within, reached⟩
  apply seek_around_isSome within
  simp [← reached, isVacant]

theorem position_spec (found : position vacant home keys key = some index) :
    ∃ steps, index = (home key + steps) % keys.length ∧
      (keys[index]? = some key ∨ keys[index]? = some vacant) ∧
      ∀ earlier < steps, keys[(home key + earlier) % keys.length]? ≠ some key ∧
        keys[(home key + earlier) % keys.length]? ≠ some vacant := by
  rcases seek_around_spec found with ⟨steps, reached, taken, before⟩
  refine ⟨steps, reached, by simpa using taken, ?_⟩
  intro earlier bound
  simpa using before earlier bound

theorem position_lt (found : position vacant home keys key = some index) : index < keys.length := by
  rcases position_spec found with ⟨_, _, here | here, _⟩
  · exact (List.getElem?_eq_some_iff.mp here).1
  · exact (List.getElem?_eq_some_iff.mp here).1

namespace Chained

theorem position_eq (chained : Chained vacant home keys) (here : keys[index]? = some key)
    (taken : key ≠ vacant) {found : Nat} (sought : position vacant home keys key = some found) :
    found = index := by
  rcases chained index key here taken with ⟨steps, reached, before⟩
  rcases position_spec sought with ⟨probes, arrived, accepted, passed⟩
  rcases Nat.lt_trichotomy probes steps with earlier | same | later
  · rcases before probes earlier with ⟨other, there, busy, different⟩
    rw [arrived, there] at accepted
    simp [busy, different] at accepted
  · rw [arrived, reached, same]
  · have missed := (passed steps later).1
    rw [← reached] at missed
    exact absurd here missed

theorem not_mem_of_position (chained : Chained vacant home keys) (taken : key ≠ vacant)
    (found : position vacant home keys key = some index)
    (isVacant : keys[index]? = some vacant) : key ∉ keys := by
  intro member
  rcases getElem?_of_mem member with ⟨place, here⟩
  have same := chained.position_eq here taken found
  rw [same, here] at isVacant
  exact taken (some.inj isVacant)

theorem set (chained : Chained vacant home keys)
    (found : position vacant home keys key = some index) :
    Chained vacant home (keys.set index key) := by
  rcases position_spec found with ⟨probes, arrived, accepted, passed⟩
  have bound : index < keys.length := position_lt found
  intro place other here busy
  rw [length_set]
  rw [getElem?_set] at here
  split at here
  case isTrue same =>
    -- The key itself: every bucket which the search passed is taken by another key.
    have equal : key = other := some.inj here
    subst equal same
    refine ⟨probes, arrived, ?_⟩
    intro earlier before
    have filled : (home key + earlier) % keys.length < keys.length := Nat.mod_lt _ (by omega)
    have missed := passed earlier before
    refine ⟨keys[(home key + earlier) % keys.length], ?_, ?_, ?_⟩
    · rw [getElem?_set, if_neg, getElem?_eq_getElem filled]
      intro same
      rw [← same] at missed
      rcases accepted with here | here
      · exact missed.1 here
      · exact missed.2 here
    · intro isVacant
      exact missed.2 (by rw [getElem?_eq_getElem filled, isVacant])
    · intro isKey
      exact missed.1 (by rw [getElem?_eq_getElem filled, isKey])
  case isFalse =>
    rcases chained place other here busy with ⟨steps, reached, before⟩
    refine ⟨steps, reached, ?_⟩
    intro earlier bound
    rcases before earlier bound with ⟨blocker, there, taken, different⟩
    rcases Nat.decEq index ((home other + earlier) % keys.length) with apart | same
    · refine ⟨blocker, ?_, taken, different⟩
      rw [getElem?_set, if_neg apart, there]
    · -- The bucket was not vacant, so it had the key already.
      rw [same, there] at accepted
      have isKey : blocker = key := by simpa [taken] using accepted
      refine ⟨key, ?_, isKey ▸ taken, isKey ▸ different⟩
      rw [same, getElem?_set_self (same ▸ position_lt found)]

end Chained

theorem exists_vacant (spare : keys.countP (· != vacant) < keys.length) :
    ∃ free : Nat, keys[free]? = some vacant := by
  have member : vacant ∈ keys := by
    by_contra absent
    refine Nat.ne_of_lt spare (countP_eq_length.mpr ?_)
    intro key mem
    simp only [bne_iff_ne]
    intro same
    exact absent (same ▸ mem)
  exact List.getElem?_of_mem member

theorem countP_set (here : keys[index]? = some vacant) (taken : key ≠ vacant) :
    (keys.set index key).countP (· != vacant) = keys.countP (· != vacant) + 1 := by
  rcases List.getElem?_eq_some_iff.mp here with ⟨bound, isVacant⟩
  rw [List.countP_set bound]
  simp [isVacant, taken]

end Table

section Values

variable {Key : Type u} {Value : Type v} {vacant : Key} {home : Key → Nat} {keys : List Key}
  {values : List Value} {key other : Key} {value found : Value} {index : Nat}

def Holds (keys : List Key) (values : List Value) (key : Key) (value : Value) : Prop :=
  ∃ index : Nat, keys[index]? = some key ∧ values[index]? = some value

theorem Chained.holds_iff (chained : Chained vacant home keys) (taken : key ≠ vacant)
    (here : keys[index]? = some key) :
    Holds keys values key value ↔ values[index]? = some value := by
  constructor
  · rintro ⟨place, there, beside⟩
    rwa [chained.injective here there taken]
  · intro beside
    exact ⟨index, here, beside⟩

theorem Chained.holds_set_self [DecidableEq Key] (chained : Chained vacant home keys)
    (taken : key ≠ vacant) (position : position vacant home keys key = some index)
    (sameLength : values.length = keys.length) :
    Holds (keys.set index key) (values.set index value) key found ↔ found = value := by
  have bound := position_lt position
  have here : (keys.set index key)[index]? = some key := getElem?_set_self bound
  rw [(chained.set position).holds_iff taken here, getElem?_set_self (sameLength ▸ bound)]
  exact ⟨fun same => (some.inj same).symm, fun same => congrArg some same.symm⟩

theorem holds_set_of_ne (different : other ≠ key)
    (here : keys[index]? = some key ∨ keys[index]? = some vacant) (taken : other ≠ vacant) :
    Holds (keys.set index key) (values.set index value) other found ↔
      Holds keys values other found := by
  have elsewhere : ∀ place, keys[place]? = some other → index ≠ place := by
    intro place there same
    rw [same, there] at here
    simp [different, taken] at here
  constructor
  · rintro ⟨place, there, beside⟩
    have apart : index ≠ place := by
      intro same
      rw [same, getElem?_set_self'] at there
      rcases map_eq_some_iff.mp there with ⟨_, _, equal⟩
      exact different equal.symm
    rw [getElem?_set_ne apart] at there beside
    exact ⟨place, there, beside⟩
  · rintro ⟨place, there, beside⟩
    refine ⟨place, ?_, ?_⟩
    · rw [getElem?_set_ne (elsewhere place there), there]
    · rw [getElem?_set_ne (elsewhere place there), beside]

end Values

end Pyroscope.LinearProbing
