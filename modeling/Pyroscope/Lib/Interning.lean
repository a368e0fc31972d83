import Pyroscope.Lib.Dictionary

/-!
# Interning

The entries of a table are numbered from `first` on, in the order in which they were added.
-/

universe u

namespace Pyroscope.Interning

open List

variable {Key : Type u}

section Numbers

variable [DecidableEq Key] {first : Nat} {numbers : Dictionary Key Nat} {table : List Key}

/-- The dictionary gives exactly the numbers of the entries of the table. -/
def Numbers (first : Nat) (numbers : Dictionary Key Nat) (table : List Key) : Prop :=
  ∀ key number, numbers.get key = some number ↔
    ∃ position, number = first + position ∧ table[position]? = some key

theorem numbers_empty : Numbers first (.empty : Dictionary Key Nat) [] := by
  intro key number
  simp [Dictionary.empty, Dictionary.get]

namespace Numbers

variable (numbered : Numbers first numbers table) {key : Key}
include numbered

theorem number_of_getElem? {position : Nat} (entry : table[position]? = some key) :
    numbers.get key = some (first + position) :=
  (numbered key _).mpr ⟨position, rfl, entry⟩

theorem not_mem_of_get_eq_none (unknown : numbers.get key = none) : key ∉ table := by
  intro isEntry
  rcases mem_iff_getElem?.mp isEntry with ⟨position, entry⟩
  rw [numbered.number_of_getElem? entry] at unknown
  cases unknown

theorem position_unique {i j : Nat} (atI : table[i]? = some key) (atJ : table[j]? = some key) :
    i = j := by
  have numberI := numbered.number_of_getElem? atI
  have numberJ := numbered.number_of_getElem? atJ
  rw [numberI, Option.some.injEq] at numberJ
  omega

theorem nodup : table.Nodup := by
  rw [nodup_iff_getElem?_ne_getElem?]
  intro i j before inside same
  have atJ : table[j]? = some table[j] := getElem?_eq_getElem inside
  have equal := numbered.position_unique (same.trans atJ) atJ
  omega

theorem add (unknown : numbers.get key = none) :
    Numbers first (numbers.set key (first + table.length)) (table ++ [key]) := by
  have isNew := numbered.not_mem_of_get_eq_none unknown
  intro other number
  rw [Dictionary.get_set]
  split
  case isTrue same =>
    subst same
    constructor
    · intro given
      cases given
      exact ⟨table.length, rfl, getElem?_concat_length⟩
    · rintro ⟨position, rfl, entry⟩
      have atEnd : position = table.length := by
        rcases Nat.lt_trichotomy position table.length with inside | same | outside
        · rw [getElem?_append_left inside] at entry
          exact absurd (mem_of_getElem? entry) isNew
        · exact same
        · rw [getElem?_eq_none (by simp; omega)] at entry
          cases entry
      rw [atEnd]
  case isFalse different =>
    rw [numbered other number]
    constructor
    · rintro ⟨position, rfl, entry⟩
      have inside : position < table.length := (List.getElem?_eq_some_iff.mp entry).1
      exact ⟨position, rfl, (getElem?_append_left inside).trans entry⟩
    · rintro ⟨position, rfl, entry⟩
      refine ⟨position, rfl, ?_⟩
      rcases Nat.lt_or_ge position table.length with inside | behind
      · rwa [getElem?_append_left inside] at entry
      · rw [getElem?_append_right behind] at entry
        have last := mem_of_getElem? entry
        rw [mem_singleton] at last
        exact absurd last different

end Numbers

end Numbers

end Pyroscope.Interning
