import Mathlib.Data.List.Basic

/-!
# Tables sorted by a key

An entry is inserted behind all entries whose keys are not greater. A lookup finds the last one
whose key is not greater.
-/

namespace Pyroscope.SortedTable

open List

universe u

variable {Entry : Type u} (key : Entry → Nat)

def insertAfter (entry : Entry) : List Entry → List Entry
  | [] => [entry]
  | other :: rest =>
    if key entry < key other then entry :: other :: rest
    else other :: insertAfter entry rest

def lastUpTo (value : Nat) (table : List Entry) : Option Entry :=
  (table.takeWhile fun entry => key entry ≤ value).getLast?

def Sorted (table : List Entry) : Prop :=
  table.Pairwise fun first second => key first ≤ key second

variable {key} {entry other : Entry} {table : List Entry} {value : Nat}

@[simp]
theorem mem_insertAfter : other ∈ insertAfter key entry table ↔ other = entry ∨ other ∈ table := by
  induction table with
  | nil => simp [insertAfter]
  | cons head rest ih =>
    simp only [insertAfter]
    split
    · simp
    · simp only [mem_cons, ih]
      exact or_left_comm

theorem pairwise_insertAfter {relation : Entry → Entry → Prop} (sorted : Sorted key table)
    (ordered : table.Pairwise relation)
    (later : ∀ other ∈ table, key entry < key other → relation entry other)
    (earlier : ∀ other ∈ table, key other ≤ key entry → relation other entry) :
    (insertAfter key entry table).Pairwise relation := by
  induction table with
  | nil => exact pairwise_singleton _ _
  | cons head rest ih =>
    rcases pairwise_cons.mp sorted with ⟨headFirst, restSorted⟩
    rcases pairwise_cons.mp ordered with ⟨headOrdered, restOrdered⟩
    simp only [insertAfter]
    split
    case isTrue before =>
      apply pairwise_cons.mpr
      refine ⟨?_, ordered⟩
      intro other isOther
      apply later other isOther
      rcases mem_cons.mp isOther with rfl | inRest
      · exact before
      · exact Nat.lt_of_lt_of_le before (headFirst other inRest)
    case isFalse notBefore =>
      rcases forall_mem_cons.mp later with ⟨-, later⟩
      rcases forall_mem_cons.mp earlier with ⟨first, earlier⟩
      apply pairwise_cons.mpr
      refine ⟨?_, ih restSorted restOrdered later earlier⟩
      intro other isOther
      rcases mem_insertAfter.mp isOther with rfl | inRest
      · exact first (Nat.le_of_not_lt notBefore)
      · exact headOrdered other inRest

theorem Sorted.insertAfter (sorted : Sorted key table) : Sorted key (insertAfter key entry table) :=
  pairwise_insertAfter sorted sorted (fun _ _ => Nat.le_of_lt) (fun _ _ => id)

theorem takeWhile_congr {first second : Entry → Bool}
    (same : ∀ entry ∈ table, first entry = second entry) :
    table.takeWhile first = table.takeWhile second := by
  induction table with
  | nil => rfl
  | cons head rest ih =>
    have restSame := ih fun entry inRest => same entry (mem_cons_of_mem _ inRest)
    simp only [takeWhile_cons, same head (mem_cons_self ..), restSame]

theorem mem_of_lastUpTo (found : lastUpTo key value table = some entry) :
    entry ∈ table ∧ key entry ≤ value := by
  have taken := mem_of_getLast? found
  refine ⟨(takeWhile_sublist _).mem taken, ?_⟩
  simpa using all_eq_true.mp all_takeWhile entry taken

theorem lastUpTo_congr {smaller : Nat} (notGreater : smaller ≤ value)
    (between : ∀ other ∈ table, ¬(smaller < key other ∧ key other ≤ value)) :
    lastUpTo key value table = lastUpTo key smaller table := by
  have sameTest : ∀ other ∈ table, decide (key other ≤ value) = decide (key other ≤ smaller) := by
    intro other inTable
    have apart := between other inTable
    exact decide_eq_decide.mpr ⟨by omega, by omega⟩
  simp only [lastUpTo, takeWhile_congr sameTest]

theorem lastUpTo_cons_of_lt (later : value < key other) :
    lastUpTo key value (other :: table) = none := by
  simp [lastUpTo, Nat.not_le.mpr later]

theorem lastUpTo_cons_of_le (notLater : key other ≤ value) :
    lastUpTo key value (other :: table) = some ((lastUpTo key value table).getD other) := by
  simp [lastUpTo, notLater, List.getLast?_cons]

theorem exists_lastUpTo {relation : Entry → Entry → Prop} (sorted : Sorted key table)
    (ordered : table.Pairwise relation) (isOther : other ∈ table) (upTo : key other ≤ value) :
    ∃ entry, lastUpTo key value table = some entry ∧ (other = entry ∨ relation other entry) := by
  induction table with
  | nil => cases isOther
  | cons head rest ih =>
    rcases pairwise_cons.mp sorted with ⟨headFirst, restSorted⟩
    rcases pairwise_cons.mp ordered with ⟨headOrdered, restOrdered⟩
    rcases mem_cons.mp isOther with rfl | inRest
    · rw [lastUpTo_cons_of_le upTo]
      cases found : lastUpTo key value rest with
      | none => exact ⟨other, rfl, .inl rfl⟩
      | some entry => exact ⟨entry, rfl, .inr (headOrdered entry (mem_of_lastUpTo found).1)⟩
    · rcases ih restSorted restOrdered inRest with ⟨entry, found, behind⟩
      rw [lastUpTo_cons_of_le (Nat.le_trans (headFirst other inRest) upTo), found]
      exact ⟨entry, rfl, behind⟩

/-- The new entry is found if no other one has its key between the new key and the value. -/
theorem lastUpTo_insertAfter (upTo : key entry ≤ value)
    (between : ∀ other ∈ table, ¬(key entry < key other ∧ key other ≤ value)) :
    lastUpTo key value (insertAfter key entry table) = some entry := by
  induction table with
  | nil => exact lastUpTo_cons_of_le upTo
  | cons head rest ih =>
    simp only [insertAfter]
    split
    case isTrue before =>
      have later : value < key head := by
        have := between head (mem_cons_self ..)
        omega
      rw [lastUpTo_cons_of_le upTo, lastUpTo_cons_of_lt later]
      rfl
    case isFalse notBefore =>
      have found := ih fun other inRest => between other (mem_cons_of_mem _ inRest)
      rw [lastUpTo_cons_of_le (by omega), found]
      rfl

/-- Otherwise, and for smaller values, the entry found is the same as before. -/
theorem lastUpTo_insertAfter_of_hidden (sorted : Sorted key table)
    (hidden : value < key entry ∨ ∃ other ∈ table, key entry < key other ∧ key other ≤ value) :
    lastUpTo key value (insertAfter key entry table) = lastUpTo key value table := by
  induction table with
  | nil =>
    rcases hidden with later | ⟨other, inTable, _⟩
    · exact lastUpTo_cons_of_lt later
    · cases inTable
  | cons head rest ih =>
    rcases pairwise_cons.mp sorted with ⟨headFirst, restSorted⟩
    simp only [insertAfter]
    split
    case isTrue before =>
      rcases hidden with later | ⟨other, inTable, greater, upTo⟩
      · rw [lastUpTo_cons_of_lt later, lastUpTo_cons_of_lt (by omega)]
      · have headUpTo : key head ≤ value := by
          rcases mem_cons.mp inTable with rfl | inRest
          · exact upTo
          · exact Nat.le_trans (headFirst other inRest) upTo
        rw [lastUpTo_cons_of_le (by omega), lastUpTo_cons_of_le headUpTo]
        rfl
    case isFalse notBefore =>
      have hiddenInRest :
          value < key entry ∨ ∃ other ∈ rest, key entry < key other ∧ key other ≤ value := by
        rcases hidden with later | ⟨other, inTable, greater, upTo⟩
        · exact .inl later
        · rcases mem_cons.mp inTable with rfl | inRest
          · exact absurd greater notBefore
          · exact .inr ⟨other, inRest, greater, upTo⟩
      by_cases headUpTo : key head ≤ value
      · rw [lastUpTo_cons_of_le headUpTo, lastUpTo_cons_of_le headUpTo,
          ih restSorted hiddenInRest]
      · rw [lastUpTo_cons_of_lt (by omega), lastUpTo_cons_of_lt (by omega)]

end Pyroscope.SortedTable
