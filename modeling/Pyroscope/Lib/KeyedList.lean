import Mathlib.Algebra.GroupWithZero.Nat
import Mathlib.Data.List.Nodup

/-!
# Lists of keyed items

A map which is kept as the list of its items, of which the first one with a key counts.
-/

universe u v

namespace Pyroscope.KeyedList

open List Option

variable {Item : Type u} {Key : Type v} [DecidableEq Key] {key : Item → Key} {wanted other : Key}
  {item created : Item} {items : List Item} {change second : Item → Item}

def find (key : Item → Key) (wanted : Key) (items : List Item) : Option Item :=
  items.find? (key · == wanted)

def modify (key : Item → Key) (wanted : Key) (change : Item → Item) : List Item → List Item
  | [] => []
  | item :: rest =>
    if key item = wanted then change item :: rest else item :: modify key wanted change rest

def ensure (key : Item → Key) (created : Item) (items : List Item) : List Item :=
  if (find key (key created) items).isSome then items else items ++ [created]

theorem find_cons_of_eq (same : key item = wanted) :
    find key wanted (item :: items) = some item := by
  simp [find, same]

theorem find_cons_of_ne (different : key item ≠ wanted) :
    find key wanted (item :: items) = find key wanted items := by
  simp [find, different]

theorem key_of_find (found : find key wanted items = some item) : key item = wanted := by
  simpa using find?_some found

theorem find_modify (kept : ∀ item, key item = wanted → key (change item) = wanted) :
    find key other (modify key wanted change items) =
      if other = wanted then (find key other items).map change else find key other items := by
  induction items with
  | nil => simp [find, modify]
  | cons item rest ih =>
    simp only [modify]
    split
    case isTrue here =>
      by_cases same : other = wanted
      · subst same
        rw [if_pos rfl, find_cons_of_eq here, find_cons_of_eq (kept item here), map_some]
      · have before : key item ≠ other := fun equal => same (equal.symm.trans here)
        have after : key (change item) ≠ other := by
          rw [kept item here]
          exact Ne.symm same
        rw [if_neg same, find_cons_of_ne before, find_cons_of_ne after]
    case isFalse elsewhere =>
      by_cases here : key item = other
      · have different : other ≠ wanted := fun equal => elsewhere (here.trans equal)
        rw [if_neg different, find_cons_of_eq here, find_cons_of_eq here]
      · rw [find_cons_of_ne here, find_cons_of_ne here, ih]

theorem modify_modify (kept : ∀ item, key item = wanted → key (change item) = wanted) :
    modify key wanted second (modify key wanted change items) =
      modify key wanted (second ∘ change) items := by
  induction items with
  | nil => rfl
  | cons item rest ih =>
    simp only [modify]
    split
    case isTrue here => simp [modify, kept item here]
    case isFalse elsewhere => simp [modify, elsewhere, ih]

theorem find_ensure :
    find key other (ensure key created items) =
      if other = key created then some ((find key other items).getD created)
      else find key other items := by
  simp only [ensure]
  split
  case isTrue present =>
    rcases isSome_iff_exists.mp present with ⟨item, found⟩
    split
    case isTrue same => rw [same, found, getD_some]
    case isFalse => rfl
  case isFalse absent =>
    have nowhere : find key (key created) items = none := by simpa using absent
    rw [find, find?_append]
    split
    case isTrue same =>
      subst same
      rw [← find, nowhere]
      simp
    case isFalse different =>
      have missed : (key created == other) = false := beq_eq_false_iff_ne.mpr (Ne.symm different)
      simp [missed, find]

theorem map_key_modify (kept : ∀ item, key item = wanted → key (change item) = wanted) :
    (modify key wanted change items).map key = items.map key := by
  induction items with
  | nil => rfl
  | cons item rest ih =>
    simp only [modify]
    split
    case isTrue here => rw [map_cons, map_cons, kept item here, here]
    case isFalse => rw [map_cons, map_cons, ih]

theorem find_append_singleton (absent : find key (key item) items = none) :
    find key wanted (items ++ [item]) =
      if wanted = key item then some item else find key wanted items := by
  rw [find, find?_append, ← find]
  split
  case isTrue same => simp [same, absent]
  case isFalse different =>
    have missed : (key item == wanted) = false := beq_eq_false_iff_ne.mpr (Ne.symm different)
    simp [missed]

theorem not_mem_of_find (absent : find key wanted items = none) : wanted ∉ items.map key := by
  intro mem
  rcases mem_map.mp mem with ⟨item, here, same⟩
  have other := find?_eq_none.mp absent item here
  simp [same] at other

theorem find_of_mem (distinct : (items.map key).Nodup) (mem : item ∈ items) :
    find key (key item) items = some item := by
  induction items with
  | nil => exact absurd mem not_mem_nil
  | cons first rest ih =>
    rw [map_cons, nodup_cons] at distinct
    rcases mem_cons.mp mem with rfl | inRest
    · exact find_cons_of_eq rfl
    · have different : key first ≠ key item := by
        intro same
        exact distinct.1 (mem_map.mpr ⟨item, inRest, same.symm⟩)
      rw [find_cons_of_ne different, ih distinct.2 inRest]

def total (key : Item → Key) (amount : Item → Nat) (wanted : Key) (items : List Item) : Nat :=
  ((items.filter (key · == wanted)).map amount).sum

variable {amount : Item → Nat}

theorem total_append (more : List Item) :
    total key amount wanted (items ++ more) =
      total key amount wanted items + total key amount wanted more := by
  simp [total]

theorem total_singleton :
    total key amount wanted [item] = if key item = wanted then amount item else 0 := by
  by_cases here : key item = wanted <;> simp [total, here]

theorem total_eq_zero (absent : wanted ∉ items.map key) : total key amount wanted items = 0 := by
  have nothing : items.filter (key · == wanted) = [] := by
    rw [filter_eq_nil_iff]
    intro item mem here
    exact absent (mem_map.mpr ⟨item, mem, by simpa using here⟩)
  rw [total, nothing, map_nil, sum_nil]

theorem total_eq_find (distinct : (items.map key).Nodup) :
    total key amount wanted items = ((find key wanted items).map amount).getD 0 := by
  induction items with
  | nil => rfl
  | cons item rest ih =>
    rw [map_cons, nodup_cons] at distinct
    rw [← singleton_append, total_append, total_singleton, singleton_append]
    by_cases here : key item = wanted
    · subst here
      rw [if_pos rfl, total_eq_zero distinct.1, find_cons_of_eq rfl]
      rfl
    · rw [if_neg here, Nat.zero_add, find_cons_of_ne here, ih distinct.2]

end Pyroscope.KeyedList
