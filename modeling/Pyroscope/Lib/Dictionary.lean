import Mathlib.Data.List.Nodup

/-!
# Dictionaries in insertion order

A dictionary keeps its items in the order in which their keys were added.
-/

namespace Pyroscope

open List Prod

universe u v

structure Dictionary (Key : Type u) (Value : Type v) where
  items : List (Key × Value)
  distinct : (items.map fst).Nodup

namespace Dictionary

variable {Key : Type u} {Value : Type v}

def empty : Dictionary Key Value := ⟨[], nodup_nil⟩

variable [DecidableEq Key] {key other : Key} {value : Value} {items : List (Key × Value)}

def assign (key : Key) (value : Value) : List (Key × Value) → List (Key × Value)
  | [] => [(key, value)]
  | item :: rest =>
    if item.1 = key then (key, value) :: rest else item :: assign key value rest

theorem mem_keys_assign :
    other ∈ (assign key value items).map fst ↔ other = key ∨ other ∈ items.map fst := by
  induction items with
  | nil => simp [assign]
  | cons item rest ih =>
    simp only [assign]
    split
    case isTrue same => simp [same]
    case isFalse =>
      simp only [map_cons, mem_cons, ih]
      tauto

theorem nodup_keys_assign (distinct : (items.map fst).Nodup) :
    ((assign key value items).map fst).Nodup := by
  induction items with
  | nil => simp [assign]
  | cons item rest ih =>
    simp only [map_cons, nodup_cons] at distinct
    simp only [assign]
    split
    case isTrue same =>
      simp only [map_cons, nodup_cons, ← same]
      exact distinct
    case isFalse different =>
      simp only [map_cons, nodup_cons]
      refine ⟨?_, ih distinct.2⟩
      intro again
      rcases mem_keys_assign.mp again with same | inRest
      · exact different same
      · exact distinct.1 inRest

variable (dictionary : Dictionary Key Value)

def set (key : Key) (value : Value) : Dictionary Key Value where
  items := assign key value dictionary.items
  distinct := nodup_keys_assign dictionary.distinct

def get (key : Key) : Option Value :=
  dictionary.items.lookup key

theorem lookup_cons_eq_ite {item : Key × Value} :
    (item :: items).lookup other = if other = item.1 then some item.2 else items.lookup other := by
  by_cases same : other = item.1
  · rw [if_pos same, same]
    exact lookup_cons_self
  · have skipped : (other == item.1) = false := beq_false_of_ne same
    rw [if_neg same]
    rw [lookup_cons, skipped]

theorem lookup_assign :
    (assign key value items).lookup other =
      if other = key then some value else items.lookup other := by
  induction items with
  | nil => exact lookup_cons_eq_ite
  | cons item rest ih =>
    simp only [assign]
    split
    case isTrue replaced =>
      by_cases same : other = key <;> simp [lookup_cons_eq_ite, same, replaced]
    case isFalse kept =>
      rw [lookup_cons_eq_ite, lookup_cons_eq_ite, ih]
      by_cases same : other = key
      · rw [if_neg (same ▸ Ne.symm kept), if_pos same, if_pos same]
      · rw [if_neg same, if_neg same]

theorem get_set :
    (dictionary.set key value).get other =
      if other = key then some value else dictionary.get other :=
  lookup_assign

theorem lookup_eq_none_of_distinct (distinct : (((key, value) :: items).map fst).Nodup) :
    items.lookup key = none := by
  simp only [map_cons, nodup_cons] at distinct
  rw [lookup_eq_none_iff]
  intro item isItem
  rw [bne_iff_ne]
  rintro rfl
  exact distinct.1 (mem_map_of_mem isItem)

end Dictionary

end Pyroscope
