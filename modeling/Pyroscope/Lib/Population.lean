import Mathlib.Algebra.BigOperators.Group.Finset.Piecewise
import Mathlib.Data.Fintype.Card

/-!
# How many threads are at places of a kind

One step moves one thread, so the number changes by what the thread leaves and what it reaches.
-/

namespace Pyroscope.Population

open Finset Function

universe u v

variable {Thread : Type u} {Place : Type v} [Fintype Thread]
variable {kind : Place → Bool} {places : Thread → Place} {thread : Thread}

def population (kind : Place → Bool) (places : Thread → Place) : Nat :=
  (Finset.univ.filter fun thread => kind (places thread) = true).card

theorem population_eq_add_sum [DecidableEq Thread] (thread : Thread) :
    population kind places = (kind (places thread)).toNat +
      ∑ other ∈ Finset.univ.erase thread, (kind (places other)).toNat := by
  have asSum : population kind places = ∑ other, (kind (places other)).toNat := by
    rw [population, card_filter]
    apply sum_congr rfl
    intro other _
    cases kind (places other) <;> rfl
  rw [asSum, add_sum_erase _ (fun other => (kind (places other)).toNat)
    (mem_univ thread)]

theorem population_update [DecidableEq Thread] (thread : Thread) (place : Place) :
    population kind (update places thread place) + (kind (places thread)).toNat =
      population kind places + (kind place).toNat := by
  have others : ∑ other ∈ Finset.univ.erase thread,
      (kind (update places thread place other)).toNat =
        ∑ other ∈ Finset.univ.erase thread, (kind (places other)).toNat := by
    apply sum_congr rfl
    intro other isOther
    rw [update_of_ne (ne_of_mem_erase isOther)]
  have before := @population_eq_add_sum _ _ _ kind places _ thread
  have after := @population_eq_add_sum _ _ _ kind (update places thread place) _ thread
  rw [others, update_self] at after
  omega

theorem population_le_card : population kind places ≤ Fintype.card Thread :=
  card_le_univ _

theorem population_eq_zero (nobody : ∀ thread, kind (places thread) = false) :
    population kind places = 0 := by
  rw [population, card_eq_zero, filter_eq_empty_iff]
  intro thread _ isAt
  cases (nobody thread).symm.trans isAt

theorem population_eq_card (everybody : ∀ thread, kind (places thread) = true) :
    population kind places = Fintype.card Thread := by
  rw [population, filter_true_of_mem fun thread _ => everybody thread, card_univ]

end Pyroscope.Population
