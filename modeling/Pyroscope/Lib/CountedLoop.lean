import Mathlib.Algebra.Group.Nat.Defs

/-!
# Loops over a machine counter

The counter of a loop is a machine word, which may wrap around. A loop which exceeds its bound has
no result.
-/

universe u

namespace Pyroscope.CountedLoop

variable {width : Nat} {State : Type u}

def forLoop (test : BitVec width → Bool) (body : BitVec width → State → Option State) :
    Nat → BitVec width → State → Option State
  | 0, _, _ => none
  | fuel + 1, index, state =>
    if test index then (body index state).bind (forLoop test body fuel (index + 1))
    else some state

variable {test : BitVec width → Bool} {body : BitVec width → State → Option State}
  {fuel first limit : Nat} {state : State}

theorem forLoop_of_invariant (invariant : Nat → State → Prop) (ordered : first ≤ limit)
    (enough : limit - first < fuel)
    (tested : ∀ index ≤ limit, test (.ofNat width index) = decide (index < limit))
    (preserved : ∀ index state, first ≤ index → index < limit → invariant index state →
      ∃ after, body (.ofNat width index) state = some after ∧ invariant (index + 1) after)
    (initial : invariant first state) :
    ∃ after, forLoop test body fuel (.ofNat width first) state = some after ∧
      invariant limit after := by
  induction fuel generalizing first state with
  | zero => omega
  | succ fuel ih =>
    simp only [forLoop, tested first ordered, decide_eq_true_eq]
    split
    case isTrue inside =>
      rcases preserved first state (Nat.le_refl first) inside initial with ⟨after, ran, holds⟩
      have next : BitVec.ofNat width first + 1 = .ofNat width (first + 1) :=
        (BitVec.ofNat_add first 1).symm
      rw [ran, Option.bind_some, next]
      apply ih
      · exact inside
      · omega
      · intro index state behind
        exact preserved index state (by omega)
      · exact holds
    case isFalse outside =>
      have same : first = limit := by omega
      exact ⟨state, rfl, same ▸ initial⟩

theorem forLoop_ult {limit : BitVec width} (invariant : Nat → State → Prop)
    (enough : limit.toNat < fuel)
    (preserved : ∀ index state, index < limit.toNat → invariant index state →
      ∃ after, body (.ofNat width index) state = some after ∧ invariant (index + 1) after)
    (initial : invariant 0 state) :
    ∃ after, forLoop (fun index => index.ult limit) body fuel 0 state = some after ∧
      invariant limit.toNat after := by
  apply forLoop_of_invariant invariant (Nat.zero_le _)
  · omega
  · intro index ordered
    have bound := limit.isLt
    simp [BitVec.ult, Nat.mod_eq_of_lt (show index < 2 ^ width by omega)]
  · intro index state _
    exact preserved index state
  · exact initial

theorem forLoop_ule {limit : BitVec width} (invariant : Nat → State → Prop)
    (bound : limit.toNat + 1 < 2 ^ width) (enough : limit.toNat < fuel)
    (preserved : ∀ index state, index < limit.toNat → invariant index state →
      ∃ after, body (.ofNat width (index + 1)) state = some after ∧ invariant (index + 1) after)
    (initial : invariant 0 state) :
    ∃ after, forLoop (fun index => index.ule limit) body fuel 1 state = some after ∧
      invariant limit.toNat after := by
  have loop : ∃ after, forLoop (fun index => index.ule limit) body fuel (.ofNat width 1) state =
      some after ∧ (fun index => invariant (index - 1)) (limit.toNat + 1) after := by
    apply forLoop_of_invariant (fun index => invariant (index - 1))
    · exact Nat.le_add_left 1 _
    · omega
    · intro index ordered
      simp only [BitVec.ule, BitVec.toNat_ofNat, Nat.lt_succ_iff,
        Nat.mod_eq_of_lt (show index < 2 ^ width by omega)]
    · intro index state positive inside holds
      have before := preserved (index - 1) state (by omega) holds
      rwa [Nat.sub_add_cancel positive] at before
    · exact initial
  exact loop

end Pyroscope.CountedLoop
