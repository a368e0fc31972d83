import Mathlib.Data.List.Basic

/-!
# Chains of nodes in memory

`IsChain next head nodes` says that the pointers from `head` on lead through exactly these nodes.
-/

namespace Pyroscope.LinkedChain

universe u

variable {Node : Type u}

def IsChain (next : Node → Option Node) : Option Node → List Node → Prop
  | head, [] => head = none
  | head, node :: rest => head = some node ∧ IsChain next (next node) rest

variable {next : Node → Option Node} {head : Option Node} {node : Node} {nodes rest : List Node}

theorem IsChain.cons (linked : next node = head) (chain : IsChain next head nodes) :
    IsChain next (some node) (node :: nodes) := by
  refine ⟨rfl, ?_⟩
  rw [linked]
  exact chain

theorem IsChain.exists_eq_cons (chain : IsChain next (some node) nodes) :
    ∃ rest, nodes = node :: rest ∧ IsChain next (next node) rest := by
  cases nodes with
  | nil => cases chain
  | cons first rest =>
    rcases chain with ⟨same, onwards⟩
    cases same
    exact ⟨rest, rfl, onwards⟩

variable [DecidableEq Node]

theorem IsChain.update (chain : IsChain next head nodes) (outside : node ∉ nodes)
    (target : Option Node) : IsChain (Function.update next node target) head nodes := by
  induction nodes generalizing head with
  | nil => exact chain
  | cons first rest ih =>
    rcases chain with ⟨same, onwards⟩
    rw [List.mem_cons, not_or] at outside
    refine ⟨same, ?_⟩
    rw [Function.update_of_ne (Ne.symm outside.1)]
    exact ih onwards outside.2

end Pyroscope.LinkedChain
