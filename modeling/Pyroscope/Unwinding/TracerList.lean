import Mathlib.Data.List.Nodup
import Pyroscope.Lib.LinkedChain
import Pyroscope.Lib.Pool
import Pyroscope.Lib.Transition

/-!
# The free list of tracers

`AcquireTracer` reads the successor of the head before it exchanges the head. If the successor has
not changed by then, tracers are neither shared nor lost.
-/

namespace Pyroscope.Unwinding

open LinkedChain Transition

/-- Where a scoped tracer is; the last three belong to `ReleaseTracer`. -/
inductive TracerPc where
  | empty
  | loadingHead
  | loadingNext (head : Nat)
  | exchanging (head : Nat) (next : Option Nat)
  | clearingNext (node : Nat)
  | holding (node : Nat)
  | loadingHeadFor (node : Nat)
  | storingNext (node : Nat) (head : Option Nat)
  | exchangingFor (node : Nat) (head : Option Nat)
  deriving DecidableEq

/-- The node which a scoped tracer has to itself. -/
def TracerPc.node : TracerPc → Option Nat
  | clearingNext node => some node
  | holding node => some node
  | loadingHeadFor node => some node
  | storingNext node _ => some node
  | exchangingFor node _ => some node
  | _ => none

structure Factory where
  headTracer : Option Nat
  next : Nat → Option Nat
  tracers : Nat → TracerPc

inductive TracerStep where
  | acquire
  | release
  /-- The next atomic step of the call, whose exchange may fail spuriously. -/
  | advance (spurious : Bool)
  /-- The node moves to another scoped tracer, which is empty. -/
  | moveTo (target : Nat)
  deriving DecidableEq

structure TracerEvent where
  tracer : Nat
  step : TracerStep
  deriving DecidableEq

namespace Factory

def create : Nat → Factory
  | 0 => ⟨none, fun _ => none, fun _ => .empty⟩
  | nbTracers + 1 =>
    let factory := create nbTracers
    { factory with
      next := Function.update factory.next nbTracers factory.headTracer
      headTracer := some nbTracers }

variable (factory : Factory)

def goto (tracer : Nat) (pc : TracerPc) : Factory :=
  { factory with tracers := Function.update factory.tracers tracer pc }

def storeNext (node : Nat) (target : Option Nat) : Factory :=
  { factory with next := Function.update factory.next node target }

def advance (tracer : Nat) (spurious : Bool) : Option Factory :=
  match factory.tracers tracer with
  | .loadingHead =>
    match factory.headTracer with
    | none => some (factory.goto tracer .empty)
    | some head => some (factory.goto tracer (.loadingNext head))
  | .loadingNext head => some (factory.goto tracer (.exchanging head (factory.next head)))
  | .exchanging head next =>
    if factory.headTracer = some head ∧ !spurious then
      some ({ factory with headTracer := next }.goto tracer (.clearingNext head))
    else
      -- A failed exchange loads the head.
      match factory.headTracer with
      | none => some (factory.goto tracer .empty)
      | some head => some (factory.goto tracer (.loadingNext head))
  | .clearingNext node => some ((factory.storeNext node none).goto tracer (.holding node))
  | .loadingHeadFor node =>
    some (factory.goto tracer (.storingNext node factory.headTracer))
  | .storingNext node head =>
    some ((factory.storeNext node head).goto tracer (.exchangingFor node head))
  | .exchangingFor node head =>
    if factory.headTracer = head ∧ !spurious then
      some ({ factory with headTracer := some node }.goto tracer .empty)
    else some (factory.goto tracer (.storingNext node factory.headTracer))
  | _ => none

def after (event : TracerEvent) : Option Factory :=
  match event.step, factory.tracers event.tracer with
  | .acquire, .empty => some (factory.goto event.tracer .loadingHead)
  | .release, .holding node => some (factory.goto event.tracer (.loadingHeadFor node))
  | .advance spurious, _ => factory.advance event.tracer spurious
  | .moveTo target, .holding node =>
    if factory.tracers target = .empty then
      some ((factory.goto event.tracer .empty).goto target (.holding node))
    else none
  | _, _ => none

/-- A tracer which takes the head finds it with the successor which it has read. -/
def Unchanged (event : TracerEvent) : Prop :=
  ∀ head next, event.step = .advance false →
    factory.tracers event.tracer = .exchanging head next → factory.headTracer = some head →
    factory.next head = next

/-- No tracer is in the middle of a call. -/
def Quiescent : Prop :=
  ∀ tracer, factory.tracers tracer = .empty ∨ ∃ node, factory.tracers tracer = .holding node

/-- No two tracers hold the same node. -/
def Exclusive : Prop :=
  ∀ first second node, factory.tracers first = .holding node →
    factory.tracers second = .holding node → first = second

/-- Each node that was created is once on the free list or held once, and no other node is. -/
structure Partitioned (factory : Factory) (nbTracers : Nat) (free : List Nat) : Prop where
  chain : IsChain factory.next factory.headTracer free
  nodup : free.Nodup
  created : ∀ node ∈ free, node < nbTracers
  held : ∀ tracer node, factory.tracers tracer = .holding node → node < nbTracers ∧ node ∉ free
  complete : ∀ node < nbTracers, node ∈ free ∨ ∃ tracer, factory.tracers tracer = .holding node

end Factory

def factorySystem (nbTracers : Nat) : System Factory TracerEvent :=
  .ofFunction (.create nbTracers) Factory.after

/-! ## Tracers are neither shared nor lost -/

open Function List

namespace Factory

variable {factory later : Factory} {nbTracers tracer node : Nat} {free : List Nat} {pc : TracerPc}

def owned (factory : Factory) (tracer : Nat) : Option Nat :=
  (factory.tracers tracer).node

theorem owned_eq (place : factory.tracers tracer = pc) : factory.owned tracer = pc.node :=
  congrArg TracerPc.node place

theorem owned_goto (factory : Factory) (tracer : Nat) (pc : TracerPc) :
    (factory.goto tracer pc).owned = update factory.owned tracer pc.node := by
  funext other
  by_cases same : other = tracer
  · subst same
    simp [owned, goto]
  · simp [owned, goto, same]

theorem owned_goto_of_node_eq (same : pc.node = factory.owned tracer) :
    (factory.goto tracer pc).owned = factory.owned := by
  rw [owned_goto, same, update_eq_self]

theorem tracers_create (nbTracers tracer : Nat) : (create nbTracers).tracers tracer = .empty := by
  induction nbTracers with
  | zero => rfl
  | succ nbTracers ih => exact ih

theorem chain_create (nbTracers : Nat) :
    IsChain (create nbTracers).next (create nbTracers).headTracer
      (range nbTracers).reverse := by
  induction nbTracers with
  | zero => rfl
  | succ nbTracers ih =>
    rw [range_succ, reverse_append]
    apply LinkedChain.IsChain.cons
    · exact update_self ..
    · exact ih.update (by simp) _

/-- The nodes are divided, and what `ReleaseTracer` is about to push is linked to the list. -/
structure Sound (nbTracers : Nat) (factory : Factory) (free : List Nat) : Prop where
  divided : Pool.Divided (· < nbTracers) free factory.owned
  chain : IsChain factory.next factory.headTracer free
  prepared : ∀ tracer node head, factory.tracers tracer = .exchangingFor node head →
    factory.next node = head

namespace Sound

section

variable (sound : Sound nbTracers factory free)
include sound

theorem prepared_goto (elsewhere : ∀ node head, pc ≠ .exchangingFor node head) :
    ∀ other node head, (factory.goto tracer pc).tracers other = .exchangingFor node head →
      factory.next node = head := by
  intro other node head pushes
  by_cases same : other = tracer
  · subst same
    simp only [goto, update_self] at pushes
    exact absurd pushes (elsewhere node head)
  · simp only [goto, update_of_ne same] at pushes
    exact sound.prepared other node head pushes

theorem moved (same : pc.node = factory.owned tracer)
    (elsewhere : ∀ node head, pc ≠ .exchangingFor node head) :
    Sound nbTracers (factory.goto tracer pc) free := by
  constructor
  · rw [owned_goto_of_node_eq same]
    exact sound.divided
  · exact sound.chain
  · exact sound.prepared_goto elsewhere

theorem stored (owns : factory.owned tracer = some node) {target : Option Nat}
    (same : pc.node = some node)
    (linked : ∀ other head, pc = .exchangingFor other head → other = node ∧ head = target) :
    Sound nbTracers ((factory.storeNext node target).goto tracer pc) free := by
  have outside := (sound.divided.taken tracer node owns).2
  constructor
  · have unchanged : ((factory.storeNext node target).goto tracer pc).owned = factory.owned :=
      owned_goto_of_node_eq (same.trans owns.symm)
    rw [unchanged]
    exact sound.divided
  · exact sound.chain.update outside target
  · intro other node' head pushes
    by_cases isTracer : other = tracer
    · subst isTracer
      simp only [goto, update_self] at pushes
      rcases linked node' head pushes with ⟨rfl, rfl⟩
      exact update_self ..
    · simp only [goto, storeNext, update_of_ne isTracer] at pushes
      have ownsOther : factory.owned other = some node' := owned_eq pushes
      have different : node' ≠ node := by
        rintro rfl
        exact isTracer (sound.divided.unique other tracer node' ownsOther owns)
      simp only [goto, storeNext, update_of_ne different]
      exact sound.prepared other node' head pushes

theorem taken (atHead : factory.headTracer = some node) (idle : factory.owned tracer = none) :
    ∃ rest, Sound nbTracers
      ({ factory with headTracer := factory.next node }.goto tracer (.clearingNext node)) rest := by
  have chain := sound.chain
  rw [atHead] at chain
  rcases chain.exists_eq_cons with ⟨rest, rfl, onwards⟩
  refine ⟨rest, ?_, onwards, ?_⟩
  · rw [owned_goto]
    exact sound.divided.take idle
  · exact sound.prepared_goto (by simp)

theorem given (pushes : factory.tracers tracer = .exchangingFor node factory.headTracer) :
    Sound nbTracers ({ factory with headTracer := some node }.goto tracer .empty)
      (node :: free) := by
  have owns : factory.owned tracer = some node := owned_eq pushes
  constructor
  · rw [owned_goto]
    exact sound.divided.give owns
  · exact sound.chain.cons (sound.prepared tracer node _ pushes)
  · exact sound.prepared_goto (by simp)

theorem handedOver {target : Nat} (holds : factory.tracers tracer = .holding node)
    (idle : factory.tracers target = .empty) :
    Sound nbTracers ((factory.goto tracer .empty).goto target (.holding node)) free := by
  have owns : factory.owned tracer = some node := owned_eq holds
  have ownsNothing : factory.owned target = none := owned_eq idle
  constructor
  · rw [owned_goto, owned_goto]
    exact sound.divided.handOver owns ownsNothing
  · exact sound.chain
  · intro other node' head pushes
    by_cases isTarget : other = target
    · subst isTarget
      simp [goto] at pushes
    · simp only [goto, update_of_ne isTarget] at pushes
      exact sound.prepared_goto (by simp) other node' head pushes

end

theorem created (nbTracers : Nat) :
    Sound nbTracers (create nbTracers) (range nbTracers).reverse := by
  have nothing (tracer : Nat) : (create nbTracers).tracers tracer = .empty :=
    tracers_create nbTracers tracer
  constructor
  · constructor
    · exact nodup_reverse.mpr nodup_range
    · intro node isFree
      simpa using isFree
    · intro tracer node owns
      simp [owned, nothing, TracerPc.node] at owns
    · intro first second node owns
      simp [owned, nothing, TracerPc.node] at owns
    · intro node isNode
      exact .inl (by simpa using isNode)
  · exact chain_create nbTracers
  · intro tracer node head pushes
    rw [nothing] at pushes
    cases pushes

variable (sound : Sound nbTracers factory free)
include sound

theorem advance {spurious : Bool} (unchanged : factory.Unchanged ⟨tracer, .advance spurious⟩)
    (taken : factory.advance tracer spurious = some later) :
    ∃ free, Sound nbTracers later free := by
  simp only [Factory.advance] at taken
  split at taken
  case h_1 atPc =>
    have idle : factory.owned tracer = none := owned_eq atPc
    split at taken <;> cases taken
    · exact ⟨free, sound.moved idle.symm (by simp)⟩
    · exact ⟨free, sound.moved idle.symm (by simp)⟩
  case h_2 head atPc =>
    have idle : factory.owned tracer = none := owned_eq atPc
    cases taken
    exact ⟨free, sound.moved idle.symm (by simp)⟩
  case h_3 head next atPc =>
    have idle : factory.owned tracer = none := owned_eq atPc
    split at taken
    case isTrue exchanged =>
      rcases exchanged with ⟨atHead, succeeds⟩
      have notSpurious : spurious = false := by simpa using succeeds
      subst notSpurious
      cases taken
      have current := unchanged head next rfl atPc atHead
      subst current
      exact sound.taken atHead idle
    case isFalse =>
      split at taken <;> cases taken
      · exact ⟨free, sound.moved idle.symm (by simp)⟩
      · exact ⟨free, sound.moved idle.symm (by simp)⟩
  case h_4 node atPc =>
    have owns : factory.owned tracer = some node := owned_eq atPc
    cases taken
    exact ⟨free, sound.stored owns rfl (by simp)⟩
  case h_5 node atPc =>
    have owns : factory.owned tracer = some node := owned_eq atPc
    cases taken
    exact ⟨free, sound.moved owns.symm (by simp)⟩
  case h_6 node head atPc =>
    have owns : factory.owned tracer = some node := owned_eq atPc
    cases taken
    refine ⟨free, sound.stored owns rfl ?_⟩
    intro other head' pushes
    cases pushes
    exact ⟨rfl, rfl⟩
  case h_7 node head atPc =>
    have owns : factory.owned tracer = some node := owned_eq atPc
    split at taken
    case isTrue exchanged =>
      cases taken
      rw [← exchanged.1] at atPc
      exact ⟨node :: free, sound.given atPc⟩
    case isFalse =>
      cases taken
      exact ⟨free, sound.moved owns.symm (by simp)⟩
  case h_8 => cases taken

theorem next {event : TracerEvent} (unchanged : factory.Unchanged event)
    (taken : factory.after event = some later) : ∃ free, Sound nbTracers later free := by
  rcases event with ⟨tracer, step⟩
  simp only [after] at taken
  split at taken
  case h_1 atPc | h_2 node atPc =>
    cases taken
    exact ⟨free, sound.moved (owned_eq atPc).symm (by simp)⟩
  case h_3 => exact sound.advance unchanged taken
  case h_4 target node atPc =>
    split at taken
    case isTrue idle =>
      cases taken
      exact ⟨free, sound.handedOver atPc idle⟩
    case isFalse => cases taken
  case h_5 => cases taken

theorem exclusive : factory.Exclusive := by
  intro first second node holdsFirst holdsSecond
  apply sound.divided.unique first second node
  · simp [owned, holdsFirst, TracerPc.node]
  · simp [owned, holdsSecond, TracerPc.node]

theorem partitioned (quiescent : factory.Quiescent) : factory.Partitioned nbTracers free := by
  constructor
  · exact sound.chain
  · exact sound.divided.nodup
  · exact sound.divided.pooled
  · intro tracer node holds
    exact sound.divided.taken tracer node (owned_eq holds)
  · intro node isNode
    rcases sound.divided.complete node isNode with isFree | ⟨tracer, owns⟩
    · exact .inl isFree
    · rcases quiescent tracer with empty | ⟨other, holds⟩
      · simp [owned, empty, TracerPc.node] at owns
      · simp only [owned, holds, TracerPc.node, Option.some.injEq] at owns
        subst owns
        exact .inr ⟨tracer, holds⟩

end Sound

end Factory

theorem tracers_kept_apart {nbTracers : Nat} {events : List TracerEvent} {factory : Factory}
    (run : ((factorySystem nbTracers).restrict Factory.Unchanged).Run (.create nbTracers) events
      factory) :
    factory.Exclusive ∧ (factory.Quiescent → ∃ free, factory.Partitioned nbTracers free) := by
  have exists_sound : ∃ free, Factory.Sound nbTracers factory free := by
    refine run.invariant (fun factory => ∃ free, Factory.Sound nbTracers factory free)
      ⟨_, .created nbTracers⟩ ?_
    rintro state event later ⟨free, sound⟩ ⟨unchanged, taken⟩
    exact sound.next unchanged taken
  rcases exists_sound with ⟨free, sound⟩
  exact ⟨sound.exclusive, fun quiescent => ⟨free, sound.partitioned quiescent⟩⟩

section Runs

def advances (tracer count : Nat) : List TracerEvent :=
  replicate count ⟨tracer, .advance false⟩

def acquires (tracer : Nat) : List TracerEvent :=
  ⟨tracer, .acquire⟩ :: advances tracer 4

instance (factory : Factory) (event : TracerEvent) : Decidable (factory.Unchanged event) :=
  match pc : factory.tracers event.tracer with
  | .exchanging head next =>
    decidable_of_iff (event.step = .advance false → factory.headTracer = some head →
        factory.next head = next) <| by
      constructor
      · intro same other successor isStep isPc
        cases pc.symm.trans isPc
        exact same isStep
      · intro unchanged isStep
        exact unchanged head next isStep pc
  | .empty | .loadingHead | .loadingNext _ | .clearingNext _ | .holding _ | .loadingHeadFor _
  | .storingNext .. | .exchangingFor .. => .isTrue fun _ _ _ isPc => nomatch pc.symm.trans isPc

/-- Tracer 1 takes the node which tracer 0 is about to take; tracer 0 fails and takes the other one.
-/
def failedExchange : List TracerEvent :=
  ⟨0, .acquire⟩ :: advances 0 2 ++ acquires 1 ++ advances 0 4 ++ ⟨1, .release⟩ :: advances 1 3

theorem taken_after_failed_exchange :
    ∃ factory, ((factorySystem 2).restrict Factory.Unchanged).Run (.create 2) failedExchange
        factory ∧
      factory.tracers 0 = .holding 0 ∧ factory.headTracer = some 1 ∧ factory.Exclusive ∧
      (factory.Quiescent → ∃ free, factory.Partitioned 2 free) := by
  have run : ((factorySystem 2).restrict Factory.Unchanged).Run (.create 2) failedExchange _ :=
    System.run_restrict_of_exec rfl (by decide +kernel)
  exact ⟨_, run, rfl, rfl, tracers_kept_apart run⟩

/-- While tracer 0 is about to take node 1, both nodes are taken and node 1 is pushed back. -/
def staleExchange : List TracerEvent :=
  ⟨0, .acquire⟩ :: advances 0 2 ++ acquires 1 ++ acquires 2 ++ ⟨1, .release⟩ :: advances 1 3 ++
    advances 0 2 ++ acquires 3

theorem tracer_held_twice :
    ∃ factory, (factorySystem 2).Run (.create 2) staleExchange factory ∧
      factory.tracers 2 = .holding 0 ∧ factory.tracers 3 = .holding 0 ∧ ¬factory.Exclusive := by
  refine ⟨_, System.run_of_exec rfl, rfl, rfl, ?_⟩
  intro exclusive
  have same := exclusive 2 3 0 rfl rfl
  cases same

end Runs

end Pyroscope.Unwinding
