import Mathlib.Algebra.Group.Nat.Defs
import Mathlib.Algebra.Ring.Int.Defs
import Pyroscope.Lib.Transition

/-!
# The counts of a sampling window

`AddSample(limit)` raises the count up to the limit, `Keep` without looking at it. The call which
reaches the limit counts a sample which is not kept.
-/

namespace Pyroscope.AdaptiveSampler

open Transition

def int64 (value : Int) : Int := Int.bmod value (2 ^ 64)

/-- Where a thread is in `AddSample(limit)`, if it is in it. -/
inductive Place where
  | outside
  | loading
  | loaded (previousValue : Int)
  deriving DecidableEq

structure Counts (Thread : Type) where
  sampleCount : Int
  threads : Thread → Place
  /-- The calls of `AddSample(limit)` which have returned, and those among them with success. -/
  finished : Nat
  succeeded : Nat
  kept : Nat
  decreased : Bool

inductive Event (Thread : Type) where
  | addSample (thread : Thread)
  | load (thread : Thread)
  | compareExchange (thread : Thread)
  | keep (thread : Thread)
  deriving DecidableEq

namespace Counts

variable {Thread : Type}

def reset : Counts Thread where
  sampleCount := 0
  threads _ := .outside
  finished := 0
  succeeded := 0
  kept := 0
  decreased := false

def store (counts : Counts Thread) (value : Int) : Counts Thread :=
  { counts with
    sampleCount := value
    decreased := counts.decreased || decide (value < counts.sampleCount) }

/-- What `AddSample(limit)` wants to make of the value it has loaded. -/
def newValue (limit previousValue : Int) : Int := min (int64 (previousValue + 1)) limit

def addSample (limit : Int) (counts : Counts Thread) : Counts Thread :=
  let value := newValue limit counts.sampleCount
  { counts.store value with
    finished := counts.finished + 1
    succeeded := if value < limit then counts.succeeded + 1 else counts.succeeded }

def keep (counts : Counts Thread) : Counts Thread :=
  { counts.store (int64 (counts.sampleCount + 1)) with kept := counts.kept + 1 }

section

variable [DecidableEq Thread]

def put (counts : Counts Thread) (thread : Thread) (place : Place) : Counts Thread :=
  { counts with threads := Function.update counts.threads thread place }

def next (limit : Int) (counts : Counts Thread) : Event Thread → Option (Counts Thread)
  | .addSample thread =>
    if counts.threads thread = .outside then some (counts.put thread .loading) else none
  | .load thread =>
    if counts.threads thread = .loading then
      some (counts.put thread (.loaded counts.sampleCount))
    else none
  | .compareExchange thread =>
    match counts.threads thread with
    | .loaded previousValue =>
      if counts.sampleCount = previousValue then
        some ((counts.put thread .outside).addSample limit)
      else some (counts.put thread .loading)
    | .outside | .loading => none
  | .keep thread => if counts.threads thread = .outside then some counts.keep else none

def system (Thread : Type) [DecidableEq Thread] (limit : Int) :
    System (Counts Thread) (Event Thread) :=
  .ofFunction .reset (next limit)

end

variable {counts after : Counts Thread} {thread : Thread} {place : Place} {limit value : Int}
  {event : Event Thread} {events : List (Event Thread)}

/-! ## What a call makes of the count -/

theorem int64_succ_cases (nonneg : 0 ≤ value) (word : value < 2 ^ 63) :
    value + 1 < 2 ^ 63 ∧ int64 (value + 1) = value + 1 ∨
      value + 1 = 2 ^ 63 ∧ int64 (value + 1) < 0 := by
  rw [int64, Int.bmod_def]
  omega

theorem newValue_cases (positive : 1 ≤ limit) (wordLimit : limit < 2 ^ 63) (nonneg : 0 ≤ value)
    (word : value < 2 ^ 63) :
    value + 1 < limit ∧ newValue limit value = value + 1 ∨
      limit ≤ value + 1 ∧ value + 1 < 2 ^ 63 ∧ newValue limit value = limit ∨
      value + 1 = 2 ^ 63 ∧ newValue limit value < 0 := by
  rw [newValue]
  rcases int64_succ_cases nonneg word with ⟨fits, same⟩ | ⟨full, negative⟩
  · omega
  · omega

theorem store_decreased :
    (counts.store value).decreased = false ↔
      counts.decreased = false ∧ counts.sampleCount ≤ value := by
  simp [store]

/-- While the count has not gone down it covers the samples which were kept. -/
@[mk_iff]
structure Standing (limit : Int) (counts : Counts Thread) : Prop where
  nonneg : 0 ≤ counts.sampleCount
  word : counts.sampleCount < 2 ^ 63
  covers : (counts.succeeded + counts.kept : Int) ≤ counts.sampleCount
  alone : counts.kept = 0 →
    counts.sampleCount = min (counts.finished : Int) limit ∧ counts.succeeded < limit

def Sound (limit : Int) (counts : Counts Thread) : Prop :=
  counts.decreased = false → counts.Standing limit

/--
The count has never gone down, it is the number of samples which were kept, and without `Keep` as
many calls have succeeded as the limit allows.
-/
@[mk_iff]
structure Exact (limit : Int) (counts : Counts Thread) : Prop where
  increasing : counts.decreased = false
  count : counts.sampleCount = counts.succeeded + counts.kept
  succeeded : counts.kept = 0 → (counts.succeeded : Int) = min (counts.finished : Int) limit

theorem sound_reset (positive : 1 ≤ limit) : (reset : Counts Thread).Sound limit := by
  intro _
  refine ⟨?_, ?_, ?_, ?_⟩ <;> simp only [reset] <;> omega

/-- What an exchange can do: keep a sample, stay at or go to the limit, or overflow. -/
theorem addSample_cases (positive : 1 ≤ limit) (wordLimit : limit < 2 ^ 63)
    (nonneg : 0 ≤ counts.sampleCount) (word : counts.sampleCount < 2 ^ 63) :
    counts.sampleCount + 1 < limit ∧ counts.addSample limit =
      { counts.store (counts.sampleCount + 1) with
        finished := counts.finished + 1, succeeded := counts.succeeded + 1 } ∨
    limit ≤ counts.sampleCount + 1 ∧ counts.sampleCount + 1 < 2 ^ 63 ∧ counts.addSample limit =
      { counts.store limit with finished := counts.finished + 1 } ∨
    counts.sampleCount + 1 = 2 ^ 63 ∧ (counts.addSample limit).decreased = true := by
  rcases newValue_cases positive wordLimit nonneg word with
    ⟨below, value⟩ | ⟨reached, fits, value⟩ | ⟨full, negative⟩
  · refine .inl ⟨below, ?_⟩
    simp only [addSample, value, if_pos below]
  · refine .inr (.inl ⟨reached, fits, ?_⟩)
    simp only [addSample, value, if_neg (Int.lt_irrefl limit)]
    rfl
  · refine .inr (.inr ⟨full, ?_⟩)
    simp only [addSample, store, Bool.or_eq_true, decide_eq_true_eq]
    omega

theorem Sound.addSample (positive : 1 ≤ limit) (wordLimit : limit < 2 ^ 63)
    (sound : counts.Sound limit) : (counts.addSample limit).Sound limit := by
  intro increasing
  have before : counts.decreased = false := (store_decreased.mp increasing).1
  rcases sound before with ⟨nonneg, word, covers, alone⟩
  rcases addSample_cases positive wordLimit nonneg word with
    ⟨below, result⟩ | ⟨reached, fits, result⟩ | ⟨-, down⟩
  · rw [result]
    refine ⟨?_, ?_, ?_, ?_⟩ <;> simp only [store]
    · omega
    · omega
    · omega
    · intro unkept
      omega
  · rw [result] at increasing ⊢
    have up : counts.sampleCount ≤ limit := (store_decreased.mp increasing).2
    refine ⟨?_, ?_, ?_, ?_⟩ <;> simp only [store]
    · omega
    · exact wordLimit
    · omega
    · intro unkept
      omega
  · rw [down] at increasing
    exact absurd increasing (by decide)

theorem exact_addSample (positive : 1 ≤ limit) (wordLimit : limit < 2 ^ 63)
    (sound : counts.Sound limit) :
    (counts.addSample limit).Exact limit ↔ counts.Exact limit ∧
      (counts.sampleCount + 1 < limit ∨
        counts.sampleCount = limit ∧ counts.sampleCount + 1 < 2 ^ 63) := by
  by_cases before : counts.decreased = false
  case neg =>
    constructor
    · intro exact
      exact absurd (store_decreased.mp exact.increasing).1 before
    · intro both
      exact absurd both.1.increasing before
  case pos =>
    rcases sound before with ⟨nonneg, word, covers, alone⟩
    rcases addSample_cases positive wordLimit nonneg word with
      ⟨below, result⟩ | ⟨reached, fits, result⟩ | ⟨full, down⟩
    · rw [result]
      constructor
      · rintro ⟨-, count, succeeded⟩
        simp only [store] at count succeeded
        refine ⟨⟨before, by omega, ?_⟩, .inl below⟩
        intro unkept
        omega
      · rintro ⟨⟨-, count, succeeded⟩, -⟩
        refine ⟨store_decreased.mpr ⟨before, by omega⟩, ?_, ?_⟩ <;> simp only [store]
        · omega
        · intro unkept
          omega
    · rw [result]
      constructor
      · rintro ⟨increasing, count, succeeded⟩
        have up : counts.sampleCount ≤ limit := (store_decreased.mp increasing).2
        simp only [store] at count succeeded
        refine ⟨⟨before, by omega, ?_⟩, .inr (by omega)⟩
        intro unkept
        omega
      · rintro ⟨⟨-, count, succeeded⟩, below | ⟨full, -⟩⟩
        · omega
        · refine ⟨store_decreased.mpr ⟨before, by omega⟩, ?_, ?_⟩ <;> simp only [store]
          · omega
          · intro unkept
            omega
    · constructor
      · intro exact
        rw [exact.increasing] at down
        exact absurd down (by decide)
      · rintro ⟨-, below | ⟨-, fits⟩⟩
        · omega
        · omega

theorem Sound.keep (sound : counts.Sound limit) : counts.keep.Sound limit := by
  intro increasing
  rcases store_decreased.mp increasing with ⟨before, up⟩
  rcases sound before with ⟨nonneg, word, covers, -⟩
  rcases int64_succ_cases nonneg word with ⟨fits, same⟩ | ⟨-, negative⟩
  · refine ⟨?_, ?_, ?_, ?_⟩ <;> simp only [Counts.keep, store, same]
    · omega
    · exact fits
    · omega
    · exact fun kept => absurd kept (Nat.succ_ne_zero _)
  · omega

theorem exact_keep (sound : counts.Sound limit) :
    counts.keep.Exact limit ↔ counts.Exact limit ∧ counts.sampleCount + 1 < 2 ^ 63 := by
  constructor
  · rintro ⟨increasing, count, -⟩
    rcases store_decreased.mp increasing with ⟨before, up⟩
    rcases sound before with ⟨nonneg, word, covers, alone⟩
    rcases int64_succ_cases nonneg word with ⟨fits, same⟩ | ⟨-, negative⟩
    · simp only [keep, store, same] at count
      refine ⟨⟨before, by omega, ?_⟩, fits⟩
      intro unkept
      omega
    · omega
  · rintro ⟨⟨before, count, -⟩, fits⟩
    rcases sound before with ⟨nonneg, word, -, -⟩
    rcases int64_succ_cases nonneg word with ⟨-, same⟩ | ⟨full, -⟩
    · refine ⟨store_decreased.mpr ⟨before, by omega⟩, ?_, ?_⟩ <;> simp only [keep, store, same]
      · omega
      · exact fun kept => absurd kept (Nat.succ_ne_zero _)
    · omega

/-! ## Whole runs -/

variable [DecidableEq Thread]

/--
A call exchanges the count well below the limit or exactly at it, and the count does not
overflow.
-/
def Within (limit : Int) (counts : Counts Thread) : Event Thread → Prop
  | .compareExchange thread =>
    counts.threads thread = .loaded counts.sampleCount →
      counts.sampleCount + 1 < limit ∨ counts.sampleCount = limit ∧ counts.sampleCount + 1 < 2 ^ 63
  | .keep _ => counts.sampleCount + 1 < 2 ^ 63
  | .addSample _ | .load _ => True

theorem sound_put : (counts.put thread place).Sound limit ↔ counts.Sound limit := by
  simp only [Sound, standing_iff, put]

theorem exact_put : (counts.put thread place).Exact limit ↔ counts.Exact limit := by
  simp only [exact_iff, put]

theorem exact_step (positive : 1 ≤ limit) (wordLimit : limit < 2 ^ 63)
    (sound : counts.Sound limit) (taken : (system Thread limit).step counts event after) :
    after.Sound limit ∧ (after.Exact limit ↔ counts.Exact limit ∧ counts.Within limit event) := by
  have result : counts.next limit event = some after := taken
  cases event with
  | addSample thread | load thread =>
    rcases Option.ite_none_right_eq_some.mp result with ⟨-, ⟨⟩⟩
    exact ⟨sound_put.mpr sound, exact_put.trans (and_iff_left trivial).symm⟩
  | compareExchange thread =>
    simp only [next] at result
    split at result
    next previousValue here =>
      split at result
      case isTrue same =>
        cases result
        subst previousValue
        have within : counts.Within limit (.compareExchange thread) ↔
            (counts.sampleCount + 1 < limit ∨
              counts.sampleCount = limit ∧ counts.sampleCount + 1 < 2 ^ 63) :=
          ⟨fun within => within here, fun holds _ => holds⟩
        have soundPut : (counts.put thread .outside).Sound limit := sound_put.mpr sound
        refine ⟨soundPut.addSample positive wordLimit, ?_⟩
        rw [exact_addSample positive wordLimit soundPut, exact_put, within]
        rfl
      case isFalse changed =>
        cases result
        have vacuous : counts.Within limit (.compareExchange thread) := by
          intro loaded
          rw [here, Place.loaded.injEq] at loaded
          exact absurd loaded.symm changed
        exact ⟨sound_put.mpr sound, exact_put.trans (and_iff_left vacuous).symm⟩
    next => cases result
    next => cases result
  | keep thread =>
    rcases Option.ite_none_right_eq_some.mp result with ⟨-, ⟨⟩⟩
    exact ⟨sound.keep, exact_keep sound⟩

/-- The count is exact after exactly the runs which stay within the limit. -/
theorem counts_exact_iff (positive : 1 ≤ limit) (wordLimit : limit < 2 ^ 63)
    (run : (system Thread limit).Run .reset events counts) :
    counts.Exact limit ↔
      ((system Thread limit).restrict (Within limit)).Run .reset events counts := by
  refine System.Run.restrict_iff (Sound limit) (Exact limit) (sound_reset positive) ?_ ?_ run
  · refine ⟨rfl, rfl, ?_⟩
    intro _
    simp only [system, System.ofFunction, reset]
    omega
  · intro counts event after sound taken
    exact exact_step positive wordLimit sound taken

instance (limit : Int) (counts : Counts Thread) : ∀ event, Decidable (counts.Within limit event)
  | .compareExchange _ => inferInstanceAs (Decidable (_ → _ ∨ _))
  | .keep _ => inferInstanceAs (Decidable (_ < _))
  | .addSample _ | .load _ => inferInstanceAs (Decidable True)

/-- Two calls below the limit, one of which has to load the count again, and one `Keep`. -/
theorem two_calls_and_keep_exact : ∃ counts,
    (system Bool 4).Run .reset [.addSample true, .load true, .addSample false, .load false,
      .compareExchange false, .compareExchange true, .load true, .compareExchange true,
      .keep false] counts ∧
    counts.sampleCount = 3 ∧ counts.Exact 4 := by
  refine System.exists_run_of_restricted_exec (Within 4) rfl (by decide +kernel) ?_
  intro run
  exact ⟨rfl, (counts_exact_iff (by decide) (by decide) run.of_restrict).mpr run⟩

/-- The only call with a limit of one fails and is counted nevertheless. One beyond the limit takes
the count back. -/
theorem call_reaches_limit :
    (∃ counts, (system Unit 1).Run .reset [.addSample (), .load (), .compareExchange ()] counts ∧
      counts.finished = 1 ∧ counts.succeeded = 0 ∧ counts.kept = 0 ∧ counts.sampleCount = 1) ∧
    ∃ counts, (system Unit 1).Run .reset
        [.keep (), .keep (), .addSample (), .load (), .compareExchange ()] counts ∧
      counts.kept = 2 ∧ counts.sampleCount = 1 ∧ counts.decreased = true :=
  ⟨⟨_, System.run_of_exec rfl, rfl, rfl, rfl, rfl⟩, ⟨_, System.run_of_exec rfl, rfl, rfl, rfl⟩⟩

end Counts

end Pyroscope.AdaptiveSampler
