import Mathlib.Data.Nat.Digits.Lemmas
import Pyroscope.Lib.PaddedBuffer

/-!
# Paths of the files of a thread

The signal handler builds the path digit by digit. A store outside the buffer has no result.
-/

namespace Pyroscope.CpuTime.ThreadPaths

open PaddedBuffer List

def bytes (text : String) : List Nat := text.toList.map Char.toNat

def store (buffer : List Nat) (offset byte : Nat) : Option (List Nat) :=
  if offset < buffer.length then some (buffer.set offset byte) else none

/-- `strncpy` with the length of the text, which leaves no end behind it. -/
def strncpy (buffer : List Nat) (offset : Nat) : List Nat → Option (List Nat)
  | [] => some buffer
  | byte :: text => do strncpy (← store buffer offset byte) (offset + 1) text

def adjustBase (base tid : Nat) : Nat :=
  if base > tid then adjustBase (base / 10) tid else base
termination_by base

def writeDigits (base tid offset : Nat) (path : List Nat) : Option (Nat × List Nat) :=
  if 0 < base ∧ offset < 64 then do
    writeDigits (base / 10) (tid % base) (offset + 1) (← store path offset (tid / base + '0'.toNat))
  else some (offset, path)
termination_by base

/-- What both functions do after the prefix. The result tells whether they go on. -/
def writeTask (file : String) (tid : Nat) (path : List Nat) (capacity : Nat) :
    Option (Bool × List Nat) := do
  let (offset, path) ← writeDigits (adjustBase 1000000000 tid) tid 16 path
  if offset ≥ capacity ∨ offset + 5 ≥ capacity then some (false, path)
  else some (true, ← strncpy path offset (bytes file))

def buildThreadStatPath (tid : Nat) (statPath : List Nat) (capacity : Nat) :
    Option (Bool × List Nat) := do
  writeTask "/stat" tid (← strncpy statPath 0 (bytes "/proc/self/task/")) capacity

/-- `GetNativeThreadName` up to the path which it opens. -/
def getNativeThreadName (tid : Nat) : Option (Bool × List Nat) :=
  writeTask "/comm" tid (padded 64 (bytes "/proc/self/task/")) 64

def decimal (number : Nat) : List Nat := (Nat.digits 10 number).reverse.map (· + '0'.toNat)

theorem decimal_append {number digit : Nat} (small : digit < 10) (leads : digit ≠ 0 ∨ number ≠ 0) :
    decimal (digit + 10 * number) = decimal number ++ [digit + '0'.toNat] := by
  simp [decimal, Nat.digits_add 10 (by decide) digit number small leads]

theorem length_decimal_le {number : Nat} (small : number < 2 ^ 31) :
    (decimal number).length ≤ 10 := by
  rw [decimal, length_map, length_reverse, Nat.digits_length_le_iff (by decide)]
  omega

section Buffer

variable {capacity : Nat}

theorem store_padded {text : List Nat} {byte : Nat} (room : text.length < capacity) :
    store (padded capacity text) text.length byte = some (padded capacity (text ++ [byte])) := by
  rw [store, if_pos, set_padded room]
  rw [padded, length_append, length_replicate]
  omega

theorem strncpy_padded (text more : List Nat) (room : text.length + more.length ≤ capacity) :
    strncpy (padded capacity text) text.length more = some (padded capacity (text ++ more)) := by
  induction more generalizing text with
  | nil => rw [strncpy, append_nil]
  | cons byte more ih =>
    rw [length_cons] at room
    have rest := ih (text ++ [byte]) (by rw [length_append, length_singleton]; omega)
    rw [append_assoc, length_append] at rest
    rw [strncpy, store_padded (by omega)]
    exact rest

end Buffer

theorem exists_adjustBase_eq {tid : Nat} (positive : 0 < tid) (length : Nat)
    (small : tid < 10 ^ (length + 1)) :
    ∃ digits ≤ length, adjustBase (10 ^ length) tid = 10 ^ digits ∧ 10 ^ digits ≤ tid ∧
      tid < 10 ^ (digits + 1) := by
  induction length with
  | zero =>
    refine ⟨0, le_rfl, ?_, positive, small⟩
    rw [adjustBase, if_neg]
    omega
  | succ length ih =>
    rw [adjustBase]
    split
    case isTrue above =>
      rw [Nat.pow_succ, Nat.mul_div_cancel _ (by decide)]
      rcases ih above with ⟨digits, fewer, same, bounds⟩
      exact ⟨digits, by omega, same, bounds⟩
    case isFalse below => exact ⟨length + 1, le_rfl, rfl, by omega, small⟩

theorem writeDigits_eq (front : List Nat) (left number rest : Nat) (small : rest < 10 ^ left)
    (leads : number ≠ 0 ∨ 10 ^ left ≤ rest * 10)
    (room : (front ++ decimal number).length + left ≤ 64) :
    writeDigits (10 ^ left / 10) rest (front ++ decimal number).length
      (padded 64 (front ++ decimal number)) =
        some ((front ++ decimal (rest + 10 ^ left * number)).length,
          padded 64 (front ++ decimal (rest + 10 ^ left * number))) := by
  induction left generalizing number rest with
  | zero =>
    have none : rest = 0 := by omega
    rw [writeDigits, if_neg (by omega), none, pow_zero, Nat.zero_add, Nat.one_mul]
  | succ left ih =>
    rw [Nat.pow_succ] at small leads
    have positive : 0 < 10 ^ left := Nat.pow_pos (by decide)
    have digit : rest / 10 ^ left < 10 := Nat.div_lt_of_lt_mul small
    have next : rest / 10 ^ left ≠ 0 ∨ number ≠ 0 := by
      refine leads.symm.imp_left fun first => ?_
      exact (Nat.div_pos (by omega) positive).ne'
    have written := decimal_append digit next
    rw [Nat.pow_succ, Nat.mul_div_cancel _ (by decide), writeDigits, if_pos ⟨positive, by omega⟩,
      store_padded (by omega)]
    have following := ih (rest / 10 ^ left + 10 * number) (rest % 10 ^ left) (Nat.mod_lt _ positive)
      (.inl (by grind)) (by rw [written]; simp at room ⊢; omega)
    have whole : rest % 10 ^ left + 10 ^ left * (rest / 10 ^ left + 10 * number) =
        rest + 10 ^ left * 10 * number := by
      rw [Nat.mul_add, ← Nat.add_assoc, Nat.mod_add_div, Nat.mul_assoc]
    rw [whole, written, ← append_assoc, length_append, length_singleton] at following
    exact following

def taskPath (tid : Nat) (file : String) : List Nat :=
  bytes "/proc/self/task/" ++ decimal tid ++ bytes file

section Paths

variable {tid : Nat} (positive : 0 < tid) (small : tid < 2 ^ 31) {file : String}
  (short : (bytes file).length = 5)
include small short

theorem length_taskPath_le : (taskPath tid file).length ≤ 31 := by
  have length := length_decimal_le small
  have front : (bytes "/proc/self/task/").length = 16 := by decide +kernel
  rw [taskPath, length_append, length_append]
  omega

include positive

theorem writeTask_eq : writeTask file tid (padded 64 (bytes "/proc/self/task/")) 64 =
    some (true, padded 64 (taskPath tid file)) := by
  rcases exists_adjustBase_eq positive 9 (by omega) with ⟨digits, few, base, lower, upper⟩
  have front : (bytes "/proc/self/task/" ++ decimal 0).length = 16 := by decide +kernel
  have written := writeDigits_eq (bytes "/proc/self/task/") (digits + 1) 0 tid upper
    (.inr (by rw [Nat.pow_succ]; omega)) (by omega)
  rw [Nat.pow_succ, Nat.mul_div_cancel _ (by decide), front, Nat.mul_zero, Nat.add_zero, decimal,
    Nat.digits_zero, reverse_nil, map_nil, append_nil] at written
  have room := length_taskPath_le small short
  rw [taskPath, length_append] at room
  change adjustBase 1000000000 tid = _ at base
  simp only [writeTask, base, written, Option.bind_eq_bind, Option.bind_some]
  rw [if_neg (by omega), strncpy_padded _ _ (by omega)]
  rfl

end Paths

/-- The paths of both files of a thread lie in their buffers, with an end behind them. -/
theorem thread_paths_built (tid : Nat) (positive : 0 < tid) (small : tid < 2 ^ 31) :
    buildThreadStatPath tid (replicate 64 0) 64 =
        some (true, padded 64 (taskPath tid "/stat")) ∧
      getNativeThreadName tid = some (true, padded 64 (taskPath tid "/comm")) ∧
      (taskPath tid "/stat").length < 64 ∧ (taskPath tid "/comm").length < 64 := by
  have stat : (bytes "/stat").length = 5 := by decide +kernel
  have comm : (bytes "/comm").length = 5 := by decide +kernel
  refine ⟨?_, writeTask_eq positive small comm, ?_, ?_⟩
  · have front : strncpy (padded 64 []) 0 (bytes "/proc/self/task/") = _ :=
      strncpy_padded [] (bytes "/proc/self/task/") (by decide +kernel)
    rw [buildThreadStatPath, ← nil_append (replicate 64 0)]
    change (do writeTask "/stat" tid (← strncpy (padded 64 []) 0 _) 64) = _
    rw [front]
    exact writeTask_eq positive small stat
  · exact (length_taskPath_le small stat).trans_lt (by decide)
  · exact (length_taskPath_le small comm).trans_lt (by decide)

/-- The thread 2026. -/
theorem thread_path_built_2026 : 0 < 2026 ∧ 2026 < 2 ^ 31 ∧
    buildThreadStatPath 2026 (replicate 64 0) 64 =
      some (true, padded 64 (bytes "/proc/self/task/2026/stat")) := by
  have written : taskPath 2026 "/stat" = bytes "/proc/self/task/2026/stat" := by decide +kernel
  refine ⟨by decide, by decide, ?_⟩
  rw [← written]
  exact (thread_paths_built 2026 (by decide) (by decide)).1

end Pyroscope.CpuTime.ThreadPaths
