import Mathlib.Data.Nat.ModEq

/-!
# Byte memory mapped twice in a row

An access at `address` reaches the byte `address % size` of a region which is mapped twice in a row.
-/

namespace Pyroscope.MirroredMemory

open BitVec

abbrev Memory := Nat → BitVec 8

def load (size : Nat) (memory : Memory) (address : Nat) : BitVec 8 :=
  memory (address % size)

def store (size : Nat) (memory : Memory) (address : Nat) (byte : BitVec 8) : Memory :=
  fun offset => if offset = address % size then byte else memory offset

def byteOf (word : BitVec 64) (index : Nat) : BitVec 8 :=
  (word >>> (8 * index)).setWidth 8

def storeBytes (size : Nat) (memory : Memory) (address : Nat) (word : BitVec 64) : Nat → Memory
  | 0 => memory
  | count + 1 =>
    store size (storeBytes size memory address word count) (address + count) (byteOf word count)

def loadBytes (size : Nat) (memory : Memory) (address : Nat) : Nat → BitVec 64
  | 0 => 0
  | count + 1 =>
    loadBytes size memory address count |||
      (load size memory (address + count)).setWidth 64 <<< (8 * count)

def storeWord (size : Nat) (memory : Memory) (address : Nat) (word : BitVec 64) : Memory :=
  storeBytes size memory address word 8

def loadWord (size : Nat) (memory : Memory) (address : Nat) : BitVec 64 :=
  loadBytes size memory address 8

def Apart (size left right : Nat) : Prop :=
  left % size ≠ right % size

theorem apart_of_window {size left right : Nat} (start : Nat) (leftLower : start ≤ left)
    (leftUpper : left < start + size) (rightLower : start ≤ right)
    (rightUpper : right < start + size) (distinct : left ≠ right) :
    Apart size left right := by
  intro same
  apply distinct
  have leftOffset : (left - start) % size = left - start := Nat.mod_eq_of_lt (by omega)
  have rightOffset : (right - start) % size = right - start := Nat.mod_eq_of_lt (by omega)
  have sameOffset : left - start ≡ right - start [MOD size] := by
    apply Nat.ModEq.add_right_cancel' start
    rw [Nat.sub_add_cancel leftLower, Nat.sub_add_cancel rightLower]
    exact same
  have : (left - start) % size = (right - start) % size := sameOffset
  omega

variable {size : Nat} {memory : Memory} {left right : Nat} {address other : Nat}

theorem load_congr (same : left % size = right % size) :
    load size memory left = load size memory right := by
  simp only [load, same]

theorem store_congr (same : left % size = right % size) (byte : BitVec 8) :
    store size memory left byte = store size memory right byte := by
  funext offset
  simp only [store, same]

@[simp]
theorem load_store_self (address : Nat) (byte : BitVec 8) :
    load size (store size memory address byte) address = byte := by
  simp [load, store]

theorem load_store_of_apart {byte : BitVec 8} (apart : Apart size other address) :
    load size (store size memory address byte) other = load size memory other := by
  unfold Apart at apart
  simp only [load, store, if_neg apart]

section Words

section

variable {left right : Nat} (same : left % size = right % size)
include same

private theorem mod_add_congr (index : Nat) : (left + index) % size = (right + index) % size :=
  Nat.ModEq.add_right index same

theorem storeBytes_congr (word : BitVec 64) (count : Nat) :
    storeBytes size memory left word count = storeBytes size memory right word count := by
  induction count with
  | zero => rfl
  | succ count ih =>
    simp only [storeBytes, ih]
    exact store_congr (mod_add_congr same count) _

theorem loadBytes_congr (count : Nat) :
    loadBytes size memory left count = loadBytes size memory right count := by
  induction count with
  | zero => rfl
  | succ count ih => simp only [loadBytes, ih, load_congr (mod_add_congr same count)]

end

variable {address count : Nat}

theorem loadBytes_eq_of_load_eq {size' : Nat} {other : Memory} (agree : ∀ index < count,
      load size memory (address + index) = load size' other (address + index)) :
    loadBytes size memory address count = loadBytes size' other address count := by
  induction count with
  | zero => rfl
  | succ count ih =>
    simp only [loadBytes]
    rw [ih fun index bound => agree index (Nat.lt_succ_of_lt bound),
      agree count (Nat.lt_succ_self count)]

variable {word : BitVec 64}

theorem load_storeBytes_of_apart {address other count : Nat}
    (apart : ∀ index < count, Apart size other (address + index)) :
    load size (storeBytes size memory address word count) other = load size memory other := by
  induction count with
  | zero => rfl
  | succ count ih =>
    simp only [storeBytes]
    rw [load_store_of_apart (apart count (Nat.lt_succ_self count))]
    exact ih fun index bound => apart index (Nat.lt_succ_of_lt bound)

theorem load_storeBytes_self (fits : count ≤ size) {index : Nat} (bound : index < count) :
    load size (storeBytes size memory address word count) (address + index) =
      byteOf word index := by
  induction count with
  | zero => omega
  | succ count ih =>
    simp only [storeBytes]
    by_cases last : index = count
    · subst index
      simp
    · have apart : Apart size (address + index) (address + count) :=
        apart_of_window address (by omega) (by omega) (by omega) (by omega) (by omega)
      rw [load_store_of_apart apart]
      exact ih (by omega) (by omega)

theorem getLsbD_loadBytes (address count bit : Nat) (bound : bit < 64) :
    (loadBytes size memory address count).getLsbD bit =
      (decide (bit < 8 * count) && (load size memory (address + bit / 8)).getLsbD (bit % 8)) := by
  induction count with
  | zero => simp [loadBytes]
  | succ count ih =>
    simp only [loadBytes, getLsbD_or, ih, getLsbD_shiftLeft, bound,
      getLsbD_setWidth, decide_true, Bool.true_and]
    by_cases low : bit < 8 * count
    · have within : bit < 8 * (count + 1) := by omega
      simp [low, within]
    · by_cases within : bit < 8 * (count + 1)
      · have byte : bit / 8 = count := by omega
        have offset : bit - 8 * count = bit % 8 := by omega
        simp [low, within, byte, offset]
        omega
      · have beyond : 8 ≤ bit - 8 * count := by omega
        simp [low, within, getLsbD_of_ge _ _ beyond]

theorem getLsbD_byteOf (word : BitVec 64) (index bit : Nat) :
    (byteOf word index).getLsbD bit = (decide (bit < 8) && word.getLsbD (8 * index + bit)) := by
  simp [byteOf]

theorem loadWord_storeWord_self {address : Nat} (fits : 8 ≤ size) :
    loadWord size (storeWord size memory address word) address = word := by
  apply eq_of_getLsbD_eq
  intro bit bound
  rw [loadWord, getLsbD_loadBytes _ _ _ bound, storeWord,
    load_storeBytes_self fits (by omega), getLsbD_byteOf]
  have small : bit % 8 < 8 := Nat.mod_lt _ (by decide)
  simp [bound, small, Nat.div_add_mod]

theorem storeWord_congr (same : left % size = right % size) (word : BitVec 64) :
    storeWord size memory left word = storeWord size memory right word :=
  storeBytes_congr same word 8

theorem loadWord_congr (same : left % size = right % size) :
    loadWord size memory left = loadWord size memory right :=
  loadBytes_congr same 8

theorem loadWord_eq_of_load_eq {size' : Nat} {other : Memory} {address : Nat}
    (agree : ∀ index < 8, load size memory (address + index) = load size' other (address + index)) :
    loadWord size memory address = loadWord size' other address :=
  loadBytes_eq_of_load_eq agree

theorem load_storeWord_of_apart (apart : ∀ index < 8, Apart size other (address + index)) :
    load size (storeWord size memory address word) other = load size memory other :=
  load_storeBytes_of_apart apart

end Words

end Pyroscope.MirroredMemory
